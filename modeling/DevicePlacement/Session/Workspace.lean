import DevicePlacement.Session.Basic

/-!
# Workspaces

A workspace is a directory with text files, which may lie in directories below
it. Of what lies around it only little is known: the directories above it, the
root and the null device, which is empty and drops what is written to it.

A path is followed from left to right, one name at a time (`Workspace.walk`).
The empty name and `.` stay where they are, `..` goes back, and any other name
has to stand for something in the directory that was reached. So a path fails at
the first name that is missing or that stands for a file with more names after
it, even if a later `..` would go back from there.

* `Workspace.read`: the text of a file;
* `Workspace.write`: the workspace with a file written;
* `Workspace.changes`: what has been written.
-/

namespace DevicePlacement

/-- A directory that a path can lead through. -/
inductive Directory
  /-- The workspace or a directory in it, by the names that lead there. -/
  | inside (names : List String)
  /-- A directory above the workspace. -/
  | above
  /-- The root of all directories. -/
  | root
  /-- The directory of the devices. -/
  | devices
  deriving DecidableEq, Repr

/-- The directory in which a directory lies. The root lies in itself. -/
def Directory.parent : Directory → Directory
  | inside [] => above
  | inside (name :: names) => inside (name :: names).dropLast
  | above => above
  | root | devices => root

/-- What a name stands for. -/
inductive Entry
  | directory (directory : Directory)
  | file (text : String)
  /-- A file that is always empty. -/
  | nullDevice
  | missing
  deriving DecidableEq, Repr

/-- The files of a directory, by the names that lead to them. -/
structure Workspace where
  files : List (List String × String)
  deriving DecidableEq, Repr

namespace Workspace

/-- The most bytes that a name can have. -/
def longestName : Nat := 255

/-- The most bytes that a path can have. -/
def longestPath : Nat := 4095

/-- Whether a name stays in its directory. -/
def stays (name : String) : Bool :=
  name = "" || name = "."

/-- The workspace with the given files by their paths. -/
def ofList (files : List (String × String)) : Workspace where
  files := files.map fun (path, text) => ((path.splitOn "/").filter (!stays ·), text)

/-- The text of the file that a list of names leads to. -/
def text? (workspace : Workspace) (names : List String) : Option String :=
  workspace.files.lookup names

/-- Whether a list of names leads to a directory, that is, whether a file lies behind it. -/
def isDirectory (workspace : Workspace) (names : List String) : Bool :=
  workspace.files.any fun (file, _) => names.isPrefixOf file && names.length < file.length

/-- What a name stands for among the entries of a directory. -/
def entry (workspace : Workspace) (directory : Directory) (name : String) : Entry :=
  match directory with
  | .inside names =>
    match workspace.text? (names ++ [name]) with
    | some text => .file text
    | none =>
      if workspace.isDirectory (names ++ [name]) then .directory (.inside (names ++ [name]))
      else .missing
  | .above => .missing
  | .root => if name = "dev" then .directory .devices else .missing
  | .devices => if name = "null" then .nullDevice else .missing

/-- Where a name leads from a directory. -/
def follow (workspace : Workspace) (directory : Directory) (name : String) :
    Except FileError Entry :=
  if stays name then .ok (.directory directory)
  else if name = ".." then .ok (.directory directory.parent)
  else if longestName < name.utf8ByteSize then .error .nameTooLong
  else .ok (workspace.entry directory name)

/-- The directory to which a list of names leads from another. -/
def walk (workspace : Workspace) : Directory → List String → Except FileError Directory
  | directory, [] => .ok directory
  | directory, name :: names => do
    match ← workspace.follow directory name with
    | .directory next => workspace.walk next names
    | .file _ | .nullDevice => .error .notDirectory
    | .missing => .error .notFound

/-- The directory that a path leads to with all its names but the last, and the
    last name. -/
def approach (workspace : Workspace) (path : String) : Except FileError (Directory × String) :=
  if path.toList.contains '\x00' then .error .nulCharacter
  else if path = "" then .error .notFound
  else if longestPath < path.utf8ByteSize then .error .nameTooLong
  else do
    let names := path.splitOn "/"
    let start := if path.startsWith "/" then Directory.root else .inside []
    return (← workspace.walk start names.dropLast, names.getLastD "")

/-- The text of a file. -/
def read (workspace : Workspace) (path : String) : Except FileError String := do
  let (directory, name) ← workspace.approach path
  match ← workspace.follow directory name with
  | .directory _ => .error .isDirectory
  | .file text => .ok text
  | .nullDevice => .ok ""
  | .missing => .error .notFound

/-- The workspace with the text of a file set. -/
def put (workspace : Workspace) (names : List String) (text : String) : Workspace where
  files := workspace.files.filter (·.1 ≠ names) ++ [(names, text)]

/-- The workspace with a file written, which may be new. What is written outside
    of the workspace leaves it as it is. -/
def write (workspace : Workspace) (path text : String) : Except FileError Workspace := do
  let (directory, name) ← workspace.approach path
  match ← workspace.follow directory name, directory with
  | .directory _, _ => .error .isDirectory
  | .nullDevice, _ => .ok workspace
  | _, .inside names => .ok (workspace.put (names ++ [name]) text)
  | _, _ => .ok workspace

/-- The files that are new or have another text than before, by their paths. -/
def changes (before after : Workspace) : List (String × String) :=
  (after.files.filter fun (names, text) => before.text? names ≠ some text).map
    fun (names, text) => (String.intercalate "/" names, text)

end Workspace

end DevicePlacement
