import DevicePlacement.Session.Basic

/-!
# Command-line arguments

A command is named by the first argument, and flags follow it. A flag gets its
value after an equals sign or from the next argument, which then must not look
like a flag. Arguments are taken from left to right, and the first one that is
not understood ends the reading; a request for help counts where it stands.
-/

namespace DevicePlacement

/-- What to do. -/
inductive Command
  /-- Place a graph. -/
  | optimize (graph : String) (options : SessionOptions) (output report : Option String)
  /-- Print the statistics of a graph. -/
  | stats (graph : String) (costs : Option String)
  /-- Print a graph to try things with. -/
  | emitSample

namespace Command

/-- Why there is nothing to do. -/
inductive Usage
  /-- Help was asked for. -/
  | help
  /-- The arguments are not understood. -/
  | invalid
  deriving DecidableEq, Repr

/-- The name of a flag and the value after its equals sign. -/
def splitFlag (chars : List Char) : String × Option String :=
  match chars.dropWhile (· ≠ '=') with
  | [] => (String.ofList chars, none)
  | _ :: value => (String.ofList (chars.takeWhile (· ≠ '=')), some (String.ofList value))

/-- Whether an argument may be the value of the flag before it. -/
def isValue (argument : String) : Bool :=
  argument = "-" || !"-".toList.isPrefixOf argument.toList

/-- Reads flags from left to right. `set` takes in the name and the value of one. -/
def readFlags {α : Type} (set : String → String → α → Except Usage α) :
    α → List String → Except Usage α
  | flags, [] => .ok flags
  | flags, argument :: rest =>
    match argument.toList with
    | ['-', 'h'] => .error .help
    | ['-', '-'] => if rest.isEmpty then .ok flags else .error .invalid
    | '-' :: '-' :: chars =>
      match splitFlag chars, rest with
      | ("help", none), _ => .error .help
      | (name, some value), rest => do
        readFlags set (← set name value flags) rest
      | (name, none), value :: rest =>
        if isValue value then do
          readFlags set (← set name value flags) rest
        else
          .error .invalid
      | (_, none), [] => .error .invalid
    | _ => .error .invalid

/-- A flag that may be given once, with the value it has been given. -/
def once {α : Type} (current : Option α) (value : Option α) : Except Usage (Option α) :=
  match current, value with
  | none, some value => .ok (some value)
  | _, _ => .error .invalid

/-- A path, which is not empty. -/
def path? (text : String) : Option String :=
  if text = "" then none else some text

/-- The flags of the command that places a graph. -/
structure OptimizeFlags where
  graph : Option String
  options : SessionOptions
  output : Option String
  report : Option String

/-- The flags with one more. -/
def OptimizeFlags.set (name value : String) (flags : OptimizeFlags) :
    Except Usage OptimizeFlags := do
  let options := flags.options
  match name with
  | "graph" => return { flags with graph := ← once flags.graph (path? value) }
  | "cluster" =>
    return { flags with options := { options with
      cluster := ← once options.cluster (path? value) } }
  | "devices" =>
    return { flags with options := { options with
      devices := options.devices ++ value.splitOn "," } }
  | "costs" =>
    return { flags with options := { options with costs := ← once options.costs (path? value) } }
  | "knobs" =>
    return { flags with options := { options with knobs := ← once options.knobs (path? value) } }
  | "compute-margin" =>
    return { flags with options := { options with flags := { options.flags with
      computeMargin := ← once options.flags.computeMargin (Decimal.readFloat? value) } } }
  | "min-execution-time" =>
    return { flags with options := { options with flags := { options.flags with
      minExecutionTime := ← once options.flags.minExecutionTime (Decimal.readInt64? value) } } }
  | "strategy" =>
    return { flags with options := { options with flags := { options.flags with
      strategy := ← once options.flags.strategy (Strategy.choices.lookup value) } } }
  | "output" => return { flags with output := ← once flags.output (path? value) }
  | "report" => return { flags with report := ← once flags.report (path? value) }
  | _ => .error .invalid

/-- The flags of the command that prints statistics: the graph and the costs. -/
def setStatsFlag (name value : String) (flags : Option String × Option String) :
    Except Usage (Option String × Option String) := do
  match name with
  | "graph" => return (← once flags.1 (path? value), flags.2)
  | "costs" => return (flags.1, ← once flags.2 (path? value))
  | _ => .error .invalid

/-- A value that has to be given. -/
def given {α : Type} : Option α → Except Usage α
  | some value => .ok value
  | none => .error .invalid

/-- The names of the commands. -/
def names : List String := ["optimize", "stats", "emit-sample"]

/-- The command of a list of arguments. -/
def ofArguments : List String → Except Usage Command
  | "optimize" :: rest => do
    let flags ← readFlags OptimizeFlags.set ⟨none, .none, none, none⟩ rest
    return .optimize (← given flags.graph) flags.options flags.output flags.report
  | "stats" :: rest => do
    let flags ← readFlags setStatsFlag (none, none) rest
    return .stats (← given flags.1) flags.2
  | "emit-sample" :: rest => do
    let _ ← readFlags (fun _ _ (_ : Unit) => .error .invalid) () rest
    return .emitSample
  | "help" :: [] => .error .help
  | "help" :: name :: [] => .error (if name ∈ "help" :: names then .help else .invalid)
  | "-h" :: _ => .error .help
  | "--help" :: _ => .error .help
  | _ => .error .invalid

/-- What is printed when help is asked for. -/
def helpText : String :=
  String.intercalate "\n" [
    "Cost-aware device placement for computation graphs",
    "",
    "Usage: placeforge <COMMAND>",
    "",
    "Commands:",
    "  optimize     Place a graph and write the result",
    "  stats        Print node, device and cost statistics of a graph",
    "  emit-sample  Print a sample graph as JSON",
    "  help         Print this message or the help of the given subcommand(s)",
    "",
    "Options:",
    "  -h, --help  Print help",
    ""]

/-- The files that a command reads. -/
def inputPaths : Command → List String
  | optimize graph options _ _ =>
    [options.knobs, options.cluster, options.costs].filterMap id ++ [graph]
  | stats graph costs => graph :: costs.toList
  | emitSample => []

end Command

end DevicePlacement
