import DevicePlacement.Command.Script

/-!
# The program

Reads the files that a command names, works out what the command does and does
it.
-/

namespace DevicePlacement

/-- The reason behind an error of the system. -/
def FileError.ofSystem : IO.Error → FileError
  | .noFileOrDirectory .. => .notFound
  | .inappropriateType .. => .isDirectory
  | _ => .other

/-- The text of a file of the system. -/
def readSystemFile (path : String) : IO (Except FileError String) := do
  match ← (IO.FS.readBinFile path).toBaseIO with
  | .error error => return .error (.ofSystem error)
  | .ok bytes =>
    match String.fromUTF8? bytes with
    | some text => return .ok text
    | none => return .error .notText

/-- Reports how a command ended, and the status with which to leave. -/
def finish (ending : Ending) : IO UInt32 := do
  match ending with
  | .done => pure ()
  | .failed error => IO.eprintln ("Error: " ++ error.message?.getD "the file cannot be written")
  | .stopped fault => IO.eprintln fault.message
  return UInt32.ofNat ending.status

/-- Performs actions up to the first file that cannot be written. -/
def performActions (ending : Ending) : List Action → IO UInt32
  | [] => finish ending
  | .print line :: rest => do
    IO.println line
    performActions ending rest
  | .writeGraph path text :: rest => do
    match ← (IO.FS.writeFile path text).toBaseIO with
    | .ok _ => performActions ending rest
    | .error error => finish (.failed (.writingGraph path (.ofSystem error)))
  | .saveReport path text :: rest => do
    match ← (IO.FS.writeFile path text).toBaseIO with
    | .ok _ => performActions ending rest
    | .error error => finish (.failed (.savingReport (.ofSystem error)))

/-- The variables that set knobs. -/
def readEnvironment : IO Environment := do
  return {
    computeMargin := ← IO.getEnv Environment.marginVariable
    minExecutionTime := ← IO.getEnv Environment.timeVariable
    strategy := ← IO.getEnv Environment.strategyVariable }

/-- Performs a command. -/
def runCommand (command : Command) : IO UInt32 := do
  let texts ← command.inputPaths.mapM fun path => do
    return (path, ← readSystemFile path)
  let files : Files := fun path => (texts.lookup path).getD (.error .notFound)
  let script := command.script files (← readEnvironment)
  performActions script.ending script.actions

end DevicePlacement

open DevicePlacement in
/-- Performs the command that the arguments name. -/
def main (arguments : List String) : IO UInt32 := do
  match Command.ofArguments arguments with
  | .ok command => runCommand command
  | .error .help =>
    IO.print Command.helpText
    return 0
  | .error .invalid =>
    IO.eprint Command.helpText
    return 2
