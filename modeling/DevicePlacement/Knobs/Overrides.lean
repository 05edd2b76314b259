import DevicePlacement.Decimal.Reading
import DevicePlacement.Knobs.Basic

/-!
# Overriding knobs

Three knobs can be set from outside: by environment variables, as text, and by
the flags of a command, as values. The environment is read first, all of it, and
flags are applied on top, so a variable that cannot be read is an error even if
a flag would override it.
-/

namespace DevicePlacement

/-- The variables of the environment that set knobs; those that are not set are `none`. -/
structure Environment where
  computeMargin : Option String
  minExecutionTime : Option String
  strategy : Option String
  deriving DecidableEq, Repr

namespace Environment

/-- The environment without any of the variables. -/
def empty : Environment := ⟨none, none, none⟩

/-- The variable that sets the margin. -/
def marginVariable : String := "PLACEFORGE_COMPUTE_MARGIN"

/-- The variable that sets the least execution time. -/
def timeVariable : String := "PLACEFORGE_MIN_EXECUTION_TIME"

/-- The variable that sets the strategy. -/
def strategyVariable : String := "PLACEFORGE_STRATEGY"

/-- Which variable cannot be read. -/
inductive Flaw
  /-- The margin is not a number. -/
  | margin (text : String)
  /-- The least execution time is not a whole number. -/
  | minExecutionTime (text : String)
  /-- The strategy is unknown. -/
  | strategy (unknown : Strategy.Unknown)
  deriving DecidableEq, Repr

/-- The text a flaw is reported with. -/
def Flaw.message : Flaw → String
  | .margin text => marginVariable ++ " is not a number: " ++ text
  | .minExecutionTime text => timeVariable ++ " is not an integer: " ++ text
  | .strategy unknown => unknown.message

end Environment

namespace Knobs

/-- The value of a variable, or that of the knob if the variable is not set. -/
def override {α : Type} (value : α) (setting : Option String)
    (read : String → Except Environment.Flaw α) :
    Except Environment.Flaw α :=
  match setting with
  | some text => read text
  | none => .ok value

/-- The knobs with those of the environment. -/
def withEnvironment (knobs : Knobs) (environment : Environment) :
    Except Environment.Flaw Knobs := do
  let margin ← override knobs.computeMargin environment.computeMargin fun text =>
    match Decimal.readFloat? text with
    | some margin => .ok margin
    | none => .error (.margin text)
  let time ← override knobs.minExecutionTime environment.minExecutionTime fun text =>
    match Decimal.readInt64? text with
    | some time => .ok time
    | none => .error (.minExecutionTime text)
  let strategy ← override knobs.strategy environment.strategy fun text =>
    (Strategy.ofText text).mapError .strategy
  return { knobs with computeMargin := margin, minExecutionTime := time, strategy := strategy }

end Knobs

/-- The knobs that the flags of a command set. -/
structure KnobFlags where
  computeMargin : Option Float
  minExecutionTime : Option Int64
  strategy : Option Strategy

namespace KnobFlags

/-- No flags. -/
def none : KnobFlags := ⟨.none, .none, .none⟩

end KnobFlags

/-- The knobs with those that are set by flags. -/
def Knobs.withFlags (knobs : Knobs) (flags : KnobFlags) : Knobs :=
  { knobs with
    computeMargin := flags.computeMargin.getD knobs.computeMargin
    minExecutionTime := flags.minExecutionTime.getD knobs.minExecutionTime
    strategy := flags.strategy.getD knobs.strategy }

end DevicePlacement
