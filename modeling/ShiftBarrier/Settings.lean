import ShiftBarrier.Error

/-!
# Settings

* `Settings` limits the ids of a module and asks for validation; both have defaults.
* `Settings.ofValues` makes settings from values that were not checked before.
-/

set_option autoImplicit false

namespace ShiftBarrier

/-- Drivers commonly reject modules with a larger id bound. -/
def Settings.defaultMaxIdBound : Nat := 0x3fffff

/-- What is set for a module, and what stands in where nothing is set. -/
structure Settings where
  /-- The limit of the ids, if one is set. -/
  maxIdBound? : Option Nat := none
  /-- Whether the module is checked after the passes, if that is set. -/
  validate? : Option Bool := none
  /-- The limit of the ids where none is set.  The environment of the program may replace the
  default by any number, which is not checked; one below zero limits ids as zero does. -/
  fallback : Nat := Settings.defaultMaxIdBound
  deriving DecidableEq, Repr, Inhabited

/-- A value offered for a setting.  A flag serves as the number 0 or 1. -/
inductive SettingValue
  | number (n : Int)
  | flag (b : Bool)
  | other
  deriving DecidableEq, Repr

namespace Settings

/-- The largest 32-bit word; ids are such words. -/
def maxIdWord : Nat := Nat.pow 2 32 - 1

/-- No id is handed out from this number on. -/
def maxIdBound (s : Settings) : Nat := s.maxIdBound?.getD s.fallback

/-- Modules are not validated unless that is asked for. -/
def validate (s : Settings) : Bool := s.validate?.getD false

/-! ## Checking values -/

/-- A limit of ids is a positive 32-bit word. -/
def checkBound : SettingValue → Except Error Nat
  | .number n =>
    if 0 < n ∧ n ≤ maxIdWord then .ok n.toNat
    else .error (.violation (.settingRange (toString n)))
  | .flag true => .ok 1
  | .flag false => .error (.violation (.settingRange "False"))
  | .other => .error (.violation .settingKind)

/-- A number does not serve as a flag. -/
def checkValidate : SettingValue → Except Error Bool
  | .flag b => .ok b
  | _ => .error (.violation .settingKind)

/-- Settings from the values offered, where there are any.  The limit that stands in for a missing
one is taken as it is. -/
def ofValues (maxIdBound validate : Option SettingValue) (fallback : Nat := defaultMaxIdBound) :
    Except Error Settings := do
  let maxIdBound? ← maxIdBound.mapM checkBound
  let validate? ← validate.mapM checkValidate
  return { maxIdBound?, validate?, fallback }

end Settings
end ShiftBarrier
