import LateBinding.Dispatch.InlineCache
import LateBinding.Text.Blank
import LateBinding.Text.Quoted
import LateBinding.Toml.Document

/-!
# Dispatch settings

The relink threshold of the caches of a program, from a TOML document or from an environment
variable.
-/

namespace LateBinding

/-- Where the settings say that inline caches stop caching. -/
structure DispatchSettings where
  threshold : Option UInt64
deriving DecidableEq

inductive SettingsFault where
  /-- The document is not TOML, or not one that holds settings. -/
  | unreadable
  /-- The environment variable holds this text, which is no threshold. -/
  | invalidThreshold (text : String)
deriving DecidableEq

namespace DispatchSettings

def thresholdVariable : String :=
  "DYNLINK_MEGAMORPHIC_THRESHOLD"

/-- The settings that nothing was said about. -/
def standard : DispatchSettings :=
  ⟨none⟩

def relinkLimit (settings : DispatchSettings) : RelinkLimit :=
  ⟨settings.threshold⟩

/-! ## From the environment -/

def decimalValue (digits : List Char) : Nat :=
  digits.foldl (fun n c => 10 * n + (c.toNat - '0'.toNat)) 0

/-- An unsigned 64-bit number: decimal digits, at least one, after an optional plus sign. -/
def word? (cs : List Char) : Option UInt64 :=
  let digits := match cs with
    | '+' :: rest => rest
    | _ => cs
  if digits ≠ [] ∧ digits.all Char.isDigit ∧ decimalValue digits < UInt64.size then
    some (.ofNat (decimalValue digits))
  else none

/-- The settings that the value of the variable gives.  Blanks around the number do not count, and a
blank value is as good as none.  So is a value that is not text, which does not come here at all. -/
def ofEnvironment : Option String → Except SettingsFault DispatchSettings
  | none => .ok standard
  | some text =>
    let trimmed := Text.trimBlanks text.toList
    if trimmed = [] then .ok standard
    else
      match word? trimmed with
      | some threshold => .ok ⟨some threshold⟩
      | none => .error (.invalidThreshold (String.ofList trimmed))

/-! ## From a document -/

def threshold? : Toml.Value → Option UInt64
  | .integer numeral => do
    let n ← numeral.value?
    if 0 ≤ n ∧ n < UInt64.size then some (.ofNat n.toNat) else none
  | _ => none

/-- The settings of the inline caches: a table with no other key than the threshold, or an array
that holds it first. -/
def ofCacheTable? : Toml.Value → Option DispatchSettings
  | .table _ [] => some standard
  | .table _ [(key, v)] =>
    if key = "megamorphic_threshold" then (threshold? v).map fun n => ⟨some n⟩ else none
  | .array _ [] => some standard
  | .array _ (v :: _) => (threshold? v).map fun n => ⟨some n⟩
  | _ => none

/-- The settings of a TOML document, which has no other key than `inline_cache`. -/
def ofToml (text : String) : Except SettingsFault DispatchSettings :=
  match Toml.document? text with
  | some [] => .ok standard
  | some [(key, v)] =>
    if key = "inline_cache" then
      match ofCacheTable? v with
      | some settings => .ok settings
      | none => .error .unreadable
    else .error .unreadable
  | _ => .error .unreadable

end DispatchSettings

/-- The text of a refusal; a document is refused without one. -/
def SettingsFault.message? : SettingsFault → Option String
  | unreadable => none
  | invalidThreshold text =>
    some ("invalid value " ++ Text.quoteString text ++ " for " ++
      DispatchSettings.thresholdVariable)

end LateBinding
