import LateBinding.Toml.Numeral

/-!
# TOML values

The values of a TOML document.  Tables and arrays remember how they were written, because that
decides what a later line may still add to them.
-/

namespace LateBinding.Toml

/-- How a table or an array came to be. -/
inductive Origin where
  /-- Written out as a value, and complete. -/
  | inline
  /-- Made on the way to a dotted key. -/
  | dotted
  /-- Made on the way to a table header. -/
  | implicit
  /-- Named by a table header of its own. -/
  | header
deriving DecidableEq

inductive Value where
  | string (s : String)
  | integer (n : Numeral)
  /-- A float, by its text. -/
  | float (text : String)
  | bool (b : Bool)
  /-- A date, a time or both, by its text. -/
  | datetime (text : String)
  | array (origin : Origin) (items : List Value)
  | table (origin : Origin) (entries : List (String × Value))

/-- The keys of a table with their values, in the order of the document. -/
abbrev Entries := List (String × Value)

namespace Entries

/-- The entries with the value of a key replaced, or added at the end. -/
def set (key : String) (v : Value) : Entries → Entries
  | [] => [(key, v)]
  | (other, w) :: rest => if other = key then (key, v) :: rest else (other, w) :: set key v rest

/-- Adds a value under a dotted key.  Only tables that dotted keys made may be extended, and no key
is given twice. -/
def assign (v : Value) : List String → Entries → Option Entries
  | [], _ => none
  | [key], entries =>
    match entries.lookup key with
    | none => some (entries.set key v)
    | some _ => none
  | key :: rest, entries =>
    match entries.lookup key with
    | none => (assign v rest []).map fun inner => entries.set key (.table .dotted inner)
    | some (.table .dotted inner) =>
      (assign v rest inner).map fun inner => entries.set key (.table .dotted inner)
    | some _ => none

/-- Changes the table under the keys of a header.  Tables on the way that do not exist are made, and
the way through an array of tables leads to its last table. -/
def under (change : Entries → Option Entries) : List String → Entries → Option Entries
  | [], entries => change entries
  | key :: rest, entries =>
    match entries.lookup key with
    | none => (under change rest []).map fun inner => entries.set key (.table .implicit inner)
    | some (.table .inline _) => none
    | some (.table origin inner) =>
      (under change rest inner).map fun inner => entries.set key (.table origin inner)
    | some (.array .header items) =>
      match items.getLast? with
      | some (.table origin inner) =>
        (under change rest inner).map fun inner =>
          entries.set key (.array .header (items.dropLast ++ [.table origin inner]))
      | _ => none
    | some _ => none

/-- Begins the table of a header.  Its keys may have been passed through, but not given before. -/
def openTable (key : String) (entries : Entries) : Option Entries :=
  match entries.lookup key with
  | none => some (entries.set key (.table .header []))
  | some (.table .implicit inner) => some (entries.set key (.table .header inner))
  | some _ => none

/-- Begins the next table of an array of tables. -/
def openArray (key : String) (entries : Entries) : Option Entries :=
  match entries.lookup key with
  | none => some (entries.set key (.array .header [.table .header []]))
  | some (.array .header items) =>
    some (entries.set key (.array .header (items ++ [.table .header []])))
  | some _ => none

end Entries

end LateBinding.Toml
