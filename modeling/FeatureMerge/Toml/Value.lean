import FeatureMerge.Ascending
import FeatureMerge.Double.Layout
import FeatureMerge.Fault
import FeatureMerge.Toml.Moment

/-!
# TOML values

A table lists its entries in ascending order of their keys. A moment may also be
taken for a table of one entry, its text. `isRepresentable` says which values can
be held by someone who does not know what is wanted.
-/

namespace FeatureMerge.Toml

inductive Value where
  | string (s : String)
  | integer (n : Int)
  | float (x : Float)
  /-- A float that is larger than any double. -/
  | hugeFloat
  | boolean (b : Bool)
  | moment (m : Moment)
  | array (items : List Value)
  | table (entries : List (String × Value))

/-- The entries of a table. -/
abbrev Table := List (String × Value)

namespace Value

/-- The entries of a value that is a table, or may be taken for one. -/
def entries? : Value → Option Table
  | table entries => some entries
  | moment m => some [(Moment.key, string m.text)]
  | _ => none

/-- How a value fails to be what was wanted. Integers are compared up to 128 bits. -/
def misfit (v : Value) (wanted : String) : Misfit :=
  match v with
  | string s => .unexpected (.string s) wanted
  | integer n =>
    if -Int.pow 2 127 ≤ n && n < Int.pow 2 128 then .unexpected (.integer n) wanted
    else .overflow "integer"
  | float x => .unexpected (.float (Double.Layout.plain.write x)) wanted
  | hugeFloat => .overflow "floating-point"
  | boolean b => .unexpected (.boolean b) wanted
  | array _ => .unexpected .sequence wanted
  | moment _ | table _ => .unexpected .table wanted

/-- Whether a value is the text of a moment. -/
def isMomentText : Value → Bool
  | string s => (Moment.read? s.toList).isSome
  | _ => false

mutual

/-- Whether all numbers within are in range, and each table that begins with the key of moments
is one. Numbers are signed words of 64 bits, or doubles. -/
def isRepresentable : Value → Bool
  | integer n => -Int.pow 2 63 ≤ n && n < Int.pow 2 63
  | hugeFloat => false
  | array items => areRepresentable items
  | table [] => true
  | table ((key, v) :: rest) =>
    if key = Moment.key then v.isMomentText
    else v.isRepresentable && Table.isRepresentable rest
  | _ => true

def areRepresentable : List Value → Bool
  | [] => true
  | v :: rest => v.isRepresentable && areRepresentable rest

/-- Whether all values of a table are representable. -/
def Table.isRepresentable : List (String × Value) → Bool
  | [] => true
  | (_, v) :: rest => v.isRepresentable && Table.isRepresentable rest

end

end Value

end FeatureMerge.Toml
