import FeatureMerge.Text.Digits
import FeatureMerge.Text.Pieces

/-!
# Pre-release identifiers

A pre-release is a dot-separated list of identifiers, numbers or words.
Numbers go by value and stand below words; a longer list stands above its
beginnings, and the empty pre-release above all others.
-/

namespace FeatureMerge.Version

inductive Identifier where
  | number (n : Nat)
  | word (s : String)
  deriving DecidableEq, Repr

namespace Identifier

def isAdmitted (c : Char) : Bool := c.isAlphanum || c = '-'

/-- Reads one identifier. A number has no leading zero unless it is zero. -/
def ofText? (s : String) : Option Identifier :=
  let cs := s.toList
  if cs.isEmpty || !cs.all isAdmitted then none
  else if !cs.all Char.isDigit then some (.word s)
  else if cs.head? = some '0' && cs.length ≠ 1 then none
  else some (.number (Text.valueOf 10 cs))

instance : Ord Identifier where
  compare
    | number m, number n => compare m n
    | number _, word _ => .lt
    | word _, number _ => .gt
    | word s, word t => compare s t

end Identifier

structure Prerelease where
  identifiers : List Identifier
  deriving DecidableEq, Repr

namespace Prerelease

def ofText? (s : String) : Option Prerelease :=
  if s = "" then some ⟨[]⟩
  else ((Text.pieces '.' s).mapM Identifier.ofText?).map Prerelease.mk

instance : Ord Prerelease where
  compare p q :=
    match p.identifiers, q.identifiers with
    | [], [] => .eq
    | [], _ :: _ => .gt
    | _ :: _, [] => .lt
    | is, js => compare is js

end Prerelease

end FeatureMerge.Version
