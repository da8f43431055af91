import FeatureMerge.Version.Prerelease

/-!
# The order of versions

A version is compared by its key: the leading dot-separated numbers, missing
ones counting as zero, and then the qualifier. Pre-releases stand below the
bare release, which stands below qualified versions. A leading `v` and build
text behind `+` do not count.
-/

namespace FeatureMerge.Version

inductive Qualifier where
  | prerelease (p : Prerelease)
  | irregular (text : String)
  | release
  | qualified (text : String)
  deriving DecidableEq, Repr

namespace Qualifier

/-- The place of each kind of qualifier: a regular pre-release comes first. -/
def rank : Qualifier → Nat
  | prerelease _ => 0
  | irregular _ => 1
  | release => 2
  | qualified _ => 3

instance : Ord Qualifier where
  compare
    | prerelease p, prerelease q => compare p q
    | irregular s, irregular t => compare s t
    | qualified s, qualified t => compare s t
    | a, b => compare a.rank b.rank

/-- Reads a pre-release, written without its dash; build text is cut off. -/
def ofPrerelease (cs : List Char) : Qualifier :=
  let text := String.ofList (cs.takeWhile (· ≠ '+'))
  match Prerelease.ofText? text with
  | some p => prerelease p
  | none => irregular text

/-- Reads what follows the numbers of a version. -/
def ofText : List Char → Qualifier
  | [] => release
  | '+' :: _ => release
  | '-' :: cs => ofPrerelease cs
  | '.' :: cs => qualified (String.ofList cs)
  | cs => qualified (String.ofList cs)

end Qualifier

/-- Compares lists of numbers as if the shorter one went on with zeros. -/
def comparePadded : List Nat → List Nat → Ordering
  | [], [] => .eq
  | [], n :: ns => (compare 0 n).then (comparePadded [] ns)
  | m :: ms, [] => (compare m 0).then (comparePadded ms [])
  | m :: ms, n :: ns => (compare m n).then (comparePadded ms ns)

structure Key where
  numbers : List Nat
  qualifier : Qualifier
  deriving DecidableEq, Repr

namespace Key

instance : Ord Key where
  compare a b := (comparePadded a.numbers b.numbers).then (compare a.qualifier b.qualifier)

/-- Numbers of a version stay below this bound; a larger one belongs to the qualifier. -/
def numberBound : Nat := 0x1_0000_0000_0000_0000

/-- The number at the beginning of a text. -/
def leadingNumber? (cs : List Char) : Option Nat :=
  let digits := cs.takeWhile Char.isDigit
  if digits.isEmpty then none
  else
    let n := Text.valueOf 10 digits
    if n < numberBound then some n else none

/-- What follows a dot, if a digit does. -/
def nextNumber? : List Char → Option (List Char)
  | '.' :: c :: cs => if c.isDigit then some (c :: cs) else none
  | _ => none

theorem length_of_nextNumber? {cs rest : List Char} (h : nextNumber? cs = some rest) :
    rest.length < cs.length := by
  unfold nextNumber? at h
  split at h
  · split at h
    · cases h
      simp
    · cases h
  · cases h

/-- Splits the leading numbers from the rest of a version. -/
def splitNumbers (cs : List Char) : List Nat × List Char :=
  match leadingNumber? cs with
  | none => ([], cs)
  | some n =>
    match h : nextNumber? (cs.dropWhile Char.isDigit) with
    | none => ([n], cs.dropWhile Char.isDigit)
    | some next =>
      have : next.length < cs.length :=
        Nat.lt_of_lt_of_le (length_of_nextNumber? h) (List.dropWhile_sublist _).length_le
      let (ns, rest) := splitNumbers next
      (n :: ns, rest)
termination_by cs.length

def ofVersion (version : String) : Key :=
  let cs := match version.toList with
    | 'v' :: cs => cs
    | cs => cs
  let (numbers, rest) := splitNumbers cs
  ⟨numbers, Qualifier.ofText rest⟩

end Key

/-- The order of version texts. -/
def compareVersions (a b : String) : Ordering :=
  compare (Key.ofVersion a) (Key.ofVersion b)

end FeatureMerge.Version
