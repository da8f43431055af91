import FeatureMerge.Json.Value

/-!
# Reading JSON numbers

A number without fraction and exponent is whole if it fits into 64 bits. Any
other is a double: the leading digits that fit into 64 bits, times or over a
power of ten. A magnitude beyond the doubles denotes nothing.
-/

namespace FeatureMerge.Json.Number

/-- The parts of a written number. -/
structure Written where
  negative : Bool
  whole : List Char
  fraction : Option (List Char)
  exponent : Option (Bool × List Char)

/-- A sequence of at least one digit, and what follows. -/
def digits? (cs : List Char) : Option (List Char × List Char) :=
  let ds := cs.takeWhile Char.isDigit
  if ds.isEmpty then none else some (ds, cs.dropWhile Char.isDigit)

/-- The digits before the point: no zero stands in front of others. -/
def readWhole : List Char → Option (List Char × List Char)
  | '0' :: rest => if (rest.head?.map Char.isDigit).getD false then none else some (['0'], rest)
  | cs => digits? cs

def readFraction : List Char → Option (Option (List Char) × List Char)
  | '.' :: rest => (digits? rest).map fun (ds, rest) => (some ds, rest)
  | cs => some (none, cs)

/-- The sign and digits of an exponent. -/
def readSigned : List Char → Option ((Bool × List Char) × List Char)
  | '-' :: rest => (digits? rest).map fun (ds, rest) => ((true, ds), rest)
  | '+' :: rest => (digits? rest).map fun (ds, rest) => ((false, ds), rest)
  | rest => (digits? rest).map fun (ds, rest) => ((false, ds), rest)

def readExponent : List Char → Option (Option (Bool × List Char) × List Char)
  | c :: rest =>
    if c = 'e' || c = 'E' then (readSigned rest).map fun (e, rest) => (some e, rest)
    else some (none, c :: rest)
  | [] => some (none, [])

/-- Reads the parts of a number at the beginning of a text. -/
def Written.read (cs : List Char) : Option (Written × List Char) := do
  let (negative, cs) := match cs with
    | '-' :: rest => (true, rest)
    | cs => (false, cs)
  let (whole, cs) ← readWhole cs
  let (fraction, cs) ← readFraction cs
  let (exponent, cs) ← readExponent cs
  return (⟨negative, whole, fraction, exponent⟩, cs)

/-- Significands stay below this bound. -/
def significandBound : Nat := Nat.pow 2 64

/-- Exponents stay below this bound. -/
def exponentBound : Nat := Nat.pow 2 31

/-- Appends digits to a significand while it fits; the rest of the digits is returned. -/
def appendDigits (significand : Nat) : List Char → Nat × List Char
  | [] => (significand, [])
  | d :: ds =>
    let next := 10 * significand + Text.valueOf 10 [d]
    if next < significandBound then appendDigits next ds else (significand, d :: ds)

def tenTo (n : Nat) : Float := Float.ofScientific 1 false n

/-- Divides by a power of ten, at most `10 ^ 308` at a time; three such steps leave nothing. -/
def scaleDown : Nat → Float → Nat → Float
  | 0, _, _ => 0
  | fuel + 1, x, n =>
    if n ≤ 308 then x / tenTo n else scaleDown fuel (x / tenTo 308) (n - 308)

/-- The product of a significand and a power of ten, if it is finite. -/
def scaled? (significand : Nat) (exponent : Int) : Option Float :=
  let x := (UInt64.ofNat significand).toFloat
  if exponent < 0 then some (scaleDown 4 x exponent.natAbs)
  else if exponent ≤ 308 then
    let product := x * tenTo exponent.toNat
    if product.isInf then none else some product
  else if significand = 0 then some x
  else none

/-- The exponent as written, held within 32 bits when added to `start`. -/
def totalExponent (start : Int) (negative : Bool) (n : Nat) : Int :=
  if negative then max (start - n) (-exponentBound) else min (start + n) (exponentBound - 1)

namespace Written

/-- The magnitude of a number that is not whole, if it is finite. -/
def magnitude? (w : Written) : Option Float :=
  let (head, dropped) := appendDigits 0 w.whole
  let (significand, tail) := appendDigits head (w.fraction.getD [])
  let taken := (w.fraction.getD []).length - tail.length
  let start : Int := (dropped.length : Int) - taken
  match w.exponent with
  | none => scaled? significand start
  | some (negative, ds) =>
    let n := Text.valueOf 10 ds
    if exponentBound ≤ n then
      if significand ≠ 0 && !negative then none else some 0
    else scaled? significand (totalExponent start negative n)

/-- The number that the parts denote, if it is in range. -/
def number? (w : Written) : Option Number :=
  let n := Text.valueOf 10 w.whole
  let isWhole := w.fraction.isNone && w.exponent.isNone
  if isWhole && !w.negative && n < significandBound then some (.whole n)
  else if isWhole && w.negative && 0 < n && n ≤ Nat.pow 2 63 then some (.whole (-n))
  else w.magnitude?.map fun x => .real (if w.negative then -x else x)

end Written

end FeatureMerge.Json.Number
