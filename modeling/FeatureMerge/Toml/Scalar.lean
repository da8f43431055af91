import FeatureMerge.Text.Digits
import FeatureMerge.Toml.Value

/-!
# Unquoted TOML values

Booleans, numbers, dates and times are single words; only a date and a time may
stand apart. `Scalar.ofWord?` decodes a whole word.
-/

namespace FeatureMerge.Toml.Scalar

open FeatureMerge.Text (isDigitOf valueOf)

/-! ## Numbers -/

/-- Digits with single underscores between them, without the underscores. -/
def digits? (base : Nat) (cs : List Char) : Option (List Char) :=
  let groups := cs.splitOn '_'
  if groups.all fun g => !g.isEmpty && g.all (isDigitOf base) then some groups.flatten else none

/-- Decimal digits; no zero stands in front of others. -/
def whole? (cs : List Char) : Option (List Char) :=
  (digits? 10 cs).filter fun ds => ds.head? ≠ some '0' || ds.length = 1

/-- Splits a sign from a number. -/
def unsigned : List Char → Bool × List Char
  | '-' :: cs => (true, cs)
  | '+' :: cs => (false, cs)
  | cs => (false, cs)

def radix? (base : Nat) (cs : List Char) : Option Int :=
  (digits? base cs).map fun ds => (valueOf base ds : Int)

/-- Reads an integer of any size. -/
def integer? : List Char → Option Int
  | '0' :: 'x' :: cs => radix? 16 cs
  | '0' :: 'o' :: cs => radix? 8 cs
  | '0' :: 'b' :: cs => radix? 2 cs
  | cs =>
    let (negative, cs) := unsigned cs
    (whole? cs).map fun ds => if negative then -(valueOf 10 ds : Int) else valueOf 10 ds

/-- The double nearest to `digits * 10 ^ exponent`; it may be infinite. -/
def nearest (digits : List Char) (exponent : Int) : Float :=
  let n := valueOf 10 digits
  let size : Int := (Nat.toDigits 10 n).length + exponent
  if n = 0 || size < -400 then 0
  else if 400 < size then 1 / 0
  else if exponent < 0 then Float.ofScientific n true exponent.natAbs
  else Float.ofScientific n false exponent.natAbs

/-- Cuts at the first of the given characters. -/
def cut (marks : List Char) (cs : List Char) : List Char × Option (List Char) :=
  match cs.dropWhile (· ∉ marks) with
  | [] => (cs, none)
  | _ :: after => (cs.takeWhile (· ∉ marks), some after)

def exponent? (cs : List Char) : Option Int :=
  let (negative, cs) := unsigned cs
  (digits? 10 cs).map fun ds => if negative then -(valueOf 10 ds : Int) else valueOf 10 ds

/-- A number with a fraction, an exponent or both. -/
def magnitude? (cs : List Char) : Option Float := do
  let (mantissa, exponent) := cut ['e', 'E'] cs
  let (whole, fraction) := cut ['.'] mantissa
  if fraction.isNone && exponent.isNone then none
  else
    let whole ← whole? whole
    let fraction ← (fraction.mapM (digits? 10)).map (·.getD [])
    let exponent ← (exponent.mapM exponent?).map (·.getD 0)
    return nearest (whole ++ fraction) (exponent - fraction.length)

/-- Reads a float; only `inf` denotes infinity. -/
def float? (cs : List Char) : Option Value :=
  let (negative, cs) := unsigned cs
  let signed (x : Float) : Value := .float (if negative then -x else x)
  if cs = ['i', 'n', 'f'] then some (signed (1 / 0))
  else if cs = ['n', 'a', 'n'] then some (signed (0 / 0))
  else (magnitude? cs).map fun x => if x.isInf then .hugeFloat else signed x

/-! ## Words -/

def isWordChar (c : Char) : Bool := c.isAlphanum || c ∈ ['_', '+', '-', '.', ':']

def ofWord? (cs : List Char) : Option Value :=
  if cs = "true".toList then some (.boolean true)
  else if cs = "false".toList then some (.boolean false)
  else
    match integer? cs, float? cs with
    | some n, _ => some (.integer n)
    | none, some x => some x
    | none, none => (Moment.read? cs).map .moment

/-- Cuts a word off; a time may follow a date behind one blank. -/
def word (cs : List Char) : List Char × List Char :=
  let first := cs.takeWhile isWordChar
  match cs.dropWhile isWordChar with
  | ' ' :: c :: rest =>
    if ((Date.read? first).map Prod.snd) = some [] && c.isDigit then
      let more := c :: rest
      (first ++ ' ' :: more.takeWhile isWordChar, more.dropWhile isWordChar)
    else (first, ' ' :: c :: rest)
  | rest => (first, rest)

def read (cs : List Char) : Option (Value × List Char) :=
  let (w, rest) := word cs
  (ofWord? w).map fun v => (v, rest)

end FeatureMerge.Toml.Scalar
