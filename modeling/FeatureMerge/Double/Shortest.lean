/-!
# The shortest decimal of a double

A positive finite double is `mantissa * 2 ^ exponent`. All reals nearer to it
than to its neighbours read back as it; `shortest` finds the decimal with the
fewest digits among them, and of those with as few the nearest to the double.
Where two are equally near, a `Tie` decides. The search is exact: every
comparison is one of natural numbers.
-/

namespace FeatureMerge.Double

/-- The number `mantissa * 2 ^ exponent`. -/
structure Binary where
  mantissa : Nat
  exponent : Int
  deriving DecidableEq, Repr

/-- The number `digits * 10 ^ exponent`. -/
structure Decimal where
  digits : Nat
  exponent : Int
  deriving DecidableEq, Repr

namespace Binary

/-- The magnitude of a finite double, from its bits. -/
def ofBits (bits : Nat) : Binary :=
  let fraction : Nat := bits % Nat.pow 2 52
  let biased : Nat := bits / Nat.pow 2 52 % Nat.pow 2 11
  if biased = 0 then ⟨fraction, -1074⟩ else ⟨Nat.pow 2 52 + fraction, (biased : Int) - 1075⟩

/-- Whether the double below is nearer than the double above. -/
def isNearerBelow (x : Binary) : Bool :=
  x.mantissa = Nat.pow 2 52 && x.exponent ≠ -1074

end Binary

/-- Which of two numbers counts as nearer to a value halfway between them. -/
inductive Tie where
  | even
  | upper
  deriving DecidableEq, Repr

/-- Whether a value halfway between `floor` and the next number goes to `floor`. -/
def Tie.goesDown : Tie → Nat → Bool
  | even, floor => floor % 2 = 0
  | upper, _ => false

/-- Three numbers over one denominator: a value and the ends of the interval around it. -/
structure Interval where
  lower : Nat
  value : Nat
  upper : Nat
  denominator : Nat
  closed : Bool

namespace Interval

/-- The interval of the reals that read back as `x`, in units of `10 ^ unit`. -/
def around (x : Binary) (unit : Int) : Interval :=
  let twos := x.exponent - 2
  let num := Nat.pow 2 twos.toNat * Nat.pow 10 (-unit).toNat
  let below := if x.isNearerBelow then 1 else 2
  { lower := (4 * x.mantissa - below) * num
    value := 4 * x.mantissa * num
    upper := (4 * x.mantissa + 2) * num
    denominator := Nat.pow 2 (-twos).toNat * Nat.pow 10 unit.toNat
    closed := x.mantissa % 2 = 0 }

def contains (i : Interval) (n : Nat) : Bool :=
  let scaled := n * i.denominator
  if i.closed then i.lower ≤ scaled && scaled ≤ i.upper
  else i.lower < scaled && scaled < i.upper

/-- The whole number in the interval that is nearest to the value, if there is one next to it. -/
def nearest? (tie : Tie) (i : Interval) : Option Nat :=
  let floor := i.value / i.denominator
  let ceiling := floor + 1
  match i.contains floor, i.contains ceiling with
  | false, false => none
  | true, false => some floor
  | false, true => some ceiling
  | true, true =>
    let left := i.value - floor * i.denominator
    let right := ceiling * i.denominator - i.value
    if left < right || (left = right && tie.goesDown floor) then some floor else some ceiling

end Interval

/-- The exponent of the first decimal digit of `x`, from an estimate that is at most one low. -/
def leadingExponent (x : Binary) : Int :=
  let num := x.mantissa * Nat.pow 2 x.exponent.toNat
  let den := Nat.pow 2 (-x.exponent).toNat
  let guess : Int := ((Nat.toDigits 10 num).length : Int) - (Nat.toDigits 10 den).length - 1
  if den * Nat.pow 10 (guess + 1).toNat ≤ num * Nat.pow 10 (-(guess + 1)).toNat then guess + 1
  else guess

/-- The decimal in the interval of `x` with `count` digits, if there is one. -/
def withDigits? (tie : Tie) (x : Binary) (count : Nat) : Option Decimal :=
  let unit := leadingExponent x + 1 - count
  (((Interval.around x unit).nearest? tie).filter (0 < ·)).map fun digits => ⟨digits, unit⟩

/-- Seventeen digits always suffice. -/
def maxDigits : Nat := 17

/-- Zeros at the end of the digits move into the exponent. -/
def Decimal.trim : Nat → Decimal → Decimal
  | 0, d => d
  | fuel + 1, d =>
    if d.digits % 10 = 0 && d.digits ≠ 0 then trim fuel ⟨d.digits / 10, d.exponent + 1⟩ else d

def shortest (tie : Tie) (x : Binary) : Decimal :=
  let found := ((List.range maxDigits).findSome? fun n => withDigits? tie x (n + 1)).getD ⟨0, 0⟩
  found.trim maxDigits

end FeatureMerge.Double
