import FeatureMerge.Double.Shortest

/-!
# Writing doubles

`Layout` holds the choices of a written form: which numbers are written without
an exponent, and which of two equally near decimals is taken. A number without
a fraction keeps a trailing `.0` where no exponent is written.
-/

namespace FeatureMerge.Double

/-- How doubles are written. -/
structure Layout where
  /-- Whether a number whose first digit stands at this power of ten has no exponent. -/
  isPositional : Int → Bool
  tie : Tie

/-- Diagnostics of settings never write an exponent, and a tie goes up. -/
def Layout.plain : Layout := ⟨fun _ => true, .upper⟩

/-- Data writes an exponent for very large and very small numbers, and a tie goes to the even
digit. -/
def Layout.scientific : Layout := ⟨fun lead => -5 ≤ lead && lead ≤ 15, .even⟩

/-- Digits with a point after the first `places`, padded with zeros as needed. -/
def positional (digits : List Char) (lead : Int) : List Char :=
  if lead < 0 then
    ['0', '.'] ++ List.replicate (-lead - 1).toNat '0' ++ digits
  else
    let places := lead.toNat + 1
    let whole := digits.take places ++ List.replicate (places - digits.length) '0'
    let fraction := digits.drop places
    whole ++ ['.'] ++ (if fraction.isEmpty then ['0'] else fraction)

def exponential (digits : List Char) (lead : Int) : List Char :=
  let mantissa := match digits with
    | d :: (f :: fs) => d :: '.' :: f :: fs
    | ds => ds
  mantissa ++ ['e', if lead < 0 then '-' else '+'] ++ (toString lead.natAbs).toList

/-- Writes a finite positive number. -/
def Layout.magnitude (layout : Layout) (d : Decimal) : List Char :=
  let digits := (toString d.digits).toList
  let lead := d.exponent + digits.length - 1
  if layout.isPositional lead then positional digits lead else exponential digits lead

/-- Writes a double. -/
def Layout.write (layout : Layout) (x : Float) : String :=
  let bits := x.toBits.toNat
  let sign := if Nat.pow 2 63 ≤ bits then "-" else ""
  if x.isNaN then "NaN"
  else if x.isInf then sign ++ "inf"
  else if bits % Nat.pow 2 63 = 0 then sign ++ "0.0"
  else
    let d := shortest layout.tie (Binary.ofBits (bits % Nat.pow 2 63))
    sign ++ String.ofList (layout.magnitude d)

end FeatureMerge.Double
