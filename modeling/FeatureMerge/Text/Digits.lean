/-!
# Digits

Values of digit sequences in bases up to sixteen.
-/

namespace FeatureMerge.Text

/-- The value of a digit, letters of either case standing for ten and more. -/
def digitValue? (c : Char) : Option Nat :=
  if '0' ≤ c && c ≤ '9' then some (c.toNat - '0'.toNat)
  else if 'a' ≤ c && c ≤ 'f' then some (c.toNat - 'a'.toNat + 10)
  else if 'A' ≤ c && c ≤ 'F' then some (c.toNat - 'A'.toNat + 10)
  else none

/-- Whether `c` is a digit of the base. -/
def isDigitOf (base : Nat) (c : Char) : Bool :=
  (digitValue? c).any (· < base)

/-- The number that the digits denote; a character that is no digit counts as zero. -/
def valueOf (base : Nat) (digits : List Char) : Nat :=
  digits.foldl (fun n c => base * n + (digitValue? c).getD 0) 0

/-- The character with the code point that the hexadecimal digits name, if there is one. -/
def scalar? (digits : List Char) : Option Char :=
  let n := valueOf 16 digits
  if n.isValidChar then some (Char.ofNat n) else none

@[simp] theorem valueOf_nil (base : Nat) : valueOf base [] = 0 := rfl

theorem valueOf_append_singleton (base : Nat) (digits : List Char) (c : Char) :
    valueOf base (digits ++ [c]) = base * valueOf base digits + (digitValue? c).getD 0 := by
  simp [valueOf]

end FeatureMerge.Text
