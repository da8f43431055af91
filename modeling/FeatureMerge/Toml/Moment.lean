import FeatureMerge.Text.Digits

/-!
# Dates and times

A `Moment` is a date, a time of day, or both; only the latter may have an offset
from universal time. `Moment.read?` admits several spellings of a moment,
`Moment.write` has one.
-/

namespace FeatureMerge.Toml

open FeatureMerge.Text (valueOf)

structure Date where
  year : Nat
  month : Nat
  day : Nat
  deriving DecidableEq, Repr

structure Time where
  hour : Nat
  minute : Nat
  second : Nat
  nanosecond : Nat
  deriving DecidableEq, Repr

/-- An offset from universal time. -/
inductive Offset where
  | zero
  | minutes (m : Int)
  deriving DecidableEq, Repr

inductive Moment where
  | date (d : Date)
  | time (t : Time)
  | both (d : Date) (t : Time) (offset : Option Offset)
  deriving DecidableEq, Repr

/-- A number of exactly two digits, at most `limit`. -/
def two? (limit : Nat) (a b : Char) : Option Nat :=
  let n := valueOf 10 [a, b]
  if a.isDigit && b.isDigit && n ≤ limit then some n else none

/-- The digits of a number with zeros in front. -/
def padded (width n : Nat) : List Char :=
  let digits := Nat.toDigits 10 n
  List.replicate (width - digits.length) '0' ++ digits

namespace Date

def isLeapYear (year : Nat) : Bool := year % 4 = 0 && (year % 100 ≠ 0 || year % 400 = 0)

def daysIn (year month : Nat) : Nat :=
  if month = 2 then if isLeapYear year then 29 else 28
  else if month ∈ [4, 6, 9, 11] then 30
  else 31

/-- Whether the calendar has the date. -/
def isValid (d : Date) : Bool :=
  1 ≤ d.month && d.month ≤ 12 && 1 ≤ d.day && d.day ≤ daysIn d.year d.month

/-- Reads a date at the beginning of a text. -/
def read? : List Char → Option (Date × List Char)
  | a :: b :: c :: d :: '-' :: m :: n :: '-' :: e :: f :: rest => do
    let century ← two? 99 a b
    let year ← two? 99 c d
    let date := ⟨100 * century + year, ← two? 99 m n, ← two? 99 e f⟩
    if isValid date then return (date, rest) else none
  | _ => none

def write (d : Date) : List Char :=
  padded 4 d.year ++ '-' :: padded 2 d.month ++ '-' :: padded 2 d.day

end Date

namespace Time

/-- A second has this many fractional digits; further ones are dropped. -/
def precision : Nat := 9

/-- Reads the fraction of a second, if there is one. -/
def readFraction? : List Char → Option (Nat × List Char)
  | '.' :: rest =>
    let digits := rest.takeWhile Char.isDigit
    let kept := digits.take precision
    if digits.isEmpty then none
    else some (valueOf 10 (kept ++ List.replicate (precision - kept.length) '0'),
      rest.dropWhile Char.isDigit)
  | rest => some (0, rest)

/-- Reads the seconds, if there are any. -/
def readSeconds? : List Char → Option (Nat × Nat × List Char)
  | ':' :: a :: b :: rest => do
    let second ← two? 60 a b
    let (nanosecond, rest) ← readFraction? rest
    return (second, nanosecond, rest)
  | rest => some (0, 0, rest)

/-- Reads a time at the beginning of a text. -/
def read? : List Char → Option (Time × List Char)
  | a :: b :: ':' :: c :: d :: rest => do
    let hour ← two? 23 a b
    let minute ← two? 59 c d
    let (second, nanosecond, rest) ← readSeconds? rest
    return ({ hour, minute, second, nanosecond }, rest)
  | _ => none

/-- The fraction of a second without zeros at its end. -/
def writeFraction (nanosecond : Nat) : List Char :=
  if nanosecond = 0 then []
  else '.' :: ((padded precision nanosecond).reverse.dropWhile (· = '0')).reverse

def write (t : Time) : List Char :=
  padded 2 t.hour ++ ':' :: padded 2 t.minute ++ ':' :: padded 2 t.second
    ++ writeFraction t.nanosecond

end Time

namespace Offset

/-- Reads what follows a time: nothing, or an offset. -/
def read? : List Char → Option (Option Offset)
  | [] => some none
  | [c] => if c = 'Z' || c = 'z' then some (some zero) else none
  | [sign, a, b, ':', c, d] => do
    let m : Int := 60 * (← two? 23 a b) + (← two? 59 c d)
    if sign = '+' then return some (minutes m)
    else if sign = '-' then return some (minutes (-m))
    else none
  | _ => none

def write : Offset → List Char
  | zero => ['Z']
  | minutes m =>
    (if m < 0 then '-' else '+') :: padded 2 (m.natAbs / 60) ++ ':' :: padded 2 (m.natAbs % 60)

end Offset

namespace Moment

/-- Whether a time may follow a date behind `c`. -/
def isSeparator (c : Char) : Bool := c = 'T' || c = 't' || c = ' '

/-- Reads what follows a date. -/
def ofDate? (d : Date) : List Char → Option Moment
  | [] => some (date d)
  | c :: rest =>
    if isSeparator c then do
      let (t, rest) ← Time.read? rest
      return both d t (← Offset.read? rest)
    else none

/-- Reads a whole text. -/
def read? (cs : List Char) : Option Moment :=
  match Date.read? cs, Time.read? cs with
  | some (d, rest), _ => ofDate? d rest
  | none, some (t, []) => some (time t)
  | none, _ => none

def write : Moment → List Char
  | date d => d.write
  | time t => t.write
  | both d t offset => d.write ++ 'T' :: t.write ++ (offset.map Offset.write).getD []

/-- The text of a moment. -/
def text (m : Moment) : String := String.ofList m.write

/-- The key under which a moment shows its text to whoever takes it for a table. -/
def key : String := "$__toml_private_datetime"

end Moment

end FeatureMerge.Toml
