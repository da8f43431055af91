import FeatureMerge.Fault
import FeatureMerge.Text.Digits

/-!
# JSON strings

`Text.write` puts a text between quotes with the shortest escapes.
`Text.read` takes the text back from what follows the opening quote. A text
with half of a surrogate pair is well-formed but denotes nothing.
-/

namespace FeatureMerge.Json.Text

/-- A digit of a code unit, lower case. -/
def hexDigit (n : Nat) : Char := Nat.digitChar (n % 16)

/-- A character of a string as it is written. -/
def escape (c : Char) : List Char :=
  if c = '"' then ['\\', '"']
  else if c = '\\' then ['\\', '\\']
  else if c = '\x08' then ['\\', 'b']
  else if c = '\x0c' then ['\\', 'f']
  else if c = '\n' then ['\\', 'n']
  else if c = '\r' then ['\\', 'r']
  else if c = '\t' then ['\\', 't']
  else if c.toNat < 0x20 then ['\\', 'u', '0', '0', hexDigit (c.toNat / 16), hexDigit c.toNat]
  else [c]

def write (s : List Char) : List Char := '"' :: (s.flatMap escape ++ ['"'])

/-- What an escape of one character stands for. -/
def unescape? : Char → Option Char
  | '"' => some '"'
  | '\\' => some '\\'
  | '/' => some '/'
  | 'b' => some '\x08'
  | 'f' => some '\x0c'
  | 'n' => some '\n'
  | 'r' => some '\r'
  | 't' => some '\t'
  | _ => none

/-- The code unit that four digits name. -/
def unit? (a b c d : Char) : Option Nat :=
  if [a, b, c, d].all (FeatureMerge.Text.isDigitOf 16) then
    some (FeatureMerge.Text.valueOf 16 [a, b, c, d])
  else none

def isHigh (unit : Nat) : Bool := 0xD800 ≤ unit && unit < 0xDC00

def isLow (unit : Nat) : Bool := 0xDC00 ≤ unit && unit < 0xE000

/-- The character of a surrogate pair. -/
def pair (high low : Nat) : Char :=
  Char.ofNat (0x10000 + (high - 0xD800) * 0x400 + (low - 0xDC00))

/-- A unit that stands alone: half of a pair denotes nothing. -/
def single (unit : Nat) : Option Char :=
  if isHigh unit || isLow unit then none else some (Char.ofNat unit)

/-- Puts a character in front of a text that was read. -/
def push (c : Option Char) (read : Option (Option (List Char) × List Char)) :
    Option (Option (List Char) × List Char) :=
  read.map fun (text, rest) => (c.bind fun c => text.map (c :: ·), rest)

/-- Reads a string behind its opening quote: its text, if it denotes one, and what follows. -/
def read : List Char → Option (Option (List Char) × List Char)
  | [] => none
  | '"' :: rest => some (some [], rest)
  | '\\' :: 'u' :: a :: b :: c :: d :: '\\' :: 'u' :: e :: f :: g :: h :: rest =>
    match unit? a b c d, unit? e f g h with
    | none, _ => none
    | some high, some low =>
      if isHigh high && isLow low then push (some (pair high low)) (read rest)
      else push (single high) (read ('\\' :: 'u' :: e :: f :: g :: h :: rest))
    | some _, none => none
  | '\\' :: 'u' :: a :: b :: c :: d :: rest =>
    match unit? a b c d with
    | none => none
    | some unit => push (single unit) (read rest)
  | '\\' :: c :: rest =>
    match unescape? c with
    | none => none
    | some c => push (some c) (read rest)
  | c :: rest => if c.toNat < 0x20 || c = '\\' then none else push (some c) (read rest)

end FeatureMerge.Json.Text
