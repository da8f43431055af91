import FeatureMerge.Text.Digits

/-!
# TOML strings

A string stands between one or three quotes of either kind. Double quotes admit
escapes, three quotes admit line breaks; the four combinations are the values
of `Form`. `Form.read` reads what follows the opening quotes and is the
counterpart of `Form.write`.
-/

namespace FeatureMerge.Toml

structure Form where
  isBasic : Bool
  isMultiline : Bool
  deriving DecidableEq, Repr

namespace Form

def basic : Form := ⟨true, false⟩

def literal : Form := ⟨false, false⟩

def basicLines : Form := ⟨true, true⟩

def literalLines : Form := ⟨false, true⟩

def quote (form : Form) : Char := if form.isBasic then '"' else '\''

def delimiter (form : Form) : List Char :=
  if form.isMultiline then [form.quote, form.quote, form.quote] else [form.quote]

end Form

/-- Control characters have no place in a document, the tab apart. -/
def isTextChar (c : Char) : Bool := c = '\t' || (0x20 ≤ c.toNat && c.toNat ≠ 0x7F)

namespace Form

/-! ## Reading -/

/-- Whether `c` may stand in a string when `next` follows. -/
def admits (form : Form) (c : Char) (next : List Char) : Bool :=
  isTextChar c || (form.isMultiline && (c = '\n' || (c = '\r' && next.head? = some '\n')))

/-- What stands before the end of a string that ends here, and what follows the end. Up to two
more quotes in front of the last three belong to the string. -/
def close? (form : Form) (cs : List Char) : Option (List Char × List Char) :=
  let q := form.quote
  if form.isMultiline then
    match [q, q, q].isPrefixOf? cs with
    | none => none
    | some rest =>
      match [q, q].isPrefixOf? rest, [q].isPrefixOf? rest with
      | some rest, _ => some ([q, q], rest)
      | none, some rest => some ([q], rest)
      | none, none => some ([], rest)
  else ([q].isPrefixOf? cs).map fun rest => ([], rest)

/-- Cuts a string off behind its opening quotes. -/
def scan (form : Form) : List Char → Option (List Char × List Char)
  | [] => none
  | c :: rest =>
    match form.close? (c :: rest) with
    | some cut => some cut
    | none =>
      if !form.admits c rest then none
      else if form.isBasic && c = '\\' then
        match rest with
        | [] => none
        | d :: rest =>
          if form.admits d rest then (scan form rest).map fun (s, after) => (c :: d :: s, after)
          else none
      else (scan form rest).map fun (s, after) => (c :: s, after)

/-- What a short escape stands for. -/
def unescape? : Char → Option Char
  | 'b' => some '\x08'
  | 't' => some '\t'
  | 'n' => some '\n'
  | 'f' => some '\x0c'
  | 'r' => some '\r'
  | 'e' => some '\x1b'
  | '"' => some '"'
  | '\\' => some '\\'
  | _ => none

/-- The character that hexadecimal digits name. -/
def numbered? (digits : List Char) : Option Char :=
  if digits.all (Text.isDigitOf 16) then Text.scalar? digits else none

/-- Where a text stands with respect to an escaped line break: outside one, in front of the break,
or behind it, where blanks do not count. -/
inductive Fold where
  | outside
  | before
  | behind

/-- Resolves the escapes of a string. -/
def resolve : Fold → List Char → Option (List Char)
  | .before, [] => none
  | _, [] => some []
  | .before, c :: rest =>
    if c = '\n' then resolve .behind rest
    else if c = ' ' || c = '\t' || c = '\r' then resolve .before rest
    else none
  | _, '\\' :: 'x' :: a :: b :: rest => do
    let c ← numbered? [a, b]
    let s ← resolve .outside rest
    return c :: s
  | _, '\\' :: 'u' :: a :: b :: c :: d :: rest => do
    let c ← numbered? [a, b, c, d]
    let s ← resolve .outside rest
    return c :: s
  | _, '\\' :: 'U' :: a :: b :: c :: d :: e :: f :: g :: h :: rest => do
    let c ← numbered? [a, b, c, d, e, f, g, h]
    let s ← resolve .outside rest
    return c :: s
  | _, '\\' :: c :: rest =>
    if c = ' ' || c = '\t' || c = '\r' then resolve .before rest
    else if c = '\n' then resolve .behind rest
    else do
      let c ← unescape? c
      let s ← resolve .outside rest
      return c :: s
  | .behind, c :: rest =>
    if c = ' ' || c = '\t' || c = '\n' || c = '\r' then resolve .behind rest
    else do
      let s ← resolve .outside rest
      return c :: s
  | .outside, c :: rest => do
    let s ← resolve .outside rest
    return c :: s

/-- A line break right behind the opening quotes does not count. -/
def dropFirstBreak : List Char → List Char
  | '\n' :: s => s
  | '\r' :: '\n' :: s => s
  | s => s

/-- Reads a string behind its opening quotes. -/
def read (form : Form) (cs : List Char) : Option (List Char × List Char) := do
  let (written, rest) ← form.scan cs
  let body := if form.isMultiline then dropFirstBreak written else written
  let s ← if form.isBasic then resolve .outside body else some body
  return (s, rest)

/-! ## Writing -/

/-- A digit of an escape, upper case. -/
def hexDigit (n : Nat) : Char := (Nat.digitChar (n % 16)).toUpper

/-- A control character by number. -/
def numberedEscape (c : Char) : List Char :=
  ['\\', 'u', '0', '0', hexDigit (c.toNat / 16), hexDigit c.toNat]

/-- A character that has to be escaped between double quotes. -/
def escape (c : Char) : List Char :=
  if c = '\x08' then ['\\', 'b']
  else if c = '\t' then ['\\', 't']
  else if c = '\n' then ['\\', 'n']
  else if c = '\x0c' then ['\\', 'f']
  else if c = '\r' then ['\\', 'r']
  else if c = '"' then ['\\', '"']
  else if c = '\\' then ['\\', '\\']
  else if c.toNat < 0x20 || c.toNat = 0x7F then numberedEscape c
  else [c]

/-- The text between double quotes. Between three of them line breaks stand for themselves, and of
three quotes in a row the last is escaped; `quotes` counts those just written. -/
def escapeAll (form : Form) (quotes : Nat) : List Char → List Char
  | [] => []
  | c :: rest =>
    if form.isMultiline && c = '\n' then c :: escapeAll form 0 rest
    else if form.isMultiline && c = '"' && quotes < 2 then c :: escapeAll form (quotes + 1) rest
    else escape c ++ escapeAll form 0 rest

/-- Writes a string; one of several lines begins on a line of its own. -/
def write (form : Form) (s : List Char) : List Char :=
  let start := if form.isMultiline && s.contains '\n' then ['\n'] else []
  let body := if form.isBasic then escapeAll form 0 s else s
  form.delimiter ++ start ++ body ++ form.delimiter

end Form

end FeatureMerge.Toml
