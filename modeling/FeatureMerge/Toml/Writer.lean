import FeatureMerge.Toml.Quote

/-!
# Writing TOML

Keys and texts are written in the simplest form that holds them. A document is
a list of blocks with blank lines between them.
-/

namespace FeatureMerge.Toml.Writer

def isControl (c : Char) : Bool := c.toNat < 0x20 || c.toNat = 0x7F

/-- Whether a text has at most two quotes in a row; `run` of them have just been seen. -/
def hasShortRuns (quote : Char) (run : Nat) : List Char → Bool
  | [] => true
  | c :: cs =>
    if c = quote then run < 2 && hasShortRuns quote (run + 1) cs else hasShortRuns quote 0 cs

/-- The form in which a value is written. -/
def valueForm (s : List Char) : Form :=
  let isClean := s.all fun c => c = '\t' || c = '\n' || !isControl c
  let isLine := '\n' ∉ s
  if isClean && isLine && '\\' ∉ s && '"' ∉ s then .basic
  else if isClean && isLine && '\'' ∉ s then .literal
  else if isClean && '\\' ∉ s && hasShortRuns '"' 0 s then .basicLines
  else if isClean && hasShortRuns '\'' 0 s then .literalLines
  else if isLine then .basic
  else .basicLines

def value (s : String) : List Char := (valueForm s.toList).write s.toList

def isBareChar (c : Char) : Bool := c.isAlphanum || c = '_' || c = '-'

/-- The form in which a key is written that cannot stand without quotes. -/
def keyForm (s : List Char) : Form :=
  let isClean := s.all fun c => c = '\t' || !isControl c
  if isClean && '\\' ∉ s && '"' ∉ s then .basic
  else if isClean && '\'' ∉ s then .literal
  else .basic

def key (s : String) : List Char :=
  let cs := s.toList
  if !cs.isEmpty && cs.all isBareChar then cs else (keyForm cs).write cs

/-- A line that assigns a text to a key. -/
def assignment (name text : String) : List Char := key name ++ " = ".toList ++ value text ++ ['\n']

/-- The header of a table. -/
def header (path : List String) : List Char :=
  '[' :: ['.'].intercalate (path.map key) ++ [']', '\n']

/-- A table of texts. -/
def table (path : List String) (entries : List (String × String)) : List Char :=
  header path ++ entries.flatMap fun e => assignment e.1 e.2

/-- Blocks with blank lines between them; empty ones are left out. -/
def document (blocks : List (List Char)) : List Char :=
  ['\n'].intercalate (blocks.filter (!·.isEmpty))

end FeatureMerge.Toml.Writer
