import FeatureMerge.Toml.Quote
import FeatureMerge.Toml.Scalar
import FeatureMerge.Toml.Tree

/-!
# Reading TOML

`Table.read` reads a whole document. Each reader takes the text that is left
and returns what it read together with the rest.
-/

namespace FeatureMerge.Toml

namespace Reader

def isSpace (c : Char) : Bool := c = ' ' || c = '\t'

def skipSpaces (cs : List Char) : List Char := cs.dropWhile isSpace

/-- Skips blanks, line breaks and comments. -/
def skipLines (inComment : Bool) : List Char → Option (List Char)
  | [] => some []
  | '\n' :: rest => skipLines false rest
  | '\r' :: '\n' :: rest => skipLines false rest
  | c :: rest =>
    if inComment then if isTextChar c then skipLines true rest else none
    else if isSpace c then skipLines false rest
    else if c = '#' then skipLines true rest
    else some (c :: rest)

/-- What follows the end of a line on which nothing but a comment is left. -/
def endLine (inComment : Bool) : List Char → Option (List Char)
  | [] => some []
  | '\n' :: rest => some rest
  | '\r' :: '\n' :: rest => some rest
  | c :: rest =>
    if inComment then if isTextChar c then endLine true rest else none
    else if isSpace c then endLine false rest
    else if c = '#' then endLine true rest
    else none

/-! ## Keys -/

def isBareChar (c : Char) : Bool := c.isAlphanum || c = '_' || c = '-'

def readKey : List Char → Option (String × List Char)
  | '"' :: rest => (Form.basic.read rest).map fun (s, rest) => (String.ofList s, rest)
  | '\'' :: rest => (Form.literal.read rest).map fun (s, rest) => (String.ofList s, rest)
  | cs =>
    let bare := cs.takeWhile isBareChar
    if bare.isEmpty then none else some (String.ofList bare, cs.dropWhile isBareChar)

/-- Reads keys with dots between them, at most `limit`. -/
def readPath : Nat → List Char → Option (List String × List Char)
  | 0, _ => none
  | limit + 1, cs => do
    let (key, rest) ← readKey (skipSpaces cs)
    match skipSpaces rest with
    | '.' :: rest =>
      let (path, rest) ← readPath limit rest
      return (key :: path, rest)
    | rest => return ([key], rest)

/-- A dotted key has at most this many parts, and values nest at most this deep. -/
def maxDepth : Nat := 80

/-! ## Values -/

/-- Reads a string; three quotes open one of several lines. -/
def readString : List Char → Option (Value × List Char)
  | '"' :: '"' :: '"' :: rest => text Form.basicLines rest
  | '\'' :: '\'' :: '\'' :: rest => text Form.literalLines rest
  | '"' :: rest => text Form.basic rest
  | '\'' :: rest => text Form.literal rest
  | _ => none
where
  text (form : Form) (cs : List Char) : Option (Value × List Char) :=
    (form.read cs).map fun (s, rest) => (.string (String.ofList s), rest)

mutual

/-- Reads a value that may hold `depth` levels of arrays and inline tables. -/
def readValue : Nat → Nat → List Char → Option (Value × List Char)
  | 0, _, _ => none
  | fuel + 1, depth, cs =>
    match cs with
    | '[' :: rest =>
      match depth with
      | 0 => none
      | depth + 1 => do
        let (items, rest) ← readItems fuel depth rest
        return (.array items, rest)
    | '\x7b' :: rest =>
      match depth with
      | 0 => none
      | depth + 1 => do
        let (assignments, rest) ← readAssignments fuel depth rest
        return (.table (← Tree.ofAssignments assignments), rest)
    | c :: rest => if c = '"' || c = '\'' then readString (c :: rest) else Scalar.read (c :: rest)
    | [] => none

/-- Reads the items of an array up to its end. -/
def readItems : Nat → Nat → List Char → Option (List Value × List Char)
  | 0, _, _ => none
  | fuel + 1, depth, cs => do
    match ← skipLines false cs with
    | ']' :: rest => return ([], rest)
    | cs =>
      let (v, rest) ← readValue fuel depth cs
      match ← skipLines false rest with
      | ']' :: rest => return ([v], rest)
      | ',' :: rest =>
        let (vs, rest) ← readItems fuel depth rest
        return (v :: vs, rest)
      | _ => none

/-- Reads the assignments of an inline table up to its end. Line breaks and comments may stand
anywhere but within a key. -/
def readAssignments : Nat → Nat → List Char → Option (List (List String × Value) × List Char)
  | 0, _, _ => none
  | fuel + 1, depth, cs => do
    match ← skipLines false cs with
    | '\x7d' :: rest => return ([], rest)
    | cs =>
      let (path, rest) ← readPath maxDepth cs
      match ← skipLines false rest with
      | '=' :: rest =>
        let (v, rest) ← readValue fuel depth (← skipLines false rest)
        match ← skipLines false rest with
        | '\x7d' :: rest => return ([(path, v)], rest)
        | ',' :: rest =>
          let (more, rest) ← readAssignments fuel depth rest
          return ((path, v) :: more, rest)
        | _ => none
      | _ => none

end

/-! ## Documents -/

/-- What has been read: all tables, and the path of the header in force. -/
structure Draft where
  root : Tree.Entries
  path : List String

namespace Draft

/-- Opens a table, or adds one to an array of tables. -/
def header (d : Draft) (isArray : Bool) (path : List String) : Option Draft := do
  let key ← path.getLast?
  let change := if isArray then Tree.appendTable key else Tree.openTable key
  return ⟨← Tree.within change path.dropLast d.root, path⟩

def assign (d : Draft) (path : List String) (v : Value) : Option Draft := do
  return { d with root := ← Tree.within (Tree.assign v path) d.path d.root }

end Draft

/-- Reads a header behind its opening brackets. -/
def readHeader (d : Draft) (isArray : Bool) (cs : List Char) : Option (Draft × List Char) := do
  let (path, rest) ← readPath maxDepth cs
  let rest ← (if isArray then [']', ']'] else [']']).isPrefixOf? rest
  return (← d.header isArray path, rest)

/-- Reads an assignment. -/
def readAssignment (d : Draft) (cs : List Char) : Option (Draft × List Char) := do
  let (path, rest) ← readPath maxDepth cs
  match rest with
  | '=' :: rest =>
    let cs := skipSpaces rest
    let (v, rest) ← readValue (2 * cs.length + 2) maxDepth cs
    return (← d.assign path v, rest)
  | _ => none

/-- Reads what stands on one line, if anything does. -/
def readLine (d : Draft) : List Char → Option (Draft × List Char)
  | '[' :: '[' :: rest => readHeader d true rest
  | '[' :: rest => readHeader d false rest
  | c :: rest =>
    if c = '#' || c = '\n' || c = '\r' then some (d, c :: rest) else readAssignment d (c :: rest)
  | [] => some (d, [])

/-- Reads line by line; no line takes more fuel than it has characters. -/
def readLines : Nat → Draft → List Char → Option Draft
  | 0, _, _ => none
  | fuel + 1, d, cs =>
    match skipSpaces cs with
    | [] => some d
    | cs => do
      let (d, rest) ← readLine d cs
      readLines fuel d (← endLine false rest)

end Reader

/-- A byte order mark at the beginning does not count. -/
def dropMark : List Char → List Char
  | '\uFEFF' :: cs => cs
  | cs => cs

/-- Reads a document. -/
def Table.read (s : String) : Option Table :=
  let cs := dropMark s.toList
  (Reader.readLines (cs.length + 1) ⟨[], []⟩ cs).map fun d => Tree.finishEntries d.root

end FeatureMerge.Toml
