import FeatureMerge.Json.Number

/-!
# Documents as far as they read

A document that is not JSON still has a beginning that is. An `Outline` holds
that beginning: `broken` stands where reading stops. Who decodes an outline in
document order so learns first of whatever is wrong first, be it the text or
what it says.
-/

namespace FeatureMerge.Json

mutual

/-- A value as far as it reads; numbers out of range and halves of pairs denote nothing. -/
inductive Outline where
  | broken
  | null
  | boolean (b : Bool)
  | number (n : Option Number)
  | string (s : Option String)
  | array (items : Items)
  | object (members : Members)

inductive Items where
  | closed
  | broken
  | cons (head : Outline) (tail : Items)

inductive Members where
  | closed
  | broken
  | cons (key value : Outline) (tail : Members)

end

namespace Outline

def isBlank (c : Char) : Bool := c = ' ' || c = '\t' || c = '\n' || c = '\r'

def skipBlanks (cs : List Char) : List Char := cs.dropWhile isBlank

/-- Reads a string behind its opening quote. -/
def readString (cs : List Char) : Outline × Option (List Char) :=
  match Text.read cs with
  | none => (.broken, none)
  | some (text, rest) => (.string (text.map String.ofList), some rest)

def readNumber (cs : List Char) : Outline × Option (List Char) :=
  match Number.Written.read cs with
  | none => (.broken, none)
  | some (written, rest) => (.number written.number?, some rest)

mutual

/-- Reads a value: its outline, and what follows unless reading has stopped. -/
def readValue : Nat → List Char → Outline × Option (List Char)
  | 0, _ => (.broken, none)
  | fuel + 1, cs =>
    match skipBlanks cs with
    | '[' :: rest =>
      match skipBlanks rest with
      | ']' :: rest => (.array .closed, some rest)
      | rest => let (items, after) := readItems fuel rest; (.array items, after)
    | '\x7b' :: rest =>
      match skipBlanks rest with
      | '\x7d' :: rest => (.object .closed, some rest)
      | rest => let (members, after) := readMembers fuel rest; (.object members, after)
    | '"' :: rest => readString rest
    | 'n' :: 'u' :: 'l' :: 'l' :: rest => (.null, some rest)
    | 't' :: 'r' :: 'u' :: 'e' :: rest => (.boolean true, some rest)
    | 'f' :: 'a' :: 'l' :: 's' :: 'e' :: rest => (.boolean false, some rest)
    | cs => readNumber cs

/-- Reads the items of an array from the first one on. -/
def readItems : Nat → List Char → Items × Option (List Char)
  | 0, _ => (.broken, none)
  | fuel + 1, cs =>
    match readValue fuel cs with
    | (v, none) => (.cons v .broken, none)
    | (v, some rest) =>
      match skipBlanks rest with
      | ']' :: rest => (.cons v .closed, some rest)
      | ',' :: rest => let (items, after) := readItems fuel rest; (.cons v items, after)
      | _ => (.cons v .broken, none)

/-- Reads the members of an object from the first one on. -/
def readMembers : Nat → List Char → Members × Option (List Char)
  | 0, _ => (.broken, none)
  | fuel + 1, cs =>
    match readValue fuel cs with
    | (key, none) => (.cons key .broken .broken, none)
    | (key, some rest) =>
      match skipBlanks rest with
      | ':' :: rest =>
        match readValue fuel rest with
        | (v, none) => (.cons key v .broken, none)
        | (v, some rest) =>
          match skipBlanks rest with
          | '\x7d' :: rest => (.cons key v .closed, some rest)
          | ',' :: rest =>
            let (members, after) := readMembers fuel rest; (.cons key v members, after)
          | _ => (.cons key v .broken, none)
      | _ => (.cons key .broken .broken, none)

end

mutual

/-- Whether nothing of the value is broken. -/
def isWhole : Outline → Bool
  | .broken => false
  | .array items => isWholeItems items
  | .object members => isWholeMembers members
  | _ => true

def isWholeItems : Items → Bool
  | .closed => true
  | .broken => false
  | .cons v items => isWhole v && isWholeItems items

def isWholeMembers : Members → Bool
  | .closed => true
  | .broken => false
  | .cons (.string _) v members => isWhole v && isWholeMembers members
  | .cons _ _ _ => false

end

end Outline

/-- The outline of a text, and whether nothing follows its value. -/
structure Document where
  root : Outline
  isAll : Bool

/-- Reads a text. Two units of fuel go with each character. -/
def Document.read (s : String) : Document :=
  let cs := s.toList
  match Outline.readValue (2 * cs.length + 2) cs with
  | (root, none) => ⟨root, false⟩
  | (root, some rest) => ⟨root, (Outline.skipBlanks rest).isEmpty⟩

end FeatureMerge.Json
