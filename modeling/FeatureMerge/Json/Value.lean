import FeatureMerge.Double.Layout
import FeatureMerge.Json.Text

/-!
# JSON values and how they are written

A `Value` keeps the members of an object in the order in which they are to be
written. `Value.write` uses no blanks.
-/

namespace FeatureMerge.Json

/-- A number is whole, or a double. -/
inductive Number where
  | whole (n : Int)
  | real (x : Float)

namespace Number

def write : Number → String
  | whole n => toString n
  | real x => Double.Layout.scientific.write x

/-- A number as a diagnostic names it. -/
def found : Number → Found
  | whole n => .integer n
  | real x => .float (real x).write

end Number

inductive Value where
  | null
  | boolean (b : Bool)
  | number (n : Number)
  | string (s : String)
  | array (items : List Value)
  | object (members : List (String × Value))

namespace Value

/-- Texts with commas between them. -/
def separated : List (List Char) → List Char
  | [] => []
  | [text] => text
  | text :: texts => text ++ ',' :: separated texts

mutual

def chars : Value → List Char
  | null => "null".toList
  | boolean true => "true".toList
  | boolean false => "false".toList
  | number n => n.write.toList
  | string s => Text.write s.toList
  | array items => '[' :: separated (itemChars items) ++ [']']
  | object members => '\x7b' :: separated (memberChars members) ++ ['\x7d']

def itemChars : List Value → List (List Char)
  | [] => []
  | v :: vs => v.chars :: itemChars vs

def memberChars : List (String × Value) → List (List Char)
  | [] => []
  | (key, v) :: rest => (Text.write key.toList ++ ':' :: v.chars) :: memberChars rest

end

def write (v : Value) : String := String.ofList v.chars

/-- An object that omits absent members. -/
def objectOf (members : List (Option (String × Value))) : Value :=
  object (members.filterMap id)

def texts (items : List String) : Value := array (items.map string)

end Value

end FeatureMerge.Json
