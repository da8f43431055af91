import FeatureMerge.Ascending
import FeatureMerge.Json.Outline
import FeatureMerge.Properties

/-!
# Decoding documents

A decoder goes through an outline in document order and stops at the first
thing that is wrong. `Document.decode` also asks that nothing follows the
value. `Payload.ofText` reads any JSON, with the members of objects in
ascending order of their keys.
-/

namespace FeatureMerge.Json

abbrev Decoded := Except DocumentFault

def misfit {α : Type} (m : Misfit) : Decoded α := .error (.data m)

namespace Outline

/-- What stands here, if it can be read at all. -/
def found : Outline → Decoded Found
  | broken | number none | string none => .error .malformed
  | null => .ok .null
  | boolean b => .ok (.boolean b)
  | number (some n) => .ok n.found
  | string (some s) => .ok (.string s)
  | array _ => .ok .sequence
  | object _ => .ok .table

/-- The fault of a value that is not what was wanted. -/
def unexpected {α : Type} (o : Outline) (wanted : String) : Decoded α := do
  misfit (.unexpected (← o.found) wanted)

def text : Outline → Decoded String
  | string (some s) => .ok s
  | o => o.unexpected "a string"

/-- The key of a member; only a string can be one. -/
def key : Outline → Decoded String
  | string (some s) => .ok s
  | _ => .error .malformed

/-- A value that may be absent, as `null` is. -/
def optional {α : Type} (decode : Outline → Decoded α) : Outline → Decoded (Option α)
  | null => .ok none
  | o => some <$> decode o

/-- One of the known names, or an object whose only key it is. -/
def variant (known : List String) (o : Outline) : Decoded String := do
  let check (name : String) : Decoded String :=
    if name ∈ known then .ok name else misfit (.unknownVariant name known)
  match o with
  | string (some s) => check s
  | object (.cons (string (some s)) value tail) =>
    let name ← check s
    match value, tail with
    | null, .closed => .ok name
    | null, _ => .error .malformed
    | value, _ => value.unexpected "unit"
  | _ => .error .malformed

end Outline

namespace Items

/-- The next item, if there is one. -/
def next : Items → Decoded (Option (Outline × Items))
  | closed => .ok none
  | broken => .error .malformed
  | cons head tail => .ok (some (head, tail))

/-- Nothing may follow. -/
def finish : Items → Decoded Unit
  | closed => .ok ()
  | _ => .error .malformed

def decode {α : Type} (item : Outline → Decoded α) : Items → Decoded (List α)
  | closed => .ok []
  | broken => .error .malformed
  | cons head tail => do
    let a ← item head
    let as ← tail.decode item
    return a :: as

/-- The next item of a record; the default stands for a missing one. -/
def field {α : Type} (items : Items) (default : α) (decode : Outline → Decoded α) :
    Decoded (α × Items) := do
  match ← items.next with
  | none => return (default, closed)
  | some (head, tail) => return (← decode head, tail)

/-- The item of a record that has to be there. -/
def required {α : Type} (items : Items) (before : Nat) (wanted : String)
    (decode : Outline → Decoded α) : Decoded (α × Items) := do
  match ← items.next with
  | none => misfit (.tooShort before wanted)
  | some (head, tail) => return (← decode head, tail)

end Items

/-- Takes in the members of an object one by one. -/
def Members.fold {σ : Type} (step : σ → String → Outline → Decoded σ) :
    σ → Members → Decoded σ
  | s, .closed => .ok s
  | _, .broken => .error .malformed
  | s, .cons key value tail => do
    let s ← step s (← key.key) value
    tail.fold step s

namespace Outline

def list {α : Type} (item : Outline → Decoded α) : Outline → Decoded (List α)
  | array items => items.decode item
  | o => o.unexpected "a sequence"

/-- Members with texts as values; an equal key replaces the value. -/
def properties : Outline → Decoded Properties
  | object members =>
    members.fold (fun map key value => return map.insert key (← value.text)) .empty
  | o => o.unexpected "a map of string keys to string values"

/-- A value that nobody asked for. -/
def skip (o : Outline) : Decoded Unit :=
  if o.isWhole then .ok () else .error .malformed

/-- Sets the field `name` of a record, unless it is set already. -/
def once {α : Type} (field : Option α) (name : String) (decode : Outline → Decoded α)
    (value : Outline) : Decoded (Option α) :=
  if field.isSome then misfit (.duplicateField name) else some <$> decode value

end Outline

/-- Decodes a whole text. -/
def Document.decode {α : Type} (decode : Outline → Decoded α) (s : String) : Decoded α := do
  let d := Document.read s
  let a ← decode d.root
  if d.isAll then return a else .error .malformed

namespace Payload

/-- Arrays and objects nest at most this deep. -/
def maxDepth : Nat := 127

mutual

def value? (depth : Nat) : Outline → Option Value
  | .broken => none
  | .null => some .null
  | .boolean b => some (.boolean b)
  | .number n => n.map .number
  | .string s => s.map .string
  | .array items => if depth = 0 then none else (items? (depth - 1) items).map .array
  | .object members => if depth = 0 then none else (members? (depth - 1) [] members).map .object

def items? (depth : Nat) : Items → Option (List Value)
  | .closed => some []
  | .broken => none
  | .cons head tail => do
    let v ← value? depth head
    let vs ← items? depth tail
    return v :: vs

def members? (depth : Nat) (before : List (String × Value)) :
    Members → Option (List (String × Value))
  | .closed => some before
  | .broken => none
  | .cons (.string (some key)) value tail => do
    let v ← value? depth value
    members? depth (Ascending.insert key v before) tail
  | .cons _ _ _ => none

end

def ofText (s : String) : Decoded Value :=
  Document.decode (fun root => (value? maxDepth root).elim (.error .malformed) .ok) s

end Payload

end FeatureMerge.Json
