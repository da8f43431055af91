import FeatureMerge.Text.Quoted

/-!
# What can go wrong

`Misfit` says how a well-formed document fails to describe a value, and
`DocumentFault` adds documents that are not well-formed. `BuildError` holds the
failures of the library itself. Each has one function that words it.
-/

namespace FeatureMerge

/-- What a document holds where something else was wanted. -/
inductive Found where
  | integer (n : Int)
  | float (written : String)
  | boolean (b : Bool)
  | string (s : String)
  | null
  | table
  | sequence
  deriving DecidableEq, Repr

namespace Found

/-- How the width of an integer is worded that does not fit into 64 bits. -/
def widthOf (n : Int) : String :=
  if -Int.pow 2 63 ≤ n && n < Int.pow 2 64 then ""
  else if n < Int.pow 2 127 then " as i128"
  else " as u128"

def describe : Found → String
  | integer n => s!"integer `{n}`" ++ widthOf n
  | float written => s!"floating point `{written}`"
  | boolean true => "boolean `true`"
  | boolean false => "boolean `false`"
  | string s => "string " ++ Text.quoted s
  | null => "null"
  | table => "map"
  | sequence => "sequence"

end Found

/-- A name between back quotes. -/
def tick (name : String) : String := "`" ++ name ++ "`"

/-- How a list of admitted names is worded. -/
def oneOf : List String → String
  | [a] => tick a
  | [a, b] => tick a ++ " or " ++ tick b
  | names => "one of " ++ String.intercalate ", " (names.map tick)

/-- How a well-formed document fails to describe a value. -/
inductive Misfit where
  | unexpected (found : Found) (wanted : String)
  | unknownField (name : String) (known : List String)
  | missingField (name : String)
  | duplicateField (name : String)
  | unknownVariant (name : String) (known : List String)
  | tooShort (length : Nat) (wanted : String)
  | refused (reason : String)
  /-- A number that is out of range whatever was wanted. -/
  | overflow (kind : String)
  deriving DecidableEq, Repr

namespace Misfit

def message : Misfit → String
  | unexpected found wanted => s!"invalid type: {found.describe}, expected {wanted}"
  | unknownField name known => s!"unknown field {tick name}, expected {oneOf known}"
  | missingField name => s!"missing field {tick name}"
  | duplicateField name => s!"duplicate field {tick name}"
  | unknownVariant name known => s!"unknown variant {tick name}, expected {oneOf known}"
  | tooShort length wanted => s!"invalid length {length}, expected {wanted}"
  | refused reason => reason
  | overflow kind => s!"{kind} number overflowed"

end Misfit

/-- A document that cannot be read: its text is not of the format at all, or it does not fit. -/
inductive DocumentFault where
  | malformed
  | data (misfit : Misfit)
  deriving DecidableEq, Repr

namespace DocumentFault

def message : DocumentFault → String
  | malformed => "malformed document"
  | data misfit => misfit.message

end DocumentFault

/-- The failures of the library itself, as opposed to those of handlers. -/
inductive BuildError where
  | missingFeatureProvider
  | invalidArtifactId (input reason : String)
  | invalidMergeAlgorithm (value : String)
  | invalidPropagationPolicy (value : String)
  | invalidSettings (fault : DocumentFault)
  deriving DecidableEq, Repr

namespace BuildError

def message : BuildError → String
  | missingFeatureProvider => "Feature provider must not be missing"
  | invalidArtifactId input reason => s!"Invalid artifact id '{input}': {reason}"
  | invalidMergeAlgorithm value => s!"Unknown artifact merge algorithm '{value}'"
  | invalidPropagationPolicy value => s!"Unknown configuration propagation policy '{value}'"
  | invalidSettings fault => s!"Failed to parse builder settings: {fault.message}"

end BuildError

end FeatureMerge
