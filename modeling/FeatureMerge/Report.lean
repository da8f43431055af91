import FeatureMerge.Fault

/-!
# Errors for users

A `Failure` is what a handler returns: a root cause below any number of context
messages. `Failure.report` is its report to a user. A cause of the library
itself brings its own guidance, whatever stands around it; any other is shown
with the chain of its causes.
-/

namespace FeatureMerge

/-- Where a failure comes from. -/
inductive Cause where
  | build (error : BuildError)
  | message (text : String)
  deriving DecidableEq, Repr

namespace Cause

def text : Cause → String
  | build error => error.message
  | message text => text

end Cause

/-- A cause and the messages around it, innermost first. -/
structure Failure where
  cause : Cause
  contexts : List String := []
  deriving DecidableEq, Repr

namespace Failure

def ofMessage (text : String) : Failure := { cause := .message text }

def ofError (error : BuildError) : Failure := { cause := .build error }

/-- The failure within one more context. -/
def within (f : Failure) (context : String) : Failure :=
  { f with contexts := f.contexts ++ [context] }

/-- All messages, the outermost first and the cause last. -/
def chain (f : Failure) : List String := f.contexts.reverse ++ [f.cause.text]

/-- The outermost message. -/
def message (f : Failure) : String := f.chain.headD ""

end Failure

/-- What is shown to a user. -/
structure Report where
  error : Option BuildError
  message : String
  suggestion : Option String := none
  details : Option String := none
  deriving DecidableEq, Repr

namespace Report

def ofError (error : BuildError) : Report := { error := some error, message := error.message }

def withSuggestion (r : Report) (suggestion : String) : Report :=
  { r with suggestion := some suggestion }

def withDetails (r : Report) (details : String) : Report := { r with details := some details }

/-- The report in one text. -/
def text (r : Report) : String :=
  r.message ++ (r.details.map ("\nDetails: " ++ ·)).getD ""
    ++ (r.suggestion.map ("\nSuggestion: " ++ ·)).getD ""

/-- A label, in colour if wanted. -/
def label (color : Bool) (code name : String) : String :=
  if color then "\x1b[" ++ code ++ "m" ++ name ++ "\x1b[0m" else name

/-- The lines written to a terminal. -/
def printed (r : Report) (color : Bool) : String :=
  let line (code name text : String) := label color code name ++ ": " ++ text ++ "\n"
  line "1;31" "error" r.message
    ++ (r.details.map (line "33" "details")).getD ""
    ++ (r.suggestion.map (line "32" "suggestion")).getD ""

end Report

namespace BuildError

/-- What a user can do about an error. -/
def suggestion : BuildError → String
  | missingFeatureProvider => "Pass a feature provider to the builder before calling build()"
  | invalidArtifactId _ _ =>
    "Use 'group:artifact[:type[:classifier]]:version' or 'mvn:group/artifact/version[/type[/classifier]]'"
  | invalidMergeAlgorithm _ => "Valid merge algorithms are 'highest' and 'latest'"
  | invalidPropagationPolicy _ => "Valid propagation policies are 'reset' and 'carry'"
  | invalidSettings _ =>
    "Check the TOML syntax of the builder settings, then look for unknown keys or non-string values"

def details? : BuildError → Option String
  | missingFeatureProvider =>
    some "Included features cannot be resolved without a feature provider"
  | invalidSettings _ =>
    some "Known keys: merge-algorithm, configuration-propagation, [variables], [framework-properties], [handlers.<name>]"
  | _ => none

/-- The report of an error, with guidance. -/
def report (error : BuildError) : Report :=
  { Report.ofError error with suggestion := some error.suggestion, details := error.details? }

end BuildError

/-- The report of a failure. -/
def Failure.report (f : Failure) : Report :=
  match f.cause with
  | .build error => error.report
  | .message _ =>
    { error := none
      message := f.message
      details :=
        match f.chain.tail with
        | [] => none
        | causes => some ("Caused by: " ++ String.intercalate ": " causes) }

end FeatureMerge
