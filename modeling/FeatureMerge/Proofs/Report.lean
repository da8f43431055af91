import FeatureMerge.Report
import Mathlib.Data.List.Basic

/-!
# Reports within contexts

Contexts go to the front of the chain of messages and leave the cause alone
(`Failure.chain_foldl_within`, `Failure.cause_foldl_within`). So the report of a library error is
the same within any contexts, and that of any other failure shows the outermost message and all
behind it (`Failure.report_foldl_within`).
-/

namespace FeatureMerge.Failure

/-! ## Contexts -/

theorem chain_within (f : Failure) (context : String) :
    (f.within context).chain = context :: f.chain := by
  simp [chain, within]

theorem chain_foldl_within (f : Failure) (contexts : List String) :
    (contexts.foldl within f).chain = contexts.reverse ++ f.chain := by
  induction contexts generalizing f with
  | nil => rfl
  | cons context contexts ih =>
    rw [List.foldl_cons, ih, chain_within, List.reverse_cons, List.append_assoc,
      List.singleton_append]

theorem cause_foldl_within (f : Failure) (contexts : List String) :
    (contexts.foldl within f).cause = f.cause := by
  induction contexts generalizing f with
  | nil => rfl
  | cons context contexts ih => exact ih (f.within context)

/-- The chain of a message within contexts, from the outside to the inside. -/
theorem chain_foldl_ofMessage (root : String) (contexts : List String) :
    (contexts.foldl within (ofMessage root)).chain = (root :: contexts).reverse := by
  rw [chain_foldl_within, List.reverse_cons]
  rfl

/-! ## Reports -/

theorem report_of_build {f : Failure} {error : BuildError} (h : f.cause = .build error) :
    f.report = error.report := by
  rw [report, h]

theorem report_of_message {f : Failure} {root : String} (h : f.cause = .message root) :
    f.report =
      { error := none
        message := f.message
        details := if f.chain.tail = [] then none
          else some ("Caused by: " ++ String.intercalate ": " f.chain.tail) } := by
  rw [report, h]
  cases f.chain.tail <;> rfl

theorem message_foldl_ofMessage (root : String) (contexts : List String) :
    (contexts.foldl within (ofMessage root)).message =
      (root :: contexts).getLast (List.cons_ne_nil root contexts) := by
  rw [message, chain_foldl_ofMessage, List.headD_eq_head?_getD, List.head?_reverse,
    List.getLast?_eq_some_getLast (List.cons_ne_nil root contexts), Option.getD_some]

theorem tail_chain_foldl_ofMessage (root : String) (contexts : List String) :
    (contexts.foldl within (ofMessage root)).chain.tail = (root :: contexts).dropLast.reverse := by
  rw [chain_foldl_ofMessage, List.tail_reverse]

/-- Contexts make no difference to the report of a library error. Of any other failure the text
that was added last is the message, and the other texts are the details, from the outside to the
inside. -/
theorem report_foldl_within :
    (∀ (error : BuildError) (contexts : List String),
      let alone := (ofError error).report
      (contexts.foldl within (ofError error)).report = alone ∧
        alone.error = some error ∧ alone.message = error.message ∧
        alone.suggestion = some error.suggestion ∧ alone.details = error.details?) ∧
    ∀ (root : String) (contexts : List String),
      let texts := root :: contexts
      let r := (contexts.foldl within (ofMessage root)).report
      r.error = none ∧ r.suggestion = none ∧ some r.message = texts.getLast? ∧
        r.details = (if contexts = [] then none
          else some ("Caused by: " ++ String.intercalate ": " texts.dropLast.reverse)) ∧
        r.text = r.message ++ r.details.elim "" ("\nDetails: " ++ ·) := by
  constructor
  · intro error contexts
    refine ⟨?_, rfl, rfl, rfl, rfl⟩
    rw [report_of_build (cause_foldl_within (ofError error) contexts), report_of_build rfl]
  · intro root contexts texts r
    have hr : r = _ := report_of_message (cause_foldl_within (ofMessage root) contexts)
    rw [message_foldl_ofMessage, tail_chain_foldl_ofMessage] at hr
    have hnil : (root :: contexts).dropLast.reverse = [] ↔ contexts = [] := by
      cases contexts <;> simp
    simp only [hnil] at hr
    rw [hr]
    refine ⟨rfl, rfl, (List.getLast?_eq_some_getLast _).symm, rfl, ?_⟩
    by_cases h : contexts = [] <;> simp [h, Report.text]

/-- A handler's failure is shown with what caused it. -/
example :
    (((ofMessage "disk on fire").within "cannot write").within "handler 'a' failed").report.text =
      "handler 'a' failed\nDetails: Caused by: cannot write: disk on fire" := by decide

end FeatureMerge.Failure
