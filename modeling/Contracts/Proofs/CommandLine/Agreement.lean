import Contracts.Proofs.CommandLine.Exits

/-!
# Sessions and guarded calls

A script none of whose steps checks a parameter does not look at the bindings.  It checks the same
things on its own as in front of a guarded call, whatever the function declares and whatever it is
called with.  The two commands then print the same reports, counts and error and end with the same
exit; only the guarded call has a result.
-/

namespace Contracts

namespace Script

/-- Whether no step of a script checks a parameter. -/
def Parameterless (script : Script Value) : Prop :=
  forall step, step ∈ script.checks -> step.param = none

instance (script : Script Value) : Decidable script.Parameterless :=
  inferInstanceAs (Decidable (forall step, step ∈ script.checks -> step.param = none))

end Script

section

variable (b c : Bindings)

theorem Step.report_of_parameterless {step : Step Value} (h : step.param = none) (index : Nat) :
    step.report index b = step.report index c := by
  have hassertion : step.assertion index b = step.assertion index c := by
    unfold Step.assertion
    rw [h]
    cases step.enforce with
    | none =>
        rfl
    | some args =>
        rfl
  unfold Step.report
  rw [hassertion]

theorem Script.courseFrom_of_parameterless {steps : List (Step Value)}
    (h : forall step, step ∈ steps -> step.param = none) (index : Nat) :
    courseFrom b index steps = courseFrom c index steps := by
  induction steps generalizing index with
  | nil =>
      rfl
  | cons step rest ih =>
      rw [List.forall_mem_cons] at h
      unfold courseFrom
      rw [Step.report_of_parameterless b c h.1, ih h.2]

/-- A script without parameters does the same against all bindings. -/
theorem Script.apply_of_parameterless {script : Script Value} (h : script.Parameterless) :
    script.apply b = script.apply c := by
  rw [apply_eq_run, apply_eq_run]
  unfold course
  rw [courseFrom_of_parameterless b c h]

end

namespace CommandLine

/-- Whether two outcomes tell the same of the checks that were made. -/
structure Outcome.Agrees (o p : Outcome) : Prop where
  policy_eq : o.policy = p.policy
  reports_eq : o.reports = p.reports
  count_eq : o.count = p.count
  passed_eq : o.passed = p.passed
  failed_eq : o.failed = p.failed
  error_eq : o.error = p.error

/-- What a guarded call prints is what the session of its script prints, and perhaps a result. -/
theorem concluded_eq_settle {rs : List Report} {ending : Except Failure Unit}
    (h : Script.Ending .precondition rs ending) (args : List Value) :
    exists result, concluded args rs (verdictOf rs ending) =
      ({ (settle .precondition rs ending).1 with result := result },
        (settle .precondition rs ending).2) := by
  cases h with
  | done hpass =>
      -- Without a failure every report passed, so the gate is open.
      have hall : rs.all Report.pass = true := List.all_eq_true.mpr (hpass rfl)
      have hverdict : verdictOf rs (.ok ()) = .admitted := if_pos hall
      rw [hverdict]
      exact ⟨some (.array (args.map Value.toJson)), rfl⟩
  | misused m hpass =>
      exact ⟨none, rfl⟩
  | raised hraises hfront hr hdescribed hmessage =>
      exact ⟨none, rfl⟩

/-- For a script without parameters a guarded call of any declared function, with any arguments,
and a session under the precondition policy agree on all but the result: they have the same
reports in the same order, the same counts, the same error and the same exit. -/
theorem guardCall_agrees_checkSession {script : Script Value} (hscript : script.Parameterless)
    {signature : String} {names : List String}
    (hnames : Signature.parameterNames signature = .ok names) (args : List Value)
    (supply : Supply) :
    (guardCall script signature args supply).1.1.Agrees (checkSession script .precondition).1 ∧
    (guardCall script signature args supply).1.2 = (checkSession script .precondition).2 := by
  have hsame : script.apply (Bindings.ofArguments names args) = script.run :=
    Script.apply_of_parameterless _ {} hscript
  have hdeclared : (Signature.declared signature).names = .ok names := hnames
  have hcall := guardCall_of_names hdeclared script args supply rfl rfl
  rw [hsame] at hcall
  rcases concluded_eq_settle (script.ending_apply {} .precondition) args with ⟨result, hresult⟩
  rw [hcall, checkSession_eq]
  unfold Script.run
  rw [hresult]
  exact ⟨⟨rfl, rfl, rfl, rfl, rfl, rfl⟩, rfl⟩

/-- A script whose second check fails, with a step behind it that misuses the checks. -/
def failingTotal : Script Value where
  policy := none
  checks := [⟨none, some [.int 3], "lessThan", some (.int 4), false⟩,
    ⟨none, some [.str "total", .int (-1)], "moreThan", some (.int 0), false⟩,
    ⟨none, none, "exists", none, false⟩]

theorem guardCall_agrees_checkSession_failingTotal :
    failingTotal.Parameterless ∧ Signature.parameterNames "|a, b| a" = .ok ["a", "b"] ∧
    (guardCall failingTotal "|a, b| a" [.null] {}).1.1.Agrees
      (checkSession failingTotal .precondition).1 ∧
    (guardCall failingTotal "|a, b| a" [.null] {}).1.2 =
      (checkSession failingTotal .precondition).2 ∧
    (checkSession failingTotal .precondition).1.error = some "total: moreThan(-1, 0)" ∧
    (checkSession failingTotal .precondition).1.count = 2 := by
  have hscript : failingTotal.Parameterless := by
    decide
  have hnames : Signature.parameterNames "|a, b| a" = .ok ["a", "b"] := rfl
  rcases guardCall_agrees_checkSession hscript hnames [.null] {} with ⟨hagrees, hexit⟩
  exact ⟨hscript, hnames, hagrees, hexit, rfl, rfl⟩

end CommandLine
end Contracts
