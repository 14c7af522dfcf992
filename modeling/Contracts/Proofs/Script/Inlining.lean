import Contracts.Proofs.Entries
import Contracts.Proofs.Script.Course

/-!
# Scripts without parameters

A step that checks a parameter can name the argument itself: it becomes a step that enforces the
argument under the name of the parameter.  The script that comes of this runs on its own, without
bindings, and does what the script did with them.  A step whose parameter is not bound stays as
it is, and fails as before.
-/

namespace Contracts

namespace Bindings

theorem named_of_mem_pair {names : List String} {args : List Value} {name : String}
    {a : Assertion} (h : (name, a) ∈ pair names args) : a = { value := a.value, name := name } := by
  induction names generalizing args with
  | nil =>
      cases h
  | cons head rest ih =>
      rcases List.mem_cons.mp h with h | h
      · cases h
        rfl
      · exact ih h

/-- The assertion over a parameter bears the name of the parameter. -/
theorem named_of_param {names : List String} {args : List Value} {name : String}
    {a : Assertion} (h : (ofArguments names args).param name = .ok a) :
    a = { value := a.value, name := name } := by
  unfold param at h
  cases hget : Entries.get? name (ofArguments names args).params with
  | none =>
      rw [hget] at h
      cases h
  | some b =>
      rw [hget] at h
      cases h
      exact named_of_mem_pair (Entries.mem_of_mem_ofPairs (Entries.mem_of_get? hget))

theorem eq_of_param_error {b : Bindings} {name : String} {m : Misuse}
    (h : b.param name = .error m) : m = .unknownParameter name := by
  unfold param at h
  split at h
  · cases h
  · cases h
    rfl

end Bindings

/-! ## Steps -/

/-- The step that enforces the argument of its parameter, where that is bound. -/
def Step.inlined (bindings : Bindings) (step : Step Value) : Step Value :=
  match step.param with
  | none =>
      step
  | some name =>
      match bindings.param name with
      | .ok a =>
          { step with param := none, enforce := some [.str name, a.value] }
      | .error _ =>
          step

section

variable {step : Step Value} {bindings : Bindings} {name : String}

theorem Step.inlined_of_none (h : step.param = none) : step.inlined bindings = step := by
  unfold Step.inlined
  rw [h]

theorem Step.inlined_of_bound {a : Assertion} (h : step.param = some name)
    (hbound : bindings.param name = .ok a) :
    step.inlined bindings = { step with param := none, enforce := some [.str name, a.value] } := by
  unfold Step.inlined
  rw [h]
  simp only [hbound]

theorem Step.inlined_of_unbound {m : Misuse} (h : step.param = some name)
    (hunbound : bindings.param name = .error m) : step.inlined bindings = step := by
  unfold Step.inlined
  rw [h]
  simp only [hunbound]

theorem Step.assertion_of_param (h : step.param = some name) (index : Nat) :
    step.assertion index bindings = bindings.param name := by
  unfold Step.assertion
  rw [h]

end

/-- A description that is a text names the assertion after it, the empty text too. -/
theorem Assertion.ofArguments_named (name : String) (value : Value) :
    Assertion.ofArguments [.str name, value] = .ok { value := value, name := name } := by
  have hname : (if (Value.str name).isTruthy then (Value.str name).display else "") = name := by
    show (if (!name.isEmpty) = true then name else "") = name
    split
    · rfl
    · rename_i h
      have hempty : name.isEmpty = true := by simpa using h
      exact (String.isEmpty_iff.mp hempty).symm
  show Except.ok { value := value, name := ite _ _ _ : Assertion } = _
  rw [hname]

section

variable (names : List String) (args : List Value)

theorem Step.assertion_inlined (step : Step Value) (index : Nat) :
    (step.inlined (Bindings.ofArguments names args)).assertion index {} =
      step.assertion index (Bindings.ofArguments names args) := by
  cases hparam : step.param with
  | none =>
      -- Without a parameter a step does not look at the bindings.
      rw [Step.inlined_of_none hparam]
      unfold Step.assertion
      rw [hparam]
      cases step.enforce with
      | none =>
          rfl
      | some list =>
          rfl
  | some name =>
      rw [Step.assertion_of_param hparam]
      cases hbound : (Bindings.ofArguments names args).param name with
      | ok a =>
          rw [Step.inlined_of_bound hparam hbound, Bindings.named_of_param hbound]
          exact Assertion.ofArguments_named name a.value
      | error m =>
          rw [Step.inlined_of_unbound hparam hbound, Step.assertion_of_param hparam,
            Bindings.eq_of_param_error hbound]
          rfl

theorem Step.check_inlined (bindings : Bindings) (step : Step Value) :
    (step.inlined bindings).check = step.check ∧
      (step.inlined bindings).against = step.against ∧
      (step.inlined bindings).negate = step.negate := by
  unfold Step.inlined
  split
  · exact ⟨rfl, rfl, rfl⟩
  · split
    · exact ⟨rfl, rfl, rfl⟩
    · exact ⟨rfl, rfl, rfl⟩

theorem Step.report_inlined (step : Step Value) (index : Nat) :
    (step.inlined (Bindings.ofArguments names args)).report index {} =
      step.report index (Bindings.ofArguments names args) := by
  rcases step.check_inlined (Bindings.ofArguments names args) with ⟨hcheck, hagainst, hnegate⟩
  unfold Step.report
  rw [Step.assertion_inlined, hcheck, hagainst, hnegate]

/-! ## Scripts -/

/-- The script whose steps enforce the arguments of their parameters. -/
def Script.inlined (bindings : Bindings) (script : Script Value) : Script Value :=
  { script with checks := script.checks.map (Step.inlined bindings) }

theorem Script.courseFrom_inlined (index : Nat) (steps : List (Step Value)) :
    Script.courseFrom {} index (steps.map (Step.inlined (Bindings.ofArguments names args))) =
      Script.courseFrom (Bindings.ofArguments names args) index steps := by
  induction steps generalizing index with
  | nil =>
      rfl
  | cons step rest ih =>
      unfold Script.courseFrom
      rw [List.map_cons]
      simp only [Step.report_inlined, ih]

/-- A script with its parameters written out does on its own, in every session, what the script
does with the bindings: it records the same reports and ends in the same way. -/
theorem Script.run_inlined (script : Script Value) (session : Session) :
    (script.inlined (Bindings.ofArguments names args)).run session =
      script.apply (Bindings.ofArguments names args) session := by
  unfold Script.run
  rw [Script.apply_eq_run, Script.apply_eq_run]
  unfold Script.course
  show (Script.courseFrom {} 0 (script.checks.map _)).run session = _
  rw [Script.courseFrom_inlined]

end

end Contracts
