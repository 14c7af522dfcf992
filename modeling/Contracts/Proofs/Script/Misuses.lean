import Mathlib.Data.List.Forall2
import Contracts.Proofs.Entries
import Contracts.Proofs.Script.Course

/-!
# Steps that misuse the checks

A step either makes the report of its check or misuses the checks, in one of four ways: it names
nothing to check, its parameter is not bound, its list of arguments is empty, or no predicate has
the name it gives.  The course of a script has one report for every step before the first that
misuses the checks.
-/

namespace Contracts

theorem Bindings.param_of_not_mem {b : Bindings} {name : String} (h : name ∉ b.names) :
    b.param name = .error (.unknownParameter name) := by
  unfold Bindings.param
  rw [Entries.get?_eq_none_iff.mpr h]

theorem Bindings.exists_param_of_mem {b : Bindings} {name : String} (h : name ∈ b.names) :
    exists a, b.param name = .ok a := by
  unfold Bindings.param
  cases hget : Entries.get? name b.params with
  | none =>
      exact absurd h (Entries.get?_eq_none_iff.mp hget)
  | some a =>
      exact ⟨a, rfl⟩

theorem Assertion.exists_ofArguments {args : List Value} (h : args ≠ []) :
    exists a, Assertion.ofArguments args = .ok a := by
  match args with
  | [] =>
      exact absurd rfl h
  | [value] =>
      exact ⟨_, rfl⟩
  | _ :: _ :: _ =>
      exact ⟨_, rfl⟩

namespace Step

variable {bindings : Bindings} {step : Step Value}

/-- What a step checks: its parameter, or else the arguments of its own. -/
inductive Checks (bindings : Bindings) (step : Step Value) : Assertion -> Prop where
  | param {name : String} {a : Assertion} (hparam : step.param = some name)
      (hbound : bindings.param name = .ok a) : Checks bindings step a
  | enforce {args : List Value} {a : Assertion} (hparam : step.param = none)
      (henforce : step.enforce = some args) (hargs : Assertion.ofArguments args = .ok a) :
      Checks bindings step a

/-- Whether a report is that of the check that a step asks for. -/
def Makes (bindings : Bindings) (step : Step Value) (r : Report) : Prop :=
  exists a p, step.Checks bindings a ∧ Predicate.id p = step.check ∧
    r = (if step.negate then a.negation else a).report p step.against

/-- Whether the step at an index of a script misuses the checks, and how. -/
inductive Misuses (bindings : Bindings) (index : Nat) (step : Step Value) : Misuse -> Prop where
  | noTarget (hparam : step.param = none) (henforce : step.enforce = none) :
      Misuses bindings index step (.noTarget index)
  | unknownParameter {name : String} (hparam : step.param = some name)
      (hunbound : name ∉ bindings.names) :
      Misuses bindings index step (.unknownParameter name)
  | missingValue (hparam : step.param = none) (henforce : step.enforce = some []) :
      Misuses bindings index step .missingValue
  | noSuchCheck {a : Assertion} (hchecks : step.Checks bindings a)
      (hid : forall p : Predicate, p.id ≠ step.check) :
      Misuses bindings index step (.noSuchCheck step.check)

theorem makes_or_misuses (bindings : Bindings) (index : Nat) (step : Step Value) :
    (exists r, step.Makes bindings r) ∨ exists m, step.Misuses bindings index m := by
  have hcheck : forall {a}, step.Checks bindings a ->
      (exists r, step.Makes bindings r) ∨ exists m, step.Misuses bindings index m := by
    intro a hchecks
    by_cases hid : exists p : Predicate, p.id = step.check
    · rcases hid with ⟨p, hp⟩
      exact Or.inl ⟨_, a, p, hchecks, hp, rfl⟩
    · exact Or.inr ⟨_, .noSuchCheck hchecks fun p hp => hid ⟨p, hp⟩⟩
  cases hparam : step.param with
  | some name =>
      by_cases hname : name ∈ bindings.names
      · rcases Bindings.exists_param_of_mem hname with ⟨a, ha⟩
        exact hcheck (.param hparam ha)
      · exact Or.inr ⟨_, .unknownParameter hparam hname⟩
  | none =>
      cases henforce : step.enforce with
      | none =>
          exact Or.inr ⟨_, .noTarget hparam henforce⟩
      | some args =>
          by_cases hargs : args = []
          · subst hargs
            exact Or.inr ⟨_, .missingValue hparam henforce⟩
          · rcases Assertion.exists_ofArguments hargs with ⟨a, ha⟩
            exact hcheck (.enforce hparam henforce ha)

theorem assertion_of_checks {a : Assertion} (h : step.Checks bindings a) (index : Nat) :
    step.assertion index bindings = .ok a := by
  unfold Step.assertion
  cases h with
  | param hparam hbound =>
      rw [hparam]
      exact hbound
  | enforce hparam henforce hargs =>
      rw [hparam, henforce]
      exact hargs

theorem report_of_makes {r : Report} (h : step.Makes bindings r) (index : Nat) :
    step.report index bindings = .ok r := by
  rcases h with ⟨a, p, hchecks, hid, rfl⟩
  unfold Step.report
  rw [assertion_of_checks hchecks, ← hid, Predicate.ofId?_id]
  rfl

theorem report_of_misuses {index : Nat} {m : Misuse} (h : step.Misuses bindings index m) :
    step.report index bindings = .error m := by
  unfold Step.report
  cases h with
  | noTarget hparam henforce =>
      unfold Step.assertion
      rw [hparam, henforce]
      rfl
  | unknownParameter hparam hunbound =>
      unfold Step.assertion
      rw [hparam]
      dsimp only
      rw [Bindings.param_of_not_mem hunbound]
      rfl
  | missingValue hparam henforce =>
      unfold Step.assertion
      rw [hparam, henforce]
      rfl
  | noSuchCheck hchecks hid =>
      have hnone : Predicate.ofId? step.check = none := by
        cases hsome : Predicate.ofId? step.check with
        | none =>
            rfl
        | some p =>
            exact absurd (Predicate.id_of_ofId? hsome) (hid p)
      rw [assertion_of_checks hchecks, hnone]
      rfl

theorem not_misuses_of_makes {r : Report} (h : step.Makes bindings r) (index : Nat) (m : Misuse) :
    ¬ step.Misuses bindings index m := by
  intro hmisuses
  have hreport := report_of_misuses hmisuses
  rw [report_of_makes h] at hreport
  cases hreport

theorem not_misuses_of_forall₂ {steps : List (Step Value)} {rs : List Report}
    (h : List.Forall₂ (Makes bindings) steps rs) :
    forall step, step ∈ steps -> forall index m, ¬ Misuses bindings index step m := by
  induction h with
  | nil =>
      intro step hstep
      cases hstep
  | cons hmakes hrest ih =>
      exact List.forall_mem_cons.mpr ⟨not_misuses_of_makes hmakes, ih⟩

end Step

/-! ## Courses -/

namespace Script

variable {bindings : Bindings} {before : List (Step Value)} {rs : List Report}

theorem courseFrom_append_of_makes (hbefore : List.Forall₂ (Step.Makes bindings) before rs)
    (index : Nat) (rest : List (Step Value)) :
    courseFrom bindings index (before ++ rest) =
      ⟨rs ++ (courseFrom bindings (index + before.length) rest).reports,
        (courseFrom bindings (index + before.length) rest).misuse⟩ := by
  induction hbefore generalizing index with
  | nil =>
      rfl
  | @cons step r before rs hstep hbefore ih =>
      rw [List.cons_append, courseFrom, Step.report_of_makes hstep]
      dsimp only
      rw [ih (index + 1), List.length_cons, Nat.add_assoc, Nat.add_comm 1]
      rfl

/-- A course ends at the first step that misuses the checks. -/
theorem courseFrom_of_misuses (hbefore : List.Forall₂ (Step.Makes bindings) before rs)
    {index : Nat} {step : Step Value} {m : Misuse}
    (hstep : step.Misuses bindings (index + before.length) m) (after : List (Step Value)) :
    courseFrom bindings index (before ++ step :: after) = ⟨rs, some m⟩ := by
  have hend : courseFrom bindings (index + before.length) (step :: after) = ⟨[], some m⟩ := by
    rw [courseFrom, Step.report_of_misuses hstep]
  rw [courseFrom_append_of_makes hbefore, hend, List.append_nil]

/-- Where a course ends in a misuse, some step is the first that misuses the checks. -/
theorem exists_misuses_of_courseFrom {steps : List (Step Value)} {index : Nat} {m : Misuse}
    (h : (courseFrom bindings index steps).misuse = some m) :
    exists before step after, steps = before ++ step :: after ∧
      List.Forall₂ (Step.Makes bindings) before (courseFrom bindings index steps).reports ∧
      step.Misuses bindings (index + before.length) m := by
  induction steps generalizing index with
  | nil =>
      cases h
  | cons step rest ih =>
      rcases step.makes_or_misuses bindings index with ⟨r, hr⟩ | ⟨m', hm⟩
      · have hcourse : courseFrom bindings index (step :: rest) =
            .cons r (courseFrom bindings (index + 1) rest) := by
          rw [courseFrom, Step.report_of_makes hr]
        rw [hcourse] at h ⊢
        rcases ih h with ⟨before, last, after, rfl, hbefore, hlast⟩
        refine ⟨step :: before, last, after, rfl, .cons hr hbefore, ?_⟩
        rw [List.length_cons, Nat.add_comm before.length, ← Nat.add_assoc]
        exact hlast
      · have hcourse : courseFrom bindings index (step :: rest) = ⟨[], some m'⟩ := by
          rw [courseFrom, Step.report_of_misuses hm]
        rw [hcourse] at h ⊢
        cases h
        exact ⟨[], step, rest, rfl, .nil, hm⟩

/-- A course without a misuse has a report for every step. -/
theorem forall₂_makes_courseFrom {steps : List (Step Value)} {index : Nat}
    (h : (courseFrom bindings index steps).misuse = none) :
    List.Forall₂ (Step.Makes bindings) steps (courseFrom bindings index steps).reports := by
  induction steps generalizing index with
  | nil =>
      exact .nil
  | cons step rest ih =>
      unfold courseFrom at h ⊢
      rcases step.makes_or_misuses bindings index with ⟨r, hr⟩ | ⟨m, hm⟩
      · rw [Step.report_of_makes hr] at h ⊢
        exact .cons hr (ih h)
      · rw [Step.report_of_misuses hm] at h
        cases h

end Script
end Contracts
