import Contracts.Proofs.Session.Recording
import Contracts.Script

/-!
# Courses of scripts

What a script checks does not depend on the session: the course of a script is the list of
reports that its steps make, up to the first step that misuses the checks.  A run carries out the
course.  A policy that raises ends the run at the first report that failed; one that collects
goes through to the end of the course.
-/

namespace Contracts

/-- The reports of a run that no failed check cuts short, and the misuse that ends it. -/
structure Course where
  reports : List Report
  misuse : Option Misuse

namespace Course

/-- A course with one report before it. -/
def cons (r : Report) (c : Course) : Course where
  reports := r :: c.reports
  misuse := c.misuse

/-- How a course ends when no check raises. -/
def ending (c : Course) : Except Failure Unit :=
  match c.misuse with
  | none =>
      .ok ()
  | some m =>
      .error (.misuse m)

/-- Records reports in turn and raises the misuse behind them. -/
def runFrom (misuse : Option Misuse) : List Report -> Episode Unit
  | [] =>
      match misuse with
      | none =>
          pure ()
      | some m =>
          throw (.misuse m)
  | r :: rest => do
      Episode.record r
      runFrom misuse rest

/-- Carries out a course. -/
def run (c : Course) : Episode Unit :=
  runFrom c.misuse c.reports

theorem run_cons (r : Report) (c : Course) :
    (cons r c).run = (do Episode.record r; c.run) := rfl

/-! ## A course that is carried out -/

theorem run_cons_of_quiet {r : Report} {s : Session} (h : s.policy.violation? r = none)
    (c : Course) : (cons r c).run s = c.run (s.push r) := by
  have hrecord : Episode.record r s = .ok () (s.push r) := by
    simp [Episode.record, h]
  rw [run_cons]
  exact Session.bind_of_ok hrecord _

theorem run_cons_of_violation {r : Report} {s : Session} {v : Violation}
    (h : s.policy.violation? r = some v) (c : Course) :
    (cons r c).run s = .error (.violation v) (s.push r) := by
  have hrecord : Episode.record r s = .error (.violation v) (s.push r) := by
    simp [Episode.record, h]
  rw [run_cons]
  exact Session.bind_of_error hrecord _

theorem run_append_of_quiet {front : List Report} {s : Session}
    (h : forall r, r ∈ front -> s.policy.violation? r = none) (back : List Report)
    (misuse : Option Misuse) :
    run ⟨front ++ back, misuse⟩ s = run ⟨back, misuse⟩ (s.append front) := by
  induction front generalizing s with
  | nil =>
      rfl
  | cons r rest ih =>
      have hr : s.policy.violation? r = none := h r List.mem_cons_self
      have hrest : forall p, p ∈ rest -> (s.push r).policy.violation? p = none := by
        intro p hp
        rw [Session.policy_push]
        exact h p (List.mem_cons_of_mem r hp)
      show (cons r ⟨rest ++ back, misuse⟩).run s = _
      rw [run_cons_of_quiet hr, ih hrest, Session.append_cons]

/-- A course goes through where the policy raises a violation for none of its reports. -/
theorem run_of_quiet {c : Course} {s : Session}
    (h : forall r, r ∈ c.reports -> s.policy.violation? r = none) :
    Session.outcome (c.run s) = c.ending ∧
      Session.left (c.run s) = s.append c.reports := by
  rcases c with ⟨reports, misuse⟩
  have hrun := run_append_of_quiet h [] misuse
  rw [List.append_nil] at hrun
  rw [hrun]
  cases misuse with
  | none =>
      exact ⟨rfl, rfl⟩
  | some m =>
      exact ⟨rfl, rfl⟩

/-- A course ends at the first report for which the policy raises a violation. -/
theorem run_of_violation {c : Course} {s : Session} {front back : List Report} {r : Report}
    {v : Violation} (hreports : c.reports = front ++ r :: back)
    (hfront : forall p, p ∈ front -> s.policy.violation? p = none)
    (hv : s.policy.violation? r = some v) :
    c.run s = .error (.violation v) (s.append (front ++ [r])) := by
  rcases c with ⟨reports, misuse⟩
  subst hreports
  have hr : (s.append front).policy.violation? r = some v := by
    rw [Session.policy_append]
    exact hv
  rw [run_append_of_quiet hfront, Session.append_append]
  exact run_cons_of_violation hr ⟨back, misuse⟩

end Course

/-! ## The course of a script -/

/-- The report that a step makes, or the misuse that keeps it from making one. -/
def Step.report (step : Step Value) (index : Nat) (bindings : Bindings) :
    Except Misuse Report := do
  let a ← step.assertion index bindings
  match Predicate.ofId? step.check with
  | some p =>
      return (if step.negate then a.negation else a).report p step.against
  | none =>
      throw (.noSuchCheck step.check)

theorem Step.run_of_report {step : Step Value} {index : Nat} {bindings : Bindings} {r : Report}
    (h : step.report index bindings = .ok r) :
    step.run index bindings = Episode.record r := by
  unfold Step.report at h
  unfold Step.run Assertion.checkId
  cases hassertion : step.assertion index bindings with
  | error m =>
      rw [hassertion] at h
      cases h
  | ok a =>
      rw [hassertion] at h
      cases hpredicate : Predicate.ofId? step.check with
      | none =>
          rw [hpredicate] at h
          cases h
      | some p =>
          rw [hpredicate] at h
          cases h
          rfl

theorem Step.run_of_misuse {step : Step Value} {index : Nat} {bindings : Bindings} {m : Misuse}
    (h : step.report index bindings = .error m) :
    step.run index bindings = throw (.misuse m) := by
  unfold Step.report at h
  unfold Step.run Assertion.checkId
  cases hassertion : step.assertion index bindings with
  | error m' =>
      rw [hassertion] at h
      cases h
      rfl
  | ok a =>
      rw [hassertion] at h
      cases hpredicate : Predicate.ofId? step.check with
      | none =>
          rw [hpredicate] at h
          cases h
          rfl
      | some p =>
          rw [hpredicate] at h
          cases h

namespace Script

/-- The course of steps from an index on. -/
def courseFrom (bindings : Bindings) : Nat -> List (Step Value) -> Course
  | _, [] =>
      ⟨[], none⟩
  | index, step :: rest =>
      match step.report index bindings with
      | .ok r =>
          .cons r (courseFrom bindings (index + 1) rest)
      | .error m =>
          ⟨[], some m⟩

/-- The course of a script against the bindings of a call. -/
def course (script : Script Value) (bindings : Bindings) : Course :=
  courseFrom bindings 0 script.checks

theorem runFrom_eq_run (bindings : Bindings) (index : Nat) (steps : List (Step Value)) :
    runFrom bindings index steps = (courseFrom bindings index steps).run := by
  induction steps generalizing index with
  | nil =>
      rfl
  | cons step rest ih =>
      unfold runFrom courseFrom
      cases hreport : step.report index bindings with
      | error m =>
          rw [Step.run_of_misuse hreport]
          rfl
      | ok r =>
          rw [Step.run_of_report hreport, Course.run_cons, ← ih]

/-- A script carries out its course. -/
theorem apply_eq_run (script : Script Value) (bindings : Bindings) :
    script.apply bindings = (script.course bindings).run :=
  runFrom_eq_run bindings 0 script.checks

end Script
end Contracts
