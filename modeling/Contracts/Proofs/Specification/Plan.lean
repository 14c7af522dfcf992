import Contracts.Proofs.Session.Recording
import Contracts.Specification

/-!
# Plans of specifications

A plan is a specification by its checks.  Which check comes next, and whether a failed one ends
the specification, may depend on the bindings and on how every check before it ended.  Lists of
rules and scripts are plans, and whatever a plan does, it only records.
-/

namespace Contracts

/-- The checks of a specification, each with what follows from its outcome. -/
inductive Plan where
  | finish (outcome : Except Failure Unit)
  | check (rule : Rule) (next : Except Failure Unit -> Plan)

/-- Runs a computation for its outcome.  Only a parameter that was taken for granted and is not
declared ends what follows. -/
def Enforcement.attempt (e : Enforcement Unit) : Enforcement (Except Failure Unit) :=
  fun session =>
    match e session with
    | .ok () left =>
        .ok (.ok ()) left
    | .error (.failure f) left =>
        .ok (.error f) left
    | .error (.unbound u) left =>
        .error (.unbound u) left

namespace Plan

/-- Runs the checks of a plan. -/
def run (bindings : Bindings) : Plan -> Enforcement Unit
  | finish (.ok ()) =>
      pure ()
  | finish (.error f) =>
      throw (.failure f)
  | check rule next => do
      let outcome ← Enforcement.attempt (rule.run bindings)
      run bindings (next outcome)

/-- A plan that passes the failure of a check on, and goes on behind a check that did not
fail. -/
def checking (rule : Rule) (rest : Plan) : Plan :=
  check rule fun outcome =>
    match outcome with
    | .ok () =>
        rest
    | .error f =>
        finish (.error f)

theorem run_checking (bindings : Bindings) (rule : Rule) (rest : Plan) :
    (checking rule rest).run bindings = (do rule.run bindings; rest.run bindings) := by
  funext session
  cases hrule : rule.run bindings session with
  | ok x left =>
      have hattempt : Enforcement.attempt (rule.run bindings) session = .ok (.ok ()) left := by
        simp only [Enforcement.attempt, hrule]
      rw [Session.bind_of_ok hrule]
      exact Session.bind_of_ok hattempt _
  | error interruption left =>
      rw [Session.bind_of_error hrule]
      cases interruption with
      | failure f =>
          have hattempt : Enforcement.attempt (rule.run bindings) session =
              .ok (.error f) left := by
            simp only [Enforcement.attempt, hrule]
          exact Session.bind_of_ok hattempt _
      | unbound u =>
          have hattempt : Enforcement.attempt (rule.run bindings) session =
              .error (.unbound u) left := by
            simp only [Enforcement.attempt, hrule]
          exact Session.bind_of_error hattempt _

end Plan

/-- The specification of plans that depend on the bindings. -/
def Specification.ofPlan (plan : Bindings -> Plan) : Specification := fun bindings =>
  (plan bindings).run bindings

/-! ## Rules and scripts as plans -/

/-- The plan of a list of rules. -/
def Plan.ofRules : List Rule -> Plan
  | [] =>
      finish (.ok ())
  | rule :: rest =>
      checking rule (ofRules rest)

theorem Specification.ofRules_eq_ofPlan (rules : List Rule) :
    Specification.ofRules rules = Specification.ofPlan fun _ => Plan.ofRules rules := by
  funext bindings
  show Specification.ofRules rules bindings = (Plan.ofRules rules).run bindings
  induction rules with
  | nil =>
      rfl
  | cons rule rest ih =>
      unfold Specification.ofRules Plan.ofRules
      rw [Plan.run_checking, ih]

/-- What a step of a script checks, if it names anything. -/
def Step.target? (step : Step Value) : Option Target :=
  match step.param, step.enforce with
  | some name, _ =>
      some (.param name)
  | none, some args =>
      some (.arguments args)
  | none, none =>
      none

/-- The plan of the steps of a script from an index on. -/
def Plan.ofSteps : Nat -> List (Step Value) -> Plan
  | _, [] =>
      finish (.ok ())
  | index, step :: rest =>
      match step.target? with
      | some target =>
          checking ⟨target, step.negate, .named step.check step.against, false⟩
            (ofSteps (index + 1) rest)
      | none =>
          finish (.error (.misuse (.noTarget index)))

theorem Enforcement.ofEpisode_bind {α β : Type} (e : Episode α) (f : α -> Episode β) :
    Enforcement.ofEpisode (e >>= f) =
      (do let x ← Enforcement.ofEpisode e; Enforcement.ofEpisode (f x)) := by
  funext session
  cases h : e session with
  | ok x left =>
      have hepisode : Enforcement.ofEpisode e session = .ok x left := by
        simp only [Enforcement.ofEpisode, h]
      rw [Session.bind_of_ok hepisode]
      unfold Enforcement.ofEpisode
      rw [Session.bind_of_ok h]
  | error failure left =>
      have hepisode : Enforcement.ofEpisode e session = .error (.failure failure) left := by
        simp only [Enforcement.ofEpisode, h]
      rw [Session.bind_of_error hepisode]
      unfold Enforcement.ofEpisode
      rw [Session.bind_of_error h]

theorem Enforcement.ofEpisode_ofExcept {α : Type} (e : Except Misuse α) :
    Enforcement.ofEpisode (Episode.ofExcept e) = Enforcement.ofMisuse e := by
  cases e with
  | error m =>
      rfl
  | ok x =>
      rfl

theorem Step.ofEpisode_run {step : Step Value} {target : Target} (h : step.target? = some target)
    (index : Nat) (bindings : Bindings) :
    Enforcement.ofEpisode (step.run index bindings) =
      Rule.run ⟨target, step.negate, .named step.check step.against, false⟩ bindings := by
  have hassertion : Enforcement.ofMisuse (step.assertion index bindings) =
      target.assertion bindings := by
    unfold Step.target? at h
    unfold Step.assertion
    cases hparam : step.param with
    | some name =>
        rw [hparam] at h
        cases h
        rfl
    | none =>
        cases henforce : step.enforce with
        | some args =>
            rw [hparam, henforce] at h
            cases h
            rfl
        | none =>
            rw [hparam, henforce] at h
            cases h
  unfold Step.run Rule.run
  rw [Enforcement.ofEpisode_bind, Enforcement.ofEpisode_ofExcept, hassertion]
  rfl

theorem Step.ofEpisode_run_of_none {step : Step Value} (h : step.target? = none) (index : Nat)
    (bindings : Bindings) :
    Enforcement.ofEpisode (step.run index bindings) =
      throw (.failure (.misuse (.noTarget index))) := by
  unfold Step.target? at h
  unfold Step.run Step.assertion
  cases hparam : step.param with
  | some name =>
      rw [hparam] at h
      cases h
  | none =>
      cases henforce : step.enforce with
      | some args =>
          rw [hparam, henforce] at h
          cases h
      | none =>
          rfl

theorem Script.ofEpisode_runFrom (bindings : Bindings) (index : Nat)
    (steps : List (Step Value)) :
    Enforcement.ofEpisode (Script.runFrom bindings index steps) =
      (Plan.ofSteps index steps).run bindings := by
  induction steps generalizing index with
  | nil =>
      rfl
  | cons step rest ih =>
      unfold Script.runFrom Plan.ofSteps
      rw [Enforcement.ofEpisode_bind]
      cases htarget : step.target? with
      | some target =>
          rw [Step.ofEpisode_run htarget, ih]
          exact (Plan.run_checking bindings _ _).symm
      | none =>
          rw [Step.ofEpisode_run_of_none htarget]
          rfl

theorem Script.specification_eq_ofPlan (script : Script Value) :
    script.specification = Specification.ofPlan fun _ => Plan.ofSteps 0 script.checks := by
  funext bindings
  exact Script.ofEpisode_runFrom bindings 0 script.checks

/-! ## A plan only records

What a plan records are reports that assertions make.  Whatever holds of all of these holds of
all that a plan records.
-/

section

variable {P : Report -> Prop}

theorem Enforcement.recordsOnly_ofEpisode {α : Type} {e : Episode α}
    (h : Session.RecordsOnly P e) : Session.RecordsOnly P (Enforcement.ofEpisode e) := by
  apply Session.recordsOnly_of_left h
  intro session
  unfold Enforcement.ofEpisode
  cases e session with
  | ok x left =>
      rfl
  | error failure left =>
      rfl

theorem Enforcement.recordsOnly_ofMisuse {α : Type} (e : Except Misuse α) :
    Session.RecordsOnly P (Enforcement.ofMisuse e) := by
  cases e with
  | ok x =>
      exact Session.recordsOnly_pure x
  | error m =>
      exact Session.recordsOnly_throw _

theorem Enforcement.recordsOnly_ofUnbound {α : Type} (e : Except Unbound α) :
    Session.RecordsOnly P (Enforcement.ofUnbound e) := by
  cases e with
  | ok x =>
      exact Session.recordsOnly_pure x
  | error u =>
      exact Session.recordsOnly_throw _

theorem Enforcement.recordsOnly_swallowing {e : Enforcement Unit}
    (h : Session.RecordsOnly P e) : Session.RecordsOnly P (Enforcement.swallowing e) := by
  apply Session.recordsOnly_of_left h
  intro session
  unfold Enforcement.swallowing
  cases e session with
  | ok x left =>
      rfl
  | error interruption left =>
      rfl

theorem Enforcement.recordsOnly_attempt {e : Enforcement Unit}
    (h : Session.RecordsOnly P e) : Session.RecordsOnly P (Enforcement.attempt e) := by
  apply Session.recordsOnly_of_left h
  intro session
  unfold Enforcement.attempt
  cases e session with
  | ok x left =>
      rfl
  | error interruption left =>
      cases interruption with
      | failure f =>
          rfl
      | unbound u =>
          rfl

theorem Episode.recordsOnly_record {r : Report} (h : P r) :
    Session.RecordsOnly P (Episode.record r) := by
  intro session
  rw [left_record]
  exact Session.extends_push session h

theorem Target.recordsOnly_assertion (target : Target) (bindings : Bindings) :
    Session.RecordsOnly P (target.assertion bindings) := by
  cases target with
  | param name =>
      exact Enforcement.recordsOnly_ofMisuse _
  | index name =>
      exact Enforcement.recordsOnly_ofUnbound _
  | value v =>
      exact Session.recordsOnly_pure _
  | named name v =>
      exact Session.recordsOnly_pure _
  | lengthOf name =>
      exact Session.recordsOnly_bind (Enforcement.recordsOnly_ofMisuse _)
        fun _ => Session.recordsOnly_pure _
  | arguments args =>
      exact Enforcement.recordsOnly_ofMisuse _

variable (hreport : forall (a : Assertion) p against, P (a.report p against))
include hreport

theorem Assertion.recordsOnly_checkId (a : Assertion) (id : String) (against : Option Value) :
    Session.RecordsOnly P (a.checkId id against) := by
  unfold Assertion.checkId
  cases Predicate.ofId? id with
  | some p =>
      exact Episode.recordsOnly_record (hreport a p against)
  | none =>
      exact Session.recordsOnly_throw _

theorem Question.recordsOnly_ask (question : Question) (a : Assertion) :
    Session.RecordsOnly P (question.ask a) := by
  cases question with
  | predicate p target =>
      cases p <;> exact Episode.recordsOnly_record (hreport a _ _)
  | named id against =>
      exact Assertion.recordsOnly_checkId hreport a id against

theorem Rule.recordsOnly_run (rule : Rule) (bindings : Bindings) :
    Session.RecordsOnly P (rule.run bindings) := by
  apply Session.recordsOnly_bind (rule.target.recordsOnly_assertion bindings)
  intro a
  have hask : Session.RecordsOnly P (Enforcement.ofEpisode
      (rule.question.ask (if rule.negated then a.negation else a))) :=
    Enforcement.recordsOnly_ofEpisode (Question.recordsOnly_ask hreport rule.question _)
  show Session.RecordsOnly P (if rule.swallow then Enforcement.swallowing _ else _)
  cases rule.swallow with
  | true =>
      exact Enforcement.recordsOnly_swallowing hask
  | false =>
      exact hask

theorem Plan.recordsOnly_run (bindings : Bindings) (plan : Plan) :
    Session.RecordsOnly P (plan.run bindings) := by
  induction plan with
  | finish result =>
      cases result with
      | ok x =>
          exact Session.recordsOnly_pure _
      | error f =>
          exact Session.recordsOnly_throw _
  | check rule next ih =>
      exact Session.recordsOnly_bind
        (Enforcement.recordsOnly_attempt (Rule.recordsOnly_run hreport rule bindings)) ih

end

theorem Plan.records_run (bindings : Bindings) (plan : Plan) :
    Session.Records (plan.run bindings) :=
  Session.records_of_recordsOnly (P := fun _ => True)
    (Plan.recordsOnly_run (fun _ _ _ => trivial) bindings plan)

end Contracts
