import Contracts.Proofs.Specification.Plan

/-!
# Clients of a session

A client is a program that uses one session: it records reports, checks assertions, looks
parameters up, runs scripts, and replays what was recorded, with further use of the session at
every visit.  What it does next may depend on every answer and on the session as it stands.

The sessions that a client sees, at its start, behind every operation and at the start of every
visit of a replay, are its trace.  Every session of a trace is sound, and has the reports of the
sessions before it as its first ones.
-/

namespace Contracts

/-- What is asked of a session at one time. -/
inductive Operation where
  | report (id : String) (pass : Bool) (value : Value) (against : Option Value) (name : String)
  | check (a : Assertion) (negated : Bool) (question : Question)
  | take (target : Target) (bindings : Bindings)
  | apply (script : Script Value) (bindings : Bindings)
  | run (script : Script Value)
  | snapshots
  /-- Reads the session off: its policy, its reports, its counts and its flags. -/
  | look

/-- What an operation gives back when it does not fail. -/
inductive Answer where
  | nothing
  | assertion (a : Assertion)
  | snapshots (list : List (Snapshot Value))
  | seen (s : Session)

def Operation.perform : Operation -> Enforcement Answer
  | report id pass value against name => do
      Enforcement.ofEpisode (Episode.record (Report.make id pass value against name))
      return .nothing
  | check a negated question => do
      Enforcement.ofEpisode (question.ask (if negated then a.negation else a))
      return .nothing
  | take target bindings => do
      return .assertion (← target.assertion bindings)
  | apply script bindings => do
      Enforcement.ofEpisode (script.apply bindings)
      return .nothing
  | run script => do
      Enforcement.ofEpisode script.run
      return .nothing
  | snapshots => fun session =>
      .ok (.snapshots (Session.snapshots session).1) (Session.snapshots session).2
  | look => fun session =>
      .ok (.seen session) session

/-- A program that uses a session. -/
inductive Client where
  | done
  | ask (operation : Operation) (next : Except Interruption Answer -> Client)
  | replay (visit : Report -> Nat -> Client) (next : Client)

/-- Runs a client, and collects the sessions that it sees. -/
def Client.trace : Client -> StateM Session (List Session)
  | done => fun s =>
      ([s], s)
  | ask operation next => fun s =>
      let result := operation.perform s
      let (later, t) := (next (Session.outcome result)).trace (Session.left result)
      (s :: later, t)
  | replay visit next => fun s =>
      let (visits, t) := Session.replay (fun r index => (visit r index).trace) s
      let (later, u) := next.trace t
      (s :: (visits.flatten ++ later), u)

/-- Whether a report describes the check that it records. -/
def Report.Described (r : Report) : Prop :=
  r.description = r.name ++ ": " ++ describe r.id r.value r.against

theorem Report.described_make (id : String) (pass : Bool) (value : Value)
    (against : Option Value) (name : String) : (make id pass value against name).Described :=
  description_make id pass value against name

theorem Assertion.described_report (a : Assertion) (p : Predicate) (against : Option Value) :
    (a.report p against).Described := by
  unfold Assertion.report
  split
  · exact Report.described_make _ _ _ _ _
  · exact Report.described_make _ _ _ _ _

/-! ## One operation -/

theorem Script.recordsOnly_described (script : Script Value) (bindings : Bindings) :
    Session.RecordsOnly Report.Described
      (Enforcement.ofEpisode (script.apply bindings)) := by
  have hplan := congrFun script.specification_eq_ofPlan bindings
  show Session.RecordsOnly Report.Described (script.specification bindings)
  rw [hplan]
  exact Plan.recordsOnly_run Assertion.described_report bindings _

theorem Operation.recordsOnly_perform (operation : Operation) :
    Session.RecordsOnly Report.Described operation.perform := by
  cases operation with
  | report id pass value against name =>
      apply Session.recordsOnly_bind
      · apply Enforcement.recordsOnly_ofEpisode
        exact Episode.recordsOnly_record (Report.described_make id pass value against name)
      · intro _
        exact Session.recordsOnly_pure _
  | check a negated question =>
      apply Session.recordsOnly_bind
      · apply Enforcement.recordsOnly_ofEpisode
        exact Question.recordsOnly_ask Assertion.described_report question _
      · intro _
        exact Session.recordsOnly_pure _
  | take target bindings =>
      apply Session.recordsOnly_bind (target.recordsOnly_assertion bindings)
      intro a
      exact Session.recordsOnly_pure _
  | apply script bindings =>
      apply Session.recordsOnly_bind (script.recordsOnly_described bindings)
      intro _
      exact Session.recordsOnly_pure _
  | run script =>
      apply Session.recordsOnly_bind (script.recordsOnly_described {})
      intro _
      exact Session.recordsOnly_pure _
  | snapshots =>
      intro s
      show Session.Extends Report.Described s (Session.snapshots s).2
      rw [Session.snapshots_eq]
      exact Session.extends_refl s
  | look =>
      intro s
      exact Session.extends_refl s

/-! ## Whole runs -/

namespace Session

/-- Whether a run from one session to another sees sessions that only grow. -/
structure Ascends (P : Report -> Prop) (s : Session) (seen : List Session) (t : Session) :
    Prop where
  ends : Extends P s t
  begins : forall u, u ∈ seen -> Extends P s u
  reaches : forall u, u ∈ seen -> Extends P u t
  ordered : seen.Pairwise (Extends P)

variable {P : Report -> Prop}

theorem ascends_nil (s : Session) : Ascends P s [] s := by
  constructor
  · exact extends_refl s
  · intro u hu
    cases hu
  · intro u hu
    cases hu
  · exact List.Pairwise.nil

theorem ascends_append {s t u : Session} {front back : List Session}
    (hfront : Ascends P s front t) (hback : Ascends P t back u) :
    Ascends P s (front ++ back) u := by
  constructor
  · exact extends_trans hfront.ends hback.ends
  · intro v hv
    rcases List.mem_append.mp hv with hv | hv
    · exact hfront.begins v hv
    · exact extends_trans hfront.ends (hback.begins v hv)
  · intro v hv
    rcases List.mem_append.mp hv with hv | hv
    · exact extends_trans (hfront.reaches v hv) hback.ends
    · exact hback.reaches v hv
  · apply List.pairwise_append.mpr
    refine ⟨hfront.ordered, hback.ordered, ?_⟩
    intro v hv w hw
    exact extends_trans (hfront.reaches v hv) (hback.begins w hw)

theorem ascends_cons {s t u : Session} {later : List Session} (hst : Extends P s t)
    (hlater : Ascends P t later u) : Ascends P s (s :: later) u := by
  have hfirst : Ascends P s [s] t := by
    constructor
    · exact hst
    · intro v hv
      rw [List.mem_singleton.mp hv]
      exact extends_refl s
    · intro v hv
      rw [List.mem_singleton.mp hv]
      exact hst
    · exact List.pairwise_singleton _ _
  exact ascends_append hfirst hlater

theorem ascends_visitFrom {visit : Report -> Nat -> StateM Session (List Session)}
    (hvisit : forall r index s, Ascends P s (visit r index s).1 (visit r index s).2)
    (remaining index : Nat) (s : Session) :
    Ascends P s (visitFrom visit remaining index s).1.flatten
      (visitFrom visit remaining index s).2 := by
  induction remaining generalizing index s with
  | zero =>
      exact ascends_nil s
  | succ remaining ih =>
      cases hget : s.reports[index]? with
      | none =>
          rw [visitFrom_of_none _ _ _ hget]
          exact ih (index + 1) s
      | some r =>
          rw [visitFrom_of_some _ _ _ hget]
          exact ascends_append (hvisit r index s) (ih (index + 1) _)

end Session

theorem Client.ascends_trace (client : Client) (s : Session) :
    Session.Ascends Report.Described s (client.trace s).1 (client.trace s).2 := by
  induction client generalizing s with
  | done =>
      exact Session.ascends_cons (Session.extends_refl s) (Session.ascends_nil s)
  | ask operation next ih =>
      exact Session.ascends_cons (operation.recordsOnly_perform s) (ih _ _)
  | replay visit next ihvisit ihnext =>
      -- The visits start from the session that the replay finds, so they stand behind it.
      have hvisits : Session.Ascends Report.Described s
          (Session.replay (fun r index => (visit r index).trace) s).1.flatten
          (Session.replay (fun r index => (visit r index).trace) s).2 :=
        Session.ascends_visitFrom (fun r index u => ihvisit r index u) s.count 0 s
      exact Session.ascends_cons (Session.extends_refl s)
        (Session.ascends_append hvisits (ihnext _))

namespace Session

/-- What holds of a session under a policy at any time. -/
structure Sound (policy : Policy) (s : Session) : Prop where
  policy_eq : s.policy = policy
  failed_eq : s.failed = s.reports.toList.countP fun r => !r.pass
  failed_le_count : s.failed ≤ s.count
  passed_eq : s.passed = s.reports.toList.countP Report.pass
  isEmpty_iff : s.isEmpty = true <-> s.reports.toList = []
  allPassed_iff : s.allPassed = true <-> forall r, r ∈ s.reports.toList -> r.pass = true
  someFailed_eq : s.someFailed = !s.allPassed
  described : forall r, r ∈ s.reports.toList ->
    r.description = r.name ++ ": " ++ describe r.id r.value r.against

theorem count_eq_passed_add_failed (s : Session) :
    s.count = s.reports.toList.countP Report.pass +
      s.reports.toList.countP fun r => !r.pass := by
  show s.reports.toList.length = _
  rw [List.length_eq_countP_add_countP Report.pass]
  simp

theorem sound_of_extends {policy : Policy} {s : Session}
    (h : Extends Report.Described (start policy) s) : Sound policy s := by
  have hpolicy : s.policy = policy := policy_of_extends h
  rcases h with ⟨rs, hrs, hdescribed⟩
  have hcounted : s.Counted := by
    rw [hrs]
    exact counted_append (counted_start policy) rs
  have hreports : s.reports.toList = rs := by
    rw [hrs, toList_reports_append, toList_reports_start, List.nil_append]
  have hfailed : s.failed = s.reports.toList.countP fun r => !r.pass := hcounted
  have hcount := s.count_eq_passed_add_failed
  constructor
  · exact hpolicy
  · exact hfailed
  · omega
  · unfold passed
    omega
  · unfold isEmpty
    rw [beq_iff_eq]
    exact List.length_eq_zero_iff
  · exact allPassed_iff hcounted
  · rw [allPassed_eq_not_someFailed, Bool.not_not]
  · rw [hreports]
    exact hdescribed

end Session

/-- Whatever clients do, every session that they see on the way is sound, and has the reports of
all sessions before it as its first ones. -/
theorem Client.trace_sound (policy : Policy) (client : Client) :
    (client.trace (Session.start policy)).1.Pairwise
      (fun s t => s.reports.toList <+: t.reports.toList) ∧
    forall s, s ∈ (client.trace (Session.start policy)).1 -> Session.Sound policy s := by
  have htrace := client.ascends_trace (Session.start policy)
  constructor
  · exact htrace.ordered.imp Session.prefix_of_extends
  · intro s hs
    exact Session.sound_of_extends (htrace.begins s hs)

end Contracts
