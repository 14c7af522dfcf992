import Contracts.Proofs.Script.Course

/-!
# Scripts under the failure policies

The three policies run one and the same course of a script.  One that collects runs all of it;
one that raises runs the part up to the first report that failed, and fails with the description
of that report.  Where no report failed the policy makes no difference.
-/

namespace Contracts

/-- What a run comes to, with the reports it recorded. -/
structure Trial where
  outcome : Except Failure Unit
  reports : List Report

/-- The run of a course to its end. -/
def Course.trial (c : Course) : Trial where
  outcome := c.ending
  reports := c.reports

/-- The run of a script against the arguments of a call, in a session of its own. -/
def Script.trial (script : Script Value) (names : List String) (args : List Value)
    (policy : Policy) : Trial where
  outcome := Session.outcome
    (script.apply (Bindings.ofArguments names args) (Session.start policy))
  reports := (Session.left
    (script.apply (Bindings.ofArguments names args) (Session.start policy))).reports.toList

theorem Policy.violation?_collect (r : Report) : Policy.collect.violation? r = none := by
  unfold Policy.violation?
  split
  · rfl
  · rfl

theorem Policy.violation?_of_fail {r : Report} (h : r.pass = false) :
    Policy.assert.violation? r = some (.general r.description) ∧
      Policy.precondition.violation? r = some (.precondition r.description) := by
  constructor
  · simp [Policy.violation?, h]
  · simp [Policy.violation?, h]

theorem passed_or_first_failure (rs : List Report) :
    (forall r, r ∈ rs -> r.pass = true) ∨
      exists front r back, rs = front ++ r :: back ∧
        (forall p, p ∈ front -> p.pass = true) ∧ r.pass = false := by
  induction rs with
  | nil =>
      left
      intro r hr
      cases hr
  | cons r rest ih =>
      cases hr : r.pass with
      | false =>
          right
          refine ⟨[], r, rest, rfl, ?_, hr⟩
          intro p hp
          cases hp
      | true =>
          rcases ih with hrest | ⟨front, q, back, hsplit, hfront, hq⟩
          · left
            exact List.forall_mem_cons.mpr ⟨hr, hrest⟩
          · right
            refine ⟨r :: front, q, back, ?_, List.forall_mem_cons.mpr ⟨hr, hfront⟩, hq⟩
            rw [hsplit, List.cons_append]

theorem Course.ending_ok_or_misuse (c : Course) :
    c.ending = .ok () ∨ exists m, c.ending = .error (.misuse m) := by
  unfold Course.ending
  cases c.misuse with
  | none =>
      exact Or.inl rfl
  | some m =>
      exact Or.inr ⟨m, rfl⟩

namespace Script

variable {script : Script Value} {names : List String} {args : List Value} {policy : Policy}

theorem trial_of_quiet
    (h : forall r, r ∈ (script.course (Bindings.ofArguments names args)).reports ->
      policy.violation? r = none) :
    script.trial names args policy =
      (script.course (Bindings.ofArguments names args)).trial := by
  rcases Course.run_of_quiet (s := Session.start policy) h with ⟨houtcome, hleft⟩
  unfold trial Course.trial
  rw [apply_eq_run, houtcome, hleft, Session.toList_reports_append,
    Session.toList_reports_start, List.nil_append]

theorem trial_of_violation {front back : List Report} {r : Report} {v : Violation}
    (hreports : (script.course (Bindings.ofArguments names args)).reports = front ++ r :: back)
    (hfront : forall p, p ∈ front -> policy.violation? p = none)
    (hv : policy.violation? r = some v) :
    script.trial names args policy = ⟨.error (.violation v), front ++ [r]⟩ := by
  have hrun := Course.run_of_violation (s := Session.start policy) hreports hfront hv
  unfold trial
  rw [apply_eq_run, hrun]
  show Trial.mk _ ((Session.start policy).append (front ++ [r])).reports.toList = _
  rw [Session.toList_reports_append, Session.toList_reports_start, List.nil_append]
  rfl

theorem trial_collect (script : Script Value) (names : List String) (args : List Value) :
    script.trial names args .collect =
      (script.course (Bindings.ofArguments names args)).trial :=
  trial_of_quiet fun r _ => Policy.violation?_collect r

/-- A policy that raises only cuts the run of a script short: it ends at the first report that
failed, and where none failed it ends as under a policy that collects, which never ends in a
violation and carries out the whole course. -/
theorem trial_cut_short (script : Script Value) (names : List String) (args : List Value) :
    (script.trial names args .assert).reports = (script.trial names args .precondition).reports ∧
    ((forall r, r ∈ (script.trial names args .collect).reports -> r.pass = true) ->
      script.trial names args .assert = script.trial names args .collect ∧
        script.trial names args .precondition = script.trial names args .collect) ∧
    ((exists r, r ∈ (script.trial names args .collect).reports ∧ r.pass = false) ->
      exists front r back,
        (script.trial names args .collect).reports = front ++ r :: back ∧
        (forall p, p ∈ front -> p.pass = true) ∧ r.pass = false ∧
        script.trial names args .assert =
          ⟨.error (.violation (.general r.description)), front ++ [r]⟩ ∧
        script.trial names args .precondition =
          ⟨.error (.violation (.precondition r.description)), front ++ [r]⟩) ∧
    ((script.trial names args .collect).outcome = .ok () ∨
      exists m, (script.trial names args .collect).outcome = .error (.misuse m)) ∧
    script.trial names args .collect =
      (script.course (Bindings.ofArguments names args)).trial := by
  have hcollect := trial_collect script names args
  have hending := Course.ending_ok_or_misuse (script.course (Bindings.ofArguments names args))
  -- One course stands behind the three runs, so one split of its reports decides all of them.
  rcases passed_or_first_failure (script.course (Bindings.ofArguments names args)).reports with
    hpass | ⟨front, r, back, hreports, hfront, hr⟩
  · have hassert : script.trial names args .assert = _ :=
      trial_of_quiet fun p hp => Policy.violation?_of_pass _ (hpass p hp)
    have hprecondition : script.trial names args .precondition = _ :=
      trial_of_quiet fun p hp => Policy.violation?_of_pass _ (hpass p hp)
    rw [hcollect, hassert, hprecondition]
    refine ⟨rfl, fun _ => ⟨rfl, rfl⟩, ?_, hending, rfl⟩
    intro hfail
    rcases hfail with ⟨p, hp, hfalse⟩
    have htrue : p.pass = true := hpass p hp
    rw [hfalse] at htrue
    cases htrue
  · rcases Policy.violation?_of_fail hr with ⟨hgeneral, hrequired⟩
    have hassert := trial_of_violation hreports
      (fun p hp => Policy.violation?_of_pass .assert (hfront p hp)) hgeneral
    have hprecondition := trial_of_violation hreports
      (fun p hp => Policy.violation?_of_pass .precondition (hfront p hp)) hrequired
    have hmem : r ∈ (script.course (Bindings.ofArguments names args)).reports := by
      rw [hreports]
      exact List.mem_append_right front List.mem_cons_self
    rw [hcollect, hassert, hprecondition]
    refine ⟨rfl, ?_, ?_, hending, rfl⟩
    · intro hpass
      have htrue : r.pass = true := hpass r hmem
      rw [hr] at htrue
      cases htrue
    · intro _
      exact ⟨front, r, back, hreports, hfront, hr, rfl, rfl⟩

end Script
end Contracts
