import Mathlib.Data.List.Induction
import Contracts.Proofs.Script.Misuses
import Contracts.Proofs.Session.Blame

/-!
# Reports that can be verified

A report holds all that its check depends on.  Its id names the predicate, with `not` before it
where the opposite was checked; its value and its target are what the predicate was asked of.
So the outcome of a check can be worked out again from its report alone.

The checks of a run are made at a bench: a session with the assertions that were built for it so
far.  Acts at a bench build assertions, check them in any order and any number of times, and
apply scripts.  A failed act does not end a run: the acts behind it are whatever is done then.
-/

namespace Contracts

/-! ## The outcome of a report -/

namespace Predicate

/-- The id in the reports of a predicate, or of its opposite. -/
def reportId (p : Predicate) (negated : Bool) : String :=
  if negated then "not " ++ p.id else p.id

/-- The predicate that the id of a report names, and whether it names the opposite. -/
def ofReportId? (id : String) : Option (Predicate × Bool) :=
  match ofId? id with
  | some p =>
      some (p, false)
  | none =>
      (all.find? fun p => p.reportId true == id).map fun p => (p, true)

theorem ofReportId?_reportId (p : Predicate) (negated : Bool) :
    ofReportId? (p.reportId negated) = some (p, negated) := by
  cases negated with
  | false =>
      unfold ofReportId? reportId
      rw [if_neg (by decide), ofId?_id]
  | true =>
      cases p <;> decide

end Predicate

namespace Report

/-- The outcome that the other parts of a report tell. -/
def recheck? (r : Report) : Option Bool :=
  (Predicate.ofReportId? r.id).map fun named => named.1.test r.value r.against != named.2

/-- Whether a report is that of a check of an assertion, for a predicate or for its opposite. -/
structure Attests (r : Report) (a : Assertion) (p : Predicate) (negated : Bool)
    (against : Option Value) : Prop where
  id : r.id = p.reportId negated
  pass : r.pass = (p.test r.value r.against != negated)
  value : r.value = a.value
  name : r.name = a.name
  against : r.against = against

theorem recheck?_of_attests {r : Report} {a : Assertion} {p : Predicate} {negated : Bool}
    {against : Option Value} (h : r.Attests a p negated against) : r.recheck? = some r.pass := by
  unfold recheck?
  rw [h.id, Predicate.ofReportId?_reportId, Option.map_some, ← h.pass]

end Report

theorem Assertion.attests_report (a : Assertion) (p : Predicate) (against : Option Value) :
    (a.report p against).Attests a p a.negated against := by
  constructor
  case id =>
    unfold Assertion.report Predicate.reportId
    cases a.negated with
    | false =>
        rfl
    | true =>
        rfl
  case pass =>
    rw [value_report, against_report]
    unfold Assertion.report
    cases a.negated with
    | false =>
        exact (Bool.bne_false _).symm
    | true =>
        exact (Bool.bne_true _).symm
  case value =>
    exact a.value_report p against
  case name =>
    exact a.name_report p against
  case against =>
    exact a.against_report p against

/-- A negation attests for the assertion that it is the negation of. -/
theorem Assertion.attests_report_ite (a : Assertion) (negated : Bool) (p : Predicate)
    (against : Option Value) :
    ((if negated then a.negation else a).report p against).Attests a p (negated || a.negated)
      against := by
  cases negated with
  | false =>
      exact a.attests_report p against
  | true =>
      have h := a.negation.attests_report p against
      exact ⟨h.id, h.pass, h.value, h.name, h.against⟩

/-! ## Benches -/

/-- A session with the assertions that were built for it, in order. -/
structure Bench where
  session : Session
  built : List Assertion

/-- What is done at a bench.  Assertions are told apart by the order in which they were built. -/
inductive Act where
  | build (target : Target) (bindings : Bindings)
  /-- A check of an assertion, or of its negation, for a predicate and a target. -/
  | check (index : Nat) (negated : Bool) (p : Predicate) (against : Option Value)
  /-- A check of an assertion, or of its negation, as one of the questions it can be asked. -/
  | ask (index : Nat) (negated : Bool) (question : Question)
  | apply (script : Script Value) (bindings : Bindings)

namespace Bench

/-- Goes on with an assertion that was built, or with its negation. -/
def consult (b : Bench) (index : Nat) (negated : Bool) (e : Assertion -> Episode Unit) : Bench :=
  match b.built[index]? with
  | some a =>
      { b with session := Session.left (e (if negated then a.negation else a) b.session) }
  | none =>
      b

def perform (b : Bench) : Act -> Bench
  | .build target bindings =>
      let result := target.assertion bindings b.session
      ⟨Session.left result, b.built ++ (Session.outcome result).toOption.toList⟩
  | .check index negated p against =>
      b.consult index negated fun a => a.check p against
  | .ask index negated question =>
      b.consult index negated question.ask
  | .apply script bindings =>
      { b with session := Session.left (script.apply bindings b.session) }

/-- The bench behind a run of acts under a policy. -/
def run (policy : Policy) (acts : List Act) : Bench :=
  acts.foldl perform ⟨Session.start policy, []⟩

theorem run_concat (policy : Policy) (acts : List Act) (act : Act) :
    run policy (acts ++ [act]) = (run policy acts).perform act := by
  unfold run
  rw [List.foldl_append]
  rfl

end Bench

/-! ## What an act records -/

/-- The predicate and the target of a question; a question for an unknown predicate has none. -/
def Question.subject? : Question -> Option (Predicate × Option Value)
  | predicate p target =>
      some (p, if p.isBinary then some target else none)
  | named id against =>
      (Predicate.ofId? id).map fun p => (p, against)

/-- Whether a report is that of the check that a step of a script asks for. -/
def Step.Attests (bindings : Bindings) (step : Step Value) (r : Report) : Prop :=
  exists a p, step.Checks bindings a ∧ Predicate.id p = step.check ∧
    r.Attests a p (step.negate || a.negated) step.against

/-- Why a script makes no more reports: all its steps made theirs, the next one misuses the
checks, or the last report was raised. -/
inductive Script.Halts (policy : Policy) (bindings : Bindings) (rs : List Report) :
    List (Step Value) -> Prop where
  | done : Halts policy bindings rs []
  | misuse {step : Step Value} {m : Misuse} (h : step.Misuses bindings rs.length m)
      (after : List (Step Value)) : Halts policy bindings rs (step :: after)
  | violation {r : Report} (hraises : policy.raises = true) (hlast : rs.getLast? = some r)
      (hr : r.pass = false) (after : List (Step Value)) : Halts policy bindings rs after

/-- Whether reports are all that comes of a check of the assertion at an index. -/
inductive Consulted (built : List Assertion) (index : Nat) (negated : Bool)
    (subject : Option (Predicate × Option Value)) : List Report -> Prop where
  | recorded {a : Assertion} {p : Predicate} {against : Option Value} {r : Report}
      (ha : built[index]? = some a) (hsubject : subject = some (p, against))
      (hr : r.Attests a p (negated || a.negated) against) :
      Consulted built index negated subject [r]
  | unknown (hsubject : subject = none) : Consulted built index negated subject []
  | absent (ha : built[index]? = none) : Consulted built index negated subject []

/-- Whether reports are all that an act records, where these assertions were built before it. -/
inductive Act.Accounts (policy : Policy) (built : List Assertion) : Act -> List Report -> Prop where
  | build (target : Target) (bindings : Bindings) :
      Accounts policy built (.build target bindings) []
  | check {index : Nat} {negated : Bool} {p : Predicate} {against : Option Value}
      {rs : List Report} (h : Consulted built index negated (some (p, against)) rs) :
      Accounts policy built (.check index negated p against) rs
  | ask {index : Nat} {negated : Bool} {question : Question} {rs : List Report}
      (h : Consulted built index negated question.subject? rs) :
      Accounts policy built (.ask index negated question) rs
  | apply {script : Script Value} {bindings : Bindings} {before after : List (Step Value)}
      {rs : List Report} (hsplit : script.checks = before ++ after)
      (hbefore : List.Forall₂ (Step.Attests bindings) before rs)
      (hends : Script.Halts policy bindings rs after) :
      Accounts policy built (.apply script bindings) rs

theorem Target.left_assertion (target : Target) (bindings : Bindings) (s : Session) :
    Session.left (target.assertion bindings s) = s := by
  rcases target.recordsOnly_assertion (P := fun _ => False) bindings s with ⟨rs, hrs, hnone⟩
  rw [hrs, List.eq_nil_iff_forall_not_mem.mpr hnone, Session.append_nil]

theorem Question.left_ask (question : Question) (a : Assertion) (s : Session) :
    Session.left (question.ask a s) =
      match question.subject? with
      | some (p, against) =>
          s.push (a.report p against)
      | none =>
          s := by
  cases question with
  | predicate p target =>
      cases p <;> exact Episode.left_record _ s
  | named id against =>
      show Session.left (a.checkId id against s) = _
      unfold Assertion.checkId
      cases hid : Predicate.ofId? id with
      | some p =>
          have hsubject : (named id against).subject? = some (p, against) := by
            rw [subject?, hid, Option.map_some]
          rw [hsubject]
          exact Episode.left_record _ s
      | none =>
          have hsubject : (named id against).subject? = none := by
            rw [subject?, hid, Option.map_none]
          rw [hsubject]
          rfl

namespace Script

variable {bindings : Bindings}

theorem attests_of_makes {step : Step Value} {r : Report} (h : step.Makes bindings r) :
    step.Attests bindings r := by
  rcases h with ⟨a, p, hchecks, hid, rfl⟩
  exact ⟨a, p, hchecks, hid, a.attests_report_ite step.negate p step.against⟩

theorem exists_step_of_mem {steps : List (Step Value)} {rs : List Report}
    (h : List.Forall₂ (Step.Attests bindings) steps rs) {r : Report} (hr : r ∈ rs) :
    exists step, step ∈ steps ∧ step.Attests bindings r := by
  induction h with
  | nil =>
      cases hr
  | cons hstep hrest ih =>
      rcases List.mem_cons.mp hr with heq | hr
      · rw [heq]
        exact ⟨_, List.mem_cons_self, hstep⟩
      · rcases ih hr with ⟨step, hmem, hattests⟩
        exact ⟨step, List.mem_cons_of_mem _ hmem, hattests⟩

/-- A course has a report for each step before its end. -/
theorem exists_split_of_course (script : Script Value) (bindings : Bindings) (policy : Policy) :
    exists before after, script.checks = before ++ after ∧
      List.Forall₂ (Step.Attests bindings) before (script.course bindings).reports ∧
      Halts policy bindings (script.course bindings).reports after := by
  unfold course
  cases hmisuse : (courseFrom bindings 0 script.checks).misuse with
  | none =>
      have hmakes := forall₂_makes_courseFrom hmisuse
      exact ⟨script.checks, [], (List.append_nil _).symm, hmakes.imp fun _ _ => attests_of_makes,
        .done⟩
  | some m =>
      rcases exists_misuses_of_courseFrom hmisuse with ⟨before, step, after, hsplit, hmakes, hstep⟩
      rw [Nat.zero_add, hmakes.length_eq] at hstep
      exact ⟨before, step :: after, hsplit, hmakes.imp fun _ _ => attests_of_makes,
        .misuse hstep after⟩

theorem accounts_apply (script : Script Value) (bindings : Bindings) (built : List Assertion)
    (s : Session) :
    exists rs, (Act.apply script bindings).Accounts s.policy built rs ∧
      Session.left (script.apply bindings s) = s.append rs := by
  rcases script.exists_split_of_course bindings s.policy with
    ⟨before, after, hsplit, hbefore, hends⟩
  rw [apply_eq_run]
  rcases (script.course bindings).quiet_or_violation s.policy with
    hquiet | ⟨front, r, back, v, hreports, hfront, hv⟩
  · exact ⟨_, .apply hsplit hbefore hends, (Course.run_of_quiet hquiet).2⟩
  · -- The steps of the reports behind the violation are not taken any more.
    have hrun := Course.run_of_violation hreports
      (fun p hp => Policy.violation?_of_pass s.policy (hfront p hp)) hv
    rcases Policy.describes_of_violation? hv with ⟨hraises, hr, _⟩
    have hall : (script.course bindings).reports = (front ++ [r]) ++ back := by
      rw [hreports, List.append_assoc, List.singleton_append]
    rw [hall] at hbefore
    have htaken := List.forall₂_take_append _ _ _ hbefore
    have hsplit' : script.checks = before.take (front ++ [r]).length ++
        (before.drop (front ++ [r]).length ++ after) := by
      rw [← List.append_assoc, List.take_append_drop, hsplit]
    rw [hrun]
    exact ⟨front ++ [r], .apply hsplit' htaken (.violation hraises List.getLast?_concat hr _), rfl⟩

end Script

namespace Bench

theorem accounts_consult (b : Bench) (index : Nat) (negated : Bool) {e : Assertion -> Episode Unit}
    (subject : Option (Predicate × Option Value))
    (he : forall a s, Session.left (e a s) =
      match subject with
      | some (p, against) =>
          s.push (a.report p against)
      | none =>
          s) :
    exists rs, Consulted b.built index negated subject rs ∧
      (b.consult index negated e).session = b.session.append rs := by
  unfold consult
  cases ha : b.built[index]? with
  | none =>
      exact ⟨[], .absent ha, rfl⟩
  | some a =>
      dsimp only
      rw [he]
      cases subject with
      | none =>
          exact ⟨[], .unknown rfl, rfl⟩
      | some asked =>
          obtain ⟨p, against⟩ := asked
          exact ⟨_, .recorded ha rfl (a.attests_report_ite negated p against), rfl⟩

/-- An act leaves the session with the reports more that it accounts for. -/
theorem accounts_perform (b : Bench) (act : Act) :
    exists rs, act.Accounts b.session.policy b.built rs ∧
      (b.perform act).session = b.session.append rs := by
  cases act with
  | build target bindings =>
      exact ⟨[], .build target bindings, target.left_assertion bindings b.session⟩
  | check index negated p against =>
      rcases b.accounts_consult index negated (some (p, against))
        (fun a s => Episode.left_record (a.report p against) s) with ⟨rs, hrs, hsession⟩
      exact ⟨rs, .check hrs, hsession⟩
  | ask index negated question =>
      rcases b.accounts_consult index negated question.subject? question.left_ask with
        ⟨rs, hrs, hsession⟩
      exact ⟨rs, .ask hrs, hsession⟩
  | apply script bindings =>
      exact script.accounts_apply bindings b.built b.session

/-- Assertions that were built stay as they are. -/
theorem built_prefix_perform (b : Bench) (act : Act) : b.built <+: (b.perform act).built := by
  have hconsult : forall index negated e, b.built <+: (b.consult index negated e).built := by
    intro index negated e
    unfold consult
    cases b.built[index]? with
    | none =>
        exact List.prefix_rfl
    | some a =>
        exact List.prefix_rfl
  cases act with
  | build target bindings =>
      exact List.prefix_append _ _
  | check index negated p against =>
      exact hconsult _ _ _
  | ask index negated question =>
      exact hconsult _ _ _
  | apply script bindings =>
      exact List.prefix_rfl

/-! ## Whole runs -/

/-- Where the assertions of reports come from: they were built before, or a script took them. -/
inductive Source (built : List Assertion) (acts : List Act) (a : Assertion) : Prop where
  | built (h : a ∈ built)
  | script {script : Script Value} {bindings : Bindings} {step : Step Value}
      (hact : .apply script bindings ∈ acts) (hstep : step ∈ script.checks)
      (hchecks : step.Checks bindings a)

theorem source_mono {built more : List Assertion} {acts later : List Act} {a : Assertion}
    (h : Source built acts a) (hbuilt : built ⊆ more) (hacts : acts ⊆ later) :
    Source more later a := by
  cases h with
  | built h =>
      exact .built (hbuilt h)
  | script hact hstep hchecks =>
      exact .script (hacts hact) hstep hchecks

/-- Whether a report is that of a check of an assertion from such a source. -/
def Vouched (built : List Assertion) (acts : List Act) (r : Report) : Prop :=
  exists a p negated against, Source built acts a ∧ r.Attests a p negated against

theorem vouched_mono {built more : List Assertion} {acts later : List Act} {r : Report}
    (h : Vouched built acts r) (hbuilt : built ⊆ more) (hacts : acts ⊆ later) :
    Vouched more later r := by
  rcases h with ⟨a, p, negated, against, hsource, hattests⟩
  exact ⟨a, p, negated, against, source_mono hsource hbuilt hacts, hattests⟩

theorem vouched_of_consulted {built : List Assertion} {index : Nat} {negated : Bool}
    {subject : Option (Predicate × Option Value)} {rs : List Report}
    (h : Consulted built index negated subject rs) (acts : List Act) :
    forall r, r ∈ rs -> Vouched built acts r := by
  intro r hr
  cases h with
  | recorded ha _ hattests =>
      rw [List.mem_singleton.mp hr]
      exact ⟨_, _, _, _, .built (List.mem_of_getElem? ha), hattests⟩
  | unknown =>
      cases hr
  | absent =>
      cases hr

theorem vouched_of_accounts {policy : Policy} {built : List Assertion} {act : Act}
    {rs : List Report} (h : act.Accounts policy built rs) :
    forall r, r ∈ rs -> Vouched built [act] r := by
  intro r hr
  cases h with
  | build =>
      cases hr
  | check h =>
      exact vouched_of_consulted h _ r hr
  | ask h =>
      exact vouched_of_consulted h _ r hr
  | @apply script bindings before after _ hsplit hbefore _ =>
      rcases Script.exists_step_of_mem hbefore hr with
        ⟨step, hstep, a, p, hchecks, _, hattests⟩
      have hmem : step ∈ script.checks := by
        rw [hsplit]
        exact List.mem_append_left after hstep
      exact ⟨a, p, _, _, .script (List.mem_singleton_self _) hmem hchecks, hattests⟩

/-- What an act records stays vouched for, whatever is built and done behind it. -/
theorem vouched_run (policy : Policy) (acts : List Act) :
    forall r, r ∈ (run policy acts).session.reports.toList ->
      Vouched (run policy acts).built acts r := by
  induction acts using List.reverseRecOn with
  | nil =>
      intro r hr
      cases hr
  | append_singleton acts act ih =>
      rw [run_concat]
      have hbuilt := ((run policy acts).built_prefix_perform act).subset
      rcases (run policy acts).accounts_perform act with ⟨rs, haccounts, hsession⟩
      rw [hsession, Session.toList_reports_append]
      intro r hr
      rcases List.mem_append.mp hr with hr | hr
      · exact vouched_mono (ih r hr) hbuilt (List.subset_append_left acts [act])
      · exact vouched_mono (vouched_of_accounts haccounts r hr) hbuilt
          (List.subset_append_right acts [act])

theorem policy_run (policy : Policy) (acts : List Act) :
    (run policy acts).session.policy = policy := by
  induction acts using List.reverseRecOn with
  | nil =>
      rfl
  | append_singleton acts act ih =>
      rw [run_concat]
      rcases (run policy acts).accounts_perform act with ⟨rs, _, hsession⟩
      rw [hsession, Session.policy_append, ih]

/-- Whatever is done at a bench, the outcome of every report can be worked out again from the
report, which has the name and the very value of an assertion as it was built.  Whatever is done
next, the assertions that were built stay as they are, and what is recorded is the report of every
check that is made. -/
theorem run_verified (policy : Policy) (acts : List Act) :
    (forall r, r ∈ (run policy acts).session.reports.toList ->
      r.recheck? = some r.pass ∧
      exists a p negated, Source (run policy acts).built acts a ∧
        r.id = Predicate.reportId p negated ∧
        r.pass = (p.test r.value r.against != negated) ∧
        r.value = a.value ∧ r.name = a.name) ∧
    forall act, (run policy acts).built <+: (run policy (acts ++ [act])).built ∧
      exists rs, act.Accounts policy (run policy acts).built rs ∧
        (run policy (acts ++ [act])).session = (run policy acts).session.append rs := by
  constructor
  · intro r hr
    rcases vouched_run policy acts r hr with ⟨a, p, negated, against, hsource, hattests⟩
    exact ⟨Report.recheck?_of_attests hattests, a, p, negated, hsource, hattests.id,
      hattests.pass, hattests.value, hattests.name⟩
  · intro act
    have haccounts := (run policy acts).accounts_perform act
    rw [policy_run] at haccounts
    rw [run_concat]
    exact ⟨(run policy acts).built_prefix_perform act, haccounts⟩

end Bench
end Contracts
