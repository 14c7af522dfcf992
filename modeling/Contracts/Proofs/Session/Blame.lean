import Contracts.Proofs.Script.Misuses
import Contracts.Proofs.Script.Policies
import Contracts.Proofs.Session.Clients

/-!
# What errors blame

Every operation on a session carries out a course: a direct report and a single check have one
report or a misuse, a look-up has at most a misuse, and a script has the course of its steps.  So
an operation fails in one of two ways.  Either the policy raised the last report that it recorded,
which is the only one of them that failed, or the checks were misused, and then nothing was
recorded beyond the steps of a script before the one that is to blame.
-/

namespace Contracts

/-! ## Violations -/

theorem Policy.violation?_eq_none_iff {policy : Policy} {r : Report} :
    policy.violation? r = none <-> (policy.raises = true -> r.pass = true) := by
  cases hpass : r.pass with
  | true =>
      simp [Policy.violation?, hpass]
  | false =>
      cases policy with
      | collect =>
          simp [Policy.violation?, Policy.raises]
      | assert =>
          simp [Policy.violation?, Policy.raises, hpass]
      | precondition =>
          simp [Policy.violation?, Policy.raises, hpass]

/-- A violation that describes a report, of the kind that a policy raises. -/
inductive Violation.Describes (r : Report) : Policy -> Violation -> Prop where
  | assert : Describes r .assert (.general r.description)
  | precondition : Describes r .precondition (.precondition r.description)

theorem Policy.describes_of_violation? {policy : Policy} {r : Report} {v : Violation}
    (h : policy.violation? r = some v) :
    policy.raises = true ∧ r.pass = false ∧ v.Describes r policy := by
  cases hpass : r.pass with
  | true =>
      rw [Policy.violation?_of_pass policy hpass] at h
      cases h
  | false =>
      cases policy with
      | collect =>
          rw [Policy.violation?_collect] at h
          cases h
      | assert =>
          rw [(Policy.violation?_of_fail hpass).1] at h
          cases h
          exact ⟨rfl, rfl, .assert⟩
      | precondition =>
          rw [(Policy.violation?_of_fail hpass).2] at h
          cases h
          exact ⟨rfl, rfl, .precondition⟩

/-! ## Operations as courses -/

theorem Course.quiet_or_violation (c : Course) (policy : Policy) :
    (forall r, r ∈ c.reports -> policy.violation? r = none) ∨
      exists front r back v, c.reports = front ++ r :: back ∧
        (forall p, p ∈ front -> p.pass = true) ∧ policy.violation? r = some v := by
  rcases passed_or_first_failure c.reports with hpass | ⟨front, r, back, hreports, hfront, hr⟩
  · exact Or.inl fun r hr => Policy.violation?_of_pass policy (hpass r hr)
  · cases policy with
    | collect =>
        exact Or.inl fun p _ => Policy.violation?_collect p
    | assert =>
        exact Or.inr ⟨front, r, back, _, hreports, hfront, (Policy.violation?_of_fail hr).1⟩
    | precondition =>
        exact Or.inr ⟨front, r, back, _, hreports, hfront, (Policy.violation?_of_fail hr).2⟩

theorem Course.run_single (r : Report) : Course.run ⟨[r], none⟩ = Episode.record r := by
  funext s
  show (Episode.record r >>= fun _ => pure ()) s = Episode.record r s
  cases hrecord : Episode.record r s with
  | ok x t =>
      exact Session.bind_of_ok hrecord _
  | error f t =>
      exact Session.bind_of_error hrecord _

theorem Course.ending_eq_misuse_iff (c : Course) {m : Misuse} :
    c.ending = .error (.misuse m) <-> c.misuse = some m := by
  unfold Course.ending
  cases c.misuse with
  | none =>
      simp
  | some m' =>
      simp

theorem Course.ending_ne_violation (c : Course) (v : Violation) :
    c.ending ≠ .error (.violation v) := by
  intro h
  rcases c.ending_ok_or_misuse with hok | ⟨m, hm⟩
  · rw [hok] at h
    cases h
  · rw [hm] at h
    cases h

/-- Whether a computation ends as a course does, apart from what it gives back and from
parameters that are taken for granted. -/
structure Enforcement.Follows {α : Type} (e : Enforcement α) (c : Course) : Prop where
  left_eq : forall s, Session.left (e s) = Session.left (c.run s)
  failure_iff : forall s f, Session.outcome (e s) = .error (.failure f) <->
    Session.outcome (c.run s) = .error f

namespace Enforcement

variable {α β : Type}

theorem follows_ofEpisode (c : Course) : Follows (ofEpisode c.run) c := by
  constructor
  · intro s
    unfold ofEpisode
    cases c.run s with
    | ok x t =>
        rfl
    | error f t =>
        rfl
  · intro s f
    unfold ofEpisode
    cases c.run s with
    | ok x t =>
        simp [Session.outcome]
    | error g t =>
        simp [Session.outcome]

theorem follows_return {e : Enforcement α} {c : Course} (h : Follows e c) (f : α -> β) :
    Follows (do return f (← e)) c := by
  constructor
  · intro s
    rw [← h.left_eq s]
    cases he : e s with
    | ok x t =>
        rw [Session.bind_of_ok he]
        rfl
    | error i t =>
        rw [Session.bind_of_error he]
        rfl
  · intro s g
    rw [← h.failure_iff s g]
    cases he : e s with
    | ok x t =>
        rw [Session.bind_of_ok he]
        show Except.ok (f x) = _ <-> Except.ok x = _
        simp
    | error i t =>
        rw [Session.bind_of_error he]
        simp [Session.outcome]

/-- A computation that records nothing follows the course of the misuse that it ends in. -/
theorem follows_of_still {e : Enforcement α} {misuse : Option Misuse}
    (hleft : forall s, Session.left (e s) = s)
    (hfailure : forall s f, Session.outcome (e s) = .error (.failure f) <->
      misuse.map Failure.misuse = some f) : Follows e ⟨[], misuse⟩ := by
  constructor
  · intro s
    rw [hleft]
    cases misuse with
    | none =>
        rfl
    | some m =>
        rfl
  · intro s f
    rw [hfailure]
    cases misuse with
    | none =>
        show none = some f <-> Except.ok () = Except.error f
        simp
    | some m =>
        show some (Failure.misuse m) = some f <-> Except.error (Failure.misuse m) = Except.error f
        simp

theorem follows_of_answer {e : Enforcement α} {answer : Session -> α}
    (h : forall s, e s = .ok (answer s) s) : Follows e ⟨[], none⟩ := by
  apply follows_of_still
  · intro s
    rw [h]
    rfl
  · intro s f
    rw [h]
    simp [Session.outcome]

theorem follows_ofMisuse (e : Except Misuse α) :
    exists misuse, Follows (ofMisuse e) ⟨[], misuse⟩ := by
  cases e with
  | ok x =>
      exact ⟨none, follows_of_answer fun _ => rfl⟩
  | error m =>
      refine ⟨some m, follows_of_still (fun _ => rfl) fun s f => ?_⟩
      show Except.error (Interruption.failure (.misuse m)) = .error (.failure f) <-> _
      simp

/-- A parameter that is taken for granted is no misuse. -/
theorem follows_ofUnbound (e : Except Unbound α) : Follows (ofUnbound e) ⟨[], none⟩ := by
  cases e with
  | ok x =>
      exact follows_of_answer fun _ => rfl
  | error u =>
      refine follows_of_still (fun _ => rfl) fun s f => ?_
      show Except.error (Interruption.unbound u) = .error (.failure f) <-> _
      simp

end Enforcement

theorem Target.follows_assertion (target : Target) (bindings : Bindings) :
    exists misuse, (target.assertion bindings).Follows ⟨[], misuse⟩ := by
  cases target with
  | param name =>
      exact Enforcement.follows_ofMisuse _
  | index name =>
      exact ⟨none, Enforcement.follows_ofUnbound _⟩
  | value v =>
      exact ⟨none, Enforcement.follows_of_answer fun _ => rfl⟩
  | named name v =>
      exact ⟨none, Enforcement.follows_of_answer fun _ => rfl⟩
  | lengthOf name =>
      rcases Enforcement.follows_ofMisuse (bindings.param name) with ⟨misuse, h⟩
      exact ⟨misuse, Enforcement.follows_return h _⟩
  | arguments args =>
      exact Enforcement.follows_ofMisuse _

/-- Whether a course belongs to a single check or a look-up: a misuse comes with no report. -/
def Course.Single (c : Course) : Prop :=
  c.misuse = none ∨ c.reports = []

theorem Question.exists_course (question : Question) (a : Assertion) :
    exists c : Course, c.Single ∧ question.ask a = c.run := by
  have hcheck : forall p against, exists c : Course, c.Single ∧ a.check p against = c.run :=
    fun p against => ⟨⟨[a.report p against], none⟩, Or.inl rfl, (Course.run_single _).symm⟩
  cases question with
  | predicate p target =>
      cases p with
      | equals =>
          exact hcheck _ _
      | lessThan =>
          exact hcheck _ _
      | moreThan =>
          exact hcheck _ _
      | present =>
          exact hcheck _ _
      | nulled =>
          exact hcheck _ _
      | falsy =>
          exact hcheck _ _
      | truthy =>
          exact hcheck _ _
  | named id against =>
      show exists c : Course, c.Single ∧ a.checkId id against = c.run
      unfold Assertion.checkId
      cases Predicate.ofId? id with
      | some p =>
          exact hcheck p against
      | none =>
          exact ⟨⟨[], some (.noSuchCheck id)⟩, Or.inr rfl, rfl⟩

namespace Operation

/-- The script that an operation runs, with the bindings it runs against. -/
def script? : Operation -> Option (Script Value × Bindings)
  | apply script bindings =>
      some (script, bindings)
  | run script =>
      some (script, {})
  | _ =>
      none

theorem exists_course (operation : Operation) :
    exists c : Course, operation.perform.Follows c ∧ (operation.script? = none -> c.Single) ∧
      forall script bindings, operation.script? = some (script, bindings) ->
        c = script.course bindings := by
  have hepisode : forall (c : Course) {e : Episode Unit} (x : Answer), e = c.run ->
      (do Enforcement.ofEpisode e; return x : Enforcement Answer).Follows c := by
    rintro c _ x rfl
    exact Enforcement.follows_return (Enforcement.follows_ofEpisode c) fun _ => x
  cases operation with
  | report id pass value against name =>
      refine ⟨⟨[Report.make id pass value against name], none⟩, ?_, fun _ => Or.inl rfl, ?_⟩
      · exact hepisode _ _ (Course.run_single _).symm
      · intro script bindings h
        cases h
  | check a negated question =>
      rcases question.exists_course (if negated then a.negation else a) with ⟨c, hsingle, hrun⟩
      refine ⟨c, hepisode c _ hrun, fun _ => hsingle, ?_⟩
      intro script bindings h
      cases h
  | take target bindings =>
      rcases target.follows_assertion bindings with ⟨misuse, hfollows⟩
      refine ⟨⟨[], misuse⟩, Enforcement.follows_return hfollows _, fun _ => Or.inr rfl, ?_⟩
      intro script bindings h
      cases h
  | apply script bindings =>
      refine ⟨script.course bindings, hepisode _ _ (script.apply_eq_run bindings), ?_, ?_⟩
      · intro h
        cases h
      · intro _ _ h
        cases h
        rfl
  | run script =>
      refine ⟨script.course {}, hepisode _ _ (script.apply_eq_run {}), ?_, ?_⟩
      · intro h
        cases h
      · intro _ _ h
        cases h
        rfl
  | snapshots =>
      have hsnapshots : forall s, perform .snapshots s =
          .ok (.snapshots (Session.snapshots s).1) s := by
        intro s
        show EStateM.Result.ok _ (Session.snapshots s).2 = _
        rw [Session.snapshots_eq]
      refine ⟨⟨[], none⟩, Enforcement.follows_of_answer hsnapshots, fun _ => Or.inl rfl, ?_⟩
      intro script bindings h
      cases h
  | look =>
      refine ⟨⟨[], none⟩, Enforcement.follows_of_answer fun _ => rfl, fun _ => Or.inl rfl, ?_⟩
      intro script bindings h
      cases h

/-! ## What is to blame -/

/-- What an operation and the reports that it recorded have to do with how it ended. -/
structure Blames (operation : Operation) (s : Session) (rs : List Report) : Prop where
  left_eq : Session.left (operation.perform s) = s.append rs
  violation_iff :
    (exists v, Session.outcome (operation.perform s) = .error (.failure (.violation v))) <->
      s.policy.raises = true ∧ exists r, rs.getLast? = some r ∧ r.pass = false
  /-- A violation describes the last report, which is the only one that failed. -/
  violation : forall v,
    Session.outcome (operation.perform s) = .error (.failure (.violation v)) ->
    exists front r, rs = front ++ [r] ∧ (forall p, p ∈ front -> p.pass = true) ∧
      r.pass = false ∧ v.message = r.description ∧ v.Describes r s.policy ∧
      (Session.left (operation.perform s)).reports.toList.getLast? = some r
  misuse_single : operation.script? = none -> forall m,
    Session.outcome (operation.perform s) = .error (.failure (.misuse m)) ->
    Session.left (operation.perform s) = s
  /-- A script is misused by the first of its steps that misuses the checks, with one report for
  each step before it, unless one of these was raised. -/
  misuse_script : forall script bindings, operation.script? = some (script, bindings) -> forall m,
    Session.outcome (operation.perform s) = .error (.failure (.misuse m)) <->
      exists before step after, script.checks = before ++ step :: after ∧
        List.Forall₂ (Step.Makes bindings) before rs ∧
        (forall earlier, earlier ∈ before -> forall index m',
          ¬ earlier.Misuses bindings index m') ∧
        step.Misuses bindings before.length m ∧
        (s.policy.raises = true -> forall r, r ∈ rs -> r.pass = true)

variable {operation : Operation} {c : Course} {s : Session}

/-- An operation of which no report is raised ends as its course does. -/
theorem blames_of_quiet (hfollows : operation.perform.Follows c)
    (hsingle : operation.script? = none -> c.Single)
    (hscript : forall script bindings, operation.script? = some (script, bindings) ->
      c = script.course bindings)
    (hquiet : forall r, r ∈ c.reports -> s.policy.violation? r = none) :
    operation.Blames s c.reports := by
  rcases Course.run_of_quiet hquiet with ⟨houtcome, hleft⟩
  have hfailure := fun f => (hfollows.failure_iff s f).trans (by rw [houtcome])
  have hno : forall v, Session.outcome (operation.perform s) ≠ .error (.failure (.violation v)) :=
    fun v h => c.ending_ne_violation v ((hfailure _).mp h)
  have hmisuse : forall m, Session.outcome (operation.perform s) = .error (.failure (.misuse m)) <->
      c.misuse = some m :=
    fun m => (hfailure _).trans c.ending_eq_misuse_iff
  have hrecorded : Session.left (operation.perform s) = s.append c.reports := by
    rw [hfollows.left_eq, hleft]
  constructor
  case left_eq =>
    exact hrecorded
  case violation_iff =>
    constructor
    · rintro ⟨v, hv⟩
      exact absurd hv (hno v)
    · rintro ⟨hraises, r, hlast, hr⟩
      have hpass := Policy.violation?_eq_none_iff.mp (hquiet r (List.mem_of_getLast? hlast)) hraises
      rw [hr] at hpass
      cases hpass
  case violation =>
    intro v hv
    exact absurd hv (hno v)
  case misuse_single =>
    intro hnone m hm
    rcases hsingle hnone with hc | hc
    · rw [(hmisuse m).mp hm] at hc
      cases hc
    · rw [hrecorded, hc, Session.append_nil]
  case misuse_script =>
    intro script bindings h m
    have hcourse : Script.courseFrom bindings 0 script.checks = c :=
      (hscript script bindings h).symm
    constructor
    · intro hm
      have hend := (hmisuse m).mp hm
      rw [← hcourse] at hend
      rcases Script.exists_misuses_of_courseFrom hend with
        ⟨before, step, after, hsplit, hbefore, hstep⟩
      rw [hcourse] at hbefore
      rw [Nat.zero_add] at hstep
      refine ⟨before, step, after, hsplit, hbefore, Step.not_misuses_of_forall₂ hbefore, hstep, ?_⟩
      intro hraises r hr
      exact Policy.violation?_eq_none_iff.mp (hquiet r hr) hraises
    · rintro ⟨before, step, after, hsplit, hbefore, _, hstep, _⟩
      rw [← Nat.zero_add before.length] at hstep
      apply (hmisuse m).mpr
      rw [← hcourse, hsplit, Script.courseFrom_of_misuses hbefore hstep]

/-- An operation of which a report is raised ends with that report. -/
theorem blames_of_violation (hfollows : operation.perform.Follows c)
    {front back : List Report} {r : Report} {v : Violation}
    (hreports : c.reports = front ++ r :: back) (hfront : forall p, p ∈ front -> p.pass = true)
    (hv : s.policy.violation? r = some v) : operation.Blames s (front ++ [r]) := by
  rcases Policy.describes_of_violation? hv with ⟨hraises, hr, hdescribes⟩
  have hrun := Course.run_of_violation hreports
    (fun p hp => Policy.violation?_of_pass s.policy (hfront p hp)) hv
  have hfailure : forall f, Session.outcome (operation.perform s) = .error (.failure f) <->
      .violation v = f := by
    intro f
    rw [hfollows.failure_iff, hrun]
    simp [Session.outcome]
  have hrecorded : Session.left (operation.perform s) = s.append (front ++ [r]) := by
    rw [hfollows.left_eq, hrun]
    rfl
  constructor
  case left_eq =>
    exact hrecorded
  case violation_iff =>
    constructor
    · intro _
      exact ⟨hraises, r, List.getLast?_concat, hr⟩
    · intro _
      exact ⟨v, (hfailure _).mpr rfl⟩
  case violation =>
    intro v' hv'
    cases (hfailure _).mp hv'
    refine ⟨front, r, rfl, hfront, hr, Policy.message_of_violation? hv, hdescribes, ?_⟩
    rw [hrecorded, Session.toList_reports_append, ← List.append_assoc]
    exact List.getLast?_concat
  case misuse_single =>
    intro _ m hm
    cases (hfailure _).mp hm
  case misuse_script =>
    intro script bindings h m
    constructor
    · intro hm
      cases (hfailure _).mp hm
    · rintro ⟨before, step, after, _, _, _, _, hpass⟩
      have hlast := hpass hraises r (by simp)
      rw [hr] at hlast
      cases hlast

/-- Whatever is asked of a session, an error blames what happened: a violation the last report,
under a policy that raises, and a misuse what kept the check to blame from being made. -/
theorem perform_blames (operation : Operation) (s : Session) :
    exists rs, operation.Blames s rs := by
  rcases operation.exists_course with ⟨c, hfollows, hsingle, hscript⟩
  rcases c.quiet_or_violation s.policy with hquiet | ⟨front, r, back, v, hreports, hfront, hv⟩
  · exact ⟨_, blames_of_quiet hfollows hsingle hscript hquiet⟩
  · exact ⟨_, blames_of_violation hfollows hreports hfront hv⟩

end Operation
end Contracts
