import Contracts.Guard
import Contracts.Proofs.Specification.Plan

/-!
# The gate of a guarded function

The reader, the specification and the reports of a call decide whether its body runs.  The
session decides by its count of failed reports, which agrees with the reports because a plan only
records.  Nothing else decides: not the state of the body, and not the calls before.
-/

namespace Contracts

/-- What the checks of a call decide. -/
inductive Verdict where
  | admitted
  | suppressed
  | failed (f : Failure)
  | unbound (u : Unbound)
deriving DecidableEq

/-- The call that a verdict allows, with the body on its arguments. -/
def Verdict.call {σ ρ : Type} (v : Verdict) (body : StateM σ ρ) :
    StateM σ (Except Unbound (CallResult ρ)) :=
  match v with
  | .admitted => do
      return .ok (.returned (← body))
  | .suppressed =>
      return .ok .suppressed
  | .failed f =>
      return .ok (.failed f)
  | .unbound u =>
      return .error u

namespace Verdict

variable {σ ρ : Type} (body : StateM σ ρ) (st : σ)

@[simp] theorem call_admitted :
    admitted.call body st = (.ok (.returned (body st).1), (body st).2) := rfl

@[simp] theorem call_suppressed : suppressed.call body st = (.ok .suppressed, st) := rfl

@[simp] theorem call_failed (f : Failure) :
    (failed f).call body st = (.ok (.failed f), st) := rfl

@[simp] theorem call_unbound (u : Unbound) : (unbound u).call body st = (.error u, st) := rfl

end Verdict

namespace Guarded

variable {σ ρ : Type}

/-- The specification on the names and arguments of a call, in a session of its own. -/
def checks (g : Guarded σ ρ) (names : List String) (args : List Value) :
    EStateM.Result Interruption Session Unit :=
  g.specification (Bindings.ofArguments names args) (Session.start .precondition)

/-- How the reader, the specification and the recorded reports decide a call. -/
inductive Decides (g : Guarded σ ρ) (args : List Value) : Verdict -> Prop where
  | unread {e : SignatureError} (hnames : g.signature.names = .error e) :
      Decides g args (.failed (.signature e))
  | refused {names : List String} {f : Failure} {session : Session}
      (hnames : g.signature.names = .ok names)
      (hchecks : g.checks names args = .error (.failure f) session) :
      Decides g args (.failed f)
  | unbound {names : List String} {u : Unbound} {session : Session}
      (hnames : g.signature.names = .ok names)
      (hchecks : g.checks names args = .error (.unbound u) session) :
      Decides g args (.unbound u)
  | passed {names : List String} {session : Session}
      (hnames : g.signature.names = .ok names)
      (hchecks : g.checks names args = .ok () session)
      (hpass : forall r, r ∈ session.reports.toList -> r.pass = true) :
      Decides g args .admitted
  | swallowed {names : List String} {session : Session}
      (hnames : g.signature.names = .ok names)
      (hchecks : g.checks names args = .ok () session)
      (hfail : exists r, r ∈ session.reports.toList ∧ r.pass = false) :
      Decides g args .suppressed

/-- The verdict over a call. -/
def verdict (g : Guarded σ ρ) (args : List Value) : Verdict :=
  match g.examine args with
  | .error (.unbound u) _ =>
      .unbound u
  | .error (.failure f) _ =>
      .failed f
  | .ok () session =>
      if session.reports.toList.all Report.pass then .admitted else .suppressed

/-- The reports that the checks of a call record. -/
def recorded (g : Guarded σ ρ) (args : List Value) : List Report :=
  (Session.left (g.examine args)).reports.toList

theorem examine_of_error {g : Guarded σ ρ} {e : SignatureError}
    (h : g.signature.names = .error e) (args : List Value) :
    g.examine args = .error (.failure (.signature e)) (Session.start .precondition) := by
  unfold examine
  rw [h]

theorem examine_of_ok {g : Guarded σ ρ} {names : List String} (h : g.signature.names = .ok names)
    (args : List Value) : g.examine args = g.checks names args := by
  unfold examine
  rw [h]
  rfl

theorem decides_verdict (g : Guarded σ ρ) (args : List Value) :
    Decides g args (g.verdict args) := by
  unfold verdict
  cases hnames : g.signature.names with
  | error e =>
      rw [examine_of_error hnames]
      exact Decides.unread hnames
  | ok names =>
      rw [examine_of_ok hnames]
      cases hchecks : g.checks names args with
      | error interruption session =>
          cases interruption with
          | failure f =>
              exact Decides.refused hnames hchecks
          | unbound u =>
              exact Decides.unbound hnames hchecks
      | ok x session =>
          cases hall : session.reports.toList.all Report.pass with
          | true =>
              simp only [hall, if_true]
              exact Decides.passed hnames hchecks (List.all_eq_true.mp hall)
          | false =>
              rcases List.all_eq_false.mp hall with ⟨r, hr, hfail⟩
              simp only [hall]
              exact Decides.swallowed hnames hchecks ⟨r, hr, by simpa using hfail⟩

theorem verdict_of_decides {g : Guarded σ ρ} {args : List Value} {v : Verdict}
    (h : Decides g args v) : g.verdict args = v := by
  unfold verdict
  cases h with
  | unread hnames =>
      rw [examine_of_error hnames]
  | refused hnames hchecks =>
      rw [examine_of_ok hnames, hchecks]
  | unbound hnames hchecks =>
      rw [examine_of_ok hnames, hchecks]
  | passed hnames hchecks hpass =>
      rw [examine_of_ok hnames, hchecks]
      exact if_pos (List.all_eq_true.mpr hpass)
  | swallowed hnames hchecks hfail =>
      rw [examine_of_ok hnames, hchecks]
      apply if_neg
      intro hall
      rcases hfail with ⟨r, hr, hfalse⟩
      have htrue : r.pass = true := List.all_eq_true.mp hall r hr
      rw [hfalse] at htrue
      cases htrue

theorem decides_iff (g : Guarded σ ρ) (args : List Value) (v : Verdict) :
    Decides g args v <-> g.verdict args = v := by
  constructor
  · exact verdict_of_decides
  · intro h
    rw [← h]
    exact g.decides_verdict args

instance (g : Guarded σ ρ) (args : List Value) (v : Verdict) : Decidable (Decides g args v) :=
  decidable_of_iff (g.verdict args = v) (g.decides_iff args v).symm

/-! ## One call -/

/-- A call is what its verdict allows.  The session counts failed reports and the verdict looks
at the reports, so this is where the invariant of sessions is needed. -/
theorem run_eq {g : Guarded σ ρ} (hrecords : forall b, Session.Records (g.specification b))
    (args : List Value) (st : σ) :
    g.run args st = ((((g.verdict args).call (g.body args) st).1,
      Session.left (g.examine args)), ((g.verdict args).call (g.body args) st).2) := by
  have hcounted : (Session.left (g.examine args)).Counted := by
    cases hnames : g.signature.names with
    | error e =>
        rw [examine_of_error hnames]
        exact Session.counted_start .precondition
    | ok names =>
        rw [examine_of_ok hnames]
        exact Session.counted_left (hrecords _) (Session.counted_start .precondition)
  -- The two definitions differ in one place only: the count there, the reports here.
  unfold run verdict
  cases hexamine : g.examine args with
  | error interruption session =>
      cases interruption with
      | failure f =>
          rfl
      | unbound u =>
          rfl
  | ok x session =>
      have hsession : session.Counted := by
        rw [hexamine] at hcounted
        exact hcounted
      have hall : session.allPassed = session.reports.toList.all Report.pass := by
        rw [Bool.eq_iff_iff, Session.allPassed_iff hsession, List.all_eq_true]
      simp only [hall]
      cases session.reports.toList.all Report.pass with
      | true =>
          rfl
      | false =>
          rfl

theorem call_eq {g : Guarded σ ρ} (hrecords : forall b, Session.Records (g.specification b))
    (args : List Value) (st : σ) :
    g.call args st = (g.verdict args).call (g.body args) st := by
  show ((g.run args st).1.1, (g.run args st).2) = _
  rw [run_eq hrecords]
  rfl

theorem callTraced_eq {g : Guarded σ ρ}
    (hrecords : forall b, Session.Records (g.specification b)) (args : List Value) (st : σ) :
    g.callTraced args st =
      ((g.call args st).1.map fun result => (result, (g.recorded args).map Report.snapshot),
        (g.call args st).2) := by
  show ((g.run args st).1.1.map fun result =>
    (result, (Session.snapshots (g.run args st).1.2).1), (g.run args st).2) = _
  rw [Session.snapshots_eq, call_eq hrecords, run_eq hrecords]
  rfl

end Guarded
end Contracts
