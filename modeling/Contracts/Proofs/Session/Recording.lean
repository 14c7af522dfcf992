import Contracts.Session

/-!
# Recording

A session only grows: whatever is recorded goes behind the reports that are there.  Its count of
failed reports is kept apart from the reports, so that the two agree is an invariant: it holds of
a new session and of every session that comes of it by recording.
-/

namespace Contracts
namespace Session

/-- A session with more reports, recorded in order. -/
def append (s : Session) (rs : List Report) : Session :=
  rs.foldl push s

@[simp] theorem append_nil (s : Session) : s.append [] = s := rfl

@[simp] theorem append_cons (s : Session) (r : Report) (rs : List Report) :
    s.append (r :: rs) = (s.push r).append rs := rfl

theorem append_append (s : Session) (front back : List Report) :
    s.append (front ++ back) = (s.append front).append back := by
  unfold append
  rw [List.foldl_append]

@[simp] theorem policy_append (s : Session) (rs : List Report) :
    (s.append rs).policy = s.policy := by
  induction rs generalizing s with
  | nil =>
      rfl
  | cons r rest ih =>
      rw [append_cons, ih, policy_push]

@[simp] theorem toList_reports_append (s : Session) (rs : List Report) :
    (s.append rs).reports.toList = s.reports.toList ++ rs := by
  induction rs generalizing s with
  | nil =>
      simp
  | cons r rest ih =>
      rw [append_cons, ih, reports_push]
      simp

@[simp] theorem toList_reports_start (policy : Policy) : (start policy).reports.toList = [] := rfl

/-- Whether a session is another one with more reports, all of one kind. -/
def Extends (P : Report -> Prop) (s t : Session) : Prop :=
  exists rs, t = s.append rs ∧ forall r, r ∈ rs -> P r

section

variable {P : Report -> Prop}

theorem extends_refl (s : Session) : Extends P s s := by
  refine ⟨[], rfl, ?_⟩
  intro r hr
  cases hr

theorem extends_push (s : Session) {r : Report} (h : P r) : Extends P s (s.push r) := by
  refine ⟨[r], rfl, ?_⟩
  intro p hp
  rw [List.mem_singleton.mp hp]
  exact h

theorem extends_trans {s t u : Session} (hst : Extends P s t) (htu : Extends P t u) :
    Extends P s u := by
  rcases hst with ⟨front, hfront, hPfront⟩
  rcases htu with ⟨back, hback, hPback⟩
  refine ⟨front ++ back, ?_, ?_⟩
  · rw [hback, hfront, append_append]
  · intro r hr
    rcases List.mem_append.mp hr with hr | hr
    · exact hPfront r hr
    · exact hPback r hr

theorem policy_of_extends {s t : Session} (h : Extends P s t) : t.policy = s.policy := by
  rcases h with ⟨rs, hrs, _⟩
  rw [hrs, policy_append]

/-- The reports of the shorter session stand first in the longer one. -/
theorem prefix_of_extends {s t : Session} (h : Extends P s t) :
    s.reports.toList <+: t.reports.toList := by
  rcases h with ⟨rs, hrs, _⟩
  rw [hrs, toList_reports_append]
  exact List.prefix_append _ _

end

/-! ## The count of failed reports -/

/-- How many of a list of reports failed. -/
def failures (rs : List Report) : Nat :=
  rs.countP fun r => !r.pass

theorem failures_eq_zero_iff (rs : List Report) :
    failures rs = 0 <-> forall r, r ∈ rs -> r.pass = true := by
  unfold failures
  rw [List.countP_eq_zero]
  simp

/-- Whether the count of a session is that of its failed reports. -/
def Counted (s : Session) : Prop :=
  s.failed = failures s.reports.toList

theorem counted_start (policy : Policy) : (start policy).Counted := rfl

theorem counted_push {s : Session} (h : s.Counted) (r : Report) : (s.push r).Counted := by
  unfold Counted failures at *
  rw [failed_push, reports_push, Array.toList_push, List.countP_append, h]
  cases hpass : r.pass with
  | true =>
      simp [hpass]
  | false =>
      simp [hpass]

theorem counted_append {s : Session} (h : s.Counted) (rs : List Report) :
    (s.append rs).Counted := by
  induction rs generalizing s with
  | nil =>
      exact h
  | cons r rest ih =>
      exact ih (counted_push h r)

theorem allPassed_iff {s : Session} (h : s.Counted) :
    s.allPassed = true <-> forall r, r ∈ s.reports.toList -> r.pass = true := by
  rw [← failures_eq_zero_iff, ← h]
  exact beq_iff_eq

/-! ## Looking back -/

section

variable {α : Type} (visit : Report -> Nat -> StateM Session α) (remaining index : Nat)

theorem visitFrom_of_none {s : Session} (h : s.reports[index]? = none) :
    visitFrom visit (remaining + 1) index s = visitFrom visit remaining (index + 1) s := by
  simp [visitFrom, h, bind, StateT.bind, get, getThe, MonadStateOf.get, StateT.get, pure]

theorem visitFrom_of_some {s : Session} {r : Report} (h : s.reports[index]? = some r) :
    visitFrom visit (remaining + 1) index s =
      ((visit r index s).1 :: (visitFrom visit remaining (index + 1) (visit r index s).2).1,
        (visitFrom visit remaining (index + 1) (visit r index s).2).2) := by
  simp only [visitFrom, h, bind, StateT.bind, get, getThe, MonadStateOf.get, StateT.get, pure]
  rfl

end

theorem visitFrom_return {α : Type} (f : Report -> α) (s : Session) (remaining index : Nat) :
    visitFrom (fun r _ => return f r) remaining index s =
      (((s.reports.toList.drop index).take remaining).map f, s) := by
  induction remaining generalizing index with
  | zero =>
      rfl
  | succ remaining ih =>
      cases hget : s.reports[index]? with
      | none =>
          have hend : s.reports.toList.length ≤ index := by
            simpa using hget
          rw [visitFrom_of_none _ _ _ hget, ih, List.drop_eq_nil_of_le hend,
            List.drop_eq_nil_of_le (Nat.le_succ_of_le hend), List.take_nil, List.take_nil]
      | some r =>
          rcases Array.getElem?_eq_some_iff.mp hget with ⟨hlt, hr⟩
          have hsplit : s.reports.toList.drop index =
              r :: s.reports.toList.drop (index + 1) := by
            rw [← hr, ← Array.getElem_toList]
            exact List.drop_eq_getElem_cons hlt
          have hvisit : (return f r : StateM Session α) s = (f r, s) := rfl
          rw [visitFrom_of_some _ _ _ hget, hsplit, hvisit, ih, List.take_succ_cons,
            List.map_cons]

/-- Taking the snapshots of a session leaves it as it is. -/
theorem snapshots_eq (s : Session) :
    snapshots s = (s.reports.toList.map Report.snapshot, s) := by
  have hvisit := visitFrom_return Report.snapshot s s.count 0
  have hall : s.reports.toList.take s.count = s.reports.toList := by
    exact List.take_length
  rw [List.drop_zero, hall] at hvisit
  exact hvisit

/-! ## Computations on a session -/

section

variable {ε α β : Type}

theorem bind_of_ok {e : EStateM ε Session α} {s t : Session} {x : α} (h : e s = .ok x t)
    (f : α -> EStateM ε Session β) : (e >>= f) s = f x t := by
  simp only [bind, EStateM.bind, h]

theorem bind_of_error {e : EStateM ε Session α} {s t : Session} {err : ε}
    (h : e s = .error err t) (f : α -> EStateM ε Session β) : (e >>= f) s = .error err t := by
  simp only [bind, EStateM.bind, h]

/-- The session that a computation leaves, whether it failed or not. -/
def left : EStateM.Result ε Session α -> Session
  | .ok _ s =>
      s
  | .error _ s =>
      s

/-- What a computation comes to, apart from its session. -/
def outcome : EStateM.Result ε Session α -> Except ε α
  | .ok x _ =>
      .ok x
  | .error e _ =>
      .error e

/-- Whether a computation only records: it leaves every session with some reports more. -/
def Records (e : EStateM ε Session α) : Prop :=
  forall s, exists rs, left (e s) = s.append rs

/-- Whether a computation only records reports of one kind. -/
def RecordsOnly (P : Report -> Prop) (e : EStateM ε Session α) : Prop :=
  forall s, Extends P s (left (e s))

variable {P : Report -> Prop}

theorem records_of_recordsOnly {e : EStateM ε Session α} (h : RecordsOnly P e) : Records e := by
  intro s
  rcases h s with ⟨rs, hrs, _⟩
  exact ⟨rs, hrs⟩

theorem recordsOnly_pure (x : α) : RecordsOnly P (pure x : EStateM ε Session α) :=
  fun s => extends_refl s

theorem recordsOnly_throw (e : ε) : RecordsOnly P (throw e : EStateM ε Session α) :=
  fun s => extends_refl s

theorem recordsOnly_of_left {ε' : Type} {e : EStateM ε Session α} {e' : EStateM ε' Session β}
    (he : RecordsOnly P e) (hleft : forall s, left (e' s) = left (e s)) : RecordsOnly P e' := by
  intro s
  rw [hleft s]
  exact he s

theorem recordsOnly_bind {e : EStateM ε Session α} {f : α -> EStateM ε Session β}
    (he : RecordsOnly P e) (hf : forall x, RecordsOnly P (f x)) : RecordsOnly P (e >>= f) := by
  intro s
  -- What `f` records goes behind what `e` recorded, and is missing where `e` failed.
  have hs : Extends P s (left (e s)) := he s
  cases hrun : e s with
  | ok x t =>
      rw [hrun] at hs
      rw [bind_of_ok hrun]
      exact extends_trans hs (hf x t)
  | error err t =>
      rw [hrun] at hs
      rw [bind_of_error hrun]
      exact hs

theorem counted_left {e : EStateM ε Session α} (h : Records e) {s : Session}
    (hs : s.Counted) : (left (e s)).Counted := by
  rcases h s with ⟨rs, hrs⟩
  rw [hrs]
  exact counted_append hs rs

end

end Session

/-- A report is recorded whether it is raised or not. -/
theorem Episode.left_record (r : Report) (s : Session) :
    Session.left (Episode.record r s) = s.push r := by
  unfold Episode.record
  cases s.policy.violation? r with
  | none =>
      rfl
  | some v =>
      rfl

end Contracts
