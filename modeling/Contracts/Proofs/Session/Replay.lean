import Mathlib.Data.List.Infix
import Contracts.Proofs.Session.Clients

/-!
# Replays

A replay counts the reports once and then looks each one up when its turn comes, in a session
that the visits before may have made longer.  Recording goes behind the reports that are there, so
every lookup finds the report that stood at its index when the replay began: the visits are those
of the reports at the start, each one once and in order, and what they record stands behind them
in the order of the visits.
-/

namespace Contracts
namespace Session

variable {α β : Type}

/-- What a replay does at every report: it may record further reports, whether these are raised or
not, and does nothing else to the session.  What it remembers between the visits of one replay is
a function of the index, which tells them apart. -/
structure Visitor (α : Type) where
  visit : Report -> Nat -> StateM Session α
  records : forall r index s, exists rs, (visit r index s).2 = s.append rs

/-- One visit of a replay. -/
structure Visit (α : Type) where
  report : Report
  index : Nat
  result : α
  /-- What the visitor recorded. -/
  recorded : List Report

/-- The report and the index that a visit was called with. -/
def Visit.subject (x : Visit α) : Report × Nat :=
  (x.report, x.index)

namespace Visitor

/-- A visitor that does the same, and also tells what it was called with and what it recorded. -/
def logged (v : Visitor α) : Visitor (Visit α) where
  visit r index := fun s =>
    let (x, t) := v.visit r index s
    (⟨r, index, x, t.reports.toList.drop s.count⟩, t)
  records := v.records

/-- The visits of a replay, as the visitor tells them. -/
def log (v : Visitor α) (s : Session) : List (Visit α) :=
  (replay v.logged.visit s).1

end Visitor

/-- A client at every report. -/
def Visitor.ofClients (visit : Report -> Nat -> Client) : Visitor (List Session) where
  visit r index := (visit r index).trace
  records r index s := by
    rcases ((visit r index).ascends_trace s).ends with ⟨rs, hrs, _⟩
    exact ⟨rs, hrs⟩

/-- Visits from one session to another.  Each one finds its report at its index in the session
that the one before it left, and leaves that session with what it recorded. -/
inductive Visits (v : Visitor α) : Session -> List (Visit α) -> Session -> Prop where
  | done (s : Session) : Visits v s [] s
  | visit {s t : Session} {x : Visit α} {later : List (Visit α)}
      (hlookup : s.reports[x.index]? = some x.report)
      (hvisit : v.visit x.report x.index s = (x.result, s.append x.recorded))
      (hlater : Visits v (s.append x.recorded) later t) : Visits v s (x :: later) t

/-! ## One visit -/

theorem Visitor.logged_visit (v : Visitor α) (r : Report) (index : Nat) (s : Session) :
    exists x : Visit α, v.logged.visit r index s = (x, s.append x.recorded) ∧
      x.subject = (r, index) ∧ v.visit r index s = (x.result, s.append x.recorded) := by
  rcases v.records r index s with ⟨rs, hrs⟩
  have hrecorded : (v.visit r index s).2.reports.toList.drop s.count = rs := by
    rw [hrs, toList_reports_append]
    exact List.drop_left
  refine ⟨⟨r, index, (v.visit r index s).1, rs⟩, ?_, rfl, ?_⟩
  · show (_, (v.visit r index s).2) = _
    rw [hrecorded, hrs]
  · exact Prod.ext rfl hrs

theorem getElem?_of_prefix_drop {l rest : List α} {x : α} {index : Nat}
    (h : x :: rest <+: l.drop index) : l[index]? = some x := by
  rcases h with ⟨back, hback⟩
  have hhead : (l.drop index)[0]? = some x := by
    rw [← hback]
    rfl
  rwa [List.getElem?_drop, Nat.add_zero] at hhead

theorem prefix_drop_append {l rest : List α} {x : α} {index : Nat}
    (h : x :: rest <+: l.drop index) (more : List α) : rest <+: (l ++ more).drop (index + 1) := by
  have htail : rest <+: (l.drop index).drop 1 := h.drop 1
  rw [List.drop_drop] at htail
  exact htail.trans ((List.prefix_append l more).drop _)

/-! ## Whole replays -/

/-- A replay of the reports from an index on visits them as they stand at its start. -/
theorem visits_visitFrom (v : Visitor α) (frozen : List Report) (index : Nat) (s : Session)
    (h : frozen <+: s.reports.toList.drop index) :
    Visits v s (visitFrom v.logged.visit frozen.length index s).1
        (visitFrom v.visit frozen.length index s).2 ∧
      (visitFrom v.logged.visit frozen.length index s).1.map Visit.subject = frozen.zipIdx index ∧
      (visitFrom v.visit frozen.length index s).1 =
        (visitFrom v.logged.visit frozen.length index s).1.map Visit.result := by
  induction frozen generalizing index s with
  | nil =>
      exact ⟨.done s, rfl, rfl⟩
  | cons r rest ih =>
      have hlookup : s.reports[index]? = some r := by
        rw [← Array.getElem?_toList]
        exact getElem?_of_prefix_drop h
      rcases v.logged_visit r index s with ⟨x, hlogged, hsubject, hvisit⟩
      have hreport : x.report = r := congrArg Prod.fst hsubject
      have hindex : x.index = index := congrArg Prod.snd hsubject
      -- What this visit records goes behind the reports that are still to be visited.
      have hrest : rest <+: (s.append x.recorded).reports.toList.drop (index + 1) := by
        rw [toList_reports_append]
        exact prefix_drop_append h _
      rcases ih (index + 1) (s.append x.recorded) hrest with ⟨hvisits, hsubjects, hresults⟩
      rw [List.length_cons, visitFrom_of_some _ _ _ hlookup, visitFrom_of_some _ _ _ hlookup,
        hlogged, hvisit]
      refine ⟨?_, ?_, ?_⟩
      · apply Visits.visit
        · rw [hindex, hreport]
          exact hlookup
        · rw [hindex, hreport]
          exact hvisit
        · exact hvisits
      · rw [List.map_cons, List.zipIdx_cons, hsubjects, hsubject]
      · rw [List.map_cons, hresults]

theorem eq_append_of_visits {v : Visitor α} {s t : Session} {log : List (Visit α)}
    (h : Visits v s log t) : t = s.append (log.flatMap Visit.recorded) := by
  induction h with
  | done s =>
      rfl
  | visit _ _ _ ih =>
      rw [ih, List.flatMap_cons, append_append]

theorem subjects_log (v : Visitor α) (s : Session) :
    (v.log s).map Visit.subject = s.reports.toList.zipIdx :=
  (visits_visitFrom v s.reports.toList 0 s (List.prefix_refl _)).2.1

theorem visits_replay (v : Visitor α) (s : Session) : Visits v s (v.log s) (replay v.visit s).2 :=
  (visits_visitFrom v s.reports.toList 0 s (List.prefix_refl _)).1

theorem results_replay (v : Visitor α) (s : Session) :
    (replay v.visit s).1 = (v.log s).map Visit.result :=
  (visits_visitFrom v s.reports.toList 0 s (List.prefix_refl _)).2.2

theorem toList_reports_replay (v : Visitor α) (s : Session) :
    (replay v.visit s).2.reports.toList =
      s.reports.toList ++ (v.log s).flatMap Visit.recorded := by
  have hend := eq_append_of_visits (visits_replay v s)
  rw [hend, toList_reports_append]

/-- A replay visits the reports that stand at its start, each one once, in order and with its
index, and finds every one of them there; what the visits record stands behind them in the order
of the visits.  A later replay begins with the same visits, and snapshots are those of the reports
in order, and change nothing. -/
theorem replay_frozen (v : Visitor α) (w : Visitor β) (s : Session) :
    (v.log s).map Visit.subject = s.reports.toList.zipIdx ∧
    Visits v s (v.log s) (replay v.visit s).2 ∧
    (replay v.visit s).1 = (v.log s).map Visit.result ∧
    (replay v.visit s).2.reports.toList =
      s.reports.toList ++ (v.log s).flatMap Visit.recorded ∧
    ((w.log (replay v.visit s).2).take s.count).map Visit.subject =
      (v.log s).map Visit.subject ∧
    snapshots s = (s.reports.toList.map Report.snapshot, s) := by
  refine ⟨subjects_log v s, visits_replay v s, results_replay v s, toList_reports_replay v s,
    ?_, snapshots_eq s⟩
  have hcount : s.count = s.reports.toList.zipIdx.length := List.length_zipIdx.symm
  rw [List.map_take, subjects_log, subjects_log, toList_reports_replay, List.zipIdx_append, hcount]
  exact List.take_left

/-- Where failed reports are raised, a client that records each one again raises at every visit,
and is still called for both. -/
example :
    let r := Report.make "truthy" false .null none "flag"
    let s := ((start .assert).push r).push r
    let v := Visitor.ofClients fun r _ =>
      .ask (.report r.id r.pass r.value r.against r.name) fun _ => .done
    (v.log s).map Visit.index = [0, 1] ∧ (replay v.visit s).2.failed = 4 :=
  ⟨rfl, rfl⟩

end Session
end Contracts
