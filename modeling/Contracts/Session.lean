import Contracts.Failure
import Contracts.Policy
import Contracts.Report

/-!
# Sessions

A session records the reports of one run of checks, in order, and never drops or changes one.
It counts the failed ones as they come in, and its policy says whether a failed check raises
an error; the report is recorded before the error is raised.

Operations on a session are computations in `Episode`, which keep the session also when they
raise.
-/

namespace Contracts

/-- The reports of one run of checks, under a failure policy. -/
structure Session where
  policy : Policy := .collect
  reports : Array Report := #[]
  /-- How many of the reports failed. -/
  failed : Nat := 0

/-- Computations that record reports and may fail. -/
abbrev Episode := EStateM Failure Session

namespace Session

/-- A session without reports. -/
def start (policy : Policy) : Session where
  policy := policy

def count (s : Session) : Nat :=
  s.reports.size

def passed (s : Session) : Nat :=
  s.count - s.failed

def isEmpty (s : Session) : Bool :=
  s.count == 0

/-- Whether no report failed. -/
def allPassed (s : Session) : Bool :=
  s.failed == 0

/-- Whether some report failed. -/
def someFailed (s : Session) : Bool :=
  s.failed != 0

/-- The session with one more report. -/
def push (s : Session) (report : Report) : Session :=
  { s with
    reports := s.reports.push report
    failed := if report.pass then s.failed else s.failed + 1 }

@[simp] theorem policy_push (s : Session) (report : Report) :
    (s.push report).policy = s.policy := rfl

@[simp] theorem reports_push (s : Session) (report : Report) :
    (s.push report).reports = s.reports.push report := rfl

@[simp] theorem count_push (s : Session) (report : Report) :
    (s.push report).count = s.count + 1 := by
  simp [count]

theorem failed_push (s : Session) (report : Report) :
    (s.push report).failed = if report.pass then s.failed else s.failed + 1 := rfl

theorem allPassed_eq_not_someFailed (s : Session) : s.allPassed = !s.someFailed := by
  cases h : s.failed == 0 <;> simp [allPassed, someFailed, bne, h]

end Session

/-- The violation that a policy raises for a report. -/
def Policy.violation? (policy : Policy) (report : Report) : Option Violation :=
  if report.pass then none
  else
    match policy with
    | .collect =>
        none
    | .assert =>
        some (.general report.description)
    | .precondition =>
        some (.precondition report.description)

theorem Policy.violation?_of_pass (policy : Policy) {report : Report}
    (h : report.pass = true) : policy.violation? report = none := by
  simp [Policy.violation?, h]

theorem Policy.message_of_violation? {policy : Policy} {report : Report} {v : Violation}
    (h : policy.violation? report = some v) : v.message = report.description := by
  unfold Policy.violation? at h
  split at h
  · cases h
  · cases policy <;> cases h <;> rfl

namespace Episode

/-- Records a report, then raises what the policy asks for. -/
def record (report : Report) : Episode Unit := fun session =>
  match session.policy.violation? report with
  | some v =>
      .error (.violation v) (session.push report)
  | none =>
      .ok () (session.push report)

theorem record_of_pass (report : Report) (h : report.pass = true) (session : Session) :
    record report session = .ok () (session.push report) := by
  simp [record, Policy.violation?_of_pass _ h]

theorem record_collect (report : Report) (session : Session) (h : session.policy = .collect) :
    record report session = .ok () (session.push report) := by
  simp [record, Policy.violation?, h]

/-- A computation that may only misuse the checks. -/
def ofExcept {α : Type} : Except Misuse α -> Episode α
  | .ok x =>
      pure x
  | .error m =>
      throw (.misuse m)

end Episode

namespace Session

variable {α : Type}

/-- Visits so many reports from an index on, looking each one up when its turn comes. -/
def visitFrom (visit : Report -> Nat -> StateM Session α) :
    Nat -> Nat -> StateM Session (List α)
  | 0, _ =>
      return []
  | remaining + 1, index => do
      match (← get).reports[index]? with
      | none =>
          visitFrom visit remaining (index + 1)
      | some report =>
          let x ← visit report index
          let xs ← visitFrom visit remaining (index + 1)
          return x :: xs

/-- Visits the reports that are there at the start, in order.  What the visits themselves record
is kept, and not visited. -/
def replay (visit : Report -> Nat -> StateM Session α) : StateM Session (List α) := do
  visitFrom visit (← get).count 0

def snapshots : StateM Session (List (Snapshot Value)) :=
  replay fun report _ => return report.snapshot

end Session
end Contracts
