import Contracts.Proofs.Guard.Gate

/-!
# Calls of a guarded function

A sequence of calls runs the body on the arguments of the admitted calls, in order, and on
nothing else.  Every call is answered as if it were made alone, in the state that the bodies
before it left.
-/

namespace Contracts

/-- A call to be made: its arguments, and whether the snapshots of its checks are asked for. -/
structure Request where
  args : List Value
  traced : Bool

namespace Guarded

variable {σ ρ : Type}

/-- Makes one call. -/
def answer (g : Guarded σ ρ) (q : Request) :
    StateM σ (Except Unbound (CallResult ρ × Option (List (Snapshot Value)))) :=
  if q.traced then do
    return (← g.callTraced q.args).map fun a => (a.1, some a.2)
  else do
    return (← g.call q.args).map fun result => (result, none)

/-- Makes calls in turn. -/
def answers (g : Guarded σ ρ) : List Request ->
    StateM σ (List (Except Unbound (CallResult ρ × Option (List (Snapshot Value)))))
  | [] =>
      return []
  | q :: rest => do
      let a ← g.answer q
      return a :: (← answers g rest)

/-- The arguments of the calls that are admitted. -/
def admitted (g : Guarded σ ρ) (qs : List Request) : List (List Value) :=
  (qs.map Request.args).filter fun args => Decides g args .admitted

/-- Runs the body on argument lists in turn, without checks. -/
def bodies (g : Guarded σ ρ) : List (List Value) -> σ -> σ
  | [], st =>
      st
  | args :: rest, st =>
      bodies g rest (g.body args st).2

/-- The function with a body that also writes down the arguments of its runs. -/
def logged (g : Guarded σ ρ) : Guarded (σ × List (List Value)) ρ where
  signature := g.signature
  specification := g.specification
  body args := fun st =>
    ((g.body args st.1).1, ((g.body args st.1).2, st.2 ++ [args]))

/-- The snapshots that a call hands out, if they are asked for. -/
def trace (g : Guarded σ ρ) (q : Request) : Option (List (Snapshot Value)) :=
  if q.traced then some ((g.recorded q.args).map Report.snapshot) else none

theorem answers_cons (g : Guarded σ ρ) (q : Request) (rest : List Request) (st : σ) :
    g.answers (q :: rest) st =
      ((g.answer q st).1 :: (g.answers rest (g.answer q st).2).1,
        (g.answers rest (g.answer q st).2).2) := rfl

theorem admitted_cons (g : Guarded σ ρ) (q : Request) (rest : List Request) :
    g.admitted (q :: rest) = g.admitted [q] ++ g.admitted rest := by
  unfold admitted
  rw [← List.filter_append]
  rfl

theorem bodies_append (g : Guarded σ ρ) (front back : List (List Value)) (st : σ) :
    g.bodies (front ++ back) st = g.bodies back (g.bodies front st) := by
  induction front generalizing st with
  | nil =>
      rfl
  | cons args rest ih =>
      exact ih (g.body args st).2

theorem admitted_singleton (g : Guarded σ ρ) (q : Request) :
    g.admitted [q] = if g.verdict q.args = .admitted then [q.args] else [] := by
  simp [admitted, decides_iff, List.filter_cons]

section

variable {g : Guarded σ ρ} (hrecords : forall b, Session.Records (g.specification b))
include hrecords

/-! ## One call by its verdict -/

theorem answer_eq (q : Request) (st : σ) :
    g.answer q st =
      ((g.call q.args st).1.map fun result => (result, g.trace q), (g.call q.args st).2) := by
  unfold answer trace
  cases q.traced with
  | false =>
      rfl
  | true =>
      show ((g.callTraced q.args st).1.map _, (g.callTraced q.args st).2) = _
      rw [callTraced_eq hrecords]
      cases (g.call q.args st).1 with
      | error u =>
          rfl
      | ok result =>
          rfl

theorem call_of_decides {args : List Value} {v : Verdict} (h : Decides g args v) (st : σ) :
    g.call args st = v.call (g.body args) st := by
  rw [call_eq hrecords, verdict_of_decides h]

theorem call_state (q : Request) (st : σ) :
    (g.call q.args st).2 = g.bodies (g.admitted [q]) st := by
  rw [call_eq hrecords, admitted_singleton]
  cases g.verdict q.args with
  | admitted =>
      rfl
  | suppressed =>
      rfl
  | failed f =>
      rfl
  | unbound u =>
      rfl

theorem answer_state (q : Request) (st : σ) :
    (g.answer q st).2 = g.bodies (g.admitted [q]) st := by
  rw [answer_eq hrecords]
  exact call_state hrecords q st

/-! ## Calls in turn -/

theorem answers_state (qs : List Request) (st : σ) :
    (g.answers qs st).2 = g.bodies (g.admitted qs) st := by
  induction qs generalizing st with
  | nil =>
      rfl
  | cons q rest ih =>
      rw [answers_cons, ih, answer_state hrecords, admitted_cons g q rest, bodies_append]

theorem answers_getElem? (front back : List Request) (q : Request) (st : σ) :
    (g.answers (front ++ q :: back) st).1[front.length]? =
      some (g.answer q (g.bodies (g.admitted front) st)).1 := by
  -- The state is general, since each call before hands its own on.
  induction front generalizing st with
  | nil =>
      rfl
  | cons p rest ih =>
      rw [List.cons_append, answers_cons, admitted_cons g p rest, bodies_append,
        ← answer_state hrecords]
      exact ih (g.answer p st).2

theorem logged_call (q : Request) (st : σ) (log : List (List Value)) :
    g.logged.call q.args (st, log) =
      ((g.call q.args st).1, ((g.call q.args st).2, log ++ g.admitted [q])) := by
  rw [call_eq hrecords, call_eq (g := g.logged) hrecords, admitted_singleton]
  show (g.verdict q.args).call (g.logged.body q.args) (st, log) = _
  cases g.verdict q.args with
  | admitted =>
      rfl
  | suppressed =>
      simp
  | failed f =>
      simp
  | unbound u =>
      simp

theorem logged_answer (q : Request) (st : σ) (log : List (List Value)) :
    g.logged.answer q (st, log) =
      ((g.answer q st).1, ((g.answer q st).2, log ++ g.admitted [q])) := by
  rw [answer_eq hrecords, answer_eq (g := g.logged) hrecords, logged_call hrecords]
  rfl

theorem logged_answers (qs : List Request) (st : σ) (log : List (List Value)) :
    g.logged.answers qs (st, log) =
      ((g.answers qs st).1, ((g.answers qs st).2, log ++ g.admitted qs)) := by
  induction qs generalizing st log with
  | nil =>
      show ([], (st, log)) = ([], (st, log ++ []))
      rw [List.append_nil]
  | cons q rest ih =>
      rw [answers_cons, answers_cons, logged_answer hrecords, ih, admitted_cons g q rest,
        List.append_assoc]

end

/-- What it is for the checks of a function to gate its body. -/
structure Gated (g : Guarded σ ρ) : Prop where
  /-- An admitted call runs the body on its arguments and returns what the body returns. -/
  returned : forall args st, Decides g args .admitted ->
    g.call args st = (.ok (.returned (g.body args st).1), (g.body args st).2)
  /-- No other call returns a result. -/
  returned_iff : forall args st,
    (exists r, (g.call args st).1 = .ok (.returned r)) <-> Decides g args .admitted
  /-- No other call changes the state of the body. -/
  kept : forall args st, ¬ Decides g args .admitted -> (g.call args st).2 = st
  suppressed_iff : forall args st,
    (g.call args st).1 = .ok .suppressed <-> Decides g args .suppressed
  failed_iff : forall args st f,
    (g.call args st).1 = .ok (.failed f) <-> Decides g args (.failed f)
  unbound_iff : forall args st u,
    (g.call args st).1 = .error u <-> Decides g args (.unbound u)
  /-- Asking for snapshots changes nothing else. -/
  traced : forall args st, g.callTraced args st =
    ((g.call args st).1.map fun result => (result, (g.recorded args).map Report.snapshot),
      (g.call args st).2)
  /-- The bodies of the admitted calls are all that changes the state. -/
  left : forall qs st, (g.answers qs st).2 = g.bodies (g.admitted qs) st
  /-- In a sequence of calls the body runs once for every admitted call, on its arguments and in
  their order. -/
  logged : forall qs st log, g.logged.answers qs (st, log) =
    ((g.answers qs st).1, ((g.answers qs st).2, log ++ g.admitted qs))
  /-- A call is answered as if it were made alone, in the state that the bodies of the admitted
  calls before it left. -/
  alone : forall front q back st,
    (g.answers (front ++ q :: back) st).1[front.length]? =
      some (g.answer q (g.bodies (g.admitted front) st)).1

theorem gated_of_records {g : Guarded σ ρ}
    (hrecords : forall b, Session.Records (g.specification b)) : Gated g := by
  constructor
  case returned =>
    intro args st h
    rw [call_of_decides hrecords h]
    rfl
  case returned_iff =>
    intro args st
    rw [call_eq hrecords, decides_iff]
    cases g.verdict args <;> simp
  case kept =>
    intro args st h
    rw [decides_iff] at h
    rw [call_eq hrecords]
    revert h
    cases g.verdict args <;> simp
  case suppressed_iff =>
    intro args st
    rw [call_eq hrecords, decides_iff]
    cases g.verdict args <;> simp
  case failed_iff =>
    intro args st f
    rw [call_eq hrecords, decides_iff]
    cases g.verdict args <;> simp
  case unbound_iff =>
    intro args st u
    rw [call_eq hrecords, decides_iff]
    cases g.verdict args <;> simp
  case traced =>
    exact callTraced_eq hrecords
  case left =>
    exact answers_state hrecords
  case logged =>
    exact logged_answers hrecords
  case alone =>
    intro front q back st
    exact answers_getElem? hrecords front back q st

/-- The checks gate the body, whatever the reader and the body are, of every specification that
is made of checks: by a plan, by a list of rules, or by a script. -/
theorem checks_gate_body (reader : Signature) (body : List Value -> StateM σ ρ) :
    (forall plan, Gated ⟨reader, Specification.ofPlan plan, body⟩) ∧
    (forall rules, Gated ⟨reader, Specification.ofRules rules, body⟩) ∧
    (forall script : Script Value, Gated ⟨reader, script.specification, body⟩) := by
  have hplan : forall plan, Gated ⟨reader, Specification.ofPlan plan, body⟩ := by
    intro plan
    apply gated_of_records
    intro bindings
    exact (plan bindings).records_run bindings
  refine ⟨hplan, ?_, ?_⟩
  · intro rules
    rw [Specification.ofRules_eq_ofPlan]
    exact hplan _
  · intro script
    rw [Script.specification_eq_ofPlan]
    exact hplan _

end Guarded
end Contracts
