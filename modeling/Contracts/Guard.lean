import Contracts.Signature.Declaration
import Contracts.Specification

/-!
# Guarded functions

A guarded function checks its specification on every call, in a session of its own under the
precondition policy, and runs its body only when every recorded check passed.  A failed check
ends the specification with an error; where the specification lets that error pass, the call is
suppressed without one.

The body runs in some state of its own, which nothing else of a call reads or changes.
-/

namespace Contracts

/-- A function with a specification of its calls. -/
structure Guarded (σ ρ : Type) where
  signature : Signature
  specification : Specification
  body : List Value -> StateM σ ρ

/-- What a guarded call comes to. -/
inductive CallResult (ρ : Type) where
  | returned (result : ρ)
  /-- A check failed, and the specification let it pass. -/
  | suppressed
  | failed (f : Failure)

namespace Guarded

variable {σ ρ : Type}

/-- Checks the specification for the arguments of a call, in a new session. -/
def examine (g : Guarded σ ρ) (args : List Value) : EStateM.Result Interruption Session Unit :=
  let session := Session.start .precondition
  match g.signature.names with
  | .error e =>
      .error (.failure (.signature e)) session
  | .ok names =>
      g.specification (Bindings.ofArguments names args) session

/-- A call, with the session it leaves. -/
def run (g : Guarded σ ρ) (args : List Value) :
    StateM σ (Except Unbound (CallResult ρ) × Session) :=
  match g.examine args with
  | .error (.unbound u) session =>
      return (.error u, session)
  | .error (.failure f) session =>
      return (.ok (.failed f), session)
  | .ok () session =>
      if session.allPassed then do
        return (.ok (.returned (← g.body args)), session)
      else return (.ok .suppressed, session)

/-- A call.  A parameter that was taken for granted and is not declared ends it without a
result. -/
def call (g : Guarded σ ρ) (args : List Value) : StateM σ (Except Unbound (CallResult ρ)) := do
  return (← g.run args).1

/-- A call, with the snapshots of every check on the way. -/
def callTraced (g : Guarded σ ρ) (args : List Value) :
    StateM σ (Except Unbound (CallResult ρ × List (Snapshot Value))) := do
  let (result, session) ← g.run args
  return result.map fun r => (r, (Session.snapshots session).1)

end Guarded
end Contracts
