import Contracts.Guard

/-!
# Outcomes

What running a script from the command line comes to: the snapshots of its checks with their
counts, the result of the guarded call if there is one, and the error if there is one.  The
exit code agrees with the outcome.
-/

namespace Contracts
namespace CommandLine

/-- How the program ends. -/
inductive Exit where
  | ok
  | violation
  | usage
  | file
deriving DecidableEq

def Exit.code : Exit -> Nat
  | ok =>
      0
  | violation =>
      1
  | usage =>
      2
  | file =>
      3

/-- What running a script comes to. -/
structure Outcome where
  policy : Policy
  count : Nat
  passed : Nat
  failed : Nat
  reports : List (Snapshot Value)
  result : Option Json := none
  error : Option String := none

namespace Outcome

/-- The outcome of a list of checks, without result and error. -/
def ofReports (policy : Policy) (reports : List (Snapshot Value)) : Outcome :=
  let failed := (reports.filter fun r => !r.pass).length
  { policy := policy
    count := reports.length
    passed := reports.length - failed
    failed := failed
    reports := reports }

/-- The document of an outcome; a result or error that is not there is left out. -/
def toJson (o : Outcome) : Json :=
  let field (name : String) : Option Json -> List (String × Json)
    | some value =>
        [(name, value)]
    | none =>
        []
  .object ([("policy", o.policy.toJson), ("count", .int o.count), ("passed", .int o.passed),
      ("failed", .int o.failed),
      ("reports", .array (o.reports.map fun r => (r.map Value.toJson).toJson))]
    ++ field "result" o.result ++ field "error" (o.error.map .str))

/-- The exit for a failure, or for an outcome without one. -/
def exit (o : Outcome) : Option Failure -> Exit
  | some f =>
      if f.isViolation then .violation else .usage
  | none =>
      if o.failed = 0 then .ok else .violation

end Outcome

/-- Runs a script as a session of its own. -/
def checkSession (script : Script Value) (policy : Policy) : Outcome × Exit :=
  let (failure, session) :=
    match script.run (Session.start policy) with
    | .ok () session =>
        (none, session)
    | .error f session =>
        (some f, session)
  let o := Outcome.ofReports policy (Session.snapshots session).1
  ({ o with error := failure.map Failure.message }, o.exit failure)

/-- The function that a script guards: its body hands its arguments back as a new array. -/
def echo (script : Script Value) (signature : String) : Guarded Supply Value where
  signature := .declared signature
  specification := script.specification
  body := Value.newArray

/-- Calls the function that a script guards. -/
def guardCall (script : Script Value) (signature : String) (args : List Value) :
    Fresh (Outcome × Exit) := do
  match ← (echo script signature).callTraced args with
  | .error u =>
      let o := Outcome.ofReports .precondition []
      return ({ o with error := some u.message }, .usage)
  | .ok (.returned value, reports) =>
      let o := Outcome.ofReports .precondition reports
      return ({ o with result := some value.toJson }, o.exit none)
  | .ok (.suppressed, reports) =>
      let o := Outcome.ofReports .precondition reports
      return (o, o.exit none)
  | .ok (.failed f, reports) =>
      let o := Outcome.ofReports .precondition reports
      return ({ o with error := some f.message }, o.exit (some f))

end CommandLine
end Contracts
