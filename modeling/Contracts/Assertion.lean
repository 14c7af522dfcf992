import Contracts.Predicate
import Contracts.Session

/-!
# Assertions

An assertion holds one value under a name and checks it, any number of times.  Its negation
holds the same value under the same name, reports the opposite outcome, and marks the report
with `not`; the negation of a negation is the negation itself.
-/

namespace Contracts

/-- A value to be checked. -/
structure Assertion where
  value : Value
  /-- The name in reports, empty when there is none. -/
  name : String := ""
  /-- Whether the opposite of every predicate is checked. -/
  negated : Bool := false

namespace Assertion

/-- The same value under the same name, checked for the opposite. -/
def negation (a : Assertion) : Assertion :=
  { a with negated := true }

@[simp] theorem value_negation (a : Assertion) : a.negation.value = a.value := rfl

@[simp] theorem name_negation (a : Assertion) : a.negation.name = a.name := rfl

@[simp] theorem negated_negation (a : Assertion) : a.negation.negated = true := rfl

@[simp] theorem negation_negation (a : Assertion) : a.negation.negation = a.negation := rfl

/-- The assertion of a list of arguments: one is the value; of two or more the first describes
and the second is the value.  A description that counts as false gives no name. -/
def ofArguments : List Value -> Except Misuse Assertion
  | [] =>
      .error .missingValue
  | [value] =>
      .ok { value }
  | description :: value :: _ =>
      .ok { value, name := if description.isTruthy then description.display else "" }

def report (a : Assertion) (p : Predicate) (against : Option Value) : Report :=
  let pass := p.test a.value against
  if a.negated then Report.make ("not " ++ p.id) (!pass) a.value against a.name
  else Report.make p.id pass a.value against a.name

@[simp] theorem value_report (a : Assertion) (p : Predicate) (against : Option Value) :
    (a.report p against).value = a.value := by
  unfold report
  split <;> rfl

@[simp] theorem against_report (a : Assertion) (p : Predicate) (against : Option Value) :
    (a.report p against).against = against := by
  unfold report
  split <;> rfl

@[simp] theorem name_report (a : Assertion) (p : Predicate) (against : Option Value) :
    (a.report p against).name = a.name := by
  unfold report
  split <;> rfl

theorem pass_report_negation (a : Assertion) (p : Predicate) (against : Option Value)
    (h : a.negated = false) :
    (a.negation.report p against).pass = !(a.report p against).pass := by
  simp [report, negation, Report.make, h]

def check (a : Assertion) (p : Predicate) (against : Option Value) : Episode Unit :=
  Episode.record (a.report p against)

/-- Checks the predicate of a name. -/
def checkId (a : Assertion) (id : String) (against : Option Value) : Episode Unit :=
  match Predicate.ofId? id with
  | some p =>
      a.check p against
  | none =>
      throw (.misuse (.noSuchCheck id))

def equals (a : Assertion) (target : Value) : Episode Unit :=
  a.check .equals (some target)

def lessThan (a : Assertion) (target : Value) : Episode Unit :=
  a.check .lessThan (some target)

def moreThan (a : Assertion) (target : Value) : Episode Unit :=
  a.check .moreThan (some target)

def present (a : Assertion) : Episode Unit :=
  a.check .present none

def nulled (a : Assertion) : Episode Unit :=
  a.check .nulled none

def falsy (a : Assertion) : Episode Unit :=
  a.check .falsy none

def truthy (a : Assertion) : Episode Unit :=
  a.check .truthy none

end Assertion
end Contracts
