import Contracts.Json.Shape
import Contracts.Value.Order

/-!
# Predicates

The seven predicates that a check can ask of a value.  Three of them compare the value with a
target; the others look at the value alone.
-/

namespace Contracts

/-- A predicate over a value and, for some, a target. -/
inductive Predicate where
  | equals
  | lessThan
  | moreThan
  | present
  | nulled
  | falsy
  | truthy
deriving DecidableEq

namespace Predicate

/-- Every predicate, in order of listing. -/
def all : List Predicate :=
  [equals, lessThan, moreThan, present, nulled, falsy, truthy]

def id : Predicate -> String
  | equals =>
      "equals"
  | lessThan =>
      "lessThan"
  | moreThan =>
      "moreThan"
  | present =>
      "exists"
  | nulled =>
      "nulled"
  | falsy =>
      "falsy"
  | truthy =>
      "truthy"

def ofId? (name : String) : Option Predicate :=
  all.find? fun p => p.id == name

/-- Whether a predicate looks at the target. -/
def isBinary : Predicate -> Bool
  | equals =>
      true
  | lessThan =>
      true
  | moreThan =>
      true
  | _ =>
      false

/-- Whether a value satisfies a predicate; a target that was not given is `missing`. -/
def test (p : Predicate) (value : Value) (against : Option Value) : Bool :=
  let target := against.getD .missing
  match p with
  | equals =>
      value.strictEquals target
  | lessThan =>
      value.compare? target == some .lt
  | moreThan =>
      value.compare? target == some .gt
  | present =>
      !value.isMissing
  | nulled =>
      value.isNull
  | falsy =>
      !value.isTruthy
  | truthy =>
      value.isTruthy

def shape : Json.Shape Predicate :=
  Json.Shape.variant (all.map fun p => (p.id, p))

def toJson (p : Predicate) : Json :=
  .str p.id

theorem ofId?_id (p : Predicate) : ofId? p.id = some p := by
  cases p <;> decide

theorem id_of_ofId? {name : String} {p : Predicate} (h : ofId? name = some p) : p.id = name := by
  simpa using List.find?_some h

end Predicate
end Contracts
