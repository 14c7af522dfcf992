import Contracts.Json.Shape
import Contracts.Value.Basic

/-!
# Failure policies

What happens when a check fails: nothing beyond its record, or an error at once, which is a
general violation or a failed precondition.
-/

namespace Contracts

/-- What a session does about a failed check. -/
inductive Policy where
  | collect
  | assert
  | precondition
deriving DecidableEq

namespace Policy

def name : Policy -> String
  | collect =>
      "collect"
  | assert =>
      "assert"
  | precondition =>
      "precondition"

def named : List (String × Policy) :=
  [collect, assert, precondition].map fun p => (p.name, p)

def raises : Policy -> Bool
  | collect =>
      false
  | assert =>
      true
  | precondition =>
      true

/-- The policy that a loosely typed selector picks: its own name picks `precondition`, anything
else that counts as true asserts, and the rest collects. -/
def ofSelector (selector : Value) : Policy :=
  match selector with
  | .str s =>
      if s = precondition.name then precondition else if s.isEmpty then collect else assert
  | other =>
      if other.isTruthy then assert else collect

/-- The policy of a name, in any mixture of ASCII capitals and small letters. -/
def ofName? (text : String) : Option Policy :=
  List.lookup (String.ofList (text.toList.map Char.toLower)) named

def unknownMessage (text : String) : String :=
  "invalid failure policy '" ++ text ++ "': expected collect, assert or precondition"

def shape : Json.Shape Policy :=
  Json.Shape.variant named

def toJson (p : Policy) : Json :=
  .str p.name

theorem ofName?_name (p : Policy) : ofName? p.name = some p := by
  cases p <;> decide

end Policy
end Contracts
