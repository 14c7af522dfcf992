import Contracts.Assertion
import Contracts.Entries

/-!
# Bindings

The parameters of one call, each bound to an assertion over its argument and named after it.
An argument that was not passed is `missing`.  Of several parameters with one name the first
gives the place and the last the argument.
-/

namespace Contracts

/-- Assertions over the arguments of a call, under the names of the parameters. -/
structure Bindings where
  params : Entries Assertion := []

namespace Bindings

/-- The names with their arguments, one by one. -/
def pair : List String -> List Value -> List (String × Assertion)
  | [], _ =>
      []
  | name :: names, args =>
      (name, { value := args.headD .missing, name := name }) :: pair names args.tail

/-- The bindings of names to arguments by position. -/
def ofArguments (names : List String) (args : List Value) : Bindings where
  params := Entries.ofPairs (pair names args)

def param (b : Bindings) (name : String) : Except Misuse Assertion :=
  match Entries.get? name b.params with
  | some a =>
      .ok a
  | none =>
      .error (.unknownParameter name)

/-- The assertion over a parameter that is taken for granted. -/
def index (b : Bindings) (name : String) : Except Unbound Assertion :=
  match Entries.get? name b.params with
  | some a =>
      .ok a
  | none =>
      .error ⟨name⟩

def names (b : Bindings) : List String :=
  Entries.keys b.params

def size (b : Bindings) : Nat :=
  b.params.length

def isEmpty (b : Bindings) : Bool :=
  b.params.isEmpty

end Bindings
end Contracts
