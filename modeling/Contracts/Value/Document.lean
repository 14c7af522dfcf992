import Contracts.Json.Basic
import Contracts.Value.Basic

/-!
# Values and documents

A document becomes a value by giving every array and object in it a handle of its own, so two
readings of one text share nothing.  A value becomes a document by forgetting the handles and
sorting the entries of objects; what JSON cannot express becomes `null`.
-/

namespace Contracts
namespace Value

mutual

/-- The value of a document, with new arrays and objects throughout. -/
def ofJson : Json -> Fresh Value
  | .null =>
      return .null
  | .bool b =>
      return .bool b
  | .int n =>
      return .int (Int64.ofInt n)
  | .float x =>
      return .float x
  | .str s =>
      return .str s
  | .array items => do
      newArray (← ofItems items)
  | .object entries => do
      newObject (← ofEntries entries)

def ofItems : List Json -> Fresh (List Value)
  | [] =>
      return []
  | item :: rest => do
      let x ← ofJson item
      let xs ← ofItems rest
      return x :: xs

def ofEntries : List (String × Json) -> Fresh (List (String × Value))
  | [] =>
      return []
  | (key, item) :: rest => do
      let x ← ofJson item
      let xs ← ofEntries rest
      return (key, x) :: xs

end

mutual

def toJson : Value -> Json
  | missing =>
      .null
  | null =>
      .null
  | bool b =>
      .bool b
  | int n =>
      .int n.toInt
  | float x =>
      if x.isFinite then .float x else .null
  | str s =>
      .str s
  | array _ items =>
      .array (itemsToJson items)
  | object _ entries =>
      .object (Json.sortEntries (entriesToJson entries))

def itemsToJson : List Value -> List Json
  | [] =>
      []
  | item :: rest =>
      toJson item :: itemsToJson rest

def entriesToJson : List (String × Value) -> List (String × Json)
  | [] =>
      []
  | (key, item) :: rest =>
      (key, toJson item) :: entriesToJson rest

end

end Value
end Contracts
