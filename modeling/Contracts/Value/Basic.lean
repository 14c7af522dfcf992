import Contracts.Binary64.Basic
import Contracts.Entries

/-!
# Values

A value is what a caller passed: one of five kinds of plain data, an array, an object, or
`missing` where the caller passed nothing.

An array or object is shared, not copied: it carries a `Handle` that says which array or object
it is, and taking it along through assertions and reports keeps the handle.  Handles are drawn
from a `Supply`, so that whatever is built anew differs from everything built before.
-/

namespace Contracts

/-- The identity of an array or object. -/
structure Handle where
  index : Nat
deriving DecidableEq

/-- A value of loosely typed data. -/
inductive Value where
  /-- Nothing was passed. -/
  | missing
  | null
  | bool (b : Bool)
  | int (n : Int64)
  | float (x : Binary64)
  | str (s : String)
  | array (handle : Handle) (items : List Value)
  /-- The keys of an object differ; their order is the order of insertion. -/
  | object (handle : Handle) (entries : List (String × Value))

instance : Inhabited Value := ⟨.missing⟩

/-- The handles not yet given out: those from `next` on. -/
structure Supply where
  next : Nat := 0

/-- Computations that draw handles. -/
abbrev Fresh := StateM Supply

/-- A handle not given out before. -/
def Fresh.handle : Fresh Handle := fun supply =>
  (⟨supply.next⟩, ⟨supply.next + 1⟩)

@[simp] theorem Fresh.handle_run (supply : Supply) :
    Fresh.handle supply = (⟨supply.next⟩, ⟨supply.next + 1⟩) := rfl

namespace Value

def newArray (items : List Value) : Fresh Value := do
  return .array (← Fresh.handle) items

/-- A new object; of two entries with one key the first gives the place and the last the value. -/
def newObject (pairs : List (String × Value)) : Fresh Value := do
  return .object (← Fresh.handle) (Entries.ofPairs pairs)

def kind : Value -> String
  | missing =>
      "Missing"
  | null =>
      "Null"
  | bool _ =>
      "Bool"
  | int _ =>
      "Int"
  | float _ =>
      "Float"
  | str _ =>
      "Str"
  | array _ _ =>
      "Array"
  | object _ _ =>
      "Object"

def isMissing : Value -> Bool
  | missing =>
      true
  | _ =>
      false

def isNull : Value -> Bool
  | null =>
      true
  | _ =>
      false

/-- Whether a value counts as true.  `missing`, `null`, `false`, zero, NaN and the empty text do
not; every array and object does, even an empty one. -/
def isTruthy : Value -> Bool
  | missing =>
      false
  | null =>
      false
  | bool b =>
      b
  | int n =>
      n != 0
  | float x =>
      x.isNonzero
  | str s =>
      !s.isEmpty
  | array _ _ =>
      true
  | object _ _ =>
      true

def isComposite : Value -> Bool
  | array _ _ =>
      true
  | object _ _ =>
      true
  | _ =>
      false

mutual

/-- Equality of contents: the same kind with the same contents, at any depth.  An integer never
equals a float, NaN differs from itself, and the order of an object's entries does not count. -/
def sameContents : Value -> Value -> Bool
  | missing, missing =>
      true
  | null, null =>
      true
  | bool a, bool b =>
      a == b
  | int a, int b =>
      a == b
  | float x, float y =>
      x.numEq y
  | str s, str t =>
      s == t
  | array _ xs, array _ ys =>
      sameItems xs ys
  | object _ xs, object _ ys =>
      xs.length == ys.length && sameEntries xs ys
  | _, _ =>
      false

def sameItems : List Value -> List Value -> Bool
  | [], [] =>
      true
  | x :: xs, y :: ys =>
      sameContents x y && sameItems xs ys
  | _, _ =>
      false

/-- Whether each entry on the left stands, with equal contents, on the right. -/
def sameEntries : List (String × Value) -> List (String × Value) -> Bool
  | [], _ =>
      true
  | (key, x) :: rest, ys =>
      (match Entries.get? key ys with
        | some y =>
            sameContents x y
        | none =>
            false) && sameEntries rest ys

end

end Value
end Contracts
