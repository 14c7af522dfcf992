import Contracts.Json.Skip

/-!
# Reading documents of a given shape

Readers of texts, truth values, lists, records and names out of a fixed set, which stop at the
first place where the document has another shape.

A record is read from an object, whose unknown fields are passed over, or from an array that
holds the fields in order.  A field that is not required may be absent from the object, and
from the end of the array.
-/

namespace Contracts
namespace Json

/-- A reader that is told how many arrays and objects may still open. -/
abbrev Shape (α : Type) := Nat -> Reader α

namespace Shape

open Reader

variable {α : Type}

/-- What stands next, when it has another shape than expected.  A plain value is read first, so
that its own errors come first. -/
def unexpected (expected : String) : Reader α := do
  let fail (found : Found) : Reader α := throw (.mismatch (.invalidType found expected))
  let c ← peekToken
  if c = 'n' then
    word ['n', 'u', 'l', 'l']
    fail .null
  else if c = 't' then
    word ['t', 'r', 'u', 'e']
    fail (.bool true)
  else if c = 'f' then
    word ['f', 'a', 'l', 's', 'e']
    fail (.bool false)
  else if c = '-' || c.isDigit then
    fail (← number).found
  else if c = '"' then
    let _ ← next
    fail (.str (← stringRest))
  else if c = '[' then fail .sequence
  else if c = '\x7b' then fail .map
  else throw .malformed

/-- Opens an array or object, if one more may nest. -/
def nested (read : Shape α) : Shape α
  | 0 =>
      throw .malformed
  | room + 1 => do
      let _ ← next
      read room

def any : Shape Json := Reader.value

def string : Shape String := fun _ => do
  if (← peekToken) = '"' then
    let _ ← next
    stringRest
  else unexpected "a string"

def bool : Shape Bool := fun _ => do
  let c ← peekToken
  if c = 't' then
    word ['t', 'r', 'u', 'e']
    return true
  else if c = 'f' then
    word ['f', 'a', 'l', 's', 'e']
    return false
  else unexpected "a boolean"

def unit : Shape Unit := fun _ => do
  if (← peekToken) = 'n' then word ['n', 'u', 'l', 'l'] else unexpected "unit"

/-- `null`, which stands for nothing, or what another reader takes. -/
def nullable (read : Shape α) : Shape (Option α) := fun room => do
  if (← peekToken) = 'n' then
    word ['n', 'u', 'l', 'l']
    return none
  else return some (← read room)

def list (read : Shape α) : Shape (List α) := fun room => do
  if (← peekToken) = '[' then nested (fun room => Reader.list (read room) ']') room
  else unexpected "a sequence"

/-- One of several names, alone or as the only key of an object that holds `null`.  A document
that begins otherwise is malformed, and so is an object whose key is no text. -/
def variant (names : List (String × α)) : Shape α := fun room => do
  let choose (name : String) : Reader α :=
    match List.lookup name names with
    | some x =>
        pure x
    | none =>
        throw (.mismatch (.unknownVariant name (names.map Prod.fst)))
  let c ← peekToken
  if c = '"' then
    let _ ← next
    choose (← stringRest)
  else if c = '\x7b' then
    nested (fun room => do
      token '"'
      let x ← choose (← stringRest)
      token ':'
      unit room
      token '\x7d'
      return x) room
  else throw .malformed

/-! ## Records -/

/-- A field of a record: how it is read into a record that is being built. -/
structure Field (α : Type) where
  name : String
  required : Bool
  read : Shape (α -> α)

/-- A record: what it is called, what it is before any field is read, and its fields in order. -/
structure Record (α : Type) where
  name : String
  blank : α
  fields : List (Field α)

def Record.field? (record : Record α) (name : String) : Option (Field α) :=
  record.fields.find? fun field => field.name == name

/-- The first required field that was not seen. -/
def Record.absent? (record : Record α) (seen : List String) : Option (Field α) :=
  record.fields.find? fun field => field.required && !seen.contains field.name

/-- The fields of an object up to its closing bracket, at most so many. -/
def Record.entries (record : Record α) (room : Nat) :
    Nat -> List String -> α -> Reader α
  | 0, _, _ =>
      throw .malformed
  | bound + 1, seen, built => do
      if ← another '\x7d' seen.isEmpty then
        token '"'
        let name ← stringRest
        match record.field? name with
        | none =>
            token ':'
            skip
            record.entries room bound (name :: seen) built
        | some field =>
            if seen.contains name then throw (.mismatch (.duplicateField name))
            token ':'
            let change ← field.read room
            record.entries room bound (name :: seen) (change built)
      else
        match record.absent? seen with
        | some field =>
            throw (.mismatch (.missingField field.name))
        | none =>
            return built

/-- The fields of an array, in order, up to its closing bracket. -/
def Record.positions (record : Record α) (room : Nat) :
    List (Field α) -> Nat -> α -> Reader α
  | [], _, built =>
      return built
  | field :: rest, index, built => do
      if ← another ']' (index == 0) then
        let change ← field.read room
        record.positions room rest (index + 1) (change built)
      else
        match (field :: rest).findIdx? fun f => f.required with
        | some offset =>
            throw (.mismatch (.invalidLength (index + offset) ("struct " ++ record.name)
              record.fields.length))
        | none =>
            return built

/-- A record, from an object or from an array. -/
def record (r : Record α) : Shape α := fun room => do
  let c ← peekToken
  if c = '\x7b' then
    nested (fun room => do
      let text ← get
      let built ← r.entries room (text.length + 1) [] r.blank
      token '\x7d'
      return built) room
  else if c = '[' then
    nested (fun room => do
      let built ← r.positions room r.fields 0 r.blank
      token ']'
      return built) room
  else unexpected ("struct " ++ r.name)

/-- Reads a whole text as a document of some shape. -/
def read (shape : Shape α) (text : String) : Except ReadError α :=
  Reader.run (shape nestingLimit) text

end Shape
end Json
end Contracts
