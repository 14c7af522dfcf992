import Contracts.Json.Shape
import Contracts.Value.Display
import Contracts.Value.Document

/-!
# Reports

A report is the record of one check.  Its description says what was checked, under which name,
and is also the message of the error that the check may raise.  A snapshot is a report without
the name, as it is handed out and written to documents; it is generic in what stands for
values, since a snapshot read from a document has no arrays or objects of its own yet.
-/

namespace Contracts

/-- A check in words: `id(value)`, or `id(value, target)` when there is a target. -/
def describe (id : String) (value : Value) (against : Option Value) : String :=
  match against with
  | none =>
      id ++ "(" ++ value.display ++ ")"
  | some target =>
      if target.isMissing then id ++ "(" ++ value.display ++ ")"
      else id ++ "(" ++ value.display ++ ", " ++ target.display ++ ")"

/-- A report without the name of what was checked. -/
structure Snapshot (α : Type) where
  id : String
  pass : Bool
  value : α
  against : Option α
  description : String

/-- The record of one check. -/
structure Report where
  id : String
  pass : Bool
  value : Value
  against : Option Value
  /-- The name of what was checked, empty when it has none. -/
  name : String
  description : String

namespace Report

/-- The report of a check, with its description. -/
def make (id : String) (pass : Bool) (value : Value) (against : Option Value) (name : String) :
    Report where
  id := id
  pass := pass
  value := value
  against := against
  name := name
  description := name ++ ": " ++ describe id value against

theorem description_make (id : String) (pass : Bool) (value : Value) (against : Option Value)
    (name : String) :
    (make id pass value against name).description
      = name ++ ": " ++ describe id value against := rfl

def snapshot (r : Report) : Snapshot Value where
  id := r.id
  pass := r.pass
  value := r.value
  against := r.against
  description := r.description

def toJson (r : Report) : Json :=
  .object [("id", .str r.id), ("pass", .bool r.pass), ("value", r.value.toJson),
    ("against", (r.against.map Value.toJson).getD .null), ("name", .str r.name),
    ("description", .str r.description)]

end Report

namespace Snapshot

variable {α β : Type}

def map (f : α -> β) (s : Snapshot α) : Snapshot β where
  id := s.id
  pass := s.pass
  value := f s.value
  against := s.against.map f
  description := s.description

/-- The values of a snapshot that was read, with new arrays and objects. -/
def load (s : Snapshot Json) : Fresh (Snapshot Value) := do
  let value ← Value.ofJson s.value
  let against ← s.against.mapM Value.ofJson
  return ⟨s.id, s.pass, value, against, s.description⟩

/-- The document of a snapshot; a target that is not there is left out. -/
def toJson (s : Snapshot Json) : Json :=
  .object ([("id", .str s.id), ("pass", .bool s.pass), ("value", s.value)]
    ++ (match s.against with
        | some target =>
            [("against", target)]
        | none =>
            [])
    ++ [("description", .str s.description)])

def record : Json.Shape.Record (Snapshot Json) where
  name := "ReportSnapshot"
  blank := ⟨"", false, .null, none, ""⟩
  fields := [
    ⟨"id", true, fun room => do
      let id ← Json.Shape.string room
      return fun s => { s with id := id }⟩,
    ⟨"pass", true, fun room => do
      let pass ← Json.Shape.bool room
      return fun s => { s with pass := pass }⟩,
    ⟨"value", true, fun room => do
      let value ← Json.Shape.any room
      return fun s => { s with value := value }⟩,
    ⟨"against", false, fun room => do
      let against ← Json.Shape.nullable Json.Shape.any room
      return fun s => { s with against := against }⟩,
    ⟨"description", true, fun room => do
      let description ← Json.Shape.string room
      return fun s => { s with description := description }⟩]

def read (text : String) : Except Json.ReadError (Snapshot Json) :=
  Json.Shape.read (Json.Shape.record record) text

end Snapshot
end Contracts
