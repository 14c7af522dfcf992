import Contracts.Bindings

/-!
# Scripts

A script is a list of checks written as a document, with a selector of the failure policy.
Each step names what it checks, a parameter or a list of arguments of its own, and a predicate
by name, with a target and a negation if wanted.  A script runs against the bindings of a call,
or on its own without any.

Scripts are generic in what stands for values: a script read from a text holds documents, and
loading it gives every array and object a handle of its own.
-/

namespace Contracts

/-- One check of a script. -/
structure Step (α : Type) where
  /-- The parameter to check; it goes before `enforce`. -/
  param : Option String
  /-- The value to check, alone or after a description. -/
  enforce : Option (List α)
  check : String
  /-- The target; `null` is a target too. -/
  against : Option α
  negate : Bool

/-- A list of checks with a selector of the failure policy. -/
structure Script (α : Type) where
  policy : Option α
  checks : List (Step α)

namespace Step

variable {α β : Type}

/-- A step with its values changed one by one. -/
def mapM {m : Type -> Type} [Monad m] (f : α -> m β) (step : Step α) : m (Step β) := do
  let enforce ← step.enforce.mapM fun args => args.mapM f
  let against ← step.against.mapM f
  return ⟨step.param, enforce, step.check, against, step.negate⟩

def map (f : α -> β) (step : Step α) : Step β :=
  ⟨step.param, step.enforce.map (List.map f), step.check, step.against.map f, step.negate⟩

/-- The document of a step; what is not there is left out. -/
def toJson (step : Step Json) : Json :=
  let field (name : String) : Option Json -> List (String × Json)
    | some value =>
        [(name, value)]
    | none =>
        []
  .object (field "param" (step.param.map .str) ++ field "enforce" (step.enforce.map .array)
    ++ [("check", .str step.check)] ++ field "against" step.against
    ++ [("negate", .bool step.negate)])

def record : Json.Shape.Record (Step Json) where
  name := "CheckStep"
  blank := ⟨none, none, "", none, false⟩
  fields := [
    ⟨"param", false, fun room => do
      let param ← Json.Shape.nullable Json.Shape.string room
      return fun s => { s with param := param }⟩,
    ⟨"enforce", false, fun room => do
      let enforce ← Json.Shape.nullable (Json.Shape.list Json.Shape.any) room
      return fun s => { s with enforce := enforce }⟩,
    ⟨"check", true, fun room => do
      let check ← Json.Shape.string room
      return fun s => { s with check := check }⟩,
    ⟨"against", false, fun room => do
      let against ← Json.Shape.any room
      return fun s => { s with against := some against }⟩,
    ⟨"negate", false, fun room => do
      let negate ← Json.Shape.bool room
      return fun s => { s with negate := negate }⟩]

/-- What a step checks. -/
def assertion (step : Step Value) (index : Nat) (bindings : Bindings) :
    Except Misuse Assertion :=
  match step.param, step.enforce with
  | some name, _ =>
      bindings.param name
  | none, some args =>
      Assertion.ofArguments args
  | none, none =>
      .error (.noTarget index)

def run (step : Step Value) (index : Nat) (bindings : Bindings) : Episode Unit := do
  let a ← Episode.ofExcept (step.assertion index bindings)
  (if step.negate then a.negation else a).checkId step.check step.against

end Step

namespace Script

variable {α β : Type}

/-- A script with its values changed one by one. -/
def mapM {m : Type -> Type} [Monad m] (f : α -> m β) (script : Script α) : m (Script β) := do
  let policy ← script.policy.mapM f
  let checks ← script.checks.mapM (Step.mapM f)
  return ⟨policy, checks⟩

def map (f : α -> β) (script : Script α) : Script β :=
  ⟨script.policy.map f, script.checks.map (Step.map f)⟩

/-- The values of a script that was read, with new arrays and objects. -/
def load (script : Script Json) : Fresh (Script Value) :=
  script.mapM Value.ofJson

def toJson (script : Script Json) : Json :=
  .object ((match script.policy with
      | some selector =>
          [("policy", selector)]
      | none =>
          [])
    ++ [("checks", .array (script.checks.map Step.toJson))])

def record : Json.Shape.Record (Script Json) where
  name := "CheckScript"
  blank := ⟨none, []⟩
  fields := [
    ⟨"policy", false, fun room => do
      let policy ← Json.Shape.nullable Json.Shape.any room
      return fun s => { s with policy := policy }⟩,
    ⟨"checks", false, fun room => do
      let checks ← Json.Shape.list (Json.Shape.record Step.record) room
      return fun s => { s with checks := checks }⟩]

def read (text : String) : Except Json.ReadError (Script Json) :=
  Json.Shape.read (Json.Shape.record record) text

/-- The failure policy that a script selects. -/
def failurePolicy (script : Script Value) : Policy :=
  Policy.ofSelector (script.policy.getD .missing)

/-- Runs steps from an index on, up to the first error. -/
def runFrom (bindings : Bindings) : Nat -> List (Step Value) -> Episode Unit
  | _, [] =>
      pure ()
  | index, step :: rest => do
      step.run index bindings
      runFrom bindings (index + 1) rest

/-- Runs a script against the bindings of a call. -/
def apply (script : Script Value) (bindings : Bindings) : Episode Unit :=
  runFrom bindings 0 script.checks

/-- Runs a script on its own, without parameters. -/
def run (script : Script Value) : Episode Unit :=
  script.apply {}

end Script
end Contracts
