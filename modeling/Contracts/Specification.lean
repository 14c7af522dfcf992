import Contracts.Script

/-!
# Specifications

A specification checks the bindings of a call.  It ends early at a failure, or when it takes a
parameter for granted that the function does not declare.

Any computation on the bindings is a specification.  Two kinds are given as data: scripts, and
lists of rules, where a rule checks one value in one way and may let the error of its check
pass.
-/

namespace Contracts

/-- Why a specification ended early. -/
inductive Interruption where
  | failure (f : Failure)
  | unbound (u : Unbound)
deriving DecidableEq

/-- Computations of a specification. -/
abbrev Enforcement := EStateM Interruption Session

/-- A specification of the calls of a function. -/
abbrev Specification := Bindings -> Enforcement Unit

namespace Enforcement

variable {α : Type}

/-- An episode as part of a specification. -/
def ofEpisode (e : Episode α) : Enforcement α := fun session =>
  match e session with
  | .ok x next =>
      .ok x next
  | .error f next =>
      .error (.failure f) next

/-- A look-up that may misuse the bindings. -/
def ofMisuse : Except Misuse α -> Enforcement α
  | .ok x =>
      pure x
  | .error m =>
      throw (.failure (.misuse m))

/-- A look-up of a parameter that is taken for granted. -/
def ofUnbound : Except Unbound α -> Enforcement α
  | .ok x =>
      pure x
  | .error u =>
      throw (.unbound u)

/-- Runs a computation and goes on in the session it leaves, whether it failed or not. -/
def swallowing (e : Enforcement Unit) : Enforcement Unit := fun session =>
  match e session with
  | .ok () next =>
      .ok () next
  | .error _ next =>
      .ok () next

end Enforcement

/-- A script as a specification. -/
def Script.specification (script : Script Value) : Specification := fun bindings =>
  Enforcement.ofEpisode (script.apply bindings)

/-- What a rule checks. -/
inductive Target where
  | param (name : String)
  /-- A parameter that is taken for granted. -/
  | index (name : String)
  | value (v : Value)
  | named (name : String) (v : Value)
  /-- The number of characters of a parameter, under the name `length`. -/
  | lengthOf (name : String)
  /-- A list of arguments: the value, or its description and the value. -/
  | arguments (args : List Value)

inductive Question where
  /-- A predicate; those that compare take the target. -/
  | predicate (p : Predicate) (target : Value)
  | named (id : String) (against : Option Value)

/-- One check of a specification. -/
structure Rule where
  target : Target
  negated : Bool
  question : Question
  /-- Whether an error of the check lets the specification go on. -/
  swallow : Bool

/-- The assertion over the target of a rule. -/
def Target.assertion (target : Target) (bindings : Bindings) : Enforcement Assertion :=
  match target with
  | .param name =>
      Enforcement.ofMisuse (bindings.param name)
  | .index name =>
      Enforcement.ofUnbound (bindings.index name)
  | .value v =>
      return { value := v }
  | .named name v =>
      return { value := v, name := name }
  | .lengthOf name => do
      let a ← Enforcement.ofMisuse (bindings.param name)
      return { value := .int (Int64.ofNat a.value.display.length), name := "length" }
  | .arguments args =>
      Enforcement.ofMisuse (Assertion.ofArguments args)

def Question.ask (question : Question) (a : Assertion) : Episode Unit :=
  match question with
  | .predicate .equals target =>
      a.equals target
  | .predicate .lessThan target =>
      a.lessThan target
  | .predicate .moreThan target =>
      a.moreThan target
  | .predicate .present _ =>
      a.present
  | .predicate .nulled _ =>
      a.nulled
  | .predicate .falsy _ =>
      a.falsy
  | .predicate .truthy _ =>
      a.truthy
  | .named id against =>
      a.checkId id against

def Rule.run (rule : Rule) (bindings : Bindings) : Enforcement Unit := do
  let a ← rule.target.assertion bindings
  let check := Enforcement.ofEpisode
    (rule.question.ask (if rule.negated then a.negation else a))
  if rule.swallow then Enforcement.swallowing check else check

/-- The specification of a list of rules, in order. -/
def Specification.ofRules : List Rule -> Specification
  | [], _ =>
      pure ()
  | rule :: rest, bindings => do
      rule.run bindings
      Specification.ofRules rest bindings

end Contracts
