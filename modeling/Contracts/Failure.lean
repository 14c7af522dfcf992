import Contracts.Binary64.Decimal

/-!
# Failures

What a check, a specification or a guarded call can fail with: a violated contract, a misuse of
the checks, or a declaration whose parameter names cannot be recovered.  Each is a cause; its
wording is in the function `message`.
-/

namespace Contracts

/-- A failed check that was raised. -/
inductive Violation where
  | general (message : String)
  | precondition (message : String)
deriving DecidableEq

/-- The description of the failing report. -/
def Violation.message : Violation -> String
  | general message =>
      message
  | precondition message =>
      message

/-- The description of the failing precondition. -/
def Violation.precondition? : Violation -> Option String
  | general _ =>
      none
  | precondition message =>
      some message

/-- A misuse of the checks, which says nothing about the values checked. -/
inductive Misuse where
  | missingValue
  | noSuchCheck (id : String)
  | unknownParameter (name : String)
  /-- A step of a script names neither a parameter nor a value. -/
  | noTarget (index : Nat)
deriving DecidableEq

def Misuse.message : Misuse -> String
  | missingValue =>
      "a value is required"
  | noSuchCheck id =>
      "no such check: '" ++ id ++ "'"
  | unknownParameter name =>
      "unknown parameter: '" ++ name ++ "'"
  | noTarget index =>
      "step " ++ String.ofList (Decimal.digits index) ++ " has no target"

/-- Why the parameter names of a declaration cannot be recovered. -/
inductive SignatureError where
  | noParameterList (text : String)
  | unbalanced (text : String)
  /-- A parameter that binds no single name. -/
  | unsupportedParameter (position : Nat) (text : String)
  | invalidName (name : String)
  | duplicateName (name : String)
deriving DecidableEq

def SignatureError.message : SignatureError -> String
  | noParameterList text =>
      "no parameter list found in '" ++ text ++ "'"
  | unbalanced text =>
      "unbalanced delimiters in '" ++ text ++ "'"
  | unsupportedParameter position text =>
      "unsupported parameter at position " ++ String.ofList (Decimal.digits position)
        ++ ": '" ++ text ++ "'"
  | invalidName name =>
      "invalid parameter name: '" ++ name ++ "'"
  | duplicateName name =>
      "duplicate parameter name: '" ++ name ++ "'"

/-- What a specification or a guarded call fails with. -/
inductive Failure where
  | violation (v : Violation)
  | misuse (m : Misuse)
  | signature (e : SignatureError)
deriving DecidableEq

namespace Failure

def message : Failure -> String
  | violation v =>
      v.message
  | misuse m =>
      m.message
  | signature e =>
      e.message

/-- Whether a check failed, rather than the checks were misused. -/
def isViolation : Failure -> Bool
  | violation _ =>
      true
  | _ =>
      false

/-- The description of the failing precondition. -/
def precondition? : Failure -> Option String
  | violation v =>
      v.precondition?
  | _ =>
      none

end Failure

/-- A parameter that a specification took for granted and the function does not declare. -/
structure Unbound where
  name : String
deriving DecidableEq

/-- The wording of an unbound parameter, which is that of the misuse. -/
def Unbound.message (u : Unbound) : String :=
  (Misuse.unknownParameter u.name).message

end Contracts
