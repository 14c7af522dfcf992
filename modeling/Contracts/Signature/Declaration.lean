import Contracts.Failure
import Contracts.Signature.Marks
import Contracts.Text.Blank
import Contracts.Text.Identifier

/-!
# Declarations

The parameter names of a function, recovered from the text of its declaration.  Three forms are
read: a closure with its parameters between bars, a parameter list in round brackets, and an
arrow after a single name.  The body of the function may follow; it is never looked into.

Recovery never guesses: a parameter that does not bind exactly one name is an error, and so is
a name that is bound twice.
-/

namespace Contracts
namespace Signature

/-- The parts of a list before and after the first element that satisfies a condition. -/
def cut? {α : Type} (p : α -> Bool) : List α -> Option (List α × List α)
  | [] =>
      none
  | x :: rest =>
      if p x then some ([], rest)
      else (cut? p rest).map fun parts => (x :: parts.1, parts.2)

/-- A text without a word at its start, if it starts with that word. -/
def dropWord (word text : List Char) : List Char :=
  if word.isPrefixOf text then text.drop word.length else text

/-- The text before the first arrow `=>`. -/
def beforeArrow? : List Char -> Option (List Char)
  | [] =>
      none
  | c :: rest =>
      if c = '=' && rest.head? = some '>' then some []
      else (beforeArrow? rest).map (c :: ·)

/-! ## Where the list stands -/

/-- Whether a text starts as a closure: with a bar, possibly after `move`. -/
def startsClosure (text : List Char) : Bool :=
  let rest := dropWord ['m', 'o', 'v', 'e'] (Text.trimStart text)
  (Text.trimStart rest).head? == some '|'

/-- The parameter list of a closure, between the first two bars outside brackets. -/
def closureList? (text : List Char) (marks : List Mark) : Option (List Char) :=
  if startsClosure text then do
    let (_, after) ← cut? (Mark.isAt '|' 0) marks
    let (inside, _) ← cut? (Mark.isAt '|' 0) after
    return chars inside
  else none

/-- What of a declaration tells its parameters: a list, or a single name before an arrow. -/
inductive Extent where
  | list (text : List Char)
  | single (name : List Char)
deriving DecidableEq

/-- The single parameter before an arrow, which is the last word there. -/
def arrowParameter (text before : List Char) : Except SignatureError Extent :=
  match (Text.words before).getLast? with
  | some name =>
      if Text.isIdentifier name then .ok (.single name)
      else .error (.noParameterList (String.ofList text))
  | none =>
      .error (.noParameterList (String.ofList text))

/-- The parameters of a declaration.  A round bracket opens their list when no arrow stands
before it. -/
def extent (text : List Char) : Except SignatureError Extent :=
  match scan .lenient text with
  | none =>
      .error (.unbalanced (String.ofList text))
  | some marks =>
      match closureList? text marks with
      | some list =>
          .ok (.list list)
      | none =>
          let arrow :=
            match beforeArrow? text with
            | some before =>
                arrowParameter text before
            | none =>
                .error (.noParameterList (String.ofList text))
          match cut? (Mark.isAt '(' 1) marks with
          | none =>
              arrow
          | some (before, after) =>
              if (beforeArrow? (chars before)).isSome then arrow
              else
                match cut? (Mark.isAt ')' 0) after with
                | some (inside, _) =>
                    .ok (.list (chars inside))
                | none =>
                    .error (.unbalanced (String.ofList text))

/-! ## What a list binds -/

/-- The parameters of a list: its parts between the commas outside brackets. -/
def pieces (list : List Char) : Except SignatureError (List (List Char)) :=
  match scan .strict list with
  | some marks =>
      .ok ((Text.splitBy (Mark.isAt ',' 0) marks).map chars)
  | none =>
      .error (.unbalanced (String.ofList list))

/-- The part of a parameter before its type and its default. -/
def head (piece : List Char) : Except SignatureError (List Char) :=
  match scan .strict piece with
  | some marks =>
      let stops := fun (m : Mark) => m.isAt ':' 0 || m.isAt '=' 0
      .ok (Text.trim (chars (marks.takeWhile fun m => !stops m)))
  | none =>
      .error (.unbalanced (String.ofList piece))

/-- Whether a head is a receiver: `self`, with references, lifetimes and `mut` before it. -/
def isReceiver (head : List Char) : Bool :=
  let parts := Text.splitBy (fun c => c == '&' || Text.isBlank c) head
  let named := parts.filter fun w =>
    !w.isEmpty && w != ['m', 'u', 't'] && w.head? != some '\''
  named == [['s', 'e', 'l', 'f']]

/-- The name that a head binds, without the modifiers around it. -/
def bound (head : List Char) : List Char :=
  let rest := Text.trimStart (dropWord ['.', '.', '.'] head)
  let rest := Text.trimStart (dropWord ['r', 'e', 'f', ' '] rest)
  let rest := Text.trimStart (dropWord ['m', 'u', 't', ' '] rest)
  if rest.getLast? = some '?' then rest.dropLast else rest

/-- The name of a parameter; a receiver has none. -/
def parameterName (piece : List Char) (position : Nat) :
    Except SignatureError (Option (List Char)) := do
  let h ← head piece
  if isReceiver h then return none
  else if Text.isIdentifier (bound h) then return some (bound h)
  else throw (.unsupportedParameter position (String.ofList piece))

/-- The names of the parameters from a position on.  Nothing may stand after a last comma. -/
def namesFrom : Nat -> List (List Char) -> Except SignatureError (List (List Char))
  | _, [] =>
      return []
  | position, piece :: rest => do
      let piece := Text.trim piece
      if piece.isEmpty then
        if rest.isEmpty then return []
        else throw (.unsupportedParameter position "")
      else
        let name ← parameterName piece position
        let names ← namesFrom (position + 1) rest
        return name.toList ++ names

/-- Whether names are identifiers and differ from each other and from those seen before. -/
def validateFrom (seen : List String) : List String -> Except SignatureError Unit
  | [] =>
      return ()
  | name :: rest =>
      if !Text.isIdentifier name.toList then .error (.invalidName name)
      else if seen.contains name then .error (.duplicateName name)
      else validateFrom (name :: seen) rest

/-- Names that are identifiers and differ. -/
def validate (names : List String) : Except SignatureError (List String) := do
  validateFrom [] names
  return names

/-- The names that the parameters of a declaration bind, in order. -/
def parameterNames (text : String) : Except SignatureError (List String) := do
  match ← extent text.toList with
  | .single name =>
      return [String.ofList name]
  | .list list =>
      let names ← namesFrom 0 (← pieces list)
      validate (names.map String.ofList)

end Signature

/-- Where the parameter names of a function come from. -/
inductive Signature where
  | declared (text : String)
  | listed (names : List String)
  /-- A reader of its own, by its answer. -/
  | answered (answer : Except SignatureError (List String))

def Signature.names : Signature -> Except SignatureError (List String)
  | declared text =>
      parameterNames text
  | listed names =>
      validate names
  | answered answer =>
      answer

end Contracts
