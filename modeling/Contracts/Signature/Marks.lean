import Contracts.Text.Alphabetic

/-!
# Marked text

A declaration is scanned once, from left to right.  Every character is marked with the number
of brackets that are open after it, or as standing inside a quoted run, where brackets do not
count.  The scan fails when brackets do not match or a quoted run does not end.

Round, square and curly brackets must match.  The sign `<` is a bracket only when glued to a
name, and `>` closes it unless it ends an arrow.  A `<` that is still open where another bracket
closes, or at the end, was a comparison: a lenient scan drops it, a strict one fails.

Double quotes and backticks open a quoted run.  A single quote does so only where a character
literal can stand, since it also marks lifetimes: before a backslash, or two characters before
another single quote.  Inside a quoted run a backslash takes the next character along.
-/

namespace Contracts
namespace Signature

/-- What a `<` means that is still open where another bracket closes, or at the end. -/
inductive Angles where
  /-- It was a comparison and is dropped. -/
  | lenient
  /-- It is an error. -/
  | strict
deriving DecidableEq

/-- A character with the number of brackets open after it; none inside a quoted run. -/
structure Mark where
  char : Char
  depth : Option Nat
deriving DecidableEq

/-- Whether the scan stands in code or in a quoted run. -/
inductive Place where
  | code
  | quoted (quote : Char)
  /-- In a quoted run, after a backslash. -/
  | escaped (quote : Char)
deriving DecidableEq

/-- Whether a character opens a quoted run, which the same character closes. -/
def opensQuote (c : Char) (rest : List Char) : Bool :=
  c == '"' || c == '\x60'
    || (c == '\'' && (rest.head? == some '\\' || rest.tail.head? == some '\''))

/-- Whether a `<` after this character opens a bracket. -/
def gluesAngle : Option Char -> Bool
  | none =>
      false
  | some c =>
      Text.isAlphanumeric c || c == '_' || c == ':'

/-- Whether a `>` after this character ends an arrow. -/
def endsArrow : Option Char -> Bool
  | none =>
      false
  | some c =>
      c == '-' || c == '='

/-- The opening bracket of a closing one; angles aside. -/
def opening? : Char -> Option Char
  | ')' =>
      some '('
  | ']' =>
      some '['
  | '\x7d' =>
      some '\x7b'
  | _ =>
      none

/-- The open brackets without the angles that stand innermost. -/
def dropAngles (stack : List Char) : List Char :=
  stack.dropWhile (· == '<')

/-- The open brackets where another bracket closes or the text ends. -/
def settle (angles : Angles) (stack : List Char) : List Char :=
  match angles with
  | .lenient =>
      dropAngles stack
  | .strict =>
      stack

/-- The open brackets, innermost first, after a character of code. -/
def bracket (angles : Angles) (previous : Option Char) (stack : List Char) (c : Char) :
    Option (List Char) :=
  match opening? c with
  | some o =>
      match settle angles stack with
      | [] =>
          none
      | top :: outer =>
          if top = o then some outer else none
  | none =>
      if c = '(' || c = '[' || c = '\x7b' then some (c :: stack)
      else if c = '<' then
        if gluesAngle previous then some (c :: stack) else some stack
      else if c = '>' then
        match stack with
        | '<' :: outer =>
            if endsArrow previous then some stack else some outer
        | _ =>
            some stack
      else some stack

/-- The marks of a text, scanned from a place with the character before it and the brackets
open there. -/
def scanFrom (angles : Angles) : Place -> Option Char -> List Char -> List Char ->
    Option (List Mark)
  | .code, _, stack, [] =>
      if settle angles stack = [] then some [] else none
  | .quoted _, _, _, [] =>
      none
  | .escaped _, _, _, [] =>
      none
  | .code, previous, stack, c :: rest =>
      if opensQuote c rest then
        (scanFrom angles (.quoted c) (some c) stack rest).map (⟨c, none⟩ :: ·)
      else
        match bracket angles previous stack c with
        | none =>
            none
        | some next =>
            (scanFrom angles .code (some c) next rest).map (⟨c, some next.length⟩ :: ·)
  | .quoted quote, _, stack, c :: rest =>
      let place :=
        if c = '\\' then .escaped quote else if c = quote then .code else .quoted quote
      (scanFrom angles place (some c) stack rest).map (⟨c, none⟩ :: ·)
  | .escaped quote, _, stack, c :: rest =>
      (scanFrom angles (.quoted quote) (some c) stack rest).map (⟨c, none⟩ :: ·)

def scan (angles : Angles) (text : List Char) : Option (List Mark) :=
  scanFrom angles .code none [] text

/-- Whether a mark is a given character of code at a given depth. -/
def Mark.isAt (c : Char) (depth : Nat) (m : Mark) : Bool :=
  m.char == c && m.depth == some depth

/-- The text of a list of marks. -/
def chars (marks : List Mark) : List Char :=
  marks.map Mark.char

theorem chars_scanFrom {angles : Angles} {text : List Char} :
    forall {place : Place} {previous : Option Char} {stack : List Char} {marks : List Mark},
      scanFrom angles place previous stack text = some marks -> chars marks = text := by
  induction text with
  | nil =>
      intro place previous stack marks h
      cases place with
      | code =>
          simp only [scanFrom] at h
          split at h
          · cases h
            rfl
          · cases h
      | quoted quote =>
          cases h
      | escaped quote =>
          cases h
  | cons c rest ih =>
      intro place previous stack marks h
      cases place with
      | code =>
          simp only [scanFrom] at h
          split at h
          · obtain ⟨tail, htail, rfl⟩ := Option.map_eq_some_iff.mp h
            have := ih htail
            simp only [chars, List.map_cons] at this ⊢
            rw [this]
          · split at h
            · cases h
            · obtain ⟨tail, htail, rfl⟩ := Option.map_eq_some_iff.mp h
              have := ih htail
              simp only [chars, List.map_cons] at this ⊢
              rw [this]
      | quoted quote =>
          simp only [scanFrom] at h
          obtain ⟨tail, htail, rfl⟩ := Option.map_eq_some_iff.mp h
          have := ih htail
          simp only [chars, List.map_cons] at this ⊢
          rw [this]
      | escaped quote =>
          simp only [scanFrom] at h
          obtain ⟨tail, htail, rfl⟩ := Option.map_eq_some_iff.mp h
          have := ih htail
          simp only [chars, List.map_cons] at this ⊢
          rw [this]

theorem chars_scan {angles : Angles} {text : List Char} {marks : List Mark}
    (h : scan angles text = some marks) : chars marks = text :=
  chars_scanFrom h

end Signature
end Contracts
