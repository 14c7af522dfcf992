import Contracts.Proofs.Signature.QuotedRuns
import Contracts.Proofs.Text.Offsets

/-!
# Tokens

The characters of code of a scanned text, each with the byte at which it begins.  Marks say the
same with all characters of the text in their places; so what is found among the marks is found
among the tokens, and the bytes of the tokens are those of the text between the marks.
-/

namespace Contracts
namespace Signature

open String (utf8Len)

/-- A character of code, the byte at which it begins and the number of brackets open after it. -/
structure Token where
  index : Nat
  char : Char
  depth : Nat
deriving DecidableEq

def Token.mark (t : Token) : Mark :=
  ⟨t.char, some t.depth⟩

/-- The tokens of marked text that begins at a byte. -/
def tokensFrom : Nat -> List Mark -> List Token
  | _, [] =>
      []
  | index, m :: rest =>
      let behind := tokensFrom (index + m.char.utf8Size) rest
      match m.depth with
      | some depth =>
          ⟨index, m.char, depth⟩ :: behind
      | none =>
          behind

def tokens? (angles : Angles) (text : List Char) : Option (List Token) :=
  (scan angles text).map (tokensFrom 0)

@[simp] theorem tokensFrom_nil (index : Nat) : tokensFrom index [] = [] := rfl

theorem tokensFrom_code (index : Nat) (c : Char) (depth : Nat) (rest : List Mark) :
    tokensFrom index (⟨c, some depth⟩ :: rest) =
      ⟨index, c, depth⟩ :: tokensFrom (index + c.utf8Size) rest := rfl

/-- The first token whose mark satisfies a condition, and the tokens after it. -/
def seek? (p : Mark -> Bool) : List Token -> Option (Token × List Token)
  | [] =>
      none
  | t :: rest =>
      if p t.mark then some (t, rest) else seek? p rest

section

variable {p : Mark -> Bool}

theorem seek?_cons_quiet {index : Nat} {m : Mark} {rest : List Mark} (hm : p m = false) :
    seek? p (tokensFrom index (m :: rest)) =
      seek? p (tokensFrom (index + m.char.utf8Size) rest) := by
  rcases m with ⟨c, _ | depth⟩
  · rfl
  · simp [tokensFrom_code, seek?, Token.mark, hm]

theorem seek?_of_quiet {marks : List Mark} (h : forall m, m ∈ marks -> p m = false)
    (index : Nat) : seek? p (tokensFrom index marks) = none := by
  induction marks generalizing index with
  | nil =>
      rfl
  | cons m rest ih =>
      rcases List.forall_mem_cons.mp h with ⟨hm, hrest⟩
      rw [seek?_cons_quiet hm, ih hrest]

/-- The first mark of code that satisfies a condition is the token that is found, at the byte
behind the characters in front of it. -/
theorem seek?_append_cons {before : List Mark} (hbefore : forall m, m ∈ before -> p m = false)
    {c : Char} {depth : Nat} (hc : p ⟨c, some depth⟩ = true) (after : List Mark) (index : Nat) :
    seek? p (tokensFrom index (before ++ ⟨c, some depth⟩ :: after)) =
      some (⟨index + utf8Len (chars before), c, depth⟩,
        tokensFrom (index + utf8Len (chars before) + c.utf8Size) after) := by
  induction before generalizing index with
  | nil =>
      simp [tokensFrom_code, seek?, Token.mark, hc, chars]
  | cons m before ih =>
      rcases List.forall_mem_cons.mp hbefore with ⟨hm, hbefore'⟩
      have hsize : index + utf8Len (chars (m :: before)) =
          index + m.char.utf8Size + utf8Len (chars before) := by
        simp only [chars, List.map_cons, String.utf8Len_cons]
        omega
      rw [List.cons_append, seek?_cons_quiet hm, ih hbefore', hsize]

/-- What is cut at a mark of a given character of code is found at that character. -/
theorem seek?_isAt {c : Char} {depth : Nat} (marks : List Mark) (index : Nat) :
    seek? (Mark.isAt c depth) (tokensFrom index marks) =
      (cut? (Mark.isAt c depth) marks).map fun parts =>
        (⟨index + utf8Len (chars parts.1), c, depth⟩,
          tokensFrom (index + utf8Len (chars parts.1) + c.utf8Size) parts.2) := by
  cases hcut : cut? (Mark.isAt c depth) marks with
  | none =>
      exact seek?_of_quiet (cut?_eq_none_iff.mp hcut) index
  | some parts =>
      rcases exists_of_cut? hcut with ⟨m, rfl, hm, hbefore⟩
      cases isAt_iff.mp hm
      exact seek?_append_cons hbefore hm parts.2 index

end

end Signature
end Contracts
