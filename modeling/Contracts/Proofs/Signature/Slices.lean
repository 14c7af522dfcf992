import Contracts.Proofs.Signature.Tokens

/-!
# Reading by slices

The parameters of a declaration are read here as slices of its text between the bytes of tokens:
the list between two brackets or bars, its pieces between commas, the head of a piece before a
colon or an equals sign, and the text before an arrow.  A slice is taken of the slice before it,
with bytes counted from where that one begins.

Such a reading could go wrong in two ways: with an error of the declaration, or with bytes that
are out of range or inside a character.  It never goes wrong in the second way, and its answer is
that of the reading that keeps the characters of a list together with their marks.
-/

namespace Contracts
namespace Signature

open String (utf8Len)
open Text (slice?)

/-- A reading that takes slices; it has no answer when one cannot be taken. -/
abbrev Slicing :=
  ExceptT SignatureError Option

/-- A reading all of whose slices can be taken. -/
def taken {α : Type} (result : Except SignatureError α) : Slicing α :=
  ExceptT.mk (some result)

theorem bind_eq_taken {α β : Type} {x : Slicing α} {result : Except SignatureError α}
    {f : α -> Slicing β} {g : α -> Except SignatureError β} (hx : x = taken result)
    (hf : forall a, result = .ok a -> f a = taken (g a)) :
    x >>= f = taken (result >>= g) := by
  subst hx
  cases result with
  | error e =>
      rfl
  | ok a =>
      exact hf a rfl

/-!
# Where the list stands
-/

/-- The bytes between which the parameter list of a closure stands. -/
def closureRange? (text : List Char) (tokens : List Token) : Option (Nat × Nat) :=
  if startsClosure text then do
    let (opening, after) ← seek? (Mark.isAt '|' 0) tokens
    let (closing, _) ← seek? (Mark.isAt '|' 0) after
    return (opening.index + 1, closing.index)
  else none

/-- The byte at which the first arrow of a text begins, when the text begins at a byte. -/
def findArrow? : Nat -> List Char -> Option Nat
  | _, [] =>
      none
  | index, c :: rest =>
      if c = '=' && rest.head? = some '>' then some index
      else findArrow? (index + c.utf8Size) rest

/-- The round bracket that opens the list, with the tokens behind it, when the first arrow does
not stand before it. -/
def openedAt? (arrow : Option Nat) (tokens : List Token) : Option (Token × List Token) :=
  (seek? (Mark.isAt '(' 1) tokens).filter fun found => arrow.all (found.1.index < ·)

/-- The single parameter in front of the first arrow, which begins at a byte. -/
def slicedArrow (text : List Char) : Option Nat -> Slicing Extent
  | some index => do
      arrowParameter text (← slice? text 0 index)
  | none =>
      throw (.noParameterList (String.ofList text))

/-- The parameters of a declaration that is no closure. -/
def slicedRound (text : List Char) (tokens : List Token) : Slicing Extent :=
  match openedAt? (findArrow? 0 text) tokens with
  | some (opening, after) =>
      match seek? (Mark.isAt ')' 0) after with
      | some (closing, _) => do
          return .list (← slice? text (opening.index + 1) closing.index)
      | none =>
          throw (.unbalanced (String.ofList text))
  | none =>
      slicedArrow text (findArrow? 0 text)

def slicedExtent (text : List Char) : Slicing Extent :=
  match tokens? .lenient text with
  | none =>
      throw (.unbalanced (String.ofList text))
  | some tokens =>
      match closureRange? text tokens with
      | some (start, stop) => do
          return .list (← slice? text start stop)
      | none =>
          slicedRound text tokens

/-!
# What a list binds
-/

/-- The pieces of a list from a byte on, between the commas among the tokens behind it. -/
def slicesFrom? (list : List Char) : Nat -> List Token -> Option (List (List Char))
  | start, [] => do
      let last ← slice? list start (utf8Len list)
      return [last]
  | start, t :: rest =>
      if t.mark.isAt ',' 0 then do
        let piece ← slice? list start t.index
        let pieces ← slicesFrom? list (t.index + 1) rest
        return piece :: pieces
      else slicesFrom? list start rest

def slicedPieces (list : List Char) : Slicing (List (List Char)) :=
  match tokens? .strict list with
  | none =>
      throw (.unbalanced (String.ofList list))
  | some tokens =>
      slicesFrom? list 0 tokens

/-- The byte at which the head of a piece ends. -/
def headStop (piece : List Char) (tokens : List Token) : Nat :=
  match seek? (fun m => m.isAt ':' 0 || m.isAt '=' 0) tokens with
  | some (t, _) =>
      t.index
  | none =>
      utf8Len piece

def slicedHead (piece : List Char) : Slicing (List Char) :=
  match tokens? .strict piece with
  | none =>
      throw (.unbalanced (String.ofList piece))
  | some tokens => do
      return Text.trim (← slice? piece 0 (headStop piece tokens))

def slicedName (piece : List Char) (position : Nat) : Slicing (Option (List Char)) := do
  let h ← slicedHead piece
  if isReceiver h then return none
  else if Text.isIdentifier (bound h) then return some (bound h)
  else throw (.unsupportedParameter position (String.ofList piece))

def slicedNamesFrom : Nat -> List (List Char) -> Slicing (List (List Char))
  | _, [] =>
      return []
  | position, piece :: rest => do
      let piece := Text.trim piece
      if piece.isEmpty then
        if rest.isEmpty then return []
        else throw (.unsupportedParameter position "")
      else
        let name ← slicedName piece position
        let names ← slicedNamesFrom (position + 1) rest
        return name.toList ++ names

/-- The names that the parameters of a declaration bind, read by slices. -/
def slicedNames (text : String) : Slicing (List String) := do
  match ← slicedExtent text.toList with
  | .single name =>
      return [String.ofList name]
  | .list list =>
      let names ← slicedNamesFrom 0 (← slicedPieces list)
      validate (names.map String.ofList)

/-!
# Finding
-/

theorem findArrow?_eq (index : Nat) (text : List Char) :
    findArrow? index text = (beforeArrow? text).map fun before => index + utf8Len before := by
  induction text generalizing index with
  | nil =>
      rfl
  | cons c rest ih =>
      rw [findArrow?, beforeArrow?]
      split
      · rfl
      · rw [ih, Option.map_map]
        congr 1
        funext before
        simp only [Function.comp_apply, String.utf8Len_cons]
        omega

theorem chars_of_cut? {marks before after : List Mark} {c : Char} {depth : Nat}
    (h : cut? (Mark.isAt c depth) marks = some (before, after)) :
    chars marks = chars before ++ c :: chars after := by
  rcases exists_of_cut? h with ⟨m, rfl, hm, _⟩
  rw [chars_append, isAt_iff.mp hm]
  rfl

/-- The characters between two marks at which a text is cut are the slice between their bytes. -/
theorem slice?_of_cuts {marks before after inside rest : List Mark} {c d : Char} {n k : Nat}
    (hc : c.utf8Size = 1) (hopening : cut? (Mark.isAt c n) marks = some (before, after))
    (hclosing : cut? (Mark.isAt d k) after = some (inside, rest)) :
    slice? (chars marks) (utf8Len (chars before) + 1)
      (utf8Len (chars before) + 1 + utf8Len (chars inside)) = some (chars inside) := by
  rw [chars_of_cut? hopening, chars_of_cut? hclosing]
  exact Text.slice?_behind hc _ _ _

/-- The bytes of the bars of a closure delimit its list. -/
theorem closureRange?_eq {text : List Char} {marks : List Mark} (hchars : chars marks = text) :
    (closureRange? text (tokensFrom 0 marks)).map (fun range => slice? text range.1 range.2) =
      (closureList? text marks).map some := by
  rw [closureRange?, closureList?, seek?_isAt]
  split
  · cases hopening : cut? (Mark.isAt '|' 0) marks with
    | none =>
        rfl
    | some parts =>
        simp only [Option.map_some, Option.bind_eq_bind, Option.bind_some, seek?_isAt]
        cases hclosing : cut? (Mark.isAt '|' 0) parts.2 with
        | none =>
            rfl
        | some parts' =>
            have hbar : '|'.utf8Size = 1 := by decide
            have hslice := slice?_of_cuts hbar hopening hclosing
            rw [hchars] at hslice
            simpa [hbar] using hslice
  · rfl

/-- An arrow stands before a round bracket when its byte does not come behind the bracket's. -/
theorem all_findArrow? {front rest : List Char} :
    (findArrow? 0 (front ++ '(' :: rest)).all (utf8Len front < ·) =
      !(beforeArrow? front).isSome := by
  rw [findArrow?_eq]
  cases hfront : beforeArrow? front with
  | some before =>
      rcases exists_of_beforeArrow? hfront with ⟨between, rfl⟩
      rw [beforeArrow?_append_of_some hfront]
      simp
  | none =>
      have hcut : front.getLast? ≠ some '=' ∨ ('(' :: rest).head? ≠ some '>' :=
        Or.inr (by simp)
      rw [beforeArrow?_append_of_none hfront hcut]
      cases hrest : beforeArrow? ('(' :: rest) with
      | none =>
          rfl
      | some before =>
          rcases exists_of_beforeArrow? hrest with ⟨behind, hbehind⟩
          cases before with
          | nil =>
              cases hbehind
          | cons c before =>
              have hpos := c.utf8Size_pos
              simp
              omega

/-- The tokens behind the round bracket that opens the list. -/
theorem openedAt?_eq (marks : List Mark) :
    openedAt? (findArrow? 0 (chars marks)) (tokensFrom 0 marks) =
      (cut? (Mark.isAt '(' 1) marks).bind fun parts =>
        if (beforeArrow? (chars parts.1)).isSome then none
        else some (⟨utf8Len (chars parts.1), '(', 1⟩,
          tokensFrom (utf8Len (chars parts.1) + 1) parts.2) := by
  rw [openedAt?, seek?_isAt]
  cases hcut : cut? (Mark.isAt '(' 1) marks with
  | none =>
      rfl
  | some parts =>
      have hround : '('.utf8Size = 1 := by decide
      rw [chars_of_cut? hcut, Option.map_some, Option.bind_some, Option.filter_some, hround]
      dsimp only
      rw [Nat.zero_add, all_findArrow?]
      cases (beforeArrow? (chars parts.1)).isSome <;> rfl

theorem slicedArrow_eq (text : List Char) :
    slicedArrow text (findArrow? 0 text) = taken (arrowExtent text) := by
  rw [findArrow?_eq, arrowExtent]
  cases hbefore : beforeArrow? text with
  | none =>
      rfl
  | some before =>
      rcases exists_of_beforeArrow? hbefore with ⟨rest, htext⟩
      have hslice : slice? text 0 (0 + utf8Len before) = some before := by
        rw [htext, Nat.zero_add]
        exact Text.slice?_front before _
      rw [Option.map_some, slicedArrow, hslice]
      rfl

theorem slicedRound_eq {text : List Char} {marks : List Mark} (hchars : chars marks = text)
    (hclosure : closureList? text marks = none) :
    slicedRound text (tokensFrom 0 marks) = taken (locate text marks) := by
  subst hchars
  rw [slicedRound, openedAt?_eq]
  cases hcut : cut? (Mark.isAt '(' 1) marks with
  | none =>
      have hnone : opened? marks = none := by rw [opened?, hcut]
      rw [locate_of_arrow hclosure hnone]
      exact slicedArrow_eq (chars marks)
  | some parts =>
      rw [Option.bind_some]
      cases harrow : (beforeArrow? (chars parts.1)).isSome with
      | true =>
          have hnone : opened? marks = none := by simp [opened?, hcut, harrow]
          rw [locate_of_arrow hclosure hnone]
          exact slicedArrow_eq (chars marks)
      | false =>
          have hafter : opened? marks = some parts.2 := by simp [opened?, hcut, harrow]
          rw [locate_of_opened hclosure hafter, if_neg Bool.false_ne_true]
          dsimp only
          rw [seek?_isAt]
          cases hclosing : cut? (Mark.isAt ')' 0) parts.2 with
          | none =>
              rfl
          | some parts' =>
              rw [Option.map_some]
              dsimp only
              rw [slice?_of_cuts (by decide) hcut hclosing]
              rfl

theorem slicedExtent_eq (text : List Char) : slicedExtent text = taken (extent text) := by
  cases hscan : scan .lenient text with
  | none =>
      rw [extent_of_scan_none hscan, slicedExtent, tokens?, hscan]
      rfl
  | some marks =>
      have hclosure := closureRange?_eq (chars_scan hscan)
      rw [extent_of_scan hscan, slicedExtent, tokens?, hscan, Option.map_some]
      dsimp only
      cases hlist : closureList? text marks with
      | some list =>
          rw [hlist] at hclosure
          rcases Option.map_eq_some_iff.mp hclosure with ⟨range, hrange, hslice⟩
          rw [hrange, locate_of_closure hlist]
          dsimp only
          rw [hslice]
          rfl
      | none =>
          rw [hlist] at hclosure
          rw [Option.map_eq_none_iff.mp hclosure]
          exact slicedRound_eq (chars_scan hscan) hlist

/-!
# Pieces and heads
-/

section

variable {list : List Char} {start index : Nat} {rest : List Mark}

theorem slicesFrom?_comma :
    slicesFrom? list start (tokensFrom index (⟨',', some 0⟩ :: rest)) =
      (slice? list start index).bind fun piece =>
        (slicesFrom? list (index + 1) (tokensFrom (index + 1) rest)).map (piece :: ·) := by
  have hcomma : ','.utf8Size = 1 := by decide
  rw [tokensFrom_code, slicesFrom?, hcomma, Token.mark, if_pos (isAt_iff.mpr rfl)]
  cases slice? list start index with
  | none =>
      rfl
  | some piece =>
      cases slicesFrom? list (index + 1) (tokensFrom (index + 1) rest) <;> rfl

theorem slicesFrom?_quiet {m : Mark} (hm : m.isAt ',' 0 = false) :
    slicesFrom? list start (tokensFrom index (m :: rest)) =
      slicesFrom? list start (tokensFrom (index + m.char.utf8Size) rest) := by
  rcases m with ⟨c, _ | depth⟩
  · rfl
  · rw [tokensFrom_code, slicesFrom?, Token.mark, if_neg (by simp [hm])]

end

/-- The slices between commas are the pieces, whatever part of the list has been passed: that up
to the last comma, and the marks behind it, which belong to the next piece. -/
theorem slicesFrom?_eq {list : List Char} (marks : List Mark) :
    forall {passed : List Char} {begun : List Mark},
      list = passed ++ chars (begun ++ marks) ->
      (forall m, m ∈ begun -> m.isAt ',' 0 = false) ->
      slicesFrom? list (utf8Len passed)
          (tokensFrom (utf8Len (passed ++ chars begun)) marks) =
        some ((Text.splitBy (Mark.isAt ',' 0) (begun ++ marks)).map chars) := by
  induction marks with
  | nil =>
      intro passed begun hlist hbegun
      rw [List.append_nil] at hlist ⊢
      have hslice := Text.slice?_append passed (chars begun) []
      rw [List.append_nil, ← hlist] at hslice
      rw [Text.splitBy_of_forall hbegun, tokensFrom_nil, slicesFrom?, hslice]
      rfl
  | cons m rest ih =>
      intro passed begun hlist hbegun
      cases hm : m.isAt ',' 0 with
      | true =>
          cases isAt_iff.mp hm
          have hslice := Text.slice?_append passed (chars begun) (chars (⟨',', some 0⟩ :: rest))
          rw [← chars_append, ← hlist] at hslice
          have hpassed : list = (passed ++ (chars begun ++ [','])) ++ chars ([] ++ rest) := by
            rw [hlist]
            simp [chars]
          have hsize : utf8Len (passed ++ (chars begun ++ [','])) =
              utf8Len (passed ++ chars begun) + 1 := by
            rw [← List.append_assoc, String.utf8Len_append]
            rfl
          have htail := ih hpassed (by simp)
          rw [show chars [] = [] from rfl, List.append_nil, hsize] at htail
          rw [slicesFrom?_comma, hslice, Option.bind_some, htail,
            Text.splitBy_append_cons hbegun hm]
          rfl
      | false =>
          have hmove : begun ++ m :: rest = (begun ++ [m]) ++ rest := by simp
          have hbegun' : forall n, n ∈ begun ++ [m] -> n.isAt ',' 0 = false := by
            intro n hn
            rcases List.mem_append.mp hn with hn | hn
            · exact hbegun n hn
            · rw [List.mem_singleton.mp hn]
              exact hm
          have hsize : utf8Len (passed ++ chars begun) + m.char.utf8Size =
              utf8Len (passed ++ chars (begun ++ [m])) := by
            simp [chars, Nat.add_assoc]
          rw [slicesFrom?_quiet hm, hsize, hmove]
          exact ih (hmove ▸ hlist) hbegun'

theorem slicedPieces_eq (list : List Char) : slicedPieces list = taken (pieces list) := by
  cases hscan : scan .strict list with
  | none =>
      rw [slicedPieces, pieces, tokens?, hscan]
      rfl
  | some marks =>
      have hlist : list = [] ++ chars ([] ++ marks) := (chars_scan hscan).symm
      have hslices : slicesFrom? list 0 (tokensFrom 0 marks) =
          some ((Text.splitBy (Mark.isAt ',' 0) marks).map chars) :=
        slicesFrom?_eq marks hlist (by simp)
      rw [slicedPieces, pieces, tokens?, hscan]
      dsimp only [Option.map_some]
      rw [hslices]
      rfl

theorem slice?_headStop (marks : List Mark) :
    slice? (chars marks) 0 (headStop (chars marks) (tokensFrom 0 marks)) =
      some (chars (marks.takeWhile fun m => !(m.isAt ':' 0 || m.isAt '=' 0))) := by
  rw [takeWhile_eq_cut?, headStop]
  cases hcut : cut? (fun m => m.isAt ':' 0 || m.isAt '=' 0) marks with
  | none =>
      rw [seek?_of_quiet (cut?_eq_none_iff.mp hcut)]
      have hslice := Text.slice?_front (chars marks) []
      rw [List.append_nil] at hslice
      exact hslice
  | some parts =>
      rcases exists_of_cut? hcut with ⟨m, hmarks, hm, hbefore⟩
      have hcode : exists c, m = ⟨c, some 0⟩ := by
        rw [Bool.or_eq_true, isAt_iff, isAt_iff] at hm
        rcases hm with hm | hm <;> exact ⟨_, hm⟩
      rcases hcode with ⟨c, rfl⟩
      rw [hmarks, seek?_append_cons hbefore hm]
      dsimp only
      rw [Nat.zero_add, chars_append]
      exact Text.slice?_front _ _

theorem slicedHead_eq (piece : List Char) : slicedHead piece = taken (head piece) := by
  cases hscan : scan .strict piece with
  | none =>
      rw [slicedHead, head, tokens?, hscan]
      rfl
  | some marks =>
      have hslice := slice?_headStop marks
      rw [chars_scan hscan] at hslice
      rw [slicedHead, head, tokens?, hscan]
      dsimp only [Option.map_some]
      rw [hslice]
      rfl

theorem slicedName_eq (piece : List Char) (position : Nat) :
    slicedName piece position = taken (parameterName piece position) := by
  apply bind_eq_taken (slicedHead_eq piece)
  intro h _
  split
  · rfl
  · split <;> rfl

theorem slicedNamesFrom_eq (parts : List (List Char)) :
    forall position, slicedNamesFrom position parts = taken (namesFrom position parts) := by
  induction parts with
  | nil =>
      intro position
      rfl
  | cons piece rest ih =>
      intro position
      rw [slicedNamesFrom, namesFrom]
      split
      · split <;> rfl
      · apply bind_eq_taken (slicedName_eq _ _)
        intro name _
        apply bind_eq_taken (ih _)
        intro names _
        rfl

/-- Every slice that the reading of a declaration takes stands within its text and between
characters, and the answer is the same as without slices. -/
theorem slicedNames_eq (text : String) : slicedNames text = taken (parameterNames text) := by
  apply bind_eq_taken (slicedExtent_eq text.toList)
  intro e _
  cases e with
  | single name =>
      rfl
  | list list =>
      apply bind_eq_taken (slicedPieces_eq list)
      intro parts _
      apply bind_eq_taken (slicedNamesFrom_eq parts 0)
      intro names _
      rfl

end Signature
end Contracts
