import Contracts.Proofs.Signature.Forms

/-!
# Where a declaration keeps its parameters

The search for the parameters of a declaration is taken apart here.  It cuts the marks at the
first bar, at the first round bracket and at the bracket that closes it, and the text at its
first arrow.  Each cut is described by what it does to a composed list, so that later modules
can follow the search through a declaration that has more text behind it or inside it.
-/

namespace Contracts
namespace Signature

/-!
# Cutting
-/

section

variable {α : Type} {p : α -> Bool}

theorem cut?_eq_none_iff {list : List α} :
    cut? p list = none <-> forall x, x ∈ list -> p x = false := by
  induction list with
  | nil =>
      simp [cut?]
  | cons x rest ih =>
      cases hx : p x with
      | true =>
          simp [cut?, hx]
      | false =>
          simp [cut?, hx, ih]

theorem exists_of_cut? {list before after : List α} (h : cut? p list = some (before, after)) :
    exists x, list = before ++ x :: after ∧ p x = true ∧
      forall y, y ∈ before -> p y = false := by
  induction list generalizing before with
  | nil =>
      cases h
  | cons y rest ih =>
      rw [cut?] at h
      split at h
      · rename_i hy
        cases h
        exact ⟨y, rfl, hy, by simp⟩
      · rename_i hy
        rcases Option.map_eq_some_iff.mp h with ⟨⟨before', after'⟩, hcut, heq⟩
        cases heq
        rcases ih hcut with ⟨x, rfl, hx, hbefore⟩
        refine ⟨x, rfl, hx, List.forall_mem_cons.mpr ⟨?_, hbefore⟩⟩
        simpa using hy

theorem cut?_append_of_some {front before after : List α}
    (h : cut? p front = some (before, after)) (back : List α) :
    cut? p (front ++ back) = some (before, after ++ back) := by
  rcases exists_of_cut? h with ⟨x, rfl, hx, hbefore⟩
  rw [List.append_assoc, List.cons_append]
  exact cut?_append_cons hbefore hx (after ++ back)

theorem cut?_append_of_none {front : List α} (h : cut? p front = none) (back : List α) :
    cut? p (front ++ back) = (cut? p back).map fun parts => (front ++ parts.1, parts.2) := by
  cases hback : cut? p back with
  | none =>
      apply cut?_eq_none_iff.mpr
      intro x hx
      rcases List.mem_append.mp hx with hx | hx
      · exact cut?_eq_none_iff.mp h x hx
      · exact cut?_eq_none_iff.mp hback x hx
  | some parts =>
      rcases exists_of_cut? hback with ⟨x, rfl, hx, hbefore⟩
      have hfront : forall y, y ∈ front ++ parts.1 -> p y = false := by
        intro y hy
        rcases List.mem_append.mp hy with hy | hy
        · exact cut?_eq_none_iff.mp h y hy
        · exact hbefore y hy
      rw [← List.append_assoc]
      exact cut?_append_cons hfront hx parts.2

/-- A part behind a list that is nowhere cut stays behind. -/
theorem cut?_append_quiet {back : List α} (hback : forall y, y ∈ back -> p y = false)
    (front : List α) :
    cut? p (front ++ back) = (cut? p front).map fun parts => (parts.1, parts.2 ++ back) := by
  cases hfront : cut? p front with
  | none =>
      rw [cut?_append_of_none hfront, cut?_eq_none_iff.mpr hback]
      rfl
  | some parts =>
      exact cut?_append_of_some hfront back

end

/-!
# Arrows

No arrow goes over the end of a text into another one unless it is cut in two there.
-/

theorem exists_of_beforeArrow? {text before : List Char} (h : beforeArrow? text = some before) :
    exists rest, text = before ++ '=' :: rest := by
  induction text generalizing before with
  | nil =>
      cases h
  | cons c text ih =>
      rw [beforeArrow?] at h
      split at h
      · rename_i harrow
        cases h
        simp only [Bool.and_eq_true, decide_eq_true_eq] at harrow
        exact ⟨text, by rw [harrow.1, List.nil_append]⟩
      · rcases Option.map_eq_some_iff.mp h with ⟨before', hbefore, rfl⟩
        rcases ih hbefore with ⟨rest, rfl⟩
        exact ⟨rest, rfl⟩

theorem beforeArrow?_append_of_some {text before : List Char} (h : beforeArrow? text = some before)
    (rest : List Char) : beforeArrow? (text ++ rest) = some before := by
  induction text generalizing before with
  | nil =>
      cases h
  | cons c text ih =>
      cases text with
      | nil =>
          simp [beforeArrow?] at h
      | cons d text =>
          rw [beforeArrow?, List.head?_cons] at h
          rw [List.cons_append, List.cons_append, beforeArrow?, List.head?_cons]
          split at h
          · rename_i harrow
            rw [if_pos harrow]
            exact h
          · rename_i hnone
            rcases Option.map_eq_some_iff.mp h with ⟨before', hbefore, rfl⟩
            rw [if_neg hnone, ← List.cons_append, ih hbefore]
            rfl

theorem beforeArrow?_append_of_none {front : List Char} (h : beforeArrow? front = none)
    {rest : List Char} (hcut : front.getLast? ≠ some '=' ∨ rest.head? ≠ some '>') :
    beforeArrow? (front ++ rest) = (beforeArrow? rest).map (front ++ ·) := by
  induction front with
  | nil =>
      simp
  | cons c front ih =>
      rw [beforeArrow?] at h
      split at h
      · cases h
      · rename_i hnone
        have hnone' : ¬ (decide (c = '=') && decide ((front ++ rest).head? = some '>')) = true := by
          cases front with
          | nil =>
              rcases hcut with hlast | hhead
              · have hc : c ≠ '=' := by simpa using hlast
                simp [hc]
              · simp [hhead]
          | cons d front =>
              exact hnone
        have hcut' : front.getLast? ≠ some '=' ∨ rest.head? ≠ some '>' := by
          cases front with
          | nil =>
              exact Or.inl (by simp)
          | cons d front =>
              rw [List.getLast?_cons_cons] at hcut
              exact hcut
        rw [List.cons_append, beforeArrow?, if_neg hnone',
          ih (Option.map_eq_none_iff.mp h) hcut', Option.map_map]
        rfl

/-!
# Closures

Whether a text starts as a closure is decided before the first character that is neither blank
nor a letter.
-/

/-- A step of reading a text from its start that stops before a character. -/
def StopsBefore (c : Char) (f : List Char -> List Char) : Prop :=
  forall front, exists kept, forall rest, f (front ++ c :: rest) = kept ++ c :: rest

theorem stopsBefore_trimStart {c : Char} (hc : Text.isBlank c = false) :
    StopsBefore c Text.trimStart := by
  intro front
  induction front with
  | nil =>
      exact ⟨[], fun rest => Text.trimStart_cons hc rest⟩
  | cons d front ih =>
      cases hd : Text.isBlank d with
      | true =>
          rcases ih with ⟨kept, hkept⟩
          refine ⟨kept, fun rest => ?_⟩
          rw [← hkept rest]
          simp [Text.trimStart, hd]
      | false =>
          exact ⟨d :: front, fun rest => Text.trimStart_cons hd (front ++ c :: rest)⟩

theorem prefix_of_prefix_append {word front rest : List Char} {c : Char} (hc : c ∉ word)
    (h : word <+: front ++ c :: rest) : word <+: front := by
  rcases Nat.lt_or_ge front.length word.length with hlong | hshort
  · -- A longer word would go through the character.
    have hmore : front ++ [c] <+: front ++ c :: rest := ⟨rest, by simp⟩
    have hlength : (front ++ [c]).length ≤ word.length := by
      rw [List.length_append]
      exact hlong
    have hsub := List.prefix_of_prefix_length_le hmore h hlength
    exact absurd (hsub.subset (by simp)) hc
  · exact List.prefix_of_prefix_length_le h (List.prefix_append _ _) hshort

theorem stopsBefore_dropWord {c : Char} {word : List Char} (hc : c ∉ word) :
    StopsBefore c (dropWord word) := by
  intro front
  by_cases hword : word <+: front
  · refine ⟨front.drop word.length, fun rest => ?_⟩
    have hprefix : word <+: front ++ c :: rest := hword.trans (List.prefix_append _ _)
    rw [dropWord, if_pos (List.isPrefixOf_iff_prefix.mpr hprefix),
      List.drop_append_of_le_length hword.length_le]
  · refine ⟨front, fun rest => ?_⟩
    have hprefix : ¬ word <+: front ++ c :: rest :=
      fun h => hword (prefix_of_prefix_append hc h)
    rw [dropWord, if_neg fun h => hprefix (List.isPrefixOf_iff_prefix.mp h)]

theorem startsClosure_congr {c : Char} (hblank : Text.isBlank c = false)
    (hword : c ∉ ['m', 'o', 'v', 'e']) (front rest rest' : List Char) :
    startsClosure (front ++ c :: rest) = startsClosure (front ++ c :: rest') := by
  rcases stopsBefore_trimStart hblank front with ⟨first, hfirst⟩
  rcases stopsBefore_dropWord hword first with ⟨second, hsecond⟩
  rcases stopsBefore_trimStart hblank second with ⟨third, hthird⟩
  have hread : forall back, startsClosure (front ++ c :: back) =
      ((third ++ c :: back).head? == some '|') := by
    intro back
    rw [startsClosure, hfirst, hsecond, hthird]
  have hhead : (third ++ c :: rest).head? = (third ++ c :: rest').head? := by
    cases third <;> rfl
  rw [hread, hread, hhead]

/-!
# The search
-/

/-- The parameter of a declaration that is read by its first arrow. -/
def arrowExtent (text : List Char) : Except SignatureError Extent :=
  match beforeArrow? text with
  | some before =>
      arrowParameter text before
  | none =>
      .error (.noParameterList (String.ofList text))

theorem toOption_eq_some_iff {ε α : Type} {result : Except ε α} {x : α} :
    result.toOption = some x <-> result = .ok x := by
  cases result with
  | error e =>
      simp [Except.toOption]
  | ok y =>
      simp [Except.toOption]

/-- Of the text before an arrow only the last word counts. -/
theorem toOption_arrowParameter (text before : List Char) :
    (arrowParameter text before).toOption =
      ((Text.words before).getLast?.filter Text.isIdentifier).map Extent.single := by
  unfold arrowParameter
  cases (Text.words before).getLast? with
  | none =>
      rfl
  | some name =>
      cases hname : Text.isIdentifier name with
      | true =>
          simp [hname, Except.toOption, Option.filter]
      | false =>
          simp [hname, Except.toOption, Option.filter]

theorem arrowParameter_of_ok {text before : List Char} {e : Extent}
    (h : arrowParameter text before = .ok e) (other : List Char) :
    arrowParameter other before = .ok e := by
  rw [← toOption_eq_some_iff, toOption_arrowParameter] at h ⊢
  exact h

/-- What follows the round bracket that opens the list, when no arrow stands before it. -/
def opened? (marks : List Mark) : Option (List Mark) :=
  match cut? (Mark.isAt '(' 1) marks with
  | some (before, after) =>
      if (beforeArrow? (chars before)).isSome then none else some after
  | none =>
      none

theorem exists_cut_of_opened? {marks after : List Mark} (h : opened? marks = some after) :
    exists before, cut? (Mark.isAt '(' 1) marks = some (before, after) := by
  unfold opened? at h
  split at h
  · rename_i before rest hcut
    split at h
    · cases h
    · cases h
      exact ⟨before, hcut⟩
  · cases h

/-- The parameters of a declaration with its marks. -/
def locate (text : List Char) (marks : List Mark) : Except SignatureError Extent :=
  match closureList? text marks with
  | some list =>
      .ok (.list list)
  | none =>
      match opened? marks with
      | none =>
          arrowExtent text
      | some after =>
          match cut? (Mark.isAt ')' 0) after with
          | some (inside, _) =>
              .ok (.list (chars inside))
          | none =>
              .error (.unbalanced (String.ofList text))

theorem extent_of_scan_none {text : List Char} (h : scan .lenient text = none) :
    extent text = .error (.unbalanced (String.ofList text)) := by
  simp [extent, h]

theorem extent_of_scan {text : List Char} {marks : List Mark}
    (h : scan .lenient text = some marks) : extent text = locate text marks := by
  unfold extent locate opened?
  rw [h]
  dsimp only
  cases closureList? text marks with
  | some list =>
      rfl
  | none =>
      cases cut? (Mark.isAt '(' 1) marks with
      | none =>
          rfl
      | some parts =>
          dsimp only
          cases (beforeArrow? (chars parts.1)).isSome with
          | true =>
              rfl
          | false =>
              rfl

section

variable {text : List Char} {marks : List Mark}

theorem locate_of_closure {list : List Char} (h : closureList? text marks = some list) :
    locate text marks = .ok (.list list) := by
  unfold locate
  rw [h]

theorem locate_of_arrow (hclosure : closureList? text marks = none)
    (hopened : opened? marks = none) : locate text marks = arrowExtent text := by
  unfold locate
  rw [hclosure, hopened]

theorem locate_of_opened {after : List Mark} (hclosure : closureList? text marks = none)
    (hopened : opened? marks = some after) :
    locate text marks =
      match cut? (Mark.isAt ')' 0) after with
      | some (inside, _) =>
          .ok (.list (chars inside))
      | none =>
          .error (.unbalanced (String.ofList text)) := by
  unfold locate
  rw [hclosure, hopened]

end

end Signature
end Contracts
