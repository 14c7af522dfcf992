import Contracts.Text.Blank
import Contracts.Text.Identifier
import Mathlib.Data.List.DropRight

/-!
# Where words and pieces end

Trimming stops at the first character that is not blank, and a text is cut at every separator
and nowhere else.  No blank can stand in an identifier, so trimming keeps an identifier whole.
-/

namespace Contracts
namespace Text

/-!
## Blanks and identifiers

Blanks have no arithmetic rule, so they are compared with the letters and numerals one by one.
-/

/-- A character that passes a test differs from one that does not. -/
theorem ne_of_test {p : Char -> Bool} {c d : Char} (h : p c = true) (hd : p d = false) :
    c ≠ d := by
  rintro rfl
  rw [h] at hd
  cases hd

/-- The code points of the blanks. -/
def blankCodes : List Nat :=
  [9, 10, 11, 12, 13, 0x20, 0x85, 0xA0, 0x1680, 0x2000, 0x2001, 0x2002, 0x2003, 0x2004, 0x2005,
   0x2006, 0x2007, 0x2008, 0x2009, 0x200A, 0x2028, 0x2029, 0x202F, 0x205F, 0x3000]

theorem toNat_mem_blankCodes {c : Char} (h : isBlank c = true) : c.toNat ∈ blankCodes := by
  simp only [isBlank, Bool.or_eq_true, Bool.and_eq_true, decide_eq_true_eq, beq_iff_eq] at h
  simp only [blankCodes, List.mem_cons, List.not_mem_nil, or_false]
  -- One code point or range at a time: together they are too many cases for the arithmetic.
  rcases h with (((((((((h | h) | h) | h) | h) | h) | h) | h) | h) | h) | h
  all_goals omega

theorem continuesIdentifier_blankCodes :
    forall n, n ∈ blankCodes -> continuesIdentifier (Char.ofNat n) = false := by
  decide +kernel

/-- A test that no blank passes tells blanks apart. -/
theorem isBlank_eq_false_of_test {p : Char -> Bool}
    (hblanks : forall n, n ∈ blankCodes -> p (Char.ofNat n) = false) {c : Char}
    (h : p c = true) : isBlank c = false := by
  cases hc : isBlank c with
  | false =>
      rfl
  | true =>
      have hcode := hblanks c.toNat (toNat_mem_blankCodes hc)
      rw [Char.ofNat_toNat, h] at hcode
      exact hcode

theorem isBlank_eq_false_of_continuesIdentifier {c : Char}
    (h : continuesIdentifier c = true) : isBlank c = false :=
  isBlank_eq_false_of_test continuesIdentifier_blankCodes h

theorem isBlank_eq_false_of_isDigit {c : Char} (h : c.isDigit = true) : isBlank c = false :=
  isBlank_eq_false_of_test (p := Char.isDigit) (by decide) h

theorem exists_cons_of_isIdentifier {text : List Char} (h : isIdentifier text = true) :
    exists c rest, text = c :: rest ∧ continuesIdentifier c = true := by
  cases text with
  | nil =>
      cases h
  | cons c rest =>
      simp only [isIdentifier, Bool.and_eq_true] at h
      exact ⟨c, rest, rfl, continuesIdentifier_of_starts h.1⟩

theorem continuesIdentifier_of_mem {text : List Char} {c : Char} (h : isIdentifier text = true)
    (hc : c ∈ text) : continuesIdentifier c = true :=
  List.all_eq_true.mp (all_of_isIdentifier h) c hc

/-!
## Trimming
-/

theorem trimStart_append_blanks {blanks : List Char}
    (h : forall c, c ∈ blanks -> isBlank c = true) (text : List Char) :
    trimStart (blanks ++ text) = trimStart text :=
  List.dropWhile_append_of_pos h

theorem trimStart_cons {c : Char} (h : isBlank c = false) (text : List Char) :
    trimStart (c :: text) = c :: text :=
  List.dropWhile_cons_of_neg (by simp [h])

theorem trimEnd_append_blanks {blanks : List Char}
    (h : forall c, c ∈ blanks -> isBlank c = true) (text : List Char) :
    trimEnd (text ++ blanks) = trimEnd text := by
  have hreverse : forall c, c ∈ blanks.reverse -> isBlank c = true := by
    intro c hc
    exact h c (List.mem_reverse.mp hc)
  simp only [trimEnd, List.reverse_append]
  rw [List.dropWhile_append_of_pos hreverse]

/-- Trimming the end does not go beyond a character that is not blank. -/
theorem trimEnd_append_cons {c : Char} (h : isBlank c = false) (front back : List Char) :
    trimEnd (front ++ c :: back) = front ++ c :: trimEnd back := by
  induction back using List.reverseRecOn with
  | nil =>
      have hc : ¬ isBlank c = true := by simp [h]
      exact List.rdropWhile_concat_neg isBlank front c hc
  | append_singleton back x ih =>
      have hassoc : front ++ c :: (back ++ [x]) = (front ++ c :: back) ++ [x] := by simp
      rw [hassoc]
      cases hx : isBlank x with
      | true =>
          have hblanks : forall y, y ∈ [x] -> isBlank y = true := by simp [hx]
          rw [trimEnd_append_blanks hblanks, trimEnd_append_blanks hblanks]
          exact ih
      | false =>
          have hx' : ¬ isBlank x = true := by simp [hx]
          have houter := List.rdropWhile_concat_neg isBlank (front ++ c :: back) x hx'
          have hinner := List.rdropWhile_concat_neg isBlank back x hx'
          show List.rdropWhile isBlank ((front ++ c :: back) ++ [x])
            = front ++ c :: List.rdropWhile isBlank (back ++ [x])
          rw [houter, hinner, hassoc]

theorem exists_blanks_trimEnd (text : List Char) :
    exists blanks, (forall c, c ∈ blanks -> isBlank c = true) ∧ text = trimEnd text ++ blanks := by
  induction text using List.reverseRecOn with
  | nil =>
      exact ⟨[], by simp, rfl⟩
  | append_singleton text c ih =>
      rcases ih with ⟨blanks, hblanks, htext⟩
      cases hc : isBlank c with
      | true =>
          have hone : forall x, x ∈ [c] -> isBlank x = true := by simp [hc]
          refine ⟨blanks ++ [c], ?_, ?_⟩
          · intro x hx
            rcases List.mem_append.mp hx with hx | hx
            · exact hblanks x hx
            · exact hone x hx
          · rw [trimEnd_append_blanks hone, ← List.append_assoc, ← htext]
      | false =>
          refine ⟨[], by simp, ?_⟩
          rw [trimEnd_append_cons hc, trimEnd_nil, List.append_nil]

theorem trimEnd_append_word {word : List Char} (hne : word ≠ [])
    (hword : forall c, c ∈ word -> isBlank c = false) (front : List Char) :
    trimEnd (front ++ word) = front ++ word := by
  rcases List.eq_nil_or_concat word with hnil | ⟨body, c, hconcat⟩
  · exact absurd hnil hne
  · have hc : isBlank c = false := hword c (by simp [hconcat])
    rw [hconcat, List.concat_eq_append, ← List.append_assoc, trimEnd_append_cons hc]
    rfl

theorem trim_of_forall {text : List Char} (h : forall c, c ∈ text -> isBlank c = false) :
    trim text = text := by
  cases text with
  | nil =>
      rfl
  | cons c rest =>
      unfold trim
      rw [trimStart_cons (h c List.mem_cons_self)]
      exact trimEnd_append_word (List.cons_ne_nil c rest) h []

theorem trim_padded {before after text : List Char} {c : Char} (hhead : text.head? = some c)
    (hc : isBlank c = false) (hbefore : forall x, x ∈ before -> isBlank x = true)
    (hafter : forall x, x ∈ after -> isBlank x = true) :
    trim (before ++ (text ++ after)) = trimEnd text := by
  rcases List.head?_eq_some_iff.mp hhead with ⟨rest, rfl⟩
  unfold trim
  rw [trimStart_append_blanks hbefore, List.cons_append, trimStart_cons hc]
  rw [← List.cons_append, trimEnd_append_blanks hafter]

theorem infix_trim (text : List Char) : trim text <:+: text := by
  have hend : trim text <+: trimStart text := List.rdropWhile_prefix isBlank (trimStart text)
  exact hend.isInfix.trans (List.dropWhile_suffix isBlank).isInfix

/-!
## Cutting at separators
-/

variable {α : Type} {separates : α -> Bool}

section

variable {p : α -> Bool} {front back : List α}

theorem takeWhile_cut (hfront : forall x, x ∈ front -> p x = true)
    (hback : forall x, x ∈ back.head? -> p x = false) : (front ++ back).takeWhile p = front := by
  rw [List.takeWhile_append_of_pos hfront]
  cases back with
  | nil =>
      rw [List.takeWhile_nil, List.append_nil]
  | cons x rest =>
      rw [List.takeWhile_cons_of_neg (by simp [hback x rfl]), List.append_nil]

theorem dropWhile_cut (hfront : forall x, x ∈ front -> p x = true)
    (hback : forall x, x ∈ back.head? -> p x = false) : (front ++ back).dropWhile p = back := by
  rw [List.dropWhile_append_of_pos hfront]
  cases back with
  | nil =>
      rfl
  | cons x rest =>
      exact List.dropWhile_cons_of_neg (by simp [hback x rfl])

end

theorem splitBy_append_cons {front : List α} {x : α}
    (hfront : forall y, y ∈ front -> separates y = false) (hx : separates x = true)
    (back : List α) :
    splitBy separates (front ++ x :: back) = front :: splitBy separates back := by
  induction front with
  | nil =>
      simp [splitBy, hx]
  | cons y front ih =>
      rcases List.forall_mem_cons.mp hfront with ⟨hy, hfront'⟩
      simp only [List.cons_append, splitBy, hy, ih hfront']
      simp

theorem splitBy_of_forall {list : List α} (h : forall y, y ∈ list -> separates y = false) :
    splitBy separates list = [list] := by
  induction list with
  | nil =>
      rfl
  | cons y list ih =>
      rcases List.forall_mem_cons.mp h with ⟨hy, hlist⟩
      simp only [splitBy, hy, ih hlist]
      simp

/-- Where two lists meet, the last piece of the first is joined to the first of the second. -/
theorem splitBy_append {front back w piece : List α} (firsts : List (List α))
    {pieces : List (List α)} (hfront : splitBy separates front = firsts ++ [w])
    (hback : splitBy separates back = piece :: pieces) :
    splitBy separates (front ++ back) = firsts ++ (w ++ piece) :: pieces := by
  induction front generalizing firsts w with
  | nil =>
      cases firsts with
      | nil =>
          cases hfront
          exact hback
      | cons first firsts =>
          simp [splitBy] at hfront
  | cons y front ih =>
      rcases List.eq_nil_or_concat (splitBy separates front) with hnil | ⟨inner, last, hinner⟩
      · exact absurd hnil (splitBy_ne_nil separates front)
      · rw [List.concat_eq_append] at hinner
        have htail := ih inner hinner
        cases hy : separates y with
        | true =>
            rw [splitBy, if_pos hy, hinner, ← List.cons_append] at hfront
            rcases List.append_inj' hfront rfl with ⟨rfl, hlast⟩
            cases hlast
            rw [List.cons_append, splitBy, if_pos hy, htail, List.cons_append]
        | false =>
            cases inner with
            | nil =>
                simp only [splitBy, hy, hinner, List.nil_append, Bool.false_eq_true,
                  if_false] at hfront
                have hone : firsts = [] ∧ w = y :: last := by
                  cases firsts with
                  | nil =>
                      cases hfront
                      exact ⟨rfl, rfl⟩
                  | cons first firsts =>
                      simp at hfront
                rcases hone with ⟨rfl, rfl⟩
                simp [splitBy, hy, htail]
            | cons first inner =>
                simp only [splitBy, hy, hinner, List.cons_append, Bool.false_eq_true,
                  if_false] at hfront
                rw [← List.cons_append] at hfront
                rcases List.append_inj' hfront rfl with ⟨rfl, hlast⟩
                cases hlast
                simp [splitBy, hy, htail]

/-- The pieces of a list that is cut at one element only are joined by it again. -/
theorem intercalate_splitBy {s : α} (h : forall x, separates x = true -> x = s) (list : List α) :
    [s].intercalate (splitBy separates list) = list := by
  induction list with
  | nil =>
      rfl
  | cons x rest ih =>
      rw [splitBy]
      cases hsplit : splitBy separates rest with
      | nil =>
          exact absurd hsplit (splitBy_ne_nil separates rest)
      | cons piece pieces =>
          rw [hsplit] at ih
          split
          · rename_i hx
            rw [List.intercalate_cons_cons, ih, h x hx]
            rfl
          · cases pieces with
            | nil =>
                rw [List.intercalate_singleton] at ih ⊢
                rw [ih]
            | cons next pieces =>
                rw [List.intercalate_cons_cons] at ih ⊢
                rw [← ih]
                rfl

theorem prefix_of_splitBy {list piece : List α} {pieces : List (List α)}
    (h : splitBy separates list = piece :: pieces) : piece <+: list := by
  induction list generalizing piece pieces with
  | nil =>
      cases h
      exact List.prefix_rfl
  | cons x rest ih =>
      rw [splitBy] at h
      split at h
      · cases h
        exact List.nil_prefix
      · cases hsplit : splitBy separates rest with
        | nil =>
            exact absurd hsplit (splitBy_ne_nil separates rest)
        | cons first others =>
            rw [hsplit] at h
            cases h
            exact List.cons_prefix_cons.mpr ⟨rfl, ih hsplit⟩

theorem infix_of_mem_splitBy {list piece : List α}
    (h : piece ∈ splitBy separates list) : piece <:+: list := by
  induction list with
  | nil =>
      rw [splitBy, List.mem_singleton] at h
      exact h ▸ List.infix_rfl
  | cons x rest ih =>
      rw [splitBy] at h
      split at h
      · rcases List.mem_cons.mp h with rfl | hpiece
        · exact List.nil_infix
        · exact List.infix_cons (ih hpiece)
      · cases hsplit : splitBy separates rest with
        | nil =>
            exact absurd hsplit (splitBy_ne_nil separates rest)
        | cons first others =>
            rw [hsplit] at h ih
            rcases List.mem_cons.mp h with rfl | hpiece
            · exact (List.cons_prefix_cons.mpr ⟨rfl, prefix_of_splitBy hsplit⟩).isInfix
            · exact List.infix_cons (ih (List.mem_cons_of_mem first hpiece))

theorem infix_of_mem_words {text word : List Char} (h : word ∈ words text) : word <:+: text :=
  infix_of_mem_splitBy (List.mem_of_mem_filter h)

/-- A word that holds a character of no identifier hides every word before it. -/
theorem getLast?_words_append {c : Char} (hblank : isBlank c = false)
    (hc : continuesIdentifier c = false) (front back : List Char) :
    (words (front ++ c :: back)).getLast?.filter isIdentifier =
      (words (c :: back)).getLast?.filter isIdentifier := by
  rcases List.eq_nil_or_concat (splitBy isBlank front) with hnil | ⟨firsts, w, hfront⟩
  · exact absurd hnil (splitBy_ne_nil isBlank front)
  cases hback : splitBy isBlank back with
  | nil =>
      exact absurd hback (splitBy_ne_nil isBlank back)
  | cons piece pieces =>
      have hrest : splitBy isBlank (c :: back) = (c :: piece) :: pieces := by
        simp [splitBy, hblank, hback]
      have hwhole := splitBy_append firsts (by rw [hfront, List.concat_eq_append]) hrest
      have hword : forall before, isIdentifier (before ++ c :: piece) = false := by
        intro before
        cases hid : isIdentifier (before ++ c :: piece) with
        | false =>
            rfl
        | true =>
            have hmem : c ∈ before ++ c :: piece := by simp
            rw [continuesIdentifier_of_mem hid hmem] at hc
            cases hc
      have hfilter : forall before firsts',
          ((firsts' ++ (before ++ c :: piece) :: pieces).filter
              fun word => !word.isEmpty).getLast?.filter isIdentifier =
            ((pieces.filter fun word => !word.isEmpty).getLast?).filter isIdentifier := by
        intro before firsts'
        rw [List.filter_append, List.filter_cons_of_pos (by simp), List.getLast?_append,
          List.getLast?_cons]
        cases (pieces.filter fun word => !word.isEmpty).getLast? with
        | none =>
            simp [hword]
        | some last =>
            simp
      rw [words, words, hwhole, hrest, hfilter w firsts]
      exact (hfilter [] []).symm

end Text
end Contracts
