import Mathlib.Data.List.Forall2
import Contracts.Proofs.Signature.Location

/-!
# Quoted runs

A scan passes over a quoted run and marks nothing in it, whatever the run holds.  So the scans of
two texts that differ in one run only go side by side: both fail, or their marks differ in the
run only.  Where marks are cut at characters of code the run stays whole, and it is a run of the
part that it falls into as well, because a scan that starts behind a character of code stands in
code there.
-/

namespace Contracts
namespace Signature

/-!
# Places

Whether a character stands in a quoted run does not depend on the brackets.
-/

/-- The place behind a character. -/
def Place.next (place : Place) (c : Char) (rest : List Char) : Place :=
  match place with
  | .code =>
      if opensQuote c rest then .quoted c else .code
  | .quoted quote =>
      if c = '\\' then .escaped quote else if c = quote then .code else .quoted quote
  | .escaped quote =>
      .quoted quote

/-- The place behind a text, which another text follows. -/
def Place.behind (place : Place) : List Char -> List Char -> Place
  | [], _ =>
      place
  | c :: text, rest =>
      (place.next c (text ++ rest)).behind text rest

theorem place_of_move {angles : Angles} {place : Place} {previous : Option Char}
    {stack rest : List Char} {c : Char} {m : Move}
    (h : move angles place previous stack c rest = some m) : m.place = place.next c rest := by
  cases place with
  | code =>
      rw [move] at h
      cases hquote : opensQuote c rest with
      | true =>
          rw [hquote] at h
          cases h
          simp [Place.next, hquote]
      | false =>
          rw [hquote] at h
          rcases Option.map_eq_some_iff.mp h with ⟨next, _, rfl⟩
          simp [Place.next, hquote]
  | quoted quote =>
      cases h
      rfl
  | escaped quote =>
      cases h
      rfl

/-- Only code is marked with a depth. -/
theorem place_of_depth {angles : Angles} {place : Place} {previous : Option Char}
    {stack rest : List Char} {c : Char} {m : Move}
    (h : move angles place previous stack c rest = some m) (hdepth : m.depth ≠ none) :
    m.place = .code := by
  cases place with
  | code =>
      rw [move] at h
      cases hquote : opensQuote c rest with
      | true =>
          rw [hquote] at h
          cases h
          exact absurd rfl hdepth
      | false =>
          rw [hquote] at h
          rcases Option.map_eq_some_iff.mp h with ⟨next, _, rfl⟩
          rfl
  | quoted quote =>
      cases h
      exact absurd rfl hdepth
  | escaped quote =>
      cases h
      exact absurd rfl hdepth

/-- A scan looks no further than two characters ahead. -/
theorem opensQuote_append_of_two_le {text : List Char} (h : 2 ≤ text.length) (c : Char)
    (rest : List Char) : opensQuote c (text ++ rest) = opensQuote c text := by
  match text, h with
  | _ :: _ :: _, _ =>
      rfl

/-!
# Runs
-/

/-- The quotes that open a run wherever they stand in code. -/
def isRunQuote (c : Char) : Bool :=
  c == '"' || c == '\x60'

/-- Whether a text stays inside a run of a quote: none of its characters ends the run, and no
backslash at its end takes the quote behind it along.  The flag tells of a backslash before. -/
def staysQuoted (quote : Char) : Bool -> List Char -> Bool
  | escaped, [] =>
      !escaped
  | true, _ :: rest =>
      staysQuoted quote false rest
  | false, c :: rest =>
      c != quote && staysQuoted quote (c == '\\') rest

/-- A text between two quotes. -/
def quoted (quote : Char) (content : List Char) : List Char :=
  quote :: (content ++ [quote])

/-- The marks of a text inside a quoted run. -/
def hidden (text : List Char) : List Mark :=
  text.map fun c => ⟨c, none⟩

@[simp] theorem chars_hidden (text : List Char) : chars (hidden text) = text := by
  simp [chars, hidden, Function.comp_def]

theorem two_le_length_quoted (quote : Char) (content : List Char) :
    2 ≤ (quoted quote content).length := by
  simp [quoted]

theorem ne_backslash_of_opensQuote {c : Char} {rest : List Char} (h : opensQuote c rest = true) :
    c ≠ '\\' := by
  rintro rfl
  simp [opensQuote] at h

theorem scanFrom_staysQuoted {quote : Char} (hbackslash : quote ≠ '\\') (angles : Angles)
    {content : List Char} :
    forall (escaped : Bool) (previous : Option Char) (stack rest : List Char),
      staysQuoted quote escaped content = true ->
      scanFrom angles (if escaped then .escaped quote else .quoted quote) previous stack
          (content ++ quote :: rest) =
        (scanFrom angles .code (some quote) stack rest).map (hidden (content ++ [quote]) ++ ·) := by
  induction content with
  | nil =>
      intro escaped previous stack rest h
      cases escaped with
      | true =>
          cases h
      | false =>
          simp [scanFrom, hbackslash, hidden]
  | cons c content ih =>
      intro escaped previous stack rest h
      cases escaped with
      | true =>
          have htail := ih false (some c) stack rest h
          rw [if_neg Bool.false_ne_true] at htail
          rw [if_pos rfl, List.cons_append, scanFrom, htail, Option.map_map]
          rfl
      | false =>
          rw [staysQuoted, Bool.and_eq_true, bne_iff_ne] at h
          have htail := ih (c == '\\') (some c) stack rest h.2
          rw [if_neg Bool.false_ne_true, List.cons_append, scanFrom, if_neg h.1]
          simp only [beq_iff_eq] at htail
          rw [htail, Option.map_map]
          rfl

/-- A scan in code passes over a run and goes on in code behind it. -/
theorem scanFrom_quoted {quote : Char} {content rest : List Char}
    (hopen : opensQuote quote (content ++ quote :: rest) = true)
    (hcontent : staysQuoted quote false content = true) (angles : Angles)
    (previous : Option Char) (stack : List Char) :
    scanFrom angles .code previous stack (quoted quote content ++ rest) =
      (scanFrom angles .code (some quote) stack rest).map (hidden (quoted quote content) ++ ·) := by
  have hinside := scanFrom_staysQuoted (ne_backslash_of_opensQuote hopen) angles false (some quote)
    stack rest hcontent
  rw [if_neg Bool.false_ne_true] at hinside
  have htext : quoted quote content ++ rest = quote :: (content ++ quote :: rest) := by
    simp [quoted]
  rw [htext, scanFrom, if_pos hopen, hinside, Option.map_map]
  rfl

section

variable {quote : Char} (hquote : isRunQuote quote = true)
include hquote

theorem opensQuote_of_isRunQuote (rest : List Char) : opensQuote quote rest = true := by
  simp only [isRunQuote] at hquote
  simp [opensQuote, hquote]

theorem ne_of_isRunQuote {c : Char} (hc : isRunQuote c = false) : quote ≠ c := by
  rintro rfl
  rw [hquote] at hc
  cases hc

end

/-!
# Two texts that differ in a run
-/

/-- A text behind which a run opens, with either of two contents. -/
structure Sealed (quote : Char) (one other front : List Char) : Prop where
  one : Place.code.behind front (quoted quote one) = .code
  other : Place.code.behind front (quoted quote other) = .code

/-- Two texts that are the same but for what one run of them holds. -/
inductive Veiled (quote : Char) (one other : List Char) : List Char -> List Char -> Prop where
  | same (text : List Char) : Veiled quote one other text text
  | run {front back : List Char} (h : Sealed quote one other front) :
      Veiled quote one other (front ++ (quoted quote one ++ back))
        (front ++ (quoted quote other ++ back))

/-- Marks in front of a run: wherever a scan starts behind a character of code among them, it
comes to the run in code. -/
structure Leads (quote : Char) (one other : List Char) (lead : List Mark) : Prop where
  whole : Sealed quote one other (chars lead)
  behind : forall before m after, lead = before ++ m :: after -> m.depth ≠ none ->
    Sealed quote one other (chars after)

/-- The marks of two texts that are the same but for what one run of them holds. -/
inductive VeiledMarks (quote : Char) (one other : List Char) :
    List Mark -> List Mark -> Prop where
  | same (marks : List Mark) : VeiledMarks quote one other marks marks
  | run {lead tail : List Mark} (h : Leads quote one other lead) :
      VeiledMarks quote one other (lead ++ (hidden (quoted quote one) ++ tail))
        (lead ++ (hidden (quoted quote other) ++ tail))

variable {quote : Char} {one other : List Char}

theorem leads_of_split {lead before after : List Mark} {m : Mark} (h : Leads quote one other lead)
    (hsplit : lead = before ++ m :: after) (hm : m.depth ≠ none) :
    Leads quote one other after := by
  constructor
  · exact h.behind before m after hsplit hm
  · intro before' n after' hafter hn
    apply h.behind (before ++ m :: before') n after' _ hn
    rw [hsplit, hafter]
    simp

theorem VeiledMarks.chars {marks marks' : List Mark}
    (h : VeiledMarks quote one other marks marks') :
    Veiled quote one other (Signature.chars marks) (Signature.chars marks') := by
  cases h with
  | same marks =>
      exact .same _
  | run hlead =>
      rw [chars_append, chars_append, chars_append, chars_append, chars_hidden, chars_hidden]
      exact .run hlead.whole

/-- A scan in front of a run does not see what stands behind the run. -/
theorem opensQuote_before_quoted (c : Char) (front content back : List Char) :
    opensQuote c (front ++ (quoted quote content ++ back)) =
      opensQuote c (front ++ quoted quote content) := by
  rw [← List.append_assoc]
  apply opensQuote_append_of_two_le
  have hlength := two_le_length_quoted quote content
  rw [List.length_append]
  omega

/-- A character that stands before a run opens none of its own. -/
theorem opensQuote_eq_false_of_behind {c : Char} {content : List Char}
    (h : Place.code.behind [c] (quoted quote content) = .code) :
    opensQuote c (quoted quote content) = false := by
  cases hopen : opensQuote c (quoted quote content) with
  | false =>
      rfl
  | true =>
      simp [Place.behind, Place.next, hopen] at h

/-- In front of a run a scan does the same whatever the run holds. -/
theorem opensQuote_veiled {front : List Char} {c : Char}
    (hone : Place.code.behind (c :: front) (quoted quote one) = .code)
    (hother : Place.code.behind (c :: front) (quoted quote other) = .code) :
    opensQuote c (front ++ quoted quote one) = opensQuote c (front ++ quoted quote other) := by
  match front with
  | [] =>
      rw [List.nil_append, List.nil_append, opensQuote_eq_false_of_behind hone,
        opensQuote_eq_false_of_behind hother]
  | [_] =>
      rfl
  | _ :: _ :: _ =>
      rfl

theorem move_veiled {place : Place} {front : List Char} {c : Char}
    (hone : place.behind (c :: front) (quoted quote one) = .code)
    (hother : place.behind (c :: front) (quoted quote other) = .code) (angles : Angles)
    (previous : Option Char) (stack back : List Char) :
    move angles place previous stack c (front ++ (quoted quote one ++ back)) =
      move angles place previous stack c (front ++ (quoted quote other ++ back)) := by
  cases place with
  | code =>
      rw [move, move, opensQuote_before_quoted, opensQuote_before_quoted,
        opensQuote_veiled hone hother]
  | quoted q =>
      rfl
  | escaped q =>
      rfl

theorem next_before_quoted (place : Place) (c : Char) (front content back : List Char) :
    place.next c (front ++ (quoted quote content ++ back)) =
      place.next c (front ++ quoted quote content) := by
  cases place with
  | code =>
      rw [Place.next, opensQuote_before_quoted]
      rfl
  | quoted q =>
      rfl
  | escaped q =>
      rfl

theorem behind_before_quoted (place : Place) (front content back : List Char) :
    place.behind front (quoted quote content ++ back) =
      place.behind front (quoted quote content) := by
  induction front generalizing place with
  | nil =>
      rfl
  | cons c front ih =>
      rw [Place.behind, Place.behind, next_before_quoted, ih]

theorem behind_of_move {angles : Angles} {place : Place} {previous : Option Char}
    {stack front back content : List Char} {c : Char} {m : Move}
    (hmove : move angles place previous stack c (front ++ (quoted quote content ++ back)) = some m)
    (hplace : place.behind (c :: front) (quoted quote content) = .code) :
    m.place.behind front (quoted quote content) = .code := by
  rw [place_of_move hmove, next_before_quoted]
  exact hplace

section

variable (hquote : isRunQuote quote = true) (hone : staysQuoted quote false one = true)
  (hother : staysQuoted quote false other = true)
include hquote hone hother

/-- The scans of two texts with the same front and the same back, but different runs between. -/
theorem scanFrom_veiled (angles : Angles) (back : List Char) {front : List Char} :
    forall {place : Place} (previous : Option Char) (stack : List Char),
      place.behind front (quoted quote one) = .code ->
      place.behind front (quoted quote other) = .code ->
      (scanFrom angles place previous stack (front ++ (quoted quote one ++ back)) = none ∧
        scanFrom angles place previous stack (front ++ (quoted quote other ++ back)) = none) ∨
      exists lead tail,
        scanFrom angles place previous stack (front ++ (quoted quote one ++ back)) =
          some (lead ++ (hidden (quoted quote one) ++ tail)) ∧
        scanFrom angles place previous stack (front ++ (quoted quote other ++ back)) =
          some (lead ++ (hidden (quoted quote other) ++ tail)) ∧
        chars lead = front ∧
        forall before m after, lead = before ++ m :: after -> m.depth ≠ none ->
          Sealed quote one other (chars after) := by
  induction front with
  | nil =>
      intro place previous stack hplace hplace'
      have hcode : place = .code := hplace
      subst hcode
      have hopen := opensQuote_of_isRunQuote hquote
      rw [List.nil_append, List.nil_append, scanFrom_quoted (hopen _) hone,
        scanFrom_quoted (hopen _) hother]
      cases scanFrom angles .code (some quote) stack back with
      | none =>
          exact Or.inl ⟨rfl, rfl⟩
      | some tail =>
          refine Or.inr ⟨[], tail, rfl, rfl, rfl, ?_⟩
          intro before m after hsplit
          simp at hsplit
  | cons c front ih =>
      intro place previous stack hplace hplace'
      have hmove := move_veiled hplace hplace' angles previous stack back
      rw [List.cons_append, List.cons_append, scanFrom_cons, scanFrom_cons, ← hmove]
      cases hm : move angles place previous stack c (front ++ (quoted quote one ++ back)) with
      | none =>
          exact Or.inl ⟨rfl, rfl⟩
      | some m =>
          have hbehind := behind_of_move hm hplace
          have hbehind' := behind_of_move (hmove.symm.trans hm) hplace'
          rcases ih (some c) m.stack hbehind hbehind' with
            ⟨hnone, hnone'⟩ | ⟨lead, tail, hlead, hlead', hchars, hsealed⟩
          · left
            simp [hnone, hnone']
          · right
            refine ⟨⟨c, m.depth⟩ :: lead, tail, ?_, ?_, ?_, ?_⟩
            · simp [hlead]
            · simp [hlead']
            · simpa [chars] using hchars
            · intro before n after hsplit hn
              cases before with
              | nil =>
                  cases hsplit
                  -- The character is one of code, so the scan goes on in code behind it.
                  rw [place_of_depth hm hn] at hbehind hbehind'
                  rw [hchars]
                  exact ⟨hbehind, hbehind'⟩
              | cons n' before =>
                  cases hsplit
                  exact hsealed before n after rfl hn

theorem scan_of_veiled (angles : Angles) {text text' : List Char}
    (h : Veiled quote one other text text') :
    (scan angles text = none ∧ scan angles text' = none) ∨
      exists marks marks', scan angles text = some marks ∧ scan angles text' = some marks' ∧
        VeiledMarks quote one other marks marks' := by
  cases h with
  | same =>
      cases hscan : scan angles text with
      | none =>
          exact Or.inl ⟨rfl, rfl⟩
      | some marks =>
          exact Or.inr ⟨marks, marks, rfl, rfl, .same marks⟩
  | @run front back hfront =>
      rcases scanFrom_veiled hquote hone hother angles back none [] hfront.one hfront.other with
        hnone | ⟨lead, tail, hlead, hlead', rfl, hsealed⟩
      · exact Or.inl hnone
      · exact Or.inr ⟨_, _, hlead, hlead', .run ⟨hfront, hsealed⟩⟩

end

/-!
# Cutting at characters of code
-/

/-- Whether a condition holds of marks of code only. -/
def OnCode (p : Mark -> Bool) : Prop :=
  forall m, p m = true -> m.depth ≠ none

theorem onCode_isAt (c : Char) (depth : Nat) : OnCode (Mark.isAt c depth) := by
  intro m hm hdepth
  simp [Mark.isAt, hdepth] at hm

theorem eq_false_of_mem_hidden {p : Mark -> Bool} (hp : OnCode p) {text : List Char} :
    forall m, m ∈ hidden text -> p m = false := by
  intro m hm
  rcases List.mem_map.mp hm with ⟨c, _, rfl⟩
  cases hc : p ⟨c, none⟩ with
  | false =>
      rfl
  | true =>
      exact absurd rfl (hp _ hc)

/-- A cut leaves a run whole, in front of the cut or behind it. -/
theorem cut?_veiled {p : Mark -> Bool} (hp : OnCode p) {lead : List Mark}
    (hlead : Leads quote one other lead) (tail : List Mark) :
    (cut? p (lead ++ (hidden (quoted quote one) ++ tail)) = none ∧
      cut? p (lead ++ (hidden (quoted quote other) ++ tail)) = none) ∨
    (exists before after,
      cut? p (lead ++ (hidden (quoted quote one) ++ tail)) =
        some (before, after ++ (hidden (quoted quote one) ++ tail)) ∧
      cut? p (lead ++ (hidden (quoted quote other) ++ tail)) =
        some (before, after ++ (hidden (quoted quote other) ++ tail)) ∧
      Leads quote one other after) ∨
    exists before after,
      cut? p (lead ++ (hidden (quoted quote one) ++ tail)) =
        some (lead ++ (hidden (quoted quote one) ++ before), after) ∧
      cut? p (lead ++ (hidden (quoted quote other) ++ tail)) =
        some (lead ++ (hidden (quoted quote other) ++ before), after) := by
  cases hcut : cut? p lead with
  | some parts =>
      rcases parts with ⟨before, after⟩
      rcases exists_of_cut? hcut with ⟨m, hsplit, hm, _⟩
      refine Or.inr (Or.inl ⟨before, after, ?_, ?_, leads_of_split hlead hsplit (hp m hm)⟩)
      · exact cut?_append_of_some hcut _
      · exact cut?_append_of_some hcut _
  | none =>
      have hrun : forall content, cut? p (lead ++ (hidden (quoted quote content) ++ tail)) =
          (cut? p tail).map fun parts =>
            (lead ++ (hidden (quoted quote content) ++ parts.1), parts.2) := by
        intro content
        have hnone : cut? p (hidden (quoted quote content)) = none :=
          cut?_eq_none_iff.mpr (eq_false_of_mem_hidden hp)
        rw [cut?_append_of_none hcut, cut?_append_of_none hnone, Option.map_map]
        rfl
      rw [hrun, hrun]
      cases cut? p tail with
      | none =>
          exact Or.inl ⟨rfl, rfl⟩
      | some parts =>
          exact Or.inr (Or.inr ⟨parts.1, parts.2, rfl, rfl⟩)

theorem cut?_of_veiled {p : Mark -> Bool} (hp : OnCode p) {marks marks' : List Mark}
    (h : VeiledMarks quote one other marks marks') :
    (cut? p marks = none ∧ cut? p marks' = none) ∨
      exists before after before' after', cut? p marks = some (before, after) ∧
        cut? p marks' = some (before', after') ∧ VeiledMarks quote one other before before' ∧
        VeiledMarks quote one other after after' := by
  cases h with
  | same =>
      cases hcut : cut? p marks with
      | none =>
          exact Or.inl ⟨rfl, rfl⟩
      | some parts =>
          exact Or.inr ⟨_, _, _, _, rfl, rfl, .same _, .same _⟩
  | @run _ tail hlead =>
      rcases cut?_veiled hp hlead tail with hnone | ⟨before, after, hcut, hcut', hafter⟩ |
        ⟨before, after, hcut, hcut'⟩
      · exact Or.inl hnone
      · exact Or.inr ⟨_, _, _, _, hcut, hcut', .same before, .run hafter⟩
      · exact Or.inr ⟨_, _, _, _, hcut, hcut', .run hlead, .same after⟩

theorem takeWhile_eq_cut? {α : Type} (p : α -> Bool) (list : List α) :
    list.takeWhile (fun x => !p x) = ((cut? p list).map Prod.fst).getD list := by
  induction list with
  | nil =>
      rfl
  | cons x rest ih =>
      cases hx : p x with
      | true =>
          simp [cut?, hx]
      | false =>
          simp only [List.takeWhile_cons, cut?, hx, ih, Bool.not_false, if_true]
          cases cut? p rest with
          | none =>
              rfl
          | some parts =>
              rfl

theorem takeWhile_veiled {p : Mark -> Bool} (hp : OnCode p) {marks marks' : List Mark}
    (h : VeiledMarks quote one other marks marks') :
    VeiledMarks quote one other (marks.takeWhile fun m => !p m)
      (marks'.takeWhile fun m => !p m) := by
  rw [takeWhile_eq_cut?, takeWhile_eq_cut?]
  rcases cut?_of_veiled hp h with ⟨hnone, hnone'⟩ | ⟨_, _, _, _, hcut, hcut', hbefore, _⟩
  · rw [hnone, hnone']
    exact h
  · rw [hcut, hcut']
    exact hbefore

/-- Between separators the pieces are the same but for the one that the run falls into. -/
theorem splitBy_veiled {p : Mark -> Bool} (hp : OnCode p) {marks marks' : List Mark}
    (h : VeiledMarks quote one other marks marks') :
    List.Forall₂ (VeiledMarks quote one other) (Text.splitBy p marks)
      (Text.splitBy p marks') := by
  have hsame : forall pieces : List (List Mark),
      List.Forall₂ (VeiledMarks quote one other) pieces pieces :=
    fun pieces => List.forall₂_same.mpr fun piece _ => .same piece
  cases h with
  | same =>
      exact hsame _
  | @run lead tail hlead =>
      induction hn : lead.length using Nat.strongRecOn generalizing lead with
      | _ n ih =>
          subst hn
          cases hcut : cut? p lead with
          | some parts =>
              rcases exists_of_cut? hcut with ⟨m, hsplit, hm, hbefore⟩
              have hafter := leads_of_split hlead hsplit (hp m hm)
              have hshorter : parts.2.length < lead.length := by
                rw [hsplit, List.length_append, List.length_cons]
                omega
              rw [hsplit, List.append_assoc, List.append_assoc, List.cons_append,
                List.cons_append, Text.splitBy_append_cons hbefore hm,
                Text.splitBy_append_cons hbefore hm]
              exact .cons (.same _) (ih _ hshorter hafter rfl)
          | none =>
              have hquiet : forall content m, m ∈ lead ++ hidden (quoted quote content) ->
                  p m = false := by
                intro content m hm
                rcases List.mem_append.mp hm with hm | hm
                · exact cut?_eq_none_iff.mp hcut m hm
                · exact eq_false_of_mem_hidden hp m hm
              have hrun : forall content piece pieces, Text.splitBy p tail = piece :: pieces ->
                  Text.splitBy p (lead ++ (hidden (quoted quote content) ++ tail)) =
                    (lead ++ (hidden (quoted quote content) ++ piece)) :: pieces := by
                intro content piece pieces htail
                have hfront := Text.splitBy_of_forall (hquiet content)
                have hsplit := Text.splitBy_append [] hfront htail
                rw [List.append_assoc, List.append_assoc] at hsplit
                exact hsplit
              cases htail : Text.splitBy p tail with
              | nil =>
                  exact absurd htail (Text.splitBy_ne_nil p tail)
              | cons piece pieces =>
                  rw [hrun one piece pieces htail, hrun other piece pieces htail]
                  exact .cons (.run hlead) (hsame pieces)

end Signature
end Contracts
