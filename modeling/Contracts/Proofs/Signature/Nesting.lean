import Contracts.Proofs.Signature.Tokens

/-!
# Nesting

Which texts a scan accepts is said here without a stack.  Outside the quoted runs of a text
stand its characters of code, and the brackets among them nest as a grammar describes it.  A
lenient scan accepts a text when every quoted run is closed and its round, square and curly
brackets nest.

A scan keeps angles among the open brackets, where they come and go by rules of their own.  What
carries the proof is that only the other brackets decide: without its angles the stack of a
lenient scan is the list of brackets that are still to be closed.
-/

namespace Contracts
namespace Signature

/-!
# The grammar of brackets
-/

def isOpening (c : Char) : Bool :=
  c == '(' || c == '[' || c == '\x7b'

/-- Whether a character is a bracket that must match; angles need not. -/
def isBracket (c : Char) : Bool :=
  isOpening c || (opening? c).isSome

/-- Brackets in properly nested pairs. -/
inductive Nested : List Char -> Prop where
  | nil : Nested []
  | pair {o c : Char} {inside rest : List Char} (h : opening? c = some o)
      (hinside : Nested inside) (hrest : Nested rest) : Nested (o :: (inside ++ c :: rest))

/-- Brackets that close those open before them, innermost first, and else are nested. -/
inductive Closes : List Char -> List Char -> Prop where
  | done {brackets : List Char} (h : Nested brackets) : Closes [] brackets
  | close {o c : Char} {outer inside rest : List Char} (h : opening? c = some o)
      (hinside : Nested inside) (hrest : Closes outer rest) :
      Closes (o :: outer) (inside ++ c :: rest)

theorem isOpening_of_opening {c o : Char} (h : opening? c = some o) : isOpening o = true := by
  unfold opening? at h
  split at h <;> cases h <;> rfl

theorem opening?_of_isOpening {c : Char} (h : isOpening c = true) : opening? c = none := by
  simp only [isOpening, Bool.or_eq_true, beq_iff_eq] at h
  rcases h with (rfl | rfl) | rfl <;> rfl

theorem closes_nil {brackets : List Char} : Closes [] brackets <-> Nested brackets := by
  constructor
  · intro h
    cases h with
    | done hnested =>
        exact hnested
  · exact Closes.done

/-- Every open bracket takes one that closes it. -/
theorem length_le_of_closes {stack brackets : List Char} (h : Closes stack brackets) :
    stack.length ≤ brackets.length := by
  induction h with
  | done hnested =>
      exact Nat.zero_le _
  | close hclosing hinside hrest ih =>
      rw [List.length_append, List.length_cons, List.length_cons]
      omega

theorem closes_end {stack : List Char} : Closes stack [] <-> stack = [] := by
  constructor
  · intro h
    exact List.eq_nil_of_length_eq_zero (Nat.le_zero.mp (length_le_of_closes h))
  · rintro rfl
    exact .done .nil

theorem closes_opening {o : Char} (h : isOpening o = true) {stack brackets : List Char} :
    Closes stack (o :: brackets) <-> Closes (o :: stack) brackets := by
  constructor
  · intro hcloses
    generalize hall : o :: brackets = all at hcloses
    cases hcloses with
    | done hnested =>
        cases hnested with
        | nil =>
            cases hall
        | pair hclosing hinside hrest =>
            cases hall
            exact .close hclosing hinside (.done hrest)
    | close hclosing hinside hrest =>
        cases hinside with
        | nil =>
            cases hall
            rw [opening?_of_isOpening h] at hclosing
            cases hclosing
        | pair hpair hwithin hbehind =>
            have hwhole := Closes.close hpair hwithin (.close hclosing hbehind hrest)
            rw [← List.cons_append, ← List.append_assoc] at hwhole
            rw [(List.cons.inj hall).1, (List.cons.inj hall).2]
            exact hwhole
  · intro hcloses
    cases hcloses with
    | close hclosing hinside hrest =>
        cases hrest with
        | done hnested =>
            exact .done (.pair hclosing hinside hnested)
        | @close p d outer between rest hclosing' hbetween hrest' =>
            have hfirst := Nested.pair hclosing hinside hbetween
            have hwhole := Closes.close hclosing' hfirst hrest'
            rw [List.cons_append, List.append_assoc, List.cons_append] at hwhole
            exact hwhole

theorem closes_closing {c o : Char} (h : opening? c = some o) {stack brackets : List Char} :
    Closes stack (c :: brackets) <-> exists outer, stack = o :: outer ∧ Closes outer brackets := by
  have hne : forall {d p : Char}, opening? d = some p -> c ≠ p := by
    intro d p hd hcp
    rw [hcp, opening?_of_isOpening (isOpening_of_opening hd)] at h
    cases h
  constructor
  · intro hcloses
    generalize hall : c :: brackets = all at hcloses
    cases hcloses with
    | done hnested =>
        cases hnested with
        | nil =>
            cases hall
        | pair hpair hinside hrest =>
            exact absurd (List.cons.inj hall).1 (hne hpair)
    | close hclosing hinside hrest =>
        cases hinside with
        | nil =>
            cases hall
            rw [h] at hclosing
            cases hclosing
            exact ⟨_, rfl, hrest⟩
        | pair hpair hwithin hbehind =>
            exact absurd (List.cons.inj hall).1 (hne hpair)
  · rintro ⟨outer, rfl, hrest⟩
    exact .close h .nil hrest

/-!
# The stack without its angles
-/

/-- The open brackets that must still be closed. -/
def mustClose (stack : List Char) : List Char :=
  stack.filter (· != '<')

@[simp] theorem mustClose_nil : mustClose [] = [] := rfl

@[simp] theorem mustClose_angle (stack : List Char) :
    mustClose ('<' :: stack) = mustClose stack := rfl

theorem mustClose_cons_of_ne {c : Char} (h : c ≠ '<') (stack : List Char) :
    mustClose (c :: stack) = c :: mustClose stack := by
  simp [mustClose, h]

theorem mustClose_closeAngle (stack : List Char) :
    mustClose (closeAngle stack) = mustClose stack := by
  unfold closeAngle
  split <;> rfl

/-- Where another bracket closes, a lenient scan finds the innermost bracket that must close. -/
theorem mustClose_settle (stack : List Char) :
    mustClose stack = match settle .lenient stack with
      | [] => []
      | top :: outer => top :: mustClose outer := by
  induction stack with
  | nil =>
      rfl
  | cons c stack ih =>
      by_cases hc : c = '<'
      · subst hc
        exact ih
      · rw [mustClose_cons_of_ne hc, settle_cons_of_ne hc]

theorem settle_lenient_eq_nil_iff {stack : List Char} :
    settle .lenient stack = [] <-> mustClose stack = [] := by
  rw [mustClose_settle]
  cases settle .lenient stack <;> simp

theorem isBracket_of_isOpening {c : Char} (h : isOpening c = true) : isBracket c = true := by
  rw [isBracket, h, Bool.true_or]

theorem isBracket_of_opening {c o : Char} (h : opening? c = some o) : isBracket c = true := by
  rw [isBracket, h, Option.isSome_some, Bool.or_true]

/-- A lenient scan passes a character of code when its bracket, if it is one, fits those that
must be closed; which brackets remain open is then decided by the grammar too. -/
theorem closes_bracket (previous : Option Char) (stack : List Char) (c : Char)
    (code : List Char) :
    Closes (mustClose stack) ((c :: code).filter isBracket) <->
      exists next, bracket .lenient previous stack c = some next ∧
        Closes (mustClose next) (code.filter isBracket) := by
  cases hclosing : opening? c with
  | some o =>
      rw [List.filter_cons_of_pos (isBracket_of_opening hclosing), closes_closing hclosing,
        mustClose_settle, bracket_of_closes hclosing]
      cases settle .lenient stack with
      | nil =>
          simp
      | cons top outer =>
          by_cases htop : top = o
          · simp [htop]
          · simp [htop]
  | none =>
      cases hopening : isOpening c with
      | true =>
          have hne : c ≠ '<' := by
            rintro rfl
            cases hopening
          have hpush : c = '(' ∨ c = '[' ∨ c = '\x7b' := by
            simpa [isOpening, or_assoc] using hopening
          rw [List.filter_cons_of_pos (isBracket_of_isOpening hopening), closes_opening hopening,
            bracket_opening hpush]
          simp [mustClose_cons_of_ne hne]
      | false =>
          have hplain : ¬ isBracket c = true := by simp [isBracket, hopening, hclosing]
          have hpush : ¬ (c = '(' ∨ c = '[' ∨ c = '\x7b') := by
            simpa [isOpening, not_or, and_assoc] using hopening
          rw [List.filter_cons_of_neg hplain]
          -- Angles change the stack, but not the brackets that must be closed.
          by_cases hless : c = '<'
          · subst hless
            rw [bracket_less]
            cases gluesAngle previous <;> simp
          · by_cases hgreater : c = '>'
            · subst hgreater
              rw [bracket_greater]
              cases endsArrow previous <;> simp [mustClose_closeAngle]
            · rw [bracket_other hclosing hpush hless hgreater]
              simp

/-!
# Code outside quoted runs
-/

/-- A text whose quoted runs are all closed, and the characters that stand outside them. -/
inductive Outside : List Char -> List Char -> Prop where
  | nil : Outside [] []
  | code {c : Char} {rest code : List Char} (h : opensQuote c rest = false)
      (hrest : Outside rest code) : Outside (c :: rest) (c :: code)
  | run {quote : Char} {content rest code : List Char}
      (h : opensQuote quote (content ++ quote :: rest) = true)
      (hcontent : staysQuoted quote false content = true) (hrest : Outside rest code) :
      Outside (quoted quote content ++ rest) code

/-- A scan that comes out of a quoted run has passed its end. -/
theorem exists_run_of_scanFrom {quote : Char} (angles : Angles) {text : List Char} :
    forall (escaped : Bool) {previous : Option Char} {stack : List Char} {marks : List Mark},
      scanFrom angles (if escaped then .escaped quote else .quoted quote) previous stack text =
        some marks ->
      exists content rest, text = content ++ quote :: rest ∧
        staysQuoted quote escaped content = true := by
  induction text with
  | nil =>
      intro escaped previous stack marks h
      cases escaped <;> cases h
  | cons c text ih =>
      intro escaped previous stack marks h
      cases escaped with
      | true =>
          rw [if_pos rfl, scanFrom] at h
          rcases Option.map_eq_some_iff.mp h with ⟨tail, htail, _⟩
          rcases ih false htail with ⟨content, rest, rfl, hcontent⟩
          exact ⟨c :: content, rest, rfl, hcontent⟩
      | false =>
          rw [if_neg Bool.false_ne_true, scanFrom] at h
          rcases Option.map_eq_some_iff.mp h with ⟨tail, htail, _⟩
          by_cases hend : c = quote
          · exact ⟨[], text, by rw [hend, List.nil_append], rfl⟩
          · have hplace : (if c = '\\' then Place.escaped quote
                else if c = quote then Place.code else Place.quoted quote) =
                if (c == '\\') = true then Place.escaped quote else Place.quoted quote := by
              simp [hend]
            rw [hplace] at htail
            rcases ih (c == '\\') htail with ⟨content, rest, rfl, hcontent⟩
            refine ⟨c :: content, rest, rfl, ?_⟩
            rw [staysQuoted, hcontent, Bool.and_true]
            exact bne_iff_ne.mpr hend

/-- A scan that accepts a text finds every quoted run of it closed. -/
theorem exists_outside_of_scanFrom (angles : Angles) (text : List Char) :
    forall {previous : Option Char} {stack : List Char},
      (scanFrom angles .code previous stack text).isSome = true ->
      exists code, Outside text code := by
  -- A run takes more than one character, so the induction is on the length.
  induction hlength : text.length using Nat.strong_induction_on generalizing text with
  | _ n ih =>
      intro previous stack h
      cases text with
      | nil =>
          exact ⟨[], .nil⟩
      | cons c rest =>
          rcases Option.isSome_iff_exists.mp h with ⟨marks, hmarks⟩
          cases hopen : opensQuote c rest with
          | true =>
              rw [scanFrom, if_pos hopen] at hmarks
              rcases Option.map_eq_some_iff.mp hmarks with ⟨tail, htail, _⟩
              rcases exists_run_of_scanFrom angles false htail with
                ⟨content, back, rfl, hcontent⟩
              have htext : c :: (content ++ c :: back) = quoted c content ++ back := by
                simp [quoted]
              rw [htext, scanFrom_quoted hopen hcontent, Option.isSome_map] at h
              have hshorter : back.length < n := by
                rw [← hlength, List.length_cons, List.length_append, List.length_cons]
                omega
              rcases ih back.length hshorter back rfl h with ⟨code, hcode⟩
              rw [htext]
              exact ⟨code, .run hopen hcontent hcode⟩
          | false =>
              rcases exists_move_of_scanFrom hmarks with ⟨m, tail, hmove, htail, _⟩
              have hplace : m.place = .code := by
                rw [place_of_move hmove, Place.next, hopen]
                rfl
              rw [hplace] at htail
              have hshorter : rest.length < n := by
                rw [← hlength, List.length_cons]
                omega
              rcases ih rest.length hshorter rest rfl (Option.isSome_of_eq_some htail) with
                ⟨code, hcode⟩
              exact ⟨c :: code, .code hopen hcode⟩

/-!
# What a scan accepts
-/

/-- A lenient scan accepts a text whose runs are closed when the brackets of its code close
those that are open. -/
theorem isSome_scanFrom_lenient_iff {text code : List Char} (h : Outside text code) :
    forall (previous : Option Char) (stack : List Char),
      (scanFrom .lenient .code previous stack text).isSome = true <->
        Closes (mustClose stack) (code.filter isBracket) := by
  induction h with
  | nil =>
      intro previous stack
      rw [List.filter_nil, closes_end, ← settle_lenient_eq_nil_iff, scanFrom]
      split <;> simp_all
  | @code c rest code hopen hrest ih =>
      intro previous stack
      rw [closes_bracket previous, scanFrom, hopen]
      cases bracket .lenient previous stack c with
      | none =>
          simp
      | some next =>
          simpa using ih (some c) next
  | @run quote content rest code hopen hcontent hrest ih =>
      intro previous stack
      rw [scanFrom_quoted hopen hcontent, Option.isSome_map]
      exact ih (some quote) stack

theorem isSome_scan_lenient_iff {text code : List Char} (h : Outside text code) :
    (scan .lenient text).isSome = true <-> Nested (code.filter isBracket) := by
  rw [scan, isSome_scanFrom_lenient_iff h, mustClose_nil, closes_nil]

/-- What a strict scan accepts, a lenient one marks alike. -/
theorem scan_lenient_of_strict {text : List Char} {marks : List Mark}
    (h : scan .strict text = some marks) : scan .lenient text = some marks := by
  have hbase : ([] : List Char).head? ≠ some '<' := by simp
  have hrest : Neutral [] := neutral_blanks (by simp)
  have hpass := scan_strict_append h detached_none hbase hrest .lenient
  rw [List.append_nil] at hpass
  rw [scan, hpass]
  simp [scanFrom, settle, dropAngles, map_raise_zero]

/-- Whether a character is an angle, which need not match. -/
def isAngle (c : Char) : Bool :=
  c == '<' || c == '>'

theorem isAngle_eq_false_of_isBracket {c : Char} (h : isBracket c = true) :
    isAngle c = false := by
  cases hangle : isAngle c with
  | false =>
      rfl
  | true =>
      simp only [isAngle, Bool.or_eq_true, beq_iff_eq] at hangle
      rcases hangle with rfl | rfl <;> cases h

theorem filter_isBracket_of_angles {code code' : List Char}
    (h : code.filter (fun c => !isAngle c) = code'.filter (fun c => !isAngle c)) :
    code.filter isBracket = code'.filter isBracket := by
  have hboth : forall text : List Char,
      (text.filter fun c => !isAngle c).filter isBracket = text.filter isBracket := by
    intro text
    rw [List.filter_filter]
    apply List.filter_congr
    intro c _
    cases hc : isBracket c with
    | false =>
        rfl
    | true =>
        rw [isAngle_eq_false_of_isBracket hc]
        rfl
  rw [← hboth code, ← hboth code', h]

/-- A lenient scan accepts exactly the texts whose quoted runs are closed and whose brackets are
properly nested outside them, so angles never change what it accepts; and a text that a strict
scan accepts has the same tokens for both. -/
theorem tokens?_balanced (text : List Char) :
    ((tokens? .lenient text).isSome = true <->
      exists code, Outside text code ∧ Nested (code.filter isBracket)) ∧
    (forall other code code', Outside text code -> Outside other code' ->
      code.filter (fun c => !isAngle c) = code'.filter (fun c => !isAngle c) ->
      (tokens? .lenient text).isSome = (tokens? .lenient other).isSome) ∧
    forall tokens, tokens? .strict text = some tokens -> tokens? .lenient text = some tokens := by
  have hscan : forall t, (tokens? .lenient t).isSome = (scan .lenient t).isSome :=
    fun t => Option.isSome_map
  refine ⟨?_, ?_, ?_⟩
  · rw [hscan]
    constructor
    · intro h
      rcases exists_outside_of_scanFrom .lenient text h with ⟨code, hcode⟩
      exact ⟨code, hcode, (isSome_scan_lenient_iff hcode).mp h⟩
    · rintro ⟨code, hcode, hnested⟩
      exact (isSome_scan_lenient_iff hcode).mpr hnested
  · intro other code code' hcode hcode' hsame
    rw [hscan, hscan, Bool.eq_iff_iff, isSome_scan_lenient_iff hcode,
      isSome_scan_lenient_iff hcode', filter_isBracket_of_angles hsame]
  · intro tokens htokens
    rcases Option.map_eq_some_iff.mp htokens with ⟨marks, hmarks, rfl⟩
    rw [tokens?, scan_lenient_of_strict hmarks]
    rfl

/-- A round bracket in quotes, and angles that are generic in one text and stray in the other. -/
theorem tokens?_balanced_strayAngles :
    Outside ['f', '<', 'T', '>', '(', '"', '(', '"', ')'] ['f', '<', 'T', '>', '(', ')'] ∧
    Outside ['f', '>', 'T', '<', '(', '"', '(', '"', ')'] ['f', '>', 'T', '<', '(', ')'] ∧
    (tokens? .lenient ['f', '<', 'T', '>', '(', '"', '(', '"', ')']).isSome =
      (tokens? .lenient ['f', '>', 'T', '<', '(', '"', '(', '"', ')']).isSome ∧
    tokens? .lenient ['f', '<', 'T', '>', '(', '"', '(', '"', ')'] =
      some [⟨0, 'f', 0⟩, ⟨1, '<', 1⟩, ⟨2, 'T', 1⟩, ⟨3, '>', 0⟩, ⟨4, '(', 1⟩, ⟨8, ')', 0⟩] := by
  have hlist : Outside ['(', '"', '(', '"', ')'] ['(', ')'] :=
    .code rfl (@Outside.run '"' ['('] [')'] [')'] rfl rfl (.code rfl .nil))
  have hgeneric : Outside ['f', '<', 'T', '>', '(', '"', '(', '"', ')']
      ['f', '<', 'T', '>', '(', ')'] :=
    .code rfl (.code rfl (.code rfl (.code rfl hlist)))
  have hstray : Outside ['f', '>', 'T', '<', '(', '"', '(', '"', ')']
      ['f', '>', 'T', '<', '(', ')'] :=
    .code rfl (.code rfl (.code rfl (.code rfl hlist)))
  rcases tokens?_balanced ['f', '<', 'T', '>', '(', '"', '(', '"', ')'] with
    ⟨_, hangles, hstrict⟩
  exact ⟨hgeneric, hstray, hangles _ _ _ hgeneric hstray rfl, hstrict _ rfl⟩

end Signature
end Contracts
