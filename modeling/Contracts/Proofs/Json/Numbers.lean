import Contracts.Proofs.Binary64.Layouts
import Contracts.Proofs.Json.Reading
import Contracts.Proofs.Text.Boundaries

/-!
# Numbers written and read

A number text has a sign, digits before the point, perhaps a fraction and perhaps an exponent.
`Spelling` is such a text by its parts; the reader finds the same parts in it.  Integers are
spelled without fraction and exponent, doubles with at least one of them, so a reader never takes
the one for the other.

Which double stands behind the parts of a text is a matter of its own: `reread?` is the double
that is made of the text of a double.
-/

namespace Contracts
namespace Json

open Decimal (AreDigits areDigits_digits)

/-- The text of a number, by its parts. -/
structure Spelling where
  negative : Bool
  whole : List Char
  fraction : Option (List Char)
  /-- The sign and the digits. -/
  exponent : Option (Char × List Char)
  areDigits_whole : AreDigits whole
  /-- A zero stands alone before the point. -/
  length_whole : whole.head? = some '0' -> whole.length = 1
  areDigits_fraction : forall ds, fraction = some ds -> AreDigits ds
  areDigits_exponent : forall sign ds, exponent = some (sign, ds) ->
    (sign == '+' || sign == '-') = true ∧ AreDigits ds

namespace Spelling

def fractionText : Option (List Char) -> List Char
  | none =>
      []
  | some ds =>
      '.' :: ds

def exponentText : Option (Char × List Char) -> List Char
  | none =>
      []
  | some (sign, ds) =>
      'e' :: sign :: ds

def text (p : Spelling) : List Char :=
  (if p.negative then ['-'] else []) ++
    (p.whole ++ (fractionText p.fraction ++ exponentText p.exponent))

def exponentValue (e : Char × List Char) : Int :=
  if some e.1 = some '-' then -(Decimal.ofDigits e.2 : Int) else Decimal.ofDigits e.2

/-- What a reader finds in the text. -/
def parts (p : Spelling) : Reader.NumberText where
  negative := p.negative
  whole := p.whole
  fraction := p.fraction
  exponent := p.exponent.map exponentValue

end Spelling

namespace Reader

theorem digits_append {ds : List Char} (h : AreDigits ds) (short : ReadError) {rest : List Char}
    (hrest : forall c, c ∈ rest.head? -> c.isDigit = false) :
    digits short (ds ++ rest) = .ok (ds, rest) := by
  unfold digits
  rw [Text.takeWhile_cut h.isDigit hrest, Text.dropWhile_cut h.isDigit hrest]
  cases ds with
  | nil =>
      exact absurd rfl h.ne_nil
  | cons d ds =>
      have hd : d.isDigit = true := h.isDigit d List.mem_cons_self
      show (if d.isDigit = true then _ else _) = _
      rw [if_pos hd]

theorem optional_of_pos {p : Char -> Bool} {c : Char} (h : p c = true) (rest : List Char) :
    optional p (c :: rest) = .ok (some c, rest) := by
  show (if p c = true then _ else _) = _
  rw [if_pos h]

theorem optional_of_neg {p : Char -> Bool} {text : List Char}
    (h : forall c, c ∈ text.head? -> p c = false) : optional p text = .ok (none, text) := by
  cases text with
  | nil =>
      rfl
  | cons c rest =>
      show (if p c = true then _ else _) = _
      rw [if_neg (by simp [h c rfl])]

theorem wholeDigits_append {ds : List Char} (h : AreDigits ds)
    (hlead : ds.head? = some '0' -> ds.length = 1) (short : ReadError) {rest : List Char}
    (hrest : forall c, c ∈ rest.head? -> c.isDigit = false) :
    wholeDigits short (ds ++ rest) = .ok (ds, rest) := by
  have hzero : ¬ (decide (ds.head? = some '0') && ds.length != 1) = true := by
    intro hzero
    rw [Bool.and_eq_true, decide_eq_true_eq, bne_iff_ne] at hzero
    exact hzero.2 (hlead hzero.1)
  unfold wholeDigits
  rw [bind_of_ok (digits_append h short hrest), if_neg hzero]
  rfl

section

variable {rest : List Char} (hrest : Stops rest)
include hrest

theorem isDigit_of_stops (c : Char) (hc : c ∈ rest.head?) : c.isDigit = false := by
  have h := hrest c hc
  unfold continuesNumber at h
  simp only [Bool.or_eq_false_iff] at h
  exact h.1.1.1

theorem isMark_of_stops (c : Char) (hc : c ∈ rest.head?) : (c == 'e' || c == 'E') = false := by
  have h := hrest c hc
  unfold continuesNumber at h
  simp only [Bool.or_eq_false_iff] at h ⊢
  exact ⟨h.1.2, h.2⟩

theorem isPoint_of_stops (c : Char) (hc : c ∈ rest.head?) : (c == '.') = false := by
  have h := hrest c hc
  unfold continuesNumber at h
  simp only [Bool.or_eq_false_iff] at h
  exact h.1.1.2

/-- What stands at the head behind the fraction is the mark of an exponent, or nothing of a
number. -/
theorem head_exponentText (e : Option (Char × List Char)) (c : Char)
    (hc : c ∈ (Spelling.exponentText e ++ rest).head?) :
    c.isDigit = false ∧ (c == '.') = false := by
  cases e with
  | none =>
      exact ⟨isDigit_of_stops hrest c hc, isPoint_of_stops hrest c hc⟩
  | some e =>
      have hmark : 'e' = c := by simpa [Spelling.exponentText] using hc
      rw [← hmark]
      decide

theorem head_fractionText (f : Option (List Char)) (e : Option (Char × List Char)) (c : Char)
    (hc : c ∈ (Spelling.fractionText f ++ (Spelling.exponentText e ++ rest)).head?) :
    c.isDigit = false := by
  cases f with
  | none =>
      exact (head_exponentText hrest e c hc).1
  | some ds =>
      have hpoint : '.' = c := by simpa [Spelling.fractionText] using hc
      rw [← hpoint]
      decide

theorem exponentPart_spelled (p : Spelling) (short : ReadError) :
    exponentPart short (Spelling.exponentText p.exponent ++ rest) =
      .ok (p.exponent.map Spelling.exponentValue, rest) := by
  unfold exponentPart
  cases he : p.exponent with
  | none =>
      show (optional _ >>= _) rest = _
      rw [bind_of_ok (optional_of_neg (isMark_of_stops hrest))]
      rfl
  | some e =>
      obtain ⟨sign, ds⟩ := e
      rcases p.areDigits_exponent sign ds he with ⟨hsign, hds⟩
      show (optional _ >>= _) ('e' :: sign :: (ds ++ rest)) = _
      rw [bind_of_ok (optional_of_pos (by decide) _)]
      show (optional _ >>= _) (sign :: (ds ++ rest)) = _
      rw [bind_of_ok (optional_of_pos hsign _),
        bind_of_ok (digits_append hds short (isDigit_of_stops hrest))]
      rfl

theorem fractionDigits_spelled (p : Spelling) (short : ReadError) :
    fractionDigits short
        (Spelling.fractionText p.fraction ++ (Spelling.exponentText p.exponent ++ rest)) =
      .ok (p.fraction, Spelling.exponentText p.exponent ++ rest) := by
  have hhead := head_exponentText hrest p.exponent
  unfold fractionDigits
  cases hf : p.fraction with
  | none =>
      show (optional _ >>= _) (Spelling.exponentText p.exponent ++ rest) = _
      rw [bind_of_ok (optional_of_neg fun c hc => (hhead c hc).2)]
      rfl
  | some ds =>
      show (optional _ >>= _) ('.' :: (ds ++ (Spelling.exponentText p.exponent ++ rest))) = _
      rw [bind_of_ok (optional_of_pos (by decide) _)]
      show (digits short >>= _) _ = _
      rw [bind_of_ok (digits_append (p.areDigits_fraction ds hf) short
        fun c hc => (hhead c hc).1)]
      rfl

/-- The reader finds the parts of a number in its text. -/
theorem numberText_spelled (p : Spelling) (short : ReadError) :
    numberText short (p.text ++ rest) = .ok (p.parts, rest) := by
  have hsign : optional (· == '-') (p.text ++ rest) =
      .ok (if p.negative then some '-' else none,
        p.whole ++ (Spelling.fractionText p.fraction ++
          (Spelling.exponentText p.exponent ++ rest))) := by
    unfold Spelling.text
    rw [List.append_assoc, List.append_assoc, List.append_assoc]
    cases p.negative with
    | true =>
        exact optional_of_pos (by decide) _
    | false =>
        apply optional_of_neg
        intro c hc
        -- The first digit is no sign.
        have hdigit : c.isDigit = true := by
          apply p.areDigits_whole.isDigit
          rw [if_neg (by decide), List.nil_append,
            List.head?_append_of_ne_nil _ p.areDigits_whole.ne_nil] at hc
          exact List.mem_of_mem_head? hc
        rw [beq_eq_false_iff_ne]
        intro hminus
        rw [hminus] at hdigit
        revert hdigit
        decide
  unfold numberText
  rw [bind_of_ok hsign, bind_of_ok (wholeDigits_append p.areDigits_whole p.length_whole short
      (head_fractionText hrest p.fraction p.exponent)),
    bind_of_ok (fractionDigits_spelled hrest p short),
    bind_of_ok (exponentPart_spelled hrest p short)]
  show Except.ok (NumberText.mk _ p.whole p.fraction _, rest) = _
  unfold Spelling.parts
  cases p.negative with
  | true =>
      rfl
  | false =>
      rfl

end

end Reader

/-! ## Integers -/

theorem length_digits_of_head {n : Nat} (h : (Decimal.digits n).head? = some '0') :
    (Decimal.digits n).length = 1 := by
  rcases Nat.eq_zero_or_pos n with hn | hn
  · rw [hn]
    rfl
  · exact absurd h (Decimal.head?_digits_ne_zero hn)

namespace Spelling

def ofInt (n : Int) : Spelling where
  negative := n < 0
  whole := Decimal.digits n.natAbs
  fraction := none
  exponent := none
  areDigits_whole := areDigits_digits _
  length_whole := length_digits_of_head
  areDigits_fraction := by
    intro ds hds
    cases hds
  areDigits_exponent := by
    intro sign ds hds
    cases hds

theorem text_ofInt (n : Int) : (ofInt n).text = Decimal.intDigits n := by
  unfold text Decimal.intDigits
  show (if decide (n < 0) = true then ['-'] else []) ++ (Decimal.digits n.natAbs ++ []) = _
  rw [List.append_nil]
  by_cases hn : n < 0
  · rw [if_pos hn, if_pos (decide_eq_true hn)]
    rfl
  · rw [if_neg hn, if_neg (by simpa using hn)]
    rfl

theorem integer?_ofInt {n : Int} (hleast : -(Reader.signedLimit : Int) ≤ n)
    (hgreatest : n < Reader.signedLimit) : (ofInt n).parts.integer? = some n := by
  unfold Reader.signedLimit at hleast hgreatest
  show (if decide (n < 0) = true then
      if decide (Decimal.ofDigits (Decimal.digits n.natAbs) = 0) ||
          decide (Reader.signedLimit < Decimal.ofDigits (Decimal.digits n.natAbs))
        then none else some (-(Decimal.ofDigits (Decimal.digits n.natAbs) : Int))
    else if Decimal.ofDigits (Decimal.digits n.natAbs) < Decimal.wordLimit
      then some (Decimal.ofDigits (Decimal.digits n.natAbs) : Int) else none) = some n
  rw [Decimal.ofDigits_digits]
  unfold Reader.signedLimit Decimal.wordLimit
  by_cases hn : n < 0
  · rw [if_pos (decide_eq_true hn), if_neg]
    · congr 1
      omega
    · simp only [Bool.or_eq_true, decide_eq_true_eq]
      omega
  · rw [if_neg (by simpa using hn), if_pos (by omega)]
    congr 1
    omega

end Spelling

/-! ## Doubles -/

/-- The double that the reader makes of the text of a double. -/
def reread? (x : Binary64) : Option Binary64 :=
  match Reader.numberText .endOfText (writeFloat x) with
  | .ok (parts, _) =>
      parts.float?
  | .error _ =>
      none

/-- Whether a spelling is that of a double by its form. -/
def Spelling.Fractional (p : Spelling) : Prop :=
  p.fraction.isSome = true ∨ p.exponent.isSome = true

theorem Spelling.integer?_of_fractional {p : Spelling} (h : p.Fractional) :
    p.parts.integer? = none := by
  have hform : (p.parts.fraction.isSome || p.parts.exponent.isSome) = true := by
    rw [Bool.or_eq_true]
    rcases h with h | h
    · exact Or.inl h
    · right
      show (p.exponent.map Spelling.exponentValue).isSome = true
      rw [Option.isSome_map]
      exact h
  unfold Reader.NumberText.integer?
  exact if_pos hform

theorem exists_spelling_exponential {s : Scientific} (h : s.Leading) (negative : Bool) :
    exists p : Spelling, p.text = (if negative then ['-'] else []) ++ Layout.exponential s ∧
      p.Fractional := by
  have hsign : ((if s.exponent < 0 then '-' else '+') == '+' ||
      (if s.exponent < 0 then '-' else '+') == '-') = true := by
    split
    · decide
    · decide
  have hexponent : forall sign ds,
      some (if s.exponent < 0 then '-' else '+', Decimal.digits s.exponent.natAbs) =
        some (sign, ds) -> (sign == '+' || sign == '-') = true ∧ AreDigits ds := by
    intro sign ds heq
    cases heq
    exact ⟨hsign, areDigits_digits _⟩
  have hdigits := h.areDigits
  unfold Layout.exponential
  cases hs : s.digits with
  | nil =>
      exact absurd hs hdigits.ne_nil
  | cons d rest =>
      rw [hs] at hdigits
      have hd : AreDigits [d] := by
        constructor
        · simp
        · intro c hc
          rw [List.mem_singleton.mp hc]
          exact hdigits.isDigit d List.mem_cons_self
      cases rest with
      | nil =>
          refine ⟨⟨negative, [d], none, some (_, _), hd, fun _ => rfl, ?_, hexponent⟩, rfl,
            Or.inr rfl⟩
          intro ds hds
          cases hds
      | cons e rest =>
          refine ⟨⟨negative, [d], some (e :: rest), some (_, _), hd, fun _ => rfl, ?_,
            hexponent⟩, rfl, Or.inl rfl⟩
          intro ds hds
          cases hds
          constructor
          · simp
          · intro c hc
            exact hdigits.isDigit c (List.mem_cons_of_mem d hc)

theorem exists_spelling_positional {s : Scientific} (h : s.Leading) (negative : Bool) :
    exists p : Spelling,
      p.text = (if negative then ['-'] else []) ++ numberLayout.positional s ∧ p.Fractional := by
  have hnone : forall sign ds, (none : Option (Char × List Char)) = some (sign, ds) ->
      (sign == '+' || sign == '-') = true ∧ AreDigits ds := by
    intro sign ds hds
    cases hds
  rcases numberLayout.exists_positional h with ⟨w, f, hplaced, htext⟩
  by_cases hf : f = []
  · refine ⟨⟨negative, w, some ['0'], none, hplaced.areDigits, hplaced.length_whole, ?_, hnone⟩,
      ?_, Or.inl rfl⟩
    · intro ds hds
      cases hds
      exact areDigits_digits 0
    · rw [htext, if_pos hf]
      rfl
  · refine ⟨⟨negative, w, some f, none, hplaced.areDigits, hplaced.length_whole, ?_, hnone⟩, ?_,
      Or.inl rfl⟩
    · intro ds hds
      cases hds
      exact ⟨hf, hplaced.isDigit⟩
    · rw [htext, if_neg hf]
      unfold Spelling.text Spelling.fractionText Spelling.exponentText
      rw [List.append_nil]

theorem exists_spelling_float {x : Binary64} (h : x.isFinite = true) :
    exists p : Spelling, p.text = writeFloat x ∧ p.Fractional := by
  cases x with
  | nan =>
      cases h
  | number negative m =>
      have hm : m ≠ Magnitude.infinity := by
        unfold Binary64.isFinite at h
        exact bne_iff_ne.mp h
      have hwrite : writeFloat (.number negative m) =
          (if negative then ['-'] else []) ++ numberLayout.magnitude m := by
        unfold writeFloat Layout.write numberLayout
        rw [if_pos h]
        simp [hm]
      have hlayout : numberLayout.magnitude m = numberLayout.positional (m.scientific .even) ∨
          numberLayout.magnitude m = Layout.exponential (m.scientific .even) := by
        unfold Layout.magnitude
        simp only
        split
        · exact Or.inl rfl
        · exact Or.inr rfl
      have hleading := Scientific.leading_scientific .even m
      rw [hwrite]
      rcases hlayout with hlayout | hlayout
      · rw [hlayout]
        exact exists_spelling_positional hleading negative
      · rw [hlayout]
        exact exists_spelling_exponential hleading negative

namespace Reader

variable {rest : List Char} (hrest : Stops rest)
include hrest

theorem number_intDigits {n : Int} (hleast : -(signedLimit : Int) ≤ n)
    (hgreatest : n < signedLimit) :
    number (Decimal.intDigits n ++ rest) = .ok (.integer n, rest) := by
  rw [← Spelling.text_ofInt]
  unfold number
  rw [bind_of_ok (numberText_spelled hrest (Spelling.ofInt n) .endOfText)]
  simp only [Spelling.integer?_ofInt hleast hgreatest]
  rfl

/-- A double is never taken for an integer, and is read as the double made of its text. -/
theorem number_writeFloat {x y : Binary64} (hx : x.isFinite = true) (hy : reread? x = some y) :
    number (writeFloat x ++ rest) = .ok (.float y, rest) := by
  rcases exists_spelling_float hx with ⟨p, hp, hfractional⟩
  have hfloat : p.parts.float? = some y := by
    have halone := numberText_spelled stops_nil p .endOfText
    rw [List.append_nil, hp] at halone
    unfold reread? at hy
    rw [halone] at hy
    exact hy
  rw [← hp]
  unfold number
  rw [bind_of_ok (numberText_spelled hrest p .endOfText)]
  simp only [Spelling.integer?_of_fractional hfractional, hfloat]
  rfl

end Reader

end Json
end Contracts
