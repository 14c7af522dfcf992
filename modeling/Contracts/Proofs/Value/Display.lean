import Contracts.Proofs.Binary64.Layouts
import Contracts.Proofs.Numeral.Grammar
import Contracts.Proofs.Value.Ordering
import Contracts.Value.Display

/-!
# Numbers in messages

A number in a message is a plain decimal, a decimal with a signed exponent, the name of infinity
or a single zero; `Shown` says so by the parts of the text, and says what number the digits have.
Between a millionth and `10^21` the decimal is plain.  Each of these texts reads as the number
again, except that negative zero loses its sign, and so each is as large as the number in the
loose order.
-/

namespace Contracts

open Decimal (AreDigits areDigits_digits)
open Magnitude (ofDecimal)

namespace Binary64

/-! ## One zero -/

/-- A number, with the positive zero for both zeros. -/
def withPositiveZero : Binary64 -> Binary64
  | nan =>
      nan
  | number negative m =>
      number (negative && m != .zero) m

theorem withPositiveZero_of_ne {m : Magnitude} (negative : Bool) (h : m ≠ .zero) :
    (number negative m).withPositiveZero = number negative m := by
  show number (negative && m != .zero) m = _
  rw [bne_iff_ne.mpr h, Bool.and_true]

/-- The two zeros are equal in the order of numbers. -/
theorem compare?_withPositiveZero {x : Binary64} (h : x ≠ .nan) :
    x.withPositiveZero.compare? x = some .eq := by
  cases x with
  | nan =>
      exact absurd rfl h
  | number negative m =>
      by_cases hzero : m = .zero
      · subst hzero
        cases negative <;> rfl
      · rw [withPositiveZero_of_ne negative hzero]
        exact congrArg some Std.ReflCmp.compare_self

end Binary64

namespace Numeral

/-! ## Decimals by their parts -/

/-- Digits with a point and a fraction, or without both. -/
def withPoint (w f : List Char) : List Char :=
  if f = [] then w else w ++ '.' :: f

/-- Whether digits on both sides of a point and a power of ten have some nearest magnitude. -/
structure Denotes (w f : List Char) (e : Int) (m : Magnitude) : Prop where
  areDigits : AreDigits w
  isDigit : forall c, c ∈ f -> c.isDigit = true
  ofDecimal_eq : ofDecimal (Decimal.ofDigits (w ++ f)) (e - f.length) = m

theorem pointed_withPoint {w f : List Char} (hw : forall c, c ∈ w -> c.isDigit = true)
    (hf : forall c, c ∈ f -> c.isDigit = true) : Pointed (withPoint w f) w f := by
  refine ⟨hw, hf, ?_⟩
  unfold withPoint
  split
  · exact Or.inr ⟨rfl, ‹_›⟩
  · exact Or.inl rfl

theorem isBlank_of_mem_sign {sign : List Char} (h : IsSign sign) :
    forall c, c ∈ sign -> Text.isBlank c = false := by
  cases h with
  | absent =>
      simp
  | plus =>
      exact List.forall_mem_singleton.mpr rfl
  | minus =>
      exact List.forall_mem_singleton.mpr rfl

theorem isBlank_of_mem_pointed {m w f : List Char} (h : Pointed m w f) :
    forall c, c ∈ m -> Text.isBlank c = false := by
  intro c hc
  rcases h.text with rfl | ⟨rfl, rfl⟩
  · rcases List.mem_append.mp hc with hc | hc
    · exact Text.isBlank_eq_false_of_isDigit (h.whole c hc)
    · rcases List.mem_cons.mp hc with rfl | hc
      · rfl
      · exact Text.isBlank_eq_false_of_isDigit (h.fraction c hc)
  · exact Text.isBlank_eq_false_of_isDigit (h.whole c hc)

theorem isBlank_of_mem_exponent {e : List Char} (h : IsExponent e) :
    forall c, c ∈ e -> Text.isBlank c = false := by
  cases h with
  | absent =>
      simp
  | marked hmark hsign hds =>
      intro c hc
      rcases List.mem_cons.mp hc with rfl | hc
      · rcases hmark with rfl | rfl
        · rfl
        · rfl
      · rcases List.mem_append.mp hc with hc | hc
        · exact isBlank_of_mem_sign hsign c hc
        · exact Text.isBlank_eq_false_of_isDigit (hds.isDigit c hc)

/-- A decimal reads as the number that its digits denote. -/
theorem read_decimal {sign w f e : List Char} {m : Magnitude} (hsign : IsSign sign)
    (h : Denotes w f (power e) m) (he : IsExponent e) :
    read (String.ofList (sign ++ (withPoint w f ++ e))) = .number (sign == ['-']) m := by
  have hpointed := pointed_withPoint h.areDigits.isDigit h.isDigit
  have hne : ¬ (w = [] ∧ f = []) := fun hnil => h.areDigits.ne_nil hnil.1
  have htrim : Text.trim (sign ++ (withPoint w f ++ e)) = sign ++ (withPoint w f ++ e) := by
    apply Text.trim_of_forall
    simp only [List.forall_mem_append]
    exact ⟨isBlank_of_mem_sign hsign, isBlank_of_mem_pointed hpointed,
      isBlank_of_mem_exponent he⟩
  have hdecimal : isDecimal (sign ++ (withPoint w f ++ e)) = true :=
    (isDecimal_iff _).mpr (.parts hsign ((isMantissa_iff _).mpr ⟨w, f, hpointed, hne⟩) he)
  unfold read
  rw [String.toList_ofList, htrim, ofTrimmed_of_isDecimal hdecimal]
  unfold Binary64.parse?
  rw [literal?_parts hsign hpointed hne he, Option.getD_some]
  unfold Decimal.Literal.toBinary64
  rw [h.ofDecimal_eq]

end Numeral

namespace Value

open Numeral (Denotes IsSign IsExponent withPoint power read_decimal)

/-! ## Shapes -/

/-- The sign that stands before a number. -/
def signText (negative : Bool) : List Char :=
  if negative then ['-'] else []

theorem isSign_signText (negative : Bool) : IsSign (signText negative) := by
  cases negative with
  | false =>
      exact .absent
  | true =>
      exact .minus

theorem signText_beq (negative : Bool) : (signText negative == ['-']) = negative := by
  cases negative <;> rfl

/-- The text of a number in a message. -/
inductive Shown : Binary64 -> List Char -> Prop where
  | zero (negative : Bool) : Shown (.number negative .zero) ['0']
  | infinity (negative : Bool) :
      Shown (.infinity negative) (signText negative ++ "Infinity".toList)
  | plain (negative : Bool) {m : Magnitude} {w f : List Char} (hleast : ofDecimal 1 (-6) <= m)
      (hgreatest : m < ofDecimal 1 21) (h : Denotes w f 0 m) :
      Shown (.number negative m) (signText negative ++ withPoint w f)
  | small (negative : Bool) {m : Magnitude} {d : Char} {f : List Char} {k : Nat}
      (hpositive : m ≠ .zero) (hsmall : m < ofDecimal 1 (-6)) (h : Denotes [d] f (-k) m) :
      Shown (.number negative m)
        (signText negative ++ (withPoint [d] f ++ 'e' :: '-' :: Decimal.digits k))
  | large (negative : Bool) {m : Magnitude} {d : Char} {f : List Char} {k : Nat}
      (hfinite : m ≠ .infinity) (hlarge : ofDecimal 1 21 <= m) (h : Denotes [d] f k m) :
      Shown (.number negative m)
        (signText negative ++ (withPoint [d] f ++ 'e' :: '+' :: Decimal.digits k))

/-! ## Every number is shown -/

section

variable {s : Scientific} {m : Magnitude}
  (hm : ofDecimal (Decimal.ofDigits s.digits) (s.exponent + 1 - s.digits.length) = m)
include hm

theorem denotes_of_placed {w f : List Char} (h : s.Placed w f) : Denotes w f 0 m := by
  refine ⟨h.areDigits, h.isDigit, ?_⟩
  rw [Int.zero_sub, h.ofDecimal_eq, hm]

theorem denotes_cons {d : Char} {f : List Char} (h : AreDigits (d :: f))
    (hs : s.digits = d :: f) : Denotes [d] f s.exponent m := by
  refine ⟨⟨List.cons_ne_nil d [], ?_⟩, ?_, ?_⟩
  · intro c hc
    rw [List.mem_singleton.mp hc]
    exact h.isDigit d List.mem_cons_self
  · intro c hc
    exact h.isDigit c (List.mem_cons_of_mem d hc)
  · rw [List.singleton_append, ← hm, hs, List.length_cons]
    congr 1
    omega

end

theorem exponent_millionth : ((ofDecimal 1 (-6)).scientific .up).exponent = -6 := by
  decide +kernel

theorem exponent_sextillion : ((ofDecimal 1 21).scientific .up).exponent = 21 := by
  decide +kernel

theorem magnitude_eq (m : Magnitude) : numberLayout.magnitude m =
    if -6 <= (m.scientific .up).exponent ∧ (m.scientific .up).exponent <= 20 then
      numberLayout.positional (m.scientific .up)
    else Layout.exponential (m.scientific .up) := by
  unfold Layout.magnitude
  simp only [Bool.and_eq_true, decide_eq_true_eq]
  rfl

/-- The exponent of the leading digit decides between the shapes as the size of the number does. -/
theorem shown_magnitude (negative : Bool) {m : Magnitude} (hpositive : m ≠ .zero)
    (hfinite : m ≠ .infinity) :
    Shown (.number negative m) (signText negative ++ numberLayout.magnitude m) := by
  have hleading := Scientific.leading_scientific .up m
  have hread := m.ofDecimal_scientific .up
  have hlow := Magnitude.le_exponent_iff .up hpositive exponent_millionth
  have hhigh := Magnitude.le_exponent_iff .up hpositive exponent_sextillion
  rw [magnitude_eq]
  generalize m.scientific .up = s at *
  rcases List.exists_cons_of_ne_nil hleading.areDigits.ne_nil with ⟨d, f, hs⟩
  have hdenotes : Denotes [d] f s.exponent m := denotes_cons hread (hs ▸ hleading.areDigits) hs
  rcases Int.lt_or_le s.exponent (-6) with hsmall | hleast
  · have hexponent : s.exponent = -(s.exponent.natAbs : Int) := by omega
    rw [if_neg (by omega), Layout.exponential_cons hs, if_pos (by omega : s.exponent < 0)]
    rw [hexponent] at hdenotes
    exact .small negative hpositive (Fin.not_le.mp (mt hlow.mpr (by omega))) hdenotes
  · rcases Int.lt_or_le 20 s.exponent with hlarge | hgreatest
    · have hexponent : s.exponent = (s.exponent.natAbs : Int) := by omega
      rw [if_neg (by omega), Layout.exponential_cons hs, if_neg (by omega : ¬ s.exponent < 0)]
      rw [hexponent] at hdenotes
      exact .large negative hfinite (hhigh.mp hlarge) hdenotes
    · rcases numberLayout.exists_positional hleading with ⟨w, f, hplaced, htext⟩
      have hpoint : numberLayout.positional s = withPoint w f := by
        rw [htext]
        unfold withPoint numberLayout
        rw [List.append_nil]
      rw [if_pos ⟨hleast, hgreatest⟩, hpoint]
      exact .plain negative (hlow.mp hleast) (Fin.not_le.mp (mt hhigh.mpr (by omega)))
        (denotes_of_placed hread hplaced)

theorem write_number (negative : Bool) {m : Magnitude} (h : m ≠ .zero) :
    numberLayout.write (.number negative m) =
      if m = .infinity then signText negative ++ "Infinity".toList
      else signText negative ++ numberLayout.magnitude m := by
  have hsign : (negative && (m != .zero || numberLayout.signedZero)) = negative := by
    rw [bne_iff_ne.mpr h, Bool.true_or, Bool.and_true]
  unfold Layout.write
  simp only
  rw [hsign]
  rfl

theorem shown_write {x : Binary64} (h : x ≠ .nan) : Shown x (numberLayout.write x) := by
  cases x with
  | nan =>
      exact absurd rfl h
  | number negative m =>
      by_cases hzero : m = .zero
      · subst hzero
        have htext : numberLayout.write (.number negative .zero) = ['0'] := by
          cases negative <;> rfl
        rw [htext]
        exact .zero negative
      · rw [write_number negative hzero]
        split
        · rename_i hinfinity
          subst hinfinity
          exact .infinity negative
        · rename_i hfinite
          exact shown_magnitude negative hzero hfinite

/-! ## Reading back -/

theorem power_signed (k : Nat) :
    power ('e' :: '-' :: Decimal.digits k) = -k ∧ power ('e' :: '+' :: Decimal.digits k) = k := by
  have hminus := Numeral.power_marked 'e' .minus (areDigits_digits k)
  have hplus := Numeral.power_marked 'e' .plus (areDigits_digits k)
  rw [Decimal.ofDigits_digits] at hminus hplus
  exact ⟨hminus, hplus⟩

/-- Every shape reads as the number again, and both zeros as the positive one. -/
theorem read_of_shown {x : Binary64} {text : List Char} (h : Shown x text) :
    Numeral.read (String.ofList text) = x.withPositiveZero := by
  cases h with
  | zero negative =>
      cases negative <;> rfl
  | infinity negative =>
      cases negative <;> rfl
  | plain negative hleast _ h =>
      have hpositive := Magnitude.ne_zero_of_ofDecimal_le (by decide +kernel) hleast
      have hread := read_decimal (isSign_signText negative) h .absent
      rw [List.append_nil, signText_beq] at hread
      rw [hread, Binary64.withPositiveZero_of_ne negative hpositive]
  | @small negative _ _ _ k hpositive _ h =>
      have hexponent := IsExponent.marked (.inl rfl) .minus (areDigits_digits k)
      rw [← (power_signed k).1] at h
      rw [read_decimal (isSign_signText negative) h hexponent, signText_beq,
        Binary64.withPositiveZero_of_ne negative hpositive]
  | @large negative _ _ _ k _ hlarge h =>
      have hpositive := Magnitude.ne_zero_of_ofDecimal_le (by decide +kernel) hlarge
      have hexponent := IsExponent.marked (.inl rfl) .plus (areDigits_digits k)
      rw [← (power_signed k).2] at h
      rw [read_decimal (isSign_signText negative) h hexponent, signText_beq,
        Binary64.withPositiveZero_of_ne negative hpositive]

theorem read_intDigits (n : Int) :
    Numeral.read (String.ofList (Decimal.intDigits n)) = Binary64.ofInt n := by
  have htext : Decimal.intDigits n =
      signText (decide (n < 0)) ++ (withPoint (Decimal.digits n.natAbs) [] ++ []) := by
    unfold Decimal.intDigits signText withPoint
    by_cases hn : n < 0
    · simp [hn]
    · simp [hn]
  have hdenotes : Denotes (Decimal.digits n.natAbs) [] 0 (Magnitude.ofNat n.natAbs) := by
    refine ⟨areDigits_digits _, by simp, ?_⟩
    rw [List.append_nil, Decimal.ofDigits_digits]
    exact Magnitude.ofDecimal_whole _
  rw [htext, read_decimal (isSign_signText _) hdenotes .absent, signText_beq]
  rfl

theorem read_display_nan : Numeral.read (float .nan).display = .nan := rfl

/-- A text that reads as NaN is unordered with all that is no text. -/
theorem compare?_eq_none_of_read {s : String} (hs : Numeral.read s = .nan) {v : Value}
    (hv : v.isText = false) : (str s).compare? v = none ∧ v.compare? (str s) = none := by
  have hnone : (str s).compare? v = none := by
    have htexts : ((str s).isText && v.isText) = false := by rw [hv, Bool.and_false]
    rw [compare?_eq_compare?_toNumber rfl htexts]
    show (Numeral.read s).compare? v.toNumber = none
    rw [hs]
    cases v.toNumber <;> rfl
  refine ⟨hnone, ?_⟩
  rw [compare?_swap (str s) v, hnone]
  rfl

/-- A number that is displayed has one of the shapes of numbers in messages, reads as that number
and is as large as it in the loose order; NaN is shown as a text that is unordered. -/
theorem display_reads_back (n : Int64) (x : Binary64) (v : Value) :
    (Numeral.read (int n).display = Binary64.ofInt n.toInt ∧
      (str (int n).display).compare? (int n) = some .eq) ∧
    (x ≠ .nan -> Shown x (float x).display.toList ∧
      Numeral.read (float x).display = x.withPositiveZero ∧
      (str (float x).display).compare? (float x) = some .eq) ∧
    Numeral.read (float .nan).display = .nan ∧
    (v.isText = false -> (str (float .nan).display).compare? v = none ∧
      v.compare? (str (float .nan).display) = none) := by
  refine ⟨?_, ?_, read_display_nan, compare?_eq_none_of_read read_display_nan⟩
  · have hread : Numeral.read (int n).display = Binary64.ofInt n.toInt := read_intDigits n.toInt
    refine ⟨hread, ?_⟩
    show (Numeral.read (int n).display).compare? (Binary64.ofInt n.toInt) = some .eq
    rw [hread]
    exact congrArg some Std.ReflCmp.compare_self
  · intro hx
    have hshown := shown_write hx
    have hread : Numeral.read (float x).display = x.withPositiveZero := read_of_shown hshown
    refine ⟨?_, hread, ?_⟩
    · show Shown x (String.ofList (numberLayout.write x)).toList
      rwa [String.toList_ofList]
    · show (Numeral.read (float x).display).compare? x = some .eq
      rw [hread]
      exact Binary64.compare?_withPositiveZero hx

/-- The least integer, the least number above zero with a sign, and NaN beside its own text. -/
theorem display_reads_back_least :
    (float (.number true ⟨1, by decide⟩)).display = "-5e-324" ∧
    (str (int Int64.minValue).display).compare? (int Int64.minValue) = some .eq ∧
    (Binary64.number true ⟨1, by decide⟩ ≠ .nan ∧
      (str "-5e-324").compare? (float (.number true ⟨1, by decide⟩)) = some .eq) ∧
    ((float .nan).isText = false ∧ (str (float .nan).display).compare? (float .nan) = none) := by
  have htext : (float (.number true ⟨1, by decide⟩)).display = "-5e-324" := by
    decide +kernel
  have hnumber : Binary64.number true ⟨1, by decide⟩ ≠ .nan := Numeral.number_ne_nan _ _
  have hback := display_reads_back Int64.minValue (.number true ⟨1, by decide⟩) (float .nan)
  rw [htext] at hback
  exact ⟨htext, hback.1.2, ⟨hnumber, (hback.2.1 hnumber).2.2⟩, rfl, (hback.2.2.2 rfl).1⟩

end Value
end Contracts
