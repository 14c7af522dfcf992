import Contracts.Proofs.Binary64.Significant
import Contracts.Proofs.Text.Boundaries
import Contracts.Value.Order

/-!
# The grammar of numerals

A numeral is blank, names infinity, has a radix or is a decimal; `Spelled` says so by productions
and not by the cuts that reading makes.  A text reads as a number exactly when it is spelled that
way between the blanks around it.  A decimal is looked at twice, once to accept it and once from
the left to take its parts, and the second look finds the parts of whatever the first accepts.
-/

namespace Contracts
namespace Numeral

open Decimal (AreDigits)
open Text (ne_of_test takeWhile_cut dropWhile_cut)

/-! ## Productions -/

inductive IsSign : List Char -> Prop where
  | absent : IsSign []
  | plus : IsSign ['+']
  | minus : IsSign ['-']

/-- Digits with an optional point, of which at least one stands on either side. -/
inductive IsMantissa : List Char -> Prop where
  | whole {w : List Char} (hw : AreDigits w) : IsMantissa w
  | pointed {w f : List Char} (hw : AreDigits w) (hf : forall c, c ∈ f -> c.isDigit = true) :
      IsMantissa (w ++ '.' :: f)
  | fraction {f : List Char} (hf : AreDigits f) : IsMantissa ('.' :: f)

inductive IsExponent : List Char -> Prop where
  | absent : IsExponent []
  | marked {mark : Char} {sign ds : List Char} (hmark : mark = 'e' ∨ mark = 'E')
      (hsign : IsSign sign) (hds : AreDigits ds) : IsExponent (mark :: (sign ++ ds))

inductive IsDecimalText : List Char -> Prop where
  | parts {sign mantissa exponent : List Char} (hsign : IsSign sign)
      (hmantissa : IsMantissa mantissa) (hexponent : IsExponent exponent) :
      IsDecimalText (sign ++ (mantissa ++ exponent))

/-- A radix with the letters that announce it and the digits that it has. -/
structure Radix where
  base : Nat
  marks : List Char
  digits : List Char

/-- The radices that a numeral may have. -/
def Radix.all : List Radix :=
  [⟨16, ['x', 'X'], "0123456789abcdefABCDEF".toList⟩, ⟨8, ['o', 'O'], "01234567".toList⟩,
    ⟨2, ['b', 'B'], "01".toList⟩]

/-- A numeral with a radix: its letter behind a zero, and at least one digit. -/
structure RadixLiteral where
  radix : Radix
  mark : Char
  digits : List Char
  radix_mem : radix ∈ Radix.all
  mark_mem : mark ∈ radix.marks
  digits_ne_nil : digits ≠ []
  digits_mem : forall c, c ∈ digits -> c ∈ radix.digits

def RadixLiteral.text (l : RadixLiteral) : List Char :=
  '0' :: l.mark :: l.digits

/-- How a number is spelled. -/
inductive Spelled : List Char -> Prop where
  | blank : Spelled []
  | infinity {sign : List Char} (hsign : IsSign sign) : Spelled (sign ++ "Infinity".toList)
  | radix (l : RadixLiteral) : Spelled l.text
  | decimal {text : List Char} (h : IsDecimalText text) : Spelled text

/-! ## Cutting texts -/

theorem eq_false_of_dropWhile {p : Char -> Bool} {text rest : List Char} {c : Char}
    (h : text.dropWhile p = c :: rest) : p c = false := by
  have hhead := List.head?_dropWhile_not p text
  rw [h] at hhead
  exact hhead

theorem exists_sign (text : List Char) :
    exists sign, IsSign sign ∧ text = sign ++ withoutSign text := by
  unfold withoutSign Decimal.splitSign
  split
  · exact ⟨['+'], .plus, rfl⟩
  · exact ⟨['-'], .minus, rfl⟩
  · exact ⟨[], .absent, rfl⟩

/-- Whether a text does not begin with a sign. -/
def Unsigned (text : List Char) : Prop :=
  forall c, c ∈ text.head? -> c ≠ '+' ∧ c ≠ '-'

theorem splitSign_append {sign text : List Char} (hsign : IsSign sign) (h : Unsigned text) :
    Decimal.splitSign (sign ++ text) = (sign == ['-'], text) := by
  cases hsign with
  | absent =>
      rw [List.nil_append]
      unfold Decimal.splitSign
      split
      · exact absurd rfl (h '+' rfl).1
      · exact absurd rfl (h '-' rfl).2
      · rfl
  | plus =>
      rfl
  | minus =>
      rfl

theorem withoutSign_append {sign text : List Char} (hsign : IsSign sign) (h : Unsigned text) :
    withoutSign (sign ++ text) = text := by
  unfold withoutSign
  rw [splitSign_append hsign h]

theorem unsigned_of_isDigit {ds : List Char} (h : forall c, c ∈ ds -> c.isDigit = true) :
    Unsigned ds := by
  intro c hc
  have hdigit := h c (List.mem_of_mem_head? hc)
  exact ⟨ne_of_test hdigit rfl, ne_of_test hdigit rfl⟩

/-! ## Parts of a decimal -/

/-- Whether a text is digits, then perhaps a point and further digits. -/
structure Pointed (m w f : List Char) : Prop where
  whole : forall c, c ∈ w -> c.isDigit = true
  fraction : forall c, c ∈ f -> c.isDigit = true
  text : m = w ++ '.' :: f ∨ m = w ∧ f = []

theorem isMantissa_iff (m : List Char) :
    IsMantissa m <-> exists w f, Pointed m w f ∧ ¬ (w = [] ∧ f = []) := by
  constructor
  · rintro (⟨hw⟩ | ⟨hw, hf⟩ | ⟨hf⟩)
    · exact ⟨m, [], ⟨hw.isDigit, by simp, Or.inr ⟨rfl, rfl⟩⟩, fun h => hw.ne_nil h.1⟩
    · exact ⟨_, _, ⟨hw.isDigit, hf, Or.inl rfl⟩, fun h => hw.ne_nil h.1⟩
    · exact ⟨[], _, ⟨by simp, hf.isDigit, Or.inl rfl⟩, fun h => hf.ne_nil h.2⟩
  · rintro ⟨w, f, ⟨hw, hf, htext⟩, hne⟩
    rcases htext with rfl | ⟨rfl, rfl⟩
    · by_cases hnil : w = []
      · subst hnil
        exact .fraction ⟨fun h => hne ⟨rfl, h⟩, hf⟩
      · exact .pointed ⟨hnil, hw⟩ hf
    · exact .whole ⟨fun h => hne ⟨h, rfl⟩, hw⟩

theorem head_pointed {m w f : List Char} (h : Pointed m w f) (hne : ¬ (w = [] ∧ f = [])) :
    forall c, c ∈ m.head? -> c.isDigit = true ∨ c = '.' := by
  intro c hc
  rcases h.text with rfl | ⟨rfl, rfl⟩
  · cases w with
    | nil =>
        exact Or.inr (Option.some.inj hc).symm
    | cons d rest =>
        exact Or.inl (h.whole c (List.mem_of_mem_head? (by simpa using hc)))
  · exact Or.inl (h.whole c (List.mem_of_mem_head? hc))

theorem pointed_takeWhile {m : List Char}
    (hwhole : (m.takeWhile (· != '.')).all Char.isDigit = true)
    (hfraction : ((m.dropWhile (· != '.')).drop 1).all Char.isDigit = true) :
    Pointed m (m.takeWhile (· != '.')) ((m.dropWhile (· != '.')).drop 1) := by
  refine ⟨List.all_eq_true.mp hwhole, List.all_eq_true.mp hfraction, ?_⟩
  have hsplit : m.takeWhile (· != '.') ++ m.dropWhile (· != '.') = m :=
    List.takeWhile_append_dropWhile
  cases hrest : m.dropWhile (· != '.') with
  | nil =>
      rw [hrest, List.append_nil] at hsplit
      exact Or.inr ⟨hsplit.symm, rfl⟩
  | cons c rest =>
      have hpoint : (c != '.') = false := eq_false_of_dropWhile (p := (· != '.')) hrest
      rw [hrest, bne_eq_false_iff_eq.mp hpoint] at hsplit
      exact Or.inl hsplit.symm

theorem whole_of_pointed {m w f : List Char} (h : Pointed m w f) :
    m.takeWhile (· != '.') = w ∧ (m.dropWhile (· != '.')).drop 1 = f := by
  have hw : forall c, c ∈ w -> (c != '.') = true :=
    fun c hc => bne_iff_ne.mpr (ne_of_test (h.whole c hc) rfl)
  rcases h.text with rfl | ⟨rfl, rfl⟩
  · have hpoint : forall c, c ∈ ('.' :: f).head? -> (c != '.') = false := by
      rintro c ⟨⟩
      rfl
    rw [takeWhile_cut hw hpoint, dropWhile_cut hw hpoint]
    exact ⟨rfl, rfl⟩
  · rw [List.takeWhile_eq_self_iff.mpr hw, List.dropWhile_eq_nil_iff.mpr hw]
    exact ⟨rfl, rfl⟩

theorem mantissa_iff (m : List Char) :
    (!((m.takeWhile (· != '.')).isEmpty && ((m.dropWhile (· != '.')).drop 1).isEmpty) &&
        (m.takeWhile (· != '.')).all Char.isDigit &&
        ((m.dropWhile (· != '.')).drop 1).all Char.isDigit) = true <-> IsMantissa m := by
  rw [isMantissa_iff]
  simp only [Bool.and_eq_true, Bool.not_eq_true', Bool.and_eq_false_iff, List.isEmpty_eq_false_iff]
  constructor
  · rintro ⟨⟨hne, hwhole⟩, hfraction⟩
    refine ⟨_, _, pointed_takeWhile hwhole hfraction, ?_⟩
    rintro ⟨hw, hf⟩
    exact hne.elim (fun h => h hw) (fun h => h hf)
  · rintro ⟨w, f, hpointed, hne⟩
    rcases whole_of_pointed hpointed with ⟨hw, hf⟩
    rw [hw, hf]
    exact ⟨⟨not_and_or.mp hne, List.all_eq_true.mpr hpointed.whole⟩,
      List.all_eq_true.mpr hpointed.fraction⟩

theorem isExponentMark_iff (c : Char) :
    Decimal.isExponentMark c = true <-> c = 'e' ∨ c = 'E' := by
  simp [Decimal.isExponentMark]

theorem areDigits_iff (ds : List Char) :
    (!ds.isEmpty && ds.all Char.isDigit) = true <-> AreDigits ds := by
  rw [Bool.and_eq_true, Bool.not_eq_true', List.isEmpty_eq_false_iff, List.all_eq_true]
  exact ⟨fun h => ⟨h.1, h.2⟩, fun h => ⟨h.ne_nil, h.isDigit⟩⟩

theorem isExponent_cons_iff {c : Char} (hc : Decimal.isExponentMark c = true)
    (rest : List Char) : AreDigits (withoutSign rest) <-> IsExponent (c :: rest) := by
  constructor
  · intro h
    rcases exists_sign rest with ⟨sign, hsign, hrest⟩
    rw [hrest]
    exact .marked ((isExponentMark_iff c).mp hc) hsign h
  · rintro (_ | ⟨_, hsign, hds⟩)
    rw [withoutSign_append hsign (unsigned_of_isDigit hds.isDigit)]
    exact hds

/-- The text of an exponent is the part of a numeral from its mark on. -/
theorem head_exponent {e : List Char} (h : IsExponent e) :
    forall c, c ∈ e.head? -> (!Decimal.isExponentMark c) = false := by
  cases h with
  | absent =>
      simp
  | marked hmark _ _ =>
      rintro c ⟨⟩
      rw [(isExponentMark_iff _).mpr hmark]
      rfl

theorem isExponentMark_of_isDigit {c : Char} (h : c.isDigit = true) :
    (!Decimal.isExponentMark c) = true := by
  rw [Bool.not_eq_true', ← Bool.not_eq_true, isExponentMark_iff]
  exact not_or.mpr ⟨ne_of_test h rfl, ne_of_test h rfl⟩

theorem isExponentMark_of_mem_mantissa {m : List Char} (h : IsMantissa m) :
    forall c, c ∈ m -> (!Decimal.isExponentMark c) = true := by
  intro c hc
  rcases (isMantissa_iff m).mp h with ⟨w, f, ⟨hw, hf, htext⟩, _⟩
  rcases htext with rfl | ⟨rfl, rfl⟩
  · rcases List.mem_append.mp hc with hc | hc
    · exact isExponentMark_of_isDigit (hw c hc)
    · rcases List.mem_cons.mp hc with rfl | hc
      · rfl
      · exact isExponentMark_of_isDigit (hf c hc)
  · exact isExponentMark_of_isDigit (hw c hc)

theorem unsigned_mantissa_append {m : List Char} (h : IsMantissa m) (e : List Char) :
    Unsigned (m ++ e) := by
  rcases (isMantissa_iff m).mp h with ⟨w, f, hpointed, hne⟩
  intro c hc
  have hm : m ≠ [] := by
    rintro rfl
    rcases hpointed.text with htext | ⟨hw, hf⟩
    · simp at htext
    · exact hne ⟨hw.symm, hf⟩
  rw [List.head?_append_of_ne_nil _ hm] at hc
  rcases head_pointed hpointed hne c hc with hdigit | rfl
  · exact ⟨ne_of_test hdigit rfl, ne_of_test hdigit rfl⟩
  · decide

/-- A text is taken for a decimal exactly when it is spelled as one. -/
theorem isDecimal_iff (text : List Char) : isDecimal text = true <-> IsDecimalText text := by
  have hparts : isDecimal text = true <->
      IsMantissa ((withoutSign text).takeWhile fun c => !Decimal.isExponentMark c) ∧
      IsExponent ((withoutSign text).dropWhile fun c => !Decimal.isExponentMark c) := by
    rw [← mantissa_iff]
    unfold isDecimal
    rw [Bool.and_eq_true]
    apply and_congr_right
    intro _
    cases hrest : (withoutSign text).dropWhile fun c => !Decimal.isExponentMark c with
    | nil =>
        simp [IsExponent.absent]
    | cons c rest =>
        have hmark : (!Decimal.isExponentMark c) = false :=
          eq_false_of_dropWhile (p := fun c => !Decimal.isExponentMark c) hrest
        rw [← isExponent_cons_iff (by simpa using hmark), ← areDigits_iff]
  rw [hparts]
  constructor
  · rintro ⟨hmantissa, hexponent⟩
    rcases exists_sign text with ⟨sign, hsign, htext⟩
    rw [htext, ← List.takeWhile_append_dropWhile (p := fun c => !Decimal.isExponentMark c)
      (l := withoutSign text)]
    exact .parts hsign hmantissa hexponent
  · rintro ⟨hsign, hmantissa, hexponent⟩
    rw [withoutSign_append hsign (unsigned_mantissa_append hmantissa _),
      takeWhile_cut (isExponentMark_of_mem_mantissa hmantissa) (head_exponent hexponent),
      dropWhile_cut (isExponentMark_of_mem_mantissa hmantissa) (head_exponent hexponent)]
    exact ⟨hmantissa, hexponent⟩

/-! ## The second look at a decimal -/

theorem isDigit_of_head_exponent {e : List Char} (h : IsExponent e) :
    forall c, c ∈ e.head? -> c.isDigit = false := by
  cases h with
  | absent =>
      simp
  | marked hmark _ _ =>
      rintro c ⟨⟩
      rcases hmark with rfl | rfl
      · rfl
      · rfl

theorem splitFraction_of_exponent {e : List Char} (h : IsExponent e) :
    Decimal.splitFraction e = ([], e) := by
  cases h with
  | absent =>
      rfl
  | marked hmark _ _ =>
      rcases hmark with rfl | rfl
      · rfl
      · rfl

/-- The digits of a mantissa and what follows it, cut from the left. -/
theorem splitFraction_pointed {m w f e : List Char} (h : Pointed m w f) (he : IsExponent e) :
    (m ++ e).takeWhile Char.isDigit = w ∧
      Decimal.splitFraction ((m ++ e).dropWhile Char.isDigit) = (f, e) := by
  rcases h.text with rfl | ⟨rfl, rfl⟩
  · have hpoint : forall c, c ∈ ('.' :: (f ++ e)).head? -> c.isDigit = false := by
      rintro c ⟨⟩
      rfl
    rw [List.append_assoc, List.cons_append, takeWhile_cut h.whole hpoint,
      dropWhile_cut h.whole hpoint]
    refine ⟨rfl, ?_⟩
    show ((f ++ e).takeWhile Char.isDigit, (f ++ e).dropWhile Char.isDigit) = (f, e)
    rw [takeWhile_cut h.fraction (isDigit_of_head_exponent he),
      dropWhile_cut h.fraction (isDigit_of_head_exponent he)]
  · rw [takeWhile_cut h.whole (isDigit_of_head_exponent he),
      dropWhile_cut h.whole (isDigit_of_head_exponent he), splitFraction_of_exponent he]
    exact ⟨rfl, rfl⟩

theorem exponent?_append {sign ds : List Char} (hsign : IsSign sign) (hds : AreDigits ds) :
    Decimal.exponent? (sign ++ ds) =
      some (if sign == ['-'] then -(Decimal.ofDigits ds : Int) else Decimal.ofDigits ds) := by
  have hdigits := (areDigits_iff ds).mpr hds
  rw [Bool.and_eq_true, Bool.not_eq_true'] at hdigits
  unfold Decimal.exponent?
  rw [splitSign_append hsign (unsigned_of_isDigit hds.isDigit)]
  simp only [hdigits.1, hdigits.2]
  rfl

/-- The exponent that the text from its mark on stands for. -/
def power : List Char -> Int
  | [] =>
      0
  | _ :: rest =>
      (Decimal.exponent? rest).getD 0

theorem power_marked {sign ds : List Char} (mark : Char) (hsign : IsSign sign)
    (hds : AreDigits ds) : power (mark :: (sign ++ ds)) =
      if sign == ['-'] then -(Decimal.ofDigits ds : Int) else Decimal.ofDigits ds := by
  show (Decimal.exponent? (sign ++ ds)).getD 0 = _
  rw [exponent?_append hsign hds, Option.getD_some]

section

variable {sign m w f e : List Char}

theorem unsigned?_pointed (negative : Bool) (h : Pointed m w f) (hne : ¬ (w = [] ∧ f = []))
    (he : IsExponent e) : Decimal.unsigned? negative (m ++ e) = some ⟨negative, w, f, power e⟩ := by
  rcases splitFraction_pointed h he with ⟨hwhole, hrest⟩
  have hparts : (w.isEmpty && f.isEmpty) = false := by
    rw [Bool.and_eq_false_iff, List.isEmpty_eq_false_iff, List.isEmpty_eq_false_iff]
    exact not_and_or.mp hne
  unfold Decimal.unsigned?
  rw [hwhole, hrest]
  simp only [hparts]
  cases he with
  | absent =>
      rfl
  | marked hmark hsign hds =>
      have hmark := (isExponentMark_iff _).mpr hmark
      rw [power_marked _ hsign hds]
      simp [hmark, exponent?_append hsign hds]

/-- The parts of a decimal, as they are found from the left. -/
theorem literal?_parts (hsign : IsSign sign) (h : Pointed m w f) (hne : ¬ (w = [] ∧ f = []))
    (he : IsExponent e) :
    Decimal.literal? (sign ++ (m ++ e)) = some ⟨sign == ['-'], w, f, power e⟩ := by
  have hmantissa : IsMantissa m := (isMantissa_iff m).mpr ⟨w, f, h, hne⟩
  unfold Decimal.literal?
  rw [splitSign_append hsign (unsigned_mantissa_append hmantissa e)]
  exact unsigned?_pointed _ h hne he

end

/-- The parts of every decimal are found from the left. -/
theorem exists_literal {text : List Char} (h : IsDecimalText text) :
    exists l, Decimal.literal? text = some l := by
  rcases h with ⟨hsign, hmantissa, hexponent⟩
  rcases (isMantissa_iff _).mp hmantissa with ⟨w, f, hpointed, hne⟩
  exact ⟨_, literal?_parts hsign hpointed hne hexponent⟩

theorem exists_parse {text : List Char} (h : isDecimal text = true) :
    exists l : Decimal.Literal, Binary64.parse? text = some l.toBinary64 := by
  rcases exists_literal ((isDecimal_iff text).mp h) with ⟨l, hl⟩
  refine ⟨l, ?_⟩
  unfold Binary64.parse?
  rw [hl]

/-! ## Digits of a radix -/

theorem radix?_eq_some_iff (c : Char) (base : Nat) :
    radix? c = some base <-> exists r, r ∈ Radix.all ∧ r.base = base ∧ c ∈ r.marks := by
  constructor
  · intro h
    unfold radix? at h
    split at h <;> cases h <;> simp [Radix.all]
  · rintro ⟨r, hr, rfl, hc⟩
    simp only [Radix.all, List.mem_cons, List.not_mem_nil, or_false] at hr
    rcases hr with rfl | rfl | rfl
    · rcases List.mem_pair.mp hc with rfl | rfl <;> rfl
    · rcases List.mem_pair.mp hc with rfl | rfl <;> rfl
    · rcases List.mem_pair.mp hc with rfl | rfl <;> rfl

/-- The value of a digit: its place among the digits in order. -/
def digitValue (c : Char) : Nat :=
  "0123456789abcdef".toList.idxOf c.toLower

theorem digit?_digits : forall r, r ∈ Radix.all -> (r.digits.all fun c =>
    decide (digit? r.base c = some (digitValue c) ∧ digitValue c < r.base)) = true := by
  decide

theorem digit?_of_mem {r : Radix} (hr : r ∈ Radix.all) {c : Char} (hc : c ∈ r.digits) :
    digit? r.base c = some (digitValue c) ∧ digitValue c < r.base :=
  of_decide_eq_true (List.all_eq_true.mp (digit?_digits r hr) c hc)

theorem toNat_lt_of_isSome_digit? {base : Nat} {c : Char}
    (h : (digit? base c).isSome = true) : c.toNat < 128 := by
  have hbound : forall d : Char, c <= d -> c.toNat <= d.toNat := fun d hd => hd
  unfold digit? at h
  split at h
  · rename_i hc
    have hle := hbound '9' (of_decide_eq_true (Bool.and_eq_true_iff.mp hc).2)
    exact Nat.lt_of_le_of_lt hle (by decide)
  · split at h
    · rename_i hc
      have hle := hbound 'z' (of_decide_eq_true (Bool.and_eq_true_iff.mp hc).2)
      exact Nat.lt_of_le_of_lt hle (by decide)
    · split at h
      · rename_i hc
        have hle := hbound 'Z' (of_decide_eq_true (Bool.and_eq_true_iff.mp hc).2)
        exact Nat.lt_of_le_of_lt hle (by decide)
      · cases h

theorem isSome_digit?_codes : forall r, r ∈ Radix.all -> forall n, n ∈ List.range 128 ->
    (digit? r.base (Char.ofNat n)).isSome = true -> Char.ofNat n ∈ r.digits := by
  decide +kernel

theorem mem_of_isSome_digit? {r : Radix} (hr : r ∈ Radix.all) {c : Char}
    (h : (digit? r.base c).isSome = true) : c ∈ r.digits := by
  have hcode : c.toNat ∈ List.range 128 := List.mem_range.mpr (toNat_lt_of_isSome_digit? h)
  have hdigit := isSome_digit?_codes r hr _ hcode
  rw [Char.ofNat_toNat] at hdigit
  exact hdigit h

theorem isSome_mapM_iff {α β : Type} (f : α -> Option β) (list : List α) :
    (list.mapM f).isSome = true <-> forall x, x ∈ list -> (f x).isSome = true := by
  induction list with
  | nil =>
      simp
  | cons x rest ih =>
      rw [List.mapM_cons, List.forall_mem_cons, ← ih]
      cases f x <;> cases rest.mapM f <;> simp

theorem ofRadix_ne_nan_iff (base : Nat) (ds : List Char) :
    ofRadix base ds ≠ .nan <-> ds ≠ [] ∧ forall c, c ∈ ds -> (digit? base c).isSome = true := by
  rw [← isSome_mapM_iff]
  unfold ofRadix
  cases ds with
  | nil =>
      simp
  | cons c rest =>
      cases (c :: rest).mapM (digit? base) <;> simp

/-! ## Texts that read as numbers -/

theorem toList_infinity : "Infinity".toList = ['I', 'n', 'f', 'i', 'n', 'i', 't', 'y'] := rfl

theorem toList_plusInfinity : "+Infinity".toList = '+' :: "Infinity".toList := rfl

theorem toList_minusInfinity : "-Infinity".toList = '-' :: "Infinity".toList := rfl

/-- What becomes of a text without blanks around it. -/
inductive Reading : List Char -> Binary64 -> Prop where
  | blank : Reading [] .zero
  | infinity : Reading "Infinity".toList (.infinity false)
  | plusInfinity : Reading "+Infinity".toList (.infinity false)
  | minusInfinity : Reading "-Infinity".toList (.infinity true)
  | radix {mark : Char} {base : Nat} (hmark : radix? mark = some base) (ds : List Char) :
      Reading ('0' :: mark :: ds) (ofRadix base ds)
  | decimal {text : List Char} (h : isDecimal text = true) :
      Reading text ((Binary64.parse? text).getD .nan)
  | other {text : List Char} (h : isDecimal text = false) : Reading text .nan

theorem reading_ofTrimmed (text : List Char) : Reading text (ofTrimmed text) := by
  have hfinite : Reading text
      (if isDecimal text then (Binary64.parse? text).getD .nan else .nan) := by
    cases h : isDecimal text with
    | true =>
        exact .decimal h
    | false =>
        exact .other h
  unfold ofTrimmed
  dsimp only
  by_cases hblank : text = []
  · rw [if_pos hblank, hblank]
    exact .blank
  rw [if_neg hblank]
  by_cases hinfinity : text = "Infinity".toList
  · rw [if_pos (Bool.or_eq_true_iff.mpr (Or.inl (decide_eq_true hinfinity))), hinfinity]
    exact .infinity
  by_cases hplus : text = "+Infinity".toList
  · rw [if_pos (Bool.or_eq_true_iff.mpr (Or.inr (decide_eq_true hplus))), hplus]
    exact .plusInfinity
  rw [decide_eq_false hinfinity, decide_eq_false hplus, Bool.or_false, if_neg Bool.false_ne_true]
  by_cases hminus : text = "-Infinity".toList
  · rw [if_pos hminus, hminus]
    exact .minusInfinity
  rw [if_neg hminus]
  split
  · rename_i mark ds
    cases hmark : radix? mark with
    | none =>
        exact hfinite
    | some base =>
        exact .radix hmark ds
  · exact hfinite

/-- The letter of a radix stands in no decimal. -/
theorem isDecimal_radix {mark : Char} {base : Nat} (h : radix? mark = some base)
    (ds : List Char) : isDecimal ('0' :: mark :: ds) = false := by
  have hmark : mark ≠ '.' ∧ mark.isDigit = false ∧ Decimal.isExponentMark mark = false := by
    unfold radix? at h
    split at h
    all_goals first | decide | cases h
  simp [isDecimal, withoutSign, Decimal.splitSign, hmark.1, hmark.2.1, hmark.2.2,
    show Decimal.isExponentMark '0' = false from rfl]

theorem ofTrimmed_radix {mark : Char} {base : Nat} (h : radix? mark = some base)
    (ds : List Char) : ofTrimmed ('0' :: mark :: ds) = ofRadix base ds := by
  unfold ofTrimmed
  rw [toList_plusInfinity, toList_minusInfinity, toList_infinity]
  simp only [h, List.cons.injEq]
  simp

/-- No other reading of a text comes before that of a decimal. -/
theorem ofTrimmed_of_isDecimal {text : List Char} (h : isDecimal text = true) :
    ofTrimmed text = (Binary64.parse? text).getD .nan := by
  have hread := reading_ofTrimmed text
  generalize ofTrimmed text = x at hread
  cases hread with
  | radix hmark ds =>
      rw [isDecimal_radix hmark] at h
      cases h
  | decimal _ =>
      rfl
  | other hother =>
      rw [hother] at h
      cases h
  | _ =>
      cases h

theorem number_ne_nan (negative : Bool) (m : Magnitude) : Binary64.number negative m ≠ .nan :=
  Binary64.noConfusion

theorem ne_nan_of_isDecimal {text : List Char} (h : isDecimal text = true) :
    (Binary64.parse? text).getD .nan ≠ .nan := by
  rcases exists_parse h with ⟨l, hl⟩
  rw [hl]
  exact number_ne_nan _ _

theorem RadixLiteral.radix?_mark (l : RadixLiteral) : radix? l.mark = some l.radix.base :=
  (radix?_eq_some_iff _ _).mpr ⟨l.radix, l.radix_mem, rfl, l.mark_mem⟩

theorem exists_radixLiteral {mark : Char} {base : Nat} {ds : List Char}
    (hmark : radix? mark = some base) (h : ofRadix base ds ≠ .nan) :
    exists l : RadixLiteral, l.text = '0' :: mark :: ds := by
  rcases (radix?_eq_some_iff mark base).mp hmark with ⟨r, hr, rfl, hmem⟩
  rcases (ofRadix_ne_nan_iff _ ds).mp h with ⟨hne, hds⟩
  exact ⟨⟨r, mark, ds, hr, hmem, hne, fun c hc => mem_of_isSome_digit? hr (hds c hc)⟩, rfl⟩

theorem ne_nan_of_radixLiteral (l : RadixLiteral) : ofRadix l.radix.base l.digits ≠ .nan := by
  rw [ofRadix_ne_nan_iff]
  refine ⟨l.digits_ne_nil, ?_⟩
  intro c hc
  rw [(digit?_of_mem l.radix_mem (l.digits_mem c hc)).1]
  rfl

theorem spelled_of_ne_nan {text : List Char} (h : ofTrimmed text ≠ .nan) : Spelled text := by
  have hread := reading_ofTrimmed text
  generalize ofTrimmed text = x at h hread
  cases hread with
  | blank =>
      exact .blank
  | infinity =>
      exact .infinity .absent
  | plusInfinity =>
      exact .infinity .plus
  | minusInfinity =>
      exact .infinity .minus
  | radix hmark ds =>
      rcases exists_radixLiteral hmark h with ⟨l, hl⟩
      rw [← hl]
      exact .radix l
  | decimal hdecimal =>
      exact .decimal ((isDecimal_iff text).mp hdecimal)
  | other _ =>
      exact absurd rfl h

/-- Only a text that is no decimal may read as NaN, and it is no name and has no radix. -/
theorem ne_nan_of_spelled {text : List Char} (h : Spelled text) : ofTrimmed text ≠ .nan := by
  cases h with
  | blank =>
      exact number_ne_nan _ _
  | infinity hsign =>
      cases hsign with
      | absent =>
          exact number_ne_nan _ _
      | plus =>
          exact number_ne_nan _ _
      | minus =>
          exact number_ne_nan _ _
  | radix l =>
      unfold RadixLiteral.text
      rw [ofTrimmed_radix l.radix?_mark]
      exact ne_nan_of_radixLiteral l
  | decimal hdecimal =>
      have haccepted := (isDecimal_iff text).mpr hdecimal
      rw [ofTrimmed_of_isDecimal haccepted]
      exact ne_nan_of_isDecimal haccepted

/-- A text is ordered beside zero exactly when it is spelled as a number between the blanks around
it, and a decimal that is accepted always has parts that give its number. -/
theorem reads_iff_spelled (s : String) :
    ((Value.str s).compare? (.int 0) ≠ none <-> Spelled (Text.trim s.toList)) ∧
    (isDecimal (Text.trim s.toList) = true ->
      exists l : Decimal.Literal,
        Binary64.parse? (Text.trim s.toList) = some l.toBinary64) := by
  have hread : (Value.str s).compare? (.int 0) ≠ none <-> read s ≠ .nan := by
    show (read s).compare? (Binary64.ofInt 0) ≠ none <-> _
    cases read s with
    | nan =>
        simp [Binary64.compare?]
    | number negative m =>
        simp [Binary64.compare?, Binary64.ofInt]
  refine ⟨?_, exists_parse⟩
  rw [hread]
  exact ⟨spelled_of_ne_nan, ne_nan_of_spelled⟩

/-- A decimal with a sign, nothing behind its point and an exponent, between blanks. -/
theorem reads_iff_spelled_padded :
    (Value.str " -1.e+5\n").compare? (.int 0) ≠ none ∧
    Spelled (Text.trim " -1.e+5\n".toList) ∧
    isDecimal (Text.trim " -1.e+5\n".toList) = true ∧
    exists l : Decimal.Literal,
      Binary64.parse? (Text.trim " -1.e+5\n".toList) = some l.toBinary64 := by
  have hordered : (Value.str " -1.e+5\n").compare? (.int 0) ≠ none := by decide
  have hdecimal : isDecimal (Text.trim " -1.e+5\n".toList) = true := rfl
  exact ⟨hordered, (reads_iff_spelled _).1.mp hordered, hdecimal,
    (reads_iff_spelled _).2 hdecimal⟩

end Numeral
end Contracts
