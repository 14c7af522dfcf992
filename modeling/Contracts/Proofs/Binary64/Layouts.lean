import Contracts.Proofs.Binary64.Decimals

/-!
# Digits with a point

To set digits out positionally is to move the point among them and to fill up with zeros on either
side.  That changes neither the number that the digits stand for, nor that a zero which leads stands
alone before the point.
-/

namespace Contracts

open Decimal (AreDigits areDigits_append areDigits_digits isDigit_of_mem_zeros)
open Magnitude (ofDecimal)

/-- Whether digits before and behind a point stand for the number that significant digits and an
exponent stand for. -/
structure Scientific.Placed (s : Scientific) (w f : List Char) : Prop where
  areDigits : AreDigits w
  isDigit : forall c, c ∈ f -> c.isDigit = true
  /-- A zero stands alone before the point. -/
  length_whole : w.head? = some '0' -> w.length = 1
  ofDecimal_eq : ofDecimal (Decimal.ofDigits (w ++ f)) (-f.length) =
    ofDecimal (Decimal.ofDigits s.digits) (s.exponent + 1 - s.digits.length)

namespace Layout

/-- A number below one: zeros stand between the point and its digits. -/
theorem placed_negSucc {s : Scientific} (h : s.Leading) {k : Nat} (hk : s.exponent = .negSucc k) :
    s.Placed ['0'] (List.replicate k '0' ++ s.digits) where
  areDigits := areDigits_digits 0
  isDigit := by
    intro c hc
    rcases List.mem_append.mp hc with hc | hc
    · exact isDigit_of_mem_zeros hc
    · exact h.areDigits.isDigit c hc
  length_whole := fun _ => rfl
  ofDecimal_eq := by
    have hzeros := Decimal.ofDigits_zeros_append (k + 1) s.digits
    rw [List.replicate_succ, List.cons_append] at hzeros
    rw [List.singleton_append, hzeros, hk, List.length_append, List.length_replicate]
    congr 1
    omega

/-- A whole number: zeros stand between its digits and the point. -/
theorem placed_whole {s : Scientific} (h : s.Leading) {k : Nat} (hk : s.exponent = .ofNat k)
    (hlength : s.digits.length <= k + 1) :
    s.Placed (s.digits ++ List.replicate (k + 1 - s.digits.length) '0') [] where
  areDigits := areDigits_append h.areDigits fun _ hc => isDigit_of_mem_zeros hc
  isDigit := by simp
  length_whole := by
    -- Only zero begins with a zero, and it has no further digits.
    intro hhead
    rw [List.head?_append_of_ne_nil _ h.areDigits.ne_nil] at hhead
    have hzero := h.eq_zero hhead
    rw [hzero] at hk ⊢
    cases hk
    rfl
  ofDecimal_eq := by
    rw [List.append_nil, Decimal.ofDigits_append_zeros, Magnitude.ofDecimal_mul_pow, hk,
      List.length_nil, Int.ofNat_eq_natCast]
    congr 1
    omega

/-- Any other number: the point stands among its digits. -/
theorem placed_within {s : Scientific} (h : s.Leading) {k : Nat} (hk : s.exponent = .ofNat k)
    (hlength : k + 1 < s.digits.length) :
    s.Placed (s.digits.take (k + 1)) (s.digits.drop (k + 1)) where
  areDigits := by
    constructor
    · simpa using h.areDigits.ne_nil
    · intro c hc
      exact h.areDigits.isDigit c (List.mem_of_mem_take hc)
  isDigit := by
    intro c hc
    exact h.areDigits.isDigit c (List.mem_of_mem_drop hc)
  length_whole := by
    intro hhead
    rw [List.head?_take, if_neg (Nat.succ_ne_zero k)] at hhead
    have hzero := h.eq_zero hhead
    rw [hzero] at hlength
    simp at hlength
  ofDecimal_eq := by
    rw [List.take_append_drop, hk, List.length_drop, Int.ofNat_eq_natCast]
    congr 1
    omega

/-- A number is set out with a point and a fraction, or as a whole number and what follows it. -/
theorem exists_positional (layout : Layout) {s : Scientific} (h : s.Leading) :
    exists w f, s.Placed w f ∧
      layout.positional s = if f = [] then w ++ layout.wholeSuffix else w ++ '.' :: f := by
  unfold positional
  cases hk : s.exponent with
  | negSucc k =>
      have hne : List.replicate k '0' ++ s.digits ≠ [] := by
        simp [h.areDigits.ne_nil]
      refine ⟨_, _, placed_negSucc h hk, ?_⟩
      rw [if_neg hne]
      rfl
  | ofNat k =>
      rcases Nat.lt_or_ge (k + 1) s.digits.length with hlength | hlength
      · have hne : s.digits.drop (k + 1) ≠ [] := by
          simpa using hlength
        refine ⟨_, _, placed_within h hk hlength, ?_⟩
        simp only [if_neg (Nat.not_le.mpr hlength), if_neg hne]
      · refine ⟨_, _, placed_whole h hk hlength, ?_⟩
        simp only [if_pos hlength, if_true]

/-- With an explicit exponent the point stands behind the first digit. -/
theorem exponential_cons {s : Scientific} {d : Char} {f : List Char} (h : s.digits = d :: f) :
    exponential s = (if f = [] then [d] else [d] ++ '.' :: f) ++
      'e' :: (if s.exponent < 0 then '-' else '+') :: Decimal.digits s.exponent.natAbs := by
  unfold exponential
  rw [h]
  cases f <;> rfl

end Layout
end Contracts
