import Mathlib.Algebra.Order.Field.Power
import Mathlib.Tactic.FieldSimp
import Contracts.Proofs.Binary64.Appending
import Contracts.Proofs.Binary64.Significant

/-!
# Decimals and the magnitudes nearest to them

The magnitude nearest to a quotient depends on the quotient alone and grows with it.  A decimal
is such a quotient, also where its size alone decides, so decimals of one value have one nearest
magnitude and a larger decimal has no smaller one.

The significant digits of a magnitude therefore read back as the magnitude, wherever the point is
set and however many zeros stand behind them, and the exponent of the leading digit tells between
which powers of ten the magnitude lies.
-/

namespace Contracts
namespace Magnitude

/-! ## Quotients -/

theorem nearest_mul (n d : Nat) {k : Nat} (hk : 0 < k) :
    nearest (n * k) (d * k) = nearest n d := by
  unfold nearest
  simp only [Nat.mul_div_mul_right n d hk, Nat.mul_right_comm d k, roundHalfEven_mul _ _ hk]

theorem nearest_le_nearest {n m d e : Nat} (hd : 0 < d) (he : 0 < e) (h : n * e <= m * d) :
    nearest n d <= nearest m e := by
  rw [← nearest_mul n d he, ← nearest_mul m e hd, Nat.mul_comm d e]
  exact nearest_mono h

/-- Whether a magnitude is nearest to a rational number of units. -/
inductive NearestTo : ℚ -> Magnitude -> Prop where
  | quotient (n : Nat) {d : Nat} (hd : 0 < d) : NearestTo (n / d) (nearest n d)

theorem NearestTo.le {p q : ℚ} {m k : Magnitude} (hm : NearestTo p m) (hk : NearestTo q k)
    (h : p <= q) : m <= k := by
  cases hm with
  | quotient n hd =>
      cases hk with
      | quotient n' hd' =>
          apply nearest_le_nearest hd hd'
          have hcross := (div_le_div_iff₀ (Nat.cast_pos.mpr hd) (Nat.cast_pos.mpr hd')).mp h
          exact_mod_cast hcross

theorem NearestTo.unique {q : ℚ} {m k : Magnitude} (hm : NearestTo q m) (hk : NearestTo q k) :
    m = k :=
  Fin.le_antisymm (hm.le hk le_rfl) (hk.le hm le_rfl)

theorem nearestTo_whole (n : Nat) : NearestTo n (nearest n 1) := by
  have h := NearestTo.quotient n Nat.one_pos
  rwa [Nat.cast_one, div_one] at h

theorem nearestTo_units (m : Magnitude) : NearestTo m.units m := by
  have h := nearestTo_whole m.units
  rwa [nearest_units] at h

/-! ## Decimals -/

theorem nearest_of_small {n d : Nat} (h : 2 * n < d) : nearest n d = zero := by
  have hquotient : n / d = 0 := Nat.div_eq_of_lt (by omega)
  have hrest : n % d = n := Nat.mod_eq_of_lt (by omega)
  have hround : roundHalfEven n d = 0 := by
    unfold roundHalfEven
    rw [hrest, if_pos h, hquotient]
  apply Fin.ext
  simp only [nearest, hquotient, Nat.log2_zero, Nat.zero_sub, Nat.zero_mul, Nat.zero_add,
    Nat.pow_eq, Nat.pow_zero, Nat.mul_one, hround, Nat.min_zero]
  rfl

/-- A power of ten from `10^309` on lies beyond the range. -/
theorem nearest_of_large {c k : Nat} (hc : 0 < c) (hk : 309 <= k) :
    nearest (c * Nat.pow 10 k * unitsPerOne) 1 = infinity := by
  have hrange : 2 ^ 1024 <= 10 ^ 309 := by decide +kernel
  rw [nearest_eq_infinity_iff]
  apply Nat.mul_le_mul_right
  calc overflow <= 2 ^ 1024 := Nat.sub_le _ _
    _ <= 10 ^ 309 := hrange
    _ <= 10 ^ k := pow_le_pow_right₀ (by decide) hk
    _ <= c * 10 ^ k := Nat.le_mul_of_pos_left _ hc

/-- What lies below a quarter of a unit is nearest to zero. -/
theorem nearest_of_log2_le {c k : Nat} (h : c.log2 + 1077 <= 3 * k) :
    nearest (c * unitsPerOne) (Nat.pow 10 k) = zero := by
  apply nearest_of_small
  have hunits : 2 ^ (c.log2 + 1) * unitsPerOne = 2 ^ (c.log2 + 1075) :=
    two_pow_mul_unitsPerOne (Nat.add_assoc _ 1 unitExponent)
  calc 2 * (c * unitsPerOne) < 2 * (2 ^ (c.log2 + 1) * unitsPerOne) := by
        apply Nat.mul_lt_mul_of_pos_left _ (by decide)
        exact Nat.mul_lt_mul_of_pos_right Nat.lt_log2_self unitsPerOne_pos
    _ = 2 ^ (c.log2 + 1076) := by rw [hunits, ← Nat.pow_succ']
    _ <= 2 ^ (3 * k) := Nat.pow_le_pow_right (by decide) (by omega)
    _ = 8 ^ k := Nat.pow_mul 2 3 k
    _ <= 10 ^ k := Nat.pow_le_pow_left (by decide) k

theorem nearestTo_ofDecimal (c : Nat) (e : Int) :
    NearestTo (c * 10 ^ e * unitsPerOne) (ofDecimal c e) := by
  unfold ofDecimal
  split
  · rename_i hc
    have hzero := nearestTo_units zero
    rwa [hc, Nat.cast_zero, zero_mul, zero_mul, ← Nat.cast_zero]
  · rename_i hc
    have hpos := Nat.pos_of_ne_zero hc
    cases e with
    | ofNat k =>
        have hwhole := nearestTo_whole (c * Nat.pow 10 k * unitsPerOne)
        have hvalue : (c * 10 ^ (Int.ofNat k) * unitsPerOne : ℚ) =
            (c * Nat.pow 10 k * unitsPerOne : Nat) := by
          rw [Int.ofNat_eq_natCast, zpow_natCast, Nat.pow_eq, Nat.cast_mul, Nat.cast_mul,
            Nat.cast_pow, Nat.cast_ofNat]
        rw [hvalue]
        simp only
        split
        · rename_i hk
          rwa [nearest_of_large hpos hk] at hwhole
        · exact hwhole
    | negSucc k =>
        have hquotient := NearestTo.quotient (c * unitsPerOne) (Nat.pow_pos (n := k + 1)
          (show 0 < 10 by decide))
        have hvalue : (c * 10 ^ (Int.negSucc k) * unitsPerOne : ℚ) =
            (c * unitsPerOne : Nat) / (10 ^ (k + 1) : Nat) := by
          rw [zpow_negSucc, Nat.cast_mul, Nat.cast_pow, Nat.cast_ofNat, mul_right_comm,
            div_eq_mul_inv]
        rw [hvalue]
        simp only
        split
        · rename_i hk
          have hzero := nearest_of_log2_le hk
          rw [Nat.pow_eq] at hzero
          rwa [hzero] at hquotient
        · exact hquotient

/-- A larger decimal has no smaller magnitude. -/
theorem ofDecimal_mono {c c' : Nat} {e e' : Int} (h : (c * 10 ^ e : ℚ) <= c' * 10 ^ e') :
    ofDecimal c e <= ofDecimal c' e' := by
  apply (nearestTo_ofDecimal c e).le (nearestTo_ofDecimal c' e')
  exact mul_le_mul_of_nonneg_right h (Nat.cast_nonneg _)

/-- Decimals of one value have one magnitude. -/
theorem ofDecimal_congr {c c' : Nat} {e e' : Int} (h : (c * 10 ^ e : ℚ) = c' * 10 ^ e') :
    ofDecimal c e = ofDecimal c' e' :=
  Fin.le_antisymm (ofDecimal_mono h.le) (ofDecimal_mono h.ge)

theorem ofDecimal_mono_left {c c' : Nat} (h : c <= c') (e : Int) :
    ofDecimal c e <= ofDecimal c' e :=
  ofDecimal_mono (mul_le_mul_of_nonneg_right (Nat.cast_le.mpr h) (zpow_nonneg (by norm_num) e))

theorem ofDecimal_mono_right (c : Nat) {e e' : Int} (h : e <= e') :
    ofDecimal c e <= ofDecimal c e' :=
  ofDecimal_mono (mul_le_mul_of_nonneg_left (zpow_le_zpow_right₀ (by norm_num) h)
    (Nat.cast_nonneg c))

theorem ne_zero_of_ofDecimal_le {c : Nat} {e : Int} {m : Magnitude} (hpos : ofDecimal c e ≠ zero)
    (h : ofDecimal c e <= m) : m ≠ zero := by
  rintro rfl
  exact hpos (Fin.le_antisymm h (Nat.zero_le _))

theorem ofDecimal_mul_pow (c k : Nat) (e : Int) :
    ofDecimal (c * 10 ^ k) e = ofDecimal c (e + k) := by
  apply ofDecimal_congr
  rw [zpow_add₀ (by norm_num), zpow_natCast]
  push_cast
  ring

theorem ofDecimal_whole (n : Nat) : ofDecimal n 0 = ofNat n := by
  have hvalue : (n * 10 ^ (0 : Int) * unitsPerOne : ℚ) = (n * unitsPerOne : Nat) := by
    rw [zpow_zero, mul_one, Nat.cast_mul]
  have hdecimal := nearestTo_ofDecimal n 0
  rw [hvalue] at hdecimal
  exact hdecimal.unique (nearestTo_whole _)

/-! ## The digits of a magnitude -/

theorem ofDecimal_shortest (tie : Tie) (m : Magnitude) :
    ofDecimal (m.shortest tie).1 (m.shortest tie).2 = m := by
  rcases m.shortest_cases tie with hread | hexact
  · exact beq_iff_eq.mp hread
  · have hvalue : ((m.units * Nat.pow 5 unitExponent : Nat) * 10 ^ (-(unitExponent : Int)) *
        unitsPerOne : ℚ) = m.units := by
      unfold unitsPerOne
      generalize unitExponent = k
      have hten : (10 : ℚ) ^ k = 5 ^ k * 2 ^ k := by
        rw [← mul_pow]
        norm_num
      rw [zpow_neg, zpow_natCast, hten, Nat.pow_eq, Nat.pow_eq]
      push_cast
      field_simp
    have hdecimal := nearestTo_ofDecimal (m.units * Nat.pow 5 unitExponent) (-unitExponent)
    rw [hvalue] at hdecimal
    rw [hexact]
    exact hdecimal.unique (nearestTo_units m)

end Magnitude

namespace Decimal

theorem ofDigits_append_zeros (ds : List Char) (k : Nat) :
    ofDigits (ds ++ List.replicate k '0') = ofDigits ds * 10 ^ k := by
  unfold ofDigits
  rw [Nat.ofDigitChars_append, Nat.ofDigitChars_replicate_zero, Nat.mul_comm]

theorem ofDigits_zeros_append (k : Nat) (ds : List Char) :
    ofDigits (List.replicate k '0' ++ ds) = ofDigits ds := by
  unfold ofDigits
  rw [Nat.ofDigitChars_append, Nat.ofDigitChars_replicate_zero, Nat.mul_zero]

/-- The zeros at the end of digits only scale their number. -/
theorem exists_zeros (ds : List Char) :
    exists k, ds = ds.rdropWhile (· == '0') ++ List.replicate k '0' := by
  have hzeros := List.eq_replicate_of_mem fun c (hc : c ∈ ds.rtakeWhile (· == '0')) =>
    beq_iff_eq.mp (List.mem_rtakeWhile_imp (p := (· == '0')) hc)
  refine ⟨(ds.rtakeWhile (· == '0')).length, ?_⟩
  rw [← hzeros, List.rdropWhile_append_rtakeWhile]

theorem lt_pow_length_digits (n : Nat) : n < 10 ^ (digits n).length :=
  (Nat.length_toDigits_le_iff (by decide) Nat.length_toDigits_pos).mp (Nat.le_refl _)

theorem pow_length_digits_le {n : Nat} (h : 0 < n) : 10 ^ ((digits n).length - 1) <= n := by
  rcases Nat.eq_zero_or_pos ((digits n).length - 1) with hone | hmore
  · rw [hone]
    exact h
  · apply Nat.le_of_not_lt
    intro hlt
    have hshort : (digits n).length <= (digits n).length - 1 :=
      (Nat.length_toDigits_le_iff (by decide) hmore).mpr hlt
    omega

end Decimal

namespace Magnitude

section

variable {m : Magnitude} (tie : Tie)

theorem exponent_scientific (h : m ≠ zero) : (m.scientific tie).exponent =
    (m.shortest tie).2 + (Decimal.digits (m.shortest tie).1).length - 1 := by
  unfold scientific
  rw [if_neg h]

theorem digits_scientific (h : m ≠ zero) : (m.scientific tie).digits =
    (Decimal.digits (m.shortest tie).1).rdropWhile (· == '0') := by
  unfold scientific
  rw [if_neg h]
  rfl

/-- The digits read back as the magnitude, with the power of ten that the last one stands for. -/
theorem ofDecimal_scientific (m : Magnitude) :
    ofDecimal (Decimal.ofDigits (m.scientific tie).digits)
      ((m.scientific tie).exponent + 1 - (m.scientific tie).digits.length) = m := by
  by_cases h : m = zero
  · subst h
    rfl
  · rcases Decimal.exists_zeros (Decimal.digits (m.shortest tie).1) with ⟨k, hk⟩
    rw [← digits_scientific tie h] at hk
    have hnumber := congrArg Decimal.ofDigits hk
    rw [Decimal.ofDigits_digits, Decimal.ofDigits_append_zeros] at hnumber
    have hlength := congrArg List.length hk
    rw [List.length_append, List.length_replicate] at hlength
    have hexponent : (m.scientific tie).exponent + 1 - (m.scientific tie).digits.length =
        (m.shortest tie).2 + k := by
      rw [exponent_scientific tie h]
      omega
    rw [hexponent, ← ofDecimal_mul_pow, ← hnumber]
    exact m.ofDecimal_shortest tie

/-- The exponent of the leading digit tells between which powers of ten a magnitude lies. -/
theorem between_powers (h : m ≠ zero) : ofDecimal 1 (m.scientific tie).exponent <= m ∧
    m <= ofDecimal 1 ((m.scientific tie).exponent + 1) := by
  have hlength : 0 < (Decimal.digits (m.shortest tie).1).length := Nat.length_toDigits_pos
  have hlow : ofDecimal (10 ^ ((Decimal.digits (m.shortest tie).1).length - 1))
      (m.shortest tie).2 <= m :=
    le_of_le_of_eq (ofDecimal_mono_left (Decimal.pow_length_digits_le (m.shortest_pos tie h)) _)
      (m.ofDecimal_shortest tie)
  have hhigh : m <= ofDecimal (10 ^ (Decimal.digits (m.shortest tie).1).length)
      (m.shortest tie).2 :=
    le_of_eq_of_le (m.ofDecimal_shortest tie).symm
      (ofDecimal_mono_left (Decimal.lt_pow_length_digits _).le _)
  rw [← Nat.one_mul (10 ^ _), ofDecimal_mul_pow] at hlow hhigh
  rw [exponent_scientific tie h]
  constructor
  · convert hlow using 2
    omega
  · convert hhigh using 2
    omega

/-- Whether the exponent reaches some power of ten is a matter of comparing magnitudes, as long as
that power has its own exponent. -/
theorem le_exponent_iff (h : m ≠ zero) {p : Int}
    (hp : ((ofDecimal 1 p).scientific tie).exponent = p) :
    p <= (m.scientific tie).exponent <-> ofDecimal 1 p <= m := by
  rcases between_powers tie h with ⟨hlow, hhigh⟩
  constructor
  · intro hle
    exact Fin.le_trans (ofDecimal_mono_right 1 hle) hlow
  · intro hle
    by_contra hlt
    have heq : m = ofDecimal 1 p :=
      Fin.le_antisymm (Fin.le_trans hhigh (ofDecimal_mono_right 1 (Int.not_le.mp hlt))) hle
    rw [heq, hp] at hlt
    exact hlt (Int.le_refl p)

end

end Magnitude
end Contracts
