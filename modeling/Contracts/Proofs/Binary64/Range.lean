import Mathlib.Algebra.Order.Ring.Nat
import Contracts.Json.Reader

/-!
# The range of numbers that are read

A quotient between two powers of two has a rank between the ranks of these powers, and a
magnitude below a rank has no more units than the power of two there.  A significand of 64 bits
is therefore far below infinity, dividing it by powers of ten leaves it there, and multiplying it
gives an answer only where that is finite: a number that is read from a text is finite.
-/

namespace Contracts
namespace Magnitude

theorem two_pow_mul_unitsPerOne {k e : Nat} (h : k + unitExponent = e) :
    2 ^ k * unitsPerOne = 2 ^ e := by
  unfold unitsPerOne
  rw [← h]
  generalize unitExponent = j
  exact (Nat.pow_add 2 k j).symm

theorem le_roundHalfEven (n d : Nat) : n / d <= roundHalfEven n d := by
  unfold roundHalfEven
  split
  · exact Nat.le_refl _
  · split
    · exact Nat.le_succ _
    · exact Nat.le_add_right _ _

theorem roundHalfEven_le (n d : Nat) : roundHalfEven n d <= n / d + 1 := by
  unfold roundHalfEven
  split
  · exact Nat.le_succ _
  · split
    · exact Nat.le_refl _
    · omega

/-! ## Ranks -/

theorem div_binade_lt (q : Nat) : q / Nat.pow 2 (q.log2 - 52) < 2 * binadeSize := by
  apply (Nat.div_lt_iff_lt_mul (Nat.two_pow_pos _)).mpr
  calc q < 2 ^ (q.log2 + 1) := Nat.lt_log2_self
    _ <= 2 ^ (53 + (q.log2 - 52)) := Nat.pow_le_pow_right (by decide) (by omega)
    _ = 2 * binadeSize * Nat.pow 2 (q.log2 - 52) := Nat.pow_add 2 53 _

theorem binade_le_div {q : Nat} (h : 52 <= q.log2) :
    binadeSize <= q / Nat.pow 2 (q.log2 - 52) := by
  have hq : q ≠ 0 := by
    intro hzero
    rw [hzero] at h
    cases h
  apply (Nat.le_div_iff_mul_le (Nat.two_pow_pos _)).mpr
  calc binadeSize * Nat.pow 2 (q.log2 - 52) = 2 ^ (52 + (q.log2 - 52)) :=
        (Nat.pow_add 2 52 _).symm
    _ = 2 ^ q.log2 := by rw [Nat.add_sub_cancel' h]
    _ <= q := Nat.log2_self_le hq

section

variable {n d k : Nat}

theorem val_nearest_le (h : n / d < 2 ^ (k + 52)) :
    (nearest n d).val <= (k + 2) * binadeSize := by
  have hround := roundHalfEven_le n (d * Nat.pow 2 ((n / d).log2 - 52))
  rw [← Nat.div_div_eq_div_mul] at hround
  have hdiv := div_binade_lt (n / d)
  have hbinade : (n / d).log2 - 52 <= k := by
    by_cases hq : n / d = 0
    · rw [hq]
      exact Nat.zero_le k
    · have hlog := (Nat.log2_lt hq).mpr h
      omega
  have hmul := Nat.mul_le_mul_right binadeSize hbinade
  apply Nat.le_trans (Nat.min_le_right _ _)
  rw [Nat.add_mul]
  omega

theorem le_val_nearest (h : 2 ^ (k + 52) <= n / d) (hk : k < 2046) :
    (k + 1) * binadeSize <= (nearest n d).val := by
  have hround := le_roundHalfEven n (d * Nat.pow 2 ((n / d).log2 - 52))
  rw [← Nat.div_div_eq_div_mul] at hround
  have hq : n / d ≠ 0 := by
    have hpos := Nat.two_pow_pos (k + 52)
    omega
  have hlog := (Nat.le_log2 hq).mpr h
  have hdiv := binade_le_div (Nat.le_trans (Nat.le_add_left 52 k) hlog)
  have hbinade : k <= (n / d).log2 - 52 := by omega
  have hmul := Nat.mul_le_mul_right binadeSize hbinade
  apply Nat.le_min.mpr
  constructor
  · unfold infinityRank binadeSize
    omega
  · rw [Nat.add_mul]
    omega

end

section

variable {m : Magnitude} {k : Nat}

theorem units_lt (h : m.val <= (k + 2) * binadeSize) : m.units < 2 ^ (k + 54) := by
  have hsize : 0 < binadeSize := by decide
  have hbinade : m.val / binadeSize <= k + 2 :=
    Nat.div_le_of_le_mul (by rwa [Nat.mul_comm])
  have hwithin := Nat.mod_lt m.val hsize
  unfold units
  split
  · rename_i hsmall
    calc m.val < 2 ^ 52 := hsmall
      _ <= 2 ^ (k + 54) := Nat.pow_le_pow_right (by decide) (by omega)
  · calc (binadeSize + m.val % binadeSize) * Nat.pow 2 (m.val / binadeSize - 1)
          < 2 ^ 53 * Nat.pow 2 (m.val / binadeSize - 1) := by
            apply Nat.mul_lt_mul_of_pos_right _ (Nat.two_pow_pos _)
            unfold binadeSize at *
            omega
      _ = 2 ^ (53 + (m.val / binadeSize - 1)) := (Nat.pow_add 2 53 _).symm
      _ <= 2 ^ (k + 54) := Nat.pow_le_pow_right (by decide) (by omega)

theorem le_units (h : (k + 1) * binadeSize <= m.val) : 2 ^ (k + 52) <= m.units := by
  have hsize : 0 < binadeSize := by decide
  have hbinade : k + 1 <= m.val / binadeSize := (Nat.le_div_iff_mul_le hsize).mpr h
  have hlarge : ¬ m.val < binadeSize := by
    apply Nat.not_lt.mpr
    exact Nat.le_trans (Nat.le_mul_of_pos_left binadeSize (Nat.succ_pos k)) h
  unfold units
  rw [if_neg hlarge]
  calc 2 ^ (k + 52) <= 2 ^ (52 + (m.val / binadeSize - 1)) :=
        Nat.pow_le_pow_right (by decide) (by omega)
    _ = binadeSize * Nat.pow 2 (m.val / binadeSize - 1) := Nat.pow_add 2 52 _
    _ <= (binadeSize + m.val % binadeSize) * Nat.pow 2 (m.val / binadeSize - 1) :=
        Nat.mul_le_mul_right _ (Nat.le_add_right _ _)

end

/-! ## Significands of 64 bits -/

/-- Whether a magnitude is at most `2^66`. -/
def Moderate (m : Magnitude) : Prop :=
  m.val <= (1086 + 2) * binadeSize

theorem ne_infinity_of_moderate {m : Magnitude} (h : m.Moderate) : m ≠ infinity := by
  intro hinfinity
  rw [hinfinity] at h
  revert h
  unfold Moderate infinity infinityRank binadeSize
  decide

theorem moderate_ofNat {n : Nat} (h : n < Decimal.wordLimit) : (ofNat n).Moderate := by
  apply val_nearest_le
  rw [Nat.div_one]
  calc n * unitsPerOne < 2 ^ 64 * unitsPerOne := Nat.mul_lt_mul_of_pos_right h unitsPerOne_pos
    _ = 2 ^ (1086 + 52) := two_pow_mul_unitsPerOne (by decide)

theorem le_units_ofNat {n : Nat} (h : 10 <= n) : 2 ^ (1025 + 52) <= (ofNat n).units := by
  apply le_units
  apply le_val_nearest
  · rw [Nat.div_one]
    calc 2 ^ (1025 + 52) = 2 ^ 3 * unitsPerOne := (two_pow_mul_unitsPerOne (by decide)).symm
      _ <= n * unitsPerOne := Nat.mul_le_mul_right _ (by omega)
  · decide

theorem moderate_quotient {m : Magnitude} (hm : m.Moderate) {n : Nat} (hn : 10 <= n) :
    (m.quotient (ofNat n)).Moderate := by
  have hbig := le_units_ofNat hn
  have hquotient : m.units * unitsPerOne / (ofNat n).units < 2 ^ (1085 + 52) := by
    apply (Nat.div_lt_iff_lt_mul (Nat.lt_of_lt_of_le (Nat.two_pow_pos _) hbig)).mpr
    calc m.units * unitsPerOne < 2 ^ (1086 + 54) * unitsPerOne :=
          Nat.mul_lt_mul_of_pos_right (units_lt hm) unitsPerOne_pos
      _ = 2 ^ (1085 + 52 + (1025 + 52)) := two_pow_mul_unitsPerOne (by decide)
      _ = 2 ^ (1085 + 52) * 2 ^ (1025 + 52) := by rw [← Nat.pow_add]
      _ <= 2 ^ (1085 + 52) * (ofNat n).units := Nat.mul_le_mul_left _ hbig
  exact Nat.le_trans (val_nearest_le hquotient) (Nat.mul_le_mul_right _ (by decide))

theorem ten_le_pow {k : Nat} (h : 0 < k) : 10 <= Nat.pow 10 k :=
  Nat.le_self_pow (Nat.ne_of_gt h) 10

theorem moderate_scaleDown {m : Magnitude} (hm : m.Moderate) {k : Nat} (hk : 0 < k) :
    (m.scaleDown k).Moderate := by
  induction k using Nat.strong_induction_on generalizing m with
  | _ k ih =>
      rw [scaleDown]
      split
      · exact moderate_quotient hm (ten_le_pow hk)
      · rename_i hlarge
        split
        · exact Nat.zero_le _
        · -- The power that is left is positive, so the last step divides by ten at least.
          apply ih
          · unfold greatestPower at *
            omega
          · exact moderate_quotient hm (ten_le_pow (by decide))
          · unfold greatestPower at *
            omega

theorem scaleUp?_ne_infinity {m scaled : Magnitude} {k : Nat}
    (h : m.scaleUp? k = some scaled) : scaled ≠ infinity := by
  unfold scaleUp? at h
  split at h
  · split at h
    · cases h
      decide
    · cases h
  · by_cases hfinite : m.product (ofNat (Nat.pow 10 k)) = infinity
    · rw [if_pos hfinite] at h
      cases h
    · rw [if_neg hfinite] at h
      rw [← Option.some.inj h]
      exact hfinite

theorem scale?_ne_infinity {m scaled : Magnitude} (hm : m.Moderate) {exponent : Int}
    (h : m.scale? exponent = some scaled) : scaled ≠ infinity := by
  cases exponent with
  | ofNat k =>
      exact scaleUp?_ne_infinity h
  | negSucc k =>
      cases h
      exact ne_infinity_of_moderate (moderate_scaleDown hm (Nat.succ_pos k))

theorem gather_lt {significand : Nat} (h : significand < Decimal.wordLimit) (ds : List Char) :
    (Decimal.gather significand ds).1 < Decimal.wordLimit := by
  induction ds generalizing significand with
  | nil =>
      exact h
  | cons c rest ih =>
      unfold Decimal.gather
      simp only
      split
      · rename_i hnext
        exact ih hnext
      · exact h

theorem ofScaled?_ne_infinity {whole fraction : List Char} {exponent : Int} {m : Magnitude}
    (h : ofScaled? whole fraction exponent = some m) : m ≠ infinity := by
  have hzero : 0 < Decimal.wordLimit := by decide
  have hwhole := gather_lt hzero whole
  exact scale?_ne_infinity (moderate_ofNat (gather_lt hwhole fraction)) h

end Magnitude

/-! ## Numbers -/

theorem Binary64.isFinite_ofInt {n : Int} (h : n.natAbs < Decimal.wordLimit) :
    (ofInt n).isFinite = true :=
  bne_iff_ne.mpr (Magnitude.ne_infinity_of_moderate (Magnitude.moderate_ofNat h))

namespace Json.Reader

theorem NumberText.isFinite_float? {t : NumberText} {x : Binary64} (h : t.float? = some x) :
    x.isFinite = true := by
  rcases Option.map_eq_some_iff.mp h with ⟨m, hm, hx⟩
  rw [← hx]
  exact bne_iff_ne.mpr (Magnitude.ofScaled?_ne_infinity hm)

end Json.Reader
end Contracts
