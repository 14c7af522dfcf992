import Contracts.Proofs.Binary64.Range

/-!
# Integers as doubles

Within one binade the ranks go up by one for every spacing of the binade, so a whole number of
spacings lies below everything that is a spacing larger.  Below `2^53` one is a whole number of
spacings, and no integer there shares its double with another one.
-/

namespace Contracts
namespace Magnitude

/-- How many units a spacing is in the binade of a number of units. -/
def spacing (n : Nat) : Nat :=
  Nat.pow 2 (n.log2 - 52)

theorem spacing_pos (n : Nat) : 0 < spacing n :=
  Nat.two_pow_pos _

theorem spacing_dvd_unitsPerOne {n : Nat} (h : n.log2 - 52 <= unitExponent) :
    spacing n ∣ unitsPerOne := by
  unfold unitsPerOne
  generalize unitExponent = k at *
  exact Nat.pow_dvd_pow 2 h

theorem roundHalfEven_of_dvd {n d : Nat} (h : d ∣ n) : roundHalfEven n d = n / d := by
  have hrest : n % d = 0 := Nat.mod_eq_zero_of_dvd h
  unfold roundHalfEven
  rw [hrest]
  split
  · rfl
  · split
    · rename_i hneg
      cases hneg
    · rename_i hd _
      have hzero : d = 0 := by omega
      rw [hzero, Nat.div_zero]

theorem log2_le_log2 {n m : Nat} (h : n <= m) : n.log2 <= m.log2 := by
  by_cases hzero : n = 0
  · rw [hzero]
    exact Nat.zero_le _
  · apply (Nat.le_log2 (by omega)).mpr
    exact Nat.le_trans (Nat.log2_self_le hzero) h

theorem val_nearest (n : Nat) :
    (nearest n 1).val =
      min infinityRank ((n.log2 - 52) * binadeSize + roundHalfEven n (spacing n)) := by
  simp only [nearest, spacing, Nat.div_one, Nat.one_mul]

/-- A whole number of spacings lies below what is a spacing larger. -/
theorem nearest_lt_nearest {n m : Nat} (hwhole : spacing n ∣ n) (hlarger : n + spacing n <= m)
    (hfinite : n.log2 - 52 < 2045) : (nearest n 1).val < (nearest m 1).val := by
  have hround : roundHalfEven n (spacing n) = n / spacing n := roundHalfEven_of_dvd hwhole
  have hbelow : n / spacing n < 2 * binadeSize := div_binade_lt n
  have hup := le_roundHalfEven m (spacing m)
  have hranks : (n.log2 - 52) * binadeSize + n / spacing n <
      (m.log2 - 52) * binadeSize + m / spacing m := by
    rcases Nat.lt_or_ge (n.log2 - 52) (m.log2 - 52) with hlater | hsame
    · have hnormal : binadeSize <= m / spacing m := binade_le_div (by omega)
      have hbinades := Nat.mul_le_mul_right binadeSize hlater
      rw [Nat.succ_mul] at hbinades
      omega
    · have hlog : n.log2 <= m.log2 := log2_le_log2 (by omega)
      have hbinade : m.log2 - 52 = n.log2 - 52 := by omega
      have hspacing : spacing m = spacing n := congrArg (Nat.pow 2) hbinade
      have hstep : (n + spacing n) / spacing n <= m / spacing n := Nat.div_le_div_right hlarger
      rw [Nat.add_div_right n (spacing_pos n)] at hstep
      rw [hbinade, hspacing]
      omega
  have hrank : (n.log2 - 52) * binadeSize + n / spacing n < infinityRank := by
    have hbinades := Nat.mul_le_mul_right binadeSize (Nat.le_of_lt_succ hfinite)
    unfold infinityRank binadeSize at *
    omega
  rw [val_nearest, val_nearest, hround]
  apply Nat.lt_min.mpr
  constructor
  · exact Nat.lt_of_le_of_lt (Nat.min_le_right _ _) hrank
  · apply Nat.lt_of_le_of_lt (Nat.min_le_right _ _)
    exact Nat.lt_of_lt_of_le hranks (Nat.add_le_add_left hup _)

/-- A natural number below `2^53` has a smaller magnitude than any larger one. -/
theorem val_ofNat_lt {n m : Nat} (hn : n < 2 ^ 53) (h : n < m) :
    (ofNat n).val < (ofNat m).val := by
  have hunits : n * unitsPerOne < 2 ^ (53 + unitExponent) := by
    rw [← two_pow_mul_unitsPerOne rfl]
    exact Nat.mul_lt_mul_of_pos_right hn unitsPerOne_pos
  have hbinade : (n * unitsPerOne).log2 - 52 <= unitExponent := by
    by_cases hzero : n * unitsPerOne = 0
    · rw [hzero]
      exact Nat.zero_le _
    · have hlog := (Nat.log2_lt hzero).mpr hunits
      omega
  -- The spacing at `n` divides one, so `n` is a whole number of spacings and `n + 1` is further.
  have hdvd : spacing (n * unitsPerOne) ∣ unitsPerOne := spacing_dvd_unitsPerOne hbinade
  apply nearest_lt_nearest
  · exact Nat.dvd_mul_left_of_dvd hdvd n
  · calc n * unitsPerOne + spacing (n * unitsPerOne) <= n * unitsPerOne + unitsPerOne :=
          Nat.add_le_add_left (Nat.le_of_dvd unitsPerOne_pos hdvd) _
      _ = (n + 1) * unitsPerOne := (Nat.succ_mul n _).symm
      _ <= m * unitsPerOne := Nat.mul_le_mul_right _ h
  · exact Nat.lt_of_le_of_lt hbinade (by decide)

theorem eq_or_large_of_ofNat_eq {n m : Nat} (h : (ofNat n).val = (ofNat m).val) :
    n = m ∨ 2 ^ 53 <= n ∧ 2 ^ 53 <= m := by
  rcases Nat.lt_trichotomy n m with hlt | heq | hgt
  · have hn : 2 ^ 53 <= n := by
      apply Nat.le_of_not_lt
      intro hn
      exact Nat.ne_of_lt (val_ofNat_lt hn hlt) h
    exact Or.inr ⟨hn, by omega⟩
  · exact Or.inl heq
  · have hm : 2 ^ 53 <= m := by
      apply Nat.le_of_not_lt
      intro hm
      exact Nat.ne_of_lt (val_ofNat_lt hm hgt) h.symm
    exact Or.inr ⟨by omega, hm⟩

end Magnitude
end Contracts
