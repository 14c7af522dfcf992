import Mathlib.Data.Nat.Dist
import Mathlib.Order.Monotone.Basic
import Contracts.Proofs.Binary64.Rounding

/-!
# The nearest magnitude

The units of the ranks increase strictly, so every number of units lies between those of two
neighbouring ranks.  Rounding picks the nearer one of the two, and the even one midway: no
magnitude is nearer than the one that rounding gives, and that decides which one it is.  Rounding
is monotone, and leaves every magnitude as it is.
-/

namespace Contracts
namespace Magnitude

/-! ## Units of ranks -/

/-- The units at a rank, where the ranks go on beyond infinity. -/
def unitsAt (rank : Nat) : Nat :=
  if rank < binadeSize then rank
  else (binadeSize + rank % binadeSize) * Nat.pow 2 (rank / binadeSize - 1)

theorem units_eq_unitsAt (m : Magnitude) : m.units = unitsAt m.val := rfl

theorem binadeSize_pos : 0 < binadeSize := by
  unfold binadeSize
  omega

/-- In a binade with number `b` the rank goes up by one for every `2 ^ b` units. -/
theorem unitsAt_binade {b t : Nat} (ht : t <= 2 * binadeSize) (hb : b = 0 ∨ binadeSize <= t) :
    unitsAt (b * binadeSize + t) = t * Nat.pow 2 b := by
  have hsize := binadeSize_pos
  unfold unitsAt
  rcases Nat.lt_or_ge t binadeSize with hsmall | hnormal
  · have hzero : b = 0 := hb.resolve_right (Nat.not_le.mpr hsmall)
    subst hzero
    rw [if_pos (by omega), Nat.zero_mul, Nat.zero_add]
    exact (Nat.mul_one t).symm
  · rw [if_neg (by omega)]
    rcases Nat.lt_or_eq_of_le ht with hwithin | hlast
    · have hquotient : (b * binadeSize + t) / binadeSize = b + 1 := by
        rw [Nat.mul_comm, Nat.mul_add_div hsize, Nat.div_eq_of_lt_le] <;> omega
      have hrest : (b * binadeSize + t) % binadeSize = t - binadeSize := by
        rw [Nat.mul_comm, Nat.mul_add_mod, Nat.mod_eq_sub_mod hnormal, Nat.mod_eq_of_lt]
        omega
      rw [hquotient, hrest, Nat.add_sub_cancel' hnormal, Nat.add_sub_cancel]
    · have hrank : b * binadeSize + t = binadeSize * (b + 2) := by
        rw [hlast, Nat.mul_comm, Nat.mul_comm 2, ← Nat.mul_add]
      rw [hrank, Nat.mul_div_cancel_left _ hsize, Nat.mul_mod_right, hlast, Nat.add_zero,
        Nat.mul_comm 2, Nat.mul_assoc]
      congr 1
      exact Nat.pow_add_one'

theorem exists_binade (rank : Nat) : exists b t, rank = b * binadeSize + t ∧
    t < 2 * binadeSize ∧ (b = 0 ∨ binadeSize <= t) := by
  have hsize := binadeSize_pos
  have hsplit := Nat.div_add_mod rank binadeSize
  have hrest := Nat.mod_lt rank hsize
  rcases Nat.eq_zero_or_pos (rank / binadeSize) with hzero | hpos
  · refine ⟨0, rank, (by omega), ?_, Or.inl rfl⟩
    rw [hzero] at hsplit
    omega
  · refine ⟨rank / binadeSize - 1, binadeSize + rank % binadeSize, ?_, (by omega),
      Or.inr (by omega)⟩
    rw [← Nat.add_assoc, ← Nat.succ_mul, Nat.succ_eq_add_one, Nat.sub_add_cancel hpos,
      Nat.mul_comm, hsplit]

theorem unitsAt_strictMono : StrictMono unitsAt := by
  apply strictMono_nat_of_lt_succ
  intro rank
  rcases exists_binade rank with ⟨b, t, rfl, ht, hb⟩
  rw [Nat.add_assoc, unitsAt_binade (Nat.le_of_lt ht) hb,
    unitsAt_binade ht (hb.imp_right Nat.le_succ_of_le)]
  exact Nat.mul_lt_mul_of_pos_right (Nat.lt_succ_self t) (Nat.two_pow_pos b)

theorem units_lt_units_iff {m k : Magnitude} : m.units < k.units <-> m < k :=
  unitsAt_strictMono.lt_iff_lt

theorem units_le_units_iff {m k : Magnitude} : m.units <= k.units <-> m <= k :=
  unitsAt_strictMono.le_iff_le

theorem units_injective {m k : Magnitude} (h : m.units = k.units) : m = k :=
  Fin.ext (unitsAt_strictMono.injective h)

/-! ## The two neighbours of a number of units -/

/-- The last rank whose units do not exceed a number of units. -/
def rankBelow (n : Nat) : Nat :=
  (n.log2 - 52) * binadeSize + n / spacing n

theorem binade_eq_zero_or_le (n : Nat) :
    n.log2 - 52 = 0 ∨ binadeSize <= n / spacing n := by
  rcases Nat.le_total n.log2 52 with hsmall | hnormal
  · exact Or.inl (Nat.sub_eq_zero_of_le hsmall)
  · exact Or.inr (binade_le_div hnormal)

theorem unitsAt_rankBelow (n : Nat) : unitsAt (rankBelow n) = n / spacing n * spacing n :=
  unitsAt_binade (Nat.le_of_lt (div_binade_lt n)) (binade_eq_zero_or_le n)

theorem unitsAt_rankBelow_succ (n : Nat) :
    unitsAt (rankBelow n + 1) = (n / spacing n + 1) * spacing n := by
  unfold rankBelow
  rw [Nat.add_assoc]
  exact unitsAt_binade (div_binade_lt n) ((binade_eq_zero_or_le n).imp_right Nat.le_succ_of_le)

theorem unitsAt_rankBelow_le (n : Nat) : unitsAt (rankBelow n) <= n := by
  rw [unitsAt_rankBelow]
  exact Nat.div_mul_le_self n _

theorem lt_unitsAt_rankBelow_succ (n : Nat) : n < unitsAt (rankBelow n + 1) := by
  rw [unitsAt_rankBelow_succ, Nat.mul_comm]
  exact Nat.lt_mul_div_succ n (spacing_pos n)

/-- The rank that rounding gives, where the ranks go on beyond infinity. -/
def rank (n : Nat) : Nat :=
  (n.log2 - 52) * binadeSize + roundHalfEven n (spacing n)

theorem val_nearest_eq_min (n : Nat) : (nearest n 1).val = min infinityRank (rank n) :=
  val_nearest n

theorem rankBelow_mod_two (n : Nat) : rankBelow n % 2 = n / spacing n % 2 := by
  unfold rankBelow binadeSize
  omega

/-- Rounding picks the nearer neighbour, and the even one midway. -/
theorem rank_cases (n : Nat) :
    (rank n = rankBelow n ∧
      2 * n < unitsAt (rankBelow n) + unitsAt (rankBelow n + 1)) ∨
    (rank n = rankBelow n + 1 ∧
      unitsAt (rankBelow n) + unitsAt (rankBelow n + 1) < 2 * n) ∨
    (rank n = rankBelow n + rankBelow n % 2 ∧
      2 * n = unitsAt (rankBelow n) + unitsAt (rankBelow n + 1)) := by
  have hsplit := Nat.div_add_mod n (spacing n)
  have hbelow : unitsAt (rankBelow n) = spacing n * (n / spacing n) := by
    rw [unitsAt_rankBelow, Nat.mul_comm]
  have habove : unitsAt (rankBelow n + 1) = spacing n * (n / spacing n) + spacing n := by
    rw [unitsAt_rankBelow_succ, Nat.mul_comm, Nat.mul_add_one]
  rw [hbelow, habove, rankBelow_mod_two]
  unfold rank rankBelow roundHalfEven
  split
  · exact Or.inl ⟨rfl, by omega⟩
  · split
    · exact Or.inr (Or.inl ⟨(Nat.add_assoc _ _ _).symm, by omega⟩)
    · exact Or.inr (Or.inr ⟨(Nat.add_assoc _ _ _).symm, by omega⟩)

/-! ## What the nearest magnitude is -/

/-- Whether no magnitude is nearer to some units; of two that are equally near it is the one of
even rank. -/
structure IsNearest (n : Nat) (m : Magnitude) : Prop where
  dist_le : forall k : Magnitude, Nat.dist m.units n <= Nat.dist k.units n
  even_of_tie : forall k : Magnitude, k ≠ m -> Nat.dist k.units n = Nat.dist m.units n ->
    m.val % 2 = 0

theorem isNearest_infinity {n : Nat} (h : infinity.units <= n) : IsNearest n infinity := by
  constructor
  · intro k
    have hk : k.units <= infinity.units :=
      units_le_units_iff.mpr (Nat.le_of_lt_succ k.isLt)
    unfold Nat.dist
    omega
  · intro k _ _
    decide

theorem isNearest_of_cases {n : Nat} {m : Magnitude}
    (h : m.val = rankBelow n ∧ (2 * n < unitsAt (rankBelow n) + unitsAt (rankBelow n + 1) ∨
        2 * n = unitsAt (rankBelow n) + unitsAt (rankBelow n + 1) ∧ m.val % 2 = 0) ∨
      m.val = rankBelow n + 1 ∧ (unitsAt (rankBelow n) + unitsAt (rankBelow n + 1) < 2 * n ∨
        2 * n = unitsAt (rankBelow n) + unitsAt (rankBelow n + 1) ∧ m.val % 2 = 0)) :
    IsNearest n m := by
  have hbelow := unitsAt_rankBelow_le n
  have habove := lt_unitsAt_rankBelow_succ n
  -- Any other rank lies at or below the lower neighbour, or at or above the upper one.
  have hside : forall k : Magnitude, k.units <= unitsAt (rankBelow n) ∨
      unitsAt (rankBelow n + 1) <= k.units := by
    intro k
    rcases Nat.lt_or_ge (rankBelow n) k.val with hk | hk
    · exact Or.inr (unitsAt_strictMono.monotone hk)
    · exact Or.inl (unitsAt_strictMono.monotone hk)
  have hdist : forall k : Magnitude, Nat.dist m.units n <= Nat.dist k.units n ∧
      (k.units ≠ m.units -> Nat.dist k.units n = Nat.dist m.units n -> m.val % 2 = 0) := by
    intro k
    have hk := hside k
    unfold Nat.dist
    rcases h with ⟨hm, h⟩ | ⟨hm, h⟩
    · rw [units_eq_unitsAt m, hm] at *
      omega
    · rw [units_eq_unitsAt m, hm] at *
      omega
  constructor
  · intro k
    exact (hdist k).1
  · intro k hne
    exact (hdist k).2 fun heq => hne (units_injective heq)

theorem isNearest_nearest (n : Nat) : IsNearest n (nearest n 1) := by
  have hval := val_nearest_eq_min n
  rcases Nat.lt_or_ge (rankBelow n) infinityRank with hfinite | hinfinite
  · have hrank : (nearest n 1).val = rank n := by
      rw [hval]
      apply Nat.min_eq_right
      rcases rank_cases n with ⟨h, _⟩ | ⟨h, _⟩ | ⟨h, _⟩ <;> omega
    apply isNearest_of_cases
    rw [hrank]
    rcases rank_cases n with ⟨h, hn⟩ | ⟨h, hn⟩ | ⟨h, hn⟩
    · exact Or.inl ⟨h, Or.inl hn⟩
    · exact Or.inr ⟨h, Or.inl hn⟩
    · rcases Nat.mod_two_eq_zero_or_one (rankBelow n) with heven | hodd
      · exact Or.inl ⟨by omega, Or.inr ⟨hn, by omega⟩⟩
      · exact Or.inr ⟨by omega, Or.inr ⟨hn, by omega⟩⟩
  · have hrank : infinityRank <= rank n := by
      rcases rank_cases n with ⟨h, _⟩ | ⟨h, _⟩ | ⟨h, _⟩ <;> omega
    have heq : nearest n 1 = infinity := by
      apply Fin.ext
      rw [hval, Nat.min_eq_left hrank]
      rfl
    rw [heq]
    apply isNearest_infinity
    exact Nat.le_trans (unitsAt_strictMono.monotone hinfinite) (unitsAt_rankBelow_le n)

theorem IsNearest.le {n : Nat} {m k : Magnitude} (hm : IsNearest n m) (hk : IsNearest n k) :
    k <= m := by
  apply Nat.le_of_not_lt
  intro hlt
  have hunits : m.units < k.units := units_lt_units_iff.mpr hlt
  have hle := hm.dist_le k
  have hge := hk.dist_le m
  have hne : k ≠ m := Fin.ne_of_gt hlt
  have heven := hm.even_of_tie k hne (by omega)
  have heven' := hk.even_of_tie m hne.symm (by omega)
  -- Two even ranks have one between them, and that is nearer than both.
  have hbetween : m.val + 1 < k.val := by
    have hval : m.val < k.val := hlt
    omega
  let middle : Magnitude := ⟨m.val + 1, Nat.lt_trans hbetween k.isLt⟩
  have hlow : m.units < middle.units := unitsAt_strictMono (Nat.lt_succ_self _)
  have hhigh : middle.units < k.units := unitsAt_strictMono hbetween
  have hmiddle := hm.dist_le middle
  unfold Nat.dist at *
  omega

theorem isNearest_iff {n : Nat} {m : Magnitude} : IsNearest n m <-> m = nearest n 1 := by
  constructor
  · intro h
    exact Fin.le_antisymm ((isNearest_nearest n).le h) (h.le (isNearest_nearest n))
  · rintro rfl
    exact isNearest_nearest n

theorem nearest_units (m : Magnitude) : nearest m.units 1 = m := by
  symm
  apply isNearest_iff.mp
  constructor
  · intro k
    rw [Nat.dist_self]
    exact Nat.zero_le _
  · intro k hne htie
    rw [Nat.dist_self] at htie
    exact absurd (units_injective (Nat.eq_of_dist_eq_zero htie)) hne

/-! ## Monotony -/

theorem roundHalfEven_mono {n m : Nat} (d : Nat) (h : n <= m) :
    roundHalfEven n d <= roundHalfEven m d := by
  have hquotient : n / d <= m / d := Nat.div_le_div_right h
  rcases Nat.lt_or_eq_of_le hquotient with hlt | heq
  · exact Nat.le_trans (roundHalfEven_le n d) (Nat.le_trans hlt (le_roundHalfEven m d))
  · have hn := Nat.div_add_mod n d
    have hm := Nat.div_add_mod m d
    rw [heq] at hn
    unfold roundHalfEven
    rw [heq]
    -- The remainder decides between the quotient and the next number, and it only grows.
    split
    · split
      · exact Nat.le_refl _
      · split <;> omega
    · split
      · rw [if_neg (by omega), if_pos (by omega)]
      · split
        · omega
        · split <;> omega

/-- The rank of a quotient grows with the number that is divided. -/
theorem rank_div_mono {n m : Nat} (d : Nat) (h : n <= m) :
    ((n / d).log2 - 52) * binadeSize + roundHalfEven n (d * spacing (n / d)) <=
      ((m / d).log2 - 52) * binadeSize + roundHalfEven m (d * spacing (m / d)) := by
  have hquotient : n / d <= m / d := Nat.div_le_div_right h
  rcases Nat.lt_or_ge ((n / d).log2 - 52) ((m / d).log2 - 52) with hlater | hsame
  · have hbelow : n / d / spacing (n / d) < 2 * binadeSize := div_binade_lt _
    have hnormal : binadeSize <= m / d / spacing (m / d) := binade_le_div (by omega)
    have hup := roundHalfEven_le n (d * spacing (n / d))
    have hdown := le_roundHalfEven m (d * spacing (m / d))
    have hbinades := Nat.mul_le_mul_right binadeSize hlater
    rw [Nat.div_div_eq_div_mul] at hbelow hnormal
    rw [Nat.succ_mul] at hbinades
    omega
  · have hlog : (n / d).log2 <= (m / d).log2 := log2_le_log2 hquotient
    have hbinade : (m / d).log2 - 52 = (n / d).log2 - 52 := by omega
    have hspacing : spacing (m / d) = spacing (n / d) := congrArg (Nat.pow 2) hbinade
    rw [hbinade, hspacing]
    exact Nat.add_le_add_left (roundHalfEven_mono _ h) _

theorem nearest_mono {n m d : Nat} (h : n <= m) : nearest n d <= nearest m d :=
  Nat.le_min.mpr ⟨Nat.min_le_left _ _,
    Nat.le_trans (Nat.min_le_right _ _) (rank_div_mono d h)⟩

theorem ofNat_mono {n m : Nat} (h : n <= m) : ofNat n <= ofNat m :=
  nearest_mono (Nat.mul_le_mul_right _ h)

end Magnitude
end Contracts
