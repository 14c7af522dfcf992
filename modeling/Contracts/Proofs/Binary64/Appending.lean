import Mathlib.Data.List.Induction
import Mathlib.Data.Nat.Digits.Defs
import Contracts.Proofs.Binary64.Nearest

/-!
# Digits appended one by one

A magnitude that is read digit by digit is rounded at every digit.  Where the radix is a small
power of two, the product with it is exact, and only the sum with the digit rounds.  Below `2^53`
that is exact, too.  From there on a digit is less than half of the spacing and is lost, so the
magnitude is that of the digits with zeros for all that follow once `2^53` is reached: one
rounding of the number that is kept.

That is the rounding of the whole number, unless the kept number lies midway between two
magnitudes and is rounded down to an even one, and digits that are lost would have tipped it.
-/

namespace Contracts
namespace Magnitude

theorem infinityRank_eq : infinityRank = 2047 * binadeSize := rfl

/-! ## Multiplying by a power of two -/

theorem roundHalfEven_mul (n d : Nat) {c : Nat} (hc : 0 < c) :
    roundHalfEven (n * c) (d * c) = roundHalfEven n d := by
  have hbelow : 2 * (n % d * c) < d * c <-> 2 * (n % d) < d := by
    rw [← Nat.mul_assoc]
    exact Nat.mul_lt_mul_right hc
  have habove : d * c < 2 * (n % d * c) <-> d < 2 * (n % d) := by
    rw [← Nat.mul_assoc]
    exact Nat.mul_lt_mul_right hc
  unfold roundHalfEven
  rw [Nat.mul_div_mul_right _ _ hc, Nat.mul_mod_mul_right]
  simp only [hbelow, habove]

theorem log2_mul_two_pow {n : Nat} (h : n ≠ 0) (k : Nat) : (n * 2 ^ k).log2 = n.log2 + k := by
  induction k with
  | zero =>
      rw [Nat.pow_zero, Nat.mul_one, Nat.add_zero]
  | succ k ih =>
      have hne : n * 2 ^ k ≠ 0 := Nat.mul_ne_zero h (Nat.ne_of_gt (Nat.two_pow_pos k))
      rw [Nat.pow_succ, ← Nat.mul_assoc, Nat.mul_comm _ 2, Nat.log2_two_mul hne, ih, Nat.add_assoc]

/-- Multiplying a normal number by `2 ^ k` moves it on by `k` binades. -/
theorem rank_mul_two_pow {n : Nat} (h : 52 <= n.log2) (k : Nat) :
    rank (n * 2 ^ k) = rank n + k * binadeSize := by
  have hne : n ≠ 0 := by
    rintro rfl
    cases h
  have hlog : (n * 2 ^ k).log2 - 52 = n.log2 - 52 + k := by
    rw [log2_mul_two_pow hne]
    omega
  have hspacing : spacing (n * 2 ^ k) = spacing n * 2 ^ k := by
    unfold spacing
    rw [hlog]
    exact Nat.pow_add 2 _ k
  unfold rank
  rw [hlog, hspacing, roundHalfEven_mul _ _ (Nat.two_pow_pos k), Nat.add_mul]
  omega

theorem le_log2_units {m : Magnitude} (h : binadeSize <= m.val) : 52 <= m.units.log2 := by
  have hunits : 2 ^ (0 + 52) <= m.units := by
    apply le_units
    rwa [Nat.zero_add, Nat.one_mul]
  have hpos := Nat.two_pow_pos (0 + 52)
  exact (Nat.le_log2 (by omega)).mpr hunits

theorem val_eq_min_rank (m : Magnitude) : m.val = min infinityRank (rank m.units) := by
  rw [← val_nearest_eq_min, nearest_units]

theorem val_nearest_units_mul {m : Magnitude} (h : binadeSize <= m.val) (k : Nat) :
    (nearest (m.units * 2 ^ k) 1).val = min infinityRank (m.val + k * binadeSize) := by
  have hm := val_eq_min_rank m
  rw [val_nearest_eq_min, rank_mul_two_pow (le_log2_units h)]
  omega

theorem mul_unitsPerOne_mul (n k : Nat) :
    n * 2 ^ k * unitsPerOne = n * unitsPerOne * 2 ^ k := by
  rw [Nat.mul_assoc, Nat.mul_comm (2 ^ k), Nat.mul_assoc]

theorem le_log2_mul_unitsPerOne {n : Nat} (h : 0 < n) : unitExponent <= (n * unitsPerOne).log2 := by
  have hpos : 0 < n * unitsPerOne := Nat.mul_pos h unitsPerOne_pos
  apply (Nat.le_log2 (Nat.ne_of_gt hpos)).mpr
  unfold unitsPerOne
  generalize unitExponent = e
  exact Nat.le_mul_of_pos_left _ h

theorem val_ofNat (n : Nat) : (ofNat n).val = min infinityRank (rank (n * unitsPerOne)) :=
  val_nearest_eq_min _

theorem binadeSize_le_val_ofNat {n : Nat} (h : 0 < n) : binadeSize <= (ofNat n).val := by
  have hlog := le_log2_mul_unitsPerOne h
  unfold unitExponent at hlog
  have hnormal : binadeSize <= n * unitsPerOne / spacing (n * unitsPerOne) :=
    binade_le_div (by omega)
  have hround := le_roundHalfEven (n * unitsPerOne) (spacing (n * unitsPerOne))
  rw [val_ofNat]
  apply Nat.le_min.mpr
  constructor
  · rw [infinityRank_eq]
    omega
  · unfold rank
    omega

/-- A product with a power of two is rounded as if its first factor had not been. -/
theorem nearest_units_ofNat_mul {n : Nat} (h : 0 < n) (k : Nat) :
    nearest ((ofNat n).units * 2 ^ k) 1 = ofNat (n * 2 ^ k) := by
  have hlog := le_log2_mul_unitsPerOne h
  unfold unitExponent at hlog
  apply Fin.ext
  rw [val_nearest_units_mul (binadeSize_le_val_ofNat h), val_ofNat, val_ofNat, mul_unitsPerOne_mul,
    rank_mul_two_pow (by omega)]
  omega

/-! ## Sums that are exact -/

theorem units_nearest_of_dvd {n : Nat} (hdvd : spacing n ∣ n) (hfinite : n.log2 - 52 < 2045) :
    (nearest n 1).units = n := by
  have hrank : rank n = rankBelow n := by
    unfold rank rankBelow
    rw [roundHalfEven_of_dvd hdvd]
  have hbelow : n / spacing n < 2 * binadeSize := div_binade_lt n
  have hinside : rankBelow n <= infinityRank := by
    have hbinades := Nat.mul_le_mul_right binadeSize (Nat.le_of_lt_succ hfinite)
    unfold rankBelow
    rw [infinityRank_eq]
    omega
  rw [units_eq_unitsAt, val_nearest_eq_min, hrank, Nat.min_eq_right hinside, unitsAt_rankBelow,
    Nat.div_mul_cancel hdvd]

/-- A number of at most 53 bits is a magnitude, whatever power of two stands behind it. -/
theorem units_nearest_mul_two_pow {n e : Nat} (hn : n < 2 ^ 53) (he : e < 2045) :
    (nearest (n * 2 ^ e) 1).units = n * 2 ^ e := by
  have hlog : (n * 2 ^ e).log2 - 52 <= e := by
    by_cases hzero : n * 2 ^ e = 0
    · rw [hzero]
      exact Nat.zero_le _
    · have hlt : n * 2 ^ e < 2 ^ (53 + e) := by
        rw [Nat.pow_add]
        exact Nat.mul_lt_mul_of_pos_right hn (Nat.two_pow_pos e)
      have hbound := (Nat.log2_lt hzero).mpr hlt
      omega
  apply units_nearest_of_dvd
  · exact Nat.dvd_mul_left_of_dvd (Nat.pow_dvd_pow 2 hlog) n
  · omega

theorem mul_unitsPerOne_eq (n k : Nat) : n * unitsPerOne * 2 ^ k = n * 2 ^ (unitExponent + k) := by
  unfold unitsPerOne
  generalize unitExponent = e
  rw [Nat.mul_assoc, Nat.pow_add]
  rfl

theorem units_ofNat {n : Nat} (h : n < 2 ^ 53) : (ofNat n).units = n * unitsPerOne := by
  have hexact := units_nearest_mul_two_pow (e := unitExponent) h (by decide)
  have hunits := mul_unitsPerOne_eq n 0
  rw [Nat.pow_zero, Nat.mul_one, Nat.add_zero] at hunits
  unfold ofNat
  rw [hunits, hexact]

/-- Below `2^53` a digit is appended exactly, and the sum is rounded once. -/
theorem appendDigit_of_small {n k : Nat} (hn : n < 2 ^ 53) (hk : k <= 4) (d : Nat) :
    appendDigit (2 ^ k) (ofNat n) d = ofNat (n * 2 ^ k + d) := by
  have hproduct : (nearest ((ofNat n).units * 2 ^ k) 1).units = n * 2 ^ k * unitsPerOne := by
    rw [units_ofNat hn, mul_unitsPerOne_mul, mul_unitsPerOne_eq]
    apply units_nearest_mul_two_pow hn
    unfold unitExponent
    omega
  unfold appendDigit
  rw [hproduct, ← Nat.add_mul]
  rfl

/-! ## Sums that are lost -/

theorem nearest_units_add {m : Magnitude} {e : Nat}
    (h : m.units + 2 * e < unitsAt (m.val + 1)) : nearest (m.units + e) 1 = m := by
  symm
  apply isNearest_iff.mp
  have hdist : forall k : Magnitude, k ≠ m ->
      Nat.dist m.units (m.units + e) < Nat.dist k.units (m.units + e) := by
    intro k hne
    unfold Nat.dist
    rcases Nat.lt_or_ge m.val k.val with hk | hk
    · have hunits : unitsAt (m.val + 1) <= k.units := unitsAt_strictMono.monotone hk
      omega
    · have hunits : k.units < m.units :=
        units_lt_units_iff.mpr (Nat.lt_of_le_of_ne hk fun heq => hne (Fin.ext heq))
      omega
  constructor
  · intro k
    by_cases hne : k = m
    · rw [hne]
    · exact Nat.le_of_lt (hdist k hne)
  · intro k hne htie
    exact absurd htie (Nat.ne_of_gt (hdist k hne))

theorem nearest_infinity_add (e : Nat) : nearest (infinity.units + e) 1 = infinity := by
  apply Fin.le_antisymm
  · exact Nat.le_of_lt_succ (nearest _ 1).isLt
  · have hmono := nearest_mono (d := 1) (Nat.le_add_right infinity.units e)
    rwa [nearest_units] at hmono

theorem binadeSize_mul_two_pow (b : Nat) : binadeSize * Nat.pow 2 b = 2 ^ (b + 52) := by
  rw [Nat.add_comm]
  exact (Nat.pow_add 2 52 b).symm

theorem units_infinity : infinity.units = 2 ^ (2046 + 52) := by
  have hrank : infinityRank = 2046 * binadeSize + binadeSize := rfl
  rw [units_eq_unitsAt]
  show unitsAt infinityRank = _
  rw [hrank]
  exact (unitsAt_binade (by omega) (Or.inr (Nat.le_refl _))).trans (binadeSize_mul_two_pow 2046)

theorem lt_of_nearest_ne_infinity {n : Nat} (h : nearest n 1 ≠ infinity) :
    n < 2 ^ (2046 + 52) := by
  rw [← units_infinity]
  apply Nat.lt_of_not_le
  intro hle
  have hinfinite := nearest_infinity_add (n - infinity.units)
  rw [Nat.add_sub_cancel' hle] at hinfinite
  exact h hinfinite

/-- Where rounding is finite, a large number has a large rank. -/
theorem le_val_nearest_of_finite {n b : Nat} (hn : 2 ^ (b + 52) <= n)
    (h : nearest n 1 ≠ infinity) : (b + 1) * binadeSize <= (nearest n 1).val := by
  have hlt : 2 ^ (b + 52) < 2 ^ (2046 + 52) :=
    Nat.lt_of_le_of_lt hn (lt_of_nearest_ne_infinity h)
  have hexponent := (Nat.pow_lt_pow_iff_right (by decide)).mp hlt
  have hbinade : b < 2046 := by omega
  rw [← Nat.div_one n] at hn
  exact le_val_nearest hn hbinade

theorem exists_late_binade {rank k : Nat} (h : (k + 1) * binadeSize <= rank) : exists b t,
    rank = b * binadeSize + t ∧ t < 2 * binadeSize ∧ (b = 0 ∨ binadeSize <= t) ∧ k <= b := by
  rcases exists_binade rank with ⟨b, t, rfl, ht, hb⟩
  refine ⟨b, t, rfl, ht, hb, ?_⟩
  apply Nat.le_of_lt_succ
  apply Nat.lt_of_mul_lt_mul_right (a := binadeSize)
  rw [Nat.add_mul] at h
  rw [Nat.succ_mul]
  omega

/-- The spacing behind a rank in a late binade is large. -/
theorem unitsAt_add_two_pow_le {rank k : Nat} (h : (k + 1) * binadeSize <= rank) :
    unitsAt rank + 2 ^ k <= unitsAt (rank + 1) := by
  rcases exists_late_binade h with ⟨b, t, rfl, ht, hb, hlate⟩
  rw [Nat.add_assoc, unitsAt_binade (Nat.le_of_lt ht) hb,
    unitsAt_binade ht (hb.imp_right Nat.le_succ_of_le), Nat.succ_mul]
  exact Nat.add_le_add_left (Nat.pow_le_pow_right (by decide) hlate) _

/-- Once `2^53` is passed a digit is less than half of the spacing behind the product. -/
theorem nearest_units_ofNat_add {n k d : Nat} (hn : 2 ^ (53 + k) <= n) (hd : d < 2 ^ k) :
    nearest ((ofNat n).units + d * unitsPerOne) 1 = ofNat n := by
  by_cases hinfinite : ofNat n = infinity
  · rw [hinfinite]
    exact nearest_infinity_add _
  · apply nearest_units_add
    have hlost : 2 * (d * unitsPerOne) < 2 ^ (unitExponent + 1 + k) := by
      calc 2 * (d * unitsPerOne) < 2 * (2 ^ k * unitsPerOne) :=
            Nat.mul_lt_mul_of_pos_left
              (Nat.mul_lt_mul_of_pos_right hd unitsPerOne_pos) (by decide)
        _ = 2 ^ (unitExponent + 1 + k) := by
            rw [← Nat.mul_assoc, ← Nat.pow_succ']
            exact two_pow_mul_unitsPerOne (by omega)
    have hlarge : 2 ^ (unitExponent + 1 + k + 52) <= n * unitsPerOne := by
      rw [← two_pow_mul_unitsPerOne (k := 53 + k) (by omega)]
      exact Nat.mul_le_mul_right _ hn
    have hgap := unitsAt_add_two_pow_le (le_val_nearest_of_finite hlarge hinfinite)
    rw [units_eq_unitsAt]
    exact Nat.lt_of_lt_of_le (Nat.add_lt_add_left hlost _) hgap

/-- Once `2^53` is reached an appended digit is lost. -/
theorem appendDigit_of_large {n k d : Nat} (hn : 2 ^ 53 <= n) (hd : d < 2 ^ k) :
    appendDigit (2 ^ k) (ofNat n) d = ofNat (n * 2 ^ k) := by
  have hpos : 0 < n := Nat.lt_of_lt_of_le (Nat.two_pow_pos 53) hn
  have hlarge : 2 ^ (53 + k) <= n * 2 ^ k := by
    rw [Nat.pow_add]
    exact Nat.mul_le_mul_right _ hn
  unfold appendDigit
  rw [nearest_units_ofNat_mul hpos]
  exact nearest_units_ofNat_add hlarge hd

/-! ## Lists of digits -/

/-- A number with one more digit, which counts as zero once `2^53` is reached. -/
def keepDigit (radix n digit : Nat) : Nat :=
  if n < 2 ^ 53 then n * radix + digit else n * radix

/-- The number of a list of digits of which those behind `2^53` count as zeros. -/
def kept (radix : Nat) (digits : List Nat) : Nat :=
  digits.foldl (keepDigit radix) 0

theorem appendDigit_ofNat {n k d : Nat} (hk : k <= 4) (hd : d < 2 ^ k) :
    appendDigit (2 ^ k) (ofNat n) d = ofNat (keepDigit (2 ^ k) n d) := by
  unfold keepDigit
  split
  · rename_i hn
    exact appendDigit_of_small hn hk d
  · rename_i hn
    exact appendDigit_of_large (Nat.le_of_not_lt hn) hd

theorem ofNat_zero : ofNat 0 = zero := by
  unfold ofNat
  rw [Nat.zero_mul]
  rfl

/-- Digits that are rounded one by one give the magnitude nearest to the number that is kept. -/
theorem ofDigits_eq_ofNat_kept {k : Nat} (hk : k <= 4) {digits : List Nat}
    (hdigits : forall d, d ∈ digits -> d < 2 ^ k) :
    ofDigits (2 ^ k) digits = ofNat (kept (2 ^ k) digits) := by
  have hfold : forall n, digits.foldl (appendDigit (2 ^ k)) (ofNat n) =
      ofNat (digits.foldl (keepDigit (2 ^ k)) n) := by
    intro n
    induction digits generalizing n with
    | nil =>
        rfl
    | cons d rest ih =>
        rw [List.foldl_cons, List.foldl_cons,
          appendDigit_ofNat hk (hdigits d List.mem_cons_self)]
        exact ih (fun x hx => hdigits x (List.mem_cons_of_mem d hx)) _
  unfold ofDigits kept
  rw [← ofNat_zero]
  exact hfold 0

/-- Whether a number is another one with its last `k` bits left out. -/
structure Truncates (k kept whole : Nat) : Prop where
  dvd : 2 ^ k ∣ kept
  le : kept <= whole
  lt : whole < kept + 2 ^ k
  /-- No bit is left out of a number below `2^53`. -/
  long : k = 0 ∨ 2 ^ (53 + k) <= kept

theorem truncates_keepDigit {k j n m d : Nat} (h : Truncates j n m) (hd : d < 2 ^ k) :
    exists i, Truncates i (keepDigit (2 ^ k) n d) (d + 2 ^ k * m) := by
  unfold keepDigit
  split
  · rename_i hn
    have hj : j = 0 := by
      apply h.long.resolve_right
      have hpow : 2 ^ 53 <= 2 ^ (53 + j) := Nat.pow_le_pow_right (by decide) (by omega)
      omega
    subst hj
    have heq : m = n := by
      have hlt := h.lt
      have hle := h.le
      omega
    refine ⟨0, (by simp), ?_, ?_, Or.inl rfl⟩
    · rw [heq, Nat.mul_comm n, Nat.add_comm]
    · rw [heq, Nat.mul_comm n, Nat.add_comm]
      exact Nat.lt_succ_self _
  · rename_i hn
    have hbits : 2 ^ (j + k) = 2 ^ k * 2 ^ j := by rw [Nat.add_comm, Nat.pow_add]
    refine ⟨j + k, ?_, ?_, ?_, Or.inr ?_⟩
    · rw [Nat.pow_add]
      exact Nat.mul_dvd_mul h.dvd (Nat.dvd_refl _)
    · calc n * 2 ^ k <= m * 2 ^ k := Nat.mul_le_mul_right _ h.le
        _ = 2 ^ k * m := Nat.mul_comm _ _
        _ <= d + 2 ^ k * m := Nat.le_add_left _ _
    · calc d + 2 ^ k * m < 2 ^ k + 2 ^ k * m := Nat.add_lt_add_right hd _
        _ = 2 ^ k * (m + 1) := by rw [Nat.mul_succ, Nat.add_comm]
        _ <= 2 ^ k * (n + 2 ^ j) := Nat.mul_le_mul_left _ h.lt
        _ = n * 2 ^ k + 2 ^ (j + k) := by rw [Nat.mul_add, Nat.mul_comm, hbits]
    · have hlong : 2 ^ (53 + j) <= n := by
        rcases h.long with rfl | hlong
        · exact Nat.le_of_not_lt hn
        · exact hlong
      rw [← Nat.add_assoc, Nat.pow_add]
      exact Nat.mul_le_mul_right _ hlong

theorem exists_truncates {k : Nat} {digits : List Nat}
    (hdigits : forall d, d ∈ digits -> d < 2 ^ k) :
    exists j, Truncates j (kept (2 ^ k) digits) (Nat.ofDigits (2 ^ k) digits.reverse) := by
  induction digits using List.reverseRecOn with
  | nil =>
      exact ⟨0, Nat.one_dvd _, Nat.le_refl _, Nat.one_pos, Or.inl rfl⟩
  | append_singleton front d ih =>
      rcases ih (fun x hx => hdigits x (List.mem_append_left _ hx)) with ⟨j, hj⟩
      have hd : d < 2 ^ k := hdigits d (by simp)
      rcases truncates_keepDigit hj hd with ⟨i, hi⟩
      refine ⟨i, ?_⟩
      unfold kept
      rw [List.foldl_append, List.reverse_append, List.reverse_singleton, List.singleton_append,
        Nat.ofDigits_cons]
      exact hi

/-! ## Ties -/

/-- Whether some units lie midway between a magnitude of even rank and the next one. -/
def Midway (n : Nat) : Prop :=
  exists m k : Magnitude, k.val = m.val + 1 ∧ m.val % 2 = 0 ∧ m.units + k.units = 2 * n

/-- The units of two neighbouring ranks together are an odd number of halved spacings. -/
theorem two_pow_dvd_units_add {rank k : Nat} (h : (k + 1) * binadeSize <= rank) :
    2 ^ k ∣ unitsAt rank + unitsAt (rank + 1) := by
  rcases exists_late_binade h with ⟨b, t, rfl, ht, hb, hlate⟩
  rw [Nat.add_assoc, unitsAt_binade (Nat.le_of_lt ht) hb,
    unitsAt_binade ht (hb.imp_right Nat.le_succ_of_le), ← Nat.add_mul]
  exact Nat.dvd_mul_left_of_dvd (Nat.pow_dvd_pow 2 hlate) _

theorem nearest_of_midway {n : Nat} (h : Midway n) : exists m k : Magnitude, nearest n 1 = m ∧
    m.units < k.units ∧ m.units + k.units = 2 * n := by
  rcases h with ⟨m, k, hk, heven, hsum⟩
  have hnext : k.units = unitsAt (m.val + 1) := by
    rw [units_eq_unitsAt, hk]
  have hlt : m.units < k.units := by
    rw [hnext]
    exact unitsAt_strictMono (Nat.lt_succ_self _)
  refine ⟨m, k, ?_, hlt, hsum⟩
  symm
  apply isNearest_iff.mp
  constructor
  · intro p
    unfold Nat.dist
    rcases Nat.lt_or_ge m.val p.val with hp | hp
    · have hunits : k.units <= p.units := by
        rw [hnext]
        exact unitsAt_strictMono.monotone hp
      omega
    · have hunits : p.units <= m.units := units_le_units_iff.mpr hp
      omega
  · intro _ _ _
    exact heven

/-- What lies midway is rounded down, and anything above it is not. -/
theorem nearest_ne_of_midway {x y : Nat} (h : Midway x) (hxy : x < y) :
    nearest x 1 ≠ nearest y 1 := by
  rcases nearest_of_midway h with ⟨m, k, hm, hlt, hsum⟩
  rw [hm]
  intro heq
  have hnearest := (isNearest_iff.mpr heq).dist_le k
  unfold Nat.dist at hnearest
  omega

/-- Between two numbers that are rounded differently lies the middle of the magnitude of the
smaller one and the next. -/
theorem exists_middle {x y : Nat} (h : (nearest x 1).val < (nearest y 1).val) :
    exists k : Magnitude, k.val = (nearest x 1).val + 1 ∧ (nearest x 1).units < k.units ∧
      2 * x <= (nearest x 1).units + k.units ∧ (nearest x 1).units + k.units <= 2 * y := by
  let k : Magnitude := ⟨(nearest x 1).val + 1, Nat.lt_of_le_of_lt h (nearest y 1).isLt⟩
  have hlt : (nearest x 1).units < k.units := unitsAt_strictMono (Nat.lt_succ_self _)
  have hle : k.units <= (nearest y 1).units := unitsAt_strictMono.monotone h
  have hfirst := (isNearest_nearest x).dist_le k
  have hsecond := (isNearest_nearest y).dist_le (nearest x 1)
  unfold Nat.dist at hfirst hsecond
  refine ⟨k, rfl, hlt, ?_, ?_⟩
  · omega
  · omega

/-- Bits that are left out behind `53` and one more change the rounding only in a tie. -/
theorem nearest_eq_or_midway {x y e : Nat} (hdvd : 2 ^ e ∣ x) (hle : x <= y)
    (hlt : y < x + 2 ^ e) (hlong : 2 ^ (e + 53) <= x) :
    nearest x 1 = nearest y 1 ∨ Midway x := by
  rcases Nat.lt_or_eq_of_le (nearest_mono hle) with hbelow | heq
  · right
    rcases exists_middle hbelow with ⟨k, hk, hmk, hlow, hhigh⟩
    have hfinite : nearest x 1 ≠ infinity := by
      intro hinfinity
      have hval : (nearest x 1).val = infinityRank := congrArg Fin.val hinfinity
      have hbound := Nat.le_of_lt_succ (nearest y 1).isLt
      omega
    have hlate : (e + 1 + 1) * binadeSize <= (nearest x 1).val :=
      le_val_nearest_of_finite hlong hfinite
    have hmiddle : 2 ^ (e + 1) ∣ (nearest x 1).units + k.units := by
      rw [units_eq_unitsAt k, hk]
      exact two_pow_dvd_units_add hlate
    have hfirst : 2 ^ (e + 1) ∣ 2 * x := by
      rw [Nat.pow_succ']
      exact Nat.mul_dvd_mul_left 2 hdvd
    -- Both are multiples of `2 ^ (e + 1)`, and less than that apart.
    have hsum : (nearest x 1).units + k.units = 2 * x := by
      have hzero : (nearest x 1).units + k.units - 2 * x = 0 := by
        apply Nat.eq_zero_of_dvd_of_lt (Nat.dvd_sub hmiddle hfirst)
        rw [Nat.pow_succ']
        omega
      omega
    refine ⟨nearest x 1, k, hk, ?_, hsum⟩
    apply (isNearest_nearest x).even_of_tie k
    · intro heq
      rw [heq] at hmk
      exact Nat.lt_irrefl _ hmk
    · unfold Nat.dist
      omega
  · exact Or.inl (Fin.ext heq)

theorem ofNat_kept_iff {k kept whole : Nat} (h : Truncates k kept whole) :
    ofNat kept = ofNat whole <-> ¬ (Midway (kept * unitsPerOne) ∧ kept < whole) := by
  constructor
  · rintro heq ⟨hmidway, hlt⟩
    exact nearest_ne_of_midway hmidway (Nat.mul_lt_mul_of_pos_right hlt unitsPerOne_pos) heq
  · intro hno
    rcases Nat.lt_or_eq_of_le h.le with hlt | heq
    · have hk : k ≠ 0 := by
        rintro rfl
        have hnone := h.lt
        rw [Nat.pow_zero] at hnone
        omega
      have hlong := h.long.resolve_left hk
      have hunits : 2 ^ k * unitsPerOne = 2 ^ (k + unitExponent) := two_pow_mul_unitsPerOne rfl
      apply (nearest_eq_or_midway (e := k + unitExponent) _ _ _ _).resolve_right
      · exact fun hmidway => hno ⟨hmidway, hlt⟩
      · rw [← hunits]
        exact Nat.mul_dvd_mul_right h.dvd _
      · exact Nat.mul_le_mul_right _ h.le
      · rw [← hunits, ← Nat.add_mul]
        exact Nat.mul_lt_mul_of_pos_right h.lt unitsPerOne_pos
      · rw [← two_pow_mul_unitsPerOne (k := 53 + k) (by omega)]
        exact Nat.mul_le_mul_right _ hlong
    · rw [heq]

/-! ## Beyond the range -/

/-- The least whole number that infinity is nearest to, midway between the greatest finite
magnitude and `2^1024`. -/
def overflow : Nat := 2 ^ 1024 - 2 ^ 970

theorem two_pow_sub_two_pow {a b c : Nat} (h : a + b = c) :
    2 ^ c - 2 ^ b = (2 ^ a - 1) * 2 ^ b := by
  rw [← h, Nat.pow_add, Nat.sub_mul, Nat.one_mul]

theorem overflow_eq : overflow = (2 ^ 54 - 1) * 2 ^ 970 := by
  unfold overflow
  exact two_pow_sub_two_pow (by decide)

/-- The greatest finite magnitude. -/
def greatest : Magnitude :=
  ⟨infinityRank - 1, Nat.lt_succ_of_le (Nat.sub_le _ _)⟩

theorem unitsAt_last_add (b : Nat) :
    unitsAt ((b + 2) * binadeSize - 1) + unitsAt ((b + 2) * binadeSize) = (2 ^ 54 - 1) * 2 ^ b := by
  have hpos := binadeSize_pos
  have hrank : (b + 2) * binadeSize = b * binadeSize + 2 * binadeSize := Nat.add_mul b 2 _
  have hsize : 2 * binadeSize - 1 + 2 * binadeSize = 2 ^ 54 - 1 := by decide
  rw [hrank, Nat.add_sub_assoc (by omega),
    unitsAt_binade (Nat.sub_le _ _) (Or.inr (by omega)),
    unitsAt_binade (Nat.le_refl _) (Or.inr (by omega)), ← Nat.add_mul, hsize]
  rfl

/-- The last rank below two binades and the next one have a whole number midway. -/
theorem unitsAt_last_add_whole {a b rank : Nat} (hb : a + unitExponent + 1 = b)
    (hrank : (b + 2) * binadeSize = rank) :
    unitsAt (rank - 1) + unitsAt rank = 2 * ((2 ^ 54 - 1) * 2 ^ a * unitsPerOne) := by
  have hunits : 2 ^ a * unitsPerOne = 2 ^ (a + unitExponent) := two_pow_mul_unitsPerOne rfl
  rw [← hrank, unitsAt_last_add, ← hb, Nat.pow_succ _ (a + unitExponent), ← hunits,
    Nat.mul_assoc _ _ unitsPerOne, ← Nat.mul_assoc, Nat.mul_comm]

theorem units_greatest_add : greatest.units + infinity.units = 2 * (overflow * unitsPerOne) := by
  have hexponent : 970 + unitExponent + 1 = 2045 := rfl
  have hrank : (2045 + 2) * binadeSize = infinityRank := rfl
  have hgreatest : greatest.val = infinityRank - 1 := rfl
  have hinfinity : infinity.val = infinityRank := rfl
  rw [overflow_eq, units_eq_unitsAt, units_eq_unitsAt, hgreatest, hinfinity]
  exact unitsAt_last_add_whole hexponent hrank

theorem le_greatest {m : Magnitude} (h : m ≠ infinity) : m.units <= greatest.units := by
  apply units_le_units_iff.mpr
  have hval : m.val ≠ infinityRank := fun heq => h (Fin.ext heq)
  have hbound := m.isLt
  show m.val <= infinityRank - 1
  omega

theorem nearest_eq_infinity_iff (n : Nat) :
    nearest n 1 = infinity <-> overflow * unitsPerOne <= n := by
  have hsum := units_greatest_add
  have hnearest := isNearest_nearest n
  have hlt : greatest.units < infinity.units :=
    units_lt_units_iff.mpr (Nat.sub_lt (by decide) Nat.one_pos)
  constructor
  · intro h
    rw [h] at hnearest
    have hdist := hnearest.dist_le greatest
    unfold Nat.dist at hdist
    omega
  · intro h
    by_contra hfinite
    have hle := le_greatest hfinite
    have hdist := hnearest.dist_le infinity
    have htie := hnearest.even_of_tie infinity (Ne.symm hfinite)
    unfold Nat.dist at hdist htie
    -- At best the greatest finite magnitude is as near as infinity, and its rank is odd.
    have hgreatest : nearest n 1 = greatest := units_injective (by omega)
    have heven := htie (by omega)
    rw [hgreatest] at heven
    revert heven
    decide

theorem ofNat_eq_infinity_iff (n : Nat) : ofNat n = infinity <-> overflow <= n := by
  unfold ofNat
  rw [nearest_eq_infinity_iff]
  exact Nat.mul_le_mul_right_iff unitsPerOne_pos

/-- Leaving bits out takes no number back from infinity. -/
theorem ofNat_kept_eq_infinity_iff {k kept whole : Nat} (h : Truncates k kept whole) :
    ofNat kept = infinity <-> overflow <= whole := by
  rw [ofNat_eq_infinity_iff]
  constructor
  · intro hkept
    exact Nat.le_trans hkept h.le
  · intro hwhole
    by_contra hkept
    have hlt : kept < overflow := Nat.lt_of_not_le hkept
    have hk : k <= 970 := by
      rcases h.long with rfl | hlong
      · exact Nat.zero_le _
      · have hpow : 2 ^ (53 + k) < 2 ^ 1024 :=
          Nat.lt_of_le_of_lt hlong (Nat.lt_of_lt_of_le hlt (Nat.sub_le _ _))
        have hexponent := (Nat.pow_lt_pow_iff_right (by decide)).mp hpow
        omega
    have hdvd : 2 ^ k ∣ overflow := by
      have hpow : 2 ^ k ∣ 2 ^ 970 := pow_dvd_pow 2 hk
      rw [overflow_eq]
      exact Nat.dvd_mul_left_of_dvd hpow _
    have hstep : overflow - kept = 0 := by
      apply Nat.eq_zero_of_dvd_of_lt (Nat.dvd_sub hdvd h.dvd)
      have hbound := h.lt
      omega
    omega

end Magnitude
end Contracts
