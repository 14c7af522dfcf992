import Mathlib.Data.List.DropRight
import Contracts.Binary64.Layout

/-!
# Significant digits

The digits that stand for a finite magnitude are decimal digits, at least one of them, and the
first one is a zero only where zero itself is written.
-/

namespace Contracts

namespace Decimal

/-- Whether a list is one of decimal digits, and not empty. -/
structure AreDigits (ds : List Char) : Prop where
  ne_nil : ds ≠ []
  isDigit : forall c, c ∈ ds -> c.isDigit = true

theorem areDigits_append {front back : List Char} (hfront : AreDigits front)
    (hback : forall c, c ∈ back -> c.isDigit = true) : AreDigits (front ++ back) := by
  constructor
  · intro hnil
    exact hfront.ne_nil (List.append_eq_nil_iff.mp hnil).1
  · intro c hc
    rcases List.mem_append.mp hc with hc | hc
    · exact hfront.isDigit c hc
    · exact hback c hc

theorem isDigit_of_mem_zeros {c : Char} {k : Nat} (h : c ∈ List.replicate k '0') :
    c.isDigit = true := by
  rw [List.eq_of_mem_replicate h]
  decide

theorem areDigits_digits (n : Nat) : AreDigits (digits n) := by
  constructor
  · exact Nat.toDigits_ne_nil
  · intro c hc
    exact isDigit_of_mem_digits hc

theorem head?_digits_ne_zero {n : Nat} (h : 0 < n) : (digits n).head? ≠ some '0' := by
  induction n using Nat.strong_induction_on with
  | _ n ih =>
      unfold digits at *
      by_cases hn : n < 10
      · rw [Nat.toDigits_of_lt_base hn]
        have hall : forall m, m < 10 -> 0 < m -> [m.digitChar].head? ≠ some '0' := by decide
        exact hall n hn h
      · have hquotient : 0 < n / 10 := by omega
        rw [Nat.toDigits_of_base_le (by decide) (by omega),
          List.head?_append_of_ne_nil _ Nat.toDigits_ne_nil]
        exact ih (n / 10) (by omega) hquotient

/-- Digits without the zeros at their end. -/
theorem areDigits_rdropWhile {ds : List Char} (h : AreDigits ds) (hlead : ds.head? ≠ some '0') :
    AreDigits (ds.rdropWhile (· == '0')) ∧
      (ds.rdropWhile (· == '0')).head? ≠ some '0' := by
  have hfront : ds.rdropWhile (· == '0') <+: ds := List.rdropWhile_prefix _ ds
  have hne : ds.rdropWhile (· == '0') ≠ [] := by
    intro hnil
    rw [List.rdropWhile_eq_nil_iff] at hnil
    cases ds with
    | nil =>
        exact h.ne_nil rfl
    | cons d rest =>
        have hd : d = '0' := by simpa using hnil d List.mem_cons_self
        apply hlead
        rw [hd]
        rfl
  constructor
  · constructor
    · exact hne
    · intro c hc
      exact h.isDigit c (hfront.subset hc)
  · rcases hfront with ⟨zeros, hzeros⟩
    intro hhead
    apply hlead
    rw [← hzeros, List.head?_append_of_ne_nil _ hne]
    exact hhead

end Decimal

namespace Magnitude

theorem units_pos {m : Magnitude} (h : m ≠ zero) : 0 < m.units := by
  have hval : m.val ≠ 0 := by
    intro hzero
    exact h (Fin.ext hzero)
  unfold units
  split
  · omega
  · apply Nat.mul_pos
    · unfold binadeSize
      omega
    · exact Nat.pow_pos (by decide)

theorem readsBack_zero {m : Magnitude} (h : m ≠ zero) (exponent : Int) :
    m.readsBack 0 exponent = false := by
  unfold readsBack ofDecimal
  rw [if_pos rfl, beq_eq_false_iff_ne]
  exact h.symm

/-- Both neighbours are taken only where they read back. -/
theorem readsBack_of_neighbour? {tie : Tie} {m : Magnitude} {exponent : Int} {c : Nat}
    (hc : m.neighbour? tie exponent = some c) : m.readsBack c exponent = true := by
  unfold neighbour? at hc
  generalize (m.overPowerOfTen exponent) = quotient at hc
  obtain ⟨n, d⟩ := quotient
  simp only at hc
  split at hc
  · rename_i hlow hhigh
    split at hc
    · cases hc
      exact hlow
    · split at hc
      · cases hc
        exact hhigh
      · cases tie with
        | up =>
            cases hc
            exact hhigh
        | even =>
            cases hc
            rcases Nat.mod_two_eq_zero_or_one (n / d) with heven | hodd
            · rwa [heven]
            · rwa [hodd]
  · rename_i hlow _
    cases hc
    exact hlow
  · rename_i _ hhigh
    cases hc
    exact hhigh
  · cases hc

/-- What the search finds reads back, and otherwise the exact value is taken. -/
theorem shortest_cases (tie : Tie) (m : Magnitude) :
    m.readsBack (m.shortest tie).1 (m.shortest tie).2 = true ∨
      m.shortest tie = (m.units * Nat.pow 5 unitExponent, -(unitExponent : Int)) := by
  unfold shortest
  simp only
  generalize hfound : List.findSome? _ (List.range 17) = found
  cases found with
  | none =>
      exact Or.inr rfl
  | some pair =>
      rcases List.exists_of_findSome?_eq_some hfound with ⟨n, _, hn⟩
      rcases Option.map_eq_some_iff.mp hn with ⟨c, hc, rfl⟩
      exact Or.inl (readsBack_of_neighbour? hc)

theorem shortest_pos (tie : Tie) {m : Magnitude} (h : m ≠ zero) : 0 < (m.shortest tie).1 := by
  have hfive : 0 < Nat.pow 5 unitExponent := by
    generalize unitExponent = k
    exact Nat.pow_pos (by decide)
  rcases m.shortest_cases tie with hread | hexact
  · rcases Nat.eq_zero_or_pos (m.shortest tie).1 with hzero | hpos
    · rw [hzero, readsBack_zero h] at hread
      cases hread
    · exact hpos
  · rw [hexact]
    exact Nat.mul_pos (units_pos h) hfive

end Magnitude

namespace Scientific

/-- Whether digits may stand for a number: a zero leads only where it stands alone, for zero. -/
structure Leading (s : Scientific) : Prop where
  areDigits : Decimal.AreDigits s.digits
  eq_zero : s.digits.head? = some '0' -> s = ⟨['0'], 0⟩

theorem leading_scientific (tie : Tie) (m : Magnitude) : Leading (m.scientific tie) := by
  unfold Magnitude.scientific
  split
  · constructor
    · exact Decimal.areDigits_digits 0
    · intro _
      rfl
  · rename_i h
    have hpos := m.shortest_pos tie h
    rcases Decimal.areDigits_rdropWhile (Decimal.areDigits_digits (m.shortest tie).1)
      (Decimal.head?_digits_ne_zero hpos) with ⟨hdigits, hhead⟩
    constructor
    · exact hdigits
    · intro hzero
      exact absurd hzero hhead

end Scientific

end Contracts
