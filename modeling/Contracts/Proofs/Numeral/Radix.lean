import Contracts.Proofs.Binary64.Appending
import Contracts.Proofs.Numeral.Grammar
import Contracts.Proofs.Text.Boundaries

/-!
# Numerals with a radix

The digits of a numeral with a radix are appended one by one, and so the digits that follow once
`2^53` is reached count as zeros.  Zeros in front change nothing, and infinity is read exactly
where it is nearest to the whole number.  Anywhere else the numeral reads as the magnitude nearest
to its whole number unless the part that is kept lies midway between two magnitudes, is rounded
down, and the digits that are lost are not all zeros.
-/

namespace Contracts
namespace Numeral

open Magnitude (IsNearest Midway Truncates unitsPerOne)

theorem Radix.exists_base_eq {r : Radix} (h : r ∈ Radix.all) :
    exists k, k <= 4 ∧ r.base = 2 ^ k := by
  simp only [Radix.all, List.mem_cons, List.not_mem_nil, or_false] at h
  rcases h with rfl | rfl | rfl
  · exact ⟨4, by decide⟩
  · exact ⟨3, by decide⟩
  · exact ⟨1, by decide⟩

theorem Radix.mapM_digit? {r : Radix} (hr : r ∈ Radix.all) {digits : List Char}
    (h : forall c, c ∈ digits -> c ∈ r.digits) :
    digits.mapM (digit? r.base) = some (digits.map digitValue) := by
  induction digits with
  | nil =>
      rfl
  | cons c rest ih =>
      rw [List.forall_mem_cons] at h
      rw [List.mapM_cons, (digit?_of_mem hr h.1).1, ih h.2]
      rfl

namespace RadixLiteral

variable (l : RadixLiteral)

/-- The values of the digits. -/
def values : List Nat :=
  l.digits.map digitValue

/-- The number that the digits denote. -/
def denoted : Nat :=
  Nat.ofDigits l.radix.base l.values.reverse

/-- The number that is left of the one denoted when digits behind `2^53` count as zeros. -/
def kept : Nat :=
  Magnitude.kept l.radix.base l.values

theorem values_lt : forall d, d ∈ l.values -> d < l.radix.base := by
  intro d hd
  rcases List.mem_map.mp hd with ⟨c, hc, rfl⟩
  exact (digit?_of_mem l.radix_mem (l.digits_mem c hc)).2

theorem exists_truncates : exists k, Truncates k l.kept l.denoted := by
  rcases Radix.exists_base_eq l.radix_mem with ⟨k, _, hbase⟩
  have hvalues := l.values_lt
  unfold kept denoted
  rw [hbase] at hvalues ⊢
  exact Magnitude.exists_truncates hvalues

/-! ## Reading -/

theorem ofRadix_digits : ofRadix l.radix.base l.digits =
    .number false (Magnitude.ofDigits l.radix.base l.values) := by
  have hmap := Radix.mapM_digit? l.radix_mem l.digits_mem
  unfold ofRadix values
  cases hdigits : l.digits with
  | nil =>
      exact absurd hdigits l.digits_ne_nil
  | cons c rest =>
      rw [hdigits] at hmap
      rw [hmap]

theorem ofDigits_values :
    Magnitude.ofDigits l.radix.base l.values = Magnitude.ofNat l.kept := by
  rcases Radix.exists_base_eq l.radix_mem with ⟨k, hk, hbase⟩
  have hvalues := l.values_lt
  unfold kept
  rw [hbase] at hvalues ⊢
  exact Magnitude.ofDigits_eq_ofNat_kept hk hvalues

theorem isBlank_marks_digits : forall r, r ∈ Radix.all ->
    ((r.marks ++ r.digits).any Text.isBlank) = false := by
  decide

theorem isBlank_of_mem_text {c : Char} (h : c ∈ l.text) : Text.isBlank c = false := by
  rcases List.mem_cons.mp h with rfl | h
  · rfl
  · have hmem : c ∈ l.radix.marks ++ l.radix.digits := by
      rcases List.mem_cons.mp h with rfl | h
      · exact List.mem_append_left _ l.mark_mem
      · exact List.mem_append_right _ (l.digits_mem c h)
    have hnone := List.any_eq_false.mp (isBlank_marks_digits _ l.radix_mem) c hmem
    rwa [Bool.not_eq_true] at hnone

theorem trim_text : Text.trim l.text = l.text :=
  Text.trim_of_forall fun _ hc => l.isBlank_of_mem_text hc

theorem read_text : read (String.ofList l.text) = .number false (Magnitude.ofNat l.kept) := by
  unfold read
  rw [String.toList_ofList, trim_text]
  unfold text
  rw [ofTrimmed_radix l.radix?_mark, ofRadix_digits, ofDigits_values]

/-! ## Zeros in front -/

theorem zero_mem_digits : forall r, r ∈ Radix.all -> '0' ∈ r.digits := by
  decide

/-- The numeral with zeros in front of its digits. -/
def withZeros (zeros : Nat) : RadixLiteral where
  radix := l.radix
  mark := l.mark
  digits := List.replicate zeros '0' ++ l.digits
  radix_mem := l.radix_mem
  mark_mem := l.mark_mem
  digits_ne_nil := List.append_ne_nil_of_right_ne_nil _ l.digits_ne_nil
  digits_mem := by
    intro c hc
    rcases List.mem_append.mp hc with hc | hc
    · rw [List.eq_of_mem_replicate hc]
      exact zero_mem_digits _ l.radix_mem
    · exact l.digits_mem c hc

theorem kept_zeros (radix zeros : Nat) (digits : List Nat) :
    Magnitude.kept radix (List.replicate zeros 0 ++ digits) = Magnitude.kept radix digits := by
  induction zeros with
  | zero =>
      rfl
  | succ zeros ih =>
      have hzero : Magnitude.keepDigit radix 0 0 = 0 := by
        simp [Magnitude.keepDigit]
      rw [← ih, List.replicate_succ, List.cons_append]
      unfold Magnitude.kept
      rw [List.foldl_cons, hzero]

theorem kept_withZeros (zeros : Nat) : (l.withZeros zeros).kept = l.kept := by
  have hvalues : (l.withZeros zeros).values = List.replicate zeros 0 ++ l.values := by
    unfold values withZeros
    rw [List.map_append, List.map_replicate]
    rfl
  unfold kept
  rw [hvalues]
  exact kept_zeros _ zeros l.values

end RadixLiteral

/-- Which number a numeral with a radix reads as, when that is the nearest one and when infinity,
and that zeros in front make no difference. -/
theorem read_radixLiteral (l : RadixLiteral) (zeros : Nat) :
    read (String.ofList l.text) = .number false (Magnitude.ofNat l.kept) ∧
    (IsNearest (l.denoted * unitsPerOne) (Magnitude.ofNat l.kept) <->
      ¬ (Midway (l.kept * unitsPerOne) ∧ l.kept < l.denoted)) ∧
    (read (String.ofList l.text) = .infinity false <-> Magnitude.overflow <= l.denoted) ∧
    read (String.ofList (l.withZeros zeros).text) = read (String.ofList l.text) := by
  rcases l.exists_truncates with ⟨k, hk⟩
  refine ⟨l.read_text, ?_, ?_, ?_⟩
  · rw [Magnitude.isNearest_iff]
    exact Magnitude.ofNat_kept_iff hk
  · rw [l.read_text, ← Magnitude.ofNat_kept_eq_infinity_iff hk]
    constructor
    · intro h
      injection h
    · intro h
      rw [h]
      rfl
  · rw [l.read_text, (l.withZeros zeros).read_text, l.kept_withZeros]

/-- A numeral whose first fourteen digits lie midway between two magnitudes: the last digit is
lost, and the magnitude below is read.  The same number without a radix is rounded up. -/
theorem read_radixLiteral_tie :
    read "0x200000000000011" = .number false (Magnitude.ofNat (2 ^ 57)) ∧
    ¬ IsNearest (0x200000000000011 * unitsPerOne) (Magnitude.ofNat (2 ^ 57)) ∧
    read "144115188075855889" = .number false (Magnitude.ofNat 0x200000000000011) := by
  refine ⟨?_, ?_, ?_⟩
  · decide +kernel
  · rw [Magnitude.isNearest_iff]
    decide +kernel
  · decide +kernel

end Numeral
end Contracts
