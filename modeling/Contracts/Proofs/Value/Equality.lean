import Contracts.Proofs.Binary64.Rounding
import Contracts.Value.Order

/-!
# Strict equality

Two values are strictly equal when they have one identity: that of a kind, of some plain data, of
a place among the numbers, or of an array or object.  NaN has none.  Having one identity is
symmetric and transitive, but two integers are compared by themselves and not by their places
among the doubles, of which different integers from `2^53` on may share one.  A double at such a
place equals both integers, while these differ: that is the one way in which strict equality fails
to be an equivalence away from NaN.
-/

namespace Contracts

/-! ## Places of numbers -/

namespace Binary64

/-- The place of a number among the ranks, which is one for the two zeros. -/
def place? : Binary64 -> Option Int
  | nan =>
      none
  | number negative m =>
      some (signedRank negative m)

@[simp] theorem place?_nan : nan.place? = none := rfl

@[simp] theorem place?_number (negative : Bool) (m : Magnitude) :
    (number negative m).place? = some (signedRank negative m) := rfl

theorem numEq_iff (x y : Binary64) :
    x.numEq y = true <-> exists place, x.place? = some place ∧ y.place? = some place := by
  cases x with
  | nan =>
      simp [numEq, compare?]
  | number s m =>
      cases y with
      | nan =>
          simp [numEq, compare?]
      | number t k =>
          simp only [numEq, compare?, place?_number, beq_iff_eq, Option.some.injEq,
            compare_eq_iff_eq, exists_eq_left']
          exact eq_comm

theorem place?_eq_none_iff (x : Binary64) : x.place? = none <-> x = .nan := by
  cases x with
  | nan =>
      simp
  | number s m =>
      simp

theorem place?_ofInt_of_neg {n : Int} (h : n < 0) :
    (ofInt n).place? = some (-((Magnitude.ofNat n.natAbs).val : Int)) := by
  simp [ofInt, signedRank, h]

theorem place?_ofInt_of_nonneg {n : Int} (h : 0 <= n) :
    (ofInt n).place? = some ((Magnitude.ofNat n.natAbs).val : Int) := by
  simp [ofInt, signedRank, Int.not_lt.mpr h]

/-- Different integers at one place are at least `2^53` in size. -/
theorem eq_or_large_of_place? {a b : Int} (h : (ofInt a).place? = (ofInt b).place?) :
    a = b ∨ 2 ^ 53 <= a.natAbs ∧ 2 ^ 53 <= b.natAbs := by
  -- An integer below zero is not at the place of one that is not.
  have hsign : forall {a b : Int}, a < 0 -> 0 <= b -> (ofInt a).place? ≠ (ofInt b).place? := by
    intro a b ha hb hplace
    rw [place?_ofInt_of_neg ha, place?_ofInt_of_nonneg hb] at hplace
    have hpos : 0 < (Magnitude.ofNat a.natAbs).val :=
      Nat.lt_of_le_of_lt (Nat.zero_le _)
        (Magnitude.val_ofNat_lt (by decide : 0 < 2 ^ 53) (by omega))
    have heq := Option.some.inj hplace
    omega
  rcases Int.lt_or_le a 0 with ha | ha
  · rcases Int.lt_or_le b 0 with hb | hb
    · rw [place?_ofInt_of_neg ha, place?_ofInt_of_neg hb] at h
      have hval : (Magnitude.ofNat a.natAbs).val = (Magnitude.ofNat b.natAbs).val := by
        have heq := Option.some.inj h
        omega
      have hcases := Magnitude.eq_or_large_of_ofNat_eq hval
      omega
    · exact absurd h (hsign ha hb)
  · rcases Int.lt_or_le b 0 with hb | hb
    · exact absurd h.symm (hsign hb ha)
    · rw [place?_ofInt_of_nonneg ha, place?_ofInt_of_nonneg hb] at h
      have hval : (Magnitude.ofNat a.natAbs).val = (Magnitude.ofNat b.natAbs).val := by
        have heq := Option.some.inj h
        omega
      have hcases := Magnitude.eq_or_large_of_ofNat_eq hval
      omega

end Binary64

/-! ## Identities -/

namespace Value

/-- What makes two values strictly equal. -/
inductive Identity where
  | missing
  | null
  | bool (b : Bool)
  | number (place : Int)
  | text (s : String)
  | array (handle : Handle)
  | object (handle : Handle)

def identity? : Value -> Option Identity
  | missing =>
      some .missing
  | null =>
      some .null
  | bool b =>
      some (.bool b)
  | int n =>
      (Binary64.ofInt n.toInt).place?.map .number
  | float x =>
      x.place?.map .number
  | str s =>
      some (.text s)
  | array handle _ =>
      some (.array handle)
  | object handle _ =>
      some (.object handle)

/-- Whether two values are integers, which are compared by themselves. -/
def bothIntegers : Value -> Value -> Bool
  | int _, int _ =>
      true
  | _, _ =>
      false

theorem strictEquals_iff_identity? {x y : Value} (h : bothIntegers x y = false) :
    x.strictEquals y = true <-> exists i, x.identity? = some i ∧ y.identity? = some i := by
  have hnumbers : forall a b : Binary64, a.numEq b = true <->
      exists i, a.place?.map Identity.number = some i ∧ b.place?.map Identity.number = some i := by
    intro a b
    simp only [Binary64.numEq_iff, Option.map_eq_some_iff]
    constructor
    · rintro ⟨place, ha, hb⟩
      exact ⟨_, ⟨place, ha, rfl⟩, place, hb, rfl⟩
    · rintro ⟨_, ⟨place, ha, rfl⟩, other, hb, heq⟩
      cases heq
      exact ⟨place, ha, hb⟩
  cases x with
  | int a =>
      cases y with
      | int b =>
          cases h
      | float y =>
          exact hnumbers _ _
      | _ =>
          simp [strictEquals, identity?]
  | float x =>
      cases y with
      | int b =>
          exact (hnumbers _ _).trans (by simp only [and_comm, identity?])
      | float y =>
          exact hnumbers _ _
      | _ =>
          simp [strictEquals, identity?]
  | _ =>
      cases y <;> simp [strictEquals, identity?] <;> exact eq_comm

theorem strictEquals_int (a b : Int64) : (int a).strictEquals (int b) = true <-> a = b :=
  beq_iff_eq

theorem bothIntegers_eq_true_iff (x y : Value) :
    bothIntegers x y = true <-> exists a b, x = .int a ∧ y = .int b := by
  unfold bothIntegers
  split
  · simp
  · rename_i hints
    simp only [Bool.false_eq_true, false_iff]
    rintro ⟨a, b, rfl, rfl⟩
    exact hints a b rfl rfl

theorem bothIntegers_comm (x y : Value) : bothIntegers x y = bothIntegers y x := by
  rw [Bool.eq_iff_iff, bothIntegers_eq_true_iff, bothIntegers_eq_true_iff]
  constructor
  · rintro ⟨a, b, hx, hy⟩
    exact ⟨b, a, hy, hx⟩
  · rintro ⟨a, b, hy, hx⟩
    exact ⟨b, a, hx, hy⟩

theorem eq_of_bothIntegers {x y : Value} (hints : bothIntegers x y = true)
    (h : x.strictEquals y = true) : x = y := by
  rcases (bothIntegers_eq_true_iff x y).mp hints with ⟨a, b, rfl, rfl⟩
  rw [(strictEquals_int a b).mp h]

theorem identity?_eq_none_iff (x : Value) : x.identity? = none <-> x = .float .nan := by
  cases x with
  | int n =>
      simp [identity?, Binary64.ofInt]
  | float x =>
      simp [identity?, Binary64.place?_eq_none_iff]
  | _ =>
      simp [identity?]

/-! ## Laws of equality -/

theorem strictEquals_self_iff (x : Value) : x.strictEquals x = true <-> x ≠ .float .nan := by
  cases hints : bothIntegers x x with
  | true =>
      rcases (bothIntegers_eq_true_iff x x).mp hints with ⟨a, _, rfl, _⟩
      simp [strictEquals]
  | false =>
      rw [strictEquals_iff_identity? hints, ne_eq, ← identity?_eq_none_iff,
        ← ne_eq, Option.ne_none_iff_exists']
      simp only [and_self]

theorem strictEquals_comm (x y : Value) : x.strictEquals y = y.strictEquals x := by
  cases hints : bothIntegers x y with
  | true =>
      rcases (bothIntegers_eq_true_iff x y).mp hints with ⟨a, b, rfl, rfl⟩
      exact Bool.beq_comm
  | false =>
      have hback : bothIntegers y x = false := by
        rw [bothIntegers_comm, hints]
      rw [Bool.eq_iff_iff, strictEquals_iff_identity? hints, strictEquals_iff_identity? hback]
      simp only [and_comm]

/-- A double between two different integers that have its place. -/
inductive Blurs : Value -> Value -> Value -> Prop where
  | integers {a b : Int64} (x : Binary64) (hne : a ≠ b) (ha : 2 ^ 53 <= a.toInt.natAbs)
      (hb : 2 ^ 53 <= b.toInt.natAbs) : Blurs (.int a) (.float x) (.int b)

theorem bothIntegers_of_blurs {x y z : Value} (h : Blurs x y z) : bothIntegers x z = true := by
  cases h
  rfl

/-- Two integers that equal one double are equal, or blurred by it. -/
theorem eq_or_blurs {a b : Int64} {x : Binary64} (ha : (int a).strictEquals (float x) = true)
    (hb : (float x).strictEquals (int b) = true) : a = b ∨ Blurs (int a) (float x) (int b) := by
  rcases (strictEquals_iff_identity? rfl).mp ha with ⟨i, hai, hxi⟩
  rcases (strictEquals_iff_identity? rfl).mp hb with ⟨j, hxj, hbj⟩
  rw [hxi] at hxj
  cases hxj
  unfold identity? at hai hbj
  rcases Option.map_eq_some_iff.mp hai with ⟨place, haplace, rfl⟩
  rcases Option.map_eq_some_iff.mp hbj with ⟨other, hbplace, hother⟩
  cases hother
  rcases Binary64.eq_or_large_of_place? (haplace.trans hbplace.symm) with heq | ⟨hla, hlb⟩
  · exact Or.inl (Int64.toInt_inj.mp heq)
  · by_cases hne : a = b
    · exact Or.inl hne
    · exact Or.inr (.integers x hne hla hlb)

theorem strictEquals_of_bothIntegers {x y z : Value} (hints : bothIntegers x z = true)
    (hxy : x.strictEquals y = true) (hyz : y.strictEquals z = true) :
    x.strictEquals z = true <-> ¬ Blurs x y z := by
  rcases (bothIntegers_eq_true_iff x z).mp hints with ⟨a, b, rfl, rfl⟩
  rw [strictEquals_int]
  constructor
  · rintro hab ⟨⟩
    contradiction
  · intro hblurs
    cases y with
    | int c =>
        exact ((strictEquals_int a c).mp hxy).trans ((strictEquals_int c b).mp hyz)
    | float x =>
        exact (eq_or_blurs hxy hyz).resolve_right hblurs
    | _ =>
        cases hxy

theorem strictEquals_of_identities {x y z : Value} (hints : bothIntegers x z = false)
    (hxy : x.strictEquals y = true) (hyz : y.strictEquals z = true) :
    x.strictEquals z = true := by
  cases hfirst : bothIntegers x y with
  | true =>
      rw [eq_of_bothIntegers hfirst hxy]
      exact hyz
  | false =>
      cases hlast : bothIntegers y z with
      | true =>
          rw [← eq_of_bothIntegers hlast hyz]
          exact hxy
      | false =>
          rcases (strictEquals_iff_identity? hfirst).mp hxy with ⟨i, hx, hy⟩
          rcases (strictEquals_iff_identity? hlast).mp hyz with ⟨j, hy', hz⟩
          rw [hy] at hy'
          cases hy'
          exact (strictEquals_iff_identity? hints).mpr ⟨i, hx, hz⟩

/-- Away from NaN strict equality is reflexive, it is symmetric, and it is transitive but where a
double blurs two different integers, both at least `2^53` in size. -/
theorem strictEquals_equivalence (x y z : Value) :
    (x.strictEquals x = true <-> x ≠ .float .nan) ∧ x.strictEquals y = y.strictEquals x ∧
    (x.strictEquals y = true -> y.strictEquals z = true ->
      (x.strictEquals z = true <-> ¬ Blurs x y z)) := by
  refine ⟨strictEquals_self_iff x, strictEquals_comm x y, ?_⟩
  intro hxy hyz
  cases hints : bothIntegers x z with
  | true =>
      exact strictEquals_of_bothIntegers hints hxy hyz
  | false =>
      refine iff_of_true (strictEquals_of_identities hints hxy hyz) ?_
      intro hblurs
      rw [bothIntegers_of_blurs hblurs] at hints
      cases hints

/-- The least such integers, with the double that both of them equal. -/
theorem strictEquals_equivalence_blurred :
    (int 9007199254740992).strictEquals (float (.ofBits 0x4340000000000000)) = true ∧
    (float (.ofBits 0x4340000000000000)).strictEquals (int 9007199254740993) = true ∧
    ((int 9007199254740992).strictEquals (int 9007199254740993) = true <->
      ¬ Blurs (int 9007199254740992) (float (.ofBits 0x4340000000000000))
        (int 9007199254740993)) := by
  have hfirst :
      (int 9007199254740992).strictEquals (float (.ofBits 0x4340000000000000)) = true := by
    decide +kernel
  have hlast :
      (float (.ofBits 0x4340000000000000)).strictEquals (int 9007199254740993) = true := by
    decide +kernel
  exact ⟨hfirst, hlast, (strictEquals_equivalence _ _ _).2.2 hfirst hlast⟩

theorem strictEquals_not_transitive :
    (int 9007199254740992).strictEquals (float (.ofBits 0x4340000000000000)) = true ∧
    (float (.ofBits 0x4340000000000000)).strictEquals (int 9007199254740993) = true ∧
    (int 9007199254740992).strictEquals (int 9007199254740993) = false := by
  decide +kernel

end Value
end Contracts
