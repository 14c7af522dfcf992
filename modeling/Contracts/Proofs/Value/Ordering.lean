import Mathlib.Order.Defs.LinearOrder
import Contracts.Predicate
import Contracts.Proofs.Binary64.Nearest
import Contracts.Proofs.Value.Equality

/-!
# The loose order

Two texts are ordered by their characters, two integers by themselves, and all else by the places
of the numbers that the values stand for.  A greater integer never has a smaller place, so an
order of places between two integers is their own order: that lets the three ways of comparing be
chained, as long as no two of the values chained are texts.
-/

namespace Contracts

namespace Binary64

theorem compare?_eq_lt_iff (x y : Binary64) : x.compare? y = some .lt <->
    exists p q, x.place? = some p ∧ y.place? = some q ∧ p < q := by
  cases x with
  | nan =>
      simp [compare?]
  | number s m =>
      cases y with
      | nan =>
          simp [compare?]
      | number t k =>
          simp [compare?, compare_lt_iff_lt]

theorem compare?_swap (x y : Binary64) : y.compare? x = (x.compare? y).map Ordering.swap := by
  cases x with
  | nan =>
      cases y <;> rfl
  | number s m =>
      cases y with
      | nan =>
          rfl
      | number t k =>
          exact congrArg some Std.OrientedCmp.eq_swap

/-- A greater integer has no smaller place. -/
theorem exists_places_of_le {a b : Int} (h : a <= b) :
    exists p q, (ofInt a).place? = some p ∧ (ofInt b).place? = some q ∧ p <= q := by
  rcases Int.lt_or_le a 0 with ha | ha
  · rcases Int.lt_or_le b 0 with hb | hb
    · refine ⟨_, _, place?_ofInt_of_neg ha, place?_ofInt_of_neg hb, ?_⟩
      have hmagnitudes : (Magnitude.ofNat b.natAbs).val <= (Magnitude.ofNat a.natAbs).val :=
        Magnitude.ofNat_mono (by omega)
      omega
    · refine ⟨_, _, place?_ofInt_of_neg ha, place?_ofInt_of_nonneg hb, ?_⟩
      omega
  · have hb : 0 <= b := Int.le_trans ha h
    refine ⟨_, _, place?_ofInt_of_nonneg ha, place?_ofInt_of_nonneg hb, ?_⟩
    have hmagnitudes : (Magnitude.ofNat a.natAbs).val <= (Magnitude.ofNat b.natAbs).val :=
      Magnitude.ofNat_mono (by omega)
    omega

end Binary64

namespace Value

def isText : Value -> Bool
  | str _ =>
      true
  | _ =>
      false

def isNumber : Value -> Bool
  | int _ =>
      true
  | float _ =>
      true
  | _ =>
      false

/-- The place of the number that a value stands for in the loose order. -/
def place? (x : Value) : Option Int :=
  x.toNumber.place?

/-! ## Three ways of comparing -/

theorem compare?_int (a b : Int64) :
    (int a).compare? (int b) = some (compare a.toInt b.toInt) := rfl

theorem compare?_str (s t : String) : (str s).compare? (str t) = some (compare s t) := rfl

theorem compare?_eq_compare?_toNumber {x y : Value} (hintegers : bothIntegers x y = false)
    (htexts : (x.isText && y.isText) = false) :
    x.compare? y = x.toNumber.compare? y.toNumber := by
  cases x with
  | int a =>
      cases y with
      | int b =>
          cases hintegers
      | _ =>
          rfl
  | str s =>
      cases y with
      | str t =>
          cases htexts
      | _ =>
          rfl
  | _ =>
      rfl

theorem isText_eq_true_iff (x : Value) : x.isText = true <-> exists s, x = .str s := by
  cases x <;> simp [isText]

theorem compare?_swap (x y : Value) : y.compare? x = (x.compare? y).map Ordering.swap := by
  cases hintegers : bothIntegers x y with
  | true =>
      rcases (bothIntegers_eq_true_iff x y).mp hintegers with ⟨a, b, rfl, rfl⟩
      exact congrArg some Std.OrientedCmp.eq_swap
  | false =>
      cases htexts : x.isText && y.isText with
      | true =>
          rcases Bool.and_eq_true_iff.mp htexts with ⟨hx, hy⟩
          rcases (isText_eq_true_iff x).mp hx with ⟨s, rfl⟩
          rcases (isText_eq_true_iff y).mp hy with ⟨t, rfl⟩
          exact congrArg some Std.OrientedCmp.eq_swap
      | false =>
          rw [compare?_eq_compare?_toNumber hintegers htexts,
            compare?_eq_compare?_toNumber (by rw [bothIntegers_comm, hintegers])
              (by rw [Bool.and_comm, htexts])]
          exact Binary64.compare?_swap _ _

/-! ## Chains -/

section

variable {x y z : Value}

/-- Unless both are texts, the places of two values are ordered as the values are, strictly so
unless both are integers. -/
theorem places_of_lt (htexts : (x.isText && y.isText) = false) (h : x.compare? y = some .lt) :
    exists p q, x.place? = some p ∧ y.place? = some q ∧
      (p < q ∨ bothIntegers x y = true ∧ p <= q) := by
  cases hintegers : bothIntegers x y with
  | true =>
      rcases (bothIntegers_eq_true_iff x y).mp hintegers with ⟨a, b, rfl, rfl⟩
      rw [compare?_int, Option.some.injEq, compare_lt_iff_lt] at h
      rcases Binary64.exists_places_of_le (Int.le_of_lt h) with ⟨p, q, hp, hq, hle⟩
      exact ⟨p, q, hp, hq, Or.inr ⟨rfl, hle⟩⟩
  | false =>
      rw [compare?_eq_compare?_toNumber hintegers htexts, Binary64.compare?_eq_lt_iff] at h
      rcases h with ⟨p, q, hp, hq, hlt⟩
      exact ⟨p, q, hp, hq, Or.inl hlt⟩

/-- Unless both are texts, values are ordered as their places are. -/
theorem lt_of_places (htexts : (x.isText && y.isText) = false) {p q : Int}
    (hp : x.place? = some p) (hq : y.place? = some q) (h : p < q) :
    x.compare? y = some .lt := by
  cases hintegers : bothIntegers x y with
  | true =>
      rcases (bothIntegers_eq_true_iff x y).mp hintegers with ⟨a, b, rfl, rfl⟩
      rw [compare?_int, Option.some.injEq, compare_lt_iff_lt]
      apply Int.lt_of_not_ge
      intro hge
      -- Integers in the other order would have their places in that order, too.
      rcases Binary64.exists_places_of_le hge with ⟨q', p', hq', hp', hle⟩
      have hpEq : p' = p := Option.some.inj (hp'.symm.trans hp)
      have hqEq : q' = q := Option.some.inj (hq'.symm.trans hq)
      omega
  | false =>
      rw [compare?_eq_compare?_toNumber hintegers htexts, Binary64.compare?_eq_lt_iff]
      exact ⟨p, q, hp, hq, h⟩

theorem lt_of_integers (hxy : bothIntegers x y = true) (hyz : bothIntegers y z = true)
    (hlt : x.compare? y = some .lt) (hlt' : y.compare? z = some .lt) :
    x.compare? z = some .lt := by
  rcases (bothIntegers_eq_true_iff x y).mp hxy with ⟨a, b, rfl, rfl⟩
  rcases (bothIntegers_eq_true_iff _ z).mp hyz with ⟨b, c, _, rfl⟩
  cases ‹int _ = int b›
  rw [compare?_int, Option.some.injEq, compare_lt_iff_lt] at *
  exact Int.lt_trans hlt hlt'

/-- The order is transitive where no two of three values are texts. -/
theorem compare?_trans (hxy : (x.isText && y.isText) = false)
    (hyz : (y.isText && z.isText) = false) (hxz : (x.isText && z.isText) = false)
    (hlt : x.compare? y = some .lt) (hlt' : y.compare? z = some .lt) :
    x.compare? z = some .lt := by
  rcases places_of_lt hxy hlt with ⟨p, q, hp, hq, hpq⟩
  rcases places_of_lt hyz hlt' with ⟨q', r, hq', hr, hqr⟩
  have hqEq : q' = q := Option.some.inj (hq'.symm.trans hq)
  subst hqEq
  rcases hpq with hpq | ⟨hfirst, hpq⟩
  · rcases hqr with hqr | ⟨_, hqr⟩
    · exact lt_of_places hxz hp hr (Int.lt_trans hpq hqr)
    · exact lt_of_places hxz hp hr (Int.lt_of_lt_of_le hpq hqr)
  · rcases hqr with hqr | ⟨hlast, _⟩
    · exact lt_of_places hxz hp hr (Int.lt_of_le_of_lt hpq hqr)
    · exact lt_of_integers hfirst hlast hlt hlt'

theorem isText_pairs (h : [x, y, z].countP isText <= 1) :
    (x.isText && y.isText) = false ∧ (y.isText && z.isText) = false ∧
      (x.isText && z.isText) = false := by
  simp only [List.countP_cons, List.countP_nil] at h
  cases hx : x.isText <;> cases hy : y.isText <;> cases hz : z.isText <;> simp_all

end

/-! ## Equality in the order -/

theorem map_swap_eq_iff (o : Option Ordering) :
    o.map Ordering.swap = some .eq <-> o = some .eq := by
  rcases o with _ | _ | _ | _ <;> simp

theorem compare?_eq_iff_of_numbers {x y : Value} (hx : x.isNumber = true)
    (hy : y.isNumber = true) : x.compare? y = some .eq <-> x.strictEquals y = true := by
  have hnumbers : forall a b : Binary64, a.compare? b = some .eq <-> a.numEq b = true :=
    fun a b => beq_iff_eq.symm
  cases x with
  | int a =>
      cases y with
      | int b =>
          rw [strictEquals_int, compare?_int, Option.some.injEq, compare_eq_iff_eq]
          exact Int64.toInt_inj
      | float y =>
          exact hnumbers _ _
      | _ =>
          cases hy
  | float x =>
      cases y with
      | int b =>
          rw [compare?_swap (int b), map_swap_eq_iff, strictEquals_comm]
          exact hnumbers _ _
      | float y =>
          exact hnumbers _ _
      | _ =>
          cases hy
  | _ =>
      cases hx

theorem compare?_eq_iff_of_texts {x y : Value} (hx : x.isText = true) (hy : y.isText = true) :
    x.compare? y = some .eq <-> x.strictEquals y = true := by
  rcases (isText_eq_true_iff x).mp hx with ⟨s, rfl⟩
  rcases (isText_eq_true_iff y).mp hy with ⟨t, rfl⟩
  rw [compare?_str, Option.some.injEq, Std.compare_eq_iff_eq]
  exact beq_iff_eq.symm

/-! ## Laws of the order -/

theorem moreThan_eq_lessThan (x y : Value) :
    Predicate.moreThan.test y (some x) = Predicate.lessThan.test x (some y) := by
  show (y.compare? x == some .gt) = (x.compare? y == some .lt)
  rw [compare?_swap x y]
  rcases x.compare? y with _ | _ | _ | _ <;> rfl

theorem not_lessThan_and_moreThan (x y : Value) :
    (Predicate.lessThan.test x (some y) && Predicate.moreThan.test x (some y)) = false := by
  show (x.compare? y == some .lt && x.compare? y == some .gt) = false
  rcases x.compare? y with _ | _ | _ | _ <;> rfl

/-- The loose order turns round with its sides, so that less one way is more the other way and
never both; it is transitive where no two of three values are texts; and between two numbers or
two texts its equality is strict equality. -/
theorem compare?_coherent (x y z : Value) :
    y.compare? x = (x.compare? y).map Ordering.swap ∧
    Predicate.lessThan.test x (some y) = Predicate.moreThan.test y (some x) ∧
    (Predicate.lessThan.test x (some y) && Predicate.moreThan.test x (some y)) = false ∧
    ([x, y, z].countP isText <= 1 -> x.compare? y = some .lt -> y.compare? z = some .lt ->
      x.compare? z = some .lt) ∧
    ((x.isNumber && y.isNumber || x.isText && y.isText) = true ->
      (x.compare? y = some .eq <-> x.strictEquals y = true)) := by
  refine ⟨compare?_swap x y, (moreThan_eq_lessThan x y).symm, not_lessThan_and_moreThan x y,
    ?_, ?_⟩
  · intro hcount hlt hlt'
    rcases isText_pairs hcount with ⟨hxy, hyz, hxz⟩
    exact compare?_trans hxy hyz hxz hlt hlt'
  · intro hkinds
    rcases Bool.or_eq_true_iff.mp hkinds with hnumbers | htexts
    · rcases Bool.and_eq_true_iff.mp hnumbers with ⟨hx, hy⟩
      exact compare?_eq_iff_of_numbers hx hy
    · rcases Bool.and_eq_true_iff.mp htexts with ⟨hx, hy⟩
      exact compare?_eq_iff_of_texts hx hy

/-- An integer that has no double of its own, a text with a number beyond it, and infinity. -/
theorem compare?_coherent_mixed :
    (int 9007199254740993).compare? (str "0x20000000000004") = some .lt ∧
    (str "0x20000000000004").compare? (float (.infinity false)) = some .lt ∧
    (int 9007199254740993).compare? (float (.infinity false)) = some .lt ∧
    ((int 9007199254740993).compare? (float (.ofBits 0x4340000000000000)) = some .eq <->
      (int 9007199254740993).strictEquals (float (.ofBits 0x4340000000000000)) = true) := by
  have hfirst : (int 9007199254740993).compare? (str "0x20000000000004") = some .lt := by
    decide +kernel
  have hlast : (str "0x20000000000004").compare? (float (.infinity false)) = some .lt := by
    decide +kernel
  refine ⟨hfirst, hlast, ?_, ?_⟩
  · exact (compare?_coherent _ (str "0x20000000000004") _).2.2.2.1 (by decide) hfirst hlast
  · exact (compare?_coherent _ _ .missing).2.2.2.2 (by decide)

end Value
end Contracts
