import Contracts.Proofs.Signature.Reading

/-!
# The forms of a declaration

A parameter list stands in the round brackets of a function, in round brackets before an arrow,
or between the bars of a closure.  Each form finds its list by a rule of its own, and each finds
exactly the list when its brackets match on their own and no bar of it could end a closure.
What the list binds does not depend on the form any more.
-/

namespace Contracts
namespace Signature

/-- What a parameter list binds, wherever it stands. -/
def listNames (list : List Char) : Except SignatureError (List String) := do
  let names ← namesFrom 0 (← pieces list)
  validate (names.map String.ofList)

def Extent.names : Extent -> Except SignatureError (List String)
  | list text =>
      listNames text
  | single name =>
      .ok [String.ofList name]

theorem parameterNames_eq_bind (text : String) :
    parameterNames text = (extent text.toList).bind Extent.names := by
  unfold parameterNames
  cases extent text.toList with
  | error e =>
      rfl
  | ok e =>
      cases e with
      | list list =>
          rfl
      | single name =>
          rfl

theorem parameterNames_of_list {text : String} {list : List Char}
    (h : extent text.toList = .ok (.list list)) : parameterNames text = listNames list := by
  rw [parameterNames_eq_bind, h]
  rfl

/-!
# Round brackets

Nothing or the name of a function stands before the list, and an arrow at most behind it.
-/

theorem lead_nil : Lead [] := by
  constructor
  · intro c hc
    cases hc
  · exact List.not_mem_nil
  · intro rest
    exact startsClosure_cons (by decide) (by decide) (by decide) rest

theorem lead_fn : Lead ['f', 'n', ' ', 'f'] := by
  constructor
  · exact List.all_eq_true.mp rfl
  · decide
  · intro rest
    exact startsClosure_cons (by decide) (by decide) (by decide) _

/-!
# Bars

The bar that ends the list is the first behind it outside brackets, since the list has none.
-/

/-- What stands before the bar that opens the list of a closure. -/
structure ClosureLead (lead : List Char) : Prop where
  plain : forall c, c ∈ lead -> isPlain c = true
  noBar : '|' ∉ lead
  starts : forall rest, startsClosure (lead ++ '|' :: rest) = true

theorem closureLead_nil : ClosureLead [] := by
  constructor
  · intro c hc
    cases hc
  · exact List.not_mem_nil
  · intro rest
    rfl

theorem closureLead_move : ClosureLead ['m', 'o', 'v', 'e', ' '] := by
  constructor
  · exact List.all_eq_true.mp rfl
  · decide
  · intro rest
    rfl

theorem extent_of_bars {lead list rest : List Char} {marks after : List Mark}
    (hlead : ClosureLead lead) (hlist : scan .strict list = some marks)
    (hbars : forall m, m ∈ marks -> m.isAt '|' 0 = false) (hneutral : Neutral ('|' :: rest))
    (hrest : scanFrom .lenient .code (some '|') [] rest = some after) :
    extent (lead ++ '|' :: (list ++ '|' :: rest)) = .ok (.list list) := by
  have hprevious : Detached (some '|') := by
    constructor <;> decide
  have hbase : ([] : List Char).head? ≠ some '<' := by simp
  have hinside := scan_strict_append hlist hprevious hbase hneutral .lenient
  rw [scanFrom_cons_plain (by decide), hrest, List.length_nil, map_raise_zero] at hinside
  have hmarks : scan .lenient (lead ++ '|' :: (list ++ '|' :: rest)) =
      some (flat 0 lead ++ ⟨'|', some 0⟩ :: (marks ++ ⟨'|', some 0⟩ :: after)) := by
    rw [scan, scanFrom_plain_append hlead.plain, scanFrom_cons_plain (by decide), List.length_nil,
      hinside]
    rfl
  have hfront : forall m, m ∈ flat 0 lead -> m.isAt '|' 0 = false :=
    isAt_flat_of_not_mem hlead.noBar 0 0
  have hopen := cut?_append_cons (x := ⟨'|', some 0⟩) hfront rfl (marks ++ ⟨'|', some 0⟩ :: after)
  have hclose := cut?_append_cons (x := ⟨'|', some 0⟩) hbars rfl after
  have hclosure : closureList? (lead ++ '|' :: (list ++ '|' :: rest))
      (flat 0 lead ++ ⟨'|', some 0⟩ :: (marks ++ ⟨'|', some 0⟩ :: after)) = some list := by
    simp [closureList?, hlead.starts, hopen, hclose, chars_scan hlist]
  simp [extent, hmarks, hclosure]

/-!
# All forms
-/

/-- A list binds the same in the round brackets of a function, before an arrow and between the
bars of a closure: whether its parameters can be read and which names they have is decided by
the list alone. -/
theorem parameterNames_forms {list : String} {marks : List Mark}
    (h : scan .strict list.toList = some marks)
    (hbars : forall m, m ∈ marks -> m.isAt '|' 0 = false) :
    parameterNames ("fn f(" ++ list ++ ")") = listNames list.toList ∧
    parameterNames ("(" ++ list ++ ") => x") = listNames list.toList ∧
    parameterNames ("|" ++ list ++ "| x") = listNames list.toList ∧
    parameterNames ("move |" ++ list ++ "| x") = listNames list.toList := by
  have hround : forall {lead rest : List Char} {after : List Mark}, Lead lead ->
      Neutral (')' :: rest) -> scanFrom .lenient .code (some ')') [] rest = some after ->
      extent (lead ++ '(' :: (list.toList ++ ')' :: rest)) = .ok (.list list.toList) :=
    fun hlead hneutral hrest => extent_of_strict hlead h hneutral hrest
  have hneutral : Neutral ['|', ' ', 'x'] := neutral_cons (by decide) (by decide) (by decide)
  have hafter : scanFrom .lenient .code (some '|') [] [' ', 'x'] =
      some [⟨' ', some 0⟩, ⟨'x', some 0⟩] := rfl
  have htext : forall (lead rest : String),
      (lead ++ list ++ rest).toList = lead.toList ++ (list.toList ++ rest.toList) := by
    intro lead rest
    rw [String.toList_append, String.toList_append, List.append_assoc]
  refine ⟨?_, ?_, ?_, ?_⟩
  · apply parameterNames_of_list
    rw [htext]
    exact hround lead_fn (neutral_cons (by decide) (by decide) (by simp)) rfl
  · apply parameterNames_of_list
    rw [htext]
    exact hround lead_nil (neutral_cons (by decide) (by decide) (by decide)) rfl
  · apply parameterNames_of_list
    rw [htext]
    exact extent_of_bars closureLead_nil h hbars hneutral hafter
  · apply parameterNames_of_list
    rw [htext]
    exact extent_of_bars closureLead_move h hbars hneutral hafter

/-- A list with generics, an arrow, and bars in brackets and in quotes. -/
def barredList : String :=
  "m: M<K, V>, g = (p | q) => \"|\""

theorem parameterNames_forms_barredList :
    (exists marks, scan .strict barredList.toList = some marks ∧
      forall m, m ∈ marks -> m.isAt '|' 0 = false) ∧
    parameterNames ("fn f(" ++ barredList ++ ")") = .ok ["m", "g"] ∧
    parameterNames ("(" ++ barredList ++ ") => x") = .ok ["m", "g"] ∧
    parameterNames ("|" ++ barredList ++ "| x") = .ok ["m", "g"] ∧
    parameterNames ("move |" ++ barredList ++ "| x") = .ok ["m", "g"] := by
  have hscan : exists marks, scan .strict barredList.toList = some marks ∧
      forall m, m ∈ marks -> m.isAt '|' 0 = false :=
    ⟨_, rfl, by decide⟩
  have hnames : listNames barredList.toList = .ok ["m", "g"] := rfl
  refine ⟨hscan, ?_⟩
  rcases hscan with ⟨marks, hmarks, hbars⟩
  rw [← hnames]
  exact parameterNames_forms hmarks hbars

end Signature
end Contracts
