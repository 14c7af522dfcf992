import Contracts.Proofs.Signature.Reading

/-!
# Texts with angles only

Where angles are the only brackets of a text, the open brackets are a number.  A `<` after a
name adds one, and a `>` that ends no arrow takes one away if there is one.  Lenient and strict
scans do not differ before the text ends or another bracket closes.
-/

namespace Contracts
namespace Signature

/-- How many angles are open after a character. -/
def angleStep (previous : Option Char) (n : Nat) (c : Char) : Nat :=
  if c = '<' then
    if gluesAngle previous then n + 1 else n
  else if c = '>' then
    if endsArrow previous then n else n - 1
  else n

/-- How many angles are open after a text. -/
def anglesAfter : Option Char -> Nat -> List Char -> Nat
  | _, n, [] =>
      n
  | previous, n, c :: rest =>
      anglesAfter (some c) (angleStep previous n c) rest

/-- The marks of a text with angles only, inside other brackets. -/
def angleMarks (base : Nat) : Option Char -> Nat -> List Char -> List Mark
  | _, _, [] =>
      []
  | previous, n, c :: rest =>
      ⟨c, some (angleStep previous n c + base)⟩ ::
        angleMarks base (some c) (angleStep previous n c) rest

/-- A character that is no bracket but an angle, and quotes nothing. -/
def Angled (c : Char) : Prop :=
  isPlain c = true ∨ c = '<' ∨ c = '>'

theorem anglesAfter_append (previous : Option Char) (n : Nat) (front back : List Char) :
    anglesAfter previous n (front ++ back) =
      anglesAfter (lastOf previous front) (anglesAfter previous n front) back := by
  induction front generalizing previous n with
  | nil =>
      rfl
  | cons c front ih =>
      exact ih (some c) (angleStep previous n c)

theorem angleMarks_append (base : Nat) (previous : Option Char) (n : Nat)
    (front back : List Char) :
    angleMarks base previous n (front ++ back) =
      angleMarks base previous n front ++
        angleMarks base (lastOf previous front) (anglesAfter previous n front) back := by
  induction front generalizing previous n with
  | nil =>
      rfl
  | cons c front ih =>
      have htail := ih (some c) (angleStep previous n c)
      simp only [List.cons_append, angleMarks, htail]
      rfl

theorem chars_angleMarks (base : Nat) (previous : Option Char) (n : Nat) (text : List Char) :
    chars (angleMarks base previous n text) = text := by
  induction text generalizing previous n with
  | nil =>
      rfl
  | cons c text ih =>
      have htail := ih (some c) (angleStep previous n c)
      simp only [chars, angleMarks, List.map_cons] at htail ⊢
      rw [htail]

theorem angleStep_of_isPlain {c : Char} (h : isPlain c = true) (previous : Option Char)
    (n : Nat) : angleStep previous n c = n := by
  have hless : c ≠ '<' := ne_of_isPlain h rfl
  have hgreater : c ≠ '>' := ne_of_isPlain h rfl
  simp [angleStep, hless, hgreater]

theorem anglesAfter_of_plain {text : List Char} (h : forall c, c ∈ text -> isPlain c = true)
    (previous : Option Char) (n : Nat) : anglesAfter previous n text = n := by
  induction text generalizing previous with
  | nil =>
      rfl
  | cons c text ih =>
      rcases List.forall_mem_cons.mp h with ⟨hc, htext⟩
      rw [anglesAfter, angleStep_of_isPlain hc, ih htext]

theorem anglesAfter_of_detached {previous : Option Char} (h : Detached previous) (n : Nat)
    (text : List Char) : anglesAfter previous n text = anglesAfter none n text := by
  cases text with
  | nil =>
      rfl
  | cons c text =>
      rcases h with ⟨hglue, harrow⟩
      have hstep : angleStep previous n c = angleStep none n c := by
        unfold angleStep
        rw [hglue, harrow]
        rfl
      rw [anglesAfter, anglesAfter, hstep]

/-!
# Scanning

The open brackets are so many angles and the brackets around the text.
-/

theorem isAt_angleMarks_of_not_mem {c : Char} {text : List Char} (h : c ∉ text) (base depth : Nat) :
    forall (previous : Option Char) (n : Nat) (m : Mark),
      m ∈ angleMarks base previous n text -> m.isAt c depth = false := by
  intro previous n m hm
  have hmem : m.char ∈ chars (angleMarks base previous n text) := List.mem_map_of_mem hm
  rw [chars_angleMarks] at hmem
  have hne : m.char ≠ c := by
    rintro rfl
    exact h hmem
  simp [Mark.isAt, hne]

theorem opensQuote_of_angled {c : Char} (h : Angled c) (rest : List Char) :
    opensQuote c rest = false := by
  rcases h with h | rfl | rfl
  · exact opensQuote_of_isPlain h rest
  · simp [opensQuote]
  · simp [opensQuote]

theorem closeAngle_replicate {base : List Char} (hbase : base.head? ≠ some '<') (n : Nat) :
    closeAngle (List.replicate n '<' ++ base) = List.replicate (n - 1) '<' ++ base := by
  cases n with
  | zero =>
      exact closeAngle_append hbase []
  | succ n =>
      rfl

theorem bracket_angled {c : Char} (h : Angled c) {base : List Char}
    (hbase : base.head? ≠ some '<') (angles : Angles) (previous : Option Char) (n : Nat) :
    bracket angles previous (List.replicate n '<' ++ base) c =
      some (List.replicate (angleStep previous n c) '<' ++ base) := by
  rcases h with h | rfl | rfl
  · rw [bracket_of_isPlain h, angleStep_of_isPlain h]
  · rw [bracket_less]
    cases hglue : gluesAngle previous <;> simp [angleStep, hglue, List.replicate_succ]
  · rw [bracket_greater, closeAngle_replicate hbase]
    cases harrow : endsArrow previous <;> simp [angleStep, harrow]

theorem scanFrom_angled_append {base : List Char} (hbase : base.head? ≠ some '<')
    (angles : Angles) {text : List Char} (h : forall c, c ∈ text -> Angled c)
    (rest : List Char) (previous : Option Char) (n : Nat) :
    scanFrom angles .code previous (List.replicate n '<' ++ base) (text ++ rest) =
      (scanFrom angles .code (lastOf previous text)
        (List.replicate (anglesAfter previous n text) '<' ++ base) rest).map
        (angleMarks base.length previous n text ++ ·) := by
  induction text generalizing previous n with
  | nil =>
      simp [angleMarks, anglesAfter]
  | cons c text ih =>
      rcases List.forall_mem_cons.mp h with ⟨hc, htext⟩
      rw [List.cons_append, scanFrom_cons_code (opensQuote_of_angled hc _)
        (bracket_angled hc hbase angles previous n), ih htext, Option.map_map]
      simp [Function.comp_def, angleMarks, anglesAfter]

theorem scan_angled {text : List Char} (h : forall c, c ∈ text -> Angled c) :
    scan .strict text =
      if anglesAfter none 0 text = 0 then some (angleMarks 0 none 0 text) else none := by
  have hbase : ([] : List Char).head? ≠ some '<' := by simp
  have hpass := scanFrom_angled_append hbase .strict h [] none 0
  rw [List.append_nil, List.append_nil, List.replicate_zero] at hpass
  rw [scan, hpass]
  by_cases hzero : anglesAfter none 0 text = 0
  · simp [hzero, scanFrom, settle]
  · simp [hzero, scanFrom, settle]

/-- A list with angles only is found whether or not they are closed. -/
theorem extent_of_angled {lead list : List Char} (hlead : Lead lead)
    (h : forall c, c ∈ list -> Angled c) :
    extent (lead ++ '(' :: (list ++ [')'])) = .ok (.list list) := by
  have hbase : ['('].head? ≠ some '<' := by decide
  have hclose : forall n previous, scanFrom .lenient .code previous
      (List.replicate n '<' ++ ['(']) [')'] = some [⟨')', some 0⟩] := by
    intro n previous
    have hopening : opening? ')' = some '(' := rfl
    have hdrop : dropAngles (List.replicate n '<' ++ ['(']) = ['('] := by
      induction n with
      | zero =>
          rfl
      | succ n ih =>
          exact ih
    have hbracket : bracket .lenient previous (List.replicate n '<' ++ ['(']) ')' = some [] := by
      rw [bracket_of_closes hopening, settle, hdrop]
      rfl
    have hquote : opensQuote ')' [] = false := rfl
    rw [scanFrom_cons_code hquote hbracket]
    rfl
  have hpass := scanFrom_angled_append hbase .lenient h [')'] (some '(') 0
  rw [hclose] at hpass
  have hnotMem : ')' ∉ list := by
    intro hmem
    have hangled := h ')' hmem
    unfold Angled at hangled
    revert hangled
    decide
  exact extent_of_marks hlead hpass (isAt_angleMarks_of_not_mem hnotMem _ _ _ _)
    (chars_angleMarks _ _ _ _)

end Signature
end Contracts
