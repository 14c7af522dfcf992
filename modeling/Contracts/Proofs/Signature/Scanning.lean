import Contracts.Proofs.Text.Boundaries
import Contracts.Signature.Marks

/-!
# Scans of composed texts

A scan carries three things from one character to the next: the place it stands in, the
character before, and the open brackets.  It also looks two characters ahead, but only from a
single quote.  So the scan of a composed text is composed of the scans of its parts as soon as
no part makes a character literal of the end of the part before it, and no bracket that a part
leaves open or closes belongs to another part.

Three kinds of parts are passed here: plain text, which has no quotes and no brackets; text
that a strict scan accepts on its own, inside any brackets; and blanks at the end of a text.
-/

namespace Contracts
namespace Signature

/-- The last character of a text that follows a character. -/
def lastOf (previous : Option Char) : List Char -> Option Char
  | [] =>
      previous
  | c :: rest =>
      lastOf (some c) rest

@[simp] theorem lastOf_nil (previous : Option Char) : lastOf previous [] = previous := rfl

@[simp] theorem lastOf_cons (previous : Option Char) (c : Char) (rest : List Char) :
    lastOf previous (c :: rest) = lastOf (some c) rest := rfl

@[simp] theorem lastOf_append (previous : Option Char) (front back : List Char) :
    lastOf previous (front ++ back) = lastOf (lastOf previous front) back := by
  induction front generalizing previous with
  | nil =>
      rfl
  | cons c front ih =>
      exact ih (some c)

/-!
# Brackets

What one character of code does to the open brackets.  A closing bracket looks at the innermost
of them only, so a text that a strict scan accepts does the same inside other brackets, as long
as these do not end in an angle.
-/

theorem ne_angle_of_opening {c o : Char} (h : opening? c = some o) : o ≠ '<' := by
  unfold opening? at h
  split at h <;> cases h <;> decide

theorem settle_cons_of_ne {o : Char} (h : o ≠ '<') (angles : Angles) (outer : List Char) :
    settle angles (o :: outer) = o :: outer := by
  cases angles with
  | lenient =>
      simp [settle, dropAngles, h]
  | strict =>
      rfl

/-- The open brackets after a `>` that ends no arrow. -/
def closeAngle : List Char -> List Char
  | '<' :: outer =>
      outer
  | stack =>
      stack

theorem closeAngle_cons_of_ne {c : Char} (h : c ≠ '<') (outer : List Char) :
    closeAngle (c :: outer) = c :: outer := by
  unfold closeAngle
  split
  · rename_i hstack
    cases hstack
    exact absurd rfl h
  · rfl

theorem closeAngle_append {base : List Char} (hbase : base.head? ≠ some '<')
    (stack : List Char) : closeAngle (stack ++ base) = closeAngle stack ++ base := by
  cases stack with
  | nil =>
      cases base with
      | nil =>
          rfl
      | cons b base =>
          have hb : b ≠ '<' := by simpa using hbase
          exact closeAngle_cons_of_ne hb base
  | cons c outer =>
      by_cases hc : c = '<'
      · subst hc
        rfl
      · rw [List.cons_append, closeAngle_cons_of_ne hc, closeAngle_cons_of_ne hc]
        rfl

theorem bracket_of_closes {c o : Char} (h : opening? c = some o) (angles : Angles)
    (previous : Option Char) (stack : List Char) :
    bracket angles previous stack c =
      if (settle angles stack).head? = some o then some (settle angles stack).tail else none := by
  unfold bracket
  rw [h]
  cases settle angles stack with
  | nil =>
      rfl
  | cons top outer =>
      simp

theorem bracket_of_not_closes {c : Char} (h : opening? c = none) (angles : Angles)
    (previous : Option Char) (stack : List Char) :
    bracket angles previous stack c =
      some (if c = '(' ∨ c = '[' ∨ c = '\x7b' then c :: stack
        else if c = '<' then if gluesAngle previous then c :: stack else stack
        else if c = '>' then if endsArrow previous then stack else closeAngle stack
        else stack) := by
  unfold bracket
  rw [h]
  by_cases hgreater : c = '>'
  · subst hgreater
    cases stack with
    | nil =>
        cases endsArrow previous <;> rfl
    | cons top outer =>
        by_cases htop : top = '<'
        · subst htop
          cases endsArrow previous <;> rfl
        · rw [closeAngle_cons_of_ne htop]
          cases endsArrow previous <;> simp [htop]
  · simp [hgreater, apply_ite some, or_assoc]

theorem bracket_less (angles : Angles) (previous : Option Char) (stack : List Char) :
    bracket angles previous stack '<' =
      some (if gluesAngle previous then '<' :: stack else stack) :=
  bracket_of_not_closes rfl angles previous stack

theorem bracket_greater (angles : Angles) (previous : Option Char) (stack : List Char) :
    bracket angles previous stack '>' =
      some (if endsArrow previous then stack else closeAngle stack) :=
  bracket_of_not_closes rfl angles previous stack

theorem bracket_opening {c : Char} (h : c = '(' ∨ c = '[' ∨ c = '\x7b') (angles : Angles)
    (previous : Option Char) (stack : List Char) :
    bracket angles previous stack c = some (c :: stack) := by
  rcases h with rfl | rfl | rfl <;> rfl

theorem bracket_closing {c o : Char} (h : opening? c = some o) (previous : Option Char)
    {stack next : List Char} (hstack : bracket .strict previous stack c = some next) :
    stack = o :: next := by
  rw [bracket_of_closes h, settle] at hstack
  cases stack with
  | nil =>
      cases hstack
  | cons top outer =>
      by_cases htop : top = o
      · simp only [List.head?_cons, htop, if_true, List.tail_cons, Option.some.injEq] at hstack
        rw [htop, hstack]
      · simp [htop] at hstack

theorem bracket_of_opening (angles : Angles) (previous : Option Char) {c o : Char}
    (h : opening? c = some o) (outer : List Char) :
    bracket angles previous (o :: outer) c = some outer := by
  rw [bracket_of_closes h, settle_cons_of_ne (ne_angle_of_opening h)]
  simp

theorem bracket_other {c : Char} (hclosing : opening? c = none)
    (hopening : ¬ (c = '(' ∨ c = '[' ∨ c = '\x7b')) (hless : c ≠ '<') (hgreater : c ≠ '>')
    (angles : Angles) (previous : Option Char) (stack : List Char) :
    bracket angles previous stack c = some stack := by
  rw [bracket_of_not_closes hclosing, if_neg hopening, if_neg hless, if_neg hgreater]

/-- What a strict scan does to the brackets of a text, any scan does. -/
theorem bracket_of_strict {previous : Option Char} {stack next : List Char} {c : Char}
    (h : bracket .strict previous stack c = some next) (angles : Angles) :
    bracket angles previous stack c = some next := by
  cases hclosing : opening? c with
  | some o =>
      rw [bracket_closing hclosing previous h]
      exact bracket_of_opening angles previous hclosing next
  | none =>
      rw [bracket_of_not_closes hclosing] at h ⊢
      exact h

theorem settle_append {base : List Char} (hbase : base.head? ≠ some '<') (angles : Angles)
    (stack : List Char) : settle angles (stack ++ base) = settle angles stack ++ base := by
  have hkeep : dropAngles base = base := by
    cases base with
    | nil =>
        rfl
    | cons b base =>
        have hb : b ≠ '<' := by simpa using hbase
        simp [dropAngles, hb]
  cases angles with
  | lenient =>
      show dropAngles (stack ++ base) = dropAngles stack ++ base
      induction stack with
      | nil =>
          exact hkeep
      | cons c stack ih =>
          by_cases hc : c = '<'
          · subst hc
            exact ih
          · simp [dropAngles, hc]
  | strict =>
      rfl

/-- What a scan does to the brackets of a text, it does inside other brackets. -/
theorem bracket_inside {angles : Angles} {previous : Option Char} {stack next base : List Char}
    {c : Char} (h : bracket angles previous stack c = some next)
    (hbase : base.head? ≠ some '<') :
    bracket angles previous (stack ++ base) c = some (next ++ base) := by
  cases hclosing : opening? c with
  | some o =>
      rw [bracket_of_closes hclosing] at h ⊢
      rw [settle_append hbase]
      cases hstack : settle angles stack with
      | nil =>
          rw [hstack] at h
          cases h
      | cons top outer =>
          rw [hstack] at h
          by_cases htop : top = o
          · simp only [List.head?_cons, htop, if_true, List.tail_cons, Option.some.injEq] at h
            simp [htop, h]
          · simp [htop] at h
  | none =>
      by_cases hopening : c = '(' ∨ c = '[' ∨ c = '\x7b'
      · rw [bracket_opening hopening] at h ⊢
        cases h
        rfl
      · by_cases hless : c = '<'
        · subst hless
          rw [bracket_less] at h ⊢
          cases h
          cases gluesAngle previous <;> rfl
        · by_cases hgreater : c = '>'
          · subst hgreater
            rw [bracket_greater] at h ⊢
            cases h
            rw [closeAngle_append hbase]
            cases endsArrow previous <;> rfl
          · rw [bracket_other hclosing hopening hless hgreater] at h ⊢
            cases h
            rfl

/-!
# One character of a scan

A scan goes on from a character in one of three places, with other brackets open, and marks the
character with their number unless it is quoted.
-/

/-- What a scan does at one character. -/
structure Move where
  place : Place
  stack : List Char
  depth : Option Nat

def move (angles : Angles) (place : Place) (previous : Option Char) (stack : List Char) (c : Char)
    (rest : List Char) : Option Move :=
  match place with
  | .code =>
      if opensQuote c rest then some ⟨.quoted c, stack, none⟩
      else (bracket angles previous stack c).map fun next => ⟨.code, next, some next.length⟩
  | .quoted quote =>
      some ⟨if c = '\\' then .escaped quote else if c = quote then .code else .quoted quote,
        stack, none⟩
  | .escaped quote =>
      some ⟨.quoted quote, stack, none⟩

theorem scanFrom_cons (angles : Angles) (place : Place) (previous : Option Char)
    (stack : List Char) (c : Char) (rest : List Char) :
    scanFrom angles place previous stack (c :: rest) =
      (move angles place previous stack c rest).bind fun m =>
        (scanFrom angles m.place (some c) m.stack rest).map (⟨c, m.depth⟩ :: ·) := by
  cases place with
  | code =>
      rw [scanFrom, move]
      cases opensQuote c rest with
      | true =>
          rfl
      | false =>
          cases bracket angles previous stack c with
          | none =>
              rfl
          | some next =>
              rfl
  | quoted quote =>
      rfl
  | escaped quote =>
      rfl

/-- A scan ends in code, with no bracket open. -/
theorem end_of_scanFrom {angles : Angles} {place : Place} {previous : Option Char}
    {stack : List Char} {marks : List Mark}
    (h : scanFrom angles place previous stack [] = some marks) :
    place = .code ∧ settle angles stack = [] ∧ marks = [] := by
  cases place with
  | code =>
      rw [scanFrom] at h
      split at h
      · rename_i hstack
        cases h
        exact ⟨rfl, hstack, rfl⟩
      · cases h
  | quoted quote =>
      cases h
  | escaped quote =>
      cases h

theorem exists_move_of_scanFrom {angles : Angles} {place : Place} {previous : Option Char}
    {stack rest : List Char} {c : Char} {marks : List Mark}
    (h : scanFrom angles place previous stack (c :: rest) = some marks) :
    exists m tail, move angles place previous stack c rest = some m ∧
      scanFrom angles m.place (some c) m.stack rest = some tail ∧
      marks = ⟨c, m.depth⟩ :: tail := by
  rw [scanFrom_cons] at h
  rcases Option.bind_eq_some_iff.mp h with ⟨m, hmove, htail⟩
  rcases Option.map_eq_some_iff.mp htail with ⟨tail, hscan, hmarks⟩
  exact ⟨m, tail, hmove, hscan, hmarks.symm⟩

/-!
# Plain text

A plain character opens no quoted run and leaves the brackets as they are.  Letters, numerals
and blanks are plain, and so are the signs that separate parameters.
-/

/-- The characters that quote or bracket. -/
def delimiters : List Char :=
  ['"', '\x60', '\'', '(', ')', '[', ']', '\x7b', '\x7d', '<', '>']

/-- Whether a character neither quotes nor brackets. -/
def isPlain (c : Char) : Bool :=
  !delimiters.contains c

theorem isPlain_of_rejects {p : Char -> Bool} {c : Char} (h : p c = true)
    (hp : delimiters.any p = false) : isPlain c = true := by
  cases hc : delimiters.contains c with
  | false =>
      simp only [isPlain, hc, Bool.not_false]
  | true =>
      have hany : delimiters.any p = true :=
        List.any_eq_true.mpr ⟨c, List.contains_iff_mem.mp hc, h⟩
      rw [hp] at hany
      cases hany

theorem isPlain_of_isBlank {c : Char} (h : Text.isBlank c = true) : isPlain c = true :=
  isPlain_of_rejects h (by decide)

theorem isPlain_of_continuesIdentifier {c : Char} (h : Text.continuesIdentifier c = true) :
    isPlain c = true :=
  isPlain_of_rejects h (by decide)

theorem ne_of_isPlain {c d : Char} (h : isPlain c = true) (hd : delimiters.contains d = true) :
    c ≠ d := by
  intro hcd
  rw [isPlain, hcd, hd] at h
  cases h

theorem opensQuote_of_isPlain {c : Char} (h : isPlain c = true) (rest : List Char) :
    opensQuote c rest = false := by
  have hdouble : c ≠ '"' := ne_of_isPlain h rfl
  have hback : c ≠ '\x60' := ne_of_isPlain h rfl
  have hsingle : c ≠ '\'' := ne_of_isPlain h rfl
  simp [opensQuote, hdouble, hback, hsingle]

theorem opening?_of_isPlain {c : Char} (h : isPlain c = true) : opening? c = none := by
  unfold opening?
  split
  · exact absurd rfl (ne_of_isPlain h rfl)
  · exact absurd rfl (ne_of_isPlain h rfl)
  · exact absurd rfl (ne_of_isPlain h rfl)
  · rfl

theorem bracket_of_isPlain {c : Char} (h : isPlain c = true) (angles : Angles)
    (previous : Option Char) (stack : List Char) :
    bracket angles previous stack c = some stack := by
  have hopening : ¬ (c = '(' ∨ c = '[' ∨ c = '\x7b') := by
    rintro (hround | hsquare | hcurly)
    · exact absurd hround (ne_of_isPlain h rfl)
    · exact absurd hsquare (ne_of_isPlain h rfl)
    · exact absurd hcurly (ne_of_isPlain h rfl)
  exact bracket_other (opening?_of_isPlain h) hopening (ne_of_isPlain h rfl) (ne_of_isPlain h rfl)
    angles previous stack

/-- The marks of a plain text. -/
def flat (depth : Nat) (text : List Char) : List Mark :=
  text.map fun c => ⟨c, some depth⟩

@[simp] theorem flat_nil (depth : Nat) : flat depth [] = [] := rfl

@[simp] theorem flat_cons (depth : Nat) (c : Char) (text : List Char) :
    flat depth (c :: text) = ⟨c, some depth⟩ :: flat depth text := rfl

@[simp] theorem flat_append (depth : Nat) (front back : List Char) :
    flat depth (front ++ back) = flat depth front ++ flat depth back := by
  simp [flat]

@[simp] theorem chars_flat (depth : Nat) (text : List Char) : chars (flat depth text) = text := by
  induction text with
  | nil =>
      rfl
  | cons c text ih =>
      have htail : List.map Mark.char (flat depth text) = text := ih
      simp [chars, htail]

theorem scanFrom_cons_code {angles : Angles} {previous : Option Char} {stack next rest : List Char}
    {c : Char} (hquote : opensQuote c rest = false)
    (hbracket : bracket angles previous stack c = some next) :
    scanFrom angles .code previous stack (c :: rest) =
      (scanFrom angles .code (some c) next rest).map (⟨c, some next.length⟩ :: ·) := by
  rw [scanFrom, hquote, hbracket]
  rfl

theorem scanFrom_cons_plain {c : Char} (h : isPlain c = true) (angles : Angles)
    (previous : Option Char) (stack rest : List Char) :
    scanFrom angles .code previous stack (c :: rest) =
      (scanFrom angles .code (some c) stack rest).map (⟨c, some stack.length⟩ :: ·) :=
  scanFrom_cons_code (opensQuote_of_isPlain h rest) (bracket_of_isPlain h angles previous stack)

theorem scanFrom_plain_append {text : List Char} (h : forall c, c ∈ text -> isPlain c = true)
    (angles : Angles) (previous : Option Char) (stack rest : List Char) :
    scanFrom angles .code previous stack (text ++ rest) =
      (scanFrom angles .code (lastOf previous text) stack rest).map
        (flat stack.length text ++ ·) := by
  induction text generalizing previous with
  | nil =>
      simp
  | cons c text ih =>
      rcases List.forall_mem_cons.mp h with ⟨hc, htext⟩
      rw [List.cons_append, scanFrom_cons_plain hc, ih htext, Option.map_map]
      rfl

theorem scan_of_plain {text : List Char} (h : forall c, c ∈ text -> isPlain c = true)
    (angles : Angles) : scan angles text = some (flat 0 text) := by
  have hpass := scanFrom_plain_append h angles none [] []
  rw [List.append_nil] at hpass
  rw [scan, hpass]
  cases angles <;> simp [scanFrom, settle, dropAngles]

/-!
# Balanced text

A text that a strict scan accepts leaves no bracket open and closes none that it did not open.
Inside other brackets its marks only stand deeper, and a lenient scan reads it alike.  The
brackets around it must not end in an angle, which a `>` of the text could close, and the text
after it must not turn a single quote at its end into a character literal.
-/

/-- A text that makes no character literal of the end of a text before it. -/
structure Neutral (rest : List Char) : Prop where
  head_ne_backslash : rest.head? ≠ some '\\'
  head_ne_quote : rest.head? ≠ some '\''
  second_ne_quote : rest.tail.head? ≠ some '\''

theorem neutral_cons {c : Char} {rest : List Char} (hbackslash : c ≠ '\\') (hquote : c ≠ '\'')
    (hrest : rest.head? ≠ some '\'') : Neutral (c :: rest) := by
  constructor
  · simpa using hbackslash
  · simpa using hquote
  · simpa using hrest

theorem opensQuote_append {rest : List Char} (h : Neutral rest) (c : Char) (text : List Char) :
    opensQuote c (text ++ rest) = opensQuote c text := by
  rcases h with ⟨hbackslash, hquote, hsecond⟩
  cases text with
  | nil =>
      simp only [opensQuote, List.nil_append, List.head?_nil, List.tail_nil]
      rw [beq_false_of_ne hbackslash, beq_false_of_ne hsecond]
      rfl
  | cons x text =>
      cases text with
      | nil =>
          simp only [opensQuote, List.cons_append, List.nil_append, List.head?_cons,
            List.tail_cons, List.head?_nil]
          rw [beq_false_of_ne hquote]
          rfl
      | cons y text =>
          rfl

/-- A mark with more brackets around it. -/
def Mark.raise (n : Nat) (m : Mark) : Mark :=
  { m with depth := m.depth.map (· + n) }

theorem chars_append (front back : List Mark) :
    chars (front ++ back) = chars front ++ chars back :=
  List.map_append

@[simp] theorem chars_raise (n : Nat) (marks : List Mark) :
    chars (marks.map (Mark.raise n)) = chars marks := by
  simp [chars, Mark.raise]

theorem map_raise_zero (marks : List Mark) : marks.map (Mark.raise 0) = marks := by
  have hid : Mark.raise 0 = id := by
    funext m
    cases m with
    | mk c depth =>
        cases depth <;> rfl
  rw [hid, List.map_id]

theorem isAt_iff {c : Char} {depth : Nat} {m : Mark} :
    m.isAt c depth = true <-> m = ⟨c, some depth⟩ := by
  rcases m with ⟨d, depth'⟩
  simp [Mark.isAt]

theorem isAt_raise_of_lt {n depth : Nat} (h : depth < n) (c : Char) (m : Mark) :
    (m.raise n).isAt c depth = false := by
  cases hdepth : m.depth with
  | none =>
      simp [Mark.isAt, Mark.raise, hdepth]
  | some d =>
      have hne : d + n ≠ depth := by omega
      simp [Mark.isAt, Mark.raise, hdepth, hne]

theorem move_of_strict {place : Place} {previous : Option Char} {stack rest : List Char} {c : Char}
    {m : Move} (h : move .strict place previous stack c rest = some m) (angles : Angles) :
    move angles place previous stack c rest = some m := by
  cases place with
  | code =>
      rw [move] at h ⊢
      cases hquote : opensQuote c rest with
      | true =>
          rw [hquote] at h
          exact h
      | false =>
          rw [hquote] at h
          rcases Option.map_eq_some_iff.mp h with ⟨next, hbracket, rfl⟩
          rw [bracket_of_strict hbracket]
          rfl
  | quoted quote =>
      exact h
  | escaped quote =>
      exact h

/-- What a scan does at a character, it does inside other brackets and with another text
behind. -/
theorem move_inside {base rest : List Char} (hbase : base.head? ≠ some '<') (hrest : Neutral rest)
    {angles : Angles} {place : Place} {previous : Option Char} {stack text : List Char} {c : Char}
    {m : Move} (h : move angles place previous stack c text = some m) :
    move angles place previous (stack ++ base) c (text ++ rest) =
      some ⟨m.place, m.stack ++ base, m.depth.map (· + base.length)⟩ := by
  cases place with
  | code =>
      rw [move] at h ⊢
      rw [opensQuote_append hrest]
      cases hquote : opensQuote c text with
      | true =>
          rw [hquote] at h
          cases h
          rfl
      | false =>
          rw [hquote] at h
          rcases Option.map_eq_some_iff.mp h with ⟨next, hbracket, rfl⟩
          rw [bracket_inside hbracket hbase]
          simp
  | quoted quote =>
      cases h
      rfl
  | escaped quote =>
      cases h
      rfl

/-- The scan of a text that a strict scan accepts, with brackets around it and a text after. -/
theorem scanFrom_balanced_append {base rest : List Char} (hbase : base.head? ≠ some '<')
    (hrest : Neutral rest) (angles : Angles) {text : List Char} :
    forall {place : Place} {previous : Option Char} {stack : List Char} {marks : List Mark},
      scanFrom .strict place previous stack text = some marks ->
      scanFrom angles place previous (stack ++ base) (text ++ rest) =
        (scanFrom angles .code (lastOf previous text) base rest).map
          (marks.map (Mark.raise base.length) ++ ·) := by
  -- The brackets of the text stand inside `base`: that relation holds at every character.
  induction text with
  | nil =>
      intro place previous stack marks h
      rcases end_of_scanFrom h with ⟨rfl, hstack, rfl⟩
      have hempty : stack = [] := hstack
      simp [hempty]
  | cons c text ih =>
      intro place previous stack marks h
      rcases exists_move_of_scanFrom h with ⟨m, tail, hmove, htail, rfl⟩
      rw [List.cons_append, scanFrom_cons, move_inside hbase hrest (move_of_strict hmove angles),
        Option.bind_some, ih htail, Option.map_map]
      rfl

/-- A character before a text that the scan takes like none. -/
def Detached (previous : Option Char) : Prop :=
  gluesAngle previous = false ∧ endsArrow previous = false

theorem detached_none : Detached none := by
  constructor <;> rfl

theorem detached_blank : Detached (some ' ') := by
  constructor <;> decide

theorem detached_lastOf_blanks {blanks : List Char}
    (h : forall c, c ∈ blanks -> Text.isBlank c = true) : Detached (lastOf none blanks) := by
  induction blanks using List.reverseRecOn with
  | nil =>
      exact detached_none
  | append_singleton blanks c ih =>
      have hc : Text.isBlank c = true := h c (by simp)
      have hidentifier : Text.continuesIdentifier c = false := by
        cases hcontinues : Text.continuesIdentifier c with
        | false =>
            rfl
        | true =>
            rw [Text.isBlank_eq_false_of_continuesIdentifier hcontinues] at hc
            cases hc
      simp only [Text.continuesIdentifier, Bool.or_eq_false_iff] at hidentifier
      rw [lastOf_append]
      constructor
      · have hunderscore : c ≠ '_' := Text.ne_of_test hc rfl
        have hcolon : c ≠ ':' := Text.ne_of_test hc rfl
        simp [gluesAngle, hidentifier.1.1, hunderscore, hcolon]
      · have hdash : c ≠ '-' := Text.ne_of_test hc rfl
        have hequals : c ≠ '=' := Text.ne_of_test hc rfl
        simp [endsArrow, hdash, hequals]

theorem bracket_of_detached {previous : Option Char} (h : Detached previous) (angles : Angles)
    (stack : List Char) (c : Char) :
    bracket angles previous stack c = bracket angles none stack c := by
  rcases h with ⟨hglue, harrow⟩
  unfold bracket
  rw [hglue, harrow]
  rfl

theorem scanFrom_of_detached {previous : Option Char} (h : Detached previous) (angles : Angles)
    (stack text : List Char) :
    scanFrom angles .code previous stack text = scanFrom angles .code none stack text := by
  cases text with
  | nil =>
      rfl
  | cons c text =>
      rw [scanFrom, scanFrom, bracket_of_detached h]

/-- The scan of a text that is accepted on its own, inside brackets and before another text. -/
theorem scan_strict_append {text base rest : List Char} {previous : Option Char}
    {marks : List Mark} (h : scan .strict text = some marks) (hprevious : Detached previous)
    (hbase : base.head? ≠ some '<') (hrest : Neutral rest) (angles : Angles) :
    scanFrom angles .code previous base (text ++ rest) =
      (scanFrom angles .code (lastOf previous text) base rest).map
        (marks.map (Mark.raise base.length) ++ ·) := by
  have hscan : scanFrom .strict .code previous [] text = some marks := by
    rw [scanFrom_of_detached hprevious]
    exact h
  exact scanFrom_balanced_append hbase hrest angles hscan

/-!
# Blanks at the end

A quoted run ends with its quote, so blanks at the end of an accepted text stand outside, and
the text is accepted without them.
-/

/-- A place from which no blank leads out. -/
def Place.keepsBlanks : Place -> Prop
  | .code =>
      True
  | .quoted quote =>
      Text.isBlank quote = false
  | .escaped quote =>
      Text.isBlank quote = false

theorem isBlank_eq_false_of_opensQuote {c : Char} {rest : List Char}
    (h : opensQuote c rest = true) : Text.isBlank c = false := by
  simp only [opensQuote, Bool.or_eq_true, beq_iff_eq, Bool.and_eq_true] at h
  rcases h with (rfl | rfl) | ⟨rfl, _⟩ <;> decide

theorem scanFrom_blanks_quoted {blanks : List Char}
    (h : forall c, c ∈ blanks -> Text.isBlank c = true) (angles : Angles) :
    forall {place : Place} {previous : Option Char} {stack : List Char},
      place.keepsBlanks -> place ≠ .code -> scanFrom angles place previous stack blanks = none := by
  induction blanks with
  | nil =>
      intro place previous stack hkeeps hplace
      cases place with
      | code =>
          exact absurd rfl hplace
      | quoted quote =>
          rfl
      | escaped quote =>
          rfl
  | cons c blanks ih =>
      intro place previous stack hkeeps hplace
      rcases List.forall_mem_cons.mp h with ⟨hc, hblanks⟩
      cases place with
      | code =>
          exact absurd rfl hplace
      | quoted quote =>
          have hbackslash : c ≠ '\\' := Text.ne_of_test hc rfl
          have hquote : c ≠ quote := Text.ne_of_test hc hkeeps
          simp only [scanFrom, hbackslash, hquote, if_false]
          rw [ih hblanks hkeeps (by simp)]
          rfl
      | escaped quote =>
          have hplace : (Place.quoted quote).keepsBlanks := hkeeps
          rw [scanFrom, ih hblanks hplace (by simp)]
          rfl

theorem neutral_blanks {blanks : List Char}
    (h : forall c, c ∈ blanks -> Text.isBlank c = true) : Neutral blanks := by
  constructor
  · intro hhead
    exact (Text.ne_of_test (h '\\' (List.mem_of_head? hhead)) rfl) rfl
  · intro hhead
    exact (Text.ne_of_test (h '\'' (List.mem_of_head? hhead)) rfl) rfl
  · intro hhead
    have hmem := List.mem_of_mem_tail (List.mem_of_head? hhead)
    exact (Text.ne_of_test (h '\'' hmem) rfl) rfl

theorem move_append_neutral {rest : List Char} (h : Neutral rest) (angles : Angles)
    (place : Place) (previous : Option Char) (stack : List Char) (c : Char) (text : List Char) :
    move angles place previous stack c (text ++ rest) =
      move angles place previous stack c text := by
  cases place with
  | code =>
      rw [move, move, opensQuote_append h]
  | quoted quote =>
      rfl
  | escaped quote =>
      rfl

theorem keepsBlanks_of_move {angles : Angles} {place : Place} {previous : Option Char}
    {stack rest : List Char} {c : Char} {m : Move} (hkeeps : place.keepsBlanks)
    (h : move angles place previous stack c rest = some m) : m.place.keepsBlanks := by
  cases place with
  | code =>
      rw [move] at h
      cases hquote : opensQuote c rest with
      | true =>
          rw [hquote] at h
          cases h
          exact isBlank_eq_false_of_opensQuote hquote
      | false =>
          rw [hquote] at h
          rcases Option.map_eq_some_iff.mp h with ⟨next, _, rfl⟩
          trivial
  | quoted quote =>
      cases h
      show (if c = '\\' then Place.escaped quote
        else if c = quote then Place.code else Place.quoted quote).keepsBlanks
      split
      · exact hkeeps
      · split
        · trivial
        · exact hkeeps
  | escaped quote =>
      cases h
      exact hkeeps

theorem scanFrom_strict_dropBlanks {blanks : List Char}
    (h : forall c, c ∈ blanks -> Text.isBlank c = true) {text : List Char} :
    forall {place : Place} {previous : Option Char} {stack : List Char} {marks : List Mark},
      place.keepsBlanks ->
      scanFrom .strict place previous stack (text ++ blanks) = some marks ->
      exists kept, scanFrom .strict place previous stack text = some kept := by
  -- Where the text ends the scan stands in code: from a quoted run no blank leads out.
  induction text with
  | nil =>
      intro place previous stack marks hkeeps hscan
      rw [List.nil_append] at hscan
      by_cases hplace : place = .code
      · subst hplace
        have hplain : forall c, c ∈ blanks -> isPlain c = true := by
          intro c hc
          exact isPlain_of_isBlank (h c hc)
        have hpass := scanFrom_plain_append hplain .strict previous stack []
        rw [List.append_nil, hscan] at hpass
        rcases Option.map_eq_some_iff.mp hpass.symm with ⟨kept, hkept, _⟩
        simp only [scanFrom, settle] at hkept ⊢
        exact ⟨kept, hkept⟩
      · rw [scanFrom_blanks_quoted h .strict hkeeps hplace] at hscan
        cases hscan
  | cons c text ih =>
      intro place previous stack marks hkeeps hscan
      rw [List.cons_append] at hscan
      rcases exists_move_of_scanFrom hscan with ⟨m, tail, hmove, htail, _⟩
      rw [move_append_neutral (neutral_blanks h)] at hmove
      rcases ih (keepsBlanks_of_move hkeeps hmove) htail with ⟨kept, hkept⟩
      refine ⟨⟨c, m.depth⟩ :: kept, ?_⟩
      rw [scanFrom_cons, hmove, Option.bind_some, hkept]
      rfl

theorem scan_strict_trimEnd {text : List Char} {marks : List Mark}
    (h : scan .strict text = some marks) :
    exists kept, scan .strict (Text.trimEnd text) = some kept := by
  rcases Text.exists_blanks_trimEnd text with ⟨blanks, hblanks, htext⟩
  have hscan : scanFrom .strict .code none [] (Text.trimEnd text ++ blanks) = some marks := by
    rw [← htext]
    exact h
  exact scanFrom_strict_dropBlanks hblanks trivial hscan

end Signature
end Contracts
