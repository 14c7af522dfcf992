import Mathlib.Data.List.DropRight
import Mathlib.Data.List.Forall2
import Contracts.Json.Shape

/-!
# Readers

Two kinds of facts about readers.  What a reader yields, whatever text it takes it from, is
stated by `Yields`, with one rule for each way of putting readers together.  What a reader makes
of a text that was written for it is stated by equations `read (text ++ rest) = .ok (x, rest)`.

A written value begins with one of a few characters, none of which is a blank, a comma or a
closing bracket; this is how a list tells that one more item stands there.  A number ends where
the text behind it does not go on with it.
-/

namespace Contracts
namespace Json
namespace Reader

variable {α β : Type}

theorem bind_of_ok {read : Reader α} {f : α -> Reader β} {text rest : List Char} {x : α}
    (h : read text = .ok (x, rest)) : (read >>= f) text = f x rest := by
  show (read text >>= fun p => f p.1 p.2) = f x rest
  rw [h]
  rfl

theorem exists_of_bind {read : Reader α} {f : α -> Reader β} {text rest : List Char} {y : β}
    (h : (read >>= f) text = .ok (y, rest)) :
    exists x left, read text = .ok (x, left) ∧ f x left = .ok (y, rest) := by
  have hbind : (read text >>= fun p => f p.1 p.2) = .ok (y, rest) := h
  cases hread : read text with
  | error e =>
      rw [hread] at hbind
      cases hbind
  | ok p =>
      rw [hread] at hbind
      exact ⟨p.1, p.2, rfl, hbind⟩

theorem bind_get (f : List Char -> Reader α) (text : List Char) :
    ((get : Reader (List Char)) >>= f) text = f text text := rfl

/-! ## What a reader yields -/

/-- Whether all that a reader reads, from whatever text, satisfies a condition. -/
structure Yields (read : Reader α) (P : α -> Prop) : Prop where
  of_ok : forall text x rest, read text = .ok (x, rest) -> P x

section

variable {P : α -> Prop} {Q : β -> Prop}

theorem yields_true (read : Reader α) : Yields read fun _ => True :=
  ⟨fun _ _ _ _ => trivial⟩

theorem yields_pure {x : α} (h : P x) : Yields (pure x) P := by
  constructor
  intro text y rest hread
  cases hread
  exact h

theorem yields_throw (e : ReadError) : Yields (throw e : Reader α) P := by
  constructor
  intro text y rest hread
  cases hread

theorem yields_bind {read : Reader α} {f : α -> Reader β} (hread : Yields read P)
    (hf : forall x, P x -> Yields (f x) Q) : Yields (read >>= f) Q := by
  constructor
  intro text y rest hbind
  rcases exists_of_bind hbind with ⟨x, left, hx, hy⟩
  exact (hf x (hread.of_ok text x left hx)).of_ok left y rest hy

theorem Yields.imp {read : Reader α} {R : α -> Prop} (h : Yields read P)
    (himp : forall x, P x -> R x) : Yields read R := by
  constructor
  intro text x rest hread
  exact himp x (h.of_ok text x rest hread)

theorem Yields.and {read : Reader α} {R : α -> Prop} (h : Yields read P) (hR : Yields read R) :
    Yields read fun x => P x ∧ R x := by
  constructor
  intro text x rest hread
  exact ⟨h.of_ok text x rest hread, hR.of_ok text x rest hread⟩

/-- Nothing need be known of what is read first. -/
theorem yields_then {read : Reader α} {f : α -> Reader β} (hf : forall x, Yields (f x) Q) :
    Yields (read >>= f) Q :=
  yields_bind (yields_true read) fun x _ => hf x

theorem yields_items {read : Reader α} (h : Yields read P) (close : Char) (bound : Nat)
    (first : Bool) : Yields (items read close bound first) fun xs => forall x, x ∈ xs -> P x := by
  induction bound generalizing first with
  | zero =>
      exact yields_throw _
  | succ bound ih =>
      unfold items
      apply yields_then
      intro more
      split
      · apply yields_bind h
        intro x hx
        apply yields_bind (ih false)
        intro xs hxs
        apply yields_pure
        exact List.forall_mem_cons.mpr ⟨hx, hxs⟩
      · apply yields_pure
        intro x hx
        cases hx

theorem yields_list {read : Reader α} (h : Yields read P) (close : Char) :
    Yields (list read close) fun xs => forall x, x ∈ xs -> P x := by
  unfold list
  apply yields_then
  intro text
  apply yields_bind (yields_items h close _ true)
  intro xs hxs
  apply yields_then
  intro _
  exact yields_pure hxs

end

/-! ## The next token -/

/-- Whether a written value may begin with a character. -/
def opensValue (c : Char) : Bool :=
  c == 'n' || c == 't' || c == 'f' || c == '-' || c.isDigit || c == '"' || c == '[' || c == '\x7b'

/-- Whether a list may end with a character. -/
def closesList (c : Char) : Bool :=
  c == ']' || c == '\x7d'

/-- Whether a number may go on with a character. -/
def continuesNumber (c : Char) : Bool :=
  c.isDigit || c == '.' || c == 'e' || c == 'E'

/-- Whether a number before a text ends there. -/
def Stops (text : List Char) : Prop :=
  forall c, c ∈ text.head? -> continuesNumber c = false

theorem stops_nil : Stops [] := by
  intro c hc
  cases hc

theorem stops_cons {c : Char} (h : continuesNumber c = false) (text : List Char) :
    Stops (c :: text) := by
  intro d hd
  have hdc : c = d := by simpa using hd
  rw [← hdc]
  exact h

theorem ne_of_opensValue {c d : Char} (h : opensValue c = true) (hd : opensValue d = false) :
    c ≠ d := by
  intro hcd
  rw [hcd, hd] at h
  cases h

theorem isSpace_of_opensValue {c : Char} (h : opensValue c = true) : isSpace c = false := by
  have h1 : c ≠ ' ' := ne_of_opensValue h (by decide)
  have h2 : c ≠ '\n' := ne_of_opensValue h (by decide)
  have h3 : c ≠ '\t' := ne_of_opensValue h (by decide)
  have h4 : c ≠ '\r' := ne_of_opensValue h (by decide)
  simp [isSpace, h1, h2, h3, h4]

theorem eq_false_of_closesList {p : Char -> Bool} {c : Char} (h : closesList c = true)
    (hsquare : p ']' = false) (hcurly : p '\x7d' = false) : p c = false := by
  have hc : c = ']' ∨ c = '\x7d' := by simpa [closesList] using h
  rcases hc with hc | hc
  · rw [hc]
    exact hsquare
  · rw [hc]
    exact hcurly

theorem spaces_cons {c : Char} (h : isSpace c = false) (text : List Char) :
    spaces (c :: text) = .ok ((), c :: text) := by
  unfold spaces
  rw [List.dropWhile_cons_of_neg (by simp [h])]

theorem peekToken_cons {c : Char} (h : isSpace c = false) (text : List Char) :
    peekToken (c :: text) = .ok (c, c :: text) := by
  unfold peekToken
  rw [bind_of_ok (spaces_cons h text)]
  rfl

theorem eq_of_peek {c : Char} {text left : List Char} (h : peek text = .ok (c, left)) :
    left = text := by
  cases text with
  | nil =>
      cases h
  | cons d rest =>
      cases h
      rfl

/-- Looking for the next token twice finds the same one. -/
theorem peekToken_again {c : Char} {text left : List Char} (h : peekToken text = .ok (c, left)) :
    peekToken left = .ok (c, left) := by
  have hpeek : peek (text.dropWhile isSpace) = .ok (c, left) := h
  have hleft := eq_of_peek hpeek
  have hagain : left.dropWhile isSpace = left := by
    rw [hleft]
    exact List.dropWhile_idempotent _ _
  show peek (left.dropWhile isSpace) = _
  rw [hagain]
  rw [← hleft] at hpeek
  exact hpeek

theorem next_cons (c : Char) (text : List Char) : next (c :: text) = .ok (c, text) := rfl

theorem token_cons {c : Char} (h : isSpace c = false) (text : List Char) :
    token c (c :: text) = .ok ((), text) := by
  unfold token
  rw [bind_of_ok (spaces_cons h text)]
  show (next >>= fun d => if d = c then word [] else throw .malformed) (c :: text) = _
  rw [bind_of_ok (next_cons c text), if_pos rfl]
  rfl

/-! ## Lists that were written -/

theorem isSpace_of_closesList {close : Char} (h : closesList close = true) :
    isSpace close = false := by
  apply eq_false_of_closesList h
  · decide
  · decide

theorem another_close {close : Char} (h : closesList close = true) (first : Bool)
    (text : List Char) : another close first (close :: text) = .ok (false, close :: text) := by
  unfold another
  rw [bind_of_ok (peekToken_cons (isSpace_of_closesList h) text), if_pos rfl]
  rfl

theorem ne_of_closesList {c close : Char} (hc : opensValue c = true)
    (h : closesList close = true) : c ≠ close := by
  apply ne_of_opensValue hc
  apply eq_false_of_closesList h
  · decide
  · decide

theorem another_first {close c : Char} (h : closesList close = true) (hc : opensValue c = true)
    (text : List Char) : another close true (c :: text) = .ok (true, c :: text) := by
  unfold another
  rw [bind_of_ok (peekToken_cons (isSpace_of_opensValue hc) text),
    if_neg (ne_of_closesList hc h), if_pos rfl]
  rfl

theorem another_comma {close c : Char} (h : closesList close = true) (hc : opensValue c = true)
    (text : List Char) : another close false (',' :: c :: text) = .ok (true, c :: text) := by
  have hcomma : ',' ≠ close := by
    have hclose : (',' == close) = false := by
      apply eq_false_of_closesList h
      · decide
      · decide
    exact beq_eq_false_iff_ne.mp hclose
  unfold another
  rw [bind_of_ok (peekToken_cons (by decide) _), if_neg hcomma, if_neg (by decide),
    if_neg (by decide)]
  show (next >>= fun _ => peekToken >>= fun d =>
    if d = close then (throw .malformed : Reader Unit) >>= fun _ => pure true else pure true)
      (',' :: c :: text) = _
  rw [bind_of_ok (next_cons ',' _),
    bind_of_ok (peekToken_cons (isSpace_of_opensValue hc) text),
    if_neg (ne_of_closesList hc h)]
  rfl

/-- Whether a text begins as a written value does. -/
def Opens (text : List Char) : Prop :=
  exists c tail, text = c :: tail ∧ opensValue c = true

theorem opens_cons {c : Char} (h : opensValue c = true) (tail : List Char) : Opens (c :: tail) :=
  ⟨c, tail, rfl, h⟩

theorem ne_nil_of_opens {text : List Char} (h : Opens text) : text ≠ [] := by
  rcases h with ⟨c, tail, htext, _⟩
  rw [htext]
  exact List.cons_ne_nil c tail

/-- A text that a reader takes a value from. -/
structure Written (read : Reader α) (text : List Char) (x : α) : Prop where
  opens : Opens text
  reads : forall rest, Stops rest -> read (text ++ rest) = .ok (x, rest)

/-- Texts between commas; the first one follows a comma too unless the list begins with it. -/
def listed : Bool -> List (List Char) -> List Char
  | _, [] =>
      []
  | true, text :: rest =>
      text ++ listed false rest
  | false, text :: rest =>
      ',' :: (text ++ listed false rest)

@[simp] theorem listed_nil (first : Bool) : listed first [] = [] := by
  unfold listed
  rfl

theorem listed_true_cons (text : List Char) (rest : List (List Char)) :
    listed true (text :: rest) = text ++ listed false rest := rfl

theorem listed_false_cons (text : List Char) (rest : List (List Char)) :
    listed false (text :: rest) = ',' :: (text ++ listed false rest) := rfl

section

variable {close : Char} (hclose : closesList close = true)
include hclose

theorem stops_listed (texts : List (List Char)) (rest : List Char) :
    Stops (listed false texts ++ close :: rest) := by
  cases texts with
  | nil =>
      apply stops_cons
      apply eq_false_of_closesList hclose
      · decide
      · decide
  | cons text texts =>
      exact stops_cons (by decide) _

theorem another_listed {text : List Char} (h : Opens text) (first : Bool)
    (texts : List (List Char)) (rest : List Char) :
    another close first (listed first (text :: texts) ++ close :: rest) =
      .ok (true, text ++ (listed false texts ++ close :: rest)) := by
  rcases h with ⟨c, tail, htext, hc⟩
  cases first with
  | true =>
      rw [listed_true_cons, htext, List.append_assoc]
      exact another_first hclose hc _
  | false =>
      rw [listed_false_cons, htext, List.cons_append, List.append_assoc]
      exact another_comma hclose hc _

theorem items_listed {read : Reader α} {texts : List (List Char)} {xs : List α}
    (h : List.Forall₂ (Written read) texts xs) {bound : Nat} (hbound : texts.length < bound)
    (first : Bool) (rest : List Char) :
    items read close bound first (listed first texts ++ close :: rest) =
      .ok (xs, close :: rest) := by
  induction h generalizing bound first with
  | nil =>
      cases bound with
      | zero =>
          cases hbound
      | succ bound =>
          unfold items
          rw [listed_nil, List.nil_append, bind_of_ok (another_close hclose first rest)]
          rfl
  | cons hfirst hrest ih =>
      cases bound with
      | zero =>
          cases hbound
      | succ bound =>
          unfold items
          rw [bind_of_ok (another_listed hclose hfirst.opens first _ rest), if_pos rfl,
            bind_of_ok (hfirst.reads _ (stops_listed hclose _ rest)),
            bind_of_ok (ih (Nat.lt_of_succ_lt_succ hbound) false)]
          rfl

omit hclose in
/-- No list has more texts than characters. -/
theorem length_le_listed {texts : List (List Char)} (h : forall text, text ∈ texts -> Opens text)
    (first : Bool) : texts.length <= (listed first texts).length := by
  induction texts generalizing first with
  | nil =>
      exact Nat.zero_le _
  | cons text texts ih =>
      rcases List.forall_mem_cons.mp h with ⟨htext, htexts⟩
      have hlength := List.length_pos_of_ne_nil (ne_nil_of_opens htext)
      have hrest := ih htexts false
      cases first with
      | true =>
          rw [listed_true_cons, List.length_append, List.length_cons]
          omega
      | false =>
          rw [listed_false_cons, List.length_cons, List.length_cons, List.length_append]
          omega

omit hclose in
theorem opens_of_written {read : Reader α} {texts : List (List Char)} {xs : List α}
    (h : List.Forall₂ (Written read) texts xs) : forall text, text ∈ texts -> Opens text := by
  induction h with
  | nil =>
      intro text htext
      cases htext
  | cons hfirst _ ih =>
      intro text htext
      rcases List.mem_cons.mp htext with htext | htext
      · rw [htext]
        exact hfirst.opens
      · exact ih text htext

theorem list_listed {read : Reader α} {texts : List (List Char)} {xs : List α}
    (h : List.Forall₂ (Written read) texts xs) (rest : List Char) :
    list read close (listed true texts ++ close :: rest) = .ok (xs, rest) := by
  have hbound : texts.length < (listed true texts ++ close :: rest).length + 1 := by
    have hlength := length_le_listed (opens_of_written h) true
    rw [List.length_append]
    omega
  unfold list
  rw [bind_get, bind_of_ok (items_listed hclose h hbound true rest),
    bind_of_ok (token_cons (isSpace_of_closesList hclose) rest)]
  rfl

end

/-! ## Whole texts -/

theorem run_written {read : Reader α} {text : List Char} {x : α} (h : Written read text x) :
    run read (String.ofList text) = .ok x := by
  have hread := h.reads [] stops_nil
  rw [List.append_nil] at hread
  unfold run
  rw [String.toList_ofList, hread]
  rfl

theorem Yields.of_run {read : Reader α} {P : α -> Prop} (h : Yields read P) {text : String}
    {x : α} (hrun : run read text = .ok x) : P x := by
  unfold run at hrun
  cases hread : read text.toList with
  | error e =>
      rw [hread] at hrun
      cases hrun
  | ok p =>
      obtain ⟨y, rest⟩ := p
      rw [hread] at hrun
      have hrun : (if rest.all isSpace then Except.ok y else Except.error ReadError.malformed) =
          .ok x := hrun
      split at hrun
      · cases hrun
        exact h.of_ok _ _ _ hread
      · cases hrun

end Reader
end Json
end Contracts
