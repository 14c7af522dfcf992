import Contracts.Proofs.Signature.Reading

/-!
# Written parameters

A parameter is written as a binding, which is a name with its modifiers, and then a type or a
default if it has one.  The type and the default are any text whose brackets match and that
holds no comma outside them.  What such a text binds is exactly the name.
-/

namespace Contracts
namespace Signature

/-!
# Bindings

A name is written after at most one modifier, and a question mark may follow it.
-/

/-- The name that only receivers have. -/
def selfName : List Char :=
  ['s', 'e', 'l', 'f']

/-- What may be written before the name of a parameter. -/
inductive Modifier where
  | none
  | mutable
  | byReference
  | byMutableReference
  /-- The parameter takes all further arguments. -/
  | rest
deriving DecidableEq

def Modifier.text : Modifier -> List Char
  | none =>
      []
  | mutable =>
      ['m', 'u', 't', ' ']
  | byReference =>
      ['r', 'e', 'f', ' ']
  | byMutableReference =>
      ['r', 'e', 'f', ' ', 'm', 'u', 't', ' ']
  | rest =>
      ['.', '.', '.']

/-- A name as a parameter binds it; `self` is kept for receivers. -/
structure Binding where
  modifier : Modifier
  name : List Char
  optional : Bool
  isIdentifier_name : Text.isIdentifier name = true
  name_ne_self : name ≠ selfName

namespace Binding

/-- The name with the question mark of an optional parameter. -/
def word (b : Binding) : List Char :=
  b.name ++ (if b.optional then ['?'] else [])

def text (b : Binding) : List Char :=
  b.modifier.text ++ b.word

theorem word_ne_nil (b : Binding) : b.word ≠ [] := by
  rcases Text.exists_cons_of_isIdentifier b.isIdentifier_name with ⟨c, rest, hname, _⟩
  simp [word, hname]

theorem word_ne_self (b : Binding) : b.word ≠ selfName := by
  cases hoptional : b.optional with
  | false =>
      simpa [word, hoptional] using b.name_ne_self
  | true =>
      intro hself
      have hmem : '?' ∈ b.word := by simp [word, hoptional]
      rw [hself] at hmem
      simp [selfName] at hmem

/-- A word has identifier characters and a question mark, so what holds of these holds of it. -/
theorem forall_mem_word (b : Binding) {p : Char -> Prop}
    (hname : forall c, Text.continuesIdentifier c = true -> p c) (hmark : p '?') :
    forall c, c ∈ b.word -> p c := by
  intro c hc
  rcases List.mem_append.mp hc with hc | hc
  · exact hname c (Text.continuesIdentifier_of_mem b.isIdentifier_name hc)
  · cases hoptional : b.optional with
    | false =>
        simp [hoptional] at hc
    | true =>
        have hq : c = '?' := by simpa [hoptional] using hc
        rw [hq]
        exact hmark

theorem ne_of_mem_word (b : Binding) {c d : Char} (hc : c ∈ b.word)
    (hd : Text.continuesIdentifier d = false) (hmark : d ≠ '?') : c ≠ d :=
  b.forall_mem_word (fun _ he => Text.ne_of_test he hd) hmark.symm c hc

theorem isBlank_of_mem_word (b : Binding) : forall c, c ∈ b.word -> Text.isBlank c = false :=
  b.forall_mem_word (fun _ hc => Text.isBlank_eq_false_of_continuesIdentifier hc) (by decide)

theorem ordinary_text (b : Binding) : forall c, c ∈ b.text -> Ordinary c := by
  intro c hc
  rcases List.mem_append.mp hc with hc | hc
  · have hmodifier : forall d, d ∈ b.modifier.text -> Ordinary d := by
      apply ordinary_of_all
      cases b.modifier <;> rfl
    exact hmodifier c hc
  · have hmark : Ordinary '?' := by
      unfold Ordinary
      decide
    exact b.forall_mem_word (fun _ hd => ordinary_of_continuesIdentifier hd) hmark c hc

theorem exists_head_text (b : Binding) :
    exists c rest, b.text = c :: rest ∧ Text.isBlank c = false := by
  rcases Text.exists_cons_of_isIdentifier b.isIdentifier_name with ⟨c, rest, hname, hc⟩
  have hblank := Text.isBlank_eq_false_of_continuesIdentifier hc
  unfold text word
  rw [hname]
  cases b.modifier with
  | none =>
      exact ⟨c, _, rfl, hblank⟩
  | mutable =>
      exact ⟨'m', _, rfl, by decide⟩
  | byReference =>
      exact ⟨'r', _, rfl, by decide⟩
  | byMutableReference =>
      exact ⟨'r', _, rfl, by decide⟩
  | rest =>
      exact ⟨'.', _, rfl, by decide⟩

theorem trimEnd_text (b : Binding) : Text.trimEnd b.text = b.text :=
  Text.trimEnd_append_word b.word_ne_nil b.isBlank_of_mem_word b.modifier.text

theorem trim_text_append (b : Binding) {blanks : List Char}
    (h : forall c, c ∈ blanks -> Text.isBlank c = true) :
    Text.trim (b.text ++ blanks) = b.text := by
  rcases b.exists_head_text with ⟨c, rest, htext, hc⟩
  have hhead : b.text.head? = some c := by rw [htext, List.head?_cons]
  have hnone : forall x, x ∈ ([] : List Char) -> Text.isBlank x = true := by simp
  have htrim := Text.trim_padded hhead hc hnone h
  rw [List.nil_append, trimEnd_text] at htrim
  exact htrim

/-!
## Reading a binding

The modifiers are taken off in one order, whichever are there.  None of them is taken off a
bare name: two of them end in a blank, and no name starts with a dot.
-/

theorem dropWord_of_blank {w text : List Char} (hw : ' ' ∈ w) (h : ' ' ∉ text) :
    dropWord w text = text := by
  cases hprefix : w.isPrefixOf text with
  | false =>
      simp [dropWord, hprefix]
  | true =>
      have hsubset := (List.isPrefixOf_iff_prefix.mp hprefix).subset
      exact absurd (hsubset hw) h

theorem blank_not_mem_word (b : Binding) : ' ' ∉ b.word := by
  intro hmem
  have hblank : Text.isBlank ' ' = false := b.isBlank_of_mem_word ' ' hmem
  cases hblank

theorem trimStart_word (b : Binding) : Text.trimStart b.word = b.word := by
  rcases List.exists_cons_of_ne_nil b.word_ne_nil with ⟨c, rest, hword⟩
  have hc : Text.isBlank c = false := b.isBlank_of_mem_word c (by simp [hword])
  rw [hword, Text.trimStart_cons hc]

theorem dropWord_dots_word (b : Binding) : dropWord ['.', '.', '.'] b.word = b.word := by
  rcases List.exists_cons_of_ne_nil b.word_ne_nil with ⟨c, rest, hword⟩
  have hc : c ≠ '.' := b.ne_of_mem_word (by simp [hword]) rfl (by decide)
  rw [hword]
  simp [dropWord, List.isPrefixOf, hc.symm]

theorem dropWord_ref_word (b : Binding) : dropWord ['r', 'e', 'f', ' '] b.word = b.word :=
  dropWord_of_blank (by decide) b.blank_not_mem_word

theorem dropWord_mut_word (b : Binding) : dropWord ['m', 'u', 't', ' '] b.word = b.word :=
  dropWord_of_blank (by decide) b.blank_not_mem_word

theorem unmark_word (b : Binding) :
    (if b.word.getLast? = some '?' then b.word.dropLast else b.word) = b.name := by
  cases hoptional : b.optional with
  | false =>
      have hlast : b.name.getLast? ≠ some '?' := by
        intro hlast
        have hmem := List.mem_of_getLast? hlast
        exact Text.ne_of_test (Text.continuesIdentifier_of_mem b.isIdentifier_name hmem) rfl rfl
      simp [word, hoptional, hlast]
  | true =>
      simp [word, hoptional]

theorem bound_text (b : Binding) : bound b.text = b.name := by
  unfold bound text
  cases b.modifier with
  | none =>
      simp only [Modifier.text, List.nil_append, b.dropWord_dots_word, b.trimStart_word,
        b.dropWord_ref_word, b.dropWord_mut_word, b.unmark_word]
  | mutable =>
      have hdots : dropWord ['.', '.', '.'] (Modifier.mutable.text ++ b.word) =
          Modifier.mutable.text ++ b.word := rfl
      have hstart : Text.trimStart (Modifier.mutable.text ++ b.word) =
          Modifier.mutable.text ++ b.word := rfl
      have href : dropWord ['r', 'e', 'f', ' '] (Modifier.mutable.text ++ b.word) =
          Modifier.mutable.text ++ b.word := rfl
      have hmut : dropWord ['m', 'u', 't', ' '] (Modifier.mutable.text ++ b.word) = b.word := rfl
      simp only [hdots, hstart, href, hmut, b.trimStart_word, b.unmark_word]
  | byReference =>
      have hdots : dropWord ['.', '.', '.'] (Modifier.byReference.text ++ b.word) =
          Modifier.byReference.text ++ b.word := rfl
      have hstart : Text.trimStart (Modifier.byReference.text ++ b.word) =
          Modifier.byReference.text ++ b.word := rfl
      have href : dropWord ['r', 'e', 'f', ' '] (Modifier.byReference.text ++ b.word) =
          b.word := rfl
      simp only [hdots, hstart, href, b.trimStart_word, b.dropWord_mut_word, b.unmark_word]
  | byMutableReference =>
      have hdots : dropWord ['.', '.', '.'] (Modifier.byMutableReference.text ++ b.word) =
          Modifier.byMutableReference.text ++ b.word := rfl
      have hstart : Text.trimStart (Modifier.byMutableReference.text ++ b.word) =
          Modifier.byMutableReference.text ++ b.word := rfl
      have href : dropWord ['r', 'e', 'f', ' '] (Modifier.byMutableReference.text ++ b.word) =
          Modifier.mutable.text ++ b.word := rfl
      have hstart' : Text.trimStart (Modifier.mutable.text ++ b.word) =
          Modifier.mutable.text ++ b.word := rfl
      have hmut : dropWord ['m', 'u', 't', ' '] (Modifier.mutable.text ++ b.word) = b.word := rfl
      simp only [hdots, hstart, href, hstart', hmut, b.trimStart_word, b.unmark_word]
  | rest =>
      have hdots : dropWord ['.', '.', '.'] (Modifier.rest.text ++ b.word) = b.word := rfl
      simp only [hdots, b.trimStart_word, b.dropWord_ref_word, b.dropWord_mut_word,
        b.unmark_word]

theorem isReceiver_eq_false {front : List Char}
    (h : selfName ∉ Text.splitBy (fun c => c == '&' || Text.isBlank c) front) :
    isReceiver front = false := by
  cases hreceiver : isReceiver front with
  | false =>
      rfl
  | true =>
      have hnamed := eq_of_beq hreceiver
      have hmem : selfName ∈ [selfName] := List.mem_singleton_self _
      rw [show [selfName] = _ from hnamed.symm] at hmem
      exact absurd (List.mem_filter.mp hmem).1 h

theorem splitBy_text (b : Binding) :
    Text.splitBy (fun c => c == '&' || Text.isBlank c) b.text =
      match b.modifier with
      | .none =>
          [b.word]
      | .mutable =>
          [['m', 'u', 't'], b.word]
      | .byReference =>
          [['r', 'e', 'f'], b.word]
      | .byMutableReference =>
          [['r', 'e', 'f'], ['m', 'u', 't'], b.word]
      | .rest =>
          [['.', '.', '.'] ++ b.word] := by
  have hkeep : forall c, c ∈ b.word -> (c == '&' || Text.isBlank c) = false := by
    intro c hc
    have hamp : c ≠ '&' := b.ne_of_mem_word hc rfl (by decide)
    simp [hamp, b.isBlank_of_mem_word c hc]
  have hword := Text.splitBy_of_forall hkeep
  have hblank : (' ' == '&' || Text.isBlank ' ') = true := by decide
  have hnone : forall {w : List Char}, w.any (fun c => c == '&' || Text.isBlank c) = false ->
      forall c, c ∈ w -> (c == '&' || Text.isBlank c) = false :=
    fun h c hc => Bool.eq_false_iff.mpr (List.any_eq_false.mp h c hc)
  have hmut := hnone (w := ['m', 'u', 't']) rfl
  have href := hnone (w := ['r', 'e', 'f']) rfl
  have hdots := hnone (w := ['.', '.', '.']) rfl
  unfold text
  cases b.modifier with
  | none =>
      exact hword
  | mutable =>
      have hcut := Text.splitBy_append_cons hmut hblank b.word
      rw [hword] at hcut
      exact hcut
  | byReference =>
      have hcut := Text.splitBy_append_cons href hblank b.word
      rw [hword] at hcut
      exact hcut
  | byMutableReference =>
      have hinner := Text.splitBy_append_cons hmut hblank b.word
      have hcut := Text.splitBy_append_cons href hblank (['m', 'u', 't'] ++ ' ' :: b.word)
      rw [hinner, hword] at hcut
      exact hcut
  | rest =>
      apply Text.splitBy_of_forall
      intro c hc
      rcases List.mem_append.mp hc with hc | hc
      · exact hdots c hc
      · exact hkeep c hc

theorem isReceiver_text (b : Binding) : isReceiver b.text = false := by
  apply isReceiver_eq_false
  rw [splitBy_text]
  have hword := b.word_ne_self.symm
  have hmut : selfName ≠ ['m', 'u', 't'] := by decide
  have href : selfName ≠ ['r', 'e', 'f'] := by decide
  have hdots : selfName ≠ ['.', '.', '.'] ++ b.word := by
    intro heq
    cases heq
  cases b.modifier with
  | none =>
      simpa using hword
  | mutable =>
      simp [hmut, hword]
  | byReference =>
      simp [href, hword]
  | byMutableReference =>
      simp [href, hmut, hword]
  | rest =>
      simpa using hdots

end Binding

/-!
# Parameters

A type follows its binding after a colon, a default after an equals sign.  These are the first
such signs outside brackets, so they end the head of the parameter, whatever follows.
-/

/-- What a parameter says after its binding. -/
inductive Attachment where
  | none
  | typed (text : List Char) (enclosed : Enclosed text)
  | defaulted (text : List Char) (enclosed : Enclosed text)

def Attachment.text : Attachment -> List Char
  | none =>
      []
  | typed text _ =>
      ':' :: ' ' :: text
  | defaulted text _ =>
      ' ' :: '=' :: ' ' :: text

structure Parameter extends Binding where
  attachment : Attachment

namespace Parameter

def text (p : Parameter) : List Char :=
  p.toBinding.text ++ p.attachment.text

theorem enclosed_sign {front text : List Char} (hfront : forall c, c ∈ front -> Ordinary c)
    {stop : Char} (hstop : stop = ':' ∨ stop = '=') (htext : Enclosed text) :
    Enclosed (front ++ stop :: ' ' :: text) := by
  have hassoc : front ++ stop :: ' ' :: text = (front ++ [stop, ' ']) ++ text := by simp
  rw [hassoc]
  apply enclosed_append
  · intro c hc
    rcases List.mem_append.mp hc with hc | hc
    · exact ⟨(hfront c hc).1, (hfront c hc).2.2.2⟩
    · have hsign : isPlain stop = true ∧ stop ≠ ',' := by
        rcases hstop with rfl | rfl <;> decide
      rcases List.mem_cons.mp hc with rfl | hc
      · exact hsign
      · rw [List.mem_singleton.mp hc]
        decide
  · rw [lastOf_append]
    exact detached_blank
  · exact htext

theorem ordinary_text_blank (b : Binding) : forall c, c ∈ b.text ++ [' '] -> Ordinary c := by
  intro c hc
  rcases List.mem_append.mp hc with hc | hc
  · exact b.ordinary_text c hc
  · rw [List.mem_singleton.mp hc]
    exact ordinary_of_isBlank (by decide)

theorem text_defaulted (b : Binding) (text : List Char) :
    b.text ++ ' ' :: '=' :: ' ' :: text = (b.text ++ [' ']) ++ '=' :: ' ' :: text := by
  simp

theorem enclosed_text (p : Parameter) : Enclosed p.text := by
  unfold text
  cases p.attachment with
  | none =>
      rw [Attachment.text, List.append_nil]
      exact enclosed_of_ordinary p.toBinding.ordinary_text
  | typed text enclosed =>
      exact enclosed_sign p.toBinding.ordinary_text (Or.inl rfl) enclosed
  | defaulted text enclosed =>
      rw [Attachment.text, text_defaulted]
      exact enclosed_sign (ordinary_text_blank p.toBinding) (Or.inr rfl) enclosed

/-- What the head of a parameter is when a type or a default follows it. -/
theorem head_trimEnd_of_sign {front text : List Char} {b : Binding}
    (hfront : forall c, c ∈ front -> Ordinary c) (htrim : Text.trim front = b.text)
    {stop : Char} (hstop : stop = ':' ∨ stop = '=') (htext : Enclosed text) :
    head (Text.trimEnd (front ++ stop :: ' ' :: text)) = .ok b.text := by
  have hblank : Text.isBlank stop = false := by
    rcases hstop with rfl | rfl <;> decide
  rcases enclosed_sign hfront hstop htext with ⟨marks, hmarks, _⟩
  have haccepted := scan_strict_trimEnd hmarks
  rw [Text.trimEnd_append_cons hblank] at haccepted ⊢
  rw [head_of_stop hfront hstop haccepted, htrim]

theorem head_trimEnd_text (p : Parameter) :
    head (Text.trimEnd p.text) = .ok p.toBinding.text := by
  have hbare : Text.trim p.toBinding.text = p.toBinding.text := by
    have hnone : forall c, c ∈ ([] : List Char) -> Text.isBlank c = true := by simp
    have htrim := p.toBinding.trim_text_append hnone
    rwa [List.append_nil] at htrim
  unfold text
  cases p.attachment with
  | none =>
      rw [Attachment.text, List.append_nil, Binding.trimEnd_text]
      rw [head_of_ordinary p.toBinding.ordinary_text, hbare]
  | typed text enclosed =>
      exact head_trimEnd_of_sign p.toBinding.ordinary_text hbare (Or.inl rfl) enclosed
  | defaulted text enclosed =>
      have hblank : Text.trim (p.toBinding.text ++ [' ']) = p.toBinding.text :=
        p.toBinding.trim_text_append (List.forall_mem_singleton.mpr rfl)
      rw [Attachment.text, text_defaulted]
      exact head_trimEnd_of_sign (ordinary_text_blank p.toBinding) hblank (Or.inr rfl) enclosed

theorem exists_head_text (p : Parameter) :
    exists c, p.text.head? = some c ∧ Text.isBlank c = false := by
  rcases p.toBinding.exists_head_text with ⟨c, rest, htext, hc⟩
  refine ⟨c, ?_, hc⟩
  rw [text, htext]
  rfl

/-- A parameter binds its name, whatever its type or default says. -/
theorem binds_padded (p : Parameter) {before after : List Char}
    (hbefore : forall c, c ∈ before -> Text.isBlank c = true)
    (hafter : forall c, c ∈ after -> Text.isBlank c = true) :
    Binds (before ++ (p.text ++ after)) (some p.name) := by
  rcases p.exists_head_text with ⟨c, hhead, hc⟩
  have htrim := Text.trim_padded hhead hc hbefore hafter
  constructor
  · rw [htrim]
    rcases List.head?_eq_some_iff.mp hhead with ⟨rest, htext⟩
    have hend := Text.trimEnd_append_cons hc [] rest
    rw [List.nil_append, ← htext] at hend
    rw [hend]
    exact List.cons_ne_nil c _
  · intro position
    rw [htrim]
    exact parameterName_of_bound p.head_trimEnd_text p.toBinding.isReceiver_text
      p.toBinding.bound_text p.isIdentifier_name position

end Parameter

end Signature
end Contracts
