import Contracts.Proofs.Signature.Parameter

/-!
# Written headings

The heading of a function is its name and its parameter list, where a receiver may come first.
Any blanks may stand around a receiver or a parameter.  Reading a heading gives the names of its
parameters, in order, exactly as if they had been listed: nothing that is written about a
parameter hides it or another one.
-/

namespace Contracts
namespace Signature

/-!
# Items of a list
-/

/-- How a method takes its receiver. -/
inductive Receiver where
  | owned
  | mutable
  | shared
  | exclusive
deriving DecidableEq

def Receiver.text : Receiver -> List Char
  | owned =>
      selfName
  | mutable =>
      ['m', 'u', 't', ' '] ++ selfName
  | shared =>
      '&' :: selfName
  | exclusive =>
      ['&', 'm', 'u', 't', ' '] ++ selfName

namespace Receiver

theorem ordinary_text (r : Receiver) : forall c, c ∈ r.text -> Ordinary c := by
  apply ordinary_of_all
  cases r <;> rfl

theorem exists_head_text (r : Receiver) :
    exists c, r.text.head? = some c ∧ Text.isBlank c = false := by
  cases r with
  | owned =>
      exact ⟨'s', rfl, by decide⟩
  | mutable =>
      exact ⟨'m', rfl, by decide⟩
  | shared =>
      exact ⟨'&', rfl, by decide⟩
  | exclusive =>
      exact ⟨'&', rfl, by decide⟩

theorem trimEnd_text (r : Receiver) : Text.trimEnd r.text = r.text := by
  cases r <;> rfl

theorem trim_text (r : Receiver) : Text.trim r.text = r.text := by
  cases r <;> rfl

theorem isReceiver_text (r : Receiver) : isReceiver r.text = true := by
  cases r <;> rfl

theorem binds_padded (r : Receiver) {before after : List Char}
    (hbefore : forall c, c ∈ before -> Text.isBlank c = true)
    (hafter : forall c, c ∈ after -> Text.isBlank c = true) :
    Binds (before ++ (r.text ++ after)) none := by
  rcases r.exists_head_text with ⟨c, hhead, hc⟩
  have htrim := Text.trim_padded hhead hc hbefore hafter
  rw [trimEnd_text] at htrim
  have hhead' : head r.text = .ok r.text := by
    rw [head_of_ordinary r.ordinary_text, trim_text]
  constructor
  · rw [htrim]
    cases r <;> decide
  · intro position
    rw [htrim]
    exact parameterName_of_receiver hhead' r.isReceiver_text position

end Receiver

/-- Something written with blanks around it. -/
structure Padded (α : Type) where
  before : List Char
  item : α
  after : List Char
  isBlank_before : forall c, c ∈ before -> Text.isBlank c = true
  isBlank_after : forall c, c ∈ after -> Text.isBlank c = true

def Padded.map {α β : Type} (f : α -> β) (p : Padded α) : Padded β :=
  { p with item := f p.item }

/-- What stands between the commas of a list. -/
inductive Item where
  | receiver (r : Receiver)
  | parameter (p : Parameter)

namespace Item

def text : Item -> List Char
  | receiver r =>
      r.text
  | parameter p =>
      p.text

def name? : Item -> Option (List Char)
  | receiver _ =>
      none
  | parameter p =>
      some p.name

theorem enclosed_text (i : Item) : Enclosed i.text := by
  cases i with
  | receiver r =>
      exact enclosed_of_ordinary r.ordinary_text
  | parameter p =>
      exact p.enclosed_text

theorem binds_padded (i : Item) {before after : List Char}
    (hbefore : forall c, c ∈ before -> Text.isBlank c = true)
    (hafter : forall c, c ∈ after -> Text.isBlank c = true) :
    Binds (before ++ (i.text ++ after)) i.name? := by
  cases i with
  | receiver r =>
      exact r.binds_padded hbefore hafter
  | parameter p =>
      exact p.binds_padded hbefore hafter

theorem exists_head_text (i : Item) :
    exists c, i.text.head? = some c ∧ isPlain c = true := by
  have hmem : forall {t : List Char} {c : Char}, (forall d, d ∈ t -> Ordinary d) ->
      t.head? = some c -> isPlain c = true :=
    fun hordinary hhead => (hordinary _ (List.mem_of_head? hhead)).1
  cases i with
  | receiver r =>
      rcases r.exists_head_text with ⟨c, hhead, _⟩
      exact ⟨c, hhead, hmem r.ordinary_text hhead⟩
  | parameter p =>
      rcases p.toBinding.exists_head_text with ⟨c, rest, htext, _⟩
      have hhead : p.toBinding.text.head? = some c := by rw [htext, List.head?_cons]
      refine ⟨c, ?_, hmem p.toBinding.ordinary_text hhead⟩
      simp [text, Parameter.text, htext]

end Item

namespace Padded

def text (p : Padded Item) : List Char :=
  p.before ++ (p.item.text ++ p.after)

theorem head?_text_ne_quote (p : Padded Item) : p.text.head? ≠ some '\'' := by
  intro hquote
  have hplain : isPlain '\'' = true := by
    cases hbefore : p.before with
    | nil =>
        rcases p.item.exists_head_text with ⟨c, hhead, hc⟩
        rcases List.head?_eq_some_iff.mp hhead with ⟨rest, hrest⟩
        simp only [text, hbefore, hrest, List.nil_append, List.cons_append, List.head?_cons,
          Option.some.injEq] at hquote
        rwa [hquote] at hc
    | cons c rest =>
        simp only [text, hbefore, List.cons_append, List.head?_cons, Option.some.injEq] at hquote
        have hblank := p.isBlank_before c (by simp [hbefore])
        rw [hquote] at hblank
        exact isPlain_of_isBlank hblank
  cases hplain

theorem enclosed_text (p : Padded Item) : Enclosed p.text :=
  enclosed_padded p.item.enclosed_text p.isBlank_before p.isBlank_after

theorem binds_text (p : Padded Item) : Binds p.text p.item.name? :=
  p.item.binds_padded p.isBlank_before p.isBlank_after

end Padded

/-!
# Headings
-/

/-- A function heading. -/
structure Heading where
  name : List Char
  isIdentifier_name : Text.isIdentifier name = true
  receiver : Option (Padded Receiver)
  parameters : List (Padded Parameter)

namespace Heading

def items (h : Heading) : List (Padded Item) :=
  h.receiver.toList.map (Padded.map Item.receiver) ++
    h.parameters.map (Padded.map Item.parameter)

def lead (h : Heading) : List Char :=
  ['f', 'n', ' '] ++ h.name

def text (h : Heading) : String :=
  String.ofList (h.lead ++ '(' :: ([','].intercalate (h.items.map Padded.text) ++ [')']))

/-- The names of the parameters, in order. -/
def names (h : Heading) : List String :=
  h.parameters.map fun p => String.ofList p.item.name

theorem lead_lead (h : Heading) : Lead h.lead := by
  have hname : forall c, c ∈ h.name -> Ordinary c := by
    intro c hc
    exact ordinary_of_continuesIdentifier (Text.continuesIdentifier_of_mem h.isIdentifier_name hc)
  constructor
  · intro c hc
    rcases List.mem_append.mp hc with hc | hc
    · have hfn : ['f', 'n', ' '].all isPlain = true := rfl
      exact List.all_eq_true.mp hfn c hc
    · exact (hname c hc).1
  · intro hmem
    rcases List.mem_append.mp hmem with hmem | hmem
    · revert hmem
      decide
    · exact (hname '=' hmem).2.2.1 rfl
  · intro rest
    exact startsClosure_cons (by decide) (by decide) (by decide) _

theorem filterMap_items (h : Heading) :
    (h.items.filterMap fun p => p.item.name?).map String.ofList = h.names := by
  have hreceiver : (h.receiver.toList.map (Padded.map Item.receiver)).filterMap
      (fun p => p.item.name?) = [] := by
    cases h.receiver <;> rfl
  have hparameters : (h.parameters.map (Padded.map Item.parameter)).filterMap
      (fun p => p.item.name?) = h.parameters.map fun p => p.item.name := by
    rw [List.filterMap_map]
    exact congrFun (List.filterMap_eq_map (f := fun p => p.item.name)) h.parameters
  unfold items names
  rw [List.filterMap_append, hreceiver, hparameters, List.nil_append, List.map_map]
  rfl

theorem parameterNames_text (h : Heading) : parameterNames h.text = validate h.names := by
  cases hitems : h.items with
  | nil =>
      have hlist : scan .strict [] = some [] := rfl
      have hneutral : Neutral [')'] := neutral_cons (by decide) (by decide) (by simp)
      have hrest : scanFrom .lenient .code (some ')') [] [] = some [] := rfl
      have hextent := extent_of_strict h.lead_lead hlist hneutral hrest
      have hnames := h.filterMap_items
      rw [hitems] at hnames
      rw [← hnames]
      apply parameterNames_of_pieces
      · rw [text, hitems, String.toList_ofList]
        exact hextent
      · rfl
      · rfl
  | cons p rest =>
      have hne : h.items ≠ [] := by simp [hitems]
      rw [← filterMap_items]
      exact parameterNames_of_items h.lead_lead hne (fun i _ => i.enclosed_text)
        (fun i _ => i.head?_text_ne_quote) (fun i _ => i.binds_text)

theorem isIdentifier_of_mem_names (h : Heading) :
    forall n, n ∈ h.names -> Text.isIdentifier n.toList = true := by
  intro n hn
  rcases List.mem_map.mp hn with ⟨p, _, rfl⟩
  rw [String.toList_ofList]
  exact p.item.isIdentifier_name

/-- The names of a heading are those of its parameters, read as if they were listed: all of
them in order, or the first that repeats as an error. -/
theorem names_declared_text (h : Heading) :
    (Contracts.Signature.declared h.text).names = (Contracts.Signature.listed h.names).names ∧
      (h.names.Nodup ∧ (Contracts.Signature.declared h.text).names = .ok h.names ∨
        exists front name back, h.names = front ++ name :: back ∧ front.Nodup ∧ name ∈ front ∧
          (Contracts.Signature.declared h.text).names = .error (.duplicateName name)) := by
  have hread : (Contracts.Signature.declared h.text).names = validate h.names :=
    h.parameterNames_text
  have hidentifier := h.isIdentifier_of_mem_names
  constructor
  · exact hread
  · rw [hread]
    rcases nodup_or_repeat h.names with hnodup | ⟨front, name, back, hnames, hnodup, hname⟩
    · exact Or.inl ⟨hnodup, validate_of_nodup hidentifier hnodup⟩
    · refine Or.inr ⟨front, name, back, hnames, hnodup, hname, ?_⟩
      rw [hnames] at hidentifier ⊢
      have hfront : forall n, n ∈ front -> Text.isIdentifier n.toList = true :=
        fun n hn => hidentifier n (List.mem_append_left _ hn)
      exact validate_of_repeat hfront hnodup hname

example : exists h : Heading,
    h.text = "fn g(&mut self, mut a?: M<K,V>)" ∧ h.names = ["a"] := by
  have henclosed : Enclosed ['M', '<', 'K', ',', 'V', '>'] := ⟨_, rfl, by decide⟩
  have hspace : forall c, c ∈ [' '] -> Text.isBlank c = true := List.forall_mem_singleton.mpr rfl
  let binding : Binding := ⟨.mutable, ['a'], true, rfl, by decide⟩
  let receiver : Padded Receiver := ⟨[], .exclusive, [], by simp, by simp⟩
  let parameter : Padded Parameter := ⟨[' '], ⟨binding, .typed _ henclosed⟩, [], hspace, by simp⟩
  exact ⟨⟨['g'], rfl, some receiver, [parameter]⟩, rfl, rfl⟩

end Heading

end Signature
end Contracts
