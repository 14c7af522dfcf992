import Contracts.Proofs.Json.Reading

/-!
# Texts written and read

A text that is written with its escapes is read back character by character: the reader takes
the escape of one character as that character, whatever stands behind it.
-/

namespace Contracts
namespace Json
namespace Reader

theorem hexUnit?_of_control {n : Nat} (h : n < 32) :
    hexUnit? '0' '0' (hexDigit (n / 16)) (hexDigit (n % 16)) = some n := by
  have hall : forall m, m < 32 ->
      hexUnit? '0' '0' (hexDigit (m / 16)) (hexDigit (m % 16)) = some m := by decide
  exact hall n h

theorem stringBody_control {c : Char} (h : c.toNat < 32) (rest : List Char) :
    stringBody true
      ('\\' :: 'u' :: '0' :: '0' :: hexDigit (c.toNat / 16) :: hexDigit (c.toNat % 16) :: rest) =
      consChar c (stringBody true rest) := by
  have htrailing : isTrailing c.toNat = false := by
    unfold isTrailing
    simp
    omega
  have hleading : isLeading c.toNat = false := by
    unfold isLeading
    simp
    omega
  rw [stringBody, hexUnit?_of_control h]
  simp [htrailing, hleading]

theorem stringBody_plain {c : Char} (hquote : c ≠ '"') (hslash : c ≠ '\\')
    (hcontrol : ¬ c.toNat < 32) (rest : List Char) :
    stringBody true (c :: rest) = consChar c (stringBody true rest) := by
  rw [stringBody.eq_def]
  split
  case h_6 d tail heq =>
    obtain ⟨rfl, rfl⟩ := List.cons.inj heq
    rw [if_neg hquote, if_neg hcontrol]
  -- Every other case is that of an escape or of the end of the text.
  all_goals simp_all

theorem stringBody_escapeChar (c : Char) (rest : List Char) :
    stringBody true (escapeChar c ++ rest) = consChar c (stringBody true rest) := by
  unfold escapeChar
  split
  · rename_i h
    rw [h]
    rfl
  split
  · rename_i h
    rw [h]
    rfl
  split
  · rename_i h
    rw [h]
    rfl
  split
  · rename_i h
    rw [h]
    rfl
  split
  · rename_i h
    rw [h]
    rfl
  split
  · rename_i h
    rw [h]
    rfl
  split
  · rename_i h
    rw [h]
    rfl
  split
  · rename_i h
    exact stringBody_control h rest
  · rename_i hquote hslash _ _ _ _ _ hcontrol
    exact stringBody_plain hquote hslash hcontrol rest

theorem stringBody_written (cs rest : List Char) :
    stringBody true (cs.flatMap escapeChar ++ '"' :: rest) = .ok (cs, rest) := by
  induction cs with
  | nil =>
      rfl
  | cons c cs ih =>
      rw [List.flatMap_cons, List.append_assoc, stringBody_escapeChar, ih]
      rfl

/-- What stands behind the opening quote of a written text. -/
theorem stringRest_written (s : String) (rest : List Char) :
    stringRest (s.toList.flatMap escapeChar ++ '"' :: rest) = .ok (s, rest) := by
  unfold stringRest
  rw [stringBody_written]
  show Except.ok (String.ofList s.toList, rest) = _
  rw [String.ofList_toList]

theorem writeString_append (s : String) (rest : List Char) :
    writeString s ++ rest = '"' :: (s.toList.flatMap escapeChar ++ '"' :: rest) := by
  unfold writeString
  rw [List.cons_append, List.cons_append, List.append_assoc]
  rfl

theorem key_written (name : String) (rest : List Char) :
    key (writeString name ++ ':' :: rest) = .ok (name, rest) := by
  unfold key
  rw [writeString_append, bind_of_ok (token_cons (by decide) _),
    bind_of_ok (stringRest_written name _), bind_of_ok (token_cons (by decide) _)]
  rfl

end Reader
end Json
end Contracts
