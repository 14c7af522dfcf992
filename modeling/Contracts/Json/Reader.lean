import Contracts.Binary64.Scaling
import Contracts.Json.ReadError

/-!
# Reading JSON

A reader takes what it needs from the front of a text and leaves the rest; the first problem in
reading order is its error.  Blanks before a value belong to the value.

Arrays and objects may nest only so deep: a reader of values is given the number of levels that
may still open, and recurs on it.  Lists of items are read with a bound on their number, the
length of the text, which no list exceeds.
-/

namespace Contracts
namespace Json

/-- A reader of the front of a text. -/
abbrev Reader := StateT (List Char) (Except ReadError)

/-- How many arrays and objects may be open at one time. -/
def nestingLimit : Nat := 127

namespace Reader

variable {α : Type}

/-- Blanks between the tokens of a document. -/
def isSpace (c : Char) : Bool :=
  c == ' ' || c == '\n' || c == '\t' || c == '\r'

def spaces : Reader Unit := fun text =>
  .ok ((), text.dropWhile isSpace)

/-- The next character, which stays in the text. -/
def peek : Reader Char := fun text =>
  match text with
  | [] =>
      .error .endOfText
  | c :: _ =>
      .ok (c, text)

/-- Takes the next character. -/
def next : Reader Char := fun text =>
  match text with
  | [] =>
      .error .endOfText
  | c :: rest =>
      .ok (c, rest)

/-- Takes the characters of a word. -/
def word : List Char -> Reader Unit
  | [] =>
      pure ()
  | c :: rest => do
      if (← next) = c then word rest else throw .malformed

/-- The next character after blanks, which stays in the text. -/
def peekToken : Reader Char := do
  spaces
  peek

/-- Takes one given character after blanks. -/
def token (c : Char) : Reader Unit := do
  spaces
  word [c]

/-! ## Numbers -/

/-- The parts of a number as written. -/
structure NumberText where
  negative : Bool
  whole : List Char
  fraction : Option (List Char)
  exponent : Option Int

/-- A nonempty list of digits; `short` is the error at the end of the text. -/
def digits (short : ReadError) : Reader (List Char) := fun text =>
  match text with
  | [] =>
      .error short
  | c :: _ =>
      if c.isDigit then .ok (text.takeWhile Char.isDigit, text.dropWhile Char.isDigit)
      else .error .malformed

/-- Takes the next character if it satisfies a condition. -/
def optional (p : Char -> Bool) : Reader (Option Char) := fun text =>
  match text with
  | [] =>
      .ok (none, [])
  | c :: rest =>
      if p c then .ok (some c, rest) else .ok (none, text)

/-- The digits before the point: a zero stands alone. -/
def wholeDigits (short : ReadError) : Reader (List Char) := do
  let ds ← digits short
  if ds.head? = some '0' && ds.length != 1 then throw .malformed
  return ds

def fractionDigits (short : ReadError) : Reader (Option (List Char)) := do
  match ← optional (· == '.') with
  | none =>
      return none
  | some _ =>
      return some (← digits short)

/-- The exponent, if its mark is there. -/
def exponentPart (short : ReadError) : Reader (Option Int) := do
  match ← optional (fun c => c == 'e' || c == 'E') with
  | none =>
      return none
  | some _ =>
      let sign ← optional (fun c => c == '+' || c == '-')
      let ds ← digits short
      let n : Int := Decimal.ofDigits ds
      return some (if sign = some '-' then -n else n)

def numberText (short : ReadError) : Reader NumberText := do
  let sign ← optional (· == '-')
  let whole ← wholeDigits short
  let fraction ← fractionDigits short
  let exponent ← exponentPart short
  return ⟨sign.isSome, whole, fraction, exponent⟩

/-- What a number in a document is: an integer of 64 bits, with or without sign, or a double. -/
inductive Number where
  | integer (n : Int)
  | float (x : Binary64)

/-- The double that a number text is read as, if it is in range. -/
def NumberText.float? (t : NumberText) : Option Binary64 :=
  (Magnitude.ofScaled? t.whole (t.fraction.getD []) (t.exponent.getD 0)).map
    (.number t.negative)

/-- The first integer beyond 64 bits with sign. -/
def signedLimit : Nat := 0x8000000000000000

/-- The integer that a number text spells: it has neither point nor exponent, is not negative
zero, and fits 64 bits. -/
def NumberText.integer? (t : NumberText) : Option Int :=
  let n := Decimal.ofDigits t.whole
  if t.fraction.isSome || t.exponent.isSome then none
  else if t.negative then
    if n = 0 || signedLimit < n then none else some (-(n : Int))
  else if n < Decimal.wordLimit then some n
  else none

/-- A number; one beyond the range of doubles is malformed. -/
def number : Reader Number := do
  let t ← numberText .endOfText
  match t.integer? with
  | some n =>
      return .integer n
  | none =>
      match t.float? with
      | some x =>
          return .float x
      | none =>
          throw .malformed

/-- An integer beyond 64 bits with sign is a double. -/
def Number.toJson : Number -> Json
  | integer n =>
      if n < signedLimit then .int n else .float (.ofInt n)
  | float x =>
      .float x

def Number.found : Number -> Found
  | integer n =>
      .integer n
  | float x =>
      .number x

/-! ## Texts -/

def hexValue? (c : Char) : Option Nat :=
  if '0' <= c && c <= '9' then some (c.toNat - '0'.toNat)
  else if 'a' <= c && c <= 'f' then some (c.toNat - 'a'.toNat + 10)
  else if 'A' <= c && c <= 'F' then some (c.toNat - 'A'.toNat + 10)
  else none

/-- Four hexadecimal digits as one number. -/
def hexUnit? (a b c d : Char) : Option Nat := do
  let high := 16 * (← hexValue? a) + (← hexValue? b)
  let low := 16 * (← hexValue? c) + (← hexValue? d)
  return 256 * high + low

/-- The error for an escape whose four digits are not there: the text ends too early when fewer
than four bytes follow. -/
def shortEscape (rest : List Char) : ReadError :=
  if (String.ofList rest).utf8ByteSize < 4 then .endOfText else .malformed

/-- Whether a 16-bit unit is the first half of a pair. -/
def isLeading (unit : Nat) : Bool :=
  0xD800 <= unit && unit <= 0xDBFF

/-- Whether a 16-bit unit is the second half of a pair. -/
def isTrailing (unit : Nat) : Bool :=
  0xDC00 <= unit && unit <= 0xDFFF

/-- The character of a pair of units. -/
def pairChar (leading trailing : Nat) : Char :=
  Char.ofNat ((leading - 0xD800) * 1024 + (trailing - 0xDC00) + 0x10000)

/-- The character that a single letter after a backslash stands for. -/
def escapedChar? : Char -> Option Char
  | '"' =>
      some '"'
  | '\\' =>
      some '\\'
  | '/' =>
      some '/'
  | 'b' =>
      some '\x08'
  | 'f' =>
      some '\x0c'
  | 'n' =>
      some '\n'
  | 'r' =>
      some '\r'
  | 't' =>
      some '\t'
  | _ =>
      none

/-- Adds a character to what is read after it. -/
def consChar (c : Char) :
    Except ReadError (List Char × List Char) -> Except ReadError (List Char × List Char)
  | .ok (cs, rest) =>
      .ok (c :: cs, rest)
  | .error e =>
      .error e

/-- The characters up to the closing quote, and the rest.  When `paired` is set, an escape that
is half of a pair must stand with its other half; otherwise halves are passed over. -/
def stringBody (paired : Bool) : List Char -> Except ReadError (List Char × List Char)
  | [] =>
      .error .endOfText
  | '\\' :: 'u' :: a :: b :: c :: d :: rest =>
      match hexUnit? a b c d with
      | none =>
          .error .malformed
      | some unit =>
          if !paired then
            stringBody paired rest
          else if isTrailing unit then .error .malformed
          else if isLeading unit then
            match rest with
            | [] =>
                .error .endOfText
            | ['\\'] =>
                .error .endOfText
            | '\\' :: 'u' :: e :: f :: g :: h :: rest =>
                match hexUnit? e f g h with
                | none =>
                    .error .malformed
                | some second =>
                    if isTrailing second then
                      consChar (pairChar unit second) (stringBody paired rest)
                    else .error .malformed
            | '\\' :: 'u' :: rest =>
                .error (shortEscape rest)
            | _ =>
                .error .malformed
          else consChar (Char.ofNat unit) (stringBody paired rest)
  | '\\' :: 'u' :: rest =>
      .error (shortEscape rest)
  | ['\\'] =>
      .error .endOfText
  | '\\' :: c :: rest =>
      match escapedChar? c with
      | none =>
          .error .malformed
      | some e =>
          consChar e (stringBody paired rest)
  | c :: rest =>
      if c = '"' then .ok ([], rest)
      else if c.toNat < 32 then .error .malformed
      else consChar c (stringBody paired rest)

/-- The text after an opening quote. -/
def stringRest : Reader String := fun text =>
  match stringBody true text with
  | .ok (cs, rest) =>
      .ok (String.ofList cs, rest)
  | .error e =>
      .error e

/-! ## Lists -/

/-- Whether one more item stands before the closing bracket, which stays in the text.  After the
first item a comma has to stand before the next one. -/
def another (close : Char) (first : Bool) : Reader Bool := do
  let c ← peekToken
  if c = close then return false
  if first then return true
  if c != ',' then throw .malformed
  let _ ← next
  if (← peekToken) = close then throw .malformed
  return true

/-- Items up to the closing bracket, at most so many. -/
def items (read : Reader α) (close : Char) : Nat -> Bool -> Reader (List α)
  | 0, _ =>
      throw .malformed
  | bound + 1, first => do
      if ← another close first then
        let x ← read
        let xs ← items read close bound false
        return x :: xs
      else return []

def list (read : Reader α) (close : Char) : Reader (List α) := do
  let text ← get
  let xs ← items read close (text.length + 1) true
  token close
  return xs

/-- A key and the colon after it. -/
def key : Reader String := do
  token '"'
  let k ← stringRest
  token ':'
  return k

/-! ## Values -/

/-- A value, where `inner` reads the values inside arrays and objects if these may nest. -/
def valueWith (inner : Option (Reader Json)) : Reader Json := do
  let c ← peekToken
  if c = 'n' then
    word ['n', 'u', 'l', 'l']
    return .null
  else if c = 't' then
    word ['t', 'r', 'u', 'e']
    return .bool true
  else if c = 'f' then
    word ['f', 'a', 'l', 's', 'e']
    return .bool false
  else if c = '-' || c.isDigit then
    return (← number).toJson
  else if c = '"' then
    let _ ← next
    return .str (← stringRest)
  else if c = '[' then
    match inner with
    | none =>
        throw .malformed
    | some read =>
        let _ ← next
        return .array (← list read ']')
  else if c = '\x7b' then
    match inner with
    | none =>
        throw .malformed
    | some read =>
        let _ ← next
        let entries ← list (do return (← key, ← read)) '\x7d'
        return .object (sortEntries entries)
  else throw .malformed

/-- A value in which so many arrays and objects may nest. -/
def value : Nat -> Reader Json
  | 0 =>
      valueWith none
  | room + 1 =>
      valueWith (some (value room))

/-! ## Whole texts -/

/-- Reads a whole text, after which only blanks may follow. -/
def run (read : Reader α) (text : String) : Except ReadError α := do
  let (x, rest) ← read text.toList
  if rest.all isSpace then return x else throw .malformed

end Reader

def read (text : String) : Except ReadError Json :=
  Reader.run (Reader.value nestingLimit) text

end Json
end Contracts
