import Contracts.Binary64.Layout
import Contracts.Json.Basic

/-!
# JSON text

A document is written without any blanks, or set out over lines with two spaces for each level
of nesting.  In texts only quotes, backslashes and control characters are escaped.  A number
that JSON cannot express is written as `null`.
-/

namespace Contracts
namespace Json

/-- Numbers in JSON: positional from `0.00001` up to 16 digits before the point, whole numbers
with `.0`, and both zeros. -/
def numberLayout : Layout where
  tie := .even
  least := -5
  greatest := 15
  wholeSuffix := ['.', '0']
  signedZero := true

def hexDigit (n : Nat) : Char :=
  Nat.digitChar n

/-- One character inside a JSON text. -/
def escapeChar (c : Char) : List Char :=
  if c = '"' then ['\\', '"']
  else if c = '\\' then ['\\', '\\']
  else if c = '\x08' then ['\\', 'b']
  else if c = '\t' then ['\\', 't']
  else if c = '\n' then ['\\', 'n']
  else if c = '\x0c' then ['\\', 'f']
  else if c = '\r' then ['\\', 'r']
  else if c.toNat < 32 then
    ['\\', 'u', '0', '0', hexDigit (c.toNat / 16), hexDigit (c.toNat % 16)]
  else [c]

def writeString (s : String) : List Char :=
  '"' :: s.toList.flatMap escapeChar ++ ['"']

def writeFloat (x : Binary64) : List Char :=
  if x.isFinite then numberLayout.write x else ['n', 'u', 'l', 'l']

mutual

/-- A document without blanks. -/
def compact : Json -> List Char
  | null =>
      ['n', 'u', 'l', 'l']
  | bool b =>
      if b then ['t', 'r', 'u', 'e'] else ['f', 'a', 'l', 's', 'e']
  | int n =>
      Decimal.intDigits n
  | float x =>
      writeFloat x
  | str s =>
      writeString s
  | array items =>
      '[' :: compactItems items ++ [']']
  | object entries =>
      '\x7b' :: compactEntries entries ++ ['\x7d']

def compactItems : List Json -> List Char
  | [] =>
      []
  | [item] =>
      compact item
  | item :: next :: rest =>
      compact item ++ ',' :: compactItems (next :: rest)

def compactEntries : List (String × Json) -> List Char
  | [] =>
      []
  | [(key, value)] =>
      writeString key ++ ':' :: compact value
  | (key, value) :: next :: rest =>
      writeString key ++ ':' :: compact value ++ ',' :: compactEntries (next :: rest)

end

/-- A new line at a level of nesting. -/
def newLine (level : Nat) : List Char :=
  '\n' :: List.replicate (2 * level) ' '

mutual

/-- A document set out over lines, from a level of nesting on. -/
def pretty (level : Nat) : Json -> List Char
  | array [] =>
      ['[', ']']
  | array (item :: rest) =>
      '[' :: newLine (level + 1) ++ pretty (level + 1) item ++ prettyItems (level + 1) rest
        ++ newLine level ++ [']']
  | object [] =>
      ['\x7b', '\x7d']
  | object ((key, value) :: rest) =>
      '\x7b' :: newLine (level + 1) ++ writeString key ++ ':' :: ' ' :: pretty (level + 1) value
        ++ prettyEntries (level + 1) rest ++ newLine level ++ ['\x7d']
  | null =>
      compact null
  | bool b =>
      compact (bool b)
  | int n =>
      compact (int n)
  | float x =>
      compact (float x)
  | str s =>
      compact (str s)

/-- The items after the first one, each on its line. -/
def prettyItems (level : Nat) : List Json -> List Char
  | [] =>
      []
  | item :: rest =>
      ',' :: newLine level ++ pretty level item ++ prettyItems level rest

/-- The entries after the first one, each on its line. -/
def prettyEntries (level : Nat) : List (String × Json) -> List Char
  | [] =>
      []
  | (key, value) :: rest =>
      ',' :: newLine level ++ writeString key ++ ':' :: ' ' :: pretty level value
        ++ prettyEntries level rest

end

def text (json : Json) : String :=
  String.ofList json.compact

/-- The text of a document set out over lines. -/
def prettyText (json : Json) : String :=
  String.ofList (json.pretty 0)

end Json
end Contracts
