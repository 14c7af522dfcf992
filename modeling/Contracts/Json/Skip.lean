import Contracts.Json.Reader

/-!
# Passing over a value

The value of a field that nobody asked for has to be well formed, but it is not built: its
numbers may have any size, its texts may hold halves of pairs, and it may nest to any depth.
The open brackets are kept in a list, innermost first.
-/

namespace Contracts
namespace Json
namespace Reader

/-- Passes over a text after its opening quote. -/
def skipString : Reader Unit := fun text =>
  match stringBody false text with
  | .ok (_, rest) =>
      .ok ((), rest)
  | .error e =>
      .error e

/-- Passes over a value that is no array or object, or opens one and names its closing
bracket. -/
def skipToken : Reader (Option Char) := do
  let c ← peekToken
  if c = 'n' then
    word ['n', 'u', 'l', 'l']
    return none
  else if c = 't' then
    word ['t', 'r', 'u', 'e']
    return none
  else if c = 'f' then
    word ['f', 'a', 'l', 's', 'e']
    return none
  else if c = '-' || c.isDigit then
    let _ ← numberText .malformed
    return none
  else if c = '"' then
    let _ ← next
    skipString
    return none
  else if c = '[' then
    let _ ← next
    return some ']'
  else if c = '\x7b' then
    let _ ← next
    return some '\x7d'
  else throw .malformed

/-- Passes over a key and its colon where the innermost bracket is that of an object. -/
def skipKey (close : Char) : Reader Unit := do
  if close = '\x7d' then
    token '"'
    skipString
    token ':'

/-- Passes over the rest of the open arrays and objects in at most so many steps.  `first` says
whether the innermost one has had no item yet. -/
def skipOpen : Nat -> List Char -> Bool -> Reader Unit
  | _, [], _ =>
      pure ()
  | 0, _, _ =>
      throw .malformed
  | bound + 1, close :: outer, first => do
      if ← another close first then
        skipKey close
        match ← skipToken with
        | none =>
            skipOpen bound (close :: outer) false
        | some inner =>
            skipOpen bound (inner :: close :: outer) true
      else
        token close
        skipOpen bound outer false

/-- Passes over one value. -/
def skip : Reader Unit := do
  match ← skipToken with
  | none =>
      pure ()
  | some close =>
      let text ← get
      skipOpen (2 * text.length + 1) [close] true

end Reader
end Json
end Contracts
