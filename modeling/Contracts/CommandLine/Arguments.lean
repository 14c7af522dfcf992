import Contracts.Policy

/-!
# Command-line arguments

The arguments of the program are read by the usual conventions: long options with two hyphens
and their value after `=` or in the next argument, clusters of one-letter options after one
hyphen with the value of the last one glued to it or in the next argument, and `--` before
arguments that are no options.

`check SCRIPT` takes the option `--policy`, `guard SCRIPT [ARGS…]` needs the option
`--signature`, and `--verbose` may stand anywhere.  The arguments of a guarded call may start
with a hyphen: once a first one is there, all that follows is an argument too; and in its place
an option that is unknown, or a cluster with an unknown letter, is an argument.
-/

namespace Contracts
namespace CommandLine

/-- What the program is asked to do. -/
inductive Command where
  /-- Run a script as a session, under a policy if one is given. -/
  | check (script : String) (policy : Option Policy)
  /-- Guard a function with a script and call it. -/
  | guard (script : String) (signature : String) (args : List String)

/-- An argument by its hyphens. -/
inductive Word where
  /-- Two hyphens alone. -/
  | escape
  | long (name : List Char) (value : Option (List Char))
  /-- Letters after one hyphen, of which there is at least one. -/
  | short (letters : List Char)
  | plain

/-- What an argument is by its hyphens. -/
def Word.ofChars : List Char -> Word
  | ['-', '-'] =>
      .escape
  | '-' :: '-' :: rest =>
      match rest.dropWhile (· != '=') with
      | [] =>
          .long rest none
      | _ :: value =>
          .long (rest.takeWhile (· != '=')) (some value)
  | '-' :: c :: rest =>
      .short (c :: rest)
  | _ =>
      .plain

/-- The option of a command that takes a value, and whether arguments follow the script. -/
structure Form where
  letter : Char
  name : String
  /-- Whether arguments that may start with a hyphen follow the script. -/
  takesArguments : Bool

def checkForm : Form := ⟨'p', "policy", false⟩

def guardForm : Form := ⟨'s', "signature", true⟩

/-- What has been read of the arguments of a command. -/
structure Parsed where
  script : Option String := none
  /-- The value of the option that takes one. -/
  option : Option String := none
  args : List String := []

/-- What the next argument is taken for. -/
inductive Expecting where
  | anything
  /-- The value of the option before it. -/
  | value
  /-- One more argument of the call. -/
  | argument
  /-- No option: `--` went before. -/
  | operand
deriving DecidableEq

namespace Form

/-- Whether a letter is an option; `h` asks for help. -/
def knows (form : Form) (c : Char) : Bool :=
  c == 'v' || c == 'h' || c == form.letter

/-- Whether the next argument stands in the place of arguments of the call. -/
def atArguments (form : Form) (p : Parsed) : Bool :=
  form.takesArguments && p.script.isSome

/-- The script, or an argument of the call after it. -/
def operand (form : Form) (text : String) (p : Parsed) : Option Parsed :=
  match p.script with
  | none =>
      if text.isEmpty then none else some { p with script := some text }
  | some _ =>
      if form.takesArguments then some { p with args := p.args ++ [text] } else none

/-- The value of the option that takes one; it may be given once. -/
def setOption (value : String) (p : Parsed) : Option Parsed :=
  match p.option with
  | none =>
      some { p with option := some value }
  | some _ =>
      none

/-- The options of a cluster, and what is expected after it. -/
def cluster (form : Form) (p : Parsed) : List Char -> Option (Expecting × Parsed)
  | [] =>
      some (.anything, p)
  | c :: rest =>
      if c = 'v' then form.cluster p rest
      else if c = form.letter then
        match rest with
        | [] =>
            if p.option.isSome then none else some (.value, p)
        | '=' :: value =>
            (setOption (String.ofList value) p).map (.anything, ·)
        | value =>
            (setOption (String.ofList value) p).map (.anything, ·)
      else none

/-- An argument that starts with a hyphen and is no option: the value that is awaited, or an
argument of the call, if these may stand here. -/
def hyphened (form : Form) (expecting : Expecting) (text : String) (p : Parsed) :
    Option (Expecting × Parsed) :=
  if form.atArguments p then
    if expecting = .value then (setOption text p).map (.anything, ·)
    else (form.operand text p).map (.argument, ·)
  else none

def long (form : Form) (expecting : Expecting) (text : String) (name : List Char)
    (value : Option (List Char)) (p : Parsed) : Option (Expecting × Parsed) :=
  if name = "verbose".toList then
    if expecting = .value || value.isSome then none else some (.anything, p)
  else if name = "help".toList then none
  else if name = form.name.toList then
    if expecting = .value then none
    else
      match value with
      | some v =>
          (setOption (String.ofList v) p).map (.anything, ·)
      | none =>
          if p.option.isSome then none else some (.value, p)
  else form.hyphened expecting text p

/-- One argument: what is expected after it, and what has been read. -/
def step (form : Form) (expecting : Expecting) (text : String) (p : Parsed) :
    Option (Expecting × Parsed) :=
  match expecting with
  | .operand =>
      (form.operand text p).map (.operand, ·)
  | .argument =>
      (form.operand text p).map (.argument, ·)
  | _ =>
      match Word.ofChars text.toList with
      | .escape =>
          if expecting = .value then none else some (.operand, p)
      | .long name value =>
          form.long expecting text name value p
      | .short letters =>
          if form.atArguments p && letters.any (fun c => !form.knows c) then
            form.hyphened expecting text p
          else if expecting = .value then none
          else form.cluster p letters
      | .plain =>
          if expecting = .value then (setOption text p).map (.anything, ·)
          else
            (form.operand text p).map
              (if form.atArguments p then .argument else .anything, ·)

/-- The arguments of a command, read to their end. -/
def parse (form : Form) : Expecting -> Parsed -> List String -> Option Parsed
  | expecting, p, [] =>
      if expecting = .value then none else some p
  | expecting, p, text :: rest =>
      match form.step expecting text p with
      | some (next, q) =>
          form.parse next q rest
      | none =>
          none

end Form

/-- The command of a list of arguments; `none` when they are not understood. -/
def Command.parse : List String -> Option Command
  | [] =>
      none
  | "check" :: rest => do
      let p ← checkForm.parse .anything {} rest
      let script ← p.script
      let policy ←
        match p.option with
        | none =>
            some none
        | some name =>
            (Policy.ofName? name).map some
      return .check script policy
  | "guard" :: rest => do
      let p ← guardForm.parse .anything {} rest
      return .guard (← p.script) (← p.option) p.args
  | text :: rest =>
      match Word.ofChars text.toList with
      | .long name none =>
          if name = "verbose".toList then Command.parse rest else none
      | .short letters =>
          if letters.all (· == 'v') then Command.parse rest else none
      | _ =>
          none

end CommandLine
end Contracts
