import Contracts.CommandLine.Arguments
import Contracts.CommandLine.Outcome

/-!
# The program

What the program answers to its arguments, given the file it asks for and the variable
`COVENANT_POLICY` of its environment: an exit, what it prints, and its complaint if it has one.
-/

namespace Contracts
namespace CommandLine

inductive FileFault where
  | notFound
  | notText
  | other (reason : String)

def FileFault.message : FileFault -> String
  | notFound =>
      "No such file or directory (os error 2)"
  | notText =>
      "stream did not contain valid UTF-8"
  | other reason =>
      reason

/-- What the program answers. -/
structure Answer where
  exit : Exit
  /-- What is printed, with the line ends. -/
  output : String := ""
  /-- What is wrong with a file or with the environment. -/
  complaint : Option String := none

namespace Answer

/-- The answer that prints an outcome. -/
def ofOutcome : Outcome × Exit -> Answer
  | (o, exit) =>
      { exit := exit, output := o.toJson.prettyText ++ "\n" }

end Answer

def Command.script : Command -> String
  | check script _ =>
      script
  | guard script _ _ =>
      script

/-- An argument of a guarded call: a value where it is JSON, and otherwise a text. -/
def readArgument (text : String) : Fresh Value :=
  match Json.read text with
  | .ok json =>
      Value.ofJson json
  | .error _ =>
      return .str text

/-- The policy of a session: the one asked for, else the one of the environment, else the one
that the script selects. -/
def choosePolicy (asked : Option Policy) (environment : Option String)
    (script : Script Value) : Except String Policy :=
  match asked, environment with
  | some policy, _ =>
      .ok policy
  | none, some name =>
      match Policy.ofName? name with
      | some policy =>
          .ok policy
      | none =>
          .error (Policy.unknownMessage name)
  | none, none =>
      .ok script.failurePolicy

/-- Carries out a command on a script that was read. -/
def Command.perform (command : Command) (environment : Option String) (script : Script Json) :
    Fresh Answer := do
  let script ← script.load
  match command with
  | .check _ asked =>
      match choosePolicy asked environment script with
      | .ok policy =>
          return Answer.ofOutcome (checkSession script policy)
      | .error message =>
          return { exit := .usage, complaint := some message }
  | .guard _ signature args =>
      let values ← args.mapM readArgument
      return Answer.ofOutcome (← guardCall script signature values)

/-- Carries out a command on the text of its file. -/
def Command.run (command : Command) (environment : Option String)
    (file : Except FileFault String) : Answer :=
  let path := command.script
  match file with
  | .error fault =>
      { exit := .file,
        complaint := some ("failed to read '" ++ path ++ "': " ++ fault.message) }
  | .ok text =>
      match Script.read text with
      | .error _ =>
          { exit := .file, complaint := some ("failed to parse '" ++ path ++ "'") }
      | .ok script =>
          (command.perform environment script {}).1

/-- The answer to arguments that are not understood. -/
def refusal : Answer := { exit := .usage }

end CommandLine
end Contracts
