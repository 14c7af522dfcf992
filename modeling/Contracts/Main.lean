import Contracts.CommandLine.Run

/-!
# Running the program

Reads the arguments, the environment and the file, and prints the answer.
-/

open Contracts.CommandLine

/-- The text of a file. -/
def readText (path : String) : IO (Except FileFault String) := do
  try
    let bytes ← IO.FS.readBinFile path
    match String.fromUTF8? bytes with
    | some text =>
        return .ok text
    | none =>
        return .error .notText
  catch e =>
    match e with
    | .noFileOrDirectory .. =>
        return .error .notFound
    | other =>
        return .error (.other (toString other))

def main (args : List String) : IO UInt32 := do
  let answer ←
    match Command.parse args with
    | none =>
        pure refusal
    | some command =>
        let environment ← IO.getEnv "COVENANT_POLICY"
        pure (command.run environment (← readText command.script))
  match answer.complaint with
  | some message =>
      IO.eprintln ("Error: " ++ message)
  | none =>
      pure ()
  IO.print answer.output
  return answer.exit.code.toUInt32
