import Lox.Shell
import Std.Time.DateTime.Timestamp

/-!
# Command line

Runs the shell on the files of the system, its input and the present time.
-/
namespace Lox.Shell

/-- Reads a file of the system. -/
def readFile (path : String) : IO (Except ReadError ByteArray) := do
  try
    let bytes ← IO.FS.readBinFile path
    pure (.ok bytes)
  catch error =>
    pure (.error (match error with
      | .noFileOrDirectory .. => .missing
      | .permissionDenied _ code reason | .inappropriateType _ code reason
      | .resourceExhausted _ code reason | .invalidArgument _ code reason
      | .otherError code reason => .refused code.toNat reason
      | other => .refused 5 other.toString))

/-- The present time in seconds. -/
def now : IO Float := do
  let time ← Std.Time.Timestamp.now
  pure (Float.ofInt time.toMillisecondsSinceUnixEpoch.val / 1000)

/-- What happens when there is no answer. -/
def failed {α : Type} (escape : Escape) : IO α :=
  throw (IO.userError (match escape with
    | .malformedPath => "the path holds a null character"
    | _ => "the program is nested too deeply"))

/-- Converses with whoever is at the terminal, line by line. -/
partial def converseLive (debug : Bool) (session : Session) : IO UInt32 := do
  let out ← IO.getStdout
  out.putStr promptText
  out.flush
  let text ← (← IO.getStdin).getLine
  if text = "" then
    out.putStr "\n"
    return 0
  let mut session := session
  let mut prompted := true
  for line in Text.lines (Text.unifyLineEnds text.toList) do
    unless prompted do out.putStr promptText
    prompted := false
    if isExit (String.ofList line) then return 0
    match answer .standard debug (String.ofList line) session with
    | .ok (written, complaints) after =>
      out.putStr written
      IO.eprint complaints
      session := after
    | .error escape _ => failed escape
  converseLive debug session

end Lox.Shell

open Lox.Shell in
def main (arguments : List String) : IO UInt32 := do
  let time ← now
  match Request.ofArguments arguments with
  | .prompt debug =>
    IO.print banner
    converseLive debug (.start time)
  | request =>
    let contents ← match request with
      | .file path _ => readFile path
      | _ => pure (.error .missing)
    match reply .standard time (fun _ => contents) "" arguments with
    | .ok answer =>
      IO.print answer.out
      IO.eprint answer.err
      pure answer.code.toUInt32
    | .error escape => failed escape
