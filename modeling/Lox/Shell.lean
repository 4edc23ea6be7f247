import Lox.Session
import Lox.Text.Blank
import Lox.Text.Quoted

/-!
# The shell

What the command line asks for and what is answered: the usage, a complaint about the arguments, the
run of one file, or a conversation in which every line is a program text of its own.
-/
namespace Lox.Shell

/-- What the shell writes and the code it ends with. -/
structure Reply where
  code : Nat
  out : String
  err : String
  deriving DecidableEq, Repr

/-! ### Arguments -/

inductive Request where
  | help
  | unknownFlag (argument : String)
  | unexpected (argument : String)
  | prompt (debug : Bool)
  | file (path : String) (debug : Bool)
  deriving DecidableEq, Repr

/-- Reads the arguments from left to right, given the path and the debug flag found so far. The
first that decides alone wins. An empty path is no path. -/
def Request.continue (path : String) (debug : Bool) : List String → Request
  | [] => if path = "" then .prompt debug else .file path debug
  | argument :: rest =>
    if argument = "--help" ∨ argument = "-h" then .help
    else if argument = "--debug" then Request.continue path true rest
    else if argument.toList.head? = some '-' then .unknownFlag argument
    else if path = "" then Request.continue argument debug rest
    else .unexpected argument

def Request.ofArguments (arguments : List String) : Request :=
  Request.continue "" false arguments

def usage : String := String.join (List.map (· ++ "\n") [
  "lox [OPTIONS] [FILE]",
  "",
  "Run a Lox program, or start an interactive prompt when FILE is omitted.",
  "",
  "Options:",
  "  --debug     Dump tokens and statements to stderr before running",
  "  --help      Show this help message"])

/-- A complaint of the shell itself. -/
def complaint (text : String) : String := "lox: " ++ text ++ "\n"

/-! ### Files -/

/-- Why the system does not read a file that it is asked for. -/
inductive ReadError where
  | missing
  /-- Any other reason, with the number under which the system knows it. -/
  | refused (code : Nat) (reason : String)
  deriving DecidableEq, Repr

def ReadError.message (path : String) : ReadError → String
  | missing => "No such file or directory"
  | refused code reason =>
    "[Errno " ++ toString code ++ "] " ++ reason ++ ": " ++ Text.quote path

/-- Runs a text in a session and tells what was written: the program's output, then the trace and
all diagnostics. -/
def execute (limits : Limits) (debug : Bool) (source : String) :
    Operate (Bool × String × String) := do
  let outcome ← Session.run limits source debug
  let (output, _) ← Session.takeOutput
  pure (outcome.clean, output, outcome.trace ++ (← get).log.text)

/-- What is answered about the content of a path: a text is run in a new session. -/
def runContent (limits : Limits) (time : Float) (path : String) (debug : Bool) :
    Except ReadError ByteArray → Except Escape Reply
  | .error error => pure ⟨1, "", complaint (path ++ ": " ++ error.message path)⟩
  | .ok bytes =>
    match String.fromUTF8? bytes with
    | none => pure ⟨1, "", complaint (path ++ ": invalid utf-8")⟩
    | some source =>
      match execute limits debug source (.start time) with
      | .ok (clean, out, err) _ => pure ⟨if clean then 0 else 1, out, err⟩
      | .error escape _ => throw escape

/-- Runs a file. The system is never asked for a path with a null character, and nobody answers then. -/
def runFile (limits : Limits) (time : Float) (path : String) (debug : Bool)
    (content : Except ReadError ByteArray) : Except Escape Reply :=
  if '\x00' ∈ path.toList then throw .malformedPath
  else runContent limits time path debug content

/-! ### Conversations -/

def banner : String := "Enter quit or exit to exit the prompt\n"

def promptText : String := "lox> "

/-- Whether a line ends the conversation. -/
def isExit (line : String) : Bool :=
  let word := String.ofList (Text.strip line.toList)
  word == "exit" || word == "quit"

/-- Runs one line and forgets its diagnostics, so that none of them bears on the next. -/
def answer (limits : Limits) (debug : Bool) (line : String) : Operate (String × String) := do
  let (_, out, err) ← execute limits debug line
  Session.updateLog Log.clear
  pure (out, err)

/-- The conversation over some lines, up to a line that ends it or the end of input. -/
def converse (limits : Limits) (debug : Bool) : List String → Session → Except Escape Reply
  | [], _ => pure ⟨0, promptText ++ "\n", ""⟩
  | line :: more, session =>
    if isExit line then pure ⟨0, promptText, ""⟩
    else
      match answer limits debug line session with
      | .error escape _ => throw escape
      | .ok (out, err) after => do
        let reply ← converse limits debug more after
        pure ⟨reply.code, promptText ++ out ++ reply.out, err ++ reply.err⟩

/-- The conversation over an input text. The input is assumed to be opened so that a line end may be
spelled in any way; where it is not, a carriage return is a character of its line. -/
def prompt (limits : Limits) (time : Float) (debug : Bool) (input : String) :
    Except Escape Reply := do
  let lines := (Text.lines (Text.unifyLineEnds input.toList)).map String.ofList
  let reply ← converse limits debug lines (.start time)
  pure { reply with out := banner ++ reply.out }

/-! ### The whole -/

/-- The answer to some arguments, given what reading a path gives and the text of the input. -/
def reply (limits : Limits) (time : Float) (read : String → Except ReadError ByteArray)
    (input : String) (arguments : List String) : Except Escape Reply :=
  match Request.ofArguments arguments with
  | .help => pure ⟨0, usage, ""⟩
  | .unknownFlag argument => pure ⟨2, "", complaint ("unknown flag '" ++ argument ++ "'")⟩
  | .unexpected argument => pure ⟨2, "", complaint ("unexpected argument '" ++ argument ++ "'")⟩
  | .prompt debug => prompt limits time debug input
  | .file path debug => runFile limits time path debug (read path)

end Lox.Shell
