import Lox.Diagnostic
import Lox.Evaluation.Evaluate
import Lox.Grammar.Statement
import Lox.Source.Scan
import Lox.Syntax.Printer

/-!
# Sessions

A session runs program texts one after another on one machine and one log. Nothing is forgotten
between two texts unless it is asked for, and a text with static errors, or any text while the log
holds static errors, is not executed.
-/
namespace Lox

/-- How deep programs may go and for how long. -/
structure Limits where
  /-- Levels of the stack. A level is a call of a reader, of the printer or of the evaluator that stays
  open while another of them is called. What is open already when a session starts to work, and what
  returns without calling on, takes no level: the stack is what the limit of the host leaves beside
  these. Reading is counted call by call. Printing and execution take so many levels for each level of a
  tree, which is approximate. -/
  stack : Nat
  /-- Rounds of a loop. -/
  patience : Nat
  deriving DecidableEq, Repr

/-- A host that allows a thousand calls, fifty of them for all that takes no level, and patience for
longer than anyone will wait. -/
def Limits.standard : Limits := ⟨950, 10 ^ 18⟩

structure Session where
  log : Log
  machine : Machine
  natives : Array Native
  closures : Array Closure

/-- Why there is no answer. -/
inductive Escape where
  /-- A path holds a null character, so that no file can be asked for. -/
  | malformedPath
  /-- The text could not be read to its end. -/
  | reading (stop : Grammar.Stop)
  /-- The statements could not be written back. -/
  | printing (error : PrintError)
  /-- The patience is used up. -/
  | unfinished
  deriving DecidableEq, Repr

abbrev Operate := EStateM Escape Session

namespace Session

/-! ### Setting up -/

/-- The number of the scope that lies in no other. -/
def globals : Nat := 0

/-- The native that tells the time. It is assumed to tell one time for as long as a session lasts. -/
def clock (time : Float) : Native := ⟨false, fun _ => .ok (.number time)⟩

/-- A new session, in which `clock` tells the given time. -/
def start (time : Float) : Session :=
  let scopes := (Scopes.new ⟨#[]⟩ none).1
  { log := .empty
    machine :=
      { scopes := scopes.define globals "clock" (.callable (.native 0 "clock" 0))
        current := globals
        output := ""
        calls := #[] }
    natives := #[clock time]
    closures := #[] }

/-- What the callables of a session refer to. A number that was never given out refers to something
that does nothing. -/
def library (session : Session) : Library where
  native id := session.natives[id]?.getD ⟨false, fun _ => .ok .nil⟩
  closure id := session.closures[id]?.getD ⟨[], [], globals⟩

def updateLog (change : Log → Log) : Operate Unit :=
  modify fun session => { session with log := change session.log }

/-- Binds a global name. -/
def define (name : String) (value : Value) : Operate Unit :=
  modify fun session =>
    let machine := session.machine
    { session with machine := { machine with scopes := machine.scopes.define globals name value } }

/-- Binds a global name to a new native. What it does may depend on the reference to itself. -/
def defineNative (name : String) (arity : Nat) (native : Value → Native) : Operate Unit := do
  let id := (← get).natives.size
  let self := .callable (.native id name arity)
  modify fun session => { session with natives := session.natives.push (native self) }
  define name self

/-! ### Texts -/

/-- The tokens of a text. -/
def scan (source : String) : Operate (List Token) := do
  let scanned := Source.scan source
  updateLog fun log => (log.enter "scanning").addReports scanned.reports
  pure scanned.tokens

/-- The statements that tokens make. What was reported is kept when reading breaks off. -/
def read (limits : Limits) (tokens : List Token) : Operate (List Stmt) := do
  match (Grammar.program limits.stack).run (.start tokens) with
  | .ok stmts cursor =>
    updateLog fun log => (log.enter "parsing").addReports cursor.reports
    pure stmts
  | .error stop cursor =>
    updateLog fun log => (log.enter "parsing").addReports cursor.reports
    throw (.reading stop)

/-- The statements of a text, whatever is reported about it. -/
def parse (limits : Limits) (source : String) : Operate (List Stmt) := do
  let tokens ← scan source
  read limits tokens

/-- Binds a global name to a new closure over some bindings. -/
def defineClosure (limits : Limits) (name : String) (parameters : List String) (body : String)
    (captured : List (String × Value)) : Operate Unit := do
  let stmts ← parse limits body
  let session ← get
  let (scopes, scope) := session.machine.scopes.new (some globals)
  let filled := captured.foldl (fun scopes (bound, value) => scopes.define scope bound value) scopes
  let closure : Closure := ⟨parameters, stmts, scope⟩
  set { session with
    machine := { session.machine with scopes := filled }
    closures := session.closures.push closure }
  define name (.callable (.closure session.closures.size name parameters.length))

/-! ### Running -/

/-- Executes a top-level statement. A fault is logged, and so is the end of the stack. -/
def attempt (limits : Limits) (stmt : Stmt) : Operate Unit := fun session =>
  match execute session.library limits.patience limits.stack stmt session.machine with
  | .ok _ machine => .ok () { session with machine }
  | .error (.fault fault) machine =>
    .ok () { session with machine, log := session.log.addFault fault }
  | .error .overflow machine =>
    let log := session.log.addRuntime none "Program nested too deeply to run." (some .nesting)
    .ok () { session with machine, log }
  | .error .unfinished machine => .error .unfinished { session with machine }

/-- Executes statements one after another, each whatever became of those before it. -/
def interpret (limits : Limits) (stmts : List Stmt) : Operate Unit := stmts.forM (attempt limits)

/-- Statements as program text. -/
def print (limits : Limits) (stmts : List Stmt) : Operate String :=
  match Stmt.program limits.stack stmts with
  | .ok text => pure text
  | .error error => throw (.printing error)

/-- How a run went: whether nothing is on the log, and the dump of tokens and statements. -/
structure Outcome where
  clean : Bool
  trace : String
  deriving DecidableEq, Repr

def tokenTrace (tokens : List Token) : String :=
  "---Tokens---\n" ++ String.join (tokens.map fun token => token.detailed ++ "\n")

def statementTrace (text : String) : String := "---Statements---\n" ++ text

/-- Runs a text. A text is read only while the log holds no static error, and executed only if it
still holds none after that. -/
def run (limits : Limits) (source : String) (traced : Bool) : Operate Outcome := do
  let tokens ← scan source
  let tokenPart := if traced then tokenTrace tokens else ""
  if (← get).log.hasStatic then
    pure ⟨false, tokenPart⟩
  else
    let stmts ← read limits tokens
    let statementPart ← if traced then statementTrace <$> print limits stmts else pure ""
    let trace := tokenPart ++ statementPart
    if (← get).log.hasStatic then
      pure ⟨false, trace⟩
    else
      updateLog (·.enter "executing")
      interpret limits stmts
      pure ⟨!(← get).log.hasRuntime, trace⟩

/-- Takes what was printed and which calls were recorded since the last time. -/
def takeOutput : Operate (String × Array Call) := fun session =>
  .ok (session.machine.output, session.machine.calls)
    { session with machine := { session.machine with output := "", calls := #[] } }

end Session

end Lox
