import Lox.Evaluation.Machine
import Mathlib.Data.Finmap

/-!
# A stack of frames

The meaning of programs without closures, told without numbered scopes and without limits. The names
that can be seen are in a stack of finite maps, innermost first. Expressions have a value or a fault,
and statements are executed by rules. A program that does not end has no execution.
-/
namespace Lox.Frames

/-- The names of one block, or of the program, with their values. -/
abbrev Frame := Finmap fun _ : String => Value

structure Store where
  /-- Innermost first. -/
  frames : List Frame
  /-- What was printed. -/
  output : String
  /-- The calls of natives that are recorded. -/
  calls : Array Call

abbrev Walk := EStateM Fault Store

/-! ### Names -/

/-- The value that a name has in the first frame that holds it. -/
def find? (name : String) (frames : List Frame) : Option Value :=
  frames.findSome? fun frame => frame.lookup name

/-- Changes the value in the first frame that holds a name; none when there is no such frame. -/
def change? (name : String) (value : Value) : List Frame → Option (List Frame)
  | [] => none
  | frame :: outer =>
    if name ∈ frame then some (frame.insert name value :: outer)
    else (change? name value outer).map (frame :: ·)

namespace Store

/-- Binds a name in the innermost frame. -/
def bind (name : String) (value : Value) (store : Store) : Store :=
  match store.frames with
  | [] => store
  | frame :: outer => { store with frames := frame.insert name value :: outer }

/-- Prints a line. -/
def print (text : String) (store : Store) : Store :=
  { store with output := store.output ++ text ++ "\n" }

/-- Puts an empty frame inside the others. -/
def enter (store : Store) : Store := { store with frames := ∅ :: store.frames }

/-- Takes the innermost frame away. -/
def leave (store : Store) : Store := { store with frames := store.frames.tail }

end Store

/-! ### Steps -/

def raise {α : Type} (cause : FaultCause) (line : Option Int) : Walk α := throw ⟨cause, line⟩

/-- A result that may be a fault, as a step. -/
def lift {α : Type} : Except Fault α → Walk α
  | .ok result => pure result
  | .error fault => throw fault

/-- The value of a name. -/
def read (name : Token) : Walk Value := fun store =>
  match find? name.lexeme store.frames with
  | some value => .ok value store
  | none => raise (.undefinedVariable name.lexeme) (some name.line) store

/-- Changes the value of a name. -/
def assign (name : Token) (value : Value) : Walk Unit := fun store =>
  match change? name.lexeme value store.frames with
  | some frames => .ok () { store with frames }
  | none => raise (.undefinedVariable name.lexeme) (some name.line) store

/-- Calls a native. Closures are left out of this account: calling one does nothing. -/
def call (host : Nat → Native) (target : Callable) (arguments : List Value) : Walk Value :=
  match target with
  | .native id name _ => do
    if (host id).recorded then
      modify fun store => { store with calls := store.calls.push ⟨name, arguments⟩ }
    match (host id).act arguments with
    | .ok value => pure value
    | .error cause => raise cause none
  | .closure _ _ _ => pure .nil

/-! ### Expressions -/

mutual

/-- The value of an expression. -/
def evaluate (host : Nat → Native) : Expr → Walk Value
  | .literal value => pure value
  | .name token => read token
  | .grouping inner => evaluate host inner
  | .unary op operand => do
    let value ← evaluate host operand
    lift (unaryValue op value)
  | .assign target value => do
    let value ← evaluate host value
    assign target value
    pure value
  | .binary op left right => do
    let left ← evaluate host left
    let right ← evaluate host right
    lift (binaryValue op left right)
  | .logical op left right => do
    let left ← evaluate host left
    if decides op left then pure left else evaluate host right
  | .call callee closing arguments => do
    let callee ← evaluate host callee
    match callee with
    | .callable target => do
      let given ← evaluateAll host arguments
      if given.length = target.arity then call host target given
      else raise (.argumentCount target.arity given.length) (some closing.line)
    | _ => raise .notCallable (some closing.line)

/-- The values of some expressions, from the first to the last. -/
def evaluateAll (host : Nat → Native) : List Expr → Walk (List Value)
  | [] => pure []
  | expr :: more => do
    let value ← evaluate host expr
    let others ← evaluateAll host more
    pure (value :: others)

end

theorem evaluateAll_eq_mapM (host : Nat → Native) (exprs : List Expr) :
    evaluateAll host exprs = exprs.mapM (evaluate host) := by
  induction exprs with
  | nil => rfl
  | cons expr more ih =>
    rw [evaluateAll, ih, List.mapM_cons]

/-! ### Statements -/

/-- The expression that a statement evaluates before anything else, if there is one. -/
def subject? : Stmt → Option Expr
  | .expression value | .print value => some value
  | .declare _ initial => initial
  | .block _ => none
  | .branch condition _ _ | .loop condition _ => some condition

section

variable (host : Nat → Native)

/-- `Executes host stmts store fault after`: the statements are executed one after another, up to the
first fault if there is one. -/
inductive Executes : List Stmt → Store → Option Fault → Store → Prop where
  | done {store : Store} : Executes [] store none store
  | expression {value : Expr} {result : Value} {more : List Stmt} {store middle after : Store}
      {fault : Option Fault} :
      evaluate host value store = .ok result middle → Executes more middle fault after →
      Executes (.expression value :: more) store fault after
  | print {value : Expr} {result : Value} {more : List Stmt} {store middle after : Store}
      {fault : Option Fault} :
      evaluate host value store = .ok result middle →
      Executes more (middle.print result.printed) fault after →
      Executes (.print value :: more) store fault after
  | declare {target : Token} {more : List Stmt} {store after : Store} {fault : Option Fault} :
      Executes more (store.bind target.lexeme .nil) fault after →
      Executes (.declare target none :: more) store fault after
  | declareAs {target : Token} {initial : Expr} {result : Value} {more : List Stmt}
      {store middle after : Store} {fault : Option Fault} :
      evaluate host initial store = .ok result middle →
      Executes more (middle.bind target.lexeme result) fault after →
      Executes (.declare target (some initial) :: more) store fault after
  | block {body more : List Stmt} {store middle after : Store} {fault : Option Fault} :
      Executes body store.enter none middle → Executes more middle.leave fault after →
      Executes (.block body :: more) store fault after
  | blockFault {body more : List Stmt} {store after : Store} {fault : Fault} :
      Executes body store.enter (some fault) after →
      Executes (.block body :: more) store (some fault) after.leave
  | yes {condition : Expr} {result : Value} {yes : Stmt} {no : Option Stmt} {more : List Stmt}
      {store middle after : Store} {fault : Option Fault} :
      evaluate host condition store = .ok result middle → result.truthy = true →
      Executes (yes :: more) middle fault after →
      Executes (.branch condition yes no :: more) store fault after
  | no {condition : Expr} {result : Value} {yes : Stmt} {no : Option Stmt} {more : List Stmt}
      {store middle after : Store} {fault : Option Fault} :
      evaluate host condition store = .ok result middle → result.truthy = false →
      Executes (no.toList ++ more) middle fault after →
      Executes (.branch condition yes no :: more) store fault after
  | round {condition : Expr} {result : Value} {body : Stmt} {more : List Stmt}
      {store middle after : Store} {fault : Option Fault} :
      evaluate host condition store = .ok result middle → result.truthy = true →
      Executes (body :: .loop condition body :: more) middle fault after →
      Executes (.loop condition body :: more) store fault after
  | leave {condition : Expr} {result : Value} {body : Stmt} {more : List Stmt}
      {store middle after : Store} {fault : Option Fault} :
      evaluate host condition store = .ok result middle → result.truthy = false →
      Executes more middle fault after →
      Executes (.loop condition body :: more) store fault after
  | fault {stmt : Stmt} {subject : Expr} {more : List Stmt} {store after : Store} {fault : Fault} :
      subject? stmt = some subject → evaluate host subject store = .error fault after →
      Executes (stmt :: more) store (some fault) after

/-- `Interprets host stmts store faults after`: each of the top-level statements is executed, whatever
became of those before it, and the faults are collected. -/
inductive Interprets : List Stmt → Store → List Fault → Store → Prop where
  | done {store : Store} : Interprets [] store [] store
  | next {stmt : Stmt} {more : List Stmt} {store middle after : Store} {fault : Option Fault}
      {faults : List Fault} :
      Executes host [stmt] store fault middle → Interprets more middle faults after →
      Interprets (stmt :: more) store (fault.toList ++ faults) after

end

end Lox.Frames
