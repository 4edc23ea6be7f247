import Lox.Evaluation.Operators
import Lox.Scope

/-!
# The machine

The state that a running program changes, and the steps in which it does.
-/
namespace Lox

/-- A call of a native with the values given to it. -/
structure Call where
  name : String
  arguments : List Value
  deriving DecidableEq, Repr

structure Machine where
  scopes : Scopes
  /-- The scope in which names are sought first. -/
  current : Nat
  /-- What was printed. -/
  output : String
  /-- The calls of natives that are recorded. -/
  calls : Array Call
  deriving DecidableEq, Repr

/-- Why a program stops before its end. -/
inductive Interrupt where
  | fault (fault : Fault)
  /-- The stack is used up. -/
  | overflow
  /-- A loop went on for as many rounds as are allowed. -/
  | unfinished
  deriving DecidableEq, Repr

abbrev Run := EStateM Interrupt Machine

/-! ### What can be called -/

/-- A function of the host program. It is assumed to give the same answer to the same arguments, to
leave the machine alone, and to know no line for its faults. -/
structure Native where
  /-- Whether its calls are recorded. -/
  recorded : Bool
  act : List Value → Except FaultCause Value

/-- Statements that run in a scope of their own inside the captured one. -/
structure Closure where
  parameters : List String
  body : List Stmt
  captured : Nat

/-- What the numbers of callables refer to. -/
structure Library where
  native : Nat → Native
  closure : Nat → Closure

/-! ### Steps -/

namespace Run

def raise {α : Type} (cause : FaultCause) (line : Option Int) : Run α :=
  throw (.fault ⟨cause, line⟩)

/-- A result that may be a fault, as a step. -/
def lift {α : Type} : Except Fault α → Run α
  | .ok result => pure result
  | .error fault => throw (.fault fault)

/-- The value of a name. -/
def read (name : Token) : Run Value := fun machine =>
  match machine.scopes.get? machine.current name.lexeme with
  | some value => .ok value machine
  | none => raise (.undefinedVariable name.lexeme) (some name.line) machine

/-- Changes the value of a name. -/
def assign (name : Token) (value : Value) : Run Unit := fun machine =>
  match machine.scopes.assign? machine.current name.lexeme value with
  | some scopes => .ok () { machine with scopes }
  | none => raise (.undefinedVariable name.lexeme) (some name.line) machine

/-- Binds a name in the current scope. -/
def define (name : String) (value : Value) : Run Unit := fun machine =>
  .ok () { machine with scopes := machine.scopes.define machine.current name value }

/-- Prints a line. -/
def print (text : String) : Run Unit := fun machine =>
  .ok () { machine with output := machine.output ++ text ++ "\n" }

/-- Records a call. -/
def record (call : Call) : Run Unit := fun machine =>
  .ok () { machine with calls := machine.calls.push call }

/-- The value that a name has in the current scope itself; nil if it has none there. -/
def ownValue (name : String) : Run Value := fun machine =>
  .ok ((machine.scopes.local? machine.current name).getD .nil) machine

/-- Leaves a scope made for a body: the scope before it is current again, and the body's scopes are
forgotten. -/
def leave (before after : Machine) : Machine :=
  { after with
    scopes := after.scopes.dropFrom before.scopes.all.size
    current := before.current }

/-- Runs a body in a new scope inside a given one. Afterwards the current scope is as before,
whatever the outcome. -/
def inScope {α : Type} (enclosing : Nat) (body : Run α) : Run α := fun machine =>
  let (scopes, id) := machine.scopes.new (some enclosing)
  match body { machine with scopes, current := id } with
  | .ok result after => .ok result (leave machine after)
  | .error interrupt after => .error interrupt (leave machine after)

/-- Runs a body in a new scope inside the current one. -/
def inBlock {α : Type} (body : Run α) : Run α := fun machine => inScope machine.current body machine

/-- Runs a body as long as a condition holds, for a bounded number of rounds. -/
def repeatWhile (condition : Run Bool) (body : Run Unit) : Nat → Run Unit
  | 0 => throw .unfinished
  | rounds + 1 => do
    if ← condition then
      body
      repeatWhile condition body rounds

end Run

end Lox
