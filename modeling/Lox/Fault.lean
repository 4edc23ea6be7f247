/-!
# Faults

What can go wrong while a program runs. A fault ends the top-level statement in which it arises.
-/
namespace Lox

/-- The classes of runtime trouble that a host program tells apart. -/
inductive FaultClass where
  | evaluation
  /-- A division by zero, which is a fault of evaluation too. -/
  | zeroDivision
  /-- The program is nested too deeply for the stack. -/
  | nesting
  /-- Any other, by its label. -/
  | named (label : String)
  deriving DecidableEq, Repr

inductive FaultCause where
  | undefinedVariable (name : String)
  | negation
  | addition
  | operands (op : String)
  | unknownOperator (op : String)
  | zeroDivision
  | notCallable
  | argumentCount (expected given : Nat)
  /-- Raised by a native. -/
  | host (kind : FaultClass) (message : String)
  deriving DecidableEq, Repr

def FaultCause.message : FaultCause → String
  | undefinedVariable name => "Undefined variable '" ++ name ++ "'."
  | negation => "Operand of '-' must be a number."
  | addition => "Operands of '+' must be two numbers or two strings."
  | operands op => "Operands of '" ++ op ++ "' must be numbers."
  | unknownOperator op => "Unknown operator '" ++ op ++ "'."
  | zeroDivision => "Division by zero."
  | notCallable => "Can only call functions and classes."
  | argumentCount expected given =>
    "Expected " ++ toString expected ++ " arguments but got " ++ toString given ++ "."
  | host _ message => message

def FaultCause.kind : FaultCause → FaultClass
  | zeroDivision => .zeroDivision
  | host kind _ => kind
  | _ => .evaluation

/-- A fault with the line of the token that it is about, if it is about one. -/
structure Fault where
  cause : FaultCause
  line : Option Int
  deriving DecidableEq, Repr

/-- A message followed by the line that it is about. -/
def located (message : String) : Option Int → String
  | none => message
  | some line => message ++ " at line " ++ toString line

end Lox
