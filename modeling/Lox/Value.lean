import Lox.Number.Written

/-!
# Values

What an expression evaluates to, and the three questions that the language asks of a value: whether
it counts as true, whether it equals another, and how it prints.
-/
namespace Lox

/-- A reference to something that can be called. The number tells references of one name apart. -/
inductive Callable where
  /-- Supplied by the host program. -/
  | native (id : Nat) (name : String) (arity : Nat)
  /-- Statements that run in a scope of their own. -/
  | closure (id : Nat) (name : String) (arity : Nat)
  deriving DecidableEq, Repr

inductive Value where
  | nil
  | bool (value : Bool)
  | number (value : Float)
  | text (value : String)
  | callable (target : Callable)
  deriving DecidableEq, Repr, Inhabited

namespace Callable

def arity : Callable → Nat
  | native _ _ arity | closure _ _ arity => arity

def printed : Callable → String
  | native _ name _ => "<native fn " ++ name ++ ">"
  | closure _ name _ => "<closure " ++ name ++ ">"

end Callable

namespace Value

/-- Nil, false and the zeros count as false, everything else as true. -/
def truthy : Value → Bool
  | nil => false
  | bool value => value
  | number value => !Number.isZero value
  | text _ | callable _ => true

/-- Values of different kinds are never equal. -/
def equal : Value → Value → Bool
  | nil, nil => true
  | bool a, bool b => a == b
  | number a, number b => Number.equal a b
  | text a, text b => a == b
  | callable a, callable b => a == b
  | _, _ => false

def printed : Value → String
  | nil => "nil"
  | bool value => if value then "true" else "false"
  | number value => String.ofList (Number.printed value)
  | text value => value
  | callable target => target.printed

end Value

end Lox
