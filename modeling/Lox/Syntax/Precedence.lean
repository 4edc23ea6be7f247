import Lox.Syntax

/-!
# Precedence

The levels of operators between two operands, which the grammar climbs and the printer compares.
-/
namespace Lox

/-- Operators of one level group to the left. -/
structure Level where
  operators : List String
  /-- Whether the left operand may decide alone. -/
  shortCircuit : Bool
  deriving DecidableEq, Repr

/-- The levels, from the loosest to the tightest. -/
def levels : List Level := [
  ⟨["or"], true⟩,
  ⟨["and"], true⟩,
  ⟨["==", "!="], false⟩,
  ⟨["<", "<=", ">", ">="], false⟩,
  ⟨["+", "-"], false⟩,
  ⟨["*", "/"], false⟩]

/-- The expression that joins two operands at a level. -/
def Level.join (level : Level) (left : Expr) (op : Token) (right : Expr) : Expr :=
  if level.shortCircuit then .logical op left right else .binary op left right

namespace Precedence

def assignment : Nat := 1
def unary : Nat := 8
def call : Nat := 9
def primary : Nat := 10

/-- How tightly an operator binds, counted from the level above assignment. -/
def ofOperator? (op : String) : Option Nat :=
  (levels.findIdx? fun level => level.operators.contains op).map (· + 2)

end Precedence

end Lox
