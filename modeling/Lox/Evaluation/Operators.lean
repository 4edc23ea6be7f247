import Lox.Fault
import Lox.Syntax

/-!
# Operators

The values that operators give, and the faults that they raise, once their operands are values.
-/
namespace Lox

/-- Raises a fault at a token. -/
def faultAt {α : Type} (token : Token) (cause : FaultCause) : Except Fault α :=
  throw ⟨cause, some token.line⟩

/-- An operator on two numbers. -/
def arithmetic (op : Token) (left right : Float) : Except Fault Value :=
  match op.lexeme with
  | "-" => pure (.number (left - right))
  | "*" => pure (.number (left * right))
  | "/" =>
    if zero : Number.isZero right then faultAt op .zeroDivision
    else pure (.number (Number.divide left right (by simpa using zero)))
  | ">" => pure (.bool (decide (right < left)))
  | ">=" => pure (.bool (decide (right ≤ left)))
  | "<" => pure (.bool (decide (left < right)))
  | "<=" => pure (.bool (decide (left ≤ right)))
  | other => faultAt op (.unknownOperator other)

/-- An operator between two values. Equality takes any values, addition two of one kind. -/
def binaryValue (op : Token) (left right : Value) : Except Fault Value :=
  match op.lexeme with
  | "==" => pure (.bool (left.equal right))
  | "!=" => pure (.bool (!left.equal right))
  | "+" =>
    match left, right with
    | .number a, .number b => pure (.number (a + b))
    | .text a, .text b => pure (.text (a ++ b))
    | _, _ => faultAt op .addition
  | other =>
    match left, right with
    | .number a, .number b => arithmetic op a b
    | _, _ => faultAt op (.operands other)

/-- An operator before a value: the exclamation mark denies, any other negates. -/
def unaryValue (op : Token) (operand : Value) : Except Fault Value :=
  if op.lexeme = "!" then pure (.bool (!operand.truthy))
  else
    match operand with
    | .number value => pure (.number (-value))
    | _ => faultAt op .negation

/-- Whether the left operand of a short-circuit operator is the result. -/
def decides (op : Token) (left : Value) : Bool := left.truthy == (op.lexeme == "or")

end Lox
