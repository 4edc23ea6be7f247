import Lox.Token
import Lox.Value

/-!
# Syntax trees

Expressions and statements. Names, operators and the closing parenthesis of a call are the tokens
that they were read from, so that a fault can name its line.
-/
namespace Lox

inductive Expr where
  | literal (value : Value)
  | name (token : Token)
  /-- An expression in parentheses. -/
  | grouping (inner : Expr)
  | unary (op : Token) (operand : Expr)
  | assign (target : Token) (value : Expr)
  /-- Both operands are evaluated. -/
  | binary (op : Token) (left right : Expr)
  /-- The right operand is evaluated only if the left one does not decide. -/
  | logical (op : Token) (left right : Expr)
  | call (callee : Expr) (closing : Token) (arguments : List Expr)
  deriving Repr, Inhabited

inductive Stmt where
  | expression (value : Expr)
  | print (value : Expr)
  | declare (target : Token) (initial : Option Expr)
  | block (body : List Stmt)
  | branch (condition : Expr) (yes : Stmt) (no : Option Stmt)
  | loop (condition : Expr) (body : Stmt)
  deriving Repr, Inhabited

/-- The value that a literal token stands for. -/
def Token.value (token : Token) : Value :=
  match token.constant with
  | none => .nil
  | some (.number value) => .number value
  | some (.text value) => .text value

end Lox
