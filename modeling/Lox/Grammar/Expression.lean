import Lox.Grammar.Cursor
import Lox.Syntax.Precedence

/-!
# Reading expressions

Assignment groups to the right, the operators of a level to the left, and calls follow their
callee. Every construct that opens another expression goes through `nested`, so a reader is built
from the readers with less room below it. A chain of assignments opens nothing, and only the stack
bounds it.

A level of the stack is a call of one of the readers that call each other: an expression calls the
reader of assignments, that one the loosest level of operators, and so on down to a primary. Levels
that always come together are taken together, before anything is read.

Loops are bounded by `fuel`, and stop as if the stack were used up when it runs out. It never does:
every round of a loop passes a token, so as many rounds as there are tokens, and one to see the end,
are enough.
-/
namespace Lox.Grammar

/-! ### Operands -/

/-- The expression that a single token stands for. -/
def leaf? (token : Token) : Option Expr :=
  match token.kind with
  | .number | .string => some (.literal token.value)
  | .word "true" => some (.literal (.bool true))
  | .word "false" => some (.literal (.bool false))
  | .word "nil" => some (.literal .nil)
  | .identifier => some (.name token)
  | _ => none

def primary (inner : Read Expr) : Read Expr := do
  let token ← current
  match leaf? token with
  | some leaf =>
    discard advance
    pure leaf
  | none =>
    if token.spells "(" then
      discard advance
      let expr ← inner
      discard (expect ")" "')' after expression")
      pure (.grouping expr)
    else refuse (.expected "expression")

/-- Reports, once a call has as many arguments as it may, that one more follows. -/
def limitArguments (count : Nat) : Read Unit := do
  if maxArguments ≤ count then report (← current) .tooManyArguments else pure ()

/-- The arguments after the first `count`, each behind a comma. -/
def moreArguments (inner : Read Expr) : Nat → Nat → Read (List Expr)
  | 0, _ => throw .overflow
  | fuel + 1, count => do
    if (← current).spells "," then
      discard advance
      limitArguments count
      let argument ← inner
      let more ← moreArguments inner fuel (count + 1)
      pure (argument :: more)
    else pure []

/-- What stands between the parentheses of a call. -/
def arguments (fuel : Nat) (inner : Read Expr) : Read (List Expr) := do
  if (← current).spells ")" then pure []
  else
    let argument ← inner
    let more ← moreArguments inner fuel 1
    pure (argument :: more)

/-- The calls that follow a callee. -/
def calls (fuel : Nat) (inner : Read Expr) : Nat → Expr → Read Expr
  | 0, _ => throw .overflow
  | rounds + 1, callee => do
    if (← current).spells "(" then
      discard advance
      let given ← arguments fuel inner
      let closing ← expect ")" "')' after arguments"
      calls fuel inner rounds (.call callee closing given)
    else pure callee

/-- A sign before its operand, or a primary with its calls. -/
def signed (fuel : Nat) (operand inner : Read Expr) : Read Expr := do
  let token ← current
  if token.spells "!" || token.spells "-" then
    nested .expression do
      let op ← advance
      let expr ← operand
      pure (.unary op expr)
  else
    let callee ← primary inner
    calls fuel inner fuel callee

/-! ### Operators between operands -/

/-- The operators of a level that follow a left operand, each with its right operand. -/
def joined (level : Level) (operand : Read Expr) : Nat → Expr → Read Expr
  | 0, _ => throw .overflow
  | fuel + 1, left => do
    let token ← current
    if level.operators.any token.spells then
      let op ← advance
      let right ← operand
      joined level operand fuel (level.join left op right)
    else pure left

/-- Operands joined by the operators of a level. -/
def chain (fuel : Nat) (level : Level) (operand : Read Expr) : Read Expr := do
  let left ← operand
  joined level operand fuel left

/-- Operands joined by the operators of all levels. -/
def operation (fuel : Nat) (operand : Read Expr) : Read Expr :=
  levels.foldr (chain fuel) operand

/-! ### Assignments -/

/-- The assignment of a value, at an equals sign. Only a bare name can be assigned to; any other left
side is reported and stands for the whole. -/
def assigned (target : Expr) (equals : Token) (value : Expr) : Read Expr :=
  match target with
  | .name token => pure (.assign token value)
  | _ => do
    report equals .invalidTarget
    pure target

/-- An operation, or a name that is assigned another assignment. The target is judged after the
whole of the right side is read. -/
def assignment (left : Nat → Read Expr) : Nat → Read Expr
  | 0 => throw .overflow
  | stack + 1 => do
    let target ← left stack
    if (← current).spells "=" then
      let equals ← advance
      let value ← assignment left stack
      assigned target equals value
    else pure target

/-! ### Closing the circle -/

/-- The levels of the stack that an operand takes: its sign, its calls and its primary. -/
def operandLevels : Nat := 3

/-- The levels of the stack that an expression takes beside those of its assignments: its own, one
for each level of operators, and those of an operand. -/
def expressionLevels : Nat := 1 + levels.length + operandLevels

/-- An expression whose operands are read as given, on what it leaves of the stack. -/
def expressionOver (fuel : Nat) (operand : Nat → Read Expr) (stack : Nat) : Read Expr :=
  nested .expression
    (calling expressionLevels stack (assignment fun stack => operation fuel (operand stack)))

/-- An operand with room for some more constructs. Its own levels are taken by what it stands in, and
the operand of a sign takes one more. -/
def operandAt (fuel : Nat) : Nat → Nat → Read Expr
  | 0, _ => signed fuel (refuse (.tooDeep .expression)) (refuse (.tooDeep .expression))
  | room + 1, stack =>
    signed fuel (calling 1 stack (operandAt fuel room))
      (expressionOver fuel (operandAt fuel room) stack)

/-- An expression with room for some more constructs. -/
def expressionAt (fuel : Nat) : Nat → Nat → Read Expr
  | 0, _ => nested .expression (refuse (.tooDeep .expression))
  | room + 1, stack => expressionOver fuel (operandAt fuel room) stack

/-- Reads an expression. -/
def expression (stack : Nat) : Read Expr := fun cursor =>
  expressionAt (cursor.rest.length + 1) (cursor.cap - cursor.depth) stack cursor

/-- Reads an operand: a sign and its operand, or a primary with its calls. -/
def operand (stack : Nat) : Read Expr := fun cursor =>
  calling operandLevels stack (operandAt (cursor.rest.length + 1) (cursor.cap - cursor.depth)) cursor

end Lox.Grammar
