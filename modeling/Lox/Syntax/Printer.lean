import Lox.Syntax.Precedence

/-!
# Printing trees

A tree written as program text that reads back as the tree. Operands get parentheses exactly where
the grammar would group them otherwise, and statements stand on lines of their own, indented by the
blocks and headers around them.

Each level of an expression takes two levels of the stack, each level of a statement three. The latter
is what a host takes for a statement under a header; it takes two for one in a block of its own, and one
for a statement that holds none.
-/
namespace Lox

/-- Why a tree has no program text. -/
inductive PrintError where
  /-- An operator between two operands that belongs to no level. -/
  | unknownOperator (op : String)
  | overflow
  deriving DecidableEq, Repr

abbrev Line := List Char

/-! ### Expressions -/

/-- How tightly an expression holds together. -/
def Expr.precedence : Expr → Except PrintError Nat
  | .assign .. => pure Precedence.assignment
  | .binary op .. | .logical op .. =>
    match Precedence.ofOperator? op.lexeme with
    | some level => pure level
    | none => throw (.unknownOperator op.lexeme)
  | .unary .. => pure Precedence.unary
  | .call .. => pure Precedence.call
  | .literal _ | .name _ | .grouping _ => pure Precedence.primary

/-- A constant as program text. -/
def Value.source : Value → Line
  | .text value => '"' :: value.toList ++ ['"']
  | .number value => Number.literal value
  | value => value.printed.toList

/-- Puts a text between parentheses. -/
def parenthesized (text : Line) : Line := '(' :: text ++ [')']

/-- An expression in a place that calls for a precedence, in parentheses when it falls short. -/
def Expr.within (print : Expr → Except PrintError Line) (least : Nat) (expr : Expr) :
    Except PrintError Line := do
  let precedence ← expr.precedence
  let text ← print expr
  pure (if precedence < least then parenthesized text else text)

/-- An expression as program text. The right operand of an operator has to bind more tightly than
the operator, since a level groups to the left. -/
def Expr.source : Nat → Expr → Except PrintError Line
  | stack + 2, expr =>
    let whole := Expr.within (source stack) Precedence.assignment
    match expr with
    | .literal value => pure value.source
    | .name token => pure token.lexeme.toList
    | .grouping inner => do
      let text ← whole inner
      pure (parenthesized text)
    | .unary op operand => do
      let text ← Expr.within (source stack) Precedence.unary operand
      pure (op.lexeme.toList ++ text)
    | .assign target value => do
      let text ← whole value
      pure (target.lexeme.toList ++ " = ".toList ++ text)
    | .binary op left right | .logical op left right => do
      let level ← expr.precedence
      let before ← Expr.within (source stack) level left
      let after ← Expr.within (source stack) (level + 1) right
      pure (before ++ ' ' :: op.lexeme.toList ++ ' ' :: after)
    | .call callee _ arguments => do
      let text ← Expr.within (source stack) Precedence.call callee
      let given ← arguments.mapM whole
      pure (text ++ parenthesized ([',', ' '].intercalate given))
  | _, _ => throw .overflow

/-- An expression that stands alone. -/
def Expr.standalone (stack : Nat) (expr : Expr) : Except PrintError Line :=
  expr.within (Expr.source stack) Precedence.assignment

/-! ### Statements -/

/-- Lines one step further in. -/
def indented (lines : List Line) : List Line := lines.map ("    ".toList ++ ·)

/-- Lines between braces, the opening one behind what precedes it on its line. -/
def braced (header : Line) (lines : List Line) : List Line :=
  (header ++ ['{']) :: indented lines ++ [['}']]

/-- A body under its header: a block opens on the header's line, any other statement follows it. -/
def headed (print : Stmt → Except PrintError (List Line)) (header : Line) :
    Stmt → Except PrintError (List Line)
  | .block body => do
    let lines ← body.mapM print
    pure (braced (header ++ [' ']) lines.flatten)
  | body => do
    let lines ← print body
    pure (header :: indented lines)

/-- A statement as lines of program text. -/
def Stmt.lines : Nat → Stmt → Except PrintError (List Line)
  | stack + 3, stmt =>
    match stmt with
    | .expression value => do
      let text ← value.standalone stack
      pure [text ++ [';']]
    | .print value => do
      let text ← value.standalone stack
      pure ["print ".toList ++ text ++ [';']]
    | .declare target none => pure ["var ".toList ++ target.lexeme.toList ++ [';']]
    | .declare target (some initial) => do
      let text ← initial.standalone stack
      pure ["var ".toList ++ target.lexeme.toList ++ " = ".toList ++ text ++ [';']]
    | .block body => do
      let lines ← body.mapM (lines stack)
      pure (braced [] lines.flatten)
    | .branch condition yes no => do
      let text ← condition.standalone stack
      let first ← headed (lines stack) ("if ".toList ++ parenthesized text) yes
      match no with
      | none => pure first
      | some no =>
        let second ← headed (lines stack) "else".toList no
        pure (first ++ second)
    | .loop condition body => do
      let text ← condition.standalone stack
      headed (lines stack) ("while ".toList ++ parenthesized text) body
  | _, _ => throw .overflow

/-- Statements as program text, every line ended. -/
def Stmt.program (stack : Nat) (stmts : List Stmt) : Except PrintError String := do
  let lines ← stmts.mapM (Stmt.lines stack)
  pure (String.ofList (lines.flatten.flatMap (· ++ ['\n'])))

end Lox
