import Lox.Grammar.Expression

/-!
# Reading statements

A statement is told by the kind of its first token, a declaration or a block by its spelling. A
`for` statement is read as the `while` statement that it abbreviates. A declaration that cannot be
read is reported, and reading goes on at the next statement border.
-/
namespace Lox.Grammar

/-! ### Optional parts -/

/-- What a lexeme introduces, if it stands there. -/
def ifAt {α : Type} (text : String) (body : Read α) : Read (Option α) := do
  if (← current).spells text then
    discard advance
    let result ← body
    pure (some result)
  else pure none

/-- What stands before a lexeme, if anything does. The lexeme is not passed. -/
def unlessAt {α : Type} (text : String) (body : Read α) : Read (Option α) := do
  if (← current).spells text then pure none
  else
    let result ← body
    pure (some result)

/-! ### Single statements, over the readers of their parts -/

def semicolon (what : String) : Read Unit := discard (expect ";" ("';' after " ++ what))

def expressionStatement (expr : Read Expr) : Read Stmt := do
  let value ← expr
  semicolon "expression"
  pure (.expression value)

def printStatement (expr : Read Expr) : Read Stmt := do
  discard (expect "print" "'print'")
  let value ← expr
  semicolon "value"
  pure (.print value)

def variableDeclaration (expr : Read Expr) : Read Stmt := do
  discard (expect "var" "'var'")
  let target ← expectName "variable name"
  let initial ← ifAt "=" expr
  semicolon "variable declaration"
  pure (.declare target initial)

def ifStatement (expr : Read Expr) (stmt : Read Stmt) : Read Stmt := do
  discard (expect "if" "'if'")
  discard (expect "(" "'(' after 'if'")
  let condition ← expr
  discard (expect ")" "')' after if condition")
  let yes ← stmt
  let no ← ifAt "else" stmt
  pure (.branch condition yes no)

def whileStatement (expr : Read Expr) (stmt : Read Stmt) : Read Stmt := do
  discard (expect "while" "'while'")
  discard (expect "(" "'(' after 'while'")
  let condition ← expr
  discard (expect ")" "')' after condition")
  let body ← stmt
  pure (.loop condition body)

/-- The loop that the clauses of a `for` statement stand for: the increment follows the body, and
the initializer precedes the loop, each in a block with it. -/
def forLoop (initial : Option Stmt) (condition : Expr) (increment : Option Expr) (body : Stmt) :
    Stmt :=
  let round := match increment with
    | some expr => .block [body, .expression expr]
    | none => body
  match initial with
  | some first => .block [first, .loop condition round]
  | none => .loop condition round

/-- The first clause of a `for` statement, with its semicolon. -/
def forInitial (expr : Read Expr) : Read (Option Stmt) := do
  let token ← current
  if token.spells ";" then
    discard advance
    pure none
  else if token.spells "var" then
    let first ← variableDeclaration expr
    pure (some first)
  else
    let first ← expressionStatement expr
    pure (some first)

/-- The expression of the first clause is read by a reader of its own. -/
def forStatement (first expr : Read Expr) (stmt : Read Stmt) : Read Stmt := do
  discard (expect "for" "'for'")
  discard (expect "(" "'(' after 'for'")
  let initial ← forInitial first
  let condition ← unlessAt ";" expr
  semicolon "loop condition"
  let increment ← unlessAt ")" expr
  discard (expect ")" "')' after for clauses")
  let body ← stmt
  pure (forLoop initial (condition.getD (.literal (.bool true))) increment body)

/-! ### Lists of declarations -/

/-- Reads a declaration; none when it cannot be read, which is reported, and passed over to the next
border. -/
def recovering (body : Read Stmt) : Read (Option Stmt) := fun cursor =>
  match body cursor with
  | .ok result after => .ok (some result) after
  | .error (.refused error token) after =>
    (do
      report token error
      recover
      pure none : Read (Option Stmt)) after
  | .error stop after => .error stop after

/-- A declaration or a statement, over the readers of its parts. -/
def declarationOver (expr : Read Expr) (stmt : Read Stmt) : Read Stmt := do
  if (← current).spells "var" then variableDeclaration expr else stmt

/-- A declaration on a level of its own, the declaration of a variable on one more. -/
def declarationOn (expr : Nat → Read Expr) (stmt : Nat → Read Stmt) (stack : Nat) : Read Stmt :=
  calling 1 stack fun stack => declarationOver (calling 1 stack expr) (stmt stack)

/-- The declarations up to a closing token or the end of input. -/
def declarations (closes : Token → Bool) (declaration : Read (Option Stmt)) : Nat → Read (List Stmt)
  | 0 => throw .overflow
  | fuel + 1 => do
    let token ← current
    if closes token || token.isEnd then pure []
    else
      let first ← declaration
      let more ← declarations closes declaration fuel
      pure (first.toList ++ more)

def blockStatement (fuel : Nat) (declaration : Read (Option Stmt)) : Read Stmt := do
  discard (expect "\x7b" "'\x7b' before block")
  let body ← declarations (·.spells "\x7d") declaration fuel
  discard (expect "\x7d" "'\x7d' after block")
  pure (.block body)

/-! ### Closing the circle -/

/-- A statement over the readers of its parts. -/
def statementOver (fuel : Nat) (first expr : Read Expr) (stmt : Read Stmt)
    (declaration : Read (Option Stmt)) : Read Stmt := do
  let token ← current
  if token.kind = .word "for" then forStatement first expr stmt
  else if token.kind = .word "if" then ifStatement expr stmt
  else if token.kind = .word "print" then printStatement expr
  else if token.kind = .word "while" then whileStatement expr stmt
  else if token.spells "\x7b" then blockStatement fuel declaration
  else expressionStatement expr

/-- A statement with room for some more constructs. It takes a level to tell of what kind it is and one
for its kind. The first clause of a `for` statement takes one more. -/
def statementAt (fuel : Nat) : Nat → Nat → Read Stmt
  | _, 0 => nested .statement (refuse (.tooDeep .statement))
  | stack, room + 1 =>
    nested .statement (calling 2 stack fun stack =>
      statementOver fuel (calling 1 stack (expressionAt fuel room)) (expressionAt fuel room stack)
        (statementAt fuel stack room)
        (recovering (declarationOn (expressionAt fuel room) (statementAt fuel · room) stack)))

/-- A declaration with room for some more constructs. -/
def declarationAt (fuel stack room : Nat) : Read (Option Stmt) :=
  recovering (declarationOn (expressionAt fuel room) (statementAt fuel · room) stack)

/-- Reads a statement. -/
def statement (stack : Nat) : Read Stmt := fun cursor =>
  statementAt (cursor.rest.length + 1) stack (cursor.cap - cursor.depth) cursor

/-- Reads a declaration, recovering when it cannot be read. -/
def declaration (stack : Nat) : Read (Option Stmt) := fun cursor =>
  declarationAt (cursor.rest.length + 1) stack (cursor.cap - cursor.depth) cursor

/-- Reads declarations up to the end of input. -/
def program (stack : Nat) : Read (List Stmt) := fun cursor =>
  let fuel := cursor.rest.length + 1
  declarations (fun _ => false) (declarationAt fuel stack (cursor.cap - cursor.depth)) fuel cursor

end Lox.Grammar
