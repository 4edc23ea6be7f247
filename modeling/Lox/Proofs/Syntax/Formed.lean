import Lox.Proofs.Syntax.Printable

/-!
# Trees as the grammar forms them

What a reader makes of a text has the form of the grammar even where the text has errors. Operators are
those of the levels, operands hold together in their places, and a declaration stands in a list of
statements only. Such a tree needs no groupings that it does not have, and every operator in it can be
printed.
-/
namespace Lox

/-- An expression whose operands hold together in their places. -/
inductive Expr.Formed : Expr → Prop where
  | literal {value : Value} : value.Printable → Formed (.literal value)
  | name {token : Token} : token.kind = .identifier → Formed (.name token)
  | grouping {inner : Expr} : inner.Formed → Formed (.grouping inner)
  | unary {op : Token} {operand : Expr} :
      op.lexeme ∈ ["!", "-"] → operand.Formed → Precedence.unary ≤ operand.tightness →
      Formed (.unary op operand)
  | assign {target : Token} {value : Expr} :
      target.kind = .identifier → value.Formed → Formed (.assign target value)
  /-- A level groups to the left: only the left operand may be of the level itself. -/
  | binary {op : Token} {level : Nat} {left right : Expr} :
      op.lexeme ∈ binaryOperators → Precedence.ofOperator? op.lexeme = some level →
      left.Formed → level ≤ left.tightness → right.Formed → level < right.tightness →
      Formed (.binary op left right)
  | logical {op : Token} {level : Nat} {left right : Expr} :
      op.lexeme ∈ ["or", "and"] → Precedence.ofOperator? op.lexeme = some level →
      left.Formed → level ≤ left.tightness → right.Formed → level < right.tightness →
      Formed (.logical op left right)
  /-- There may be more arguments than are allowed: that is reported, and they are kept. -/
  | call {callee : Expr} {closing : Token} {arguments : List Expr} :
      callee.Formed → Precedence.call ≤ callee.tightness → (∀ expr ∈ arguments, expr.Formed) →
      Formed (.call callee closing arguments)

/-- A statement that needs no braces which it does not have: a declaration stands in a list of statements
only, and no body would take the `else` of another statement. -/
inductive Stmt.Formed : Stmt → Prop where
  | expression {value : Expr} : value.Formed → Formed (.expression value)
  | print {value : Expr} : value.Formed → Formed (.print value)
  | declare {target : Token} : target.kind = .identifier → Formed (.declare target none)
  | declareAs {target : Token} {initial : Expr} :
      target.kind = .identifier → initial.Formed → Formed (.declare target (some initial))
  | block {body : List Stmt} : (∀ stmt ∈ body, stmt.Formed) → Formed (.block body)
  | ifThen {condition : Expr} {yes : Stmt} :
      condition.Formed → yes.Formed → yes.declares = false → Formed (.branch condition yes none)
  | ifElse {condition : Expr} {yes no : Stmt} :
      condition.Formed → yes.Formed → yes.declares = false → yes.isOpen = false →
      no.Formed → no.declares = false → Formed (.branch condition yes (some no))
  | loop {condition : Expr} {body : Stmt} :
      condition.Formed → body.Formed → body.declares = false → Formed (.loop condition body)

namespace Expr

variable {expr : Expr}

theorem Formed.leveled (formed : expr.Formed) : expr.Leveled := by
  induction formed with
  | literal => exact .literal
  | name => exact .name
  | grouping _ inner => exact .grouping inner
  | unary _ _ _ operand => exact .unary operand
  | assign _ _ value => exact .assign value
  | binary _ known _ _ _ _ left right => exact .binary known left right
  | logical _ known _ _ _ _ left right => exact .logical known left right
  | call _ _ _ callee arguments => exact .call callee arguments

/-- The printer puts no parentheses of its own. -/
theorem Formed.written (formed : expr.Formed) : expr.written = expr := by
  -- In its place an operand stands without parentheses, since it holds together.
  have stands {least : Nat} {operand : Expr} (same : operand.written = operand)
      (tight : least ≤ operand.tightness) : operand.written.guarded least = operand := by
    rw [same, guarded_of_le tight]
  induction formed with
  | literal | name => rfl
  | grouping inner same => exact congrArg Expr.grouping (stands same inner.leveled.precedence.2)
  | unary _ _ tight same => exact congrArg (Expr.unary _) (stands same tight)
  | assign _ value same => exact congrArg (Expr.assign _) (stands same value.leveled.precedence.2)
  | binary _ known _ before _ after left right =>
    rw [written_binary known, stands left before, stands right after]
  | logical _ known _ before _ after left right =>
    rw [written_logical known, stands left before, stands right after]
  | call _ tight given callee arguments =>
    rw [written_call, stands callee tight]
    congr 1
    refine (List.map_congr_left fun expr member => ?_).trans (List.map_id _)
    exact stands (arguments expr member) (given expr member).leveled.precedence.2

end Expr

namespace Stmt

variable {stmt : Stmt}

theorem Formed.leveled (formed : stmt.Formed) : stmt.Leveled := by
  induction formed with
  | expression value => exact .expression value.leveled
  | print value => exact .print value.leveled
  | declare => exact .declare
  | declareAs _ initial => exact .declareAs initial.leveled
  | block _ body => exact .block body
  | ifThen condition _ _ yes => exact .ifThen condition.leveled yes
  | ifElse condition _ _ _ _ _ yes no => exact .ifElse condition.leveled yes no
  | loop condition _ _ body => exact .loop condition.leveled body

theorem Formed.written (formed : stmt.Formed) : stmt.written = stmt := by
  induction formed with
  | expression value => exact congrArg Stmt.expression value.written
  | print value => exact congrArg Stmt.print value.written
  | declare => rfl
  | declareAs _ initial => exact congrArg (Stmt.declare _ ∘ some) initial.written
  | block _ body =>
    unfold Stmt.written
    rw [Stmt.rebuild_block]
    exact congrArg Stmt.block ((List.map_congr_left body).trans (List.map_id _))
  | @ifThen condition yes test _ _ same =>
    change Stmt.branch condition.written yes.written none = _
    rw [test.written, same]
  | @ifElse condition yes no test _ _ _ _ _ same other =>
    change Stmt.branch condition.written yes.written (some no.written) = _
    rw [test.written, same, other]
  | @loop condition body test _ _ same =>
    change Stmt.loop condition.written body.written = _
    rw [test.written, same]

end Stmt

end Lox
