import Lox.Syntax

/-!
# How deep trees are

The levels of a tree from its root to its farthest leaf.
-/
namespace Lox

namespace Expr

mutual

/-- The levels of an expression. -/
def depth : Expr → Nat
  | .literal _ | .name _ => 1
  | .grouping inner => inner.depth + 1
  | .unary _ operand => operand.depth + 1
  | .assign _ value => value.depth + 1
  | .binary _ left right | .logical _ left right => max left.depth right.depth + 1
  | .call callee _ arguments => max callee.depth (depthAll arguments) + 1

/-- The levels of the deepest of some expressions. -/
def depthAll : List Expr → Nat
  | [] => 0
  | expr :: more => max expr.depth (depthAll more)

end

theorem depth_pos (expr : Expr) : 0 < expr.depth := by
  cases expr <;> exact Nat.succ_pos _

theorem depthAll_le {exprs : List Expr} {levels : Nat} :
    depthAll exprs ≤ levels ↔ ∀ expr ∈ exprs, expr.depth ≤ levels := by
  induction exprs with
  | nil => simp [depthAll]
  | cons expr more ih => rw [depthAll, Nat.max_le, ih, List.forall_mem_cons]

end Expr

namespace Stmt

mutual

/-- The levels of a statement and the expressions in it. -/
def depth : Stmt → Nat
  | .expression value | .print value => value.depth + 1
  | .declare _ none => 1
  | .declare _ (some initial) => initial.depth + 1
  | .block body => depthAll body + 1
  | .branch condition yes none => max condition.depth yes.depth + 1
  | .branch condition yes (some no) => max condition.depth (max yes.depth no.depth) + 1
  | .loop condition body => max condition.depth body.depth + 1

/-- The levels of the deepest of some statements. -/
def depthAll : List Stmt → Nat
  | [] => 0
  | stmt :: more => max stmt.depth (depthAll more)

end

theorem depth_pos (stmt : Stmt) : 0 < stmt.depth := by
  unfold depth
  split <;> exact Nat.succ_pos _

theorem depthAll_le {stmts : List Stmt} {levels : Nat} :
    depthAll stmts ≤ levels ↔ ∀ stmt ∈ stmts, stmt.depth ≤ levels := by
  induction stmts with
  | nil => simp [depthAll]
  | cons stmt more ih => rw [depthAll, Nat.max_le, ih, List.forall_mem_cons]

end Stmt

end Lox
