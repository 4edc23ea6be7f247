import Lox.Proofs.Syntax.Trees

/-!
# What comparisons keep

The lines of the tokens matter neither to the text of a tree nor to its nesting, and the groupings
that the printer adds are gone when all groupings are. Both ways to forget something commute.
-/
namespace Lox

/-! ### Expressions -/

namespace Expr

theorem textAll_bare {exprs : List Expr} (same : ∀ expr ∈ exprs, expr.bare.text = expr.text) :
    textAll (exprs.map bare) = textAll exprs := by
  rw [textAll_eq_map, textAll_eq_map, List.map_map]
  exact List.map_congr_left same

theorem text_bare (expr : Expr) : expr.bare.text = expr.text := by
  induction expr using Expr.induction with
  | literal | name => rfl
  | grouping inner ih => exact congrArg parenthesized ih
  | unary op operand ih => exact congrArg (op.lexeme.toList ++ ·) ih
  | assign target value ih => exact congrArg (target.lexeme.toList ++ " = ".toList ++ ·) ih
  | binary op left right first second | logical op left right first second =>
    change left.bare.text ++ ' ' :: op.lexeme.toList ++ ' ' :: right.bare.text = _
    rw [first, second]
    rfl
  | call callee closing arguments first others =>
    rw [bare_call, text, text, first, textAll_bare others]

theorem nestingAll_bare {exprs : List Expr}
    (same : ∀ expr ∈ exprs, expr.bare.nesting = expr.nesting) :
    nestingAll (exprs.map bare) = nestingAll exprs := by
  induction exprs with
  | nil => rfl
  | cons expr exprs ih =>
    rw [List.forall_mem_cons] at same
    rw [List.map_cons, nestingAll, nestingAll, same.1, ih same.2]

theorem nesting_bare (expr : Expr) : expr.bare.nesting = expr.nesting := by
  induction expr using Expr.induction with
  | literal | name => rfl
  | grouping inner ih => exact congrArg (· + 1) ih
  | unary op operand ih => exact congrArg (· + 1) ih
  | assign target value ih => exact ih
  | binary op left right first second | logical op left right first second =>
    change max left.bare.nesting right.bare.nesting = _
    rw [first, second]
    rfl
  | call callee closing arguments first others =>
    rw [bare_call, nesting, nesting, first, nestingAll_bare others]

/-- Whether lines or groupings are forgotten first makes no difference. -/
theorem ungrouped_bare (expr : Expr) : expr.bare.ungrouped = expr.ungrouped.bare := by
  induction expr using Expr.induction with
  | literal | name => rfl
  | grouping inner ih => exact ih
  | unary op operand ih => exact congrArg (Expr.unary op.bare) ih
  | assign target value ih => exact congrArg (Expr.assign target.bare) ih
  | binary op left right first second =>
    change Expr.binary op.bare left.bare.ungrouped right.bare.ungrouped = _
    rw [first, second]
    rfl
  | logical op left right first second =>
    change Expr.logical op.bare left.bare.ungrouped right.bare.ungrouped = _
    rw [first, second]
    rfl
  | call callee closing arguments first others =>
    rw [bare_call, ungrouped_call, ungrouped_call, bare_call, first, List.map_map, List.map_map]
    exact congrArg _ (List.map_congr_left others)

theorem ungrouped_guarded (least : Nat) (expr : Expr) :
    (expr.guarded least).ungrouped = expr.ungrouped := by
  unfold guarded
  split <;> rfl

/-- The groupings that the printer adds are none of the tree's. -/
theorem ungrouped_written (expr : Expr) : expr.written.ungrouped = expr.ungrouped := by
  induction expr using Expr.induction with
  | literal | name => rfl
  | grouping inner ih => exact (ungrouped_guarded _ _).trans ih
  | unary op operand ih =>
    exact congrArg (Expr.unary op) ((ungrouped_guarded _ _).trans ih)
  | assign target value ih =>
    exact congrArg (Expr.assign target) ((ungrouped_guarded _ _).trans ih)
  | binary op left right first second =>
    change Expr.binary op (left.written.guarded _).ungrouped (right.written.guarded _).ungrouped = _
    rw [ungrouped_guarded, ungrouped_guarded, first, second]
    rfl
  | logical op left right first second =>
    change Expr.logical op (left.written.guarded _).ungrouped (right.written.guarded _).ungrouped = _
    rw [ungrouped_guarded, ungrouped_guarded, first, second]
    rfl
  | call callee closing arguments first others =>
    rw [written_call, ungrouped_call, ungrouped_call, ungrouped_guarded, first, List.map_map]
    refine congrArg _ (List.map_congr_left fun expr member => ?_)
    exact (ungrouped_guarded _ _).trans (others expr member)

end Expr

/-! ### Statements -/

namespace Stmt

/-- Two changes after each other are one. -/
theorem rebuild_rebuild {token other : Token → Token} {expr more : Expr → Expr} (stmt : Stmt) :
    (stmt.rebuild token expr).rebuild other more = stmt.rebuild (other ∘ token) (more ∘ expr) := by
  induction stmt using Stmt.induction with
  | expression | print => rfl
  | declare target initial => exact congrArg (Stmt.declare _) (Option.map_map _ _ _)
  | block body ih =>
    rw [rebuild_block, rebuild_block, rebuild_block, List.map_map]
    exact congrArg Stmt.block (List.map_congr_left ih)
  | ifThen condition yes ih => exact congrArg (Stmt.branch _ · none) ih
  | ifElse condition yes no first second =>
    change Stmt.branch (more (expr condition)) ((yes.rebuild token expr).rebuild other more)
      (some ((no.rebuild token expr).rebuild other more)) = _
    rw [first, second]
    rfl
  | loop condition body ih => exact congrArg (Stmt.loop _) ih

theorem ungrouped_bare (stmt : Stmt) : stmt.bare.ungrouped = stmt.ungrouped.bare := by
  unfold bare ungrouped
  rw [rebuild_rebuild, rebuild_rebuild]
  exact congrArg (stmt.rebuild Token.bare) (funext Expr.ungrouped_bare)

theorem ungrouped_written (stmt : Stmt) : stmt.written.ungrouped = stmt.ungrouped := by
  unfold written ungrouped
  rw [rebuild_rebuild]
  exact congrArg (stmt.rebuild id) (funext Expr.ungrouped_written)

theorem under_bare (header : Line) (body : Stmt) (lines : List Line) :
    under header body.bare lines = under header body lines := by
  cases body with
  | branch _ _ no => cases no <;> rfl
  | block => cases lines <;> rfl
  | _ => rfl

theorem textAll_bare {stmts : List Stmt} (same : ∀ stmt ∈ stmts, stmt.bare.text = stmt.text) :
    textAll (stmts.map bare) = textAll stmts := by
  induction stmts with
  | nil => rfl
  | cons stmt stmts ih =>
    rw [List.forall_mem_cons] at same
    rw [List.map_cons, textAll, textAll, same.1, ih same.2]

theorem text_bare (stmt : Stmt) : stmt.bare.text = stmt.text := by
  -- Nothing of a token but its text is printed, and `bare` keeps the texts.
  induction stmt using Stmt.induction with
  | expression value =>
    change [value.bare.text ++ [';']] = _
    rw [value.text_bare]
    rfl
  | print value =>
    change ["print ".toList ++ value.bare.text ++ [';']] = _
    rw [value.text_bare]
    rfl
  | declare target initial =>
    cases initial with
    | none => rfl
    | some initial =>
      change ["var ".toList ++ target.lexeme.toList ++ " = ".toList ++ initial.bare.text ++ [';']] = _
      rw [initial.text_bare]
      rfl
  | block body ih =>
    unfold bare
    rw [rebuild_block]
    exact congrArg (braced []) (textAll_bare ih)
  | ifThen condition yes ih =>
    change under ("if ".toList ++ parenthesized condition.bare.text) yes.bare yes.bare.text = _
    rw [condition.text_bare, ih, under_bare]
    rfl
  | ifElse condition yes no first second =>
    change under ("if ".toList ++ parenthesized condition.bare.text) yes.bare yes.bare.text ++
      under "else".toList no.bare no.bare.text = _
    rw [condition.text_bare, first, second, under_bare, under_bare]
    rfl
  | loop condition body ih =>
    change under ("while ".toList ++ parenthesized condition.bare.text) body.bare body.bare.text = _
    rw [condition.text_bare, ih, under_bare]
    rfl

theorem nestingAll_bare {stmts : List Stmt} (same : ∀ stmt ∈ stmts, stmt.bare.nesting = stmt.nesting) :
    nestingAll (stmts.map bare) = nestingAll stmts := by
  induction stmts with
  | nil => rfl
  | cons stmt stmts ih =>
    rw [List.forall_mem_cons] at same
    rw [List.map_cons, nestingAll, nestingAll, same.1, ih same.2]

theorem nesting_bare (stmt : Stmt) : stmt.bare.nesting = stmt.nesting := by
  induction stmt using Stmt.induction with
  | expression value | print value => exact congrArg (· + 2) value.nesting_bare
  | declare _ initial =>
    cases initial with
    | none => rfl
    | some initial => exact congrArg (· + 1) initial.nesting_bare
  | block body ih =>
    unfold bare
    rw [rebuild_block]
    exact congrArg (· + 1) (nestingAll_bare ih)
  | ifThen condition yes ih =>
    change max (condition.bare.nesting + 1) yes.bare.nesting + 1 = _
    rw [condition.nesting_bare, ih]
    rfl
  | ifElse condition yes no first second =>
    change max (condition.bare.nesting + 1) (max yes.bare.nesting no.bare.nesting) + 1 = _
    rw [condition.nesting_bare, first, second]
    rfl
  | loop condition body ih =>
    change max (condition.bare.nesting + 1) body.bare.nesting + 1 = _
    rw [condition.nesting_bare, ih]
    rfl

end Stmt

end Lox
