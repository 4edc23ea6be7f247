import Lox.Proofs.Grammar.Derivation
import Lox.Proofs.Source.Spelling
import Lox.Proofs.Syntax.Trees

/-!
# A derivation has room for its tree

No tree nests deeper than the derivation that it comes from, as long as there is no `for` in it. The
tree of a `for` statement may be deeper: it stands for a loop in blocks that the text has not.
-/
namespace Lox

theorem Expr.nestingAll_le {exprs : List Expr} {room : Nat} :
    Expr.nestingAll exprs ≤ room ↔ ∀ expr ∈ exprs, expr.nesting + 1 ≤ room := by
  induction exprs with
  | nil => simp [nestingAll]
  | cons expr exprs ih => rw [nestingAll, Nat.max_le, List.forall_mem_cons, ih]

theorem Stmt.nestingAll_le {stmts : List Stmt} {room : Nat} :
    Stmt.nestingAll stmts ≤ room ↔ ∀ stmt ∈ stmts, stmt.nesting ≤ room := by
  induction stmts with
  | nil => simp [nestingAll]
  | cons stmt stmts ih => rw [nestingAll, Nat.max_le, List.forall_mem_cons, ih]

namespace Grammar

/-- How many constructs a symbol opens itself. -/
def Symbol.opens : Symbol → Nat
  | .expression => 1
  | _ => 0

variable {room : Nat} {tokens : List Token}

theorem Derives.nesting {symbol : Symbol} {expr : Expr} (derived : Derives room symbol tokens expr) :
    expr.nesting + symbol.opens ≤ room := by
  induction derived with
  | expression _ ih => exact Nat.succ_le_succ ih
  | assign _ _ _ ih | operation _ ih | operand _ ih | unary _ ih | call _ ih | primary _ ih => exact ih
  | join _ _ _ left right =>
    rw [Expr.join_nesting]
    exact Nat.max_le.mpr ⟨left, right⟩
  | sign _ _ ih => exact Nat.succ_le_succ ih
  | callBare _ _ _ ih => exact Nat.max_le.mpr ⟨ih, Nat.zero_le _⟩
  | callWith _ _ _ _ _ _ _ callee first others =>
    refine Nat.max_le.mpr ⟨callee, Expr.nestingAll_le.mpr ?_⟩
    rw [List.forall_mem_cons, List.forall_mem_map]
    exact ⟨first, others⟩
  | leaf leaf => cases leaf <;> exact Nat.zero_le _
  | grouping _ _ _ ih => exact ih

theorem DerivesVariable.nesting {stmt : Stmt} (derived : DerivesVariable room tokens stmt) :
    stmt.nesting ≤ room := by
  cases derived with
  | bare => exact Nat.zero_le _
  | initial _ _ _ value => exact value.nesting

/-- Where no token is a `for`, a statement nests no deeper than its derivation. -/
theorem DerivesStatement.nesting {place : Place} {stmt : Stmt} {opened : Bool}
    (derived : DerivesStatement room place tokens stmt opened)
    (plain : ∀ token ∈ tokens, token.Regular ∧ token.kind ≠ .word "for") :
    stmt.nesting ≤ room := by
  induction derived with
  | declared stated => exact stated.nesting
  | statement _ ih => exact ih plain
  | alone stated =>
    obtain ⟨value, -⟩ := stated
    exact Nat.succ_le_succ value.nesting
  | print _ value => exact Nat.succ_le_succ value.nesting
  | block _ _ _ ih =>
    simp only [List.forall_mem_append, List.forall_mem_cons] at plain
    refine Nat.succ_le_succ (Stmt.nestingAll_le.mpr ?_)
    rw [List.forall_mem_map]
    intro item member
    refine ih item member fun token inside => ?_
    exact plain.1.2 token (List.mem_flatMap.mpr ⟨item, member, inside⟩)
  | ifThen _ _ test _ _ ih =>
    simp only [List.forall_mem_append, List.forall_mem_cons] at plain
    exact Nat.succ_le_succ (Nat.max_le.mpr ⟨test.nesting, ih plain.2.2⟩)
  | ifElse _ _ test _ _ _ _ one two =>
    simp only [List.forall_mem_append, List.forall_mem_cons] at plain
    obtain ⟨⟨-, -, first⟩, -, second⟩ := plain
    exact Nat.succ_le_succ
      (Nat.max_le.mpr ⟨test.nesting, Nat.max_le.mpr ⟨one first, two second⟩⟩)
  | loop _ _ test _ _ ih =>
    simp only [List.forall_mem_append, List.forall_mem_cons] at plain
    exact Nat.succ_le_succ (Nat.max_le.mpr ⟨test.nesting, ih plain.2.2⟩)
  -- A token that is spelled `for` has the kind of that word.
  | forLoop word =>
    simp only [List.forall_mem_append, List.forall_mem_cons] at plain
    obtain ⟨regular, other⟩ := plain.1.1.1.1
    exact absurd (regular.kind_of_word word (by decide)) other

/-- A program without a `for` nests no deeper than its derivation. -/
theorem DerivesProgram.nesting {stmts : List Stmt} (derived : DerivesProgram room tokens stmts)
    (plain : ∀ token ∈ tokens, token.Regular ∧ token.kind ≠ .word "for") :
    Stmt.nestingAll stmts ≤ room := by
  obtain ⟨items, derived, rfl, rfl⟩ := derived
  rw [Stmt.nestingAll_le, List.forall_mem_map]
  intro item member
  refine (derived item member).nesting fun token inside => ?_
  exact plain token (List.mem_flatMap.mpr ⟨item, member, inside⟩)

end Grammar

end Lox
