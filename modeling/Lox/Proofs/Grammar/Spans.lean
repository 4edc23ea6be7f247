import Lox.Proofs.Evaluation.Likeness
import Lox.Proofs.Grammar.Derivation

/-!
# Trees hold the tokens of their spans

The tokens of a tree are among those that it derives from, also where clauses change places, and its
literals are no callables. So a tree goes with itself as soon as the tokens of its span do.
-/
namespace Lox

/-- A token goes with itself wherever it may stand in a tree. -/
def Likeness.Holds (like : Likeness) (token : Token) : Prop :=
  like.name token token ∧ like.mark token token

/-- Values that are no callables are known. -/
def Likeness.Plain (like : Likeness) : Prop :=
  ∀ value, (∀ target, value ≠ .callable target) → like.value value

namespace Grammar

variable {like : Likeness} {room : Nat} {tokens : List Token}

theorem Leaf.like_self {token : Token} {expr : Expr} (plain : like.Plain) (leaf : Leaf token expr)
    (holds : like.Holds token) : expr.Like like expr := by
  have constant : ∀ target, token.value ≠ .callable target := by
    unfold Token.value
    split <;> nofun
  cases leaf with
  | number | text => exact .literal (plain _ constant)
  | yes | no | nil => exact .literal (plain _ nofun)
  | name => exact .name holds.1

theorem like_join {level : Level} {op : Token} {left right : Expr} (holds : like.Holds op)
    (first : left.Like like left) (second : right.Like like right) :
    (level.join left op right).Like like (level.join left op right) := by
  unfold Level.join
  split
  · exact .logical holds.2 first second
  · exact .binary holds.2 first second

theorem Derives.like_self {symbol : Symbol} {expr : Expr} (plain : like.Plain)
    (derived : Derives room symbol tokens expr) (holds : ∀ token ∈ tokens, like.Holds token) :
    expr.Like like expr := by
  induction derived with
  | expression _ ih | operation _ ih | operand _ ih | unary _ ih | call _ ih | primary _ ih =>
    exact ih holds
  | assign _ _ _ ih =>
    simp only [List.forall_mem_cons] at holds
    obtain ⟨target, -, value⟩ := holds
    exact .assign target.1 (ih value)
  | join _ _ _ first second =>
    simp only [List.forall_mem_append, List.forall_mem_cons] at holds
    obtain ⟨left, op, right⟩ := holds
    exact like_join op (first left) (second right)
  | sign _ _ ih =>
    simp only [List.forall_mem_cons] at holds
    exact .unary holds.1.2 (ih holds.2)
  | callBare _ _ _ ih =>
    simp only [List.forall_mem_append, List.forall_mem_cons] at holds
    obtain ⟨callee, -, closing, -⟩ := holds
    exact .call (ih callee) closing.2 .nil
  | @callWith _ _ _ _ _ _ _ others _ _ _ _ _ _ _ callee first more =>
    simp only [List.forall_mem_append, List.forall_mem_cons] at holds
    obtain ⟨⟨⟨before, -, given⟩, rest⟩, closing, -⟩ := holds
    refine .call (callee before) closing.2 (.cons (first given) ?_)
    -- Each further argument has its tokens behind its comma.
    rw [List.forall₂_map_left_iff, List.forall₂_map_right_iff, List.forall₂_same]
    intro argument member
    refine more argument member fun token inside => rest token ?_
    exact List.mem_flatMap.mpr ⟨argument, member, List.mem_cons_of_mem _ inside⟩
  | leaf leaf => exact leaf.like_self plain (holds _ List.mem_cons_self)
  | grouping _ _ _ ih =>
    simp only [List.forall_mem_append, List.forall_mem_cons] at holds
    exact .grouping (ih holds.1.2)

theorem DerivesVariable.like_self {stmt : Stmt} (plain : like.Plain)
    (derived : DerivesVariable room tokens stmt) (holds : ∀ token ∈ tokens, like.Holds token) :
    stmt.Like like stmt := by
  cases derived with
  | bare =>
    simp only [List.forall_mem_cons] at holds
    exact .declare holds.2.1.1
  | initial _ _ _ value =>
    simp only [List.forall_mem_append, List.forall_mem_cons] at holds
    obtain ⟨⟨-, target, -, inside⟩, -⟩ := holds
    exact .declareAs target.1 (value.like_self plain inside)

theorem DerivesAlone.like_self {stmt : Stmt} (plain : like.Plain)
    (derived : DerivesAlone room tokens stmt) (holds : ∀ token ∈ tokens, like.Holds token) :
    stmt.Like like stmt := by
  cases derived with
  | alone value =>
    rw [List.forall_mem_append] at holds
    exact .expression (value.like_self plain holds.1)

theorem DerivesInitial.like_self {initial : Option Stmt} (plain : like.Plain)
    (derived : DerivesInitial room tokens initial) (holds : ∀ token ∈ tokens, like.Holds token) :
    ∀ stmt ∈ initial, stmt.Like like stmt := by
  cases derived with
  | none => exact nofun
  | declared stated =>
    rintro stmt ⟨⟩
    exact stated.like_self plain holds
  | alone stated =>
    rintro stmt ⟨⟩
    exact stated.like_self plain holds

theorem DerivesOptional.like_self {optional : Option Expr} (plain : like.Plain)
    (derived : DerivesOptional room tokens optional) (holds : ∀ token ∈ tokens, like.Holds token) :
    ∀ expr ∈ optional, expr.Like like expr := by
  cases derived with
  | none => exact nofun
  | some stated =>
    rintro expr ⟨⟩
    exact stated.like_self plain holds

/-- A loop goes with itself if its clauses and its body do. -/
theorem like_forLoop {initial : Option Stmt} {condition : Expr} {increment : Option Expr} {body : Stmt}
    (first : ∀ stmt ∈ initial, stmt.Like like stmt) (test : condition.Like like condition)
    (last : ∀ expr ∈ increment, expr.Like like expr) (inside : body.Like like body) :
    (forLoop initial condition increment body).Like like (forLoop initial condition increment body) := by
  -- The increment only makes another body.
  obtain ⟨round, goes, same⟩ : ∃ round : Stmt, round.Like like round ∧
      forLoop initial condition increment body = forLoop initial condition none round := by
    cases increment with
    | none => exact ⟨body, inside, rfl⟩
    | some expr =>
      have other : Stmt.Like like (.expression expr) (.expression expr) := .expression (last expr rfl)
      exact ⟨.block [body, .expression expr], .block (.cons inside (.cons other .nil)), rfl⟩
  rw [same]
  cases initial with
  | none => exact .loop test goes
  | some stmt => exact .block (.cons (first stmt rfl) (.cons (.loop test goes) .nil))

/-- A statement goes with itself if the tokens that it derives from do. -/
theorem DerivesStatement.like_self {place : Place} {stmt : Stmt} {opened : Bool} (plain : like.Plain)
    (derived : DerivesStatement room place tokens stmt opened)
    (holds : ∀ token ∈ tokens, like.Holds token) : stmt.Like like stmt := by
  induction derived with
  | declared stated => exact stated.like_self plain holds
  | statement _ ih => exact ih holds
  | alone stated => exact stated.like_self plain holds
  | print _ value =>
    simp only [List.forall_mem_append, List.forall_mem_cons] at holds
    exact .print (value.like_self plain holds.1.2)
  | block _ _ _ ih =>
    simp only [List.forall_mem_append, List.forall_mem_cons] at holds
    apply Stmt.Like.block
    rw [List.forall₂_map_left_iff, List.forall₂_map_right_iff, List.forall₂_same]
    intro item member
    refine ih item member fun token inside => holds.1.2 token ?_
    exact List.mem_flatMap.mpr ⟨item, member, inside⟩
  | ifThen _ _ test _ _ ih =>
    simp only [List.forall_mem_append, List.forall_mem_cons] at holds
    obtain ⟨⟨-, -, before⟩, -, after⟩ := holds
    exact .ifThen (test.like_self plain before) (ih after)
  | ifElse _ _ test _ _ _ _ one two =>
    simp only [List.forall_mem_append, List.forall_mem_cons] at holds
    obtain ⟨⟨⟨-, -, before⟩, -, first⟩, -, second⟩ := holds
    exact .ifElse (test.like_self plain before) (one first) (two second)
  | loop _ _ test _ _ ih =>
    simp only [List.forall_mem_append, List.forall_mem_cons] at holds
    obtain ⟨⟨-, -, before⟩, -, after⟩ := holds
    exact .loop (test.like_self plain before) (ih after)
  | @forLoop _ _ _ _ _ _ _ _ _ _ condition _ _ _ _ _ initial test _ increment _ _ ih =>
    simp only [List.forall_mem_append, List.forall_mem_cons] at holds
    -- The increment follows the body in the tree, but its tokens are still among those of the loop.
    obtain ⟨⟨⟨⟨-, -, first⟩, second⟩, -, third⟩, -, after⟩ := holds
    have clause : (condition.getD (.literal (.bool true))).Like like
        (condition.getD (.literal (.bool true))) := by
      cases condition with
      | none => exact .literal (plain _ nofun)
      | some expr => exact test.like_self plain second expr rfl
    exact like_forLoop (initial.like_self plain first) clause (increment.like_self plain third) (ih after)

end Grammar

end Lox
