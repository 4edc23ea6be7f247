import Lox.Proofs.Syntax.Depth
import Lox.Proofs.Syntax.Printable

/-!
# How much of the stack printing takes

Printing a tree takes twice the levels of its expressions and three times those of its statements,
except that a block under a header takes none of its own. With as many levels of the stack a tree is
printed, with fewer the stack is used up; nothing else can go wrong where every operator belongs to a
level.
-/
namespace Lox

/-! ### What steps need -/

/-- A step that succeeds with so many levels of the stack, and with fewer uses the stack up. -/
structure Needs {α : Type} (levels stack : Nat) (result : Except PrintError α) : Prop where
  enough : levels ≤ stack → ∃ made, result = .ok made
  few : stack < levels → result = .error .overflow

namespace Needs

variable {α β ι : Type} {levels one other stack : Nat} {result : Except PrintError α}
  {next : α → Except PrintError β}

theorem nothing (made : α) : Needs 0 stack (.ok made) :=
  ⟨fun _ => ⟨made, rfl⟩, fun less => absurd less (Nat.not_lt_zero _)⟩

theorem bind (first : Needs one stack result) (onward : ∀ made, Needs other stack (next made))
    (most : levels = max one other) : Needs levels stack (result >>= next) := by
  subst most
  constructor
  · intro enough
    obtain ⟨made, rfl⟩ := first.enough (Nat.max_le.mp enough).1
    exact (onward made).enough (Nat.max_le.mp enough).2
  · intro few
    by_cases less : stack < one
    · rw [first.few less]
      rfl
    · obtain ⟨made, rfl⟩ := first.enough (Nat.not_lt.mp less)
      exact (onward made).few (by omega)

/-- The last step only puts together what was made. -/
theorem map (first : Needs levels stack result) (made : α → β) :
    Needs levels stack (result >>= fun text => .ok (made text)) :=
  first.bind (fun _ => .nothing _) (Nat.max_zero _).symm

theorem mapM {step : ι → Except PrintError α} {needed : ι → Nat} {items : List ι}
    (each : ∀ item ∈ items, Needs (needed item) stack (step item))
    (all : levels ≤ stack ↔ ∀ item ∈ items, needed item ≤ stack) :
    Needs levels stack (items.mapM step) := by
  -- Members are printed in turn, and the first one without enough levels decides.
  suffices whole : (∀ item ∈ items, needed item ≤ stack) ∧ (∃ made, items.mapM step = .ok made) ∨
      (¬∀ item ∈ items, needed item ≤ stack) ∧ items.mapM step = .error .overflow by
    constructor
    · intro enough
      rcases whole with ⟨-, made⟩ | ⟨some, -⟩
      · exact made
      · exact absurd (all.mp enough) some
    · intro few
      rcases whole with ⟨each, -⟩ | ⟨-, overflow⟩
      · exact absurd (all.mpr each) (Nat.not_le.mpr few)
      · exact overflow
  clear all
  induction items with
  | nil => exact .inl ⟨by simp, [], rfl⟩
  | cons item items ih =>
    obtain ⟨first, others⟩ := List.forall_mem_cons.mp each
    rw [List.mapM_cons, List.forall_mem_cons]
    by_cases less : stack < needed item
    · rw [first.few less]
      exact .inr ⟨fun known => absurd known.1 (Nat.not_le.mpr less), rfl⟩
    · obtain ⟨made, here⟩ := first.enough (Nat.not_lt.mp less)
      rw [here]
      rcases ih others with ⟨known, more, there⟩ | ⟨some, there⟩
      · rw [there]
        exact .inl ⟨⟨Nat.not_lt.mp less, known⟩, made :: more, rfl⟩
      · rw [there]
        exact .inr ⟨fun known => some known.2, rfl⟩

/-- What takes some levels of the stack of its own needs so many more. -/
theorem taking {print : Nat → Except PrintError α} {own : Nat}
    (overflows : ∀ stack, stack < own → print stack = .error .overflow)
    (inside : ∀ stack, Needs levels stack (print (stack + own))) (stack : Nat) :
    Needs (levels + own) stack (print stack) := by
  by_cases less : stack < own
  · exact ⟨fun enough => by omega, fun _ => overflows stack less⟩
  · obtain ⟨rest, rfl⟩ : ∃ rest, stack = rest + own := ⟨stack - own, by omega⟩
    exact ⟨fun enough => (inside rest).enough (by omega), fun few => (inside rest).few (by omega)⟩

end Needs

/-! ### Expressions -/

namespace Expr

/-- The levels of the stack that printing an expression takes. -/
def height (expr : Expr) : Nat := 2 * expr.depth

theorem source_overflow (expr : Expr) (stack : Nat) (few : stack < 2) :
    expr.source stack = .error .overflow := by
  match stack with
  | 0 | 1 => rfl

/-- Parentheses take no levels. -/
theorem Leveled.within {expr : Expr} {stack : Nat} (leveled : expr.Leveled)
    (needs : ∀ stack, Needs expr.height stack (expr.source stack)) (least : Nat) :
    Needs expr.height stack (Expr.within (Expr.source stack) least expr) := by
  unfold Expr.within
  rw [leveled.precedence.1]
  exact (needs stack).map _

/-- Two operands with an operator between them need what the deeper one needs. -/
theorem Leveled.operands {expr left right : Expr} {stack : Nat} (leveled : expr.Leveled)
    (before : left.Leveled) (after : right.Leveled)
    (first : ∀ stack, Needs left.height stack (left.source stack))
    (second : ∀ stack, Needs right.height stack (right.source stack))
    (made : Line → Line → Line) :
    Needs (2 * max left.depth right.depth) stack
      (do
        let level ← expr.precedence
        let one ← Expr.within (Expr.source stack) level left
        let other ← Expr.within (Expr.source stack) (level + 1) right
        pure (made one other)) := by
  rw [leveled.precedence.1]
  exact (before.within first expr.tightness).bind (fun _ => (after.within second _).map _)
    (Nat.mul_max_mul_left _ _ _).symm

/-- Printing an expression takes two levels of the stack for each of its own. -/
theorem Leveled.source {expr : Expr} (leveled : expr.Leveled) (stack : Nat) :
    Needs expr.height stack (expr.source stack) := by
  induction leveled generalizing stack with
  | literal => exact .taking (source_overflow _) (fun _ => .nothing _) stack
  | name => exact .taking (source_overflow _) (fun _ => .nothing _) stack
  | grouping inner ih => exact .taking (source_overflow _) (fun _ => (inner.within ih _).map _) stack
  | unary operand ih => exact .taking (source_overflow _) (fun _ => (operand.within ih _).map _) stack
  | assign value ih => exact .taking (source_overflow _) (fun _ => (value.within ih _).map _) stack
  | binary known before after first second =>
    have whole := Leveled.binary known before after
    exact .taking (source_overflow _) (fun _ => whole.operands before after first second _) stack
  | logical known before after first second =>
    have whole := Leveled.logical known before after
    exact .taking (source_overflow _) (fun _ => whole.operands before after first second _) stack
  | @call callee closing arguments known given first others =>
    refine .taking (source_overflow _) (fun stack => ?_) stack
    have each : Needs (2 * depthAll arguments) stack
        (arguments.mapM (Expr.within (Expr.source stack) Precedence.assignment)) := by
      refine .mapM (fun expr member => (given expr member).within (others expr member) _) ?_
      -- Two levels are taken for each, so the bound is compared by halves.
      have half (levels : Nat) : 2 * levels ≤ stack ↔ levels ≤ stack / 2 := by omega
      simp only [height, half]
      exact depthAll_le
    exact (known.within first _).bind (fun _ => each.map _) (Nat.mul_max_mul_left _ _ _).symm

/-- An expression that stands alone needs what it needs anywhere. -/
theorem Leveled.standalone {expr : Expr} (leveled : expr.Leveled) (stack : Nat) :
    Needs expr.height stack (expr.standalone stack) :=
  leveled.within leveled.source _

end Expr

/-! ### Statements -/

namespace Stmt

/-- What is left of the levels that printing a statement takes, when it stands under a header. -/
def levelsUnder : Stmt → Nat → Nat
  | .block _, levels => levels - 3
  | _, levels => levels

mutual

/-- The levels of the stack that printing a statement takes. -/
def height : Stmt → Nat
  | .expression value | .print value => value.height + 3
  | .declare _ none => 3
  | .declare _ (some initial) => initial.height + 3
  | .block body => heightAll body + 3
  | .branch condition yes none => max condition.height (yes.levelsUnder yes.height) + 3
  | .branch condition yes (some no) =>
    max condition.height (max (yes.levelsUnder yes.height) (no.levelsUnder no.height)) + 3
  | .loop condition body => max condition.height (body.levelsUnder body.height) + 3

/-- The levels of the stack that printing some statements takes. -/
def heightAll : List Stmt → Nat
  | [] => 0
  | stmt :: more => max stmt.height (heightAll more)

end

theorem heightAll_le {stmts : List Stmt} {levels : Nat} :
    heightAll stmts ≤ levels ↔ ∀ stmt ∈ stmts, stmt.height ≤ levels := by
  induction stmts with
  | nil => simp [heightAll]
  | cons stmt more ih => rw [heightAll, Nat.max_le, ih, List.forall_mem_cons]

theorem levelsUnder_le (stmt : Stmt) (levels : Nat) : stmt.levelsUnder levels ≤ levels := by
  cases stmt with
  | block => exact Nat.sub_le _ _
  | _ => exact Nat.le_refl _

theorem heightAll_le_of_each {stmts : List Stmt} (each : ∀ stmt ∈ stmts, stmt.height ≤ 3 * stmt.depth) :
    heightAll stmts ≤ 3 * depthAll stmts := by
  have below := depthAll_le.mp (Nat.le_refl (depthAll stmts))
  exact heightAll_le.mpr fun stmt member =>
    Nat.le_trans (each stmt member) (Nat.mul_le_mul_left 3 (below stmt member))

/-- Printing takes at most three levels of the stack for each that executing takes. -/
theorem height_le_depth (stmt : Stmt) : stmt.height ≤ 3 * stmt.depth := by
  induction stmt using Stmt.induction with
  | expression value | print value =>
    simp only [height, depth, Expr.height]
    omega
  | declare target initial =>
    cases initial <;> simp only [height, depth, Expr.height] <;> omega
  | block body each =>
    have low := heightAll_le_of_each each
    simp only [height, depth]
    omega
  | ifThen condition yes first =>
    have under := levelsUnder_le yes yes.height
    simp only [height, depth, Expr.height]
    omega
  | ifElse condition yes no first second =>
    have under := levelsUnder_le yes yes.height
    have below := levelsUnder_le no no.height
    simp only [height, depth, Expr.height]
    omega
  | loop condition body inner =>
    have under := levelsUnder_le body body.height
    simp only [height, depth, Expr.height]
    omega

theorem heightAll_le_depthAll (stmts : List Stmt) : heightAll stmts ≤ 3 * depthAll stmts :=
  heightAll_le_of_each fun stmt _ => stmt.height_le_depth

theorem lines_overflow (stmt : Stmt) (stack : Nat) (few : stack < 3) :
    stmt.lines stack = .error .overflow := by
  match stack with
  | 0 | 1 | 2 => rfl

/-- A statement needs its levels, on its own and under a header. -/
def Fits (stmt : Stmt) : Prop :=
  ∀ stack, Needs stmt.height stack (stmt.lines stack) ∧ ∀ header,
    Needs (stmt.levelsUnder stmt.height) stack (headed (Stmt.lines stack) header stmt)

/-- Under a header, a statement that is no block needs what it needs on its own. -/
theorem fits_of_lines {stmt : Stmt} (needs : ∀ stack, Needs stmt.height stack (stmt.lines stack))
    (other : ∀ body, stmt ≠ .block body) : stmt.Fits := by
  intro stack
  refine ⟨needs stack, fun header => ?_⟩
  cases stmt with
  | block body => exact absurd rfl (other body)
  | _ => exact (needs stack).map _

theorem Leveled.fits {stmt : Stmt} (leveled : stmt.Leveled) : stmt.Fits := by
  induction leveled with
  | expression value =>
    exact fits_of_lines (.taking (lines_overflow _) fun _ => (value.standalone _).map _) nofun
  | print value =>
    exact fits_of_lines (.taking (lines_overflow _) fun _ => (value.standalone _).map _) nofun
  | declare => exact fits_of_lines (.taking (lines_overflow _) fun _ => .nothing _) nofun
  | declareAs initial =>
    exact fits_of_lines (.taking (lines_overflow _) fun _ => (initial.standalone _).map _) nofun
  | @block body _ each =>
    have all (stack : Nat) : Needs (heightAll body) stack (body.mapM (lines stack)) :=
      .mapM (fun stmt member => (each stmt member stack).1) heightAll_le
    intro stack
    exact ⟨.taking (lines_overflow _) (fun stack => (all stack).map _) stack,
      fun _ => (all stack).map _⟩
  | ifThen condition _ yes =>
    refine fits_of_lines (.taking (lines_overflow _) fun stack => ?_) nofun
    exact (condition.standalone stack).bind (fun _ => ((yes stack).2 _).map _) rfl
  | ifElse condition _ _ yes no =>
    refine fits_of_lines (.taking (lines_overflow _) fun stack => ?_) nofun
    refine (condition.standalone stack).bind (fun _ => ?_) rfl
    exact ((yes stack).2 _).bind (fun _ => ((no stack).2 _).map _) rfl
  | loop condition _ body =>
    refine fits_of_lines (.taking (lines_overflow _) fun stack => ?_) nofun
    exact (condition.standalone stack).bind (fun _ => (body stack).2 _) rfl

/-- Statements are printed if the stack has the levels that they take. -/
theorem program_needs {stmts : List Stmt} (leveled : ∀ stmt ∈ stmts, stmt.Leveled) (stack : Nat) :
    Needs (heightAll stmts) stack (program stack stmts) := by
  have all : Needs (heightAll stmts) stack (stmts.mapM (lines stack)) :=
    .mapM (fun stmt member => ((leveled stmt member).fits stack).1) heightAll_le
  exact all.map _

end Stmt

end Lox
