import Lox.Proofs.Printing.Height

/-!
# Printing on a deeper stack

What is printed on some stack is printed as the same text on every deeper one.
-/
namespace Lox

/-- Whatever the one makes, the other makes as well. -/
def Lasts {α : Type} (one other : Except PrintError α) : Prop :=
  ∀ made, one = .ok made → other = .ok made

namespace Lasts

variable {α β ι : Type} {one other : Except PrintError α}

theorem refl (one : Except PrintError α) : Lasts one one := fun _ made => made

theorem bind {next further : α → Except PrintError β} (first : Lasts one other)
    (onward : ∀ made, Lasts (next made) (further made)) : Lasts (one >>= next) (other >>= further) := by
  intro result made
  cases outcome : one with
  | error stop =>
    rw [outcome] at made
    cases made
  | ok value =>
    rw [outcome] at made
    rw [first value outcome]
    exact onward value result made

/-- The last step only puts together what was made. -/
theorem map (first : Lasts one other) (made : α → β) :
    Lasts (one >>= fun text => .ok (made text)) (other >>= fun text => .ok (made text)) :=
  first.bind fun _ => .refl _

theorem mapM {step further : ι → Except PrintError α} {items : List ι}
    (each : ∀ item ∈ items, Lasts (step item) (further item)) :
    Lasts (items.mapM step) (items.mapM further) := by
  induction items with
  | nil => exact .refl _
  | cons item items ih =>
    obtain ⟨first, others⟩ := List.forall_mem_cons.mp each
    rw [List.mapM_cons, List.mapM_cons]
    apply bind first
    intro made
    exact (ih others).map (made :: ·)

/-- What takes some levels of the stack of its own lasts if it does with the others. -/
theorem taking {print : Nat → Except PrintError α} {own : Nat}
    (overflows : ∀ stack, stack < own → print stack = .error .overflow)
    (inside : ∀ stack more, stack ≤ more → Lasts (print (stack + own)) (print (more + own)))
    {stack more : Nat} (deeper : stack ≤ more) : Lasts (print stack) (print more) := by
  by_cases few : stack < own
  · intro made printed
    rw [overflows stack few] at printed
    cases printed
  · have last := inside (stack - own) (more - own) (Nat.sub_le_sub_right deeper own)
    rwa [Nat.sub_add_cancel (by omega), Nat.sub_add_cancel (by omega)] at last

end Lasts

namespace Expr

theorem within_lasts {print further : Expr → Except PrintError Line} {expr : Expr} (least : Nat)
    (same : Lasts (print expr) (further expr)) :
    Lasts (within print least expr) (within further least expr) := by
  apply Lasts.bind (.refl _)
  intro precedence
  exact same.map _

theorem source_lasts {stack more : Nat} (expr : Expr) (deeper : stack ≤ more) :
    Lasts (expr.source stack) (expr.source more) := by
  -- Both runs take the same levels off the stack, so the deeper one stays the deeper one.
  induction expr using Expr.induction generalizing stack more with
  | literal value => exact .taking (source_overflow _) (fun _ _ _ => .refl _) deeper
  | name token => exact .taking (source_overflow _) (fun _ _ _ => .refl _) deeper
  | grouping inner ih =>
    apply Lasts.taking (source_overflow _) _ deeper
    intro stack more less
    exact (within_lasts _ (ih less)).map _
  | unary op operand ih =>
    apply Lasts.taking (source_overflow _) _ deeper
    intro stack more less
    exact (within_lasts _ (ih less)).map _
  | assign target value ih =>
    apply Lasts.taking (source_overflow _) _ deeper
    intro stack more less
    exact (within_lasts _ (ih less)).map _
  | binary op left right first second | logical op left right first second =>
    apply Lasts.taking (source_overflow _) _ deeper
    intro stack more less
    apply Lasts.bind (.refl _)
    intro level
    apply Lasts.bind (within_lasts level (first less))
    intro before
    exact (within_lasts (level + 1) (second less)).map _
  | call callee closing arguments first others =>
    apply Lasts.taking (source_overflow _) _ deeper
    intro stack more less
    apply Lasts.bind (within_lasts _ (first less))
    intro text
    exact (Lasts.mapM fun expr member => within_lasts _ (others expr member less)).map _

theorem standalone_lasts {stack more : Nat} (expr : Expr) (deeper : stack ≤ more) :
    Lasts (expr.standalone stack) (expr.standalone more) :=
  within_lasts _ (expr.source_lasts deeper)

end Expr

namespace Stmt

/-- A statement is printed on a deeper stack as well, on its own and under a header. -/
def LastsDeeper (stmt : Stmt) : Prop :=
  ∀ stack more, stack ≤ more → Lasts (stmt.lines stack) (stmt.lines more) ∧
    ∀ header, Lasts (headed (lines stack) header stmt) (headed (lines more) header stmt)

theorem lastsDeeper_of_lines {stmt : Stmt} (other : ∀ body, stmt ≠ .block body)
    (same : ∀ stack more, stack ≤ more → Lasts (stmt.lines (stack + 3)) (stmt.lines (more + 3))) :
    stmt.LastsDeeper := by
  intro stack more deeper
  have lasts := Lasts.taking (lines_overflow stmt) same deeper
  constructor
  · exact lasts
  · intro header
    cases stmt with
    | block body => exact absurd rfl (other body)
    | _ => exact lasts.map _

theorem lastsDeeper (stmt : Stmt) : stmt.LastsDeeper := by
  induction stmt using Stmt.induction with
  | expression value | print value =>
    refine lastsDeeper_of_lines nofun ?_
    intro stack more less
    exact (value.standalone_lasts less).map _
  | declare target initial =>
    refine lastsDeeper_of_lines nofun ?_
    intro stack more less
    cases initial with
    | none => exact .refl _
    | some initial => exact (initial.standalone_lasts less).map _
  | block body each =>
    have all {stack more : Nat} (less : stack ≤ more) :
        Lasts (body.mapM (lines stack)) (body.mapM (lines more)) :=
      .mapM fun stmt member => (each stmt member stack more less).1
    intro stack more deeper
    constructor
    · apply Lasts.taking (lines_overflow _) _ deeper
      intro stack more less
      exact (all less).map _
    -- Under a header the block itself takes no levels.
    · intro header
      exact (all deeper).map _
  | ifThen condition yes first =>
    refine lastsDeeper_of_lines nofun ?_
    intro stack more less
    apply Lasts.bind (condition.standalone_lasts less)
    intro text
    exact ((first stack more less).2 _).map _
  | ifElse condition yes no first second =>
    refine lastsDeeper_of_lines nofun ?_
    intro stack more less
    apply Lasts.bind (condition.standalone_lasts less)
    intro text
    apply Lasts.bind ((first stack more less).2 _)
    intro lines
    exact ((second stack more less).2 _).map _
  | loop condition body inner =>
    refine lastsDeeper_of_lines nofun ?_
    intro stack more less
    apply Lasts.bind (condition.standalone_lasts less)
    intro text
    exact (inner stack more less).2 _

/-- Statements have one text, on however deep a stack they are printed. -/
theorem program_lasts (stmts : List Stmt) {stack more : Nat} (deeper : stack ≤ more) :
    Lasts (program stack stmts) (program more stmts) := by
  have all : Lasts (stmts.mapM (lines stack)) (stmts.mapM (lines more)) :=
    .mapM fun stmt _ => (stmt.lastsDeeper stack more deeper).1
  exact all.map _

/-- Statements are printed as their text, with a grouping wherever one is called for, if the stack has the
levels that they take. -/
theorem program_prints {stmts : List Stmt} (leveled : ∀ stmt ∈ stmts, stmt.Leveled) (stack : Nat) :
    program stack stmts = if heightAll stmts ≤ stack then .ok (programText (stmts.map written))
      else .error .overflow := by
  have needs := program_needs leveled stack
  split
  next enough =>
    obtain ⟨text, printed⟩ := needs.enough enough
    -- On a stack that is deep enough for both, there is one text.
    obtain ⟨least, known⟩ := program_eq leveled
    have deep := known (max least stack) (Nat.le_max_left _ _)
    have same := program_lasts stmts (Nat.le_max_right least stack) text printed
    rw [printed, ← same, deep]
  next few => exact needs.few (Nat.lt_of_not_le few)

end Stmt

end Lox
