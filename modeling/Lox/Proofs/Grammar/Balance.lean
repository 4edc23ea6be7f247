import Lox.Proofs.Grammar.Visits

/-!
# Nesting and position

Every reader of the grammar has a course, so what `Visits` says of courses it says of all of them: while a
program, a declaration, a statement, an expression or an operand is read, the open constructs are
between those at the start and the cap, and the position goes only forward and never past the first
end of input. When it is done, by a result or by a refusal, as many are open as at the start. A result is
not had without a token, and a declaration always comes to one.
-/
namespace Lox.Grammar

variable {α : Type} {cursor : Cursor}

/-! ### Expressions have a course -/

section Operands

variable {inner operand : Read Expr} {fuel : Nat}

theorem primary_traced (inners : Traced inner) : Traced (primary inner) := by
  apply Traced.bind .current
  intro token
  split
  · exact .bind (.discard .advance) fun _ => .pure
  · apply Traced.choice _ .refuse
    apply Traced.bind (.discard .advance)
    intro _
    apply Traced.bind inners
    exact fun _ => .bind (.discard .expect) fun _ => .pure

theorem limitArguments_traced {count : Nat} : Traced (limitArguments count) := by
  apply Traced.choice _ .pure
  exact .bind .current fun _ => .report

theorem moreArguments_traced (inners : Traced inner) (rounds count : Nat) :
    Traced (moreArguments inner rounds count) := by
  induction rounds generalizing count with
  | zero => exact .throw
  | succ rounds ih =>
    apply Traced.bind .current
    intro token
    apply Traced.choice _ .pure
    apply Traced.bind (.discard .advance)
    intro _
    apply Traced.bind limitArguments_traced
    exact fun _ => .bind inners fun _ => .bind (ih (count + 1)) fun _ => .pure

theorem arguments_traced (inners : Traced inner) : Traced (arguments fuel inner) := by
  apply Traced.bind .current
  intro token
  apply Traced.choice .pure
  exact .bind inners fun _ => .bind (moreArguments_traced inners fuel 1) fun _ => .pure

theorem calls_traced (inners : Traced inner) (rounds : Nat) (callee : Expr) :
    Traced (calls fuel inner rounds callee) := by
  induction rounds generalizing callee with
  | zero => exact .throw
  | succ rounds ih =>
    apply Traced.bind .current
    intro token
    apply Traced.choice _ .pure
    apply Traced.bind (.discard .advance)
    intro _
    apply Traced.bind (arguments_traced inners)
    exact fun _ => .bind .expect fun _ => ih _

theorem signed_traced (operands : Traced operand) (inners : Traced inner) :
    Traced (signed fuel operand inner) := by
  apply Traced.bind .current
  intro token
  apply Traced.choice
  · apply Traced.nested
    exact .bind .advance fun _ => .bind operands fun _ => .pure
  · exact .bind (primary_traced inners) fun _ => calls_traced inners fuel _

theorem joined_traced {level : Level} (operands : Traced operand) (rounds : Nat) (left : Expr) :
    Traced (joined level operand rounds left) := by
  induction rounds generalizing left with
  | zero => exact .throw
  | succ rounds ih =>
    apply Traced.bind .current
    intro token
    apply Traced.choice _ .pure
    exact .bind .advance fun _ => .bind operands fun _ => ih _

theorem operation_traced (operands : Traced operand) : Traced (operation fuel operand) := by
  unfold operation
  -- The operands of a level are the operations of the tighter levels.
  induction levels with
  | nil => exact operands
  | cons level rest ih => exact .bind ih fun left => joined_traced ih fuel left

theorem assigned_traced {target value : Expr} {equals : Token} :
    Traced (assigned target equals value) := by
  unfold assigned
  split
  · exact .pure
  · exact .bind .report fun _ => .pure

theorem assignment_traced {left : Nat → Read Expr} (lefts : ∀ stack, Traced (left stack))
    (stack : Nat) : Traced (assignment left stack) := by
  induction stack with
  | zero => exact .throw
  | succ stack ih =>
    apply Traced.bind (lefts stack)
    intro target
    apply Traced.bind .current
    intro token
    apply Traced.choice _ .pure
    exact .bind .advance fun _ => .bind ih fun _ => assigned_traced

theorem expressionOver_traced {operand : Nat → Read Expr} (operands : ∀ stack, Traced (operand stack))
    (stack : Nat) : Traced (expressionOver fuel operand stack) := by
  apply Traced.nested
  exact .calling (assignment_traced fun stack => operation_traced (operands stack))

theorem operandAt_traced (room stack : Nat) : Traced (operandAt fuel room stack) := by
  -- Without room the reader refuses what would open a construct; what is inside one is read with less.
  induction room generalizing stack with
  | zero => exact signed_traced .refuse .refuse
  | succ room ih => exact signed_traced (.calling ih) (expressionOver_traced ih stack)

theorem expressionAt_traced (room stack : Nat) : Traced (expressionAt fuel room stack) := by
  cases room with
  | zero => exact .nested .refuse
  | succ room => exact expressionOver_traced (operandAt_traced room) stack

end Operands

/-! ### Statements have a course -/

section Statements

variable {first expr : Read Expr} {stmt : Read Stmt} {fuel : Nat}

theorem ifAt_traced {text : String} {body : Read α} (traced : Traced body) :
    Traced (ifAt text body) := by
  apply Traced.bind .current
  intro token
  apply Traced.choice _ .pure
  exact .bind (.discard .advance) fun _ => .bind traced fun _ => .pure

theorem unlessAt_traced {text : String} {body : Read α} (traced : Traced body) :
    Traced (unlessAt text body) := by
  apply Traced.bind .current
  intro token
  apply Traced.choice .pure
  exact .bind traced fun _ => .pure

theorem semicolon_traced {what : String} : Traced (semicolon what) := .discard .expect

theorem expressionStatement_traced (exprs : Traced expr) : Traced (expressionStatement expr) :=
  .bind exprs fun _ => .bind semicolon_traced fun _ => .pure

theorem printStatement_traced (exprs : Traced expr) : Traced (printStatement expr) := by
  apply Traced.bind (.discard .expect)
  exact fun _ => .bind exprs fun _ => .bind semicolon_traced fun _ => .pure

theorem variableDeclaration_traced (exprs : Traced expr) : Traced (variableDeclaration expr) := by
  apply Traced.bind (.discard .expect)
  intro _
  apply Traced.bind .expectName
  exact fun _ => .bind (ifAt_traced exprs) fun _ => .bind semicolon_traced fun _ => .pure

/-- What an `if` and a `while` statement have before their body. -/
theorem headed_traced {β : Type} {word what opening closing : String} {next : Expr → Read β}
    (exprs : Traced expr) (onward : ∀ condition, Traced (next condition)) :
    Traced (do
      discard (expect word what)
      discard (expect "(" opening)
      let condition ← expr
      discard (expect ")" closing)
      next condition) := by
  apply Traced.bind (.discard .expect)
  intro _
  apply Traced.bind (.discard .expect)
  exact fun _ => .bind exprs fun condition => .bind (.discard .expect) fun _ => onward condition

theorem ifStatement_traced (exprs : Traced expr) (stmts : Traced stmt) :
    Traced (ifStatement expr stmt) := by
  apply headed_traced exprs
  exact fun _ => .bind stmts fun _ => .bind (ifAt_traced stmts) fun _ => .pure

theorem whileStatement_traced (exprs : Traced expr) (stmts : Traced stmt) :
    Traced (whileStatement expr stmt) := by
  apply headed_traced exprs
  exact fun _ => .bind stmts fun _ => .pure

theorem forInitial_traced (exprs : Traced expr) : Traced (forInitial expr) := by
  apply Traced.bind .current
  intro token
  apply Traced.choice
  · exact .bind (.discard .advance) fun _ => .pure
  · apply Traced.choice
    · exact .bind (variableDeclaration_traced exprs) fun _ => .pure
    · exact .bind (expressionStatement_traced exprs) fun _ => .pure

theorem forStatement_traced (firsts : Traced first) (exprs : Traced expr) (stmts : Traced stmt) :
    Traced (forStatement first expr stmt) := by
  apply Traced.bind (.discard .expect)
  intro _
  apply Traced.bind (.discard .expect)
  intro _
  apply Traced.bind (forInitial_traced firsts)
  intro initial
  apply Traced.bind (unlessAt_traced exprs)
  intro condition
  apply Traced.bind semicolon_traced
  intro _
  apply Traced.bind (unlessAt_traced exprs)
  exact fun _ => .bind (.discard .expect) fun _ => .bind stmts fun _ => .pure

theorem declarationOn_traced {expr : Nat → Read Expr} {stmt : Nat → Read Stmt}
    (exprs : ∀ stack, Traced (expr stack)) (stmts : ∀ stack, Traced (stmt stack)) (stack : Nat) :
    Traced (declarationOn expr stmt stack) := by
  apply Traced.calling
  intro left
  apply Traced.bind .current
  exact fun _ => .choice (variableDeclaration_traced (.calling exprs)) (stmts left)

theorem declarations_traced {closes : Token → Bool} {declaration : Read (Option Stmt)}
    (traced : Traced declaration) (rounds : Nat) :
    Traced (declarations closes declaration rounds) := by
  induction rounds with
  | zero => exact .throw
  | succ rounds ih =>
    apply Traced.bind .current
    intro token
    apply Traced.choice .pure
    exact .bind traced fun _ => .bind ih fun _ => .pure

theorem blockStatement_traced {declaration : Read (Option Stmt)} (traced : Traced declaration) :
    Traced (blockStatement fuel declaration) := by
  apply Traced.bind (.discard .expect)
  intro _
  apply Traced.bind (declarations_traced traced fuel)
  exact fun _ => .bind (.discard .expect) fun _ => .pure

theorem statementOver_traced {declaration : Read (Option Stmt)} (firsts : Traced first)
    (exprs : Traced expr) (stmts : Traced stmt) (traced : Traced declaration) :
    Traced (statementOver fuel first expr stmt declaration) := by
  apply Traced.bind .current
  intro token
  apply Traced.choice (forStatement_traced firsts exprs stmts)
  apply Traced.choice (ifStatement_traced exprs stmts)
  apply Traced.choice (printStatement_traced exprs)
  apply Traced.choice (whileStatement_traced exprs stmts)
  apply Traced.choice (blockStatement_traced traced)
  exact expressionStatement_traced exprs

theorem statementAt_traced (stack room : Nat) : Traced (statementAt fuel stack room) := by
  induction room generalizing stack with
  | zero => exact .nested .refuse
  | succ room ih =>
    apply Traced.nested
    apply Traced.calling
    intro left
    exact statementOver_traced (.calling (expressionAt_traced room)) (expressionAt_traced room left)
      (ih left) (.recovering (declarationOn_traced (expressionAt_traced room) ih left))

theorem declarationAt_traced (stack room : Nat) : Traced (declarationAt fuel stack room) :=
  .recovering (declarationOn_traced (expressionAt_traced room)
    (fun stack => statementAt_traced stack room) stack)

end Statements

/-! ### What is read from outside -/

/-- What a caller may ask for. -/
inductive Entry where
  | program | declaration | statement | expression | operand
  deriving DecidableEq

namespace Entry

/-- What it is read as. -/
def Result : Entry → Type
  | program => List Stmt
  | declaration => Option Stmt
  | statement => Stmt
  | expression | operand => Expr

/-- The reader that is called. -/
def read (stack : Nat) : (entry : Entry) → Read entry.Result
  | program => Grammar.program stack
  | declaration => Grammar.declaration stack
  | statement => Grammar.statement stack
  | expression => Grammar.expression stack
  | operand => Grammar.operand stack

theorem traced (entry : Entry) (stack : Nat) : Traced (entry.read stack) := by
  cases entry with
  | program =>
    exact .bounded (fun fuel room => declarations (fun _ => false) (declarationAt fuel stack room) fuel)
      fun fuel room => declarations_traced (declarationAt_traced stack room) fuel
  | declaration =>
    exact .bounded (fun fuel room => declarationAt fuel stack room)
      fun _ room => declarationAt_traced stack room
  | statement =>
    exact .bounded (fun fuel room => statementAt fuel stack room)
      fun _ room => statementAt_traced stack room
  | expression =>
    exact .bounded (fun fuel room => expressionAt fuel room stack)
      fun _ room => expressionAt_traced room stack
  | operand =>
    exact .bounded (fun fuel room => calling operandLevels stack (operandAt fuel room))
      fun _ room => .calling (operandAt_traced room)

end Entry

/-- Nothing is passed only where the end of input is ahead. -/
def Moves (cursor : Cursor) : Done α := fun _ more _ _ =>
  more = [] → ∃ token rest, cursor.rest = token :: rest ∧ token.isEnd = true

/-- Refusing is for what is part of a declaration. -/
def Entry.Stops (entry : Entry) : Stopped := fun stop _ _ =>
  (∃ error token, stop = .refused error token) ∧ entry ≠ .program ∧ entry ≠ .declaration

theorem moves_of_pos {result : α} {more : List Token} {extra : List StaticReport} {after : Cursor}
    (moved : 0 < more.length) : Moves cursor result more extra after := by
  rintro rfl
  exact absurd moved (Nat.lt_irrefl 0)

/-- What pays for its reports with more tokens has passed a token. -/
theorem moves_of_gains {reader : Read α} {entry : Entry}
    (other : entry ≠ .program ∧ entry ≠ .declaration)
    (meets : Meets reader cursor [] [] Gains Thrifty) :
    Meets reader cursor [] [] (Moves cursor) entry.Stops := by
  apply meets.last
  · intro stop more extra refusal
    exact ⟨refusal.1, other⟩
  · intro result more extra after reach gains
    exact moves_of_pos (Nat.zero_lt_of_lt gains)

/-- The bounds of a reader are those that hold where it starts. -/
theorem Meets.bounded (bound : Nat → Nat → Read α) {done : Done α} {stopped : Stopped}
    (meets : Meets (bound (cursor.rest.length + 1) (cursor.cap - cursor.depth)) cursor [] [] done stopped) :
    Meets (fun cursor => bound (cursor.rest.length + 1) (cursor.cap - cursor.depth) cursor) cursor [] []
      done stopped :=
  meets

theorem program_moves {stack : Nat}
    (ready : Ready (cursor.rest.length + 1) (cursor.cap - cursor.depth) (stack - 3) cursor) :
    Meets (program stack) cursor [] [] (Moves cursor) Entry.program.Stops := by
  apply (program_meets cursor ready).last
  · exact fun _ _ _ => False.elim
  · intro result more extra after reach ⟨_, token, rest, here, last⟩ none
    rw [List.nil_append] at none
    refine ⟨token, rest, ?_, last⟩
    rw [reach.rest, none, here, List.nil_append]

theorem declarationAt_moves {fuel room stack enough : Nat} (ready : Ready fuel room stack cursor)
    (deep : stack + 2 ≤ enough) :
    Meets (declarationAt fuel enough room) cursor [] [] (Moves cursor) Entry.declaration.Stops := by
  obtain ⟨token, rest, here⟩ := ready.ends.exists_cons
  apply (recovering_meets ready.ends here (declarationOn_pays deep cursor ready)).last
  · exact fun _ _ _ => False.elim
  -- At the end of input a declaration is refused, and nothing may be left to pass over.
  · intro result more extra after reach known
    cases last : token.isEnd with
    | true => exact fun _ => ⟨token, rest, here, last⟩
    | false => exact moves_of_pos (known last).2

theorem Entry.meets (entry : Entry) {stack : Nat}
    (ready : Ready (cursor.rest.length + 1) (cursor.cap - cursor.depth) (stack - 3) cursor) :
    Meets (entry.read stack) cursor [] [] (Moves cursor) entry.Stops := by
  have some := ready.stack_pos
  cases entry with
  | program => exact program_moves ready
  | declaration =>
    exact .bounded (fun fuel room => declarationAt fuel stack room)
      (declarationAt_moves ready (by omega))
  | statement =>
    apply Meets.bounded (fun fuel room => statementAt fuel stack room)
    exact moves_of_gains (by decide) (statementAt_meets (ready.more (Nat.sub_le _ _)))
  | expression =>
    apply Meets.bounded (fun fuel room => expressionAt fuel room stack)
    exact moves_of_gains (by decide) (expressionAt_meets (ready.more (Nat.sub_le _ _)))
  | operand =>
    apply Meets.bounded (fun fuel room => calling operandLevels stack (operandAt fuel room))
    have enough : operandLevels ≤ stack := show 3 ≤ stack by omega
    apply moves_of_gains (by decide)
    rw [calling_of_le enough]
    exact operandAt_meets ready

/-! ### Every call keeps its place -/

/-- A cursor is at its position of some tokens, and no end of input is before it. -/
structure Cursor.At (tokens : List Token) (cursor : Cursor) : Prop where
  rest : cursor.rest = tokens.drop cursor.position
  position : cursor.position ≤ tokens.findIdx Token.isEnd

theorem Cursor.At.passes {tokens : List Token} {before after : Cursor} (place : before.At tokens)
    (passes : before.Passes after) : after.At tokens := by
  obtain ⟨passed, rest, position, inside⟩ := passes
  have whole : tokens.drop before.position = passed ++ after.rest := place.rest ▸ rest
  constructor
  · rw [position, ← List.drop_drop, whole, List.drop_left]
  · by_contra past
    have least := place.position
    have room := congrArg List.length whole
    rw [List.length_drop, List.length_append] at room
    have small : tokens.findIdx Token.isEnd < tokens.length := by omega
    -- The first end of input would be one of the tokens that were passed.
    have member : tokens[tokens.findIdx Token.isEnd] ∈ passed := by
      apply List.mem_of_getElem? (i := tokens.findIdx Token.isEnd - before.position)
      rw [← List.getElem?_append_left (by omega), ← whole, List.getElem?_drop,
        Nat.add_sub_cancel' least, List.getElem?_eq_getElem small]
    have last : tokens[tokens.findIdx Token.isEnd].isEnd = true := List.findIdx_getElem
    rw [inside _ member] at last
    exact absurd last (by decide)

/-- At or before the first end of input, one is still to come. -/
theorem Cursor.At.ends {tokens : List Token} (place : cursor.At tokens)
    (ends : ∃ token ∈ tokens, token.isEnd = true) : cursor.Ends := by
  have small : tokens.findIdx Token.isEnd < tokens.length := List.findIdx_lt_length.mpr ends
  refine ⟨tokens[tokens.findIdx Token.isEnd], ?_, List.findIdx_getElem⟩
  rw [place.rest, List.mem_drop_iff_getElem]
  exact ⟨tokens.findIdx Token.isEnd - cursor.position, by have := place.position; omega,
    by simp [Nat.add_sub_cancel' place.position]⟩

/-- The token before the first end of input is none. -/
theorem Cursor.At.inside {tokens rest : List Token} {token : Token} (place : cursor.At tokens)
    (early : cursor.position < tokens.findIdx Token.isEnd) (here : cursor.rest = token :: rest) :
    token.isEnd = false := by
  have head : tokens[cursor.position]? = some token := by
    rw [← List.head?_drop, ← place.rest, here]
    rfl
  obtain ⟨small, rfl⟩ := List.getElem?_eq_some_iff.mp head
  simpa using List.not_of_lt_findIdx early

/-- Whatever is asked for, wherever and however deep within the cap, the nesting and the position are kept
at every cursor on the way and when it is done. -/
theorem reading_balanced (entry : Entry) (tokens : List Token) (start depth stack : Nat)
    (reports : List StaticReport) (ends : ∃ token ∈ tokens, token.isEnd = true)
    (before : start ≤ tokens.findIdx Token.isEnd) (shallow : depth ≤ maxNesting)
    (deep : tokens.length + levelsFor maxNesting < stack) :
    let cursor : Cursor := ⟨tokens.drop start, start, depth, maxNesting, reports⟩
    (∃ visits, Visits (entry.read stack) cursor visits) ∧
      (∀ visits, Visits (entry.read stack) cursor visits →
        visits.head? = some cursor ∧ visits.getLast? = some (leaves (entry.read stack) cursor) ∧
          visits.Pairwise (fun earlier later => earlier.position ≤ later.position) ∧
          ∀ visit ∈ visits, visit.At tokens ∧ depth ≤ visit.depth ∧ visit.depth ≤ maxNesting) ∧
      (leaves (entry.read stack) cursor).depth = depth ∧
      match entry.read stack cursor with
      | .ok _ after => start < tokens.findIdx Token.isEnd → start < after.position
      | .error stop _ =>
        (∃ error token, stop = .refused error token) ∧ entry ≠ .program ∧ entry ≠ .declaration := by
  intro cursor
  have place : cursor.At tokens := ⟨rfl, before⟩
  -- The stack is enough for every token and every construct that may still be opened.
  have ready : Ready (cursor.rest.length + 1) (cursor.cap - cursor.depth) (stack - 3) cursor := by
    refine ⟨place.ends ends, Nat.add_sub_cancel' shallow, Nat.lt_succ_self _, ?_⟩
    have equals := equalsSigns_le_length (tokens.drop start)
    rw [List.length_drop] at equals
    simp only [levelsFor] at deep
    simp only [cursor]
    omega
  have meets := entry.meets ready
  obtain ⟨visits, course⟩ := entry.traced stack cursor
  refine ⟨⟨visits, course⟩, ?_, (course.orderly shallow).depth, ?_⟩
  · intro visits course
    have orderly := course.orderly shallow
    refine ⟨orderly.begins, orderly.arrives, ?_, ?_⟩
    · apply orderly.pairwise.imp
      rintro earlier later ⟨passed, -, position, -⟩
      omega
    · intro visit member
      exact ⟨place.passes (orderly.passes member), orderly.low visit member, orderly.high visit member⟩
  · unfold Meets at meets
    cases outcome : entry.read stack cursor with
    | ok result after =>
      rw [outcome] at meets
      obtain ⟨passed, added, reach, moves⟩ := meets
      intro early
      -- Otherwise the call would have begun at an end of input, which is not before the first one.
      have some : passed ≠ [] := by
        rintro rfl
        obtain ⟨token, rest, here, last⟩ := moves rfl
        rw [place.inside early here] at last
        exact absurd last (by decide)
      have moved := List.length_pos_of_ne_nil some
      have position : after.position = start + passed.length := reach.position
      omega
    | error stop after =>
      rw [outcome] at meets
      obtain ⟨_, _, _, stops⟩ := meets
      exact stops

/-- A declaration that cannot be read for want of room is passed over all the same. -/
theorem reading_balanced_at_cap :
    let tokens : List Token := [⟨.operator, ";", none, 1⟩, ⟨.endOfInput, "-", none, 1⟩]
    let cursor : Cursor := ⟨tokens, 0, 64, 64, []⟩
    (leaves (declaration 710) cursor).depth = 64 ∧
      ∃ result after, declaration 710 cursor = .ok result after ∧ 0 < after.position := by
  intro tokens cursor
  have ends : ∃ token ∈ tokens, token.isEnd = true := ⟨⟨.endOfInput, "-", none, 1⟩, by simp [tokens], rfl⟩
  obtain ⟨-, -, depth, outcome⟩ := reading_balanced .declaration tokens 0 64 710 [] ends (by decide)
    (by decide) (by decide)
  refine ⟨depth, ?_⟩
  split at outcome
  next result after same => exact ⟨result, after, same, outcome (by decide)⟩
  next => exact absurd rfl outcome.2.2

end Lox.Grammar
