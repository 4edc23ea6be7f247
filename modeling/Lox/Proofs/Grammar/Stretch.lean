import Lox.Proofs.Grammar.Reader

/-!
# Reading within one stretch of tokens

A stretch of tokens reaches to its only semicolon. It has no braces, and no word that starts a statement
behind its first token. A reader of expressions never passes the semicolon, and a reader of statements
passes it with the last token of the statement. So a statement that cannot be read is refused within the
stretch, and one that is read comes to its end.
-/
namespace Lox

/-- Whether an error keeps a statement from being read. The others are reported about what is read all the
same. -/
def StaticError.aborts : StaticError → Bool
  | .expected _ | .tooDeep _ => true
  | .unexpectedCharacter _ | .unterminatedString | .invalidTarget | .tooManyArguments => false

namespace Grammar

/-! ### Stretches -/

/-- A token before the semicolon. A string is no semicolon, as its text has its quotes. -/
structure Inner (token : Token) : Prop where
  inside : token.isEnd = false
  separate : token.lexeme ≠ ";"
  braceless : token.lexeme ≠ "\x7b"
  whole : token.kind ≠ .word "for"

/-- The semicolon that ends a stretch. -/
structure Border (token : Token) : Prop where
  kind : token.kind = .operator
  text : token.lexeme = ";"

theorem Border.inside {token : Token} (border : Border token) : token.isEnd = false := by
  simp [Token.isEnd, border.kind]

/-- What is left of a stretch before a tail. -/
def Within (tail rest : List Token) : Prop :=
  ∃ front last, rest = front ++ last :: tail ∧ (∀ token ∈ front, Inner token) ∧
    (∀ token ∈ front.tail, startsStatement token = false) ∧ Border last

namespace Within

variable {tail rest : List Token} {token : Token}

theorem cases (within : Within tail (token :: rest)) :
    Inner token ∧ Within tail rest ∨ Border token ∧ rest = tail := by
  obtain ⟨front, last, same, inner, single, border⟩ := within
  cases front with
  | nil =>
    obtain ⟨rfl, rfl⟩ := List.cons.inj same
    exact .inr ⟨border, rfl⟩
  | cons first front =>
    obtain ⟨rfl, rfl⟩ := List.cons.inj same
    obtain ⟨here, others⟩ := List.forall_mem_cons.mp inner
    refine .inl ⟨here, front, last, rfl, others, ?_, border⟩
    intro token member
    exact single token (List.mem_of_mem_tail member)

theorem inside (within : Within tail (token :: rest)) : token.isEnd = false := by
  rcases within.cases with ⟨inner, -⟩ | ⟨border, -⟩
  · exact inner.inside
  · exact border.inside

/-- Everything but the semicolon is passed within the stretch. -/
theorem passed (within : Within tail (token :: rest)) (other : token.lexeme ≠ ";") :
    Within tail rest := by
  rcases within.cases with ⟨-, onward⟩ | ⟨border, -⟩
  · exact onward
  · exact absurd border.text other

theorem ended (within : Within tail (token :: rest)) (spelled : token.spells ";" = true) :
    rest = tail := by
  rcases within.cases with ⟨inner, -⟩ | ⟨-, same⟩
  · exact absurd (Token.spells_iff.mp spelled).2 inner.separate
  · exact same

end Within

/-- Of what was reported on the way to a later cursor, nothing kept a statement from being read. -/
def Cursor.Bears (before after : Cursor) : Prop :=
  ∃ added, after.reports = before.reports ++ added ∧ ∀ report ∈ added, report.error.aborts = false

namespace Cursor.Bears

variable {first second third : Cursor}

theorem refl (cursor : Cursor) : cursor.Bears cursor := ⟨[], by simp, by simp⟩

theorem trans (front : first.Bears second) (back : second.Bears third) : first.Bears third := by
  obtain ⟨added, same, mild⟩ := front
  obtain ⟨extra, again, others⟩ := back
  refine ⟨added ++ extra, by rw [again, same, List.append_assoc], ?_⟩
  exact fun report member => (List.mem_append.mp member).elim (mild report) (others report)

end Cursor.Bears

/-! ### Readers within a stretch -/

section

variable {α β : Type} {tail : List Token} {goal : List Token → Prop} {reader : Read α}
  {next : α → Read β} {cursor : Cursor}

/-- A refusal within the stretch. Nothing is said of a stop for want of stack or tokens. -/
def Halts (tail : List Token) (before after : Cursor) : Stop → Prop
  | .refused error _ => Within tail after.rest ∧ before.Bears after ∧ error.aborts = true
  | .overflow | .exhausted => True

theorem Halts.trans {first second third : Cursor} {stop : Stop} (front : first.Bears second)
    (halts : Halts tail second third stop) : Halts tail first third stop := by
  cases stop with
  | refused => exact ⟨halts.1, front.trans halts.2.1, halts.2.2⟩
  | overflow | exhausted => trivial

/-- From within a stretch, the tokens that a reader leaves meet a goal. Where it refuses, it is still within
the stretch. -/
def Stays (tail : List Token) (goal : List Token → Prop) (reader : Read α) (cursor : Cursor) : Prop :=
  Within tail cursor.rest →
    match reader cursor with
    | .ok _ after => goal after.rest ∧ cursor.Bears after
    | .error stop after => Halts tail cursor after stop

namespace Stays

theorem pure {result : α} : Stays tail (Within tail) (pure result) cursor :=
  fun within => ⟨within, .refl cursor⟩

theorem overflow : Stays tail goal (throw .overflow : Read α) cursor := fun _ => trivial

/-- What is read first stays within the stretch. -/
theorem bind (first : Stays tail (Within tail) reader cursor)
    (onward : ∀ result after, Stays tail goal (next result) after) :
    Stays tail goal (reader >>= next) cursor := by
  intro within
  have here := first within
  rw [bind_apply]
  cases outcome : reader cursor with
  | ok result after =>
    rw [outcome] at here
    have later := onward result after here.1
    dsimp only
    cases final : next result after with
    | ok value beyond =>
      rw [final] at later
      exact ⟨later.1, here.2.trans later.2⟩
    | error stop beyond =>
      rw [final] at later
      exact .trans here.2 later
  | error stop after =>
    rw [outcome] at here
    exact here

/-- What is read first comes to the end of the stretch, and nothing is read behind it. -/
theorem last (first : Stays tail (· = tail) reader cursor)
    (onward : ∀ result after, after.rest = tail → ∃ value, next result after = .ok value after) :
    Stays tail (· = tail) (reader >>= next) cursor := by
  intro within
  have here := first within
  rw [bind_apply]
  cases outcome : reader cursor with
  | ok result after =>
    rw [outcome] at here
    obtain ⟨value, same⟩ := onward result after here.1
    dsimp only
    rw [same]
    exact here
  | error stop after =>
    rw [outcome] at here
    exact here

/-- What is read last makes the result. -/
theorem made (first : Stays tail (· = tail) reader cursor) (make : α → β) :
    Stays tail (· = tail) (reader >>= fun result => Pure.pure (make result)) cursor :=
  last first fun result _ _ => ⟨make result, rfl⟩

/-- Nothing is said of a call for which the stack does not suffice. -/
theorem calling {levels stack : Nat} {body : Nat → Read α}
    (stays : ∀ left, Stays tail goal (body left) cursor) :
    Stays tail goal (calling levels stack body) cursor := by
  obtain same | ⟨left, same⟩ := calling_eq levels stack body
  · rw [same]
    exact overflow
  · rw [same]
    exact stays left

theorem discard (stays : Stays tail goal reader cursor) :
    Stays tail goal (discard reader) cursor := by
  intro within
  have here := stays within
  rw [discard_apply]
  cases outcome : reader cursor with
  | ok result after =>
    rw [outcome] at here
    exact here
  | error stop after =>
    rw [outcome] at here
    exact here

theorem choice {condition : Prop} [Decidable condition] {yes no : Read α}
    (first : condition → Stays tail goal yes cursor) (second : ¬condition → Stays tail goal no cursor) :
    Stays tail goal (if condition then yes else no) cursor := by
  split
  · exact first ‹_›
  · exact second ‹_›

/-- Goes on with the token under the cursor. -/
theorem look {next : Token → Read β} (onward : ∀ token rest, cursor.rest = token :: rest →
      Inner token ∨ Border token → Stays tail goal (next token) cursor) :
    Stays tail goal (Grammar.current >>= next) cursor := by
  intro within
  cases here : cursor.rest with
  | nil =>
    rw [bind_apply, Grammar.current, here]
    trivial
  | cons token rest =>
    have known : Inner token ∨ Border token := (here ▸ within).cases.imp And.left And.left
    rw [bind_apply, current_apply here]
    exact onward token rest here known within

/-- Everything but the semicolon is passed within the stretch. -/
theorem advance {token : Token} {rest : List Token} (here : cursor.rest = token :: rest)
    (other : token.lexeme ≠ ";") : Stays tail (Within tail) Grammar.advance cursor := by
  intro within
  rw [here] at within
  rw [advance_apply here within.inside]
  exact ⟨within.passed other, .refl cursor⟩

/-- A token with a spelling other than the semicolon's is passed within the stretch. -/
theorem spelled {text : String} {token : Token} {rest : List Token} (here : cursor.rest = token :: rest)
    (spells : token.spells text = true) (other : text ≠ ";") :
    Stays tail (Within tail) Grammar.advance cursor := by
  apply advance here
  rw [(Token.spells_iff.mp spells).2]
  exact other

theorem refuse {error : StaticError} (aborts : error.aborts = true) :
    Stays tail goal (Grammar.refuse error : Read α) cursor := by
  refine look fun token rest _ _ within => ?_
  exact ⟨within, .refl cursor, aborts⟩

theorem report {token : Token} {error : StaticError} (mild : error.aborts = false) :
    Stays tail (Within tail) (Grammar.report token error) cursor :=
  fun within => ⟨within, [⟨token.line, error⟩], rfl, by simpa using mild⟩

theorem expect {text what : String} (other : text ≠ ";") :
    Stays tail (Within tail) (Grammar.expect text what) cursor := by
  refine look fun token rest here _ => choice (fun spells => ?_) fun _ => refuse rfl
  exact spelled here spells other

theorem expectName {what : String} : Stays tail (Within tail) (Grammar.expectName what) cursor := by
  refine look fun token rest here known => choice (fun kind => ?_) fun _ => refuse rfl
  apply advance here
  rcases known with inner | border
  · exact inner.separate
  · rw [border.kind] at kind
    cases kind

/-- The semicolon is passed with the last token of the stretch. -/
theorem semicolon {what : String} : Stays tail (· = tail) (Grammar.semicolon what) cursor := by
  apply discard
  refine look fun token rest here _ => choice (fun spells within => ?_) fun _ => refuse rfl
  rw [here] at within
  rw [advance_apply here within.inside]
  exact ⟨within.ended spells, .refl cursor⟩

/-- The tokens to come are the same inside a construct. -/
theorem nested {construct : Nesting}
    (inside : Stays tail goal reader { cursor with depth := cursor.depth + 1 }) :
    Stays tail goal (Grammar.nested construct reader) cursor := by
  intro within
  unfold Grammar.nested
  by_cases full : cursor.cap ≤ cursor.depth
  · rw [if_pos full]
    exact refuse rfl within
  · rw [if_neg full]
    have here := inside within
    cases outcome : reader { cursor with depth := cursor.depth + 1 } with
    | ok result after =>
      rw [outcome] at here
      exact here
    | error stop after =>
      rw [outcome] at here
      exact here

end Stays

end

/-! ### Expressions -/

section

variable {tail : List Token} {inner operand expr : Read Expr} {fuel : Nat}

/-- A reader of expressions never passes the semicolon. -/
abbrev StaysExpr (tail : List Token) (reader : Read Expr) : Prop :=
  ∀ cursor, Stays tail (Within tail) reader cursor

/-- A semicolon is no expression. -/
theorem Border.leaf?_eq_none {token : Token} (border : Border token) : leaf? token = none := by
  simp [leaf?, border.kind]

theorem primary_stays (reads : StaysExpr tail inner) : StaysExpr tail (primary inner) := by
  intro cursor
  refine .look fun token rest here known => ?_
  split
  next leaf found =>
    have other : token.lexeme ≠ ";" := by
      rcases known with inner | border
      · exact inner.separate
      · rw [border.leaf?_eq_none] at found
        cases found
    exact .bind (.discard (.advance here other)) fun _ _ => .pure
  next =>
    refine .choice (fun spells => ?_) fun _ => .refuse rfl
    refine .bind (.discard (.spelled here spells (by decide))) fun _ after => ?_
    refine .bind (reads after) fun _ after => ?_
    exact .bind (.discard (.expect (by decide))) fun _ _ => .pure

theorem limitArguments_stays (count : Nat) {cursor : Cursor} :
    Stays tail (Within tail) (limitArguments count) cursor :=
  .choice (fun _ => .look fun _ _ _ _ => .report rfl) fun _ => .pure

theorem moreArguments_stays (reads : StaysExpr tail inner) (count : Nat) (cursor : Cursor) :
    Stays tail (Within tail) (moreArguments inner fuel count) cursor := by
  induction fuel generalizing count cursor with
  | zero => exact .overflow
  | succ fuel ih =>
    refine .look fun token rest here _ => .choice (fun spells => ?_) fun _ => .pure
    refine .bind (.discard (.spelled here spells (by decide))) fun _ _ => ?_
    refine .bind (limitArguments_stays count) fun _ after => ?_
    refine .bind (reads after) fun _ after => ?_
    exact .bind (ih (count + 1) after) fun _ _ => .pure

theorem arguments_stays (reads : StaysExpr tail inner) (cursor : Cursor) :
    Stays tail (Within tail) (arguments fuel inner) cursor := by
  refine .look fun token rest _ _ => .choice (fun _ => .pure) fun _ => ?_
  refine .bind (reads cursor) fun _ after => ?_
  exact .bind (moreArguments_stays reads 1 after) fun _ _ => .pure

theorem calls_stays (reads : StaysExpr tail inner) (rounds : Nat) (callee : Expr) :
    StaysExpr tail (calls fuel inner rounds callee) := by
  induction rounds generalizing callee with
  | zero => exact fun _ => .overflow
  | succ rounds ih =>
    intro cursor
    refine .look fun token rest here _ => .choice (fun spells => ?_) fun _ => .pure
    refine .bind (.discard (.spelled here spells (by decide))) fun _ after => ?_
    refine .bind (arguments_stays reads after) fun _ after => ?_
    exact .bind (.expect (by decide)) fun _ after => ih _ after

theorem signed_stays (operands : StaysExpr tail operand) (reads : StaysExpr tail inner) :
    StaysExpr tail (signed fuel operand inner) := by
  intro cursor
  refine .look fun token rest here _ => .choice (fun sign => ?_) fun _ => ?_
  · have other : token.lexeme ≠ ";" := by
      rcases Bool.or_eq_true_iff.mp sign with spells | spells <;>
        rw [(Token.spells_iff.mp spells).2] <;> decide
    apply Stays.nested
    refine .bind (.advance here other) fun _ after => ?_
    exact .bind (operands after) fun _ _ => .pure
  · exact .bind (primary_stays reads cursor) fun callee after => calls_stays reads fuel callee after

theorem joined_stays {level : Level} (known : level ∈ levels) (operands : StaysExpr tail operand)
    (left : Expr) : StaysExpr tail (joined level operand fuel left) := by
  induction fuel generalizing left with
  | zero => exact fun _ => .overflow
  | succ fuel ih =>
    intro cursor
    refine .look fun token rest here _ => .choice (fun connects => ?_) fun _ => .pure
    -- No level has the semicolon among its operators.
    have apart : ∀ level ∈ levels, ";" ∉ level.operators := by decide
    obtain ⟨text, member, spells⟩ := List.any_eq_true.mp connects
    have other : text ≠ ";" := fun same => apart level known (same ▸ member)
    refine .bind (.spelled here spells other) fun _ after => ?_
    exact .bind (operands after) fun _ after => ih _ after

theorem operation_stays (operands : StaysExpr tail operand) (among : List Level)
    (known : ∀ level ∈ among, level ∈ levels) :
    StaysExpr tail (among.foldr (chain fuel) operand) := by
  induction among with
  | nil => exact operands
  | cons level tighter ih =>
    obtain ⟨here, others⟩ := List.forall_mem_cons.mp known
    intro cursor
    exact .bind (ih others cursor) fun left after => joined_stays here (ih others) left after

theorem assigned_stays (target : Expr) (equals : Token) (value : Expr) :
    StaysExpr tail (assigned target equals value) := by
  intro cursor
  unfold assigned
  split
  · exact .pure
  · exact .bind (.report rfl) fun _ _ => .pure

theorem assignment_stays {left : Nat → Read Expr} (operations : ∀ stack, StaysExpr tail (left stack))
    (stack : Nat) : StaysExpr tail (assignment left stack) := by
  induction stack with
  | zero => exact fun _ => .overflow
  | succ stack ih =>
    intro cursor
    refine .bind (operations stack cursor) fun target after => ?_
    refine .look fun token rest here _ => .choice (fun spells => ?_) fun _ => .pure
    refine .bind (.spelled here spells (by decide)) fun equals after => ?_
    exact .bind (ih after) fun value after => assigned_stays target equals value after

theorem expressionOver_stays {operand : Nat → Read Expr}
    (operands : ∀ stack, StaysExpr tail (operand stack)) (stack : Nat) :
    StaysExpr tail (expressionOver fuel operand stack) := by
  have operations (stack : Nat) : StaysExpr tail (operation fuel (operand stack)) :=
    operation_stays (operands stack) levels fun _ member => member
  exact fun _ => .nested (.calling fun left => assignment_stays operations left _)

theorem operandAt_stays (room stack : Nat) : StaysExpr tail (operandAt fuel room stack) := by
  -- With less room below, an operand is built from operands and expressions.
  induction room generalizing stack with
  | zero => exact signed_stays (fun _ => .refuse rfl) fun _ => .refuse rfl
  | succ room ih =>
    exact signed_stays (fun cursor => .calling fun left => ih left cursor) (expressionOver_stays ih stack)

/-- An expression is read, or refused, within the stretch. -/
theorem expressionAt_stays (room stack : Nat) : StaysExpr tail (expressionAt fuel room stack) := by
  cases room with
  | zero => exact fun _ => .nested (.refuse rfl)
  | succ room => exact expressionOver_stays (operandAt_stays room) stack

end

/-! ### Statements -/

section

variable {tail : List Token} {expr : Read Expr} {stmt : Read Stmt} {fuel : Nat}

/-- A reader of statements comes to the end of the stretch. -/
abbrev EndsStmt (tail : List Token) (reader : Read Stmt) : Prop :=
  ∀ cursor, Stays tail (· = tail) reader cursor

theorem ifAt_stays {α : Type} {reader : Read α} {text : String} (other : text ≠ ";")
    (reads : ∀ cursor, Stays tail (Within tail) reader cursor) (cursor : Cursor) :
    Stays tail (Within tail) (ifAt text reader) cursor := by
  refine .look fun token rest here _ => .choice (fun spells => ?_) fun _ => .pure
  refine .bind (.discard (.spelled here spells other)) fun _ after => ?_
  exact .bind (reads after) fun _ _ => .pure

theorem expressionStatement_ends (exprs : StaysExpr tail expr) :
    EndsStmt tail (expressionStatement expr) :=
  fun cursor => .bind (exprs cursor) fun value _ => .made .semicolon fun _ => Stmt.expression value

theorem printStatement_ends (exprs : StaysExpr tail expr) : EndsStmt tail (printStatement expr) := by
  intro cursor
  refine .bind (.discard (.expect (by decide))) fun _ after => ?_
  exact .bind (exprs after) fun value _ => .made .semicolon fun _ => Stmt.print value

theorem variableDeclaration_ends (exprs : StaysExpr tail expr) :
    EndsStmt tail (variableDeclaration expr) := by
  intro cursor
  refine .bind (.discard (.expect (by decide))) fun _ _ => .bind .expectName fun target after => ?_
  refine .bind (ifAt_stays (by decide) exprs after) fun initial _ => ?_
  exact .made .semicolon fun _ => Stmt.declare target initial

/-- Behind the stretch, no `else` follows. -/
theorem ifStatement_ends {token : Token} {rest : List Token} (going : tail = token :: rest)
    (other : token.spells "else" = false) (exprs : StaysExpr tail expr) (stmts : EndsStmt tail stmt) :
    EndsStmt tail (ifStatement expr stmt) := by
  intro cursor
  refine .bind (.discard (.expect (by decide))) fun _ _ => ?_
  refine .bind (.discard (.expect (by decide))) fun _ after => .bind (exprs after) fun condition _ => ?_
  refine .bind (.discard (.expect (by decide))) fun _ after => ?_
  refine .last (stmts after) fun yes final ended => ⟨.branch condition yes none, ?_⟩
  rw [ifAt, bind_apply, bind_apply, current_apply (ended.trans going)]
  dsimp only
  rw [other, if_neg Bool.false_ne_true]
  rfl

theorem whileStatement_ends (exprs : StaysExpr tail expr) (stmts : EndsStmt tail stmt) :
    EndsStmt tail (whileStatement expr stmt) := by
  intro cursor
  refine .bind (.discard (.expect (by decide))) fun _ _ => ?_
  refine .bind (.discard (.expect (by decide))) fun _ after => .bind (exprs after) fun condition _ => ?_
  refine .bind (.discard (.expect (by decide))) fun _ after => ?_
  exact .made (stmts after) (Stmt.loop condition)

/-- A stretch holds neither a `for` nor a block. -/
theorem statementOver_ends {first : Read Expr} {declaration : Read (Option Stmt)} {token : Token}
    {rest : List Token} (going : tail = token :: rest) (other : token.spells "else" = false)
    (exprs : StaysExpr tail expr) (stmts : EndsStmt tail stmt) :
    EndsStmt tail (statementOver fuel first expr stmt declaration) := by
  intro cursor
  refine .look fun token rest _ known => .choice (fun kind => ?_) fun _ => ?_
  · rcases known with inner | border
    · exact absurd kind inner.whole
    · rw [border.kind] at kind
      cases kind
  refine .choice (fun _ => ifStatement_ends going other exprs stmts cursor) fun _ => ?_
  refine .choice (fun _ => printStatement_ends exprs cursor) fun _ => ?_
  refine .choice (fun _ => whileStatement_ends exprs stmts cursor) fun _ => ?_
  refine .choice (fun spells => ?_) fun _ => expressionStatement_ends exprs cursor
  have text := (Token.spells_iff.mp spells).2
  rcases known with inner | border
  · exact absurd text inner.braceless
  · rw [border.text] at text
    exact absurd text (by decide)

theorem statementAt_ends {token : Token} {rest : List Token} (going : tail = token :: rest)
    (other : token.spells "else" = false) (stack room : Nat) :
    EndsStmt tail (statementAt fuel stack room) := by
  induction room generalizing stack with
  | zero => exact fun _ => .nested (.refuse rfl)
  | succ room ih =>
    exact fun _ => .nested (.calling fun left =>
      statementOver_ends going other (expressionAt_stays room left) (ih left) _)

/-- A declaration or statement is read to the end of the stretch, or refused within it. -/
theorem declarationOn_ends {token : Token} {rest : List Token} (going : tail = token :: rest)
    (other : token.spells "else" = false) (stack room : Nat) :
    EndsStmt tail (declarationOn (expressionAt fuel room) (statementAt fuel · room) stack) := by
  refine fun cursor => .calling fun left => .look fun _ _ _ _ => .choice (fun _ => ?_) fun _ => ?_
  · exact variableDeclaration_ends (fun cursor => .calling fun less => expressionAt_stays room less cursor)
      cursor
  · exact statementAt_ends going other left room cursor

end

end Grammar

end Lox
