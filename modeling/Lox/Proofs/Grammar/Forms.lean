import Lox.Proofs.Grammar.Soundness
import Lox.Proofs.Printing.Canonical
import Lox.Proofs.Syntax.Formed

/-!
# What readers make has the form of the grammar

Whatever is reported on the way and whatever is passed over, a reader of scanned tokens makes trees of the
form that the grammar gives them. A statement that could take an `else` is only left where none follows.
-/
namespace Lox.Grammar

section

variable {α β : Type} {property : α → List Token → Prop} {goal : β → List Token → Prop}
  {reader : Read α} {next : α → Read β} {cursor : Cursor}

/-! ### What readers make of scanned tokens -/

/-- From scanned tokens a reader comes to scanned tokens, whatever its outcome, and its result has a
property that may depend on what follows it. -/
def Forms (property : α → List Token → Prop) (reader : Read α) (cursor : Cursor) : Prop :=
  (∀ token ∈ cursor.rest, token.Scanned) →
    match reader cursor with
    | .ok result after => (∀ token ∈ after.rest, token.Scanned) ∧ property result after.rest
    | .error _ after => ∀ token ∈ after.rest, token.Scanned

namespace Forms

theorem pure {result : α} (known : property result cursor.rest) :
    Forms property (pure result) cursor :=
  fun scanned => ⟨scanned, known⟩

theorem throw (stop : Stop) : Forms property (MonadExcept.throw stop : Read α) cursor :=
  fun scanned => scanned

theorem bind (first : Forms property reader cursor)
    (onward : ∀ result after, property result after.rest → Forms goal (next result) after) :
    Forms goal (reader >>= next) cursor := by
  intro scanned
  have here := first scanned
  rw [bind_apply]
  cases outcome : reader cursor with
  | ok result after =>
    rw [outcome] at here
    exact onward result after here.2 here.1
  | error stop after =>
    rw [outcome] at here
    exact here

theorem mono {looser : α → List Token → Prop} (forms : Forms property reader cursor)
    (weaker : ∀ result rest, property result rest → looser result rest) :
    Forms looser reader cursor := by
  intro scanned
  have here := forms scanned
  split at here
  · exact ⟨here.1, weaker _ _ here.2⟩
  · exact here

/-- A reader whose result is not used. -/
theorem discarded (first : Forms property reader cursor) :
    Forms (fun _ rest => ∃ result, property result rest) (Functor.discard reader) cursor := by
  intro scanned
  have here := first scanned
  rw [discard_apply]
  cases outcome : reader cursor with
  | ok result after =>
    rw [outcome] at here
    exact ⟨here.1, result, here.2⟩
  | error stop after =>
    rw [outcome] at here
    exact here

theorem discard {next : Unit → Read β} (first : Forms property reader cursor)
    (onward : ∀ after, Forms goal (next ()) after) :
    Forms goal (Functor.discard reader >>= next) cursor :=
  bind (discarded first) fun _ after _ => onward after

theorem choice {condition : Prop} [Decidable condition] {yes no : Read α}
    (first : condition → Forms property yes cursor) (second : ¬condition → Forms property no cursor) :
    Forms property (if condition then yes else no) cursor := by
  split
  · exact first ‹_›
  · exact second ‹_›

theorem calling {levels stack : Nat} {body : Nat → Read α}
    (forms : ∀ left, Forms property (body left) cursor) :
    Forms property (calling levels stack body) cursor :=
  choice (fun _ => forms _) fun _ => throw _

theorem current : Forms (fun _ _ => True) Grammar.current cursor := by
  intro scanned
  cases here : cursor.rest with
  | nil =>
    rw [Grammar.current, here]
    exact scanned
  | cons token rest =>
    rw [current_apply here]
    exact ⟨scanned, trivial⟩

/-- Goes on with the token under the cursor, which is scanned. -/
theorem look {next : Token → Read β} (onward : ∀ token rest, cursor.rest = token :: rest →
      token.Scanned → Forms goal (next token) cursor) :
    Forms goal (Grammar.current >>= next) cursor := by
  intro scanned
  cases here : cursor.rest with
  | nil =>
    rw [bind_apply, Grammar.current, here]
    exact scanned
  | cons token rest =>
    rw [bind_apply, current_apply here]
    exact onward token rest here (scanned token (by simp [here])) scanned

theorem advance : Forms (fun passed _ => cursor.rest.head? = some passed) Grammar.advance cursor := by
  intro scanned
  cases here : cursor.rest with
  | nil =>
    rw [Grammar.advance, here]
    exact scanned
  | cons token rest =>
    cases last : token.isEnd with
    | true =>
      rw [advance_apply_end here last]
      exact ⟨scanned, rfl⟩
    | false =>
      rw [advance_apply here last]
      rw [here, List.forall_mem_cons] at scanned
      exact ⟨scanned.2, rfl⟩

/-- The token that is passed is the one that was looked at. -/
theorem passing {next : Token → Read β} {token : Token} {rest : List Token}
    (here : cursor.rest = token :: rest) (onward : ∀ after, Forms goal (next token) after) :
    Forms goal (Grammar.advance >>= next) cursor := by
  refine bind advance ?_
  intro passed after same
  rw [here, List.head?_cons, Option.some.injEq] at same
  subst same
  exact onward after

/-- A step whose result does not matter. -/
theorem step (first : Forms (fun _ _ => True) reader cursor)
    (onward : ∀ result after, Forms goal (next result) after) : Forms goal (reader >>= next) cursor :=
  bind first fun result after _ => onward result after

theorem refuse (error : StaticError) : Forms property (Grammar.refuse error : Read α) cursor :=
  look fun _ _ _ _ => throw _

theorem report (token : Token) (error : StaticError) :
    Forms (fun _ _ => True) (Grammar.report token error) cursor :=
  fun scanned => ⟨scanned, trivial⟩

theorem expect (text what : String) : Forms (fun _ _ => True) (Grammar.expect text what) cursor :=
  look fun _ _ _ _ => choice (fun _ => advance.mono fun _ _ _ => trivial) fun _ => refuse _

theorem expectName (what : String) :
    Forms (fun token _ => token.kind = .identifier) (Grammar.expectName what) cursor := by
  refine look fun token rest here _ => choice (fun kind => advance.mono ?_) fun _ => refuse _
  intro passed _ same
  rw [here, List.head?_cons, Option.some.injEq] at same
  exact same ▸ kind

/-- The tokens to come are the same inside a construct. -/
theorem nested {construct : Nesting}
    (inside : Forms property reader { cursor with depth := cursor.depth + 1 }) :
    Forms property (Grammar.nested construct reader) cursor := by
  intro scanned
  unfold Grammar.nested
  by_cases full : cursor.cap ≤ cursor.depth
  · rw [if_pos full]
    exact refuse _ scanned
  · rw [if_neg full]
    have here := inside scanned
    cases outcome : reader { cursor with depth := cursor.depth + 1 } with
    | ok result after =>
      rw [outcome] at here
      exact here
    | error stop after =>
      rw [outcome] at here
      exact here

end Forms

end

/-! ### Operands -/

/-- An expression that has the form of the grammar, in a place that calls for a precedence. -/
structure Fits (least : Nat) (expr : Expr) : Prop where
  formed : expr.Formed
  tight : least ≤ expr.tightness

theorem Fits.loosen {least looser : Nat} {expr : Expr} (fits : Fits least expr)
    (enough : looser ≤ least) : Fits looser expr :=
  ⟨fits.formed, Nat.le_trans enough fits.tight⟩

/-- A reader of expressions for a place that calls for a precedence. -/
abbrev FormsExpr (least : Nat) (reader : Read Expr) : Prop :=
  ∀ cursor, Forms (fun expr _ => Fits least expr) reader cursor

section

variable {inner operand expr : Read Expr} {fuel : Nat}

theorem FormsExpr.loosen {least looser : Nat} (forms : FormsExpr least operand)
    (enough : looser ≤ least) : FormsExpr looser operand :=
  fun cursor => (forms cursor).mono fun _ _ fits => fits.loosen enough

theorem Leaf.fits {token : Token} {leaf : Expr} (derived : Leaf token leaf) (scanned : token.Scanned) :
    Fits Precedence.primary leaf := by
  cases derived with
  | number kind => exact ⟨.literal (scanned.printable (.inl kind)), Nat.le_refl _⟩
  | text kind => exact ⟨.literal (scanned.printable (.inr kind)), Nat.le_refl _⟩
  | yes | no | nil => exact ⟨.literal trivial, Nat.le_refl _⟩
  | name kind => exact ⟨.name kind, Nat.le_refl _⟩

theorem primary_forms (reads : FormsExpr Precedence.assignment inner) :
    FormsExpr Precedence.primary (primary inner) := by
  intro cursor
  refine .look fun token rest here scanned => ?_
  split
  next leaf found =>
    exact .discard .advance fun after => .pure ((leaf_of_leaf? found).fits scanned)
  next =>
    refine .choice (fun opening => ?_) fun other => .refuse _
    refine .discard .advance fun after => .bind (reads after) fun inner after known => ?_
    exact .discard (.expect _ _) fun after => .pure ⟨.grouping known.formed, Nat.le_refl _⟩

theorem limitArguments_forms (count : Nat) {cursor : Cursor} :
    Forms (fun _ _ => True) (limitArguments count) cursor :=
  .choice (fun _ => .look fun _ _ _ _ => .report _ _) fun _ => .pure trivial

theorem moreArguments_forms (reads : FormsExpr Precedence.assignment inner) (count : Nat)
    (cursor : Cursor) :
    Forms (fun given _ => ∀ expr ∈ given, expr.Formed) (moreArguments inner fuel count) cursor := by
  induction fuel generalizing count cursor with
  | zero => exact .throw _
  | succ fuel ih =>
    refine .look fun token rest here scanned => .choice (fun comma => ?_) fun other => .pure (by simp)
    -- The comma is passed, and the limit on arguments only reports.
    refine .discard .advance fun after => .step (limitArguments_forms count) fun _ after => ?_
    refine .bind (reads after) fun first after known => ?_
    refine .bind (ih (count + 1) after) fun more after others => ?_
    exact .pure (List.forall_mem_cons.mpr ⟨known.formed, others⟩)

theorem arguments_forms (reads : FormsExpr Precedence.assignment inner) (cursor : Cursor) :
    Forms (fun given _ => ∀ expr ∈ given, expr.Formed) (arguments fuel inner) cursor := by
  refine .look fun token rest here scanned => .choice (fun closing => .pure (by simp)) fun other => ?_
  refine .bind (reads cursor) fun first after known => ?_
  refine .bind (moreArguments_forms reads 1 after) fun more after others => ?_
  exact .pure (List.forall_mem_cons.mpr ⟨known.formed, others⟩)

theorem calls_forms (reads : FormsExpr Precedence.assignment inner) (rounds : Nat) {callee : Expr}
    (known : Fits Precedence.call callee) : FormsExpr Precedence.call (calls fuel inner rounds callee) := by
  induction rounds generalizing callee with
  | zero => exact fun _ => .throw _
  | succ rounds ih =>
    intro cursor
    refine .look fun token rest here scanned => .choice (fun opening => ?_) fun other => .pure known
    refine .discard .advance fun after => .bind (arguments_forms reads after) fun given after all => ?_
    refine .step (.expect _ _) fun closing after => ?_
    -- What is called in the next round is this call.
    exact ih ⟨.call known.formed known.tight all, Nat.le_refl _⟩ after

theorem signed_forms (operands : FormsExpr Precedence.unary operand)
    (reads : FormsExpr Precedence.assignment inner) :
    FormsExpr Precedence.unary (signed fuel operand inner) := by
  intro cursor
  refine .look fun token rest here scanned => .choice (fun sign => ?_) fun other => ?_
  · have among : token.lexeme ∈ ["!", "-"] := by
      rcases Bool.or_eq_true_iff.mp sign with spelled | spelled
      · simp [(Token.spells_iff.mp spelled).2]
      · simp [(Token.spells_iff.mp spelled).2]
    refine .nested (.passing here fun after => .bind (operands after) fun value after known => ?_)
    exact .pure ⟨.unary among known.formed known.tight, Nat.le_refl _⟩
  · refine .bind (primary_forms reads cursor) fun callee after known => ?_
    refine (calls_forms reads fuel (known.loosen (by decide)) after).mono fun _ _ called => ?_
    exact called.loosen (by decide)

/-! ### Operators between operands -/

/-- An operand of a level and one of the levels above it hold together beside an operator of the level. -/
theorem join_fits {level : Level} {tighter : List Level} {left right : Expr} {op : Token}
    (known : level :: tighter <:+ levels) (spelled : level.operators.any op.spells = true)
    (first : Fits (Precedence.unary - (tighter.length + 1)) left)
    (second : Fits (Precedence.unary - tighter.length) right) :
    Fits (Precedence.unary - (tighter.length + 1)) (level.join left op right) := by
  obtain ⟨index, found, place, next⟩ := level_of_suffix known
  obtain ⟨text, member, shows⟩ := List.any_eq_true.mp spelled
  obtain ⟨-, rfl⟩ := Token.spells_iff.mp shows
  obtain ⟨binds, connects, operates⟩ := operator_level found member
  rw [← place] at first ⊢
  rw [← next] at second
  unfold Level.join
  cases kind : level.shortCircuit with
  | true =>
    refine ⟨.logical (connects kind) binds first.formed first.tight second.formed second.tight, ?_⟩
    exact Nat.le_of_eq (Expr.tightness_logical binds).symm
  | false =>
    refine ⟨.binary (operates kind).1 binds first.formed first.tight second.formed second.tight, ?_⟩
    exact Nat.le_of_eq (Expr.tightness_binary binds).symm

theorem joined_forms {level : Level} {tighter : List Level} (known : level :: tighter <:+ levels)
    (operands : FormsExpr (Precedence.unary - tighter.length) operand) {left : Expr}
    (before : Fits (Precedence.unary - (tighter.length + 1)) left) :
    FormsExpr (Precedence.unary - (tighter.length + 1)) (joined level operand fuel left) := by
  induction fuel generalizing left with
  | zero => exact fun _ => .throw _
  | succ fuel ih =>
    intro cursor
    refine .look fun token rest here scanned => .choice (fun spelled => ?_) fun other => .pure before
    refine .passing here fun after => .bind (operands after) fun right after known_right => ?_
    -- The joined tree is the left operand of the next operator.
    exact ih (join_fits known spelled before known_right) after

theorem operation_forms (tighter : List Level) (known : tighter <:+ levels)
    (operands : FormsExpr Precedence.unary operand) :
    FormsExpr (Precedence.unary - tighter.length) (tighter.foldr (chain fuel) operand) := by
  induction tighter with
  | nil => exact operands
  | cons level tighter ih =>
    have inside := ih ((List.suffix_cons _ _).trans known)
    intro cursor
    refine .bind (inside cursor) fun left after first => ?_
    exact joined_forms known inside (first.loosen (Nat.sub_le_sub_left (Nat.le_succ _) _)) after

/-! ### Expressions -/

/-- What is assigned to is a name, or is kept in the place of the whole. -/
theorem assigned_forms {target value : Expr} (known : Fits Precedence.assignment target)
    (given : Fits Precedence.assignment value) (equals : Token) :
    FormsExpr Precedence.assignment (assigned target equals value) := by
  intro cursor
  unfold assigned
  split
  next token =>
    have kind : token.kind = .identifier := by
      cases known.formed with
      | name kind => exact kind
    exact .pure ⟨.assign kind given.formed, Nat.le_refl _⟩
  next => exact .step (.report _ _) fun _ after => .pure known

theorem assignment_forms {left : Nat → Read Expr}
    (reads : ∀ stack, FormsExpr Precedence.assignment (left stack)) (stack : Nat) :
    FormsExpr Precedence.assignment (assignment left stack) := by
  induction stack with
  | zero => exact fun _ => .throw _
  | succ stack ih =>
    intro cursor
    refine .bind (reads stack cursor) fun target after known => ?_
    refine .look fun token rest here scanned => .choice (fun spelled => ?_) fun other => .pure known
    refine .step (.mono .advance fun _ _ _ => trivial) fun equals after => ?_
    exact .bind (ih after) fun value after given => assigned_forms known given equals after

theorem expressionOver_forms {operand : Nat → Read Expr}
    (operands : ∀ stack, FormsExpr Precedence.unary (operand stack)) (stack : Nat) :
    FormsExpr Precedence.assignment (expressionOver fuel operand stack) := by
  have operations (stack : Nat) : FormsExpr Precedence.assignment (operation fuel (operand stack)) :=
    (operation_forms levels (List.suffix_refl _) (operands stack)).loosen (by decide)
  exact fun cursor => .nested (.calling fun left => assignment_forms operations left _)

theorem operandAt_forms (room stack : Nat) : FormsExpr Precedence.unary (operandAt fuel room stack) := by
  induction room generalizing stack with
  | zero => exact signed_forms (fun _ => .refuse _) fun _ => .refuse _
  | succ room ih =>
    exact signed_forms (fun cursor => .calling fun left => ih left cursor) (expressionOver_forms ih stack)

theorem expressionAt_forms (room stack : Nat) :
    FormsExpr Precedence.assignment (expressionAt fuel room stack) := by
  cases room with
  | zero => exact fun _ => .nested (.refuse _)
  | succ room => exact expressionOver_forms (operandAt_forms room) stack

end

/-! ### Statements -/

/-- The first of some tokens spells a text. -/
def Leads (text : String) (rest : List Token) : Prop :=
  ∃ token, rest.head? = some token ∧ token.spells text = true

/-- A part that stands behind a lexeme, if the lexeme leads what is still to come. -/
inductive Behind {α : Type} (text : String) (property : α → List Token → Prop) (before : List Token) :
    Option α → List Token → Prop where
  | absent {rest : List Token} : ¬Leads text rest → Behind text property before none rest
  | present {part : α} {rest : List Token} :
      Leads text before → property part rest → Behind text property before (some part) rest

/-- A statement that has the form of the grammar and is no declaration. No `else` follows that it would
take. -/
structure Ends (stmt : Stmt) (rest : List Token) : Prop where
  formed : stmt.Formed
  plain : stmt.declares = false
  ended : stmt.isOpen = true → ¬Leads "else" rest

/-- A reader of statements where no declaration may stand. -/
abbrev FormsStmt (reader : Read Stmt) : Prop := ∀ cursor, Forms Ends reader cursor

/-- A reader of statements where a declaration may stand. -/
abbrev FormsMember (reader : Read Stmt) : Prop := ∀ cursor, Forms (fun stmt _ => stmt.Formed) reader cursor

section

variable {α : Type} {property : α → List Token → Prop} {reader : Read α} {cursor : Cursor}
  {first expr : Read Expr} {stmt : Read Stmt} {fuel : Nat}

theorem ifAt_forms {text : String} (reads : ∀ after, Forms property reader after) :
    Forms (Behind text property cursor.rest) (ifAt text reader) cursor := by
  refine .look fun token rest here _ => .choice (fun spelled => ?_) fun other => .pure (.absent ?_)
  · have leads : Leads text cursor.rest := ⟨token, by rw [here, List.head?_cons], spelled⟩
    refine .discard .advance fun after => .bind (reads after) fun part after known => ?_
    exact .pure (.present leads known)
  · rintro ⟨first, same, spelled⟩
    rw [here, List.head?_cons, Option.some.injEq] at same
    exact other (same ▸ spelled)

theorem unlessAt_forms {text : String} (reads : Forms property reader cursor) :
    Forms (fun result rest => ∀ part ∈ result, property part rest) (unlessAt text reader) cursor := by
  refine .look fun token rest here _ => .choice (fun spelled => .pure nofun) fun other => ?_
  refine .bind reads fun part after known => .pure ?_
  rintro _ ⟨⟩
  exact known

theorem semicolon_forms (what : String) : Forms (fun _ _ => True) (semicolon what) cursor :=
  .mono (.discarded (.expect _ _)) fun _ _ _ => trivial

theorem expressionStatement_forms (exprs : FormsExpr Precedence.assignment expr) :
    FormsStmt (expressionStatement expr) := by
  intro cursor
  refine .bind (exprs cursor) fun value after known => ?_
  exact .step (semicolon_forms _) fun _ after => .pure ⟨.expression known.formed, rfl, nofun⟩

theorem printStatement_forms (exprs : FormsExpr Precedence.assignment expr) :
    FormsStmt (printStatement expr) := by
  intro cursor
  refine .discard (.expect _ _) fun after => .bind (exprs after) fun value after known => ?_
  exact .step (semicolon_forms _) fun _ after => .pure ⟨.print known.formed, rfl, nofun⟩

theorem variableDeclaration_forms (exprs : FormsExpr Precedence.assignment expr) :
    FormsMember (variableDeclaration expr) := by
  intro cursor
  refine .discard (.expect _ _) fun after => .bind (.expectName _) fun target after kind => ?_
  refine .bind (ifAt_forms exprs) fun initial after known => ?_
  refine .step (semicolon_forms _) fun _ after => .pure ?_
  cases known with
  | absent => exact .declare kind
  | present _ known => exact .declareAs kind known.formed

theorem ifStatement_forms (exprs : FormsExpr Precedence.assignment expr) (stmts : FormsStmt stmt) :
    FormsStmt (ifStatement expr stmt) := by
  intro cursor
  refine .discard (.expect _ _) fun after => .discard (.expect _ _) fun after => ?_
  refine .bind (exprs after) fun condition after test => .discard (.expect _ _) fun after => ?_
  refine .bind (stmts after) fun yes between first => ?_
  refine .bind (ifAt_forms stmts) fun no after known => .pure ?_
  cases known with
  | absent none => exact ⟨.ifThen test.formed first.formed first.plain, rfl, fun _ => none⟩
  | present leads second =>
    -- An open statement would have been read on, up to the `else` and beyond.
    have closed : yes.isOpen = false := Bool.eq_false_iff.mpr fun isOpen => first.ended isOpen leads
    exact ⟨.ifElse test.formed first.formed first.plain closed second.formed second.plain, rfl, second.ended⟩

theorem whileStatement_forms (exprs : FormsExpr Precedence.assignment expr) (stmts : FormsStmt stmt) :
    FormsStmt (whileStatement expr stmt) := by
  intro cursor
  refine .discard (.expect _ _) fun after => .discard (.expect _ _) fun after => ?_
  refine .bind (exprs after) fun condition after test => .discard (.expect _ _) fun after => ?_
  refine .bind (stmts after) fun body after known => ?_
  exact .pure ⟨.loop test.formed known.formed known.plain, rfl, known.ended⟩

theorem forInitial_forms (exprs : FormsExpr Precedence.assignment expr) :
    Forms (fun initial _ => ∀ first ∈ initial, Stmt.Formed first) (forInitial expr) cursor := by
  have one {first : Stmt} (known : first.Formed) : ∀ stmt ∈ some first, stmt.Formed := by
    rintro _ ⟨⟩
    exact known
  refine .look fun token rest here _ => .choice (fun empty => ?_) fun other => ?_
  · exact .discard .advance fun after => .pure nofun
  refine .choice (fun spelled => ?_) fun plain => ?_
  · exact .bind (variableDeclaration_forms exprs _) fun first after known => .pure (one known)
  · exact .bind (expressionStatement_forms exprs _) fun first after known => .pure (one known.formed)

/-- The increment and the initializer stand in blocks, which close what is open in them. -/
theorem forLoop_formed {initial : Option Stmt} {condition : Expr} {increment : Option Expr} {body : Stmt}
    (first : ∀ stmt ∈ initial, stmt.Formed) (test : condition.Formed)
    (step : ∀ expr ∈ increment, expr.Formed) (known : body.Formed) (plain : body.declares = false) :
    (forLoop initial condition increment body).Formed := by
  have pair {one other : Stmt} (known : one.Formed) (more : other.Formed) :
      (Stmt.block [one, other]).Formed :=
    .block (List.forall_mem_cons.mpr ⟨known, List.forall_mem_singleton.mpr more⟩)
  have whole : (forLoop none condition increment body).Formed := by
    cases increment with
    | none => exact .loop test known plain
    | some expr => exact .loop test (pair known (.expression (step expr rfl))) rfl
  cases initial with
  | none => exact whole
  | some stmt => exact pair (first stmt rfl) whole

theorem forStatement_forms (firsts : FormsExpr Precedence.assignment first)
    (exprs : FormsExpr Precedence.assignment expr) (stmts : FormsStmt stmt) :
    FormsStmt (forStatement first expr stmt) := by
  intro cursor
  refine .discard (.expect _ _) fun after => .discard (.expect _ _) fun after => ?_
  refine .bind (forInitial_forms firsts) fun initial after first => ?_
  refine .bind (unlessAt_forms (exprs after)) fun condition after test => ?_
  refine .step (semicolon_forms _) fun _ after => ?_
  refine .bind (unlessAt_forms (exprs after)) fun increment after step => ?_
  refine .discard (.expect _ _) fun after => .bind (stmts after) fun body after known => .pure ?_
  have tested : (condition.getD (.literal (.bool true))).Formed := by
    cases condition with
    | none => exact .literal trivial
    | some condition => exact (test condition rfl).formed
  exact ⟨forLoop_formed first tested (fun expr member => (step expr member).formed) known.formed known.plain,
    forLoop_ends.1, fun isOpen => known.ended (forLoop_ends.2 isOpen)⟩

/-! ### Lists of declarations -/

theorem recover_forms : Forms (fun _ _ => True) recover cursor := by
  refine .bind .advance fun passed after _ => .step (fun scanned => ?_) fun _ after => ?_
  -- What is skipped is not among the tokens that are still to come.
  · exact ⟨fun token member => scanned token (List.mem_of_mem_drop member), trivial⟩
  · exact .mono (.discarded .current) fun _ _ _ => trivial

/-- A statement that cannot be read leaves nothing. -/
theorem recovering_forms (stmts : FormsMember stmt) :
    Forms (fun result _ => ∀ stmt ∈ result, Stmt.Formed stmt) (recovering stmt) cursor := by
  intro scanned
  have here := stmts cursor scanned
  unfold recovering
  cases outcome : stmt cursor with
  | ok result after =>
    rw [outcome] at here
    refine ⟨here.1, ?_⟩
    rintro _ ⟨⟩
    exact here.2
  | error stop after =>
    rw [outcome] at here
    cases stop with
    | refused error token =>
      have passed : Forms (fun result _ => ∀ stmt ∈ result, Stmt.Formed stmt)
          (do report token error; recover; pure none : Read (Option Stmt)) after :=
        .step (.report _ _) fun _ after => .step recover_forms fun _ after => .pure nofun
      exact passed here
    | overflow | exhausted => exact here

theorem declarationOver_forms (exprs : FormsExpr Precedence.assignment expr) (stmts : FormsStmt stmt) :
    FormsMember (declarationOver expr stmt) := by
  refine fun cursor => .look fun token rest here _ => .choice (fun spelled => ?_) fun other => ?_
  · exact variableDeclaration_forms exprs _
  · exact (stmts _).mono fun _ _ known => known.formed

theorem declarationOn_forms {expr : Nat → Read Expr} {stmt : Nat → Read Stmt}
    (exprs : ∀ stack, FormsExpr Precedence.assignment (expr stack))
    (stmts : ∀ stack, FormsStmt (stmt stack)) (stack : Nat) : FormsMember (declarationOn expr stmt stack) :=
  fun cursor => .calling fun left => declarationOver_forms
    (fun cursor => .calling fun less => exprs less cursor) (stmts left) cursor

theorem declarations_forms {closes : Token → Bool} {declaration : Read (Option Stmt)}
    (reads : ∀ cursor, Forms (fun result _ => ∀ stmt ∈ result, Stmt.Formed stmt) declaration cursor) :
    Forms (fun body _ => ∀ stmt ∈ body, Stmt.Formed stmt) (declarations closes declaration fuel) cursor := by
  induction fuel generalizing cursor with
  | zero => exact .throw _
  | succ fuel ih =>
    refine .look fun token rest here _ => .choice (fun closing => .pure (by simp)) fun other => ?_
    refine .bind (reads _) fun first after known => .bind ih fun more after others => .pure ?_
    rw [List.forall_mem_append]
    exact ⟨fun stmt member => known stmt (Option.mem_toList.mp member), others⟩

theorem blockStatement_forms {declaration : Read (Option Stmt)}
    (reads : ∀ cursor, Forms (fun result _ => ∀ stmt ∈ result, Stmt.Formed stmt) declaration cursor) :
    FormsStmt (blockStatement fuel declaration) := by
  intro cursor
  refine .discard (.expect _ _) fun after => .bind (declarations_forms reads) fun body after all => ?_
  exact .discard (.expect _ _) fun after => .pure ⟨.block all, rfl, nofun⟩

/-! ### Programs -/

theorem statementOver_forms {declaration : Read (Option Stmt)}
    (firsts : FormsExpr Precedence.assignment first) (exprs : FormsExpr Precedence.assignment expr)
    (stmts : FormsStmt stmt)
    (members : ∀ cursor, Forms (fun result _ => ∀ stmt ∈ result, Stmt.Formed stmt) declaration cursor) :
    FormsStmt (statementOver fuel first expr stmt declaration) := by
  intro cursor
  refine .look fun token rest here _ => ?_
  refine .choice (fun _ => forStatement_forms firsts exprs stmts _) fun _ => ?_
  refine .choice (fun _ => ifStatement_forms exprs stmts _) fun _ => ?_
  refine .choice (fun _ => printStatement_forms exprs _) fun _ => ?_
  refine .choice (fun _ => whileStatement_forms exprs stmts _) fun _ => ?_
  refine .choice (fun _ => ?_) fun _ => expressionStatement_forms exprs _
  exact blockStatement_forms members _

theorem statementAt_forms (stack room : Nat) : FormsStmt (statementAt fuel stack room) := by
  induction room generalizing stack with
  | zero => exact fun _ => .nested (.refuse _)
  | succ room ih =>
    refine fun cursor => .nested (.calling fun left => ?_)
    exact statementOver_forms (fun cursor => .calling fun less => expressionAt_forms room less cursor)
      (expressionAt_forms room left) (ih left)
      (fun _ => recovering_forms (declarationOn_forms (expressionAt_forms room) ih left)) _

/-- Every statement of a program that is read from scanned tokens has the form of the grammar. -/
theorem program_forms (stack : Nat) :
    Forms (fun stmts _ => ∀ stmt ∈ stmts, Stmt.Formed stmt) (program stack) cursor := by
  intro scanned
  rw [program_apply]
  exact declarations_forms (fun _ => recovering_forms
    (declarationOn_forms (expressionAt_forms _) (fun stack => statementAt_forms stack _) stack)) scanned

theorem program_formed {stack : Nat} {source : String} {stmts : List Stmt}
    (read : (program stack).run (.start (Source.scan source).tokens) = .ok stmts cursor) :
    ∀ stmt ∈ stmts, stmt.Formed := by
  have forms : Forms _ (program stack) (.start (Source.scan source).tokens) := program_forms stack
  have formed := forms (Source.scan_scanned source)
  change program stack _ = _ at read
  rw [read] at formed
  exact formed.2

end

end Lox.Grammar
