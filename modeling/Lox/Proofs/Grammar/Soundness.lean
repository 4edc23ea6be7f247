import Lox.Proofs.Grammar.Derivation
import Lox.Proofs.Grammar.Progress
import Lox.Proofs.Source.Spelling

/-!
# What is read without a report derives

On tokens whose kinds and texts agree, a reader that returns without a report has passed tokens that
derive from its symbol, and returns the tree that they stand for. A statement that could take an
`else` is returned only where none follows.
-/
namespace Lox.Grammar

variable {α β : Type} {cursor : Cursor} {passed : List Token} {added : List StaticReport}

/-- An end of input is to come, and the kinds of all tokens agree with their texts. -/
structure Cursor.Regular (cursor : Cursor) : Prop where
  ends : cursor.Ends
  regular : ∀ token ∈ cursor.rest, token.Regular

theorem Cursor.Regular.reaches {after : Cursor} (regular : cursor.Regular)
    (reach : cursor.Reaches after passed added) : after.Regular where
  ends := reach.ends regular.ends
  regular token member := regular.regular token <| by
    rw [reach.rest]
    exact List.mem_append_right _ member

/-- A token under the cursor that is spelled somehow is not the end of input. -/
theorem Cursor.Regular.inside (regular : cursor.Regular) {token : Token} {rest : List Token}
    (here : cursor.rest = token :: rest) {text : String} (spelled : token.spells text = true)
    (some : text ≠ "") : token.isEnd = false :=
  (regular.regular token (here ▸ List.mem_cons_self)).inside spelled some

/-- What is passed without a report is related to the result. -/
abbrev Yields (relation : List Token → α → Prop) : Done α :=
  fun result passed added _ => added = [] → relation passed result

/-- A stop that is not for want of tokens. -/
abbrev Provided : Stopped := fun stop _ _ => stop ≠ .exhausted

/-- A stop because the stack, or the rounds of a loop, are used up. -/
abbrev Overflows : Stopped := fun stop _ _ => stop = .overflow

/-- On tokens whose kinds and texts agree, what is read meets a condition. -/
abbrev Sound (reader : Read α) (done : Done α) : Prop :=
  ∀ cursor : Cursor, cursor.Regular → Meets reader cursor [] [] done Provided

namespace Meets

variable {next : Token → Read β} {then_ : Unit → Read β} {done : Done β}

/-- Goes on with what is read. -/
theorem andThen {reader : Read α} {onward : α → Read β} {known : Done α}
    (first : Meets reader cursor [] [] known Provided)
    (second : ∀ result more extra after, cursor.Reaches after more extra →
      known result more extra after →
      Meets (onward result) after (passed ++ more) (added ++ extra) done Provided) :
    Meets (reader >>= onward) cursor passed added done Provided :=
  .bind first (fun _ _ _ stop => stop) second

/-- Passes a token that is not the end of input. -/
theorem step {token : Token} {rest : List Token} (here : cursor.rest = token :: rest)
    (inside : token.isEnd = false)
    (onward : ∀ after, cursor.Reaches after [token] [] →
      Meets (then_ ()) after (passed ++ [token]) added done Provided) :
    Meets (discard Grammar.advance >>= then_) cursor passed added done Provided :=
  .pass here fun _ after reach taken => by
    obtain rfl := taken.eq_singleton inside
    exact onward after reach

/-- Goes on with a token that is passed and is not the end of input. -/
theorem stepWith {token : Token} {rest : List Token} (here : cursor.rest = token :: rest)
    (inside : token.isEnd = false)
    (onward : ∀ after, cursor.Reaches after [token] [] →
      Meets (next token) after (passed ++ [token]) added done Provided) :
    Meets (Grammar.advance >>= next) cursor passed added done Provided :=
  .advance here fun _ after reach taken => by
    obtain rfl := taken.eq_singleton inside
    exact onward after reach

/-- Passes a token of some spelling. -/
theorem spelled (regular : cursor.Regular) {text what : String} (some : text ≠ "")
    (onward : ∀ token after, token.spells text = true → cursor.Reaches after [token] [] →
      after.Regular → Meets (then_ ()) after (passed ++ [token]) added done Provided) :
    Meets (discard (Grammar.expect text what) >>= then_) cursor passed added done Provided :=
  .expect regular.ends (fun _ => nofun) fun token rest _ after here known reach taken => by
    have inside := regular.inside here known some
    obtain rfl := taken.eq_singleton inside
    exact onward token after known reach (regular.reaches reach)

/-- Goes on with a token that is passed and has some property of tokens inside the input. -/
theorem foundWith {reader : Read Token} {property : Token → Prop} {error : StaticError}
    (regular : cursor.Regular)
    (meets : Meets reader cursor [] [] (Found property cursor) (Refuses error))
    (inside : ∀ token, token.Regular → property token → token.isEnd = false)
    (onward : ∀ token after, property token → cursor.Reaches after [token] [] →
      after.Regular → Meets (next token) after (passed ++ [token]) added done Provided) :
    Meets (reader >>= next) cursor passed added done Provided :=
  .found meets (fun _ => nofun) fun token rest _ after here known reach taken => by
    have inside := inside token (regular.regular token (here ▸ List.mem_cons_self)) known
    obtain rfl := taken.eq_singleton inside
    exact onward token after known reach (regular.reaches reach)

/-- Reads with one more construct open, if it may be. -/
theorem opened {construct : Nesting} {body : Read α} {done : Done α} (regular : cursor.Regular)
    (inner : ∀ deeper : Cursor, deeper.rest = cursor.rest → deeper.Regular →
      Meets body deeper passed added
        (fun result more extra after =>
          done result more extra { after with depth := cursor.depth }) Provided) :
    Meets (Grammar.nested construct body) cursor passed added done Provided := by
  by_cases full : cursor.cap ≤ cursor.depth
  · exact .nested_full regular.ends full fun _ => nofun
  · have deeper : Cursor.Regular { cursor with depth := cursor.depth + 1 } :=
      ⟨regular.ends, regular.regular⟩
    exact .nested (Nat.lt_of_not_le full) (inner _ rfl deeper)

end Meets

/-! ### Expressions -/

section Operands

variable {fuel room : Nat} {inner : Read Expr}

theorem leaf_of_leaf? {token : Token} {leaf : Expr} (found : leaf? token = some leaf) :
    Leaf token leaf := by
  unfold leaf? at found
  split at found <;> simp only [Option.some.injEq, reduceCtorEq] at found
  case h_1 kind => exact found ▸ .number kind
  case h_2 kind => exact found ▸ .text kind
  case h_3 kind => exact found ▸ .yes kind
  case h_4 kind => exact found ▸ .no kind
  case h_5 kind => exact found ▸ .nil kind
  case h_6 kind => exact found ▸ .name kind

theorem Leaf.inside {token : Token} {leaf : Expr} (derived : Leaf token leaf) :
    token.isEnd = false := by
  cases derived <;> simp_all [Token.isEnd]

theorem primary_sound
    (reads : Sound inner (Yields (Derives room .expression)))
    (regular : cursor.Regular) :
    Meets (primary inner) cursor [] [] (Yields (Derives room .primary)) Provided := by
  refine .look regular.ends fun token rest here => ?_
  split
  next leaf found =>
    have derived := leaf_of_leaf? found
    exact .step here derived.inside fun _ _ => .pure fun _ => .leaf derived
  next =>
    split
    next opening =>
      have inside := regular.inside here opening (by decide)
      refine .step here inside fun after reach => ?_
      have regular := regular.reaches reach
      refine .andThen (reads after regular) fun expr q b after reach known => ?_
      refine .spelled (regular.reaches reach) (by decide) fun closing after closed _ _ => ?_
      refine .pure fun quiet => ?_
      exact .grouping opening (known (by simpa using quiet)) closed
    next => exact .refuse regular.ends fun _ => nofun

/-- Up to the bound, an argument is read without a report. -/
theorem limitArguments_sound (ends : cursor.Ends) (count : Nat) :
    Meets (limitArguments count) cursor [] []
      (fun _ more extra _ => more = [] ∧ (extra = [] → count < maxArguments)) Provided := by
  unfold limitArguments
  split
  next =>
    refine .look ends fun token rest here => ?_
    refine .last (.reported token .tooManyArguments) (fun _ _ _ stop => stop.elim) ?_
    rintro _ _ _ after - ⟨rfl, rfl⟩
    exact ⟨rfl, fun quiet => by simp at quiet⟩
  next few => exact .pure ⟨rfl, fun _ => Nat.lt_of_not_le few⟩

/-- Some tokens are arguments after the first `count`. -/
def DerivesMore (room count : Nat) (tokens : List Token) (given : List Expr) : Prop :=
  ∃ others : List Argument, (∀ argument ∈ others, argument.comma.spells "," = true) ∧
    (∀ argument ∈ others, Derives room .expression argument.tokens argument.expr) ∧
    tokens = others.flatMap Argument.span ∧ given = others.map Argument.expr ∧
    (others ≠ [] → count + others.length ≤ maxArguments)

theorem moreArguments_sound
    (reads : Sound inner (Yields (Derives room .expression)))
    (rounds count : Nat) (regular : cursor.Regular) :
    Meets (moreArguments inner rounds count) cursor [] [] (Yields (DerivesMore room count))
      Provided := by
  -- The induction is on the rounds. Running out of them is a stop, so the tokens need not be counted.
  induction rounds generalizing cursor count with
  | zero => exact .throw nofun
  | succ rounds ih =>
    refine .look regular.ends fun token rest here => ?_
    split
    next comma =>
      have inside := regular.inside here comma (by decide)
      refine .step here inside fun after reach => ?_
      have regular := regular.reaches reach
      refine .andThen (limitArguments_sound regular.ends count) ?_
      rintro _ _ a after reach ⟨rfl, few⟩
      have regular := regular.reaches reach
      refine .andThen (reads after regular) fun expr q b after reach known => ?_
      have regular := regular.reaches reach
      refine .andThen (ih (count + 1) regular) fun more r c after _ others => .pure fun quiet => ?_
      simp only [List.nil_append, List.append_eq_nil_iff] at quiet
      -- No part has reported, so each is known to derive.
      obtain ⟨⟨rfl, rfl⟩, rfl⟩ := quiet
      obtain ⟨arguments, commas, derived, rfl, rfl, bounded⟩ := others rfl
      refine ⟨⟨token, q, expr⟩ :: arguments, ?_, ?_, by simp [Argument.span], rfl, fun _ => ?_⟩
      · exact List.forall_mem_cons.mpr ⟨comma, commas⟩
      · exact List.forall_mem_cons.mpr ⟨known rfl, derived⟩
      · have few := few rfl
        -- Only the last argument knows of the bound: its own check has passed without a report.
        cases arguments with
        | nil => simpa [Nat.succ_le_iff] using few
        | cons first rest =>
          have := bounded (List.cons_ne_nil _ _)
          simp only [List.length_cons] at this ⊢
          omega
    next => exact .pure fun _ => ⟨[], by simp, by simp, rfl, rfl, fun some => absurd rfl some⟩

/-- The arguments of a call: none, or a first one and more. -/
def DerivesArguments (room : Nat) (tokens : List Token) (given : List Expr) : Prop :=
  tokens = [] ∧ given = [] ∨ ∃ front first back more, tokens = front ++ back ∧
    given = first :: more ∧ Derives room .expression front first ∧ DerivesMore room 1 back more

theorem arguments_sound
    (reads : Sound inner (Yields (Derives room .expression)))
    (regular : cursor.Regular) :
    Meets (arguments fuel inner) cursor [] [] (Yields (DerivesArguments room)) Provided := by
  refine .look regular.ends fun token rest here => ?_
  split
  next => exact .pure fun _ => .inl ⟨rfl, rfl⟩
  next =>
    refine .andThen (reads cursor regular) fun first p a after reach known => ?_
    refine .andThen (moreArguments_sound reads fuel 1 (regular.reaches reach))
      fun more q b after _ others => .pure fun quiet => ?_
    simp only [List.nil_append, List.append_eq_nil_iff] at quiet
    exact .inr ⟨p, first, q, more, by simp, rfl, known quiet.1, others quiet.2⟩

/-- A call derives from a callee and its arguments. -/
theorem Derives.called {tokens given : List Token} {callee : Expr} {exprs : List Expr}
    {opening closing : Token} (derived : Derives room .call tokens callee)
    (opened : opening.spells "(" = true) (arguments : DerivesArguments room given exprs)
    (closed : closing.spells ")" = true) :
    Derives room .call (tokens ++ [opening] ++ given ++ [closing])
      (.call callee closing exprs) := by
  rcases arguments with ⟨rfl, rfl⟩ | ⟨front, first, back, more, rfl, rfl, known, others⟩
  · simpa using Derives.callBare derived opened closed
  · obtain ⟨others, commas, all, rfl, rfl, bounded⟩ := others
    have few : others.length < maxArguments := by
      cases others with
      | nil => decide
      | cons other rest => have := bounded (List.cons_ne_nil _ _); omega
    simpa using Derives.callWith derived opened known commas all closed few

theorem calls_sound
    (reads : Sound inner (Yields (Derives room .expression)))
    (rounds : Nat) (callee : Expr) (regular : cursor.Regular)
    (known : added = [] → Derives room .call passed callee) :
    Meets (calls fuel inner rounds callee) cursor passed added (Yields (Derives room .call))
      Provided := by
  -- The invariant of the loop is that what was passed so far derives the callee.
  induction rounds generalizing cursor callee passed added with
  | zero => exact .throw nofun
  | succ rounds ih =>
    refine .look regular.ends fun token rest here => ?_
    split
    next opening =>
      have inside := regular.inside here opening (by decide)
      refine .step here inside fun after reach => ?_
      have regular := regular.reaches reach
      refine .andThen (arguments_sound reads regular) fun given q b after reach arguments => ?_
      refine .foundWith (regular.reaches reach) (.expected (regular.reaches reach).ends _ _)
        (fun _ regular known => regular.inside known (by decide))
        fun closing after closed _ regular => ?_
      refine ih (.call callee closing given) regular fun quiet => ?_
      rw [List.append_eq_nil_iff] at quiet
      exact (known quiet.1).called opening (arguments quiet.2) closed
    next => exact .pure known

theorem signed_sound {operand : Read Expr}
    (operands : Sound operand
      (Yields fun tokens expr => ∃ less, room = less + 1 ∧ Derives less .unary tokens expr))
    (reads : Sound inner (Yields (Derives room .expression)))
    (regular : cursor.Regular) :
    Meets (signed fuel operand inner) cursor [] [] (Yields (Derives room .unary)) Provided := by
  refine .look regular.ends fun token rest here => ?_
  split
  next sign =>
    have sign : token.spells "!" = true ∨ token.spells "-" = true := by simpa using sign
    have inside : token.isEnd = false :=
      sign.elim (regular.inside here · (by decide)) (regular.inside here · (by decide))
    -- Only a sign opens a level. A call is read on the level that there is.
    refine .opened regular fun deeper same regular => ?_
    refine .stepWith (same.trans here) inside fun after reach => ?_
    refine .andThen (operands after (regular.reaches reach))
      fun expr q b after _ known => .pure fun quiet => ?_
    obtain ⟨less, rfl, derived⟩ := known (by simpa using quiet)
    exact .sign sign derived
  next =>
    refine .andThen (primary_sound reads regular) fun callee p a after reach known => ?_
    have called : Meets (calls fuel inner fuel callee) after ([] ++ p) ([] ++ a)
        (Yields (Derives room .call)) Provided :=
      calls_sound reads fuel callee (regular.reaches reach) fun quiet => .primary (known quiet)
    exact called.mono fun _ _ _ _ known quiet => .call (known quiet)

end Operands

/-! ### Operations and assignments -/

section Operations

variable {fuel room : Nat} {operand : Read Expr}

theorem joined_sound {level : Level} {tighter : List Level}
    (operators : ∀ text ∈ level.operators, text ≠ "")
    (operands : Sound operand (Yields (Derives room (.operation tighter))))
    (rounds : Nat) (left : Expr) (regular : cursor.Regular)
    (known : added = [] → Derives room (.operation (level :: tighter)) passed left) :
    Meets (joined level operand rounds left) cursor passed added
      (Yields (Derives room (.operation (level :: tighter)))) Provided := by
  -- The invariant of the loop is that what was passed so far derives the left operand.
  induction rounds generalizing cursor left passed added with
  | zero => exact .throw nofun
  | succ rounds ih =>
    refine .look regular.ends fun token rest here => ?_
    split
    next spelled =>
      obtain ⟨text, member, spelled⟩ := List.any_eq_true.mp spelled
      have inside := regular.inside here spelled (operators text member)
      refine .stepWith here inside fun after reach => ?_
      have regular := regular.reaches reach
      refine .andThen (operands after regular) fun right q b after reach derived => ?_
      refine ih (level.join left token right) (regular.reaches reach) fun quiet => ?_
      rw [List.append_eq_nil_iff] at quiet
      simpa using Derives.join (known quiet.1) ⟨text, member, spelled⟩ (derived quiet.2)
    next => exact .pure known

theorem operation_sound (tighter : List Level)
    (operators : ∀ level ∈ tighter, ∀ text ∈ level.operators, text ≠ "")
    (operands : Sound operand (Yields (Derives room .unary)))
    (regular : cursor.Regular) :
    Meets (tighter.foldr (chain fuel) operand) cursor [] []
      (Yields (Derives room (.operation tighter))) Provided := by
  -- The operands of a level are the operations of the tighter levels.
  induction tighter generalizing cursor with
  | nil => exact (operands cursor regular).mono fun _ _ _ _ known quiet => .unary (known quiet)
  | cons level tighter ih =>
    rw [List.forall_mem_cons] at operators
    refine .andThen (ih operators.2 regular) fun left p a after reach known => ?_
    exact joined_sound operators.1 (fun _ => ih operators.2) fuel left (regular.reaches reach)
      fun quiet => .operand (known quiet)

/-- Only a single token derives a bare name. -/
theorem Derives.of_name {symbol : Symbol} {tokens : List Token} {token : Token}
    (derived : Derives room symbol tokens (.name token)) :
    tokens = [token] ∧ token.kind = .identifier := by
  -- The tree is a variable for the induction, with what it equals kept beside it.
  generalize same : Expr.name token = expr at derived
  induction derived with
  | expression _ ih | operation _ ih | operand _ ih | unary _ ih | call _ ih | primary _ ih =>
    exact ih same
  | @join _ level =>
    exact absurd same (by unfold Level.join; split <;> exact nofun)
  | leaf known =>
    subst same
    cases known with
    | name kind => exact ⟨rfl, kind⟩
  | assign | sign | callBare | callWith | grouping => exact absurd same nofun

theorem assigned_sound {target value : Expr} {equals : Token} {before after : List Token}
    {first second : List StaticReport} (spelled : equals.spells "=" = true)
    (left : first = [] → Derives room (.operation levels) before target)
    (right : second = [] → Derives room .assignment after value) :
    Meets (assigned target equals value) cursor (before ++ equals :: after) (first ++ second)
      (Yields (Derives room .assignment)) Provided := by
  unfold assigned
  split
  next token =>
    refine .pure fun quiet => ?_
    -- A variable derives from its name alone, which is what an assignment begins with.
    rw [List.append_eq_nil_iff] at quiet
    obtain ⟨rfl, kind⟩ := (left quiet.1).of_name
    exact .assign kind spelled (right quiet.2)
  next =>
    refine .report fun _ _ => .pure fun quiet => ?_
    simp at quiet

theorem assignment_sound {left : Nat → Read Expr}
    (lefts : ∀ stack, Sound (left stack) (Yields (Derives room (.operation levels))))
    (stack : Nat) (regular : cursor.Regular) :
    Meets (assignment left stack) cursor [] [] (Yields (Derives room .assignment)) Provided := by
  induction stack generalizing cursor with
  | zero => exact .throw nofun
  | succ stack ih =>
    refine .andThen (lefts stack cursor regular) fun target p a after reach known => ?_
    have regular := regular.reaches reach
    refine .look regular.ends fun token rest here => ?_
    split
    next spelled =>
      have inside := regular.inside here spelled (by decide)
      refine .stepWith here inside fun after reach => ?_
      have regular := regular.reaches reach
      refine .andThen (ih regular) fun value q b after reach derived => ?_
      have judged : Meets (assigned target token value) after (p ++ token :: q) (a ++ b)
          (Yields (Derives room .assignment)) Provided :=
        assigned_sound spelled known derived
      simpa using judged
    next => exact .pure fun quiet => .operation (known quiet)

theorem expressionOver_sound {operand : Nat → Read Expr}
    (operands : ∀ stack, Sound (operand stack) (Yields (Derives room .unary)))
    (stack : Nat) (regular : cursor.Regular) :
    Meets (expressionOver fuel operand stack) cursor [] []
      (Yields (Derives (room + 1) .expression)) Provided := by
  have lefts stack : Sound (operation fuel (operand stack))
      (Yields (Derives room (.operation levels))) :=
    fun _ => operation_sound levels (by decide) (operands stack)
  refine .opened regular fun deeper _ regular => ?_
  have read : Meets (calling expressionLevels stack
      (assignment fun stack => operation fuel (operand stack))) deeper [] []
      (Yields (Derives room .assignment)) Provided :=
    .calling nofun fun left => assignment_sound lefts left regular
  exact read.mono fun _ _ _ _ known quiet => .expression (known quiet)

end Operations

theorem operandAt_sound (fuel room stack : Nat) (regular : cursor.Regular) :
    Meets (operandAt fuel room stack) cursor [] [] (Yields (Derives room .unary)) Provided := by
  -- Without room a sign and a parenthesis refuse what is inside them, so nothing has to derive.
  induction room generalizing cursor stack with
  | zero =>
    exact signed_sound (fun _ regular => .refuse regular.ends fun _ => nofun)
      (fun _ regular => .refuse regular.ends fun _ => nofun) regular
  | succ room ih =>
    refine signed_sound (fun cursor regular => ?_) (fun cursor regular => ?_) regular
    · refine .calling nofun fun left => ?_
      exact (ih left regular).mono fun _ _ _ _ known quiet => ⟨room, rfl, known quiet⟩
    · exact expressionOver_sound (fun stack _ => ih stack) stack regular

theorem expressionAt_sound (fuel room stack : Nat) (regular : cursor.Regular) :
    Meets (expressionAt fuel room stack) cursor [] [] (Yields (Derives room .expression))
      Provided := by
  cases room with
  | zero =>
    exact .opened regular fun _ _ regular => .refuse regular.ends fun _ => nofun
  | succ room => exact expressionOver_sound (fun _ _ => operandAt_sound fuel room _) stack regular

/-! ### Statements -/

/-- What is passed without a report derives a statement. A statement that could take an `else` has
none behind it. -/
abbrev Closes (room : Nat) (place : Place) : Done Stmt := fun stmt passed added after =>
  added = [] → ∃ opened, DerivesStatement room place passed stmt opened ∧
    (opened = true → ∀ next more, after.rest = next :: more → next.spells "else" = false)

/-- An optional part is there exactly if the lexeme before it is. -/
def Introduced (text : String) (cursor : Cursor) (done : Done α) : Done (Option α) :=
  fun result passed added after =>
    match result with
    | none => passed = [] ∧ ∃ token more, after.rest = token :: more ∧ token.spells text = false
    | some value => ∃ token tail, (∃ more, cursor.rest = token :: more) ∧
        token.spells text = true ∧ passed = token :: tail ∧ done value tail added after

section Statements

variable {fuel room : Nat} {first expr : Read Expr} {stmt : Read Stmt}

theorem ifAt_sound {text : String} (some : text ≠ "") {body : Read α} {done : Done α}
    (reads : Sound body done) (regular : cursor.Regular) :
    Meets (ifAt text body) cursor [] [] (Introduced text cursor done) Provided := by
  refine .look regular.ends fun token rest here => ?_
  split
  next spelled =>
    have inside := regular.inside here spelled some
    refine .step here inside fun after reach => ?_
    refine .andThen (reads after (regular.reaches reach)) fun value tail a after _ known => .pure ?_
    exact ⟨token, tail, ⟨rest, here⟩, spelled, rfl, known⟩
  next other => exact .pure ⟨rfl, token, rest, here, Bool.not_eq_true _ ▸ other⟩

theorem unlessAt_sound {text : String}
    (reads : Sound expr (Yields (Derives room .expression))) :
    Sound (unlessAt text expr) (Yields (DerivesOptional room)) := by
  intro cursor regular
  refine .look regular.ends fun token rest here => ?_
  split
  next => exact .pure fun _ => .none
  next =>
    refine .andThen (reads cursor regular) fun value p a after _ known => .pure fun quiet => ?_
    exact .some (known (by simpa using quiet))

theorem variableDeclaration_sound (reads : Sound expr (Yields (Derives room .expression))) :
    Sound (variableDeclaration expr) (Yields (DerivesVariable room)) := by
  intro cursor regular
  refine .spelled regular (by decide) fun word after introduced reach regular => ?_
  refine .foundWith regular (.named regular.ends _)
    (fun token _ named => by simp [Token.isEnd, named]) fun target after named reach regular => ?_
  refine .andThen (ifAt_sound (by decide) reads regular) fun initial p a after reach known => ?_
  refine .spelled (regular.reaches reach) (by decide) fun stop _ ended _ _ => .pure fun quiet => ?_
  cases initial with
  | none =>
    obtain ⟨rfl, -⟩ := known
    exact .bare introduced named ended
  | some value =>
    obtain ⟨equals, tail, -, assigns, rfl, derived⟩ := known
    exact .initial introduced named assigns (derived (by simpa using quiet)) ended

theorem expressionStatement_sound (reads : Sound expr (Yields (Derives room .expression))) :
    Sound (expressionStatement expr) (Yields (DerivesAlone room)) := by
  intro cursor regular
  refine .andThen (reads cursor regular) fun value p a after reach known => ?_
  refine .spelled (regular.reaches reach) (by decide) fun stop _ ended _ _ => .pure fun quiet => ?_
  exact .alone (known (by simpa using quiet)) ended

theorem printStatement_sound (reads : Sound expr (Yields (Derives room .expression))) :
    Sound (printStatement expr) (Closes (room + 1) .statement) := by
  intro cursor regular
  refine .spelled regular (by decide) fun word after introduced _ regular => ?_
  refine .andThen (reads after regular) fun value p a after reach known => ?_
  refine .spelled (regular.reaches reach) (by decide) fun stop _ ended _ _ => .pure fun quiet => ?_
  -- A semicolon ends it, so no `else` can be its own.
  exact ⟨false, .print introduced (known (by simpa using quiet)) ended, nofun⟩

theorem ifStatement_sound (reads : Sound expr (Yields (Derives room .expression)))
    (bodies : Sound stmt (Closes room .statement)) :
    Sound (ifStatement expr stmt) (Closes (room + 1) .statement) := by
  intro cursor regular
  refine .spelled regular (by decide) fun word after introduced _ regular => ?_
  refine .spelled regular (by decide) fun opening after opened _ regular => ?_
  refine .andThen (reads after regular) fun condition p a after reach test => ?_
  refine .spelled (regular.reaches reach) (by decide) fun closing after closed _ regular => ?_
  refine .andThen (bodies after regular) fun yes q b after reach first => ?_
  have regular := regular.reaches reach
  refine .andThen (ifAt_sound (by decide) bodies regular)
    fun no r c last _ second => .pure fun quiet => ?_
  simp only [List.nil_append, List.append_eq_nil_iff] at quiet
  obtain ⟨⟨rfl, rfl⟩, rfl⟩ := quiet
  obtain ⟨open_, yes, alone⟩ := first rfl
  -- Without an `else` part the statement is open, and what the reader saw was none.
  cases no with
  | none =>
    obtain ⟨rfl, next, more, there, other⟩ := second
    refine ⟨true, ?_, fun _ next' more' same => ?_⟩
    · simpa using DerivesStatement.ifThen introduced opened (test rfl) closed yes
    · rw [there, List.cons.injEq] at same
      exact same.1 ▸ other
  | some no =>
    obtain ⟨between, tail, ⟨more, there⟩, parts, rfl, no⟩ := second
    obtain ⟨dangling, no, free⟩ := no rfl
    -- A branch that could take the `else` would have taken it.
    have shut : open_ = false := by
      cases open_ with
      | false => rfl
      | true => exact absurd (alone rfl between more there) (by simp [parts])
    subst shut
    refine ⟨dangling, ?_, free⟩
    simpa using DerivesStatement.ifElse introduced opened (test rfl) closed yes parts no

theorem whileStatement_sound (reads : Sound expr (Yields (Derives room .expression)))
    (bodies : Sound stmt (Closes room .statement)) :
    Sound (whileStatement expr stmt) (Closes (room + 1) .statement) := by
  intro cursor regular
  refine .spelled regular (by decide) fun word after introduced _ regular => ?_
  refine .spelled regular (by decide) fun opening after opened _ regular => ?_
  refine .andThen (reads after regular) fun condition p a after reach test => ?_
  refine .spelled (regular.reaches reach) (by decide) fun closing after closed _ regular => ?_
  refine .andThen (bodies after regular) fun body q b after reach known => .pure fun quiet => ?_
  simp only [List.nil_append, List.append_eq_nil_iff] at quiet
  obtain ⟨open_, derived, free⟩ := known quiet.2
  refine ⟨open_, ?_, free⟩
  simpa using DerivesStatement.loop introduced opened (test quiet.1) closed derived

theorem forInitial_sound (reads : Sound expr (Yields (Derives room .expression))) :
    Sound (forInitial expr) (Yields (DerivesInitial room)) := by
  intro cursor regular
  refine .look regular.ends fun token rest here => ?_
  split
  next stop =>
    have inside := regular.inside here stop (by decide)
    exact .step here inside fun _ _ => .pure fun _ => .none stop
  next =>
    split
    next =>
      refine .andThen (variableDeclaration_sound reads cursor regular)
        fun first p a _ _ known => .pure fun quiet => ?_
      exact .declared (known (by simpa using quiet))
    next =>
      refine .andThen (expressionStatement_sound reads cursor regular)
        fun first p a _ _ known => .pure fun quiet => ?_
      exact .alone (known (by simpa using quiet))

theorem forStatement_sound (firsts : Sound first (Yields (Derives room .expression)))
    (reads : Sound expr (Yields (Derives room .expression)))
    (bodies : Sound stmt (Closes room .statement)) :
    Sound (forStatement first expr stmt) (Closes (room + 1) .statement) := by
  intro cursor regular
  refine .spelled regular (by decide) fun word after introduced _ regular => ?_
  refine .spelled regular (by decide) fun opening after opened _ regular => ?_
  refine .andThen (forInitial_sound firsts after regular) fun initial p a after reach first => ?_
  have regular := regular.reaches reach
  refine .andThen (unlessAt_sound reads after regular) fun condition q b after reach second => ?_
  refine .spelled (regular.reaches reach) (by decide) fun stop after ended _ regular => ?_
  refine .andThen (unlessAt_sound reads after regular) fun increment r c after reach third => ?_
  refine .spelled (regular.reaches reach) (by decide) fun closing after closed _ regular => ?_
  refine .andThen (bodies after regular) fun body t d after reach known => .pure fun quiet => ?_
  simp only [List.nil_append, List.append_eq_nil_iff] at quiet
  obtain ⟨⟨⟨rfl, rfl⟩, rfl⟩, rfl⟩ := quiet
  obtain ⟨open_, derived, free⟩ := known rfl
  refine ⟨open_, ?_, free⟩
  simpa using DerivesStatement.forLoop introduced opened (first rfl) (second rfl) ended (third rfl)
    closed derived

/-! ### Lists of declarations -/

/-- On tokens whose kinds and texts agree, what is read meets a condition, and nothing is refused. -/
abbrev Recovered (reader : Read α) (done : Done α) : Prop :=
  ∀ cursor : Cursor, cursor.Regular → Meets reader cursor [] [] done Overflows

/-- What is passed without a report derives a declaration. -/
def Listed (room : Nat) (tokens : List Token) (result : Option Stmt) : Prop :=
  ∃ stmt opened, result = some stmt ∧ DerivesStatement room .declaration tokens stmt opened

theorem declarationOver_sound (reads : Sound expr (Yields (Derives room .expression)))
    (bodies : Sound stmt (Closes room .statement)) :
    Sound (declarationOver expr stmt) (Yields fun tokens stmt => ∃ opened,
      DerivesStatement room .declaration tokens stmt opened) := by
  intro cursor regular
  refine .look regular.ends fun token rest here => ?_
  split
  next =>
    exact (variableDeclaration_sound reads cursor regular).mono
      fun _ _ _ _ known quiet => ⟨false, .declared (known quiet)⟩
  next =>
    refine (bodies cursor regular).mono fun _ _ _ _ known quiet => ?_
    obtain ⟨opened, derived, -⟩ := known quiet
    exact ⟨opened, .statement derived⟩

/-- A statement that is refused is reported, so only what is read in full has to derive. -/
theorem recovering_sound {body : Read Stmt}
    (reads : Sound body (Yields fun tokens stmt => ∃ opened,
      DerivesStatement room .declaration tokens stmt opened)) :
    Recovered (recovering body) (Yields (Listed room)) := by
  intro cursor regular
  refine .recovering (reads cursor regular) ?_ ?_ fun stop _ _ unrefused provided => ?_
  · intro stmt p a after _ known quiet
    obtain ⟨opened, derived⟩ := known quiet
    exact ⟨stmt, opened, rfl, derived⟩
  · intro error token p a after reach _
    have ends := reach.ends regular.ends
    obtain ⟨next, others, there⟩ := ends.exists_cons
    refine (recovered_meets error token ends there).last (fun _ _ _ => False.elim) ?_
    rintro _ _ _ _ - ⟨rfl, -⟩ quiet
    simp at quiet
  · cases stop with
    | refused error token => exact absurd rfl (unrefused error token)
    | overflow => rfl
    | exhausted => exact absurd rfl provided

theorem declarationOn_sound {expr : Nat → Read Expr} {stmt : Nat → Read Stmt} (stack : Nat)
    (reads : ∀ stack, Sound (expr stack) (Yields (Derives room .expression)))
    (bodies : ∀ stack, Sound (stmt stack) (Closes room .statement)) :
    Sound (declarationOn expr stmt stack) (Yields fun tokens stmt => ∃ opened,
      DerivesStatement room .declaration tokens stmt opened) := fun cursor regular =>
  .calling nofun fun left => declarationOver_sound
    (fun cursor regular => .calling nofun fun left => reads left cursor regular) (bodies left)
    cursor regular

theorem declarations_sound (closes : Token → Bool) {declaration : Read (Option Stmt)}
    (reads : Recovered declaration (Yields (Listed room))) (rounds : Nat) :
    Recovered (declarations closes declaration rounds) (fun stmts passed added after =>
      Yields (DerivesProgram room) stmts passed added after ∧
        ∃ token rest, after.rest = token :: rest ∧ (closes token || token.isEnd) = true) := by
  intro cursor regular
  -- The condition on the end is kept aside: it holds whatever was reported.
  induction rounds generalizing cursor with
  | zero => exact .throw rfl
  | succ rounds ih =>
    refine .look regular.ends fun token rest here => ?_
    split
    next stops => exact .pure ⟨fun _ => ⟨[], by simp, rfl, rfl⟩, token, rest, here, stops⟩
    next =>
      refine .bind (reads cursor regular) (fun _ _ _ stop => stop) fun first p a after reach known => ?_
      refine .bind (ih after (regular.reaches reach)) (fun _ _ _ stop => stop)
        fun more q b after _ ⟨others, stops⟩ => .pure ⟨fun quiet => ?_, stops⟩
      simp only [List.nil_append, List.append_eq_nil_iff] at quiet
      obtain ⟨stmt, opened, rfl, derived⟩ := known quiet.1
      obtain ⟨items, all, rfl, rfl⟩ := others quiet.2
      exact ⟨⟨p, stmt, opened⟩ :: items, List.forall_mem_cons.mpr ⟨derived, all⟩, rfl, rfl⟩

theorem blockStatement_sound {declaration : Read (Option Stmt)}
    (reads : Recovered declaration (Yields (Listed room))) :
    Sound (blockStatement fuel declaration) (Closes (room + 1) .statement) := by
  intro cursor regular
  refine .spelled regular (by decide) fun opening after opened _ regular => ?_
  refine .bind (declarations_sound _ reads fuel after regular)
    (fun _ _ _ overflows provided => absurd (overflows.symm.trans provided) nofun)
    fun body p a after reach known => ?_
  refine .spelled (regular.reaches reach) (by decide) fun closing _ closed _ _ => .pure fun quiet => ?_
  obtain ⟨items, all, rfl, rfl⟩ := known.1 (by simpa using quiet)
  exact ⟨false, .block opened all closed, nofun⟩

/-! ### Any statement -/

theorem statementOver_sound {declaration : Read (Option Stmt)}
    (firsts : Sound first (Yields (Derives room .expression)))
    (reads : Sound expr (Yields (Derives room .expression)))
    (bodies : Sound stmt (Closes room .statement))
    (listed : Recovered declaration (Yields (Listed room))) :
    Sound (statementOver fuel first expr stmt declaration) (Closes (room + 1) .statement) := by
  intro cursor regular
  refine .look regular.ends fun token rest here => ?_
  split
  next => exact forStatement_sound firsts reads bodies cursor regular
  split
  next => exact ifStatement_sound reads bodies cursor regular
  split
  next => exact printStatement_sound reads cursor regular
  split
  next => exact whileStatement_sound reads bodies cursor regular
  split
  next => exact blockStatement_sound listed cursor regular
  next =>
    exact (expressionStatement_sound reads cursor regular).mono
      fun _ _ _ _ known quiet => ⟨false, .alone (known quiet), nofun⟩

end Statements

theorem statementAt_sound (fuel stack room : Nat) :
    Sound (statementAt fuel stack room) (Closes room .statement) := by
  intro cursor regular
  induction room generalizing stack cursor with
  | zero => exact .opened regular fun _ _ regular => .refuse regular.ends fun _ => nofun
  | succ room ih =>
    refine .opened regular fun deeper _ regular => .calling nofun fun left => ?_
    exact statementOver_sound
      (fun _ regular => .calling nofun fun less => expressionAt_sound fuel room less regular)
      (fun _ => expressionAt_sound fuel room left) (ih left)
      (recovering_sound (declarationOn_sound left (fun stack _ => expressionAt_sound fuel room stack) ih))
      deeper regular

theorem declarationAt_sound (fuel stack room : Nat) :
    Recovered (declarationAt fuel stack room) (Yields (Listed room)) :=
  recovering_sound (declarationOn_sound stack (fun stack _ => expressionAt_sound fuel room stack)
    fun stack => statementAt_sound fuel stack room)

/-- Without a report, a program is read from a derivation of what is passed, up to the end. Nothing but an
overflow keeps it from being read. -/
theorem program_sound (stack : Nat) (regular : cursor.Regular) :
    Meets (program stack) cursor [] [] (fun stmts passed added after =>
      Yields (DerivesProgram (cursor.cap - cursor.depth)) stmts passed added after ∧
        ∃ token rest, after.rest = token :: rest ∧ token.isEnd = true) Overflows := by
  have read := declarations_sound (fun _ => false)
    (declarationAt_sound (cursor.rest.length + 1) stack (cursor.cap - cursor.depth))
    (cursor.rest.length + 1) cursor regular
  simp only [Bool.false_or] at read
  unfold Meets at read ⊢
  rw [program_apply]
  exact read

end Lox.Grammar
