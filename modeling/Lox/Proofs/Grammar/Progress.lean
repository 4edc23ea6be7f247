import Lox.Proofs.Grammar.Reader

/-!
# Reading comes to its end

On every list of tokens with an end of input in it, however odd, the program reader returns: it
stands at the end of input, nothing is open, and every report is paid for by a token that was
passed. The end of input itself is never passed, even where its text spells an operator or a
parenthesis, so a loop that meets it has to stop.
-/
namespace Lox.Grammar

variable {α : Type} {cursor : Cursor} {passed : List Token} {added : List StaticReport}

/-! ### What readers pay -/

/-- More tokens are passed than reports added. -/
def Gains : Done α := fun _ passed added _ => added.length < passed.length

/-- At least as many tokens are passed as reports added. -/
def Keeps : Done α := fun _ passed added _ => added.length ≤ passed.length

/-- Fewer reports are added than tokens passed, or none. -/
def Spares : Done α := fun _ passed added _ => added.length ≤ passed.length - 1

/-- A refusal after at most so many reports for the tokens passed. -/
def Refused (bound : Nat → Nat) : Stopped := fun stop passed added =>
  (∃ error token, stop = .refused error token) ∧ added.length ≤ bound passed.length

/-- A refusal with fewer reports than tokens passed, or with none. -/
abbrev Thrifty : Stopped := Refused (· - 1)

/-- The equals signs that may still come up: those among the tokens, unless the first of them is an end
of input. -/
def equalsSigns : List Token → Nat
  | [] => 0
  | token :: rest => if token.isEnd then 0 else (token :: rest).countP (·.spells "=")

theorem equalsSigns_le (tokens : List Token) : equalsSigns tokens ≤ tokens.countP (·.spells "=") := by
  unfold equalsSigns
  split
  · exact Nat.zero_le _
  · split
    · exact Nat.zero_le _
    · exact Nat.le_refl _

namespace Cursor.Reaches

variable {before middle after : Cursor} {token : Token} {rest more : List Token}
  {extra : List StaticReport}

/-- Where a token is passed, all equals signs from there on count. -/
theorem equalsSigns_eq (reach : before.Reaches after passed added) (some : passed ≠ []) :
    equalsSigns before.rest = (passed ++ after.rest).countP (·.spells "=") := by
  obtain ⟨first, others, rfl⟩ := List.exists_cons_of_ne_nil some
  rw [reach.rest, List.cons_append, equalsSigns, reach.inside first List.mem_cons_self,
    if_neg Bool.false_ne_true]

theorem equalsSigns_le (reach : before.Reaches after passed added) :
    equalsSigns after.rest ≤ equalsSigns before.rest := by
  cases passed with
  | nil => exact Nat.le_of_eq (congrArg equalsSigns reach.rest.symm)
  | cons first others =>
    rw [reach.equalsSigns_eq (List.cons_ne_nil _ _), List.countP_append]
    exact Nat.le_add_left_of_le (Grammar.equalsSigns_le _)

/-- An equals sign that comes up behind a target does not come up again. -/
theorem equalsSigns_lt (reach : before.Reaches middle passed added) (some : passed ≠ [])
    (here : middle.rest = token :: rest) (spelled : token.spells "=" = true)
    (onward : middle.Reaches after more extra) (taken : Takes token more) :
    equalsSigns after.rest < equalsSigns before.rest := by
  have one : (token :: rest).countP (·.spells "=") = rest.countP (·.spells "=") + 1 :=
    List.countP_cons_of_pos spelled
  rw [reach.equalsSigns_eq some, List.countP_append, here, one]
  suffices equalsSigns after.rest ≤ rest.countP (·.spells "=") by omega
  have there := onward.rest
  rcases taken with ⟨-, rfl⟩ | ⟨last, rfl⟩
  · rw [here, List.singleton_append, List.cons.injEq] at there
    rw [← there.2]
    exact Grammar.equalsSigns_le _
  · rw [here, List.nil_append] at there
    rw [← there, equalsSigns, if_pos last]
    exact Nat.zero_le _

end Cursor.Reaches

/-- Levels of the stack that are enough for so many open constructs. An expression takes the most of them:
its own levels and one for its first assignment. Three more are enough for what stands around them all, a
declaration and its variable or the levels of a lone operand. -/
def levelsFor (room : Nat) : Nat := 11 * room + 3

/-- What a reader needs to come to its end: an end of input, the open constructs counted, rounds for
every token, and levels of the stack for every equals sign and every construct that may be opened. -/
structure Ready (fuel room stack : Nat) (cursor : Cursor) : Prop where
  ends : cursor.Ends
  depth : cursor.depth + room = cursor.cap
  fuel : cursor.rest.length < fuel
  stack : equalsSigns cursor.rest + 11 * room < stack

theorem Ready.reaches {fuel room stack : Nat} {after : Cursor}
    (ready : Ready fuel room stack cursor) (reach : cursor.Reaches after passed added) :
    Ready fuel room stack after where
  ends := reach.ends ready.ends
  depth := by rw [reach.depth, reach.cap, ready.depth]
  fuel := by have := reach.length; have := ready.fuel; omega
  stack := by have := reach.equalsSigns_le; have := ready.stack; omega

/-- A reader that comes to its end, and passes more tokens than it adds reports. -/
abbrev Pays (fuel room stack : Nat) (reader : Read α) : Prop :=
  ∀ cursor, Ready fuel room stack cursor → Meets reader cursor [] [] Gains Thrifty

/-- One more construct is open. -/
theorem Ready.deeper {fuel room stack : Nat} (ready : Ready fuel (room + 1) stack cursor) :
    Ready fuel room (stack - 11) { cursor with depth := cursor.depth + 1 } where
  ends := ready.ends
  depth := by have := ready.depth; simp only; omega
  fuel := ready.fuel
  stack := by have := ready.stack; simp only; omega

theorem Ready.more {fuel room stack enough : Nat} (ready : Ready fuel room stack cursor)
    (more : stack ≤ enough) : Ready fuel room enough cursor :=
  ⟨ready.ends, ready.depth, ready.fuel, Nat.lt_of_lt_of_le ready.stack more⟩

/-- There is a level of the stack. -/
theorem Ready.stack_pos {fuel room stack : Nat} (ready : Ready fuel room stack cursor) : 0 < stack :=
  Nat.zero_lt_of_lt ready.stack

/-- A refusal after what was passed and added before it. -/
theorem Refused.after {bound other : Nat → Nat} {stop : Stop} {more : List Token}
    {extra : List StaticReport} (refused : Refused bound stop more extra)
    (known : added.length + bound more.length ≤ other (passed.length + more.length)) :
    Refused other stop (passed ++ more) (added ++ extra) := by
  refine ⟨refused.1, ?_⟩
  rw [List.length_append, List.length_append]
  exact Nat.le_trans (Nat.add_le_add_left refused.2 _) known

theorem refused {bound : Nat → Nat} {error : StaticError} {token : Token}
    (known : added.length ≤ bound passed.length) :
    Refused bound (.refused error token) passed added :=
  ⟨⟨error, token, rfl⟩, known⟩

theorem Takes.eq_singleton {token : Token} (taken : Takes token passed)
    (inside : token.isEnd = false) : passed = [token] := by
  rcases taken with ⟨-, only⟩ | ⟨last, -⟩
  · exact only
  · rw [inside] at last
    exact absurd last (by decide)

/-! ### Expressions -/

section Operands

variable {fuel room stack : Nat} {inner : Read Expr}

/-- The end of input is no expression. -/
theorem leaf?_isEnd {token : Token} {leaf : Expr} (found : leaf? token = some leaf) :
    token.isEnd = false := by
  unfold leaf? at found
  unfold Token.isEnd
  split at found <;> simp_all

theorem primary_meets
    (reads : Pays fuel room stack inner)
    (ready : Ready fuel room stack cursor) :
    Meets (primary inner) cursor [] [] Gains Thrifty := by
  refine .look ready.ends fun token rest here => ?_
  split
  next leaf found =>
    refine .pass here fun p after _ taken => .pure ?_
    rw [taken.eq_singleton (leaf?_isEnd found)]
    exact Nat.one_pos
  next =>
    split
    -- The parenthesis that is passed makes up for the token that a refusal has to spare.
    next =>
      refine .pass here fun p after reach _ => ?_
      have ready := ready.reaches reach
      refine .bind (reads after ready) (fun _ _ _ stop => stop.after ?_)
        fun expr q b after reach gains => ?_
      · simp only [List.length_append, List.length_nil]; omega
      have ready := ready.reaches reach
      refine .expect ready.ends (fun _ => refused ?_) fun _ _ r after _ _ _ _ => .pure ?_
      · simp only [Gains, List.length_append, List.length_nil] at gains ⊢; omega
      · simp only [Gains, List.length_append, List.length_nil] at gains ⊢; omega
    next => exact .refuse ready.ends fun _ => refused (Nat.zero_le _)

theorem limitArguments_meets (ends : cursor.Ends) (count : Nat) :
    Meets (limitArguments count) cursor [] [] (fun _ more extra _ => more = [] ∧ extra.length ≤ 1)
      Thrifty := by
  unfold limitArguments
  split
  next =>
    refine .look ends fun token rest here => ?_
    exact .last (.reported token .tooManyArguments) (fun _ _ _ => False.elim)
      fun _ _ _ _ _ known => by simp [known]
  next => exact .pure ⟨rfl, Nat.zero_le _⟩

/-- Where the comma is the end of input, one report is not paid for by a token of its own. -/
theorem moreArguments_meets
    (reads : Pays fuel room stack inner)
    (rounds count : Nat) (ready : Ready fuel room stack cursor)
    (enough : cursor.rest.length < rounds) :
    Meets (moreArguments inner rounds count) cursor [] [] Keeps (Refused (· + 1)) := by
  -- The induction is on the rounds. Each takes an expression, which passes a token, so the rounds
  -- left stay more than the tokens left and never run out.
  induction rounds generalizing cursor count with
  | zero => exact absurd enough (Nat.not_lt_zero _)
  | succ rounds ih =>
    refine .look ready.ends fun token rest here => ?_
    split
    next =>
      -- The comma may be the end of input and pass nothing, so only the expression after it can pay.
      refine .pass here fun p after reach _ => ?_
      have fewer := reach.length
      have ready := ready.reaches reach
      refine .bind (limitArguments_meets ready.ends count) (fun _ _ _ stop => stop.after ?_) ?_
      · simp only [List.length_append, List.length_nil]; omega
      rintro _ q b after reach ⟨rfl, limited⟩
      have same := reach.length
      have ready := ready.reaches reach
      refine .bind (reads after ready) (fun _ _ _ stop => stop.after ?_)
        fun expr r c after reach gains => ?_
      · simp only [List.length_append, List.length_nil]; omega
      have shorter := reach.length
      have ready := ready.reaches reach
      simp only [Gains, List.length_nil] at gains same
      refine .bind (ih (count + 1) ready (by omega)) (fun _ _ _ stop => stop.after ?_)
        fun more t d after _ keeps => .pure ?_
      · simp only [List.length_append, List.length_nil]; omega
      · simp only [Keeps, List.length_append, List.length_nil] at keeps ⊢; omega
    next => exact .pure (Nat.zero_le _)

/-- Without tokens passed, the arguments end where they start. -/
theorem arguments_meets
    (reads : Pays fuel room stack inner)
    (ready : Ready fuel room stack cursor) :
    Meets (arguments fuel inner) cursor [] []
      (fun result more extra after => Keeps result more extra after ∧
        (more = [] → ∃ token rest, cursor.rest = token :: rest ∧ token.spells ")" = true))
      (Refused id) := by
  refine .look ready.ends fun token rest here => ?_
  split
  -- No argument: nothing is passed, and the closing parenthesis is still ahead.
  next closing => exact .pure ⟨Nat.zero_le _, fun _ => ⟨token, rest, here, closing⟩⟩
  next =>
    refine .bind (reads cursor ready) (fun _ _ _ stop => stop.after ?_)
      fun expr p a after reach gains => ?_
    · simp only [List.length_nil, id]; omega
    have shorter := reach.length
    have short := ready.fuel
    have ready := ready.reaches reach
    simp only [Gains] at gains
    refine .bind (moreArguments_meets reads fuel 1 ready (by omega))
      (fun _ _ _ stop => stop.after ?_) fun more q b after _ keeps => .pure ⟨?_, fun none => ?_⟩
    · simp only [List.nil_append, id]; omega
    · simp only [Keeps, List.length_append, List.nil_append] at keeps ⊢; omega
    -- The first argument has passed a token, so the arguments are not empty.
    · rw [List.nil_append, List.append_eq_nil_iff] at none
      rw [none.1, List.length_nil] at gains
      exact absurd gains (Nat.not_lt_zero _)

theorem calls_meets
    (reads : Pays fuel room stack inner)
    (rounds : Nat) (callee : Expr) (ready : Ready fuel room stack cursor)
    (enough : cursor.rest.length < rounds) :
    Meets (calls fuel inner rounds callee) cursor [] [] Keeps (Refused id) := by
  induction rounds generalizing cursor callee with
  | zero => exact absurd enough (Nat.not_lt_zero _)
  | succ rounds ih =>
    refine .look ready.ends fun token rest here => ?_
    split
    next opening =>
      refine .pass here fun p after reach taken => ?_
      have ready := ready.reaches reach
      refine .bind (arguments_meets reads ready) (fun _ _ _ stop => stop.after ?_)
        fun given q b after' onward ⟨keeps, empty⟩ => ?_
      · simp only [List.nil_append, List.length_nil, id]; omega
      -- The round passes a token: an end of input that opens a call does not close it as well.
      have shorter : 0 < p.length + q.length := by
        rcases taken with ⟨-, rfl⟩ | ⟨last, rfl⟩
        · rw [List.length_singleton]; omega
        · have here : after.rest = token :: rest := by rw [← here, reach.rest, List.nil_append]
          rw [onward.eq_nil_of_isEnd here last] at empty
          obtain ⟨other, others, there, closing⟩ := empty rfl
          rw [here] at there
          rw [← (List.cons.inj there).1] at closing
          exact absurd (Token.spells_unique opening closing) (by decide)
      have first := reach.length
      have second := onward.length
      have ready := ready.reaches onward
      simp only [Keeps] at keeps
      refine .found (.expected ready.ends _ _) (fun _ => refused ?_)
        fun closing _ r after _ _ reach _ => ?_
      · simp only [List.length_append, List.length_nil, id]; omega
      have third := reach.length
      have ready := ready.reaches reach
      -- The call is the callee of the next round.
      refine .last (ih (.call callee closing given) ready (by omega)) (fun _ _ _ stop => stop.after ?_)
        fun result t d after _ keeps => ?_
      · simp only [List.length_append, List.length_nil, id]; omega
      · simp only [Keeps, List.length_append, List.length_nil] at keeps ⊢; omega
    next => exact .pure (Nat.zero_le _)

/-- A sign opens a construct, so its operand is read with less room, and on a level of its own. -/
theorem signed_meets {operand : Read Expr}
    (operands : ∀ less cursor, less + 1 = room → Ready fuel less (stack - 1) cursor →
      Meets operand cursor [] [] Gains Thrifty)
    (reads : Pays fuel room stack inner)
    (ready : Ready fuel room stack cursor) :
    Meets (signed fuel operand inner) cursor [] [] Gains Thrifty := by
  refine .look ready.ends fun token rest here => ?_
  split
  next =>
    -- The room is what the cap leaves, so without room the cursor is at the cap.
    cases room with
    | zero =>
      exact .nested_full ready.ends (Nat.le_of_eq ready.depth.symm)
        fun _ => refused (Nat.zero_le _)
    | succ less =>
      have open_ : cursor.depth < cursor.cap := by have := ready.depth; omega
      refine .nested open_ (.advance here fun p after reach _ => ?_)
      have ready := (ready.deeper.more (show stack - 11 ≤ stack - 1 by omega)).reaches reach
      refine .bind (operands less after rfl ready) (fun _ _ _ stop => stop.after ?_)
        fun expr q b after _ gains => .pure ?_
      · simp only [List.length_append, List.length_nil]; omega
      · simp only [Gains, List.length_append, List.length_nil] at gains ⊢; omega
  next =>
    refine .bind (primary_meets reads ready) (fun _ _ _ stop => stop.after ?_)
      fun callee p a after reach gains => ?_
    · simp only [List.length_nil]; omega
    have short := ready.fuel
    have shorter := reach.length
    simp only [Gains] at gains
    refine .last (calls_meets reads fuel callee (ready.reaches reach) (by omega))
      (fun _ _ _ stop => stop.after ?_) fun result q b after _ keeps => ?_
    · simp only [List.nil_append, id]; omega
    · simp only [Keeps, Gains, List.length_append, List.nil_append] at keeps ⊢; omega

theorem joined_meets {level : Level} {operand : Read Expr}
    (reads : Pays fuel room stack operand)
    (rounds : Nat) (left : Expr) (ready : Ready fuel room stack cursor)
    (enough : cursor.rest.length < rounds) :
    Meets (joined level operand rounds left) cursor [] [] Keeps (Refused id) := by
  induction rounds generalizing cursor left with
  | zero => exact absurd enough (Nat.not_lt_zero _)
  | succ rounds ih =>
    refine .look ready.ends fun token rest here => ?_
    split
    next =>
      -- The operand pays for the round, even where the operator is the end of input.
      refine .advance here fun p after reach _ => ?_
      have fewer := reach.length
      have ready := ready.reaches reach
      refine .bind (reads after ready) (fun _ _ _ stop => stop.after ?_)
        fun right q b after reach gains => ?_
      · simp only [List.length_append, List.length_nil, id]; omega
      have shorter := reach.length
      have ready := ready.reaches reach
      simp only [Gains] at gains
      refine .last (ih (level.join left token right) ready (by omega))
        (fun _ _ _ stop => stop.after ?_) fun result r c after _ keeps => ?_
      · simp only [List.length_append, List.length_nil, id]; omega
      · simp only [Keeps, List.length_append, List.length_nil] at keeps ⊢; omega
    next => exact .pure (Nat.zero_le _)

theorem chain_meets {level : Level} {operand : Read Expr}
    (reads : Pays fuel room stack operand)
    (ready : Ready fuel room stack cursor) :
    Meets (chain fuel level operand) cursor [] [] Gains Thrifty := by
  refine .bind (reads cursor ready) (fun _ _ _ stop => stop.after ?_)
    fun left p a after reach gains => ?_
  · simp only [List.length_nil]; omega
  have short := ready.fuel
  have shorter := reach.length
  simp only [Gains] at gains
  refine .last (joined_meets reads fuel left (ready.reaches reach) (by omega))
    (fun _ _ _ stop => stop.after ?_) fun result q b after _ keeps => ?_
  · simp only [List.nil_append, id]; omega
  · simp only [Keeps, Gains, List.length_append, List.nil_append] at keeps ⊢; omega

theorem operation_meets {operand : Read Expr}
    (reads : Pays fuel room stack operand)
    (ready : Ready fuel room stack cursor) :
    Meets (operation fuel operand) cursor [] [] Gains Thrifty := by
  unfold operation
  -- The operands of a level are the operations of the tighter levels.
  induction levels generalizing cursor with
  | nil => exact reads cursor ready
  | cons level rest ih => exact chain_meets (fun cursor ready => ih ready) ready

/-- Every equals sign follows a target, so the equals signs bound the levels of the stack. -/
theorem assignment_meets {left : Nat → Read Expr}
    (reads : ∀ stack, Pays fuel room stack (left stack))
    (ready : Ready fuel room stack cursor) :
    Meets (assignment left (stack + 1)) cursor [] [] Gains Thrifty := by
  -- The induction is on the levels of the stack. A target is passed and an equals sign seen before the
  -- next level is entered, so `Ready` holds there with a level less.
  induction stack generalizing cursor with
  | zero => exact absurd ready.stack (Nat.not_lt_zero _)
  | succ stack ih =>
    refine .bind (reads _ cursor ready) (fun _ _ _ stop => stop.after ?_)
      fun target p a after reach gains => ?_
    · simp only [List.length_nil]; omega
    have toTarget := reach
    have deep := ready.stack
    have ready := ready.reaches reach
    simp only [Gains] at gains
    refine .look ready.ends fun token rest here => ?_
    split
    next spelled =>
      refine .advance here fun q after reach taken => ?_
      have passed : p ≠ [] := List.ne_nil_of_length_pos (by omega)
      have fewer := toTarget.equalsSigns_lt passed here spelled reach taken
      have ready := ready.reaches reach
      have less : Ready fuel room stack after := ⟨ready.ends, ready.depth, ready.fuel, by omega⟩
      refine .bind (ih less) (fun _ _ _ stop => stop.after ?_) fun value r c after reach more => ?_
      · simp only [List.length_append, List.nil_append]; omega
      simp only [Gains] at more
      -- A target that is no variable is reported, and one of the tokens of its value pays for it.
      unfold assigned
      split
      next => exact .pure (by simp only [Gains, List.length_append, List.nil_append]; omega)
      next =>
        refine .report fun after _ => .pure ?_
        simp only [Gains, List.length_append, List.nil_append, List.length_singleton]; omega
    next => exact .pure (by simpa only [Gains, List.nil_append] using gains)

end Operands

section Closing

variable {fuel room stack : Nat}

/-- The levels of a construct are those of an expression and one for its first assignment. -/
theorem Ready.calling_expressionLevels (ready : Ready fuel (room + 1) stack cursor)
    (body : Nat → Read Expr) : calling expressionLevels stack body = body (stack - 11 + 1) := by
  have deep := ready.stack
  have enough : expressionLevels ≤ stack := show 10 ≤ stack by omega
  rw [calling_of_le enough]
  exact congrArg body (show stack - 10 = stack - 11 + 1 by omega)

theorem expressionOver_meets {operand : Nat → Read Expr}
    (reads : ∀ stack, Pays fuel room stack (operand stack))
    (ready : Ready fuel (room + 1) stack cursor) :
    Meets (expressionOver fuel operand stack) cursor [] [] Gains Thrifty := by
  have open_ : cursor.depth < cursor.cap := by have := ready.depth; omega
  apply Meets.nested open_
  rw [ready.calling_expressionLevels]
  exact assignment_meets (fun stack cursor ready => operation_meets (reads stack) ready) ready.deeper

theorem operandAt_meets (ready : Ready fuel room stack cursor) :
    Meets (operandAt fuel room stack) cursor [] [] Gains Thrifty := by
  -- The induction is on the room: a sign and a parenthesis both open a construct, and what is inside
  -- them is read with less.
  induction room generalizing stack cursor with
  | zero =>
    exact signed_meets (fun _ _ none => absurd none (Nat.succ_ne_zero _))
      (fun _ ready => .refuse ready.ends fun _ => refused (Nat.zero_le _)) ready
  | succ room ih =>
    refine signed_meets (fun less cursor same deeper => ?_)
      (fun _ ready => expressionOver_meets (fun _ _ ready => ih ready) ready) ready
    obtain rfl := Nat.succ.inj same
    rw [calling_of_le ready.stack_pos]
    exact ih deeper

theorem expressionAt_meets (ready : Ready fuel room stack cursor) :
    Meets (expressionAt fuel room stack) cursor [] [] Gains Thrifty := by
  cases room with
  | zero =>
    exact .nested_full ready.ends (Nat.le_of_eq ready.depth.symm) fun _ => refused (Nat.zero_le _)
  | succ room => exact expressionOver_meets (fun _ _ ready => operandAt_meets ready) ready

end Closing

/-! ### Statements -/

section Statements

variable {fuel room stack : Nat} {first expr : Read Expr} {stmt : Read Stmt}

theorem ifAt_meets {text : String} {body : Read α}
    (reads : Pays fuel room stack body)
    (ready : Ready fuel room stack cursor) :
    Meets (ifAt text body) cursor [] [] Spares Thrifty := by
  refine .look ready.ends fun token rest here => ?_
  split
  next =>
    refine .pass here fun p after reach _ => ?_
    refine .bind (reads after (ready.reaches reach)) (fun _ _ _ stop => stop.after ?_)
      fun result q b after _ gains => .pure ?_
    · simp only [List.length_append, List.length_nil]; omega
    · simp only [Gains, Spares, List.length_append, List.length_nil] at gains ⊢; omega
  next => exact .pure (Nat.zero_le _)

theorem unlessAt_meets {text : String} {body : Read α}
    (reads : Pays fuel room stack body)
    (ready : Ready fuel room stack cursor) :
    Meets (unlessAt text body) cursor [] [] Spares Thrifty := by
  refine .look ready.ends fun token rest here => ?_
  split
  next => exact .pure (Nat.zero_le _)
  next =>
    refine .bind (reads cursor ready) (fun _ _ _ stop => stop.after ?_)
      fun result p a after _ gains => .pure ?_
    · simp only [List.length_nil]; omega
    · simp only [Gains, Spares, List.nil_append] at gains ⊢; omega

theorem semicolon_meets (ends : cursor.Ends) (what : String) :
    Meets (semicolon what) cursor [] [] (fun _ _ extra _ => extra = []) Thrifty :=
  (Meets.discarded (.expected ends _ _)).last
    (fun _ _ _ ⟨⟨token, same⟩, _, quiet⟩ => ⟨⟨_, token, same⟩, by simp [quiet]⟩)
    fun _ _ _ _ _ ⟨_, _, _, quiet, _⟩ => by simp [quiet]

theorem expressionStatement_meets
    (exprs : Pays fuel room stack expr)
    (ready : Ready fuel room stack cursor) :
    Meets (expressionStatement expr) cursor [] [] Gains Thrifty := by
  refine .bind (exprs cursor ready) (fun _ _ _ stop => stop.after ?_)
    fun value p a after reach gains => ?_
  · simp only [List.length_nil]; omega
  simp only [Gains] at gains
  refine .bind (semicolon_meets (reach.ends ready.ends) _) (fun _ _ _ stop => stop.after ?_) ?_
  · simp only [List.nil_append]; omega
  · rintro _ q _ _ - rfl
    exact .pure (by simp only [Gains, List.length_append, List.length_nil]; omega)

theorem printStatement_meets
    (exprs : Pays fuel room stack expr)
    (ready : Ready fuel room stack cursor) :
    Meets (printStatement expr) cursor [] [] Gains Thrifty := by
  refine .expect ready.ends (fun _ => refused (Nat.zero_le _)) fun _ _ p after _ _ reach _ => ?_
  have ready := ready.reaches reach
  refine .bind (exprs after ready) (fun _ _ _ stop => stop.after ?_)
    fun value q a after reach gains => ?_
  · simp only [List.length_append, List.length_nil]; omega
  simp only [Gains] at gains
  refine .bind (semicolon_meets (reach.ends ready.ends) _) (fun _ _ _ stop => stop.after ?_) ?_
  · simp only [List.length_append, List.length_nil]; omega
  · rintro _ r _ _ - rfl
    exact .pure (by simp only [Gains, List.length_append, List.length_nil]; omega)

/-- The name of a declaration is a token that no report is about. -/
theorem variableDeclaration_meets
    (exprs : Pays fuel room stack expr)
    (ready : Ready fuel room stack cursor) :
    Meets (variableDeclaration expr) cursor [] [] Gains Thrifty := by
  refine .expect ready.ends (fun _ => refused (Nat.zero_le _)) fun _ _ p after _ _ reach _ => ?_
  have ready := ready.reaches reach
  refine .found (.named ready.ends _) (fun _ => refused (Nat.zero_le _))
    fun target _ q after _ name reach taken => ?_
  have ready := ready.reaches reach
  -- A name is no end of input, so it is passed whatever the word before it was.
  rw [taken.eq_singleton (by simp [Token.isEnd, name])]
  refine .bind (ifAt_meets exprs ready) (fun _ _ _ stop => stop.after ?_)
    fun initial r a after reach spares => ?_
  · simp only [List.length_append, List.length_nil]; omega
  simp only [Spares] at spares
  refine .bind (semicolon_meets (reach.ends ready.ends) _) (fun _ _ _ stop => stop.after ?_) ?_
  · simp only [List.length_append, List.length_singleton, List.length_nil]; omega
  · rintro _ t _ _ - rfl
    refine .pure ?_
    simp only [Gains, List.length_append, List.length_singleton, List.length_nil]; omega

theorem ifStatement_meets
    (exprs : Pays fuel room stack expr)
    (stmts : Pays fuel room stack stmt)
    (ready : Ready fuel room stack cursor) :
    Meets (ifStatement expr stmt) cursor [] [] Gains Thrifty := by
  refine .expect ready.ends (fun _ => refused (Nat.zero_le _)) fun _ _ p after _ _ reach _ => ?_
  have ready := ready.reaches reach
  refine .expect ready.ends (fun _ => refused (Nat.zero_le _)) fun _ _ q after _ _ reach _ => ?_
  have ready := ready.reaches reach
  -- Word and parenthesis may both be the end of input; the condition and the branch still pay.
  refine .bind (exprs after ready) (fun _ _ _ stop => stop.after ?_)
    fun condition r a after reach gains => ?_
  · simp only [List.length_append, List.length_nil]; omega
  have ready := ready.reaches reach
  simp only [Gains] at gains
  refine .expect ready.ends (fun _ => refused ?_) fun _ _ t after _ _ reach _ => ?_
  · simp only [List.length_append, List.length_nil]; omega
  have ready := ready.reaches reach
  refine .bind (stmts after ready) (fun _ _ _ stop => stop.after ?_)
    fun yes u b after reach more => ?_
  · simp only [List.length_append, List.length_nil]; omega
  have ready := ready.reaches reach
  simp only [Gains] at more
  refine .bind (ifAt_meets stmts ready) (fun _ _ _ stop => stop.after ?_)
    fun no v c after _ spares => .pure ?_
  · simp only [List.length_append, List.length_nil]; omega
  · simp only [Gains, Spares, List.length_append, List.length_nil] at spares ⊢; omega

theorem whileStatement_meets
    (exprs : Pays fuel room stack expr)
    (stmts : Pays fuel room stack stmt)
    (ready : Ready fuel room stack cursor) :
    Meets (whileStatement expr stmt) cursor [] [] Gains Thrifty := by
  refine .expect ready.ends (fun _ => refused (Nat.zero_le _)) fun _ _ p after _ _ reach _ => ?_
  have ready := ready.reaches reach
  refine .expect ready.ends (fun _ => refused (Nat.zero_le _)) fun _ _ q after _ _ reach _ => ?_
  have ready := ready.reaches reach
  refine .bind (exprs after ready) (fun _ _ _ stop => stop.after ?_)
    fun condition r a after reach gains => ?_
  · simp only [List.length_append, List.length_nil]; omega
  have ready := ready.reaches reach
  simp only [Gains] at gains
  refine .expect ready.ends (fun _ => refused ?_) fun _ _ t after _ _ reach _ => ?_
  · simp only [List.length_append, List.length_nil]; omega
  refine .bind (stmts after (ready.reaches reach)) (fun _ _ _ stop => stop.after ?_)
    fun body u b after _ more => .pure ?_
  · simp only [List.length_append, List.length_nil]; omega
  · simp only [Gains, List.length_append, List.length_nil] at more ⊢; omega

theorem forInitial_meets
    (exprs : Pays fuel room stack expr)
    (ready : Ready fuel room stack cursor) :
    Meets (forInitial expr) cursor [] [] Spares Thrifty := by
  refine .look ready.ends fun token rest here => ?_
  split
  next => exact .pass here fun p after _ _ => .pure (Nat.zero_le _)
  next =>
    split
    next =>
      refine .bind (variableDeclaration_meets exprs ready) (fun _ _ _ stop => stop.after ?_)
        fun first p a after _ gains => .pure ?_
      · simp only [List.length_nil]; omega
      · simp only [Gains, Spares, List.nil_append] at gains ⊢; omega
    next =>
      refine .bind (expressionStatement_meets exprs ready) (fun _ _ _ stop => stop.after ?_)
        fun first p a after _ gains => .pure ?_
      · simp only [List.length_nil]; omega
      · simp only [Gains, Spares, List.nil_append] at gains ⊢; omega

theorem forStatement_meets
    (firsts : Pays fuel room stack first)
    (exprs : Pays fuel room stack expr)
    (stmts : Pays fuel room stack stmt)
    (ready : Ready fuel room stack cursor) :
    Meets (forStatement first expr stmt) cursor [] [] Gains Thrifty := by
  -- A clause may be missing and pass nothing, but then it has added no report either.
  refine .expect ready.ends (fun _ => refused (Nat.zero_le _)) fun _ _ p after _ _ reach _ => ?_
  have ready := ready.reaches reach
  refine .expect ready.ends (fun _ => refused (Nat.zero_le _)) fun _ _ q after _ _ reach _ => ?_
  have ready := ready.reaches reach
  refine .bind (forInitial_meets firsts ready) (fun _ _ _ stop => stop.after ?_)
    fun initial r a after reach first => ?_
  · simp only [List.length_append, List.length_nil]; omega
  have ready := ready.reaches reach
  refine .bind (unlessAt_meets exprs ready) (fun _ _ _ stop => stop.after ?_)
    fun condition t b after reach second => ?_
  · simp only [Spares, List.length_append, List.length_nil] at first ⊢; omega
  have ready := ready.reaches reach
  refine .bind (semicolon_meets ready.ends _) (fun _ _ _ stop => stop.after ?_) ?_
  · simp only [Spares, List.length_append, List.length_nil] at first second ⊢; omega
  rintro _ u _ after reach rfl
  have ready := ready.reaches reach
  refine .bind (unlessAt_meets exprs ready) (fun _ _ _ stop => stop.after ?_)
    fun increment v c after reach third => ?_
  · simp only [Spares, List.length_append, List.length_nil] at first second ⊢; omega
  have ready := ready.reaches reach
  simp only [Spares] at first second third
  refine .expect ready.ends (fun _ => refused ?_) fun _ _ w after _ _ reach _ => ?_
  · simp only [List.length_append, List.length_nil]; omega
  refine .bind (stmts after (ready.reaches reach)) (fun _ _ _ stop => stop.after ?_)
    fun body x d after _ gains => .pure ?_
  · simp only [List.length_append, List.length_nil]; omega
  · simp only [Gains, List.length_append, List.length_nil] at gains ⊢; omega

/-! ### Declarations -/

theorem toBorder_le (previous : Token) (tokens : List Token) :
    toBorder previous tokens ≤ tokens.length := by
  induction tokens generalizing previous with
  | nil => exact Nat.le_refl 0
  | cons first rest ih =>
    unfold toBorder
    split
    · exact Nat.zero_le _
    · exact Nat.succ_le_succ (ih first)

/-- No token on the way to a border is the end of input. -/
theorem toBorder_inside (previous : Token) (tokens : List Token) :
    ∀ token ∈ tokens.take (toBorder previous tokens), token.isEnd = false := by
  induction tokens generalizing previous with
  | nil => simp
  | cons first rest ih =>
    unfold toBorder
    split
    next => simp
    -- A token that is no border is not the end of input, which is one.
    next onward =>
      have inside : first.isEnd = false := by
        cases last : first.isEnd with
        | false => rfl
        | true => simp [last] at onward
      intro token member
      rw [List.take_succ_cons, List.mem_cons] at member
      rcases member with rfl | member
      · exact inside
      · exact ih first token member

/-- Recovery passes a token, unless it is at the end of input, and reports nothing. -/
theorem recover_meets {token : Token} {rest : List Token} (ends : cursor.Ends)
    (here : cursor.rest = token :: rest) :
    Meets recover cursor [] []
      (fun _ more extra _ => extra = [] ∧ (token.isEnd = false → 0 < more.length))
      (fun _ _ _ => False) := by
  refine .advance here fun p after reach taken => ?_
  -- What is left to skip is a plain drop, so what it passes is known in full.
  have skip : Meets (modify fun cursor : Cursor =>
      { cursor with
        rest := cursor.rest.drop (toBorder token cursor.rest)
        position := cursor.position + toBorder token cursor.rest } : Read Unit) after [] []
      (fun _ _ extra _ => extra = []) (fun _ _ _ => False) := by
    refine ⟨after.rest.take (toBorder token after.rest), [], ⟨?_, ?_, rfl, rfl, ?_, ?_⟩, rfl⟩
    · exact (List.take_append_drop _ _).symm
    · rw [List.length_take, Nat.min_eq_left (toBorder_le token after.rest)]
    · exact (List.append_nil _).symm
    · exact toBorder_inside token after.rest
  refine .bind skip (fun _ _ _ => False.elim) ?_
  rintro _ q _ after onward rfl
  refine (Meets.discarded (.looked (onward.ends (reach.ends ends)))).last
    (fun _ _ _ => False.elim) ?_
  rintro _ _ _ _ - ⟨_, rfl, rfl⟩
  refine ⟨rfl, fun inside => ?_⟩
  rw [taken.eq_singleton inside]
  simp only [List.length_append, List.length_singleton]
  omega

/-- A refusal is reported, and recovery passes the token that it meets. -/
theorem recovered_meets (error : StaticError) (wrong : Token) {token : Token} {rest : List Token}
    (ends : cursor.Ends) (here : cursor.rest = token :: rest) :
    Meets (do report wrong error; recover; pure (none : Option Stmt)) cursor [] []
      (fun _ more extra _ => extra = [⟨wrong.line, error⟩] ∧ (token.isEnd = false → 0 < more.length))
      (fun _ _ _ => False) := by
  refine .report fun middle still => ?_
  have same : middle.rest = token :: rest := by rw [← here, still.rest, List.nil_append]
  refine .bind (recover_meets (still.ends ends) same) (fun _ _ _ => False.elim) ?_
  rintro _ more _ _ - ⟨rfl, moves⟩
  exact .pure ⟨List.append_nil _, moves⟩

/-- The report of a refusal is paid for by the token that recovery passes, or at the end of input by
the first token of the statement. Where it starts at the end of input, it returns all the same. -/
theorem recovering_meets {body : Read Stmt} {token : Token} {rest : List Token}
    (ends : cursor.Ends) (here : cursor.rest = token :: rest)
    (meets : Meets body cursor [] [] Gains Thrifty) :
    Meets (recovering body) cursor [] []
      (fun result more extra after =>
        token.isEnd = false → Keeps result more extra after ∧ 0 < more.length)
      (fun _ _ _ => False) := by
  apply Meets.recovering meets
  · exact fun _ _ _ _ _ gains _ => ⟨Nat.le_of_lt gains, Nat.zero_lt_of_lt gains⟩
  · rintro error wrong more extra after reach ⟨-, thrifty⟩
    obtain ⟨next, others, there⟩ := (reach.ends ends).exists_cons
    refine (recovered_meets error wrong (reach.ends ends) there).last (fun _ _ _ => False.elim) ?_
    rintro result passed _ final - ⟨rfl, moves⟩ inside
    -- Either the refused statement has passed a token, or it stands where it began, which is not the
    -- end of input, and recovery passes that token.
    have moved : 0 < more.length + passed.length := by
      cases more with
      | nil =>
        have same := reach.rest
        rw [here, there, List.nil_append] at same
        exact Nat.lt_add_left _ (moves ((List.cons.inj same).1 ▸ inside))
      | cons first more => exact Nat.add_pos_left (Nat.succ_pos _) _
    simp only [Keeps, List.length_append, List.length_singleton]
    simp only at thrifty
    omega
  · rintro stop more extra no ⟨⟨error, token, rfl⟩, -⟩
    exact absurd rfl (no error token)

theorem declarationOver_meets
    (exprs : Pays fuel room stack expr)
    (stmts : Pays fuel room stack stmt)
    (ready : Ready fuel room stack cursor) :
    Meets (declarationOver expr stmt) cursor [] [] Gains Thrifty := by
  refine .look ready.ends fun _ _ _ => ?_
  split
  next => exact variableDeclaration_meets exprs ready
  next => exact stmts cursor ready

/-- Before the end of input, a declaration passes a token, whether it can be read or not. -/
abbrev Advances (fuel room stack : Nat) (declaration : Read (Option Stmt)) : Prop :=
  ∀ (cursor : Cursor) (token : Token) (rest : List Token), Ready fuel room stack cursor →
    cursor.rest = token :: rest → token.isEnd = false →
    Meets declaration cursor [] []
      (fun result more extra after => Keeps result more extra after ∧ 0 < more.length)
      (fun _ _ _ => False)

/-- A declaration is read two levels further down than what it stands in. -/
theorem declarationOn_meets {expr : Nat → Read Expr} {stmt : Nat → Read Stmt} {enough : Nat}
    (exprs : ∀ stack, Pays fuel room stack (expr stack))
    (stmts : ∀ stack, Pays fuel room stack (stmt stack))
    (deep : stack + 2 ≤ enough) : Pays fuel room stack (declarationOn expr stmt enough) := by
  intro cursor ready
  unfold declarationOn
  rw [calling_of_le (by omega), calling_of_le (by omega)]
  exact declarationOver_meets (fun cursor ready => exprs _ cursor (ready.more (by omega)))
    (fun cursor ready => stmts _ cursor (ready.more (by omega))) ready

theorem recovering_advances {body : Read Stmt} (reads : Pays fuel room stack body) :
    Advances fuel room stack (recovering body) := fun cursor _ _ ready here inside =>
  (recovering_meets ready.ends here (reads cursor ready)).mono fun _ _ _ _ known => known inside

theorem declarations_meets (closes : Token → Bool) {declaration : Read (Option Stmt)}
    (reads : Advances fuel room stack declaration)
    (rounds : Nat) (ready : Ready fuel room stack cursor) (enough : cursor.rest.length < rounds) :
    Meets (declarations closes declaration rounds) cursor [] []
      (fun result more extra after => Keeps result more extra after ∧
        ∃ token rest, after.rest = token :: rest ∧ (closes token || token.isEnd) = true)
      (fun _ _ _ => False) := by
  -- Every round passes a token, so the rounds outlast the tokens before the end of input.
  induction rounds generalizing cursor with
  | zero => exact absurd enough (Nat.not_lt_zero _)
  | succ rounds ih =>
    refine .look ready.ends fun token rest here => ?_
    split
    next stops => exact .pure ⟨Nat.zero_le _, token, rest, here, stops⟩
    next onward =>
      have inside : token.isEnd = false := by
        cases last : token.isEnd with
        | false => rfl
        | true => simp [last] at onward
      refine .bind (reads cursor token rest ready here inside) (fun _ _ _ => False.elim)
        fun first p a after reach ⟨keeps, moved⟩ => ?_
      have shorter := reach.length
      simp only [Keeps] at keeps
      refine .bind (ih (ready.reaches reach) (by omega)) (fun _ _ _ => False.elim)
        fun more q b after _ ⟨others, stops⟩ => .pure ⟨?_, stops⟩
      simp only [Keeps, List.length_append, List.length_nil] at others ⊢; omega

/-- An end of input that opens a block does not close it as well. -/
theorem blockStatement_meets {declaration : Read (Option Stmt)}
    (reads : Advances fuel room stack declaration)
    (ready : Ready fuel room stack cursor) :
    Meets (blockStatement fuel declaration) cursor [] [] Gains Thrifty := by
  refine .expect ready.ends (fun _ => refused (Nat.zero_le _))
    fun opening rest p after here opened reach taken => ?_
  have ready := ready.reaches reach
  refine .bind (declarations_meets _ reads fuel ready ready.fuel) (fun _ _ _ => False.elim)
    fun body q a final onward ⟨keeps, _⟩ => ?_
  have ready := ready.reaches onward
  simp only [Keeps] at keeps
  -- Where the brace is the end of input nothing is passed behind it, so the token that should close the
  -- block is the same one, spelled as the opening brace.
  rcases taken with ⟨-, rfl⟩ | ⟨last, rfl⟩
  · refine .expect ready.ends (fun _ => refused ?_) fun _ _ r _ _ _ _ _ => .pure ?_
    · simp only [List.length_append, List.length_singleton, List.length_nil]; omega
    · simp only [Gains, List.length_append, List.length_singleton, List.length_nil]; omega
  · have there : after.rest = opening :: rest := by rw [← here, reach.rest, List.nil_append]
    obtain rfl := onward.eq_nil_of_isEnd there last
    refine .expect ready.ends (fun _ => refused ?_) fun closing _ r _ same closed _ _ => ?_
    · simpa using keeps
    · have again : final.rest = opening :: rest := by rw [← there, onward.rest, List.nil_append]
      rw [again] at same
      rw [← (List.cons.inj same).1] at closed
      exact absurd (Token.spells_unique opened closed) (by decide)

theorem statementOver_meets {declaration : Read (Option Stmt)}
    (firsts : Pays fuel room stack first)
    (exprs : Pays fuel room stack expr)
    (stmts : Pays fuel room stack stmt)
    (reads : Advances fuel room stack declaration)
    (ready : Ready fuel room stack cursor) :
    Meets (statementOver fuel first expr stmt declaration) cursor [] [] Gains Thrifty := by
  refine .look ready.ends fun token rest here => ?_
  split
  next => exact forStatement_meets firsts exprs stmts ready
  split
  next => exact ifStatement_meets exprs stmts ready
  split
  next => exact printStatement_meets exprs ready
  split
  next => exact whileStatement_meets exprs stmts ready
  split
  next => exact blockStatement_meets reads ready
  next => exact expressionStatement_meets exprs ready

theorem statementAt_meets (ready : Ready fuel room stack cursor) :
    Meets (statementAt fuel stack room) cursor [] [] Gains Thrifty := by
  -- The induction is on the room, as for operands: a statement inside another is read with less.
  induction room generalizing stack cursor with
  | zero =>
    exact .nested_full ready.ends (Nat.le_of_eq ready.depth.symm) fun _ => refused (Nat.zero_le _)
  | succ room ih =>
    have open_ : cursor.depth < cursor.cap := by have := ready.depth; omega
    have deep := ready.stack
    refine .nested open_ ?_
    rw [calling_of_le (by omega), calling_of_le (by omega)]
    -- A statement opens a construct and takes fewer levels than are kept for one, also where it needs one
    -- for its first clause, or two for a declaration in it.
    exact statementOver_meets
      (fun _ ready => expressionAt_meets (ready.more (by omega)))
      (fun _ ready => expressionAt_meets (ready.more (by omega)))
      (fun _ ready => ih (ready.more (by omega)))
      (recovering_advances (declarationOn_meets (fun _ _ ready => expressionAt_meets ready)
        (fun _ _ ready => ih ready) (by omega))) ready.deeper

theorem declarationOn_pays {enough : Nat} (deep : stack + 2 ≤ enough) :
    Pays fuel room stack (declarationOn (expressionAt fuel room) (statementAt fuel · room) enough) :=
  declarationOn_meets (fun _ _ ready => expressionAt_meets ready)
    (fun _ _ ready => statementAt_meets ready) deep

end Statements

theorem Ready.under {cap stack : Nat} {tokens : List Token}
    (ends : ∃ token ∈ tokens, token.isEnd = true) (deep : equalsSigns tokens + levelsFor cap < stack) :
    Ready (tokens.length + 1) cap (stack - 3) (.under cap tokens) :=
  ⟨ends, Nat.zero_add _, Nat.lt_succ_self _, Nat.lt_sub_of_add_lt deep⟩

/-- No more equals signs come up than there are tokens. -/
theorem equalsSigns_le_length (tokens : List Token) : equalsSigns tokens ≤ tokens.length :=
  Nat.le_trans (equalsSigns_le tokens) List.countP_le_length

theorem program_apply (stack : Nat) (cursor : Cursor) :
    program stack cursor = declarations (fun _ => false)
      (declarationAt (cursor.rest.length + 1) stack (cursor.cap - cursor.depth))
      (cursor.rest.length + 1) cursor :=
  rfl

/-- A program is read up to an end of input. -/
theorem program_meets {stack : Nat} (cursor : Cursor)
    (ready : Ready (cursor.rest.length + 1) (cursor.cap - cursor.depth) (stack - 3) cursor) :
    Meets (program stack) cursor [] []
      (fun result more extra after => Keeps result more extra after ∧
        ∃ token rest, after.rest = token :: rest ∧ token.isEnd = true)
      (fun _ _ _ => False) := by
  have some := ready.stack_pos
  have meets := declarations_meets (fun _ => false)
    (recovering_advances (declarationOn_pays (show stack - 3 + 2 ≤ stack by omega)))
    (cursor.rest.length + 1) ready (Nat.lt_succ_self _)
  simp only [Bool.false_or] at meets
  unfold Meets at meets ⊢
  rw [program_apply]
  exact meets

/-- A program is always read. -/
theorem program_returns {stack : Nat} (cursor : Cursor)
    (ready : Ready (cursor.rest.length + 1) (cursor.cap - cursor.depth) (stack - 3) cursor) :
    ∃ stmts after more extra, program stack cursor = .ok stmts after ∧
      cursor.Reaches after more extra ∧ Keeps stmts more extra after ∧
      ∃ token rest, after.rest = token :: rest ∧ token.isEnd = true := by
  have meets := program_meets cursor ready
  unfold Meets at meets
  split at meets
  next stmts after outcome =>
    obtain ⟨more, extra, reach, keeps, stops⟩ := meets
    exact ⟨stmts, after, more, extra, outcome, reach, keeps, stops⟩
  next =>
    obtain ⟨_, _, _, impossible⟩ := meets
    exact impossible.elim

/-- What is before the first token of a kind does not count that token. -/
theorem findIdx_append_cons {front rest : List Token} {token : Token}
    (inside : ∀ token ∈ front, token.isEnd = false) (last : token.isEnd = true) :
    (front ++ token :: rest).findIdx Token.isEnd = front.length := by
  induction front with
  | nil => simp [List.findIdx_cons, last]
  | cons first front ih =>
    rw [List.cons_append, List.findIdx_cons, inside first List.mem_cons_self, cond_false,
      ih fun token member => inside token (List.mem_cons_of_mem _ member), List.length_cons]

/-- Reading a program always comes to its end: it returns, at the first end of input, with nothing
open, and with at most one report for every token before it. -/
theorem program_ends (tokens : List Token) (stack : Nat)
    (ends : ∃ token ∈ tokens, token.isEnd = true)
    (deep : tokens.length + levelsFor maxNesting < stack) :
    ∃ stmts cursor, (program stack).run (.start tokens) = .ok stmts cursor ∧
      cursor.position = tokens.findIdx Token.isEnd ∧
      cursor.rest = tokens.drop (tokens.findIdx Token.isEnd) ∧
      cursor.depth = 0 ∧
      cursor.reports.length ≤ tokens.findIdx Token.isEnd := by
  obtain ⟨stmts, cursor, more, extra, outcome, reach, keeps, token, rest, there, last⟩ :=
    program_returns (.start tokens) (Ready.under ends
      (Nat.lt_of_le_of_lt (Nat.add_le_add_right (equalsSigns_le_length tokens) _) deep))
  have whole : tokens = more ++ token :: rest := by rw [← there]; exact reach.rest
  -- All that is passed lies before an end of input, so the cursor stands at the first one.
  have first : tokens.findIdx Token.isEnd = more.length := by
    rw [whole]
    exact findIdx_append_cons reach.inside last
  refine ⟨stmts, cursor, outcome, ?_, ?_, reach.depth, ?_⟩
  · rw [first, reach.position]
    exact Nat.zero_add _
  · rw [first, whole, List.drop_left, there]
  · rw [first, reach.reports]
    simpa [Cursor.start, Cursor.under, Keeps] using keeps

/-- An end of input that is spelled like an operator is not passed. -/
theorem program_ends_at_minus :
    let tokens : List Token := [⟨.operator, "-", none, 1⟩, ⟨.endOfInput, "-", none, 1⟩]
    ∃ stmts cursor, (program 710).run (.start tokens) = .ok stmts cursor ∧
      cursor.position = 1 ∧ cursor.rest = [⟨.endOfInput, "-", none, 1⟩] ∧ cursor.depth = 0 ∧
      cursor.reports.length ≤ 1 :=
  program_ends [⟨.operator, "-", none, 1⟩, ⟨.endOfInput, "-", none, 1⟩] 710
    ⟨⟨.endOfInput, "-", none, 1⟩, by simp, rfl⟩ (by decide)

end Lox.Grammar
