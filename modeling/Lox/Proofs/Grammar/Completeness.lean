import Lox.Proofs.Grammar.Soundness

/-!
# What derives is read without a report

Given rounds for every token, room for the constructs of a derivation and levels of the stack for
both, the readers pass what derives from their symbols and return the trees. A reader goes on as
long as it can, so it stops behind a derivation only if the next token is none that could continue
it: no operator of the levels it reads, no parenthesis of a further call, no equals sign.

A loop is met in the middle: what derives from the symbol of a loop brings its reader to some later
round of it, with the tree read so far.
-/
namespace Lox.Grammar

variable {α β : Type} {before middle after : Cursor}

/-! ### One step after the other -/

namespace Cursor

variable {front back : List Token} {token : Token}

theorem Reaches.split (reach : before.Reaches after (front ++ back) []) :
    ∃ middle : Cursor, before.Reaches middle front [] ∧ middle.Reaches after back [] := by
  refine ⟨{ before with rest := back ++ after.rest, position := before.position + front.length },
    ⟨?_, rfl, rfl, rfl, (List.append_nil _).symm, ?_⟩, ⟨rfl, ?_, ?_, ?_, ?_, ?_⟩⟩
  · rw [reach.rest, List.append_assoc]
  · exact fun token member => reach.inside token (List.mem_append_left _ member)
  · rw [reach.position, List.length_append, Nat.add_assoc]
  · exact reach.depth
  · exact reach.cap
  · exact reach.reports
  · exact fun token member => reach.inside token (List.mem_append_right _ member)

theorem Reaches.uncons (reach : before.Reaches after (token :: back) []) :
    ∃ middle : Cursor, before.Reaches middle [token] [] ∧ middle.Reaches after back [] :=
  Reaches.split (show before.Reaches after ([token] ++ back) [] from reach)

/-- Passing the same tokens leads to the same cursor. -/
theorem Reaches.unique (one : before.Reaches middle front []) (other : before.Reaches after front []) :
    middle = after := by
  cases middle
  cases after
  have rest := List.append_cancel_left (one.rest.symm.trans other.rest)
  have position := one.position.trans other.position.symm
  have depth := one.depth.trans other.depth.symm
  have cap := one.cap.trans other.cap.symm
  have reports := one.reports.trans other.reports.symm
  simp only at rest position depth cap reports
  simp only [rest, position, depth, cap, reports]

theorem Reaches.deeper (reach : before.Reaches after front []) (depth : Nat) :
    Reaches { before with depth } { after with depth } front [] :=
  ⟨reach.rest, reach.position, rfl, reach.cap, reach.reports, reach.inside⟩

/-- The next token is none of some spellings. -/
def Clear (cursor : Cursor) (texts : List String) : Prop :=
  ∀ token more, cursor.rest = token :: more → ∀ text ∈ texts, token.spells text = false

theorem Clear.mono {cursor : Cursor} {fewer texts : List String} (clear : cursor.Clear texts)
    (among : ∀ text ∈ fewer, text ∈ texts) : cursor.Clear fewer :=
  fun token more here text member => clear token more here text (among text member)

/-- A token has no other spelling. -/
theorem Reaches.clear {text : String} {texts : List String} {added : List StaticReport}
    (reach : before.Reaches after (token :: back) added) (spelled : token.spells text = true)
    (apart : text ∉ texts) : before.Clear texts := by
  intro other more here wrong member
  rw [reach.rest, List.cons_append, List.cons.injEq] at here
  obtain ⟨rfl, -⟩ := here
  exact Token.spells_eq_false spelled fun same => apart (same ▸ member)

end Cursor

section Steps

variable {token : Token} {more : List Token}

theorem current_ok {added : List StaticReport}
    (reach : before.Reaches after (token :: more) added) : current before = .ok token before :=
  current_apply reach.rest

theorem advance_ok (reach : before.Reaches after [token] []) : advance before = .ok token after := by
  have inside := reach.inside token List.mem_cons_self
  rw [advance_apply reach.rest inside]
  exact congrArg _ (Cursor.Reaches.unique ⟨reach.rest, rfl, rfl, rfl, (List.append_nil _).symm,
    reach.inside⟩ reach)

/-- A reader whose result is not used is followed by another. -/
theorem pass_ok {reader : Read α} {next : Unit → Read β} {result : α}
    (first : reader before = .ok result middle) :
    (discard reader >>= next) before = next () middle :=
  bind_ok (discard_ok first)

theorem expect_ok {text : String} (reach : before.Reaches after [token] [])
    (spelled : token.spells text = true) (what : String) :
    expect text what before = .ok token after := by
  refine (bind_ok (current_ok reach)).trans ?_
  rw [if_pos spelled]
  exact advance_ok reach

theorem expectName_ok (reach : before.Reaches after [token] []) (named : token.kind = .identifier)
    (what : String) : expectName what before = .ok token after := by
  refine (bind_ok (current_ok reach)).trans ?_
  rw [if_pos named]
  exact advance_ok reach

theorem nested_ok {construct : Nesting} {body : Read α} {result : α}
    (room : before.depth < before.cap) (same : after.depth = before.depth)
    (inner : body { before with depth := before.depth + 1 } =
      .ok result { after with depth := before.depth + 1 }) :
    nested construct body before = .ok result after := by
  unfold nested
  rw [if_neg (Nat.not_le.mpr room), inner]
  simp only [Nat.add_sub_cancel, ← same]

end Steps

/-- What a reader needs to read everything that derives with some room. -/
structure Able (fuel room stack : Nat) (cursor : Cursor) : Prop where
  ready : Ready fuel room stack cursor
  regular : cursor.Regular

namespace Able

variable {fuel room stack : Nat} {passed : List Token} {added : List StaticReport}

theorem reaches (able : Able fuel room stack before) (reach : before.Reaches after passed added) :
    Able fuel room stack after :=
  ⟨able.ready.reaches reach, able.regular.reaches reach⟩

theorem deeper (able : Able fuel (room + 1) stack before) :
    Able fuel room (stack - 11) { before with depth := before.depth + 1 } :=
  ⟨able.ready.deeper, able.regular.ends, able.regular.regular⟩

theorem more {enough : Nat} (able : Able fuel room stack before) (more : stack ≤ enough) :
    Able fuel room enough before :=
  ⟨able.ready.more more, able.regular⟩

theorem token {token : Token} {back : List Token} (able : Able fuel room stack before)
    (reach : before.Reaches after (token :: back) added) : token.Regular := by
  refine able.regular.regular token ?_
  rw [reach.rest]
  exact List.mem_cons_self

theorem below_cap (able : Able fuel (room + 1) stack before) : before.depth < before.cap := by
  have := able.ready.depth
  omega

end Able

/-! ### How expressions begin -/

/-- The first token of an operand without a sign. -/
def Plain (token : Token) : Prop := (∃ leaf, Leaf token leaf) ∨ token.spells "(" = true

/-- The first token of an expression. -/
def Opens (token : Token) : Prop :=
  Plain token ∨ token.spells "!" = true ∨ token.spells "-" = true

/-- The first token of what derives from a symbol. -/
def Symbol.Begins : Symbol → Token → Prop
  | .call, token | .primary, token => Plain token
  | _, token => Opens token

theorem Derives.begins {room : Nat} {symbol : Symbol} {tokens : List Token} {expr : Expr}
    (derived : Derives room symbol tokens expr) :
    ∃ token more, tokens = token :: more ∧ symbol.Begins token := by
  induction derived with
  | assign named => exact ⟨_, _, rfl, .inl (.inl ⟨_, .name named⟩)⟩
  | sign spelled => exact ⟨_, _, rfl, .inr spelled⟩
  | leaf leaf => exact ⟨_, _, rfl, .inl ⟨_, leaf⟩⟩
  | grouping opening => exact ⟨_, _, rfl, .inr opening⟩
  -- The other symbols begin with a symbol of their own, which begins the same way.
  | expression _ ih | operation _ ih | operand _ ih | unary _ ih | primary _ ih => exact ih
  | call _ ih =>
    obtain ⟨token, more, rfl, begins⟩ := ih
    exact ⟨token, more, rfl, .inl begins⟩
  | join _ _ _ ih | callBare _ _ _ ih | callWith _ _ _ _ _ _ _ ih =>
    obtain ⟨token, more, rfl, begins⟩ := ih
    exact ⟨token, _, rfl, begins⟩

section Spellings

variable {token : Token} {text : String}

theorem Leaf.spells_eq_false {leaf : Expr} (known : Leaf token leaf) (regular : token.Regular)
    (fixed : text ∈ reservedWords ++ operatorTexts)
    (other : text ∉ ["true", "false", "nil"]) : token.spells text = false := by
  cases spelled : token.spells text with
  | false => rfl
  | true =>
    obtain ⟨plain, rfl⟩ := Token.spells_iff.mp spelled
    simp only [List.mem_cons, List.not_mem_nil, or_false, not_or] at other
    unfold Token.Regular at regular
    cases known with
    -- A string spells nothing, and a number or a name is spelled as no fixed text.
    | text kind => exact absurd kind plain
    | number kind | name kind =>
      rw [kind] at regular
      exact absurd fixed (by simpa using regular)
    | yes kind | no kind | nil kind =>
      rw [kind] at regular
      simp [regular.1] at other

theorem Plain.spells_eq_false (plain : Plain token) (regular : token.Regular)
    (fixed : text ∈ reservedWords ++ operatorTexts)
    (other : text ∉ ["true", "false", "nil", "("]) : token.spells text = false := by
  rcases plain with ⟨leaf, known⟩ | opening
  · refine known.spells_eq_false regular fixed fun member => other ?_
    exact List.mem_append_left ["("] member
  · exact Token.spells_eq_false opening fun same => other (by simp [← same])

theorem Opens.spells_eq_false (opens : Opens token) (regular : token.Regular)
    (fixed : text ∈ reservedWords ++ operatorTexts)
    (other : text ∉ ["true", "false", "nil", "(", "!", "-"]) : token.spells text = false := by
  rcases opens with plain | sign | sign
  · refine plain.spells_eq_false regular fixed fun member => other ?_
    exact List.mem_append_left ["!", "-"] member
  · exact Token.spells_eq_false sign fun same => other (by simp [← same])
  · exact Token.spells_eq_false sign fun same => other (by simp [← same])

end Spellings

theorem Leaf.leaf?_eq {token : Token} {leaf : Expr} (known : Leaf token leaf) :
    leaf? token = some leaf := by
  cases known <;> simp [leaf?, *]

/-- An operator is no expression of its own. -/
theorem leaf?_operator {token : Token} (operator : token.kind = .operator) : leaf? token = none := by
  simp [leaf?, operator]

/-! ### What the reader of a symbol comes to -/

/-- The texts that continue an operation of some levels. -/
def continuing (tighter : List Level) : List String := "(" :: tighter.flatMap Level.operators

theorem continuing_sublist (level : Level) (tighter : List Level) :
    List.Sublist (continuing tighter) (continuing (level :: tighter)) := by
  simp [continuing]

/-- The texts that continue an expression. -/
def following : List String := "=" :: continuing levels

section Productions

variable (fuel room stack : Nat)

/-- What a sign stands before, with room for some more constructs. -/
def signedAt : Read Expr :=
  match room with
  | 0 => refuse (.tooDeep .expression)
  | room + 1 => calling 1 stack (operandAt fuel room)

/-- What a parenthesis opens, with room for some more constructs. -/
def innerAt : Read Expr :=
  match room with
  | 0 => refuse (.tooDeep .expression)
  | room + 1 => expressionOver fuel (operandAt fuel room) stack

theorem operandAt_eq :
    operandAt fuel room stack = signed fuel (signedAt fuel room stack) (innerAt fuel room stack) := by
  cases room <;> rfl

/-- Operands joined by the operators of some levels. -/
def operationAt (tighter : List Level) : Read Expr :=
  tighter.foldr (chain fuel) (operandAt fuel room stack)

/-- The reader of a symbol goes from a cursor to a later one with the tree of what it passes, or to
a round of its loop with it. -/
def Comes (before after : Cursor) (expr : Expr) : Symbol → Prop
  | .expression => after.Clear following → expressionAt fuel room stack before = .ok expr after
  | .assignment => after.Clear following →
      assignment (fun stack => operationAt fuel room stack levels) (stack + 1) before =
        .ok expr after
  | .operation [] => after.Clear ["("] → operationAt fuel room stack [] before = .ok expr after
  | .operation (level :: tighter) => (continuing (level :: tighter)).Nodup →
      after.Clear (continuing tighter) →
      ∃ used, used + after.rest.length ≤ before.rest.length ∧
        operationAt fuel room stack (level :: tighter) before =
          joined level (operationAt fuel room stack tighter) (fuel - used) expr after
  | .unary => after.Clear ["("] → operandAt fuel room stack before = .ok expr after
  | .call => ∃ used, used + after.rest.length < before.rest.length ∧
      (primary (innerAt fuel room stack) >>= calls fuel (innerAt fuel room stack) fuel) before =
        calls fuel (innerAt fuel room stack) (fuel - used) expr after
  | .primary => primary (innerAt fuel room stack) before = .ok expr after

end Productions

/-- Wherever some tokens are to be passed, the reader of a symbol passes them. -/
def Completes (fuel room : Nat) (symbol : Symbol) (tokens : List Token) (expr : Expr) : Prop :=
  ∀ stack before after, before.Reaches after tokens [] → Able fuel room stack before →
    Comes fuel room stack before after expr symbol

namespace Completes

variable {fuel room : Nat} {tokens : List Token} {expr : Expr}

theorem expression (read : Completes fuel room .assignment tokens expr) :
    Completes fuel (room + 1) .expression tokens expr := by
  intro stack before after reach able clear
  apply nested_ok able.below_cap reach.depth
  rw [able.ready.calling_expressionLevels]
  exact read _ _ _ (reach.deeper _) able.deeper clear

/-- An operation is read to its end where no operator of its levels follows. -/
theorem operationAt {stack : Nat} {tighter : List Level}
    (read : Completes fuel room (.operation tighter) tokens expr)
    (reach : before.Reaches after tokens []) (able : Able fuel room stack before)
    (apart : (continuing tighter).Nodup) (clear : after.Clear (continuing tighter)) :
    operationAt fuel room stack tighter before = .ok expr after := by
  cases tighter with
  | nil => exact read stack before after reach able clear
  | cons level tighter =>
    have inner := clear.mono fun _ member => (continuing_sublist level tighter).mem member
    obtain ⟨used, few, come⟩ := read stack before after reach able apart inner
    have enough := able.ready.fuel
    obtain ⟨token, more, here⟩ := (reach.ends able.ready.ends).exists_cons
    -- No operator of the level follows, so the round that the loop has come to is its last.
    have other : level.operators.any token.spells = false := by
      rw [List.any_eq_false]
      intro text member
      rw [clear token more here text (by simp [continuing, member])]
      decide
    have rounds : fuel - used = fuel - used - 1 + 1 := by omega
    rw [come, rounds]
    refine (bind_ok (current_apply here)).trans ?_
    rw [other]
    rfl

theorem operand {level : Level} {tighter : List Level}
    (read : Completes fuel room (.operation tighter) tokens expr) :
    Completes fuel room (.operation (level :: tighter)) tokens expr := by
  intro stack before after reach able apart clear
  have inner := apart.sublist (continuing_sublist level tighter)
  refine ⟨0, by have := reach.length; omega, ?_⟩
  exact bind_ok (read.operationAt reach able inner clear)

theorem join {level : Level} {tighter : List Level} {front back : List Token} {op : Token}
    {left right : Expr} (first : Completes fuel room (.operation (level :: tighter)) front left)
    (spelled : ∃ text ∈ level.operators, op.spells text = true)
    (second : Completes fuel room (.operation tighter) back right) :
    Completes fuel room (.operation (level :: tighter)) (front ++ op :: back)
      (level.join left op right) := by
  intro stack before after reach able apart clear
  have inner := apart.sublist (continuing_sublist level tighter)
  obtain ⟨text, member, spelled⟩ := spelled
  -- The operators of a level are none of the tighter levels, so the left operand ends before this one.
  have outer : text ∉ continuing tighter := by
    simp only [continuing, List.flatMap_cons, List.nodup_cons, List.mem_append, not_or,
      List.nodup_append] at apart
    simp only [continuing, List.mem_cons, not_or]
    refine ⟨?_, fun other => apart.2.2.2 text member text other rfl⟩
    rintro rfl
    exact apart.1.1 member
  obtain ⟨middle, toOp, reach⟩ := reach.split
  obtain ⟨used, few, come⟩ := first stack before middle toOp able apart (reach.clear spelled outer)
  obtain ⟨behind, pass, reach⟩ := reach.uncons
  have enough := able.ready.fuel
  have able := able.reaches toOp
  -- The left operand leaves a round, since it leaves the operator, and the rounds are more than the
  -- tokens.
  have rounds : fuel - used = fuel - (used + 1) + 1 := by omega
  have fewer : used + 1 + after.rest.length ≤ before.rest.length := by
    have one := pass.length
    have others := reach.length
    rw [List.length_singleton] at one
    omega
  refine ⟨used + 1, fewer, ?_⟩
  rw [come, rounds]
  refine (bind_ok (current_ok pass)).trans ?_
  rw [if_pos (List.any_eq_true.mpr ⟨text, member, spelled⟩)]
  refine (bind_ok (advance_ok pass)).trans ?_
  exact bind_ok (second.operationAt reach (able.reaches pass) inner clear)

theorem assignment (read : Completes fuel room (.operation levels) tokens expr) :
    Completes fuel room .assignment tokens expr := by
  intro stack before after reach able clear
  have outer := clear.mono fun _ member => List.mem_cons_of_mem "=" member
  obtain ⟨token, more, here⟩ := (reach.ends able.ready.ends).exists_cons
  refine (bind_ok (read.operationAt reach able (by decide) outer)).trans ?_
  refine (bind_ok (current_apply here)).trans ?_
  -- No equals sign follows.
  rw [clear token more here "=" List.mem_cons_self]
  rfl

theorem unary (read : Completes fuel room .unary tokens expr) :
    Completes fuel room (.operation []) tokens expr :=
  fun stack before after reach able clear => read stack before after reach able clear

theorem sign {op : Token} (spelled : op.spells "!" = true ∨ op.spells "-" = true)
    (read : Completes fuel room .unary tokens expr) :
    Completes fuel (room + 1) .unary (op :: tokens) (.unary op expr) := by
  intro stack before after reach able clear
  have some : (op.spells "!" || op.spells "-") = true := by simpa using spelled
  rw [operandAt_eq]
  refine (bind_ok (current_ok reach)).trans ?_
  rw [if_pos some]
  refine nested_ok able.below_cap reach.depth ?_
  obtain ⟨behind, pass, onward⟩ := (reach.deeper (before.depth + 1)).uncons
  have enough : 1 ≤ stack := able.ready.stack_pos
  have able := (able.deeper.more (show stack - 11 ≤ stack - 1 by omega)).reaches pass
  refine (bind_ok (advance_ok pass)).trans ?_
  refine bind_ok ?_
  change calling 1 stack (operandAt fuel room) behind = _
  rw [calling_of_le enough]
  exact read (stack - 1) _ _ onward able clear

theorem call (begins : ∃ token more, tokens = token :: more ∧ Plain token)
    (read : Completes fuel room .call tokens expr) :
    Completes fuel room .unary tokens expr := by
  intro stack before after reach able clear
  obtain ⟨token, more, rfl, plain⟩ := begins
  obtain ⟨used, few, come⟩ := read stack before after reach able
  have enough := able.ready.fuel
  have regular := able.token reach
  have rounds : fuel - used = fuel - used - 1 + 1 := by omega
  -- What begins a call is no sign, so the reader turns to the primary.
  have unsigned : (token.spells "!" || token.spells "-") = false := by
    rw [plain.spells_eq_false regular (by decide) (by decide),
      plain.spells_eq_false regular (by decide) (by decide)]
    rfl
  obtain ⟨next, others, here⟩ := (reach.ends able.ready.ends).exists_cons
  rw [operandAt_eq]
  refine (bind_ok (current_ok reach)).trans ?_
  rw [unsigned]
  refine come.trans ?_
  -- No parenthesis follows, so the loop is in its last round.
  rw [rounds]
  refine (bind_ok (current_apply here)).trans ?_
  rw [clear next others here "(" List.mem_cons_self]
  rfl

theorem primary (read : Completes fuel room .primary tokens expr)
    (some : tokens ≠ []) : Completes fuel room .call tokens expr := by
  intro stack before after reach able
  have shorter := reach.length
  have some := List.length_pos_iff.mpr some
  exact ⟨0, by omega, bind_ok (read stack before after reach able)⟩

theorem leaf {token : Token} (known : Leaf token expr) :
    Completes fuel room .primary [token] expr := by
  intro stack before after reach able
  refine (bind_ok (current_ok reach)).trans ?_
  rw [known.leaf?_eq]
  exact pass_ok (advance_ok reach)

theorem grouping {opening closing : Token} (opened : opening.spells "(" = true)
    (read : Completes fuel (room + 1) .expression tokens expr) (closed : closing.spells ")" = true) :
    Completes fuel (room + 1) .primary (opening :: tokens ++ [closing]) (.grouping expr) := by
  intro stack before after reach able
  have operator := (able.token reach).kind_of_operator opened (by decide)
  refine (bind_ok (current_ok reach)).trans ?_
  -- A parenthesis is no leaf, since it is an operator.
  rw [leaf?_operator operator]
  simp only [opened, if_true]
  obtain ⟨behind, pass, reach⟩ := Cursor.Reaches.uncons reach
  obtain ⟨last, inside, reach⟩ := reach.split
  have able := able.reaches pass
  refine (pass_ok (advance_ok pass)).trans ?_
  refine (bind_ok (read stack _ _ inside able (reach.clear closed (by decide)))).trans ?_
  exact pass_ok (expect_ok reach closed _)

/-- A callee is read to the call of it if its arguments are. -/
theorem called (given : List Token) (exprs : List Expr) {opening closing : Token}
    (callee : Completes fuel room .call tokens expr) (opened : opening.spells "(" = true)
    (arguments : ∀ stack before middle after, before.Reaches middle given [] →
      middle.Reaches after [closing] [] → Able fuel room stack before →
      arguments fuel (innerAt fuel room stack) before = .ok exprs middle)
    (closed : closing.spells ")" = true) :
    Completes fuel room .call (tokens ++ opening :: given ++ [closing])
      (.call expr closing exprs) := by
  intro stack before after reach able
  obtain ⟨last, reach, toEnd⟩ := reach.split
  obtain ⟨middle, toCall, reach⟩ := reach.split
  obtain ⟨behind, pass, reach⟩ := reach.uncons
  obtain ⟨used, few, come⟩ := callee stack before middle toCall able
  have enough := able.ready.fuel
  have able := (able.reaches toCall).reaches pass
  have rounds : fuel - used = fuel - (used + 1) + 1 := by omega
  -- Both parentheses are passed, so the round is paid for.
  have fewer : used + 1 + after.rest.length < before.rest.length := by
    have one := pass.length
    have others := reach.length
    have other := toEnd.length
    rw [List.length_singleton] at one other
    omega
  refine ⟨used + 1, fewer, ?_⟩
  rw [come, rounds]
  refine (bind_ok (current_ok pass)).trans ?_
  rw [if_pos opened]
  refine (pass_ok (advance_ok pass)).trans ?_
  refine (bind_ok (arguments stack behind last after reach toEnd able)).trans ?_
  exact bind_ok (expect_ok toEnd closed _)

theorem callBare {opening closing : Token} (callee : Completes fuel room .call tokens expr)
    (opened : opening.spells "(" = true) (closed : closing.spells ")" = true) :
    Completes fuel room .call (tokens ++ [opening, closing]) (.call expr closing []) := by
  have bare := callee.called [] [] opened ?_ closed
  · simpa using bare
  · intro stack before middle after reach toEnd able
    obtain rfl := reach.unique (.refl before)
    refine (bind_ok (current_ok toEnd)).trans ?_
    rw [if_pos closed]
    rfl

theorem limitArguments {count : Nat} {cursor : Cursor} (few : count < maxArguments) :
    limitArguments count cursor = .ok () cursor := by
  unfold Grammar.limitArguments
  rw [if_neg (Nat.not_le.mpr few)]
  rfl

/-- What follows an argument does not continue it. -/
theorem clear_argument {others : List Argument} {closing : Token}
    (commas : ∀ argument ∈ others, argument.comma.spells "," = true)
    (closed : closing.spells ")" = true)
    (reach : before.Reaches middle (others.flatMap Argument.span) [])
    (toEnd : middle.Reaches after [closing] []) : before.Clear following := by
  -- It is the closing parenthesis or the comma of the next argument.
  cases others with
  | nil =>
    obtain rfl := reach.unique (.refl before)
    exact toEnd.clear closed (by decide)
  | cons other others =>
    exact Cursor.Reaches.clear reach (commas other List.mem_cons_self) (by decide)

theorem length_le_span (others : List Argument) :
    others.length ≤ (others.flatMap Argument.span).length := by
  induction others with
  | nil => exact Nat.zero_le _
  | cons argument others ih =>
    rw [List.flatMap_cons, List.length_append, List.length_cons, Argument.span, List.length_cons]
    omega

theorem moreArguments {others : List Argument} {closing : Token} {stack : Nat}
    (commas : ∀ argument ∈ others, argument.comma.spells "," = true)
    (reads : ∀ argument ∈ others,
      Completes fuel (room + 1) .expression argument.tokens argument.expr)
    (closed : closing.spells ")" = true) (rounds count : Nat)
    (few : count + others.length ≤ maxArguments) (enough : others.length < rounds)
    (reach : before.Reaches middle (others.flatMap Argument.span) [])
    (toEnd : middle.Reaches after [closing] []) (able : Able fuel (room + 1) stack before) :
    moreArguments (innerAt fuel (room + 1) stack) rounds count before =
      .ok (others.map Argument.expr) middle := by
  induction others generalizing before rounds count with
  | nil =>
    obtain rfl := reach.unique (.refl before)
    obtain ⟨rounds, rfl⟩ := Nat.exists_eq_succ_of_ne_zero (Nat.ne_of_gt enough)
    refine (bind_ok (current_ok toEnd)).trans ?_
    rw [Token.spells_eq_false closed (by decide)]
    rfl
  | cons argument others ih =>
    rw [List.forall_mem_cons] at commas reads
    rw [List.length_cons] at few enough
    obtain ⟨rounds, rfl⟩ := Nat.exists_eq_succ_of_ne_zero (Nat.ne_of_gt (Nat.zero_lt_of_lt enough))
    obtain ⟨behind, pass, reach⟩ := Cursor.Reaches.uncons reach
    obtain ⟨next, toNext, reach⟩ := reach.split
    have clear := clear_argument commas.2 closed reach toEnd
    have inner := able.reaches pass
    refine (bind_ok (current_ok pass)).trans ?_
    rw [if_pos commas.1]
    refine (pass_ok (advance_ok pass)).trans ?_
    -- With this argument there are no more than allowed, so nothing is reported.
    refine (bind_ok (limitArguments (by omega))).trans ?_
    refine (bind_ok (reads.1 stack behind next toNext inner clear)).trans ?_
    refine (bind_ok (ih commas.2 reads.2 rounds (count + 1) (by omega) (by omega) reach
      (inner.reaches toNext))).trans ?_
    rfl

theorem callWith {given : List Token} {opening closing : Token} {first : Expr}
    {others : List Argument} (callee : Completes fuel (room + 1) .call tokens expr)
    (opened : opening.spells "(" = true)
    (begins : ∃ token more, given = token :: more ∧ Opens token)
    (read : Completes fuel (room + 1) .expression given first)
    (commas : ∀ argument ∈ others, argument.comma.spells "," = true)
    (reads : ∀ argument ∈ others,
      Completes fuel (room + 1) .expression argument.tokens argument.expr)
    (closed : closing.spells ")" = true) (few : others.length < maxArguments) :
    Completes fuel (room + 1) .call
      (tokens ++ opening :: given ++ others.flatMap Argument.span ++ [closing])
      (.call expr closing (first :: others.map Argument.expr)) := by
  have whole := callee.called (given ++ others.flatMap Argument.span)
    (first :: others.map Argument.expr) opened ?_ closed
  · simpa using whole
  · intro stack before middle after reach toEnd able
    obtain ⟨token, more, rfl, begins⟩ := begins
    -- Each further argument passes a comma at least, so the rounds suffice for all of them.
    have spans := length_le_span others
    have enough := able.ready.fuel
    have short := reach.length
    rw [List.length_append] at short
    obtain ⟨next, toNext, onward⟩ := reach.split
    have clear := clear_argument commas closed onward toEnd
    refine (bind_ok (current_ok toNext)).trans ?_
    rw [begins.spells_eq_false (able.token toNext) (by decide) (by decide)]
    refine (bind_ok (read stack before next toNext able clear)).trans ?_
    refine (bind_ok (moreArguments commas reads closed fuel 1 (by omega) (by omega) onward toEnd
      (able.reaches toNext))).trans ?_
    rfl

/-- A bare name is an operation of any levels. -/
theorem name {token : Token} (named : token.kind = .identifier) :
    Completes fuel room (.operation levels) [token] (.name token) := by
  have unary : Completes fuel room .unary [token] (.name token) :=
    .call ⟨token, [], rfl, .inl ⟨_, .name named⟩⟩ (.primary (.leaf (.name named)) nofun)
  unfold levels
  iterate 6 refine .operand ?_
  exact .unary unary

theorem assign {target equals : Token} (named : target.kind = .identifier)
    (spelled : equals.spells "=" = true) (read : Completes fuel room .assignment tokens expr) :
    Completes fuel room .assignment (target :: equals :: tokens) (.assign target expr) := by
  intro stack before after reach able clear
  obtain ⟨first, toTarget, reach⟩ := reach.uncons
  obtain ⟨second, toEquals, reach⟩ := reach.uncons
  have levels : stack = stack - 1 + 1 := by have := able.ready.stack; omega
  have left := (name named).operationAt toTarget able (by decide)
    (toEquals.clear spelled (by decide))
  -- The equals sign is passed before the value is read, which pays for the level of the stack.
  have able : Able fuel room (stack - 1) second := by
    have both := (able.reaches toTarget).reaches toEquals
    have inside := toEquals.inside equals List.mem_cons_self
    have fewer := toTarget.equalsSigns_lt (List.cons_ne_nil _ _) toEquals.rest spelled toEquals
      (.inl ⟨inside, rfl⟩)
    have deep := able.ready.stack
    exact ⟨⟨both.ready.ends, both.ready.depth, both.ready.fuel, by omega⟩, both.regular⟩
  refine (bind_ok left).trans ?_
  refine (bind_ok (current_ok toEquals)).trans ?_
  rw [if_pos spelled]
  refine (bind_ok (advance_ok toEquals)).trans ?_
  rw [levels]
  exact bind_ok (read (stack - 1) second after reach able clear)

end Completes

theorem Derives.room_succ {room : Nat} {tokens : List Token} {expr : Expr}
    (derived : Derives room .expression tokens expr) : ∃ less, room = less + 1 := by
  cases derived
  exact ⟨_, rfl⟩

/-- What derives from a symbol is read by its reader. -/
theorem Derives.completes {room : Nat} {symbol : Symbol} {tokens : List Token} {expr : Expr}
    (fuel : Nat) (derived : Derives room symbol tokens expr) :
    Completes fuel room symbol tokens expr := by
  induction derived with
  | expression _ ih => exact .expression ih
  | assign named spelled _ ih => exact .assign named spelled ih
  | operation _ ih => exact .assignment ih
  | operand _ ih => exact .operand ih
  | join _ spelled _ left right => exact .join left spelled right
  | unary _ ih => exact .unary ih
  | sign spelled _ ih => exact .sign spelled ih
  | call derived ih => exact .call derived.begins ih
  | primary derived ih =>
    obtain ⟨_, _, some, -⟩ := derived.begins
    exact .primary ih (some ▸ List.cons_ne_nil _ _)
  | callBare _ opened closed ih => exact ih.callBare opened closed
  -- An argument is an expression, so there is room for a construct.
  | callWith _ opened given commas _ closed few callee first others =>
    obtain ⟨less, rfl⟩ := given.room_succ
    exact callee.callWith opened given.begins first commas others closed few
  | leaf known => exact .leaf known
  | grouping opened inner closed ih =>
    obtain ⟨less, rfl⟩ := inner.room_succ
    exact .grouping opened ih closed

/-- An expression is read where nothing that could continue it follows. -/
theorem expressionAt_complete {fuel room stack : Nat} {tokens : List Token} {expr : Expr}
    (derived : Derives room .expression tokens expr) (reach : before.Reaches after tokens [])
    (able : Able fuel room stack before) (clear : after.Clear following) :
    expressionAt fuel room stack before = .ok expr after :=
  derived.completes fuel stack before after reach able clear

/-! ### How statements begin -/

/-- The texts that begin a statement at a place, where no expression does. -/
def Place.heads : Place → List String
  | .declaration => ["var", "print", "\x7b", "if", "while", "for"]
  | .statement => ["print", "\x7b", "if", "while", "for"]

/-- The first token of a statement. -/
def Place.Begins (place : Place) (token : Token) : Prop :=
  Opens token ∨ ∃ text ∈ place.heads, token.spells text = true

theorem DerivesAlone.begins {room : Nat} {tokens : List Token} {stmt : Stmt}
    (derived : DerivesAlone room tokens stmt) :
    ∃ token more, tokens = token :: more ∧ Opens token := by
  obtain ⟨value, stop⟩ := derived
  obtain ⟨token, more, rfl, begins⟩ := value.begins
  exact ⟨token, _, rfl, begins⟩

theorem DerivesStatement.begins {room : Nat} {place : Place} {tokens : List Token} {stmt : Stmt}
    {opened : Bool} (derived : DerivesStatement room place tokens stmt opened) :
    ∃ token more, tokens = token :: more ∧ place.Begins token := by
  induction derived with
  | declared stated =>
    cases stated with
    | bare word | initial word => exact ⟨_, _, rfl, .inr ⟨"var", by decide, word⟩⟩
  | statement _ ih =>
    obtain ⟨token, more, rfl, opens | ⟨text, member, spelled⟩⟩ := ih
    · exact ⟨token, more, rfl, .inl opens⟩
    · exact ⟨token, more, rfl, .inr ⟨text, List.mem_cons_of_mem _ member, spelled⟩⟩
  | alone value =>
    obtain ⟨token, more, rfl, opens⟩ := value.begins
    exact ⟨token, more, rfl, .inl opens⟩
  | print word => exact ⟨_, _, rfl, .inr ⟨"print", by decide, word⟩⟩
  | block opening => exact ⟨_, _, rfl, .inr ⟨"\x7b", by decide, opening⟩⟩
  | ifThen word | ifElse word => exact ⟨_, _, rfl, .inr ⟨"if", by decide, word⟩⟩
  | loop word => exact ⟨_, _, rfl, .inr ⟨"while", by decide, word⟩⟩
  | forLoop word => exact ⟨_, _, rfl, .inr ⟨"for", by decide, word⟩⟩

theorem Place.Begins.spells_eq_false {place : Place} {token : Token} {text : String}
    (begins : place.Begins token) (regular : token.Regular)
    (fixed : text ∈ reservedWords ++ operatorTexts)
    (other : text ∉ ["true", "false", "nil", "(", "!", "-"]) (apart : text ∉ place.heads) :
    token.spells text = false := by
  rcases begins with opens | ⟨head, member, spelled⟩
  · exact opens.spells_eq_false regular fixed other
  · exact Token.spells_eq_false spelled fun same => apart (same ▸ member)

/-- What begins an expression is no word that begins a statement. -/
theorem Opens.kind_ne {token : Token} {text : String} (opens : Opens token)
    (regular : token.Regular) (reserved : text ∈ reservedWords)
    (other : text ∉ ["true", "false", "nil", "(", "!", "-"]) : token.kind ≠ .word text := by
  intro kind
  have unspelled := opens.spells_eq_false regular (List.mem_append_left _ reserved) other
  -- The kind alone is judged by the statement reader, but the spelling of a word follows from it.
  have spelled := regular.spells_word kind
  rw [unspelled] at spelled
  exact absurd spelled (by decide)

/-! ### Parts of statements -/

section Parts

variable {fuel room stack : Nat} {tokens : List Token}

theorem semicolon_ok {stop : Token} (reach : before.Reaches after [stop] [])
    (spelled : stop.spells ";" = true) (what : String) : semicolon what before = .ok () after :=
  discard_ok (expect_ok reach spelled _)

/-- An expression is read where a token follows that does not continue it. -/
theorem expressionAt_ok {expr : Expr} {stop : Token} {text : String}
    (derived : Derives room .expression tokens expr) (reach : before.Reaches middle tokens [])
    (toStop : middle.Reaches after [stop] []) (able : Able fuel room stack before)
    (spelled : stop.spells text = true) (apart : text ∉ following) :
    expressionAt fuel room stack before = .ok expr middle :=
  expressionAt_complete derived reach able (toStop.clear spelled apart)

theorem unlessAt_ok {result : Option Expr} {stop : Token} {text : String}
    (derived : DerivesOptional room tokens result) (reach : before.Reaches middle tokens [])
    (toStop : middle.Reaches after [stop] []) (able : Able fuel room stack before)
    (spelled : stop.spells text = true) (apart : text ∉ following)
    (fixed : text ∈ operatorTexts) (other : text ∉ ["true", "false", "nil", "(", "!", "-"]) :
    unlessAt text (expressionAt fuel room stack) before = .ok result middle := by
  cases derived with
  | none =>
    obtain rfl := reach.unique (.refl before)
    refine (bind_ok (current_ok toStop)).trans ?_
    rw [if_pos spelled]
    rfl
  | some derived =>
    obtain ⟨token, more, rfl, begins⟩ := derived.begins
    have unspelled := begins.spells_eq_false (able.token reach)
      (List.mem_append_right _ fixed) other
    refine (bind_ok (current_ok reach)).trans ?_
    rw [unspelled]
    exact bind_ok (expressionAt_ok derived reach toStop able spelled apart)

theorem ifAt_none {body : Read α} {stop : Token} {more : List Token} {text : String}
    (here : before.rest = stop :: more) (other : stop.spells text = false) :
    ifAt text body before = .ok none before := by
  refine (bind_ok (current_apply here)).trans ?_
  rw [other]
  rfl

theorem ifAt_some {body : Read α} {result : α} {word : Token} {text : String}
    (pass : before.Reaches middle [word] []) (spelled : word.spells text = true)
    (read : body middle = .ok result after) : ifAt text body before = .ok (some result) after := by
  refine (bind_ok (current_ok pass)).trans ?_
  rw [if_pos spelled]
  exact (pass_ok (advance_ok pass)).trans (bind_ok read)

theorem variableDeclaration_complete {stmt : Stmt} (derived : DerivesVariable room tokens stmt)
    (reach : before.Reaches after tokens []) (able : Able fuel room stack before) :
    variableDeclaration (expressionAt fuel room stack) before = .ok stmt after := by
  cases derived with
  | bare word named stop =>
    obtain ⟨first, toWord, reach⟩ := reach.uncons
    obtain ⟨second, toName, reach⟩ := reach.uncons
    refine (pass_ok (expect_ok toWord word _)).trans ?_
    refine (bind_ok (expectName_ok toName named _)).trans ?_
    refine (bind_ok (ifAt_none reach.rest (Token.spells_eq_false stop (by decide)))).trans ?_
    exact bind_ok (semicolon_ok reach stop _)
  | initial word named equals value stop =>
    obtain ⟨first, toWord, reach⟩ := Cursor.Reaches.uncons reach
    obtain ⟨second, toName, reach⟩ := Cursor.Reaches.uncons reach
    obtain ⟨third, toEquals, reach⟩ := Cursor.Reaches.uncons reach
    obtain ⟨fourth, toValue, reach⟩ := reach.split
    have able := ((able.reaches toWord).reaches toName).reaches toEquals
    have read := expressionAt_ok value toValue reach able stop (by decide)
    refine (pass_ok (expect_ok toWord word _)).trans ?_
    refine (bind_ok (expectName_ok toName named _)).trans ?_
    refine (bind_ok (ifAt_some toEquals equals read)).trans ?_
    exact bind_ok (semicolon_ok reach stop _)

theorem expressionStatement_complete {stmt : Stmt} (derived : DerivesAlone room tokens stmt)
    (reach : before.Reaches after tokens []) (able : Able fuel room stack before) :
    expressionStatement (expressionAt fuel room stack) before = .ok stmt after := by
  obtain ⟨value, stop⟩ := derived
  obtain ⟨middle, toValue, reach⟩ := reach.split
  refine (bind_ok (expressionAt_ok value toValue reach able stop (by decide))).trans ?_
  exact bind_ok (semicolon_ok reach stop _)

theorem forInitial_complete {initial : Option Stmt} (derived : DerivesInitial room tokens initial)
    (reach : before.Reaches after tokens []) (able : Able fuel room stack before) :
    forInitial (expressionAt fuel room stack) before = .ok initial after := by
  cases derived with
  | none stop =>
    refine (bind_ok (current_ok reach)).trans ?_
    rw [if_pos stop]
    exact pass_ok (advance_ok reach)
  | declared stated =>
    have read := variableDeclaration_complete stated reach able
    obtain ⟨token, more, rfl, word⟩ : ∃ token more, tokens = token :: more ∧
        token.spells "var" = true := by
      cases stated with
      | bare word | initial word => exact ⟨_, _, rfl, word⟩
    refine (bind_ok (current_ok reach)).trans ?_
    rw [Token.spells_eq_false word (by decide), word]
    exact bind_ok read
  | alone stated =>
    have read := expressionStatement_complete stated reach able
    -- What begins an expression is neither a semicolon nor a `var`.
    obtain ⟨token, more, rfl, opens⟩ := stated.begins
    have regular := able.token reach
    refine (bind_ok (current_ok reach)).trans ?_
    rw [opens.spells_eq_false regular (by decide) (by decide),
      opens.spells_eq_false regular (by decide) (by decide)]
    exact bind_ok read

end Parts

/-! ### Statements -/

/-- The reader of a place goes from a cursor to a later one with a statement. A declaration has two levels
of the stack besides. -/
def Place.Comes (fuel room stack : Nat) (before after : Cursor) (stmt : Stmt) : Place → Prop
  | .declaration => declarationAt fuel (stack + 2) room before = .ok (some stmt) after
  | .statement => statementAt fuel stack room before = .ok stmt after

/-- Wherever some tokens are to be passed, the reader of a place passes them, unless an `else`
follows that they could take. -/
def Place.Completes (fuel room : Nat) (place : Place) (tokens : List Token) (stmt : Stmt)
    (opened : Bool) : Prop :=
  ∀ stack before after, before.Reaches after tokens [] → Able fuel room stack before →
    (opened = true → after.Clear ["else"]) → place.Comes fuel room stack before after stmt

namespace Place.Completes

variable {fuel room : Nat} {tokens : List Token} {stmt : Stmt} {opened : Bool}

/-- A statement is read one construct deeper. What is read in a clause of it, or in a declaration, may take
a level more, or two. -/
theorem deeper (read : ∀ stack before after, before.Reaches after tokens [] →
      Able fuel room stack before → Able fuel room (stack + 2) before →
      (opened = true → after.Clear ["else"]) →
      statementOver fuel (expressionAt fuel room (stack + 1)) (expressionAt fuel room (stack + 2))
          (statementAt fuel (stack + 2) room) (declarationAt fuel (stack + 2) room) before =
        .ok stmt after) :
    Place.Completes fuel (room + 1) .statement tokens stmt opened := by
  intro stack before after reach able free
  have deep := able.ready.stack
  obtain ⟨less, rfl⟩ : ∃ less, stack = less + 4 := ⟨stack - 4, by omega⟩
  refine nested_ok able.below_cap reach.depth ?_
  rw [calling_of_le (by omega), calling_of_le (by omega)]
  exact read less _ _ (reach.deeper _) (able.deeper.more (by omega)) (able.deeper.more (by omega)) free

theorem declared (derived : DerivesVariable room tokens stmt) :
    Place.Completes fuel room .declaration tokens stmt false := by
  intro stack before after reach able _
  have read : variableDeclaration (calling 1 (stack + 1) (expressionAt fuel room)) before =
      .ok stmt after := variableDeclaration_complete derived reach able
  obtain ⟨token, more, rfl, word⟩ : ∃ token more, tokens = token :: more ∧
      token.spells "var" = true := by
    cases derived with
    | bare word | initial word => exact ⟨_, _, rfl, word⟩
  apply recovering_ok
  apply (bind_ok (current_ok reach)).trans
  rw [if_pos word]
  exact read

theorem statement (begins : ∃ token more, tokens = token :: more ∧ Place.Begins .statement token)
    (read : Place.Completes fuel room .statement tokens stmt opened) :
    Place.Completes fuel room .declaration tokens stmt opened := by
  intro stack before after reach able free
  have come : statementAt fuel (stack + 1) room before = .ok stmt after :=
    read (stack + 1) before after reach (able.more (Nat.le_succ _)) free
  obtain ⟨token, more, rfl, begins⟩ := begins
  have other : token.spells "var" = false :=
    begins.spells_eq_false (able.token reach) (by decide) (by decide) (by decide)
  apply recovering_ok
  apply (bind_ok (current_ok reach)).trans
  rw [other]
  exact come

theorem alone (derived : DerivesAlone room tokens stmt) :
    Place.Completes fuel (room + 1) .statement tokens stmt false := by
  refine deeper fun stack before after reach _ able _ => ?_
  have read := expressionStatement_complete derived reach able
  obtain ⟨token, more, rfl, opens⟩ := derived.begins
  have regular := able.token reach
  -- None of the words that the reader looks for begins an expression.
  have other {text : String} (reserved : text ∈ reservedWords) := opens.kind_ne regular reserved
  refine (bind_ok (current_ok reach)).trans ?_
  rw [if_neg (other (by decide) (by decide)), if_neg (other (by decide) (by decide)),
    if_neg (other (by decide) (by decide)), if_neg (other (by decide) (by decide)),
    opens.spells_eq_false regular (by decide) (by decide)]
  exact read

theorem print {word stop : Token} {value : Expr} (introduced : word.spells "print" = true)
    (derived : Derives room .expression tokens value) (ended : stop.spells ";" = true) :
    Place.Completes fuel (room + 1) .statement (word :: tokens ++ [stop]) (.print value) false := by
  refine deeper fun stack before after reach _ able _ => ?_
  have kind := (able.token reach).kind_of_word introduced (by decide)
  refine (bind_ok (current_ok reach)).trans ?_
  rw [if_neg (by rw [kind]; decide), if_neg (by rw [kind]; decide), if_pos kind]
  obtain ⟨first, pass, reach⟩ := Cursor.Reaches.uncons reach
  obtain ⟨second, toValue, reach⟩ := reach.split
  have read := expressionAt_ok derived toValue reach (able.reaches pass) ended (by decide)
  refine (pass_ok (expect_ok pass introduced _)).trans ?_
  exact (bind_ok read).trans (bind_ok (semicolon_ok reach ended _))

/-- The head of a statement: a word, and a condition in parentheses. -/
theorem headed (back : List Token) {word opening closing : Token} {test front : List Token} {condition : Expr}
    {stack : Nat} {text what one two : String} {next : Expr → Read Stmt}
    (introduced : word.spells text = true) (opened : opening.spells "(" = true)
    (derived : Derives room .expression test condition) (closed : closing.spells ")" = true)
    (whole : front = word :: opening :: test ++ closing :: back)
    (reach : before.Reaches after front []) (able : Able fuel room stack before)
    (onward : ∀ middle, middle.Reaches after back [] → Able fuel room stack middle →
      next condition middle = .ok stmt after) :
    (do
      discard (expect text what)
      discard (expect "(" one)
      let condition ← expressionAt fuel room stack
      discard (expect ")" two)
      next condition) before = .ok stmt after := by
  subst whole
  obtain ⟨first, toWord, reach⟩ := Cursor.Reaches.uncons reach
  obtain ⟨second, toOpening, reach⟩ := Cursor.Reaches.uncons reach
  obtain ⟨third, toTest, reach⟩ := reach.split
  obtain ⟨fourth, toClosing, reach⟩ := reach.uncons
  have able := (able.reaches toWord).reaches toOpening
  refine (pass_ok (expect_ok toWord introduced _)).trans ?_
  refine (pass_ok (expect_ok toOpening opened _)).trans ?_
  refine (bind_ok (expressionAt_ok derived toTest toClosing able closed (by decide))).trans ?_
  refine (pass_ok (expect_ok toClosing closed _)).trans ?_
  exact onward fourth reach ((able.reaches toTest).reaches toClosing)

theorem ifThen {word opening closing : Token} {test first : List Token} {condition : Expr}
    {yes : Stmt} (introduced : word.spells "if" = true) (open_ : opening.spells "(" = true)
    (derived : Derives room .expression test condition) (closed : closing.spells ")" = true)
    (body : Place.Completes fuel room .statement first yes opened) :
    Place.Completes fuel (room + 1) .statement (word :: opening :: test ++ closing :: first)
      (.branch condition yes none) true := by
  refine deeper fun stack before after reach _ able free => ?_
  have kind := (able.token reach).kind_of_word introduced (by decide)
  refine (bind_ok (current_ok reach)).trans ?_
  rw [if_neg (by rw [kind]; decide), if_pos kind]
  refine headed _ introduced open_ derived closed rfl reach able fun middle onward able => ?_
  refine (bind_ok (body (stack + 2) middle after onward able fun _ => free rfl)).trans ?_
  obtain ⟨next, more, here⟩ := (onward.ends able.ready.ends).exists_cons
  -- Without an `else` the statement ends with its branch.
  exact bind_ok (ifAt_none here (free rfl next more here "else" List.mem_cons_self))

theorem ifElse {word opening closing between : Token} {test first second : List Token}
    {condition : Expr} {yes no : Stmt} (introduced : word.spells "if" = true)
    (open_ : opening.spells "(" = true) (derived : Derives room .expression test condition)
    (closed : closing.spells ")" = true)
    (body : Place.Completes fuel room .statement first yes false)
    (parts : between.spells "else" = true)
    (other : Place.Completes fuel room .statement second no opened) :
    Place.Completes fuel (room + 1) .statement
      (word :: opening :: test ++ closing :: first ++ between :: second)
      (.branch condition yes (some no)) opened := by
  refine deeper fun stack before after reach _ able free => ?_
  have kind := (able.token reach).kind_of_word introduced (by decide)
  refine (bind_ok (current_ok reach)).trans ?_
  rw [if_neg (by rw [kind]; decide), if_pos kind]
  refine headed (first ++ between :: second) introduced open_ derived closed (by simp) reach able fun middle onward able => ?_
  obtain ⟨last, toElse, onward⟩ := onward.split
  obtain ⟨behind, pass, onward⟩ := onward.uncons
  have able' := (able.reaches toElse).reaches pass
  -- The branch is not open, so it leaves the `else` alone.
  refine (bind_ok (body (stack + 2) middle last toElse able nofun)).trans ?_
  exact bind_ok (ifAt_some pass parts (other (stack + 2) behind after onward able' free))

theorem loop {word opening closing : Token} {test : List Token} {condition : Expr} {body : Stmt}
    (introduced : word.spells "while" = true) (open_ : opening.spells "(" = true)
    (derived : Derives room .expression test condition) (closed : closing.spells ")" = true)
    (read : Place.Completes fuel room .statement tokens body opened) :
    Place.Completes fuel (room + 1) .statement (word :: opening :: test ++ closing :: tokens)
      (.loop condition body) opened := by
  refine deeper fun stack before after reach _ able free => ?_
  have kind := (able.token reach).kind_of_word introduced (by decide)
  refine (bind_ok (current_ok reach)).trans ?_
  rw [if_neg (by rw [kind]; decide), if_neg (by rw [kind]; decide), if_neg (by rw [kind]; decide),
    if_pos kind]
  refine headed _ introduced open_ derived closed rfl reach able fun middle onward able => ?_
  exact bind_ok (read (stack + 2) middle after onward able free)

theorem forLoop {word opening stop closing : Token} {first second third : List Token}
    {initial : Option Stmt} {condition increment : Option Expr} {body : Stmt}
    (introduced : word.spells "for" = true) (open_ : opening.spells "(" = true)
    (starts : DerivesInitial room first initial) (tests : DerivesOptional room second condition)
    (ended : stop.spells ";" = true) (steps : DerivesOptional room third increment)
    (closed : closing.spells ")" = true)
    (read : Place.Completes fuel room .statement tokens body opened) :
    Place.Completes fuel (room + 1) .statement
      (word :: opening :: first ++ second ++ stop :: third ++ closing :: tokens)
      (forLoop initial (condition.getD (.literal (.bool true))) increment body) opened := by
  refine deeper fun stack before after reach deep able free => ?_
  have kind := (able.token reach).kind_of_word introduced (by decide)
  refine (bind_ok (current_ok reach)).trans ?_
  rw [if_pos kind]
  simp only [List.cons_append, List.append_assoc] at reach
  obtain ⟨one, toWord, reach⟩ := reach.uncons
  obtain ⟨two, toOpening, reach⟩ := reach.uncons
  obtain ⟨three, toInitial, reach⟩ := reach.split
  obtain ⟨four, toTest, reach⟩ := reach.split
  obtain ⟨five, toStop, reach⟩ := reach.uncons
  obtain ⟨six, toStep, reach⟩ := reach.split
  obtain ⟨seven, toClosing, reach⟩ := reach.uncons
  have able₂ := (able.reaches toWord).reaches toOpening
  have able₃ := able₂.reaches toInitial
  have able₅ := (able₃.reaches toTest).reaches toStop
  have able₇ := (able₅.reaches toStep).reaches toClosing
  refine (pass_ok (expect_ok toWord introduced _)).trans ?_
  refine (pass_ok (expect_ok toOpening open_ _)).trans ?_
  -- The first clause is read a level further down.
  have first := (deep.more (Nat.le_succ stack)).reaches toWord |>.reaches toOpening
  refine (bind_ok (forInitial_complete starts toInitial first)).trans ?_
  refine (bind_ok (unlessAt_ok tests toTest toStop able₃ ended (by decide) (by decide)
    (by decide))).trans ?_
  refine (bind_ok (semicolon_ok toStop ended _)).trans ?_
  refine (bind_ok (unlessAt_ok steps toStep toClosing able₅ closed (by decide) (by decide)
    (by decide))).trans ?_
  refine (pass_ok (expect_ok toClosing closed _)).trans ?_
  exact bind_ok (read (stack + 2) seven after reach able₇ free)

end Place.Completes

/-! ### Lists of declarations -/

section Lists

variable {fuel room stack : Nat} {closes : Token → Bool}

/-- What closes a list is no `else`. -/
theorem clear_closing (able : Able fuel room stack before) {last : Token} {more : List Token}
    (here : before.rest = last :: more)
    (closing : ∀ token, closes token = true → token.spells "\x7d" = true)
    (stops : (closes last || last.isEnd) = true) : before.Clear ["else"] := by
  intro token others there text member
  rw [here, List.cons.injEq] at there
  obtain ⟨rfl, rfl⟩ := there
  obtain rfl := List.mem_singleton.mp member
  rcases (Bool.or_eq_true _ _).mp stops with closed | ended
  · exact Token.spells_eq_false (closing last closed) (by decide)
  · cases spelled : last.spells "else" with
    | false => rfl
    | true =>
      -- An end of input is not spelled as a word.
      have regular := able.regular.regular last (here ▸ List.mem_cons_self)
      rw [regular.inside spelled (by decide)] at ended
      exact absurd ended (by decide)

/-- A declaration begins with no `else`, nor does what closes their list. -/
theorem clear_items {items : List Item}
    (derived : ∀ item ∈ items,
      DerivesStatement room .declaration item.tokens item.stmt item.opened)
    (closing : ∀ token, closes token = true → token.spells "\x7d" = true)
    (reach : before.Reaches after (items.flatMap Item.tokens) [])
    (able : Able fuel room stack before) {last : Token} {more : List Token}
    (here : after.rest = last :: more) (stops : (closes last || last.isEnd) = true) :
    before.Clear ["else"] := by
  cases items with
  | nil =>
    obtain rfl := reach.unique (.refl before)
    exact clear_closing able here closing stops
  | cons next items =>
    obtain ⟨first, rest, begun, begins⟩ := (derived next List.mem_cons_self).begins
    rw [List.flatMap_cons, begun] at reach
    intro token others there text member
    obtain rfl := List.mem_singleton.mp member
    rw [reach.rest, List.cons_append, List.cons_append, List.cons.injEq] at there
    obtain ⟨rfl, -⟩ := there
    exact begins.spells_eq_false (able.token reach) (by decide) (by decide) (by decide)

/-- Declarations are read up to what closes their list. -/
theorem declarations_complete (closes : Token → Bool) {items : List Item}
    (derived : ∀ item ∈ items,
      DerivesStatement room .declaration item.tokens item.stmt item.opened)
    (reads : ∀ item ∈ items,
      Place.Completes fuel room .declaration item.tokens item.stmt item.opened)
    (closing : ∀ token, closes token = true → token.spells "\x7d" = true) (rounds : Nat)
    (enough : (items.flatMap Item.tokens).length < rounds)
    (reach : before.Reaches after (items.flatMap Item.tokens) [])
    (able : Able fuel room stack before) {last : Token} {more : List Token}
    (here : after.rest = last :: more) (stops : (closes last || last.isEnd) = true) :
    declarations closes (declarationAt fuel (stack + 2) room) rounds before =
      .ok (items.map Item.stmt) after := by
  -- The induction is on the declarations. Each has a token, so the rounds outlast them.
  obtain ⟨rounds, rfl⟩ := Nat.exists_eq_succ_of_ne_zero (Nat.ne_zero_of_lt enough)
  induction items generalizing before rounds with
  | nil =>
    obtain rfl := reach.unique (.refl before)
    refine (bind_ok (current_apply here)).trans ?_
    rw [if_pos stops]
    rfl
  | cons item items ih =>
    rw [List.forall_mem_cons] at derived reads
    rw [List.flatMap_cons, List.length_append] at enough
    obtain ⟨token, others, begun, begins⟩ := derived.1.begins
    rw [List.flatMap_cons] at reach
    obtain ⟨middle, toNext, onward⟩ := reach.split
    have some := congrArg List.length begun
    rw [List.length_cons] at some
    have clear := clear_items derived.2 closing onward (able.reaches toNext) here stops
    have read := reads.1 stack before middle toNext able fun _ => clear
    rw [begun] at toNext
    have regular := able.token toNext
    -- The list is not closed here: what begins a declaration is no brace that closes it.
    have goesOn : (closes token || token.isEnd) = false := by
      rw [toNext.inside token List.mem_cons_self, Bool.or_false]
      cases closed : closes token with
      | false => rfl
      | true =>
        have other : token.spells "\x7d" = false :=
          begins.spells_eq_false regular (by decide) (by decide) (by decide)
        rw [closing token closed] at other
        exact absurd other (by decide)
    obtain ⟨rounds, rfl⟩ := Nat.exists_eq_succ_of_ne_zero (n := rounds) (by omega)
    refine (bind_ok (current_ok toNext)).trans ?_
    rw [goesOn]
    refine (bind_ok read).trans ?_
    exact bind_ok (ih derived.2 reads.2 onward (able.reaches toNext) rounds (by omega))

theorem Place.Completes.block {items : List Item} {opening closing : Token}
    (opened : opening.spells "\x7b" = true)
    (derived : ∀ item ∈ items,
      DerivesStatement room .declaration item.tokens item.stmt item.opened)
    (reads : ∀ item ∈ items,
      Place.Completes fuel room .declaration item.tokens item.stmt item.opened)
    (closed : closing.spells "\x7d" = true) :
    Place.Completes fuel (room + 1) .statement (opening :: items.flatMap Item.tokens ++ [closing])
      (.block (items.map Item.stmt)) false := by
  refine deeper fun stack before after reach deep able _ => ?_
  -- An opening brace is an operator, so none of the words that are asked for before fits.
  have kind := (able.token reach).kind_of_operator opened (by decide)
  refine (bind_ok (current_ok reach)).trans ?_
  rw [if_neg (by rw [kind]; decide), if_neg (by rw [kind]; decide), if_neg (by rw [kind]; decide),
    if_neg (by rw [kind]; decide), if_pos opened]
  have enough := able.ready.fuel
  obtain ⟨first, toOpening, reach⟩ := Cursor.Reaches.uncons reach
  obtain ⟨second, toBody, reach⟩ := reach.split
  have inside := deep.reaches toOpening
  have one := toOpening.length
  have others := toBody.length
  refine (pass_ok (expect_ok toOpening opened _)).trans ?_
  refine (bind_ok (declarations_complete _ derived reads (fun _ => id) fuel (by omega) toBody inside
    reach.rest (by rw [closed]; rfl))).trans ?_
  exact pass_ok (expect_ok reach closed _)

end Lists

/-- What derives at a place is read there. -/
theorem DerivesStatement.completes {room : Nat} {place : Place} {tokens : List Token} {stmt : Stmt}
    {opened : Bool} (fuel : Nat) (derived : DerivesStatement room place tokens stmt opened) :
    Place.Completes fuel room place tokens stmt opened := by
  induction derived with
  | declared stated => exact .declared stated
  | statement derived ih => exact .statement derived.begins ih
  | alone stated => exact .alone stated
  | print word value stop => exact .print word value stop
  | block opening derived closing ih => exact .block opening derived ih closing
  | ifThen word opening test closing _ ih => exact .ifThen word opening test closing ih
  | ifElse word opening test closing _ between _ yes no =>
    exact .ifElse word opening test closing yes between no
  | loop word opening test closing _ ih => exact .loop word opening test closing ih
  | forLoop word opening first second stop third closing _ ih =>
    exact .forLoop word opening first second stop third closing ih

/-- What derives as a program is read up to the end of input. -/
theorem program_complete {stack : Nat} {tokens : List Token} {stmts : List Stmt} {last : Token}
    {more : List Token} (derived : DerivesProgram (before.cap - before.depth) tokens stmts)
    (reach : before.Reaches after tokens []) (here : after.rest = last :: more)
    (stops : last.isEnd = true)
    (able : Able (before.rest.length + 1) (before.cap - before.depth) (stack - 3) before) :
    program stack before = .ok stmts after := by
  obtain ⟨items, derived, rfl, rfl⟩ := derived
  have short := reach.length
  obtain ⟨less, rfl⟩ : ∃ less, stack = less + 2 :=
    ⟨stack - 2, by have := able.ready.stack_pos; omega⟩
  exact declarations_complete (fun _ => false) derived
    (fun item member => (derived item member).completes _) nofun _ (by omega) reach
    (able.more (by omega)) here stops

end Lox.Grammar
