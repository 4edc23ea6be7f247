import Lox.Proofs.Grammar.Reader
import Lox.Proofs.Source.Joint
import Lox.Proofs.Syntax.Trees

/-!
# Reading looks no further than it has to

Two cursors are compared: one over some tokens and a last one, the other over the same tokens, on lines
further down, and anything behind them. As long as a reader does not come to the last token of the
first list it does the same on both. A statement that is read up to the last token, an end of input,
is read in the same way on both unless an `else` comes next on the second.
-/
namespace Lox

/-- An expression so many lines further down. -/
def Expr.lower (lines : Int) : Expr → Expr := Expr.rebuild (Token.lower lines) id

/-- A statement so many lines further down. -/
def Stmt.lower (lines : Int) : Stmt → Stmt := Stmt.rebuild (Token.lower lines) (Expr.lower lines)

section

variable (lines : Int)

theorem Token.spells_lower (token : Token) (text : String) :
    (token.lower lines).spells text = token.spells text :=
  rfl

theorem Expr.lower_call {callee : Expr} {closing : Token} {arguments : List Expr} :
    (Expr.call callee closing arguments).lower lines =
      .call (callee.lower lines) (closing.lower lines) (arguments.map (Expr.lower lines)) := by
  unfold Expr.lower
  rw [Expr.rebuild, Expr.rebuildAll_eq_map]
  rfl

theorem Expr.lower_join {level : Level} {left right : Expr} {op : Token} :
    (level.join left op right).lower lines =
      level.join (left.lower lines) (op.lower lines) (right.lower lines) := by
  unfold Level.join
  split <;> rfl

theorem Stmt.lower_block {body : List Stmt} :
    (Stmt.block body).lower lines = .block (body.map (Stmt.lower lines)) :=
  Stmt.rebuild_block _ _ body

end

theorem Token.lower_zero (token : Token) : token.lower 0 = token := by
  simp [Token.lower]

theorem Expr.lower_zero (expr : Expr) : expr.lower 0 = expr := by
  unfold Expr.lower
  rw [show Token.lower 0 = id from funext Token.lower_zero, Expr.rebuild_id]

theorem Stmt.lower_zero (stmt : Stmt) : stmt.lower 0 = stmt := by
  unfold Stmt.lower
  rw [show Token.lower 0 = id from funext Token.lower_zero,
    show Expr.lower 0 = id from funext Expr.lower_zero, Stmt.rebuild_id]

namespace Grammar

theorem leaf?_lower (lines : Int) (token : Token) :
    leaf? (token.lower lines) = (leaf? token).map (Expr.lower lines) := by
  unfold leaf?
  have kind : (token.lower lines).kind = token.kind := rfl
  rw [kind]
  split <;> rfl

theorem forLoop_lower (lines : Int) {initial : Option Stmt} {condition : Expr}
    {increment : Option Expr} {body : Stmt} :
    (forLoop initial condition increment body).lower lines =
      forLoop (initial.map (Stmt.lower lines)) (condition.lower lines)
        (increment.map (Expr.lower lines)) (body.lower lines) := by
  cases initial <;> cases increment <;> rfl

/-! ### Two cursors side by side -/

/-- The cursor is not at the last token. -/
def Cursor.Inside (cursor : Cursor) : Prop := 1 < cursor.rest.length

/-- A later cursor over the same tokens, with at least one of them left. -/
structure Cursor.Onward (before after : Cursor) : Prop where
  rest : after.rest <:+ before.rest
  left : after.rest ≠ []
  reports : before.reports <+: after.reports

/-- Where two lists of tokens are joined: an end of input without a text gives way to a tail that does
not go on with an `else`. -/
structure Joint where
  /-- How many lines the tokens before are further down. -/
  lines : Int
  last : Token
  tail : List Token
  /-- What was reported earlier. -/
  base : List StaticReport
  ended : last.isEnd = true
  blank : last.lexeme = ""
  going : ∃ token rest, tail = token :: rest ∧ token.spells "else" = false

/-- Two cursors at the same place of the same tokens. On the second these are further down, and a
tail follows them where the first has one last token. -/
structure Cursor.Beside (joint : Joint) (here there : Cursor) : Prop where
  rest : ∃ front, here.rest = front ++ [joint.last] ∧
    there.rest = front.map (Token.lower joint.lines) ++ joint.tail
  depth : there.depth = here.depth
  cap : there.cap = here.cap
  reports : there.reports = joint.base ++ here.reports.map (StaticReport.lower joint.lines)

namespace Cursor

variable {first second third : Cursor}

theorem Onward.refl (left : first.rest ≠ []) : first.Onward first :=
  ⟨List.suffix_refl _, left, List.prefix_refl _⟩

theorem Onward.trans (front : first.Onward second) (back : second.Onward third) :
    first.Onward third :=
  ⟨back.rest.trans front.rest, back.left, front.reports.trans back.reports⟩

theorem Onward.inside (onward : first.Onward second) (inside : second.Inside) : first.Inside :=
  Nat.lt_of_lt_of_le inside onward.rest.length_le

variable {joint : Joint}

theorem Beside.left (beside : first.Beside joint second) : first.rest ≠ [] := by
  obtain ⟨front, same, -⟩ := beside.rest
  simp [same]

/-- Beside a cursor at its last token, there is one at the tail. -/
theorem Beside.exists_of_last (here : first.rest = [joint.last]) :
    ∃ there : Cursor, first.Beside joint there :=
  ⟨⟨joint.tail, 0, first.depth, first.cap,
    joint.base ++ first.reports.map (StaticReport.lower joint.lines)⟩, ⟨[], here, rfl⟩, rfl, rfl, rfl⟩

/-- Either the current token is one that both cursors have, or the first is at its last. -/
theorem Beside.cases (beside : first.Beside joint second) :
    (∃ token rest more, first.rest = token :: rest ∧ second.rest = token.lower joint.lines :: more ∧
      first.Inside) ∨ first.rest = [joint.last] ∧ second.rest = joint.tail ∧ ¬first.Inside := by
  obtain ⟨front, here, there⟩ := beside.rest
  cases front with
  | nil => exact .inr ⟨here, there, by simp [Inside, here]⟩
  | cons token front =>
    refine .inl ⟨token, front ++ [joint.last], front.map (Token.lower joint.lines) ++ joint.tail,
      here, there, ?_⟩
    simp [Inside, here]

theorem Beside.deeper (beside : first.Beside joint second) :
    Cursor.Beside joint { first with depth := first.depth + 1 }
      { second with depth := second.depth + 1 } :=
  ⟨beside.rest, congrArg (· + 1) beside.depth, beside.cap, beside.reports⟩

theorem Beside.shallower (beside : first.Beside joint second) :
    Cursor.Beside joint { first with depth := first.depth - 1 }
      { second with depth := second.depth - 1 } :=
  ⟨beside.rest, congrArg (· - 1) beside.depth, beside.cap, beside.reports⟩

/-- What is left of the tokens ends with the same last one. -/
theorem Beside.exists_of_onward (beside : first.Beside joint second) (onward : first.Onward third) :
    ∃ there : Cursor, third.Beside joint there := by
  obtain ⟨front, here, -⟩ := beside.rest
  obtain ⟨passed, same⟩ := onward.rest
  obtain none | ⟨left, last, ends⟩ := List.eq_nil_or_concat third.rest
  · exact absurd none onward.left
  · rw [here, ends, List.concat_eq_append, ← List.append_assoc] at same
    obtain rfl := List.singleton_inj.mp (List.append_inj' same rfl).2
    refine ⟨⟨left.map (Token.lower joint.lines) ++ joint.tail, 0, third.depth, third.cap,
      joint.base ++ third.reports.map (StaticReport.lower joint.lines)⟩, ?_, rfl, rfl, rfl⟩
    exact ⟨left, ends.trans (List.concat_eq_append ..), rfl⟩

theorem Beside.last_of_onward (beside : first.Beside joint second)
    (onward : first.Onward third) (outside : ¬third.Inside) : third.rest = [joint.last] := by
  obtain ⟨front, here, -⟩ := beside.rest
  obtain ⟨passed, same⟩ := onward.rest
  rw [here] at same
  -- What is left is not empty and not longer than one token, so it is the last one.
  have one : third.rest.length = [joint.last].length := by
    have some := List.length_pos_iff.mpr onward.left
    simp only [Inside] at outside
    simp only [List.length_singleton]
    omega
  exact (List.append_inj' same one).2

end Cursor

/-! ### Following a reader -/

section

variable {α β : Type} {joint : Joint} {whole : Bool} {change : α → α} {onto : β → β}

/-- `Follows joint whole change one other`: beside a first cursor, the reader `other` does what the reader
`one` does on it, up to a change of the result. This is so when `one` stops before the last token, and
also when it has a result at the last token, if it is followed to the `whole` end. Nothing is said when
the stack or the rounds of `one` are used up. -/
structure Follows (joint : Joint) (whole : Bool) (change : α → α) (one other : Read α) : Prop where
  ok {here there after : Cursor} {result : α} :
    here.Beside joint there → one here = .ok result after →
    here.Onward after ∧ (whole = true ∨ after.Inside →
      ∃ beyond, other there = .ok (change result) beyond ∧ after.Beside joint beyond)
  refused {here there after : Cursor} {error : StaticError} {token : Token} :
    here.Beside joint there → one here = .error (.refused error token) after →
    here.Onward after ∧ (after.Inside →
      ∃ beyond, other there = .error (.refused error (token.lower joint.lines)) beyond ∧
        after.Beside joint beyond)

/-- At the last token the reader has no result. -/
def Demands (last : Token) (reader : Read α) : Prop :=
  ∀ cursor : Cursor, cursor.rest = [last] → ∀ result after, reader cursor ≠ .ok result after

namespace Follows

theorem pure {result changed : α} (same : changed = change result) :
    Follows joint whole change (pure result) (pure changed) where
  ok {here there _ _} beside outcome := by
    cases outcome
    exact ⟨.refl beside.left, fun _ => ⟨there, congrArg (EStateM.Result.ok · there) same, beside⟩⟩
  refused _ outcome := nomatch outcome

theorem throw {stop : Stop} {other : Read α} (plain : ∀ error token, stop ≠ .refused error token) :
    Follows joint whole change (MonadExcept.throw stop) other where
  ok _ outcome := nomatch outcome
  refused _ outcome := by
    cases outcome
    exact absurd rfl (plain _ _)

/-- What is followed to the whole end is followed as long as it stops before. -/
theorem short {one other : Read α} (follows : Follows joint whole change one other) :
    Follows joint false change one other where
  ok beside outcome := by
    obtain ⟨onward, known⟩ := follows.ok beside outcome
    exact ⟨onward, fun ends => known (.inr (ends.resolve_left Bool.false_ne_true))⟩
  refused := follows.refused

/-- One reader after the other is followed if each is. To the whole end, the first one has to be
followed so far as well, unless the second one has no result at the last token. -/
theorem bindTo {first : Bool} {one other : Read α} {next further : α → Read β}
    (follows : Follows joint first change one other)
    (onward : ∀ result, Follows joint whole onto (next result) (further (change result)))
    (settled : whole = true → first = true ∨ ∀ result, Demands joint.last (next result)) :
    Follows joint whole onto (one >>= next) (other >>= further) where
  ok {here there after result} beside outcome := by
    obtain ⟨value, middle, outcome, final⟩ := bind_eq_ok.mp outcome
    obtain ⟨moved, known⟩ := follows.ok beside outcome
    by_cases ends : first = true ∨ middle.Inside
    · obtain ⟨between, same, fits⟩ := known ends
      obtain ⟨later, known⟩ := (onward value).ok fits final
      refine ⟨moved.trans later, fun reached => ?_⟩
      obtain ⟨beyond, again, beside⟩ := known reached
      exact ⟨beyond, bind_eq_ok.mpr ⟨_, between, same, again⟩, beside⟩
    -- Otherwise the second reader starts at the last token, and has no result to be followed to.
    · have outside : ¬middle.Inside := fun inside => ends (.inr inside)
      obtain ⟨other, fits⟩ := beside.exists_of_onward moved
      obtain ⟨later, -⟩ := (onward value).ok fits final
      refine ⟨moved.trans later, fun reached => ?_⟩
      rcases reached with complete | inside
      · rcases settled complete with first | demands
        · exact absurd (.inl first) ends
        · exact absurd final (demands value middle (beside.last_of_onward moved outside) result after)
      · exact absurd (later.inside inside) outside
  refused {here there after error token} beside outcome := by
    rcases bind_eq_error.mp outcome with outcome | ⟨value, middle, outcome, final⟩
    · obtain ⟨moved, known⟩ := follows.refused beside outcome
      refine ⟨moved, fun inside => ?_⟩
      obtain ⟨beyond, same, beside⟩ := known inside
      exact ⟨beyond, bind_eq_error.mpr (.inl same), beside⟩
    · obtain ⟨moved, known⟩ := follows.ok beside outcome
      by_cases inside : middle.Inside
      · obtain ⟨between, same, fits⟩ := known (.inr inside)
        obtain ⟨later, known⟩ := (onward value).refused fits final
        refine ⟨moved.trans later, fun inside => ?_⟩
        obtain ⟨beyond, again, beside⟩ := known inside
        exact ⟨beyond, bind_eq_error.mpr (.inr ⟨_, between, same, again⟩), beside⟩
      · obtain ⟨other, fits⟩ := beside.exists_of_onward moved
        obtain ⟨later, -⟩ := (onward value).refused fits final
        exact ⟨moved.trans later, fun reached => absurd (later.inside reached) inside⟩

/-- One reader after the other, as long as both stop before the last token. -/
theorem bind {one other : Read α} {next further : α → Read β}
    (follows : Follows joint false change one other)
    (onward : ∀ result, Follows joint false onto (next result) (further (change result))) :
    Follows joint false onto (one >>= next) (other >>= further) :=
  bindTo follows onward (fun impossible => absurd impossible Bool.false_ne_true)

/-- Both readers decide in the same way. -/
theorem choice {condition : Prop} [Decidable condition] {one other yes no : Read α}
    (first : Follows joint whole change one yes) (second : Follows joint whole change other no) :
    Follows joint whole change (if condition then one else other) (if condition then yes else no) := by
  split
  · exact first
  · exact second

/-- Both readers take the same levels of the stack. -/
theorem calling {levels stack : Nat} {one other : Nat → Read α}
    (follows : ∀ left, Follows joint whole change (one left) (other left)) :
    Follows joint whole change (calling levels stack one) (calling levels stack other) :=
  choice (follows _) (throw nofun)

theorem discard {one other : Read α} (follows : Follows joint whole change one other) :
    Follows joint whole id (discard one) (discard other) where
  ok beside outcome := by
    obtain ⟨result, outcome⟩ := discard_eq_ok.mp outcome
    obtain ⟨onward, known⟩ := follows.ok beside outcome
    refine ⟨onward, fun reached => ?_⟩
    obtain ⟨beyond, same, beside⟩ := known reached
    exact ⟨beyond, discard_eq_ok.mpr ⟨_, same⟩, beside⟩
  refused beside outcome := by
    obtain ⟨onward, known⟩ := follows.refused beside (discard_eq_error.mp outcome)
    refine ⟨onward, fun inside => ?_⟩
    obtain ⟨beyond, same, beside⟩ := known inside
    exact ⟨beyond, discard_eq_error.mpr same, beside⟩

/-! ### Steps -/

theorem current : Follows joint false (Token.lower joint.lines) current current where
  ok {here there after result} beside outcome := by
    rcases beside.cases with ⟨token, rest, more, first, second, -⟩ | ⟨first, -, outside⟩
    · rw [current_apply first] at outcome
      cases outcome
      exact ⟨.refl beside.left, fun _ => ⟨there, current_apply second, beside⟩⟩
    · rw [current_apply first] at outcome
      cases outcome
      exact ⟨.refl beside.left, fun reached => absurd reached (by simpa using outside)⟩
  refused {here _ _ _ _} beside outcome := by
    obtain ⟨token, rest, same⟩ := List.exists_cons_of_ne_nil beside.left
    rw [current_apply same] at outcome
    cases outcome

/-- Goes on with the token under the cursor. -/
theorem look {next further : Token → Read β}
    (onward : ∀ token, Follows joint false onto (next token) (further (token.lower joint.lines))) :
    Follows joint false onto (Grammar.current >>= next) (Grammar.current >>= further) :=
  current.bind onward

/-- Before the last token, both cursors pass the same token. -/
theorem advanced {here there : Cursor} {token : Token} {rest more : List Token}
    (beside : here.Beside joint there) (first : here.rest = token :: rest)
    (second : there.rest = token.lower joint.lines :: more) (inside : here.Inside) :
    ∃ after beyond, Grammar.advance here = .ok token after ∧
      Grammar.advance there = .ok (token.lower joint.lines) beyond ∧ here.Onward after ∧
      after.Beside joint beyond := by
  -- The end of input is returned but not passed.
  cases ended : token.isEnd with
  | true =>
    refine ⟨here, there, advance_apply_end first ended, advance_apply_end second ended, ?_, beside⟩
    exact .refl beside.left
  | false =>
    obtain ⟨front, one, two⟩ := beside.rest
    rw [first] at one
    rw [second] at two
    cases front with
    | nil =>
      rw [one] at first
      simp [Cursor.Inside, first] at inside
    | cons other front =>
      obtain ⟨rfl, rfl⟩ := List.cons.inj one
      obtain ⟨-, rfl⟩ := List.cons.inj two
      refine ⟨_, _, advance_apply first ended, advance_apply second ended, ?_, ?_⟩
      · exact ⟨⟨[token], first.symm⟩, by simp, List.prefix_refl _⟩
      · exact ⟨⟨front, rfl, rfl⟩, beside.depth, beside.cap, beside.reports⟩

theorem advance : Follows joint false (Token.lower joint.lines) advance advance where
  ok {here there after result} beside outcome := by
    rcases beside.cases with ⟨token, rest, more, first, second, inside⟩ | ⟨first, -, outside⟩
    · obtain ⟨_, beyond, one, two, onward, fits⟩ := advanced beside first second inside
      rw [one] at outcome
      cases outcome
      exact ⟨onward, fun _ => ⟨beyond, two, fits⟩⟩
    -- The end of input is not passed.
    · rw [advance_apply_end first joint.ended] at outcome
      cases outcome
      exact ⟨.refl beside.left, fun reached => absurd reached (by simpa using outside)⟩
  refused {here _ _ _ _} beside outcome := by
    obtain ⟨token, rest, same⟩ := List.exists_cons_of_ne_nil beside.left
    cases ended : token.isEnd with
    | true =>
      rw [advance_apply_end same ended] at outcome
      cases outcome
    | false =>
      rw [advance_apply same ended] at outcome
      cases outcome

theorem refuse {error : StaticError} :
    Follows joint whole change (refuse error) (refuse error) where
  ok {here _ _ _} beside outcome := by
    obtain ⟨token, rest, same⟩ := List.exists_cons_of_ne_nil beside.left
    rw [refuse_apply same] at outcome
    cases outcome
  refused {here there _ _ _} beside outcome := by
    rcases beside.cases with ⟨token, rest, more, first, second, -⟩ | ⟨first, -, outside⟩
    · rw [refuse_apply first] at outcome
      cases outcome
      exact ⟨.refl beside.left, fun _ => ⟨there, refuse_apply second error, beside⟩⟩
    · rw [refuse_apply first] at outcome
      cases outcome
      exact ⟨.refl beside.left, fun inside => absurd inside outside⟩

theorem report {token : Token} {error : StaticError} :
    Follows joint true id (report token error) (report (token.lower joint.lines) error) where
  ok {here there _ _} beside outcome := by
    cases outcome
    refine ⟨⟨List.suffix_refl _, beside.left, List.prefix_append _ _⟩, fun _ => ⟨_, rfl, ?_⟩⟩
    refine ⟨beside.rest, beside.depth, beside.cap, ?_⟩
    simp [beside.reports, StaticReport.lower, Token.lower]
  refused _ outcome := nomatch outcome

/-- A token that is passed only if it has some property, which the last one has not. -/
theorem found (property : Token → Prop) [DecidablePred property] {error : StaticError}
    (same : ∀ token : Token, property (token.lower joint.lines) ↔ property token)
    (other : ¬property joint.last) :
    Follows joint true (Token.lower joint.lines)
      (do if property (← Grammar.current) then Grammar.advance else Grammar.refuse error)
      (do if property (← Grammar.current) then Grammar.advance else Grammar.refuse error) where
  ok {here there after result} beside outcome := by
    obtain ⟨token, middle, looked, outcome⟩ := bind_eq_ok.mp outcome
    rcases beside.cases with ⟨token, rest, more, first, second, inside⟩ | ⟨first, -, outside⟩
    · rw [current_apply first] at looked
      cases looked
      split at outcome
      next known =>
        obtain ⟨_, beyond, one, two, onward, fits⟩ := advanced beside first second inside
        rw [one] at outcome
        cases outcome
        refine ⟨onward, fun _ => ⟨beyond, bind_eq_ok.mpr ⟨_, _, current_apply second, ?_⟩, fits⟩⟩
        rw [if_pos ((same _).mpr known)]
        exact two
      next =>
        rw [refuse_apply first] at outcome
        cases outcome
    -- The last token has not the property, so it is not passed.
    · rw [current_apply first] at looked
      cases looked
      rw [if_neg other, refuse_apply first] at outcome
      cases outcome
  refused := (look fun token => by
    simp only [same]
    split
    · exact advance
    · exact refuse).refused

theorem expect {text what : String} (some : text ≠ "") :
    Follows joint true (Token.lower joint.lines) (expect text what) (expect text what) :=
  found (·.spells text = true) (fun _ => Iff.rfl) fun spelled =>
    some ((Token.spells_iff.mp spelled).2.symm.trans joint.blank)

theorem expectName {what : String} :
    Follows joint true (Token.lower joint.lines) (expectName what) (expectName what) :=
  found (·.kind = .identifier) (fun _ => Iff.rfl) fun kind => by
    have ended := Token.isEnd_iff.mp joint.ended
    rw [kind] at ended
    cases ended

/-- A construct is opened and closed again on both cursors. -/
theorem nested {construct : Nesting} {one other : Read α}
    (follows : Follows joint whole change one other) :
    Follows joint whole change (nested construct one) (nested construct other) where
  ok {here there after result} beside outcome := by
    obtain ⟨room, inner, opened, rfl⟩ := nested_eq_ok.mp outcome
    obtain ⟨onward, known⟩ := follows.ok beside.deeper opened
    refine ⟨⟨onward.rest, onward.left, onward.reports⟩, fun reached => ?_⟩
    obtain ⟨beyond, same, fits⟩ := known reached
    refine ⟨_, nested_eq_ok.mpr ⟨?_, beyond, same, rfl⟩, fits.shallower⟩
    rw [beside.depth, beside.cap]
    exact room
  refused {here there after error token} beside outcome := by
    rcases nested_eq_error.mp outcome with ⟨full, outcome⟩ | ⟨room, inner, opened, rfl⟩
    · have refusal : Follows joint false change (Grammar.refuse (.tooDeep construct))
          (Grammar.refuse (.tooDeep construct)) := refuse
      obtain ⟨onward, known⟩ := refusal.refused beside outcome
      refine ⟨onward, fun inside => ?_⟩
      obtain ⟨beyond, same, fits⟩ := known inside
      refine ⟨beyond, nested_eq_error.mpr (.inl ⟨?_, same⟩), fits⟩
      rw [beside.depth, beside.cap]
      exact full
    · obtain ⟨onward, known⟩ := follows.refused beside.deeper opened
      refine ⟨⟨onward.rest, onward.left, onward.reports⟩, fun inside => ?_⟩
      obtain ⟨beyond, same, fits⟩ := known inside
      refine ⟨_, nested_eq_error.mpr (.inr ⟨?_, beyond, same, rfl⟩), fits.shallower⟩
      rw [beside.depth, beside.cap]
      exact room

end Follows

end

/-! ### Expressions -/

section Expressions

variable {joint : Joint} {fuel enough : Nat} {one other : Read Expr}

/-- A reader of expressions that is followed as long as it stops before the last token. -/
abbrev FollowsExpr (joint : Joint) (one other : Read Expr) : Prop :=
  Follows joint false (Expr.lower joint.lines) one other

theorem primary_follows (inner : FollowsExpr joint one other) :
    FollowsExpr joint (primary one) (primary other) := by
  refine .look fun token => ?_
  rw [leaf?_lower]
  cases leaf? token with
  | some leaf => exact .bind (.discard .advance) fun _ => .pure rfl
  | none =>
    refine .choice ?_ ?_
    · refine .bind (.discard .advance) fun _ => .bind inner fun expr => ?_
      exact .bind (.discard (.short (.expect (by decide)))) fun _ => .pure rfl
    · exact .refuse

theorem limitArguments_follows (count : Nat) :
    Follows joint false id (limitArguments count) (limitArguments count) := by
  unfold limitArguments
  split
  · exact .look fun token => .short .report
  · exact .pure rfl

theorem moreArguments_follows (inner : FollowsExpr joint one other) (count : Nat)
    (more : fuel ≤ enough) : Follows joint false (List.map (Expr.lower joint.lines))
      (moreArguments one fuel count) (moreArguments other enough count) := by
  induction fuel generalizing enough count with
  | zero => exact .throw nofun
  | succ fuel ih =>
    obtain ⟨enough, rfl⟩ : ∃ less, enough = less + 1 := ⟨enough - 1, by omega⟩
    refine .look fun token => .choice ?_ ?_
    · refine .bind (.discard .advance) fun _ => .bind (limitArguments_follows count) fun _ => ?_
      refine .bind inner fun argument => .bind (ih (count + 1) (Nat.le_of_succ_le_succ more)) fun _ => ?_
      exact .pure rfl
    · exact .pure rfl

theorem arguments_follows (inner : FollowsExpr joint one other) (more : fuel ≤ enough) :
    Follows joint false (List.map (Expr.lower joint.lines)) (arguments fuel one)
      (arguments enough other) := by
  refine .look fun token => .choice ?_ ?_
  · exact .pure rfl
  · exact .bind inner fun argument => .bind (moreArguments_follows inner 1 more) fun _ => .pure rfl

theorem calls_follows (inner : FollowsExpr joint one other) (more : fuel ≤ enough)
    {rounds others : Nat} (longer : rounds ≤ others) (callee : Expr) :
    FollowsExpr joint (calls fuel one rounds callee)
      (calls enough other others (callee.lower joint.lines)) := by
  induction rounds generalizing others callee with
  | zero => exact .throw nofun
  | succ rounds ih =>
    obtain ⟨others, rfl⟩ : ∃ less, others = less + 1 := ⟨others - 1, by omega⟩
    refine .look fun token => .choice ?_ ?_
    · refine .bind (.discard .advance) fun _ => .bind (arguments_follows inner more) fun given => ?_
      refine .bind (.short (.expect (by decide))) fun closing => ?_
      rw [← Expr.lower_call]
      exact ih (Nat.le_of_succ_le_succ longer) _
    · exact .pure rfl

theorem signed_follows {operand further : Read Expr} (operands : FollowsExpr joint operand further)
    (inner : FollowsExpr joint one other) (more : fuel ≤ enough) :
    FollowsExpr joint (signed fuel operand one) (signed enough further other) := by
  refine .look fun token => .choice ?_ ?_
  · exact .nested (.bind .advance fun op => .bind operands fun expr => .pure rfl)
  · exact .bind (primary_follows inner) fun callee => calls_follows inner more more callee

theorem joined_follows {level : Level} (operands : FollowsExpr joint one other)
    (more : fuel ≤ enough) (left : Expr) :
    FollowsExpr joint (joined level one fuel left)
      (joined level other enough (left.lower joint.lines)) := by
  induction fuel generalizing enough left with
  | zero => exact .throw nofun
  | succ fuel ih =>
    obtain ⟨enough, rfl⟩ : ∃ less, enough = less + 1 := ⟨enough - 1, by omega⟩
    refine .look fun token => .choice ?_ ?_
    · refine .bind .advance fun op => .bind operands fun right => ?_
      rw [← Expr.lower_join]
      exact ih (Nat.le_of_succ_le_succ more) _
    · exact .pure rfl

theorem operation_follows (operands : FollowsExpr joint one other) (more : fuel ≤ enough) :
    FollowsExpr joint (operation fuel one) (operation enough other) := by
  unfold operation
  induction levels with
  | nil => exact operands
  | cons level tighter ih => exact .bind ih fun left => joined_follows ih more left

theorem assigned_follows (target : Expr) (equals : Token) (value : Expr) :
    FollowsExpr joint (assigned target equals value)
      (assigned (target.lower joint.lines) (equals.lower joint.lines) (value.lower joint.lines)) := by
  cases target with
  | name => exact .pure rfl
  | call callee closing arguments =>
    rw [Expr.lower_call]
    refine .bind (.short .report) fun _ => .pure ?_
    rw [Expr.lower_call]
  | _ => exact .bind (.short .report) fun _ => .pure rfl

theorem assignment_follows {left further : Nat → Read Expr}
    (operations : ∀ stack, FollowsExpr joint (left stack) (further stack)) (stack : Nat) :
    FollowsExpr joint (assignment left stack) (assignment further stack) := by
  induction stack with
  | zero => exact .throw nofun
  | succ stack ih =>
    refine .bind (operations stack) fun target => .look fun token => .choice ?_ ?_
    · exact .bind .advance fun equals => .bind ih fun value => assigned_follows target equals value
    · exact .pure rfl

theorem expressionOver_follows {operand further : Nat → Read Expr}
    (operands : ∀ stack, FollowsExpr joint (operand stack) (further stack)) (more : fuel ≤ enough)
    (stack : Nat) :
    FollowsExpr joint (expressionOver fuel operand stack) (expressionOver enough further stack) :=
  .nested (.calling (assignment_follows fun stack => operation_follows (operands stack) more))

theorem operandAt_follows (more : fuel ≤ enough) (room stack : Nat) :
    FollowsExpr joint (operandAt fuel room stack) (operandAt enough room stack) := by
  -- With less room below, an operand is built from operands and expressions.
  induction room generalizing stack with
  | zero => exact signed_follows .refuse .refuse more
  | succ room ih => exact signed_follows (.calling ih) (expressionOver_follows ih more stack) more

/-- An expression that stops before the last token is read in the same way whatever comes behind. -/
theorem expressionAt_follows (more : fuel ≤ enough) (room stack : Nat) :
    FollowsExpr joint (expressionAt fuel room stack) (expressionAt enough room stack) := by
  cases room with
  | zero => exact .nested .refuse
  | succ room => exact expressionOver_follows (operandAt_follows more room) more stack

end Expressions

/-! ### Followed to the end -/

section

variable {α β : Type} {joint : Joint} {whole : Bool} {change : α → α} {onto : β → β}
  {one other : Read α} {next further : α → Read β}

/-- The reader is followed to the whole end, which it only comes to past the tokens before. -/
structure Finishes (joint : Joint) (change : α → α) (one other : Read α) : Prop where
  follows : Follows joint true change one other
  demands : Demands joint.last one

namespace Finishes

/-- What is read first may stop anywhere, if the rest does not end at the last token. -/
theorem bind (first : Follows joint whole change one other)
    (onward : ∀ result, Finishes joint onto (next result) (further (change result))) :
    Finishes joint onto (one >>= next) (other >>= further) where
  follows := .bindTo first (fun result => (onward result).follows) fun _ =>
    .inr fun result => (onward result).demands
  demands cursor here result after outcome := by
    obtain ⟨value, middle, read, outcome⟩ := bind_eq_ok.mp outcome
    obtain ⟨there, beside⟩ := Cursor.Beside.exists_of_last here
    obtain ⟨moved, -⟩ := first.ok beside read
    have outside : ¬middle.Inside := by
      intro inside
      have longer := moved.inside inside
      simp [Cursor.Inside, here] at longer
    exact (onward value).demands middle (beside.last_of_onward moved outside) result after outcome

/-- After what is followed to the end, nothing more has to be read. -/
theorem last (first : Finishes joint change one other)
    (onward : ∀ result, Follows joint true onto (next result) (further (change result))) :
    Finishes joint onto (one >>= next) (other >>= further) where
  follows := .bindTo first.follows onward fun _ => .inl rfl
  demands cursor here result after outcome := by
    obtain ⟨value, middle, read, -⟩ := bind_eq_ok.mp outcome
    exact first.demands cursor here value middle read

theorem choice {condition : Prop} [Decidable condition] {yes no : Read α}
    (first : Finishes joint change one yes) (second : Finishes joint change other no) :
    Finishes joint change (if condition then one else other) (if condition then yes else no) := by
  split
  · exact first
  · exact second

theorem throw {stop : Stop} (plain : ∀ error token, stop ≠ .refused error token) :
    Finishes joint change (throw stop) other :=
  ⟨.throw plain, fun _ _ _ _ => nofun⟩

theorem calling {levels stack : Nat} {one other : Nat → Read α}
    (finishes : ∀ left, Finishes joint change (one left) (other left)) :
    Finishes joint change (calling levels stack one) (calling levels stack other) :=
  choice (finishes _) (throw nofun)

theorem discard (finishes : Finishes joint change one other) :
    Finishes joint id (discard one) (discard other) where
  follows := .discard finishes.follows
  demands cursor here result after outcome := by
    obtain ⟨value, read⟩ := discard_eq_ok.mp outcome
    exact finishes.demands cursor here value after read

theorem nested {construct : Nesting} (finishes : Finishes joint change one other) :
    Finishes joint change (nested construct one) (nested construct other) where
  follows := .nested finishes.follows
  demands cursor here result after outcome := by
    obtain ⟨-, inner, read, -⟩ := nested_eq_ok.mp outcome
    exact finishes.demands { cursor with depth := cursor.depth + 1 } here result inner read

theorem refuse {error : StaticError} : Finishes joint change (refuse error) (refuse error) where
  follows := .refuse
  demands cursor here result after outcome := by
    rw [refuse_apply here] at outcome
    cases outcome

theorem expect {text what : String} (some : text ≠ "") :
    Finishes joint (Token.lower joint.lines) (expect text what) (expect text what) where
  follows := .expect some
  demands cursor here result after outcome := by
    obtain ⟨token, middle, looked, outcome⟩ := bind_eq_ok.mp outcome
    rw [current_apply here] at looked
    cases looked
    have other : joint.last.spells text = false := by
      have blank : ("" == text) = false := by simpa using some.symm
      simp [Token.spells, joint.blank, blank]
    rw [other, if_neg Bool.false_ne_true, refuse_apply here] at outcome
    cases outcome

end Finishes

end

/-! ### Statements -/

section Statements

variable {joint : Joint} {fuel enough : Nat} {first initial expr others : Read Expr}
  {stmt further : Read Stmt}

/-- A reader of statements that is followed to the end of the statement. -/
abbrev FinishesStmt (joint : Joint) (one other : Read Stmt) : Prop :=
  Finishes joint (Stmt.lower joint.lines) one other

theorem ifAt_follows {α : Type} {change : α → α} {one other : Read α} (text : String)
    (follows : Follows joint false change one other) :
    Follows joint false (Option.map change) (ifAt text one) (ifAt text other) := by
  refine .look fun token => .choice ?_ (.pure rfl)
  exact .bind (.discard .advance) fun _ => .bind follows fun result => .pure rfl

theorem unlessAt_follows {α : Type} {change : α → α} {one other : Read α} (text : String)
    (follows : Follows joint false change one other) :
    Follows joint false (Option.map change) (unlessAt text one) (unlessAt text other) :=
  .look fun _ => .choice (.pure rfl) (.bind follows fun _ => .pure rfl)

/-- An optional part after a keyword that does not come next on the second cursor either. -/
theorem otherwise_follows (finishes : FinishesStmt joint stmt further) :
    Follows joint true (Option.map (Stmt.lower joint.lines)) (ifAt "else" stmt)
      (ifAt "else" further) where
  ok {here there after _} beside outcome := by
    obtain ⟨token, middle, looked, outcome⟩ := bind_eq_ok.mp outcome
    rcases beside.cases with ⟨_, rest, more, first, second, inside⟩ | ⟨first, second, -⟩
    · rw [current_apply first] at looked
      cases looked
      cases spelled : token.spells "else" with
      | false =>
        rw [spelled, if_neg Bool.false_ne_true] at outcome
        cases outcome
        refine ⟨.refl beside.left, fun _ => ⟨there, bind_eq_ok.mpr ⟨_, _, current_apply second, ?_⟩, beside⟩⟩
        rw [Token.spells_lower, spelled, if_neg Bool.false_ne_true]
        rfl
      | true =>
        rw [spelled, if_pos rfl] at outcome
        obtain ⟨mid, beyond, one, two, moved, fits⟩ := Follows.advanced beside first second inside
        obtain ⟨_, middle, passed, outcome⟩ := bind_eq_ok.mp outcome
        obtain ⟨_, passed⟩ := discard_eq_ok.mp passed
        rw [one] at passed
        cases passed
        obtain ⟨stmt, _, read, outcome⟩ := bind_eq_ok.mp outcome
        cases outcome
        obtain ⟨onward, known⟩ := finishes.follows.ok fits read
        refine ⟨moved.trans onward, fun _ => ?_⟩
        obtain ⟨final, again, beside⟩ := known (.inl rfl)
        refine ⟨final, bind_eq_ok.mpr ⟨_, _, current_apply second, ?_⟩, beside⟩
        rw [Token.spells_lower, spelled, if_pos rfl]
        exact bind_eq_ok.mpr ⟨(), beyond, discard_eq_ok.mpr ⟨_, two⟩,
          bind_eq_ok.mpr ⟨_, final, again, rfl⟩⟩
    -- The end of input spells nothing, and what comes after it on the other side is no `else`.
    · rw [current_apply first] at looked
      cases looked
      have none : joint.last.spells "else" = false := by simp [Token.spells, joint.blank]
      rw [none, if_neg Bool.false_ne_true] at outcome
      cases outcome
      obtain ⟨next, others, tail, other⟩ := joint.going
      refine ⟨.refl beside.left, fun _ => ⟨there, bind_eq_ok.mpr ⟨_, _, current_apply (second.trans tail), ?_⟩, beside⟩⟩
      rw [other, if_neg Bool.false_ne_true]
      rfl
  refused := (ifAt_follows "else" finishes.follows.short).refused

theorem semicolon_finishes (what : String) : Finishes joint id (semicolon what) (semicolon what) :=
  .discard (.expect (by decide))

theorem expressionStatement_finishes (exprs : FollowsExpr joint expr others) :
    FinishesStmt joint (expressionStatement expr) (expressionStatement others) :=
  .bind exprs fun _ => .last (semicolon_finishes _) fun _ => .pure rfl

theorem printStatement_finishes (exprs : FollowsExpr joint expr others) :
    FinishesStmt joint (printStatement expr) (printStatement others) := by
  refine .bind (.discard (.expect (by decide))) fun _ => .bind exprs fun value => ?_
  exact .last (semicolon_finishes _) fun _ => .pure rfl

theorem variableDeclaration_finishes (exprs : FollowsExpr joint expr others) :
    FinishesStmt joint (variableDeclaration expr) (variableDeclaration others) := by
  refine .bind (.discard (.expect (by decide))) fun _ => .bind .expectName fun target => ?_
  refine .bind (ifAt_follows _ exprs) fun initial => ?_
  exact .last (semicolon_finishes _) fun _ => .pure rfl

theorem ifStatement_finishes (exprs : FollowsExpr joint expr others)
    (stmts : FinishesStmt joint stmt further) :
    FinishesStmt joint (ifStatement expr stmt) (ifStatement others further) := by
  refine .bind (.discard (.expect (by decide))) fun _ => ?_
  refine .bind (.discard (.expect (by decide))) fun _ => .bind exprs fun condition => ?_
  refine .bind (.discard (.expect (by decide))) fun _ => .last stmts fun yes => ?_
  refine .bindTo (otherwise_follows stmts) (fun no => .pure ?_) fun _ => .inl rfl
  cases no <;> rfl

theorem whileStatement_finishes (exprs : FollowsExpr joint expr others)
    (stmts : FinishesStmt joint stmt further) :
    FinishesStmt joint (whileStatement expr stmt) (whileStatement others further) := by
  refine .bind (.discard (.expect (by decide))) fun _ => ?_
  refine .bind (.discard (.expect (by decide))) fun _ => .bind exprs fun condition => ?_
  exact .bind (.discard (.expect (by decide))) fun _ => .last stmts fun body => .pure rfl

theorem forInitial_follows (exprs : FollowsExpr joint expr others) :
    Follows joint false (Option.map (Stmt.lower joint.lines)) (forInitial expr)
      (forInitial others) := by
  refine .look fun token => .choice ?_ (.choice ?_ ?_)
  · exact .bind (.discard .advance) fun _ => .pure rfl
  · exact .bind (variableDeclaration_finishes exprs).follows.short fun first => .pure rfl
  · exact .bind (expressionStatement_finishes exprs).follows.short fun first => .pure rfl

theorem forStatement_finishes (firsts : FollowsExpr joint first initial)
    (exprs : FollowsExpr joint expr others) (stmts : FinishesStmt joint stmt further) :
    FinishesStmt joint (forStatement first expr stmt) (forStatement initial others further) := by
  refine .bind (.discard (.expect (by decide))) fun _ => ?_
  refine .bind (.discard (.expect (by decide))) fun _ => ?_
  refine .bind (forInitial_follows firsts) fun initial => ?_
  refine .bind (unlessAt_follows _ exprs) fun condition => ?_
  refine .bind (semicolon_finishes _).follows fun _ => ?_
  refine .bind (unlessAt_follows _ exprs) fun increment => ?_
  refine .bind (.discard (.expect (by decide))) fun _ => .last stmts fun body => .pure ?_
  rw [forLoop_lower]
  cases condition <;> rfl

/-! ### Recovery -/

/-- A border before the last token is found in the same place whatever comes behind. -/
theorem toBorder_follows (joint : Joint) (previous : Token) (front : List Token) :
    toBorder previous (front ++ [joint.last]) ≤ front.length ∧
      (toBorder previous (front ++ [joint.last]) < front.length →
        toBorder (previous.lower joint.lines) (front.map (Token.lower joint.lines) ++ joint.tail) =
          toBorder previous (front ++ [joint.last])) := by
  induction front generalizing previous with
  | nil => simp [toBorder, joint.ended]
  | cons token front ih =>
    obtain ⟨least, same⟩ := ih token
    have borders : startsStatement (token.lower joint.lines) = startsStatement token := rfl
    have ends : (token.lower joint.lines).isEnd = token.isEnd := rfl
    have stops : (previous.lower joint.lines).lexeme = previous.lexeme := rfl
    simp only [List.cons_append, List.map_cons, toBorder, List.length_cons, borders, ends, stops]
    split
    · exact ⟨Nat.zero_le _, fun _ => rfl⟩
    · refine ⟨Nat.succ_le_succ least, fun before => ?_⟩
      rw [same (Nat.lt_of_succ_lt_succ before)]

/-- Passes the tokens before the next border. -/
theorem skip_follows (previous : Token) : Follows joint false id
    (modify fun cursor : Cursor =>
      { cursor with
        rest := cursor.rest.drop (toBorder previous cursor.rest)
        position := cursor.position + toBorder previous cursor.rest } : Read Unit)
    (modify fun cursor : Cursor =>
      { cursor with
        rest := cursor.rest.drop (toBorder (previous.lower joint.lines) cursor.rest)
        position := cursor.position + toBorder (previous.lower joint.lines) cursor.rest } :
      Read Unit) where
  ok {here there after _} beside outcome := by
    cases outcome
    obtain ⟨front, first, second⟩ := beside.rest
    obtain ⟨least, same⟩ := toBorder_follows joint previous front
    rw [← first, ← second] at same
    rw [← first] at least
    have dropped : here.rest.drop (toBorder previous here.rest) =
        front.drop (toBorder previous here.rest) ++ [joint.last] := by
      generalize toBorder previous here.rest = skipped at least
      rw [first, List.drop_append_of_le_length least]
    refine ⟨⟨List.drop_suffix _ _, ?_, List.prefix_refl _⟩, fun reached => ?_⟩
    · simp [dropped]
    have inside := reached.resolve_left Bool.false_ne_true
    simp only [Cursor.Inside, dropped, List.length_append, List.length_drop,
      List.length_singleton] at inside
    -- Less was skipped than there is, so the border lies inside and is the same for both.
    have known := same (by omega)
    refine ⟨_, rfl, ⟨front.drop (toBorder previous here.rest), dropped, ?_⟩, beside.depth,
      beside.cap, beside.reports⟩
    simp only [known]
    generalize toBorder previous here.rest = skipped at least
    rw [second, List.drop_append_of_le_length (by simpa using least), List.map_drop]
  refused _ outcome := nomatch outcome

theorem recover_follows : Follows joint false id recover recover :=
  .bind .advance fun passed => .bind (skip_follows passed) fun _ => .discard .current

/-- What is done when a statement cannot be read. -/
theorem passOver_follows (token : Token) (error : StaticError) :
    Follows joint false (Option.map (Stmt.lower joint.lines))
      (do report token error; recover; pure none)
      (do report (token.lower joint.lines) error; recover; pure none) :=
  .bind (.short .report) fun _ => .bind recover_follows fun _ => .pure rfl

section

variable {here after : Cursor} {stop : Stop}

theorem current_eq_error (stopped : current here = .error stop after) : stop = .exhausted := by
  unfold current at stopped
  split at stopped <;> cases stopped
  rfl

theorem advance_eq_error (stopped : advance here = .error stop after) : stop = .exhausted := by
  unfold advance at stopped
  split at stopped
  · cases stopped
    rfl
  · split at stopped <;> cases stopped

theorem recover_eq_error (stopped : recover here = .error stop after) : stop = .exhausted := by
  rcases bind_eq_error.mp stopped with stopped | ⟨_, _, -, stopped⟩
  · exact advance_eq_error stopped
  rcases bind_eq_error.mp stopped with stopped | ⟨_, _, -, stopped⟩
  · cases stopped
  · exact current_eq_error (discard_eq_error.mp stopped)

/-- A statement that is refused is passed over, so no refusal is left. -/
theorem recovering_ne_refused {one : Read Stmt} {error : StaticError} {token : Token} :
    recovering one here ≠ .error (.refused error token) after := by
  intro outcome
  unfold recovering at outcome
  cases read : one here with
  | ok =>
    rw [read] at outcome
    cases outcome
  | error stop middle =>
    rw [read] at outcome
    cases stop with
    | overflow | exhausted => cases outcome
    | refused cause wrong =>
      rcases bind_eq_error.mp outcome with outcome | ⟨_, _, -, outcome⟩
      · cases outcome
      rcases bind_eq_error.mp outcome with outcome | ⟨_, _, -, outcome⟩
      · cases recover_eq_error outcome
      · cases outcome

end

theorem recovering_follows {whole : Bool} {one other : Read Stmt}
    (follows : Follows joint whole (Stmt.lower joint.lines) one other) :
    Follows joint false (Option.map (Stmt.lower joint.lines)) (recovering one)
      (recovering other) where
  ok {here there after result} beside outcome := by
    unfold recovering at outcome ⊢
    cases read : one here with
    | ok stmt middle =>
      rw [read] at outcome
      cases outcome
      obtain ⟨onward, known⟩ := follows.ok beside read
      refine ⟨onward, fun reached => ?_⟩
      obtain ⟨beyond, same, fits⟩ := known (.inr (reached.resolve_left Bool.false_ne_true))
      exact ⟨beyond, by rw [same]; rfl, fits⟩
    | error stop middle =>
      rw [read] at outcome
      cases stop with
      | refused error token =>
        obtain ⟨moved, known⟩ := follows.refused beside read
        by_cases inside : middle.Inside
        · obtain ⟨between, same, fits⟩ := known inside
          obtain ⟨onward, known⟩ := (passOver_follows token error).ok fits outcome
          refine ⟨moved.trans onward, fun reached => ?_⟩
          obtain ⟨beyond, again, fits⟩ := known reached
          exact ⟨beyond, by rw [same]; exact again, fits⟩
        · -- Where the first stops behind its tokens, nothing is asked of the second.
          obtain ⟨other, fits⟩ := beside.exists_of_onward moved
          obtain ⟨onward, -⟩ := (passOver_follows token error).ok fits outcome
          refine ⟨moved.trans onward, fun reached => absurd ?_ inside⟩
          exact onward.inside (reached.resolve_left Bool.false_ne_true)
      | overflow | exhausted => cases outcome
  refused _ outcome := absurd outcome recovering_ne_refused

/-! ### Lists of declarations -/

theorem declarationOver_finishes (exprs : FollowsExpr joint expr others)
    (stmts : FinishesStmt joint stmt further) :
    FinishesStmt joint (declarationOver expr stmt) (declarationOver others further) :=
  .bind .current fun _ => .choice (variableDeclaration_finishes exprs) stmts

theorem declarationOn_finishes {expr others : Nat → Read Expr} {stmt further : Nat → Read Stmt}
    (exprs : ∀ stack, FollowsExpr joint (expr stack) (others stack))
    (stmts : ∀ stack, FinishesStmt joint (stmt stack) (further stack)) (stack : Nat) :
    FinishesStmt joint (declarationOn expr stmt stack) (declarationOn others further stack) :=
  .calling fun left => declarationOver_finishes (.calling exprs) (stmts left)

theorem declarations_follows {closes : Token → Bool}
    (same : ∀ token : Token, closes (token.lower joint.lines) = closes token)
    {one other : Read (Option Stmt)}
    (follows : Follows joint false (Option.map (Stmt.lower joint.lines)) one other)
    (more : fuel ≤ enough) : Follows joint false (List.map (Stmt.lower joint.lines))
      (declarations closes one fuel) (declarations closes other enough) := by
  induction fuel generalizing enough with
  | zero => exact .throw nofun
  | succ fuel ih =>
    obtain ⟨enough, rfl⟩ : ∃ less, enough = less + 1 := ⟨enough - 1, by omega⟩
    refine .look fun token => ?_
    rw [same]
    refine .choice (.pure rfl) (.bind follows fun first => ?_)
    refine .bind (ih (Nat.le_of_succ_le_succ more)) fun rest => .pure ?_
    cases first <;> simp

theorem blockStatement_finishes {one other : Read (Option Stmt)}
    (follows : Follows joint false (Option.map (Stmt.lower joint.lines)) one other)
    (more : fuel ≤ enough) :
    FinishesStmt joint (blockStatement fuel one) (blockStatement enough other) := by
  refine .bind (.discard (.expect (by decide))) fun _ => ?_
  refine .bind (declarations_follows (fun _ => rfl) follows more) fun body => ?_
  exact .last (.discard (.expect (by decide))) fun _ => .pure (Stmt.lower_block _).symm

theorem statementOver_finishes {one other : Read (Option Stmt)}
    (firsts : FollowsExpr joint first initial) (exprs : FollowsExpr joint expr others)
    (stmts : FinishesStmt joint stmt further)
    (declarations : Follows joint false (Option.map (Stmt.lower joint.lines)) one other)
    (more : fuel ≤ enough) :
    FinishesStmt joint (statementOver fuel first expr stmt one)
      (statementOver enough initial others further other) := by
  refine .bind .current fun token => .choice (forStatement_finishes firsts exprs stmts) ?_
  refine .choice (ifStatement_finishes exprs stmts) (.choice (printStatement_finishes exprs) ?_)
  refine .choice (whileStatement_finishes exprs stmts) (.choice ?_ (expressionStatement_finishes exprs))
  exact blockStatement_finishes declarations more

/-- A statement is read in the same way whatever comes behind it, unless that is an `else`. -/
theorem statementAt_finishes (more : fuel ≤ enough) (stack room : Nat) :
    FinishesStmt joint (statementAt fuel stack room) (statementAt enough stack room) := by
  induction room generalizing stack with
  | zero => exact .nested .refuse
  | succ room ih =>
    refine .nested (.calling fun left => ?_)
    exact statementOver_finishes (.calling (expressionAt_follows more room))
      (expressionAt_follows more room left) (ih left)
      (recovering_follows (declarationOn_finishes (expressionAt_follows more room) ih left).follows) more

/-- A declaration that is read without a report is a statement, and read in the same way whatever comes
behind it. -/
theorem recovering_quiet {one other : Read Stmt} (finishes : FinishesStmt joint one other)
    {here there after : Cursor} {result : Option Stmt} (beside : here.Beside joint there)
    (outcome : recovering one here = .ok result after) (quiet : after.reports = []) :
    ∃ stmt beyond, result = some stmt ∧
      recovering other there = .ok (some (stmt.lower joint.lines)) beyond ∧
      after.Beside joint beyond := by
  unfold recovering at outcome ⊢
  cases read : one here with
  | ok stmt middle =>
    rw [read] at outcome
    cases outcome
    obtain ⟨-, known⟩ := finishes.follows.ok beside read
    obtain ⟨beyond, same, fits⟩ := known (.inl rfl)
    exact ⟨stmt, beyond, rfl, recovering_ok same, fits⟩
  | error stop middle =>
    rw [read] at outcome
    cases stop with
    | refused error token =>
      -- The refusal is reported, and the report is kept.
      obtain ⟨_, between, reported, outcome⟩ := bind_eq_ok.mp outcome
      cases reported
      obtain ⟨moved, -⟩ := finishes.follows.refused beside read
      have onward : here.Onward { middle with
          reports := middle.reports ++ [⟨token.line, error⟩] } :=
        ⟨moved.rest, moved.left, moved.reports.trans (List.prefix_append _ _)⟩
      obtain ⟨other, fits⟩ := beside.exists_of_onward onward
      have later : Follows joint false (Option.map (Stmt.lower joint.lines))
          (do recover; pure none) (do recover; pure none) :=
        .bind recover_follows fun _ => .pure rfl
      have kept := (later.ok fits outcome).1.reports
      rw [quiet, List.prefix_nil] at kept
      exact absurd kept (List.append_ne_nil_of_right_ne_nil _ (List.cons_ne_nil _ _))
    | overflow | exhausted => cases outcome

/-! ### Programs -/

/-- Declarations that are read up to the end without a report are read in the same way before more of
them. What is read then is up to the tail. -/
theorem declarations_joined {one other : Read Stmt} (finishes : FinishesStmt joint one other)
    {here there after : Cursor} {rounds : Nat} {stmts : List Stmt}
    (beside : here.Beside joint there)
    (outcome : declarations (fun _ => false) (recovering one) rounds here = .ok stmts after)
    (quiet : after.reports = []) :
    ∃ beyond, after.Beside joint beyond ∧ ∀ further,
      declarations (fun _ => false) (recovering other) (stmts.length + further) there =
        (do
          let more ← declarations (fun _ => false) (recovering other) further
          pure (stmts.map (Stmt.lower joint.lines) ++ more)) beyond := by
  induction rounds generalizing here there stmts with
  | zero => cases outcome
  | succ rounds ih =>
    obtain ⟨token, middle, looked, outcome⟩ := bind_eq_ok.mp outcome
    obtain ⟨first, rest, same⟩ := List.exists_cons_of_ne_nil beside.left
    rw [current_apply same] at looked
    cases looked
    cases ended : token.isEnd with
    | true =>
      rw [ended, if_pos (Bool.or_true false)] at outcome
      cases outcome
      refine ⟨there, beside, fun further => ?_⟩
      rw [List.length_nil, Nat.zero_add, bind_apply]
      cases declarations (fun _ => false) (recovering other) further there <;> rfl
    | false =>
      rw [ended, if_neg (by simp)] at outcome
      obtain ⟨result, middle, read, outcome⟩ := bind_eq_ok.mp outcome
      obtain ⟨more, _, others, outcome⟩ := bind_eq_ok.mp outcome
      cases outcome
      have moved := ((recovering_follows finishes.follows).ok beside read).1
      obtain ⟨_, fits⟩ := beside.exists_of_onward moved
      -- What is reported first is still on record at the end.
      have kept := ((declarations_follows (fun _ => rfl) (recovering_follows finishes.follows)
        (Nat.le_refl rounds)).ok fits others).1.reports
      rw [quiet, List.prefix_nil] at kept
      obtain ⟨stmt, between, rfl, again, fits⟩ := recovering_quiet finishes beside read kept
      obtain ⟨beyond, fits, known⟩ := ih fits others
      refine ⟨beyond, fits, fun further => ?_⟩
      rcases beside.cases with ⟨_, _, left, here, second, -⟩ | ⟨last, -, -⟩
      · rw [same] at here
        cases here
        have count : ([stmt] ++ more).length + further = more.length + further + 1 := by
          simp only [List.length_append, List.length_singleton]
          omega
        change declarations _ _ (([stmt] ++ more).length + further) there = _
        rw [count, declarations, bind_ok (current_apply second)]
        have inside : (token.lower joint.lines).isEnd = false := ended
        rw [inside, if_neg (by simp), bind_ok again, bind_apply, known further, bind_apply, bind_apply]
        cases declarations (fun _ => false) (recovering other) further beyond <;> rfl
      · rw [same] at last
        cases last
        rw [joint.ended] at ended
        cases ended

/-- Declarations that are read up to the end without a report are read in the same way, with more rounds
for each, before more of them. -/
theorem declarationAt_joined {here there after : Cursor} {stack room rounds : Nat} {stmts : List Stmt}
    (more : fuel ≤ enough) (beside : here.Beside joint there)
    (outcome : declarations (fun _ => false) (declarationAt fuel stack room) rounds here =
      .ok stmts after)
    (quiet : after.reports = []) :
    ∃ beyond, after.Beside joint beyond ∧ ∀ further,
      declarations (fun _ => false) (declarationAt enough stack room) (stmts.length + further) there =
        (do
          let more ← declarations (fun _ => false) (declarationAt enough stack room) further
          pure (stmts.map (Stmt.lower joint.lines) ++ more)) beyond :=
  declarations_joined (declarationOn_finishes (expressionAt_follows more room)
    (fun stack => statementAt_finishes more stack room) stack) beside outcome quiet

end Statements

end Grammar

end Lox
