import Lox.Proofs.Grammar.Acceptance
import Lox.Proofs.Printing.Height
import Lox.Proofs.Source.Cutting

/-!
# Rows of names

A name with an operator and a name behind it, and again, as often as wanted. A row of sums is read
however long it is, into a tree as deep as the row is long; a row of assignments uses the stack up.
-/
namespace Lox

/-! ### Rows -/

/-- An item, and so many times a sign and the item behind it. -/
def row {α : Type} (item sign : α) : Nat → List α
  | 0 => [item]
  | count + 1 => item :: sign :: row item sign count

theorem row_succ {α : Type} (item sign : α) (count : Nat) :
    row item sign (count + 1) = row item sign count ++ [sign, item] := by
  induction count with
  | zero => rfl
  | succ count ih =>
    change item :: sign :: row item sign (count + 1) = item :: sign :: (row item sign count ++ _)
    rw [ih]

namespace Rows

def name : Token := ⟨.identifier, "a", none, 1⟩

def operator (sign : Char) : Token := ⟨.operator, String.ofList [sign], none, 1⟩

def last : Token := ⟨.endOfInput, "", none, 1⟩

/-- A row of names as a program text. -/
def source (sign : Char) (count : Nat) : String := String.ofList (row 'a' sign count ++ [';'])

/-- The tokens of a row before the end of input. -/
def tokens (sign : Char) (count : Nat) : List Token :=
  row name (operator sign) count ++ [operator ';']

/-! ### Scanning -/

open Source in
theorem pieces_row {sign : Char} (among : sign = '=' ∨ sign = '+') (count : Nat) :
    pieces (row 'a' sign count ++ [';']) =
      row (.name ['a']) (.operator [sign]) count ++ [.operator [';']] := by
  have semicolon : pieces [';'] = [.operator [';']] := by
    have whole : pieces ([';'] ++ []) = .operator [';'] :: pieces [] := pieces_append rfl rfl
    rwa [show pieces [] = [] by rw [pieces]] at whole
  induction count with
  | zero =>
    have name : pieces (['a'] ++ [';']) = .name ['a'] :: pieces [';'] := pieces_append rfl rfl
    exact name.trans (congrArg _ semicolon)
  | succ count ih =>
    -- A row begins with a name, so the sign in front of it is not extended.
    obtain ⟨rest, begins⟩ : ∃ rest, row 'a' sign count ++ [';'] = 'a' :: rest := by
      cases count <;> exact ⟨_, rfl⟩
    have name : pieces (['a'] ++ sign :: 'a' :: rest) = .name ['a'] :: pieces (sign :: 'a' :: rest) := by
      refine pieces_append ?_ rfl
      rcases among with rfl | rfl <;> rfl
    have op : pieces ([sign] ++ 'a' :: rest) = .operator [sign] :: pieces ('a' :: rest) := by
      refine pieces_append ?_ rfl
      rcases among with rfl | rfl <;> rfl
    change pieces ('a' :: sign :: (row 'a' sign count ++ [';'])) = _
    rw [begins]
    refine name.trans (congrArg _ (op.trans (congrArg _ ?_)))
    rw [← begins]
    exact ih

/-- A row is scanned to its tokens, without a report. -/
theorem scan_row {sign : Char} (among : sign = '=' ∨ sign = '+') (count : Nat) :
    (Source.scan (source sign count)).tokens = tokens sign count ++ [last] ∧
      (Source.scan (source sign count)).reports = [] := by
  unfold Source.scan source tokens
  simp only [String.toList_ofList, pieces_row among]
  have plain : Text.lineEnds [sign] = 0 := by rcases among with rfl | rfl <;> rfl
  induction count with
  | zero => exact ⟨rfl, rfl⟩
  | succ count ih =>
    obtain ⟨made, quiet⟩ := ih
    constructor
    · change name :: operator sign :: Source.tokensFrom (1 + ↑(Text.lineEnds [sign])) _ = _
      rw [plain]
      exact congrArg (name :: operator sign :: ·) made
    · change Source.reportsFrom (1 + ↑(Text.lineEnds [sign])) _ = _
      rw [plain]
      exact quiet

/-! ### Tokens -/

theorem inside {sign : Char} (among : sign = '=' ∨ sign = '+') (count : Nat) :
    (∀ token ∈ tokens sign count, token.Regular ∧ token.isEnd = false) ∧ last.Regular := by
  obtain ⟨front, final, made, -, regular, inside⟩ := Source.scan_tokens (source sign count)
  obtain ⟨rfl, only⟩ := List.append_inj' ((scan_row among count).1.symm.trans made) rfl
  obtain rfl := List.singleton_inj.mp only
  exact ⟨inside, regular⟩

/-! ### A row of sums -/

open Grammar

/-- The tree of a row of sums. -/
def sum : Nat → Expr
  | 0 => .name name
  | count + 1 => .binary (operator '+') (sum count) (.name name)

theorem depth_sum (count : Nat) : (sum count).depth = count + 1 := by
  induction count with
  | zero => rfl
  | succ count ih =>
    rw [sum, Expr.depth, ih, Expr.depth, Nat.max_eq_left (Nat.succ_pos _)]

theorem derives_name (room : Nat) (tighter : List Level) :
    Derives room (.operation tighter) [name] (.name name) := by
  induction tighter with
  | nil => exact .unary (.call (.primary (.leaf (.name rfl))))
  | cons level tighter ih => exact .operand ih

/-- A row of sums derives at the level of addition. -/
theorem derives_sum (room count : Nat) :
    Derives room (.operation (levels.drop 4)) (row name (operator '+') count) (sum count) := by
  induction count with
  | zero => exact derives_name room _
  | succ count ih =>
    rw [row_succ]
    exact .join ih ⟨"+", by decide, rfl⟩ (derives_name room _)

theorem equalsSigns_sum (count : Nat) : equalsSigns (tokens '+' count ++ [last]) = 0 := by
  have none : (row name (operator '+') count).countP (·.spells "=") = 0 := by
    induction count with
    | zero => rfl
    | succ count ih =>
      rw [row, List.countP_cons_of_neg (by decide), List.countP_cons_of_neg (by decide), ih]
  refine Nat.le_zero.mp (Nat.le_trans (equalsSigns_le _) (Nat.le_of_eq ?_))
  rw [tokens, List.countP_append, List.countP_append, none]
  rfl

/-- A row of sums is read, whatever its length. -/
theorem program_sum {stack : Nat} (deep : levelsFor maxNesting < stack) (count : Nat) :
    ∃ after, program stack (.start (tokens '+' count ++ [last])) =
      .ok [.expression (sum count)] after := by
  obtain ⟨inside, final⟩ := inside (.inr rfl) count
  have derived : DerivesProgram maxNesting (tokens '+' count) [.expression (sum count)] := by
    refine ⟨[⟨tokens '+' count, .expression (sum count), false⟩], ?_, by simp, rfl⟩
    have whole : Derives 63 .expression _ _ :=
      .expression (.operation (.operand (.operand (.operand (.operand (derives_sum 62 count))))))
    exact List.forall_mem_singleton.mpr (.statement (.alone (.alone whole rfl)))
  have regular : (Cursor.start (tokens '+' count ++ [last])).Regular := .under inside rfl final
  have few : equalsSigns (tokens '+' count ++ [last]) + levelsFor maxNesting < stack := by
    rw [equalsSigns_sum, Nat.zero_add]
    exact deep
  have reach : (Cursor.start (tokens '+' count ++ [last])).Reaches
      ⟨[last], (tokens '+' count).length, 0, maxNesting, []⟩ (tokens '+' count) [] :=
    ⟨rfl, (Nat.zero_add _).symm, rfl, rfl, rfl, fun token member => (inside token member).2⟩
  exact ⟨_, program_complete derived reach rfl rfl ⟨.under regular.ends few, regular⟩⟩

/-! ### A row of assignments -/

/-- A reader uses up the stack. -/
def RunsOut {α : Type} (reader : Read α) (cursor : Cursor) : Prop :=
  ∃ after, reader cursor = .error .overflow after

section

variable {α β : Type} {reader : Read α} {cursor : Cursor}

theorem RunsOut.bind (out : RunsOut reader cursor) (next : α → Read β) :
    RunsOut (reader >>= next) cursor := by
  obtain ⟨after, ended⟩ := out
  exact ⟨after, bind_eq_error.mpr (.inl ended)⟩

theorem RunsOut.onward {next : α → Read β} {result : α} {middle : Cursor}
    (first : reader cursor = .ok result middle) (out : RunsOut (next result) middle) :
    RunsOut (reader >>= next) cursor := by
  obtain ⟨after, ended⟩ := out
  exact ⟨after, (bind_ok first).trans ended⟩

theorem RunsOut.nested {construct : Nesting} (room : cursor.depth < cursor.cap)
    (out : RunsOut reader { cursor with depth := cursor.depth + 1 }) :
    RunsOut (nested construct reader) cursor := by
  obtain ⟨after, ended⟩ := out
  exact ⟨_, nested_eq_error.mpr (.inr ⟨room, after, ended, rfl⟩)⟩

/-- A call has no more of the stack than what it stands in. -/
theorem RunsOut.calling {levels stack : Nat} {body : Nat → Read α}
    (out : ∀ left ≤ stack, RunsOut (body left) cursor) :
    RunsOut (calling levels stack body) cursor := by
  unfold Grammar.calling
  split
  · exact out _ (Nat.sub_le _ _)
  · exact ⟨cursor, rfl⟩

/-- Only what is refused is passed over. -/
theorem RunsOut.recovering {stmt : Read Stmt} (out : RunsOut stmt cursor) :
    RunsOut (recovering stmt) cursor := by
  obtain ⟨after, ended⟩ := out
  unfold RunsOut Grammar.recovering
  simp only [ended]
  exact ⟨after, rfl⟩

end

variable {fuel room stack count : Nat} {cursor : Cursor} {more : List Token}

/-- A name before an equals sign is an operation of its own. -/
theorem operation_name (here : cursor.rest = name :: operator '=' :: more) :
    operation (fuel + 1) (operandAt (fuel + 1) room stack) cursor =
      .ok (.name name)
        { cursor with rest := operator '=' :: more, position := cursor.position + 1 } := by
  obtain ⟨rest, position, depth, cap, reports⟩ := cursor
  cases here
  cases room <;> rfl

/-- Every equals sign of a row of assignments takes a level of the stack. -/
theorem assignment_row (few : stack ≤ count)
    (here : cursor.rest = row name (operator '=') count ++ more) :
    RunsOut (assignment (fun stack => operation (fuel + 1) (operandAt (fuel + 1) room stack)) stack)
      cursor := by
  -- Each round passes a name and an equals sign and takes one level, so the row outlasts the levels.
  induction stack generalizing count cursor with
  | zero => exact ⟨cursor, rfl⟩
  | succ stack ih =>
    obtain ⟨count, rfl⟩ : ∃ less, count = less + 1 := ⟨count - 1, by omega⟩
    refine .onward (operation_name here) (.onward (current_apply rfl) ?_)
    rw [if_pos (show (operator '=').spells "=" = true from rfl)]
    exact .onward (advance_apply rfl rfl) (.bind (ih (Nat.le_of_succ_le_succ few) rfl) _)

/-- A row of assignments is not read if it is as long as the stack is deep. -/
theorem program_assignments (few : stack ≤ count) :
    RunsOut (program stack) (.start (tokens '=' count ++ [last])) := by
  obtain ⟨rest, begins⟩ : ∃ rest, tokens '=' count ++ [last] = name :: rest := by
    cases count <;> exact ⟨_, rfl⟩
  let fuel := (tokens '=' count ++ [last]).length
  -- The statement and the expression are open by then.
  have value (left : Nat) (less : left ≤ stack) : RunsOut
      (assignment (fun stack => operation (fuel + 1) (operandAt (fuel + 1) 62 stack)) left)
      ⟨tokens '=' count ++ [last], 0, 2, maxNesting, []⟩ :=
    assignment_row (Nat.le_trans less few) (List.append_assoc _ _ _)
  -- The readers around the row look at its first token, which is a name.
  have alone (left : Nat) (less : left ≤ stack) :
      RunsOut (expressionStatement (expressionAt (fuel + 1) 63 left))
        ⟨tokens '=' count ++ [last], 0, 1, maxNesting, []⟩ := by
    refine .bind (.nested (show 1 < maxNesting by decide) (.calling fun deeper below => ?_)) _
    exact value deeper (Nat.le_trans below less)
  have stmt (left : Nat) (less : left ≤ stack) : RunsOut (statementAt (fuel + 1) left maxNesting)
      (.start (tokens '=' count ++ [last])) := by
    refine .nested (show 0 < maxNesting by decide) (.calling fun deeper below => ?_)
    have alone := alone deeper (Nat.le_trans below less)
    rw [begins] at alone ⊢
    exact alone
  have declared : RunsOut (declarationAt (fuel + 1) stack maxNesting)
      (.start (tokens '=' count ++ [last])) := by
    refine .recovering (.calling fun left less => ?_)
    have stmt := stmt left less
    rw [begins] at stmt ⊢
    exact stmt
  change RunsOut (declarations _ (declarationAt (fuel + 1) stack maxNesting) (fuel + 1)) _
  rw [begins] at declared ⊢
  exact .onward (current_apply rfl) (.bind declared _)

end Rows

end Lox
