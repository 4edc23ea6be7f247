import Lox.Evaluation.Evaluate
import Lox.Proofs.Evaluation.Pairing

/-!
# Programs that run alike

Two trees of one shape are run side by side. What may differ are the tokens, and with them the faults
that name a token, the libraries, and the limits if the run with the smaller ones is excused where it
hits them. A likeness tells what corresponds. Once the steps of a machine keep it, evaluation and
execution do, whatever the trees.
-/
namespace Lox

/-- What an operator or a call may raise at its token: neither a name that is not bound nor a fault of a
native. -/
def FaultCause.OfMark : FaultCause → Prop
  | .undefinedVariable _ | .host .. => False
  | _ => True

/-- What corresponds when two programs of one shape run side by side. Values are the same on both
sides, and something is known of them. -/
structure Likeness where
  machine : Machine → Machine → Prop
  fault : Fault → Fault → Prop
  value : Value → Prop
  /-- Tokens that name variables. -/
  name : Token → Token → Prop
  /-- Operators, and the closing parentheses of calls. -/
  mark : Token → Token → Prop
  /-- The interrupts after which the first program is not followed any further. -/
  excused : Interrupt → Prop

section

variable (like : Likeness)

/-- Expressions of one shape with tokens that correspond. -/
inductive Expr.Like : Expr → Expr → Prop where
  | literal {value : Value} : like.value value → Like (.literal value) (.literal value)
  | name {one other : Token} : like.name one other → Like (.name one) (.name other)
  | grouping {one other : Expr} : Like one other → Like (.grouping one) (.grouping other)
  | unary {op sign : Token} {one other : Expr} :
      like.mark op sign → Like one other → Like (.unary op one) (.unary sign other)
  | assign {target goal : Token} {one other : Expr} :
      like.name target goal → Like one other → Like (.assign target one) (.assign goal other)
  | binary {op sign : Token} {left right first second : Expr} :
      like.mark op sign → Like left first → Like right second →
      Like (.binary op left right) (.binary sign first second)
  | logical {op sign : Token} {left right first second : Expr} :
      like.mark op sign → Like left first → Like right second →
      Like (.logical op left right) (.logical sign first second)
  | call {callee function : Expr} {closing bracket : Token} {arguments others : List Expr} :
      Like callee function → like.mark closing bracket → List.Forall₂ Like arguments others →
      Like (.call callee closing arguments) (.call function bracket others)

/-- Statements of one shape with tokens that correspond. -/
inductive Stmt.Like : Stmt → Stmt → Prop where
  | expression {one other : Expr} :
      one.Like like other → Like (.expression one) (.expression other)
  | print {one other : Expr} : one.Like like other → Like (.print one) (.print other)
  | declare {target goal : Token} :
      like.name target goal → Like (.declare target none) (.declare goal none)
  | declareAs {target goal : Token} {one other : Expr} :
      like.name target goal → one.Like like other →
      Like (.declare target (some one)) (.declare goal (some other))
  | block {body others : List Stmt} : List.Forall₂ Like body others → Like (.block body) (.block others)
  | ifThen {condition test : Expr} {yes first : Stmt} :
      condition.Like like test → Like yes first →
      Like (.branch condition yes none) (.branch test first none)
  | ifElse {condition test : Expr} {yes no first second : Stmt} :
      condition.Like like test → Like yes first → Like no second →
      Like (.branch condition yes (some no)) (.branch test first (some second))
  | loop {condition test : Expr} {body other : Stmt} :
      condition.Like like test → Like body other → Like (.loop condition body) (.loop test other)

end

namespace Likeness

variable {α β : Type} {like : Likeness}

/-- Interrupts correspond if they are of one kind. -/
inductive Stops (like : Likeness) : Interrupt → Interrupt → Prop where
  | fault {one other : Fault} : like.fault one other → Stops like (.fault one) (.fault other)
  | overflow : Stops like .overflow .overflow
  | unfinished : Stops like .unfinished .unfinished

/-- Machines side by side. -/
def pairing (like : Likeness) : Pairing Interrupt Interrupt Machine Machine :=
  ⟨like.machine, like.Stops, like.excused⟩

/-- The results are the same, and what is to be known of each is. -/
def Same (known : α → Prop) (one other : α) : Prop := one = other ∧ known one

/-- Side by side, two steps have the same result, of which something is known. -/
abbrev Steps (like : Likeness) (known : α → Prop) (one other : Run α) : Prop :=
  like.pairing.Runs (Same known) one other

/-- Side by side, two steps without a result do alike. -/
abbrev Acts (like : Likeness) (one other : Run Unit) : Prop :=
  like.pairing.Runs (fun _ _ => True) one other

/-- What the steps of machines have to keep. -/
structure Kept (like : Likeness) (library other : Library) : Prop where
  plain {value : Value} : (∀ target, value ≠ .callable target) → like.value value
  lexeme {op sign : Token} : like.mark op sign → sign.lexeme = op.lexeme
  marked {token other : Token} (cause : FaultCause) :
    like.mark token other → cause.OfMark → like.fault ⟨cause, some token.line⟩ ⟨cause, some other.line⟩
  read {name other : Token} : like.name name other → like.Steps like.value (Run.read name) (Run.read other)
  assign {name other : Token} {value : Value} :
    like.name name other → like.value value → like.Acts (Run.assign name value) (Run.assign other value)
  define {name other : Token} {value : Value} :
    like.name name other → like.value value →
    like.Acts (Run.define name.lexeme value) (Run.define other.lexeme value)
  print (text : String) : like.Acts (Run.print text) (Run.print text)
  block {body others : Run Unit} : like.Acts body others → like.Acts (Run.inBlock body) (Run.inBlock others)
  invoke {target : Callable} {arguments : List Value} {execute perform : Stmt → Run Unit} :
    (∀ stmt twin, stmt.Like like twin → like.Acts (execute stmt) (perform twin)) →
    like.value (.callable target) → (∀ value ∈ arguments, like.value value) →
    like.Steps like.value (invoke library execute target arguments)
      (invoke other perform target arguments)

/-! ### Operators -/

section Operators

variable {library other : Library} {op sign : Token}

/-- Side by side, an operator gives one value that is not callable, or raises one fault at its token. -/
def Alike (op sign : Token) (one two : Except Fault Value) : Prop :=
  (∃ value, one = .ok value ∧ two = .ok value ∧ ∀ target, value ≠ .callable target) ∨
    ∃ cause, one = .error ⟨cause, some op.line⟩ ∧ two = .error ⟨cause, some sign.line⟩ ∧
      cause.OfMark

theorem alike_unary (same : sign.lexeme = op.lexeme) (operand : Value) :
    Alike op sign (unaryValue op operand) (unaryValue sign operand) := by
  unfold unaryValue
  rw [same]
  split
  · exact .inl ⟨_, rfl, rfl, nofun⟩
  · cases operand with
    | number value => exact .inl ⟨_, rfl, rfl, nofun⟩
    | _ => exact .inr ⟨_, rfl, rfl, trivial⟩

theorem alike_arithmetic (same : sign.lexeme = op.lexeme) (left right : Float) :
    Alike op sign (arithmetic op left right) (arithmetic sign left right) := by
  unfold arithmetic
  rw [same]
  split
  case h_3 =>
    split
    · exact .inr ⟨_, rfl, rfl, trivial⟩
    · exact .inl ⟨_, rfl, rfl, nofun⟩
  case h_8 => exact .inr ⟨_, rfl, rfl, trivial⟩
  all_goals exact .inl ⟨_, rfl, rfl, nofun⟩

theorem alike_binary (same : sign.lexeme = op.lexeme) (left right : Value) :
    Alike op sign (binaryValue op left right) (binaryValue sign left right) := by
  unfold binaryValue
  rw [same]
  split
  · exact .inl ⟨_, rfl, rfl, nofun⟩
  · exact .inl ⟨_, rfl, rfl, nofun⟩
  · split
    · exact .inl ⟨_, rfl, rfl, nofun⟩
    · exact .inl ⟨_, rfl, rfl, nofun⟩
    · exact .inr ⟨_, rfl, rfl, trivial⟩
  · split
    · exact alike_arithmetic same _ _
    · exact .inr ⟨_, rfl, rfl, trivial⟩

theorem Kept.lift (kept : like.Kept library other) (marked : like.mark op sign)
    {one two : Except Fault Value} (alike : Alike op sign one two) :
    like.Steps like.value (Run.lift one) (Run.lift two) := by
  rcases alike with ⟨value, rfl, rfl, plain⟩ | ⟨cause, rfl, rfl, own⟩
  · exact .pure ⟨rfl, kept.plain plain⟩
  · exact .throw (.fault (kept.marked cause marked own))

theorem Kept.raise (kept : like.Kept library other) (marked : like.mark op sign) {known : α → Prop}
    {cause : FaultCause} (own : cause.OfMark) :
    like.Steps known (Run.raise cause (some op.line)) (Run.raise cause (some sign.line)) :=
  .throw (.fault (kept.marked cause marked own))

end Operators

/-! ### Whole programs -/

section Programs

variable {library other : Library} {patience longer : Nat}

/-- Loops go alike, if their conditions and bodies do. -/
theorem repeatWhile {condition test : Run Bool} {body others : Run Unit} {rounds more : Nat}
    (tests : like.Steps (fun _ => True) condition test) (bodies : like.Acts body others)
    (enough : rounds ≤ more) (excused : rounds < more → like.excused .unfinished) :
    like.Acts (Run.repeatWhile condition body rounds) (Run.repeatWhile test others more) := by
  induction rounds generalizing more with
  | zero =>
    cases more with
    | zero => exact .throw .unfinished
    | succ more => exact .excuse (excused (Nat.succ_pos more))
  | succ rounds ih =>
    obtain ⟨more, rfl⟩ : ∃ less, more = less + 1 := ⟨more - 1, by omega⟩
    refine .bind tests ?_
    rintro holds _ ⟨rfl, -⟩
    cases holds with
    | false => exact .pure trivial
    | true =>
      refine .bind bodies fun _ _ _ => ?_
      exact ih (Nat.le_of_succ_le_succ enough) fun less => excused (Nat.succ_lt_succ less)

theorem same_of_forall₂ {known : α → Prop} {results others : List α}
    (same : List.Forall₂ (Same known) results others) :
    results = others ∧ ∀ result ∈ results, known result := by
  induction same with
  | nil => simp
  | cons first _ ih =>
    obtain ⟨rfl, known⟩ := first
    obtain ⟨rfl, all⟩ := ih
    exact ⟨rfl, List.forall_mem_cons.mpr ⟨known, all⟩⟩

section

variable {stack more : Nat}
  (values : ∀ expr twin, expr.Like like twin → like.Steps like.value
    (evaluate library patience stack expr) (evaluate other longer more twin))
  (acts : ∀ stmt twin, stmt.Like like twin → like.Acts (execute library patience stack stmt)
    (execute other longer more twin))

include values acts

/-- What a level of the stack less keeps, the evaluation of expressions that correspond keeps. -/
theorem Kept.evaluate_succ (kept : like.Kept library other) {expr twin : Expr}
    (alike : expr.Like like twin) : like.Steps like.value (evaluate library patience (stack + 1) expr)
      (evaluate other longer (more + 1) twin) := by
  cases alike with
  | literal known => exact .pure ⟨rfl, known⟩
  | name named => exact kept.read named
  | grouping inner => exact values _ _ inner
  | unary marked operand =>
    refine .bind (values _ _ operand) ?_
    rintro value _ ⟨rfl, -⟩
    exact kept.lift marked (alike_unary (kept.lexeme marked) value)
  | assign named value =>
    refine .bind (values _ _ value) ?_
    rintro value _ ⟨rfl, known⟩
    exact .bind (kept.assign named known) fun _ _ _ => .pure ⟨rfl, known⟩
  | binary marked left right =>
    refine .bind (values _ _ left) ?_
    rintro first _ ⟨rfl, -⟩
    refine .bind (values _ _ right) ?_
    rintro second _ ⟨rfl, -⟩
    exact kept.lift marked (alike_binary (kept.lexeme marked) first second)
  | @logical op sign _ _ _ _ marked left right =>
    refine .bind (values _ _ left) ?_
    rintro first _ ⟨rfl, known⟩
    -- Which operands an operator leaves out is told by its text, which both tokens have.
    have same : decides sign first = decides op first := by
      unfold decides
      rw [kept.lexeme marked]
    rw [same]
    split
    · exact .pure ⟨rfl, known⟩
    · exact values _ _ right
  | call callee marked given =>
    refine .bind (values _ _ callee) ?_
    rintro value _ ⟨rfl, known⟩
    cases value with
    | callable target =>
      refine .bind (.mapM given fun _ _ _ alike => values _ _ alike) fun arguments _ same => ?_
      obtain ⟨rfl, all⟩ := same_of_forall₂ same
      split
      · exact kept.invoke acts known all
      · exact kept.raise marked trivial
    | _ => exact kept.raise marked trivial

/-- What a level of the stack less keeps, the execution of statements that correspond keeps. -/
theorem Kept.execute_succ (kept : like.Kept library other) (long : patience ≤ longer)
    (unfinished : patience < longer → like.excused .unfinished) {stmt twin : Stmt}
    (alike : stmt.Like like twin) : like.Acts (execute library patience (stack + 1) stmt)
      (execute other longer (more + 1) twin) := by
  cases alike with
  | expression value => exact .discard (values _ _ value)
  | print value =>
    refine .bind (values _ _ value) ?_
    rintro value _ ⟨rfl, -⟩
    exact kept.print value.printed
  | declare named => exact kept.define named (kept.plain nofun)
  | declareAs named value =>
    refine .bind (values _ _ value) ?_
    rintro value _ ⟨rfl, known⟩
    exact kept.define named known
  | block body => exact kept.block (.forM body fun _ _ _ alike => acts _ _ alike)
  | ifThen condition yes =>
    refine .bind (values _ _ condition) ?_
    rintro value _ ⟨rfl, -⟩
    split
    · exact acts _ _ yes
    · exact .pure trivial
  | ifElse condition yes no =>
    refine .bind (values _ _ condition) ?_
    rintro value _ ⟨rfl, -⟩
    split
    · exact acts _ _ yes
    · exact acts _ _ no
  | loop condition body =>
    refine repeatWhile ?_ (acts _ _ body) long unfinished
    refine .map (values _ _ condition) ?_
    rintro value _ ⟨rfl, -⟩
    exact ⟨rfl, trivial⟩

end

/-- What the steps of machines keep, evaluation and execution keep. -/
theorem Kept.runs (kept : like.Kept library other) {stack more : Nat}
    (deep : stack ≤ more) (overflow : stack < more → like.excused .overflow)
    (long : patience ≤ longer) (unfinished : patience < longer → like.excused .unfinished) :
    (∀ expr twin, expr.Like like twin → like.Steps like.value (evaluate library patience stack expr)
      (evaluate other longer more twin)) ∧
    ∀ stmt twin, stmt.Like like twin → like.Acts (execute library patience stack stmt)
      (execute other longer more twin) := by
  -- Both recursions take a level of the stack for each level of a tree, and closures do as well.
  induction stack generalizing more with
  | zero =>
    cases more with
    | zero => exact ⟨fun _ _ _ => .throw .overflow, fun _ _ _ => .throw .overflow⟩
    | succ more =>
      have excused := overflow (Nat.succ_pos more)
      exact ⟨fun _ _ _ => .excuse excused, fun _ _ _ => .excuse excused⟩
  | succ stack ih =>
    obtain ⟨more, rfl⟩ : ∃ less, more = less + 1 := ⟨more - 1, by omega⟩
    obtain ⟨values, acts⟩ := ih (Nat.le_of_succ_le_succ deep) fun less => overflow (Nat.succ_lt_succ less)
    exact ⟨fun _ _ => kept.evaluate_succ values acts,
      fun _ _ => kept.execute_succ values acts long unfinished⟩

end Programs

end Likeness

end Lox
