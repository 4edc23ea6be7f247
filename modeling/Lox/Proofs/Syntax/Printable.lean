import Lox.Proofs.Syntax.Trees
import Lox.Source.Scan

/-!
# Trees that can be written

A tree has a text that stands for it if its tokens are those that the scanner makes, its constants
can be written, and it needs no braces that it does not have: no declaration stands where only a
statement may, and no `if` with an `else` has a body that would take the `else` for itself. Given
enough stack, the printer then returns the text of the tree with all groupings written.
-/
namespace Lox

/-! ### What can be written -/

/-- The letters of a name. -/
def Source.IsName (text : List Char) : Prop :=
  ∃ c more, text = c :: more ∧ isNameStart c = true ∧ ∀ d ∈ more, isNamePart d = true

namespace Token

/-- A token as the scanner makes it for a name. -/
structure Names (token : Token) : Prop where
  kind : token.kind = .identifier
  constant : token.constant = none
  letters : Source.IsName token.lexeme.toList
  free : token.lexeme ∉ reservedWords

/-- A token as the scanner makes it for one of some operators. -/
structure Operates (texts : List String) (token : Token) : Prop where
  kind : token.kind = .operator
  constant : token.constant = none
  text : token.lexeme ∈ texts

/-- A token as the scanner makes it for `or` and `and`. -/
structure Connects (token : Token) : Prop where
  kind : token.kind = .word token.lexeme
  constant : token.constant = none
  text : token.lexeme ∈ ["or", "and"]

end Token

/-- The operators between two operands that are both evaluated. -/
def binaryOperators : List String := ["==", "!=", "<", "<=", ">", ">=", "+", "-", "*", "/"]

/-- A constant that a literal can denote: no text with a double quote, no number below zero. -/
def Value.Printable : Value → Prop
  | .nil | .bool _ => True
  | .text value => '"' ∉ value.toList
  | .number value => Number.isNegative value = false ∧ Number.isNaN value = false
  | .callable _ => False

inductive Expr.Printable : Expr → Prop where
  | literal {value : Value} : value.Printable → Printable (.literal value)
  | name {token : Token} : token.Names → Printable (.name token)
  | grouping {inner : Expr} : inner.Printable → Printable (.grouping inner)
  | unary {op : Token} {operand : Expr} :
      op.Operates ["!", "-"] → operand.Printable → Printable (.unary op operand)
  | assign {target : Token} {value : Expr} :
      target.Names → value.Printable → Printable (.assign target value)
  | binary {op : Token} {left right : Expr} :
      op.Operates binaryOperators → left.Printable → right.Printable →
      Printable (.binary op left right)
  | logical {op : Token} {left right : Expr} :
      op.Connects → left.Printable → right.Printable → Printable (.logical op left right)
  | call {callee : Expr} {closing : Token} {arguments : List Expr} :
      callee.Printable → closing.Operates [")"] → (∀ expr ∈ arguments, expr.Printable) →
      arguments.length ≤ maxArguments → Printable (.call callee closing arguments)

inductive Stmt.Printable : Stmt → Prop where
  | expression {value : Expr} : value.Printable → Printable (.expression value)
  | print {value : Expr} : value.Printable → Printable (.print value)
  | declare {target : Token} : target.Names → Printable (.declare target none)
  | declareAs {target : Token} {initial : Expr} :
      target.Names → initial.Printable → Printable (.declare target (some initial))
  | block {body : List Stmt} : (∀ stmt ∈ body, stmt.Printable) → Printable (.block body)
  | ifThen {condition : Expr} {yes : Stmt} :
      condition.Printable → yes.Printable → yes.declares = false →
      Printable (.branch condition yes none)
  | ifElse {condition : Expr} {yes no : Stmt} :
      condition.Printable → yes.Printable → yes.declares = false → yes.isOpen = false →
      no.Printable → no.declares = false → Printable (.branch condition yes (some no))
  | loop {condition : Expr} {body : Stmt} :
      condition.Printable → body.Printable → body.declares = false →
      Printable (.loop condition body)

/-! ### Trees whose operators have levels -/

/-- An expression in which every operator between two operands belongs to a level. -/
inductive Expr.Leveled : Expr → Prop where
  | literal {value : Value} : Leveled (.literal value)
  | name {token : Token} : Leveled (.name token)
  | grouping {inner : Expr} : inner.Leveled → Leveled (.grouping inner)
  | unary {op : Token} {operand : Expr} : operand.Leveled → Leveled (.unary op operand)
  | assign {target : Token} {value : Expr} : value.Leveled → Leveled (.assign target value)
  | binary {op : Token} {level : Nat} {left right : Expr} :
      Precedence.ofOperator? op.lexeme = some level → left.Leveled → right.Leveled →
      Leveled (.binary op left right)
  | logical {op : Token} {level : Nat} {left right : Expr} :
      Precedence.ofOperator? op.lexeme = some level → left.Leveled → right.Leveled →
      Leveled (.logical op left right)
  | call {callee : Expr} {closing : Token} {arguments : List Expr} :
      callee.Leveled → (∀ expr ∈ arguments, expr.Leveled) → Leveled (.call callee closing arguments)

/-- A statement in which every operator between two operands belongs to a level. -/
inductive Stmt.Leveled : Stmt → Prop where
  | expression {value : Expr} : value.Leveled → Leveled (.expression value)
  | print {value : Expr} : value.Leveled → Leveled (.print value)
  | declare {target : Token} : Leveled (.declare target none)
  | declareAs {target : Token} {initial : Expr} :
      initial.Leveled → Leveled (.declare target (some initial))
  | block {body : List Stmt} : (∀ stmt ∈ body, stmt.Leveled) → Leveled (.block body)
  | ifThen {condition : Expr} {yes : Stmt} :
      condition.Leveled → yes.Leveled → Leveled (.branch condition yes none)
  | ifElse {condition : Expr} {yes no : Stmt} :
      condition.Leveled → yes.Leveled → no.Leveled → Leveled (.branch condition yes (some no))
  | loop {condition : Expr} {body : Stmt} :
      condition.Leveled → body.Leveled → Leveled (.loop condition body)

/-! ### Enough stack -/

/-- A property holds for every stack from some depth on. -/
def WithEnough (property : Nat → Prop) : Prop :=
  ∃ enough, ∀ stack, enough ≤ stack → property stack

namespace WithEnough

variable {one other : Nat → Prop}

theorem always (known : ∀ stack, one stack) : WithEnough one := ⟨0, fun stack _ => known stack⟩

theorem and (first : WithEnough one) (second : WithEnough other) :
    WithEnough fun stack => one stack ∧ other stack := by
  obtain ⟨few, first⟩ := first
  obtain ⟨some, second⟩ := second
  refine ⟨max few some, fun stack enough => ⟨first stack ?_, second stack ?_⟩⟩
  · exact Nat.le_trans (Nat.le_max_left _ _) enough
  · exact Nat.le_trans (Nat.le_max_right _ _) enough

theorem mono (known : WithEnough one) (onward : ∀ stack, one stack → other stack) :
    WithEnough other := by
  obtain ⟨enough, known⟩ := known
  exact ⟨enough, fun stack more => onward stack (known stack more)⟩

/-- What takes some levels of the stack needs so many more. -/
theorem deeper (levels : Nat) (known : WithEnough one)
    (onward : ∀ stack, one stack → other (stack + levels)) : WithEnough other := by
  obtain ⟨enough, known⟩ := known
  refine ⟨enough + levels, fun stack more => ?_⟩
  have step := onward (stack - levels) (known _ (by omega))
  rwa [Nat.sub_add_cancel (by omega)] at step

theorem forall_mem {α : Type} {members : List α} {property : α → Nat → Prop}
    (known : ∀ member ∈ members, WithEnough (property member)) :
    WithEnough fun stack => ∀ member ∈ members, property member stack := by
  induction members with
  | nil => exact always fun _ _ => nofun
  | cons member members ih =>
    rw [List.forall_mem_cons] at known
    exact (known.1.and (ih known.2)).mono fun _ both => List.forall_mem_cons.mpr both

end WithEnough

theorem mapM_ok {α β ε : Type} {f : α → Except ε β} {g : α → β} {members : List α}
    (known : ∀ member ∈ members, f member = .ok (g member)) :
    members.mapM f = .ok (members.map g) := by
  induction members with
  | nil => rfl
  | cons member members ih =>
    rw [List.forall_mem_cons] at known
    rw [List.mapM_cons, known.1, ih known.2]
    rfl

/-! ### Printing expressions -/

namespace Expr

theorem tightness_written (expr : Expr) : expr.written.tightness = expr.tightness := by
  cases expr <;> rfl

/-- Every operator that joins operands belongs to a level. -/
theorem ofOperator?_eq {text : String} (known : text ∈ binaryOperators ++ ["or", "and"]) :
    ∃ level, Precedence.ofOperator? text = some level := by
  have all : ∀ text ∈ binaryOperators ++ ["or", "and"],
      (Precedence.ofOperator? text).isSome = true := by decide
  exact Option.isSome_iff_exists.mp (all text known)

theorem Printable.leveled {expr : Expr} (printable : expr.Printable) : expr.Leveled := by
  induction printable with
  | literal => exact .literal
  | name => exact .name
  | grouping _ inner => exact .grouping inner
  | unary _ _ operand => exact .unary operand
  | assign _ _ value => exact .assign value
  | binary op _ _ left right =>
    obtain ⟨level, known⟩ := ofOperator?_eq (List.mem_append_left ["or", "and"] op.text)
    exact .binary known left right
  | logical op _ _ left right =>
    obtain ⟨level, known⟩ := ofOperator?_eq (List.mem_append_right binaryOperators op.text)
    exact .logical known left right
  | call _ _ _ _ callee arguments => exact .call callee arguments

/-- Every level is above assignment. -/
theorem assignment_le_of_level {text : String} {level : Nat}
    (known : Precedence.ofOperator? text = some level) : Precedence.assignment ≤ level := by
  obtain ⟨index, -, rfl⟩ := Option.map_eq_some_iff.mp known
  exact Nat.le_add_left 1 (index + 1)

theorem Leveled.precedence {expr : Expr} (leveled : expr.Leveled) :
    expr.precedence = .ok expr.tightness ∧ Precedence.assignment ≤ expr.tightness := by
  cases leveled with
  | literal | name | grouping | unary | assign | call => exact ⟨rfl, Nat.le_of_ble_eq_true rfl⟩
  | binary known | logical known =>
    simp only [Expr.precedence, tightness, known]
    exact ⟨rfl, assignment_le_of_level known⟩

/-- An operand is printed with the parentheses that its place calls for. -/
theorem Leveled.within_eq {expr : Expr} {stack : Nat} (leveled : expr.Leveled)
    (printed : expr.source stack = .ok expr.written.text) (least : Nat) :
    Expr.within (Expr.source stack) least expr = .ok (expr.written.guarded least).text := by
  unfold Expr.within guarded
  rw [leveled.precedence.1, printed, tightness_written]
  change Except.ok (if expr.tightness < least then parenthesized expr.written.text
    else expr.written.text) = _
  split <;> rfl

theorem Leveled.source_eq {expr : Expr} (leveled : expr.Leveled) :
    WithEnough fun stack => expr.source stack = .ok expr.written.text := by
  -- An operand is printed two levels of the stack below the expression that it is part of.
  induction leveled with
  | literal | name => exact (WithEnough.always fun _ => trivial).deeper 2 fun _ _ => rfl
  | grouping inner ih =>
    refine ih.deeper 2 fun stack printed => ?_
    simp only [Expr.source]
    rw [inner.within_eq printed]
    rfl
  | unary operand ih =>
    refine ih.deeper 2 fun stack printed => ?_
    simp only [Expr.source]
    rw [operand.within_eq printed]
    rfl
  | assign value ih =>
    refine ih.deeper 2 fun stack printed => ?_
    simp only [Expr.source]
    rw [value.within_eq printed]
    rfl
  | binary known left right first second =>
    refine (first.and second).deeper 2 ?_
    rintro stack ⟨before, after⟩
    simp only [Expr.source]
    rw [(Leveled.binary known left right).precedence.1]
    simp only [bind, Except.bind]
    rw [left.within_eq before, right.within_eq after]
    rfl
  | logical known left right first second =>
    refine (first.and second).deeper 2 ?_
    rintro stack ⟨before, after⟩
    simp only [Expr.source]
    rw [(Leveled.logical known left right).precedence.1]
    simp only [bind, Except.bind]
    rw [left.within_eq before, right.within_eq after]
    rfl
  | call callee arguments first others =>
    refine (first.and (WithEnough.forall_mem others)).deeper 2 ?_
    rintro stack ⟨before, after⟩
    simp only [Expr.source]
    rw [callee.within_eq before, mapM_ok fun expr member => (arguments expr member).within_eq
      (after expr member) Precedence.assignment]
    simp only [written, rebuild, guard, text, textAll_eq_map, rebuildAll_eq_map, List.map_map]
    rfl

/-- An expression that stands alone needs no parentheses. -/
theorem Leveled.guarded_written {expr : Expr} (leveled : expr.Leveled) :
    expr.written.guarded Precedence.assignment = expr.written := by
  apply guarded_of_le
  rw [tightness_written]
  exact leveled.precedence.2

theorem Leveled.standalone_eq {expr : Expr} (leveled : expr.Leveled) :
    WithEnough fun stack => expr.standalone stack = .ok expr.written.text := by
  refine leveled.source_eq.mono fun stack printed => ?_
  unfold Expr.standalone
  rw [leveled.within_eq printed, leveled.guarded_written]

end Expr

/-! ### Printing statements -/

namespace Stmt

/-- A statement is printed, on its own and under a header. -/
def Prints (stmt : Stmt) (stack : Nat) : Prop :=
  stmt.lines stack = .ok stmt.written.text ∧
    ∀ header, headed (Stmt.lines stack) header stmt =
      .ok (under header stmt.written stmt.written.text)

/-- Under a header, a statement that is no block is printed as on its own. -/
theorem prints_of_lines {stmt : Stmt} {stack : Nat} (printed : stmt.lines stack = .ok stmt.written.text)
    (other : ∀ body, stmt ≠ .block body) : stmt.Prints stack := by
  refine ⟨printed, fun header => ?_⟩
  cases stmt with
  | block body => exact absurd rfl (other body)
  | branch _ _ no =>
    simp only [headed, printed]
    cases no <;> rfl
  | _ =>
    simp only [headed, printed]
    rfl

theorem Printable.leveled {stmt : Stmt} (printable : stmt.Printable) : stmt.Leveled := by
  induction printable with
  | expression value => exact .expression value.leveled
  | print value => exact .print value.leveled
  | declare => exact .declare
  | declareAs _ initial => exact .declareAs initial.leveled
  | block _ body => exact .block body
  | ifThen condition _ _ yes => exact .ifThen condition.leveled yes
  | ifElse condition _ _ _ _ _ yes no => exact .ifElse condition.leveled yes no
  | loop condition _ _ body => exact .loop condition.leveled body

theorem Leveled.prints {stmt : Stmt} (leveled : stmt.Leveled) : WithEnough stmt.Prints := by
  -- A part of a statement is printed three levels of the stack below it.
  induction leveled with
  | expression value =>
    refine value.standalone_eq.deeper 3 fun stack printed => prints_of_lines ?_ (by simp)
    simp only [Stmt.lines, printed]
    rfl
  | print value =>
    refine value.standalone_eq.deeper 3 fun stack printed => prints_of_lines ?_ (by simp)
    simp only [Stmt.lines, printed]
    rfl
  | declare =>
    exact (WithEnough.always fun _ => trivial).deeper 3 fun _ _ => prints_of_lines rfl (by simp)
  | declareAs initial =>
    refine initial.standalone_eq.deeper 3 fun stack printed => prints_of_lines ?_ (by simp)
    simp only [Stmt.lines, printed]
    rfl
  | @block body _ all =>
    obtain ⟨enough, known⟩ := WithEnough.forall_mem all
    have text : textAll (rebuildAll id Expr.written body) =
        (body.map fun stmt => stmt.written.text).flatten := by
      rw [rebuildAll_eq_map, textAll_eq_flatMap, List.flatMap_map, List.flatMap_def]
      rfl
    refine ⟨enough + 3, fun stack more => ⟨?_, fun header => ?_⟩⟩
    · obtain ⟨stack, rfl⟩ := Nat.exists_eq_add_of_le' (Nat.le_trans (Nat.le_add_left _ _) more)
      have known := known stack (Nat.le_of_add_le_add_right more)
      simp only [Stmt.lines, mapM_ok fun stmt member => (known stmt member).1, written, rebuild,
        Stmt.text, text]
      rfl
    · have known := known stack (Nat.le_of_add_right_le more)
      simp only [headed, mapM_ok fun stmt member => (known stmt member).1, written, rebuild,
        Stmt.text, text]
      simp only [bind, Except.bind, under, braced, List.append_assoc]
      rfl
  | ifThen condition yes ih =>
    refine (condition.standalone_eq.and ih).deeper 3 ?_
    rintro stack ⟨printed, body⟩
    refine prints_of_lines ?_ (by simp)
    simp only [Stmt.lines, printed, bind, Except.bind, body.2]
    rfl
  | ifElse condition yes no first second =>
    refine (condition.standalone_eq.and (first.and second)).deeper 3 ?_
    rintro stack ⟨printed, yes, no⟩
    refine prints_of_lines ?_ (by simp)
    simp only [Stmt.lines, printed, bind, Except.bind, yes.2, no.2]
    rfl
  | loop condition body ih =>
    refine (condition.standalone_eq.and ih).deeper 3 ?_
    rintro stack ⟨printed, body⟩
    refine prints_of_lines ?_ (by simp)
    simp only [Stmt.lines, printed, bind, Except.bind, body.2]
    rfl

/-- Given enough stack, statements are printed as their text. -/
theorem program_eq {stmts : List Stmt} (leveled : ∀ stmt ∈ stmts, stmt.Leveled) :
    WithEnough fun stack => Stmt.program stack stmts = .ok (programText (stmts.map written)) := by
  have all := WithEnough.forall_mem fun stmt member => (leveled stmt member).prints
  refine all.mono fun stack known => ?_
  unfold Stmt.program programText
  rw [mapM_ok fun stmt member => (known stmt member).1, textAll_eq_flatMap, List.flatMap_map,
    List.flatMap_def]
  rfl

end Stmt

end Lox
