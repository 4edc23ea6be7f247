import Lox.StaticError
import Lox.Syntax.Printer

/-!
# Trees and their text

The text of a tree, written with parentheses where the tree has groupings and nowhere else. The
printer writes this text for the tree that `written` makes: it has a grouping wherever an operand
would not hold together in its place. Trees are compared without the lines of their tokens, or
without their groupings, and measured by the constructs that are open at once when they are read.
-/
namespace Lox

/-! ### Expressions -/

/-- A token without its line. -/
def Token.bare (token : Token) : Token := { token with line := 0 }

theorem Token.spells_bare (token : Token) (text : String) :
    token.bare.spells text = token.spells text :=
  rfl

namespace Expr

mutual

/-- An expression whose tokens are changed, and whose nodes are changed from the leaves up. -/
def rebuild (token : Token → Token) (node : Expr → Expr) : Expr → Expr
  | .literal value => node (.literal value)
  | .name known => node (.name (token known))
  | .grouping inner => node (.grouping (inner.rebuild token node))
  | .unary op operand => node (.unary (token op) (operand.rebuild token node))
  | .assign target value => node (.assign (token target) (value.rebuild token node))
  | .binary op left right =>
    node (.binary (token op) (left.rebuild token node) (right.rebuild token node))
  | .logical op left right =>
    node (.logical (token op) (left.rebuild token node) (right.rebuild token node))
  | .call callee closing arguments =>
    node (.call (callee.rebuild token node) (token closing) (rebuildAll token node arguments))

def rebuildAll (token : Token → Token) (node : Expr → Expr) : List Expr → List Expr
  | [] => []
  | expr :: more => expr.rebuild token node :: rebuildAll token node more

end

theorem rebuildAll_eq_map (token : Token → Token) (node : Expr → Expr) (exprs : List Expr) :
    rebuildAll token node exprs = exprs.map (rebuild token node) := by
  induction exprs with
  | nil => rfl
  | cons expr more ih => rw [rebuildAll, ih, List.map_cons]

/-- An expression without the lines of its tokens. -/
def bare : Expr → Expr := rebuild Token.bare id

/-- An expression without its groupings. -/
def ungrouped : Expr → Expr := rebuild id fun
  | .grouping inner => inner
  | other => other

section

variable {callee : Expr} {closing : Token} {arguments : List Expr}

theorem bare_call : (Expr.call callee closing arguments).bare =
    .call callee.bare closing.bare (arguments.map bare) := by
  unfold bare
  rw [rebuild, rebuildAll_eq_map]
  rfl

theorem ungrouped_call : (Expr.call callee closing arguments).ungrouped =
    .call callee.ungrouped closing (arguments.map ungrouped) := by
  unfold ungrouped
  rw [rebuild, rebuildAll_eq_map]
  rfl

end

/-- How tightly an expression holds together; not at all when its operator belongs to no level. -/
def tightness (expr : Expr) : Nat :=
  match expr.precedence with
  | .ok level => level
  | .error _ => 0

section

variable {op : Token} {left right : Expr} {level : Nat}

theorem tightness_binary (known : Precedence.ofOperator? op.lexeme = some level) :
    (Expr.binary op left right).tightness = level := by
  simp only [tightness, Expr.precedence, known]
  rfl

theorem tightness_logical (known : Precedence.ofOperator? op.lexeme = some level) :
    (Expr.logical op left right).tightness = level := by
  simp only [tightness, Expr.precedence, known]
  rfl

end

/-- An expression in a place that calls for a precedence, grouped when it falls short. -/
def guarded (least : Nat) (expr : Expr) : Expr :=
  if expr.tightness < least then .grouping expr else expr

theorem guarded_of_le {least : Nat} {expr : Expr} (tight : least ≤ expr.tightness) :
    expr.guarded least = expr :=
  if_neg (Nat.not_lt.mpr tight)

/-- An expression with its operands grouped where they fall short of what their place calls for. -/
def guard (expr : Expr) : Expr :=
  match expr with
  | .literal _ | .name _ => expr
  | .grouping inner => .grouping (inner.guarded Precedence.assignment)
  | .unary op operand => .unary op (operand.guarded Precedence.unary)
  | .assign target value => .assign target (value.guarded Precedence.assignment)
  | .binary op left right => .binary op (left.guarded expr.tightness) (right.guarded (expr.tightness + 1))
  | .logical op left right =>
    .logical op (left.guarded expr.tightness) (right.guarded (expr.tightness + 1))
  | .call callee closing arguments =>
    .call (callee.guarded Precedence.call) closing
      (arguments.map (guarded Precedence.assignment))

/-- An expression with a grouping wherever the printer writes parentheses. -/
def written : Expr → Expr := rebuild id guard

section

variable {op : Token} {left right : Expr} {level : Nat}

theorem written_binary (known : Precedence.ofOperator? op.lexeme = some level) :
    (Expr.binary op left right).written =
      .binary op (left.written.guarded level) (right.written.guarded (level + 1)) := by
  have place : (Expr.binary op left.written right.written).tightness = level :=
    tightness_binary known
  change Expr.binary op (left.written.guarded _) (right.written.guarded (_ + 1)) = _
  rw [← place]
  rfl

theorem written_logical (known : Precedence.ofOperator? op.lexeme = some level) :
    (Expr.logical op left right).written =
      .logical op (left.written.guarded level) (right.written.guarded (level + 1)) := by
  have place : (Expr.logical op left.written right.written).tightness = level :=
    tightness_logical known
  change Expr.logical op (left.written.guarded _) (right.written.guarded (_ + 1)) = _
  rw [← place]
  rfl

theorem written_call {callee : Expr} {closing : Token} {arguments : List Expr} :
    (Expr.call callee closing arguments).written =
      .call (callee.written.guarded Precedence.call) closing
        (arguments.map fun expr => expr.written.guarded Precedence.assignment) := by
  unfold written
  rw [rebuild, rebuildAll_eq_map]
  change Expr.call _ closing ((arguments.map _).map _) = _
  rw [List.map_map]
  rfl

end

mutual

/-- How many expressions and signs are open at once at most inside an expression. -/
def nesting : Expr → Nat
  | .literal _ | .name _ => 0
  | .grouping inner => inner.nesting + 1
  | .unary _ operand => operand.nesting + 1
  | .assign _ value => value.nesting
  | .binary _ left right | .logical _ left right => max left.nesting right.nesting
  | .call callee _ arguments => max callee.nesting (nestingAll arguments)

def nestingAll : List Expr → Nat
  | [] => 0
  | expr :: more => max (expr.nesting + 1) (nestingAll more)

end

mutual

/-- An expression as program text, with parentheses where it has groupings. -/
def text : Expr → Line
  | .literal value => value.source
  | .name token => token.lexeme.toList
  | .grouping inner => parenthesized inner.text
  | .unary op operand => op.lexeme.toList ++ operand.text
  | .assign target value => target.lexeme.toList ++ " = ".toList ++ value.text
  | .binary op left right | .logical op left right =>
    left.text ++ ' ' :: op.lexeme.toList ++ ' ' :: right.text
  | .call callee _ arguments =>
    callee.text ++ parenthesized ([',', ' '].intercalate (textAll arguments))

def textAll : List Expr → List Line
  | [] => []
  | expr :: more => expr.text :: textAll more

end

theorem textAll_eq_map (exprs : List Expr) : textAll exprs = exprs.map text := by
  induction exprs with
  | nil => rfl
  | cons expr more ih => rw [textAll, ih, List.map_cons]

section

variable {level : Level} {left right : Expr} {op : Token}

theorem join_nesting : (level.join left op right).nesting = max left.nesting right.nesting := by
  unfold Level.join
  split <;> rfl

theorem join_text : (level.join left op right).text =
    left.text ++ ' ' :: op.lexeme.toList ++ ' ' :: right.text := by
  unfold Level.join
  split <;> rfl

theorem join_tightness {least : Nat} (known : Precedence.ofOperator? op.lexeme = some least) :
    (level.join left op right).tightness = least := by
  unfold Level.join
  split
  · exact tightness_logical known
  · exact tightness_binary known

theorem join_bare :
    (level.join left op right).bare = level.join left.bare op.bare right.bare := by
  unfold Level.join
  split <;> rfl

end

/-- To know something of every expression, it is enough to follow how expressions are built. -/
theorem induction {motive : Expr → Prop} (literal : ∀ value, motive (.literal value))
    (name : ∀ token, motive (.name token))
    (grouping : ∀ inner, motive inner → motive (.grouping inner))
    (unary : ∀ op operand, motive operand → motive (.unary op operand))
    (assign : ∀ target value, motive value → motive (.assign target value))
    (binary : ∀ op left right, motive left → motive right → motive (.binary op left right))
    (logical : ∀ op left right, motive left → motive right → motive (.logical op left right))
    (call : ∀ callee closing arguments, motive callee → (∀ expr ∈ arguments, motive expr) →
      motive (.call callee closing arguments)) :
    ∀ expr, motive expr
  | .literal value => literal value
  | .name token => name token
  | .grouping inner =>
    grouping inner (induction literal name grouping unary assign binary logical call inner)
  | .unary op operand =>
    unary op operand (induction literal name grouping unary assign binary logical call operand)
  | .assign target value =>
    assign target value (induction literal name grouping unary assign binary logical call value)
  | .binary op left right =>
    binary op left right (induction literal name grouping unary assign binary logical call left)
      (induction literal name grouping unary assign binary logical call right)
  | .logical op left right =>
    logical op left right (induction literal name grouping unary assign binary logical call left)
      (induction literal name grouping unary assign binary logical call right)
  | .call callee closing arguments =>
    call callee closing arguments
      (induction literal name grouping unary assign binary logical call callee)
      fun expr _ => induction literal name grouping unary assign binary logical call expr

/-- Where neither tokens nor nodes are changed, an expression stays as it is. -/
theorem rebuild_id (expr : Expr) : expr.rebuild id id = expr := by
  induction expr using Expr.induction with
  | literal | name => rfl
  | grouping _ inner => simp only [rebuild, inner, id]
  | unary _ _ operand => simp only [rebuild, operand, id]
  | assign _ _ value => simp only [rebuild, value, id]
  | binary _ _ _ left right => simp only [rebuild, left, right, id]
  | logical _ _ _ left right => simp only [rebuild, left, right, id]
  | call _ _ _ callee arguments =>
    simp only [rebuild, rebuildAll_eq_map, callee, id, List.map_congr_left arguments, List.map_id']

end Expr

/-! ### Statements -/

namespace Stmt

mutual

/-- A statement whose tokens and expressions are changed. -/
def rebuild (token : Token → Token) (expr : Expr → Expr) : Stmt → Stmt
  | .expression value => .expression (expr value)
  | .print value => .print (expr value)
  | .declare target initial => .declare (token target) (initial.map expr)
  | .block body => .block (rebuildAll token expr body)
  | .branch condition yes none => .branch (expr condition) (yes.rebuild token expr) none
  | .branch condition yes (some no) =>
    .branch (expr condition) (yes.rebuild token expr) (some (no.rebuild token expr))
  | .loop condition body => .loop (expr condition) (body.rebuild token expr)

def rebuildAll (token : Token → Token) (expr : Expr → Expr) : List Stmt → List Stmt
  | [] => []
  | stmt :: more => stmt.rebuild token expr :: rebuildAll token expr more

end

theorem rebuildAll_eq_map (token : Token → Token) (expr : Expr → Expr) (stmts : List Stmt) :
    rebuildAll token expr stmts = stmts.map (rebuild token expr) := by
  induction stmts with
  | nil => rfl
  | cons stmt more ih => rw [rebuildAll, ih, List.map_cons]

/-- A statement without the lines of its tokens. -/
def bare : Stmt → Stmt := rebuild Token.bare Expr.bare

/-- A statement without groupings. -/
def ungrouped : Stmt → Stmt := rebuild id Expr.ungrouped

/-- A statement with a grouping wherever the printer writes parentheses of its own. -/
def written : Stmt → Stmt := rebuild id Expr.written

theorem rebuild_block (token : Token → Token) (expr : Expr → Expr) (body : List Stmt) :
    (Stmt.block body).rebuild token expr = .block (body.map (rebuild token expr)) := by
  rw [rebuild, rebuildAll_eq_map]

/-- Whether a statement declares a variable. -/
def declares : Stmt → Bool
  | .declare _ _ => true
  | _ => false

/-- Whether a statement ends in an `if` that could take an `else`. -/
def isOpen : Stmt → Bool
  | .branch _ _ none => true
  | .branch _ _ (some no) => no.isOpen
  | .loop _ body => body.isOpen
  | _ => false

mutual

/-- How many statements, expressions and signs are open at once at most in a statement. -/
def nesting : Stmt → Nat
  | .expression value | .print value => value.nesting + 2
  | .declare _ none => 0
  | .declare _ (some initial) => initial.nesting + 1
  | .block body => nestingAll body + 1
  | .branch condition yes none => max (condition.nesting + 1) yes.nesting + 1
  | .branch condition yes (some no) =>
    max (condition.nesting + 1) (max yes.nesting no.nesting) + 1
  | .loop condition body => max (condition.nesting + 1) body.nesting + 1

def nestingAll : List Stmt → Nat
  | [] => 0
  | stmt :: more => max stmt.nesting (nestingAll more)

end

/-- A body under its header: a block opens on the header's line, any other statement follows it. -/
def under (header : Line) (body : Stmt) (lines : List Line) : List Line :=
  match body, lines with
  | .block _, opening :: more => (header ++ ' ' :: opening) :: more
  | _, _ => header :: indented lines

mutual

/-- A statement as lines of program text, with parentheses where it has groupings. -/
def text : Stmt → List Line
  | .expression value => [value.text ++ [';']]
  | .print value => ["print ".toList ++ value.text ++ [';']]
  | .declare target none => ["var ".toList ++ target.lexeme.toList ++ [';']]
  | .declare target (some initial) =>
    ["var ".toList ++ target.lexeme.toList ++ " = ".toList ++ initial.text ++ [';']]
  | .block body => braced [] (textAll body)
  | .branch condition yes none =>
    under ("if ".toList ++ parenthesized condition.text) yes yes.text
  | .branch condition yes (some no) =>
    under ("if ".toList ++ parenthesized condition.text) yes yes.text ++
      under "else".toList no no.text
  | .loop condition body => under ("while ".toList ++ parenthesized condition.text) body body.text

def textAll : List Stmt → List Line
  | [] => []
  | stmt :: more => stmt.text ++ textAll more

end

theorem textAll_eq_flatMap (stmts : List Stmt) : textAll stmts = stmts.flatMap text := by
  induction stmts with
  | nil => rfl
  | cons stmt more ih => rw [textAll, ih, List.flatMap_cons]

/-- Statements as program text, with parentheses where they have groupings. -/
def programText (stmts : List Stmt) : String :=
  String.ofList ((textAll stmts).flatMap (· ++ ['\n']))

/-- To know something of every statement, it is enough to follow how statements are built. -/
theorem induction {motive : Stmt → Prop} (expression : ∀ value, motive (.expression value))
    (print : ∀ value, motive (.print value))
    (declare : ∀ target initial, motive (.declare target initial))
    (block : ∀ body, (∀ stmt ∈ body, motive stmt) → motive (.block body))
    (ifThen : ∀ condition yes, motive yes → motive (.branch condition yes none))
    (ifElse : ∀ condition yes no, motive yes → motive no → motive (.branch condition yes (some no)))
    (loop : ∀ condition body, motive body → motive (.loop condition body)) :
    ∀ stmt, motive stmt
  | .expression value => expression value
  | .print value => print value
  | .declare target initial => declare target initial
  | .block body =>
    block body fun stmt _ => induction expression print declare block ifThen ifElse loop stmt
  | .branch condition yes none =>
    ifThen condition yes (induction expression print declare block ifThen ifElse loop yes)
  | .branch condition yes (some no) =>
    ifElse condition yes no (induction expression print declare block ifThen ifElse loop yes)
      (induction expression print declare block ifThen ifElse loop no)
  | .loop condition body =>
    loop condition body (induction expression print declare block ifThen ifElse loop body)

/-- Where neither tokens nor expressions are changed, a statement stays as it is. -/
theorem rebuild_id (stmt : Stmt) : stmt.rebuild id id = stmt := by
  induction stmt using Stmt.induction with
  | expression | print => rfl
  | declare _ initial => simp [rebuild]
  | block _ body => rw [rebuild_block, List.map_congr_left body, List.map_id']
  | ifThen _ _ yes => simp only [rebuild, yes, id]
  | ifElse _ _ _ yes no => simp only [rebuild, yes, no, id]
  | loop _ _ body => simp only [rebuild, body, id]

end Stmt

end Lox
