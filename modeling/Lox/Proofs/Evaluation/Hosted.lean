import Lox.Proofs.Evaluation.Likeness
import Lox.Proofs.Syntax.Printable

/-!
# Programs without closures

Where every callable is a native, and natives make no closures either, a program has no closure at any
time. What its tokens have for lines then matters for the lines of its faults only.
-/
namespace Lox

/-- Not a closure. -/
def Value.Hosted : Value → Prop
  | .callable (.closure ..) => False
  | _ => True

/-- No name is bound to a closure. -/
def Scopes.Hosted (scopes : Scopes) : Prop :=
  ∀ (id : Nat) (scope : Scope), scopes.all[id]? = some scope →
    ∀ binding ∈ scope.bindings, binding.2.Hosted

def Machine.Hosted (machine : Machine) : Prop := machine.scopes.Hosted

/-- Natives that are given no closures return none. -/
def Library.Hosted (library : Library) : Prop :=
  ∀ (id : Nat) (arguments : List Value) (value : Value), (∀ given ∈ arguments, given.Hosted) →
    (library.native id).act arguments = .ok value → value.Hosted

/-- An expression without closures among its literals. -/
inductive Expr.Hosted : Expr → Prop where
  | literal {value : Value} : value.Hosted → Hosted (.literal value)
  | name {token : Token} : Hosted (.name token)
  | grouping {inner : Expr} : inner.Hosted → Hosted (.grouping inner)
  | unary {op : Token} {operand : Expr} : operand.Hosted → Hosted (.unary op operand)
  | assign {target : Token} {value : Expr} : value.Hosted → Hosted (.assign target value)
  | binary {op : Token} {left right : Expr} :
      left.Hosted → right.Hosted → Hosted (.binary op left right)
  | logical {op : Token} {left right : Expr} :
      left.Hosted → right.Hosted → Hosted (.logical op left right)
  | call {callee : Expr} {closing : Token} {arguments : List Expr} :
      callee.Hosted → (∀ expr ∈ arguments, expr.Hosted) → Hosted (.call callee closing arguments)

/-- A statement without closures among its literals. -/
inductive Stmt.Hosted : Stmt → Prop where
  | expression {value : Expr} : value.Hosted → Hosted (.expression value)
  | print {value : Expr} : value.Hosted → Hosted (.print value)
  | declare {target : Token} : Hosted (.declare target none)
  | declareAs {target : Token} {initial : Expr} :
      initial.Hosted → Hosted (.declare target (some initial))
  | block {body : List Stmt} : (∀ stmt ∈ body, stmt.Hosted) → Hosted (.block body)
  | ifThen {condition : Expr} {yes : Stmt} :
      condition.Hosted → yes.Hosted → Hosted (.branch condition yes none)
  | ifElse {condition : Expr} {yes no : Stmt} :
      condition.Hosted → yes.Hosted → no.Hosted → Hosted (.branch condition yes (some no))
  | loop {condition : Expr} {body : Stmt} :
      condition.Hosted → body.Hosted → Hosted (.loop condition body)

/-! ### What can be written -/

theorem Value.Printable.hosted {value : Value} (printable : value.Printable) : value.Hosted := by
  cases value with
  | callable target => exact printable.elim
  | _ => trivial

theorem Expr.Printable.hosted {expr : Expr} (printable : expr.Printable) : expr.Hosted := by
  induction printable with
  | literal known => exact .literal known.hosted
  | name _ => exact .name
  | grouping _ inner => exact .grouping inner
  | unary _ _ operand => exact .unary operand
  | assign _ _ value => exact .assign value
  | binary _ _ _ left right => exact .binary left right
  | logical _ _ _ left right => exact .logical left right
  | call _ _ _ _ callee arguments => exact .call callee arguments

theorem Stmt.Printable.hosted {stmt : Stmt} (printable : stmt.Printable) : stmt.Hosted := by
  induction printable with
  | expression value => exact .expression value.hosted
  | print value => exact .print value.hosted
  | declare _ => exact .declare
  | declareAs _ initial => exact .declareAs initial.hosted
  | block _ body => exact .block body
  | ifThen condition _ _ yes => exact .ifThen condition.hosted yes
  | ifElse condition _ _ _ _ _ yes no => exact .ifElse condition.hosted yes no
  | loop condition _ _ body => exact .loop condition.hosted body

/-! ### Steps -/

namespace Scopes.Hosted

variable {scopes : Scopes} {name : String} {value : Value} {id : Nat}

theorem local? (hosted : scopes.Hosted) (found : scopes.local? id name = some value) :
    value.Hosted := by
  obtain ⟨scope, here, bound⟩ := Option.bind_eq_some_iff.mp found
  obtain ⟨front, back, same, -⟩ := List.lookup_eq_some_iff.mp bound
  exact hosted id scope here (name, value) (by simp [same])

theorem get? (hosted : scopes.Hosted) (found : scopes.get? id name = some value) :
    value.Hosted := by
  obtain ⟨owner, -, bound⟩ := Option.bind_eq_some_iff.mp found
  exact hosted.local? bound

theorem rebind {bindings : List (String × Value)} (known : value.Hosted)
    (hosted : ∀ binding ∈ bindings, binding.2.Hosted) :
    ∀ binding ∈ rebind name value bindings, binding.2.Hosted := by
  induction bindings with
  | nil => exact List.forall_mem_singleton.mpr known
  | cons first bindings ih =>
    obtain ⟨here, rest⟩ := List.forall_mem_cons.mp hosted
    unfold Lox.rebind
    split
    · exact List.forall_mem_cons.mpr ⟨known, rest⟩
    · exact List.forall_mem_cons.mpr ⟨here, ih rest⟩

theorem define (hosted : scopes.Hosted) (known : value.Hosted) :
    (scopes.define id name value).Hosted := by
  intro other scope here
  unfold Scopes.define at here
  rw [Array.getElem?_modify] at here
  split at here
  · obtain ⟨scope, found, rfl⟩ := Option.map_eq_some_iff.mp here
    exact rebind known (hosted other scope found)
  · exact hosted other scope here

theorem assign? {changed : Scopes} (hosted : scopes.Hosted) (known : value.Hosted)
    (done : scopes.assign? id name value = some changed) : changed.Hosted := by
  obtain ⟨owner, -, rfl⟩ := Option.map_eq_some_iff.mp done
  exact hosted.define known

theorem new (hosted : scopes.Hosted) (enclosing : Option Nat) : (scopes.new enclosing).1.Hosted := by
  intro other scope here
  unfold Scopes.new at here
  rw [Array.getElem?_push] at here
  split at here
  · cases here
    exact nofun
  · exact hosted other scope here

theorem dropFrom (hosted : scopes.Hosted) (id : Nat) : (scopes.dropFrom id).Hosted := by
  intro other scope here
  apply hosted other scope
  unfold Scopes.dropFrom at here
  rw [← Array.getElem?_toList, Array.toList_shrink, List.getElem?_take] at here
  split at here
  · rwa [Array.getElem?_toList] at here
  · cases here

end Scopes.Hosted

/-! ### Side by side -/

/-- Programs without closures whose tokens and faults may differ in some way. The first is followed up to
some interrupts. -/
def Likeness.hosted (fault : Fault → Fault → Prop) (token : Token → Token → Prop)
    (excused : Interrupt → Prop) : Likeness where
  machine := Likeness.Same Machine.Hosted
  fault := fault
  value := Value.Hosted
  name := token
  mark := token
  excused := excused

namespace Likeness

section

variable {fault : Fault → Fault → Prop} {token : Token → Token → Prop} {excused : Interrupt → Prop}

/-- A step that keeps a machine without closures goes with itself. -/
theorem steps_hosted {α : Type} {known : α → Prop} {step : Run α}
    (keeps : ∀ machine : Machine, machine.Hosted → ∃ result after,
      step machine = .ok result after ∧ known result ∧ after.Hosted) :
    (hosted fault token excused).Steps known step step := by
  rintro machine _ ⟨rfl, hosted⟩
  obtain ⟨result, after, outcome, known, hosted⟩ := keeps machine hosted
  rw [outcome]
  exact .ok ⟨rfl, known⟩ ⟨rfl, hosted⟩

theorem acts_hosted {step : Run Unit}
    (keeps : ∀ machine : Machine, machine.Hosted → ∃ after,
      step machine = .ok () after ∧ after.Hosted) :
    (hosted fault token excused).Acts step step := by
  have steps : (hosted fault token excused).Steps (fun _ => True) step step := by
    apply steps_hosted
    intro machine hosted
    obtain ⟨after, outcome, hosted⟩ := keeps machine hosted
    exact ⟨(), after, outcome, trivial, hosted⟩
  exact steps.mono fun _ _ _ => trivial

/-- A native that is called on both sides does the same, if its faults correspond. -/
theorem invoke_hosted {like : Likeness} {library : Library} {target : Callable} {arguments : List Value}
    {execute perform : Stmt → Run Unit} (native : library.Hosted)
    (recorded : ∀ call, like.Acts (Run.record call) (Run.record call))
    (raised : ∀ {id : Nat} {arguments : List Value} {cause : FaultCause},
      (library.native id).act arguments = .error cause → like.fault ⟨cause, none⟩ ⟨cause, none⟩)
    (known : Value.Hosted (.callable target)) (all : ∀ value ∈ arguments, value.Hosted) :
    like.Steps Value.Hosted (invoke library execute target arguments)
      (invoke library perform target arguments) := by
  cases target with
  | closure => exact known.elim
  | native id name arity =>
    unfold invoke
    simp only
    refine .optional (recorded _) ?_
    cases outcome : (library.native id).act arguments with
    | ok value => exact .pure ⟨rfl, native id arguments value all outcome⟩
    | error cause => exact .throw (.fault (raised outcome))

/-- Steps do alike where tokens that correspond name the same, and faults at them correspond, and those
that natives raise. -/
theorem hosted_kept {library : Library} (native : library.Hosted)
    (named : ∀ {one other : Token}, token one other → other.lexeme = one.lexeme)
    (located : ∀ {one other : Token} (cause : FaultCause), token one other →
      fault ⟨cause, some one.line⟩ ⟨cause, some other.line⟩)
    (raised : ∀ {id : Nat} {arguments : List Value} {cause : FaultCause},
      (library.native id).act arguments = .error cause → fault ⟨cause, none⟩ ⟨cause, none⟩) :
    (hosted fault token excused).Kept library library where
  plain {value} plain := by
    cases value with
    | callable target => exact absurd rfl (plain target)
    | _ => trivial
  lexeme same := named same
  marked cause same _ := located cause same
  read {name other} same := by
    rintro machine _ ⟨rfl, hosted⟩
    unfold Run.read
    rw [named same]
    cases found : machine.scopes.get? machine.current name.lexeme with
    | some value => exact .ok ⟨rfl, hosted.get? found⟩ ⟨rfl, hosted⟩
    | none => exact .error (.fault (located _ same)) ⟨rfl, hosted⟩
  assign {name other value} same known := by
    rintro machine _ ⟨rfl, hosted⟩
    unfold Run.assign
    rw [named same]
    cases found : machine.scopes.assign? machine.current name.lexeme value with
    | some scopes => exact .ok trivial ⟨rfl, hosted.assign? known found⟩
    | none => exact .error (.fault (located _ same)) ⟨rfl, hosted⟩
  define {name other value} same known := by
    rw [named same]
    exact acts_hosted fun machine hosted => ⟨_, rfl, hosted.define known⟩
  print text := acts_hosted fun machine hosted => ⟨_, rfl, hosted⟩
  block {body others} acts := by
    rintro machine _ ⟨rfl, hosted⟩
    -- The scope of a block is empty at first, so it holds no closure either.
    have opened : Machine.Hosted { machine with
        scopes := (machine.scopes.new (some machine.current)).1
        current := (machine.scopes.new (some machine.current)).2 } :=
      Scopes.Hosted.new hosted (some machine.current)
    refine .inScope (acts _ _ ⟨rfl, opened⟩) (fun _ _ => id) (fun _ => id) ?_
    rintro after _ ⟨rfl, hosted⟩
    exact ⟨rfl, hosted.dropFrom _⟩
  invoke {target arguments execute perform} _ known all :=
    invoke_hosted native (fun _ => acts_hosted fun machine hosted => ⟨_, rfl, hosted⟩) raised known all

end

end Likeness

/-! ### Lines -/

section Lines

/-- Programs without closures whose tokens may differ in their lines. The first is followed up to some
interrupts. -/
def Likeness.lines (line : Int → Int → Prop) (excused : Interrupt → Prop) : Likeness where
  machine := Likeness.Same Machine.Hosted
  fault one other := other.cause = one.cause ∧ Option.Rel line one.line other.line
  value := Value.Hosted
  name one other := other.lexeme = one.lexeme ∧ line one.line other.line
  mark one other := other.lexeme = one.lexeme ∧ line one.line other.line
  excused := excused

variable {line : Int → Int → Prop} {excused : Interrupt → Prop}

theorem Likeness.lines_kept {library : Library} (native : library.Hosted) :
    (lines line excused).Kept library library :=
  hosted_kept native (fun same => same.1) (fun _ same => ⟨rfl, .some same.2⟩) fun _ => ⟨rfl, .none⟩

variable {token : Token → Token}

/-- An expression goes with the same expression on other lines. -/
theorem Expr.Hosted.like {expr : Expr} (hosted : expr.Hosted)
    (same : ∀ one, (Likeness.lines line excused).mark one (token one)) :
    expr.Like (.lines line excused) (expr.rebuild token id) := by
  induction hosted with
  | literal known => exact .literal known
  | name => exact .name (same _)
  | grouping _ inner => exact .grouping inner
  | unary _ operand => exact .unary (same _) operand
  | assign _ value => exact .assign (same _) value
  | binary _ _ left right => exact .binary (same _) left right
  | logical _ _ left right => exact .logical (same _) left right
  | call _ _ callee arguments =>
    rw [Expr.rebuild, Expr.rebuildAll_eq_map]
    refine .call callee (same _) ?_
    rw [List.forall₂_map_right_iff, List.forall₂_same]
    exact arguments

/-- A statement goes with the same statement on other lines. -/
theorem Stmt.Hosted.like {stmt : Stmt} (hosted : stmt.Hosted)
    (same : ∀ one, (Likeness.lines line excused).mark one (token one)) :
    stmt.Like (.lines line excused) (stmt.rebuild token (Expr.rebuild token id)) := by
  induction hosted with
  | expression value => exact .expression (value.like same)
  | print value => exact .print (value.like same)
  | declare => exact .declare (same _)
  | declareAs initial => exact .declareAs (same _) (initial.like same)
  | block _ body =>
    rw [Stmt.rebuild_block]
    refine .block ?_
    rw [List.forall₂_map_right_iff, List.forall₂_same]
    exact body
  | ifThen condition _ yes => exact .ifThen (condition.like same) yes
  | ifElse condition _ _ yes no => exact .ifElse (condition.like same) yes no
  | loop condition _ body => exact .loop (condition.like same) body

/-- An expression without closures goes with itself. -/
theorem Expr.Hosted.like_self {expr : Expr} (hosted : expr.Hosted) (same : ∀ number, line number number) :
    expr.Like (.lines line excused) expr := by
  have alike : expr.Like (.lines line excused) (expr.rebuild id id) :=
    hosted.like fun one => ⟨rfl, same one.line⟩
  rwa [Expr.rebuild_id] at alike

/-- A statement without closures goes with itself. -/
theorem Stmt.Hosted.like_self {stmt : Stmt} (hosted : stmt.Hosted) (same : ∀ number, line number number) :
    stmt.Like (.lines line excused) stmt := by
  have alike : stmt.Like (.lines line excused) (stmt.rebuild id (Expr.rebuild id id)) :=
    hosted.like fun one => ⟨rfl, same one.line⟩
  rwa [show Expr.rebuild id id = id from funext Expr.rebuild_id, Stmt.rebuild_id] at alike

end Lines

end Lox
