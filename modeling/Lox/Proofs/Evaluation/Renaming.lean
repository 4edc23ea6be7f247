import Lox.Proofs.Evaluation.Hosted

/-!
# Renaming variables

Names of variables are only ever compared. Where different names stay different, a program without
closures whose variables are renamed does on the renamed bindings what it did before. What changes is
the name in a fault about a variable that is not bound.
-/
namespace Lox

/-! ### What is renamed -/

/-- A token that names a variable, with another name. -/
def Token.rename (names : String → String) (token : Token) : Token :=
  { token with lexeme := names token.lexeme }

/-- A node with the variable that it names, if it names one, renamed. -/
def Expr.renameNode (names : String → String) : Expr → Expr
  | .name token => .name (token.rename names)
  | .assign target value => .assign (target.rename names) value
  | other => other

/-- An expression with its variables renamed. Operators are not. -/
def Expr.rename (names : String → String) : Expr → Expr := rebuild id (renameNode names)

/-- A statement with its variables renamed. -/
def Stmt.rename (names : String → String) : Stmt → Stmt := rebuild (Token.rename names) (Expr.rename names)

def Scope.rename (names : String → String) (scope : Scope) : Scope :=
  { scope with bindings := scope.bindings.map fun (name, value) => (names name, value) }

def Scopes.rename (names : String → String) (scopes : Scopes) : Scopes :=
  ⟨scopes.all.map (Scope.rename names)⟩

/-- A machine with the names in all its scopes renamed. -/
def Machine.rename (names : String → String) (machine : Machine) : Machine :=
  { machine with scopes := machine.scopes.rename names }

/-- A fault of a program, and that of the program whose variables are renamed. A fault at no line is that
of a native, which does not know of variables. -/
inductive Fault.Renamed (names : String → String) : Fault → Fault → Prop where
  | undefined (name : String) (line : Int) :
      Renamed names ⟨.undefinedVariable name, some line⟩ ⟨.undefinedVariable (names name), some line⟩
  | marked {cause : FaultCause} (line : Int) :
      cause.OfMark → Renamed names ⟨cause, some line⟩ ⟨cause, some line⟩
  | host (cause : FaultCause) : Renamed names ⟨cause, none⟩ ⟨cause, none⟩

section

variable {names : String → String}

/-! ### Bindings -/

variable (injective : Function.Injective names)
include injective

theorem lookup_rename (name : String) (bindings : List (String × Value)) :
    (bindings.map fun (bound, value) => (names bound, value)).lookup (names name) =
      bindings.lookup name := by
  induction bindings with
  | nil => rfl
  | cons binding bindings ih =>
    obtain ⟨bound, value⟩ := binding
    have compared : (names name == names bound) = (name == bound) := by
      apply Bool.eq_iff_iff.mpr
      simp only [beq_iff_eq, injective.eq_iff]
    simp only [List.map_cons, List.lookup_cons, compared, ih]

theorem rebind_rename (name : String) (value : Value) (bindings : List (String × Value)) :
    rebind (names name) value (bindings.map fun (bound, old) => (names bound, old)) =
      (rebind name value bindings).map fun (bound, old) => (names bound, old) := by
  induction bindings with
  | nil => rfl
  | cons binding bindings ih =>
    obtain ⟨bound, old⟩ := binding
    simp only [List.map_cons, rebind, injective.eq_iff, ih]
    split <;> rfl

namespace Scopes

variable (scopes : Scopes) (id : Nat) (name : String) (value : Value)

omit injective in
theorem chain_rename : (scopes.rename names).chain id = scopes.chain id := by
  unfold chain rename
  rw [Array.getElem?_map]
  cases scopes.all[id]? <;> rfl

theorem local?_rename : (scopes.rename names).local? id (names name) = scopes.local? id name := by
  unfold local? rename
  rw [Array.getElem?_map, Option.bind_map]
  exact congrArg _ (funext fun scope => lookup_rename injective name scope.bindings)

theorem owner?_rename : (scopes.rename names).owner? id (names name) = scopes.owner? id name := by
  unfold owner? declares
  simp only [chain_rename, local?_rename injective]

theorem get?_rename : (scopes.rename names).get? id (names name) = scopes.get? id name := by
  unfold get?
  simp only [owner?_rename injective, local?_rename injective]

theorem define_rename : (scopes.rename names).define id (names name) value =
    (scopes.define id name value).rename names := by
  unfold define rename
  congr 1
  apply Array.ext_getElem?
  intro other
  simp only [Array.getElem?_modify, Array.getElem?_map]
  split
  · simp only [Option.map_map]
    exact congrArg (Option.map · _) (funext fun scope =>
      congrArg (Scope.mk · scope.outer) (rebind_rename injective name value scope.bindings))
  · rfl

theorem assign?_rename : (scopes.rename names).assign? id (names name) value =
    (scopes.assign? id name value).map (rename names) := by
  unfold assign?
  rw [owner?_rename injective, Option.map_map]
  exact congrArg (Option.map · _) (funext fun owner => define_rename injective scopes owner name value)

omit injective

theorem new_rename (enclosing : Option Nat) : (scopes.rename names).new enclosing =
    ((scopes.new enclosing).1.rename names, (scopes.new enclosing).2) := by
  have outer (id : Nat) : ((scopes.rename names).all[id]?.map Scope.outer).getD [] =
      (scopes.all[id]?.map Scope.outer).getD [] := by
    unfold rename
    rw [Array.getElem?_map, Option.map_map]
    rfl
  unfold new
  simp only [outer]
  simp [rename, Array.map_push, Scope.rename]

theorem size_rename : (scopes.rename names).all.size = scopes.all.size := Array.size_map

theorem dropFrom_rename : (scopes.rename names).dropFrom id = (scopes.dropFrom id).rename names := by
  simp [dropFrom, rename]

end Scopes

end

theorem leave_rename {names : String → String} (before after : Machine) :
    Run.leave (before.rename names) (after.rename names) = (Run.leave before after).rename names := by
  simp [Run.leave, Machine.rename, Scopes.dropFrom_rename, Scopes.size_rename]

/-! ### Side by side -/

/-- A program without closures, and the same program with its variables renamed. -/
def Likeness.renamed (names : String → String) : Likeness where
  machine one other := other = one.rename names ∧ one.Hosted
  fault := Fault.Renamed names
  value := Value.Hosted
  name one other := other = one.rename names
  mark one other := other = one
  excused _ := False

namespace Likeness

variable {names : String → String}

/-- A step that does the same on renamed bindings, and keeps a machine without closures. -/
theorem acts_renamed {one other : Run Unit} (keeps : ∀ machine : Machine, machine.Hosted → ∃ after,
      one machine = .ok () after ∧ other (machine.rename names) = .ok () (after.rename names) ∧
        after.Hosted) :
    (renamed names).Acts one other := by
  rintro machine _ ⟨rfl, hosted⟩
  obtain ⟨after, left, right, hosted⟩ := keeps machine hosted
  rw [left, right]
  exact .ok trivial ⟨rfl, hosted⟩

/-- No step of a machine tells names apart but by comparing them. -/
theorem renamed_kept {library : Library} (injective : Function.Injective names)
    (native : library.Hosted) : (renamed names).Kept library library where
  plain {value} plain := by
    cases value with
    | callable target => exact absurd rfl (plain target)
    | _ => trivial
  lexeme same := congrArg Token.lexeme same
  marked cause same own := by
    subst same
    exact .marked _ own
  read {name _} same := by
    subst same
    rintro machine _ ⟨rfl, hosted⟩
    unfold Run.read Machine.rename
    simp only [Token.rename, Scopes.get?_rename injective]
    cases found : machine.scopes.get? machine.current name.lexeme with
    | some value => exact .ok ⟨rfl, hosted.get? found⟩ ⟨rfl, hosted⟩
    | none => exact .error (.fault (.undefined _ _)) ⟨rfl, hosted⟩
  assign {name _ value} same known := by
    subst same
    rintro machine _ ⟨rfl, hosted⟩
    unfold Run.assign Machine.rename
    simp only [Token.rename, Scopes.assign?_rename injective]
    cases found : machine.scopes.assign? machine.current name.lexeme value with
    | some scopes => exact .ok trivial ⟨rfl, hosted.assign? known found⟩
    | none => exact .error (.fault (.undefined _ _)) ⟨rfl, hosted⟩
  define {name _ value} same known := by
    subst same
    refine acts_renamed fun machine hosted => ⟨_, rfl, ?_, hosted.define known⟩
    unfold Run.define Machine.rename
    simp only [Token.rename, Scopes.define_rename injective]
  print text := acts_renamed fun machine hosted => ⟨_, rfl, rfl, hosted⟩
  block {body others} acts := by
    rintro machine _ ⟨rfl, hosted⟩
    have opened : Machine.Hosted { machine with
        scopes := (machine.scopes.new (some machine.current)).1
        current := (machine.scopes.new (some machine.current)).2 } :=
      Scopes.Hosted.new hosted (some machine.current)
    -- Scopes are numbered alike on both sides, so a block opens and closes the same one.
    refine .inScope (acts _ _ ⟨?_, opened⟩) (fun _ _ => id) (fun _ => id) ?_
    · simp only [Machine.rename, Scopes.new_rename]
    · rintro after _ ⟨rfl, hosted⟩
      exact ⟨leave_rename _ _, hosted.dropFrom _⟩
  invoke _ known all :=
    invoke_hosted native (fun _ => acts_renamed fun machine hosted => ⟨_, rfl, rfl, hosted⟩)
      (fun _ => .host _) known all

end Likeness

section

variable {names : String → String}

/-- An expression goes with the one whose variables are renamed. -/
theorem Expr.Hosted.renamed {expr : Expr} (hosted : expr.Hosted) :
    expr.Like (.renamed names) (expr.rename names) := by
  induction hosted with
  | literal known => exact .literal known
  | name => exact .name rfl
  | grouping _ inner => exact .grouping inner
  | unary _ operand => exact .unary rfl operand
  | assign _ value => exact .assign rfl value
  | binary _ _ left right => exact .binary rfl left right
  | logical _ _ left right => exact .logical rfl left right
  | call _ _ callee arguments =>
    unfold Expr.rename
    rw [Expr.rebuild, Expr.rebuildAll_eq_map]
    refine .call callee rfl ?_
    rw [List.forall₂_map_right_iff, List.forall₂_same]
    exact arguments

/-- A statement goes with the one whose variables are renamed. -/
theorem Stmt.Hosted.renamed {stmt : Stmt} (hosted : stmt.Hosted) :
    stmt.Like (.renamed names) (stmt.rename names) := by
  induction hosted with
  | expression value => exact .expression value.renamed
  | print value => exact .print value.renamed
  | declare => exact .declare rfl
  | declareAs initial => exact .declareAs rfl initial.renamed
  | block _ body =>
    unfold Stmt.rename
    rw [Stmt.rebuild_block]
    refine .block ?_
    rw [List.forall₂_map_right_iff, List.forall₂_same]
    exact body
  | ifThen condition _ yes => exact .ifThen condition.renamed yes
  | ifElse condition _ _ yes no => exact .ifElse condition.renamed yes no
  | loop condition _ body => exact .loop condition.renamed body

end

end Lox
