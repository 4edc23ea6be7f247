import Lox.Proofs.Evaluation.Footprint

/-!
# One program on two machines

A program is run from two machines that correspond in one way or another. The way may be another one inside
a block, and a name cannot be bound in all of them. Once the steps of a machine keep each way, evaluation
does, and so does the execution of statements that bind names only where they can be bound.
-/
namespace Lox

/-- Ways in which two machines correspond while a program runs from both. -/
structure Lockstep (ι : Type) where
  state : ι → Machine → Machine → Prop
  /-- Whether names can be bound. -/
  binds : ι → Prop
  /-- The interrupts after which the first run is not followed any further. -/
  excused : Interrupt → Prop

namespace Lockstep

variable {ι α : Type} {lock : Lockstep ι} {way : ι} {library : Library} {patience stack more : Nat}

/-- Runs side by side in one of the ways. -/
def pairing (lock : Lockstep ι) (way : ι) : Pairing Interrupt Interrupt Machine Machine :=
  ⟨lock.state way, Eq, lock.excused⟩

/-- Side by side, two steps have the same result or the same interrupt. -/
abbrev Steps (lock : Lockstep ι) (way : ι) (one other : Run α) : Prop :=
  (lock.pairing way).Runs Eq one other

/-- What the steps of machines have to keep. -/
structure Kept (lock : Lockstep ι) (library : Library) : Prop where
  read (way : ι) (name : Token) : lock.Steps way (Run.read name) (Run.read name)
  assign (way : ι) (name : Token) (value : Value) :
    lock.Steps way (Run.assign name value) (Run.assign name value)
  define {way : ι} (name : String) (value : Value) :
    lock.binds way → lock.Steps way (Run.define name value) (Run.define name value)
  ownValue {way : ι} (name : String) :
    lock.binds way → lock.Steps way (Run.ownValue name) (Run.ownValue name)
  print (way : ι) (text : String) : lock.Steps way (Run.print text) (Run.print text)
  record (way : ι) (call : Call) : lock.Steps way (Run.record call) (Run.record call)
  /-- Inside a block, names can be bound. -/
  block {way : ι} {body twin : Run Unit} :
    (∀ inside, lock.binds inside → lock.Steps inside body twin) →
    lock.Steps way (Run.inBlock body) (Run.inBlock twin)
  closure {way : ι} {body twin : Run Value} (id : Nat) :
    (∀ inside, lock.binds inside → lock.Steps inside body twin) →
    lock.Steps way (Run.inScope (library.closure id).captured body)
      (Run.inScope (library.closure id).captured twin)

/-! ### One step after another -/

theorem Steps.forM {κ : Type} {items : List κ} {step pace : κ → Run Unit}
    (each : ∀ item, lock.Steps way (step item) (pace item)) :
    lock.Steps way (items.forM step) (items.forM pace) := by
  have runs : (lock.pairing way).Runs (fun _ _ => True) (items.forM step) (items.forM pace) :=
    .forM_self fun item _ => (each item).mono fun _ _ _ => trivial
  exact runs.mono fun _ _ _ => rfl

theorem Steps.discard {one other : Run α} (steps : lock.Steps way one other) :
    lock.Steps way (discard one : Run Unit) (Functor.discard other) :=
  steps.map fun _ _ _ => rfl

theorem Steps.truthy {one other : Run Value} (steps : lock.Steps way one other) :
    lock.Steps way (Value.truthy <$> one) (Value.truthy <$> other) :=
  steps.map fun _ _ same => congrArg Value.truthy same

theorem Steps.repeatWhile {condition test : Run Bool} {body twin : Run Unit}
    (tests : lock.Steps way condition test) (bodies : lock.Steps way body twin) (rounds : Nat) :
    lock.Steps way (Run.repeatWhile condition body rounds) (Run.repeatWhile test twin rounds) := by
  induction rounds with
  | zero => exact .throw rfl
  | succ rounds ih =>
    apply Pairing.Runs.bind tests
    rintro holds _ rfl
    cases holds with
    | false => exact .pure rfl
    | true => exact .bind bodies fun _ _ _ => ih

theorem Steps.lift (outcome : Except Fault α) :
    lock.Steps way (Run.lift outcome) (Run.lift outcome) := by
  cases outcome with
  | ok result => exact .pure rfl
  | error fault => exact .throw rfl

/-! ### Whole programs -/

theorem Kept.invoke (kept : lock.Kept library) {execute perform : Stmt → Run Unit}
    (each : ∀ inside, lock.binds inside → ∀ stmt, lock.Steps inside (execute stmt) (perform stmt))
    (way : ι) (target : Callable) (arguments : List Value) :
    lock.Steps way (invoke library execute target arguments) (invoke library perform target arguments) := by
  cases target with
  | native id name arity =>
    have recorded := (kept.record way ⟨name, arguments⟩).mono fun _ _ _ => trivial
    unfold Lox.invoke
    simp only
    refine .optional recorded ?_
    cases (library.native id).act arguments with
    | ok value => exact .pure rfl
    | error cause => exact .throw rfl
  | closure id name arity =>
    refine kept.closure id fun inside bound => ?_
    refine .bind (Steps.forM fun _ => kept.define _ _ bound) fun _ _ _ => ?_
    exact .bind (Steps.forM (each inside bound)) fun _ _ _ => kept.ownValue resultName bound

section

variable (values : ∀ way expr, lock.Steps way (evaluate library patience stack expr)
    (evaluate library patience more expr))
  (acts : ∀ way stmt, lock.binds way ∨ stmt.declared = [] →
    lock.Steps way (execute library patience stack stmt) (execute library patience more stmt))

include values acts

/-- What a level of the stack less keeps, the evaluation of an expression keeps. -/
theorem Kept.evaluate_succ (kept : lock.Kept library) (way : ι) (expr : Expr) :
    lock.Steps way (evaluate library patience (stack + 1) expr)
      (evaluate library patience (more + 1) expr) := by
  cases expr with
  | literal value => exact .pure rfl
  | name token => exact kept.read way token
  | grouping inner => exact values way inner
  | unary op operand =>
    apply Pairing.Runs.bind (values way operand)
    rintro value _ rfl
    exact Steps.lift _
  | assign target value =>
    apply Pairing.Runs.bind (values way value)
    rintro value _ rfl
    exact .bind (kept.assign way target value) fun _ _ _ => .pure rfl
  | binary op left right =>
    apply Pairing.Runs.bind (values way left)
    rintro first _ rfl
    apply Pairing.Runs.bind (values way right)
    rintro second _ rfl
    exact Steps.lift _
  | logical op left right =>
    apply Pairing.Runs.bind (values way left)
    rintro first _ rfl
    split
    · exact .pure rfl
    · exact values way right
  | call callee closing arguments =>
    apply Pairing.Runs.bind (values way callee)
    rintro value _ rfl
    cases value with
    | callable target =>
      refine .bind (.mapM_self fun expr _ => values way expr) fun given _ same => ?_
      rw [List.forall₂_eq_eq_eq] at same
      subst same
      split
      -- A closure runs in a scope of its own, where names can be bound.
      · exact kept.invoke (fun inside bound stmt => acts inside stmt (.inl bound)) way target given
      · exact .throw rfl
    | _ => exact .throw rfl

/-- What a level of the stack less keeps, the execution of a statement keeps. -/
theorem Kept.execute_succ (kept : lock.Kept library) (way : ι) (stmt : Stmt)
    (allowed : lock.binds way ∨ stmt.declared = []) :
    lock.Steps way (execute library patience (stack + 1) stmt)
      (execute library patience (more + 1) stmt) := by
  cases stmt with
  | expression value => exact .discard (values way value)
  | print value =>
    apply Pairing.Runs.bind (values way value)
    rintro value _ rfl
    exact kept.print way value.printed
  | declare target initial =>
    have bound : lock.binds way := allowed.resolve_right (List.cons_ne_nil _ _)
    cases initial with
    | none => exact kept.define _ .nil bound
    | some initial =>
      apply Pairing.Runs.bind (values way initial)
      rintro value _ rfl
      exact kept.define _ value bound
  | block body => exact kept.block fun inside bound => .forM fun stmt => acts inside stmt (.inl bound)
  -- The parts of a branch are executed in its own scope, so they may declare what it may.
  | branch condition yes no =>
    apply Pairing.Runs.bind (values way condition)
    rintro value _ rfl
    cases no with
    | none =>
      split
      · exact acts way yes allowed
      · exact .pure rfl
    | some no =>
      have first := allowed.imp_right fun none => (List.append_eq_nil_iff.mp none).1
      have second := allowed.imp_right fun none => (List.append_eq_nil_iff.mp none).2
      split
      · exact acts way yes first
      · exact acts way no second
  | loop condition body =>
    exact .repeatWhile (.truthy (values way condition)) (acts way body allowed) patience

end

/-- What the steps of machines keep, evaluation and execution keep, also with more levels of the stack on
the second machine if the first run is excused where it has no more. -/
theorem Kept.runs (kept : lock.Kept library) (deep : stack ≤ more)
    (overflow : stack < more → lock.excused .overflow) :
    (∀ way expr, lock.Steps way (evaluate library patience stack expr)
      (evaluate library patience more expr)) ∧
    ∀ way stmt, lock.binds way ∨ stmt.declared = [] →
      lock.Steps way (execute library patience stack stmt) (execute library patience more stmt) := by
  -- The stack bounds trees and closures alike: a closure's body is executed with what is left of it.
  induction stack generalizing more with
  | zero =>
    cases more with
    | zero => exact ⟨fun _ _ => .throw rfl, fun _ _ _ => .throw rfl⟩
    | succ more =>
      have excused := overflow (Nat.succ_pos more)
      exact ⟨fun _ _ => .excuse excused, fun _ _ _ => .excuse excused⟩
  | succ stack ih =>
    obtain ⟨more, rfl⟩ : ∃ less, more = less + 1 := ⟨more - 1, by omega⟩
    obtain ⟨values, acts⟩ := ih (Nat.le_of_succ_le_succ deep) fun less => overflow (Nat.succ_lt_succ less)
    exact ⟨kept.evaluate_succ values acts, kept.execute_succ values acts⟩

theorem Kept.evaluate (kept : lock.Kept library) (patience stack : Nat) (way : ι) (expr : Expr) :
    lock.Steps way (Lox.evaluate library patience stack expr) (Lox.evaluate library patience stack expr) :=
  (kept.runs (Nat.le_refl stack) fun less => absurd less (Nat.lt_irrefl _)).1 way expr

theorem Kept.execute (kept : lock.Kept library) (patience stack : Nat) {stmt : Stmt}
    (allowed : lock.binds way ∨ stmt.declared = []) :
    lock.Steps way (Lox.execute library patience stack stmt) (Lox.execute library patience stack stmt) :=
  (kept.runs (Nat.le_refl stack) fun less => absurd less (Nat.lt_irrefl _)).2 way stmt allowed

/-! ### More levels of the stack -/

/-- A program twice on one machine, the second time with more levels of the stack. -/
def deeper : Lockstep Unit where
  state _ := Eq
  binds _ := True
  excused interrupt := interrupt = .overflow

theorem deeper_refl (step : Run α) : deeper.Steps () step step := by
  rintro machine _ rfl
  cases step machine with
  | ok => exact .ok rfl rfl
  | error => exact .error rfl rfl

theorem Steps.inScope {body twin : Run α} (steps : deeper.Steps () body twin) (enclosing : Nat) :
    deeper.Steps () (Run.inScope enclosing body) (Run.inScope enclosing twin) := by
  rintro machine _ rfl
  exact .inScope (steps _ _ rfl) (fun _ _ => id) (fun _ => id) fun _ _ fits => congrArg _ fits

theorem Steps.inBlock {body twin : Run α} (steps : deeper.Steps () body twin) :
    deeper.Steps () (Run.inBlock body) (Run.inBlock twin) := by
  rintro machine _ rfl
  exact steps.inScope machine.current machine machine rfl

theorem deeper_kept (library : Library) : deeper.Kept library where
  read _ _ := deeper_refl _
  assign _ _ _ := deeper_refl _
  define _ _ _ := deeper_refl _
  ownValue _ _ := deeper_refl _
  print _ _ := deeper_refl _
  record _ _ := deeper_refl _
  block steps := (steps () trivial).inBlock
  closure id steps := (steps () trivial).inScope (library.closure id).captured

theorem deeper_evaluate (library : Library) (patience : Nat) (expr : Expr) (deep : stack ≤ more) :
    deeper.Steps () (evaluate library patience stack expr) (evaluate library patience more expr) :=
  ((deeper_kept library).runs deep fun _ => rfl).1 () expr

theorem deeper_execute (library : Library) (patience : Nat) (stmt : Stmt) (deep : stack ≤ more) :
    deeper.Steps () (execute library patience stack stmt) (execute library patience more stmt) :=
  ((deeper_kept library).runs deep fun _ => rfl).2 () stmt (.inl trivial)

end Lockstep

/-- A run did not stop because the stack was used up. -/
def Run.Sufficed {α : Type} : EStateM.Result Interrupt Machine α → Prop
  | .error .overflow _ => False
  | _ => True

instance {α : Type} (outcome : EStateM.Result Interrupt Machine α) : Decidable (Run.Sufficed outcome) :=
  match outcome with
  | .error .overflow _ => .isFalse id
  | .error .unfinished _ | .error (.fault _) _ | .ok _ _ => .isTrue trivial

/-- With more levels of the stack, a run for which the stack sufficed comes to the same. -/
theorem Lockstep.Steps.eq {α : Type} {one other : Run α} (steps : deeper.Steps () one other)
    (machine : Machine) (sufficed : Run.Sufficed (one machine)) : other machine = one machine := by
  have outcome := steps machine machine rfl
  generalize one machine = left, other machine = right at outcome sufficed ⊢
  cases outcome with
  | ok same fits => rw [same, fits]
  | error same fits => rw [same, fits]
  | excused excused =>
    subst excused
    exact sufficed.elim

end Lox
