import Lox.Proofs.Evaluation.Chains

/-!
# Flat and enclosed stores

A flat store has one frame where an enclosed store has two, and the flat one holds what is seen of the two:
the inner laid over the outer. A program that binds names anew, changes them or reads them goes alike from
both, as it sees no difference. What it binds outside its own blocks goes to the inner frame of the
enclosed store, and is gone when that frame is left.
-/
namespace Lox.Frames

/-! ### One frame for two -/

/-- `Overlaid depth flat enclosed`: behind so many frames that both have, one frame of the first is two of
the second, the inner laid over the outer. -/
inductive Overlaid : Nat → List Frame → List Frame → Prop where
  | base {inner outer : Frame} {rest : List Frame} :
      Overlaid 0 ((inner ∪ outer) :: rest) (inner :: outer :: rest)
  | cons {depth : Nat} {frame : Frame} {flat enclosed : List Frame} :
      Overlaid depth flat enclosed → Overlaid (depth + 1) (frame :: flat) (frame :: enclosed)

namespace Overlaid

variable {depth : Nat} {flat enclosed : List Frame}

/-- A name that the inner frame does not hold is changed in the outer one. -/
theorem insert_union_right {inner outer : Frame} {name : String} (value : Value)
    (missing : name ∉ inner) : (inner ∪ outer).insert name value = inner ∪ outer.insert name value := by
  refine Finmap.ext_lookup fun other => ?_
  by_cases same : other = name
  · subst same
    rw [Finmap.lookup_insert, Finmap.lookup_union_right missing, Finmap.lookup_insert]
  · rw [Finmap.lookup_insert_of_ne _ same]
    by_cases held : other ∈ inner
    · rw [Finmap.lookup_union_left held, Finmap.lookup_union_left held]
    · rw [Finmap.lookup_union_right held, Finmap.lookup_union_right held,
        Finmap.lookup_insert_of_ne _ same]

/-- An empty frame inside another adds nothing to it. -/
theorem empty (frame : Frame) (rest : List Frame) : Overlaid 0 (frame :: rest) (∅ :: frame :: rest) := by
  have below : Overlaid 0 ((∅ ∪ frame) :: rest) (∅ :: frame :: rest) := base
  rwa [Finmap.empty_union] at below

/-- A name has the same value in both. -/
theorem find?_eq (overlaid : Overlaid depth flat enclosed) (name : String) :
    find? name enclosed = find? name flat := by
  induction overlaid with
  | @base inner outer rest =>
    simp only [find?, List.findSome?_cons]
    by_cases held : name ∈ inner
    · obtain ⟨value, found⟩ := Finmap.mem_iff.mp held
      rw [Finmap.lookup_union_left held, found]
    · rw [Finmap.lookup_union_right held, Finmap.lookup_eq_none.mpr held]
  | cons _ ih =>
    unfold find? at ih ⊢
    rw [List.findSome?_cons, List.findSome?_cons, ih]

/-- A name that can be changed in one can be changed in the other. -/
theorem change? (overlaid : Overlaid depth flat enclosed) (name : String) (value : Value) :
    Option.Rel (Overlaid depth) (Frames.change? name value flat) (Frames.change? name value enclosed) := by
  induction overlaid with
  | @base inner outer rest =>
    simp only [Frames.change?, Finmap.mem_union]
    by_cases held : name ∈ inner
    · rw [if_pos (.inl held), if_pos held, Finmap.insert_union]
      exact .some base
    by_cases around : name ∈ outer
    · rw [if_pos (.inr around), if_neg held, if_pos around, insert_union_right value held]
      exact .some base
    · rw [if_neg (not_or.mpr ⟨held, around⟩), if_neg held, if_neg around]
      cases Frames.change? name value rest with
      | none => exact .none
      | some rest => exact .some base
  | @cons _ frame flat enclosed overlaid ih =>
    simp only [Frames.change?]
    split
    · exact .some overlaid.cons
    · generalize Frames.change? name value flat = one, Frames.change? name value enclosed = other at ih ⊢
      cases ih with
      | none => exact .none
      | some overlaid => exact .some overlaid.cons

end Overlaid

/-! ### Stores -/

/-- Stores that differ in that a frame of one, inside of which there are so many, is two of the other. -/
structure Store.Enclosed (depth : Nat) (flat enclosed : Store) : Prop where
  frames : Overlaid depth flat.frames enclosed.frames
  output : enclosed.output = flat.output
  calls : enclosed.calls = flat.calls

namespace Store.Enclosed

variable {depth : Nat} {flat enclosed : Store}

theorem bind (fits : Enclosed depth flat enclosed) (name : String) (value : Value) :
    Enclosed depth (flat.bind name value) (enclosed.bind name value) := by
  obtain ⟨frames, output, calls⟩ := fits
  obtain ⟨_, _, _⟩ := flat
  obtain ⟨_, _, _⟩ := enclosed
  cases frames with
  | base =>
    refine ⟨?_, output, calls⟩
    simp only [Store.bind, Finmap.insert_union]
    exact .base
  | cons overlaid => exact ⟨overlaid.cons, output, calls⟩

theorem print (fits : Enclosed depth flat enclosed) (text : String) :
    Enclosed depth (flat.print text) (enclosed.print text) :=
  ⟨fits.frames, by rw [Store.print, Store.print, fits.output], fits.calls⟩

theorem enter (fits : Enclosed depth flat enclosed) :
    Enclosed (depth + 1) flat.enter enclosed.enter :=
  ⟨fits.frames.cons, fits.output, fits.calls⟩

theorem leave (fits : Enclosed (depth + 1) flat enclosed) :
    Enclosed depth flat.leave enclosed.leave := by
  obtain ⟨frames, output, calls⟩ := fits
  obtain ⟨_, _, _⟩ := flat
  obtain ⟨_, _, _⟩ := enclosed
  cases frames with
  | cons overlaid => exact ⟨overlaid, output, calls⟩

end Store.Enclosed

/-! ### Expressions -/

/-- A program from a flat store beside the same from an enclosed one. -/
def enclosing (depth : Nat) : Pairing Fault Fault Store Store where
  state := Store.Enclosed depth
  error := Eq
  excused _ := False

section

variable {host : Nat → Native} {depth : Nat}

theorem runs_read (name : Token) : (enclosing depth).Runs Eq (read name) (read name) := by
  intro flat enclosed fits
  unfold read
  rw [fits.frames.find?_eq]
  cases find? name.lexeme flat.frames with
  | some value => exact .ok rfl fits
  | none => exact .error rfl fits

theorem runs_change (name : Token) (value : Value) :
    (enclosing depth).Runs Eq (assign name value) (assign name value) := by
  intro flat enclosed fits
  have changed := fits.frames.change? name.lexeme value
  unfold assign
  generalize change? name.lexeme value flat.frames = one,
    change? name.lexeme value enclosed.frames = other at changed
  cases changed with
  | none => exact .error rfl fits
  | some overlaid => exact .ok rfl ⟨overlaid, fits.output, fits.calls⟩

theorem runs_lift (outcome : Except Fault Value) : (enclosing depth).Runs Eq (lift outcome) (lift outcome) := by
  cases outcome with
  | ok value => exact .pure rfl
  | error fault => exact .throw rfl

theorem runs_call (target : Callable) (arguments : List Value) :
    (enclosing depth).Runs Eq (call host target arguments) (call host target arguments) := by
  cases target with
  | closure => exact .pure rfl
  | native id name arity =>
    have recorded : (enclosing depth).Runs (fun _ _ => True)
        (modify fun store => { store with calls := store.calls.push ⟨name, arguments⟩ } : Walk PUnit)
        (modify fun store => { store with calls := store.calls.push ⟨name, arguments⟩ }) := by
      intro flat enclosed fits
      refine .ok trivial ⟨fits.frames, fits.output, ?_⟩
      simp only [fits.calls]
    unfold call
    simp only
    refine .optional recorded ?_
    cases (host id).act arguments with
    | ok value => exact .pure rfl
    | error cause => exact .throw rfl

/-- An expression has the same value or the same fault in both stores. -/
theorem runs_evaluate (expr : Expr) : (enclosing depth).Runs Eq (evaluate host expr) (evaluate host expr) := by
  induction expr using Expr.induction with
  | literal value => exact .pure rfl
  | name token => exact runs_read token
  | grouping inner ih => exact ih
  | unary op operand ih =>
    apply Pairing.Runs.bind ih
    rintro value _ rfl
    exact runs_lift _
  | assign target value ih =>
    apply Pairing.Runs.bind ih
    rintro value _ rfl
    exact .bind (runs_change target value) fun _ _ _ => .pure rfl
  | binary op left right first second =>
    apply Pairing.Runs.bind first
    rintro one _ rfl
    apply Pairing.Runs.bind second
    rintro two _ rfl
    exact runs_lift _
  | logical op left right first second =>
    apply Pairing.Runs.bind first
    rintro one _ rfl
    split
    · exact .pure rfl
    · exact second
  | call callee closing arguments first each =>
    apply Pairing.Runs.bind first
    rintro value _ rfl
    cases value with
    | callable target =>
      rw [evaluateAll_eq_mapM]
      refine .bind (.mapM_self each) fun given _ same => ?_
      rw [List.forall₂_eq_eq_eq] at same
      subst same
      split
      · exact runs_call target given
      · exact .throw rfl
    | _ => exact .throw rfl

/-! ### Statements -/

variable {stmts : List Stmt} {expr : Expr} {flat enclosed after : Store}

theorem evaluate_ok {value : Value} (fits : Store.Enclosed depth flat enclosed)
    (found : evaluate host expr flat = .ok value after) :
    ∃ beyond, evaluate host expr enclosed = .ok value beyond ∧ Store.Enclosed depth after beyond := by
  have step := @runs_evaluate host depth expr flat enclosed fits
  rw [found] at step
  generalize evaluate host expr enclosed = right at step
  cases step with
  | ok same fits =>
    subst same
    exact ⟨_, rfl, fits⟩

theorem evaluate_error {fault : Fault} (fits : Store.Enclosed depth flat enclosed)
    (found : evaluate host expr flat = .error fault after) :
    ∃ beyond, evaluate host expr enclosed = .error fault beyond ∧
      Store.Enclosed depth after beyond := by
  have step := @runs_evaluate host depth expr flat enclosed fits
  rw [found] at step
  generalize evaluate host expr enclosed = right at step
  cases step with
  | error same fits =>
    subst same
    exact ⟨_, rfl, fits⟩
  | excused impossible => exact impossible.elim

/-- What a program comes to from a flat store, it comes to from an enclosed one: the same end, and stores
that differ as before. -/
theorem executes_enclosed {fault : Option Fault} (executes : Executes host stmts flat fault after)
    (fits : Store.Enclosed depth flat enclosed) :
    ∃ beyond, Executes host stmts enclosed fault beyond ∧ Store.Enclosed depth after beyond := by
  induction executes generalizing depth enclosed with
  | done => exact ⟨enclosed, .done, fits⟩
  | expression found _ ih =>
    obtain ⟨_, again, fits⟩ := evaluate_ok fits found
    obtain ⟨beyond, more, fits⟩ := ih fits
    exact ⟨beyond, .expression again more, fits⟩
  | print found _ ih =>
    obtain ⟨_, again, fits⟩ := evaluate_ok fits found
    obtain ⟨beyond, more, fits⟩ := ih (fits.print _)
    exact ⟨beyond, .print again more, fits⟩
  | declare _ ih =>
    obtain ⟨beyond, more, fits⟩ := ih (fits.bind _ _)
    exact ⟨beyond, .declare more, fits⟩
  | declareAs found _ ih =>
    obtain ⟨_, again, fits⟩ := evaluate_ok fits found
    obtain ⟨beyond, more, fits⟩ := ih (fits.bind _ _)
    exact ⟨beyond, .declareAs again more, fits⟩
  -- Inside the block the stores differ one frame further out, and behind it as before.
  | block _ _ body rest =>
    obtain ⟨_, inside, fits⟩ := body fits.enter
    obtain ⟨beyond, more, fits⟩ := rest fits.leave
    exact ⟨beyond, .block inside more, fits⟩
  | blockFault _ body =>
    obtain ⟨beyond, inside, fits⟩ := body fits.enter
    exact ⟨beyond.leave, .blockFault inside, fits.leave⟩
  | yes found holds _ ih =>
    obtain ⟨_, again, fits⟩ := evaluate_ok fits found
    obtain ⟨beyond, more, fits⟩ := ih fits
    exact ⟨beyond, .yes again holds more, fits⟩
  | no found fails _ ih =>
    obtain ⟨_, again, fits⟩ := evaluate_ok fits found
    obtain ⟨beyond, more, fits⟩ := ih fits
    exact ⟨beyond, .no again fails more, fits⟩
  | round found holds _ ih =>
    obtain ⟨_, again, fits⟩ := evaluate_ok fits found
    obtain ⟨beyond, more, fits⟩ := ih fits
    exact ⟨beyond, .round again holds more, fits⟩
  | leave found fails _ ih =>
    obtain ⟨_, again, fits⟩ := evaluate_ok fits found
    obtain ⟨beyond, more, fits⟩ := ih fits
    exact ⟨beyond, .leave again fails more, fits⟩
  | fault first found =>
    obtain ⟨beyond, again, fits⟩ := evaluate_error fits found
    exact ⟨beyond, .fault first again, fits⟩

end

end Lox.Frames
