import Lox.Proofs.Evaluation.Frames
import Lox.Proofs.Evaluation.Hosted
import Lox.Proofs.Syntax.Depth

/-!
# A chain of scopes is a stack of frames

A machine represents a store if the scopes on the chain of its current one hold what the frames of the
store hold. All other scopes are out of sight, and no step touches them. The steps of the machine then
do what those of the store do, and with enough levels of the stack so does evaluation.
-/
namespace Lox.Frames

/-! ### Chains and frames -/

/-- `Linked scopes ids frames`: the scopes with these numbers, innermost first, hold what the frames
hold. Each is linked to the rest of them, which are older. -/
inductive Linked (scopes : Scopes) : List Nat → List Frame → Prop where
  | nil : Linked scopes [] []
  | cons {id : Nat} {ids : List Nat} {bindings : List (String × Value)} {frame : Frame}
      {frames : List Frame} :
      scopes.all[id]? = some ⟨bindings, ids⟩ →
      (∀ name, frame.lookup name = bindings.lookup name) → (∀ outer ∈ ids, outer < id) →
      Linked scopes ids frames → Linked scopes (id :: ids) (frame :: frames)

namespace Linked

variable {scopes changed : Scopes} {ids : List Nat} {frames : List Frame} {id : Nat} {name : String}
  {value : Value}

/-- A chain is linked wherever its scopes are the same. -/
theorem transfer (linked : Linked scopes ids frames)
    (same : ∀ other ∈ ids, changed.all[other]? = scopes.all[other]?) : Linked changed ids frames := by
  induction linked with
  | nil => exact .nil
  | cons here known older _ ih =>
    obtain ⟨first, others⟩ := List.forall_mem_cons.mp same
    exact .cons (first.trans here) known older (ih others)

theorem size (linked : Linked scopes ids frames) : ∀ other ∈ ids, other < scopes.all.size := by
  induction linked with
  | nil => simp
  | cons here _ _ _ ih =>
    exact List.forall_mem_cons.mpr ⟨(Array.getElem?_eq_some_iff.mp here).1, ih⟩

theorem chain {outer : List Nat} (linked : Linked scopes (id :: outer) frames) :
    scopes.chain id = id :: outer := by
  cases linked with
  | cons here => simp only [Scopes.chain, here]

/-- A name has in its nearest scope the value that it has in its first frame. -/
theorem find? (linked : Linked scopes ids frames) :
    (ids.find? (scopes.declares · name)).bind (scopes.local? · name) = Frames.find? name frames := by
  induction linked with
  | nil => rfl
  | @cons id ids bindings frame frames here known _ _ ih =>
    have there : scopes.local? id name = frame.lookup name := by
      simp [Scopes.local?, here, known]
    rw [Frames.find?, List.findSome?_cons, List.find?_cons]
    unfold Scopes.declares
    rw [there]
    cases found : frame.lookup name with
    | some value =>
      simp [there, found]
    | none => exact ih

theorem get? {outer : List Nat} (linked : Linked scopes (id :: outer) frames) :
    scopes.get? id name = Frames.find? name frames := by
  rw [← linked.find?]
  unfold Scopes.get? Scopes.owner?
  rw [linked.chain]

theorem local? {bindings : List (String × Value)} {frame : Frame}
    (here : scopes.all[id]? = some ⟨bindings, ids⟩)
    (known : ∀ name, frame.lookup name = bindings.lookup name) :
    scopes.local? id name = frame.lookup name := by
  simp [Scopes.local?, here, known]

/-- Binding a name in one scope leaves all others as they are. -/
theorem define_other {other : Nat} (different : id ≠ other) :
    (scopes.define id name value).all[other]? = scopes.all[other]? := by
  simp [Scopes.define, Array.getElem?_modify, different]

/-- Binding a name in the innermost scope binds it in the innermost frame. -/
theorem define {outer : List Nat} {frame : Frame}
    (linked : Linked scopes (id :: outer) (frame :: frames)) :
    Linked (scopes.define id name value) (id :: outer) (frame.insert name value :: frames) := by
  cases linked with
  | @cons _ _ bindings _ _ here known older rest =>
    have bound : (scopes.define id name value).all[id]? = some ⟨rebind name value bindings, outer⟩ := by
      simp [Scopes.define, Array.getElem?_modify, here]
    refine .cons bound ?_ older (rest.transfer ?_)
    · intro other
      rw [lookup_rebind, ← known]
      by_cases same : other = name
      · rw [if_pos same, same, Finmap.lookup_insert]
      · rw [if_neg same, Finmap.lookup_insert_of_ne _ same]
    · intro other member
      exact define_other (Nat.ne_of_gt (older other member))

/-- Changing the nearest binding of a name changes its first frame. -/
theorem assign (linked : Linked scopes ids frames) (name : String) (value : Value) :
    match ids.find? (scopes.declares · name) with
    | some owner => ∃ others, change? name value frames = some others ∧
        Linked (scopes.define owner name value) ids others
    | none => change? name value frames = none := by
  induction linked with
  | nil => rfl
  | @cons id ids bindings frame frames here known older rest ih =>
    have there : scopes.declares id name = decide (name ∈ frame) := by
      unfold Scopes.declares
      rw [local? here known, Bool.eq_iff_iff, decide_eq_true_iff]
      exact Finmap.lookup_isSome
    rw [List.find?_cons, there, change?]
    by_cases held : name ∈ frame
    · rw [decide_eq_true held, if_pos held]
      exact ⟨_, rfl, (Linked.cons here known older rest).define⟩
    · rw [decide_eq_false held, if_neg held]
      cases found : ids.find? (scopes.declares · name) with
      | none =>
        rw [found] at ih
        simp only
        rw [ih]
        rfl
      | some owner =>
        rw [found] at ih
        obtain ⟨others, changed, linked⟩ := ih
        have apart := Nat.ne_of_lt (older owner (List.mem_of_find?_eq_some found))
        refine ⟨frame :: others, ?_, .cons ((define_other apart).trans here) known older linked⟩
        rw [changed]
        rfl

theorem assign? {outer : List Nat} (linked : Linked scopes (id :: outer) frames) (name : String)
    (value : Value) :
    match scopes.assign? id name value with
    | some changed => ∃ others, change? name value frames = some others ∧
        Linked changed (id :: outer) others
    | none => change? name value frames = none := by
  have step := linked.assign name value
  unfold Scopes.assign? Scopes.owner?
  rw [linked.chain]
  cases found : (id :: outer).find? (scopes.declares · name) with
  | none =>
    rw [found] at step
    exact step
  | some owner =>
    rw [found] at step
    exact step

/-- A new scope inside the innermost one is a new frame. -/
theorem new {outer : List Nat} (linked : Linked scopes (id :: outer) frames) :
    Linked (scopes.new (some id)).1 (scopes.all.size :: id :: outer) (∅ :: frames) := by
  have held := linked.size
  cases linked with
  | @cons _ _ bindings frame frames here known older rest =>
    have bound : (scopes.new (some id)).1.all[scopes.all.size]? = some ⟨[], id :: outer⟩ := by
      simp [Scopes.new, here]
    refine .cons bound (fun _ => rfl) held ?_
    refine (Linked.cons here known older rest).transfer fun other member => ?_
    have different := Nat.ne_of_lt (held other member)
    simp [Scopes.new, Array.getElem?_push, different]

/-- Where the scopes from some number on are forgotten, older ones are linked as before. -/
theorem dropFrom {least : Nat} (linked : Linked scopes ids frames)
    (older : ∀ other ∈ ids, other < least) : Linked (scopes.dropFrom least) ids frames := by
  refine linked.transfer fun other member => ?_
  unfold Scopes.dropFrom
  rw [← Array.getElem?_toList, Array.toList_shrink, List.getElem?_take, if_pos (older other member),
    Array.getElem?_toList]

end Linked

/-! ### Machines and stores -/

/-- A machine without closures whose current scope is the innermost of a chain, and a store that holds
what can be seen from there. -/
structure Represents (ids : List Nat) (machine : Machine) (store : Store) : Prop where
  linked : Linked machine.scopes ids store.frames
  current : ids.head? = some machine.current
  output : store.output = machine.output
  calls : store.calls = machine.calls
  hosted : machine.Hosted

/-- Side by side, a machine represents a store, and no fault of the one is missing on the other. -/
def representing (ids : List Nat) : Pairing Interrupt Fault Machine Store where
  state := Represents ids
  error interrupt fault := interrupt = .fault fault
  excused _ := False

/-- Side by side, a step of the machine and one of the store give the same value. -/
abbrev Gives (ids : List Nat) (one : Run Value) (other : Walk Value) : Prop :=
  (representing ids).Runs (Likeness.Same Value.Hosted) one other

section

variable {ids : List Nat} {machine : Machine} {store : Store} {value : Value}

namespace Represents

/-- The chain begins with the current scope. -/
theorem cons (fits : Represents ids machine store) : ∃ outer, ids = machine.current :: outer := by
  have current := fits.current
  cases ids with
  | nil => cases current
  | cons id outer =>
    cases current
    exact ⟨outer, rfl⟩

theorem find? (fits : Represents ids machine store) (name : String) :
    machine.scopes.get? machine.current name = Frames.find? name store.frames := by
  obtain ⟨outer, rfl⟩ := fits.cons
  exact fits.linked.get?

theorem bind (fits : Represents ids machine store) (known : value.Hosted) (name : String) :
    Represents ids { machine with scopes := machine.scopes.define machine.current name value }
      (store.bind name value) := by
  obtain ⟨outer, rfl⟩ := fits.cons
  obtain ⟨linked, current, output, calls, hosted⟩ := fits
  obtain ⟨frames, _, _⟩ := store
  cases frames with
  | nil => cases linked
  | cons frame frames => exact ⟨linked.define, current, output, calls, hosted.define known⟩

theorem print (fits : Represents ids machine store) (text : String) :
    Represents ids { machine with output := machine.output ++ text ++ "\n" } (store.print text) := by
  refine ⟨fits.linked, fits.current, ?_, fits.calls, fits.hosted⟩
  simp only [Store.print, fits.output]

/-- A new scope inside the current one is a new frame. -/
theorem enter (fits : Represents ids machine store) :
    Represents (machine.scopes.all.size :: ids)
      { machine with
        scopes := (machine.scopes.new (some machine.current)).1
        current := (machine.scopes.new (some machine.current)).2 } store.enter := by
  obtain ⟨outer, rfl⟩ := fits.cons
  exact ⟨fits.linked.new, rfl, fits.output, fits.calls,
    Scopes.Hosted.new fits.hosted (some machine.current)⟩

/-- When the body of a block is left, the chain is as before. -/
theorem leave {inner : Machine} {within : Store} (fits : Represents ids machine store)
    (body : Represents (machine.scopes.all.size :: ids) inner within) :
    Represents ids (Run.leave machine inner) within.leave := by
  obtain ⟨linked, -, output, calls, hosted⟩ := body
  obtain ⟨frames, _, _⟩ := within
  cases linked with
  | cons here known older rest =>
    exact ⟨rest.dropFrom fits.linked.size, fits.current, output, calls, hosted.dropFrom _⟩

end Represents

/-! ### Steps -/

theorem gives_read (token : Token) : Gives ids (Run.read token) (read token) := by
  intro machine store fits
  unfold Run.read read
  rw [← fits.find?]
  cases found : machine.scopes.get? machine.current token.lexeme with
  | some value => exact .ok ⟨rfl, fits.hosted.get? found⟩ fits
  | none => exact .error rfl fits

theorem runs_assign (token : Token) (known : value.Hosted) :
    (representing ids).Runs (fun _ _ => True) (Run.assign token value) (assign token value) := by
  intro machine store fits
  obtain ⟨outer, rfl⟩ := fits.cons
  have step := fits.linked.assign? token.lexeme value
  unfold Run.assign assign
  cases found : machine.scopes.assign? machine.current token.lexeme value with
  | some changed =>
    rw [found] at step
    obtain ⟨others, same, linked⟩ := step
    rw [same]
    exact .ok trivial ⟨linked, fits.current, fits.output, fits.calls, fits.hosted.assign? known found⟩
  | none =>
    rw [found] at step
    rw [step]
    exact .error rfl fits

theorem gives_lift {outcome : Except Fault Value} (known : ∀ value, outcome = .ok value → value.Hosted) :
    Gives ids (Run.lift outcome) (lift outcome) := by
  cases outcome with
  | ok value => exact .pure ⟨rfl, known value rfl⟩
  | error fault => exact .throw rfl

theorem gives_call {library : Library} (hosted : library.Hosted) {execute : Stmt → Run Unit}
    {target : Callable} {arguments : List Value} (native : (Value.callable target).Hosted)
    (given : ∀ value ∈ arguments, value.Hosted) :
    Gives ids (invoke library execute target arguments) (call library.native target arguments) := by
  cases target with
  | closure => exact native.elim
  | native id name arity =>
    have recorded : (representing ids).Runs (fun _ _ => True) (Run.record ⟨name, arguments⟩)
        (modify fun store => { store with calls := store.calls.push ⟨name, arguments⟩ }) := by
      intro machine store fits
      refine .ok trivial ⟨fits.linked, fits.current, fits.output, ?_, fits.hosted⟩
      simp only [fits.calls]
    unfold invoke call
    simp only
    refine .optional recorded ?_
    cases outcome : (library.native id).act arguments with
    | ok value => exact .pure ⟨rfl, hosted id arguments value given outcome⟩
    | error cause => exact .throw rfl

/-! ### Operators -/

/-- No operator makes a closure. -/
theorem hosted_of_alike {op sign : Token} {outcome twin : Except Fault Value}
    (alike : Likeness.Alike op sign outcome twin) (made : outcome = .ok value) : value.Hosted := by
  rcases alike with ⟨result, rfl, -, plain⟩ | ⟨cause, rfl, -⟩
  · cases made
    cases value with
    | callable target => exact absurd rfl (plain target)
    | _ => trivial
  · cases made

/-! ### Expressions -/

/-- With a level of the stack for each of its own, an expression has the value or the fault that the
frames give it. -/
theorem gives_evaluate {library : Library} (hosted : library.Hosted) (patience : Nat) {expr : Expr}
    (known : expr.Hosted) {stack : Nat} (deep : expr.depth ≤ stack) :
    Gives ids (Lox.evaluate library patience stack expr) (evaluate library.native expr) := by
  -- The levels that are left are at least as many as those of the tree, all the way down.
  induction stack generalizing expr with
  | zero => exact absurd deep (Nat.not_le.mpr expr.depth_pos)
  | succ stack ih =>
    cases known with
    | literal known => exact .pure ⟨rfl, known⟩
    | name => exact gives_read _
    | grouping inner => exact ih inner (Nat.le_of_succ_le_succ deep)
    | unary operand =>
      refine .bind (ih operand (Nat.le_of_succ_le_succ deep)) ?_
      rintro value _ ⟨rfl, -⟩
      exact gives_lift fun _ => hosted_of_alike (Likeness.alike_unary rfl value)
    | assign value =>
      refine .bind (ih value (Nat.le_of_succ_le_succ deep)) ?_
      rintro value _ ⟨rfl, known⟩
      exact .bind (runs_assign _ known) fun _ _ _ => .pure ⟨rfl, known⟩
    | binary left right =>
      obtain ⟨first, second⟩ := Nat.max_le.mp (Nat.le_of_succ_le_succ deep)
      refine .bind (ih left first) ?_
      rintro one _ ⟨rfl, -⟩
      refine .bind (ih right second) ?_
      rintro two _ ⟨rfl, -⟩
      exact gives_lift fun _ => hosted_of_alike (Likeness.alike_binary rfl one two)
    | logical left right =>
      obtain ⟨first, second⟩ := Nat.max_le.mp (Nat.le_of_succ_le_succ deep)
      refine .bind (ih left first) ?_
      rintro one _ ⟨rfl, known⟩
      split
      · exact .pure ⟨rfl, known⟩
      · exact ih right second
    | @call _ _ arguments callee known =>
      obtain ⟨first, others⟩ := Nat.max_le.mp (Nat.le_of_succ_le_succ deep)
      refine .bind (ih callee first) ?_
      rintro value _ ⟨rfl, native⟩
      cases value with
      | callable target =>
        rw [evaluateAll_eq_mapM]
        have each := Expr.depthAll_le.mp others
        have gives (expr : Expr) (member : expr ∈ arguments) : Gives ids
            (Lox.evaluate library patience stack expr) (evaluate library.native expr) :=
          ih (known expr member) (each expr member)
        refine .bind (.mapM_self gives) fun given _ same => ?_
        obtain ⟨rfl, all⟩ := Likeness.same_of_forall₂ same
        split
        · exact gives_call hosted native all
        · exact .throw rfl
      | _ => exact .throw rfl

end

end Lox.Frames
