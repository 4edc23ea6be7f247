import Lox.Proofs.Evaluation.Refinement
import Lox.Proofs.Session.Pieces

/-!
# Sessions and frames

Where every callable is a native, what a session makes of a list of statements is what the rules of the
frames tell: it comes to an end when they lead to one, and then with the same text printed, the same
calls, the same faults and the same global names.
-/
namespace Lox

/-! ### What is seen of a session -/

/-- Bindings as a frame. Of several for one name the first counts. -/
def Frames.frameOf (bindings : List (String × Value)) : Frames.Frame :=
  (bindings.map fun binding => (⟨binding.1, binding.2⟩ : (_ : String) × Value)).toFinmap

theorem Frames.lookup_frameOf (bindings : List (String × Value)) (name : String) :
    (frameOf bindings).lookup name = bindings.lookup name := by
  rw [frameOf, Finmap.dlookup_list_toFinmap]
  induction bindings with
  | nil => rfl
  | cons binding bindings ih =>
    obtain ⟨bound, value⟩ := binding
    rw [List.map_cons, List.lookup_cons]
    by_cases same : name = bound
    · subst same
      rw [List.dlookup_cons_eq, beq_self_eq_true]
    · rw [List.dlookup_cons_ne _ _ same, beq_eq_false_iff_ne.mpr same]
      exact ih

namespace Session

open Frames (Store Represents Executes Interprets Ends Accounts)

/-- The global names of a session with what it has printed and called. -/
def store (session : Session) : Store where
  frames := [Frames.frameOf ((session.machine.scopes.all[globals]?.map Scope.bindings).getD [])]
  output := session.machine.output
  calls := session.machine.calls

/-- No block is being executed: the global scope is current, and it lies in no other. -/
structure Outermost (session : Session) : Prop where
  current : session.machine.current = globals
  alone : ∃ bindings, session.machine.scopes.all[globals]? = some ⟨bindings, []⟩

/-- A session shows some more faults than before, and a store. -/
structure Shows (before : Session) (faults : List Fault) (store : Store) (after : Session) : Prop where
  store : after.store = store
  runtime : after.log.runtime =
    before.log.runtime ++ faults.map fun fault => fault.diagnostic before.log.stage
  stage : after.log.stage = before.log.stage
  static : after.log.static = before.log.static
  library : after.library = before.library
  hosted : after.Hosted
  outermost : after.Outermost

section

variable {session after : Session} {store : Store} {stmt : Stmt} {stmts : List Stmt}
  {fault : Option Fault} {stack patience : Nat}

theorem start_outermost (time : Float) : (start time).Outermost := ⟨rfl, _, rfl⟩

theorem represents (hosted : session.Hosted) (outermost : session.Outermost) :
    Represents [globals] session.machine session.store := by
  obtain ⟨current, bindings, here⟩ := outermost
  refine ⟨?_, by rw [current]; rfl, rfl, rfl, hosted.machine⟩
  rw [Session.store, here]
  exact .cons here (Frames.lookup_frameOf _) (by simp) .nil

/-- The machine of a session that shows a store represents it. -/
theorem store_eq (fits : Represents [globals] session.machine store) :
    session.store = store ∧ session.Outermost := by
  obtain ⟨frames, output, calls⟩ := store
  obtain ⟨linked, current, printed, called, -⟩ := fits
  cases linked with
  | @cons _ _ bindings frame _ here known _ rest =>
    cases rest
    have same : Frames.frameOf bindings = frame := by
      refine Finmap.ext_lookup fun name => ?_
      rw [Frames.lookup_frameOf, known]
    refine ⟨?_, (Option.some.inj current).symm, bindings, here⟩
    rw [Session.store, here, ← same]
    simp only at printed called
    rw [printed, called]
    rfl

theorem Shows.trans {front back : List Fault} {first second : Store} {middle last : Session}
    (one : session.Shows front first middle) (two : middle.Shows back second last) :
    session.Shows (front ++ back) second last where
  store := two.store
  runtime := by rw [two.runtime, one.runtime, one.stage, List.map_append, List.append_assoc]
  stage := two.stage.trans one.stage
  static := two.static.trans one.static
  library := two.library.trans one.library
  hosted := two.hosted
  outermost := two.outermost

/-! ### One statement -/

/-- When a statement comes to an end, the session shows it. -/
theorem attempt_ends (hosted : session.Hosted)
    (ends : Ends [globals] fault store
      (execute session.library patience stack stmt session.machine)) :
    ∃ after, attempt ⟨stack, patience⟩ stmt session = .ok () after ∧
      session.Shows fault.toList store after := by
  unfold attempt
  simp only
  generalize execute session.library patience stack stmt session.machine = outcome at ends ⊢
  cases ends with
  | @ok machine _ fits =>
    obtain ⟨same, outermost⟩ := @store_eq { session with machine } _ fits
    exact ⟨_, rfl, same, by simp, rfl, rfl, rfl, ⟨fits.hosted, hosted.library⟩, outermost⟩
  | @fault machine _ fault fits =>
    obtain ⟨same, outermost⟩ :=
      @store_eq { session with machine, log := session.log.addFault fault } _ fits
    exact ⟨_, rfl, same, rfl, rfl, rfl, rfl, ⟨fits.hosted, hosted.library⟩, outermost⟩

/-- What a session makes of a statement is accounted for. -/
theorem attempt_executes (hosted : session.Hosted) (outermost : session.Outermost)
    (known : stmt.Hosted) (deep : stmt.depth ≤ stack)
    (done : attempt ⟨stack, patience⟩ stmt session = .ok () after) :
    ∃ fault store, Executes session.library.native [stmt] session.store fault store ∧
      session.Shows fault.toList store after := by
  have accounts := Frames.execute_accounts hosted.library patience known deep
    (represents hosted outermost)
  obtain ⟨fault, store, ends, executes⟩ : ∃ fault store,
      Ends [globals] fault store (execute session.library patience stack stmt session.machine) ∧
        Executes session.library.native [stmt] session.store fault store := by
    -- An endless run stops the attempt, so this one came to its end or to a fault.
    unfold attempt at done
    simp only at done
    generalize execute session.library patience stack stmt session.machine = outcome
      at accounts done ⊢
    cases accounts with
    | ok fits executes => exact ⟨none, _, .ok fits, executes [] none _ .done⟩
    | fault fits executes => exact ⟨some _, _, .fault fits, executes []⟩
    | unfinished => cases done
  obtain ⟨_, same, shows⟩ := attempt_ends hosted ends
  rw [done] at same
  cases same
  exact ⟨fault, store, executes, shows⟩

/-- With enough patience, every session that shows a store makes of a statement what the rules tell. -/
theorem executes_attempt {library : Library} {before : Store}
    (executes : Executes library.native [stmt] before fault store) (native : library.Hosted)
    (known : stmt.Hosted) (deep : stmt.depth ≤ stack) :
    ∃ enough, ∀ patience, enough ≤ patience → ∀ session : Session, session.library = library →
      session.store = before → session.Hosted → session.Outermost →
      ∃ after, attempt ⟨stack, patience⟩ stmt session = .ok () after ∧
        session.Shows fault.toList store after := by
  have ready : Frames.Plan.Ready [(stack, stmt)] := List.forall_mem_singleton.mpr ⟨known, deep⟩
  obtain ⟨enough, ends⟩ := Frames.executes_settles native executes ready rfl
  refine ⟨enough, ?_⟩
  rintro patience more session rfl rfl hosted outermost
  have whole := ends patience more _ _ (represents hosted outermost)
  rw [Frames.perform_cons, show Frames.perform session.library patience [] = pure () from rfl,
    bind_pure_unit] at whole
  exact attempt_ends hosted whole

/-! ### Lists of statements -/

/-- What a session makes of a list of statements is accounted for. -/
theorem interpret_interprets (hosted : session.Hosted) (outermost : session.Outermost)
    (known : ∀ stmt ∈ stmts, stmt.Hosted) (deep : Stmt.depthAll stmts ≤ stack)
    (done : interpret ⟨stack, patience⟩ stmts session = .ok () after) :
    ∃ faults store, Interprets session.library.native stmts session.store faults store ∧
      session.Shows faults store after := by
  induction stmts generalizing session with
  | nil =>
    cases done
    exact ⟨[], _, .done, rfl, by simp, rfl, rfl, rfl, hosted, outermost⟩
  | cons stmt stmts ih =>
    obtain ⟨plain, others⟩ := List.forall_mem_cons.mp known
    obtain ⟨first, rest⟩ := Nat.max_le.mp deep
    obtain ⟨middle, tried, ended⟩ := interpret_cons.mp done
    obtain ⟨fault, between, executes, shows⟩ := attempt_executes hosted outermost plain first tried
    obtain ⟨faults, last, interprets, further⟩ := ih shows.hosted shows.outermost others rest ended
    rw [shows.store, shows.library] at interprets
    exact ⟨_, last, .next executes interprets, shows.trans further⟩

/-- With enough patience, every session that shows a store makes of a list of statements what the rules
tell. -/
theorem interprets_interpret {library : Library} {faults : List Fault} {before : Store}
    (interprets : Interprets library.native stmts before faults store) (native : library.Hosted)
    (known : ∀ stmt ∈ stmts, stmt.Hosted) (deep : Stmt.depthAll stmts ≤ stack) :
    ∃ enough, ∀ patience, enough ≤ patience → ∀ session : Session, session.library = library →
      session.store = before → session.Hosted → session.Outermost →
      ∃ after, interpret ⟨stack, patience⟩ stmts session = .ok () after ∧
        session.Shows faults store after := by
  induction interprets with
  | done =>
    refine ⟨0, fun _ _ session same start hosted outermost => ⟨session, rfl, start, ?_, rfl, rfl, rfl,
      hosted, outermost⟩⟩
    rw [List.map_nil, List.append_nil]
  | next executes _ ih =>
    obtain ⟨plain, others⟩ := List.forall_mem_cons.mp known
    obtain ⟨first, rest⟩ := Nat.max_le.mp deep
    obtain ⟨enough, tries⟩ := executes_attempt executes native plain first
    obtain ⟨further, goes⟩ := ih others rest
    refine ⟨max enough further, fun patience more session same start hosted outermost => ?_⟩
    obtain ⟨one, two⟩ := Nat.max_le.mp more
    obtain ⟨middle, tried, shows⟩ := tries patience one session same start hosted outermost
    obtain ⟨last, gone, ended⟩ :=
      goes patience two middle (shows.library.trans same) shows.store shows.hosted shows.outermost
    exact ⟨last, (andThen_ok tried).trans gone, shows.trans ended⟩

/-- A list of statements without closures, in a session without closures, with a level of the stack for
each of its own: it comes to an end exactly when the rules of the frames lead to one, and the session
then shows the store and the faults that the rules tell of. -/
theorem interpret_refines (hosted : session.Hosted) (outermost : session.Outermost)
    (known : ∀ stmt ∈ stmts, stmt.Hosted) (deep : Stmt.depthAll stmts ≤ stack) :
    ((∃ patience after, interpret ⟨stack, patience⟩ stmts session = .ok () after) ↔
      ∃ faults store, Interprets session.library.native stmts session.store faults store) ∧
    ∀ patience after faults store, interpret ⟨stack, patience⟩ stmts session = .ok () after →
      Interprets session.library.native stmts session.store faults store →
      session.Shows faults store after := by
  refine ⟨⟨?_, ?_⟩, ?_⟩
  · rintro ⟨patience, after, done⟩
    obtain ⟨faults, store, interprets, -⟩ := interpret_interprets hosted outermost known deep done
    exact ⟨faults, store, interprets⟩
  · rintro ⟨faults, store, interprets⟩
    obtain ⟨enough, goes⟩ := interprets_interpret interprets hosted.library known deep
    obtain ⟨after, done, -⟩ := goes enough (Nat.le_refl _) session rfl rfl hosted outermost
    exact ⟨enough, after, done⟩
  · intro patience after faults store done interprets
    obtain ⟨others, twin, same, shows⟩ := interpret_interprets hosted outermost known deep done
    -- The rules lead to one end only: with patience enough for both, the machine comes to both.
    obtain ⟨enough, goes⟩ := interprets_interpret interprets hosted.library known deep
    obtain ⟨further, comes⟩ := interprets_interpret same hosted.library known deep
    obtain ⟨one, gone, first⟩ := goes (max enough further) (Nat.le_max_left _ _) session rfl rfl hosted
      outermost
    obtain ⟨two, came, second⟩ := comes (max enough further) (Nat.le_max_right _ _) session rfl rfl
      hosted outermost
    rw [gone] at came
    cases came
    obtain rfl : store = twin := first.store.symm.trans second.store
    exact { shows with runtime := by rw [shows.runtime, ← second.runtime, first.runtime] }

/-- A fault inside a block takes its frame away, and the next statement is executed outside. -/
theorem interpret_refines_fault :
    let missing : Token := ⟨.identifier, "b", none, 1⟩
    let stmts : List Stmt :=
      [.block [.declare ⟨.identifier, "a", none, 1⟩ none, .print (.name missing)],
        .print (.literal (.bool true))]
    (start 0).Hosted ∧ (start 0).Outermost ∧ (∀ stmt ∈ stmts, stmt.Hosted) ∧
      Stmt.depthAll stmts ≤ 3 ∧
    ∃ store, store.output = "true\n" ∧
      Interprets (start 0).library.native stmts (start 0).store [⟨.undefinedVariable "b", some 1⟩] store ∧
      ∃ patience after, interpret ⟨3, patience⟩ stmts (start 0) = .ok () after ∧
        (start 0).Shows [⟨.undefinedVariable "b", some 1⟩] store after := by
  intro missing stmts
  have known : ∀ stmt ∈ stmts, stmt.Hosted := by
    have body : ∀ stmt ∈ [Stmt.declare ⟨.identifier, "a", none, 1⟩ none, .print (.name missing)],
        stmt.Hosted :=
      List.forall_mem_cons.mpr ⟨.declare, List.forall_mem_singleton.mpr (.print .name)⟩
    exact List.forall_mem_cons.mpr ⟨.block body, List.forall_mem_singleton.mpr (.print (.literal trivial))⟩
  have rules : Interprets (start 0).library.native stmts (start 0).store
      [⟨.undefinedVariable "b", some 1⟩] _ :=
    .next (.blockFault (.declare (.fault rfl rfl))) (.next (.print rfl .done) .done)
  obtain ⟨ends, agrees⟩ :=
    interpret_refines (start_hosted 0) (start_outermost 0) known (Nat.le_refl 3)
  obtain ⟨patience, after, done⟩ := ends.mpr ⟨_, _, rules⟩
  exact ⟨start_hosted 0, start_outermost 0, known, Nat.le_refl 3, _, rfl, rules, patience, after, done,
    agrees patience after _ _ done rules⟩

end

end Session

end Lox
