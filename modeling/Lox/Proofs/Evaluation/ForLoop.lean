import Lox.Grammar.Statement
import Lox.Proofs.Evaluation.Inserted

/-!
# What a `for` statement does

A `for` statement can be read as it stands: in a scope of the loop, made if there is an initial clause, run
that clause once, and as long as the condition holds run the body and then evaluate the increment. The tree
that is made of it does the same, although it runs every round in a scope more. Nothing is ever bound in
that scope, since a body declares no name outside its blocks.
-/
namespace Lox

/-! ### Names in sight -/

theorem Scopes.declares_iff {scopes : Scopes} {id : Nat} {name : String} :
    scopes.declares id name = true ↔ name ∈ scopes.names id := by
  unfold declares Scopes.local? names
  cases scopes.all[id]? with
  | none => simp
  | some scope =>
    simp only [Option.bind_some, Option.map_some, Option.getD_some, List.lookup_isSome_iff,
      beq_iff_eq, List.mem_map]
    exact exists_congr fun binding => and_congr_right fun _ => eq_comm

/-- Where no scope has other names than before, every name is found in the scope where it was. -/
theorem Machine.Framed.owner?_eq {library : Library} {before after : Machine}
    (framed : before.Framed library (fun _ => False) after) (name : String) :
    after.scopes.owner? after.current name = before.scopes.owner? before.current name := by
  unfold Scopes.owner?
  rw [framed.current, Scopes.chain_eq_of_links framed.links]
  congr 1
  funext id
  rw [Bool.eq_iff_iff, Scopes.declares_iff, Scopes.declares_iff, framed.names_eq]

namespace Run

/-- A run came to its end or to a fault. -/
def Ended {α : Type} : EStateM.Result Interrupt Machine α → Prop
  | .ok _ _ | .error (.fault _) _ => True
  | .error .overflow _ | .error .unfinished _ => False

theorem Ended.sufficed {α : Type} {outcome : EStateM.Result Interrupt Machine α} (ended : Ended outcome) :
    Sufficed outcome := by
  cases outcome with
  | ok => trivial
  | error stop after =>
    cases stop with
    | fault fault => trivial
    | overflow => exact ended
    | unfinished => trivial

/-! ### Steps that do the same on some machines -/

section

variable {α β : Type} {library : Library} {added : String → Prop} {machine : Machine}

/-- One step after the other: the second is compared only on machines that the first comes to. -/
theorem andThen_eq {one other : Run α} {next twin : α → Run β} (frames : one.Frames library added)
    (founded : machine.Founded library) (first : other machine = one machine)
    (second : ∀ result between, between.Founded library → twin result between = next result between) :
    (other >>= twin) machine = (one >>= next) machine := by
  cases ran : one machine with
  | ok result between =>
    rw [andThen_ok ran, andThen_ok (first.trans ran)]
    exact second result between (founded.of_sameScopes (frames.ok ran).toSameScopes)
  | error stop after => rw [andThen_error ran, andThen_error (first.trans ran)]

theorem repeatWhile_eq {test : Run Bool} {round twin : Run Unit} (tests : test.Frames library added)
    (rounds : round.Frames library added)
    (same : ∀ machine : Machine, machine.Founded library → twin machine = round machine) (limit : Nat)
    (founded : machine.Founded library) :
    repeatWhile test twin limit machine = repeatWhile test round limit machine := by
  -- A round leaves a machine to which the same applies, since it keeps the scopes.
  induction limit generalizing machine with
  | zero => rfl
  | succ limit ih =>
    refine andThen_eq tests founded rfl fun holds between kept => ?_
    cases holds with
    | false => rfl
    | true => exact andThen_eq rounds kept (same between kept) fun _ _ later => ih later

theorem inBlock_congr {body twin : Run α} (founded : machine.Founded library)
    (same : ∀ machine : Machine, machine.Founded library → twin machine = body machine) :
    inBlock twin machine = inBlock body machine := by
  unfold inBlock inScope
  simp only
  rw [same _ founded.enter]

end

end Run

/-- The clauses of a `for` statement, all of which may be left out, and its body. -/
structure ForClauses where
  initial : Option Stmt
  condition : Option Expr
  increment : Option Expr
  body : Stmt

namespace ForClauses

/-- The tree that is made of the clauses. -/
def tree (clauses : ForClauses) : Stmt :=
  Grammar.forLoop clauses.initial (clauses.condition.getD (.literal (.bool true))) clauses.increment
    clauses.body

/-! ### The clauses as they stand -/

/-- Whether there is another round. There always is one if there is no condition. -/
def test (clauses : ForClauses) (value : Expr → Run Value) : Run Bool :=
  match clauses.condition with
  | some condition => Value.truthy <$> value condition
  | none => pure true

/-- A round of the loop. -/
def round (clauses : ForClauses) (perform : Stmt → Run Unit) (value : Expr → Run Value) : Run Unit := do
  perform clauses.body
  match clauses.increment with
  | some increment => discard (value increment)
  | none => pure ()

/-- The scope of the loop is one of its own if there is an initial clause, else the current one. -/
def inLoopScope (clauses : ForClauses) (perform : Stmt → Run Unit) (loop : Run Unit) : Run Unit :=
  match clauses.initial with
  | some initial => Run.inBlock do
      perform initial
      loop
  | none => loop

/-- The clauses are run as they stand, with so many levels of the stack for the initial clause, the
condition, the body and the increment. -/
def runWith (library : Library) (patience first second third fourth : Nat) (clauses : ForClauses) :
    Run Unit :=
  clauses.inLoopScope (execute library patience first) <|
    Run.repeatWhile (clauses.test (evaluate library patience second))
      (clauses.round (execute library patience third) (evaluate library patience fourth)) patience

/-- The clauses are run as they stand. -/
def run (library : Library) (patience stack : Nat) (clauses : ForClauses) : Run Unit :=
  clauses.runWith library patience stack stack stack stack

/-! ### Levels of the stack -/

section

variable {clauses : ForClauses} {perform act : Stmt → Run Unit} {value result : Expr → Run Value}
  {loop again : Run Unit}

open Lockstep (deeper)

theorem deeper_test (values : ∀ expr, deeper.Steps () (value expr) (result expr)) :
    deeper.Steps () (clauses.test value) (clauses.test result) := by
  unfold test
  cases clauses.condition with
  | some condition => exact .truthy (values condition)
  | none => exact .pure rfl

theorem deeper_round (acts : ∀ stmt, deeper.Steps () (perform stmt) (act stmt))
    (values : ∀ expr, deeper.Steps () (value expr) (result expr)) :
    deeper.Steps () (clauses.round perform value) (clauses.round act result) := by
  refine .bind (acts clauses.body) fun _ _ _ => ?_
  cases clauses.increment with
  | some increment => exact Lockstep.Steps.discard (values increment)
  | none => exact .pure rfl

theorem deeper_inLoopScope (acts : ∀ stmt, deeper.Steps () (perform stmt) (act stmt))
    (loops : deeper.Steps () loop again) :
    deeper.Steps () (clauses.inLoopScope perform loop) (clauses.inLoopScope act again) := by
  unfold inLoopScope
  cases clauses.initial with
  | some initial => exact .inBlock (.bind (acts initial) fun _ _ _ => loops)
  | none => exact loops

theorem deeper_runWith (library : Library) (patience : Nat) (clauses : ForClauses)
    {first second third fourth : Nat} {one two three four : Nat} (initial : first ≤ one)
    (condition : second ≤ two) (body : third ≤ three) (increment : fourth ≤ four) :
    deeper.Steps () (clauses.runWith library patience first second third fourth)
      (clauses.runWith library patience one two three four) := by
  refine deeper_inLoopScope (fun stmt => Lockstep.deeper_execute library patience stmt initial) ?_
  refine .repeatWhile ?_ ?_ patience
  · exact deeper_test fun expr => Lockstep.deeper_evaluate library patience expr condition
  · exact deeper_round (fun stmt => Lockstep.deeper_execute library patience stmt body)
      fun expr => Lockstep.deeper_evaluate library patience expr increment

end

/-! ### Rounds in a scope more -/

section

variable {library : Library} {machine : Machine} {patience stack : Nat} {clauses : ForClauses}

/-- The body of the loop in the tree. -/
def roundTree (clauses : ForClauses) : Stmt :=
  match clauses.increment with
  | some increment => .block [clauses.body, .expression increment]
  | none => clauses.body

/-- The loop in the tree. -/
def loopTree (clauses : ForClauses) : Stmt :=
  .loop (clauses.condition.getD (.literal (.bool true))) clauses.roundTree

theorem frames_test (library : Library) (patience stack : Nat) (clauses : ForClauses)
    (added : String → Prop) :
    (clauses.test (evaluate library patience stack)).Frames library added := by
  unfold test
  cases clauses.condition with
  | some condition => exact .map ((program_frames library patience stack).1 condition added)
  | none => exact .pure true

theorem frames_round (library : Library) (patience stack levels : Nat) (clauses : ForClauses) :
    (clauses.round (execute library patience stack) (evaluate library patience levels)).Frames library
      fun _ => True := by
  refine .bind ((program_frames library patience stack).2 clauses.body _ fun _ _ => trivial) fun _ => ?_
  cases clauses.increment with
  | some increment => exact .map ((program_frames library patience levels).1 increment _)
  | none => exact .pure ()

/-- A round does the same in a scope of its own. -/
theorem inBlock_round (founded : machine.Founded library) (quiet : clauses.body.declared = [])
    (levels : Nat) :
    let round := clauses.round (execute library patience stack) (evaluate library patience levels)
    Run.inBlock round machine = round machine := by
  intro round
  have kept := Lockstep.inserted_kept machine.current founded.captured
  refine Run.inBlock_eq founded (frames_round library patience stack levels clauses) fun standing => ?_
  refine .bind (kept.execute patience stack (.inr quiet)) fun _ _ _ => ?_
  cases clauses.increment with
  | some increment => exact Lockstep.Steps.discard (kept.evaluate patience levels standing increment)
  | none => exact .pure rfl

theorem forM_pair (step : Stmt → Run Unit) (first second : Stmt) :
    [first, second].forM step = step first >>= fun _ => step second := by
  simp [List.forM_cons]

/-- With levels enough for its own blocks, a round of the tree is a round of the clauses. -/
theorem execute_roundTree (library : Library) (patience stack : Nat) (quiet : clauses.body.declared = []) :
    ∃ levels, stack ≤ levels ∧ levels ≤ stack + 2 ∧ ∀ machine : Machine, machine.Founded library →
      execute library patience (stack + 2) clauses.roundTree machine =
        clauses.round (execute library patience levels) (evaluate library patience stack) machine := by
  cases given : clauses.increment with
  -- Without an increment there is no block, and the body has all the levels.
  | none =>
    refine ⟨stack + 2, Nat.le_add_right _ _, Nat.le_refl _, fun machine _ => ?_⟩
    unfold roundTree round
    simp only [given]
    rw [bind_pure_unit]
  -- The block takes a level, and so does the increment as a statement of it.
  | some increment =>
    refine ⟨stack + 1, Nat.le_succ _, Nat.le_succ _, fun machine founded => ?_⟩
    rw [← inBlock_round founded quiet stack]
    unfold roundTree round
    simp only [given]
    change Run.inBlock ([_, _].forM _) machine = _
    rw [forM_pair]
    rfl

/-- A condition that is left out stands for true. -/
theorem evaluate_condition (library : Library) (patience stack : Nat) (clauses : ForClauses) :
    Value.truthy <$> evaluate library patience (stack + 1)
        (clauses.condition.getD (.literal (.bool true))) =
      clauses.test (evaluate library patience (stack + 1)) := by
  unfold test
  cases clauses.condition with
  | some condition => rfl
  | none => rfl

/-- With levels enough for its own blocks, the loop of the tree is that of the clauses. -/
theorem execute_loopTree (library : Library) (patience stack : Nat) (quiet : clauses.body.declared = []) :
    ∃ levels, stack ≤ levels ∧ levels ≤ stack + 2 ∧ ∀ machine : Machine, machine.Founded library →
      execute library patience (stack + 3) clauses.loopTree machine =
        Run.repeatWhile (clauses.test (evaluate library patience (stack + 2)))
          (clauses.round (execute library patience levels) (evaluate library patience stack)) patience
          machine := by
  obtain ⟨levels, least, most, same⟩ := execute_roundTree library patience stack quiet
  refine ⟨levels, least, most, fun machine founded => ?_⟩
  change Run.repeatWhile (Value.truthy <$> evaluate library patience (stack + 2) _) _ patience machine = _
  rw [evaluate_condition]
  exact Run.repeatWhile_eq (frames_test library patience (stack + 2) clauses _)
    (frames_round library patience levels stack clauses) same patience founded

/-- With levels enough for its own blocks, the tree does what the clauses do. -/
theorem execute_tree (library : Library) (patience stack : Nat) (quiet : clauses.body.declared = []) :
    ∃ first second third fourth,
      (∀ levels ∈ [first, second, third, fourth], stack ≤ levels ∧ levels ≤ stack + 4) ∧
      ∀ machine : Machine, machine.Founded library →
        execute library patience (stack + 4) clauses.tree machine =
          clauses.runWith library patience first second third fourth machine := by
  cases given : clauses.initial with
  -- The tree is the loop, which has the levels to itself.
  | none =>
    obtain ⟨levels, least, most, same⟩ := execute_loopTree library patience (stack + 1) quiet
    refine ⟨stack, stack + 3, levels, stack + 1, ?_, fun machine founded => ?_⟩
    · simp only [List.mem_cons, List.not_mem_nil, or_false]
      omega
    · have loop : clauses.tree = clauses.loopTree := by
        unfold tree Grammar.forLoop
        simp only [given]
        rfl
      rw [loop, same machine founded]
      unfold runWith inLoopScope
      simp only [given]
  -- The scope of the loop is a block, in which the loop follows the initial clause.
  | some initial =>
    obtain ⟨levels, least, most, same⟩ := execute_loopTree library patience stack quiet
    refine ⟨stack + 3, stack + 2, levels, stack, ?_, fun machine founded => ?_⟩
    · simp only [List.mem_cons, List.not_mem_nil, or_false]
      omega
    · have block : clauses.tree = .block [initial, clauses.loopTree] := by
        unfold tree Grammar.forLoop
        simp only [given]
        rfl
      rw [block]
      unfold runWith inLoopScope
      simp only [given]
      change Run.inBlock ([_, _].forM _) machine = _
      rw [forM_pair]
      refine Run.inBlock_congr founded fun machine founded => ?_
      have frames := (program_frames library patience (stack + 3)).2 initial _ fun _ _ => trivial
      exact Run.andThen_eq frames founded rfl fun _ => same

/-- Unless the stack is used up, the tree and the clauses come to the same, on the same machine at the
end. -/
theorem tree_runs (library : Library) (patience stack : Nat) (quiet : clauses.body.declared = [])
    (founded : machine.Founded library) :
    (Run.Sufficed (clauses.run library patience stack machine) →
      execute library patience (stack + 4) clauses.tree machine =
        clauses.run library patience stack machine) ∧
    (Run.Sufficed (execute library patience stack clauses.tree machine) →
      clauses.run library patience (stack + 4) machine =
        execute library patience stack clauses.tree machine) := by
  obtain ⟨first, second, third, fourth, levels, same⟩ := execute_tree library patience stack quiet
  simp only [List.forall_mem_cons] at levels
  obtain ⟨⟨one, below⟩, ⟨two, under⟩, ⟨three, beneath⟩, ⟨four, last⟩, -⟩ := levels
  constructor
  · intro sufficed
    rw [same machine founded]
    exact (deeper_runWith library patience clauses one two three four).eq machine sufficed
  · intro sufficed
    -- With four more levels the tree comes to the same, and then the clauses can be compared.
    have more := (Lockstep.deeper_execute library patience clauses.tree (Nat.le_add_right stack 4)).eq
      machine sufficed
    rw [← more, same machine founded] at sufficed ⊢
    exact (deeper_runWith library patience clauses below under beneath last).eq machine sufficed

/-- A body that declares nothing outside its blocks leaves every name to mean what it did. -/
theorem owner?_body (library : Library) (patience levels : Nat) (quiet : clauses.body.declared = [])
    (machine : Machine) (name : String) :
    let left := (execute library patience levels clauses.body).ends machine
    left.scopes.owner? left.current name = machine.scopes.owner? machine.current name := by
  have allowed : ∀ name ∈ clauses.body.declared, False := by
    rw [quiet]
    exact nofun
  exact ((program_frames library patience levels).2 clauses.body _ allowed machine).owner?_eq name

/-- A tree does what the clauses of a `for` statement say. -/
structure Means (clauses : ForClauses) (tree : Stmt) : Prop where
  /-- What the clauses come to, the tree comes to, with levels of the stack for its own blocks. -/
  executes (library : Library) (patience stack : Nat) {machine : Machine} :
    machine.Founded library → Run.Sufficed (clauses.run library patience stack machine) →
    execute library patience (stack + 4) tree machine = clauses.run library patience stack machine
  /-- What the tree comes to, the clauses come to. -/
  runs (library : Library) (patience stack : Nat) {machine : Machine} :
    machine.Founded library → Run.Sufficed (execute library patience stack tree machine) →
    clauses.run library patience (stack + 4) machine = execute library patience stack tree machine
  /-- The tree comes to an end exactly if the clauses do. -/
  ends (library : Library) {machine : Machine} : machine.Founded library →
    ((∃ patience stack, Run.Ended (execute library patience stack tree machine)) ↔
      ∃ patience stack, Run.Ended (clauses.run library patience stack machine))
  /-- Whatever becomes of the loop, the scopes around it are there again, and the same one is current. -/
  restores (library : Library) (patience stack : Nat) (machine : Machine) :
    machine.SameScopes ((execute library patience stack tree).ends machine)
  /-- After the body, as before it, any name is found in the same scope, or in none. So the increment and
  the condition see no name that the body declared. -/
  hides (library : Library) (patience stack : Nat) (machine : Machine) (name : String) :
    let left := (execute library patience stack clauses.body).ends machine
    left.scopes.owner? left.current name = machine.scopes.owner? machine.current name

/-- Where the body declares no name outside its blocks, the tree does what the clauses say. -/
theorem means_tree (clauses : ForClauses) (quiet : clauses.body.declared = []) :
    clauses.Means clauses.tree where
  executes library patience stack _ founded := (tree_runs library patience stack quiet founded).1
  runs library patience stack _ founded := (tree_runs library patience stack quiet founded).2
  ends library machine founded := by
    constructor
    · rintro ⟨patience, stack, ended⟩
      refine ⟨patience, stack + 4, ?_⟩
      rwa [(tree_runs library patience stack quiet founded).2 ended.sufficed]
    · rintro ⟨patience, stack, ended⟩
      refine ⟨patience, stack + 4, ?_⟩
      rwa [(tree_runs library patience stack quiet founded).1 ended.sufficed]
  restores library patience stack machine :=
    ((program_frames library patience stack).2 clauses.tree _ (fun _ _ => trivial) machine).toSameScopes
  hides library patience stack := owner?_body library patience stack quiet

end

end ForClauses

end Lox
