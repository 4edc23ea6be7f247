import Lox.Proofs.Evaluation.Chains

/-!
# Execution refines the rules of the frames

Whatever the machine comes to when it executes a statement, the rules of the frames account for, as
long as the patience lasts. What the rules say of a statement, the machine comes to for every patience
that is large enough.
-/
namespace Lox.Frames

section

variable {library : Library} {ids : List Nat} {machine : Machine} {store : Store} {stmt : Stmt}

/-! ### From the machine to the rules -/

/-- The rules lead from a store, over some statements, to what a machine came to. Nothing is said when
the patience is used up, and the stack is not. -/
inductive Accounts (host : Nat → Native) (ids : List Nat) (stmts : List Stmt) (store : Store) :
    EStateM.Result Interrupt Machine Unit → Prop where
  | ok {machine : Machine} {after : Store} :
      Represents ids machine after →
      (∀ more fault final, Executes host more after fault final →
        Executes host (stmts ++ more) store fault final) →
      Accounts host ids stmts store (.ok () machine)
  | fault {machine : Machine} {after : Store} {fault : Fault} :
      Represents ids machine after → (∀ more, Executes host (stmts ++ more) store (some fault) after) →
      Accounts host ids stmts store (.error (.fault fault) machine)
  | unfinished {machine : Machine} : Accounts host ids stmts store (.error .unfinished machine)

namespace Accounts

variable {host : Nat → Native} {front back stmts : List Stmt} {between : Store}

/-- Where executing some statements is executing others from a later store, these account for it. -/
theorem under {outcome : EStateM.Result Interrupt Machine Unit}
    (accounts : Accounts host ids front between outcome)
    (rule : ∀ more fault final, Executes host (front ++ more) between fault final →
      Executes host (stmts ++ more) store fault final) : Accounts host ids stmts store outcome := by
  cases accounts with
  | ok fits executes => exact .ok fits fun _ _ _ later => rule _ _ _ (executes _ _ _ later)
  | fault fits executes => exact .fault fits fun _ => rule _ _ _ (executes _)
  | unfinished => exact .unfinished

theorem andThen {one next : Run Unit} (accounts : Accounts host ids front store (one machine))
    (onward : ∀ machine between, Represents ids machine between →
      Accounts host ids back between (next machine)) :
    Accounts host ids (front ++ back) store ((one >>= fun _ => next) machine) := by
  change Accounts host ids (front ++ back) store (EStateM.bind one (fun _ => next) machine)
  unfold EStateM.bind
  generalize one machine = outcome at accounts
  cases accounts with
  | ok fits executes =>
    refine (onward _ _ fits).under fun more fault final later => ?_
    rw [List.append_assoc]
    exact executes _ _ _ later
  | fault fits executes =>
    refine .fault fits fun more => ?_
    rw [List.append_assoc]
    exact executes _
  | unfinished => exact .unfinished

theorem forM {step : Stmt → Run Unit}
    (each : ∀ stmt ∈ stmts, ∀ machine store, Represents ids machine store →
      Accounts host ids [stmt] store (step stmt machine))
    (fits : Represents ids machine store) :
    Accounts host ids stmts store (stmts.forM step machine) := by
  induction stmts generalizing machine store with
  | nil => exact .ok fits fun _ _ _ later => later
  | cons stmt stmts ih =>
    obtain ⟨first, others⟩ := List.forall_mem_cons.mp each
    exact (first machine store fits).andThen fun _ _ fits => ih others fits

/-- A statement that begins with an expression is accounted for if what follows it is. -/
theorem subject {subject : Expr} {one : Run Value} {next : Value → Run Unit}
    (first : subject? stmt = some subject) (gives : Gives ids one (evaluate host subject))
    (fits : Represents ids machine store)
    (onward : ∀ value middle after, evaluate host subject store = .ok value after → value.Hosted →
      Represents ids middle after → Accounts host ids [stmt] store (next value middle)) :
    Accounts host ids [stmt] store ((one >>= next) machine) := by
  have step := gives machine store fits
  change Accounts host ids [stmt] store (EStateM.bind one next machine)
  unfold EStateM.bind
  generalize one machine = left, found : evaluate host subject store = right at step
  cases step with
  | ok same fits =>
    obtain ⟨rfl, known⟩ := same
    exact onward _ _ _ found known fits
  | error same fits =>
    subst same
    exact .fault fits fun _ => .fault first found
  | excused impossible => exact impossible.elim

/-- A block is accounted for if its body is, inside one more frame. -/
theorem block {body : List Stmt} {run : Run Unit} (fits : Represents ids machine store)
    (inside : ∀ ids machine store, Represents ids machine store →
      Accounts host ids body store (run machine)) :
    Accounts host ids [.block body] store (Run.inBlock run machine) := by
  have within := inside _ _ _ fits.enter
  unfold Run.inBlock Run.inScope
  simp only
  generalize run _ = outcome at within ⊢
  cases within with
  | ok inner executes =>
    refine .ok (fits.leave inner) fun _ _ _ later => .block ?_ later
    have whole := executes [] none _ .done
    rwa [List.append_nil] at whole
  | fault inner executes =>
    refine .fault (fits.leave inner) fun _ => .blockFault ?_
    have whole := executes []
    rwa [List.append_nil] at whole
  | unfinished => exact .unfinished

end Accounts

/-! ### Whole statements -/

theorem discard_eq_bind {α : Type} (one : Run α) :
    (discard one : Run Unit) = one >>= fun _ => pure () :=
  map_eq_pure_bind _ one

/-- A round of a loop evaluates the condition, and goes on with the body if it holds. -/
theorem repeatWhile_succ (condition : Run Value) (body : Run Unit) (rounds : Nat) :
    Run.repeatWhile (Value.truthy <$> condition) body (rounds + 1) =
      (do
        let value ← condition
        if value.truthy then
          body
          Run.repeatWhile (Value.truthy <$> condition) body rounds) := by
  rw [Run.repeatWhile, bind_map_left]

theorem loop_accounts {host : Nat → Native} {condition : Expr} {body : Stmt} {test : Run Value}
    {step : Run Unit} (gives : ∀ ids, Gives ids test (evaluate host condition))
    (inside : ∀ machine store, Represents ids machine store →
      Accounts host ids [body] store (step machine))
    (rounds : Nat) (fits : Represents ids machine store) :
    Accounts host ids [.loop condition body] store
      (Run.repeatWhile (Value.truthy <$> test) step rounds machine) := by
  induction rounds generalizing machine store with
  | zero => exact .unfinished
  | succ rounds ih =>
    rw [repeatWhile_succ]
    refine .subject rfl (gives ids) fits fun value middle after found _ fits => ?_
    cases holds : value.truthy with
    | true =>
      rw [if_pos rfl]
      refine ((inside middle after fits).andThen fun _ _ fits => ih fits).under ?_
      exact fun _ _ _ later => .round found holds later
    | false =>
      rw [if_neg Bool.false_ne_true]
      exact .ok fits fun _ _ _ later => .leave found holds later

/-- With a level of the stack for each of its own, whatever a statement comes to is accounted for. -/
theorem execute_accounts (hosted : library.Hosted) (patience : Nat) {stack : Nat}
    (known : stmt.Hosted) (deep : stmt.depth ≤ stack) (fits : Represents ids machine store) :
    Accounts library.native ids [stmt] store (execute library patience stack stmt machine) := by
  -- The body of a block or a loop is executed a level further down than the statement itself.
  induction stack generalizing stmt ids machine store with
  | zero => exact absurd deep (Nat.not_le.mpr stmt.depth_pos)
  | succ stack ih =>
    cases known with
    | expression value =>
      change Accounts _ _ _ _ ((discard (Lox.evaluate library patience stack _) : Run Unit) machine)
      rw [discard_eq_bind]
      refine .subject rfl (gives_evaluate hosted patience value (Nat.le_of_succ_le_succ deep)) fits ?_
      intro result middle after found _ fits
      exact .ok fits fun _ _ _ later => .expression found later
    | print value =>
      refine .subject rfl (gives_evaluate hosted patience value (Nat.le_of_succ_le_succ deep)) fits ?_
      intro result middle after found _ fits
      exact .ok (fits.print result.printed) fun _ _ _ later => .print found later
    | declare =>
      have known : Value.nil.Hosted := trivial
      exact .ok (fits.bind known _) fun _ _ _ later => .declare later
    | declareAs initial =>
      refine .subject rfl (gives_evaluate hosted patience initial (Nat.le_of_succ_le_succ deep)) fits ?_
      intro result middle after found known fits
      exact .ok (fits.bind known _) fun _ _ _ later => .declareAs found later
    | block body =>
      have each := Stmt.depthAll_le.mp (Nat.le_of_succ_le_succ deep)
      refine .block fits fun ids machine store fits => .forM (fun stmt member machine store fits => ?_) fits
      exact ih (body stmt member) (each stmt member) fits
    | ifThen condition yes =>
      obtain ⟨test, first⟩ := Nat.max_le.mp (Nat.le_of_succ_le_succ deep)
      refine .subject rfl (gives_evaluate hosted patience condition test) fits ?_
      intro result middle after found _ fits
      split
      next holds => exact (ih yes first fits).under fun _ _ _ later => .yes found holds later
      next fails =>
        exact .ok fits fun _ _ _ later => .no found (Bool.eq_false_iff.mpr fails) later
    | ifElse condition yes no =>
      obtain ⟨test, both⟩ := Nat.max_le.mp (Nat.le_of_succ_le_succ deep)
      obtain ⟨first, second⟩ := Nat.max_le.mp both
      refine .subject rfl (gives_evaluate hosted patience condition test) fits ?_
      intro result middle after found _ fits
      split
      next holds => exact (ih yes first fits).under fun _ _ _ later => .yes found holds later
      next fails =>
        exact (ih no second fits).under fun _ _ _ later =>
          .no found (Bool.eq_false_iff.mpr fails) later
    | loop condition body =>
      obtain ⟨test, inner⟩ := Nat.max_le.mp (Nat.le_of_succ_le_succ deep)
      exact loop_accounts (fun _ => gives_evaluate hosted patience condition test)
        (fun _ _ fits => ih body inner fits) patience fits

/-! ### More patience -/

/-- A program without closures beside itself, with more patience. -/
def patient : Likeness := .lines Eq fun interrupt => interrupt = .unfinished

theorem patient_runs (hosted : library.Hosted) (stack : Nat) {patience longer : Nat}
    (more : patience ≤ longer) :
    (∀ expr, expr.Hosted → patient.Steps Value.Hosted (Lox.evaluate library patience stack expr)
      (Lox.evaluate library longer stack expr)) ∧
    ∀ stmt, stmt.Hosted → patient.Acts (execute library patience stack stmt)
      (execute library longer stack stmt) := by
  have kept : patient.Kept library library := Likeness.lines_kept hosted
  obtain ⟨values, acts⟩ := kept.runs (Nat.le_refl stack) (fun less => absurd less (Nat.lt_irrefl _))
    more fun _ => rfl
  exact ⟨fun expr known => values expr expr (known.like_self fun _ => rfl),
    fun stmt known => acts stmt stmt (known.like_self fun _ => rfl)⟩

/-! ### From the rules to the machine -/

/-- A machine came to the end that the rules tell of. -/
inductive Ends (ids : List Nat) : Option Fault → Store → EStateM.Result Interrupt Machine Unit → Prop
  where
  | ok {machine : Machine} {after : Store} :
      Represents ids machine after → Ends ids none after (.ok () machine)
  | fault {machine : Machine} {after : Store} {fault : Fault} :
      Represents ids machine after → Ends ids (some fault) after (.error (.fault fault) machine)

/-- With more patience a machine comes to the same end. -/
theorem Ends.patient {fault : Option Fault} {after : Store}
    {left right : EStateM.Result Interrupt Machine Unit} (ends : Ends ids fault after left)
    (alike : patient.pairing.Outcomes (fun _ _ => True) left right) : Ends ids fault after right := by
  cases ends with
  | ok fits =>
    cases alike with
    | ok _ same =>
      obtain ⟨rfl, -⟩ := same
      exact .ok fits
  | @fault _ _ fault fits =>
    cases alike with
    | error stops same =>
      obtain ⟨rfl, -⟩ := same
      cases stops with
      | @fault _ other same =>
        obtain ⟨cause, line⟩ := fault
        obtain ⟨_, place⟩ := other
        obtain ⟨rfl, same⟩ := same
        cases same with
        | none => exact .fault fits
        | some same =>
          subst same
          exact .fault fits
    | excused impossible => cases impossible

/-- Statements, each with the levels of the stack that there are for it. -/
abbrev Plan := List (Nat × Stmt)

/-- Statements are executed one after another. -/
def perform (library : Library) (patience : Nat) (plan : Plan) : Run Unit :=
  plan.forM fun item => execute library patience item.1 item.2

/-- There are no closures, and levels enough. -/
def Plan.Ready (plan : Plan) : Prop := ∀ item ∈ plan, item.2.Hosted ∧ item.2.depth ≤ item.1

theorem perform_cons (library : Library) (patience stack : Nat) (stmt : Stmt) (plan : Plan) :
    perform library patience ((stack, stmt) :: plan) =
      (execute library patience stack stmt >>= fun _ => perform library patience plan) :=
  rfl

/-- A plan that is ready has a level for its first statement. -/
theorem Plan.Ready.cons {plan : Plan} {more : List Stmt} (ready : plan.Ready)
    (same : plan.map Prod.snd = stmt :: more) : ∃ stack rest, plan = (stack + 1, stmt) :: rest ∧
      rest.map Prod.snd = more ∧ stmt.Hosted ∧ stmt.depth ≤ stack + 1 ∧ Plan.Ready rest := by
  obtain ⟨⟨levels, first⟩, rest, rfl, rfl, rfl⟩ := List.map_eq_cons_iff.mp same
  obtain ⟨⟨known, deep⟩, others⟩ := List.forall_mem_cons.mp ready
  obtain ⟨stack, rfl⟩ : ∃ stack, levels = stack + 1 := ⟨levels - 1, by
    have some := first.depth_pos
    simp only at deep
    omega⟩
  exact ⟨stack, rest, rfl, rfl, known, deep, others⟩

/-- The statements of a block have the levels below it. -/
theorem Plan.Ready.block {body : List Stmt} {stack : Nat} (known : (Stmt.block body).Hosted)
    (deep : (Stmt.block body).depth ≤ stack + 1) : Plan.Ready (body.map (Prod.mk stack)) := by
  cases known with
  | block all =>
    have each := Stmt.depthAll_le.mp (Nat.le_of_succ_le_succ deep)
    exact List.forall_mem_map.mpr fun stmt member => ⟨all stmt member, each stmt member⟩

/-- The parts of a branch have the levels below it. -/
theorem branch_ready {condition : Expr} {yes : Stmt} {no : Option Stmt} {stack : Nat}
    (known : (Stmt.branch condition yes no).Hosted)
    (deep : (Stmt.branch condition yes no).depth ≤ stack + 1) :
    Plan.Ready [(stack, yes)] ∧ Plan.Ready (no.toList.map (Prod.mk stack)) := by
  cases known with
  | ifThen _ first =>
    obtain ⟨-, one⟩ := Nat.max_le.mp (Nat.le_of_succ_le_succ deep)
    simp [Plan.Ready, first, one]
  | ifElse _ first second =>
    obtain ⟨-, both⟩ := Nat.max_le.mp (Nat.le_of_succ_le_succ deep)
    obtain ⟨one, two⟩ := Nat.max_le.mp both
    simp [Plan.Ready, first, second, one, two]

theorem gives_ok {one : Run Value} {other : Walk Value} {value : Value} {after : Store}
    (gives : Gives ids one other) (fits : Represents ids machine store)
    (found : other store = .ok value after) :
    ∃ middle, one machine = .ok value middle ∧ Represents ids middle after ∧ value.Hosted := by
  have step := gives machine store fits
  rw [found] at step
  generalize one machine = left at step
  cases step with
  | ok same fits =>
    obtain ⟨rfl, known⟩ := same
    exact ⟨_, rfl, fits, known⟩
  | excused impossible => exact impossible.elim

theorem gives_error {one : Run Value} {other : Walk Value} {fault : Fault} {after : Store}
    (gives : Gives ids one other) (fits : Represents ids machine store)
    (found : other store = .error fault after) :
    ∃ middle, one machine = .error (.fault fault) middle ∧ Represents ids middle after := by
  have step := gives machine store fits
  rw [found] at step
  generalize one machine = left at step
  cases step with
  | error same fits =>
    subst same
    exact ⟨_, rfl, fits⟩
  | excused impossible => exact impossible.elim

/-- What a statement does with the value of the expression that it begins with. -/
def follow (library : Library) (patience stack : Nat) : Stmt → Value → Run Unit
  | .expression _, _ | .block _, _ => pure ()
  | .print _, value => Run.print value.printed
  | .declare target _, value => Run.define target.lexeme value
  | .branch _ yes no, value =>
    if value.truthy then execute library (patience + 1) stack yes
    else match no with
      | some no => execute library (patience + 1) stack no
      | none => pure ()
  | .loop condition body, value =>
    if value.truthy then do
      execute library (patience + 1) stack body
      Run.repeatWhile (Value.truthy <$> Lox.evaluate library (patience + 1) stack condition)
        (execute library (patience + 1) stack body) patience
    else pure ()

/-- A statement begins with its expression. -/
theorem execute_subject {subject : Expr} (first : subject? stmt = some subject) (patience stack : Nat) :
    execute library (patience + 1) (stack + 1) stmt =
      Lox.evaluate library (patience + 1) stack subject >>= follow library patience stack stmt := by
  cases stmt with
  | expression value =>
    cases first
    exact discard_eq_bind _
  | print value =>
    cases first
    rfl
  | declare target initial =>
    cases initial with
    | none => cases first
    | some initial =>
      cases first
      rfl
  | block body => cases first
  | branch condition yes no =>
    cases first
    rfl
  | loop condition body =>
    cases first
    exact repeatWhile_succ _ _ _

/-- The expression that a statement begins with is a level below it. -/
theorem subject_hosted {subject : Expr} (known : stmt.Hosted) (first : subject? stmt = some subject) :
    subject.Hosted ∧ subject.depth + 1 ≤ stmt.depth := by
  cases known with
  | expression value | print value | declareAs value =>
    cases first
    exact ⟨value, Nat.le_refl _⟩
  | declare | block => cases first
  | ifThen condition | ifElse condition | loop condition =>
    cases first
    exact ⟨condition, Nat.succ_le_succ (Nat.le_max_left _ _)⟩

variable {plan : Plan} {stack : Nat} {fault : Option Fault} {middle after : Store}

/-- From a store on, with enough patience, a machine comes to the end that the rules tell of. -/
def Settles (library : Library) (plan : Plan) (store : Store) (fault : Option Fault) (after : Store) :
    Prop :=
  ∃ enough, ∀ patience, enough ≤ patience → ∀ ids machine, Represents ids machine store →
    Ends ids fault after (perform library patience plan machine)

/-- Once a statement has the value of its expression, what follows decides. -/
theorem Settles.subject {subject : Expr} {value : Value} (hosted : library.Hosted)
    (known : stmt.Hosted) (deep : stmt.depth ≤ stack + 1) (first : subject? stmt = some subject)
    (found : evaluate library.native subject store = .ok value middle)
    (onward : ∃ enough, ∀ patience, enough ≤ patience → ∀ ids machine, Represents ids machine middle →
      value.Hosted → Ends ids fault after
        ((follow library patience stack stmt value >>= fun _ => perform library (patience + 1) plan)
          machine)) :
    Settles library ((stack + 1, stmt) :: plan) store fault after := by
  obtain ⟨enough, ends⟩ := onward
  obtain ⟨plain, less⟩ := subject_hosted known first
  refine ⟨enough + 1, fun patience more ids machine fits => ?_⟩
  obtain ⟨patience, rfl⟩ : ∃ less, patience = less + 1 := ⟨patience - 1, by omega⟩
  obtain ⟨between, gave, fits, known⟩ :=
    gives_ok (gives_evaluate hosted (patience + 1) plain (Nat.le_of_succ_le_succ (less.trans deep)))
      fits found
  rw [perform_cons, execute_subject first, bind_assoc, andThen_ok gave]
  exact ends patience (Nat.le_of_succ_le_succ more) ids between fits known

/-- A statement whose value leaves some statements to do comes to the end that they come to. -/
theorem Settles.leaves {subject : Expr} {value : Value} {next : Plan} {later : Store}
    (hosted : library.Hosted) (known : stmt.Hosted) (deep : stmt.depth ≤ stack + 1)
    (first : subject? stmt = some subject)
    (found : evaluate library.native subject store = .ok value middle)
    (settles : Settles library next later fault after)
    (left : ∀ patience ids machine, Represents ids machine middle → value.Hosted →
      ∃ moved, Represents ids moved later ∧
        (follow library patience stack stmt value >>= fun _ => perform library (patience + 1) plan)
          machine = perform library (patience + 1) next moved) :
    Settles library ((stack + 1, stmt) :: plan) store fault after := by
  obtain ⟨enough, ends⟩ := settles
  refine .subject hosted known deep first found ⟨enough, fun patience more ids machine fits given => ?_⟩
  obtain ⟨moved, fits, same⟩ := left patience ids machine fits given
  rw [same]
  exact ends (patience + 1) (Nat.le_succ_of_le more) ids moved fits

/-- A statement whose expression raises a fault comes to an end. -/
theorem Settles.stops {subject : Expr} {fault : Fault} (hosted : library.Hosted)
    (known : stmt.Hosted) (deep : stmt.depth ≤ stack + 1) (first : subject? stmt = some subject)
    (found : evaluate library.native subject store = .error fault after) :
    Settles library ((stack + 1, stmt) :: plan) store (some fault) after := by
  obtain ⟨plain, less⟩ := subject_hosted known first
  refine ⟨1, fun patience more ids machine fits => ?_⟩
  obtain ⟨patience, rfl⟩ : ∃ less, patience = less + 1 := ⟨patience - 1, by omega⟩
  obtain ⟨between, gave, fits⟩ :=
    gives_error (gives_evaluate hosted (patience + 1) plain (Nat.le_of_succ_le_succ (less.trans deep)))
      fits found
  rw [perform_cons, execute_subject first, bind_assoc, andThen_error gave]
  exact .fault fits

/-- When the body of a block comes to its end, the block does, one frame further out. -/
theorem Ends.block {run : Run Unit} (fits : Represents ids machine store)
    (inside : ∀ ids machine, Represents ids machine store.enter → Ends ids fault after (run machine)) :
    Ends ids fault after.leave (Run.inBlock run machine) := by
  have within := inside _ _ fits.enter
  unfold Run.inBlock Run.inScope
  simp only
  generalize run _ = outcome at within ⊢
  cases within with
  | ok inner => exact .ok (fits.leave inner)
  | fault inner => exact .fault (fits.leave inner)

theorem execute_block (library : Library) (patience stack : Nat) (body : List Stmt) :
    execute library patience (stack + 1) (.block body) =
      Run.inBlock (perform library patience (body.map (Prod.mk stack))) := by
  rw [perform, List.forM_eq_forM, List.forM_map]
  rfl

/-- A block whose body comes to its end is left, and what follows decides. -/
theorem Settles.block {body : List Stmt}
    (inside : Settles library (body.map (Prod.mk stack)) store.enter none middle)
    (onward : Settles library plan middle.leave fault after) :
    Settles library ((stack + 1, .block body) :: plan) store fault after := by
  obtain ⟨enough, ends⟩ := inside
  obtain ⟨further, later⟩ := onward
  refine ⟨max enough further, fun patience more ids machine fits => ?_⟩
  obtain ⟨first, second⟩ := Nat.max_le.mp more
  have left := Ends.block fits (ends patience first)
  rw [perform_cons, execute_block]
  generalize outcome : Run.inBlock _ machine = result at left
  cases left with
  | ok fits =>
    rw [andThen_ok outcome]
    exact later patience second ids _ fits

/-- A block whose body raises a fault comes to an end, and the block is left all the same. -/
theorem Settles.blockFault {body : List Stmt} {fault : Fault}
    (inside : Settles library (body.map (Prod.mk stack)) store.enter (some fault) after) :
    Settles library ((stack + 1, .block body) :: plan) store (some fault) after.leave := by
  obtain ⟨enough, ends⟩ := inside
  refine ⟨enough, fun patience more ids machine fits => ?_⟩
  have left := Ends.block fits (ends patience more)
  rw [perform_cons, execute_block]
  generalize outcome : Run.inBlock _ machine = result at left
  cases left with
  | fault fits =>
    rw [andThen_error outcome]
    exact .fault fits

/-- What settles with one patience settles with more, and so with a round of a loop less. -/
theorem Settles.round {condition : Expr} {body : Stmt} (hosted : library.Hosted) (test : condition.Hosted)
    (inner : body.Hosted) (ready : plan.Ready)
    (settles : Settles library ((stack, body) :: (stack + 1, .loop condition body) :: plan) store fault
      after) : ∃ enough, ∀ patience, enough ≤ patience → ∀ ids machine, Represents ids machine store →
      Ends ids fault after
        ((do
          execute library (patience + 1) stack body
          Run.repeatWhile (Value.truthy <$> Lox.evaluate library (patience + 1) stack condition)
            (execute library (patience + 1) stack body) patience
          perform library (patience + 1) plan) machine) := by
  obtain ⟨enough, ends⟩ := settles
  refine ⟨enough, fun patience more ids machine fits => ?_⟩
  -- What ends with some patience ends in the same way with more, round by round.
  refine (ends patience more ids machine fits).patient ?_
  obtain ⟨values, acts⟩ := patient_runs hosted stack (Nat.le_succ patience)
  have bodies := acts body inner
  have tests : patient.Steps (fun _ => True)
      (Value.truthy <$> Lox.evaluate library patience stack condition)
      (Value.truthy <$> Lox.evaluate library (patience + 1) stack condition) := by
    refine .map (values condition test) ?_
    rintro value _ ⟨rfl, -⟩
    exact ⟨rfl, trivial⟩
  have rounds : patient.Acts (execute library patience (stack + 1) (.loop condition body)) _ :=
    Likeness.repeatWhile tests bodies (Nat.le_refl patience) fun less => absurd less (Nat.lt_irrefl _)
  have rest : patient.Acts (perform library patience plan) (perform library (patience + 1) plan) := by
    refine .forM_self fun step member => ?_
    obtain ⟨-, acts⟩ := patient_runs hosted step.1 (Nat.le_succ patience)
    exact acts step.2 (ready step member).1
  have whole := Pairing.Runs.bind bodies fun _ _ _ => Pairing.Runs.bind rounds fun _ _ _ => rest
  exact whole machine machine ⟨rfl, fits.hosted⟩

/-- With a level of the stack for each of its own, a list of statements comes to the end that the rules
tell of. -/
theorem executes_settles (hosted : library.Hosted) {stmts : List Stmt}
    (executes : Executes library.native stmts store fault after) (ready : plan.Ready)
    (same : plan.map Prod.snd = stmts) : Settles library plan store fault after := by
  -- A plan has a level for each statement: a body is executed before its loop, but a level below it.
  induction executes generalizing plan with
  | done =>
    obtain rfl := List.map_eq_nil_iff.mp same
    exact ⟨0, fun _ _ _ _ fits => .ok fits⟩
  | expression found _ ih =>
    obtain ⟨stack, rest, rfl, others, known, deep, ready⟩ := ready.cons same
    refine .leaves hosted known deep rfl found (ih ready others) fun _ _ machine fits _ => ?_
    exact ⟨machine, fits, rfl⟩
  | print found _ ih =>
    obtain ⟨stack, rest, rfl, others, known, deep, ready⟩ := ready.cons same
    refine .leaves hosted known deep rfl found (ih ready others) fun _ _ machine fits _ => ?_
    exact ⟨_, fits.print _, rfl⟩
  | declare _ ih =>
    obtain ⟨stack, rest, rfl, others, known, deep, ready⟩ := ready.cons same
    obtain ⟨enough, ends⟩ := ih ready others
    refine ⟨enough, fun patience more ids machine fits => ?_⟩
    have nil : Value.nil.Hosted := trivial
    exact ends patience more ids _ (fits.bind nil _)
  | declareAs found _ ih =>
    obtain ⟨stack, rest, rfl, others, known, deep, ready⟩ := ready.cons same
    refine .leaves hosted known deep rfl found (ih ready others) fun _ _ machine fits given => ?_
    exact ⟨_, fits.bind given _, rfl⟩
  | block _ _ ihBody ihMore =>
    obtain ⟨stack, rest, rfl, others, known, deep, ready⟩ := ready.cons same
    exact .block (ihBody (.block known deep) (by simp)) (ihMore ready others)
  | blockFault _ ih =>
    obtain ⟨stack, rest, rfl, others, known, deep, -⟩ := ready.cons same
    exact .blockFault (ih (.block known deep) (by simp))
  | yes found holds _ ih =>
    obtain ⟨stack, rest, rfl, others, known, deep, ready⟩ := ready.cons same
    obtain ⟨yes, -⟩ := branch_ready known deep
    have settles := ih (List.forall_mem_append.mpr ⟨yes, ready⟩) (by simp [others])
    refine .leaves hosted known deep rfl found settles fun _ _ machine fits _ => ⟨machine, fits, ?_⟩
    simp only [follow, if_pos holds]
    rfl
  | @no _ _ _ no _ _ _ _ _ found fails _ ih =>
    obtain ⟨stack, rest, rfl, others, known, deep, ready⟩ := ready.cons same
    obtain ⟨-, otherwise⟩ := branch_ready known deep
    have settles := ih (List.forall_mem_append.mpr ⟨otherwise, ready⟩) (by simp [others])
    refine .leaves hosted known deep rfl found settles fun _ _ machine fits _ => ⟨machine, fits, ?_⟩
    simp only [follow, if_neg (Bool.eq_false_iff.mp fails)]
    cases no with
    | none => rfl
    | some no => rfl
  | @round _ _ body _ _ _ _ _ found holds _ ih =>
    obtain ⟨stack, rest, rfl, others, known, deep, ready⟩ := ready.cons same
    cases known with
    | loop test inner =>
      have below := (Nat.max_le.mp (Nat.le_of_succ_le_succ deep)).2
      have again : Plan.Ready ((stack, body) :: (stack + 1, .loop _ body) :: rest) :=
        List.forall_mem_cons.mpr ⟨⟨inner, below⟩,
          List.forall_mem_cons.mpr ⟨⟨.loop test inner, deep⟩, ready⟩⟩
      have settles := ih again (by simp [others])
      -- The loop that goes on has a round less than the loop that the rules speak of.
      obtain ⟨enough, ends⟩ := settles.round hosted test inner ready
      refine .subject hosted (.loop test inner) deep rfl found
        ⟨enough, fun patience more ids machine fits _ => ?_⟩
      rw [follow, if_pos holds, bind_assoc]
      exact ends patience more ids machine fits
  | leave found fails _ ih =>
    obtain ⟨stack, rest, rfl, others, known, deep, ready⟩ := ready.cons same
    refine .leaves hosted known deep rfl found (ih ready others) fun _ _ machine fits _ =>
      ⟨machine, fits, ?_⟩
    rw [follow, if_neg (Bool.eq_false_iff.mp fails)]
    rfl
  | fault first found =>
    obtain ⟨stack, rest, rfl, others, known, deep, ready⟩ := ready.cons same
    exact .stops hosted known deep first found

end

end Lox.Frames
