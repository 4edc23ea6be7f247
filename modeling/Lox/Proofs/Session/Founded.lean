import Lox.Proofs.Evaluation.Inserted
import Lox.Proofs.Session.Order

/-!
# Sessions refer to scopes that there are

The current scope, the scopes around a scope and the scope that a closure captured are always there. It is
so in a new session, which has no scope but the global one, and no operation changes it, whatever its
outcome.
-/
namespace Lox.Session

/-- Whatever refers to a scope refers to one that there is. -/
def Founded (session : Session) : Prop := session.machine.Founded session.library

/-- Operations on one session side by side with themselves. -/
def founding : Pairing Escape Escape Session Session where
  state one other := one = other ∧ one.Founded
  error := Eq
  excused _ := False

/-- An operation leaves no reference to a scope that is not there. -/
abbrev Keeps {α : Type} (operate : Operate α) : Prop := founding.Runs Eq operate operate

theorem start_founded (time : Float) : (start time).Founded where
  current := Nat.lt_succ_self 0
  outer := by
    rintro outer member id inside
    cases List.mem_singleton.mp member
    cases inside
  captured id := Nat.lt_succ_self 0

section

variable {α : Type} {operate : Operate α} {session : Session} {limits : Limits}

theorem Keeps.left (keeps : Keeps operate) (founded : session.Founded) :
    (left (operate session)).Founded := by
  have outcome := keeps session session ⟨rfl, founded⟩
  generalize operate session = one at outcome ⊢
  cases outcome with
  | ok _ same => exact same.2
  | error _ same => exact same.2
  | excused impossible => exact impossible.elim

/-- Other machines with the same scopes refer to them alike. -/
theorem Founded.machine (founded : session.Founded) {machine : Machine}
    (same : session.machine.SameScopes machine) : { session with machine }.Founded :=
  Machine.Founded.of_sameScopes founded same

theorem keeps_modify {change : Session → Session}
    (keeps : ∀ session : Session, session.Founded → (change session).Founded) :
    Keeps (modify change : Operate PUnit) := by
  rintro session _ ⟨rfl, founded⟩
  exact .ok rfl ⟨rfl, keeps session founded⟩

theorem keeps_get : founding.Runs (fun one other => one = other ∧ one.Founded) (get : Operate Session)
    get := by
  rintro session _ ⟨rfl, founded⟩
  exact .ok ⟨rfl, founded⟩ ⟨rfl, founded⟩

theorem keeps_set (founded : session.Founded) : Keeps (set session : Operate PUnit) :=
  fun _ _ _ => .ok rfl ⟨rfl, founded⟩

theorem keeps_updateLog (change : Log → Log) : Keeps (updateLog change) :=
  keeps_modify fun _ founded => founded

/-! ### Definitions -/

theorem keeps_define (name : String) (value : Value) : Keeps (define name value) :=
  keeps_modify fun _ founded => founded.machine ⟨rfl, Scopes.links_define _ _ _ _⟩

theorem keeps_defineNative (name : String) (arity : Nat) (native : Value → Native) :
    Keeps (defineNative name arity native) := by
  apply Pairing.Runs.bind keeps_get
  rintro session _ ⟨rfl, -⟩
  refine .bind (keeps_modify fun _ founded => ?_) fun _ _ _ => keeps_define _ _
  exact ⟨founded.current, founded.outer, founded.captured⟩

/-! ### Texts -/

theorem keeps_scan (source : String) : Keeps (scan source) :=
  .bind (keeps_updateLog _) fun _ _ _ => .pure rfl

theorem keeps_read (limits : Limits) (tokens : List Token) : Keeps (read limits tokens) := by
  unfold read
  split
  · exact .bind (keeps_updateLog _) fun _ _ _ => .pure rfl
  · exact .bind (keeps_updateLog _) fun _ _ _ => .throw rfl

theorem keeps_parse (limits : Limits) (source : String) : Keeps (parse limits source) := by
  apply Pairing.Runs.bind (keeps_scan source)
  rintro tokens _ rfl
  exact keeps_read limits tokens

theorem links_foldl_define (scope : Nat) (bindings : List (String × Value)) (scopes : Scopes) :
    (bindings.foldl (fun scopes (bound, value) => scopes.define scope bound value) scopes).links =
      scopes.links := by
  induction bindings generalizing scopes with
  | nil => rfl
  | cons binding bindings ih => exact (ih _).trans (Scopes.links_define _ _ _ _)

/-- A closure captures a scope that is made for it inside the global one. -/
theorem Founded.closure (founded : session.Founded) (parameters : List String) (body : List Stmt)
    {filled : Scopes} (same : filled.links = (session.machine.scopes.new (some globals)).1.links) :
    Founded { session with
      machine := { session.machine with scopes := filled }
      closures := session.closures.push ⟨parameters, body, session.machine.scopes.all.size⟩ } := by
  have size : filled.all.size = session.machine.scopes.all.size + 1 :=
    (Scopes.size_eq_of_links same).trans (Scopes.size_new _ _)
  -- The scope of a number that was never given out is the global one.
  have outermost : globals < session.machine.scopes.all.size := by
    have captured := founded.captured session.closures.size
    simpa [library] using captured
  refine ⟨?_, ?_, fun id => ?_⟩
  · exact size ▸ Nat.lt_succ_of_lt founded.current
  · simp only [same, size]
    exact founded.outer_new outermost
  · have captured := founded.captured id
    unfold library at captured ⊢
    simp only [size, Array.getElem?_push] at captured ⊢
    split
    · exact Nat.lt_succ_self _
    · exact Nat.lt_succ_of_lt captured

theorem keeps_defineClosure (limits : Limits) (name : String) (parameters : List String) (body : String)
    (captured : List (String × Value)) : Keeps (defineClosure limits name parameters body captured) := by
  apply Pairing.Runs.bind (keeps_parse limits body)
  rintro stmts _ rfl
  apply Pairing.Runs.bind keeps_get
  rintro session _ ⟨rfl, founded⟩
  have kept := founded.closure parameters stmts
    (links_foldl_define session.machine.scopes.all.size captured _)
  exact .bind (keeps_set kept) fun _ _ _ => keeps_define _ _

/-! ### Running -/

theorem keeps_attempt (limits : Limits) (stmt : Stmt) : Keeps (attempt limits stmt) := by
  rintro session _ ⟨rfl, founded⟩
  have frames := (program_frames session.library limits.patience limits.stack).2 stmt _ fun _ _ => trivial
  unfold attempt
  split
  next executed => exact .ok rfl ⟨rfl, founded.machine (frames.ok executed).toSameScopes⟩
  next executed => exact .ok rfl ⟨rfl, founded.machine (frames.error executed).toSameScopes⟩
  next executed => exact .ok rfl ⟨rfl, founded.machine (frames.error executed).toSameScopes⟩
  next executed => exact .error rfl ⟨rfl, founded.machine (frames.error executed).toSameScopes⟩

theorem keeps_interpret (limits : Limits) (stmts : List Stmt) : Keeps (interpret limits stmts) := by
  induction stmts with
  | nil => exact .pure rfl
  | cons stmt stmts ih => exact .bind (keeps_attempt limits stmt) fun _ _ _ => ih

theorem keeps_print (limits : Limits) (stmts : List Stmt) : Keeps (print limits stmts) := by
  unfold print
  split
  · exact .pure rfl
  · exact .throw rfl

theorem keeps_run (limits : Limits) (source : String) (traced : Bool) :
    Keeps (run limits source traced) := by
  apply Pairing.Runs.bind (keeps_scan source)
  rintro tokens _ rfl
  apply Pairing.Runs.bind keeps_get
  rintro session _ ⟨rfl, -⟩
  split
  · exact .pure rfl
  apply Pairing.Runs.bind (keeps_read limits tokens)
  rintro stmts _ rfl
  -- What follows is the same whether the statements were written out or not.
  have executes (trace : String) : Keeps (do
      if (← get).log.hasStatic then pure ⟨false, trace⟩
      else
        updateLog (·.enter "executing")
        interpret limits stmts
        pure ⟨!(← get).log.hasRuntime, trace⟩ : Operate Outcome) := by
    apply Pairing.Runs.bind keeps_get
    rintro session _ ⟨rfl, -⟩
    split
    · exact .pure rfl
    refine .bind (keeps_updateLog _) fun _ _ _ => ?_
    refine .bind (keeps_interpret limits stmts) fun _ _ _ => ?_
    apply Pairing.Runs.bind keeps_get
    rintro session _ ⟨rfl, -⟩
    exact .pure rfl
  cases traced with
  | false => exact executes _
  | true =>
    apply Pairing.Runs.bind (.map (keeps_print limits stmts) fun _ _ same => congrArg statementTrace same)
    rintro shown _ rfl
    exact executes _

theorem keeps_takeOutput : Keeps takeOutput := by
  rintro session _ ⟨rfl, founded⟩
  exact .ok rfl ⟨rfl, founded.machine ⟨rfl, rfl⟩⟩

/-! ### One operation after another -/

/-- A session that operations lead to from a new one, whatever the outcome of each. -/
inductive Reached (limits : Limits) : Session → Prop where
  | start (time : Float) : Reached limits (start time)
  | define {session : Session} (name : String) (value : Value) :
      Reached limits session → Reached limits (left (define name value session))
  | defineNative {session : Session} (name : String) (arity : Nat) (native : Value → Native) :
      Reached limits session → Reached limits (left (defineNative name arity native session))
  | defineClosure {session : Session} (name : String) (parameters : List String) (body : String)
      (captured : List (String × Value)) :
      Reached limits session →
      Reached limits (left (defineClosure limits name parameters body captured session))
  | parse {session : Session} (source : String) :
      Reached limits session → Reached limits (left (parse limits source session))
  | interpret {session : Session} (stmts : List Stmt) :
      Reached limits session → Reached limits (left (interpret limits stmts session))
  | run {session : Session} (source : String) (traced : Bool) :
      Reached limits session → Reached limits (left (run limits source traced session))
  | takeOutput {session : Session} :
      Reached limits session → Reached limits (left (takeOutput session))

theorem Reached.founded (reached : Reached limits session) : session.Founded := by
  induction reached with
  | start time => exact start_founded time
  | define name value _ ih => exact (keeps_define name value).left ih
  | defineNative name arity native _ ih => exact (keeps_defineNative name arity native).left ih
  | defineClosure name parameters body captured _ ih =>
    exact (keeps_defineClosure limits name parameters body captured).left ih
  | parse source _ ih => exact (keeps_parse limits source).left ih
  | interpret stmts _ ih => exact (keeps_interpret limits stmts).left ih
  | run source traced _ ih => exact (keeps_run limits source traced).left ih
  | takeOutput _ ih => exact keeps_takeOutput.left ih

end

end Lox.Session
