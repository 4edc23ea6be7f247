import Lox.Proofs.Evaluation.Hosted
import Lox.Proofs.Session.Phases

/-!
# Statement lists that run alike

What single statements keep, lists of top-level statements keep, whatever becomes of each. The
diagnostics that they add correspond one by one.
-/
namespace Lox

/-- How a fault is logged. -/
def Fault.diagnostic (fault : Fault) (stage : String) : Diagnostic :=
  ⟨stage, fault.line, fault.cause.message, some fault.cause.kind⟩

/-- How the end of the stack is logged. -/
def Diagnostic.nesting (stage : String) : Diagnostic :=
  ⟨stage, none, "Program nested too deeply to run.", some .nesting⟩

/-! ### What interpretation leaves alone -/

namespace Session

variable {limits : Limits} {session after : Session}

/-- Interpretation changes the machine and adds runtime diagnostics, and nothing else. -/
structure Kept (before after : Session) : Prop where
  natives : after.natives = before.natives
  closures : after.closures = before.closures
  stage : after.log.stage = before.log.stage
  static : after.log.static = before.log.static
  runtime : before.log.runtime <+: after.log.runtime

theorem Kept.refl (session : Session) : session.Kept session :=
  ⟨rfl, rfl, rfl, rfl, List.prefix_refl _⟩

theorem Kept.trans {first second third : Session} (front : first.Kept second)
    (back : second.Kept third) : first.Kept third :=
  ⟨back.natives.trans front.natives, back.closures.trans front.closures,
    back.stage.trans front.stage, back.static.trans front.static, front.runtime.trans back.runtime⟩

theorem attempt_kept {stmt : Stmt} (done : attempt limits stmt session = .ok () after) :
    session.Kept after := by
  unfold attempt at done
  split at done <;> cases done
  · exact ⟨rfl, rfl, rfl, rfl, List.prefix_refl _⟩
  · exact ⟨rfl, rfl, rfl, rfl, List.prefix_append _ _⟩
  · exact ⟨rfl, rfl, rfl, rfl, List.prefix_append _ _⟩

theorem interpret_cons {stmt : Stmt} {stmts : List Stmt} :
    interpret limits (stmt :: stmts) session = .ok () after ↔
      ∃ between, attempt limits stmt session = .ok () between ∧
        interpret limits stmts between = .ok () after := by
  change (attempt limits stmt >>= fun _ => interpret limits stmts) session = _ ↔ _
  rw [andThen_eq_ok]
  exact ⟨fun ⟨_, done⟩ => done, fun done => ⟨⟨⟩, done⟩⟩

theorem interpret_kept {stmts : List Stmt} (done : interpret limits stmts session = .ok () after) :
    session.Kept after := by
  induction stmts generalizing session with
  | nil =>
    cases done
    exact .refl _
  | cons stmt stmts ih =>
    obtain ⟨between, first, rest⟩ := interpret_cons.mp done
    exact (attempt_kept first).trans (ih rest)

theorem interpret_append {one two : List Stmt} :
    interpret limits (one ++ two) session = .ok () after ↔
      ∃ between, interpret limits one session = .ok () between ∧
        interpret limits two between = .ok () after := by
  have split : interpret limits (one ++ two) =
      (interpret limits one >>= fun _ => interpret limits two) := List.forM_append
  rw [split, andThen_eq_ok]
  exact ⟨fun ⟨_, done⟩ => done, fun done => ⟨⟨⟩, done⟩⟩

end Session

/-! ### Side by side -/

namespace Likeness

/-- Diagnostics of faults that correspond, or of one and the same end of the stack. -/
inductive Entry (like : Likeness) : Diagnostic → Diagnostic → Prop where
  | fault {one other : Fault} (stage : String) :
      like.fault one other → Entry like (one.diagnostic stage) (other.diagnostic stage)
  | nesting (stage : String) : Entry like (.nesting stage) (.nesting stage)

/-- Where only lines may differ, diagnostics look alike to views that make up for their lines. -/
theorem entries_map {α : Type} {line : Int → Int → Prop} {excused : Interrupt → Prop}
    {added extra : List Diagnostic} {view twin : Diagnostic → α}
    (each : ∀ (one : Diagnostic) (goal : Option Int), Option.Rel line one.line goal →
      twin { one with line := goal } = view one)
    (same : List.Forall₂ (Likeness.lines line excused).Entry added extra) :
    extra.map twin = added.map view := by
  induction same with
  | nil => rfl
  | cons entry _ ih =>
    rw [List.map_cons, List.map_cons, ih]
    congr 1
    cases entry with
    | nesting stage => exact each (.nesting stage) none .none
    | @fault first second stage same =>
      obtain ⟨cause, line⟩ := first
      obtain ⟨_, goal⟩ := second
      obtain ⟨rfl, same⟩ := same
      exact each (Fault.diagnostic ⟨_, line⟩ stage) goal same

/-- Sessions side by side: apart from the runtime diagnostics, only their machines may differ. -/
structure Beside (like : Likeness) (one other : Session) : Prop where
  machine : like.machine one.machine other.machine
  natives : other.natives = one.natives
  closures : other.closures = one.closures
  stage : other.log.stage = one.log.stage
  static : other.log.static = one.log.static
  kept : like.Kept one.library other.library

/-- Two sessions of which one had some runtime diagnostics and the other had others. Those that came
later correspond. -/
def sessions (like : Likeness) (earlier before : List Diagnostic) :
    Pairing Escape Escape Session Session where
  state one other := like.Beside one other ∧ ∃ added extra,
    one.log.runtime = earlier ++ added ∧ other.log.runtime = before ++ extra ∧
      List.Forall₂ like.Entry added extra
  error one other := one = other
  excused stop := stop = .unfinished ∧ like.excused .unfinished

variable {like : Likeness} {earlier before : List Diagnostic} {limits others : Limits}

/-- A diagnostic is added on both sides. -/
theorem state_added {one other : Session} {first second : Machine} {entry twin : Diagnostic}
    (fits : (like.sessions earlier before).state one other) (machine : like.machine first second)
    (same : like.Entry entry twin) :
    (like.sessions earlier before).state
      { one with
        machine := first
        log := { one.log with runtime := one.log.runtime ++ [entry] } }
      { other with
        machine := second
        log := { other.log with runtime := other.log.runtime ++ [twin] } } := by
  obtain ⟨beside, added, extra, left, right, all⟩ := fits
  refine ⟨⟨machine, beside.natives, beside.closures, beside.stage, beside.static, beside.kept⟩,
    added ++ [entry], extra ++ [twin], ?_, ?_, ?_⟩
  · simp only [left, List.append_assoc]
  · simp only [right, List.append_assoc]
  · exact List.rel_append all (.cons same .nil)

theorem attempt_runs {stmt twin : Stmt} (alike : stmt.Like like twin)
    (stack : limits.stack = others.stack) (patience : limits.patience ≤ others.patience)
    (excuses : limits.patience < others.patience → like.excused .unfinished)
    (only : ∀ interrupt, like.excused interrupt → interrupt = .unfinished) :
    (like.sessions earlier before).Runs (fun _ _ => True) (Session.attempt limits stmt)
      (Session.attempt others twin) := by
  intro one other fits
  have outcome := (fits.1.kept.runs (Nat.le_of_eq stack)
    (fun less => absurd stack (Nat.ne_of_lt less)) patience excuses).2 stmt twin alike
    one.machine other.machine fits.1.machine
  unfold Session.attempt
  generalize execute one.library _ _ stmt _ = left, execute other.library _ _ twin _ = right
    at outcome ⊢
  -- Faults are caught and put on the log, so only endless runs stop an attempt.
  cases outcome with
  | ok _ machine =>
    obtain ⟨beside, logged⟩ := fits
    exact .ok trivial ⟨⟨machine, beside.natives, beside.closures, beside.stage, beside.static,
      beside.kept⟩, logged⟩
  | excused excused =>
    obtain rfl := only _ excused
    exact .excused ⟨rfl, excused⟩
  | error stops machine =>
    cases stops with
    | fault same =>
      refine .ok trivial (state_added fits machine ?_)
      rw [fits.1.stage]
      exact .fault _ same
    | overflow =>
      refine .ok trivial (state_added fits machine ?_)
      rw [fits.1.stage]
      exact .nesting _
    | unfinished =>
      obtain ⟨beside, logged⟩ := fits
      exact .error rfl ⟨⟨machine, beside.natives, beside.closures, beside.stage, beside.static,
        beside.kept⟩, logged⟩

/-- Lists of statements that go alike one by one go alike. -/
theorem interpret_runs {stmts twins : List Stmt} (alike : List.Forall₂ (Stmt.Like like) stmts twins)
    (stack : limits.stack = others.stack) (patience : limits.patience ≤ others.patience)
    (excuses : limits.patience < others.patience → like.excused .unfinished)
    (only : ∀ interrupt, like.excused interrupt → interrupt = .unfinished) :
    (like.sessions earlier before).Runs (fun _ _ => True) (Session.interpret limits stmts)
      (Session.interpret others twins) :=
  .forM alike fun _ _ _ alike => attempt_runs alike stack patience excuses only

end Likeness

end Lox
