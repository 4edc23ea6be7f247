import Lox.Proofs.Evaluation.Footprint
import Lox.Proofs.Session.Escapes
import Mathlib.Data.List.ReduceOption

/-!
# Statements are isolated

A top-level statement that fails is logged, and the next one is executed all the same, on the machine
that the failing one left. However deep the scopes are in which it failed, the next one finds the scopes
that the first one found.
-/
namespace Lox

/-- What becomes of a statement that comes to an end: the diagnostic that is logged about it, if there is
one, and the machine that it leaves. -/
inductive Attempted (library : Library) (limits : Limits) (stage : String) (stmt : Stmt)
    (before : Machine) : Option Diagnostic → Machine → Prop where
  | done {after : Machine} :
      execute library limits.patience limits.stack stmt before = .ok () after →
      Attempted library limits stage stmt before none after
  | fault {fault : Fault} {after : Machine} :
      execute library limits.patience limits.stack stmt before = .error (.fault fault) after →
      Attempted library limits stage stmt before (some (fault.diagnostic stage)) after
  | overflow {after : Machine} :
      execute library limits.patience limits.stack stmt before = .error .overflow after →
      Attempted library limits stage stmt before (some (.nesting stage)) after

/-- What becomes of statements one after another, each on the machine that the one before it left. There
is an entry for each of them. -/
inductive Attempts (library : Library) (limits : Limits) (stage : String) :
    List Stmt → Machine → List (Option Diagnostic) → Machine → Prop where
  | nil {machine : Machine} : Attempts library limits stage [] machine [] machine
  | cons {stmt : Stmt} {stmts : List Stmt} {before between after : Machine}
      {entry : Option Diagnostic} {entries : List (Option Diagnostic)} :
      Attempted library limits stage stmt before entry between →
      Attempts library limits stage stmts between entries after →
      Attempts library limits stage (stmt :: stmts) before (entry :: entries) after

section

variable {library : Library} {limits : Limits} {stage : String} {stmt : Stmt} {stmts : List Stmt}
  {before after : Machine} {entry : Option Diagnostic} {entries : List (Option Diagnostic)}

theorem Attempted.sameScopes (attempted : Attempted library limits stage stmt before entry after) :
    before.SameScopes after := by
  have frames := (program_frames library limits.patience limits.stack).2 stmt (fun _ => True)
    fun _ _ => trivial
  cases attempted with
  | done executed => exact (frames.ok executed).toSameScopes
  | fault executed => exact (frames.error executed).toSameScopes
  | overflow executed => exact (frames.error executed).toSameScopes

theorem Attempts.sameScopes (attempts : Attempts library limits stage stmts before entries after) :
    before.SameScopes after := by
  induction attempts with
  | nil => exact .refl _
  | cons first _ ih => exact first.sameScopes.trans ih

end

namespace Session

variable {limits : Limits} {stmt : Stmt} {stmts : List Stmt} {session after : Session}

/-- The session after statements were attempted. -/
def attempted (session : Session) (machine : Machine) (entries : List (Option Diagnostic)) : Session :=
  { session with
    machine
    log := { session.log with runtime := session.log.runtime ++ entries.reduceOption } }

theorem attempted_attempted (machine final : Machine) (front back : List (Option Diagnostic)) :
    (session.attempted machine front).attempted final back = session.attempted final (front ++ back) := by
  simp [attempted, List.reduceOption_append]

theorem attempted_nil : session.attempted session.machine [] = session := by
  simp [attempted]

theorem attempt_iff : attempt limits stmt session = .ok () after ↔
    ∃ entry machine,
      Attempted session.library limits session.log.stage stmt session.machine entry machine ∧
        after = session.attempted machine [entry] := by
  constructor
  · intro done
    unfold attempt at done
    split at done <;> cases done
    next machine executed => exact ⟨none, machine, .done executed, by simp [attempted]⟩
    next fault machine executed => exact ⟨_, machine, .fault executed, rfl⟩
    next machine executed => exact ⟨_, machine, .overflow executed, rfl⟩
  · rintro ⟨entry, machine, attempted, rfl⟩
    unfold attempt
    cases attempted with
    | done executed => simp [executed, Session.attempted]
    | fault executed =>
      rw [executed]
      rfl
    | overflow executed =>
      rw [executed]
      rfl

theorem interpret_iff : interpret limits stmts session = .ok () after ↔
    ∃ entries machine,
      Attempts session.library limits session.log.stage stmts session.machine entries machine ∧
        after = session.attempted machine entries := by
  -- The induction is over every session, since each statement finds the one that the last one left.
  induction stmts generalizing session with
  | nil =>
    constructor
    · intro done
      cases done
      exact ⟨[], _, .nil, attempted_nil.symm⟩
    · rintro ⟨_, _, ⟨⟩, rfl⟩
      rw [attempted_nil]
      rfl
  | cons stmt stmts ih =>
    rw [interpret_cons]
    constructor
    · rintro ⟨between, first, rest⟩
      obtain ⟨entry, middle, attempted, rfl⟩ := attempt_iff.mp first
      obtain ⟨entries, machine, attempts, rfl⟩ := ih.mp rest
      refine ⟨entry :: entries, machine, .cons attempted attempts, ?_⟩
      rw [attempted_attempted, List.singleton_append]
    · rintro ⟨_, machine, attempts, rfl⟩
      cases attempts with
      | @cons _ _ _ between _ entry entries first rest =>
        refine ⟨session.attempted between [entry], attempt_iff.mpr ⟨entry, between, first, rfl⟩, ?_⟩
        apply ih.mpr
        refine ⟨entries, machine, rest, ?_⟩
        rw [attempted_attempted, List.singleton_append]

theorem attempt_endless {escape : Escape} (escaped : attempt limits stmt session = .error escape after) :
    after = session.attempted after.machine [] ∧
      execute session.library limits.patience limits.stack stmt session.machine =
        .error .unfinished after.machine := by
  unfold attempt at escaped
  split at escaped <;> cases escaped
  next machine executed => exact ⟨by simp [attempted], executed⟩

/-- What does not come to an end is some statement, on the machine that those before it left. -/
theorem interpret_endless {escape : Escape}
    (escaped : interpret limits stmts session = .error escape after) :
    ∃ front stmt back entries machine, stmts = front ++ stmt :: back ∧
      after = session.attempted after.machine entries ∧
      Attempts session.library limits session.log.stage front session.machine entries machine ∧
      execute session.library limits.patience limits.stack stmt machine =
        .error .unfinished after.machine := by
  induction stmts generalizing session with
  | nil => cases escaped
  | cons stmt stmts ih =>
    change (attempt limits stmt >>= fun _ => interpret limits stmts) session = _ at escaped
    rcases andThen_eq_error.mp escaped with tried | ⟨_, between, first, rest⟩
    · obtain ⟨logged, executed⟩ := attempt_endless tried
      exact ⟨[], stmt, stmts, [], session.machine, rfl, logged, .nil, executed⟩
    · obtain ⟨entry, middle, attempted, rfl⟩ := attempt_iff.mp first
      obtain ⟨front, last, back, entries, machine, rfl, logged, attempts, executed⟩ := ih rest
      refine ⟨stmt :: front, last, back, entry :: entries, machine, rfl, ?_, .cons attempted attempts,
        executed⟩
      rw [logged, attempted_attempted, List.singleton_append]
      rfl

/-- Interpretation returns, having logged what became of each statement in turn and nothing else, and with
the scopes that it found. Only a statement that does not come to an end keeps it from that. -/
theorem interpret_isolates (limits : Limits) (stmts : List Stmt) (session : Session) :
    match interpret limits stmts session with
    | .ok _ after => session.machine.SameScopes after.machine ∧
        ∃ entries, after = session.attempted after.machine entries ∧
          Attempts session.library limits session.log.stage stmts session.machine entries after.machine
    | .error escape after => escape = .unfinished ∧
        ∃ front stmt back entries machine, stmts = front ++ stmt :: back ∧
          after = session.attempted after.machine entries ∧
          Attempts session.library limits session.log.stage front session.machine entries machine ∧
          execute session.library limits.patience limits.stack stmt machine =
            .error .unfinished after.machine := by
  cases went : interpret limits stmts session with
  | ok _ after =>
    obtain ⟨entries, machine, attempts, rfl⟩ := interpret_iff.mp went
    exact ⟨attempts.sameScopes, entries, rfl, attempts⟩
  | error escape after => exact ⟨interpret_error went, interpret_endless went⟩

end Session

end Lox
