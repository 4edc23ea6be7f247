import Lox.Proofs.Evaluation.Pairing
import Lox.Session

/-!
# The phases of a run

A run scans, reads and executes. Each phase is described by what it makes of the session, so that a run
is told apart by how far it comes.
-/
namespace Lox.Session

/-! ### What a phase makes of the session -/

/-- The session after a text was scanned. -/
def scanned (session : Session) (source : String) : Session :=
  { session with log := (session.log.enter "scanning").addReports (Source.scan source).reports }

/-- The session after tokens were read with some reports. -/
def parsed (session : Session) (reports : List StaticReport) : Session :=
  { session with log := (session.log.enter "parsing").addReports reports }

/-- The session when statements are about to be executed. -/
def started (session : Session) : Session :=
  { session with log := session.log.enter "executing" }

section

variable {limits : Limits} {source : String} {traced : Bool} {session : Session}
  {stmts : List Stmt} {cursor : Grammar.Cursor}

theorem scan_apply : scan source session = .ok (Source.scan source).tokens (session.scanned source) :=
  rfl

theorem read_ok {tokens : List Token}
    (read : (Grammar.program limits.stack).run (.start tokens) = .ok stmts cursor) :
    Session.read limits tokens session = .ok stmts (session.parsed cursor.reports) := by
  unfold Session.read
  rw [read]
  rfl

theorem read_error {tokens : List Token} {stop : Grammar.Stop}
    (read : (Grammar.program limits.stack).run (.start tokens) = .error stop cursor) :
    Session.read limits tokens session = .error (.reading stop) (session.parsed cursor.reports) := by
  unfold Session.read
  rw [read]
  rfl

/-- After a text without a report was scanned, the log holds what it held. -/
theorem scanned_quiet (quiet : (Source.scan source).reports = []) :
    session.scanned source = { session with log := session.log.enter "scanning" } := by
  simp [Session.scanned, Log.addReports, quiet]

/-- A text without a report is read where the log holds no static errors. -/
theorem scanned_clear (quiet : (Source.scan source).reports = []) (clean : session.log.static = []) :
    (session.scanned source).log.hasStatic = false := by
  simp [scanned_quiet quiet, Log.hasStatic, Log.enter, clean]

/-! ### How far a run comes -/

/-- The part of the trace that shows the tokens of a text. -/
def tokenPart (source : String) (traced : Bool) : String :=
  if traced then tokenTrace (Source.scan source).tokens else ""

/-- The step that makes the part of the trace that shows statements. -/
def statementPart (limits : Limits) (stmts : List Stmt) (traced : Bool) : Operate String :=
  if traced then statementTrace <$> print limits stmts else pure ""

/-- A text is not read while the log holds static errors. -/
theorem run_held (held : (session.scanned source).log.hasStatic = true) :
    run limits source traced session =
      .ok ⟨false, tokenPart source traced⟩ (session.scanned source) := by
  unfold run
  rw [andThen_ok scan_apply]
  change (if (session.scanned source).log.hasStatic = true then _ else _ : Operate Outcome) _ = _
  rw [if_pos held]
  rfl

/-- A text that cannot be read to its end is given up. -/
theorem run_unread {stop : Grammar.Stop} (clear : (session.scanned source).log.hasStatic = false)
    (read : (Grammar.program limits.stack).run (.start (Source.scan source).tokens) =
      .error stop cursor) :
    run limits source traced session =
      .error (.reading stop) ((session.scanned source).parsed cursor.reports) := by
  unfold run
  rw [andThen_ok scan_apply]
  change (if (session.scanned source).log.hasStatic = true then _ else _ : Operate Outcome) _ = _
  rw [clear, if_neg Bool.false_ne_true]
  exact andThen_error (read_error read)

/-- What is done with the statements of a text. -/
theorem run_read (clear : (session.scanned source).log.hasStatic = false)
    (read : (Grammar.program limits.stack).run (.start (Source.scan source).tokens) =
      .ok stmts cursor) :
    run limits source traced session =
      (do
        let shown ← statementPart limits stmts traced
        if (← get).log.hasStatic then pure ⟨false, tokenPart source traced ++ shown⟩
        else
          updateLog (·.enter "executing")
          interpret limits stmts
          pure ⟨!(← get).log.hasRuntime, tokenPart source traced ++ shown⟩ : Operate Outcome)
        ((session.scanned source).parsed cursor.reports) := by
  unfold run
  rw [andThen_ok scan_apply]
  change (if (session.scanned source).log.hasStatic = true then _ else _ : Operate Outcome) _ = _
  rw [clear, if_neg Bool.false_ne_true, andThen_ok (read_ok read)]
  cases traced <;> rfl

/-- Statements that could be shown are executed unless the log holds static errors. -/
theorem run_executes {shown : String} (clear : (session.scanned source).log.hasStatic = false)
    (read : (Grammar.program limits.stack).run (.start (Source.scan source).tokens) =
      .ok stmts cursor)
    (part : statementPart limits stmts traced = pure shown) :
    run limits source traced session =
      (if ((session.scanned source).parsed cursor.reports).log.hasStatic then
        .ok ⟨false, tokenPart source traced ++ shown⟩ ((session.scanned source).parsed cursor.reports)
      else
        (do
          interpret limits stmts
          pure ⟨!(← get).log.hasRuntime, tokenPart source traced ++ shown⟩ : Operate Outcome)
          ((session.scanned source).parsed cursor.reports).started) := by
  rw [run_read clear read, part, pure_bind]
  change (if ((session.scanned source).parsed cursor.reports).log.hasStatic = true then _ else _ :
    Operate Outcome) _ = _
  split <;> rfl

/-- Without a trace, statements are executed unless the log holds static errors. -/
theorem run_untraced (clear : (session.scanned source).log.hasStatic = false)
    (read : (Grammar.program limits.stack).run (.start (Source.scan source).tokens) =
      .ok stmts cursor) :
    run limits source false session =
      (if ((session.scanned source).parsed cursor.reports).log.hasStatic then
        .ok ⟨false, ""⟩ ((session.scanned source).parsed cursor.reports)
      else
        (do
          interpret limits stmts
          pure ⟨!(← get).log.hasRuntime, ""⟩ : Operate Outcome)
          ((session.scanned source).parsed cursor.reports).started) := by
  have part : statementPart limits stmts false = pure "" := rfl
  exact run_executes clear read part

end

end Lox.Session
