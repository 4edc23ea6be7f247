import Lox.Proofs.Session.Order

/-!
# The static gate

A run is held behind its scanner, or behind its reader, while the log holds a static diagnostic, of this
text or of an earlier one. A run that is held leaves the machine as it was. A run that is not held
attempts the statements of the text in turn.
-/
namespace Lox

/-- The diagnostic that a log makes of a report. -/
def StaticReport.diagnostic (stage : String) (report : StaticReport) : Diagnostic :=
  ⟨stage, some report.line, report.error.message, none⟩

/-! ### What a statement adds to the log -/

section

variable {library : Library} {limits : Limits} {stage : String} {stmt : Stmt} {stmts : List Stmt}
  {before after : Machine} {entry : Option Diagnostic} {entries : List (Option Diagnostic)}

theorem Attempted.stamped (attempted : Attempted library limits stage stmt before entry after) :
    ∀ diagnostic ∈ entry, diagnostic.stage = stage := by
  rintro diagnostic ⟨⟩
  cases attempted with
  | fault => rfl
  | overflow => rfl

theorem Attempts.stamped (attempts : Attempts library limits stage stmts before entries after) :
    ∀ diagnostic ∈ entries.reduceOption, diagnostic.stage = stage := by
  intro diagnostic member
  rw [List.reduceOption_mem_iff] at member
  induction attempts with
  | nil => cases member
  | cons first _ ih =>
    rcases List.mem_cons.mp member with rfl | later
    · exact first.stamped diagnostic rfl
    · exact ih later

end

namespace Session

/-! ### Where a run is held -/

/-- How far a run comes that returns, with what it returns and the session that it leaves. -/
inductive Gated (limits : Limits) (source : String) (traced : Bool) (before : Session) :
    Outcome → Session → Prop where
  /-- The log holds a static diagnostic when the text is scanned. Nothing is read. -/
  | scanning :
      before.log.static ++ (Source.scan source).reports.map (·.diagnostic "scanning") ≠ [] →
      Gated limits source traced before ⟨false, tokenPart source traced⟩
        { before with
          log :=
            { stage := "scanning"
              static := before.log.static ++ (Source.scan source).reports.map (·.diagnostic "scanning")
              runtime := before.log.runtime } }
  /-- The log holds none until the text is read. Nothing is executed. -/
  | parsing {stmts : List Stmt} {cursor : Grammar.Cursor} {shown : String} :
      before.log.static = [] → (Source.scan source).reports = [] →
      (Grammar.program limits.stack).run (.start (Source.scan source).tokens) = .ok stmts cursor →
      statementPart limits stmts traced = pure shown → cursor.reports ≠ [] →
      Gated limits source traced before ⟨false, tokenPart source traced ++ shown⟩
        { before with
          log :=
            { stage := "parsing"
              static := cursor.reports.map (·.diagnostic "parsing")
              runtime := before.log.runtime } }
  /-- The log holds none. Every statement of the text is attempted. -/
  | executing {stmts : List Stmt} {shown : String} {entries : List (Option Diagnostic)}
      {machine : Machine} :
      before.log.static = [] → Reads limits source stmts →
      statementPart limits stmts traced = pure shown →
      Attempts before.library limits "executing" stmts before.machine entries machine →
      Gated limits source traced before
        ⟨(before.log.runtime ++ entries.reduceOption).isEmpty, tokenPart source traced ++ shown⟩
        { before with
          machine
          log :=
            { stage := "executing"
              static := []
              runtime := before.log.runtime ++ entries.reduceOption } }

/-- How a log grows by a run: by what the scanner and then the reader reported, and by what was reported
of execution, each with the stamp of its stage. -/
structure Grows (limits : Limits) (source : String) (before after : Log) : Prop where
  static : ∃ read : List StaticReport,
    after.static = before.static ++ (Source.scan source).reports.map (·.diagnostic "scanning") ++
      read.map (·.diagnostic "parsing") ∧
    (read ≠ [] → ∃ stmts cursor,
      (Grammar.program limits.stack).run (.start (Source.scan source).tokens) = .ok stmts cursor ∧
        read = cursor.reports)
  runtime : ∃ added, after.runtime = before.runtime ++ added ∧
    ∀ diagnostic ∈ added, diagnostic.stage = "executing"

section

variable {limits : Limits} {source : String} {traced : Bool} {session after : Session}
  {outcome : Outcome}

theorem Gated.grows (gated : Gated limits source traced session outcome after) :
    Grows limits source session.log after.log := by
  cases gated with
  | scanning held => exact ⟨⟨[], by simp, fun read => absurd rfl read⟩, ⟨[], by simp, by simp⟩⟩
  | @parsing stmts cursor shown clean quiet read part held =>
    exact ⟨⟨cursor.reports, by simp [clean, quiet], fun _ => ⟨stmts, cursor, read, rfl⟩⟩,
      ⟨[], by simp, by simp⟩⟩
  | executing clean reads part attempts =>
    exact ⟨⟨[], by simp [clean, reads.scanned], fun read => absurd rfl read⟩, ⟨_, rfl, attempts.stamped⟩⟩

/-- A run says that nothing was reported exactly when the log that it leaves holds nothing. -/
theorem Gated.clean_iff (gated : Gated limits source traced session outcome after) :
    outcome.clean = true ↔ after.log.static = [] ∧ after.log.runtime = [] := by
  cases gated with
  | scanning held => exact ⟨nofun, fun empty => absurd empty.1 held⟩
  | parsing _ _ _ _ held => exact ⟨nofun, fun empty => absurd (List.map_eq_nil_iff.mp empty.1) held⟩
  | executing => exact List.isEmpty_iff.trans ⟨fun empty => ⟨rfl, empty⟩, fun empty => empty.2⟩

theorem hasStatic_eq_false {log : Log} : log.hasStatic = false ↔ log.static = [] := by
  simp [Log.hasStatic]

theorem parsed_eq {reports : List StaticReport} (clean : session.log.static = [])
    (quiet : (Source.scan source).reports = []) : (session.scanned source).parsed reports =
    { session with
      log :=
        { stage := "parsing"
          static := reports.map (·.diagnostic "parsing")
          runtime := session.log.runtime } } := by
  simp [scanned_quiet quiet, parsed, Log.addReports, Log.enter, clean, StaticReport.diagnostic]

/-- A text that is read without a report comes to be executed. -/
theorem reads_gated {stmts : List Stmt} {shown : String} (clean : session.log.static = [])
    (reads : Reads limits source stmts) (part : statementPart limits stmts traced = pure shown) :
    match run limits source traced session with
    | .ok outcome after => Gated limits source traced session outcome after
    | .error _ _ => session.log.static = [] ∧ (Source.scan source).reports = [] := by
  rw [reads.run_shown_eq clean part]
  cases went : interpret limits stmts session.started with
  | error escape after => exact ⟨clean, reads.scanned⟩
  | ok _ after =>
    obtain ⟨entries, machine, attempts, rfl⟩ := interpret_iff.mp went
    have left : session.started.attempted machine entries =
        { session with
          machine
          log := ⟨"executing", [], session.log.runtime ++ entries.reduceOption⟩ } := by
      simp [attempted, started, Log.enter, clean]
    rw [left]
    simpa [Log.hasRuntime] using Gated.executing clean reads part attempts

/-- A run that returns comes as far as the gate lets it. A run that gives up was not held behind its
scanner. -/
theorem run_gate (limits : Limits) (source : String) (traced : Bool) (session : Session) :
    match run limits source traced session with
    | .ok outcome after => Gated limits source traced session outcome after
    | .error _ _ => session.log.static = [] ∧ (Source.scan source).reports = [] := by
  -- The log is asked behind the scanner, and once more behind the reader.
  cases held : (session.scanned source).log.hasStatic with
  | true =>
    rw [run_held held]
    refine .scanning fun empty => ?_
    rw [hasStatic_eq_false.mpr empty] at held
    cases held
  | false =>
  have clear := List.append_eq_nil_iff.mp (hasStatic_eq_false.mp held)
  have clean : session.log.static = [] := clear.1
  have quiet : (Source.scan source).reports = [] := List.map_eq_nil_iff.mp clear.2
  cases read : (Grammar.program limits.stack).run (.start (Source.scan source).tokens) with
  | error stop cursor =>
    rw [run_unread held read]
    exact ⟨clean, quiet⟩
  | ok stmts cursor =>
  rcases statementPart_cases limits stmts traced with ⟨shown, part⟩ | ⟨error, part⟩
  · by_cases none : cursor.reports = []
    · exact reads_gated clean ⟨quiet, cursor, read, none⟩ part
    · rw [run_executes held read part, parsed_eq clean quiet, if_pos (by simp [Log.hasStatic, none])]
      exact .parsing clean quiet read part none
  · rw [run_read held read, part]
    exact ⟨clean, quiet⟩

theorem Gated.of_run (ran : run limits source traced session = .ok outcome after) :
    Gated limits source traced session outcome after := by
  have gate := run_gate limits source traced session
  rw [ran] at gate
  exact gate

/-- A run that returns was held by the gate where the log says so, or was not held and attempted every
statement. A run that gives up was not held behind its scanner. -/
theorem run_gated (limits : Limits) (source : String) (traced : Bool) (session : Session) :
    match run limits source traced session with
    | .ok outcome after =>
        Gated limits source traced session outcome after ∧
          Grows limits source session.log after.log ∧
          (outcome.clean = true ↔ after.log.static = [] ∧ after.log.runtime = [])
    | .error _ _ => session.log.static = [] ∧ (Source.scan source).reports = [] := by
  -- What the log says follows from how far the run came.
  have gate := run_gate limits source traced session
  split at gate
  · exact ⟨gate, gate.grows, gate.clean_iff⟩
  · exact gate

end

end Session

end Lox
