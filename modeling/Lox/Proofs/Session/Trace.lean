import Lox.Proofs.Grammar.Forms
import Lox.Proofs.Printing.Height
import Lox.Proofs.Session.Escapes

/-!
# Running with a trace

A trace shows the statements of a text before they are executed, and printing them takes more of the
stack than executing them. A run with a trace goes as one without, unless the stack has not the levels
that the printer takes; it then escapes, whatever the text would have done.
-/
namespace Lox.Session

variable {limits : Limits} {source : String} {session : Session} {stmts : List Stmt}

/-- The text is read, but the stack has not the levels that printing its statements takes. -/
def Unprintable (limits : Limits) (source : String) (session : Session) : Prop :=
  ∃ stmts cursor, (session.scanned source).log.hasStatic = false ∧
    (Grammar.program limits.stack).run (.start (Source.scan source).tokens) = .ok stmts cursor ∧
    limits.stack < Stmt.heightAll stmts

/-- Statements that were read are printed if the stack has the levels, and else it is used up. -/
theorem print_needs {cursor : Grammar.Cursor}
    (read : (Grammar.program limits.stack).run (.start (Source.scan source).tokens) = .ok stmts cursor) :
    (Stmt.heightAll stmts ≤ limits.stack ∧ ∃ text, print limits stmts = pure text) ∨
      limits.stack < Stmt.heightAll stmts ∧ print limits stmts = throw (.printing .overflow) := by
  have formed := Grammar.program_formed read
  have needs := Stmt.program_needs (fun stmt member => (formed stmt member).leveled) limits.stack
  unfold print
  rcases Nat.lt_or_ge limits.stack (Stmt.heightAll stmts) with few | enough
  · rw [needs.few few]
    exact .inr ⟨few, rfl⟩
  · obtain ⟨text, printed⟩ := needs.enough enough
    rw [printed]
    exact .inl ⟨enough, text, rfl⟩

/-- What is left to do once the statements were shown: whether nothing is reported in the end. -/
def carryOut (limits : Limits) (stmts : List Stmt) : Operate Bool := do
  if (← get).log.hasStatic then pure false
  else
    updateLog (·.enter "executing")
    interpret limits stmts
    pure (!(← get).log.hasRuntime)

/-- The outcome of a run, but for the trace. -/
theorem clean_apply (going : Operate Outcome) (session : Session) :
    (Outcome.clean <$> going) session = match going session with
      | .ok outcome after => .ok outcome.clean after
      | .error escape after => .error escape after := by
  change EStateM.map Outcome.clean going session = _
  unfold EStateM.map
  cases going session <;> rfl

/-- What is done once the statements were shown does not depend on what was shown. -/
theorem run_shown {cursor : Grammar.Cursor} {traced : Bool} {shown : String}
    (clear : (session.scanned source).log.hasStatic = false)
    (read : (Grammar.program limits.stack).run (.start (Source.scan source).tokens) = .ok stmts cursor)
    (part : statementPart limits stmts traced = pure shown) :
    (Outcome.clean <$> run limits source traced) session =
      carryOut limits stmts ((session.scanned source).parsed cursor.reports) := by
  have going := @run_read limits source traced session stmts cursor clear read
  rw [part, pure_bind] at going
  rw [clean_apply, going, ← clean_apply]
  unfold carryOut
  simp only [map_bind, apply_ite, map_pure]

/-- A run escapes with a trace when the stack has not the levels that the printer takes. -/
theorem run_unprintable (unprintable : Unprintable limits source session) :
    ∃ after, run limits source true session = .error (.printing .overflow) after := by
  obtain ⟨stmts, cursor, clear, read, few⟩ := unprintable
  rw [run_read clear read]
  rcases print_needs read with ⟨enough, -⟩ | ⟨-, overflow⟩
  · exact absurd few (Nat.not_lt.mpr enough)
  · refine ⟨(session.scanned source).parsed cursor.reports, andThen_error ?_⟩
    unfold statementPart
    rw [overflow]
    rfl

/-- Where the printer uses the stack up, a trace changes the outcome. -/
theorem clean_ne_of_unprintable (unprintable : Unprintable limits source session) :
    (Outcome.clean <$> run limits source true) session ≠
      (Outcome.clean <$> run limits source false) session := by
  obtain ⟨after, escaped⟩ := run_unprintable unprintable
  rw [clean_apply, clean_apply, escaped]
  intro same
  -- Without a trace nothing is printed.
  cases gone : run limits source false session with
  | ok =>
    rw [gone] at same
    cases same
  | error =>
    rw [gone] at same
    cases same
    rcases run_error gone with impossible | ⟨impossible, -⟩ <;> cases impossible

/-- A run with a trace returns, or does not, and leaves the session just as a run without one does,
exactly if the text is printable. -/
theorem run_traced (limits : Limits) (source : String) (session : Session) :
    (Outcome.clean <$> run limits source true) session =
      (Outcome.clean <$> run limits source false) session ↔ ¬Unprintable limits source session := by
  constructor
  · exact fun same unprintable => clean_ne_of_unprintable unprintable same
  · intro printable
    cases held : (session.scanned source).log.hasStatic with
    | true => rw [clean_apply, clean_apply, run_held held, run_held held]
    | false =>
      cases read : (Grammar.program limits.stack).run (.start (Source.scan source).tokens) with
      | error stop cursor =>
        rw [clean_apply, clean_apply, run_unread held read, run_unread held read]
      | ok stmts cursor =>
        rcases print_needs read with ⟨-, text, printed⟩ | ⟨few, -⟩
        · have shown : statementPart limits stmts true = pure (statementTrace text) := by
            unfold statementPart
            rw [printed, if_pos rfl, map_pure]
          rw [run_shown held read shown]
          exact (run_shown held read rfl).symm
        · exact absurd ⟨stmts, cursor, held, read, few⟩ printable

/-- A program whose trees are at most a third as deep as the stack can be printed. -/
theorem printable_of_shallow (shallow : ∀ stmts cursor,
      (Grammar.program limits.stack).run (.start (Source.scan source).tokens) = .ok stmts cursor →
      3 * Stmt.depthAll stmts ≤ limits.stack) :
    ¬Unprintable limits source session := by
  rintro ⟨stmts, cursor, -, read, few⟩
  have low := Stmt.heightAll_le_depthAll stmts
  have enough := shallow stmts cursor read
  omega

/-- A row of sums is not printed if the stack has less than two levels for each name. -/
theorem sum_unprintable {count : Nat} (clean : session.log.static = [])
    (able : Grammar.levelsFor Grammar.maxNesting < limits.stack) (few : limits.stack < 2 * count + 5) :
    Unprintable limits (Rows.source '+' count) session := by
  obtain ⟨tokens, quiet⟩ := Rows.scan_row (.inr rfl) count
  obtain ⟨cursor, read⟩ := Rows.program_sum able count
  rw [← tokens] at read
  refine ⟨_, cursor, scanned_clear quiet clean, read, ?_⟩
  have tall : Stmt.heightAll [.expression (Rows.sum count)] = 2 * (count + 1) + 3 := by
    rw [← Rows.depth_sum count]
    exact Nat.max_zero _
  omega

/-- With a trace, a row of three thousand sums escapes from a new session with the standard stack, and
without one it does not. -/
theorem run_sum_standard :
    (Outcome.clean <$> run .standard (Rows.source '+' 3000) true) (start 0) ≠
      (Outcome.clean <$> run .standard (Rows.source '+' 3000) false) (start 0) :=
  clean_ne_of_unprintable (sum_unprintable rfl (by decide) (by decide))

end Lox.Session
