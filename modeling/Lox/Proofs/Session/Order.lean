import Lox.Proofs.Grammar.Spans
import Lox.Proofs.Session.Isolation
import Lox.Proofs.Session.Pieces

/-!
# Faults are reported in the order of the text

In a new session, whatever is reported about a statement while it is executed names the line of one of
the statement's own tokens, unless the stack is used up. The statements of a text have their tokens one
after another, and so what is reported about them goes down the text.
-/
namespace Lox

open Grammar

/-! ### Faults of one statement -/

/-- What is reported about a statement names the line of one of its tokens, or says that the stack is
used up. -/
def Grammar.Item.Blamed (item : Item) (entry : Option Diagnostic) : Prop :=
  ∀ diagnostic ∈ entry, (diagnostic.line = none ∧ diagnostic.fault = some .nesting) ∨
    ∃ token ∈ item.tokens, diagnostic.line = some token.line

/-- Natives that never fault. -/
def Library.Faultless (library : Library) : Prop :=
  ∀ id arguments cause, (library.native id).act arguments ≠ .error cause

/-- A program that goes with itself, and all faults of which are at some tokens. -/
def blaming (tokens : List Token) : Likeness :=
  .hosted (fun one other => one = other ∧ ∃ token ∈ tokens, one.line = some token.line)
    (fun one other => one = other ∧ one ∈ tokens) fun _ => False

section

variable {library : Library} {limits : Limits} {stage : String} {item : Item} {items : List Item}
  {before after : Machine} {entry : Option Diagnostic} {entries : List (Option Diagnostic)}

theorem blaming_kept {tokens : List Token} (native : library.Hosted) (faultless : library.Faultless) :
    (blaming tokens).Kept library library := by
  apply Likeness.hosted_kept native
  · rintro one _ ⟨rfl, -⟩
    rfl
  · rintro one _ cause ⟨rfl, member⟩
    exact ⟨rfl, one, member, rfl⟩
  · intro id arguments cause raised
    exact absurd raised (faultless id arguments cause)

/-- An item of a program is executed to its end or to a fault at one of its tokens. -/
theorem attempted_blamed {room : Nat} {place : Place} (native : library.Hosted)
    (faultless : library.Faultless)
    (derived : DerivesStatement room place item.tokens item.stmt item.opened) (hosted : before.Hosted)
    (attempted : Attempted library limits stage item.stmt before entry after) :
    item.Blamed entry ∧ after.Hosted := by
  have kept : (blaming item.tokens).Kept library library := blaming_kept native faultless
  have alike : item.stmt.Like (blaming item.tokens) item.stmt :=
    derived.like_self (fun _ plain => kept.plain plain) fun _ member => ⟨⟨rfl, member⟩, rfl, member⟩
  have runs := kept.runs (Nat.le_refl limits.stack) (fun less => absurd less (Nat.lt_irrefl _))
    (Nat.le_refl limits.patience) fun less => absurd less (Nat.lt_irrefl _)
  -- Run beside itself, the statement can only stop at a fault that the likeness allows.
  have outcome := runs.2 _ _ alike before before ⟨rfl, hosted⟩
  cases attempted with
  | done executed =>
    rw [executed] at outcome
    cases outcome with
    | ok _ fits => exact ⟨nofun, fits.2⟩
  | fault executed =>
    rw [executed] at outcome
    cases outcome with
    | error stops fits =>
      cases stops with
      | fault blamed =>
        refine ⟨?_, fits.2⟩
        rintro diagnostic ⟨⟩
        exact .inr blamed.2
    | excused excused => exact excused.elim
  | overflow executed =>
    rw [executed] at outcome
    cases outcome with
    | error _ fits =>
      refine ⟨?_, fits.2⟩
      rintro diagnostic ⟨⟩
      exact .inl ⟨rfl, rfl⟩
    | excused excused => exact excused.elim

theorem attempts_blamed {room : Nat} {place : Place} (native : library.Hosted)
    (faultless : library.Faultless)
    (derived : ∀ item ∈ items, DerivesStatement room place item.tokens item.stmt item.opened)
    (hosted : before.Hosted)
    (attempts : Attempts library limits stage (items.map Item.stmt) before entries after) :
    List.Forall₂ Item.Blamed items entries := by
  induction items generalizing before entries with
  | nil =>
    cases attempts
    exact .nil
  | cons item items ih =>
    obtain ⟨first, others⟩ := List.forall_mem_cons.mp derived
    cases attempts with
    | cons attempted attempts =>
      obtain ⟨blamed, hosted⟩ := attempted_blamed native faultless first hosted attempted
      exact .cons blamed (ih others hosted attempts)

/-! ### The order of the lines -/

/-- The lines that entries name. -/
def linesOf (entries : List (Option Diagnostic)) : List Int :=
  entries.reduceOption.filterMap Diagnostic.line

theorem linesOf_cons (entry : Option Diagnostic) (entries : List (Option Diagnostic)) :
    linesOf (entry :: entries) = (entry.bind Diagnostic.line).toList ++ linesOf entries := by
  cases entry with
  | none => rfl
  | some diagnostic => cases named : diagnostic.line <;> simp [linesOf, named]

theorem Grammar.Item.Blamed.line {line : Int} (blamed : item.Blamed entry)
    (member : line ∈ (entry.bind Diagnostic.line).toList) : ∃ token ∈ item.tokens, token.line = line := by
  obtain ⟨diagnostic, some, named⟩ := Option.bind_eq_some_iff.mp (Option.mem_toList.mp member)
  rcases blamed diagnostic some with ⟨unnamed, -⟩ | ⟨token, inside, same⟩
  · rw [unnamed] at named
    cases named
  · rw [same] at named
    exact ⟨token, inside, Option.some.inj named⟩

/-- The lines that are named about some statements are those of their tokens. -/
theorem linesOf_blamed (blamed : List.Forall₂ Item.Blamed items entries) :
    ∀ line ∈ linesOf entries, ∃ token ∈ items.flatMap Item.tokens, token.line = line := by
  induction blamed with
  | nil => simp [linesOf]
  | cons first _ ih =>
    intro line member
    rw [linesOf_cons, List.mem_append] at member
    rcases member with here | later
    · obtain ⟨token, inside, same⟩ := first.line here
      exact ⟨token, List.mem_append_left _ inside, same⟩
    · obtain ⟨token, inside, same⟩ := ih line later
      exact ⟨token, List.mem_append_right _ inside, same⟩

/-- Where the tokens of some statements go down the text, so do the lines that are named about them. -/
theorem linesOf_sorted (blamed : List.Forall₂ Item.Blamed items entries)
    (sorted : (items.flatMap Item.tokens).Pairwise fun one other => one.line ≤ other.line) :
    (linesOf entries).Pairwise (· ≤ ·) := by
  induction blamed with
  | nil => simp [linesOf]
  | @cons item entry items entries first others ih =>
    rw [List.flatMap_cons, List.pairwise_append] at sorted
    obtain ⟨-, below, between⟩ := sorted
    rw [linesOf_cons, List.pairwise_append]
    refine ⟨?_, ih below, ?_⟩
    · cases entry.bind Diagnostic.line <;> simp
    -- An earlier statement has its tokens before those of a later one.
    · intro one here other later
      obtain ⟨token, inside, rfl⟩ := first.line here
      obtain ⟨further, beyond, rfl⟩ := linesOf_blamed others other later
      exact between token inside further beyond

end

/-! ### Runs of a new session -/

namespace Session

/-- The session that is left when a computation returns or gives up. -/
def left {α : Type} : EStateM.Result Escape Session α → Session
  | .ok _ after | .error _ after => after

theorem start_faultless (time : Float) : (start time).library.Faultless := by
  intro id arguments cause raised
  unfold library start clock at raised
  match id with
  | 0 => cases raised
  | id + 1 => cases raised

section

variable {limits : Limits} {source : String} {traced : Bool} {session : Session} {stmts : List Stmt}

/-- Interpretation attempts the first statements of a list, or all of them. -/
theorem left_interpret (limits : Limits) (stmts : List Stmt) (session : Session) :
    ∃ front back entries machine, stmts = front ++ back ∧
      (left (interpret limits stmts session)).log.runtime = session.log.runtime ++ entries.reduceOption ∧
      Attempts session.library limits session.log.stage front session.machine entries machine := by
  cases went : interpret limits stmts session with
  | ok _ after =>
    obtain ⟨entries, machine, attempts, rfl⟩ := interpret_iff.mp went
    exact ⟨stmts, [], entries, machine, (List.append_nil _).symm, rfl, attempts⟩
  | error escape after =>
    obtain ⟨front, stmt, back, entries, machine, rfl, logged, attempts, -⟩ := interpret_endless went
    exact ⟨front, stmt :: back, entries, machine, rfl, congrArg (·.log.runtime) logged, attempts⟩

/-- The statements of a text are shown as some text, or the run is given up. -/
theorem statementPart_cases (limits : Limits) (stmts : List Stmt) (traced : Bool) :
    (∃ shown, statementPart limits stmts traced = pure shown) ∨
      ∃ error, statementPart limits stmts traced = throw (.printing error) := by
  unfold statementPart print
  cases traced with
  | false => exact .inl ⟨"", rfl⟩
  | true =>
    cases Stmt.program limits.stack stmts with
    | ok text => exact .inl ⟨statementTrace text, rfl⟩
    | error error => exact .inr ⟨error, rfl⟩

/-- The session of a run that came to execution is what interpretation leaves. -/
theorem left_run (clean : session.log.static = [])
    (executed : (left (run limits source traced session)).log.stage = "executing") :
    ∃ stmts, Reads limits source stmts ∧
      left (run limits source traced session) = left (interpret limits stmts session.started) := by
  -- A run that ends before has another stage on its log.
  have scanning : (session.scanned source).log.stage ≠ "executing" := by
    change "scanning" ≠ "executing"
    decide
  have parsing (reports : List StaticReport) :
      ((session.scanned source).parsed reports).log.stage ≠ "executing" := by
    change "parsing" ≠ "executing"
    decide
  cases held : (session.scanned source).log.hasStatic with
  | true =>
    rw [run_held held] at executed
    exact absurd executed scanning
  | false =>
  cases read : (program limits.stack).run (.start (Source.scan source).tokens) with
  | error stop cursor =>
    rw [run_unread held read] at executed
    exact absurd executed (parsing cursor.reports)
  | ok stmts cursor =>
  rcases statementPart_cases limits stmts traced with ⟨shown, part⟩ | ⟨error, part⟩
  · rw [run_executes held read part] at executed
    split at executed
    next static => exact absurd executed (parsing cursor.reports)
    next static =>
      -- No report was made, neither by the scanner nor by the reader.
      have quiet : (Source.scan source).reports = [] ∧ cursor.reports = [] := by
        simpa [Log.hasStatic, parsed, scanned, Log.addReports, Log.enter, clean] using static
      have reads : Reads limits source stmts := ⟨quiet.1, cursor, read, quiet.2⟩
      rw [reads.run_shown_eq clean part]
      refine ⟨stmts, reads, ?_⟩
      cases interpret limits stmts session.started <;> rfl
  · rw [run_read held read, part] at executed
    exact absurd executed (parsing cursor.reports)

end

/-- Whatever a new session reports while it executes a text is about one of the statements of the text, in
turn, and names the line of one of that statement's tokens, unless the stack is used up; and the lines go
down the text. This holds also of what is reported by a run that does not come to an end. -/
theorem run_in_order {limits : Limits} {source : String} {traced : Bool} {time : Float}
    (executed : (left (run limits source traced (start time))).log.stage = "executing") :
    ∃ items later last entries machine,
      Reads limits source ((items ++ later).map Item.stmt) ∧
      (Source.scan source).tokens = (items ++ later).flatMap Item.tokens ++ [last] ∧
      (∀ item ∈ items ++ later,
        DerivesStatement maxNesting .declaration item.tokens item.stmt item.opened) ∧
      Attempts (start time).library limits "executing" (items.map Item.stmt) (start time).machine entries
        machine ∧
      (left (run limits source traced (start time))).log.runtime = entries.reduceOption ∧
      List.Forall₂ Item.Blamed items entries ∧
      ((left (run limits source traced (start time))).log.runtime.filterMap Diagnostic.line).Pairwise
        (· ≤ ·) := by
  obtain ⟨stmts, reads, same⟩ := left_run rfl executed
  obtain ⟨cursor, read, quiet⟩ := reads.read
  obtain ⟨front, last, scanned, ⟨all, derived, rfl, rfl⟩, -⟩ := derives_of_read read quiet
  obtain ⟨done, rest, entries, machine, parts, logged, attempts⟩ :=
    left_interpret limits (all.map Item.stmt) (start time).started
  -- The statements that were attempted are those of the first items.
  obtain ⟨items, later, rfl, rfl, rfl⟩ := List.map_eq_append_iff.mp parts
  rw [← same] at logged
  have blamed := attempts_blamed (start_hosted time).library (start_faultless time)
    (fun item member => derived item (List.mem_append_left _ member)) (start_hosted time).machine attempts
  have sorted := Source.scan_sorted source
  rw [scanned, List.flatMap_append, List.append_assoc, List.pairwise_append] at sorted
  refine ⟨items, later, last, entries, machine, reads, scanned, derived, attempts, logged, blamed, ?_⟩
  rw [logged]
  exact linesOf_sorted blamed sorted.1

/-- The first statement faults on its second line, behind a string of two lines; the loop faults in a clause
that stands before its body and is executed after it. -/
theorem run_in_order_for :
    let limits : Limits := ⟨100, 10⟩
    let source := "print \"a\n\" -\nnil;\nfor (var i = true; i; i = b)\nprint i;"
    (left (run limits source false (start 0))).log.stage = "executing" ∧
    ∃ items later last entries machine,
      Reads limits source ((items ++ later).map Item.stmt) ∧
      (Source.scan source).tokens = (items ++ later).flatMap Item.tokens ++ [last] ∧
      (∀ item ∈ items ++ later,
        DerivesStatement maxNesting .declaration item.tokens item.stmt item.opened) ∧
      Attempts (start 0).library limits "executing" (items.map Item.stmt) (start 0).machine entries
        machine ∧
      (left (run limits source false (start 0))).log.runtime = entries.reduceOption ∧
      List.Forall₂ Item.Blamed items entries ∧
      ((left (run limits source false (start 0))).log.runtime.filterMap Diagnostic.line).Pairwise
        (· ≤ ·) := by
  intro limits source
  have executed : (left (run limits source false (start 0))).log.stage = "executing" := by
    decide +kernel
  exact ⟨executed, run_in_order executed⟩

end Session

end Lox
