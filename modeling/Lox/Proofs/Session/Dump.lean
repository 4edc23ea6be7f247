import Lox.Proofs.Printing.Deeper
import Lox.Proofs.Session.Escapes
import Lox.Proofs.Session.Pieces

/-!
# Running the dump

The dump of a program is its statements as program text. It is read as the program again, on other
lines. Where every callable is a native, running it is running the program: nothing but the lines of the
faults tells the two apart.
-/
namespace Lox

open Grammar

/-- A diagnostic without the number of its line. -/
def Diagnostic.bare (diagnostic : Diagnostic) : Diagnostic :=
  { diagnostic with line := diagnostic.line.map fun _ => 0 }

namespace Session

/-! ### Reading the dump -/

section

variable {limits : Limits} {source text : String} {stmts others : List Stmt}

/-- What the dump of a program is read as is the program, apart from lines. -/
theorem Reads.dump (reads : Reads limits source stmts)
    (printed : Stmt.program limits.stack stmts = .ok text) (again : Reads limits text others) :
    others.map Stmt.bare = stmts.map Stmt.bare := by
  obtain ⟨cursor, read, quiet⟩ := reads.read
  obtain ⟨_, _, -, -, canonical⟩ := derives_of_read read quiet
  obtain ⟨after, reread, silent⟩ := again.read
  obtain ⟨front, last, scanned, derived, -⟩ := derives_of_read reread silent
  obtain ⟨inside, ended, regular, -⟩ := scan_front text scanned
  -- On a stack that is deep enough for the round trip, the text and its statements are still the same.
  have deep : WithEnough fun stack => limits.stack + front.length + 1 + levelsFor maxNesting < stack :=
    ⟨_, fun _ enough => enough⟩
  obtain ⟨stack, known⟩ := deep.and (canonical_reads canonical maxNesting).2
  obtain ⟨deep, canon, twins, beyond, twice, -, bare⟩ := known stack (Nat.le_refl stack)
  have lasts := Stmt.program_lasts stmts (show limits.stack ≤ stack by omega) text printed
  obtain rfl : Stmt.programText stmts = text := by
    rw [canon] at lasts
    exact Except.ok.inj lasts
  have whole := program_reads derived inside ended regular (show _ < stack by omega)
  rw [scanned] at twice
  rw [whole] at twice
  cases twice
  exact (bare rfl).1

end

/-! ### Executing statements that differ in their lines -/

/-- Sessions that differ at most in the lines of the runtime diagnostics that came after earlier ones. -/
structure SameButLines (earlier : List Diagnostic) (one other : Session) : Prop where
  machine : other.machine = one.machine
  natives : other.natives = one.natives
  closures : other.closures = one.closures
  stage : other.log.stage = one.log.stage
  static : other.log.static = one.log.static
  runtime : ∃ added extra, one.log.runtime = earlier ++ added ∧ other.log.runtime = earlier ++ extra ∧
    added.map Diagnostic.bare = extra.map Diagnostic.bare

section

variable {earlier : List Diagnostic} {one other third : Session}

theorem SameButLines.symm (same : one.SameButLines earlier other) : other.SameButLines earlier one := by
  obtain ⟨machine, natives, closures, stage, static, added, extra, first, second, bare⟩ := same
  exact ⟨machine.symm, natives.symm, closures.symm, stage.symm, static.symm, extra, added, second, first,
    bare.symm⟩

theorem SameButLines.trans (front : one.SameButLines earlier other)
    (back : other.SameButLines earlier third) : one.SameButLines earlier third := by
  obtain ⟨added, extra, first, second, same⟩ := front.runtime
  obtain ⟨more, final, again, last, alike⟩ := back.runtime
  obtain rfl : more = extra := List.append_cancel_left (again.symm.trans second)
  exact ⟨back.machine.trans front.machine, back.natives.trans front.natives,
    back.closures.trans front.closures, back.stage.trans front.stage, back.static.trans front.static,
    added, final, first, last, same.trans alike⟩

theorem SameButLines.hasRuntime (same : one.SameButLines earlier other) :
    other.log.hasRuntime = one.log.hasRuntime := by
  obtain ⟨added, extra, first, second, bare⟩ := same.runtime
  have length : added.length = extra.length := by simpa using congrArg List.length bare
  unfold Log.hasRuntime
  rw [first, second]
  cases earlier with
  | cons => rfl
  | nil =>
    cases added with
    | nil =>
      rw [List.length_eq_zero_iff.mp length.symm]
    | cons =>
      obtain ⟨_, _, rfl⟩ := List.exists_cons_of_length_eq_add_one length.symm
      rfl

end

/-- Programs whose tokens may stand on any lines. -/
def anywhere : Likeness := .lines (fun _ _ => True) fun _ => False

theorem entries_bare {added extra : List Diagnostic} (same : List.Forall₂ anywhere.Entry added extra) :
    extra.map Diagnostic.bare = added.map Diagnostic.bare := by
  refine Likeness.entries_map ?_ same
  rintro ⟨stage, here, message, fault⟩ goal related
  cases related <;> rfl

theorem sameButLines {earlier : List Diagnostic} {one other : Session}
    (fits : (anywhere.sessions earlier earlier).state one other) : one.SameButLines earlier other := by
  obtain ⟨⟨⟨machine, -⟩, natives, closures, stage, static, -⟩, added, extra, first, second, same⟩ := fits
  exact ⟨machine.symm, natives, closures, stage, static, added, extra, first, second,
    (entries_bare same).symm⟩

/-- Computations on sessions that differ in the lines of diagnostics: both return, or neither comes to an
end. -/
def butLines (earlier : List Diagnostic) : Pairing Escape Escape Session Session where
  state := SameButLines earlier
  error one other := one = .unfinished ∧ other = .unfinished
  excused _ := False

section

variable {limits : Limits} {session : Session} {stmts others : List Stmt}

/-- Interpretation does not see lines. -/
theorem interpret_bare (limits : Limits) (hosted : session.Hosted) (all : ∀ stmt ∈ stmts, stmt.Hosted) :
    (butLines session.log.runtime).Outcomes (fun _ _ => True) (interpret limits stmts session)
      (interpret limits (stmts.map Stmt.bare) session) := by
  have outcome := interpret_moved (fun _ _ => True) Token.bare limits (fun _ => ⟨rfl, trivial⟩) hosted all
  change (anywhere.sessions _ _).Outcomes _ _ (interpret limits (stmts.map Stmt.bare) session) at outcome
  generalize first : interpret limits stmts session = left,
    second : interpret limits (stmts.map Stmt.bare) session = right at outcome ⊢
  cases outcome with
  | ok _ fits => exact .ok trivial (sameButLines fits)
  | error _ fits => exact .error ⟨interpret_error first, interpret_error second⟩ (sameButLines fits)
  | excused excused => exact excused.2.elim

/-- Statements that are the same but for their lines do the same but for the lines of their faults. -/
theorem interpret_alike (limits : Limits) (hosted : session.Hosted) (all : ∀ stmt ∈ stmts, stmt.Hosted)
    (others_all : ∀ stmt ∈ others, stmt.Hosted) (same : others.map Stmt.bare = stmts.map Stmt.bare) :
    (butLines session.log.runtime).Outcomes (fun _ _ => True) (interpret limits stmts session)
      (interpret limits others session) := by
  have one := interpret_bare limits hosted all
  have other := interpret_bare limits hosted others_all
  rw [same] at other
  -- Both are compared with the statements whose tokens have no lines.
  generalize interpret limits (stmts.map Stmt.bare) session = between at one other
  generalize interpret limits stmts session = left at one ⊢
  generalize interpret limits others session = right at other ⊢
  cases one with
  | ok _ front =>
    cases other with
    | ok _ back => exact .ok trivial (front.trans back.symm)
    | excused excused => exact excused.elim
  | error stops front =>
    cases other with
    | error halts back => exact .error ⟨stops.1, halts.1⟩ (front.trans back.symm)
    | excused excused => exact excused.elim
  | excused excused => exact excused.elim

end

/-! ### Running the dump -/

/-- Running the dump of a program is running the program. Both return, or neither comes to an end; the
outcome is the same, and so is what is printed, the bindings, the calls and the diagnostics, but for the
lines of those that are new. -/
theorem run_dump {limits : Limits} {source text : String} {stmts others : List Stmt} {session : Session}
    (reads : Reads limits source stmts) (printed : Stmt.program limits.stack stmts = .ok text)
    (again : Reads limits text others) (clean : session.log.static = []) (hosted : session.Hosted) :
    match run limits source false session, run limits text false session with
    | .ok outcome after, .ok result beyond =>
      result = outcome ∧ after.SameButLines session.log.runtime beyond
    | .error escape after, .error stop beyond =>
      (escape = .unfinished ∧ stop = .unfinished) ∧ after.SameButLines session.log.runtime beyond
    | _, _ => False := by
  have begun : session.started.Hosted := ⟨hosted.machine, hosted.library⟩
  have alike := interpret_alike limits begun
    (fun stmt member => (reads.printable stmt member).hosted)
    (fun stmt member => (again.printable stmt member).hosted) (reads.dump printed again)
  rw [reads.run_eq clean, again.run_eq clean]
  generalize interpret limits stmts session.started = left, interpret limits others session.started = right
    at alike ⊢
  cases alike with
  | ok _ same => exact ⟨by rw [same.hasRuntime], same⟩
  | error stops same => exact ⟨stops, same⟩
  | excused excused => exact excused.elim

/-- The dump of a `for` statement is a loop on two lines, and the fault of its body is reported on the
second one. -/
theorem run_dump_for :
    let limits : Limits := ⟨100, 10⟩
    let source := "for (;;) print i;"
    let text := "while (true)\n    print i;\n"
    ∃ stmts others, Reads limits source stmts ∧ Stmt.program limits.stack stmts = .ok text ∧
      Reads limits text others ∧ (start 0).log.static = [] ∧ (start 0).Hosted ∧
      match run limits source false (start 0), run limits text false (start 0) with
      | .ok outcome after, .ok result beyond =>
        result = outcome ∧ after.SameButLines (start 0).log.runtime beyond
      | .error escape after, .error stop beyond =>
        (escape = .unfinished ∧ stop = .unfinished) ∧ after.SameButLines (start 0).log.runtime beyond
      | _, _ => False := by
  intro limits source text
  obtain ⟨stmts, reads, tested⟩ := @exists_reads limits source
    (fun stmts => decide (Stmt.program limits.stack stmts = .ok text)) (by decide +kernel)
    (by decide +kernel)
  have printed := of_decide_eq_true tested
  obtain ⟨others, again, -⟩ :=
    @exists_reads limits text (fun _ => true) (by decide +kernel) (by decide +kernel)
  exact ⟨stmts, others, reads, printed, again, rfl, start_hosted 0,
    run_dump reads printed again rfl (start_hosted 0)⟩

end Session

end Lox
