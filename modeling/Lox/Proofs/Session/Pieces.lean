import Lox.Proofs.Session.Reads

/-!
# Running in pieces

Two texts that are read without a report can be run one after the other in a session, or at once with a
line end between them. Where every callable is a native, the outcome is the same, except that the
diagnostics of the second text then name lines further down.
-/
namespace Lox

/-- A diagnostic so many lines further down, if it names a line at all. -/
def Diagnostic.lower (lines : Int) (diagnostic : Diagnostic) : Diagnostic :=
  { diagnostic with line := diagnostic.line.map (· + lines) }

namespace Session

/-- A session in which every callable is a native. -/
structure Hosted (session : Session) : Prop where
  machine : session.machine.Hosted
  library : session.library.Hosted

theorem start_hosted (time : Float) : (start time).Hosted where
  machine := by
    have empty : Scopes.Hosted ⟨#[]⟩ := fun id scope here => by simp at here
    exact Scopes.Hosted.define (empty.new none) trivial
  library id arguments value _ acted := by
    unfold library start clock at acted
    match id with
    | 0 => cases acted; trivial
    | id + 1 => cases acted; trivial

/-! ### Further down -/

section

variable {lines : Int} {limits : Limits} {stmts : List Stmt} {session : Session}

/-- Tokens that are so many lines apart. -/
def apart (lines : Int) : Likeness :=
  .lines (fun here there => there = here + lines) fun _ => False

theorem entries_apart {added extra : List Diagnostic}
    (same : List.Forall₂ (apart lines).Entry added extra) :
    extra = added.map (Diagnostic.lower lines) := by
  have alike : extra.map id = added.map (Diagnostic.lower lines) := by
    refine Likeness.entries_map ?_ same
    rintro ⟨stage, here, message, fault⟩ goal related
    cases related with
    | none => rfl
    | some below =>
      subst below
      rfl
  rwa [List.map_id] at alike

/-- Statements without closures do the same on other lines, apart from the lines of their faults. -/
theorem interpret_moved (line : Int → Int → Prop) (token : Token → Token) (limits : Limits)
    (moved : ∀ one : Token, (token one).lexeme = one.lexeme ∧ line one.line (token one).line)
    (hosted : session.Hosted) (all : ∀ stmt ∈ stmts, stmt.Hosted) :
    let like : Likeness := .lines line fun _ => False
    (like.sessions session.log.runtime session.log.runtime).Outcomes (fun _ _ => True)
      (interpret limits stmts session)
      (interpret limits (stmts.map (Stmt.rebuild token (Expr.rebuild token id))) session) := by
  intro like
  have alike : List.Forall₂ (Stmt.Like like) stmts
      (stmts.map (Stmt.rebuild token (Expr.rebuild token id))) := by
    rw [List.forall₂_map_right_iff, List.forall₂_same]
    exact fun stmt member => (all stmt member).like moved
  apply Likeness.interpret_runs alike rfl (Nat.le_refl limits.patience)
    (fun less => absurd less (Nat.lt_irrefl _)) fun _ impossible => impossible.elim
  refine ⟨⟨⟨rfl, hosted.machine⟩, rfl, rfl, rfl, rfl, Likeness.lines_kept hosted.library⟩, [], [], ?_⟩
  simp

theorem interpret_apart (lines : Int) (limits : Limits) (hosted : session.Hosted)
    (all : ∀ stmt ∈ stmts, stmt.Hosted) :
    ((apart lines).sessions session.log.runtime session.log.runtime).Outcomes (fun _ _ => True)
      (interpret limits stmts session) (interpret limits (stmts.map (Stmt.lower lines)) session) :=
  interpret_moved _ _ limits (fun _ => ⟨rfl, rfl⟩) hosted all

theorem Kept.library {after : Session} (kept : session.Kept after) : after.library = session.library := by
  unfold Session.library
  rw [kept.natives, kept.closures]

theorem interpret_hosted {after : Session} (hosted : session.Hosted)
    (all : ∀ stmt ∈ stmts, stmt.Hosted) (done : interpret limits stmts session = .ok () after) :
    after.Hosted where
  machine := by
    have outcome := interpret_apart 0 limits hosted all
    rw [done] at outcome
    generalize interpret limits _ session = other at outcome
    cases outcome with
    | ok _ fits => exact fits.1.machine.2
  library := (interpret_kept done).library ▸ hosted.library

/-! ### Two texts -/

/-- A session whose later diagnostics name lines further down. -/
def relined (lines : Int) (known later : List Diagnostic) (session : Session) : Session :=
  { session with log := { session.log with runtime := known ++ later.map (Diagnostic.lower lines) } }

theorem hasRuntime_relined {known later : List Diagnostic}
    (logged : session.log.runtime = known ++ later) :
    (relined lines known later session).log.hasRuntime = session.log.hasRuntime := by
  simp only [relined, Log.hasRuntime, logged]
  cases known <;> simp

/-- Sessions side by side that are so many lines apart. -/
theorem eq_relined {one other : Session} {known : List Diagnostic}
    (fits : ((apart lines).sessions known known).state one other) :
    ∃ later, one.log.runtime = known ++ later ∧ other = relined lines known later one := by
  obtain ⟨⟨⟨machine, -⟩, natives, closures, stage, static, -⟩, added, extra, left, right, same⟩ := fits
  obtain rfl := entries_apart same
  refine ⟨added, left, ?_⟩
  obtain ⟨⟨_, _, _⟩, _, _, _⟩ := other
  unfold relined
  simp_all

end

variable {limits : Limits} {first second : String} {session : Session}

/-- Running two texts one after the other is running them as one text, with a line end between them.
If the one comes to an end so does the other. What is printed, the calls, the bindings, the stage and
the outcome are the same, and so are the diagnostics, except that those of the second text name lines
further down. -/
theorem run_joined (reads : ∃ stmts, Reads limits first stmts) (further : ∃ stmts, Reads limits second stmts)
    (clean : session.log.static = []) (hosted : session.Hosted) (outcome : Outcome) (final : Session) :
    run limits (first ++ "\n" ++ second) false session = .ok outcome final ↔
      ∃ earlier between after later, run limits first false session = .ok earlier between ∧
        run limits second false between = .ok outcome after ∧
        after.log.runtime = between.log.runtime ++ later ∧
        final = relined (Source.below first) between.log.runtime later after := by
  obtain ⟨one, reads⟩ := reads
  obtain ⟨two, further⟩ := further
  have begun : session.started.Hosted := ⟨hosted.machine, hosted.library⟩
  -- What is known once the statements of the first text have come to an end.
  have middle {between : Session} (done : interpret limits one session.started = .ok () between) :
      between.log.static = [] ∧ between.started = between ∧
        ((apart (Source.below first)).sessions between.log.runtime between.log.runtime).Outcomes
          (fun _ _ => True) (interpret limits two between)
          (interpret limits (two.map (Stmt.lower (Source.below first))) between) := by
    have kept := interpret_kept done
    have known := interpret_hosted begun (fun stmt member => (reads.printable stmt member).hosted) done
    have stage : between.log.stage = "executing" := kept.stage
    refine ⟨kept.static.trans clean, by simp [started, Log.enter, ← stage], ?_⟩
    exact interpret_apart _ limits known fun stmt member => (further.printable stmt member).hosted
  rw [(reads.joined further).run_ok_iff clean, interpret_append]
  constructor
  · rintro ⟨⟨between, done, ended⟩, rfl⟩
    obtain ⟨quiet, still, alike⟩ := middle done
    rw [ended] at alike
    generalize same : interpret limits two between = left at alike
    cases alike with
    | ok _ fits =>
      obtain ⟨later, logged, rfl⟩ := eq_relined fits
      refine ⟨_, between, _, later, (reads.run_ok_iff clean).mpr ⟨done, rfl⟩,
        (further.run_ok_iff quiet).mpr ⟨by rw [still, same], ?_⟩, logged, rfl⟩
      rw [hasRuntime_relined logged]
    | excused excused => exact excused.2.elim
  · rintro ⟨earlier, between, after, later, ran, again, logged, rfl⟩
    obtain ⟨done, -⟩ := (reads.run_ok_iff clean).mp ran
    obtain ⟨quiet, still, alike⟩ := middle done
    obtain ⟨ended, rfl⟩ := (further.run_ok_iff quiet).mp again
    rw [still] at ended
    rw [ended] at alike
    generalize same : interpret limits (two.map (Stmt.lower (Source.below first))) between = right
      at alike
    cases alike with
    | ok _ fits =>
      obtain ⟨others, entries, rfl⟩ := eq_relined fits
      obtain rfl := List.append_cancel_left (logged.symm.trans entries)
      refine ⟨⟨between, done, same⟩, ?_⟩
      rw [hasRuntime_relined logged]

/-- The second text may use what the first one declares, and fault. -/
theorem run_joined_undefined :
    let limits : Limits := ⟨100, 10⟩
    let first := "var a = true;"
    let second := "print a;\nprint b;"
    (∃ stmts, Reads limits first stmts) ∧ (∃ stmts, Reads limits second stmts) ∧
    (start 0).log.static = [] ∧ (start 0).Hosted ∧
    ∀ outcome final, run limits (first ++ "\n" ++ second) false (start 0) = .ok outcome final ↔
      ∃ earlier between after later, run limits first false (start 0) = .ok earlier between ∧
        run limits second false between = .ok outcome after ∧
        after.log.runtime = between.log.runtime ++ later ∧
        final = relined (Source.below first) between.log.runtime later after := by
  intro limits first second
  obtain ⟨one, reads, -⟩ :=
    @exists_reads limits first (fun _ => true) (by decide +kernel) (by decide +kernel)
  obtain ⟨two, further, -⟩ :=
    @exists_reads limits second (fun _ => true) (by decide +kernel) (by decide +kernel)
  exact ⟨⟨one, reads⟩, ⟨two, further⟩, rfl, start_hosted 0,
    run_joined ⟨one, reads⟩ ⟨two, further⟩ rfl (start_hosted 0)⟩

end Session

end Lox
