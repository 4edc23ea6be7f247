import Lox.Proofs.Session.Escapes
import Lox.Proofs.Session.Gate
import Lox.Shell

/-!
# Running a file

The answer to arguments that name a file. A file that cannot be read or decoded is complained about in one
message. Any other is run in a new session, and what its run left on the log is written, a line for each
diagnostic. The code says whether anything was written to the error stream. A path with a null character is
not complained about: it has no answer.
-/
namespace Lox

/-- Diagnostics as they are written, a line for each. -/
def Diagnostic.lines (diagnostics : List Diagnostic) : String :=
  String.join (diagnostics.map fun diagnostic => diagnostic.text ++ "\n")

theorem Log.text_eq (log : Log) : log.text = Diagnostic.lines (log.static ++ log.runtime) := rfl

/-- No diagnostic is written as nothing. -/
theorem Diagnostic.lines_eq_empty {diagnostics : List Diagnostic} :
    Diagnostic.lines diagnostics = "" ↔ diagnostics = [] := by
  constructor
  · intro blank
    cases diagnostics with
    | nil => rfl
    | cons diagnostic more =>
      have none := congrArg String.toList blank
      simp [lines, Diagnostic.text, String.join_cons] at none
  · rintro rfl
    rfl

namespace Shell

/-! ### Arguments -/

namespace Request

/-- Arguments that name one path and ask for nothing else: the path is not empty and looks like no
flag. An empty argument before it names nothing. -/
inductive Names : List String → String → Prop where
  | path {path : String} : path ≠ "" → path.toList.head? ≠ some '-' → Names [path] path
  | blank {arguments : List String} {path : String} :
      Names arguments path → Names ("" :: arguments) path

variable {arguments : List String} {path found : String}

/-- The debug flag is never taken back. -/
theorem continue_debug : Request.continue found true arguments ≠ .file path false := by
  induction arguments generalizing found with
  | nil =>
    unfold Request.continue
    split <;> nofun
  | cons argument rest ih =>
    unfold Request.continue
    split
    · nofun
    split
    · exact ih
    split
    · nofun
    split
    · exact ih
    · nofun

/-- Once a path was found, nothing may follow it but flags. -/
theorem continue_found (some : found ≠ "") :
    Request.continue found false arguments = .file path false ↔ arguments = [] ∧ found = path := by
  cases arguments with
  | nil => simp [Request.continue, some]
  | cons argument rest =>
    unfold Request.continue
    split
    · simp
    split
    · simp [continue_debug]
    split <;> simp

theorem ofArguments_iff :
    Request.ofArguments arguments = .file path false ↔ Names arguments path := by
  unfold Request.ofArguments
  constructor
  · intro asked
    induction arguments with
    | nil => cases asked
    | cons argument rest ih =>
      unfold Request.continue at asked
      split at asked
      · cases asked
      split at asked
      · exact absurd asked continue_debug
      split at asked
      · cases asked
      next plain =>
      rw [if_pos rfl] at asked
      by_cases blank : argument = ""
      · subst blank
        exact .blank (ih asked)
      · obtain ⟨rfl, rfl⟩ := (continue_found blank).mp asked
        exact .path blank plain
  · intro named
    induction named with
    | @path path some plain =>
      -- Every flag begins with a dash.
      have flagless : ∀ flag : String, flag.toList.head? = Option.some '-' → path ≠ flag :=
        fun flag dashed same => plain (same ▸ dashed)
      simp [Request.continue, flagless "--help" rfl, flagless "-h" rfl, flagless "--debug" rfl, plain,
        some]
    | blank _ ih => exact ih

end Request

/-! ### The run of a text -/

section

variable {limits : Limits} {time : Float} {source : String} {session after : Session}
  {outcome : Session.Outcome}

theorem execute_eq (debug : Bool) : execute limits debug source session =
    match Session.run limits source debug session with
    | .ok outcome after =>
      .ok (outcome.clean, after.machine.output, outcome.trace ++ after.log.text)
        { after with machine := { after.machine with output := "", calls := #[] } }
    | .error escape after => .error escape after := by
  unfold execute
  cases ran : Session.run limits source debug session with
  | ok outcome after => exact andThen_ok ran
  | error escape after => exact andThen_error ran

/-- Without a trace nothing is shown of the statements. -/
theorem statementPart_untraced {stmts : List Stmt} {shown : String}
    (part : Session.statementPart limits stmts false = pure shown) : shown = "" := by
  have same := congrFun part (Session.start 0)
  cases same
  rfl

/-- Without a trace, nothing is dumped. -/
theorem gated_untraced (gated : Session.Gated limits source false session outcome after) :
    outcome.trace = "" := by
  cases gated with
  | scanning => rfl
  | parsing _ _ _ part =>
    obtain rfl := statementPart_untraced part
    rfl
  | executing _ _ part =>
    obtain rfl := statementPart_untraced part
    rfl

/-- After a run from a new session without a trace, the log holds static diagnostics and no other, and
nothing was printed, or else it holds no static diagnostic. -/
theorem gated_start (gated : Session.Gated limits source false (.start time) outcome after) :
    after.log.static ≠ [] ∧ after.log.runtime = [] ∧ after.machine.output = "" ∨
      after.log.static = [] := by
  cases gated with
  | scanning held => exact .inl ⟨held, rfl, rfl⟩
  | parsing _ _ _ _ held => exact .inl ⟨by simpa using held, rfl, rfl⟩
  | executing => exact .inr rfl

end

/-! ### The answer -/

/-- What is written to the two streams about a path, given what reading it gives. -/
inductive Tells (limits : Limits) (time : Float) (path : String) :
    Except ReadError ByteArray → String → String → Prop where
  | unreadable (error : ReadError) :
      Tells limits time path (.error error) "" (complaint (path ++ ": " ++ error.message path))
  | undecodable {bytes : ByteArray} :
      String.fromUTF8? bytes = none →
      Tells limits time path (.ok bytes) "" (complaint (path ++ ": invalid utf-8"))
  /-- The text has static errors, and none of it is executed. -/
  | static {bytes : ByteArray} {source : String} {outcome : Session.Outcome} {after : Session} :
      String.fromUTF8? bytes = some source →
      Session.run limits source false (.start time) = .ok outcome after →
      Session.Gated limits source false (.start time) outcome after →
      after.log.static ≠ [] → after.log.runtime = [] →
      Tells limits time path (.ok bytes) "" (Diagnostic.lines after.log.static)
  /-- The text has none, and every statement of it is attempted. -/
  | runtime {bytes : ByteArray} {source : String} {outcome : Session.Outcome} {after : Session} :
      String.fromUTF8? bytes = some source →
      Session.run limits source false (.start time) = .ok outcome after →
      Session.Gated limits source false (.start time) outcome after →
      after.log.static = [] →
      Tells limits time path (.ok bytes) after.machine.output (Diagnostic.lines after.log.runtime)

variable {limits : Limits} {time : Float} {path : String} {answer : Reply} {escape : Escape}

theorem complaint_ne_empty (text : String) : complaint text ≠ "" := by
  intro blank
  have none := congrArg String.toList blank
  simp [complaint] at none

/-- What is answered about a file is what its content asks for, with a code that agrees. -/
theorem runContent_ok {content : Except ReadError ByteArray}
    (done : runContent limits time path false content = .ok answer) :
    Tells limits time path content answer.out answer.err ∧
      answer.code = if answer.err = "" then 0 else 1 := by
  unfold runContent at done
  split at done
  next error =>
    cases done
    exact ⟨.unreadable error, (if_neg (complaint_ne_empty _)).symm⟩
  next bytes =>
  split at done
  next invalid =>
    cases done
    exact ⟨.undecodable invalid, (if_neg (complaint_ne_empty _)).symm⟩
  next source decoded =>
  rw [execute_eq] at done
  cases ran : Session.run limits source false (.start time) with
  | error escape after =>
    rw [ran] at done
    cases done
  | ok outcome after =>
    rw [ran] at done
    cases done
    have gated := Session.Gated.of_run ran
    have clean := gated.clean_iff
    have untraced := gated_untraced gated
    -- A log holds what was reported before execution or what was reported during it, never both.
    obtain ⟨held, alone, silent⟩ | none := gated_start gated
    · have told := @Tells.static _ _ path _ _ _ _ decoded ran gated held alone
      have code : outcome.clean = false := by simp_all
      simpa [untraced, Log.text_eq, alone, silent, code, Diagnostic.lines_eq_empty, held] using told
    · have told := @Tells.runtime _ _ path _ _ _ _ decoded ran gated none
      simp [untraced, Log.text_eq, none, Diagnostic.lines_eq_empty, told, clean]

/-- Only the run of a text escapes: it goes on without end, or the stack is used up while it is read. -/
theorem runContent_error {content : Except ReadError ByteArray}
    (escaped : runContent limits time path false content = .error escape) :
    escape = .unfinished ∨ escape = .reading .overflow := by
  unfold runContent at escaped
  split at escaped
  · cases escaped
  split at escaped
  · cases escaped
  next source _ =>
  rw [execute_eq] at escaped
  cases ran : Session.run limits source false (.start time) with
  | ok outcome after =>
    rw [ran] at escaped
    cases escaped
  | error stop after =>
    rw [ran] at escaped
    cases escaped
    exact (Session.run_error ran).imp_right And.left

theorem reply_named {read : String → Except ReadError ByteArray} {input : String}
    {arguments : List String} (named : Request.Names arguments path) :
    reply limits time read input arguments = runFile limits time path false (read path) := by
  unfold reply
  rw [Request.ofArguments_iff.mpr named]

/-- Arguments that name a file are answered by what is to be told about it, and the code is zero exactly
when nothing was written to the error stream. There is no answer exactly where the path holds a null
character, or a text goes on without end or uses the stack up while it is read. -/
theorem reply_file (limits : Limits) (time : Float) (read : String → Except ReadError ByteArray)
    (input : String) {arguments : List String} (named : Request.Names arguments path) :
    match reply limits time read input arguments with
    | .ok answer =>
        '\x00' ∉ path.toList ∧ Tells limits time path (read path) answer.out answer.err ∧
          answer.code = if answer.err = "" then 0 else 1
    | .error escape =>
        '\x00' ∈ path.toList ∧ escape = .malformedPath ∨
          '\x00' ∉ path.toList ∧ (escape = .unfinished ∨ escape = .reading .overflow) := by
  rw [reply_named named]
  unfold runFile
  by_cases malformed : '\x00' ∈ path.toList
  · rw [if_pos malformed]
    exact .inl ⟨malformed, rfl⟩
  · rw [if_neg malformed]
    cases told : runContent limits time path false (read path) with
    | ok answer => exact ⟨malformed, runContent_ok told⟩
    | error escape => exact .inr ⟨malformed, runContent_error told⟩

/-- A path with a null character is neither complained about nor answered in any other way. -/
theorem reply_null_character :
    let read : String → Except ReadError ByteArray := fun _ => .error .missing
    Request.Names ["a\x00b"] "a\x00b" ∧
      ¬∃ answer, reply .standard 0 read "" ["a\x00b"] = .ok answer ∧
        ∃ message, answer.out = "" ∧ answer.err = complaint ("a\x00b: " ++ message) := by
  intro read
  refine ⟨.path (by decide) (by decide), ?_⟩
  rintro ⟨answer, answered, -⟩
  have escapes : reply .standard 0 read "" ["a\x00b"] = .error .malformedPath := by decide +kernel
  rw [escapes] at answered
  cases answered

/-- A program that prints and then uses a name that nothing binds. -/
theorem reply_file_undefined :
    let read : String → Except ReadError ByteArray := fun _ => .ok "print nil; x;".toUTF8
    Request.Names ["", "a.lox"] "a.lox" ∧
      ∃ answer, reply .standard 0 read "" ["", "a.lox"] = .ok answer ∧
        answer = ⟨1, "nil\n", "[line 1] Error: Undefined variable 'x'. (stage executing)\n"⟩ ∧
        Tells .standard 0 "a.lox" (read "a.lox") answer.out answer.err := by
  intro read
  have named : Request.Names ["", "a.lox"] "a.lox" := .blank (.path (by decide) (by decide))
  have done : reply .standard 0 read "" ["", "a.lox"] = .ok
      ⟨1, "nil\n", "[line 1] Error: Undefined variable 'x'. (stage executing)\n"⟩ := by decide +kernel
  have told := reply_file .standard 0 read "" named
  rw [done] at told
  exact ⟨named, _, done, rfl, told.2.1⟩

end Shell

end Lox
