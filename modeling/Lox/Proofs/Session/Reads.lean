import Lox.Proofs.Grammar.Locality
import Lox.Proofs.Printing.RoundTrip
import Lox.Proofs.Session.Interpret
import Lox.Proofs.Session.Phases

/-!
# Texts that are read without a report

A text that is scanned and read without a report is executed statement by statement, unless the log
holds static errors from before. Two such texts with a line end between them are read as the
statements of the one and then those of the other.
-/
namespace Lox

open Grammar

/-- At the limits, a text is scanned and read as some statements, and nothing is reported. -/
structure Session.Reads (limits : Limits) (source : String) (stmts : List Stmt) : Prop where
  scanned : (Source.scan source).reports = []
  read : ∃ cursor, (program limits.stack).run (.start (Source.scan source).tokens) = .ok stmts cursor ∧
    cursor.reports = []

/-- A text whose reading passes a test without a report is read as some statements that pass it. -/
theorem Session.exists_reads {limits : Limits} {source : String} (test : List Stmt → Bool)
    (scanned : (Source.scan source).reports = [])
    (passes : (match (program limits.stack).run (.start (Source.scan source).tokens) with
      | .ok stmts cursor => cursor.reports.isEmpty && test stmts
      | .error _ _ => false) = true) :
    ∃ stmts, Session.Reads limits source stmts ∧ test stmts = true := by
  obtain ⟨stmts, cursor, read, tested⟩ :=
    exists_of_test (fun stmts cursor => cursor.reports.isEmpty && test stmts) passes
  obtain ⟨quiet, tested⟩ := Bool.and_eq_true_iff.mp tested
  exact ⟨stmts, ⟨scanned, cursor, read, List.isEmpty_iff.mp quiet⟩, tested⟩

/-! ### Joining two lists of tokens -/

namespace Grammar

section

variable {room : Nat} {tokens : List Token} {stmts : List Stmt}

/-- Every statement of a program has a token. -/
theorem DerivesProgram.length_le (derived : DerivesProgram room tokens stmts) :
    stmts.length ≤ tokens.length := by
  obtain ⟨items, all, rfl, rfl⟩ := derived
  rw [List.length_map]
  induction items with
  | nil => exact Nat.zero_le _
  | cons item items ih =>
    obtain ⟨first, others⟩ := List.forall_mem_cons.mp all
    obtain ⟨token, more, same, -⟩ := first.begins
    have rest := ih others
    simp only [List.flatMap_cons, List.length_append, List.length_cons, same]
    omega

/-- A program does not begin with an `else`. -/
theorem DerivesProgram.head {last : Token} (derived : DerivesProgram room tokens stmts)
    (regular : ∀ token ∈ tokens, token.Regular) (ended : last.spells "else" = false) :
    ∃ token rest, tokens ++ [last] = token :: rest ∧ token.spells "else" = false := by
  obtain ⟨items, all, rfl, -⟩ := derived
  cases items with
  | nil => exact ⟨last, [], rfl, ended⟩
  | cons item items =>
    obtain ⟨token, more, same, begins⟩ := (all item List.mem_cons_self).begins
    rw [List.flatMap_cons, same] at regular ⊢
    exact ⟨token, _, rfl, begins.spells_eq_false (regular token List.mem_cons_self) (by decide)
      (by decide) (by decide)⟩

end

/-- The tokens of a program text before the end of input. -/
def Opening (front : List Token) : Prop := ∀ token ∈ front, token.Regular ∧ token.isEnd = false

/-- The end of input of a program text. -/
structure Closing (last : Token) : Prop where
  ended : last.isEnd = true
  regular : last.Regular

namespace Closing

variable {last : Token}

theorem blank (closing : Closing last) : last.lexeme = "" := by
  have regular := closing.regular
  unfold Token.Regular at regular
  rwa [Token.isEnd_iff.mp closing.ended] at regular

theorem spells_eq_false (closing : Closing last) {text : String} (some : text ≠ "") :
    last.spells text = false := by
  simp [Token.spells, closing.blank, some.symm]

end Closing

section

variable {stack : Nat} {front back : List Token} {last final : Token} {one two : List Stmt}
  {after beyond : Cursor}

/-- A program text is read up to its end of input, where nothing is open. -/
theorem program_stops (opening : Opening front) (closing : Closing last)
    (read : program stack (.start (front ++ [last])) = .ok one after) :
    after.rest = [last] ∧ after.depth = 0 ∧ after.cap = maxNesting := by
  have known : (Cursor.start (front ++ [last])).Regular :=
    .under opening closing.ended closing.regular
  have sound := program_sound stack known
  unfold Meets at sound
  rw [read] at sound
  obtain ⟨tokens, _, reach, -, token, rest, here, stops⟩ := sound
  have whole : front ++ [last] = tokens ++ token :: rest := here ▸ reach.rest
  -- Both lists begin with as many tokens that are no end of input.
  have first : (front ++ [last]).findIdx Token.isEnd = front.length :=
    findIdx_append_cons (fun token member => (opening token member).2) closing.ended
  rw [whole, findIdx_append_cons reach.inside stops] at first
  exact ⟨here.trans (List.append_inj_right whole first.symm).symm, reach.depth, reach.cap⟩

/-- Reading a program is reading its declarations, with a round for each token and one more. -/
theorem program_start (stack : Nat) (tokens : List Token) :
    program stack (.start tokens) = declarations (fun _ => false)
      (declarationAt (tokens.length + 1) stack maxNesting) (tokens.length + 1) (.start tokens) :=
  rfl

/-- Two lists of tokens that are read without a report are read one after the other as the statements
of the one and then those of the other, on whatever lines the second list stands. -/
theorem program_joined (lines : Int) (opening : Opening front) (closing : Closing last)
    (begun : Opening back) (ending : Closing final)
    (first : program stack (.start (front ++ [last])) = .ok one after) (quiet : after.reports = [])
    (second : program stack (.start (back ++ [final])) = .ok two beyond)
    (silent : beyond.reports = []) :
    ∃ cursor, program stack (.start (front ++ (back ++ [final]).map (Token.lower lines))) =
      .ok (one ++ two.map (Stmt.lower lines)) cursor ∧ cursor.reports = [] := by
  have few := (program_derives first quiet opening closing.ended closing.regular).length_le
  have derived := program_derives second silent begun ending.ended ending.regular
  have some := derived.length_le
  obtain ⟨token, rest, head, going⟩ := derived.head (fun token member => (begun token member).1)
    (ending.spells_eq_false (by decide))
  let tail := (back ++ [final]).map (Token.lower lines)
  -- The first list gives way to the second where it ends, and the second to its own end of input.
  let middle : Joint := ⟨0, last, tail, [], closing.ended, closing.blank, token.lower lines,
    rest.map (Token.lower lines), by rw [← List.map_cons, ← head], going⟩
  let ends : Joint := ⟨lines, final, [final.lower lines], [], ending.ended, ending.blank,
    final.lower lines, [], rfl, ending.spells_eq_false (by decide)⟩
  have start : Cursor.Beside middle (.start (front ++ [last])) (.start (front ++ tail)) := by
    refine ⟨⟨front, rfl, ?_⟩, rfl, rfl, rfl⟩
    simp [middle, funext Token.lower_zero, Cursor.start, Cursor.under]
  have enough : (front ++ [last]).length + 1 ≤ (front ++ tail).length + 1 := by simp [tail]
  obtain ⟨rest, depth, cap⟩ := program_stops opening closing first
  obtain ⟨stops, -, -⟩ := program_stops begun ending second
  rw [program_start] at first second ⊢
  obtain ⟨between, fits, ahead⟩ := declarationAt_joined enough start first quiet
  have next : Cursor.Beside ends (.start (back ++ [final])) between := by
    obtain ⟨left, same, there⟩ := fits.rest
    obtain rfl : left = [] := by
      rw [rest] at same
      exact List.append_inj_left' same rfl |>.symm
    refine ⟨⟨back, rfl, ?_⟩, fits.depth.trans depth, fits.cap.trans cap, ?_⟩
    · simp [there, middle, ends, tail]
    · simp [fits.reports, quiet, middle, ends, Cursor.start, Cursor.under]
  have fewer : (back ++ [final]).length + 1 ≤ (front ++ tail).length + 1 := by simp [tail]
  obtain ⟨cursor, reached, onward⟩ := declarationAt_joined fewer next second silent
  have last : cursor.rest = [final.lower lines] := by
    obtain ⟨left, same, there⟩ := reached.rest
    rw [stops] at same
    obtain rfl : left = [] := (List.append_inj_left' same rfl).symm
    exact there
  -- The rounds outlast the statements, each of which has a token.
  obtain ⟨spare, rounds⟩ : ∃ spare, (front ++ tail).length + 1 =
      one.length + (two.length + (spare + 1)) := by
    refine ⟨(front ++ tail).length - one.length - two.length, ?_⟩
    simp only [tail, List.length_append, List.length_map, List.length_singleton]
    omega
  refine ⟨cursor, ?_, by simp [reached.reports, silent, ends]⟩
  have whole := ahead (two.length + (spare + 1))
  rw [← rounds] at whole
  refine whole.trans ?_
  rw [bind_apply, onward, bind_apply, declarations, bind_ok (current_apply last)]
  have ended : (final.lower lines).isEnd = true := ending.ended
  rw [ended, if_pos (Bool.or_true false)]
  simp [middle, ends, funext Stmt.lower_zero, pure, EStateM.pure]

end

end Grammar

namespace Session.Reads

variable {limits : Limits} {source first second : String} {stmts one two : List Stmt}

theorem printable (reads : Reads limits source stmts) : ∀ stmt ∈ stmts, stmt.Printable := by
  obtain ⟨cursor, read, quiet⟩ := reads.read
  obtain ⟨_, _, -, -, canonical⟩ := derives_of_read read quiet
  exact fun stmt member => (canonical stmt member).printable

/-! ### Running a text that is read without a report -/

/-- The statements are executed, once they were shown, where the log holds no static errors from before. -/
theorem run_shown_eq (reads : Reads limits source stmts) {session : Session} {traced : Bool}
    {shown : String} (clean : session.log.static = [])
    (part : statementPart limits stmts traced = pure shown) :
    run limits source traced session = match interpret limits stmts session.started with
      | .ok _ after => .ok ⟨!after.log.hasRuntime, tokenPart source traced ++ shown⟩ after
      | .error escape after => .error escape after := by
  obtain ⟨cursor, read, quiet⟩ := reads.read
  have parsed : (session.scanned source).parsed cursor.reports =
      { session with log := session.log.enter "parsing" } := by
    simp [Session.parsed, Log.addReports, Log.enter, scanned_quiet reads.scanned, quiet]
  have still : ((session.scanned source).parsed cursor.reports).log.hasStatic = false := by
    simp [parsed, Log.hasStatic, Log.enter, clean]
  have started : ((session.scanned source).parsed cursor.reports).started = session.started := by
    rw [parsed]
    rfl
  rw [run_executes (scanned_clear reads.scanned clean) read part, still, if_neg Bool.false_ne_true, started]
  cases ended : interpret limits stmts session.started with
  | ok _ final => exact andThen_ok ended
  | error escape final => exact andThen_error ended

/-- Without a trace nothing is shown. -/
theorem run_eq (reads : Reads limits source stmts) {session : Session} (clean : session.log.static = []) :
    run limits source false session = match interpret limits stmts session.started with
      | .ok _ after => .ok ⟨!after.log.hasRuntime, ""⟩ after
      | .error escape after => .error escape after := by
  have part : statementPart limits stmts false = pure "" := rfl
  exact reads.run_shown_eq clean part

theorem run_ok_iff (reads : Reads limits source stmts) {session after : Session} {outcome : Outcome}
    (clean : session.log.static = []) :
    run limits source false session = .ok outcome after ↔
      interpret limits stmts session.started = .ok () after ∧
        outcome = ⟨!after.log.hasRuntime, ""⟩ := by
  rw [reads.run_eq clean]
  cases interpret limits stmts session.started with
  | ok _ final =>
    constructor
    · intro same
      cases same
      exact ⟨rfl, rfl⟩
    · rintro ⟨same, rfl⟩
      cases same
      rfl
  | error escape final => simp

/-! ### Joining two texts -/

/-- Two texts with a line end between them are read as the statements of the one and then those of the
other, further down. -/
theorem joined (reads : Reads limits first one) (further : Reads limits second two) :
    Reads limits (first ++ "\n" ++ second) (one ++ two.map (Stmt.lower (Source.below first))) := by
  have closed : ∀ report ∈ (Source.scan first).reports, report.error ≠ .unterminatedString := by
    simp [reads.scanned]
  have scanned := Source.scan_joined closed second
  obtain ⟨after, read, quiet⟩ := reads.read
  obtain ⟨beyond, again, silent⟩ := further.read
  obtain ⟨front, last, tokens, -⟩ := Source.scan_tokens first
  obtain ⟨back, final, others, -⟩ := Source.scan_tokens second
  obtain ⟨opening, ended, regular, -⟩ := scan_front first tokens
  obtain ⟨begun, ending, proper, -⟩ := scan_front second others
  rw [tokens] at read
  rw [others] at again
  refine ⟨by simp [scanned, reads.scanned, further.scanned], ?_⟩
  rw [scanned, tokens, others, List.dropLast_concat]
  exact program_joined _ opening ⟨ended, regular⟩ begun ⟨ending, proper⟩ read quiet again silent

end Session.Reads

end Lox
