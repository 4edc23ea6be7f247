import Lox.Proofs.Grammar.Rows
import Lox.Proofs.Session.Interpret

/-!
# What escapes from a run

Without a trace, a run returns, unless it goes on without end, or the stack is used up while a text is
read. Where the stack is enough for the constructs that may be open, only the equals signs of the text can
use it up: everything else that is read inside itself is counted, and refused where too much is open.
-/
namespace Lox

namespace Grammar

variable {stack : Nat} {stop : Stop} {cursor : Cursor}

/-- Reading the tokens of a text breaks off only when the stack is used up, and the text has an equals
sign for every level that is not taken by the constructs which may be open. -/
theorem program_stop (source : String)
    (broke : (program stack).run (.start (Source.scan source).tokens) = .error stop cursor) :
    stop = .overflow ∧
      stack ≤ (Source.scan source).tokens.countP (·.spells "=") + levelsFor maxNesting := by
  obtain ⟨front, last, tokens, ended, regular, inside⟩ := Source.scan_tokens source
  rw [tokens] at broke ⊢
  have known : (Cursor.start (front ++ [last])).Regular := .under inside ended regular
  constructor
  · have sound := program_sound stack known
    unfold Meets at sound
    change program stack _ = _ at broke
    rw [broke] at sound
    obtain ⟨_, _, _, overflow⟩ := sound
    exact overflow
  · by_contra deep
    have few := Nat.lt_of_le_of_lt (Nat.add_le_add_right (equalsSigns_le (front ++ [last])) _)
      (Nat.lt_of_not_le deep)
    obtain ⟨_, _, _, _, read, -⟩ := program_returns (.start (front ++ [last])) (.under known.ends few)
    change program stack _ = _ at broke
    rw [broke] at read
    cases read

end Grammar

namespace Session

variable {limits : Limits} {session after : Session} {escape : Escape}

theorem attempt_error {stmt : Stmt} (escaped : attempt limits stmt session = .error escape after) :
    escape = .unfinished := by
  unfold attempt at escaped
  split at escaped <;> cases escaped
  rfl

/-- Faults and overflows of statements are logged, so that only what goes on without end escapes. -/
theorem interpret_error {stmts : List Stmt}
    (escaped : interpret limits stmts session = .error escape after) : escape = .unfinished := by
  induction stmts generalizing session with
  | nil => cases escaped
  | cons stmt stmts ih =>
    change (attempt limits stmt >>= fun _ => interpret limits stmts) session = _ at escaped
    rcases andThen_eq_error.mp escaped with tried | ⟨_, between, -, rest⟩
    · exact attempt_error tried
    · exact ih rest

/-- Without a trace, all that escapes from a run is that it goes on without end, or that the stack is used
up while the text is read. -/
theorem run_error {source : String} (escaped : run limits source false session = .error escape after) :
    escape = .unfinished ∨ escape = .reading .overflow ∧
      limits.stack ≤ (Source.scan source).tokens.countP (·.spells "=") + Grammar.levelsFor Grammar.maxNesting := by
  cases held : (session.scanned source).log.hasStatic with
  | true =>
    rw [run_held held] at escaped
    cases escaped
  | false =>
    cases read : (Grammar.program limits.stack).run (.start (Source.scan source).tokens) with
    | error stop cursor =>
      rw [run_unread held read] at escaped
      cases escaped
      obtain ⟨rfl, many⟩ := Grammar.program_stop source read
      exact .inr ⟨rfl, many⟩
    | ok stmts cursor =>
      rw [run_untraced held read] at escaped
      split at escaped
      · cases escaped
      · rcases andThen_eq_error.mp escaped with done | ⟨_, last, -, returns⟩
        · exact .inl (interpret_error done)
        · cases returns

/-- Without a trace, a run of any text in any session returns, or goes on without end, or escapes because
the stack is used up while the text is read. The last needs an equals sign for every level of the stack
that is left beside those for the constructs which may be open. -/
theorem run_returns (limits : Limits) (source : String) (session : Session) :
    (∃ outcome after, run limits source false session = .ok outcome after) ∨
    (∃ after, run limits source false session = .error .unfinished after) ∨
    (∃ after, run limits source false session = .error (.reading .overflow) after) ∧
      limits.stack ≤ (Source.scan source).tokens.countP (·.spells "=") + Grammar.levelsFor Grammar.maxNesting := by
  cases went : run limits source false session with
  | ok outcome after => exact .inl ⟨outcome, after, rfl⟩
  | error escape after =>
    rcases run_error went with rfl | ⟨rfl, many⟩
    · exact .inr (.inl ⟨after, rfl⟩)
    · exact .inr (.inr ⟨⟨after, rfl⟩, many⟩)

/-- Whatever the stack, a row of assignments that is as long as it is deep escapes. -/
theorem run_assignments {count : Nat} (clean : session.log.static = []) (few : limits.stack ≤ count)
    (traced : Bool) :
    ∃ after, run limits (Rows.source '=' count) traced session = .error (.reading .overflow) after := by
  obtain ⟨tokens, quiet⟩ := Rows.scan_row (.inl rfl) count
  obtain ⟨cursor, ended⟩ := Rows.program_assignments few
  rw [← tokens] at ended
  exact ⟨_, run_unread (scanned_clear quiet clean) ended⟩

/-- A row of three thousand assignments escapes from a new session with the standard stack. -/
theorem run_assignments_standard :
    ∃ after, run .standard (Rows.source '=' 3000) false (start 0) = .error (.reading .overflow) after :=
  run_assignments rfl (by decide) false

end Session

end Lox
