import Lox.Proofs.Grammar.Forms
import Lox.Proofs.Printing.Deeper
import Lox.Proofs.Session.Escapes

/-!
# What is parsed has the form of the grammar

The statements of a text have the form of the grammar whatever is reported about the text, and are
written back without parentheses of the printer's.
-/
namespace Lox.Session

open Grammar

/-- What is parsed of a text can be written as it is, on every stack that has the levels for it. Only the
equals signs of the text keep it from being parsed. -/
theorem parse_formed (limits : Limits) (source : String) (session : Session) :
    match parse limits source session with
    | .ok stmts _ => (∀ stmt ∈ stmts, stmt.Formed) ∧
        ∀ stack, Stmt.program stack stmts =
          if Stmt.heightAll stmts ≤ stack then .ok (Stmt.programText stmts) else .error .overflow
    | .error escape _ => escape = .reading .overflow ∧
        limits.stack ≤ (Source.scan source).tokens.countP (·.spells "=") + levelsFor maxNesting := by
  unfold parse
  rw [andThen_ok scan_apply]
  cases read : (program limits.stack).run (.start (Source.scan source).tokens) with
  | error stop cursor =>
    rw [read_error read]
    obtain ⟨rfl, deep⟩ := program_stop source read
    exact ⟨rfl, deep⟩
  | ok stmts cursor =>
    rw [read_ok read]
    have formed := program_formed read
    have written : stmts.map Stmt.written = stmts :=
      (List.map_congr_left fun stmt member => (formed stmt member).written).trans (List.map_id _)
    refine ⟨formed, fun stack => ?_⟩
    rw [Stmt.program_prints (fun stmt member => (formed stmt member).leveled), written]

end Lox.Session
