import Lox.Proofs.Evaluation.Enclosed
import Lox.Proofs.Session.Frames
import Lox.Proofs.Session.Isolation

/-!
# A program inside a block

A list of statements goes on after a fault, and a block does not. Up to the first statement about which
something is reported, though, a program does the same as top-level statements and inside one block: it
prints the same text, makes the same calls and reports the same. Inside a block it leaves the global names
as they were.
-/
namespace Lox

open Frames (Store Represents Executes Accounts)

/-- Statements are attempted one after another up to the first about which something is reported, with the
diagnostic and the machine that it leaves. Where there is none, all are attempted. -/
inductive Advances (library : Library) (limits : Limits) (stage : String) :
    List Stmt → Machine → Option Diagnostic → Machine → Prop where
  | done {machine : Machine} : Advances library limits stage [] machine none machine
  | passes {stmt : Stmt} {stmts : List Stmt} {before between after : Machine}
      {entry : Option Diagnostic} :
      Attempted library limits stage stmt before none between →
      Advances library limits stage stmts between entry after →
      Advances library limits stage (stmt :: stmts) before entry after
  | fails {stmt : Stmt} {stmts : List Stmt} {before after : Machine} {diagnostic : Diagnostic} :
      Attempted library limits stage stmt before (some diagnostic) after →
      Advances library limits stage (stmt :: stmts) before (some diagnostic) after

section

variable {library : Library} {limits : Limits} {stage : String} {stmt : Stmt} {stmts : List Stmt}
  {before after : Machine} {entry : Option Diagnostic} {entries : List (Option Diagnostic)}
  {ids : List Nat} {store : Store}

/-- Statements that are all attempted advance to the first diagnostic that they add. -/
theorem Attempts.advances (attempts : Attempts library limits stage stmts before entries after) :
    ∃ between, Advances library limits stage stmts before entries.reduceOption.head? between := by
  induction attempts with
  | nil => exact ⟨_, .done⟩
  | @cons _ _ _ _ _ entry _ first _ ih =>
    cases entry with
    | none =>
      obtain ⟨between, advances⟩ := ih
      exact ⟨between, .passes first advances⟩
    | some diagnostic => exact ⟨_, .fails first⟩

/-- A statement with a level of the stack for each of its own is attempted as the rules tell. -/
theorem Attempted.accounts (native : library.Hosted) (known : stmt.Hosted)
    (deep : stmt.depth ≤ limits.stack) (fits : Represents ids before store)
    (attempted : Attempted library limits stage stmt before entry after) :
    ∃ fault middle, entry = fault.map (·.diagnostic stage) ∧ Represents ids after middle ∧
      match fault with
      | none => ∀ more later last, Executes library.native more middle later last →
          Executes library.native (stmt :: more) store later last
      | some fault => ∀ more, Executes library.native (stmt :: more) store (some fault) middle := by
  have accounts := Frames.execute_accounts native limits.patience known deep fits
  cases attempted with
  | done executed =>
    rw [executed] at accounts
    cases accounts with
    | ok fits executes => exact ⟨none, _, rfl, fits, executes⟩
  | fault executed =>
    rw [executed] at accounts
    cases accounts with
    | fault fits executes => exact ⟨some _, _, rfl, fits, executes⟩
  | overflow executed =>
    rw [executed] at accounts
    cases accounts

/-- What statements advance to is what the rules tell of them together. -/
theorem Advances.executes (native : library.Hosted) (known : ∀ stmt ∈ stmts, stmt.Hosted)
    (deep : Stmt.depthAll stmts ≤ limits.stack) (fits : Represents ids before store)
    (advances : Advances library limits stage stmts before entry after) :
    ∃ fault last, entry = fault.map (·.diagnostic stage) ∧ Represents ids after last ∧
      Executes library.native stmts store fault last := by
  induction advances generalizing store with
  | done => exact ⟨none, store, rfl, fits, .done⟩
  | passes first _ ih =>
    obtain ⟨plain, others⟩ := List.forall_mem_cons.mp known
    obtain ⟨low, rest⟩ := Nat.max_le.mp deep
    obtain ⟨fault, middle, quiet, fits, executes⟩ := first.accounts native plain low fits
    obtain rfl : fault = none := Option.map_eq_none_iff.mp quiet.symm
    obtain ⟨fault, last, same, fits, more⟩ := ih others rest fits
    exact ⟨fault, last, same, fits, executes _ _ _ more⟩
  | fails first =>
    obtain ⟨plain, -⟩ := List.forall_mem_cons.mp known
    obtain ⟨low, -⟩ := Nat.max_le.mp deep
    obtain ⟨fault, last, some, fits, executes⟩ := first.accounts native plain low fits
    obtain ⟨fault, rfl, -⟩ := Option.map_eq_some_iff.mp some.symm
    exact ⟨_, last, some, fits, executes _⟩

/-- A block leaves every scope with the names that it had. -/
theorem Attempted.names_eq
    (attempted : Attempted library limits stage (.block stmts) before entry after) (id : Nat) :
    after.scopes.names id = before.scopes.names id := by
  have frames := (program_frames library limits.patience limits.stack).2 (.block stmts)
    (fun _ => False) nofun
  cases attempted with
  | done executed => exact (frames.ok executed).names_eq id
  | fault executed => exact (frames.error executed).names_eq id
  | overflow executed => exact (frames.error executed).names_eq id

end

namespace Session

variable {session : Session} {stmts : List Stmt} {stack patience : Nat} {entry : Option Diagnostic}
  {after : Machine}

/-- Where statements without closures advance to, they come to inside a block, given patience enough. The
block prints the text and makes the calls of the statements up to the first about which something is
reported, reports the same about itself, and leaves the global names as they were. -/
theorem interpret_enclosed (hosted : session.Hosted) (outermost : session.Outermost)
    (known : ∀ stmt ∈ stmts, stmt.Hosted) (deep : (Stmt.block stmts).depth ≤ stack)
    (advances : Advances session.library ⟨stack, patience⟩ session.log.stage stmts session.machine
      entry after) :
    ∃ enough, ∀ longer, enough ≤ longer →
      ∃ final, interpret ⟨stack, longer⟩ [.block stmts] session = .ok () final ∧
        final.machine.output = after.output ∧ final.machine.calls = after.calls ∧
        final.log.runtime = session.log.runtime ++ entry.toList ∧
        final.machine.scopes.names globals = session.machine.scopes.names globals := by
  have below : Stmt.depthAll stmts ≤ stack := Nat.le_of_succ_le deep
  obtain ⟨fault, last, rfl, fits, executes⟩ :=
    advances.executes hosted.library known below (represents hosted outermost)
  -- Inside the block, an empty frame lies over the global names.
  have inside : Store.Enclosed 0 session.store session.store.enter :=
    ⟨.empty _ _, rfl, rfl⟩
  obtain ⟨beyond, within, ends⟩ := Frames.executes_enclosed executes inside
  have whole : Executes session.library.native [.block stmts] session.store fault beyond.leave := by
    cases fault with
    | none => exact .block within .done
    | some fault => exact .blockFault within
  obtain ⟨enough, goes⟩ := executes_attempt whole hosted.library (.block known) deep
  refine ⟨enough, fun longer more => ?_⟩
  obtain ⟨final, done, shows⟩ := goes longer more session rfl rfl hosted outermost
  obtain ⟨_, machine, attempted, same⟩ := attempt_iff.mp done
  refine ⟨final, interpret_cons.mpr ⟨final, done, rfl⟩, ?_, ?_, ?_, ?_⟩
  · have printed : final.store.output = beyond.leave.output := congrArg Store.output shows.store
    exact printed.trans (ends.output.trans fits.output)
  · have called : final.store.calls = beyond.leave.calls := congrArg Store.calls shows.store
    exact called.trans (ends.calls.trans fits.calls)
  · rw [shows.runtime]
    cases fault <;> rfl
  · rw [same]
    exact attempted.names_eq globals

/-- A program that binds a global name anew, prints it and comes upon a fault. -/
theorem interpret_enclosed_rebound :
    let clock : Token := ⟨.identifier, "clock", none, 1⟩
    let missing : Token := ⟨.identifier, "a", none, 2⟩
    let stmts : List Stmt :=
      [.declare clock (some (.literal (.bool true))), .print (.name clock), .print (.name missing),
        .print (.name clock)]
    (start 0).Hosted ∧ (start 0).Outermost ∧ (∀ stmt ∈ stmts, stmt.Hosted) ∧
      (Stmt.block stmts).depth ≤ 4 ∧
      ∃ after, Advances (start 0).library ⟨4, 1⟩ "initial" stmts (start 0).machine
          (some ⟨"initial", some 2, "Undefined variable 'a'.", some .evaluation⟩) after ∧
        after.output = "true\n" ∧
        ∃ enough, ∀ longer, enough ≤ longer →
          ∃ final, interpret ⟨4, longer⟩ [.block stmts] (start 0) = .ok () final ∧
            final.machine.output = after.output ∧ final.machine.calls = after.calls ∧
            final.log.runtime =
              [⟨"initial", some 2, "Undefined variable 'a'.", some .evaluation⟩] ∧
            final.machine.scopes.names globals = ["clock"] := by
  intro clock missing stmts
  have known : ∀ stmt ∈ stmts, stmt.Hosted := by
    simp only [stmts, List.forall_mem_cons]
    exact ⟨.declareAs (.literal trivial), .print .name, .print .name, .print .name, by simp⟩
  have advances : Advances (start 0).library ⟨4, 1⟩ "initial" stmts (start 0).machine _ _ :=
    .passes (.done rfl) (.passes (.done rfl) (.fails (.fault rfl)))
  exact ⟨start_hosted 0, start_outermost 0, known, by decide, _, advances, rfl,
    interpret_enclosed (start_hosted 0) (start_outermost 0) known (by decide) advances⟩

end Session

end Lox
