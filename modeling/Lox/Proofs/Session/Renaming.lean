import Lox.Proofs.Evaluation.Renaming
import Lox.Proofs.Session.Escapes
import Lox.Proofs.Session.Pieces

/-!
# Sessions do not see names

Statements whose variables are renamed, where different names stay different, do on the renamed globals
what they did before. The diagnostics are the same, but for the names of variables that are not bound.
-/
namespace Lox

/-! ### Diagnostics -/

/-- How a diagnostic changes when variables are renamed: if it is about a variable that is not bound it
names another one, and else it stays. -/
inductive Diagnostic.Renamed (names : String → String) : Diagnostic → Diagnostic → Prop where
  | undefined (stage name : String) (line : Int) :
      Renamed names ⟨stage, some line, "Undefined variable '" ++ name ++ "'.", some .evaluation⟩
        ⟨stage, some line, "Undefined variable '" ++ names name ++ "'.", some .evaluation⟩
  | other {diagnostic : Diagnostic} :
      (diagnostic.line = none ∨ ∀ name, diagnostic.message ≠ "Undefined variable '" ++ name ++ "'.") →
      Renamed names diagnostic diagnostic

/-- Only what is said of a variable that is not bound begins as that does. -/
theorem FaultCause.OfMark.message_ne {cause : FaultCause} (own : cause.OfMark) (name : String) :
    cause.message ≠ "Undefined variable '" ++ name ++ "'." := by
  intro same
  unfold FaultCause.message at same
  split at same
  case h_1 | h_9 => exact own
  all_goals
    rw [← String.toList_inj] at same
    simp at same

theorem Fault.Renamed.diagnostic {names : String → String} {one other : Fault}
    (renamed : Fault.Renamed names one other) (stage : String) :
    Diagnostic.Renamed names (one.diagnostic stage) (other.diagnostic stage) := by
  cases renamed with
  | undefined name line => exact .undefined stage name line
  | marked line own => exact .other (.inr own.message_ne)
  | host => exact .other (.inl rfl)

namespace Session

/-- A session with its variables renamed. -/
def rename (names : String → String) (session : Session) : Session :=
  { session with machine := session.machine.rename names }

/-- A session, and that of the program whose variables are renamed. Both began with some diagnostics. -/
structure Renamed (names : String → String) (earlier : List Diagnostic) (one other : Session) : Prop where
  machine : other.machine = one.machine.rename names
  natives : other.natives = one.natives
  closures : other.closures = one.closures
  stage : other.log.stage = one.log.stage
  static : other.log.static = one.log.static
  runtime : ∃ added extra, one.log.runtime = earlier ++ added ∧ other.log.runtime = earlier ++ extra ∧
    List.Forall₂ (Diagnostic.Renamed names) added extra

section

variable {names : String → String} {earlier : List Diagnostic} {one other : Session}

theorem renamed_of_state (fits : ((Likeness.renamed names).sessions earlier earlier).state one other) :
    Renamed names earlier one other := by
  obtain ⟨⟨⟨machine, -⟩, natives, closures, stage, static, -⟩, added, extra, first, second, same⟩ := fits
  refine ⟨machine, natives, closures, stage, static, added, extra, first, second, same.imp ?_⟩
  intro entry twin alike
  cases alike with
  | fault stage renamed => exact renamed.diagnostic stage
  | nesting stage => exact .other (.inl rfl)

end

/-- Statements whose variables are renamed come to an end where the statements do, and otherwise neither
do. What is printed, the calls and the diagnostics are the same, but for the names of variables that are
not bound, and the bindings are those of the statements, renamed. -/
theorem interpret_renamed {names : String → String} (injective : Function.Injective names)
    (limits : Limits) {stmts : List Stmt} {session : Session} (hosted : session.Hosted)
    (all : ∀ stmt ∈ stmts, stmt.Hosted) :
    match interpret limits stmts session,
      interpret limits (stmts.map (Stmt.rename names)) (session.rename names) with
    | .ok _ after, .ok _ beyond => Renamed names session.log.runtime after beyond
    | .error escape after, .error stop beyond =>
        (escape = .unfinished ∧ stop = .unfinished) ∧ Renamed names session.log.runtime after beyond
    | _, _ => False := by
  have alike : List.Forall₂ (Stmt.Like (.renamed names)) stmts (stmts.map (Stmt.rename names)) := by
    rw [List.forall₂_map_right_iff, List.forall₂_same]
    exact fun stmt member => (all stmt member).renamed
  have beside : ((Likeness.renamed names).sessions session.log.runtime session.log.runtime).state session
      (session.rename names) := by
    refine ⟨⟨⟨rfl, hosted.machine⟩, rfl, rfl, rfl, rfl, ?_⟩, [], [], ?_⟩
    · exact Likeness.renamed_kept injective hosted.library
    · simp [Session.rename]
  have outcome := Likeness.interpret_runs alike rfl (Nat.le_refl limits.patience)
    (fun less => absurd less (Nat.lt_irrefl _)) (fun _ impossible => impossible.elim) _ _ beside
  generalize first : interpret limits stmts session = left,
    second : interpret limits _ (session.rename names) = right at outcome ⊢
  cases outcome with
  | ok _ fits => exact renamed_of_state fits
  | error _ fits => exact ⟨⟨interpret_error first, interpret_error second⟩, renamed_of_state fits⟩
  | excused excused => exact excused.2.elim

/-- A block declares a variable that hides a global one and changes it, and then one that is not bound is
read. -/
theorem interpret_renamed_shadowed :
    let names : String → String := ("x" ++ ·)
    let clock : Token := ⟨.identifier, "clock", none, 1⟩
    let stmts : List Stmt :=
      [.block [.declare clock (some (.literal (.text "a"))), .print (.assign clock (.literal .nil))],
        .print (.name { clock with lexeme := "b", line := 2 })]
    Function.Injective names ∧ (start 0).Hosted ∧ (∀ stmt ∈ stmts, stmt.Hosted) ∧
      match interpret .standard stmts (start 0),
        interpret .standard (stmts.map (Stmt.rename names)) ((start 0).rename names) with
      | .ok _ after, .ok _ beyond => Renamed names (start 0).log.runtime after beyond
      | .error escape after, .error stop beyond =>
          (escape = .unfinished ∧ stop = .unfinished) ∧ Renamed names (start 0).log.runtime after beyond
      | _, _ => False := by
  intro names clock stmts
  have injective : Function.Injective names := fun _ _ same => (String.append_right_inj "x").mp same
  have all : ∀ stmt ∈ stmts, stmt.Hosted := by
    simp only [stmts, List.forall_mem_cons]
    refine ⟨.block ?_, .print .name, nofun⟩
    simp only [List.forall_mem_cons]
    exact ⟨.declareAs (.literal trivial), .print (.assign (.literal trivial)), nofun⟩
  exact ⟨injective, start_hosted 0, all, interpret_renamed injective .standard (start_hosted 0) all⟩

end Session

end Lox
