import Lox.Proofs.Evaluation.ForLoop
import Lox.Proofs.Grammar.Completeness
import Lox.Proofs.Session.Founded

/-!
# `for` statements mean what they say

What the parser reads at the word `for` is the tree of some clauses that derive from the tokens. A body
that derives declares no name outside its blocks, so the tree does what the clauses do as they stand.
-/
namespace Lox.Grammar

/-! ### The clauses that are read -/

/-- The tokens of a `for` statement, and its clauses. -/
inductive DerivesFor : Nat → List Token → ForClauses → Prop where
  | clauses {room : Nat} {word opening stop closing : Token} {first second third tokens : List Token}
      {clauses : ForClauses} {opened : Bool} :
      word.spells "for" = true → opening.spells "(" = true →
      DerivesInitial room first clauses.initial → DerivesOptional room second clauses.condition →
      stop.spells ";" = true → DerivesOptional room third clauses.increment →
      closing.spells ")" = true → DerivesStatement room .statement tokens clauses.body opened →
      DerivesFor (room + 1)
        (word :: opening :: first ++ second ++ stop :: third ++ closing :: tokens) clauses

section

variable {room : Nat} {tokens : List Token} {stmt : Stmt} {opened : Bool} {word : Token}

/-- Where a statement stands that is no declaration, no name is declared outside its blocks. -/
theorem DerivesStatement.declared_eq_nil (derived : DerivesStatement room .statement tokens stmt opened) :
    stmt.declared = [] := by
  -- Only where declarations stand is a variable declared, and a body stands where statements do.
  generalize at_ : Place.statement = place at derived
  induction derived with
  | declared => cases at_
  | statement => cases at_
  | alone stated =>
    cases stated
    rfl
  | print | block => rfl
  | ifThen _ _ _ _ _ yes => exact yes rfl
  | ifElse _ _ _ _ _ _ _ yes no =>
    unfold Stmt.declared
    rw [yes rfl, no rfl, List.append_nil]
  | loop _ _ _ _ _ body => exact body rfl
  | @forLoop _ _ _ _ _ _ _ _ _ initial _ increment _ _ _ _ _ _ _ _ _ _ body =>
    cases initial with
    | some initial => rfl
    | none =>
      cases increment with
      | some increment => rfl
      | none => exact body rfl

theorem DerivesFor.quiet {clauses : ForClauses} (derived : DerivesFor room tokens clauses) :
    clauses.body.declared = [] := by
  obtain ⟨_, _, _, _, _, _, _, body⟩ := derived
  exact body.declared_eq_nil

/-- A statement that begins with the word `for` is the tree of some clauses. -/
theorem DerivesStatement.of_for (derived : DerivesStatement room .statement tokens stmt opened)
    (head : tokens.head? = some word) (regular : word.Regular) (kind : word.kind = .word "for") :
    ∃ clauses, DerivesFor room tokens clauses ∧ stmt = clauses.tree := by
  have spelled := regular.spells_word kind
  have other {token : Token} {text : String} (first : some token = some word)
      (spells : token.spells text = true) (different : text ≠ "for") : False := by
    cases first
    exact different (Token.spells_unique spells spelled)
  cases derived with
  -- No expression begins with the word, and every other statement begins with another text.
  | alone value =>
    obtain ⟨token, more, rfl, opens⟩ := value.begins
    cases head
    exact absurd kind (opens.kind_ne regular (by decide) (by decide))
  | print spells => exact (other head spells (by decide)).elim
  | block spells => exact (other head spells (by decide)).elim
  | ifThen spells => exact (other head spells (by decide)).elim
  | ifElse spells => exact (other head spells (by decide)).elim
  | loop spells => exact (other head spells (by decide)).elim
  | forLoop first opening initial condition stop increment closing body =>
    exact ⟨⟨_, _, _, _⟩, .clauses first opening initial condition stop increment closing body, rfl⟩

end

/-- A `for` statement means what it says: what the parser reads at the word without a report is the tree of
clauses that derive from the tokens it passed, and the tree does what these clauses say, as they stand. -/
theorem statementAt_for {fuel levels room : Nat} {cursor after : Cursor} {word : Token} {tree : Stmt}
    (regular : cursor.Regular) (head : cursor.rest.head? = some word) (kind : word.kind = .word "for")
    (read : statementAt fuel levels room cursor = .ok tree after)
    (quiet : after.reports = cursor.reports) :
    ∃ passed clauses, cursor.rest = passed ++ after.rest ∧ DerivesFor room passed clauses ∧
      tree = clauses.tree ∧ clauses.Means tree := by
  have sound := statementAt_sound fuel levels room cursor regular
  unfold Meets at sound
  rw [read] at sound
  obtain ⟨passed, added, reach, closes⟩ := sound
  have none : added = [] := by
    rw [reach.reports] at quiet
    exact List.append_right_eq_self.mp quiet
  obtain ⟨opened, derived, -⟩ := closes none
  simp only [List.nil_append] at derived
  -- The word is the first of the tokens that were passed.
  have first : passed.head? = some word := by
    obtain ⟨token, more, same, -⟩ := derived.begins
    rw [reach.rest, same] at head
    rw [same]
    exact head
  have held : word ∈ cursor.rest := List.mem_of_mem_head? head
  obtain ⟨clauses, derivation, rfl⟩ := derived.of_for first (regular.regular word held) kind
  exact ⟨passed, clauses, reach.rest, derivation, rfl, clauses.means_tree derivation.quiet⟩

/-- The body of the loop declares the name that the increment changes. -/
theorem statementAt_for_hidden :
    let word (text : String) : Token := ⟨.word text, text, none, 1⟩
    let operator (text : String) : Token := ⟨.operator, text, none, 1⟩
    let name : Token := ⟨.identifier, "a", none, 1⟩
    let cursor := Cursor.start
      [word "for", operator "(", word "var", name, operator "=", word "true", operator ";", name,
        operator ";", name, operator "=", word "nil", operator ")", operator "\x7b", word "var", name,
        operator ";", operator "\x7d", ⟨.endOfInput, "", none, 1⟩]
    ∃ tree after, statementAt 20 20 5 cursor = .ok tree after ∧ after.reports = cursor.reports ∧
      ∃ passed clauses, cursor.rest = passed ++ after.rest ∧ DerivesFor 5 passed clauses ∧
        tree = clauses.tree ∧ clauses.Means tree ∧
        clauses.run (Session.start 0).library 2 12 (Session.start 0).machine =
          execute (Session.start 0).library 2 8 tree (Session.start 0).machine := by
  intro word operator name cursor
  have regular : cursor.Regular := by
    refine ⟨⟨⟨.endOfInput, "", none, 1⟩, by simp [cursor, Cursor.start, Cursor.under], rfl⟩, ?_⟩
    simp [cursor, Cursor.start, Cursor.under, word, operator, name, Token.Regular, reservedWords,
      operatorTexts]
  have computed : EStateM.Result.casesOn (motive := fun _ => Bool) (statementAt 20 20 5 cursor)
      (fun tree after => after.reports.isEmpty &&
        decide (Run.Sufficed (execute (Session.start 0).library 2 8 tree (Session.start 0).machine)))
      (fun _ _ => false) = true := by
    decide +kernel
  cases read : statementAt 20 20 5 cursor with
  | error stop after =>
    rw [read] at computed
    cases computed
  | ok tree after =>
    rw [read] at computed
    obtain ⟨quiet, sufficed⟩ := Bool.and_eq_true_iff.mp computed
    have none := List.isEmpty_iff.mp quiet
    obtain ⟨passed, clauses, rest, derived, same, means⟩ := statementAt_for regular rfl rfl read none
    exact ⟨tree, after, rfl, none, passed, clauses, rest, derived, same, means,
      means.runs _ 2 8 (Session.start_founded 0) (of_decide_eq_true sufficed)⟩

end Lox.Grammar
