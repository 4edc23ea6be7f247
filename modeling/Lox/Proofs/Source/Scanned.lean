import Lox.Proofs.Number.Bits
import Lox.Proofs.Source.Spelling
import Lox.Proofs.Syntax.Printable

/-!
# What scanned tokens carry

Only numbers and strings carry a constant, and it is one that can be written again: a number is
never below zero, and a string holds no double quote. A name is made of letters and is not reserved.
-/
namespace Lox

/-- What a token carries is what the scanner gives a token of its kind. -/
def Token.Carries (token : Token) : Prop :=
  match token.kind with
  | .number => ∃ value : Float, token.constant = some (.number value) ∧ (Value.number value).Printable
  | .string => ∃ value : String, token.constant = some (.text value) ∧ (Value.text value).Printable
  | .identifier => token.Names
  | .word _ | .operator | .endOfInput => token.constant = none

/-- A token as the scanner makes it. -/
structure Token.Scanned (token : Token) : Prop where
  regular : token.Regular
  carries : token.Carries

namespace Token.Scanned

variable {token : Token} {text : String}

/-- A scanned token that is spelled as an operator is that operator. -/
theorem operates {texts : List String} (scanned : token.Scanned) (spelled : token.spells text = true)
    (member : text ∈ texts) (operator : text ∈ operatorTexts) : token.Operates texts := by
  have kind := scanned.regular.kind_of_operator spelled operator
  have carries := scanned.carries
  simp only [Carries, kind] at carries
  exact ⟨kind, carries, (spells_iff.mp spelled).2 ▸ member⟩

theorem connects (scanned : token.Scanned) (spelled : token.spells text = true)
    (member : text ∈ ["or", "and"]) : token.Connects := by
  have among : ∀ text ∈ ["or", "and"], text ∈ reservedWords := by decide
  have kind := scanned.regular.kind_of_word spelled (among text member)
  have carries := scanned.carries
  simp only [Carries, kind] at carries
  obtain rfl := (spells_iff.mp spelled).2
  exact ⟨kind, carries, member⟩

theorem names (scanned : token.Scanned) (kind : token.kind = .identifier) : token.Names := by
  have carries := scanned.carries
  simp only [Carries, kind] at carries
  exact carries

/-- The constant of a literal can be written. -/
theorem printable (scanned : token.Scanned) (kind : token.kind = .number ∨ token.kind = .string) :
    token.value.Printable := by
  have carries := scanned.carries
  rcases kind with kind | kind
  · simp only [Carries, kind] at carries
    obtain ⟨value, constant, printable⟩ := carries
    rw [Token.value, constant]
    exact printable
  · simp only [Carries, kind] at carries
    obtain ⟨value, constant, printable⟩ := carries
    rw [Token.value, constant]
    exact printable

end Token.Scanned

namespace Source

/-- A numeral denotes no negative number, and always a number. -/
theorem printable_ofLiteral (text : List Char) :
    (Value.number (Number.ofLiteral text)).Printable :=
  ⟨Number.isNegative_ofPlace (Nat.min_le_right _ _), Number.isNaN_ofPlace (Nat.min_le_right _ _)⟩

theorem first_carries {c : Char} {rest : List Char} {line : Int} {token : Token}
    (made : (Piece.first c rest).token? line = some token) : token.Carries := by
  have heads := first_heads made
  generalize Piece.first c rest = piece at made heads
  cases heads with
  | string =>
    cases made
    -- The body of a string ends before the next double quote.
    refine ⟨_, rfl, fun member => ?_⟩
    rw [String.toList_ofList] at member
    exact absurd (List.all_eq_true.mp List.all_takeWhile _ member) (by decide)
  | number =>
    cases made
    exact ⟨_, rfl, printable_ofLiteral _⟩
  | name start =>
    cases made
    rcases nameKind_eq (String.ofList (c :: rest.takeWhile isNamePart)) with
      ⟨kind, reserved⟩ | ⟨kind, free⟩
    · simp only [Token.Carries, Piece.text, kind]
    · simp only [Token.Carries, Piece.text, kind]
      refine ⟨rfl, rfl, ⟨c, rest.takeWhile isNamePart, ?_, start, ?_⟩, free⟩
      · exact String.toList_ofList
      · exact List.all_eq_true.mp List.all_takeWhile
  | pair | operator =>
    cases made
    rfl

theorem tokensFrom_scanned (text : List Char) (line : Int) :
    ∀ token ∈ tokensFrom line (pieces text), token.Scanned := by
  fun_induction pieces text generalizing line with
  | case1 =>
    intro token member
    rw [tokensFrom, List.mem_singleton] at member
    subst member
    exact ⟨rfl, rfl⟩
  | case2 c rest piece ih =>
    intro token member
    rw [tokensFrom, List.mem_append, Option.mem_toList] at member
    rcases member with made | member
    · exact ⟨first_regular made, first_carries made⟩
    · exact ih _ token member

/-- Every token of a program text is as the scanner makes it. -/
theorem scan_scanned (source : String) : ∀ token ∈ (scan source).tokens, token.Scanned :=
  tokensFrom_scanned source.toList 1

/-! ### Lines -/

/-- The token of a piece names the line on which the piece starts. -/
theorem token?_line {piece : Piece} {line : Int} {token : Token}
    (made : piece.token? line = some token) : token.line = line := by
  cases piece with
  | number | string | name | operator =>
    simp only [Piece.token?, Option.some.injEq] at made
    subst made
    rfl
  | spacing | comment | stray | openString => simp [Piece.token?] at made

/-- No token names an earlier line than one before it. -/
theorem tokensFrom_sorted (line : Int) (cut : List Piece) :
    (∀ token ∈ tokensFrom line cut, line ≤ token.line) ∧
      (tokensFrom line cut).Pairwise fun one other => one.line ≤ other.line := by
  induction cut generalizing line with
  | nil => simp [tokensFrom]
  | cons piece cut ih =>
    obtain ⟨least, sorted⟩ := ih (line + Text.lineEnds piece.text)
    -- A piece may end further down, so what follows starts on its line at the earliest.
    have below : ∀ token ∈ tokensFrom (line + Text.lineEnds piece.text) cut, line ≤ token.line := by
      intro token member
      have from_there := least token member
      omega
    rw [tokensFrom]
    constructor
    · intro token member
      rw [List.mem_append, Option.mem_toList] at member
      rcases member with made | member
      · exact Int.le_of_eq (token?_line made).symm
      · exact below token member
    · apply List.pairwise_append.mpr
      refine ⟨?_, sorted, ?_⟩
      · cases piece.token? line <;> simp
      · intro one member other later
        rw [token?_line (Option.mem_toList.mp member)]
        exact below other later

theorem scan_sorted (source : String) :
    (scan source).tokens.Pairwise fun one other => one.line ≤ other.line :=
  (tokensFrom_sorted 1 (pieces source.toList)).2

end Source

end Lox
