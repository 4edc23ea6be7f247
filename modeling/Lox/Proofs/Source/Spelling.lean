import Lox.Source.Scan

/-!
# Kinds and texts agree

The text of a scanned token tells its kind: reserved words and operators are of no other kind, and
the end of input has no text. The parser asks some tokens for their kind and others for their text,
and on scanned tokens both questions have the same answer.
-/
namespace Lox

/-- Decides a property of all members of a list one after the other, whatever else there is of their
type. -/
theorem forall_mem_of_all {α : Type} {property : α → Prop} [DecidablePred property]
    {members : List α} (all : (members.all fun member => decide (property member)) = true) :
    ∀ member ∈ members, property member := by
  simpa using all

/-- The texts of all operators. -/
def operatorTexts : List String :=
  ["(", ")", "\x7b", "\x7d", ",", ".", "-", "+", ";", "*", "/", "!", "=", "<", ">", "!=", "==", "<=",
    ">="]

/-- The kind of a token is the one that its text calls for. -/
def Token.Regular (token : Token) : Prop :=
  match token.kind with
  | .word text => token.lexeme = text ∧ text ∈ reservedWords
  | .operator => token.lexeme ∈ operatorTexts
  | .endOfInput => token.lexeme = ""
  | .number | .identifier => token.lexeme ∉ reservedWords ∧ token.lexeme ∉ operatorTexts
  | .string => True

namespace Token

namespace Regular

variable {token : Token} {text : String}

theorem kind_of_word (regular : token.Regular) (spelled : token.spells text = true)
    (reserved : text ∈ reservedWords) : token.kind = .word text := by
  obtain ⟨notString, rfl⟩ := spells_iff.mp spelled
  have apart : ∀ word ∈ reservedWords, word ∉ operatorTexts ∧ word ≠ "" := by decide
  unfold Regular at regular
  cases kind : token.kind <;> simp only [kind] at regular notString
  case word other => rw [regular.1]
  case operator => exact absurd regular (apart _ reserved).1
  case endOfInput => exact absurd regular (apart _ reserved).2
  case number => exact absurd reserved regular.1
  case identifier => exact absurd reserved regular.1
  case string => exact absurd rfl notString

/-- A word is spelled as its kind says. -/
theorem spells_word (regular : token.Regular) (kind : token.kind = .word text) :
    token.spells text = true := by
  unfold Regular at regular
  rw [kind] at regular
  rw [spells_iff, kind]
  exact ⟨nofun, regular.1⟩

theorem kind_of_operator (regular : token.Regular) (spelled : token.spells text = true)
    (operator : text ∈ operatorTexts) : token.kind = .operator := by
  obtain ⟨notString, rfl⟩ := spells_iff.mp spelled
  have apart : ∀ op ∈ operatorTexts, op ∉ reservedWords ∧ op ≠ "" := by decide
  unfold Regular at regular
  cases kind : token.kind <;> simp only [kind] at regular notString
  case word other => exact absurd (regular.1 ▸ regular.2) (apart _ operator).1
  case operator => rfl
  case endOfInput => exact absurd regular (apart _ operator).2
  case number => exact absurd operator regular.2
  case identifier => exact absurd operator regular.2
  case string => exact absurd rfl notString

/-- What is spelled with some text is not the end of input. -/
theorem inside (regular : token.Regular) (spelled : token.spells text = true)
    (some : text ≠ "") : token.isEnd = false := by
  cases last : token.isEnd with
  | false => rfl
  | true =>
    rw [isEnd_iff] at last
    simp only [Regular, last] at regular
    exact absurd ((spells_iff.mp spelled).2.symm.trans regular) some

end Regular

end Token

namespace Source

/-! ### Scanned tokens -/

theorem nameKind_eq (word : String) :
    nameKind word = .word word ∧ word ∈ reservedWords ∨
      nameKind word = .identifier ∧ word ∉ reservedWords := by
  unfold nameKind
  by_cases reserved : word ∈ reservedWords
  · exact .inl ⟨by simp [reserved], reserved⟩
  · exact .inr ⟨by simp [reserved], reserved⟩

/-- No reserved word and no operator starts with a digit, and no operator with a letter. -/
theorem not_mem_of_head {c : Char} {rest : List Char} :
    (c.isDigit = true → String.ofList (c :: rest) ∉ reservedWords) ∧
      (c.isDigit = true ∨ isNameStart c = true → String.ofList (c :: rest) ∉ operatorTexts) := by
  have words : ∀ word ∈ reservedWords, word.toList.head?.any Char.isDigit = false := by decide
  have operators : ∀ op ∈ operatorTexts,
      op.toList.head?.any (fun c => c.isDigit || isNameStart c) = false := by decide
  refine ⟨fun digit member => ?_, fun start member => ?_⟩
  · have other := words _ member
    simp [digit] at other
  · have other := operators _ member
    simp only [String.toList_ofList, List.head?_cons, Option.any_some, Bool.or_eq_false_iff] at other
    rw [other.1, other.2] at start
    simp at start

theorem operator_mem {c : Char} (operator : isOperator c = true) :
    String.ofList [c] ∈ operatorTexts := by
  simp only [isOperator, List.contains_iff_mem, List.mem_cons, List.not_mem_nil, or_false] at operator
  rcases operator with rfl | rfl | rfl | rfl | rfl | rfl | rfl | rfl | rfl | rfl | rfl | rfl | rfl |
    rfl | rfl <;> decide

theorem pair_mem {c : Char} (takes : takesEquals c = true) :
    String.ofList [c, '='] ∈ operatorTexts := by
  simp only [takesEquals, List.contains_iff_mem, List.mem_cons, List.not_mem_nil, or_false] at takes
  rcases takes with rfl | rfl | rfl | rfl <;> decide

/-- The pieces at the front of a text that make a token, and what each of them begins with. -/
inductive Piece.Heads (c : Char) (rest : List Char) : Piece → Prop where
  | string : Heads c rest (.string (rest.takeWhile (· != '"')))
  | number : c.isDigit = true → Heads c rest (.number (numberText (c :: rest)))
  | name : isNameStart c = true → Heads c rest (.name (c :: rest.takeWhile isNamePart))
  | pair : takesEquals c = true → Heads c rest (.operator [c, '='])
  | operator : isOperator c = true → Heads c rest (.operator [c])

theorem first_heads {c : Char} {rest : List Char} {line : Int} {token : Token}
    (made : (Piece.first c rest).token? line = some token) :
    Piece.Heads c rest (Piece.first c rest) := by
  generalize found : Piece.first c rest = piece at made ⊢
  -- The cases are the scanner's own, in their order. Those that are left out make no token.
  unfold Piece.first at found
  split at found
  · simp [← found, Piece.token?] at made
  split at found
  · simp [← found, Piece.token?] at made
  split at found
  · simp only at found
    split at found
    · exact found ▸ .string
    · simp [← found, Piece.token?] at made
  split at found
  next digit => exact found ▸ .number digit
  split at found
  next start => exact found ▸ .name start
  split at found
  next pair => exact found ▸ .pair pair.1
  split at found
  next operator => exact found ▸ .operator operator
  · simp [← found, Piece.token?] at made

theorem first_regular {c : Char} {rest : List Char} {line : Int} {token : Token}
    (made : (Piece.first c rest).token? line = some token) : token.Regular := by
  have heads := first_heads made
  generalize Piece.first c rest = piece at made heads
  cases heads with
  | string =>
    cases made
    exact trivial
  | number digit =>
    cases made
    -- A number begins with a digit, which no reserved word and no operator does.
    obtain ⟨more, same, -⟩ : ∃ more, numberText (c :: rest) = c :: more ∧ more <+: rest :=
      head_numberText digit
    simp only [Token.Regular, Piece.text, same]
    exact ⟨not_mem_of_head.1 digit, not_mem_of_head.2 (.inl digit)⟩
  | name start =>
    cases made
    rcases nameKind_eq (String.ofList (c :: rest.takeWhile isNamePart)) with
      ⟨kind, reserved⟩ | ⟨kind, free⟩
    · simp only [Token.Regular, Piece.text, kind]
      exact ⟨trivial, reserved⟩
    · simp only [Token.Regular, Piece.text, kind]
      exact ⟨free, not_mem_of_head.2 (.inr start)⟩
  | pair takes =>
    cases made
    exact pair_mem takes
  | operator known =>
    cases made
    exact operator_mem known

/-- A piece makes no end of input. -/
theorem token?_inside {piece : Piece} {line : Int} {token : Token}
    (made : piece.token? line = some token) : token.isEnd = false := by
  cases piece with
  | name text =>
    simp only [Piece.token?, Option.some.injEq] at made
    subst made
    rcases nameKind_eq (String.ofList (Piece.name text).text) with ⟨kind, -⟩ | ⟨kind, -⟩ <;>
      simp [Token.isEnd, kind]
  | number | string | operator =>
    simp only [Piece.token?, Option.some.injEq] at made
    subst made
    rfl
  | spacing | comment | stray | openString => simp [Piece.token?] at made

/-- Scanning gives some tokens that are regular and not the end of input, and then the end. -/
theorem tokensFrom_pieces (text : List Char) (line : Int) :
    ∃ front last, tokensFrom line (pieces text) = front ++ [last] ∧ last.isEnd = true ∧
      last.Regular ∧ ∀ token ∈ front, token.Regular ∧ token.isEnd = false := by
  fun_induction pieces text generalizing line with
  | case1 => exact ⟨[], _, rfl, rfl, rfl, by simp⟩
  | case2 c rest piece ih =>
    obtain ⟨front, last, same, isEnd, regular, all⟩ := ih (line + Text.lineEnds piece.text)
    refine ⟨(piece.token? line).toList ++ front, last, ?_, isEnd, regular, fun token member => ?_⟩
    · rw [tokensFrom, same, List.append_assoc]
    · rw [List.mem_append, Option.mem_toList] at member
      rcases member with made | member
      · exact ⟨first_regular made, token?_inside made⟩
      · exact all token member

theorem scan_tokens (source : String) :
    ∃ front last, (scan source).tokens = front ++ [last] ∧ last.isEnd = true ∧
      last.Regular ∧ ∀ token ∈ front, token.Regular ∧ token.isEnd = false :=
  tokensFrom_pieces source.toList 1

end Source

end Lox
