import Lox.Text.Blank
import Lox.Text.Letter
import Lox.Token

/-!
# Pieces of a program text

A program text is cut into pieces from left to right: lexemes, the spacing and the comments between
them, and what belongs to no lexeme. The pieces put together give the text back, and every lexeme is
as long as it can be.
-/
namespace Lox.Source

inductive Piece where
  | spacing (c : Char)
  /-- Two slashes and the rest of the line. -/
  | comment (rest : List Char)
  | number (text : List Char)
  /-- The text between two double quotes. -/
  | string (body : List Char)
  | name (text : List Char)
  | operator (text : List Char)
  /-- A character that starts nothing. -/
  | stray (c : Char)
  /-- What follows a double quote that is never closed. -/
  | openString (rest : List Char)
  deriving DecidableEq, Repr

/-- The part of the program text that a piece stands for. -/
def Piece.text : Piece → List Char
  | .spacing c => [c]
  | .comment rest => '/' :: '/' :: rest
  | .number text => text
  | .string body => '"' :: body ++ ['"']
  | .name text => text
  | .operator text => text
  | .stray c => [c]
  | .openString rest => '"' :: rest

/-! ### What each kind of piece is made of -/

def isNameStart (c : Char) : Bool := Text.isLetter c || c == '_'

def isNamePart (c : Char) : Bool := isNameStart c || c.isDigit

/-- The digits at the front, with a fraction when a digit follows the point. -/
def numberText (text : List Char) : List Char :=
  let whole := text.takeWhile Char.isDigit
  match text.dropWhile Char.isDigit with
  | '.' :: d :: rest =>
    if d.isDigit then whole ++ '.' :: d :: rest.takeWhile Char.isDigit else whole
  | _ => whole

/-- Operators of one character. -/
def isOperator (c : Char) : Bool :=
  ['(', ')', '{', '}', ',', '.', '-', '+', ';', '*', '/', '!', '=', '<', '>'].contains c

/-- Operators that an equals sign extends to a longer one. -/
def takesEquals (c : Char) : Bool := ['!', '=', '<', '>'].contains c

/-! ### Cutting -/

/-- The piece at the front of a text. -/
def Piece.first (c : Char) (rest : List Char) : Piece :=
  if Text.isSpacing c then .spacing c
  else if c = '/' ∧ rest.head? = some '/' then .comment ((rest.drop 1).takeWhile (· != '\n'))
  else if c = '"' then
    let body := rest.takeWhile (· != '"')
    if body.length < rest.length then .string body else .openString rest
  else if c.isDigit then .number (numberText (c :: rest))
  else if isNameStart c then .name (c :: rest.takeWhile isNamePart)
  else if takesEquals c ∧ rest.head? = some '=' then .operator [c, '=']
  else if isOperator c then .operator [c]
  else .stray c

/-- The pieces of a text. -/
def pieces : List Char → List Piece
  | [] => []
  | c :: rest =>
    let piece := Piece.first c rest
    piece :: pieces (rest.drop (piece.text.length - 1))
  termination_by text => text.length
  decreasing_by simp only [List.length_drop, List.length_cons]; omega

/-! ### Pieces cover the text -/

theorem head_numberText {c : Char} {rest : List Char} (digit : c.isDigit = true) :
    ∃ more, numberText (c :: rest) = c :: more ∧ more <+: rest := by
  simp only [numberText, List.takeWhile_cons, digit, if_true, List.dropWhile_cons]
  have split := List.takeWhile_append_dropWhile (p := Char.isDigit) (l := rest)
  split
  next d tail after =>
    split
    · refine ⟨_, List.cons_append, ?_⟩
      rw [after] at split
      have tailSplit := List.takeWhile_append_dropWhile (p := Char.isDigit) (l := tail)
      refine ⟨tail.dropWhile Char.isDigit, ?_⟩
      simp only [List.append_assoc, List.cons_append, tailSplit]
      exact split
    · exact ⟨_, rfl, List.takeWhile_prefix _⟩
  next => exact ⟨_, rfl, List.takeWhile_prefix _⟩

/-- A piece is cut from the front of the text, and is never empty. -/
theorem Piece.text_first (c : Char) (rest : List Char) :
    ∃ more, (Piece.first c rest).text = c :: more ∧ more <+: rest := by
  unfold Piece.first
  split
  · exact ⟨[], rfl, List.nil_prefix⟩
  split
  next slash =>
    obtain ⟨rfl, next⟩ := slash
    cases rest with
    | nil => simp at next
    | cons d tail =>
      simp only [List.head?_cons, Option.some.injEq] at next
      subst d
      exact ⟨_, rfl, by simpa using List.takeWhile_prefix _⟩
  split
  next quote =>
    subst quote
    simp only
    split
    next closed =>
      refine ⟨_, rfl, ?_⟩
      have split := List.takeWhile_append_dropWhile (p := (· != '"')) (l := rest)
      cases after : rest.dropWhile (· != '"') with
      | nil =>
        rw [after, List.append_nil] at split
        rw [split] at closed
        exact absurd closed (Nat.lt_irrefl _)
      | cons d tail =>
        have stop := List.head?_dropWhile_not (· != '"') rest
        rw [after] at stop
        simp only [List.head?_cons, bne_eq_false_iff_eq] at stop
        subst d
        rw [after] at split
        exact ⟨tail, by rw [← split]; simp [split]⟩
    · exact ⟨_, rfl, List.prefix_refl _⟩
  split
  next digit => exact head_numberText digit
  split
  · exact ⟨_, rfl, List.takeWhile_prefix _⟩
  split
  next pair =>
    cases rest with
    | nil => simp at pair
    | cons d tail =>
      have next := pair.2
      simp only [List.head?_cons, Option.some.injEq] at next
      subst d
      exact ⟨_, rfl, by simp⟩
  split
  · exact ⟨[], rfl, List.nil_prefix⟩
  · exact ⟨[], rfl, List.nil_prefix⟩

/-- Nothing of the text is lost and nothing is moved. -/
theorem flatMap_text_pieces (text : List Char) : (pieces text).flatMap Piece.text = text := by
  fun_induction pieces text with
  | case1 => rfl
  | case2 c rest piece ih =>
    obtain ⟨more, cut, front⟩ := Piece.text_first c rest
    obtain ⟨tail, rfl⟩ := front
    have size : piece.text = c :: more := cut
    rw [List.flatMap_cons, size]
    rw [size] at ih
    simpa using ih

end Lox.Source
