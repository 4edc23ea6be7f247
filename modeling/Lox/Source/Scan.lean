import Lox.Source.Piece
import Lox.StaticError
import Lox.Text.Lines

/-!
# Scanning

The tokens of a program text and what is reported about it, each with its line: one more than the
number of line ends before it.
-/
namespace Lox.Source

open Text (lineEnds)

/-- The kind of a name: reserved words are their own kind. -/
def nameKind (word : String) : Kind :=
  if reservedWords.contains word then .word word else .identifier

/-- The token that a piece makes when it starts at a line. -/
def Piece.token? (line : Int) (piece : Piece) : Option Token :=
  let lexeme := String.ofList piece.text
  match piece with
  | .number text => some ⟨.number, lexeme, some (.number (Number.ofLiteral text)), line⟩
  | .string body => some ⟨.string, lexeme, some (.text (String.ofList body)), line⟩
  | .name _ => some ⟨nameKind lexeme, lexeme, none, line⟩
  | .operator _ => some ⟨.operator, lexeme, none, line⟩
  | .spacing _ | .comment _ | .stray _ | .openString _ => none

/-- What is reported about a piece that starts at a line. A string left open is reported where the
text ends. -/
def Piece.report? (line : Int) : Piece → Option StaticReport
  | .stray c => some ⟨line, .unexpectedCharacter c⟩
  | .openString rest => some ⟨line + lineEnds rest, .unterminatedString⟩
  | _ => none

/-- The tokens of the pieces from a line on, closed by the end of input. -/
def tokensFrom (line : Int) : List Piece → List Token
  | [] => [⟨.endOfInput, "", none, line⟩]
  | piece :: more => (piece.token? line).toList ++ tokensFrom (line + lineEnds piece.text) more

/-- What is reported about the pieces from a line on. -/
def reportsFrom (line : Int) : List Piece → List StaticReport
  | [] => []
  | piece :: more => (piece.report? line).toList ++ reportsFrom (line + lineEnds piece.text) more

/-- A scanned program text. -/
structure Scan where
  tokens : List Token
  reports : List StaticReport
  deriving DecidableEq, Repr

/-- Scanning never fails: what is not a token is reported and passed over. -/
def scan (source : String) : Scan :=
  let cut := pieces source.toList
  ⟨tokensFrom 1 cut, reportsFrom 1 cut⟩

theorem tokensFrom_ne_nil (line : Int) (cut : List Piece) : tokensFrom line cut ≠ [] := by
  induction cut generalizing line with
  | nil => simp [tokensFrom]
  | cons piece more ih => simp [tokensFrom, ih]

theorem tokensFrom_append (line : Int) (front back : List Piece) :
    tokensFrom line (front ++ back) =
      (tokensFrom line front).dropLast ++
        tokensFrom (line + lineEnds (front.flatMap Piece.text)) back := by
  induction front generalizing line with
  | nil => simp [tokensFrom, lineEnds]
  | cons piece more ih =>
    rw [List.cons_append, tokensFrom, ih, tokensFrom,
      List.dropLast_append_of_ne_nil (tokensFrom_ne_nil _ more),
      List.flatMap_cons, Text.lineEnds_append, List.append_assoc]
    push_cast
    rw [Int.add_assoc]

theorem reportsFrom_append (line : Int) (front back : List Piece) :
    reportsFrom line (front ++ back) =
      reportsFrom line front ++
        reportsFrom (line + lineEnds (front.flatMap Piece.text)) back := by
  induction front generalizing line with
  | nil => simp [reportsFrom, lineEnds]
  | cons piece more ih =>
    rw [List.cons_append, reportsFrom, ih, reportsFrom, List.flatMap_cons, Text.lineEnds_append,
      List.append_assoc]
    push_cast
    rw [Int.add_assoc]

end Lox.Source
