/-!
# Lines

Counting line ends, cutting a text into lines, and the three spellings of a line end.
-/
namespace Lox.Text

/-- The number of line ends in a text. -/
def lineEnds (text : List Char) : Nat := text.count '\n'

theorem lineEnds_append (left right : List Char) :
    lineEnds (left ++ right) = lineEnds left + lineEnds right := by
  simp [lineEnds]

/-- Writes every line end as a line feed: a carriage return counts as one, alone or before a line
feed. This is what an input that translates line ends hands on. -/
def unifyLineEnds : List Char → List Char
  | '\r' :: '\n' :: rest => '\n' :: unifyLineEnds rest
  | '\r' :: rest => '\n' :: unifyLineEnds rest
  | c :: rest => c :: unifyLineEnds rest
  | [] => []

/-- The lines of a text without their ends. What follows the last line end is a line only if it is
not empty. -/
def lines : List Char → List (List Char)
  | [] => []
  | c :: rest =>
    let line := (c :: rest).takeWhile (· != '\n')
    line :: lines (rest.drop line.length)
  termination_by text => text.length
  decreasing_by simp only [List.length_drop, List.length_cons]; omega

end Lox.Text
