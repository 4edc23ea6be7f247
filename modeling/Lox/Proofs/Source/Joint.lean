import Lox.Source.Scan

/-!
# Scanning past a line end

A line end between two texts keeps them apart: unless a string is left open before it, the joined text
is cut into the pieces of the one, the line end, and the pieces of the other. So it has the tokens of
both and the reports of both, those of the second text on lines that lie further down.
-/
namespace Lox

/-- A token so many lines further down. -/
def Token.lower (lines : Int) (token : Token) : Token := { token with line := token.line + lines }

/-- A report so many lines further down. -/
def StaticReport.lower (lines : Int) (report : StaticReport) : StaticReport :=
  { report with line := report.line + lines }

namespace Source

open Text (lineEnds)

/-! ### Lists with a stop in them -/

section

variable {α : Type} (property : α → Bool) {stop : α}

theorem takeWhile_stop (stops : property stop = false) (front back : List α) :
    (front ++ stop :: back).takeWhile property = front.takeWhile property := by
  induction front with
  | nil => simp [stops]
  | cons first front ih => simp only [List.cons_append, List.takeWhile_cons, ih]

theorem dropWhile_stop (stops : property stop = false) (front back : List α) :
    (front ++ stop :: back).dropWhile property = front.dropWhile property ++ stop :: back := by
  induction front with
  | nil => simp [stops]
  | cons first front ih =>
    simp only [List.cons_append, List.dropWhile_cons, ih]
    split <;> rfl

end

/-! ### One piece before a line end -/

variable (back : List Char)

/-- A number does not reach past a line end, not even one that stops before a point. -/
theorem numberText_stop (text : List Char) :
    numberText (text ++ '\n' :: back) = numberText text := by
  unfold numberText
  rw [takeWhile_stop _ (by decide), dropWhile_stop _ (by decide)]
  -- What follows the digits decides: a fraction needs a point and a digit, and both lie in the text.
  rcases text.dropWhile Char.isDigit with _ | ⟨point, _ | ⟨digit, rest⟩⟩
  · rfl
  · by_cases dot : point = '.'
    · subst dot
      rfl
    · simp [dot]
  · by_cases dot : point = '.'
    · subst dot
      simp [takeWhile_stop Char.isDigit (by decide : Char.isDigit '\n' = false)]
    · simp [dot]

/-- The piece at the front is the same before a line end, unless it is a string left open. -/
theorem first_stop {c : Char} {rest : List Char}
    (closed : ∀ more, Piece.first c rest ≠ .openString more) :
    Piece.first c (rest ++ '\n' :: back) = Piece.first c rest := by
  have next (d : Char) (other : d ≠ '\n') :
      (rest ++ '\n' :: back).head? = some d ↔ rest.head? = some d := by
    cases rest with
    | nil => simp [other.symm]
    | cons _ _ => rfl
  have equals := next '=' (by decide)
  have slash := next '/' (by decide)
  unfold Piece.first at closed ⊢
  simp only [equals, slash, numberText_stop, ← List.cons_append,
    takeWhile_stop isNamePart (by decide : isNamePart '\n' = false)]
  split
  · rfl
  next spacing =>
    split
    next comment =>
      -- The comment ends with its line, which is where the first text ends at the latest.
      obtain ⟨d, rest, rfl⟩ : ∃ d more, rest = d :: more := by
        cases rest with
        | nil => simp at comment
        | cons d more => exact ⟨d, more, rfl⟩
      simp [takeWhile_stop (· != '\n') (by decide : ('\n' != '\n') = false)]
    next plain =>
      split
      next quote =>
        rw [if_neg spacing, if_neg plain, if_pos quote] at closed
        have ends : (rest.takeWhile (· != '"')).length < rest.length := by
          rcases Nat.lt_or_ge (rest.takeWhile (· != '"')).length rest.length with ends | none
          · exact ends
          · simp only [Nat.not_lt.mpr none, if_false] at closed
            exact absurd rfl (closed rest)
        have same : (rest ++ '\n' :: back).takeWhile (· != '"') = rest.takeWhile (· != '"') := by
          rw [List.takeWhile_append, if_neg (Nat.ne_of_lt ends)]
        have longer : (rest.takeWhile (· != '"')).length < (rest ++ '\n' :: back).length := by
          rw [List.length_append]
          exact Nat.lt_add_right _ ends
        simp only [same, ends, longer, if_true]
      next => rfl

/-! ### The whole text -/

/-- Before a line end, a text in which every string is closed is cut as it is on its own. -/
theorem pieces_stop {front : List Char}
    (closed : ∀ piece ∈ pieces front, ∀ more, piece ≠ .openString more) :
    pieces (front ++ '\n' :: back) = pieces front ++ .spacing '\n' :: pieces back := by
  fun_induction pieces front with
  | case1 =>
    have line : Piece.first '\n' back = .spacing '\n' := rfl
    rw [List.nil_append, pieces, line]
    rfl
  | case2 c rest piece ih =>
    rw [List.forall_mem_cons] at closed
    obtain ⟨more, cut, inside⟩ := Piece.text_first c rest
    have fits : piece.text.length - 1 ≤ rest.length := by
      have size : piece.text = c :: more := cut
      rw [size, List.length_cons, Nat.add_sub_cancel]
      exact inside.length_le
    rw [List.cons_append, pieces, first_stop back closed.1, List.drop_append_of_le_length fits,
      ih closed.2]
    rfl

/-- A string left open is reported. -/
theorem closed_of_reportsFrom {cut : List Piece} {line : Int} (quiet : ∀ report ∈ reportsFrom line cut,
    report.error ≠ .unterminatedString) : ∀ piece ∈ cut, ∀ more, piece ≠ .openString more := by
  induction cut generalizing line with
  | nil => simp
  | cons piece cut ih =>
    rw [reportsFrom, List.forall_mem_append] at quiet
    rw [List.forall_mem_cons]
    refine ⟨?_, ih quiet.2⟩
    rintro more rfl
    exact quiet.1 _ (List.mem_singleton_self _) rfl

/-! ### Lines -/

section

variable (line lines : Int) (cut : List Piece)

theorem token?_lower (piece : Piece) :
    piece.token? (line + lines) = (piece.token? line).map (Token.lower lines) := by
  cases piece <;> rfl

theorem report?_lower (piece : Piece) :
    piece.report? (line + lines) = (piece.report? line).map (StaticReport.lower lines) := by
  cases piece with
  | openString rest => simp [Piece.report?, StaticReport.lower, Int.add_right_comm]
  | _ => rfl

/-- Pieces that start further down make the same tokens further down. -/
theorem tokensFrom_lower :
    tokensFrom (line + lines) cut = (tokensFrom line cut).map (Token.lower lines) := by
  induction cut generalizing line with
  | nil => rfl
  | cons piece cut ih =>
    rw [tokensFrom, tokensFrom, Int.add_right_comm, ih, token?_lower, List.map_append]
    cases piece.token? line <;> rfl

theorem reportsFrom_lower :
    reportsFrom (line + lines) cut = (reportsFrom line cut).map (StaticReport.lower lines) := by
  induction cut generalizing line with
  | nil => rfl
  | cons piece cut ih =>
    rw [reportsFrom, reportsFrom, Int.add_right_comm, ih, report?_lower, List.map_append]
    cases piece.report? line <;> rfl

end

/-- How many lines further down a text starts that is joined to another by a line end. -/
def below (source : String) : Int := lineEnds source.toList + 1

/-- Two texts with a line end between them, the first without a string left open, have the tokens of
the first before its end of input and then those of the second, further down. What is reported is
reported of the one and then of the other. -/
theorem scan_joined {first : String}
    (closed : ∀ report ∈ (scan first).reports, report.error ≠ .unterminatedString) (second : String) :
    scan (first ++ "\n" ++ second) =
      ⟨(scan first).tokens.dropLast ++ (scan second).tokens.map (Token.lower (below first)),
        (scan first).reports ++ (scan second).reports.map (StaticReport.lower (below first))⟩ := by
  have text : (first ++ "\n" ++ second).toList = first.toList ++ '\n' :: second.toList := by simp
  have cut := pieces_stop second.toList (closed_of_reportsFrom closed)
  -- Behind the line end, the second text starts one line further down than the first one ends.
  have down : 1 + (lineEnds first.toList : Int) + 1 = 1 + below first := Int.add_assoc ..
  have tokens : tokensFrom (1 + lineEnds first.toList) (.spacing '\n' :: pieces second.toList) =
      (tokensFrom 1 (pieces second.toList)).map (Token.lower (below first)) := by
    rw [← tokensFrom_lower, ← down]
    rfl
  have reports : reportsFrom (1 + lineEnds first.toList) (.spacing '\n' :: pieces second.toList) =
      (reportsFrom 1 (pieces second.toList)).map (StaticReport.lower (below first)) := by
    rw [← reportsFrom_lower, ← down]
    rfl
  simp only [scan, text, cut, tokensFrom_append, reportsFrom_append, flatMap_text_pieces, tokens,
    reports]

end Source

end Lox
