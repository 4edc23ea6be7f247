import Lox.Proofs.Source.Lexemes

/-!
# The scanner partitions its input

A program text is made of lexemes, of the spacing and the comments between them, and of characters that
start nothing; behind all of these a string may be left open. This says nothing of how a text is
scanned. At every place at most one part fits, and the scanner finds it: what it returns for a text is
what the one partition of the text calls for.
-/
namespace Lox.Source

open Text (lineEnds)

/-! ### Parts -/

/-- What the characters of a program text belong to, as long as no string is left open. -/
inductive Part where
  | lexeme (token : Token)
  | spacing (c : Char)
  /-- Two slashes and the rest of their line. -/
  | comment (text : List Char)
  /-- A character that starts nothing, with its line. -/
  | stray (line : Int) (c : Char)

namespace Part

def text : Part → List Char
  | lexeme token => token.lexeme.toList
  | spacing c | stray _ c => [c]
  | comment text => text

def token? : Part → Option Token
  | lexeme token => some token
  | _ => none

def report? : Part → Option StaticReport
  | stray line c => some ⟨line, .unexpectedCharacter c⟩
  | _ => none

/-- What a part has to be in order to stand on a line before some other text. -/
def Fits (line : Int) (rest : List Char) : Part → Prop
  | lexeme token => Lexeme token.lexeme.toList token.kind token.constant ∧ token.line = line ∧
      Longest (token.lexeme.toList ++ rest) token.lexeme.toList ∧
      ¬['/', '/'] <+: token.lexeme.toList ++ rest
  | spacing c => c ∈ [' ', '\t', '\r', '\n']
  | comment text => ['/', '/'] <+: text ∧ '\n' ∉ text ∧ ∀ c, rest.head? = some c → c = '\n'
  | stray here c => here = line ∧ StartsNothing c

/-- Each of some parts fits where it stands, with some text behind the last one. -/
def FitAll (line : Int) (rest : List Char) (parts : List Part) : Prop :=
  ∀ before part after, parts = before ++ part :: after →
    part.Fits (line + lineEnds (before.flatMap text)) (after.flatMap text ++ rest)

end Part

/-- A text that starts on a line, cut into parts and perhaps a string that is left open, and what is
returned for it: the tokens among the parts and an end of input, and a report of each character that
starts nothing and of the string that is left open. -/
structure Partition (line : Int) (text : List Char) (scanned : Scan) (parts : List Part)
    (opened : Option (List Char)) : Prop where
  whole : text = parts.flatMap Part.text ++ opened.getD []
  fits : Part.FitAll line (opened.getD []) parts
  begins : ∀ rest, opened = some rest → ∃ body, rest = '"' :: body ∧ '"' ∉ body
  tokens : scanned.tokens =
    parts.filterMap Part.token? ++ [⟨.endOfInput, "", none, line + lineEnds text⟩]
  reports : scanned.reports = parts.filterMap Part.report? ++
    (opened.map fun _ => ⟨line + lineEnds text, .unterminatedString⟩).toList

/-! ### The scanner finds a part that fits -/

/-- A part is what a piece stands for on a line. -/
def Part.StandsFor (line : Int) (piece : Piece) (part : Part) : Prop :=
  part.text = piece.text ∧ part.token? = piece.token? line ∧ part.report? = piece.report? line

section

variable {c : Char} {rest after : List Char} {line : Int}

/-- The part of a piece that makes a token. -/
theorem lexeme_fits {piece : Piece} {kind : Kind} {constant : Option Constant}
    (made : piece.token? line = some ⟨kind, String.ofList piece.text, constant, line⟩)
    (silent : piece.report? line = none) (whole : piece.text ++ after = c :: rest)
    (known : Lexeme piece.text kind constant) (longest : Longest (c :: rest) piece.text)
    (plain : ¬(c = '/' ∧ rest.head? = some '/')) :
    ∃ part : Part, part.Fits line after ∧ part.StandsFor line piece := by
  have apart : ¬['/', '/'] <+: c :: rest := by
    intro slashes
    obtain ⟨same, _, next⟩ := List.cons_prefix_cons.mp slashes
    exact plain ⟨same.symm, by rw [← next]; rfl⟩
  refine ⟨.lexeme ⟨kind, String.ofList piece.text, constant, line⟩, ?_, String.toList_ofList,
    made.symm, silent.symm⟩
  simp only [Part.Fits, String.toList_ofList, whole]
  exact ⟨known, trivial, longest, apart⟩

/-- A string reaches to the next double quote. -/
theorem string_fits
    (whole : (Piece.string (rest.takeWhile (· != '"'))).text ++ after = '"' :: rest) :
    ∃ part : Part, part.Fits line after ∧ part.StandsFor line (.string (rest.takeWhile (· != '"'))) := by
  have closed := not_mem_takeWhile '"' rest
  have inside : rest.takeWhile (· != '"') ++ '"' :: after = rest := by
    simpa using (List.cons.inj whole).2
  have longest : Longest ('"' :: (rest.takeWhile (· != '"') ++ '"' :: after))
      ('"' :: (rest.takeWhile (· != '"') ++ ['"'])) := longest_string closed
  rw [inside] at longest
  exact lexeme_fits rfl rfl whole (.string closed) longest (by simp)

/-- A comment reaches to the end of its line. -/
theorem comment_fits (slashes : c = '/' ∧ rest.head? = some '/')
    (whole : (Piece.comment ((rest.drop 1).takeWhile (· != '\n'))).text ++ after = c :: rest) :
    ∃ part : Part, part.Fits line after ∧
      part.StandsFor line (.comment ((rest.drop 1).takeWhile (· != '\n'))) := by
  obtain ⟨rfl, next⟩ := slashes
  obtain ⟨tail, rfl⟩ := List.head?_eq_some_iff.mp next
  rw [List.drop_one, List.tail_cons] at whole ⊢
  have free : '\n' ∉ '/' :: '/' :: tail.takeWhile (· != '\n') := by
    simp only [List.mem_cons, not_or]
    exact ⟨by decide, by decide, not_mem_takeWhile '\n' tail⟩
  refine ⟨.comment ('/' :: '/' :: tail.takeWhile (· != '\n')), ⟨⟨_, rfl⟩, free, ?_⟩, rfl, rfl, rfl⟩
  intro d head
  have stop := List.head?_dropWhile_not (· != '\n') tail
  have same : after = tail.dropWhile (· != '\n') := by
    have split := List.takeWhile_append_dropWhile (p := (· != '\n')) (l := tail)
    exact List.append_cancel_left
      ((List.cons.inj (List.cons.inj whole).2).2.trans split.symm)
  rw [← same, head] at stop
  simpa using stop

/-- The scanner cuts off a string that is left open, or a part that fits. -/
theorem first_part (line : Int) (whole : (Piece.first c rest).text ++ after = c :: rest) :
    (Piece.first c rest = .openString rest ∧ c = '"' ∧ '"' ∉ rest) ∨
      ∃ part : Part, part.Fits line after ∧ part.StandsFor line (Piece.first c rest) := by
  generalize found : Piece.first c rest = piece at whole ⊢
  -- The cases are the scanner's own, in their order.
  unfold Piece.first at found
  split at found
  next spacing =>
    subst found
    exact .inr ⟨.spacing c, isSpacing_iff.mp spacing, rfl, rfl, rfl⟩
  next spacing =>
  split at found
  next slashes =>
    subst found
    exact .inr (comment_fits slashes whole)
  next plain =>
  split at found
  next quote =>
    subst quote
    simp only at found
    split at found
    next closes =>
      subst found
      exact .inr (string_fits whole)
    next opens =>
      subst found
      have same : rest.takeWhile (· != '"') = rest :=
        (List.takeWhile_prefix _).eq_of_length_le (Nat.not_lt.mp opens)
      have closed := not_mem_takeWhile '"' rest
      rw [same] at closed
      exact .inl ⟨rfl, rfl, closed⟩
  next quote =>
  right
  split at found
  next digit =>
    subst found
    exact lexeme_fits rfl rfl whole (.number (numeral_numberText digit)) (longest_number digit) plain
  next digit =>
  split at found
  next letter =>
    subst found
    have parts : ∀ d ∈ rest.takeWhile isNamePart, isNamePart d = true :=
      List.all_eq_true.mp List.all_takeWhile
    exact lexeme_fits rfl rfl whole (.of_name letter parts) (longest_name letter) plain
  next letter =>
  split at found
  next pair =>
    subst found
    obtain ⟨takes, next⟩ := pair
    exact lexeme_fits rfl rfl whole (.operator (pair_mem takes))
      (longest_operator (isOperator_of_takesEquals takes) (.inl rfl)) plain
  next alone =>
  split at found
  next operator =>
    subst found
    exact lexeme_fits rfl rfl whole (.operator (operator_mem operator))
      (longest_operator operator (.inr alone)) plain
  next other =>
    subst found
    refine ⟨.stray line c, ⟨rfl, fun member => spacing (isSpacing_iff.mpr member), ?_⟩, rfl, rfl, rfl⟩
    -- A lexeme that began here would have been cut off in one of the cases before.
    intro text kind constant lexeme head
    obtain ⟨_, more, rfl, continues⟩ := lexeme.continues
    cases head
    unfold Continues at continues
    rw [if_neg digit, if_neg quote, if_neg letter] at continues
    exact other continues.1.1

/-! ### At most one part fits -/

theorem Part.fitAll_nil : FitAll line rest [] :=
  fun before part after none => absurd none.symm (by simp)

theorem Part.fitAll_cons {part : Part} {more : List Part} :
    FitAll line rest (part :: more) ↔
      part.Fits line (more.flatMap text ++ rest) ∧ FitAll (line + lineEnds part.text) rest more := by
  have further (before : List Part) : line + lineEnds ((part :: before).flatMap text) =
      line + lineEnds part.text + lineEnds (before.flatMap text) := by
    rw [List.flatMap_cons, Text.lineEnds_append]
    push_cast
    rw [Int.add_assoc]
  constructor
  · intro all
    refine ⟨?_, fun before other after same => ?_⟩
    · simpa [lineEnds] using all [] part more rfl
    · rw [← further]
      exact all (part :: before) other after (congrArg _ same)
  · rintro ⟨first, others⟩ before other after same
    -- Either the first part is asked about or one of the others, on a line further down.
    cases before with
    | nil =>
      cases same
      simpa [lineEnds] using first
    | cons head before =>
      cases same
      rw [further]
      exact others before other after rfl

end

namespace Part.Fits

variable {part one other : Part} {line : Int} {after beyond : List Char}

theorem spacing_iff (fits : part.Fits line after) : (∃ c, part = .spacing c) ↔
    ∃ c more, part.text ++ after = c :: more ∧ c ∈ [' ', '\t', '\r', '\n'] := by
  constructor
  · rintro ⟨c, rfl⟩
    exact ⟨c, after, rfl, fits⟩
  · rintro ⟨c, more, same, spacing⟩
    cases part with
    | spacing c => exact ⟨c, rfl⟩
    | lexeme token =>
      obtain ⟨d, text, letters, -⟩ := fits.1.continues
      rw [Part.text, letters] at same
      cases same
      exact absurd spacing (letters ▸ fits.1).not_spacing
    | comment text =>
      obtain ⟨⟨rest, rfl⟩, -⟩ := fits
      cases same
      exact absurd spacing (by decide)
    | stray here d =>
      cases same
      exact absurd spacing fits.2.1

theorem comment_iff (fits : part.Fits line after) : (∃ text, part = .comment text) ↔
    ['/', '/'] <+: part.text ++ after := by
  constructor
  · rintro ⟨text, rfl⟩
    exact fits.1.trans (List.prefix_append _ _)
  · rintro ⟨more, same⟩
    cases part with
    | comment text => exact ⟨text, rfl⟩
    | lexeme token => exact absurd ⟨more, same⟩ fits.2.2.2
    | spacing c =>
      cases same
      have spacing : '/' ∈ [' ', '\t', '\r', '\n'] := fits
      exact absurd spacing (by decide)
    | stray here c =>
      cases same
      have slash : Lexeme ['/'] .operator none := .operator (by decide)
      exact absurd rfl (fits.2.2 _ _ _ slash)

theorem stray_iff (fits : part.Fits line after) : (∃ here c, part = .stray here c) ↔
    ∃ c more, part.text ++ after = c :: more ∧ StartsNothing c := by
  constructor
  · rintro ⟨here, c, rfl⟩
    exact ⟨c, after, rfl, fits.2⟩
  · rintro ⟨c, more, same, nothing⟩
    cases part with
    | stray here c => exact ⟨here, c, rfl⟩
    | lexeme token =>
      obtain ⟨d, text, letters, -⟩ := fits.1.continues
      rw [Part.text, letters] at same
      cases same
      exact absurd (by rw [letters]; rfl) (nothing.2 _ _ _ fits.1)
    | spacing d =>
      cases same
      exact absurd fits nothing.1
    | comment text =>
      obtain ⟨⟨rest, rfl⟩, -⟩ := fits
      cases same
      have slash : Lexeme ['/'] .operator none := .operator (by decide)
      exact absurd rfl (nothing.2 _ _ _ slash)

/-- In front of one text and on one line, only one part fits. -/
theorem unique (first : one.Fits line after) (second : other.Fits line beyond)
    (same : one.text ++ after = other.text ++ beyond) : one = other := by
  -- Which sort of part it is shows in the text in front of which it stands, and that is the same.
  have spacing := second.spacing_iff
  have comment := second.comment_iff
  have stray := second.stray_iff
  rw [← same] at spacing comment stray
  rw [← first.spacing_iff] at spacing
  rw [← first.comment_iff] at comment
  rw [← first.stray_iff] at stray
  cases one with
  | spacing c =>
    obtain ⟨d, rfl⟩ := spacing.mpr ⟨c, rfl⟩
    cases same
    rfl
  | comment text =>
    obtain ⟨others, rfl⟩ := comment.mpr ⟨text, rfl⟩
    -- Both reach to the end of the line.
    have equal := congrArg (List.takeWhile (· != '\n')) same
    rw [Part.text, Part.text, takeWhile_ne first.2.1 first.2.2, takeWhile_ne second.2.1 second.2.2]
      at equal
    rw [equal]
  | stray here c =>
    obtain ⟨there, d, rfl⟩ := stray.mpr ⟨here, c, rfl⟩
    cases same
    rw [first.1, second.1]
  | lexeme token =>
    cases other with
    | spacing c => exact absurd (spacing.mp ⟨c, rfl⟩) nofun
    | comment text => exact absurd (comment.mp ⟨text, rfl⟩) nofun
    | stray here c => exact absurd (stray.mp ⟨here, c, rfl⟩) nofun
    | lexeme twin =>
      -- Neither lexeme is longer than the other.
      obtain ⟨known, placed, longest, -⟩ := first
      obtain ⟨alike, beside, most, -⟩ := second
      change token.lexeme.toList ++ after = twin.lexeme.toList ++ beyond at same
      have length : token.lexeme.toList.length = twin.lexeme.toList.length :=
        Nat.le_antisymm (most _ _ _ known (same ▸ List.prefix_append _ _))
          (longest _ _ _ alike (same ▸ List.prefix_append _ _))
      have letters := String.toList_inj.mp (List.append_inj_left same length)
      obtain ⟨kind, constant⟩ := (letters ▸ known).unique alike
      obtain ⟨_, _, _, _⟩ := token
      obtain ⟨_, _, _, _⟩ := twin
      simp_all

end Part.Fits

/-! ### The whole text -/

/-- A string is left open in front of a text: nothing else fits there. -/
theorem Part.Fits.not_open {part : Part} {line : Int} {after body : List Char}
    (fits : part.Fits line after) (closed : '"' ∉ body) : part.text ++ after ≠ '"' :: body := by
  intro same
  cases part with
  | lexeme token =>
    obtain ⟨c, more, letters, continues⟩ := fits.1.continues
    rw [Part.text, letters] at same
    cases same
    obtain ⟨inner, rfl, -⟩ := continues
    simp at closed
  | spacing c =>
    cases same
    have spacing : '"' ∈ [' ', '\t', '\r', '\n'] := fits
    exact absurd spacing (by decide)
  | comment text =>
    obtain ⟨⟨rest, rfl⟩, -⟩ := fits
    cases same
  | stray here c =>
    cases same
    -- A stray character begins no lexeme, but a double quote begins the empty string.
    have quotes : Lexeme ['"', '"'] .string (some (.text (String.ofList []))) :=
      .string (List.not_mem_nil (a := '"'))
    exact absurd rfl (fits.2.2 _ _ _ quotes)

theorem Part.Fits.text_ne_nil {part : Part} {line : Int} {after : List Char}
    (fits : part.Fits line after) : part.text ≠ [] := by
  cases part with
  | lexeme token =>
    obtain ⟨c, more, letters, -⟩ := fits.1.continues
    rw [Part.text, letters]
    exact List.cons_ne_nil _ _
  | comment text =>
    obtain ⟨⟨rest, rfl⟩, -⟩ := fits
    exact List.cons_ne_nil _ _
  | spacing | stray => exact List.cons_ne_nil _ _

namespace Partition

variable {line : Int} {text rest : List Char} {scanned other : Scan} {part : Part}
  {parts others : List Part} {opened twin : Option (List Char)}

/-- The first part of a partition leaves a partition of the rest. -/
theorem cons_iff : Partition line text scanned (part :: parts) opened ↔
    ∃ rest later, text = part.text ++ rest ∧ part.Fits line rest ∧
      scanned = ⟨part.token?.toList ++ later.tokens, part.report?.toList ++ later.reports⟩ ∧
      Partition (line + lineEnds part.text) rest later parts opened := by
  have first {α : Type} (view : Part → Option α) :
      (part :: parts).filterMap view = (view part).toList ++ parts.filterMap view := by
    cases shown : view part <;> simp [shown]
  -- The lines of the rest are counted from where the part ends.
  have below (rest : List Char) :
      line + lineEnds (part.text ++ rest) = line + lineEnds part.text + lineEnds rest := by
    rw [Text.lineEnds_append]
    push_cast
    rw [Int.add_assoc]
  constructor
  · rintro ⟨rfl, fits, begins, tokens, reports⟩
    obtain ⟨fits, others⟩ := Part.fitAll_cons.mp fits
    rw [List.flatMap_cons, List.append_assoc, below, first, List.append_assoc] at tokens reports
    refine ⟨_, ⟨_, _⟩, ?_, fits, ?_, ⟨rfl, others, begins, rfl, rfl⟩⟩
    · simp
    · rw [← tokens, ← reports]
  · rintro ⟨rest, later, rfl, fits, rfl, rfl, others, begins, tokens, reports⟩
    refine ⟨?_, Part.fitAll_cons.mpr ⟨fits, others⟩, begins, ?_, ?_⟩
    · simp
    · rw [below, first, tokens, List.append_assoc]
    · rw [below, first, reports, List.append_assoc]

/-- Where a part fits, there is a part. -/
theorem not_nil (fits : part.Fits line rest) :
    ¬Partition line (part.text ++ rest) scanned [] opened := by
  rintro ⟨whole, -, begins, -, -⟩
  cases opened with
  | none => exact fits.text_ne_nil (List.append_eq_nil_iff.mp whole).1
  | some opened =>
    obtain ⟨body, rfl, closed⟩ := begins opened rfl
    exact fits.not_open closed whole

/-- Behind the last part there is a string left open, or nothing. -/
theorem of_nil (partition : Partition line text scanned [] opened) :
    opened = if text = [] then none else some text := by
  obtain ⟨rfl, -, begins, -, -⟩ := partition
  cases opened with
  | none => rfl
  | some rest =>
    obtain ⟨body, rfl, -⟩ := begins rest rfl
    rfl

/-- A text has one partition, and so one thing can be returned for it. -/
theorem unique (one : Partition line text scanned parts opened)
    (two : Partition line text other others twin) : scanned = other := by
  -- The first parts agree, so the rests are one text and its partitions agree in turn.
  induction parts generalizing line text scanned other others with
  | nil =>
    cases others with
    | nil =>
      obtain rfl : opened = twin := one.of_nil.trans two.of_nil.symm
      obtain ⟨tokens, reports⟩ := scanned
      obtain ⟨_, _⟩ := other
      rw [Scan.mk.injEq]
      exact ⟨one.tokens.trans two.tokens.symm, one.reports.trans two.reports.symm⟩
    | cons part others =>
      obtain ⟨rest, later, rfl, fits, -⟩ := cons_iff.mp two
      exact absurd one (not_nil fits)
  | cons part parts ih =>
    obtain ⟨rest, later, rfl, fits, rfl, first⟩ := cons_iff.mp one
    cases others with
    | nil => exact absurd two (not_nil fits)
    | cons twin others =>
      obtain ⟨after, further, same, fit, rfl, second⟩ := cons_iff.mp two
      obtain rfl := fits.unique fit same
      obtain rfl := List.append_cancel_left same
      rw [ih first second]

/-- What the scanner returns is what a partition calls for. -/
theorem exists_of_pieces (line : Int) (text : List Char) : ∃ parts opened,
    Partition line text ⟨tokensFrom line (pieces text), reportsFrom line (pieces text)⟩ parts opened := by
  fun_induction pieces text generalizing line with
  | case1 =>
    exact ⟨[], none, rfl, Part.fitAll_nil, by simp, by simp [tokensFrom, lineEnds], rfl⟩
  | case2 c rest piece ih =>
    obtain ⟨more, cut, tail, rfl⟩ := Piece.text_first c rest
    have whole : piece.text ++ tail = c :: (more ++ tail) := by rw [cut]; rfl
    have size : (more ++ tail).drop (piece.text.length - 1) = tail := by rw [cut]; simp
    rw [size] at ih ⊢
    rcases first_part line whole with ⟨opens, rfl, closed⟩ | ⟨part, fits, same, token, report⟩
    · -- Nothing is left behind a string that is left open.
      have text : piece.text = '"' :: (more ++ tail) := congrArg Piece.text opens
      obtain rfl : tail = [] := by simpa [text] using whole
      rw [List.append_nil] at opens closed ⊢
      refine ⟨[], some ('"' :: more), rfl, Part.fitAll_nil, ?_, ?_, ?_⟩
      · rintro rest ⟨⟩
        exact ⟨more, rfl, closed⟩
      · simp [tokensFrom, pieces, piece, opens, Piece.token?, Piece.text]
      · simp [reportsFrom, pieces, piece, opens, Piece.report?, lineEnds]
    · obtain ⟨parts, opened, rest⟩ := ih (line + lineEnds piece.text)
      rw [tokensFrom, reportsFrom, ← token, ← report, ← whole, ← same]
      rw [← same] at rest
      exact ⟨part :: parts, opened, cons_iff.mpr ⟨tail, _, rfl, fits, rfl, rest⟩⟩

end Partition

/-- What the scanner returns for a text, and nothing else, is what a partition of the text calls for. -/
theorem scan_iff_partition (source : String) (scanned : Scan) :
    scanned = scan source ↔
      ∃ parts opened, Partition 1 source.toList scanned parts opened := by
  constructor
  · rintro rfl
    exact Partition.exists_of_pieces 1 source.toList
  · rintro ⟨parts, opened, partition⟩
    obtain ⟨others, twin, known⟩ := Partition.exists_of_pieces 1 source.toList
    exact partition.unique known

end Lox.Source
