import Lox.Proofs.Source.Joint
import Lox.Proofs.Source.Partition
import Lox.Proofs.Source.Scanned

/-!
# Lexemes and texts put together

White space ends every lexeme but a string, and a string ends with its quote. So a lexeme that stands
alone is the one token of its text, as every written number is, and lexemes with white space and comments
between them are found again, whatever text they come from. A line end keeps whole texts apart in the same
way, but only if no string is left open before it.
-/
namespace Lox.Source

open Text (lineEnds)

/-! ### Lexemes before white space -/

/-- What no lexeme but a string goes on into: nothing, or a text that begins with white space. -/
def Apart (rest : List Char) : Prop := ∀ c, rest.head? = some c → Text.isSpacing c = true

section

variable {c : Char} {text rest : List Char} {kind : Kind} {constant : Option Constant}

theorem apart_nil : Apart [] := nofun

theorem apart_cons (spacing : Text.isSpacing c = true) : Apart (c :: rest) := by
  rintro d ⟨⟩
  exact spacing

theorem not_spacing_of_isNamePart (part : isNamePart c = true) : Text.isSpacing c = false := by
  rcases Bool.or_eq_true_iff.mp part with letter | digit
  · exact (isNameStart_apart letter).1
  · exact (isDigit_apart digit).1

theorem not_spacing_of_numeral (numeral : Number.Numeral text) :
    ∀ c ∈ text, Text.isSpacing c = false := by
  rcases numeral with ⟨-, digits⟩ | ⟨whole, fraction, rfl, -, -, digits, others⟩
  · exact fun c member => (isDigit_apart (digits c member)).1
  · simp only [List.forall_mem_append, List.forall_mem_cons]
    exact ⟨fun c member => (isDigit_apart (digits c member)).1, by decide,
      fun c member => (isDigit_apart (others c member)).1⟩

/-- Only a string holds white space. -/
theorem Lexeme.not_spacing_of_unquoted (lexeme : Lexeme (c :: text) kind constant)
    (unquoted : c ≠ '"') : ∀ d ∈ c :: text, Text.isSpacing d = false := by
  obtain ⟨_, _, same, continues⟩ := lexeme.continues
  cases same
  unfold Continues at continues
  split at continues
  next digit => exact not_spacing_of_numeral continues.1
  split at continues
  next letter =>
    refine List.forall_mem_cons.mpr ⟨(isNameStart_apart letter).1, fun d member => ?_⟩
    exact not_spacing_of_isNamePart (continues.1 d member)
  next =>
    obtain ⟨⟨operator, shape⟩, -⟩ := continues
    refine List.forall_mem_cons.mpr ⟨(isOperator_apart operator).1, ?_⟩
    rcases shape with rfl | ⟨rfl, -⟩
    · simp
    · simp [Text.isSpacing]

/-- Before white space a lexeme is as long as it can be. -/
theorem Lexeme.longest (lexeme : Lexeme text kind constant) (apart : Apart rest) :
    Longest (text ++ rest) text := by
  obtain ⟨c, more, rfl, continues⟩ := lexeme.continues
  by_cases quote : c = '"'
  · subst quote
    obtain ⟨body, rfl, closed, -⟩ := continues
    have longest : Longest ('"' :: (body ++ '"' :: rest)) ('"' :: (body ++ ['"'])) :=
      longest_string closed
    simpa using longest
  · intro other _ _ found front
    rcases List.prefix_or_prefix_of_prefix front (List.prefix_append (c :: more) rest) with
      within | ⟨beyond, rfl⟩
    · exact within.length_le
    -- What a longer lexeme had beyond this one would begin with white space.
    · cases beyond with
      | nil => simp
      | cons d beyond =>
        obtain ⟨_, rfl⟩ := (List.prefix_append_right_inj _).mp front
        have plain := found.not_spacing_of_unquoted quote d (by simp)
        rw [apart d rfl] at plain
        cases plain

/-- Before white space no lexeme begins a comment. -/
theorem Lexeme.not_comment (lexeme : Lexeme text kind constant) (apart : Apart rest) :
    ¬['/', '/'] <+: text ++ rest := by
  obtain ⟨c, more, rfl, continues⟩ := lexeme.continues
  rintro ⟨beyond, same⟩
  obtain ⟨rfl, next⟩ := List.cons.inj same
  obtain ⟨⟨-, rfl | ⟨-, takes⟩⟩, -⟩ := continues
  · have follows : rest.head? = some '/' := congrArg List.head? next.symm
    exact absurd (apart '/' follows) (by decide)
  · exact absurd takes (by decide)

theorem Lexeme.fits (token : Token) {line : Int}
    (lexeme : Lexeme token.lexeme.toList token.kind token.constant) (apart : Apart rest)
    (placed : token.line = line) : (Part.lexeme token).Fits line rest :=
  ⟨lexeme, placed, lexeme.longest apart, lexeme.not_comment apart⟩

end

/-! ### What is scanned -/

theorem Partition.scan_eq {source : String} {scanned : Scan} {parts : List Part}
    {opened : Option (List Char)} (partition : Partition 1 source.toList scanned parts opened) :
    scan source = scanned := by
  obtain ⟨others, twin, known⟩ := Partition.exists_of_pieces 1 source.toList
  exact known.unique partition

/-- Scanning gives lexemes, and then the end of input. -/
theorem exists_lexemes (source : String) : ∃ tokens line,
    (scan source).tokens = tokens ++ [⟨.endOfInput, "", none, line⟩] ∧
      ∀ token ∈ tokens, Lexeme token.lexeme.toList token.kind token.constant := by
  obtain ⟨parts, opened, partition⟩ := Partition.exists_of_pieces 1 source.toList
  refine ⟨parts.filterMap Part.token?, _, partition.tokens, fun token member => ?_⟩
  obtain ⟨part, among, made⟩ := List.mem_filterMap.mp member
  obtain ⟨before, after, rfl⟩ := List.append_of_mem among
  have fits := partition.fits before part after rfl
  cases part with
  | lexeme twin =>
    cases made
    exact fits.1
  | spacing | comment | stray => cases made

/-- A string that is left open is reported where the text ends. -/
theorem line_of_unterminated {source : String} {report : StaticReport}
    (member : report ∈ (scan source).reports) (unterminated : report.error = .unterminatedString) :
    report.line = 1 + lineEnds source.toList := by
  obtain ⟨parts, opened, partition⟩ := Partition.exists_of_pieces 1 source.toList
  -- The reports are those of stray characters, and then the one of a string that is left open.
  rcases List.mem_append.mp (partition.reports ▸ member) with stray | final
  · obtain ⟨part, -, made⟩ := List.mem_filterMap.mp stray
    cases part with
    | stray line c =>
      cases made
      cases unterminated
    | lexeme | spacing | comment => cases made
  · cases opened with
    | none => cases final
    | some rest => rw [List.mem_singleton.mp final]

/-! ### A lexeme alone -/

theorem scan_lexeme {text : List Char} {kind : Kind} {constant : Option Constant}
    (lexeme : Lexeme text kind constant) : scan (String.ofList text) =
      ⟨[⟨kind, String.ofList text, constant, 1⟩, ⟨.endOfInput, "", none, 1 + lineEnds text⟩], []⟩ := by
  let token : Token := ⟨kind, String.ofList text, constant, 1⟩
  have known : Lexeme token.lexeme.toList kind constant := by rwa [String.toList_ofList]
  have partition : Partition 1 (String.ofList text).toList
      ⟨[token, ⟨.endOfInput, "", none, 1 + lineEnds (String.ofList text).toList⟩], []⟩
      [.lexeme token] none := by
    refine ⟨?_, ?_, nofun, rfl, rfl⟩
    · simp [Part.text, token]
    · exact Part.fitAll_cons.mpr ⟨Lexeme.fits token known apart_nil rfl, Part.fitAll_nil⟩
  rw [partition.scan_eq, String.toList_ofList]

/-- A written number is scanned to one token, and to that number, just if it is not negative. -/
theorem scan_literal_iff (v : Float) : scan (String.ofList (Number.literal v)) =
      ⟨[⟨.number, String.ofList (Number.literal v), some (.number v), 1⟩,
        ⟨.endOfInput, "", none, 1⟩], []⟩ ↔
    Number.isNegative v = false ∧ Number.isNaN v = false := by
  constructor
  · intro same
    have first : ⟨.number, String.ofList (Number.literal v), some (.number v), 1⟩ ∈
        (scan (String.ofList (Number.literal v))).tokens := by
      rw [same]
      exact List.mem_cons_self
    exact (scan_scanned _ _ first).printable (.inl rfl)
  · rintro ⟨positive, number⟩
    obtain ⟨numeral, back⟩ := Number.ofLiteral_literal positive number
    have lines : lineEnds (Number.literal v) = 0 := by
      apply List.count_eq_zero.mpr
      intro member
      exact absurd (not_spacing_of_numeral numeral '\n' member) (by decide)
    rw [scan_lexeme (.number numeral), back, lines]
    rfl

/-! ### Lexemes with separators between them -/

/-- Part of what may stand between two lexemes: white space, or a comment with the end of its line. -/
inductive Gap where
  | spacing (c : Char) (known : Text.isSpacing c = true)
  | comment (text : List Char) (inside : '\n' ∉ text)

def Gap.text : Gap → List Char
  | spacing c _ => [c]
  | comment text _ => '/' :: '/' :: text ++ ['\n']

/-- What keeps two lexemes apart: white space, and any mix of white space and comments behind it. -/
structure Separator where
  first : Char
  known : Text.isSpacing first = true
  more : List Gap

def Separator.text (separator : Separator) : List Char :=
  separator.first :: separator.more.flatMap Gap.text

/-- Texts one after the other, with a separator of its own between every two. -/
def separated (between : Nat → Separator) : List String → List Char
  | [] => []
  | [last] => last.toList
  | text :: next :: more =>
    text.toList ++ ((between 0).text ++ separated (fun n => between (n + 1)) (next :: more))

/-- From whatever line on, a text is scanned to some tokens, apart from their lines, and nothing about it
is reported. -/
def Rescans (text : List Char) (tokens : List Token) : Prop :=
  ∀ line, ∃ scanned parts, Partition line text scanned parts none ∧ scanned.reports = [] ∧
    scanned.tokens.map Token.bare = tokens.map Token.bare ++ [⟨.endOfInput, "", none, 0⟩]

namespace Rescans

variable {c : Char} {rest : List Char} {tokens : List Token}

theorem nil : Rescans [] [] :=
  fun line => ⟨⟨[⟨.endOfInput, "", none, line + lineEnds []⟩], []⟩, [],
    ⟨rfl, Part.fitAll_nil, nofun, rfl, rfl⟩, rfl, rfl⟩

/-- A part in front of a text that is scanned to some tokens. -/
theorem behind (front : List Char) (made : List Token) (rescans : Rescans rest tokens)
    (fits : ∀ line, ∃ part : Part, part.text = front ∧ part.Fits line rest ∧ part.report? = none ∧
      part.token?.toList.map Token.bare = made.map Token.bare) :
    Rescans (front ++ rest) (made ++ tokens) := by
  intro line
  obtain ⟨part, rfl, fits, quiet, same⟩ := fits line
  obtain ⟨scanned, parts, partition, silent, known⟩ := rescans (line + lineEnds part.text)
  refine ⟨_, part :: parts, Partition.cons_iff.mpr ⟨rest, scanned, rfl, fits, rfl, partition⟩, ?_, ?_⟩
  · simp [quiet, silent]
  · simp [same, known]

theorem spacing (rescans : Rescans rest tokens) (known : Text.isSpacing c = true) :
    Rescans (c :: rest) tokens :=
  behind [c] [] rescans fun _ => ⟨.spacing c, rfl, isSpacing_iff.mp known, rfl, rfl⟩

theorem comment {text : List Char} (rescans : Rescans ('\n' :: rest) tokens) (inside : '\n' ∉ text) :
    Rescans ('/' :: '/' :: text ++ '\n' :: rest) tokens := by
  have free : '\n' ∉ '/' :: '/' :: text := by simpa using inside
  exact behind ('/' :: '/' :: text) [] rescans fun _ =>
    ⟨.comment ('/' :: '/' :: text), rfl, ⟨⟨text, rfl⟩, free, by simp⟩, rfl, rfl⟩

theorem gap (rescans : Rescans rest tokens) (gap : Gap) : Rescans (gap.text ++ rest) tokens := by
  cases gap with
  | spacing c known => exact rescans.spacing known
  | comment text inside =>
    have behind : Rescans ('\n' :: rest) tokens := rescans.spacing rfl
    simpa [Gap.text] using behind.comment inside

theorem separator (rescans : Rescans rest tokens) (separator : Separator) :
    Rescans (separator.text ++ rest) tokens := by
  obtain ⟨first, known, more⟩ := separator
  have gaps : Rescans (more.flatMap Gap.text ++ rest) tokens := by
    induction more with
    | nil => exact rescans
    | cons gap more ih =>
      rw [List.flatMap_cons, List.append_assoc]
      exact ih.gap gap
  exact gaps.spacing known

theorem lexeme {token : Token} (rescans : Rescans rest tokens)
    (lexeme : Lexeme token.lexeme.toList token.kind token.constant) (apart : Apart rest) :
    Rescans (token.lexeme.toList ++ rest) (token :: tokens) :=
  behind token.lexeme.toList [token] rescans fun line =>
    ⟨.lexeme { token with line }, rfl, Lexeme.fits { token with line } lexeme apart rfl,
      rfl, rfl⟩

/-- Lexemes with separators between them are scanned to those lexemes. -/
theorem separated (lexemes : ∀ token ∈ tokens, Lexeme token.lexeme.toList token.kind token.constant)
    (between : Nat → Separator) :
    Rescans (Source.separated between (tokens.map Token.lexeme)) tokens := by
  induction tokens generalizing between with
  | nil => exact .nil
  | cons token more ih =>
    obtain ⟨first, others⟩ := List.forall_mem_cons.mp lexemes
    cases more with
    | nil =>
      have alone := nil.lexeme first apart_nil
      rwa [List.append_nil] at alone
    | cons next more =>
      have behind := (ih others fun n => between (n + 1)).separator (between 0)
      exact behind.lexeme first (apart_cons (between 0).known)

end Rescans

/-- The lexemes of a text, with separators between them, are scanned to the same tokens again, apart from
their lines, then the text ends, and nothing is reported. -/
theorem rescan_separated (source : String) (between : Nat → Separator) :
    let lexemes := (scan source).tokens.dropLast
    let again := scan (String.ofList (separated between (lexemes.map Token.lexeme)))
    again.reports = [] ∧
      again.tokens.map Token.bare = lexemes.map Token.bare ++ [⟨.endOfInput, "", none, 0⟩] := by
  obtain ⟨tokens, line, same, lexemes⟩ := exists_lexemes source
  rw [same, List.dropLast_concat]
  obtain ⟨scanned, parts, partition, quiet, known⟩ := Rescans.separated lexemes between 1
  have again : scan (String.ofList (separated between (tokens.map Token.lexeme))) = scanned :=
    Partition.scan_eq (by rwa [String.toList_ofList])
  simp only [again]
  exact ⟨quiet, known⟩

/-! ### Texts with a line end between them -/

/-- Two texts with a line end between them are scanned to the tokens and the reports of both, those of the
second further down, just if no string is left open in the first. -/
theorem scan_joined_iff (first second : String) :
    scan (first ++ "\n" ++ second) =
        ⟨(scan first).tokens.dropLast ++ (scan second).tokens.map (Token.lower (below first)),
          (scan first).reports ++ (scan second).reports.map (StaticReport.lower (below first))⟩ ↔
      ∀ report ∈ (scan first).reports, report.error ≠ .unterminatedString := by
  constructor
  · intro same report member unterminated
    have kept : report ∈ (scan (first ++ "\n" ++ second)).reports := by
      rw [same]
      exact List.mem_append_left _ member
    -- The one report is about the end of the first text and about the end of both.
    have early := line_of_unterminated member unterminated
    have late := line_of_unterminated kept unterminated
    have ends : lineEnds (first ++ "\n" ++ second).toList =
        lineEnds first.toList + 1 + lineEnds second.toList := by
      rw [String.toList_append, String.toList_append, Text.lineEnds_append, Text.lineEnds_append]
      rfl
    omega
  · exact fun closed => scan_joined closed second

end Lox.Source
