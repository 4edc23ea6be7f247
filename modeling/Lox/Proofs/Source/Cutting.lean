import Lox.Proofs.Number.ReadBack
import Lox.Proofs.Source.Spelling
import Lox.Proofs.Syntax.Printable

/-!
# Cutting a text into its lexemes

What a text means to the scanner, whatever line it stands on and whatever fitting text follows it:
its tokens, and nothing to report. Texts are put together from lexemes and spacing; a lexeme needs
that what follows does not go on with it.
-/
namespace Lox.Source

open Text (lineEnds)

/-! ### One piece in front of a text -/

theorem pieces_append {c : Char} {more rest : List Char} {piece : Piece}
    (first : Piece.first c (more ++ rest) = piece) (whole : piece.text = c :: more) :
    pieces (c :: more ++ rest) = piece :: pieces rest := by
  rw [List.cons_append, pieces, first, whole]
  simp

/-- What a text means: in front of a fitting text, it is cut into some tokens of its own, and nothing
about it is reported. No text here has a `for` in it, since trees have no such statement. -/
def Spells (fits : List Char → Prop) (text : List Char) (meaning : List Token → Prop) : Prop :=
  ∀ line rest, fits rest → ∃ tokens, meaning tokens ∧
    (∀ token ∈ tokens, token.kind ≠ .word "for") ∧
    tokensFrom line (pieces (text ++ rest)) =
      tokens ++ tokensFrom (line + lineEnds text) (pieces rest) ∧
    reportsFrom line (pieces (text ++ rest)) = reportsFrom (line + lineEnds text) (pieces rest)

/-- A single token, apart from its line. -/
def Makes (made : Token) (tokens : List Token) : Prop :=
  ∃ token, tokens = [token] ∧ token.bare = made

/-- Anything may follow. -/
abbrev Anything : List Char → Prop := fun _ => True

namespace Spells

variable {fits others : List Char → Prop} {text front back : List Char}
  {meaning wider first second : List Token → Prop}

theorem mono (spelled : Spells fits text meaning) (onward : ∀ tokens, meaning tokens → wider tokens) :
    Spells fits text wider := by
  intro line rest fit
  obtain ⟨tokens, known, plain, same, quiet⟩ := spelled line rest fit
  exact ⟨tokens, onward tokens known, plain, same, quiet⟩

theorem narrow (spelled : Spells fits text meaning) (onward : ∀ rest, others rest → fits rest) :
    Spells others text meaning :=
  fun line rest fit => spelled line rest (onward rest fit)

theorem nil : Spells Anything [] (· = []) := by
  intro line rest _
  refine ⟨[], rfl, nofun, ?_, ?_⟩ <;> simp [lineEnds]

/-- One text after the other. -/
theorem append (before : Spells fits front first) (after : Spells others back second)
    (fitting : ∀ rest, others rest → fits (back ++ rest))
    (onward : ∀ one two, first one → second two → meaning (one ++ two)) :
    Spells others (front ++ back) meaning := by
  intro line rest fit
  obtain ⟨one, known, plain, same, quiet⟩ := before line (back ++ rest) (fitting rest fit)
  obtain ⟨two, more, other, again, silent⟩ := after (line + lineEnds front) rest fit
  refine ⟨one ++ two, onward one two known more, List.forall_mem_append.mpr ⟨plain, other⟩, ?_, ?_⟩
  · rw [List.append_assoc, same, again, List.append_assoc, Text.lineEnds_append]
    push_cast
    rw [Int.add_assoc]
  · rw [List.append_assoc, quiet, silent, Text.lineEnds_append]
    push_cast
    rw [Int.add_assoc]

/-- A piece that makes a token. -/
theorem piece (piece : Piece) {c : Char} {more : List Char} {made : Token}
    (first : ∀ rest, fits rest → Piece.first c (more ++ rest) = piece)
    (whole : piece.text = c :: more)
    (token : ∀ line, ∃ token, piece.token? line = some token ∧ token.bare = made)
    (plain : made.kind ≠ .word "for") (quiet : ∀ line, piece.report? line = none) :
    Spells fits (c :: more) (Makes made) := by
  intro line rest fit
  obtain ⟨token, known, same⟩ := token line
  refine ⟨[token], ⟨token, rfl, same⟩, ?_, ?_, ?_⟩
  · rw [List.forall_mem_singleton]
    rw [← same] at plain
    exact plain
  · rw [pieces_append (first rest fit) whole, tokensFrom, known, whole]
    rfl
  · rw [pieces_append (first rest fit) whole, reportsFrom, quiet, whole]
    rfl

theorem spacing {c : Char} (known : Text.isSpacing c = true) : Spells Anything [c] (· = []) := by
  intro line rest _
  have first : Piece.first c ([] ++ rest) = .spacing c := by
    unfold Piece.first
    rw [if_pos known]
  refine ⟨[], rfl, nofun, ?_, ?_⟩
  · rw [pieces_append first rfl]
    rfl
  · rw [pieces_append first rfl]
    rfl

end Spells

/-! ### What may follow a lexeme -/

/-- What may follow an operator: nothing that would make it longer, or a comment of it. -/
def Loose (rest : List Char) : Prop := rest.head? ≠ some '=' ∧ rest.head? ≠ some '/'

/-- What may follow an expression: what separates it from what comes next. -/
def Borders (rest : List Char) : Prop :=
  ∀ c, rest.head? = some c → c ∈ [' ', ')', ',', ';', '(', '\n']

section

variable {c : Char} {rest : List Char}

theorem borders_cons (separates : c ∈ [' ', ')', ',', ';', '(', '\n']) : Borders (c :: rest) := by
  intro d head
  rw [List.head?_cons, Option.some.injEq] at head
  exact head ▸ separates

theorem loose_cons (other : c ≠ '=') (another : c ≠ '/') : Loose (c :: rest) := by
  constructor <;> simpa

/-- What separates an expression is no part of a lexeme before it. -/
theorem Borders.apart (property : Char → Bool) (borders : Borders rest)
    (none : ∀ c ∈ [' ', ')', ',', ';', '(', '\n'], property c = false) :
    ∀ c, rest.head? = some c → property c = false :=
  fun c head => none c (borders c head)

theorem Borders.loose (borders : Borders rest) : Loose rest := by
  constructor
  all_goals
    intro head
    exact absurd (borders _ head) (by decide)

end

theorem takeWhile_append {property : Char → Bool} {front rest : List Char}
    (all : ∀ c ∈ front, property c = true) (stop : ∀ c, rest.head? = some c → property c = false) :
    (front ++ rest).takeWhile property = front := by
  rw [List.takeWhile_append_of_pos all]
  cases rest with
  | nil => simp
  | cons c rest => simp [stop c rfl]

theorem dropWhile_append {property : Char → Bool} {front rest : List Char}
    (all : ∀ c ∈ front, property c = true) (stop : ∀ c, rest.head? = some c → property c = false) :
    (front ++ rest).dropWhile property = rest := by
  rw [List.dropWhile_append_of_pos all]
  cases rest with
  | nil => rfl
  | cons c rest => simp [stop c rfl]

/-! ### Lexemes -/

/-- What starts a name starts nothing else. -/
theorem isNameStart_apart {c : Char} (starts : isNameStart c = true) :
    Text.isSpacing c = false ∧ c ≠ '/' ∧ c ≠ '"' ∧ c.isDigit = false := by
  refine ⟨?_, ?_, ?_, ?_⟩
  · cases spacing : Text.isSpacing c with
    | false => rfl
    | true =>
      simp only [Text.isSpacing, Bool.or_eq_true, beq_iff_eq] at spacing
      rcases spacing with ((rfl | rfl) | rfl) | rfl <;> exact absurd starts (by decide)
  · rintro rfl
    exact absurd starts (by decide)
  · rintro rfl
    exact absurd starts (by decide)
  · cases digit : c.isDigit with
    | false => rfl
    -- Digits lie below all letters.
    | true =>
      have range := Char.isDigit_iff_toNat.mp digit
      change 48 ≤ c.toNat ∧ c.toNat ≤ 57 at range
      have letter : Text.isLetter c = false := by
        rw [Text.isLetter_ascii (by omega)]
        change (decide (c.val ≥ 'A'.val ∧ c.val ≤ 'Z'.val) ||
          (decide (c.val ≥ 'a'.val) && decide (c.val ≤ 'z'.val))) = false
        simp [UInt32.le_iff_toNat_le]
        omega
      have other : c ≠ '_' := by
        rintro rfl
        exact absurd digit (by decide)
      simp [isNameStart, letter, other] at starts

/-- What starts a number starts nothing else. -/
theorem isDigit_apart {c : Char} (digit : c.isDigit = true) :
    Text.isSpacing c = false ∧ c ≠ '/' ∧ c ≠ '"' := by
  refine ⟨?_, ?_, ?_⟩
  · cases spacing : Text.isSpacing c with
    | false => rfl
    | true =>
      simp only [Text.isSpacing, Bool.or_eq_true, beq_iff_eq] at spacing
      rcases spacing with ((rfl | rfl) | rfl) | rfl <;> exact absurd digit (by decide)
  · rintro rfl
    exact absurd digit (by decide)
  · rintro rfl
    exact absurd digit (by decide)

/-- A reserved word is made of letters like a name. -/
theorem isName_of_reserved {text : String} (reserved : text ∈ reservedWords) : IsName text.toList := by
  have all : ∀ text ∈ reservedWords,
      (text.toList.head?.any isNameStart && text.toList.tail.all isNamePart) = true := by decide
  have known := all text reserved
  rw [Bool.and_eq_true, List.all_eq_true] at known
  cases letters : text.toList with
  | nil =>
    rw [letters] at known
    exact absurd known.1 (by decide)
  | cons c more =>
    rw [letters] at known
    exact ⟨c, more, rfl, known⟩

theorem Spells.name {text : List Char} (name : IsName text) (other : String.ofList text ≠ "for") :
    Spells Borders text (Makes ⟨nameKind (String.ofList text), String.ofList text, none, 0⟩) := by
  obtain ⟨c, more, rfl, starts, parts⟩ := name
  obtain ⟨spacing, slash, quote, digit⟩ := isNameStart_apart starts
  have plain : nameKind (String.ofList (c :: more)) ≠ .word "for" := by
    rcases nameKind_eq (String.ofList (c :: more)) with ⟨kind, -⟩ | ⟨kind, -⟩
    · rw [kind]
      exact fun same => other (Kind.word.inj same)
    · rw [kind]
      nofun
  refine .piece (.name (c :: more)) (fun rest borders => ?_) rfl
    (fun line => ⟨_, rfl, rfl⟩) plain fun _ => rfl
  have stop := borders.apart isNamePart (forall_mem_of_all (by decide))
  unfold Piece.first
  rw [spacing, if_neg (by decide), if_neg (fun both => slash both.1), if_neg quote, digit,
    if_neg (by decide), if_pos starts, takeWhile_append parts stop]

theorem Spells.string {body : List Char} (closed : '"' ∉ body) :
    Spells Anything ('"' :: body ++ ['"'])
      (Makes ⟨.string, String.ofList ('"' :: body ++ ['"']), some (.text (String.ofList body)), 0⟩) := by
  refine .piece (.string body) (fun rest _ => ?_) rfl (fun line => ⟨_, rfl, rfl⟩) nofun fun _ => rfl
  have inside : ∀ c ∈ body, (c != '"') = true := by
    intro c member
    have other : c ≠ '"' := fun same => closed (same ▸ member)
    simpa using other
  have taken : (body ++ ['"'] ++ rest).takeWhile (· != '"') = body := by
    rw [List.append_assoc]
    exact takeWhile_append inside fun c head => by simpa using head.symm
  change Piece.first '"' (body ++ ['"'] ++ rest) = _
  unfold Piece.first
  rw [if_neg (by decide), if_neg (fun both => absurd both.1 (by decide)), if_pos rfl, taken]
  simp

/-- The digits of a number end where something else separates it. -/
theorem numberText_append {text rest : List Char} (numeral : Number.Numeral text)
    (borders : Borders rest) : numberText (text ++ rest) = text := by
  have stop := borders.apart Char.isDigit (forall_mem_of_all (by decide))
  unfold numberText
  rcases numeral with ⟨-, digits⟩ | ⟨whole, fraction, rfl, -, nonempty, digits, more⟩
  · rw [takeWhile_append digits stop, dropWhile_append digits stop]
    split
    next d tail =>
      exact absurd (borders '.' rfl) (by decide)
    next => rfl
  · obtain ⟨d, fraction, rfl⟩ := List.exists_cons_of_ne_nil nonempty
    rw [List.forall_mem_cons] at more
    have point : ∀ c, ('.' :: d :: fraction ++ rest).head? = some c → c.isDigit = false := by
      intro c head
      rw [List.cons_append, List.head?_cons, Option.some.injEq] at head
      subst head
      decide
    rw [List.append_assoc, takeWhile_append digits point, dropWhile_append digits point]
    simp only [List.cons_append, more.1, if_true, takeWhile_append more.2 stop]

theorem Spells.number {text : List Char} (numeral : Number.Numeral text) :
    Spells Borders text (Makes ⟨.number, String.ofList text,
      some (.number (Number.ofLiteral text)), 0⟩) := by
  obtain ⟨c, more, rfl, digit⟩ := numeral.begins
  obtain ⟨spacing, slash, quote⟩ := isDigit_apart digit
  refine .piece (.number (c :: more)) (fun rest borders => ?_) rfl (fun line => ⟨_, rfl, rfl⟩)
    nofun fun _ => rfl
  have whole := numberText_append numeral borders
  unfold Piece.first
  rw [spacing, if_neg (by decide), if_neg (fun both => slash both.1), if_neg quote, if_pos digit]
  exact congrArg _ whole

/-- What starts an operator starts nothing else. -/
theorem isOperator_apart {c : Char} (operator : isOperator c = true) :
    Text.isSpacing c = false ∧ c ≠ '"' ∧ c.isDigit = false ∧ isNameStart c = false := by
  have apart : ∀ c ∈ ['(', ')', '\x7b', '\x7d', ',', '.', '-', '+', ';', '*', '/', '!', '=', '<', '>'],
      Text.isSpacing c = false ∧ c ≠ '"' ∧ c.isDigit = false ∧ isNameStart c = false :=
    forall_mem_of_all (by decide)
  exact apart c (by simpa [isOperator] using operator)

/-- An operator of one character is cut off where nothing makes it longer. -/
theorem first_operator {c : Char} {rest : List Char} (operator : isOperator c = true)
    (loose : Loose rest) : Piece.first c rest = .operator [c] := by
  obtain ⟨spacing, quote, digit, name⟩ := isOperator_apart operator
  unfold Piece.first
  rw [spacing, if_neg (by decide), if_neg (fun both => loose.2 both.2), if_neg quote, digit,
    if_neg (by decide), name, if_neg (by decide), if_neg (fun both => loose.1 both.2),
    if_pos operator]

theorem first_pair {c : Char} {rest : List Char} (takes : takesEquals c = true) :
    Piece.first c ('=' :: rest) = .operator [c, '='] := by
  have apart : ∀ c ∈ ['!', '=', '<', '>'], Text.isSpacing c = false ∧ c ≠ '"' ∧ c ≠ '/' ∧
      c.isDigit = false ∧ isNameStart c = false := forall_mem_of_all (by decide)
  obtain ⟨spacing, quote, slash, digit, name⟩ := apart c (by simpa [takesEquals] using takes)
  unfold Piece.first
  rw [spacing, if_neg (by decide), if_neg (fun both => slash both.1), if_neg quote, digit,
    if_neg (by decide), name, if_neg (by decide), if_pos ⟨takes, rfl⟩]

/-- The letters of an operator. -/
def isOperatorText : List Char → Bool
  | [c] => isOperator c
  | [c, '='] => takesEquals c
  | _ => false

theorem Spells.operator {text : String} (operator : text ∈ operatorTexts) :
    Spells Loose text.toList (Makes ⟨.operator, text, none, 0⟩) := by
  have shape : ∀ text ∈ operatorTexts, isOperatorText text.toList = true := by decide
  have known := shape text operator
  unfold isOperatorText at known
  split at known
  next c letters =>
    have back : String.ofList [c] = text := by rw [← letters, String.ofList_toList]
    rw [letters, ← back]
    exact .piece (.operator [c]) (fun rest loose => first_operator known loose) rfl
      (fun line => ⟨_, rfl, rfl⟩) nofun fun _ => rfl
  next c letters =>
    have back : String.ofList [c, '='] = text := by rw [← letters, String.ofList_toList]
    rw [letters, ← back]
    exact .piece (.operator [c, '=']) (fun rest _ => first_pair known) rfl
      (fun line => ⟨_, rfl, rfl⟩) nofun fun _ => rfl
  next => exact absurd known (by decide)

end Lox.Source
