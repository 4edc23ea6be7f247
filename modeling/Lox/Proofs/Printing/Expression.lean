import Lox.Proofs.Grammar.Acceptance
import Lox.Proofs.Source.Cutting

/-!
# The text of an expression means the expression

The text of an expression with all its groupings written is cut into tokens that derive the
expression, from the symbol of its precedence. An operand that falls short of what its place calls
for stands in parentheses, so it derives from the symbol of that place. The tokens are those of the
tree but for their lines.
-/
namespace Lox

open Grammar Source

/-! ### Symbols and precedences -/

/-- The symbol of the expressions that bind at least so tightly. -/
def symbolAt (least : Nat) : Symbol :=
  if least < 2 then .assignment
  else if least < 8 then .operation (levels.drop (least - 2))
  else if least = 8 then .unary
  else if least = 9 then .call
  else .primary

section

variable {room : Nat} {tokens : List Token} {expr : Expr}

theorem derives_looser (level : Nat) (derived : Derives room (symbolAt (level + 1)) tokens expr) :
    Derives room (symbolAt level) tokens expr := by
  match level with
  | 0 => exact derived
  | 1 => exact .operation derived
  | 2 | 3 | 4 | 5 | 6 => exact .operand derived
  | 7 => exact .operand (.unary derived)
  | 8 => exact .call derived
  | 9 => exact .primary derived
  | _ + 10 => exact derived

/-- What binds more tightly may stand where less is called for. -/
theorem derives_loosen {least level : Nat} (enough : least ≤ level)
    (derived : Derives room (symbolAt level) tokens expr) :
    Derives room (symbolAt least) tokens expr := by
  induction enough with
  | refl => exact derived
  | step _ ih => exact ih (derives_looser _ derived)

/-- Operands of a level and of the one above it are joined by an operator of the level. -/
theorem derives_join {index : Nat} {level : Level} {before after : List Token} {op : Token}
    {left right : Expr} (known : levels[index]? = some level)
    (first : Derives room (symbolAt (index + 2)) before left)
    (spelled : ∃ text ∈ level.operators, op.spells text = true)
    (second : Derives room (symbolAt (index + 3)) after right) :
    Derives room (symbolAt (index + 2)) (before ++ op :: after) (level.join left op right) := by
  match index, known with
  | 0, rfl | 1, rfl | 2, rfl | 3, rfl | 4, rfl => exact .join first spelled second
  | 5, rfl => exact .join first spelled (.unary second)

end

/-- The operators that join two operands, by whether the left one may decide. -/
def joining : Bool → List String
  | false => binaryOperators
  | true => ["or", "and"]

/-- Every operator that joins operands belongs to a level of its kind. -/
theorem joining_level (short : Bool) {text : String} (known : text ∈ joining short) :
    ∃ index level, levels[index]? = some level ∧ text ∈ level.operators ∧
      level.shortCircuit = short ∧ Precedence.ofOperator? text = some (index + 2) := by
  have all : ∀ short, ∀ text ∈ joining short, ∃ entry ∈ levels.zipIdx, text ∈ entry.1.operators ∧
      entry.1.shortCircuit = short ∧ Precedence.ofOperator? text = some (entry.2 + 2) := by decide
  obtain ⟨⟨level, index⟩, member, known⟩ := all short text known
  exact ⟨index, level, List.mem_zipIdx_iff_getElem?.mp member, known⟩

/-- Both places beside an operator come before those of single tokens. -/
theorem level_places {index : Nat} {level : Level} (known : levels[index]? = some level) :
    index + 2 ≤ Precedence.primary ∧ index + 3 ≤ Precedence.primary := by
  have few : index < 6 := (List.getElem?_eq_some_iff.mp known).1
  change _ ≤ 10 ∧ _ ≤ 10
  omega

/-! ### How texts begin -/

/-- The first character of a text does not go on with an operator before it. -/
def Begins (text : List Char) : Prop := ∃ c more, text = c :: more ∧ c ≠ '=' ∧ c ≠ '/'

theorem Begins.loose {text : List Char} (begins : Begins text) (rest : List Char) :
    Loose (text ++ rest) := by
  obtain ⟨c, more, rfl, equals, slash⟩ := begins
  exact loose_cons equals slash

theorem Begins.append {text : List Char} (begins : Begins text) (rest : List Char) :
    Begins (text ++ rest) := by
  obtain ⟨c, more, rfl, known⟩ := begins
  exact ⟨c, more ++ rest, rfl, known⟩

theorem begins_name {text : List Char} (name : IsName text) : Begins text := by
  obtain ⟨c, more, rfl, starts, -⟩ := name
  refine ⟨c, more, rfl, ?_, (isNameStart_apart starts).2.1⟩
  rintro rfl
  exact absurd starts (by decide)

theorem begins_numeral {text : List Char} (numeral : Number.Numeral text) : Begins text := by
  obtain ⟨c, more, rfl, digit⟩ := numeral.begins
  refine ⟨c, more, rfl, ?_, (isDigit_apart digit).2.1⟩
  rintro rfl
  exact absurd digit (by decide)

theorem Value.Printable.begins {value : Value} (printable : value.Printable) :
    Begins value.source := by
  cases value with
  | nil => exact ⟨'n', ['i', 'l'], rfl, by decide, by decide⟩
  | bool value =>
    cases value with
    | true => exact ⟨'t', ['r', 'u', 'e'], rfl, by decide, by decide⟩
    | false => exact ⟨'f', ['a', 'l', 's', 'e'], rfl, by decide, by decide⟩
  | text value => exact ⟨'"', _, rfl, by decide, by decide⟩
  | number value => exact begins_numeral (Number.ofLiteral_literal printable.1 printable.2).1
  | callable target => exact printable.elim

namespace Expr

theorem begins_guarded {expr : Expr} (begins : Begins expr.text) (least : Nat) :
    Begins (expr.guarded least).text := by
  unfold guarded
  split
  · exact ⟨'(', _, rfl, by decide, by decide⟩
  · exact begins

theorem Printable.begins {expr : Expr} (printable : expr.Printable) : Begins expr.written.text := by
  induction printable with
  | literal value => exact value.begins
  | name token => exact begins_name token.letters
  | grouping => exact ⟨'(', _, rfl, by decide, by decide⟩
  | @unary op operand known =>
    have all : ∀ text ∈ ["!", "-"], text.toList = ['!'] ∨ text.toList = ['-'] := by decide
    change Begins (op.lexeme.toList ++ (operand.written.guarded Precedence.unary).text)
    rcases all _ known.text with letters | letters
    · rw [letters]
      exact ⟨'!', _, rfl, by decide, by decide⟩
    · rw [letters]
      exact ⟨'-', _, rfl, by decide, by decide⟩
  | assign target => exact ((begins_name target.letters).append _).append _
  | binary _ _ _ ih | logical _ _ _ ih => exact ((begins_guarded ih _).append _).append _
  | call _ _ _ _ ih => exact (begins_guarded ih _).append _

end Expr

/-! ### Tokens without their lines -/

section

variable {token : Token} {text : String}

/-- A token made for an operator is spelled like it. -/
theorem spells_of_operator (made : token.bare = ⟨.operator, text, none, 0⟩) :
    token.spells text = true := by
  rw [← Token.spells_bare, made]
  simp [Token.spells]

/-- A token made for a word is spelled like it. -/
theorem spells_of_word (made : token.bare = ⟨.word text, text, none, 0⟩) :
    token.spells text = true := by
  rw [← Token.spells_bare, made]
  simp [Token.spells]

/-- A token made like another is spelled like it. -/
theorem spells_of_bare {made : Token} (same : made.bare = token.bare) (plain : token.kind ≠ .string) :
    made.spells token.lexeme = true := by
  rw [← Token.spells_bare, same, Token.spells_bare, Token.spells_iff]
  exact ⟨plain, rfl⟩

theorem Token.Operates.bare_eq {texts : List String} (known : token.Operates texts) :
    token.bare = ⟨.operator, token.lexeme, none, 0⟩ := by
  unfold Token.bare
  rw [known.kind, known.constant]

theorem Token.Names.bare_eq (known : token.Names) :
    token.bare = ⟨nameKind token.lexeme, token.lexeme, none, 0⟩ := by
  have kind : nameKind token.lexeme = .identifier := by
    rcases nameKind_eq token.lexeme with ⟨-, reserved⟩ | ⟨kind, -⟩
    · exact absurd reserved known.free
    · exact kind
  unfold Token.bare
  rw [kind, known.kind, known.constant]

theorem Token.Names.spells (known : token.Names) :
    Spells Borders token.lexeme.toList (Makes token.bare) := by
  have other : token.lexeme ≠ "for" := fun same => known.free (same ▸ by decide)
  have spelled := Spells.name known.letters (by rwa [String.ofList_toList])
  rw [String.ofList_toList, ← known.bare_eq] at spelled
  exact spelled

theorem Token.Operates.spells {texts : List String} (known : token.Operates texts)
    (among : ∀ text ∈ texts, text ∈ operatorTexts) :
    Spells Loose token.lexeme.toList (Makes token.bare) := by
  rw [known.bare_eq]
  exact Spells.operator (among _ known.text)

theorem spells_reserved (reserved : text ∈ reservedWords) (other : text ≠ "for") :
    Spells Borders text.toList (Makes ⟨.word text, text, none, 0⟩) := by
  have spelled := Spells.name (isName_of_reserved reserved) (by rwa [String.ofList_toList])
  have kind : nameKind text = .word text := by
    rcases nameKind_eq text with ⟨kind, -⟩ | ⟨-, free⟩
    · exact kind
    · exact absurd reserved free
  rw [String.ofList_toList, kind] at spelled
  exact spelled

/-- A single token with a spelling. -/
def Says (text : String) (tokens : List Token) : Prop :=
  ∃ token, tokens = [token] ∧ token.spells text = true

theorem spells_word (reserved : text ∈ reservedWords) (other : text ≠ "for") :
    Spells Borders text.toList (Says text) :=
  (spells_reserved reserved other).mono fun _ ⟨token, only, made⟩ => ⟨token, only, spells_of_word made⟩

theorem spells_sign (operator : text ∈ operatorTexts) : Spells Loose text.toList (Says text) :=
  (Spells.operator operator).mono fun _ ⟨token, only, made⟩ =>
    ⟨token, only, spells_of_operator made⟩

theorem Token.Connects.bare_eq (known : token.Connects) :
    token.bare = ⟨.word token.lexeme, token.lexeme, none, 0⟩ := by
  unfold Token.bare
  rw [known.constant, ← known.kind]

theorem Token.Connects.spells (known : token.Connects) :
    Spells Borders token.lexeme.toList (Makes token.bare) := by
  have among : ∀ text ∈ ["or", "and"], text ∈ reservedWords ∧ text ≠ "for" := by decide
  obtain ⟨reserved, other⟩ := among _ known.text
  rw [known.bare_eq]
  exact spells_reserved reserved other

end

/-- A text with a space before it. -/
theorem spells_spaced {text : Line} {meaning : List Token → Prop} {fits : List Char → Prop}
    (spelled : Spells fits text meaning) : Spells fits (' ' :: text) meaning :=
  (Spells.spacing (by decide)).append spelled (fun _ _ => trivial) fun _ _ none known => by
    rw [none]
    exact known

/-- A name with the equals sign that follows it. -/
theorem Token.Names.spells_equals {target : Token} (known : target.Names) :
    Spells Loose (target.lexeme.toList ++ ' ' :: "=".toList) fun tokens => ∃ name token,
      tokens = [name, token] ∧ name.bare = target.bare ∧ token.spells "=" = true := by
  have equals : Spells Loose "=".toList (Says "=") := spells_sign (by decide)
  refine known.spells.append (spells_spaced equals) (fun _ _ => borders_cons (by decide)) ?_
  rintro _ _ ⟨name, rfl, same⟩ ⟨token, rfl, shows⟩
  exact ⟨name, token, rfl, same, shows⟩

/-! ### Constants -/

/-- A constant is spelled as a single token that stands for it. -/
theorem Value.Printable.spells {value : Value} (printable : value.Printable) :
    Spells Borders value.source
      fun tokens => ∃ token, tokens = [token] ∧ Leaf token (.literal value) := by
  have word (text : String) (reserved : text ∈ reservedWords) (other : text ≠ "for")
      (leaf : ∀ token : Token, token.kind = .word text → Leaf token (.literal value)) :
      Spells Borders text.toList
        fun tokens => ∃ token, tokens = [token] ∧ Leaf token (.literal value) :=
    (spells_reserved reserved other).mono fun _ ⟨token, only, made⟩ =>
      ⟨token, only, leaf token (congrArg Token.kind made)⟩
  cases value with
  | nil => exact word "nil" (by decide) (by decide) fun _ => .nil
  | bool value =>
    cases value with
    | true => exact word "true" (by decide) (by decide) fun _ => .yes
    | false => exact word "false" (by decide) (by decide) fun _ => .no
  | text value =>
    refine ((Spells.string printable).narrow fun _ _ => trivial).mono ?_
    rintro _ ⟨token, rfl, made⟩
    refine ⟨token, rfl, ?_⟩
    have constant : token.value = .text value := by
      have same := congrArg Token.constant made
      change token.constant = some (.text (String.ofList value.toList)) at same
      rw [Token.value, same, String.ofList_toList]
    exact constant ▸ .text (congrArg Token.kind made)
  | number value =>
    obtain ⟨numeral, back⟩ := Number.ofLiteral_literal printable.1 printable.2
    refine (Spells.number numeral).mono ?_
    rintro _ ⟨token, rfl, made⟩
    refine ⟨token, rfl, ?_⟩
    have constant : token.value = .number value := by
      have same := congrArg Token.constant made
      change token.constant = some (.number (Number.ofLiteral (Number.literal value))) at same
      rw [Token.value, same, back]
    exact constant ▸ .number (congrArg Token.kind made)
  | callable target => exact printable.elim

/-! ### Expressions -/

/-- Some tokens derive an expression from a symbol, but for their lines. -/
def Expr.Means (room : Nat) (symbol : Symbol) (expr : Expr) (tokens : List Token) : Prop :=
  ∃ tree, Derives room symbol tokens tree ∧ tree.bare = expr.bare

/-- A text between parentheses. -/
theorem spells_parenthesized {text : Line} {meaning : List Token → Prop}
    {fits : List Char → Prop} (inner : Spells fits text meaning)
    (fitting : ∀ rest, fits (')' :: rest)) (loose : ∀ rest, Loose (text ++ ')' :: rest)) :
    Spells Loose (parenthesized text) fun tokens => ∃ opening between closing,
      tokens = opening :: between ++ [closing] ∧ opening.spells "(" = true ∧ meaning between ∧
        closing.bare = ⟨.operator, ")", none, 0⟩ := by
  have opening : Spells Loose "(".toList (Makes ⟨.operator, "(", none, 0⟩) :=
    .operator (by decide)
  have closing : Spells Loose ")".toList (Makes ⟨.operator, ")", none, 0⟩) :=
    .operator (by decide)
  have back : Spells Loose (text ++ ")".toList) fun tokens => ∃ between closing,
      tokens = between ++ [closing] ∧ meaning between ∧ closing.bare = ⟨.operator, ")", none, 0⟩ := by
    refine inner.append closing (fun rest _ => fitting rest) ?_
    rintro between _ known ⟨token, rfl, made⟩
    exact ⟨between, token, rfl, known, made⟩
  change Spells Loose ("(".toList ++ (text ++ ")".toList)) _
  refine opening.append back (fun rest _ => ?_) ?_
  · rw [List.append_assoc]
    exact loose rest
  · rintro _ _ ⟨token, rfl, made⟩ ⟨between, closing, rfl, known, last⟩
    exact ⟨token, between, closing, rfl, spells_of_operator made, known, last⟩

namespace Expr

variable {room : Nat}

/-- The text of an expression means the expression, with so much room as it needs. -/
def Spelled (expr : Expr) : Prop :=
  ∀ room, expr.nesting ≤ room →
    Spells Borders expr.text (expr.Means room (symbolAt expr.tightness))

/-- What an expression needs in a place, its text means there. -/
def SpelledAt (least : Nat) (expr : Expr) : Prop :=
  ∀ room, expr.nesting ≤ room → Spells Borders expr.text (expr.Means room (symbolAt least))

/-- A standalone expression opens a construct. -/
theorem Means.expression {expr : Expr} {tokens : List Token}
    (means : expr.Means room (symbolAt Precedence.assignment) tokens) :
    expr.Means (room + 1) .expression tokens := by
  obtain ⟨tree, derived, same⟩ := means
  exact ⟨tree, .expression derived, same⟩

theorem SpelledAt.grouping {expr : Expr} (spelled : expr.SpelledAt Precedence.assignment)
    (begins : Begins expr.text) : (Expr.grouping expr).Spelled := by
  intro room enough
  obtain ⟨room, few, rfl⟩ := room_of_le enough
  have inner := spelled room few
  refine ((spells_parenthesized inner (fun _ => borders_cons (by decide))
    fun _ => begins.loose _).narrow fun _ => Borders.loose).mono ?_
  rintro _ ⟨opening, between, closing, rfl, opened, means, closed⟩
  obtain ⟨tree, derived, same⟩ := means.expression
  refine ⟨.grouping tree, .grouping opened derived (spells_of_operator closed), ?_⟩
  exact congrArg Expr.grouping same

theorem Spelled.looser {expr : Expr} {least : Nat} (spelled : expr.Spelled)
    (enough : least ≤ expr.tightness) : expr.SpelledAt least := by
  intro room shallow
  refine (spelled room shallow).mono fun tokens ⟨tree, derived, same⟩ => ?_
  exact ⟨tree, derives_loosen enough derived, same⟩

/-- In parentheses where it falls short, an expression means what its place calls for. -/
theorem Spelled.guarded {expr : Expr} (spelled : expr.Spelled) (begins : Begins expr.text)
    (some : Precedence.assignment ≤ expr.tightness) {least : Nat}
    (few : least ≤ Precedence.primary) : (expr.guarded least).SpelledAt least := by
  unfold Expr.guarded
  split
  · exact (SpelledAt.grouping (spelled.looser some) begins).looser few
  next enough => exact spelled.looser (Nat.le_of_not_lt enough)

section

variable {level : Level} {left right : Expr} {op : Token}

/-- An operator between operands of its level. -/
theorem SpelledAt.join {index : Nat} {fits : List Char → Prop} (first : left.SpelledAt (index + 2))
    (second : right.SpelledAt (index + 3)) (known : levels[index]? = some level)
    (member : op.lexeme ∈ level.operators)
    (binds : Precedence.ofOperator? op.lexeme = some (index + 2)) (plain : op.kind ≠ .string)
    (spelled : Spells fits op.lexeme.toList (Makes op.bare)) (fitting : ∀ rest, fits (' ' :: rest)) :
    (level.join left op right).Spelled := by
  intro room shallow
  rw [join_nesting] at shallow
  rw [join_text, join_tightness binds]
  have before := first room (Nat.le_trans (Nat.le_max_left _ _) shallow)
  have after := spells_spaced (second room (Nat.le_trans (Nat.le_max_right _ _) shallow))
  have front : Spells fits (left.text ++ ' ' :: op.lexeme.toList) fun tokens => ∃ between token,
      tokens = between ++ [token] ∧ left.Means room (symbolAt (index + 2)) between ∧
        token.bare = op.bare := by
    refine before.append (spells_spaced spelled) (fun _ _ => borders_cons (by decide)) ?_
    rintro between _ means ⟨token, rfl, made⟩
    exact ⟨between, token, rfl, means, made⟩
  refine front.append after (fun _ _ => fitting _) ?_
  rintro _ back ⟨between, token, rfl, ⟨one, derived, same⟩, made⟩ ⟨two, more, again⟩
  refine ⟨level.join one token two, ?_, ?_⟩
  · simpa using derives_join known derived ⟨op.lexeme, member, spells_of_bare made plain⟩ more
  · rw [join_bare, join_bare, same, again, made]

end

theorem SpelledAt.unary {operand : Expr} {op : Token} (spelled : operand.SpelledAt Precedence.unary)
    (begins : Begins operand.text) (known : op.Operates ["!", "-"]) :
    (Expr.unary op operand).Spelled := by
  intro room enough
  obtain ⟨room, few, rfl⟩ := room_of_le enough
  have inner := spelled room few
  refine (known.spells (by decide)).append inner (fun rest _ => begins.loose rest) ?_
  rintro _ tokens ⟨token, rfl, made⟩ ⟨tree, derived, same⟩
  have text := spells_of_bare made (by rw [known.kind]; decide)
  have sign : token.spells "!" = true ∨ token.spells "-" = true := by
    have either : op.lexeme = "!" ∨ op.lexeme = "-" := by simpa using known.text
    rcases either with same | same
    · exact .inl (same ▸ text)
    · exact .inr (same ▸ text)
  refine ⟨.unary token tree, .sign sign derived, ?_⟩
  change Expr.unary token.bare tree.bare = .unary op.bare operand.bare
  rw [made, same]

theorem SpelledAt.assign {value : Expr} {target : Token}
    (spelled : value.SpelledAt Precedence.assignment) (known : target.Names) :
    (Expr.assign target value).Spelled := by
  intro room enough
  have whole : (Expr.assign target value).text =
      (target.lexeme.toList ++ ' ' :: "=".toList) ++ ' ' :: value.text := by simp [Expr.text]
  rw [whole]
  refine known.spells_equals.append (spells_spaced (spelled room enough))
    (fun _ _ => loose_cons (by decide) (by decide)) ?_
  rintro _ tokens ⟨name, token, rfl, made, equals⟩ ⟨tree, derived, same⟩
  have kind : name.kind = .identifier := (congrArg Token.kind made).trans known.kind
  refine ⟨.assign name tree, .assign kind equals derived, ?_⟩
  change Expr.assign name.bare tree.bare = .assign target.bare value.bare
  rw [made, same]

/-- Arguments after the first, each behind a comma. -/
theorem SpelledAt.arguments {exprs : List Expr}
    (all : ∀ expr ∈ exprs, expr.SpelledAt Precedence.assignment)
    (shallow : nestingAll exprs ≤ room) :
    Spells Borders (exprs.flatMap fun expr => [',', ' '] ++ expr.text) fun tokens =>
      ∃ others : List Argument, (∀ argument ∈ others, argument.comma.spells "," = true) ∧
        (∀ argument ∈ others, Derives room .expression argument.tokens argument.expr) ∧
        tokens = others.flatMap Argument.span ∧
        others.map (·.expr.bare) = exprs.map bare := by
  induction exprs with
  | nil =>
    refine (Spells.nil.narrow fun _ _ => trivial).mono ?_
    rintro _ rfl
    exact ⟨[], nofun, nofun, rfl, rfl⟩
  | cons expr exprs ih =>
    rw [List.forall_mem_cons] at all
    have enough := Nat.le_trans (Nat.le_max_left _ _) shallow
    obtain ⟨room, few, rfl⟩ := room_of_le enough
    have first := all.1 room few
    have rest := ih all.2 (Nat.le_trans (Nat.le_max_right _ _) shallow)
    have comma : Spells Loose ",".toList (Makes ⟨.operator, ",", none, 0⟩) := .operator (by decide)
    have front : Spells Borders (",".toList ++ ' ' :: expr.text) fun tokens => ∃ token between,
        tokens = token :: between ∧ token.spells "," = true ∧
          expr.Means (room + 1) .expression between := by
      refine comma.append (spells_spaced first) (fun _ _ => loose_cons (by decide) (by decide)) ?_
      rintro _ between ⟨token, rfl, made⟩ means
      exact ⟨token, between, rfl, spells_of_operator made, means.expression⟩
    rw [List.flatMap_cons]
    refine front.append rest (fun rest borders => ?_) ?_
    · cases exprs with
      | nil => exact borders
      | cons => exact borders_cons (by decide)
    · rintro _ _ ⟨token, between, rfl, spelled, tree, derived, same⟩
        ⟨others, commas, known, rfl, again⟩
      refine ⟨⟨token, between, tree⟩ :: others, List.forall_mem_cons.mpr ⟨spelled, commas⟩,
        List.forall_mem_cons.mpr ⟨derived, known⟩, rfl, ?_⟩
      rw [List.map_cons, List.map_cons, same, again]

/-- A list with something between its members, the first and the others. -/
theorem intercalate_cons {α : Type} (separator first : List α) (others : List (List α)) :
    separator.intercalate (first :: others) = first ++ others.flatMap (separator ++ ·) := by
  induction others generalizing first with
  | nil => simp [List.intercalate]
  | cons next others ih =>
    have step : separator.intercalate (first :: next :: others) =
        first ++ (separator ++ separator.intercalate (next :: others)) := by
      simp [List.intercalate]
    rw [step, ih, List.flatMap_cons, List.append_assoc]

/-- Some arguments with commas between them. -/
theorem SpelledAt.argumentList {first : Expr} {others : List Expr}
    (spelled : first.SpelledAt Precedence.assignment)
    (all : ∀ expr ∈ others, expr.SpelledAt Precedence.assignment)
    (shallow : nestingAll (first :: others) ≤ room + 1) :
    Spells Borders ([',', ' '].intercalate (textAll (first :: others))) fun tokens =>
      ∃ between : List Token, ∃ more : List Argument,
        tokens = between ++ more.flatMap Argument.span ∧
        first.Means (room + 1) .expression between ∧
        (∀ argument ∈ more, argument.comma.spells "," = true) ∧
        (∀ argument ∈ more, Derives (room + 1) .expression argument.tokens argument.expr) ∧
        more.map (·.expr.bare) = others.map bare := by
  obtain ⟨enough, rest⟩ := Nat.max_le.mp shallow
  have front := spelled room (Nat.le_of_succ_le_succ enough)
  have back := SpelledAt.arguments all rest
  rw [textAll, intercalate_cons, textAll_eq_map, List.flatMap_map]
  refine front.append back (fun rest borders => ?_) ?_
  · cases others with
    | nil => exact borders
    | cons => exact borders_cons (by decide)
  · rintro between _ means ⟨more, commas, derived, rfl, same⟩
    exact ⟨between, more, rfl, means.expression, commas, derived, same⟩

theorem SpelledAt.call {callee : Expr} {closing : Token} {arguments : List Expr}
    (spelled : callee.SpelledAt Precedence.call) (known : closing.Operates [")"])
    (all : ∀ expr ∈ arguments, expr.SpelledAt Precedence.assignment)
    (begins : ∀ expr ∈ arguments, Begins expr.text) (few : arguments.length ≤ maxArguments) :
    (Expr.call callee closing arguments).Spelled := by
  intro room enough
  have before := spelled room (Nat.le_trans (Nat.le_max_left _ _) enough)
  have shallow : nestingAll arguments ≤ room := Nat.le_trans (Nat.le_max_right _ _) enough
  have last : closing.lexeme = ")" := by simpa using known.text
  have made : closing.bare = ⟨.operator, ")", none, 0⟩ := last ▸ known.bare_eq
  cases arguments with
  | nil =>
    have given := spells_parenthesized Spells.nil (fun _ => trivial)
      fun _ => loose_cons (by decide) (by decide)
    refine before.append (given.narrow fun _ => Borders.loose) (fun _ _ => borders_cons (by decide)) ?_
    rintro tokens _ ⟨tree, derived, same⟩ ⟨opening, _, last, rfl, opened, rfl, closed⟩
    refine ⟨.call tree last [], .callBare derived opened (spells_of_operator closed), ?_⟩
    change Expr.call tree.bare last.bare [] = .call callee.bare closing.bare []
    rw [same, closed, made]
  | cons first others =>
    rw [List.forall_mem_cons] at all begins
    obtain ⟨room, -, rfl⟩ := room_of_le (Nat.le_trans (Nat.le_max_left _ _) shallow)
    have given := all.1.argumentList all.2 shallow
    -- What follows the parenthesis begins the first argument, so nothing runs into it.
    have starts (rest : List Char) :
        Loose ([',', ' '].intercalate (textAll (first :: others)) ++ ')' :: rest) := by
      rw [textAll, intercalate_cons]
      exact (begins.1.append _).loose _
    have enclosed := spells_parenthesized given (fun _ => borders_cons (by decide)) starts
    refine before.append (enclosed.narrow fun _ => Borders.loose)
      (fun _ _ => borders_cons (by decide)) ?_
    rintro tokens _ ⟨tree, derived, same⟩ ⟨opening, _, last, rfl, opened,
      ⟨between, more, rfl, ⟨one, front, again⟩, commas, back, equal⟩, closed⟩
    have count : more.length = others.length := by simpa using congrArg List.length equal
    refine ⟨.call tree last (one :: more.map Argument.expr), ?_, ?_⟩
    · have whole := Derives.callWith derived opened front commas back (spells_of_operator closed)
        (count ▸ few)
      change Derives _ .call _ _
      simpa using whole
    · change Expr.call tree.bare last.bare (one.bare :: rebuildAll Token.bare id _) =
        .call callee.bare closing.bare (_ :: rebuildAll Token.bare id _)
      rw [rebuildAll_eq_map, rebuildAll_eq_map, List.map_map, same, again, closed, made]
      exact congrArg _ (congrArg _ equal)

theorem Printable.spelled {expr : Expr} (printable : expr.Printable) : expr.written.Spelled := by
  -- Parentheses are put where the place asks for them, so every operand can be read in its place.
  have at_ {expr : Expr} (printable : expr.Printable) (spelled : expr.written.Spelled) {least : Nat}
      (few : least ≤ Precedence.primary) : (expr.written.guarded least).SpelledAt least := by
    refine spelled.guarded printable.begins ?_ few
    rw [tightness_written]
    exact printable.leveled.precedence.2
  induction printable with
  | literal value =>
    intro room _
    refine value.spells.mono ?_
    rintro _ ⟨token, rfl, leaf⟩
    exact ⟨_, .leaf leaf, rfl⟩
  | name known =>
    intro room _
    refine known.spells.mono ?_
    rintro _ ⟨token, rfl, made⟩
    have kind : token.kind = .identifier := (congrArg Token.kind made).trans known.kind
    exact ⟨.name token, .leaf (.name kind), congrArg Expr.name made⟩
  | grouping inner ih =>
    exact (at_ inner ih (by decide)).grouping (begins_guarded inner.begins _)
  | unary op operand ih =>
    exact (at_ operand ih (by decide)).unary (begins_guarded operand.begins _) op
  | assign target value ih => exact (at_ value ih (by decide)).assign target
  | @binary op left right operates before after first second =>
    obtain ⟨index, level, known, member, both, binds⟩ := joining_level false operates.text
    obtain ⟨loose, tight⟩ := level_places known
    have spelled := SpelledAt.join (at_ before first loose) (at_ after second tight) known member
      binds (by rw [operates.kind]; decide) (operates.spells (by decide))
      fun _ => loose_cons (by decide) (by decide)
    rw [written_binary binds]
    unfold Level.join at spelled
    rw [both] at spelled
    exact spelled
  | @logical op left right connects before after first second =>
    obtain ⟨index, level, known, member, both, binds⟩ := joining_level true connects.text
    obtain ⟨loose, tight⟩ := level_places known
    have spelled := SpelledAt.join (at_ before first loose) (at_ after second tight) known member
      binds (by rw [connects.kind]; nofun) connects.spells fun _ => borders_cons (by decide)
    rw [written_logical binds]
    unfold Level.join at spelled
    rw [both] at spelled
    exact spelled
  | @call callee closing arguments printable closes each few first others =>
    change Expr.Spelled (.call (callee.written.guarded _) closing
      ((rebuildAll id guard arguments).map (guarded Precedence.assignment)))
    rw [rebuildAll_eq_map, List.map_map]
    refine (at_ printable first (by decide)).call closes ?_ ?_ (by simpa using few)
    · rintro _ member
      obtain ⟨expr, known, rfl⟩ := List.mem_map.mp member
      exact at_ (each expr known) (others expr known) (by decide)
    · rintro _ member
      obtain ⟨expr, known, rfl⟩ := List.mem_map.mp member
      exact begins_guarded (each expr known).begins _

/-- An expression that stands alone means itself. -/
theorem Printable.standing {expr : Expr} (printable : expr.Printable) :
    expr.written.SpelledAt Precedence.assignment := by
  refine printable.spelled.looser ?_
  rw [tightness_written]
  exact printable.leveled.precedence.2

end Expr

end Lox
