import Lox.Proofs.Source.Cutting

/-!
# Lexemes

What the texts of tokens are, without a word about how they are found: a lexeme is of one kind and
denotes one constant, its first character tells most of what follows, and what the scanner cuts off is
the longest one at its place.
-/
namespace Lox.Source

/-- `Lexeme text kind constant`: the text is a token of the kind and denotes the constant. -/
inductive Lexeme : List Char → Kind → Option Constant → Prop where
  | number {text : List Char} :
      Number.Numeral text → Lexeme text .number (some (.number (Number.ofLiteral text)))
  | string {body : List Char} :
      '"' ∉ body → Lexeme ('"' :: body ++ ['"']) .string (some (.text (String.ofList body)))
  | word {text : List Char} :
      String.ofList text ∈ reservedWords → Lexeme text (.word (String.ofList text)) none
  | identifier {text : List Char} :
      IsName text → String.ofList text ∉ reservedWords → Lexeme text .identifier none
  | operator {text : List Char} :
      String.ofList text ∈ operatorTexts → Lexeme text .operator none

/-- No lexeme at the front of a text is longer. -/
def Longest (whole text : List Char) : Prop :=
  ∀ other kind constant, Lexeme other kind constant → other <+: whole → other.length ≤ text.length

/-- A character that is neither spacing nor the first of a lexeme. -/
def StartsNothing (c : Char) : Prop :=
  c ∉ [' ', '\t', '\r', '\n'] ∧
    ∀ text kind constant, Lexeme text kind constant → text.head? ≠ some c

/-! ### How lexemes begin -/

section

variable {c : Char} {more text : List Char} {kind : Kind} {constant : Option Constant}

theorem isSpacing_iff : Text.isSpacing c = true ↔ c ∈ [' ', '\t', '\r', '\n'] := by
  simp only [Text.isSpacing, Bool.or_eq_true, beq_iff_eq, List.mem_cons, List.not_mem_nil, or_false,
    or_assoc]

theorem isOperator_of_takesEquals (takes : takesEquals c = true) : isOperator c = true := by
  have among : ['!', '=', '<', '>'].all isOperator = true := by decide
  exact List.all_eq_true.mp among c (by simpa [takesEquals] using takes)

/-- An operator is one character, or one and an equals sign. -/
theorem operator_cases (operator : String.ofList text ∈ operatorTexts) :
    ∃ c more, text = c :: more ∧ isOperator c = true ∧
      (more = [] ∨ more = ['='] ∧ takesEquals c = true) := by
  have shape : ∀ text ∈ operatorTexts, isOperatorText text.toList = true := by decide
  have known := shape _ operator
  rw [String.toList_ofList] at known
  unfold isOperatorText at known
  split at known
  next c => exact ⟨c, [], rfl, known, .inl rfl⟩
  next c => exact ⟨c, ['='], rfl, isOperator_of_takesEquals known, .inr ⟨rfl, known⟩⟩
  next => exact absurd known (by decide)

/-- What the first character of a lexeme makes of the others, and of the whole. -/
def Continues (c : Char) (more : List Char) (kind : Kind) (constant : Option Constant) : Prop :=
  if c.isDigit then
    Number.Numeral (c :: more) ∧ kind = .number ∧
      constant = some (.number (Number.ofLiteral (c :: more)))
  else if c = '"' then
    ∃ body, more = body ++ ['"'] ∧ '"' ∉ body ∧ kind = .string ∧
      constant = some (.text (String.ofList body))
  else if isNameStart c then
    (∀ d ∈ more, isNamePart d = true) ∧ kind = nameKind (String.ofList (c :: more)) ∧ constant = none
  else
    (isOperator c = true ∧ (more = [] ∨ more = ['='] ∧ takesEquals c = true)) ∧
      kind = .operator ∧ constant = none

theorem continues_name (starts : isNameStart c = true) (parts : ∀ d ∈ more, isNamePart d = true) :
    Continues c more (nameKind (String.ofList (c :: more))) none := by
  obtain ⟨-, -, quote, digit⟩ := isNameStart_apart starts
  unfold Continues
  rw [digit, if_neg Bool.false_ne_true, if_neg quote, if_pos starts]
  exact ⟨parts, rfl, rfl⟩

theorem Lexeme.continues (lexeme : Lexeme text kind constant) :
    ∃ c more, text = c :: more ∧ Continues c more kind constant := by
  cases lexeme with
  | number numeral =>
    obtain ⟨c, more, rfl, digit⟩ := numeral.begins
    have continues : Continues c more .number (some (.number (Number.ofLiteral (c :: more)))) := by
      unfold Continues
      rw [if_pos digit]
      exact ⟨numeral, rfl, rfl⟩
    exact ⟨c, more, rfl, continues⟩
  | @string body closed => exact ⟨'"', body ++ ['"'], rfl, body, rfl, closed, rfl, rfl⟩
  | word reserved =>
    have name := isName_of_reserved reserved
    rw [String.toList_ofList] at name
    obtain ⟨c, more, rfl, starts, parts⟩ := name
    have kind : nameKind (String.ofList (c :: more)) = .word (String.ofList (c :: more)) :=
      if_pos (List.contains_iff_mem.mpr reserved)
    exact ⟨c, more, rfl, kind ▸ continues_name starts parts⟩
  | identifier name free =>
    obtain ⟨c, more, rfl, starts, parts⟩ := name
    have kind : nameKind (String.ofList (c :: more)) = .identifier :=
      if_neg fun reserved => free (List.contains_iff_mem.mp reserved)
    exact ⟨c, more, rfl, kind ▸ continues_name starts parts⟩
  | operator known =>
    obtain ⟨c, more, rfl, operator, shape⟩ := operator_cases known
    -- An operator begins like no other lexeme.
    obtain ⟨-, quote, digit, letter⟩ := isOperator_apart operator
    have continues : Continues c more .operator none := by
      unfold Continues
      rw [digit, if_neg Bool.false_ne_true, if_neg quote, letter, if_neg Bool.false_ne_true]
      exact ⟨⟨operator, shape⟩, rfl, rfl⟩
    exact ⟨c, more, rfl, continues⟩

theorem Lexeme.of_name (starts : isNameStart c = true) (parts : ∀ d ∈ more, isNamePart d = true) :
    Lexeme (c :: more) (nameKind (String.ofList (c :: more))) none := by
  rcases nameKind_eq (String.ofList (c :: more)) with ⟨kind, reserved⟩ | ⟨kind, free⟩
  · rw [kind]
    exact .word reserved
  · rw [kind]
    exact .identifier ⟨c, more, rfl, starts, parts⟩ free

/-- A text is a lexeme of one kind only, and denotes one constant. -/
theorem Lexeme.unique {other : Kind} {value : Option Constant} (one : Lexeme text kind constant)
    (two : Lexeme text other value) : kind = other ∧ constant = value := by
  obtain ⟨c, more, rfl, first⟩ := one.continues
  obtain ⟨_, _, same, second⟩ := two.continues
  cases same
  -- Both have the same first character, which settles the kind in each case.
  unfold Continues at first second
  split at first
  next digit =>
    rw [if_pos digit] at second
    exact ⟨first.2.1.trans second.2.1.symm, first.2.2.trans second.2.2.symm⟩
  next digit =>
    rw [if_neg digit] at second
    split at first
    next quote =>
      rw [if_pos quote] at second
      obtain ⟨body, rfl, -, rfl, rfl⟩ := first
      obtain ⟨_, same, -, rfl, rfl⟩ := second
      exact ⟨rfl, by rw [List.append_cancel_right same]⟩
    next quote =>
      rw [if_neg quote] at second
      split at first
      next letter =>
        rw [if_pos letter] at second
        exact ⟨first.2.1.trans second.2.1.symm, first.2.2.trans second.2.2.symm⟩
      next letter =>
        rw [if_neg letter] at second
        exact ⟨first.2.1.trans second.2.1.symm, first.2.2.trans second.2.2.symm⟩

/-- No lexeme begins with spacing. -/
theorem Lexeme.not_spacing (lexeme : Lexeme (c :: more) kind constant) :
    c ∉ [' ', '\t', '\r', '\n'] := by
  rw [← isSpacing_iff, Bool.not_eq_true]
  obtain ⟨_, _, same, continues⟩ := lexeme.continues
  cases same
  unfold Continues at continues
  split at continues
  next digit => exact (isDigit_apart digit).1
  split at continues
  next quote => subst quote; decide
  split at continues
  next letter => exact (isNameStart_apart letter).1
  next => exact (isOperator_apart continues.1.1).1

/-! ### The longest lexemes -/

theorem Longest.of_continues {rest : List Char}
    (bound : ∀ more kind constant, Continues c more kind constant → more <+: rest →
      (c :: more).length ≤ text.length) : Longest (c :: rest) text := by
  intro other kind constant lexeme front
  obtain ⟨d, more, rfl, continues⟩ := lexeme.continues
  obtain ⟨rfl, within⟩ := List.cons_prefix_cons.mp front
  exact bound more kind constant continues within

theorem length_le_takeWhile {property : Char → Bool} {front whole : List Char}
    (all : ∀ c ∈ front, property c = true) (prefixed : front <+: whole) :
    front.length ≤ (whole.takeWhile property).length := by
  obtain ⟨rest, rfl⟩ := prefixed
  rw [List.takeWhile_append_of_pos all, List.length_append]
  exact Nat.le_add_right _ _

/-- What is cut off as a number is one. -/
theorem numeral_numberText {rest : List Char} (digit : c.isDigit = true) :
    Number.Numeral (numberText (c :: rest)) := by
  have digits (text : List Char) : ∀ d ∈ text.takeWhile Char.isDigit, d.isDigit = true :=
    List.all_eq_true.mp List.all_takeWhile
  have some : (c :: rest).takeWhile Char.isDigit ≠ [] := by simp [digit]
  unfold numberText
  split
  next d after _ =>
    split
    next more =>
      refine .inr ⟨_, d :: after.takeWhile Char.isDigit, rfl, some, by simp, digits _, ?_⟩
      exact List.forall_mem_cons.mpr ⟨more, digits _⟩
    next => exact .inl ⟨some, digits _⟩
  next => exact .inl ⟨some, digits _⟩

/-- No number at the front is longer than the one that is cut off. -/
theorem length_le_numberText {whole : List Char} (numeral : Number.Numeral text)
    (front : text <+: whole) : text.length ≤ (numberText whole).length := by
  rcases numeral with ⟨-, digits⟩ | ⟨before, fraction, rfl, -, some, digits, more⟩
  · have least := length_le_takeWhile digits front
    unfold numberText
    split
    next => split <;> simp <;> omega
    next => exact least
  · obtain ⟨rest, rfl⟩ := front
    obtain ⟨d, fraction, rfl⟩ := List.exists_cons_of_ne_nil some
    obtain ⟨digit, others⟩ := List.forall_mem_cons.mp more
    have point : ∀ c, ('.' :: d :: fraction ++ rest).head? = Option.some c → c.isDigit = false := by
      simp
    have least := length_le_takeWhile others (List.prefix_append fraction rest)
    unfold numberText
    rw [List.append_assoc, takeWhile_append digits point, dropWhile_append digits point]
    simp [digit]
    omega

theorem longest_number {rest : List Char} (digit : c.isDigit = true) :
    Longest (c :: rest) (numberText (c :: rest)) := by
  apply Longest.of_continues
  intro more kind constant continues front
  unfold Continues at continues
  rw [if_pos digit] at continues
  exact length_le_numberText continues.1 (List.cons_prefix_cons.mpr ⟨rfl, front⟩)

/-- A text without some character ends where that character or nothing follows. -/
theorem takeWhile_ne {stop : Char} {body rest : List Char} (free : stop ∉ body)
    (ends : ∀ c, rest.head? = some c → c = stop) : (body ++ rest).takeWhile (· != stop) = body := by
  apply takeWhile_append
  · intro c member
    have different : c ≠ stop := fun same => free (same ▸ member)
    simpa using different
  · intro c head
    simp [ends c head]

theorem not_mem_takeWhile (stop : Char) (text : List Char) : stop ∉ text.takeWhile (· != stop) := by
  intro member
  have different := List.all_eq_true.mp List.all_takeWhile stop member
  simp at different

theorem longest_string {body rest : List Char} (closed : '"' ∉ body) :
    Longest ('"' :: (body ++ '"' :: rest)) ('"' :: (body ++ ['"'])) := by
  apply Longest.of_continues
  intro more kind constant continues front
  obtain ⟨other, rfl, free, -, -⟩ := continues
  obtain ⟨tail, same⟩ := front
  -- Both texts go up to the first quote.
  have equal := congrArg (List.takeWhile (· != '"')) same
  have quote (rest : List Char) : ∀ c, ('"' :: rest).head? = some c → c = '"' := by simp
  rw [List.append_assoc, List.singleton_append, takeWhile_ne free (quote _),
    takeWhile_ne closed (quote _)] at equal
  subst equal
  exact Nat.le_refl _

theorem longest_name {rest : List Char} (starts : isNameStart c = true) :
    Longest (c :: rest) (c :: rest.takeWhile isNamePart) := by
  obtain ⟨-, -, quote, digit⟩ := isNameStart_apart starts
  apply Longest.of_continues
  intro more kind constant continues front
  unfold Continues at continues
  rw [digit, if_neg Bool.false_ne_true, if_neg quote, if_pos starts] at continues
  exact Nat.succ_le_succ (length_le_takeWhile continues.1 front)

theorem longest_operator {rest : List Char} (operator : isOperator c = true) {more : List Char}
    (most : more = ['='] ∨ ¬(takesEquals c = true ∧ rest.head? = some '=')) :
    Longest (c :: rest) (c :: more) := by
  obtain ⟨-, quote, digit, letter⟩ := isOperator_apart operator
  apply Longest.of_continues
  intro other kind constant continues front
  unfold Continues at continues
  rw [digit, if_neg Bool.false_ne_true, if_neg quote, letter, if_neg Bool.false_ne_true] at continues
  obtain ⟨⟨-, rfl | ⟨rfl, takes⟩⟩, -⟩ := continues
  · simp
  -- Only an equals sign can follow, and then it was taken or may not be.
  · rcases most with rfl | alone
    · exact Nat.le_refl _
    · obtain ⟨tail, rfl⟩ := front
      exact absurd ⟨takes, rfl⟩ alone

end

end Lox.Source
