import Lox.Proofs.Printing.Expression

/-!
# The text of a statement means the statement

However far its lines are indented, the text of a statement is cut into tokens that derive the
statement, but for their lines. White space stands only where lexemes are apart anyway, so it does
not matter how much of it there is.
-/
namespace Lox

open Grammar Source

/-! ### Lines laid out -/

/-- A text that shows some lines: each of them ended, with any white space before it. -/
inductive Laid : List Line → List Char → Prop where
  | none : Laid [] []
  | line {margin text : List Char} {line : Line} {lines : List Line} :
      (∀ c ∈ margin, Text.isSpacing c = true) → Laid lines text →
      Laid (line :: lines) (margin ++ line ++ '\n' :: text)

namespace Laid

variable {text margin : List Char} {line : Line} {lines : List Line}

/-- Lines that are only ended are laid out. -/
theorem ended (lines : List Line) : Laid lines (lines.flatMap (· ++ ['\n'])) := by
  induction lines with
  | nil => exact .none
  | cons line lines ih =>
    have laid : Laid (line :: lines) ([] ++ line ++ '\n' :: _) := .line nofun ih
    simpa using laid

theorem split {first second : List Line} (laid : Laid (first ++ second) text) :
    ∃ one two, text = one ++ two ∧ Laid first one ∧ Laid second two := by
  induction first generalizing text with
  | nil => exact ⟨[], text, rfl, .none, laid⟩
  | cons line first ih =>
    cases laid with
    | line spacing laid =>
      obtain ⟨one, two, rfl, front, back⟩ := ih laid
      exact ⟨_, two, by simp, .line spacing front, back⟩

/-- Indented lines are laid out as they are without the indentation. -/
theorem of_indented (laid : Laid (indented lines) text) : Laid lines text := by
  have blank : ∀ c ∈ "    ".toList, Text.isSpacing c = true := forall_mem_of_all (by decide)
  induction lines generalizing text with
  | nil => exact laid
  | cons line lines ih =>
    cases laid with
    | @line margin rest _ _ spacing laid =>
      have wider : Laid (line :: lines) ((margin ++ "    ".toList) ++ line ++ '\n' :: rest) :=
        .line (fun c member => (List.mem_append.mp member).elim (spacing c) (blank c)) (ih laid)
      simpa using wider

/-- There may be more white space before lines. -/
theorem after (spacing : ∀ c ∈ margin, Text.isSpacing c = true) (laid : Laid lines text)
    (some : lines ≠ []) : Laid lines (margin ++ text) := by
  cases laid with
  | none => exact absurd rfl some
  | @line inner rest line lines blank laid =>
    have wider : Laid (line :: lines) ((margin ++ inner) ++ line ++ '\n' :: rest) :=
      .line (fun c member => (List.mem_append.mp member).elim (spacing c) (blank c)) laid
    simpa using wider

/-- A body is laid out behind its header, on the same line or not. -/
theorem under {header : Line} {body : Stmt} (laid : Laid (Stmt.under header body lines) text)
    (some : lines ≠ []) : ∃ margin rest, text = margin ++ (header ++ rest) ∧
      (∀ c ∈ margin, Text.isSpacing c = true) ∧ Laid lines rest ∧
        ∀ more, Borders (rest ++ more) := by
  unfold Stmt.under at laid
  split at laid
  next _ opening more =>
    cases laid with
    | @line margin text _ _ spacing laid =>
      have rest : Laid (opening :: more) ([' '] ++ opening ++ '\n' :: text) :=
        .line (forall_mem_of_all (by decide)) laid
      exact ⟨margin, _, by simp, spacing, rest, fun _ => borders_cons (by decide)⟩
  next =>
    cases laid with
    | @line margin text _ _ spacing laid =>
      have rest : Laid lines (['\n'] ++ text) := laid.of_indented.after (forall_mem_of_all (by decide)) some
      exact ⟨margin, _, by simp, spacing, rest, fun _ => borders_cons (by decide)⟩

end Laid

theorem spells_margin {margin : List Char} (spacing : ∀ c ∈ margin, Text.isSpacing c = true) :
    Spells Anything margin (· = []) := by
  induction margin with
  | nil => exact .nil
  | cons c margin ih =>
    rw [List.forall_mem_cons] at spacing
    refine (Spells.spacing spacing.1).append (ih spacing.2) (fun _ _ => trivial) ?_
    rintro _ _ rfl rfl
    rfl

section

variable {text margin : List Char} {meaning : List Token → Prop} {fits : List Char → Prop}

/-- White space before a text is nothing to it. -/
theorem spells_after (spacing : ∀ c ∈ margin, Text.isSpacing c = true)
    (spelled : Spells fits text meaning) : Spells fits (margin ++ text) meaning :=
  (spells_margin spacing).append spelled (fun _ _ => trivial) fun _ _ none known => by
    rw [none]
    exact known

/-- A single line, laid out. -/
theorem spells_line {line : Line} (spelled : Spells Loose line meaning)
    (laid : Laid [line] text) : Spells Anything text meaning := by
  cases laid with
  | line spacing laid =>
    cases laid with
    | none =>
      have last : Spells Anything ['\n'] (· = []) := .spacing (by decide)
      rw [List.append_assoc]
      refine spells_after spacing (spelled.append last ?_ ?_)
      · exact fun _ _ => loose_cons (by decide) (by decide)
      · rintro tokens _ known rfl
        rw [List.append_nil]
        exact known

/-! ### Texts with a word or a sign -/

/-- A text with a semicolon. -/
theorem spells_stopped (spelled : Spells Borders text meaning) :
    Spells Loose (text ++ [';']) fun tokens => ∃ between stop, tokens = between ++ [stop] ∧
      meaning between ∧ stop.spells ";" = true := by
  have semicolon : Spells Loose [';'] (Says ";") := spells_sign (by decide)
  refine spelled.append semicolon (fun _ _ => borders_cons (by decide)) ?_
  rintro between _ known ⟨stop, rfl, shows⟩
  exact ⟨between, stop, rfl, known, shows⟩

/-- A text with a word before it. -/
theorem spells_led (word : String) (reserved : word ∈ reservedWords) (other : word ≠ "for")
    (spelled : Spells fits text meaning) :
    Spells fits (word.toList ++ ' ' :: text) fun tokens => ∃ first rest, tokens = first :: rest ∧
      first.spells word = true ∧ meaning rest := by
  refine (spells_word reserved other).append (spells_spaced spelled)
    (fun _ _ => borders_cons (by decide)) ?_
  rintro _ rest ⟨first, rfl, shows⟩ known
  exact ⟨first, rest, rfl, shows, known⟩

end

/-! ### Statements -/

namespace Stmt

variable {room : Nat}

/-- Where a statement may stand. -/
def place (stmt : Stmt) : Place := if stmt.declares then .declaration else .statement

/-- Some tokens derive a statement, but for their lines. -/
def Means (room : Nat) (stmt : Stmt) (tokens : List Token) : Prop :=
  ∃ tree, DerivesStatement room stmt.place tokens tree stmt.isOpen ∧ tree.bare = stmt.bare

/-- Wherever its lines stand, a statement means itself, with so much room as it needs. -/
def Spelled (stmt : Stmt) : Prop :=
  ∀ room text, stmt.nesting ≤ room → Laid stmt.text text → Spells Anything text (stmt.Means room)

theorem under_ne_nil (header : Line) (body : Stmt) (lines : List Line) :
    under header body lines ≠ [] := by
  unfold under
  split <;> exact List.cons_ne_nil _ _

theorem text_ne_nil (stmt : Stmt) : stmt.text ≠ [] := by
  cases stmt with
  | expression | print | block => exact List.cons_ne_nil _ _
  | declare _ initial => cases initial <;> exact List.cons_ne_nil _ _
  | loop => exact under_ne_nil _ _ _
  | branch _ _ no =>
    cases no with
    | none => exact under_ne_nil _ _ _
    | some no => exact List.append_ne_nil_of_left_ne_nil (under_ne_nil _ _ _) _

theorem isOpen_rebuild (token : Token → Token) (expr : Expr → Expr) (stmt : Stmt) :
    (stmt.rebuild token expr).isOpen = stmt.isOpen := by
  induction stmt using Stmt.induction with
  | expression | print | declare | block | ifThen => rfl
  | ifElse _ _ no _ ih => exact ih
  | loop _ body ih => exact ih

theorem declares_rebuild (token : Token → Token) (expr : Expr → Expr) (stmt : Stmt) :
    (stmt.rebuild token expr).declares = stmt.declares := by
  cases stmt with
  | branch _ _ no => cases no <;> rfl
  | _ => rfl

/-- A statement that declares nothing may stand where only statements may. -/
theorem Means.statement {stmt : Stmt} {tokens : List Token} (means : stmt.Means room tokens)
    (plain : stmt.declares = false) : ∃ tree,
      DerivesStatement room .statement tokens tree stmt.isOpen ∧ tree.bare = stmt.bare := by
  unfold Means place at means
  rw [plain] at means
  exact means

/-- Any statement may stand where declarations may. -/
theorem Means.declaration {stmt : Stmt} {tokens : List Token} (means : stmt.Means room tokens) :
    ∃ tree, DerivesStatement room .declaration tokens tree stmt.isOpen ∧ tree.bare = stmt.bare := by
  unfold Means place at means
  split at means
  · exact means
  · obtain ⟨tree, derived, same⟩ := means
    exact ⟨tree, .statement derived, same⟩

/-- A list of statements means itself. -/
theorem spells_all {stmts : List Stmt} {text : List Char} (all : ∀ stmt ∈ stmts, stmt.Spelled)
    (shallow : nestingAll stmts ≤ room) (laid : Laid (textAll stmts) text) :
    Spells Anything text fun tokens => ∃ items : List Item,
      (∀ item ∈ items, DerivesStatement room .declaration item.tokens item.stmt item.opened) ∧
        tokens = items.flatMap Item.tokens ∧ items.map (·.stmt.bare) = stmts.map bare := by
  induction stmts generalizing text with
  | nil =>
    cases laid
    refine Spells.nil.mono ?_
    rintro _ rfl
    exact ⟨[], nofun, rfl, rfl⟩
  | cons stmt stmts ih =>
    rw [List.forall_mem_cons] at all
    obtain ⟨one, two, rfl, front, back⟩ := laid.split
    have first := all.1 room one (Nat.le_trans (Nat.le_max_left _ _) shallow) front
    have others := ih all.2 (Nat.le_trans (Nat.le_max_right _ _) shallow) back
    refine first.append others (fun _ _ => trivial) ?_
    rintro before _ means ⟨items, derived, rfl, same⟩
    obtain ⟨tree, known, equal⟩ := means.declaration
    refine ⟨⟨before, tree, stmt.isOpen⟩ :: items, List.forall_mem_cons.mpr ⟨known, derived⟩, rfl, ?_⟩
    rw [List.map_cons, List.map_cons, equal, same]

/-- A condition behind its word. -/
theorem spells_header (word : String) (reserved : word ∈ reservedWords) (other : word ≠ "for") {condition : Expr}
    (spelled : condition.SpelledAt Precedence.assignment) (begins : Begins condition.text)
    (shallow : condition.nesting ≤ room) :
    Spells Borders (word.toList ++ ' ' :: parenthesized condition.text) fun tokens =>
      ∃ first opening test closing, tokens = first :: opening :: test ++ [closing] ∧
        first.spells word = true ∧ opening.spells "(" = true ∧
        condition.Means (room + 1) .expression test ∧ closing.spells ")" = true := by
  have enclosed := spells_parenthesized (spelled room shallow) (fun _ => borders_cons (by decide))
    fun _ => begins.loose _
  refine (spells_led word reserved other (enclosed.narrow fun _ => Borders.loose)).mono ?_
  rintro _ ⟨first, _, rfl, shows, opening, test, closing, rfl, opened, means, closed⟩
  exact ⟨first, opening, test, closing, rfl, shows, opened, means.expression,
    spells_of_operator closed⟩

/-- A body under its header. -/
theorem spells_headed {header : Line} {body : Stmt} {text : List Char}
    {meaning : List Token → Prop} (spelled : Spells Borders header meaning) (inner : body.Spelled)
    (shallow : body.nesting ≤ room) (laid : Laid (under header body body.text) text) :
    Spells Anything text fun tokens => ∃ front back, tokens = front ++ back ∧ meaning front ∧
      body.Means room back := by
  obtain ⟨margin, rest, rfl, spacing, lines, borders⟩ := laid.under body.text_ne_nil
  refine spells_after spacing (spelled.append (inner room rest shallow lines) ?_ ?_)
  · exact fun more _ => borders more
  · intro front back known means
    exact ⟨front, back, rfl, known, means⟩

/-! ### One lemma for each kind of statement -/

section

variable {value condition initial : Expr} {target : Token} {yes no body : Stmt}

theorem spelled_expression (spelled : value.SpelledAt Precedence.assignment) :
    (Stmt.expression value).Spelled := by
  intro room text enough laid
  obtain ⟨room, few, rfl⟩ := room_of_le enough
  obtain ⟨room, fewer, rfl⟩ := room_of_le few
  have inner := spelled room fewer
  refine (spells_line (spells_stopped inner) laid).mono ?_
  rintro _ ⟨tokens, stop, rfl, means, stops⟩
  obtain ⟨tree, derived, same⟩ := means.expression
  exact ⟨.expression tree, .alone (.alone derived stops), congrArg Stmt.expression same⟩

theorem spelled_print (spelled : value.SpelledAt Precedence.assignment) :
    (Stmt.print value).Spelled := by
  intro room text enough laid
  obtain ⟨room, few, rfl⟩ := room_of_le enough
  obtain ⟨room, fewer, rfl⟩ := room_of_le few
  have inner := spelled room fewer
  refine (spells_line (spells_led "print" (by decide) (by decide) (spells_stopped inner)) laid).mono ?_
  rintro _ ⟨word, _, rfl, shows, tokens, stop, rfl, means, stops⟩
  obtain ⟨tree, derived, same⟩ := means.expression
  exact ⟨.print tree, .print shows derived stops, congrArg Stmt.print same⟩

theorem spelled_declare (names : target.Names) : (Stmt.declare target none).Spelled := by
  intro room text _ laid
  refine (spells_line (spells_led "var" (by decide) (by decide) (spells_stopped names.spells)) laid).mono ?_
  rintro _ ⟨word, _, rfl, shows, _, stop, rfl, ⟨name, rfl, same⟩, stops⟩
  have kind : name.kind = .identifier := (congrArg Token.kind same).trans names.kind
  refine ⟨.declare name none, .declared (.bare shows kind stops), ?_⟩
  exact congrArg (Stmt.declare · none) same

/-- A name with the value that it is given. -/
theorem spells_initial {room : Nat} (names : target.Names)
    (spelled : initial.SpelledAt Precedence.assignment) (shallow : initial.nesting ≤ room) :
    Spells Loose
      ((target.lexeme.toList ++ ' ' :: "=".toList) ++ ' ' :: (initial.text ++ [';'])) fun tokens =>
        ∃ name equals between stop, tokens = name :: equals :: between ++ [stop] ∧
          name.bare = target.bare ∧ equals.spells "=" = true ∧
          initial.Means (room + 1) .expression between ∧ stop.spells ";" = true := by
  refine names.spells_equals.append (spells_spaced (spells_stopped (spelled room shallow)))
    (fun _ _ => loose_cons (by decide) (by decide)) ?_
  rintro _ _ ⟨name, token, rfl, same, shows⟩ ⟨between, stop, rfl, means, stops⟩
  exact ⟨name, token, between, stop, rfl, same, shows, means.expression, stops⟩

theorem spelled_declareAs (names : target.Names)
    (spelled : initial.SpelledAt Precedence.assignment) :
    (Stmt.declare target (some initial)).Spelled := by
  intro room text enough laid
  obtain ⟨room, few, rfl⟩ := room_of_le enough
  have given := spells_initial names spelled few
  have shape : (Stmt.declare target (some initial)).text = ["var".toList ++ ' ' ::
      ((target.lexeme.toList ++ ' ' :: "=".toList) ++ ' ' :: (initial.text ++ [';']))] := by
    simp [Stmt.text]
  rw [shape] at laid
  refine (spells_line (spells_led "var" (by decide) (by decide) given) laid).mono ?_
  rintro _ ⟨word, _, rfl, shows, name, token, between, stop, rfl, same, equals, means, stops⟩
  obtain ⟨tree, derived, equal⟩ := means
  have kind : name.kind = .identifier := (congrArg Token.kind same).trans names.kind
  refine ⟨.declare name (some tree), .declared (.initial shows kind equals derived stops), ?_⟩
  change Stmt.declare name.bare (some tree.bare) = .declare target.bare (some initial.bare)
  rw [same, equal]

theorem spelled_block {stmts : List Stmt} (all : ∀ stmt ∈ stmts, stmt.Spelled) :
    (Stmt.block stmts).Spelled := by
  intro room text enough laid
  obtain ⟨room, few, rfl⟩ := room_of_le enough
  change Laid ([['\x7b']] ++ indented (textAll stmts) ++ [['\x7d']]) text at laid
  obtain ⟨_, last, rfl, front, closing⟩ := laid.split
  obtain ⟨first, inside, rfl, opening, body⟩ := front.split
  have opens : Spells Anything first (Says "\x7b") := spells_line (spells_sign (by decide)) opening
  have closes : Spells Anything last (Says "\x7d") := spells_line (spells_sign (by decide)) closing
  have within := spells_all all few body.of_indented
  have both : Spells Anything (first ++ inside) fun tokens => ∃ brace, ∃ items : List Item,
      tokens = brace :: items.flatMap Item.tokens ∧ brace.spells "\x7b" = true ∧
        (∀ item ∈ items, DerivesStatement room .declaration item.tokens item.stmt item.opened) ∧
        items.map (·.stmt.bare) = stmts.map bare := by
    refine opens.append within (fun _ _ => trivial) ?_
    rintro _ _ ⟨brace, rfl, shows⟩ ⟨items, derived, rfl, same⟩
    exact ⟨brace, items, rfl, shows, derived, same⟩
  refine both.append closes (fun _ _ => trivial) ?_
  rintro _ _ ⟨brace, items, rfl, shows, derived, same⟩ ⟨other, rfl, ends⟩
  refine ⟨.block (items.map Item.stmt), .block shows derived ends, ?_⟩
  change Stmt.block (rebuildAll _ _ _) = .block (rebuildAll _ _ _)
  rw [rebuildAll_eq_map, rebuildAll_eq_map, List.map_map]
  exact congrArg Stmt.block same

theorem spelled_ifThen (spelled : condition.SpelledAt Precedence.assignment)
    (begins : Begins condition.text) (first : yes.Spelled) (plain : yes.declares = false) :
    (Stmt.branch condition yes none).Spelled := by
  intro room text enough laid
  obtain ⟨room, few, rfl⟩ := room_of_le enough
  obtain ⟨test, within⟩ := Nat.max_le.mp few
  obtain ⟨room, shallow, rfl⟩ := room_of_le test
  have header := spells_header "if" (by decide) (by decide) spelled begins shallow
  refine (spells_headed header first within laid).mono ?_
  rintro _ ⟨_, back, rfl, ⟨word, opening, tokens, closing, rfl, shows, opened, means, closed⟩, body⟩
  obtain ⟨tree, derived, same⟩ := means
  obtain ⟨stmt, more, equal⟩ := body.statement plain
  refine ⟨.branch tree stmt none, ?_, ?_⟩
  · change DerivesStatement _ .statement _ _ true
    simpa using DerivesStatement.ifThen shows opened derived closed more
  · change Stmt.branch tree.bare stmt.bare none = .branch condition.bare yes.bare none
    rw [same, equal]

theorem spelled_loop (spelled : condition.SpelledAt Precedence.assignment)
    (begins : Begins condition.text) (inner : body.Spelled) (plain : body.declares = false) :
    (Stmt.loop condition body).Spelled := by
  intro room text enough laid
  obtain ⟨room, few, rfl⟩ := room_of_le enough
  obtain ⟨test, within⟩ := Nat.max_le.mp few
  obtain ⟨room, shallow, rfl⟩ := room_of_le test
  have header := spells_header "while" (by decide) (by decide) spelled begins shallow
  refine (spells_headed header inner within laid).mono ?_
  rintro _ ⟨_, back, rfl, ⟨word, opening, tokens, closing, rfl, shows, opened, means, closed⟩, rest⟩
  obtain ⟨tree, derived, same⟩ := means
  obtain ⟨stmt, more, equal⟩ := rest.statement plain
  refine ⟨.loop tree stmt, ?_, ?_⟩
  · change DerivesStatement _ .statement _ _ body.isOpen
    simpa using DerivesStatement.loop shows opened derived closed more
  · change Stmt.loop tree.bare stmt.bare = .loop condition.bare body.bare
    rw [same, equal]

theorem spelled_ifElse (spelled : condition.SpelledAt Precedence.assignment)
    (begins : Begins condition.text) (first : yes.Spelled) (plain : yes.declares = false)
    (closed : yes.isOpen = false) (second : no.Spelled) (other : no.declares = false) :
    (Stmt.branch condition yes (some no)).Spelled := by
  intro room text enough laid
  obtain ⟨room, few, rfl⟩ := room_of_le enough
  obtain ⟨test, bodies⟩ := Nat.max_le.mp few
  obtain ⟨one, two⟩ := Nat.max_le.mp bodies
  obtain ⟨room, shallow, rfl⟩ := room_of_le test
  obtain ⟨_, _, rfl, front, back⟩ := laid.split
  have header := spells_header "if" (by decide) (by decide) spelled begins shallow
  have alternative : Spells Borders "else".toList (Says "else") := spells_word (by decide) (by decide)
  refine (spells_headed header first one front).append (spells_headed alternative second two back)
    (fun _ _ => trivial) ?_
  rintro _ _
    ⟨_, ahead, rfl, ⟨word, opening, tokens, closing, rfl, shows, opened, means, closes⟩, body⟩
    ⟨_, behind, rfl, ⟨between, rfl, divides⟩, rest⟩
  obtain ⟨tree, derived, same⟩ := means
  obtain ⟨stmt, more, equal⟩ := body.statement plain
  obtain ⟨last, others, again⟩ := rest.statement other
  refine ⟨.branch tree stmt (some last), ?_, ?_⟩
  -- The first part is closed, so the `else` is that of this branch.
  · change DerivesStatement _ .statement _ _ no.isOpen
    rw [closed] at more
    simpa using DerivesStatement.ifElse shows opened derived closes more divides others
  · change Stmt.branch tree.bare stmt.bare (some last.bare) =
      .branch condition.bare yes.bare (some no.bare)
    rw [same, equal, again]

end

/-- The text of a printable statement means the statement. -/
theorem Printable.spelled {stmt : Stmt} (printable : stmt.Printable) : stmt.written.Spelled := by
  induction printable with
  | expression value => exact spelled_expression value.standing
  | print value => exact spelled_print value.standing
  | declare names => exact spelled_declare names
  | declareAs names initial => exact spelled_declareAs names initial.standing
  | @block body _ all =>
    change Spelled (.block (rebuildAll id Expr.written body))
    rw [rebuildAll_eq_map]
    exact spelled_block (List.forall_mem_map.mpr all)
  | ifThen condition _ plain ih =>
    exact spelled_ifThen condition.standing condition.begins ih ((declares_rebuild _ _ _).trans plain)
  | ifElse condition _ plain closed _ other first second =>
    exact spelled_ifElse condition.standing condition.begins first
      ((declares_rebuild _ _ _).trans plain) ((isOpen_rebuild _ _ _).trans closed) second
      ((declares_rebuild _ _ _).trans other)
  | loop condition _ plain ih =>
    exact spelled_loop condition.standing condition.begins ih ((declares_rebuild _ _ _).trans plain)

end Stmt

end Lox
