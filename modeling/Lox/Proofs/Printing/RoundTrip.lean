import Lox.Proofs.Grammar.Room
import Lox.Proofs.Printing.Canonical
import Lox.Proofs.Printing.Statement
import Lox.Proofs.Syntax.Comparison

/-!
# What is printed reads back

The text of a printable tree is read as the tree again, but for the lines of the tokens and the
groupings that the text has and the tree has not, as long as it does not nest too deeply; otherwise
the text is refused. The tree of a parsed program is printable. It is printed with no more groupings
than the program has, but it may nest deeper when there is a `for` in the program.
-/
namespace Lox

open Grammar Source

/-! ### The tokens of a text -/

/-- A whole text that means something is scanned to its tokens and the end of input. -/
theorem scan_of_spells {text : List Char} {meaning : List Token → Prop}
    (spelled : Spells Anything text meaning) : ∃ front last,
      (scan (String.ofList text)).tokens = front ++ [last] ∧
      (scan (String.ofList text)).reports = [] ∧ meaning front ∧
      (∀ token ∈ front, token.kind ≠ .word "for") := by
  obtain ⟨front, known, plain, same, quiet⟩ := spelled 1 [] trivial
  have nothing : pieces [] = [] := by rw [pieces]
  rw [List.append_nil, nothing] at same quiet
  refine ⟨front, ⟨.endOfInput, "", none, 1 + Text.lineEnds text⟩, ?_, ?_, known, plain⟩
  · change tokensFrom 1 (pieces (String.ofList text).toList) = _
    rw [String.toList_ofList, same]
    rfl
  · change reportsFrom 1 (pieces (String.ofList text).toList) = _
    rw [String.toList_ofList, quiet]
    rfl

/-- The tokens of a program text before the end of input. -/
theorem scan_front (source : String) {front : List Token} {last : Token}
    (scanned : (scan source).tokens = front ++ [last]) :
    (∀ token ∈ front, token.Regular ∧ token.isEnd = false) ∧
      last.isEnd = true ∧ last.Regular ∧ ∀ token ∈ front, token.Scanned := by
  obtain ⟨others, final, same, ended, regular, inside⟩ := scan_tokens source
  obtain ⟨rfl, only⟩ := List.append_inj' (same.symm.trans scanned) rfl
  obtain rfl := List.singleton_inj.mp only
  refine ⟨inside, ended, regular, fun token member => ?_⟩
  exact scan_scanned source token (same ▸ List.mem_append_left _ member)

namespace Stmt

/-! ### Programs -/

variable {stmts : List Stmt}

theorem spelled_program (printable : ∀ stmt ∈ stmts, stmt.Printable) :
    Spells Anything ((textAll (stmts.map written)).flatMap (· ++ ['\n'])) fun tokens => ∃ tree,
      DerivesProgram (nestingAll (stmts.map written)) tokens tree ∧
        tree.map bare = stmts.map (·.written.bare) := by
  have all := List.forall_mem_map.mpr fun stmt member => (printable stmt member).spelled
  refine (spells_all all (Nat.le_refl _) (.ended _)).mono ?_
  rintro _ ⟨items, derived, rfl, same⟩
  refine ⟨items.map Item.stmt, ⟨items, derived, rfl, rfl⟩, ?_⟩
  rw [List.map_map] at same ⊢
  exact same

/-- Statements that differ in the lines of their tokens have one text. -/
theorem programText_congr {others : List Stmt} (same : stmts.map bare = others.map bare) :
    programText stmts = programText others := by
  unfold programText
  rw [← textAll_bare fun stmt _ => stmt.text_bare, same, textAll_bare fun stmt _ => stmt.text_bare]

theorem nestingAll_congr {others : List Stmt} (same : stmts.map bare = others.map bare) :
    nestingAll stmts = nestingAll others := by
  rw [← nestingAll_bare fun stmt _ => stmt.nesting_bare, same,
    nestingAll_bare fun stmt _ => stmt.nesting_bare]

/-- Statements that need no groupings are printed with those that they have. -/
theorem printed_canonical (canonical : ∀ stmt ∈ stmts, stmt.Canonical) :
    WithEnough fun stack => Stmt.program stack stmts = .ok (programText stmts) := by
  have printed := program_eq fun stmt member => (canonical stmt member).printable.leveled
  rwa [map_written canonical] at printed

end Stmt

/-! ### Reading what is printed -/

section

variable {stmts : List Stmt}

/-- The text of printable statements is read without a report exactly if it does not nest too deeply,
and what is read is then the statements with the groupings of the text. Printing it again gives the
same text. -/
theorem printed_reads (printable : ∀ stmt ∈ stmts, stmt.Printable) (cap : Nat) :
    (scan (Stmt.programText (stmts.map Stmt.written))).reports = [] ∧ WithEnough fun stack =>
      ∃ again after, program stack (.under cap (scan (Stmt.programText (stmts.map Stmt.written))).tokens) =
          .ok again after ∧
        (after.reports = [] ↔ Stmt.nestingAll (stmts.map Stmt.written) ≤ cap) ∧
        (after.reports = [] → again.map Stmt.bare = stmts.map (·.written.bare) ∧
          Stmt.program stack again = .ok (Stmt.programText (stmts.map Stmt.written))) := by
  obtain ⟨front, last, scanned, quiet, ⟨tree, derived, same⟩, plain⟩ :=
    scan_of_spells (Stmt.spelled_program printable)
  change (scan (Stmt.programText (stmts.map Stmt.written))).tokens = _ at scanned
  refine ⟨quiet, ?_⟩
  obtain ⟨inside, ended, regular, made⟩ := scan_front _ scanned
  rw [scanned]
  have equal : tree.map Stmt.bare = (stmts.map Stmt.written).map Stmt.bare := by rw [same, List.map_map]; rfl
  have again : WithEnough fun stack => Stmt.program stack tree = .ok (Stmt.programText (stmts.map Stmt.written)) :=
    Stmt.programText_congr equal ▸ Stmt.printed_canonical (derived.canonical made)
  have deep : WithEnough fun stack => front.length + 1 + levelsFor cap < stack :=
    ⟨front.length + 1 + levelsFor cap + 1, fun _ enough => enough⟩
  refine (deep.and again).mono fun stack ⟨deep, printed⟩ => ?_
  obtain ⟨stmts, after, _, _, read, -⟩ := program_returns (.under cap (front ++ [last]))
    (Able.under inside ended regular deep).ready
  -- What is read without a report has the tree of the text's own derivation.
  have unique (quiet : after.reports = []) : DerivesProgram cap front tree ∧ stmts = tree := by
    have known := program_derives read quiet inside ended regular
    have one := known.unique derived inside
    exact ⟨one ▸ known, one⟩
  refine ⟨stmts, after, read, ⟨fun quiet => ?_, fun shallow => ?_⟩, fun quiet => ?_⟩
  · rw [← Stmt.nestingAll_congr equal]
    exact (unique quiet).1.nesting fun token member => ⟨(inside token member).1, plain token member⟩
  · have whole := program_reads (derived.mono shallow) inside ended regular deep
    rw [(EStateM.Result.ok.inj (read.symm.trans whole)).2]
  · obtain ⟨-, rfl⟩ := unique quiet
    exact ⟨same, printed⟩

/-- Trees that need no groupings are read as they are, if they do not nest too deeply. -/
theorem canonical_reads (canonical : ∀ stmt ∈ stmts, stmt.Canonical) (cap : Nat) :
    (scan (Stmt.programText stmts)).reports = [] ∧ WithEnough fun stack =>
      Stmt.program stack stmts = .ok (Stmt.programText stmts) ∧
      ∃ again after, program stack (.under cap (scan (Stmt.programText stmts)).tokens) =
          .ok again after ∧
        (after.reports = [] ↔ Stmt.nestingAll stmts ≤ cap) ∧
        (after.reports = [] → again.map Stmt.bare = stmts.map Stmt.bare ∧
          Stmt.program stack again = .ok (Stmt.programText stmts)) := by
  have bare : stmts.map (·.written.bare) = stmts.map Stmt.bare :=
    List.map_congr_left fun stmt member => congrArg Stmt.bare (canonical stmt member).written
  obtain ⟨quiet, reads⟩ :=
    printed_reads (fun stmt member => (canonical stmt member).printable) cap
  rw [Stmt.map_written canonical] at quiet reads
  rw [bare] at reads
  exact ⟨quiet, (Stmt.printed_canonical canonical).and reads⟩

/-- What a program text is read as without a report derives from its scanned tokens. -/
theorem derives_of_read {source : String} {stack : Nat} {cursor : Cursor}
    (read : (program stack).run (.start (scan source).tokens) = .ok stmts cursor)
    (quiet : cursor.reports = []) : ∃ front last, (scan source).tokens = front ++ [last] ∧
      DerivesProgram maxNesting front stmts ∧ ∀ stmt ∈ stmts, stmt.Canonical := by
  obtain ⟨front, last, scanned, -⟩ := scan_tokens source
  obtain ⟨inside, ended, regular, made⟩ := scan_front source scanned
  rw [scanned] at read
  have derived := program_derives read quiet inside ended regular
  exact ⟨front, last, scanned, derived, derived.canonical made⟩

/-- A program whose result passes a test has a result. -/
theorem exists_of_test {source : String} {stack : Nat} (test : List Stmt → Cursor → Bool)
    (passes : (match (program stack).run (.start (scan source).tokens) with
      | .ok stmts cursor => test stmts cursor
      | .error _ _ => false) = true) :
    ∃ stmts cursor, (program stack).run (.start (scan source).tokens) = .ok stmts cursor ∧
      test stmts cursor = true := by
  split at passes
  next stmts cursor read => exact ⟨stmts, cursor, read, passes⟩
  next => exact absurd passes (by decide)

/-! ### Round trips -/

/-- Parsing undoes printing. The text of trees that can be written, if it does not nest too deeply, is
scanned and read without a report as the trees, apart from groupings and lines, and it is printed
for what is read as well. -/
theorem printable_reads_back (printable : ∀ stmt ∈ stmts, stmt.Printable)
    (shallow : Stmt.nestingAll (stmts.map Stmt.written) ≤ maxNesting) :
    ∃ text, (scan text).reports = [] ∧ WithEnough fun stack =>
      Stmt.program stack stmts = .ok text ∧
      ∃ again after, (program stack).run (.start (scan text).tokens) = .ok again after ∧
        after.reports = [] ∧
        again.map (·.ungrouped.bare) = stmts.map (·.ungrouped.bare) ∧
        Stmt.program stack again = .ok text := by
  obtain ⟨quiet, reads⟩ := printed_reads printable maxNesting
  refine ⟨_, quiet, ((Stmt.program_eq fun stmt member => (printable stmt member).leveled).and reads).mono ?_⟩
  rintro stack ⟨printed, again, after, read, exactly_, known⟩
  have silent := exactly_.mpr shallow
  obtain ⟨same, reprinted⟩ := known silent
  refine ⟨printed, again, after, read, silent, ?_, reprinted⟩
  calc again.map (·.ungrouped.bare)
      = (again.map Stmt.bare).map Stmt.ungrouped := by
        rw [List.map_map]
        exact List.map_congr_left fun stmt _ => stmt.ungrouped_bare.symm
    _ = stmts.map fun stmt => stmt.written.bare.ungrouped := by
        rw [same, List.map_map]
        rfl
    _ = stmts.map (·.ungrouped.bare) := by
        refine List.map_congr_left fun stmt _ => ?_
        rw [Stmt.ungrouped_bare, Stmt.ungrouped_written]

/-- A right operand of the same level is printed in parentheses. -/
theorem printable_reads_back_minus :
    let name (text : String) : Expr := .name ⟨.identifier, text, none, 1⟩
    let minus : Token := ⟨.operator, "-", none, 1⟩
    let tree : Stmt := .print (.binary minus (name "a") (.binary minus (name "b") (name "c")))
    (∀ stmt ∈ [tree], stmt.Printable) ∧
    Stmt.nestingAll ([tree].map Stmt.written) ≤ maxNesting ∧
    ∃ text, (scan text).reports = [] ∧ WithEnough fun stack =>
      Stmt.program stack [tree] = .ok text ∧
      ∃ again after, (program stack).run (.start (scan text).tokens) = .ok again after ∧
        after.reports = [] ∧
        again.map (·.ungrouped.bare) = [tree].map (·.ungrouped.bare) ∧
        Stmt.program stack again = .ok text := by
  intro name minus tree
  have named (text : String) (letters : IsName text.toList) (free : text ∉ reservedWords) :
      (name text).Printable := .name ⟨rfl, rfl, letters, free⟩
  have operates : minus.Operates binaryOperators := ⟨rfl, rfl, by decide⟩
  have a := named "a" ⟨'a', [], rfl, by decide, nofun⟩ (by decide)
  have b := named "b" ⟨'b', [], rfl, by decide, nofun⟩ (by decide)
  have c := named "c" ⟨'c', [], rfl, by decide, nofun⟩ (by decide)
  have printable : ∀ stmt ∈ [tree], stmt.Printable :=
    List.forall_mem_singleton.mpr (.print (.binary operates a (.binary operates b c)))
  have shallow : Stmt.nestingAll ([tree].map Stmt.written) ≤ maxNesting := by decide
  exact ⟨printable, shallow, printable_reads_back printable shallow⟩

/-- A program that is read without a report is printed, and its text is scanned without one. The text
is read without a report exactly if the tree does not nest too deeply, which it never does unless
there is a `for` in the program. What is then read is the tree, apart from lines, and it has the same
text. -/
theorem parsed_reads_back {source : String} {stack : Nat} {cursor : Cursor}
    (read : (program stack).run (.start (scan source).tokens) = .ok stmts cursor)
    (quiet : cursor.reports = []) :
    ((∀ token ∈ (scan source).tokens, token.kind ≠ .word "for") →
      Stmt.nestingAll stmts ≤ maxNesting) ∧
    ∃ text, (scan text).reports = [] ∧ WithEnough fun stack =>
      Stmt.program stack stmts = .ok text ∧
      ∃ again after, (program stack).run (.start (scan text).tokens) = .ok again after ∧
        (after.reports = [] ↔ Stmt.nestingAll stmts ≤ maxNesting) ∧
        (after.reports = [] → again.map Stmt.bare = stmts.map Stmt.bare ∧
          Stmt.program stack again = .ok text) := by
  obtain ⟨front, last, scanned, derived, canonical⟩ := derives_of_read read quiet
  refine ⟨fun plain => ?_, Stmt.programText stmts, canonical_reads canonical maxNesting⟩
  obtain ⟨inside, -⟩ := scan_front source scanned
  refine derived.nesting fun token member => ⟨(inside token member).1, ?_⟩
  exact plain token (scanned ▸ List.mem_append_left _ member)

/-- A `for` statement comes back as a loop in a block. -/
theorem parsed_reads_back_for :
    ∃ stmts cursor, (program 100).run
        (.start (scan "for (var i = 0; i < 2; i = i + 1) print i;").tokens) = .ok stmts cursor ∧
      cursor.reports = [] ∧
      ∃ text, (scan text).reports = [] ∧ WithEnough fun stack =>
        Stmt.program stack stmts = .ok text ∧
        ∃ again after, (program stack).run (.start (scan text).tokens) = .ok again after ∧
          (after.reports = [] ↔ Stmt.nestingAll stmts ≤ maxNesting) ∧
          (after.reports = [] → again.map Stmt.bare = stmts.map Stmt.bare ∧
            Stmt.program stack again = .ok text) := by
  obtain ⟨stmts, cursor, read, tested⟩ : ∃ stmts cursor, (program 100).run
      (.start (scan "for (var i = 0; i < 2; i = i + 1) print i;").tokens) = .ok stmts cursor ∧
        decide (cursor.reports = []) = true :=
    exists_of_test _ (by decide +kernel)
  have quiet := of_decide_eq_true tested
  exact ⟨stmts, cursor, read, quiet, (parsed_reads_back read quiet).2⟩

/-- The tree of a `for` statement may nest more deeply than its text, and then what is printed is
refused: here the body of the loop is a block, which the text has not. -/
theorem deep_for_not_read_back :
    let source := "for(;;i)" ++ String.join (List.replicate 61 "-") ++ "i;"
    (scan source).reports = [] ∧ ∃ stmts text, WithEnough fun stack =>
      (∃ cursor, (program stack).run (.start (scan source).tokens) = .ok stmts cursor ∧
        cursor.reports = []) ∧
      Stmt.program stack stmts = .ok text ∧
      ∃ again after, (program stack).run (.start (scan text).tokens) = .ok again after ∧
        after.reports ≠ [] := by
  intro source
  obtain ⟨stmts, cursor, read, tested⟩ : ∃ stmts cursor,
      (program 200).run (.start (scan source).tokens) = .ok stmts cursor ∧
        decide (cursor.reports = [] ∧ maxNesting < Stmt.nestingAll stmts) = true :=
    exists_of_test _ (by decide +kernel)
  obtain ⟨quiet, deep⟩ := of_decide_eq_true tested
  obtain ⟨front, last, scanned, derived, canonical⟩ := derives_of_read read quiet
  obtain ⟨inside, ended, regular, -⟩ := scan_front source scanned
  refine ⟨by decide +kernel, stmts, Stmt.programText stmts, ?_⟩
  -- What was read with one stack derives, and so is read with any that is large enough.
  have enough : WithEnough fun stack => front.length + 1 + levelsFor maxNesting < stack :=
    ⟨front.length + 1 + levelsFor maxNesting + 1, fun _ enough => enough⟩
  refine (enough.and (canonical_reads canonical maxNesting).2).mono ?_
  rintro stack ⟨enough, printed, again, after, reread, exactly_, -⟩
  have first := program_reads derived inside ended regular enough
  rw [← scanned] at first
  refine ⟨⟨_, first, rfl⟩, printed, again, after, reread, ?_⟩
  exact fun none => absurd (exactly_.mp none) (Nat.not_le.mpr deep)

end

end Lox
