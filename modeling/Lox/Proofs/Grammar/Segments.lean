import Lox.Proofs.Grammar.Locality
import Lox.Proofs.Grammar.Progress
import Lox.Proofs.Grammar.Stretch
import Lox.Proofs.Source.Spelling
import Mathlib.Data.List.Forall2

/-!
# Recovery is local

A program is cut into segments, each of which ends in its only semicolon, has no braces, and has no word
that starts a statement behind its first token. Whether its statement can be read or not, a segment is left
where it ends. What is made of it and reported about it is therefore the same whatever comes before and
behind it.
-/
namespace Lox.Grammar

/-- Tokens up to their only semicolon, without braces, in which no statement starts behind the first token.
They do not begin with a `for`, whose clauses have semicolons, or go on with an `else`. -/
structure Segment (tokens : List Token) : Prop where
  regular : ∀ token ∈ tokens, token.Regular
  inside : ∀ token ∈ tokens, token.isEnd = false
  ended : ∃ front last, tokens = front ++ [last] ∧ last.spells ";" = true ∧
    ∀ token ∈ front, token.lexeme ≠ ";"
  braceless : ∀ token ∈ tokens, token.lexeme ≠ "\x7b" ∧ token.lexeme ≠ "\x7d"
  single : ∀ token ∈ tokens.tail, startsStatement token = false
  first : ∀ token ∈ tokens.head?, token.kind ≠ .word "for" ∧ token.kind ≠ .word "else"

/-- What is made of a segment: a statement at most, and the reports about it. -/
structure Part where
  stmt : Option Stmt
  reports : List StaticReport

/-- Where no statement is made, the last report, and no other, is of an error that aborts one. -/
def Part.Sound (part : Part) : Prop :=
  match part.stmt with
  | some _ => ∀ report ∈ part.reports, report.error.aborts = false
  | none => ∃ front last, part.reports = front ++ [last] ∧ last.error.aborts = true ∧
      ∀ report ∈ front, report.error.aborts = false

/-- The end of input that the scanner makes. -/
def final (line : Int) : Token := ⟨.endOfInput, "", none, line⟩

/-! ### Segments as stretches -/

/-- Tokens that do not begin with an `else`. -/
def Going (tokens : List Token) : Prop :=
  ∃ token rest, tokens = token :: rest ∧ token.spells "else" = false

namespace Segment

variable {segment tail : List Token}

theorem within (known : Segment segment) (tail : List Token) : Within tail (segment ++ tail) := by
  obtain ⟨front, last, rfl, spells, separate⟩ := known.ended
  refine ⟨front, last, by simp, ?_, ?_, ?_⟩
  · intro token member
    have among : token ∈ front ++ [last] := List.mem_append_left _ member
    refine ⟨known.inside token among, separate token member, (known.braceless token among).1, ?_⟩
    -- A `for` starts a statement, and the segment does not begin with it.
    intro kind
    cases front with
    | nil => cases member
    | cons first front =>
      rcases List.mem_cons.mp member with rfl | later
      · exact (known.first token rfl).1 kind
      · have single := known.single token (List.mem_append_left _ later)
        simp [startsStatement, kind, statementWords] at single
  · intro token member
    cases front with
    | nil => cases member
    | cons first front => exact known.single token (List.mem_append_left _ member)
  · have regular := known.regular last (List.mem_append_right _ List.mem_cons_self)
    exact ⟨regular.kind_of_operator spells (by decide), (Token.spells_iff.mp spells).2⟩

theorem exists_cons (known : Segment segment) : ∃ token rest, segment = token :: rest := by
  obtain ⟨front, last, rfl, -, -⟩ := known.ended
  exact List.exists_cons_of_ne_nil (by simp)

theorem going (known : Segment segment) (tail : List Token) : Going (segment ++ tail) := by
  obtain ⟨token, rest, rfl⟩ := known.exists_cons
  refine ⟨token, rest ++ tail, rfl, ?_⟩
  cases spells : token.spells "else" with
  | false => rfl
  | true =>
    have regular := known.regular token List.mem_cons_self
    exact absurd (regular.kind_of_word spells (by decide)) (known.first token rfl).2

end Segment

theorem going_final (line : Int) : Going [final line] := ⟨final line, [], rfl, rfl⟩

/-- Segments are followed by a segment or by the end of input. -/
theorem going_segments {segments : List (List Token)} (each : ∀ segment ∈ segments, Segment segment)
    (line : Int) : Going (segments.flatten ++ [final line]) := by
  cases segments with
  | nil => exact going_final line
  | cons segment segments =>
    rw [List.flatten_cons, List.append_assoc]
    exact (each segment List.mem_cons_self).going _

/-! ### Recovery -/

/-- From a token in a stretch, the border is behind the semicolon. -/
theorem toBorder_stretch {previous last : Token} {front tail : List Token}
    (separate : previous.lexeme ≠ ";") (inner : ∀ token ∈ front, Inner token)
    (single : ∀ token ∈ front, startsStatement token = false) (border : Border last)
    (some : tail ≠ []) : toBorder previous (front ++ last :: tail) = front.length + 1 := by
  induction front generalizing previous with
  | nil =>
    obtain ⟨next, others, rfl⟩ := List.exists_cons_of_ne_nil some
    simp [toBorder, border.inside, separate, startsStatement, border.kind, border.text]
  | cons token front ih =>
    obtain ⟨here, others⟩ := List.forall_mem_cons.mp inner
    obtain ⟨quiet, further⟩ := List.forall_mem_cons.mp single
    simp [toBorder, here.inside, separate, quiet, ih here.separate others further]

/-- Recovery passes the current token and then those before the next border. -/
theorem recover_apply {cursor : Cursor} {token next : Token} {rest others : List Token}
    (here : cursor.rest = token :: rest) (inside : token.isEnd = false)
    (left : rest.drop (toBorder token rest) = next :: others) :
    recover cursor = .ok ()
      { cursor with
        rest := next :: others
        position := cursor.position + 1 + toBorder token rest } := by
  unfold recover
  rw [bind_ok (advance_apply here inside)]
  change discard current { cursor with
    rest := rest.drop (toBorder token rest)
    position := cursor.position + 1 + toBorder token rest } = _
  rw [left]
  exact discard_ok (current_apply rfl)

/-- From within a stretch, recovery comes to its end and changes nothing else. -/
theorem recover_within {tail : List Token} {cursor : Cursor} (within : Within tail cursor.rest)
    (some : tail ≠ []) :
    ∃ position, recover cursor = .ok () { cursor with rest := tail, position } := by
  obtain ⟨next, others, rfl⟩ := List.exists_cons_of_ne_nil some
  obtain ⟨front, last, here, inner, single, border⟩ := within
  cases front with
  | nil =>
    -- The semicolon itself is passed, and behind it is a border.
    have none : toBorder last (next :: others) = 0 := by simp [toBorder, border.text]
    exact ⟨_, recover_apply here border.inside (by rw [none, List.drop_zero])⟩
  | cons token front =>
    obtain ⟨first, inner⟩ := List.forall_mem_cons.mp inner
    have skipped := toBorder_stretch first.separate inner single border some
    rw [List.cons_append] at here
    refine ⟨_, recover_apply here first.inside ?_⟩
    rw [skipped, ← List.drop_drop, List.drop_left, List.drop_one, List.tail_cons]

/-- What is refused within a stretch is reported, and left at its end. -/
theorem recovering_refused {tail : List Token} {reader : Read Stmt} {cursor after : Cursor}
    {error : StaticError} {token : Token}
    (refused : reader cursor = .error (.refused error token) after) (within : Within tail after.rest)
    (some : tail ≠ []) :
    ∃ position, recovering reader cursor = .ok none
      { after with
        rest := tail
        position
        reports := after.reports ++ [⟨token.line, error⟩] } := by
  let reported : Cursor := { after with reports := after.reports ++ [⟨token.line, error⟩] }
  have onward : Within tail reported.rest := within
  obtain ⟨position, recovered⟩ := recover_within onward some
  have told : report token error after = .ok () reported := rfl
  refine ⟨position, ?_⟩
  unfold recovering
  rw [refused]
  dsimp only
  rw [bind_ok told, bind_ok recovered]
  rfl

/-! ### A segment wherever it stands -/

/-- The cursor is at some tokens of a program, and nothing is open. -/
structure Cursor.Top (tokens : List Token) (cursor : Cursor) : Prop where
  rest : cursor.rest = tokens
  depth : cursor.depth = 0
  cap : cursor.cap = maxNesting

/-- Wherever the segment stands, its part is made of it, and it is left where it ends. -/
def Makes (stack : Nat) (segment : List Token) (part : Part) : Prop :=
  ∀ fuel tail cursor, segment.length + 2 ≤ fuel → Going tail → cursor.Top (segment ++ tail) →
    ∃ after, declarationAt fuel stack maxNesting cursor = .ok part.stmt after ∧ after.Top tail ∧
      after.reports = cursor.reports ++ part.reports

/-- How a declaration or statement is read, before it is known whether it can be. -/
def body (fuel stack room : Nat) : Read Stmt :=
  declarationOn (expressionAt fuel room) (statementAt fuel · room) stack

section

variable {segment tail : List Token} {stack : Nat} {part : Part}

/-- A segment alone, before an end of input, has what it needs to be read or refused. -/
theorem body_meets (deep : segment.countP (·.spells "=") + levelsFor maxNesting < stack) :
    Meets (body (segment.length + 2) stack maxNesting) (.start (segment ++ [final 0])) [] [] Gains
      Thrifty := by
  have signs : equalsSigns (segment ++ [final 0]) ≤ segment.countP (·.spells "=") := by
    refine Nat.le_trans (equalsSigns_le _) (Nat.le_of_eq ?_)
    rw [List.countP_append]
    rfl
  have ready : Ready ((segment ++ [final 0]).length + 1) maxNesting (stack - 3)
      (.start (segment ++ [final 0])) :=
    .under ⟨final 0, by simp, rfl⟩ (Nat.lt_of_le_of_lt (Nat.add_le_add_right signs _) deep)
  rw [List.length_append] at ready
  have some := ready.stack_pos
  exact declarationOn_pays (show stack - 3 + 2 ≤ stack by omega) _ ready

/-- Where a segment gives way to a tail. -/
def Going.joint (going : Going tail) (base : List StaticReport) : Joint where
  lines := 0
  last := final 0
  tail := tail
  base := base
  ended := rfl
  blank := rfl
  going := going

/-- A segment before a tail is beside the same segment before an end of input. -/
theorem Going.beside (going : Going tail) {cursor : Cursor} (top : cursor.Top (segment ++ tail)) :
    (Cursor.start (segment ++ [final 0])).Beside (going.joint cursor.reports) cursor := by
  refine ⟨⟨segment, rfl, ?_⟩, top.depth, top.cap, ?_⟩
  · simp [top.rest, joint, funext Token.lower_zero]
  · simp [joint, Cursor.start, Cursor.under]

theorem StaticReport.lower_zero (report : StaticReport) : report.lower 0 = report := by
  simp [StaticReport.lower]

/-- The cursor beside one that is somewhere in the segment is there as well. -/
theorem Going.beyond (going : Going tail) {base : List StaticReport} {after there : Cursor}
    (beside : after.Beside (going.joint base) there) (clear : after.depth = 0)
    (cap : after.cap = maxNesting) {front : List Token} (left : after.rest = front ++ [final 0]) :
    there.Top (front ++ tail) ∧ there.reports = base ++ after.reports := by
  obtain ⟨same, here, rest⟩ := beside.rest
  obtain rfl : front = same := List.append_inj_left' (left.symm.trans here) rfl
  refine ⟨⟨?_, beside.depth.trans clear, beside.cap.trans cap⟩, ?_⟩
  · simpa [joint, funext Token.lower_zero] using rest
  · simpa [joint, funext StaticReport.lower_zero] using beside.reports

theorem body_finishes (joint : Joint) {fuel enough : Nat} (more : fuel ≤ enough) (stack room : Nat) :
    FinishesStmt joint (body fuel stack room) (body enough stack room) :=
  declarationOn_finishes (expressionAt_follows more room)
    (fun stack => statementAt_finishes more stack room) stack

/-- A segment that is read alone is read wherever it stands. -/
theorem makes_of_read {stmt : Stmt} {after : Cursor}
    (read : body (segment.length + 2) stack maxNesting (.start (segment ++ [final 0])) = .ok stmt after)
    (clear : after.Top [final 0]) : Makes stack segment ⟨some stmt, after.reports⟩ := by
  intro fuel tail cursor more going top
  have finishes := body_finishes (going.joint cursor.reports) more stack maxNesting
  obtain ⟨-, known⟩ := finishes.follows.ok (going.beside top) read
  obtain ⟨beyond, same, fits⟩ := known (.inl rfl)
  have left : after.rest = [] ++ [final 0] := clear.rest
  obtain ⟨there, reports⟩ := going.beyond fits clear.depth clear.cap left
  have back : stmt.lower (going.joint cursor.reports).lines = stmt := stmt.lower_zero
  rw [back] at same
  exact ⟨beyond, recovering_ok same, there, reports⟩

/-- A segment that is refused alone is refused wherever it stands, and recovery comes to its end. -/
theorem makes_of_refused {error : StaticError} {token : Token} {after : Cursor}
    (refused : body (segment.length + 2) stack maxNesting (.start (segment ++ [final 0])) =
      .error (.refused error token) after)
    (within : Within [final 0] after.rest) (clear : after.depth = 0) (cap : after.cap = maxNesting) :
    Makes stack segment ⟨none, after.reports ++ [⟨token.line, error⟩]⟩ := by
  intro fuel tail cursor more going top
  obtain ⟨front, last, here, inner, single, border⟩ := within
  have finishes := body_finishes (going.joint cursor.reports) more stack maxNesting
  obtain ⟨-, known⟩ := finishes.follows.refused (going.beside top) refused
  -- It is refused before its end, so what stands behind the segment was not looked at.
  obtain ⟨beyond, same, fits⟩ := known (by simp [Cursor.Inside, here])
  have back : token.lower (going.joint cursor.reports).lines = token := token.lower_zero
  rw [back] at same
  have left : after.rest = (front ++ [last]) ++ [final 0] := by simp [here]
  obtain ⟨there, reports⟩ := going.beyond fits clear cap left
  have onward : Within tail beyond.rest :=
    ⟨front, last, by simpa using there.rest, inner, single, border⟩
  have some : tail ≠ [] := by
    obtain ⟨_, _, rfl, -⟩ := going
    exact List.cons_ne_nil _ _
  obtain ⟨position, recovered⟩ := recovering_refused same onward some
  refine ⟨_, recovered, ⟨rfl, there.depth, there.cap⟩, ?_⟩
  rw [reports, List.append_assoc]

/-- Something is made of every segment, and it is the same wherever the segment stands. -/
theorem Segment.exists_part (known : Segment segment)
    (deep : segment.countP (·.spells "=") + levelsFor maxNesting < stack) :
    ∃ part : Part, part.Sound ∧ Makes stack segment part := by
  have meets := body_meets deep
  have stays : Stays [final 0] (· = [final 0]) (body (segment.length + 2) stack maxNesting)
      (.start (segment ++ [final 0])) :=
    declarationOn_ends rfl rfl stack maxNesting _
  have there := stays (known.within _)
  unfold Meets at meets
  cases outcome : body (segment.length + 2) stack maxNesting (.start (segment ++ [final 0])) with
  | ok stmt after =>
    rw [outcome] at meets there
    obtain ⟨_, _, reach, -⟩ := meets
    obtain ⟨ended, added, reports, mild⟩ := there
    obtain rfl : after.reports = added := reports
    exact ⟨⟨some stmt, after.reports⟩, mild, makes_of_read outcome ⟨ended, reach.depth, reach.cap⟩⟩
  | error stop after =>
    rw [outcome] at meets there
    obtain ⟨_, _, reach, ⟨error, token, rfl⟩, -⟩ := meets
    obtain ⟨within, ⟨added, reports, mild⟩, aborts⟩ := there
    obtain rfl : after.reports = added := reports
    exact ⟨⟨none, after.reports ++ [⟨token.line, error⟩]⟩, ⟨_, _, rfl, aborts, mild⟩,
      makes_of_refused outcome within reach.depth reach.cap⟩

end

/-! ### Programs -/

section

variable {stack : Nat} {segments : List (List Token)} {parts : List Part}

/-- Segments one after another are read as their parts one after another. -/
theorem declarations_makes {line : Int} {fuel rounds : Nat} {cursor : Cursor}
    (all : List.Forall₂ (Makes stack) segments parts) (each : ∀ segment ∈ segments, Segment segment)
    (enough : ∀ segment ∈ segments, segment.length + 2 ≤ fuel) (many : segments.length < rounds)
    (top : cursor.Top (segments.flatten ++ [final line])) :
    ∃ after, declarations (fun _ => false) (declarationAt fuel stack maxNesting) rounds cursor =
        .ok (parts.flatMap (·.stmt.toList)) after ∧
      after.reports = cursor.reports ++ parts.flatMap (·.reports) := by
  -- A segment leaves a cursor at the top of the others, with its reports behind those before.
  induction all generalizing rounds cursor with
  | nil =>
    obtain ⟨rounds, rfl⟩ : ∃ less, rounds = less + 1 := ⟨rounds - 1, by simp at many; omega⟩
    refine ⟨cursor, ?_, by simp⟩
    rw [declarations, bind_ok (current_apply top.rest)]
    rfl
  | @cons segment part segments parts makes all ih =>
    obtain ⟨rounds, rfl⟩ : ∃ less, rounds = less + 1 := ⟨rounds - 1, by simp at many; omega⟩
    obtain ⟨known, others⟩ := List.forall_mem_cons.mp each
    obtain ⟨here, further⟩ := List.forall_mem_cons.mp enough
    rw [List.flatten_cons, List.append_assoc] at top
    obtain ⟨between, read, there, reports⟩ :=
      makes fuel _ cursor here (going_segments others line) top
    obtain ⟨after, more, added⟩ := ih others further (Nat.lt_of_succ_lt_succ many) there
    obtain ⟨token, rest, rfl⟩ := known.exists_cons
    have inside : token.isEnd = false := known.inside token List.mem_cons_self
    refine ⟨after, ?_, ?_⟩
    · rw [declarations, bind_ok (current_apply top.rest), inside, if_neg (by simp), bind_ok read,
        bind_ok more]
      rfl
    · rw [added, reports, List.append_assoc]
      rfl

/-- Every segment has a token. -/
theorem length_le_flatten (each : ∀ segment ∈ segments, Segment segment) :
    segments.length ≤ segments.flatten.length := by
  induction segments with
  | nil => exact Nat.le_refl 0
  | cons segment segments ih =>
    obtain ⟨known, others⟩ := List.forall_mem_cons.mp each
    obtain ⟨token, rest, rfl⟩ := known.exists_cons
    have fewer := ih others
    simp only [List.flatten_cons, List.length_append, List.length_cons]
    omega

theorem program_makes (all : List.Forall₂ (Makes stack) segments parts)
    (each : ∀ segment ∈ segments, Segment segment) (line : Int) :
    ∃ cursor, program stack (.start (segments.flatten ++ [final line])) =
        .ok (parts.flatMap (·.stmt.toList)) cursor ∧
      cursor.reports = parts.flatMap (·.reports) := by
  have top : (Cursor.start (segments.flatten ++ [final line])).Top
      (segments.flatten ++ [final line]) := ⟨rfl, rfl, rfl⟩
  have many : segments.length < (segments.flatten ++ [final line]).length + 1 := by
    have fewer := length_le_flatten each
    rw [List.length_append]
    omega
  have enough : ∀ segment ∈ segments, segment.length + 2 ≤
      (segments.flatten ++ [final line]).length + 1 := by
    intro segment member
    have shorter := (List.sublist_flatten_of_mem member).length_le
    rw [List.length_append, List.length_singleton]
    omega
  exact declarations_makes all each enough many top

/-- A program of segments, well formed or not, is read as what each of them is read as alone, one after
another, and what is reported about it is what is reported about each of them alone. A segment makes a
statement at most. If it makes none, the last report about it, and no other, is of an error that aborts
one. -/
theorem program_segments (each : ∀ segment ∈ segments, Segment segment)
    (deep : ∀ segment ∈ segments, segment.countP (·.spells "=") + levelsFor maxNesting < stack) :
    ∃ parts : List Part,
      List.Forall₂
        (fun segment part => part.Sound ∧
          ∀ line, ∃ cursor, program stack (.start (segment ++ [final line])) =
              .ok part.stmt.toList cursor ∧
            cursor.reports = part.reports) segments parts ∧
      ∀ line, ∃ cursor, program stack (.start (segments.flatten ++ [final line])) =
          .ok (parts.flatMap (·.stmt.toList)) cursor ∧
        cursor.reports = parts.flatMap (·.reports) := by
  obtain ⟨parts, all⟩ : ∃ parts, List.Forall₂ (fun segment part => Part.Sound part ∧
      Makes stack segment part ∧ Segment segment) segments parts := by
    induction segments with
    | nil => exact ⟨[], .nil⟩
    | cons segment segments ih =>
      obtain ⟨known, others⟩ := List.forall_mem_cons.mp each
      obtain ⟨low, further⟩ := List.forall_mem_cons.mp deep
      obtain ⟨part, sound, makes⟩ := known.exists_part low
      obtain ⟨parts, all⟩ := ih others further
      exact ⟨part :: parts, .cons ⟨sound, makes, known⟩ all⟩
  refine ⟨parts, all.imp ?_, program_makes (all.imp fun _ _ known => known.2.1) each⟩
  rintro segment part ⟨sound, makes, known⟩
  refine ⟨sound, fun line => ?_⟩
  -- Alone, a segment is a program of one segment.
  have alone : ∀ other ∈ [segment], Segment other := by simpa using known
  obtain ⟨cursor, read, reports⟩ := program_makes (.cons makes .nil) alone line
  simp only [List.flatten_singleton, List.flatMap_singleton] at read reports
  exact ⟨cursor, read, reports⟩

end

/-- A variable declaration without a name, between two statements. -/
theorem program_segments_nameless :
    let semicolon : Token := ⟨.operator, ";", none, 1⟩
    let shown : List Token := [⟨.word "print", "print", none, 1⟩, ⟨.identifier, "a", none, 1⟩, semicolon]
    let nameless : List Token := [⟨.word "var", "var", none, 1⟩, semicolon]
    let named : List Token := [⟨.identifier, "b", none, 1⟩, semicolon]
    let segments := [shown, nameless, named]
    (∀ segment ∈ segments, Segment segment) ∧
    (∀ segment ∈ segments, segment.countP (·.spells "=") + levelsFor maxNesting < 708) ∧
    ∃ parts : List Part,
      List.Forall₂
        (fun segment part => part.Sound ∧
          ∀ line, ∃ cursor, program 708 (.start (segment ++ [final line])) =
              .ok part.stmt.toList cursor ∧
            cursor.reports = part.reports) segments parts ∧
      ∀ line, ∃ cursor, program 708 (.start (segments.flatten ++ [final line])) =
          .ok (parts.flatMap (·.stmt.toList)) cursor ∧
        cursor.reports = parts.flatMap (·.reports) := by
  intro semicolon shown nameless named segments
  have regular : ∀ segment ∈ segments, ∀ token ∈ segment, token.Regular := by
    simp [segments, shown, nameless, named, semicolon, Token.Regular, reservedWords, operatorTexts]
  obtain ⟨first, second, third, -⟩ := by simpa only [segments, List.forall_mem_cons] using regular
  have each : ∀ segment ∈ segments, Segment segment := by
    simp only [segments, List.forall_mem_cons]
    refine ⟨⟨first, by decide, ⟨shown.dropLast, semicolon, rfl, ?_⟩, ?_, ?_, ?_⟩,
      ⟨second, by decide, ⟨nameless.dropLast, semicolon, rfl, ?_⟩, ?_, ?_, ?_⟩,
      ⟨third, by decide, ⟨named.dropLast, semicolon, rfl, ?_⟩, ?_, ?_, ?_⟩, by simp⟩ <;> decide
  have deep : ∀ segment ∈ segments, segment.countP (·.spells "=") + levelsFor maxNesting < 708 := by decide
  exact ⟨each, deep, program_segments each deep⟩

end Lox.Grammar
