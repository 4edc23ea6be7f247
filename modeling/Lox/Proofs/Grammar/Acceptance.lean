import Lox.Proofs.Grammar.Completeness

/-!
# The parser accepts exactly its grammar

Soundness and completeness together: the tokens of a program text are read without a report exactly
if those before the end of input derive as a program, and what is read is then the tree of that
derivation. Since the same readers work under any cap, the grammar is unambiguous at any nesting.
-/
namespace Lox.Grammar

/-! ### More room -/

/-- Where one more construct may be open, there is room for it. -/
theorem room_of_le {room more : Nat} (enough : room + 1 ≤ more) :
    ∃ less, room ≤ less ∧ more = less + 1 :=
  ⟨more - 1, by omega, by omega⟩

theorem Derives.mono {room more : Nat} {symbol : Symbol} {tokens : List Token} {expr : Expr}
    (derived : Derives room symbol tokens expr) (enough : room ≤ more) :
    Derives more symbol tokens expr := by
  induction derived generalizing more with
  -- Only an expression and a sign use up room.
  | expression _ ih =>
    obtain ⟨more, few, rfl⟩ := room_of_le enough
    exact .expression (ih few)
  | assign named spelled _ ih => exact .assign named spelled (ih enough)
  | operation _ ih => exact .operation (ih enough)
  | operand _ ih => exact .operand (ih enough)
  | join _ spelled _ left right => exact .join (left enough) spelled (right enough)
  | unary _ ih => exact .unary (ih enough)
  | sign spelled _ ih =>
    obtain ⟨more, few, rfl⟩ := room_of_le enough
    exact .sign spelled (ih few)
  | call _ ih => exact .call (ih enough)
  | primary _ ih => exact .primary (ih enough)
  | callBare _ opened closed ih => exact .callBare (ih enough) opened closed
  | callWith _ opened _ commas _ closed few callee first others =>
    exact .callWith (callee enough) opened (first enough) commas
      (fun argument member => others argument member enough) closed few
  | leaf known => exact .leaf known
  | grouping opened _ closed ih => exact .grouping opened (ih enough) closed

section

variable {room more : Nat} {tokens : List Token}

theorem DerivesVariable.mono {stmt : Stmt} (derived : DerivesVariable room tokens stmt)
    (enough : room ≤ more) : DerivesVariable more tokens stmt := by
  cases derived with
  | bare word named stop => exact .bare word named stop
  | initial word named equals value stop =>
    exact .initial word named equals (value.mono enough) stop

theorem DerivesAlone.mono {stmt : Stmt} (derived : DerivesAlone room tokens stmt)
    (enough : room ≤ more) : DerivesAlone more tokens stmt := by
  obtain ⟨value, stop⟩ := derived
  exact ⟨value.mono enough, stop⟩

theorem DerivesInitial.mono {initial : Option Stmt} (derived : DerivesInitial room tokens initial)
    (enough : room ≤ more) : DerivesInitial more tokens initial := by
  cases derived with
  | none stop => exact .none stop
  | declared stated => exact .declared (stated.mono enough)
  | alone stated => exact .alone (stated.mono enough)

theorem DerivesOptional.mono {expr : Option Expr} (derived : DerivesOptional room tokens expr)
    (enough : room ≤ more) : DerivesOptional more tokens expr := by
  cases derived with
  | none => exact .none
  | some derived => exact .some (derived.mono enough)

theorem DerivesStatement.mono {place : Place} {stmt : Stmt} {opened : Bool}
    (derived : DerivesStatement room place tokens stmt opened) (enough : room ≤ more) :
    DerivesStatement more place tokens stmt opened := by
  -- Every construct gives its parts one level less, so there is a level to take away on both sides.
  induction derived generalizing more with
  | declared stated => exact .declared (stated.mono enough)
  | statement _ ih => exact .statement (ih enough)
  | alone stated =>
    obtain ⟨more, few, rfl⟩ := room_of_le enough
    exact .alone (stated.mono few)
  | print word value stop =>
    obtain ⟨more, few, rfl⟩ := room_of_le enough
    exact .print word (value.mono few) stop
  | block opening _ closing ih =>
    obtain ⟨more, few, rfl⟩ := room_of_le enough
    exact .block opening (fun item member => ih item member few) closing
  | ifThen word opening test closing _ ih =>
    obtain ⟨more, few, rfl⟩ := room_of_le enough
    exact .ifThen word opening (test.mono few) closing (ih few)
  | ifElse word opening test closing _ between _ yes no =>
    obtain ⟨more, few, rfl⟩ := room_of_le enough
    exact .ifElse word opening (test.mono few) closing (yes few) between (no few)
  | loop word opening test closing _ ih =>
    obtain ⟨more, few, rfl⟩ := room_of_le enough
    exact .loop word opening (test.mono few) closing (ih few)
  | forLoop word opening first second stop third closing _ ih =>
    obtain ⟨more, few, rfl⟩ := room_of_le enough
    exact .forLoop word opening (first.mono few) (second.mono few) stop
      (third.mono few) closing (ih few)

theorem DerivesProgram.mono {stmts : List Stmt} (derived : DerivesProgram room tokens stmts)
    (enough : room ≤ more) : DerivesProgram more tokens stmts := by
  obtain ⟨items, derived, rfl, rfl⟩ := derived
  exact ⟨items, fun item member => (derived item member).mono enough, rfl, rfl⟩

end

/-! ### Reading programs -/

section Programs

variable {cap stack : Nat} {front : List Token} {last : Token}

theorem Cursor.Regular.under (inside : ∀ token ∈ front, token.Regular ∧ token.isEnd = false)
    (ended : last.isEnd = true) (regular : last.Regular) :
    (Cursor.under cap (front ++ [last])).Regular := by
  refine ⟨⟨last, by simp [Cursor.under], ended⟩, fun token member => ?_⟩
  rcases List.mem_append.mp member with member | member
  · exact (inside token member).1
  · exact List.mem_singleton.mp member ▸ regular

theorem Able.under (inside : ∀ token ∈ front, token.Regular ∧ token.isEnd = false)
    (ended : last.isEnd = true) (regular : last.Regular)
    (deep : front.length + 1 + levelsFor cap < stack) :
    Able ((front ++ [last]).length + 1) cap (stack - 3) (.under cap (front ++ [last])) := by
  have known : (Cursor.under cap (front ++ [last])).Regular := .under inside ended regular
  refine ⟨.under known.ends (Nat.lt_of_le_of_lt (Nat.add_le_add_right ?_ _) deep), known⟩
  exact Nat.le_trans (equalsSigns_le_length _) (by simp)

/-- What derives as a program is read as its tree, up to the end of input. -/
theorem program_reads {stmts : List Stmt} (derived : DerivesProgram cap front stmts)
    (inside : ∀ token ∈ front, token.Regular ∧ token.isEnd = false)
    (ended : last.isEnd = true) (regular : last.Regular)
    (deep : front.length + 1 + levelsFor cap < stack) :
    program stack (.under cap (front ++ [last])) =
      .ok stmts ⟨[last], front.length, 0, cap, []⟩ := by
  have able := Able.under inside ended regular deep
  exact program_complete derived
    ⟨rfl, (Nat.zero_add _).symm, rfl, rfl, rfl, fun token member => (inside token member).2⟩ rfl
    ended able

/-- What is read as a program without a report derives. -/
theorem program_derives {stmts : List Stmt} {after : Cursor}
    (read : program stack (.under cap (front ++ [last])) = .ok stmts after)
    (quiet : after.reports = [])
    (inside : ∀ token ∈ front, token.Regular ∧ token.isEnd = false)
    (ended : last.isEnd = true) (regular : last.Regular) : DerivesProgram cap front stmts := by
  have known : (Cursor.under cap (front ++ [last])).Regular := .under inside ended regular
  have sound := program_sound stack known
  unfold Meets at sound
  rw [read] at sound
  obtain ⟨tokens, reports, reach, derived, token, rest, here, stops⟩ := sound
  have none : reports = [] := by
    rw [reach.reports] at quiet
    exact (List.append_eq_nil_iff.mp quiet).2
  -- The first end of input among the tokens is where reading stopped.
  have same : tokens = front := by
    have whole : front ++ [last] = tokens ++ token :: rest := here ▸ reach.rest
    have first : (front ++ [last]).findIdx Token.isEnd = front.length :=
      findIdx_append_cons (fun token member => (inside token member).2) ended
    rw [whole, findIdx_append_cons reach.inside stops] at first
    exact (List.append_inj_left whole first.symm).symm
  exact same ▸ derived none

/-- A program has one tree, however much room there is. -/
theorem DerivesProgram.unique {room other : Nat} {one two : List Stmt}
    (first : DerivesProgram room front one) (second : DerivesProgram other front two)
    (inside : ∀ token ∈ front, token.Regular ∧ token.isEnd = false) : one = two := by
  -- Under the larger of the two caps both are read, by one reader from one cursor.
  let last : Token := ⟨.endOfInput, "", none, 1⟩
  let stack := front.length + 1 + levelsFor (max room other) + 1
  have read {stmts : List Stmt} (derived : DerivesProgram (max room other) front stmts) :
      program stack (.under (max room other) (front ++ [last])) =
        .ok stmts ⟨[last], front.length, 0, max room other, []⟩ :=
    program_reads derived inside rfl rfl (Nat.lt_succ_self _)
  have same := (read (first.mono (Nat.le_max_left _ _))).symm.trans
    (read (second.mono (Nat.le_max_right _ _)))
  exact (EStateM.Result.ok.inj same).1

/-- The parser accepts exactly its grammar: without a report, it reads the tokens of a program text
if those before the end of input derive as a program, and only then, and it returns the tree that
they stand for. -/
theorem program_accepts (source : String) (stack : Nat)
    (deep : (Source.scan source).tokens.length + levelsFor maxNesting < stack) :
    ∃ stmts cursor, (program stack).run (.start (Source.scan source).tokens) = .ok stmts cursor ∧
      (cursor.reports = [] ↔
        ∃ tree, DerivesProgram maxNesting (Source.scan source).tokens.dropLast tree) ∧
      ∀ tree, DerivesProgram maxNesting (Source.scan source).tokens.dropLast tree →
        stmts = tree := by
  obtain ⟨front, last, scanned, ended, regular, inside⟩ := Source.scan_tokens source
  rw [scanned] at deep ⊢
  rw [List.length_append, List.length_singleton] at deep
  rw [List.dropLast_concat]
  -- A result there is in any case; a derivation then fixes what it is.
  obtain ⟨stmts, cursor, _, _, read, -⟩ := program_returns (.start (front ++ [last]))
    (Able.under inside ended regular deep).ready
  have derives tree (derived : DerivesProgram maxNesting front tree) :=
    read.symm.trans (program_reads derived inside ended regular deep)
  refine ⟨stmts, cursor, read, ⟨fun quiet => ?_, ?_⟩, ?_⟩
  · exact ⟨stmts, program_derives read quiet inside ended regular⟩
  · rintro ⟨tree, derived⟩
    rw [(EStateM.Result.ok.inj (derives tree derived)).2]
  · intro tree derived
    exact (EStateM.Result.ok.inj (derives tree derived)).1

/-- An `else` goes to the nearest `if`, and calls, signs and assignments nest. -/
theorem program_accepts_nested_if :
    let tokens := (Source.scan "if (a) if (b) c = !d; else e(1, 2); else f;").tokens
    ∃ stmts cursor, (program 800).run (.start tokens) = .ok stmts cursor ∧
      (cursor.reports = [] ↔ ∃ tree, DerivesProgram maxNesting tokens.dropLast tree) ∧
      ∀ tree, DerivesProgram maxNesting tokens.dropLast tree → stmts = tree :=
  program_accepts "if (a) if (b) c = !d; else e(1, 2); else f;" 800 (by decide +kernel)

end Programs

end Lox.Grammar
