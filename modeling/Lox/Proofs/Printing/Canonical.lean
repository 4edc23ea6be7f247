import Lox.Proofs.Grammar.Derivation
import Lox.Proofs.Source.Scanned

/-!
# What is read is written as it is

A tree that derives from scanned tokens can be written, and the printer adds no parentheses of its
own: where an operand would fall short of its place, the grammar calls for a grouping already.
-/
namespace Lox

open Grammar

/-- An expression that can be written and needs no groupings that it does not have, in a place that
calls for a precedence. -/
structure Expr.Canonical (least : Nat) (expr : Expr) : Prop where
  printable : expr.Printable
  written : expr.written = expr
  tight : least ≤ expr.tightness

/-- A statement that can be written and needs no groupings that it does not have. -/
structure Stmt.Canonical (stmt : Stmt) : Prop where
  printable : stmt.Printable
  written : stmt.written = stmt

namespace Expr.Canonical

variable {expr : Expr} {least : Nat}

theorem loosen {looser : Nat} (canonical : expr.Canonical least) (enough : looser ≤ least) :
    expr.Canonical looser :=
  ⟨canonical.printable, canonical.written, Nat.le_trans enough canonical.tight⟩

/-- In its place the expression stands without parentheses. -/
theorem guarded (canonical : expr.Canonical least) : expr.written.guarded least = expr := by
  rw [canonical.written, guarded_of_le canonical.tight]

end Expr.Canonical

/-- Statements that need no groupings are written as they are. -/
theorem Stmt.map_written {stmts : List Stmt} (canonical : ∀ stmt ∈ stmts, stmt.Canonical) :
    stmts.map Stmt.written = stmts :=
  (List.map_congr_left fun stmt member => (canonical stmt member).written).trans (List.map_id _)

namespace Grammar

/-! ### Expressions -/

/-- How tightly the expressions of a symbol hold together at least. -/
def Symbol.least : Symbol → Nat
  | .expression | .assignment => Precedence.assignment
  | .operation tighter => Precedence.unary - tighter.length
  | .unary => Precedence.unary
  | .call => Precedence.call
  | .primary => Precedence.primary

/-- The operations of a symbol are those of the tightest levels. -/
def Symbol.Known : Symbol → Prop
  | .operation tighter => tighter <:+ levels
  | _ => True

/-- A level with all that are tighter, by its number. -/
theorem level_of_suffix {level : Level} {tighter : List Level} (known : level :: tighter <:+ levels) :
    ∃ index, levels[index]? = some level ∧
      index + 2 = Precedence.unary - (tighter.length + 1) ∧
      index + 3 = Precedence.unary - tighter.length := by
  obtain ⟨front, whole⟩ := known
  have count : front.length + (tighter.length + 1) = levels.length := by
    simpa using congrArg List.length whole
  change _ = 6 at count
  refine ⟨front.length, ?_, ?_, ?_⟩
  · rw [← whole]
    simp
  · change _ = 8 - _
    omega
  · change _ = 8 - _
    omega

/-- What an operator's level tells about it. -/
theorem operator_level {index : Nat} {level : Level} {text : String}
    (known : levels[index]? = some level) (member : text ∈ level.operators) :
    Precedence.ofOperator? text = some (index + 2) ∧
      (level.shortCircuit = true → text ∈ ["or", "and"]) ∧
      (level.shortCircuit = false → text ∈ binaryOperators ∧ text ∈ operatorTexts) := by
  have all : ∀ entry ∈ levels.zipIdx, ∀ text ∈ entry.1.operators,
      Precedence.ofOperator? text = some (entry.2 + 2) ∧
        (entry.1.shortCircuit = true → text ∈ ["or", "and"]) ∧
        (entry.1.shortCircuit = false → text ∈ binaryOperators ∧ text ∈ operatorTexts) := by decide
  exact all (level, index) (List.mem_zipIdx_iff_getElem?.mpr known) text member

section

variable {room : Nat} {tokens : List Token}

theorem Leaf.canonical {token : Token} {expr : Expr} (leaf : Leaf token expr)
    (scanned : token.Scanned) : expr.Canonical Precedence.primary := by
  cases leaf with
  | number kind => exact ⟨.literal (scanned.printable (.inl kind)), rfl, Nat.le_refl _⟩
  | text kind => exact ⟨.literal (scanned.printable (.inr kind)), rfl, Nat.le_refl _⟩
  | yes | no | nil => exact ⟨.literal trivial, rfl, Nat.le_refl _⟩
  | name kind => exact ⟨.name (scanned.names kind), rfl, Nat.le_refl _⟩

/-- Operands of a level and of the one above it need no parentheses beside an operator of it. -/
theorem canonical_join {level : Level} {tighter : List Level} {left right : Expr} {op : Token}
    (known : level :: tighter <:+ levels) (scanned : op.Scanned)
    (spelled : ∃ text ∈ level.operators, op.spells text = true)
    (first : left.Canonical (Precedence.unary - (tighter.length + 1)))
    (second : right.Canonical (Precedence.unary - tighter.length)) :
    (level.join left op right).Canonical (Precedence.unary - (tighter.length + 1)) := by
  obtain ⟨index, found, place, next⟩ := level_of_suffix known
  obtain ⟨text, member, shows⟩ := spelled
  obtain ⟨binds, connects, operates⟩ := operator_level found member
  rw [← place] at first ⊢
  rw [← next] at second
  have lexeme : op.lexeme = text := (Token.spells_iff.mp shows).2
  rw [← lexeme] at binds
  unfold Level.join
  -- A level makes nodes of one kind only, and all its operators are of that kind.
  cases kind : level.shortCircuit with
  | true =>
    refine ⟨.logical (scanned.connects shows (connects kind)) first.printable second.printable, ?_, ?_⟩
    · change (Expr.logical op left right).written = _
      rw [Expr.written_logical binds, first.guarded, second.guarded]
      rfl
    · exact Nat.le_of_eq (Expr.tightness_logical binds).symm
  | false =>
    obtain ⟨among, operator⟩ := operates kind
    refine ⟨.binary (scanned.operates shows among operator) first.printable second.printable, ?_, ?_⟩
    · change (Expr.binary op left right).written = _
      rw [Expr.written_binary binds, first.guarded, second.guarded]
      rfl
    · exact Nat.le_of_eq (Expr.tightness_binary binds).symm

/-- The arguments of a call need no parentheses. -/
theorem canonical_call {callee : Expr} {closing : Token} {arguments : List Expr}
    (canonical : callee.Canonical Precedence.call) (scanned : closing.Scanned)
    (closes : closing.spells ")" = true)
    (all : ∀ expr ∈ arguments, expr.Canonical Precedence.assignment)
    (few : arguments.length ≤ maxArguments) :
    (Expr.call callee closing arguments).Canonical Precedence.call := by
  refine ⟨.call canonical.printable (scanned.operates closes (by decide) (by decide))
    (fun expr member => (all expr member).printable) few, ?_, Nat.le_refl _⟩
  rw [Expr.written_call, canonical.guarded]
  congr 1
  exact (List.map_congr_left fun expr member => (all expr member).guarded).trans (List.map_id _)

/-- What derives from scanned tokens can be written and needs no parentheses of the printer's. -/
theorem Derives.canonical {symbol : Symbol} {expr : Expr} (derived : Derives room symbol tokens expr)
    (known : symbol.Known) (scanned : ∀ token ∈ tokens, token.Scanned) :
    expr.Canonical symbol.least := by
  -- A level is known as what is left of all levels, so the operands of one inherit the rest.
  induction derived with
  | expression _ ih => exact ih trivial scanned
  | assign kind spelled _ ih =>
    simp only [List.forall_mem_cons] at scanned
    have value := ih trivial scanned.2.2
    refine ⟨.assign (scanned.1.names kind) value.printable, ?_, Nat.le_refl _⟩
    exact congrArg (Expr.assign _) value.guarded
  | operation _ ih => exact (ih (List.suffix_refl _) scanned).loosen (by decide)
  | operand _ ih =>
    have known := (List.suffix_cons _ _).trans known
    exact (ih known scanned).loosen (Nat.sub_le_sub_left (Nat.le_succ _) _)
  | join _ spelled _ left right =>
    simp only [List.forall_mem_append, List.forall_mem_cons] at scanned
    exact canonical_join known scanned.2.1 spelled (left known scanned.1)
      (right ((List.suffix_cons _ _).trans known) scanned.2.2)
  | unary _ ih => exact ih trivial scanned
  | @sign _ op _ _ spelled _ ih =>
    rw [List.forall_mem_cons] at scanned
    have operand := ih trivial scanned.2
    have operates : op.Operates ["!", "-"] := by
      rcases spelled with shows | shows
      · exact scanned.1.operates shows (by decide) (by decide)
      · exact scanned.1.operates shows (by decide) (by decide)
    refine ⟨.unary operates operand.printable, ?_, Nat.le_refl _⟩
    exact congrArg (Expr.unary _) operand.guarded
  | call _ ih => exact (ih trivial scanned).loosen (by decide)
  | primary _ ih => exact (ih trivial scanned).loosen (by decide)
  | callBare _ opened closed ih =>
    simp only [List.forall_mem_append, List.forall_mem_cons] at scanned
    exact canonical_call (ih trivial scanned.1) scanned.2.2.1 closed nofun (Nat.zero_le _)
  | callWith _ opened _ commas _ closed few callee first others =>
    simp only [List.forall_mem_append, List.forall_mem_cons] at scanned
    obtain ⟨⟨⟨before, -, given⟩, more⟩, last, -⟩ := scanned
    refine canonical_call (callee trivial before) last closed ?_ ?_
    · rw [List.forall_mem_cons, List.forall_mem_map]
      refine ⟨first trivial given, fun argument member => others argument member trivial ?_⟩
      intro token inside
      exact more token (List.mem_flatMap.mpr ⟨argument, member, List.mem_cons_of_mem _ inside⟩)
    · rw [List.length_cons, List.length_map]
      exact few
  | leaf leaf => exact leaf.canonical (scanned _ (List.mem_singleton_self _))
  | grouping opened _ closed ih =>
    simp only [List.forall_mem_append, List.forall_mem_cons] at scanned
    have inner := ih trivial scanned.1.2
    exact ⟨.grouping inner.printable, congrArg Expr.grouping inner.guarded, Nat.le_refl _⟩

/-- An expression that stands alone, from scanned tokens. -/
theorem Derives.standing {expr : Expr} (derived : Derives room .expression tokens expr)
    (scanned : ∀ token ∈ tokens, token.Scanned) : expr.Canonical Precedence.assignment :=
  derived.canonical trivial scanned

/-! ### Statements -/

theorem DerivesVariable.canonical {stmt : Stmt} (derived : DerivesVariable room tokens stmt)
    (scanned : ∀ token ∈ tokens, token.Scanned) : stmt.Canonical := by
  cases derived with
  | bare word kind stop =>
    simp only [List.forall_mem_cons] at scanned
    exact ⟨.declare (scanned.2.1.names kind), rfl⟩
  | initial word kind equals value stop =>
    simp only [List.forall_mem_append, List.forall_mem_cons] at scanned
    obtain ⟨⟨-, target, -, given⟩, -⟩ := scanned
    have initial := value.standing given
    refine ⟨.declareAs (target.names kind) initial.printable, ?_⟩
    exact congrArg (Stmt.declare _ ∘ some) initial.written

theorem DerivesAlone.canonical {stmt : Stmt} (derived : DerivesAlone room tokens stmt)
    (scanned : ∀ token ∈ tokens, token.Scanned) : stmt.Canonical := by
  obtain ⟨value, stop⟩ := derived
  have value := value.standing (List.forall_mem_append.mp scanned).1
  exact ⟨.expression value.printable, congrArg Stmt.expression value.written⟩

theorem DerivesInitial.canonical {stmt : Stmt} (derived : DerivesInitial room tokens (some stmt))
    (scanned : ∀ token ∈ tokens, token.Scanned) : stmt.Canonical := by
  cases derived with
  | declared stated => exact stated.canonical scanned
  | alone stated => exact stated.canonical scanned

theorem DerivesOptional.canonical {expr : Expr} (derived : DerivesOptional room tokens (Option.some expr))
    (scanned : ∀ token ∈ tokens, token.Scanned) : expr.Canonical Precedence.assignment := by
  cases derived with
  | some derived => exact derived.standing scanned

/-- The members of a block that needs no groupings need none. -/
theorem canonical_block {body : List Stmt} (all : ∀ stmt ∈ body, stmt.Canonical) :
    (Stmt.block body).Canonical := by
  refine ⟨.block fun stmt member => (all stmt member).printable, ?_⟩
  unfold Stmt.written
  rw [Stmt.rebuild_block]
  exact congrArg Stmt.block (Stmt.map_written all)

theorem canonical_loop {condition : Expr} {body : Stmt}
    (test : condition.Canonical Precedence.assignment) (canonical : body.Canonical)
    (plain : body.declares = false) : (Stmt.loop condition body).Canonical := by
  refine ⟨.loop test.printable canonical.printable plain, ?_⟩
  change Stmt.loop condition.written body.written = _
  rw [test.written, canonical.written]

theorem canonical_ifThen {condition : Expr} {yes : Stmt}
    (test : condition.Canonical Precedence.assignment) (first : yes.Canonical)
    (plain : yes.declares = false) : (Stmt.branch condition yes none).Canonical := by
  refine ⟨.ifThen test.printable first.printable plain, ?_⟩
  change Stmt.branch condition.written yes.written none = _
  rw [test.written, first.written]

theorem canonical_ifElse {condition : Expr} {yes no : Stmt}
    (test : condition.Canonical Precedence.assignment) (first : yes.Canonical)
    (plain : yes.declares = false) (closed : yes.isOpen = false) (second : no.Canonical)
    (other : no.declares = false) : (Stmt.branch condition yes (some no)).Canonical := by
  refine ⟨.ifElse test.printable first.printable plain closed second.printable other, ?_⟩
  change Stmt.branch condition.written yes.written (some no.written) = _
  rw [test.written, first.written, second.written]

/-- The loop that a `for` statement stands for. -/
theorem canonical_forLoop {initial : Option Stmt} {condition : Expr} {increment : Option Expr}
    {body : Stmt} (first : ∀ stmt, initial = some stmt → stmt.Canonical)
    (test : condition.Canonical Precedence.assignment)
    (step : ∀ expr, increment = some expr → expr.Canonical Precedence.assignment)
    (canonical : body.Canonical) (plain : body.declares = false) :
    (forLoop initial condition increment body).Canonical := by
  have whole : (forLoop none condition increment body).Canonical := by
    cases increment with
    | none => exact canonical_loop test canonical plain
    | some expr =>
      have last : (Stmt.expression expr).Canonical :=
        ⟨.expression (step expr rfl).printable, congrArg Stmt.expression (step expr rfl).written⟩
      exact canonical_loop test (canonical_block (by simp [canonical, last])) rfl
  cases initial with
  | none => exact whole
  | some stmt =>
    change (Stmt.block [stmt, forLoop none condition increment body]).Canonical
    exact canonical_block (by simp [first stmt rfl, whole])

/-- What a `for` statement stands for is no declaration, and is open only if its body is. -/
theorem forLoop_ends {initial : Option Stmt} {condition : Expr} {increment : Option Expr}
    {body : Stmt} : (forLoop initial condition increment body).declares = false ∧
      ((forLoop initial condition increment body).isOpen = true → body.isOpen = true) := by
  cases initial <;> cases increment <;> simp [forLoop, Stmt.declares, Stmt.isOpen]

/-- What derives from scanned tokens can be written and needs no parentheses of the printer's. It is
open only where the derivation shows so, and a declaration only where one may stand. -/
theorem DerivesStatement.canonical {place : Place} {stmt : Stmt} {opened : Bool}
    (derived : DerivesStatement room place tokens stmt opened)
    (scanned : ∀ token ∈ tokens, token.Scanned) :
    stmt.Canonical ∧ (place = .statement → stmt.declares = false) ∧
      (stmt.isOpen = true → opened = true) := by
  -- The printer braces nothing, so a branch with an `else` needs a first part that is closed.
  induction derived with
  | declared stated =>
    refine ⟨stated.canonical scanned, nofun, ?_⟩
    cases stated <;> exact nofun
  | statement _ ih => exact ⟨(ih scanned).1, nofun, (ih scanned).2.2⟩
  | alone stated =>
    refine ⟨stated.canonical scanned, ?_, ?_⟩
    · cases stated
      exact fun _ => rfl
    · cases stated
      exact nofun
  | print word value stop =>
    simp only [List.forall_mem_append, List.forall_mem_cons] at scanned
    have value := value.standing scanned.1.2
    exact ⟨⟨.print value.printable, congrArg Stmt.print value.written⟩, fun _ => rfl, nofun⟩
  | block opening _ closing ih =>
    simp only [List.forall_mem_append, List.forall_mem_cons] at scanned
    refine ⟨canonical_block ?_, fun _ => rfl, nofun⟩
    rw [List.forall_mem_map]
    intro item member
    refine (ih item member fun token inside => ?_).1
    exact scanned.1.2 token (List.mem_flatMap.mpr ⟨item, member, inside⟩)
  | ifThen word opening test closing _ ih =>
    simp only [List.forall_mem_append, List.forall_mem_cons] at scanned
    obtain ⟨⟨-, -, given⟩, -, first⟩ := scanned
    obtain ⟨yes, plain, -⟩ := ih first
    exact ⟨canonical_ifThen (test.standing given) yes (plain rfl), fun _ => rfl, fun _ => rfl⟩
  | ifElse word opening test closing _ between _ one two =>
    simp only [List.forall_mem_append, List.forall_mem_cons] at scanned
    obtain ⟨⟨⟨-, -, given⟩, -, first⟩, -, second⟩ := scanned
    obtain ⟨yes, plain, closed⟩ := one first
    obtain ⟨no, other, isOpen⟩ := two second
    exact ⟨canonical_ifElse (test.standing given) yes (plain rfl)
      (Bool.eq_false_iff.mpr fun known => Bool.false_ne_true (closed known)) no (other rfl),
      fun _ => rfl, isOpen⟩
  | loop word opening test closing _ ih =>
    simp only [List.forall_mem_append, List.forall_mem_cons] at scanned
    obtain ⟨⟨-, -, given⟩, -, inner⟩ := scanned
    obtain ⟨body, plain, isOpen⟩ := ih inner
    exact ⟨canonical_loop (test.standing given) body (plain rfl), fun _ => rfl, isOpen⟩
  | forLoop word opening first second stop third closing _ ih =>
    simp only [List.forall_mem_append, List.forall_mem_cons] at scanned
    obtain ⟨⟨⟨⟨-, -, one⟩, two⟩, -, three⟩, -, inner⟩ := scanned
    obtain ⟨body, plain, isOpen⟩ := ih inner
    refine ⟨canonical_forLoop ?_ ?_ ?_ body (plain rfl), fun _ => forLoop_ends.1,
      fun known => isOpen (forLoop_ends.2 known)⟩
    · rintro stmt rfl
      exact first.canonical one
    · cases second with
      | none => exact ⟨.literal trivial, rfl, by decide⟩
      | some derived => exact derived.standing two
    · rintro expr rfl
      exact third.canonical three

/-- Every statement of a program that derives from scanned tokens can be written as it is. -/
theorem DerivesProgram.canonical {stmts : List Stmt} (derived : DerivesProgram room tokens stmts)
    (scanned : ∀ token ∈ tokens, token.Scanned) : ∀ stmt ∈ stmts, stmt.Canonical := by
  obtain ⟨items, derived, rfl, rfl⟩ := derived
  rw [List.forall_mem_map]
  intro item member
  refine ((derived item member).canonical fun token inside => ?_).1
  exact scanned token (List.mem_flatMap.mpr ⟨item, member, inside⟩)

end

end Grammar

end Lox
