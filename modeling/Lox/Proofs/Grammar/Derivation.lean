import Lox.Grammar.Statement

/-!
# The grammar

The programs of the language, told by productions and not by how they are read. A derivation shows
which tokens it spans, which tree they stand for, and how many statements, expressions and signs it
has open at once at most. The tokens in the tree are the very tokens of the text.

Two productions have conditions that go beyond the symbols on their right side: a call has a bounded
number of arguments, and an `else` belongs to the nearest `if` before it that can take it.
-/
namespace Lox.Grammar

/-! ### Expressions -/

/-- The symbols from which expressions derive. -/
inductive Symbol where
  | expression
  | assignment
  /-- Operands joined by the operators of some levels, the loosest first. -/
  | operation (levels : List Level)
  | unary
  | call
  | primary

/-- The expressions of a single token. -/
inductive Leaf : Token → Expr → Prop where
  | number {token : Token} : token.kind = .number → Leaf token (.literal token.value)
  | text {token : Token} : token.kind = .string → Leaf token (.literal token.value)
  | yes {token : Token} : token.kind = .word "true" → Leaf token (.literal (.bool true))
  | no {token : Token} : token.kind = .word "false" → Leaf token (.literal (.bool false))
  | nil {token : Token} : token.kind = .word "nil" → Leaf token (.literal .nil)
  | name {token : Token} : token.kind = .identifier → Leaf token (.name token)

/-- An argument after the first, with the comma before it. -/
structure Argument where
  comma : Token
  tokens : List Token
  expr : Expr

/-- All tokens of an argument. -/
def Argument.span (argument : Argument) : List Token := argument.comma :: argument.tokens

/-- `Derives room symbol tokens expr`: from the symbol derive the tokens, which stand for the
expression, and no more than `room` constructs are open at once. -/
inductive Derives : Nat → Symbol → List Token → Expr → Prop where
  | expression {room : Nat} {tokens : List Token} {expr : Expr} :
      Derives room .assignment tokens expr → Derives (room + 1) .expression tokens expr
  | assign {room : Nat} {target equals : Token} {tokens : List Token} {value : Expr} :
      target.kind = .identifier → equals.spells "=" = true →
      Derives room .assignment tokens value →
      Derives room .assignment (target :: equals :: tokens) (.assign target value)
  | operation {room : Nat} {tokens : List Token} {expr : Expr} :
      Derives room (.operation levels) tokens expr → Derives room .assignment tokens expr
  | operand {room : Nat} {level : Level} {tighter : List Level} {tokens : List Token}
      {expr : Expr} :
      Derives room (.operation tighter) tokens expr →
      Derives room (.operation (level :: tighter)) tokens expr
  | join {room : Nat} {level : Level} {tighter : List Level} {before after : List Token}
      {op : Token} {left right : Expr} :
      Derives room (.operation (level :: tighter)) before left →
      (∃ text ∈ level.operators, op.spells text = true) →
      Derives room (.operation tighter) after right →
      Derives room (.operation (level :: tighter)) (before ++ op :: after)
        (level.join left op right)
  | unary {room : Nat} {tokens : List Token} {expr : Expr} :
      Derives room .unary tokens expr → Derives room (.operation []) tokens expr
  | sign {room : Nat} {op : Token} {tokens : List Token} {operand : Expr} :
      op.spells "!" = true ∨ op.spells "-" = true → Derives room .unary tokens operand →
      Derives (room + 1) .unary (op :: tokens) (.unary op operand)
  | call {room : Nat} {tokens : List Token} {expr : Expr} :
      Derives room .call tokens expr → Derives room .unary tokens expr
  | primary {room : Nat} {tokens : List Token} {expr : Expr} :
      Derives room .primary tokens expr → Derives room .call tokens expr
  | callBare {room : Nat} {tokens : List Token} {opening closing : Token} {callee : Expr} :
      Derives room .call tokens callee → opening.spells "(" = true → closing.spells ")" = true →
      Derives room .call (tokens ++ [opening, closing]) (.call callee closing [])
  | callWith {room : Nat} {tokens given : List Token} {opening closing : Token}
      {callee first : Expr} {others : List Argument} :
      Derives room .call tokens callee → opening.spells "(" = true →
      Derives room .expression given first →
      (∀ argument ∈ others, argument.comma.spells "," = true) →
      (∀ argument ∈ others, Derives room .expression argument.tokens argument.expr) →
      closing.spells ")" = true → others.length < maxArguments →
      Derives room .call
        (tokens ++ opening :: given ++ others.flatMap Argument.span ++ [closing])
        (.call callee closing (first :: others.map Argument.expr))
  | leaf {room : Nat} {token : Token} {expr : Expr} :
      Leaf token expr → Derives room .primary [token] expr
  | grouping {room : Nat} {opening closing : Token} {tokens : List Token} {inner : Expr} :
      opening.spells "(" = true → Derives room .expression tokens inner →
      closing.spells ")" = true →
      Derives room .primary (opening :: tokens ++ [closing]) (.grouping inner)

/-! ### Parts of statements -/

/-- A variable declaration. -/
inductive DerivesVariable (room : Nat) : List Token → Stmt → Prop where
  | bare {word target stop : Token} :
      word.spells "var" = true → target.kind = .identifier → stop.spells ";" = true →
      DerivesVariable room [word, target, stop] (.declare target none)
  | initial {word target equals stop : Token} {tokens : List Token} {value : Expr} :
      word.spells "var" = true → target.kind = .identifier → equals.spells "=" = true →
      Derives room .expression tokens value → stop.spells ";" = true →
      DerivesVariable room (word :: target :: equals :: tokens ++ [stop])
        (.declare target (some value))

/-- An expression that stands as a statement. -/
inductive DerivesAlone (room : Nat) : List Token → Stmt → Prop where
  | alone {stop : Token} {tokens : List Token} {value : Expr} :
      Derives room .expression tokens value → stop.spells ";" = true →
      DerivesAlone room (tokens ++ [stop]) (.expression value)

/-- The first clause of a `for` statement. -/
inductive DerivesInitial (room : Nat) : List Token → Option Stmt → Prop where
  | none {stop : Token} : stop.spells ";" = true → DerivesInitial room [stop] none
  | declared {tokens : List Token} {stmt : Stmt} :
      DerivesVariable room tokens stmt → DerivesInitial room tokens (some stmt)
  | alone {tokens : List Token} {stmt : Stmt} :
      DerivesAlone room tokens stmt → DerivesInitial room tokens (some stmt)

/-- An expression that may be left out. -/
inductive DerivesOptional (room : Nat) : List Token → Option Expr → Prop where
  | none : DerivesOptional room [] none
  | some {tokens : List Token} {expr : Expr} :
      Derives room .expression tokens expr → DerivesOptional room tokens (some expr)

/-! ### Statements -/

/-- Where a statement stands: variables are declared only in lists of declarations. -/
inductive Place where
  | declaration
  | statement

/-- A statement of a list, with the tokens that it derives from. -/
structure Item where
  tokens : List Token
  stmt : Stmt
  /-- Whether it ends in an `if` that could take an `else`. -/
  opened : Bool

/-- `DerivesStatement room place tokens stmt opened`: at the place derive the tokens, which stand for
the statement, and no more than `room` constructs are open at once. An `opened` statement ends in an
`if` that could take an `else`. -/
inductive DerivesStatement : Nat → Place → List Token → Stmt → Bool → Prop where
  | declared {room : Nat} {tokens : List Token} {stmt : Stmt} :
      DerivesVariable room tokens stmt → DerivesStatement room .declaration tokens stmt false
  | statement {room : Nat} {tokens : List Token} {stmt : Stmt} {opened : Bool} :
      DerivesStatement room .statement tokens stmt opened →
      DerivesStatement room .declaration tokens stmt opened
  | alone {room : Nat} {tokens : List Token} {stmt : Stmt} :
      DerivesAlone room tokens stmt → DerivesStatement (room + 1) .statement tokens stmt false
  | print {room : Nat} {word stop : Token} {tokens : List Token} {value : Expr} :
      word.spells "print" = true → Derives room .expression tokens value →
      stop.spells ";" = true →
      DerivesStatement (room + 1) .statement (word :: tokens ++ [stop]) (.print value) false
  | block {room : Nat} {opening closing : Token} {items : List Item} :
      opening.spells "\x7b" = true →
      (∀ item ∈ items, DerivesStatement room .declaration item.tokens item.stmt item.opened) →
      closing.spells "\x7d" = true →
      DerivesStatement (room + 1) .statement (opening :: items.flatMap Item.tokens ++ [closing])
        (.block (items.map Item.stmt)) false
  | ifThen {room : Nat} {word opening closing : Token} {test first : List Token}
      {condition : Expr} {yes : Stmt} {opened : Bool} :
      word.spells "if" = true → opening.spells "(" = true →
      Derives room .expression test condition → closing.spells ")" = true →
      DerivesStatement room .statement first yes opened →
      DerivesStatement (room + 1) .statement (word :: opening :: test ++ closing :: first)
        (.branch condition yes none) true
  | ifElse {room : Nat} {word opening closing between : Token} {test first second : List Token}
      {condition : Expr} {yes no : Stmt} {opened : Bool} :
      word.spells "if" = true → opening.spells "(" = true →
      Derives room .expression test condition → closing.spells ")" = true →
      DerivesStatement room .statement first yes false → between.spells "else" = true →
      DerivesStatement room .statement second no opened →
      DerivesStatement (room + 1) .statement
        (word :: opening :: test ++ closing :: first ++ between :: second)
        (.branch condition yes (some no)) opened
  | loop {room : Nat} {word opening closing : Token} {test tokens : List Token}
      {condition : Expr} {body : Stmt} {opened : Bool} :
      word.spells "while" = true → opening.spells "(" = true →
      Derives room .expression test condition → closing.spells ")" = true →
      DerivesStatement room .statement tokens body opened →
      DerivesStatement (room + 1) .statement (word :: opening :: test ++ closing :: tokens)
        (.loop condition body) opened
  | forLoop {room : Nat} {word opening stop closing : Token}
      {first second third tokens : List Token} {initial : Option Stmt}
      {condition increment : Option Expr} {body : Stmt} {opened : Bool} :
      word.spells "for" = true → opening.spells "(" = true →
      DerivesInitial room first initial → DerivesOptional room second condition →
      stop.spells ";" = true → DerivesOptional room third increment →
      closing.spells ")" = true → DerivesStatement room .statement tokens body opened →
      DerivesStatement (room + 1) .statement
        (word :: opening :: first ++ second ++ stop :: third ++ closing :: tokens)
        (forLoop initial (condition.getD (.literal (.bool true))) increment body) opened

/-- A program is a list of declarations. -/
def DerivesProgram (room : Nat) (tokens : List Token) (stmts : List Stmt) : Prop :=
  ∃ items : List Item,
    (∀ item ∈ items, DerivesStatement room .declaration item.tokens item.stmt item.opened) ∧
      tokens = items.flatMap Item.tokens ∧ stmts = items.map Item.stmt

end Lox.Grammar
