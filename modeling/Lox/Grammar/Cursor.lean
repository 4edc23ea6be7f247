import Lox.StaticError
import Lox.Token

/-!
# Reading tokens

A cursor over a list of tokens and the steps that every reader is built from. The end of input is
never passed. A reader that stops leaves its cursor where it stopped, with all that it reported.
-/
namespace Lox.Grammar

structure Cursor where
  /-- The tokens from the current one on. -/
  rest : List Token
  /-- How many tokens have been passed. -/
  position : Nat
  /-- How many statements, expressions and unary operators are open. -/
  depth : Nat
  /-- How many of them may be open at once. -/
  cap : Nat
  reports : List StaticReport
  deriving DecidableEq, Repr

/-- At most this many constructs are open at once in a program. -/
def maxNesting : Nat := 64

/-- A cursor at the first of some tokens, with a cap on what may be open. -/
def Cursor.under (cap : Nat) (tokens : List Token) : Cursor := ⟨tokens, 0, 0, cap, []⟩

/-- A cursor at the first token of a program. -/
def Cursor.start (tokens : List Token) : Cursor := .under maxNesting tokens

/-- Why a reader stops without a result. -/
inductive Stop where
  /-- The text is not what the grammar calls for at a token. -/
  | refused (error : StaticError) (token : Token)
  /-- The stack, or the rounds that a loop may make, are used up. -/
  | overflow
  /-- The tokens ran out before an end of input. -/
  | exhausted
  deriving DecidableEq, Repr

abbrev Read := EStateM Stop Cursor

/-! ### Steps -/

/-- The token under the cursor. -/
def current : Read Token := fun cursor =>
  match cursor.rest with
  | [] => .error .exhausted cursor
  | token :: _ => .ok token cursor

/-- Passes the current token and returns it. The end of input is returned, but not passed. -/
def advance : Read Token := fun cursor =>
  match cursor.rest with
  | [] => .error .exhausted cursor
  | token :: rest =>
    if token.isEnd then .ok token cursor
    else .ok token { cursor with rest, position := cursor.position + 1 }

/-- Stops at the current token. -/
def refuse {α : Type} (error : StaticError) : Read α := do
  throw (.refused error (← current))

/-- Reports an error without stopping. -/
def report (token : Token) (error : StaticError) : Read Unit := fun cursor =>
  .ok () { cursor with reports := cursor.reports ++ [⟨token.line, error⟩] }

/-- Passes a token that must be spelled as given. -/
def expect (text what : String) : Read Token := do
  if (← current).spells text then advance else refuse (.expected what)

/-- Passes a name. -/
def expectName (what : String) : Read Token := do
  if (← current).kind = .identifier then advance else refuse (.expected what)

/-- Reads with one more construct open. The depth is as before afterwards, whatever the outcome. -/
def nested {α : Type} (construct : Nesting) (body : Read α) : Read α := fun cursor =>
  if cursor.cap ≤ cursor.depth then refuse (.tooDeep construct) cursor
  else
    match body { cursor with depth := cursor.depth + 1 } with
    | .ok result after => .ok result { after with depth := after.depth - 1 }
    | .error stop after => .error stop { after with depth := after.depth - 1 }

/-- Takes some levels of the stack and reads on what is left of it. -/
def calling {α : Type} (levels stack : Nat) (body : Nat → Read α) : Read α :=
  if levels ≤ stack then body (stack - levels) else throw .overflow

/-! ### Recovery -/

/-- The words that a statement can start with. -/
def statementWords : List String :=
  ["class", "fun", "var", "for", "if", "while", "print", "return"]

/-- Whether a token begins a statement by its kind. -/
def startsStatement (token : Token) : Bool :=
  match token.kind with
  | .word text => statementWords.contains text
  | _ => false

/-- How many tokens to skip to a likely statement border: after a semicolon, before a token that
begins a statement, or at the end. -/
def toBorder (previous : Token) : List Token → Nat
  | [] => 0
  | token :: rest =>
    if token.isEnd || previous.lexeme == ";" || startsStatement token then 0
    else toBorder token rest + 1

/-- Passes the current token and all others before a likely statement border. -/
def recover : Read Unit := do
  let passed ← advance
  modify fun cursor =>
    let skipped := toBorder passed cursor.rest
    { cursor with rest := cursor.rest.drop skipped, position := cursor.position + skipped }
  discard current

end Lox.Grammar
