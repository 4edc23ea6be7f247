import Lox.Number.Written
import Lox.Text.Quoted

/-!
# Tokens

The units that the scanner hands to the parser. A token carries the exact text it was made from, so
that a syntax tree can be written back and an error can name its line.
-/
namespace Lox

/-- What a token is. A reserved word is a kind of its own, named by its text. -/
inductive Kind where
  | number
  | string
  | identifier
  | operator
  | endOfInput
  | word (text : String)
  deriving DecidableEq, Repr

/-- The constant that a number or string token denotes. -/
inductive Constant where
  | number (value : Float)
  | text (value : String)
  deriving DecidableEq, Repr

structure Token where
  kind : Kind
  lexeme : String
  constant : Option Constant
  line : Int
  deriving DecidableEq, Repr

def Kind.label : Kind → String
  | .number => "NUMBER"
  | .string => "STRING"
  | .identifier => "IDENT"
  | .operator => "OP"
  | .endOfInput => "EOF"
  | .word text => text

/-- The words that are never identifiers. -/
def reservedWords : List String :=
  ["and", "class", "else", "false", "for", "fun", "if", "nil", "or", "print", "return", "super",
    "this", "true", "var", "while"]

/-- A constant in full detail. -/
def Constant.detailed : Constant → String
  | .number value => String.ofList (Number.detailed value)
  | .text value => Text.quote value

namespace Token

/-- A token spells a word or an operator by its text, whatever its kind, unless it is a string. -/
def spells (token : Token) (text : String) : Bool :=
  token.kind != .string && token.lexeme == text

def isEnd (token : Token) : Bool := token.kind == .endOfInput

theorem spells_iff {token : Token} {text : String} :
    token.spells text = true ↔ token.kind ≠ .string ∧ token.lexeme = text := by
  simp [spells]

/-- A token has one spelling. -/
theorem spells_unique {token : Token} {one other : String} (first : token.spells one = true)
    (second : token.spells other = true) : one = other :=
  (spells_iff.mp first).2.symm.trans (spells_iff.mp second).2

theorem spells_eq_false {token : Token} {one other : String} (first : token.spells one = true)
    (different : one ≠ other) : token.spells other = false := by
  cases second : token.spells other with
  | false => rfl
  | true => exact absurd (spells_unique first second) different

theorem isEnd_iff {token : Token} : token.isEnd = true ↔ token.kind = .endOfInput := by
  simp [isEnd]

/-- A token on one line, with everything that it carries. -/
def detailed (token : Token) : String :=
  let constant := match token.constant with
    | some constant => constant.detailed
    | none => "None"
  "Token(" ++ token.kind.label ++ ", " ++ Text.quote token.lexeme ++ ", " ++ constant ++ ", " ++
    toString token.line ++ ")"

end Token

end Lox
