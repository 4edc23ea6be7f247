import Lox.Text.Quoted

/-!
# Static errors

What can be wrong with a program text before any of it runs, and how it is worded.
-/
namespace Lox

/-- The two kinds of construct whose nesting is bounded. -/
inductive Nesting where
  | statement
  | expression
  deriving DecidableEq, Repr

/-- A call takes at most this many arguments. -/
def maxArguments : Nat := 255

inductive StaticError where
  /-- A character that starts no token. -/
  | unexpectedCharacter (c : Char)
  /-- A string whose closing quote is missing. -/
  | unterminatedString
  /-- Something else stands where a construct was due. -/
  | expected (what : String)
  /-- More constructs are open at once than the parser allows. -/
  | tooDeep (construct : Nesting)
  /-- The left side of an assignment is not a bare name. -/
  | invalidTarget
  | tooManyArguments
  deriving DecidableEq, Repr

def Nesting.word : Nesting → String
  | .statement => "Statement"
  | .expression => "Expression"

def StaticError.message : StaticError → String
  | .unexpectedCharacter c => "Unexpected character " ++ Text.quote (String.singleton c) ++ "."
  | .unterminatedString => "Unterminated string."
  | .expected what => "Expect " ++ what ++ "."
  | .tooDeep construct => construct.word ++ " nesting too deep."
  | .invalidTarget => "Invalid assignment target."
  | .tooManyArguments => "Can't have more than " ++ toString maxArguments ++ " arguments."

/-- A static error at a line. -/
structure StaticReport where
  line : Int
  error : StaticError
  deriving DecidableEq, Repr

end Lox
