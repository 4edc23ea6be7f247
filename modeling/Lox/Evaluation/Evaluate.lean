import Lox.Evaluation.Machine

/-!
# Evaluation

Expressions are evaluated and statements executed straight from their trees. Each level of a tree
takes one level of the stack, and so does each level of a closure's body. This is a count of trees and
not of the calls that a host makes, of which a call expression and a block take two. A loop runs for as
many rounds as `patience` allows: a program that ends does so for every patience that is large enough.
-/
namespace Lox

/-- The name whose value in a closure's own scope is the result of a call. -/
def resultName : String := "result"

/-- Calls what a value refers to, with `execute` to run the statements of a closure. -/
def invoke (library : Library) (execute : Stmt → Run Unit) (target : Callable)
    (arguments : List Value) : Run Value :=
  match target with
  | .native id name _ => do
    let native := library.native id
    if native.recorded then Run.record ⟨name, arguments⟩
    match native.act arguments with
    | .ok value => pure value
    | .error cause => Run.raise cause none
  | .closure id _ _ =>
    let closure := library.closure id
    Run.inScope closure.captured do
      (closure.parameters.zip arguments).forM fun (name, value) => Run.define name value
      closure.body.forM execute
      Run.ownValue resultName

mutual

/-- The value of an expression. -/
def evaluate (library : Library) (patience : Nat) : Nat → Expr → Run Value
  | 0, _ => throw .overflow
  | stack + 1, expr =>
    match expr with
    | .literal value => pure value
    | .name token => Run.read token
    | .grouping inner => evaluate library patience stack inner
    | .unary op operand => do
      let value ← evaluate library patience stack operand
      Run.lift (unaryValue op value)
    | .assign target value => do
      let value ← evaluate library patience stack value
      Run.assign target value
      pure value
    | .binary op left right => do
      let left ← evaluate library patience stack left
      let right ← evaluate library patience stack right
      Run.lift (binaryValue op left right)
    | .logical op left right => do
      let left ← evaluate library patience stack left
      if decides op left then pure left else evaluate library patience stack right
    | .call callee closing arguments => do
      let callee ← evaluate library patience stack callee
      match callee with
      | .callable target => do
        let given ← arguments.mapM (evaluate library patience stack)
        if given.length = target.arity then
          invoke library (execute library patience stack) target given
        else Run.raise (.argumentCount target.arity given.length) (some closing.line)
      | _ => Run.raise .notCallable (some closing.line)

/-- Executes a statement. -/
def execute (library : Library) (patience : Nat) : Nat → Stmt → Run Unit
  | 0, _ => throw .overflow
  | stack + 1, stmt =>
    match stmt with
    | .expression value => discard (evaluate library patience stack value)
    | .print value => do
      let value ← evaluate library patience stack value
      Run.print value.printed
    | .declare target none => Run.define target.lexeme .nil
    | .declare target (some initial) => do
      let value ← evaluate library patience stack initial
      Run.define target.lexeme value
    | .block body => Run.inBlock (body.forM (execute library patience stack))
    | .branch condition yes no => do
      let value ← evaluate library patience stack condition
      if value.truthy then execute library patience stack yes
      else
        match no with
        | some no => execute library patience stack no
        | none => pure ()
    | .loop condition body =>
      Run.repeatWhile (Value.truthy <$> evaluate library patience stack condition)
        (execute library patience stack body) patience

end

end Lox
