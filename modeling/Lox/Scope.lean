import Lox.Value

/-!
# Scopes

Every scope binds names to values and lies inside others. Scopes are numbered in the order in which
they were made, so that several holders can share one, and a name means its binding in the nearest
scope that declares it.
-/
namespace Lox

structure Scope where
  bindings : List (String × Value)
  /-- The scopes around it, innermost first. -/
  outer : List Nat
  deriving DecidableEq, Repr, Inhabited

/-- All scopes, by number. -/
structure Scopes where
  all : Array Scope
  deriving DecidableEq, Repr

/-- Binds a name: in place if it is bound already, else after the others. -/
def rebind (name : String) (value : Value) : List (String × Value) → List (String × Value)
  | [] => [(name, value)]
  | (bound, old) :: rest =>
    if bound = name then (bound, value) :: rest else (bound, old) :: rebind name value rest

theorem lookup_rebind (name other : String) (value : Value) (bindings : List (String × Value)) :
    (rebind name value bindings).lookup other =
      if other = name then some value else bindings.lookup other := by
  have apart {a b : String} (different : ¬a = b) : (a == b) = false := by simpa using different
  induction bindings with
  | nil => by_cases same : other = name <;> simp [rebind, List.lookup_cons, same, apart]
  | cons head rest ih =>
    obtain ⟨bound, old⟩ := head
    by_cases here : bound = name
    · subst here
      by_cases same : other = bound <;> simp [rebind, List.lookup_cons, same, apart]
    · by_cases same : other = bound
      · subst same
        simp [rebind, here]
      · simp [rebind, List.lookup_cons, here, apart same, ih]

namespace Scopes

/-- Makes a scope inside another, or one that stands alone, and tells its number. -/
def new (scopes : Scopes) (enclosing : Option Nat) : Scopes × Nat :=
  let outer := match enclosing with
    | none => []
    | some id => id :: (scopes.all[id]?.map Scope.outer).getD []
  (⟨scopes.all.push ⟨[], outer⟩⟩, scopes.all.size)

/-- The scopes in which a name is sought, starting from a given one. -/
def chain (scopes : Scopes) (id : Nat) : List Nat :=
  match scopes.all[id]? with
  | none => []
  | some scope => id :: scope.outer

/-- The scope right around another. -/
def enclosing? (scopes : Scopes) (id : Nat) : Option Nat :=
  scopes.all[id]?.bind fun scope => scope.outer.head?

/-- The value of a name in one scope alone. -/
def local? (scopes : Scopes) (id : Nat) (name : String) : Option Value :=
  scopes.all[id]?.bind fun scope => scope.bindings.lookup name

def declares (scopes : Scopes) (id : Nat) (name : String) : Bool := (scopes.local? id name).isSome

/-- The nearest scope that declares a name. -/
def owner? (scopes : Scopes) (id : Nat) (name : String) : Option Nat :=
  (scopes.chain id).find? (scopes.declares · name)

/-- The value of a name as seen from a scope. -/
def get? (scopes : Scopes) (id : Nat) (name : String) : Option Value :=
  (scopes.owner? id name).bind (scopes.local? · name)

/-- Binds a name in one scope, whether it was bound there before or not. -/
def define (scopes : Scopes) (id : Nat) (name : String) (value : Value) : Scopes :=
  ⟨scopes.all.modify id fun scope => { scope with bindings := rebind name value scope.bindings }⟩

/-- Changes the nearest binding of a name; none when there is no binding. -/
def assign? (scopes : Scopes) (id : Nat) (name : String) (value : Value) : Option Scopes :=
  (scopes.owner? id name).map fun owner => scopes.define owner name value

/-- Forgets all scopes from a number on. -/
def dropFrom (scopes : Scopes) (id : Nat) : Scopes := ⟨scopes.all.shrink id⟩

/-- The bindings of a scope in the order of their names. -/
def sorted (scopes : Scopes) (id : Nat) : List (String × Value) :=
  ((scopes.all[id]?.map Scope.bindings).getD []).mergeSort fun a b => decide (a.1 ≤ b.1)

end Scopes

end Lox
