import Lox.Evaluation.Evaluate
import Lox.Proofs.Evaluation.Pairing

/-!
# The footprint of a program

While a step runs, scopes are made and made current, one inside another. Whatever its outcome, it leaves
the scopes that it found, each inside the same others, and the same one current. It may change the value
of a name in a scope on the chain of the current one, or on the chain of one that a closure captured; all
other scopes it leaves as they are. A name that was not bound before can only be one that the step
declares outside its blocks, and it is bound in the current scope.
-/
namespace Lox

/-! ### Links and names -/

/-- The scopes around each scope, by number. -/
def Scopes.links (scopes : Scopes) : List (List Nat) := scopes.all.toList.map Scope.outer

/-- The names that are bound in a scope, in the order in which they were bound first. -/
def Scopes.names (scopes : Scopes) (id : Nat) : List String :=
  ((scopes.all[id]?.map Scope.bindings).getD []).map Prod.fst

/-- The names that a statement declares outside its blocks. -/
def Stmt.declared : Stmt → List String
  | .declare target _ => [target.lexeme]
  | .branch _ yes none => yes.declared
  | .branch _ yes (some no) => yes.declared ++ no.declared
  | .loop _ body => body.declared
  | .expression _ | .print _ | .block _ => []

/-- Binding a name keeps the names that were bound, and may add that one. -/
theorem map_fst_rebind (name : String) (value : Value) (bindings : List (String × Value)) :
    ∃ more, (rebind name value bindings).map Prod.fst = bindings.map Prod.fst ++ more ∧
      ∀ other ∈ more, other = name := by
  induction bindings with
  | nil => exact ⟨[name], rfl, by simp⟩
  | cons head rest ih =>
    obtain ⟨bound, old⟩ := head
    unfold rebind
    split
    · exact ⟨[], by simp, by simp⟩
    · obtain ⟨more, same, all⟩ := ih
      exact ⟨more, by simp [same], all⟩

theorem map_fst_rebind_of_bound {name : String} {bindings : List (String × Value)}
    (bound : (bindings.lookup name).isSome = true) (value : Value) :
    (rebind name value bindings).map Prod.fst = bindings.map Prod.fst := by
  induction bindings with
  | nil => cases bound
  | cons head rest ih =>
    obtain ⟨first, old⟩ := head
    unfold rebind
    split
    · rfl
    next different =>
      rw [List.lookup_cons, beq_eq_false_iff_ne.mpr (Ne.symm different)] at bound
      rw [List.map_cons, ih bound, List.map_cons]

namespace Scopes

variable {scopes changed : Scopes} {id other : Nat} {name : String} {value : Value}

theorem getElem?_define (scopes : Scopes) (id : Nat) (name : String) (value : Value) (other : Nat) :
    (scopes.define id name value).all[other]? =
      if id = other then scopes.all[other]?.map fun scope =>
        { scope with bindings := rebind name value scope.bindings }
      else scopes.all[other]? :=
  Array.getElem?_modify

theorem links_define (scopes : Scopes) (id : Nat) (name : String) (value : Value) :
    (scopes.define id name value).links = scopes.links := by
  apply List.ext_getElem?
  intro other
  by_cases same : id = other
  · subst same
    cases found : scopes.all[id]? <;> simp [links, define, found]
  · simp [links, define, same]

theorem names_define_other (different : id ≠ other) :
    (scopes.define id name value).names other = scopes.names other := by
  unfold names
  rw [getElem?_define, if_neg different]

theorem names_define (scopes : Scopes) (id : Nat) (name : String) (value : Value) :
    ∃ more, (scopes.define id name value).names id = scopes.names id ++ more ∧
      ∀ other ∈ more, other = name := by
  unfold names
  rw [getElem?_define, if_pos rfl]
  cases scopes.all[id]? with
  | none => exact ⟨[], rfl, by simp⟩
  | some scope => exact map_fst_rebind name value scope.bindings

/-- A name that a scope declares can be bound again without a new name. -/
theorem names_define_of_declares (declared : scopes.declares id name = true) (value : Value)
    (other : Nat) : (scopes.define id name value).names other = scopes.names other := by
  by_cases same : id = other
  · subst same
    unfold names
    rw [getElem?_define, if_pos rfl]
    unfold declares Scopes.local? at declared
    cases found : scopes.all[id]? with
    | none => rfl
    | some scope =>
      rw [found] at declared
      exact map_fst_rebind_of_bound declared value
  · exact names_define_other same

/-! ### What a chain goes by -/

/-- The chain of a scope goes by links alone. -/
theorem chain_eq_of_links (same : changed.links = scopes.links) (id : Nat) :
    changed.chain id = scopes.chain id := by
  have outer : changed.all[id]?.map Scope.outer = scopes.all[id]?.map Scope.outer := by
    simpa [links] using congrArg (·[id]?) same
  unfold chain
  cases there : changed.all[id]? with
  | none =>
    rw [there] at outer
    rw [Option.map_eq_none_iff.mp outer.symm]
  | some scope =>
    rw [there] at outer
    obtain ⟨twin, here, equal⟩ := Option.map_eq_some_iff.mp outer.symm
    rw [here]
    exact congrArg (id :: ·) equal.symm

theorem chain_define (scopes : Scopes) (id : Nat) (name : String) (value : Value) (other : Nat) :
    (scopes.define id name value).chain other = scopes.chain other :=
  chain_eq_of_links (links_define scopes id name value) other

theorem mem_chain (held : id < scopes.all.size) : id ∈ scopes.chain id := by
  unfold chain
  rw [Array.getElem?_eq_getElem held]
  exact List.mem_cons_self

/-- What is on a chain once a new scope is made was on that chain before or on the one of the scope
around the new one. -/
theorem mem_chain_of_new {enclosing : Nat} (held : id < scopes.all.size)
    (member : id ∈ (scopes.new (some enclosing)).1.chain other) :
    id ∈ scopes.chain other ∨ id ∈ scopes.chain enclosing := by
  unfold chain new at member
  rw [Array.getElem?_push] at member
  by_cases made : other = scopes.all.size
  · rw [if_pos made] at member
    subst made
    rcases List.mem_cons.mp member with rfl | outside
    · exact absurd held (Nat.lt_irrefl _)
    rcases List.mem_cons.mp outside with rfl | outside
    · exact .inr (mem_chain held)
    -- The scopes around the enclosing one are on its chain.
    · right
      unfold chain
      cases found : scopes.all[enclosing]? with
      | none =>
        rw [found] at outside
        cases outside
      | some scope =>
        rw [found] at outside
        exact List.mem_cons_of_mem _ outside
  · rw [if_neg made] at member
    exact .inl member

/-! ### Scopes that are made and forgotten -/

/-- When a new scope and whatever was made after it are forgotten, the scopes are as before. -/
theorem links_dropFrom (scopes : Scopes) (enclosing : Option Nat) {inner : Scopes}
    (same : inner.links = (scopes.new enclosing).1.links) :
    (inner.dropFrom scopes.all.size).links = scopes.links := by
  have cut : (inner.dropFrom scopes.all.size).links = inner.links.take scopes.all.size := by
    simp only [links, dropFrom, Array.toList_shrink, List.map_take]
  rw [cut, same]
  simp [links, new]

theorem getElem?_dropFrom (scopes : Scopes) (least id : Nat) :
    (scopes.dropFrom least).all[id]? = if id < least then scopes.all[id]? else none := by
  unfold dropFrom
  rw [← Array.getElem?_toList, Array.toList_shrink, List.getElem?_take, Array.getElem?_toList]

theorem getElem?_new (enclosing : Option Nat) (held : id < scopes.all.size) :
    (scopes.new enclosing).1.all[id]? = scopes.all[id]? := by
  unfold new
  rw [Array.getElem?_push, if_neg (Nat.ne_of_lt held)]

/-- What is the same in every scope that was there before a new one is the same once the new one is
forgotten. -/
theorem getElem?_dropFrom_new {α : Type} {inner : Scopes} (enclosing : Option Nat)
    (view : Option Scope → α)
    (same : id < scopes.all.size → view inner.all[id]? = view (scopes.new enclosing).1.all[id]?) :
    view (inner.dropFrom scopes.all.size).all[id]? = view scopes.all[id]? := by
  rw [getElem?_dropFrom]
  split
  next held => rw [same held, getElem?_new enclosing held]
  next beyond => rw [Array.getElem?_eq_none (Nat.not_lt.mp beyond)]

end Scopes

/-! ### The frame -/

/-- The same scopes, each inside the same others, and the same one current. -/
structure Machine.SameScopes (before after : Machine) : Prop where
  current : after.current = before.current
  links : after.scopes.links = before.scopes.links

/-- The scopes in which a program can find a name: those on the chain of the current one, and those on the
chain of one that a closure captured. -/
def Machine.Reaches (library : Library) (machine : Machine) (id : Nat) : Prop :=
  id ∈ machine.scopes.chain machine.current ∨
    ∃ closure, id ∈ machine.scopes.chain (library.closure closure).captured

/-- What a step leaves alone that may add some names to the current scope. -/
structure Machine.Framed (library : Library) (added : String → Prop) (before after : Machine) : Prop
    extends before.SameScopes after where
  /-- Scopes out of reach are as they were. -/
  untouched : ∀ id, ¬before.Reaches library id → after.scopes.all[id]? = before.scopes.all[id]?
  /-- All scopes but the current one have the names that they had. -/
  names : ∀ id, id ≠ before.current → after.scopes.names id = before.scopes.names id
  /-- The current scope has the names that it had, and maybe some of those. -/
  extra : ∃ more, after.scopes.names before.current = before.scopes.names before.current ++ more ∧
    ∀ name ∈ more, added name

namespace Machine

variable {library : Library} {added : String → Prop} {before between after : Machine}

namespace SameScopes

theorem refl (machine : Machine) : machine.SameScopes machine := ⟨rfl, rfl⟩

theorem trans (first : before.SameScopes between) (second : between.SameScopes after) :
    before.SameScopes after :=
  ⟨second.current.trans first.current, second.links.trans first.links⟩

/-- What can be reached goes by links alone. -/
theorem reaches_iff (same : before.SameScopes after) (id : Nat) :
    after.Reaches library id ↔ before.Reaches library id := by
  unfold Reaches
  rw [same.current]
  simp only [Scopes.chain_eq_of_links same.links]

end SameScopes

namespace Framed

/-- A step that changes no scope. -/
theorem of_scopes (current : after.current = before.current) (scopes : after.scopes = before.scopes) :
    before.Framed library added after where
  current := current
  links := congrArg Scopes.links scopes
  untouched id _ := by rw [scopes]
  names id _ := by rw [scopes]
  extra := ⟨[], by rw [scopes, List.append_nil], by simp⟩

theorem refl (machine : Machine) : machine.Framed library added machine := of_scopes rfl rfl

theorem trans (first : before.Framed library added between)
    (second : between.Framed library added after) : before.Framed library added after where
  toSameScopes := first.toSameScopes.trans second.toSameScopes
  untouched id apart :=
    (second.untouched id (apart ∘ (first.toSameScopes.reaches_iff id).mp)).trans
      (first.untouched id apart)
  names id different := by
    have still : id ≠ between.current := first.current ▸ different
    exact (second.names id still).trans (first.names id different)
  extra := by
    obtain ⟨one, bound, all⟩ := first.extra
    obtain ⟨two, rebound, more⟩ := second.extra
    rw [first.current] at rebound
    refine ⟨one ++ two, by rw [rebound, bound, List.append_assoc], ?_⟩
    exact List.forall_mem_append.mpr ⟨all, more⟩

/-- Where nothing is added, no scope has other names than before. -/
theorem names_eq (framed : before.Framed library (fun _ => False) after) (id : Nat) :
    after.scopes.names id = before.scopes.names id := by
  by_cases here : id = before.current
  · obtain ⟨more, bound, none⟩ := framed.extra
    rw [here, bound, List.eq_nil_iff_forall_not_mem.mpr none, List.append_nil]
  · exact framed.names id here

theorem define {name : String} (allowed : added name) (value : Value) :
    before.Framed library added
      { before with scopes := before.scopes.define before.current name value } where
  current := rfl
  links := Scopes.links_define before.scopes before.current name value
  untouched id apart := by
    rw [Scopes.getElem?_define]
    split
    next same =>
      subst same
      -- A scope that is there is on its own chain.
      have missing : before.scopes.all[before.current]? = none := by
        apply Array.getElem?_eq_none
        by_contra held
        exact apart (.inl (Scopes.mem_chain (Nat.lt_of_not_le held)))
      rw [missing, Option.map_none]
    next => rfl
  names id different := Scopes.names_define_other (Ne.symm different)
  extra := by
    obtain ⟨more, bound, all⟩ := Scopes.names_define before.scopes before.current name value
    exact ⟨more, bound, fun other member => all other member ▸ allowed⟩

theorem assign {name : String} {value : Value} {scopes : Scopes}
    (done : before.scopes.assign? before.current name value = some scopes) :
    before.Framed library added { before with scopes } := by
  obtain ⟨owner, nearest, rfl⟩ := Option.map_eq_some_iff.mp done
  unfold Scopes.owner? at nearest
  have member : owner ∈ before.scopes.chain before.current := List.mem_of_find?_eq_some nearest
  have declares : before.scopes.declares owner name = true := by simpa using List.find?_some nearest
  have bound := Scopes.names_define_of_declares declares value
  refine ⟨⟨rfl, Scopes.links_define _ _ _ _⟩, fun id apart => ?_, fun id _ => bound id, [], ?_, by simp⟩
  · have different : owner ≠ id := fun same => apart (.inl (same ▸ member))
    exact (Scopes.getElem?_define _ _ _ _ _).trans (if_neg different)
  · exact (bound before.current).trans (List.append_nil _).symm

/-- When a scope made for a body is left, nothing is seen of it, whatever names were bound there. -/
theorem leave {enclosing : Nat} {within : String → Prop}
    (reached : ∀ id ∈ before.scopes.chain enclosing, before.Reaches library id)
    (framed : Machine.Framed library within
      { before with
        scopes := (before.scopes.new (some enclosing)).1
        current := (before.scopes.new (some enclosing)).2 } after) :
    before.Framed library added (Run.leave before after) := by
  have names (id : Nat) : (Run.leave before after).scopes.names id = before.scopes.names id := by
    refine Scopes.getElem?_dropFrom_new (some enclosing)
      (fun scope => ((scope.map Scope.bindings).getD []).map Prod.fst) fun held => ?_
    exact framed.names id (Nat.ne_of_lt held)
  refine ⟨⟨rfl, Scopes.links_dropFrom before.scopes (some enclosing) framed.links⟩, fun id apart => ?_,
    fun id _ => names id, [], (names before.current).trans (List.append_nil _).symm, by simp⟩
  refine Scopes.getElem?_dropFrom_new (some enclosing) (fun scope => scope) fun held =>
    framed.untouched id ?_
  -- A scope that the body reaches is the new one or was reached before.
  rintro (inside | ⟨closure, inside⟩)
  · rcases Scopes.mem_chain_of_new held inside with fresh | outside
    · unfold Scopes.chain Scopes.new at fresh
      simp at fresh
    · exact apart (reached id outside)
  · rcases Scopes.mem_chain_of_new held inside with known | outside
    · exact apart (.inr ⟨closure, known⟩)
    · exact apart (reached id outside)

end Framed

end Machine

/-! ### Steps -/

namespace Run

variable {α β : Type} {library : Library} {added : String → Prop}

/-- The machine on which a step ends, whatever its outcome. -/
def ends (step : Run α) (before : Machine) : Machine :=
  match step before with
  | .ok _ after | .error _ after => after

/-- Whatever its outcome, a step leaves alone what one has to that may add some names. -/
def Frames (library : Library) (added : String → Prop) (step : Run α) : Prop :=
  ∀ before : Machine, before.Framed library added (step.ends before)

namespace Frames

variable {step : Run α} {before after : Machine}

theorem ok {result : α} (frames : step.Frames library added) (done : step before = .ok result after) :
    before.Framed library added after := by
  have known := frames before
  rwa [ends, done] at known

theorem error {stop : Interrupt} (frames : step.Frames library added)
    (stopped : step before = .error stop after) : before.Framed library added after := by
  have known := frames before
  rwa [ends, stopped] at known

theorem pure (result : α) : Frames library added (pure result) := fun before => .refl before

theorem throw (stop : Interrupt) : Frames library added (throw stop : Run α) :=
  fun before => .refl before

theorem raise (cause : FaultCause) (line : Option Int) :
    Frames library added (raise cause line : Run α) :=
  throw _

theorem bind {next : α → Run β} (first : step.Frames library added)
    (others : ∀ result, (next result).Frames library added) :
    (step >>= next).Frames library added := by
  intro before
  unfold ends
  cases outcome : step before with
  | ok result between =>
    rw [andThen_ok outcome]
    exact (first.ok outcome).trans (others result between)
  | error stop after =>
    rw [andThen_error outcome]
    exact first.error outcome

theorem map {next : α → β} (frames : step.Frames library added) :
    (next <$> step).Frames library added :=
  bind frames fun result => pure (next result)

section Lists

variable {ι : Type} {items : List ι}

theorem mapM {step : ι → Run α} (each : ∀ item, (step item).Frames library added) :
    (items.mapM step).Frames library added := by
  induction items with
  | nil => exact pure []
  | cons item items ih =>
    rw [List.mapM_cons]
    apply bind (each item)
    intro result
    apply bind ih
    intro results
    exact pure (result :: results)

theorem forM {step : ι → Run PUnit} (each : ∀ item, (step item).Frames library added) :
    (items.forM step).Frames library added := by
  induction items with
  | nil => exact pure _
  | cons item items ih => exact bind (each item) fun _ => ih

end Lists

theorem lift (outcome : Except Fault α) : Frames library added (lift outcome) := by
  cases outcome with
  | ok result => exact pure result
  | error fault => exact throw _

theorem read (name : Token) : Frames library added (read name) := by
  intro before
  unfold ends Run.read
  cases before.scopes.get? before.current name.lexeme with
  | some value => exact .refl before
  | none => exact .refl before

theorem assign (name : Token) (value : Value) : Frames library added (assign name value) := by
  intro before
  unfold ends Run.assign
  cases done : before.scopes.assign? before.current name.lexeme value with
  | some scopes => exact .assign done
  | none => exact .refl before

theorem define {name : String} (allowed : added name) (value : Value) :
    Frames library added (define name value) :=
  fun _ => .define allowed value

theorem print (text : String) : Frames library added (print text) := fun _ => .of_scopes rfl rfl

theorem record (call : Call) : Frames library added (record call) := fun _ => .of_scopes rfl rfl

theorem ownValue (name : String) : Frames library added (ownValue name) := fun before => .refl before

/-- The scope of a body is current while the body runs, and the scope before it again at the end. -/
theorem inScope {within : String → Prop} {body : Run α} (frames : body.Frames library within)
    {enclosing : Nat} (reached : ∀ id ∈ before.scopes.chain enclosing, before.Reaches library id) :
    before.Framed library added ((inScope enclosing body).ends before) := by
  have inside := frames
    { before with
      scopes := (before.scopes.new (some enclosing)).1
      current := (before.scopes.new (some enclosing)).2 }
  unfold ends at inside ⊢
  unfold Run.inScope
  simp only
  -- A body that stops is left like one that ends, so both outcomes go the same way.
  generalize body _ = outcome at inside ⊢
  cases outcome with
  | ok _ after => exact .leave reached inside
  | error _ after => exact .leave reached inside

theorem inBlock {within : String → Prop} {body : Run α} (frames : body.Frames library within) :
    (inBlock body).Frames library added :=
  fun _ => inScope frames fun _ => .inl

theorem inClosure {within : String → Prop} {body : Run α} (frames : body.Frames library within)
    (id : Nat) : (Run.inScope (library.closure id).captured body).Frames library added :=
  fun _ => inScope frames fun _ member => .inr ⟨id, member⟩

theorem repeatWhile {condition : Run Bool} {body : Run Unit} (tests : condition.Frames library added)
    (bodies : body.Frames library added) (rounds : Nat) :
    (repeatWhile condition body rounds).Frames library added := by
  induction rounds with
  | zero => exact throw _
  | succ rounds ih =>
    apply bind tests
    intro holds
    cases holds with
    | false => exact pure ()
    | true => exact bind bodies fun _ => ih

end Frames

end Run

/-! ### Whole programs -/

theorem invoke_frames {library : Library} {execute : Stmt → Run Unit}
    (each : ∀ stmt, (execute stmt).Frames library fun _ => True) (target : Callable)
    (arguments : List Value) (added : String → Prop) :
    (invoke library execute target arguments).Frames library added := by
  cases target with
  | native id name arity =>
    have recorded : (Run.record ⟨name, arguments⟩).Frames library added := .record _
    unfold invoke
    simp only
    cases (library.native id).act arguments with
    | ok value =>
      split
      · exact .bind recorded fun _ => .pure value
      · exact .pure value
    | error cause =>
      split
      · exact .bind recorded fun _ => .raise cause none
      · exact .raise cause none
  | closure id name arity =>
    -- Whatever names the body declares, they are bound in the scope of the call.
    refine .inClosure (.bind (.forM ?_) fun _ => .bind (.forM each) fun _ => .ownValue resultName) id
    rintro ⟨name, value⟩
    exact .define trivial value

section

variable {library : Library} {patience stack : Nat}
  (values : ∀ expr added, (evaluate library patience stack expr).Frames library added)
  (acts : ∀ stmt added, (∀ name ∈ stmt.declared, added name) →
    (execute library patience stack stmt).Frames library added)

include values acts

theorem evaluate_frames (expr : Expr) (added : String → Prop) :
    (evaluate library patience (stack + 1) expr).Frames library added := by
  cases expr with
  | literal value => exact .pure value
  | name token => exact .read token
  | grouping inner => exact values inner added
  | unary op operand => exact .bind (values operand added) fun _ => .lift _
  | assign target value =>
    apply Run.Frames.bind (values value added)
    intro result
    exact .bind (.assign target result) fun _ => .pure result
  | binary op left right =>
    apply Run.Frames.bind (values left added)
    intro first
    exact .bind (values right added) fun second => .lift _
  | logical op left right =>
    apply Run.Frames.bind (values left added)
    intro first
    split
    · exact .pure first
    · exact values right added
  | call callee closing arguments =>
    apply Run.Frames.bind (values callee added)
    intro value
    cases value with
    | callable target =>
      apply Run.Frames.bind (.mapM fun expr => values expr added)
      intro given
      split
      -- What a closure declares is bound in the scope of its call.
      · exact invoke_frames (fun stmt => acts stmt _ fun _ _ => trivial) target given added
      · exact .raise _ _
    | _ => exact .raise _ _

theorem execute_frames (stmt : Stmt) (added : String → Prop)
    (allowed : ∀ name ∈ stmt.declared, added name) :
    (execute library patience (stack + 1) stmt).Frames library added := by
  cases stmt with
  | expression value => exact .map (values value added)
  | print value => exact .bind (values value added) fun result => .print result.printed
  | declare target initial =>
    have known : added target.lexeme := allowed _ (List.mem_singleton_self _)
    cases initial with
    | none => exact .define known .nil
    | some initial => exact .bind (values initial added) fun result => .define known result
  | block body => exact .inBlock (.forM fun stmt => acts stmt (fun _ => True) fun _ _ => trivial)
  | branch condition yes no =>
    apply Run.Frames.bind (values condition added)
    intro result
    cases no with
    | none =>
      split
      · exact acts yes added allowed
      · exact .pure ()
    | some no =>
      obtain ⟨first, second⟩ := List.forall_mem_append.mp allowed
      split
      · exact acts yes added first
      · exact acts no added second
  | loop condition body =>
    exact .repeatWhile (.map (values condition added)) (acts body added allowed) patience

end

/-- An expression adds no names, and a statement adds those that it declares outside its blocks. -/
theorem program_frames (library : Library) (patience stack : Nat) :
    (∀ expr added, (evaluate library patience stack expr).Frames library added) ∧
      ∀ stmt added, (∀ name ∈ stmt.declared, added name) →
        (execute library patience stack stmt).Frames library added := by
  -- The stack bounds trees and closures alike: a closure's body is executed with what is left of it.
  induction stack with
  | zero => exact ⟨fun _ _ => .throw .overflow, fun _ _ _ => .throw .overflow⟩
  | succ stack ih =>
    obtain ⟨values, acts⟩ := ih
    exact ⟨evaluate_frames values acts, execute_frames values acts⟩

/-- Whatever the scopes and the closures are, and whatever the outcome, a statement leaves every scope
inside the same others, scopes out of reach as they were, and all scopes but the current one with the names
that they had; to the current one it adds at most the names that it declares outside its blocks. A block
and a call add no name to any scope. -/
theorem program_framed (library : Library) (patience stack : Nat) (before : Machine) :
    (∀ stmt, before.Framed library (· ∈ stmt.declared)
      ((execute library patience stack stmt).ends before)) ∧
    (∀ body id, ((execute library patience stack (.block body)).ends before).scopes.names id =
      before.scopes.names id) ∧
    ∀ target arguments,
      let after := (invoke library (execute library patience stack) target arguments).ends before
      before.Framed library (fun _ => False) after ∧
        ∀ id, after.scopes.names id = before.scopes.names id := by
  have acts := (program_frames library patience stack).2
  refine ⟨fun stmt => ?_, fun body => ?_, fun target arguments => ?_⟩
  · exact acts stmt (· ∈ stmt.declared) (fun _ => id) before
  · exact (acts (.block body) (fun _ => False) nofun before).names_eq
  · have frames := invoke_frames (fun stmt => acts stmt _ fun _ _ => trivial) target arguments
      fun _ => False
    exact ⟨frames before, (frames before).names_eq⟩

end Lox
