import Lox.Proofs.Evaluation.Inserted

/-!
# Scopes over a history of requests

Scopes are made, alone or inside others, and then asked for a name over and over: to declare it, to tell its
value or to change it. The answer to a request follows from the requests before it. A name means the nearest
scope in which it was declared, and has the value that was written to it there last; without such a scope
the request fails, and nothing is changed.
-/
namespace Lox

/-! ### Requests -/

/-- What can be asked where so many scopes are made, and how many there are then. -/
inductive Request (made : Nat) : Nat → Type where
  | new : Request made (made + 1)
  | enclose (scope : Fin made) : Request made (made + 1)
  | define (scope : Fin made) (name : String) (value : Value) : Request made made
  | get (scope : Fin made) (name : Token) : Request made made
  | assign (scope : Fin made) (name : Token) (value : Value) : Request made made

/-- Requests one after the other, the first where there is no scope. -/
inductive History : Nat → Type where
  | start : History 0
  | after {made now : Nat} (past : History made) (request : Request made now) : History now

/-- Takes a step from one of the scopes: what it gives, and the scopes that it leaves. -/
def Scopes.ask {α : Type} (scopes : Scopes) (scope : Nat) (step : Run α) :
    Except Interrupt α × Scopes :=
  match step ⟨scopes, scope, "", #[]⟩ with
  | .ok result after => (.ok result, after.scopes)
  | .error stop after => (.error stop, after.scopes)

/-- The fault of a name that no scope declares. -/
def Token.undefined (name : Token) : Interrupt := .fault ⟨.undefinedVariable name.lexeme, some name.line⟩

namespace Request

variable {made now : Nat}

/-- The answer to a request, with the value that it asks for, and the scopes that it leaves. -/
def answer (scopes : Scopes) : Request made now → Except Interrupt (Option Value) × Scopes
  | new => (.ok none, (scopes.new none).1)
  | enclose scope => (.ok none, (scopes.new (some scope)).1)
  | define scope name value => scopes.ask scope do
    Run.define name value
    return none
  | get scope name => scopes.ask scope do
    return some (← Run.read name)
  | assign scope name value => scopes.ask scope do
    Run.assign name value
    return none

/-- For each scope that a request makes, the one around it. -/
def links : Request made now → List (Option Nat)
  | new => [none]
  | enclose scope => [some scope]
  | define .. | get .. | assign .. => []

/-- A request declares a name in a scope. -/
def Declares (id : Nat) (name : String) : Request made now → Prop
  | define scope bound _ => id = scope ∧ name = bound
  | new | enclose _ | get .. | assign .. => False

end Request

/-! ### What a history tells -/

namespace History

/-- The scopes that the requests leave. -/
def scopes {made : Nat} : History made → Scopes
  | start => ⟨#[]⟩
  | after past request => (request.answer past.scopes).2

/-- For each scope, the one around it. -/
def links {made : Nat} : History made → List (Option Nat)
  | start => []
  | after past request => past.links ++ request.links

/-- A name was declared in a scope. -/
def Declares {made : Nat} (id : Nat) (name : String) : History made → Prop
  | start => False
  | after past request => request.Declares id name ∨ past.Declares id name

/-- Going outwards from a scope, the nearest one in which a name was declared. -/
inductive Nearest {made : Nat} (past : History made) (name : String) : Nat → Nat → Prop where
  | here {id : Nat} : past.Declares id name → Nearest past name id id
  | outside {id outer owner : Nat} : ¬past.Declares id name → past.links[id]? = some (some outer) →
      Nearest past name outer owner → Nearest past name id owner

/-- A request writes a value to a name in a scope. -/
def Writes {made now : Nat} (past : History made) (id : Nat) (name : String) (value : Value) :
    Request made now → Prop
  | .define scope bound given => id = scope ∧ name = bound ∧ value = given
  | .assign scope target given => past.Nearest target.lexeme scope id ∧ name = target.lexeme ∧ value = given
  | .new | .enclose _ | .get .. => False

/-- The value that was written last to a name in a scope. -/
def Latest {made : Nat} (id : Nat) (name : String) (value : Value) : History made → Prop
  | start => False
  | after past request => past.Writes id name value request ∨
      (∀ other, ¬past.Writes id name other request) ∧ past.Latest id name value

end History

/-! ### Scopes that are made and changed -/

namespace Scopes

variable {scopes : Scopes} {id owner : Nat} {name : String}

/-- Following links from a scope ends at one that stands alone. -/
inductive Leads (link : Nat → Option Nat) : Nat → List Nat → Prop where
  | alone {id : Nat} : link id = none → Leads link id [id]
  | inside {id outer : Nat} {ids : List Nat} :
      link id = some outer → Leads link outer ids → Leads link id (id :: ids)

theorem Leads.congr {link twin : Nat → Option Nat} {ids : List Nat} (leads : Leads link id ids)
    (same : ∀ other ∈ ids, twin other = link other) : Leads twin id ids := by
  induction leads with
  | alone none => exact .alone ((same _ List.mem_cons_self).trans none)
  | inside around _ ih =>
    obtain ⟨first, others⟩ := List.forall_mem_cons.mp same
    exact .inside (first.trans around) (ih others)

/-- From a scope, another is on the chain before any that declares a name. -/
def Reaches (scopes : Scopes) (id scope : Nat) (name : String) : Prop :=
  ∃ before after, scopes.chain id = before ++ scope :: after ∧
    ∀ other ∈ before, scopes.declares other name = false

/-- The second scopes are the first with a new value for a name that some scope declares. Only that
binding is another, so a name is seen with another value only where it meant that binding. -/
structure Rebound (scopes : Scopes) (owner : Nat) (name : String) (value : Value) (changed : Scopes) :
    Prop where
  declared : scopes.declares owner name = true
  bindings : ∀ id other, changed.local? id other =
    if id = owner ∧ other = name then some value else scopes.local? id other
  /-- Every name means the same scope as before. -/
  owners : ∀ id other, changed.owner? id other = scopes.owner? id other
  values : ∀ id other, changed.get? id other =
    if other = name ∧ scopes.owner? id other = some owner then some value else scopes.get? id other

/-- The second scopes are the first with a name declared in some scope. That name means the scope from
where it is reached, and no name means another scope than before elsewhere. -/
structure Declared (scopes : Scopes) (scope : Nat) (name : String) (value : Value) (changed : Scopes) :
    Prop where
  bindings : ∀ id other, changed.local? id other =
    if id = scope ∧ other = name then some value else scopes.local? id other
  reached : ∀ id, scopes.Reaches id scope name → changed.owner? id name = some scope
  owners : ∀ id other, ¬(other = name ∧ scopes.Reaches id scope name) →
    changed.owner? id other = scopes.owner? id other

theorem Rebound.declares {changed : Scopes} {value : Value}
    (rebound : scopes.Rebound owner name value changed) (id : Nat) (other : String) :
    changed.declares id other = scopes.declares id other := by
  unfold Scopes.declares
  rw [rebound.bindings]
  split
  next here =>
    obtain ⟨rfl, rfl⟩ := here
    exact rebound.declared.symm
  next => rfl

theorem local?_define (held : id < scopes.all.size) (name : String) (value : Value) (other : Nat)
    (seen : String) : (scopes.define id name value).local? other seen =
      if other = id ∧ seen = name then some value else scopes.local? other seen := by
  unfold local?
  rw [getElem?_define]
  by_cases same : id = other
  · subst same
    simp [held, lookup_rebind]
  · simp [same, Ne.symm same]

theorem declares_define (held : id < scopes.all.size) (name : String) (value : Value) (other : Nat)
    (seen : String) : (scopes.define id name value).declares other seen = true ↔
      (other = id ∧ seen = name) ∨ scopes.declares other seen = true := by
  unfold declares
  rw [local?_define held]
  split
  next here => simp [here]
  next elsewhere => simp [elsewhere]

theorem lt_of_declares (declared : scopes.declares id name = true) : id < scopes.all.size := by
  by_contra beyond
  simp [declares, local?, Array.getElem?_eq_none (Nat.not_lt.mp beyond)] at declared

theorem declares_of_owner? (nearest : scopes.owner? id name = some owner) :
    scopes.declares owner name = true := by
  unfold owner? at nearest
  simpa using List.find?_some nearest

/-- A name that a scope declares has a value there. -/
theorem exists_value (nearest : scopes.owner? id name = some owner) :
    ∃ value, scopes.local? owner name = some value ∧ scopes.get? id name = some value := by
  obtain ⟨value, known⟩ := Option.isSome_iff_exists.mp (declares_of_owner? nearest)
  exact ⟨value, known, by rw [get?, nearest, Option.bind_some, known]⟩

theorem rebound (declared : scopes.declares owner name = true) (value : Value) :
    scopes.Rebound owner name value (scopes.define owner name value) := by
  have bindings := local?_define (lt_of_declares declared) name value
  -- The scope declared the name already, so the same scopes declare it as before.
  have owners : ∀ id other, (scopes.define owner name value).owner? id other =
      scopes.owner? id other := by
    intro id other
    unfold owner?
    rw [chain_define]
    congr 1
    funext scope
    rw [Bool.eq_iff_iff, declares_define (lt_of_declares declared)]
    refine or_iff_right_of_imp ?_
    rintro ⟨rfl, rfl⟩
    exact declared
  refine ⟨declared, bindings, owners, fun id other => ?_⟩
  unfold get?
  rw [owners]
  cases nearest : scopes.owner? id other with
  | none => simp
  | some scope =>
    rw [Option.bind_some, Option.bind_some, bindings]
    exact if_congr (by rw [Option.some.injEq, and_comm]) rfl rfl

/-- The first of a list with one of two properties, when the second is being some member that is reached
with no other that has the first. -/
theorem find?_reached {marked : Nat → Bool} {scope : Nat} {before after : List Nat}
    (free : ∀ other ∈ before, marked other = false) {found : Nat → Bool}
    (either : ∀ other, found other = true ↔ other = scope ∨ marked other = true) :
    (before ++ scope :: after).find? found = some scope := by
  induction before with
  | nil => simp [(either scope).mpr (.inl rfl)]
  | cons first before ih =>
    obtain ⟨unmarked, others⟩ := List.forall_mem_cons.mp free
    rw [List.cons_append, List.find?_cons]
    cases here : found first with
    | false => exact ih others
    | true =>
      rcases (either first).mp here with rfl | impossible
      · rfl
      · rw [unmarked] at impossible
        cases impossible

theorem find?_unreached {marked : Nat → Bool} {scope : Nat} {ids : List Nat}
    (hidden : ¬∃ before after, ids = before ++ scope :: after ∧ ∀ other ∈ before, marked other = false)
    {found : Nat → Bool} (either : ∀ other, found other = true ↔ other = scope ∨ marked other = true) :
    ids.find? found = ids.find? marked := by
  induction ids with
  | nil => rfl
  | cons first ids ih =>
    have apart : first ≠ scope := fun same => hidden ⟨[], ids, by rw [same]; rfl, nofun⟩
    have same : found first = marked first := by
      rw [Bool.eq_iff_iff, either]
      exact or_iff_right apart
    rw [List.find?_cons, List.find?_cons, same]
    cases here : marked first with
    | true => rfl
    | false =>
      refine ih ?_
      rintro ⟨before, after, rfl, free⟩
      exact hidden ⟨first :: before, after, rfl, List.forall_mem_cons.mpr ⟨here, free⟩⟩

theorem declared (held : id < scopes.all.size) (name : String) (value : Value) :
    scopes.Declared id name value (scopes.define id name value) := by
  have either (other : Nat) := declares_define held name value other
  refine ⟨local?_define held name value, fun other => ?_, fun other seen hidden => ?_⟩
  · rintro ⟨before, after, chain, free⟩
    unfold owner?
    rw [chain_define, chain]
    exact find?_reached free fun scope => by simp [either scope name]
  · unfold owner?
    rw [chain_define]
    by_cases same : seen = name
    · subst same
      exact find?_unreached (fun reached => hidden ⟨rfl, reached⟩) fun scope => by
        simp [either scope seen]
    · congr 1
      funext scope
      rw [Bool.eq_iff_iff, either scope seen]
      simp [same]

/-! ### Links -/

theorem enclosing?_eq (scopes : Scopes) (id : Nat) :
    scopes.enclosing? id = scopes.links[id]?.bind List.head? := by
  rw [getElem?_links, Option.bind_map]
  rfl

theorem enclosing?_new (scopes : Scopes) (enclosing : Option Nat) (id : Nat) :
    (scopes.new enclosing).1.enclosing? id =
      if id = scopes.all.size then enclosing else scopes.enclosing? id := by
  unfold enclosing? new
  rw [Array.getElem?_push]
  split
  · cases enclosing <;> rfl
  · rfl

theorem local?_new (scopes : Scopes) (enclosing : Option Nat) (id : Nat) (name : String) :
    (scopes.new enclosing).1.local? id name = scopes.local? id name := by
  unfold local? new
  rw [Array.getElem?_push]
  split
  next fresh =>
    rw [Array.getElem?_eq_none (Nat.le_of_eq fresh.symm)]
    rfl
  next => rfl

theorem chain_new_self {enclosing : Option Nat}
    (there : ∀ scope, enclosing = some scope → scope < scopes.all.size) :
    (scopes.new enclosing).1.chain scopes.all.size =
      scopes.all.size :: (enclosing.map scopes.chain).getD [] := by
  cases enclosing with
  | none => simp [chain, new]
  | some scope => exact chain_new (there scope rfl)

/-- Each scope is inside the one that is told for it, or stands alone, and the links from a scope lead along
its chain. -/
structure Linked (scopes : Scopes) (links : List (Option Nat)) : Prop where
  length : links.length = scopes.all.size
  links : ∀ id, scopes.enclosing? id = links[id]?.join
  within : ∀ id, ∀ other ∈ scopes.chain id, other < scopes.all.size
  leads : ∀ id < scopes.all.size, Leads scopes.enclosing? id (scopes.chain id)

namespace Linked

variable {links : List (Option Nat)}

theorem keep (linked : scopes.Linked links) {changed : Scopes} (same : changed.links = scopes.links) :
    changed.Linked links := by
  have chain := chain_eq_of_links same
  have around : changed.enclosing? = scopes.enclosing? := by
    funext id
    rw [enclosing?_eq, same, ← enclosing?_eq]
  have size := size_eq_of_links same
  constructor
  · exact linked.length.trans size.symm
  · exact around ▸ linked.links
  · simpa only [chain, size] using linked.within
  · simpa only [chain, size, around] using linked.leads

section

variable {enclosing : Option Nat}

theorem within_new (linked : scopes.Linked links)
    (there : ∀ scope, enclosing = some scope → scope < scopes.all.size) (id : Nat) :
    ∀ other ∈ (scopes.new enclosing).1.chain id, other < (scopes.new enclosing).1.all.size := by
  intro other member
  rw [size_new]
  by_cases made : id = scopes.all.size
  · subst made
    rw [chain_new_self there] at member
    cases enclosing with
    | none =>
      rw [List.mem_singleton.mp member]
      exact Nat.lt_succ_self _
    | some scope =>
      rcases List.mem_cons.mp member with rfl | around
      · exact Nat.lt_succ_self _
      · exact Nat.lt_succ_of_lt (linked.within scope other around)
  · rw [chain_new_of_ne _ made] at member
    exact Nat.lt_succ_of_lt (linked.within id other member)

/-- From a scope that there was, the links lead as before. -/
theorem leads_old (linked : scopes.Linked links) (old : id < scopes.all.size) :
    Leads (scopes.new enclosing).1.enclosing? id (scopes.chain id) := by
  refine (linked.leads id old).congr fun other member => ?_
  rw [enclosing?_new, if_neg (Nat.ne_of_lt (linked.within id other member))]

theorem leads_new (linked : scopes.Linked links)
    (there : ∀ scope, enclosing = some scope → scope < scopes.all.size) :
    Leads (scopes.new enclosing).1.enclosing? scopes.all.size
      ((scopes.new enclosing).1.chain scopes.all.size) := by
  have link := (enclosing?_new scopes enclosing scopes.all.size).trans (if_pos rfl)
  rw [chain_new_self there]
  cases enclosing with
  | none => exact .alone link
  | some scope => exact .inside link (linked.leads_old (there scope rfl))

/-- A scope is made, alone or inside one that there is. -/
theorem new (linked : scopes.Linked links)
    (there : ∀ scope, enclosing = some scope → scope < scopes.all.size) :
    (scopes.new enclosing).1.Linked (links ++ [enclosing]) := by
  constructor
  case length => rw [size_new, List.length_append, linked.length, List.length_singleton]
  case links =>
    intro id
    rw [enclosing?_new, ← linked.length]
    rcases Nat.lt_trichotomy id links.length with old | rfl | beyond
    · rw [if_neg (Nat.ne_of_lt old), List.getElem?_append_left old, linked.links]
    · simp
    -- Beyond the scopes no link is told, before and after.
    · rw [if_neg (Nat.ne_of_gt beyond), linked.links, List.getElem?_eq_none (Nat.le_of_lt beyond),
        List.getElem?_eq_none (by simpa using Nat.succ_le_of_lt beyond)]
  case within => exact linked.within_new there
  case leads =>
    intro id old
    rw [size_new] at old
    rcases Nat.lt_succ_iff_lt_or_eq.mp old with old | rfl
    · rw [chain_new_of_ne _ (Nat.ne_of_lt old)]
      exact linked.leads_old old
    · exact linked.leads_new there

end

end Linked

end Scopes

/-! ### What a request does -/

namespace Request

variable {made : Nat} (scopes : Scopes) (scope : Fin made) (name : Token) (value : Value)

theorem answer_define (name : String) :
    (define scope name value).answer scopes = (.ok none, scopes.define scope name value) :=
  rfl

theorem answer_get : (get scope name).answer scopes =
    match scopes.get? scope name.lexeme with
    | some value => (.ok (some value), scopes)
    | none => (.error name.undefined, scopes) := by
  simp only [answer, Scopes.ask, bind, EStateM.bind, Run.read]
  cases scopes.get? scope name.lexeme <;> rfl

theorem answer_assign : (assign scope name value).answer scopes =
    match scopes.owner? scope name.lexeme with
    | some owner => (.ok none, scopes.define owner name.lexeme value)
    | none => (.error name.undefined, scopes) := by
  simp only [answer, Scopes.ask, bind, EStateM.bind, Run.assign, Scopes.assign?]
  cases scopes.owner? scope name.lexeme <;> rfl

/-- A request makes a scope, alone or inside one that there is, or keeps the links. -/
theorem answer_links {now : Nat} (request : Request made now) :
    (now = made + 1 ∧ ∃ enclosing : Option Nat, (∀ scope, enclosing = some scope → scope < made) ∧
      request.links = [enclosing] ∧ (request.answer scopes).2 = (scopes.new enclosing).1) ∨
    (now = made ∧ request.links = [] ∧ (request.answer scopes).2.links = scopes.links) := by
  cases request with
  | new => exact .inl ⟨rfl, none, nofun, rfl, rfl⟩
  | enclose scope => exact .inl ⟨rfl, some scope, by simp, rfl, rfl⟩
  | define scope name value => exact .inr ⟨rfl, rfl, Scopes.links_define _ _ _ _⟩
  | get scope name =>
    refine .inr ⟨rfl, rfl, ?_⟩
    rw [answer_get]
    split <;> rfl
  | assign scope name value =>
    refine .inr ⟨rfl, rfl, ?_⟩
    rw [answer_assign]
    split
    · exact Scopes.links_define _ _ _ _
    · rfl

end Request

namespace History

variable {made now : Nat} {past : History made} {id owner : Nat} {name : String} {value : Value}

/-! ### Links over a history -/

theorem size_scopes (past : History made) : past.scopes.all.size = made := by
  induction past with
  | start => rfl
  | after past request ih =>
    unfold scopes
    rcases request.answer_links past.scopes with ⟨rfl, enclosing, -, -, left⟩ | ⟨rfl, -, same⟩
    · rw [left, Scopes.size_new, ih]
    · rw [Scopes.size_eq_of_links same, ih]

/-- The scopes are inside each other as they were made. -/
theorem linked (past : History made) : past.scopes.Linked past.links := by
  induction past with
  | start => exact ⟨rfl, fun _ => rfl, nofun, nofun⟩
  | after past request ih =>
    unfold scopes links
    rcases request.answer_links past.scopes with ⟨-, enclosing, there, one, left⟩ | ⟨-, none, same⟩
    · rw [left, one]
      exact ih.new (past.size_scopes.symm ▸ there)
    · rw [none, List.append_nil]
      exact ih.keep same

/-! ### Values over a history -/

/-- The scopes hold what the history tells. -/
structure Held (past : History made) : Prop where
  declares : ∀ id name, past.scopes.declares id name = true ↔ past.Declares id name
  latest : ∀ id name value, past.scopes.local? id name = some value ↔ past.Latest id name value

theorem nearest_of_declares (declared : past.Declares id name) :
    past.Nearest name id owner ↔ id = owner := by
  constructor
  · intro nearest
    cases nearest with
    | here => rfl
    | outside undeclared => exact absurd declared undeclared
  · rintro rfl
    exact .here declared

theorem nearest_of_link {outer : Nat} (undeclared : ¬past.Declares id name)
    (link : past.links[id]? = some (some outer)) :
    past.Nearest name id owner ↔ past.Nearest name outer owner := by
  constructor
  · intro nearest
    cases nearest with
    | here declared => exact absurd declared undeclared
    | outside _ around nearest =>
      cases around.symm.trans link
      exact nearest
  · exact .outside undeclared link

/-- A name means the nearest scope in which it was declared. -/
theorem Held.nearest_iff (held : past.Held) {scope : Nat} (there : scope < made) :
    past.scopes.owner? scope name = some owner ↔ past.Nearest name scope owner := by
  have leads := past.linked.leads scope (past.size_scopes.symm ▸ there)
  have links := past.linked.links
  -- The search along the chain and the rules go outwards together, link by link.
  unfold Scopes.owner?
  generalize past.scopes.chain scope = ids at leads
  clear there
  induction leads with
  | @alone id alone =>
    by_cases declared : past.Declares id name
    · simp [nearest_of_declares declared, (held.declares id name).mpr declared]
    -- Around the outermost scope there is none to go on with.
    · have unbound := mt (held.declares id name).mp declared
      simp only [List.find?_cons, unbound, List.find?_nil, reduceCtorEq, false_iff]
      intro nearest
      cases nearest with
      | here other => exact declared other
      | outside _ around =>
        rw [links, around] at alone
        cases alone
  | @inside id outer ids around _ ih =>
    by_cases declared : past.Declares id name
    · simp [nearest_of_declares declared, (held.declares id name).mpr declared]
    · have unbound := mt (held.declares id name).mp declared
      rw [links, Option.join_eq_some_iff] at around
      refine Iff.trans ?_ (ih.trans (nearest_of_link declared around).symm)
      simp [unbound]

/-- What a request does to the scopes shows in what it declares and writes. -/
structure Does (past : History made) (request : Request made now) (changed : Scopes) : Prop where
  declares : ∀ id name, changed.declares id name = true ↔
    request.Declares id name ∨ past.scopes.declares id name = true
  writes : ∀ id name value, past.Writes id name value request → changed.local? id name = some value
  keeps : ∀ id name, (∀ value, ¬past.Writes id name value request) →
    changed.local? id name = past.scopes.local? id name

theorem Does.of_local? {request : Request made now} {changed : Scopes}
    (same : ∀ id name, changed.local? id name = past.scopes.local? id name)
    (undeclared : ∀ id name, ¬request.Declares id name)
    (unwritten : ∀ id name value, ¬past.Writes id name value request) : past.Does request changed where
  declares id name := by
    unfold Scopes.declares
    rw [same, or_iff_right (undeclared id name)]
  writes id name value writes := absurd writes (unwritten id name value)
  keeps id name _ := same id name

theorem Held.does (held : past.Held) (request : Request made now) :
    past.Does request (past.after request).scopes := by
  have there (scope : Fin made) : scope < past.scopes.all.size := past.size_scopes.symm ▸ scope.isLt
  cases request with
  | new => exact .of_local? (Scopes.local?_new past.scopes none) (fun _ _ => id) fun _ _ _ => id
  | enclose scope =>
    exact .of_local? (Scopes.local?_new past.scopes (some scope)) (fun _ _ => id) fun _ _ _ => id
  | define scope bound given =>
    refine ⟨Scopes.declares_define (there scope) bound given, ?_, fun id name unwritten => ?_⟩
    · rintro _ _ _ ⟨rfl, rfl, rfl⟩
      exact (Scopes.local?_define (there scope) _ _ _ _).trans (if_pos ⟨rfl, rfl⟩)
    · refine (Scopes.local?_define (there scope) _ _ _ _).trans (if_neg ?_)
      exact fun here => unwritten given ⟨here.1, here.2, rfl⟩
  | get scope target =>
    have same : (past.after (.get scope target)).scopes = past.scopes := by
      rw [scopes, Request.answer_get]
      split <;> rfl
    rw [same]
    exact .of_local? (fun _ _ => rfl) (fun _ _ => id) fun _ _ _ => id
  | assign scope target given =>
    rw [scopes, Request.answer_assign]
    cases found : past.scopes.owner? scope target.lexeme with
    -- Without a scope for the name the request fails: the rules tell of no write either.
    | none =>
      refine .of_local? (fun _ _ => rfl) (fun _ _ => id) fun id name value writes => ?_
      rw [(held.nearest_iff scope.isLt).mpr writes.1] at found
      cases found
    | some owner =>
      have rebound := Scopes.rebound (Scopes.declares_of_owner? found) given
      have nearest := (held.nearest_iff scope.isLt).mp found
      refine ⟨fun id name => ?_, ?_, fun id name unwritten => ?_⟩
      · rw [rebound.declares]
        exact (or_iff_right not_false).symm
      · rintro id _ _ ⟨writes, rfl, rfl⟩
        obtain rfl : owner = id := Option.some.inj
          (found.symm.trans ((held.nearest_iff scope.isLt).mpr writes))
        exact (rebound.bindings _ _).trans (if_pos ⟨rfl, rfl⟩)
      · refine (rebound.bindings id name).trans (if_neg ?_)
        rintro ⟨rfl, rfl⟩
        exact unwritten given ⟨nearest, rfl, rfl⟩

theorem Held.after (held : past.Held) (request : Request made now) : (past.after request).Held := by
  have does := held.does request
  refine ⟨fun id name => ?_, fun id name value => ?_⟩
  · rw [does.declares, held.declares]
    rfl
  · unfold Latest
    by_cases writes : ∃ other, past.Writes id name other request
    -- What was written before is not the latest any more.
    · obtain ⟨other, writes⟩ := writes
      have only : (∀ value, ¬past.Writes id name value request) ↔ False :=
        iff_false_intro fun none => none other writes
      rw [only, false_and, or_false]
      refine ⟨fun known => ?_, does.writes id name value⟩
      rw [does.writes id name other writes] at known
      exact Option.some.inj known ▸ writes
    · rw [not_exists] at writes
      rw [does.keeps id name writes, held.latest, or_iff_right (writes value), and_iff_right writes]

theorem held (past : History made) : past.Held := by
  induction past with
  | start => exact ⟨fun _ _ => by simp [scopes, Scopes.declares, Scopes.local?, Declares],
      fun _ _ _ => by simp [scopes, Scopes.local?, Latest]⟩
  | after past request ih => exact ih.after request

/-! ### The laws -/

/-- What holds of scopes after a history. -/
structure Lawful (past : History made) : Prop where
  /-- The chain of a scope is finite: following the links from it comes to an end. -/
  finite : ∀ scope : Fin made, Scopes.Leads past.scopes.enclosing? scope (past.scopes.chain scope)
  /-- No request changes a link. -/
  fixed : ∀ {now : Nat} (request : Request made now) (scope : Fin made),
    (past.after request).scopes.enclosing? scope = past.scopes.enclosing? scope
  /-- A name means the nearest scope in which it was declared. -/
  nearest : ∀ (scope : Fin made) (name : String) (owner : Nat),
    past.scopes.owner? scope name = some owner ↔ past.Nearest name scope owner
  /-- It has the value that was written to it there last. -/
  get : ∀ (scope : Fin made) (name : Token),
    (∃ owner value, past.Nearest name.lexeme scope owner ∧ past.Latest owner name.lexeme value ∧
      (Request.get scope name).answer past.scopes = (.ok (some value), past.scopes)) ∨
    (¬∃ owner, past.Nearest name.lexeme scope owner) ∧
      (Request.get scope name).answer past.scopes = (.error name.undefined, past.scopes)
  /-- It is given another value there, and nothing else is changed. -/
  assign : ∀ (scope : Fin made) (name : Token) (value : Value),
    (∃ owner changed, past.Nearest name.lexeme scope owner ∧
      (Request.assign scope name value).answer past.scopes = (.ok none, changed) ∧
      past.scopes.Rebound owner name.lexeme value changed) ∨
    (¬∃ owner, past.Nearest name.lexeme scope owner) ∧
      (Request.assign scope name value).answer past.scopes = (.error name.undefined, past.scopes)
  /-- A name is declared where that is asked, and means that scope from where it is reached. -/
  define : ∀ (scope : Fin made) (name : String) (value : Value), ∃ changed,
    (Request.define scope name value).answer past.scopes = (.ok none, changed) ∧
      past.scopes.Declared scope name value changed

/-- Where no scope is found for a name, it was declared in none on the way. -/
theorem Held.not_nearest (held : past.Held) {scope : Nat} (there : scope < made)
    (none : past.scopes.owner? scope name = none) : ¬∃ owner, past.Nearest name scope owner := by
  rintro ⟨owner, nearest⟩
  rw [(held.nearest_iff there).mpr nearest] at none
  cases none

theorem lawful (past : History made) : past.Lawful := by
  have held := past.held
  have there (scope : Fin made) : scope < past.scopes.all.size := past.size_scopes.symm ▸ scope.isLt
  constructor
  case finite => exact fun scope => past.linked.leads scope (there scope)
  case fixed =>
    intro now request scope
    -- A request may add a scope, but it leaves the links of those that there are.
    have old : (scope : Nat) < past.links.length := past.linked.length.symm ▸ there scope
    rw [(past.after request).linked.links, past.linked.links, links, List.getElem?_append_left old]
  case nearest => exact fun scope name owner => held.nearest_iff scope.isLt
  case get =>
    intro scope name
    rw [Request.answer_get]
    cases found : past.scopes.owner? scope name.lexeme with
    | none =>
      refine .inr ⟨held.not_nearest scope.isLt found, ?_⟩
      rw [Scopes.get?, found]
      rfl
    | some owner =>
      obtain ⟨value, known, seen⟩ := Scopes.exists_value found
      refine .inl ⟨owner, value, (held.nearest_iff scope.isLt).mp found,
        (held.latest _ _ _).mp known, ?_⟩
      rw [seen]
  case assign =>
    intro scope name value
    rw [Request.answer_assign]
    cases found : past.scopes.owner? scope name.lexeme with
    | none => exact .inr ⟨held.not_nearest scope.isLt found, rfl⟩
    | some owner =>
      exact .inl ⟨owner, _, (held.nearest_iff scope.isLt).mp found, rfl,
        Scopes.rebound (Scopes.declares_of_owner? found) value⟩
  case define =>
    intro scope name value
    exact ⟨_, Request.answer_define _ _ _ _, Scopes.declared (there scope) name value⟩

end History

end Lox
