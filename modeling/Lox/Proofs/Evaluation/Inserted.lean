import Lox.Proofs.Evaluation.Lockstep

/-!
# An empty scope more

A scope that binds nothing changes nothing that can be seen from inside it. Scopes made after it have the
next higher number. What runs in it without binding a name there does the same as in the scope around it,
and where the empty scope was made for that run alone, the machine is the same at the end.
-/
namespace Lox

/-- The number that a scope has where there is one more with a given number. -/
def beyond (fresh id : Nat) : Nat := if id < fresh then id else id + 1

section

variable {fresh id : Nat}

theorem beyond_of_lt (old : id < fresh) : beyond fresh id = id := if_pos old

theorem beyond_of_le (made : fresh ≤ id) : beyond fresh id = id + 1 := if_neg (Nat.not_lt.mpr made)

theorem beyond_ne (fresh id : Nat) : beyond fresh id ≠ fresh := by
  unfold beyond
  split <;> omega

theorem beyond_injective (fresh : Nat) : Function.Injective (beyond fresh) := by
  intro one other same
  unfold beyond at same
  split at same <;> split at same <;> omega

theorem beyond_lt {size : Nat} (fits : fresh ≤ size) : beyond fresh id < size + 1 ↔ id < size := by
  unfold beyond
  split <;> omega

end

namespace Scopes

/-! ### Chains of scopes that are made and forgotten -/

section

variable {scopes : Scopes} {id other : Nat}

theorem size_define (scopes : Scopes) (id : Nat) (name : String) (value : Value) :
    (scopes.define id name value).all.size = scopes.all.size :=
  Array.size_modify

theorem size_new (scopes : Scopes) (enclosing : Option Nat) :
    (scopes.new enclosing).1.all.size = scopes.all.size + 1 :=
  Array.size_push _

theorem size_eq_of_links {changed : Scopes} (same : changed.links = scopes.links) :
    changed.all.size = scopes.all.size := by
  simpa [links] using congrArg List.length same

theorem size_dropFrom (scopes : Scopes) (least : Nat) :
    (scopes.dropFrom least).all.size = min least scopes.all.size :=
  Array.size_shrink

theorem bindings_new (scopes : Scopes) (enclosing : Option Nat) (id : Nat) :
    (scopes.new enclosing).1.all[id]?.map Scope.bindings =
      if id = scopes.all.size then some [] else scopes.all[id]?.map Scope.bindings := by
  unfold new
  rw [Array.getElem?_push]
  split <;> rfl

/-- The chain of a new scope is that of the scope around it, behind the new one. -/
theorem chain_new (held : id < scopes.all.size) :
    (scopes.new (some id)).1.chain scopes.all.size = scopes.all.size :: scopes.chain id := by
  simp [chain, new, held]

theorem links_new (held : id < scopes.all.size) :
    (scopes.new (some id)).1.links = scopes.links ++ [scopes.chain id] := by
  simp [links, chain, new, held]

theorem chain_new_of_ne (enclosing : Option Nat) (different : other ≠ scopes.all.size) :
    (scopes.new enclosing).1.chain other = scopes.chain other := by
  unfold chain new
  rw [Array.getElem?_push, if_neg different]

theorem getElem?_links (scopes : Scopes) (id : Nat) :
    scopes.links[id]? = scopes.all[id]?.map Scope.outer := by
  simp [links]

/-- A scope is what it binds and what it is inside of. -/
theorem eq_of_map {one two : Option Scope} (bindings : one.map Scope.bindings = two.map Scope.bindings)
    (outer : one.map Scope.outer = two.map Scope.outer) : one = two := by
  match one, two with
  | none, none => rfl
  | some ⟨_, _⟩, some ⟨_, _⟩ =>
    cases bindings
    cases outer
    rfl

theorem chain_of_le (missing : scopes.all.size ≤ id) : scopes.chain id = [] := by
  unfold chain
  rw [Array.getElem?_eq_none missing]

theorem chain_dropFrom (scopes : Scopes) (least id : Nat) :
    (scopes.dropFrom least).chain id = if id < least then scopes.chain id else [] := by
  unfold chain
  rw [getElem?_dropFrom]
  by_cases old : id < least
  · rw [if_pos old, if_pos old]
  · rw [if_neg old, if_neg old]

end

/-! ### Scopes with one more -/

/-- `Inserted base fresh plain padded`: the second scopes are the first with an empty one more, inside a
given one. -/
structure Inserted (base fresh : Nat) (plain padded : Scopes) : Prop where
  below : base < fresh
  fits : fresh ≤ plain.all.size
  size : padded.all.size = plain.all.size + 1
  bindings : ∀ id, padded.all[beyond fresh id]?.map Scope.bindings = plain.all[id]?.map Scope.bindings
  empty : padded.all[fresh]?.map Scope.bindings = some []
  /-- A chain is the same, apart from the empty scope. -/
  chain : ∀ id, (padded.chain (beyond fresh id)).filter (· ≠ fresh) = (plain.chain id).map (beyond fresh)
  /-- From the empty scope, the same is seen as from the one around it. -/
  inside : (padded.chain fresh).filter (· ≠ fresh) = (plain.chain base).map (beyond fresh)

variable {base fresh id twin : Nat} {plain padded : Scopes}

/-- A scope of the first scopes, and one of the second from which the same is seen. -/
inductive Faces (base fresh : Nat) : Nat → Nat → Prop where
  | same (id : Nat) : Faces base fresh id (beyond fresh id)
  | empty : Faces base fresh base fresh

namespace Inserted

theorem seen (inserted : Inserted base fresh plain padded) (faces : Faces base fresh id twin) :
    (padded.chain twin).filter (· ≠ fresh) = (plain.chain id).map (beyond fresh) := by
  cases faces with
  | same id => exact inserted.chain id
  | empty => exact inserted.inside

theorem fresh_lt (inserted : Inserted base fresh plain padded) : fresh < padded.all.size := by
  rw [inserted.size]
  exact Nat.lt_succ_of_le inserted.fits

/-- The next scope made in the one is the next made in the other. -/
theorem beyond_size (inserted : Inserted base fresh plain padded) :
    beyond fresh plain.all.size = padded.all.size := by
  rw [beyond_of_le inserted.fits, inserted.size]

theorem lt (inserted : Inserted base fresh plain padded) (faces : Faces base fresh id twin)
    (held : id < plain.all.size) : twin < padded.all.size := by
  cases faces with
  | same id => exact inserted.size ▸ (beyond_lt inserted.fits).mpr held
  | empty => exact inserted.fresh_lt

/-! ### Names -/

theorem local? (inserted : Inserted base fresh plain padded) (id : Nat) (name : String) :
    padded.local? (beyond fresh id) name = plain.local? id name := by
  have same := inserted.bindings id
  unfold Scopes.local?
  cases left : padded.all[beyond fresh id]? <;> cases right : plain.all[id]? <;>
    simp_all

theorem owner? (inserted : Inserted base fresh plain padded) (faces : Faces base fresh id twin)
    (name : String) : padded.owner? twin name = (plain.owner? id name).map (beyond fresh) := by
  have unbound : padded.declares fresh name = false := by
    obtain ⟨scope, found, none⟩ := Option.map_eq_some_iff.mp inserted.empty
    unfold declares Scopes.local?
    rw [found, Option.bind_some, none]
    rfl
  -- No name is found in the empty scope, so it may be left out of the chain.
  have passed : padded.owner? twin name =
      ((padded.chain twin).filter (· ≠ fresh)).find? (padded.declares · name) := by
    unfold Scopes.owner?
    rw [List.find?_filter]
    congr 1
    funext other
    by_cases here : other = fresh
    · subst here
      simp [unbound]
    · simp [here]
  rw [passed, inserted.seen faces, List.find?_map]
  unfold Scopes.owner?
  congr 2
  funext other
  unfold declares
  rw [Function.comp_apply, inserted.local?]

theorem get? (inserted : Inserted base fresh plain padded) (faces : Faces base fresh id twin)
    (name : String) : padded.get? twin name = plain.get? id name := by
  unfold Scopes.get?
  rw [inserted.owner? faces, Option.bind_map]
  congr 1
  funext owner
  exact inserted.local? owner name

/-! ### Scopes that are changed, made and forgotten -/

theorem define (inserted : Inserted base fresh plain padded) (id : Nat) (name : String) (value : Value) :
    Inserted base fresh (plain.define id name value) (padded.define (beyond fresh id) name value) where
  below := inserted.below
  fits := by
    rw [size_define]
    exact inserted.fits
  size := by
    rw [size_define, size_define, inserted.size]
  bindings other := by
    have known := inserted.bindings other
    simp only [getElem?_define, (beyond_injective fresh).eq_iff]
    -- The scope that is bound in has a counterpart with the same bindings; no other one changes.
    split
    · cases left : padded.all[beyond fresh other]? <;> cases right : plain.all[other]? <;> simp_all
    · exact known
  empty := by
    rw [getElem?_define, if_neg (beyond_ne fresh id)]
    exact inserted.empty
  chain other := by
    simp only [chain_define]
    exact inserted.chain other
  inside := by
    simp only [chain_define]
    exact inserted.inside

theorem new (inserted : Inserted base fresh plain padded) (faces : Faces base fresh id twin)
    (held : id < plain.all.size) :
    Inserted base fresh (plain.new (some id)).1 (padded.new (some twin)).1 where
  below := inserted.below
  fits := by
    rw [size_new]
    exact Nat.le_succ_of_le inserted.fits
  size := by
    rw [size_new, size_new, inserted.size]
  bindings other := by
    have made : beyond fresh other = padded.all.size ↔ other = plain.all.size := by
      rw [← inserted.beyond_size, (beyond_injective fresh).eq_iff]
    simp only [bindings_new, made, inserted.bindings]
  empty := by
    rw [bindings_new, if_neg (Nat.ne_of_lt inserted.fresh_lt)]
    exact inserted.empty
  chain other := by
    by_cases made : other = plain.all.size
    -- The chain of the new scope is that of the scope around it, from which the same is seen.
    · subst made
      have apart : padded.all.size ≠ fresh := Nat.ne_of_gt inserted.fresh_lt
      rw [inserted.beyond_size, chain_new held, chain_new (inserted.lt faces held), List.map_cons,
        inserted.beyond_size, List.filter_cons_of_pos (by simpa using apart), inserted.seen faces]
    · have different : beyond fresh other ≠ padded.all.size := by
        rwa [← inserted.beyond_size, (beyond_injective fresh).ne_iff]
      rw [chain_new_of_ne _ made, chain_new_of_ne _ different]
      exact inserted.chain other
  inside := by
    have before := Nat.lt_of_lt_of_le inserted.below inserted.fits
    rw [chain_new_of_ne _ (Nat.ne_of_lt before), chain_new_of_ne _ (Nat.ne_of_lt inserted.fresh_lt)]
    exact inserted.inside

theorem dropFrom (inserted : Inserted base fresh plain padded) {least : Nat} (older : fresh ≤ least) :
    Inserted base fresh (plain.dropFrom least) (padded.dropFrom (least + 1)) where
  below := inserted.below
  fits := by
    rw [size_dropFrom]
    exact Nat.le_min.mpr ⟨older, inserted.fits⟩
  size := by
    rw [size_dropFrom, size_dropFrom, inserted.size, Nat.succ_min_succ]
  -- Dropping starts behind the inserted scope, so it drops counterparts of what the plain side drops.
  bindings other := by
    simp only [getElem?_dropFrom, beyond_lt older]
    split
    · exact inserted.bindings other
    · rfl
  empty := by
    rw [getElem?_dropFrom, if_pos (Nat.lt_succ_of_le older)]
    exact inserted.empty
  chain other := by
    simp only [chain_dropFrom, beyond_lt older]
    split
    · exact inserted.chain other
    · rfl
  inside := by
    rw [chain_dropFrom, chain_dropFrom, if_pos (Nat.lt_succ_of_le older),
      if_pos (Nat.lt_of_lt_of_le inserted.below older)]
    exact inserted.inside

end Inserted

end Scopes

/-! ### Machines side by side -/

/-- Where two machines stand, of which the second has an empty scope more. -/
structure Standing where
  /-- The current scope of the first. -/
  plain : Nat
  /-- The current scope of the second. -/
  padded : Nat
  /-- How many scopes the first has. -/
  size : Nat

/-- Where they stand inside a scope that is made next. -/
def Standing.inner (fresh size : Nat) : Standing := ⟨size, beyond fresh size, size + 1⟩

/-- A machine, and one with an empty scope more inside a given one. -/
structure Machine.Inserted (base fresh : Nat) (standing : Standing) (plain padded : Machine) : Prop where
  scopes : plain.scopes.Inserted base fresh padded.scopes
  faces : Scopes.Faces base fresh standing.plain standing.padded
  held : standing.plain < standing.size
  size : plain.scopes.all.size = standing.size
  current : plain.current = standing.plain
  twin : padded.current = standing.padded
  output : padded.output = plain.output
  calls : padded.calls = plain.calls

namespace Machine.Inserted

open Scopes (Faces)

variable {base fresh : Nat} {standing : Standing} {before beside after afterwards : Machine}

/-- Scopes may change, but not how many there are. -/
theorem change (fits : Inserted base fresh standing before beside) {plain padded : Scopes}
    (scopes : plain.Inserted base fresh padded) (size : plain.all.size = before.scopes.all.size) :
    Inserted base fresh standing { before with scopes := plain } { beside with scopes := padded } :=
  { fits with scopes, size := size.trans fits.size }

/-- From the current scope of either machine the same is seen. -/
theorem facing (fits : Inserted base fresh standing before beside) :
    Faces base fresh before.current beside.current := by
  rw [fits.current, fits.twin]
  exact fits.faces

/-- A new scope is made on both machines inside scopes from which the same is seen. -/
theorem enter (fits : Inserted base fresh standing before beside) {enclosing twin : Nat}
    (faces : Faces base fresh enclosing twin) (held : enclosing < standing.size) :
    Inserted base fresh (Standing.inner fresh standing.size)
      { before with
        scopes := (before.scopes.new (some enclosing)).1
        current := (before.scopes.new (some enclosing)).2 }
      { beside with
        scopes := (beside.scopes.new (some twin)).1
        current := (beside.scopes.new (some twin)).2 } where
  scopes := fits.scopes.new faces (fits.size ▸ held)
  faces := .same _
  held := Nat.lt_succ_self _
  size := by
    rw [Scopes.size_new, fits.size]
    rfl
  current := fits.size
  twin := by
    change beside.scopes.all.size = beyond fresh standing.size
    rw [← fits.scopes.beyond_size, fits.size]
  output := fits.output
  calls := fits.calls

theorem leave (fits : Inserted base fresh standing before beside)
    (inner : Inserted base fresh (Standing.inner fresh standing.size) after afterwards) :
    Inserted base fresh standing (Run.leave before after) (Run.leave beside afterwards) where
  scopes := by
    unfold Run.leave
    simp only
    rw [fits.scopes.size]
    exact inner.scopes.dropFrom fits.scopes.fits
  faces := fits.faces
  held := fits.held
  size := by
    unfold Run.leave
    rw [Scopes.size_dropFrom, fits.size, inner.size]
    exact Nat.min_eq_left (Nat.le_succ _)
  current := fits.current
  twin := fits.twin
  output := inner.output
  calls := inner.calls

end Machine.Inserted

namespace Lockstep

open Scopes (Faces)

/-- A program without an empty scope, and with it. Names can be bound in any scope but that one. -/
def inserted (base fresh : Nat) : Lockstep Standing where
  state := Machine.Inserted base fresh
  binds standing := standing.padded = beyond fresh standing.plain
  excused _ := False

section

variable {α : Type} {base fresh : Nat} {standing : Standing} {before beside : Machine} {library : Library}

/-- Where names can be bound, the current scope of one machine is that of the other. -/
theorem inserted_current (fits : Machine.Inserted base fresh standing before beside)
    (bound : (inserted base fresh).binds standing) : beyond fresh before.current = beside.current := by
  rw [fits.current, fits.twin]
  exact bound.symm

/-- A body runs alike in a new scope inside scopes from which the same is seen. -/
theorem inserted_inScope {body other : Run α}
    (steps : (inserted base fresh).Steps (Standing.inner fresh standing.size) body other)
    (fits : Machine.Inserted base fresh standing before beside) {enclosing twin : Nat}
    (faces : Faces base fresh enclosing twin) (held : enclosing < standing.size) :
    ((inserted base fresh).pairing standing).Outcomes Eq (Run.inScope enclosing body before)
      (Run.inScope twin other beside) := by
  have outcome := steps _ _ (fits.enter faces held)
  exact .inScope outcome (fun _ _ => id) (fun _ => id) fun _ _ inner => fits.leave inner

/-- No step can tell whether there is an empty scope more, if closures captured none that was made after
it. -/
theorem inserted_kept (base : Nat) (captured : ∀ id, (library.closure id).captured < fresh) :
    (inserted base fresh).Kept library where
  read standing name := by
    intro before beside fits
    unfold Run.read
    rw [fits.scopes.get? fits.facing]
    cases before.scopes.get? before.current name.lexeme with
    | some value => exact .ok rfl fits
    | none => exact .error rfl fits
  assign standing name value := by
    intro before beside fits
    unfold Run.assign Scopes.assign?
    rw [fits.scopes.owner? fits.facing]
    cases before.scopes.owner? before.current name.lexeme with
    | some owner =>
      have changed := fits.scopes.define owner name.lexeme value
      exact .ok rfl (fits.change changed (Scopes.size_define ..))
    | none => exact .error rfl fits
  define {standing} name value bound := by
    intro before beside fits
    have changed := fits.scopes.define before.current name value
    rw [inserted_current fits bound] at changed
    exact .ok rfl (fits.change changed (Scopes.size_define ..))
  ownValue {standing} name bound := by
    intro before beside fits
    have same := fits.scopes.local? before.current name
    rw [inserted_current fits bound] at same
    exact .ok (congrArg (·.getD .nil) same.symm) fits
  print standing text := by
    intro before beside fits
    exact .ok rfl { fits with output := by simp only [fits.output] }
  record standing call := by
    intro before beside fits
    exact .ok rfl { fits with calls := by simp only [fits.calls] }
  block {standing body twin} steps := by
    intro before beside fits
    exact inserted_inScope (steps _ rfl) fits fits.facing (fits.current ▸ fits.held)
  closure {standing body twin} id steps := by
    intro before beside fits
    -- What a closure captured is older than the empty scope, and has the same number on both machines.
    have faces : Faces base fresh (library.closure id).captured (library.closure id).captured := by
      have same := @Faces.same base fresh (library.closure id).captured
      rwa [beyond_of_lt (captured id)] at same
    have held : (library.closure id).captured < standing.size := by
      rw [← fits.size]
      exact Nat.lt_of_lt_of_le (captured id) fits.scopes.fits
    exact inserted_inScope (steps _ rfl) fits faces held

end

end Lockstep

/-! ### A scope made for a run that binds nothing -/

/-- Whatever refers to a scope refers to one that there is. -/
structure Machine.Founded (library : Library) (machine : Machine) : Prop where
  current : machine.current < machine.scopes.all.size
  outer : ∀ outer ∈ machine.scopes.links, ∀ id ∈ outer, id < machine.scopes.all.size
  captured : ∀ id, (library.closure id).captured < machine.scopes.all.size

namespace Machine

variable {library : Library} {before after machine : Machine}

theorem SameScopes.size (same : before.SameScopes after) :
    after.scopes.all.size = before.scopes.all.size :=
  Scopes.size_eq_of_links same.links

namespace Founded

theorem of_sameScopes (founded : before.Founded library) (same : before.SameScopes after) :
    after.Founded library where
  current := by
    rw [same.current, same.size]
    exact founded.current
  outer := by
    rw [same.links, same.size]
    exact founded.outer
  captured := by
    rw [same.size]
    exact founded.captured

theorem lt_of_mem_chain (founded : machine.Founded library) {id other : Nat}
    (member : other ∈ machine.scopes.chain id) : other < machine.scopes.all.size := by
  unfold Scopes.chain at member
  split at member
  · cases member
  next scope found =>
    rcases List.mem_cons.mp member with rfl | outside
    · exact (Array.getElem?_eq_some_iff.mp found).1
    · refine founded.outer scope.outer (List.mem_map.mpr ⟨scope, ?_, rfl⟩) other outside
      exact Array.mem_toList_iff.mpr (Array.mem_of_getElem? found)

/-- A scope that is made inside one that is there refers to scopes that are there. -/
theorem outer_new (founded : machine.Founded library) {enclosing : Nat}
    (held : enclosing < machine.scopes.all.size) :
    ∀ outer ∈ (machine.scopes.new (some enclosing)).1.links, ∀ id ∈ outer,
      id < machine.scopes.all.size + 1 := by
  intro outer member id inside
  rw [Scopes.links_new held] at member
  rcases List.mem_append.mp member with old | new
  · exact Nat.lt_succ_of_lt (founded.outer outer old id inside)
  · rw [List.mem_singleton.mp new] at inside
    exact Nat.lt_succ_of_lt (founded.lt_of_mem_chain inside)

theorem enter (founded : machine.Founded library) : Founded library
    { machine with
      scopes := (machine.scopes.new (some machine.current)).1
      current := (machine.scopes.new (some machine.current)).2 } where
  current := by
    rw [Scopes.size_new]
    exact Nat.lt_succ_self _
  outer := by
    rw [Scopes.size_new]
    exact founded.outer_new founded.current
  captured id := by
    rw [Scopes.size_new]
    exact Nat.lt_succ_of_lt (founded.captured id)

/-- On the chains of a machine, a scope that is made next is not met. -/
theorem chain_eq (founded : machine.Founded library) (id : Nat) :
    (machine.scopes.chain id).filter (· ≠ machine.scopes.all.size) =
      (machine.scopes.chain id).map (beyond machine.scopes.all.size) := by
  have apart : ∀ other ∈ machine.scopes.chain id, other ≠ machine.scopes.all.size :=
    fun other member => Nat.ne_of_lt (founded.lt_of_mem_chain member)
  have same : ∀ other ∈ machine.scopes.chain id, beyond machine.scopes.all.size other = other :=
    fun other member => beyond_of_lt (founded.lt_of_mem_chain member)
  rw [List.map_congr_left same, List.map_id', List.filter_eq_self.mpr (by simpa using apart)]

/-- A new scope inside the current one is an empty scope more. -/
theorem inserted (founded : machine.Founded library) :
    Scopes.Inserted machine.current machine.scopes.all.size machine.scopes
      (machine.scopes.new (some machine.current)).1 where
  below := founded.current
  fits := Nat.le_refl _
  size := Scopes.size_new _ _
  bindings id := by
    -- The number of the new scope is left out, and those behind it are of no scope on either side.
    rw [Scopes.bindings_new, if_neg (beyond_ne _ id)]
    by_cases old : id < machine.scopes.all.size
    · rw [beyond_of_lt old]
    · have missing := Nat.not_lt.mp old
      rw [beyond_of_le missing, Array.getElem?_eq_none missing,
        Array.getElem?_eq_none (Nat.le_succ_of_le missing)]
  empty := by
    rw [Scopes.bindings_new, if_pos rfl]
  chain id := by
    rw [Scopes.chain_new_of_ne _ (beyond_ne _ id), ← founded.chain_eq]
    by_cases old : id < machine.scopes.all.size
    · rw [beyond_of_lt old]
    · have missing := Nat.not_lt.mp old
      rw [beyond_of_le missing, Scopes.chain_of_le missing,
        Scopes.chain_of_le (Nat.le_succ_of_le missing)]
  inside := by
    rw [Scopes.chain_new founded.current, List.filter_cons_of_neg (by simp), founded.chain_eq]

/-- Side by side with the machine, a scope is made for a body. -/
theorem standing (founded : machine.Founded library) :
    Inserted machine.current machine.scopes.all.size
      ⟨machine.current, machine.scopes.all.size, machine.scopes.all.size⟩ machine
      { machine with
        scopes := (machine.scopes.new (some machine.current)).1
        current := (machine.scopes.new (some machine.current)).2 } where
  scopes := founded.inserted
  faces := .empty
  held := founded.current
  size := rfl
  current := rfl
  twin := rfl
  output := rfl
  calls := rfl

end Founded

end Machine

namespace Run

variable {library : Library} {machine : Machine}

/-- Where the scope made for a body stayed empty, nothing is left of it. -/
theorem leave_eq {before after afterwards : Machine} {standing : Standing}
    (fits : Machine.Inserted before.current before.scopes.all.size standing after afterwards)
    (same : before.SameScopes after)
    (inner : Machine.SameScopes
      { before with
        scopes := (before.scopes.new (some before.current)).1
        current := (before.scopes.new (some before.current)).2 } afterwards) :
    leave before afterwards = after := by
  have scopes : afterwards.scopes.dropFrom before.scopes.all.size = after.scopes := by
    refine congrArg Scopes.mk (Array.ext_getElem? fun id => ?_)
    change (afterwards.scopes.dropFrom before.scopes.all.size).all[id]? = _
    rw [Scopes.getElem?_dropFrom]
    split
    next old =>
      -- What a scope binds is known from the run beside, and what it is inside of stays as it was.
      have bindings := fits.scopes.bindings id
      rw [beyond_of_lt old] at bindings
      refine Scopes.eq_of_map bindings ?_
      rw [← Scopes.getElem?_links, ← Scopes.getElem?_links, inner.links, same.links,
        Scopes.getElem?_links, Scopes.getElem?_links, Scopes.getElem?_new _ old]
    next missing =>
      rw [Array.getElem?_eq_none]
      rw [same.size]
      exact Nat.not_lt.mp missing
  unfold leave
  rw [scopes, fits.output, fits.calls, ← same.current]

/-- A scope of its own makes no difference for a step that does the same beside an empty scope. -/
theorem inBlock_eq {step : Run Unit} {added : String → Prop} (founded : machine.Founded library)
    (frames : step.Frames library added)
    (alike : ∀ standing,
      (Lockstep.inserted machine.current machine.scopes.all.size).Steps standing step step) :
    inBlock step machine = step machine := by
  have outcome := alike _ _ _ founded.standing
  have plain := (frames machine).toSameScopes
  have inner := (frames { machine with
    scopes := (machine.scopes.new (some machine.current)).1
    current := (machine.scopes.new (some machine.current)).2 }).toSameScopes
  unfold ends at plain inner
  unfold inBlock inScope
  simp only
  generalize step machine = left, step _ = right at outcome plain inner ⊢
  cases outcome with
  | ok _ fits => simp only [leave_eq fits plain inner]
  | error same fits =>
    cases same
    simp only [leave_eq fits plain inner]
  | excused impossible => exact impossible.elim

end Run

end Lox
