import Lox.Evaluation.Machine
import Mathlib.Data.List.Forall2

/-!
# Two runs side by side

Two stateful computations are run from related states. A pairing tells which states and which errors
correspond, and with which errors the first computation is excused: where it stops with one of these,
nothing is said about the second. There is one rule for every way in which computations are put
together.
-/
namespace Lox

section

variable {ε σ α β : Type} {one : EStateM ε σ α} {next : α → EStateM ε σ β} {before after : σ}

theorem andThen_ok {result : α} (done : one before = .ok result after) :
    (one >>= next) before = next result after := by
  change EStateM.bind one next before = _
  unfold EStateM.bind
  rw [done]

theorem andThen_error {stop : ε} (stopped : one before = .error stop after) :
    (one >>= next) before = .error stop after := by
  change EStateM.bind one next before = _
  unfold EStateM.bind
  rw [stopped]

theorem andThen_eq_ok {result : β} : (one >>= next) before = .ok result after ↔
    ∃ first between, one before = .ok first between ∧ next first between = .ok result after := by
  cases outcome : one before with
  | ok first between => simp [andThen_ok outcome]
  | error stop between => simp [andThen_error outcome]

theorem andThen_eq_error {stop : ε} : (one >>= next) before = .error stop after ↔
    one before = .error stop after ∨
      ∃ first between, one before = .ok first between ∧ next first between = .error stop after := by
  cases outcome : one before with
  | ok first between => simp [andThen_ok outcome]
  | error stop between => simp [andThen_error outcome]

end

/-- What corresponds when two computations run side by side. -/
structure Pairing (ε φ σ τ : Type) where
  state : σ → τ → Prop
  error : ε → φ → Prop
  /-- The errors after which the first computation is not followed any further. -/
  excused : ε → Prop

namespace Pairing

variable {ε φ σ τ α β γ δ : Type}

/-- Outcomes correspond: both have a result, of which something is known, or both stop. -/
inductive Outcomes (pairing : Pairing ε φ σ τ) (known : α → γ → Prop) :
    EStateM.Result ε σ α → EStateM.Result φ τ γ → Prop where
  | ok {one : α} {other : γ} {after : σ} {beyond : τ} :
      known one other → pairing.state after beyond →
      Outcomes pairing known (.ok one after) (.ok other beyond)
  | error {one : ε} {other : φ} {after : σ} {beyond : τ} :
      pairing.error one other → pairing.state after beyond →
      Outcomes pairing known (.error one after) (.error other beyond)
  | excused {one : ε} {after : σ} {outcome : EStateM.Result φ τ γ} :
      pairing.excused one → Outcomes pairing known (.error one after) outcome

/-- From states that correspond, two computations come to outcomes that correspond. -/
def Runs (pairing : Pairing ε φ σ τ) (known : α → γ → Prop) (one : EStateM ε σ α)
    (other : EStateM φ τ γ) : Prop :=
  ∀ before beside, pairing.state before beside →
    pairing.Outcomes known (one before) (other beside)

namespace Runs

variable {pairing : Pairing ε φ σ τ} {known : α → γ → Prop} {goal : β → δ → Prop}
  {one : EStateM ε σ α} {other : EStateM φ τ γ}

theorem pure {first : α} {second : γ} (same : known first second) :
    pairing.Runs known (pure first) (pure second) :=
  fun _ _ fits => .ok same fits

theorem throw {first : ε} {second : φ} (same : pairing.error first second) :
    pairing.Runs known (MonadExcept.throw first) (MonadExcept.throw second) :=
  fun _ _ fits => .error same fits

/-- A computation that only stops with an excuse goes with any other. -/
theorem excuse {first : ε} (excused : pairing.excused first) :
    pairing.Runs known (MonadExcept.throw first) other :=
  fun _ _ _ => .excused excused

theorem mono {looser : α → γ → Prop} (runs : pairing.Runs known one other)
    (weaker : ∀ first second, known first second → looser first second) :
    pairing.Runs looser one other := by
  intro before beside fits
  have step := runs before beside fits
  generalize one before = left, other beside = right at step ⊢
  cases step with
  | ok same fits => exact .ok (weaker _ _ same) fits
  | error same fits => exact .error same fits
  | excused excused => exact .excused excused

/-- One computation after the other. -/
theorem bind {next : α → EStateM ε σ β} {further : γ → EStateM φ τ δ}
    (runs : pairing.Runs known one other)
    (onward : ∀ first second, known first second →
      pairing.Runs goal (next first) (further second)) :
    pairing.Runs goal (one >>= next) (other >>= further) := by
  intro before beside fits
  have step := runs before beside fits
  change pairing.Outcomes goal (EStateM.bind one next before) (EStateM.bind other further beside)
  unfold EStateM.bind
  generalize one before = left, other beside = right at step ⊢
  cases step with
  | ok same fits => exact onward _ _ same _ _ fits
  | error same fits => exact .error same fits
  | excused excused => exact .excused excused

theorem map {next : α → β} {further : γ → δ} (runs : pairing.Runs known one other)
    (onward : ∀ first second, known first second → goal (next first) (further second)) :
    pairing.Runs goal (next <$> one) (further <$> other) := by
  intro before beside fits
  have step := runs before beside fits
  change pairing.Outcomes goal (EStateM.map next one before) (EStateM.map further other beside)
  unfold EStateM.map
  generalize one before = left, other beside = right at step ⊢
  cases step with
  | ok same fits => exact .ok (onward _ _ same) fits
  | error same fits => exact .error same fits
  | excused excused => exact .excused excused

/-- Computations whose results are not used. -/
theorem discard (runs : pairing.Runs known one other) :
    pairing.Runs (fun _ _ => True) (discard one) (discard other) :=
  runs.map fun _ _ _ => trivial

/-- A first computation that both sides do or both leave out. -/
theorem optional {does : Prop} [Decidable does] {one : EStateM ε σ PUnit} {other : EStateM φ τ PUnit}
    {rest : EStateM ε σ β} {further : EStateM φ τ δ} (first : pairing.Runs (fun _ _ => True) one other)
    (onward : pairing.Runs goal rest further) :
    pairing.Runs goal (if does then one >>= fun _ => rest else rest)
      (if does then other >>= fun _ => further else further) := by
  split
  · exact bind first fun _ _ _ => onward
  · exact onward

section Lists

variable {ι κ : Type} {alike : ι → κ → Prop} {step : ι → EStateM ε σ α} {pace : κ → EStateM φ τ γ}
  {items : List ι} {others : List κ}

/-- One computation for each item of two lists that correspond item by item. -/
theorem mapM (same : List.Forall₂ alike items others)
    (runs : ∀ item ∈ items, ∀ matched, alike item matched →
      pairing.Runs known (step item) (pace matched)) :
    pairing.Runs (List.Forall₂ known) (items.mapM step) (others.mapM pace) := by
  induction same with
  | nil => exact .pure .nil
  | cons first _ ih =>
    rw [List.mapM_cons, List.mapM_cons]
    refine bind (runs _ List.mem_cons_self _ first) fun _ _ given => ?_
    refine bind (ih fun item member => runs item (List.mem_cons_of_mem _ member)) fun _ _ more => ?_
    exact .pure (.cons given more)

theorem forM {step : ι → EStateM ε σ PUnit} {pace : κ → EStateM φ τ PUnit}
    (same : List.Forall₂ alike items others)
    (runs : ∀ item ∈ items, ∀ matched, alike item matched →
      pairing.Runs (fun _ _ => True) (step item) (pace matched)) :
    pairing.Runs (fun _ _ => True) (items.forM step) (others.forM pace) := by
  induction same with
  | nil => exact .pure trivial
  | cons first _ ih =>
    refine bind (runs _ List.mem_cons_self _ first) fun _ _ _ => ?_
    exact ih fun item member => runs item (List.mem_cons_of_mem _ member)

/-- One computation for each item of a single list. -/
theorem mapM_self {pace : ι → EStateM φ τ γ}
    (runs : ∀ item ∈ items, pairing.Runs known (step item) (pace item)) :
    pairing.Runs (List.Forall₂ known) (items.mapM step) (items.mapM pace) := by
  have one_by_one : List.Forall₂ Eq items items := List.forall₂_refl _
  refine .mapM one_by_one ?_
  rintro item member _ rfl
  exact runs item member

theorem forM_self {step : ι → EStateM ε σ PUnit} {pace : ι → EStateM φ τ PUnit}
    (runs : ∀ item ∈ items, pairing.Runs (fun _ _ => True) (step item) (pace item)) :
    pairing.Runs (fun _ _ => True) (items.forM step) (items.forM pace) := by
  have one_by_one : List.Forall₂ Eq items items := List.forall₂_refl _
  refine .forM one_by_one ?_
  rintro item member _ rfl
  exact runs item member

end Lists

end Runs

/-- Bodies that go alike from machines in a new scope go alike in a scope that is made for them. -/
theorem Outcomes.inScope {pairing inner : Pairing Interrupt Interrupt Machine Machine}
    {known : α → γ → Prop} {body : Run α} {twin : Run γ} {before beside : Machine}
    {enclosing facing : Nat}
    (outcome : inner.Outcomes known
      (body { before with
        scopes := (before.scopes.new (some enclosing)).1
        current := (before.scopes.new (some enclosing)).2 })
      (twin { beside with
        scopes := (beside.scopes.new (some facing)).1
        current := (beside.scopes.new (some facing)).2 }))
    (error : ∀ one other, inner.error one other → pairing.error one other)
    (excused : ∀ stop, inner.excused stop → pairing.excused stop)
    (leave : ∀ after beyond, inner.state after beyond →
      pairing.state (Run.leave before after) (Run.leave beside beyond)) :
    pairing.Outcomes known (Run.inScope enclosing body before) (Run.inScope facing twin beside) := by
  unfold Run.inScope
  simp only
  generalize body _ = left, twin _ = right at outcome ⊢
  -- A body that stops is left like one that ends.
  cases outcome with
  | ok same fits => exact .ok same (leave _ _ fits)
  | error same fits => exact .error (error _ _ same) (leave _ _ fits)
  | excused known => exact .excused (excused _ known)

end Pairing

end Lox
