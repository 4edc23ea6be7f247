import Lox.Value
import Lox.Proofs.Number.Printed

/-!
# Equal values

Equality is an equivalence on the values that are not NaN, and equal values cannot be told apart by what
the language asks of them: they count as true together and print alike. Of numbers the converse holds
too. References are compared by what they refer to and printed by name, so theirs does not.
-/
namespace Lox

namespace Number

theorem equal_comm (v w : Float) : equal v w = equal w v := by
  rw [Bool.eq_iff_iff, equal_iff, equal_iff]
  constructor
  · rintro ⟨⟨number, other⟩, same | ⟨zero, nothing⟩⟩
    · exact ⟨⟨other, number⟩, .inl same.symm⟩
    · exact ⟨⟨other, number⟩, .inr ⟨nothing, zero⟩⟩
  · rintro ⟨⟨number, other⟩, same | ⟨zero, nothing⟩⟩
    · exact ⟨⟨other, number⟩, .inl same.symm⟩
    · exact ⟨⟨other, number⟩, .inr ⟨nothing, zero⟩⟩

theorem equal_trans {u v w : Float} (front : equal u v = true) (back : equal v w = true) :
    equal u w = true := by
  obtain ⟨⟨number, -⟩, rfl | ⟨zero, -⟩⟩ := equal_iff.mp front
  · exact back
  · obtain ⟨⟨-, other⟩, rfl | ⟨-, nothing⟩⟩ := equal_iff.mp back
    · exact front
    · exact equal_iff.mpr ⟨⟨number, other⟩, .inr ⟨zero, nothing⟩⟩

theorem equal_self (v : Float) : equal v v = !isNaN v := by
  simp [equal]

end Number

namespace Value

/-- Whether a value is the number that no number equals. -/
def isNaN : Value → Bool
  | number value => Number.isNaN value
  | _ => false

theorem equal_self (a : Value) : a.equal a = !a.isNaN := by
  cases a with
  | number value => exact Number.equal_self value
  | nil => rfl
  | bool value => simp [equal, isNaN]
  | text value => simp [equal, isNaN]
  | callable target => simp [equal, isNaN]

section

variable {a b c : Value}

/-- Values are equal when they are the same, or numbers that are equal. -/
theorem equal_iff : a.equal b = true ↔ (a = b ∧ a.isNaN = false) ∨
    ∃ v w, a = number v ∧ b = number w ∧ Number.equal v w = true := by
  constructor
  · intro same
    -- Of two kinds the answer is no, and of one kind only numbers are not compared by what they are.
    cases a <;> cases b <;> simp_all [equal, isNaN]
  · rintro (⟨rfl, number⟩ | ⟨v, w, rfl, rfl, same⟩)
    · simp [equal_self, number]
    · exact same

theorem equal_comm (a b : Value) : a.equal b = b.equal a := by
  have turned {a b : Value} (same : a.equal b = true) : b.equal a = true := by
    rcases equal_iff.mp same with ⟨rfl, -⟩ | ⟨v, w, rfl, rfl, numbers⟩
    · exact same
    · exact (Number.equal_comm w v).trans numbers
  rw [Bool.eq_iff_iff]
  exact ⟨turned, turned⟩

theorem equal_trans (front : a.equal b = true) (back : b.equal c = true) : a.equal c = true := by
  rcases equal_iff.mp front with ⟨rfl, -⟩ | ⟨u, v, rfl, rfl, numbers⟩
  · exact back
  · rcases equal_iff.mp back with ⟨rfl, -⟩ | ⟨v', w, middle, rfl, others⟩
    · exact front
    · cases middle
      exact Number.equal_trans numbers others

theorem truthy_of_equal (same : a.equal b = true) : a.truthy = b.truthy := by
  rcases equal_iff.mp same with ⟨rfl, -⟩ | ⟨v, w, rfl, rfl, numbers⟩
  · rfl
  · obtain ⟨-, rfl | ⟨zero, nothing⟩⟩ := Number.equal_iff.mp numbers
    · rfl
    · simp [truthy, zero, nothing]

theorem printed_of_equal (same : a.equal b = true) : a.printed = b.printed := by
  rcases equal_iff.mp same with ⟨rfl, -⟩ | ⟨v, w, rfl, rfl, numbers⟩
  · rfl
  · simp [printed, Number.printed_of_equal numbers]

end

/-- Equality is symmetric, transitive and, but for NaN, reflexive. Equal values count as true together
and print alike, and of numbers those that print alike are equal. -/
theorem equality_observable (a b c : Value) :
    a.equal b = b.equal a ∧
      (a.equal b = true → b.equal c = true → a.equal c = true) ∧
      (a.equal a = true ↔ a.isNaN = false) ∧
      (a.equal b = true → a.truthy = b.truthy ∧ a.printed = b.printed) ∧
      ∀ v w, Number.isNaN v = false → Number.isNaN w = false →
        (number v).printed = (number w).printed → (number v).equal (number w) = true := by
  refine ⟨equal_comm a b, equal_trans, ?_, ?_, ?_⟩
  · simp [equal_self]
  · intro same
    exact ⟨truthy_of_equal same, printed_of_equal same⟩
  · intro v w number other same
    apply Number.equal_of_printed number other
    exact String.ofList_injective same

/-- The two zeros are different doubles, and equal. -/
theorem equality_observable_zeros :
    let zero := Number.ofPlace false 0
    let minus := Number.ofPlace true 0
    zero ≠ minus ∧ (number zero).equal (number minus) = true ∧
      (number zero).equal (number zero) = true ∧
      (number zero).truthy = (number minus).truthy ∧
      (number zero).printed = (number minus).printed := by
  intro zero minus
  have same : (number zero).equal (number minus) = true := by decide
  obtain ⟨turned, along, -, alike, back⟩ := equality_observable (number zero) (number minus) (number zero)
  have printed := (alike same).2
  exact ⟨by decide, back zero minus (by decide) (by decide) printed, along same (turned.symm.trans same),
    alike same⟩

/-- Functions of one name print alike, and are equal only when they are the same. -/
example :
    let one := callable (.closure 0 "f" 0)
    let other := callable (.closure 1 "f" 0)
    one.printed = other.printed ∧ one.equal other = false := by
  decide

end Value

end Lox
