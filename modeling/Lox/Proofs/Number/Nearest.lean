import Lox.Number.Written

/-!
# The nearest double

Rounding depends only on the value of a quotient, not on how it is written, and a double is nearest
to itself. So two decimals of one value denote one double, and the shortest decimal of a double
reads back as the double.
-/
namespace Lox.Number

/-! ### Quotients -/

theorem roundHalfEven_mul_right (num den : Nat) {k : Nat} (positive : 0 < k) :
    roundHalfEven (num * k) (den * k) = roundHalfEven num den := by
  have twice : 2 * (num * k % (den * k)) = 2 * (num % den) * k := by
    rw [Nat.mul_mod_mul_right, Nat.mul_assoc]
  unfold roundHalfEven
  rw [twice, Nat.mul_div_mul_right _ _ positive]
  simp only [Nat.mul_lt_mul_right positive]

theorem nearest_eq (num den : Nat) :
    nearest num den = min (roundHalfEven num (den * 2 ^ excess (num / den)) +
      excess (num / den) * 2 ^ 52) infinityPlace :=
  rfl

theorem nearest_mul_right (num den : Nat) {k : Nat} (positive : 0 < k) :
    nearest (num * k) (den * k) = nearest num den := by
  rw [nearest_eq, nearest_eq, Nat.mul_div_mul_right _ _ positive, Nat.mul_right_comm den k,
    roundHalfEven_mul_right _ _ positive]

/-- Equal quotients have the same nearest double. -/
theorem nearest_congr {num den other under : Nat} (positive : 0 < den) (nonzero : 0 < under)
    (cross : num * under = other * den) : nearest num den = nearest other under := by
  rw [← nearest_mul_right num den nonzero, ← nearest_mul_right other under positive, cross,
    Nat.mul_comm den]

/-- The number of binary digits of a double that keeps 53 of them. -/
theorem log2_mul_pow {mantissa : Nat} (k : Nat) (low : 2 ^ 52 ≤ mantissa)
    (high : mantissa < 2 ^ 53) : (mantissa * 2 ^ k).log2 = 52 + k := by
  have positive := Nat.two_pow_pos k
  rw [Nat.log2_eq_iff (Nat.mul_ne_zero (by omega) (by omega))]
  constructor
  · rw [Nat.pow_add]
    exact Nat.mul_le_mul_right _ low
  · rw [show 52 + k + 1 = 53 + k by omega, Nat.pow_add]
    exact Nat.mul_lt_mul_of_pos_right high positive

/-- A double is nearest to itself. -/
theorem nearest_units {place : Nat} (finite : place < infinityPlace) :
    nearest (units place) 1 = place := by
  rw [nearest_eq, Nat.div_one]
  -- Below 53 bits no bit is dropped. Above, those that are dropped are zeros.
  by_cases small : place < 2 ^ 53
  · have none : excess place = 0 := by
      unfold excess
      by_cases zero : place = 0
      · subst zero
        decide
      · have := (Nat.log2_lt zero).mpr small
        omega
    have whole := roundHalfEven_mul_left place Nat.one_pos
    rw [Nat.mul_one] at whole
    rw [units_of_lt small, none, Nat.pow_zero, Nat.mul_one, whole, Nat.zero_mul, Nat.add_zero]
    exact Nat.min_eq_left (Nat.le_of_lt finite)
  · have large : ¬ place < 2 ^ 52 := by omega
    have shape : units place = (2 ^ 52 + place % 2 ^ 52) * 2 ^ (place / 2 ^ 52 - 1) := by
      unfold units
      rw [if_neg large]
    have mantissa : place % 2 ^ 52 < 2 ^ 52 := Nat.mod_lt _ (by decide)
    have dropped : excess (units place) = place / 2 ^ 52 - 1 := by
      unfold excess
      rw [shape, log2_mul_pow _ (by omega) (by omega)]
      omega
    have back : 2 ^ 52 + place % 2 ^ 52 + (place / 2 ^ 52 - 1) * 2 ^ 52 = place := by omega
    rw [dropped, shape, Nat.one_mul, roundHalfEven_mul_left _ (Nat.two_pow_pos _), back]
    exact Nat.min_eq_left (Nat.le_of_lt finite)

/-! ### Decimals of one value -/

namespace Decimal

theorem place_eq (d : Decimal) :
    d.place = nearest (d.coefficient * 10 ^ d.exponent.toNat * one) (10 ^ (-d.exponent).toNat) := by
  obtain ⟨coefficient, exponent | exponent⟩ := d
  · simp [place, quotient]
  · simp [place, quotient]

/-- Zeros may be moved between the coefficient and the exponent. -/
theorem place_shift (coefficient k : Nat) (exponent : Int) :
    (⟨coefficient * 10 ^ k, exponent - k⟩ : Decimal).place =
      (⟨coefficient, exponent⟩ : Decimal).place := by
  rw [place_eq, place_eq]
  refine nearest_congr (Nat.pow_pos (by decide)) (Nat.pow_pos (by decide)) ?_
  have powers : k + (exponent - k).toNat + (-exponent).toNat =
      exponent.toNat + (-(exponent - k)).toNat := by omega
  have same := congrArg (10 ^ ·) powers
  simp only [Nat.pow_add] at same
  calc coefficient * 10 ^ k * 10 ^ (exponent - k).toNat * one * 10 ^ (-exponent).toNat
    _ = coefficient * one * (10 ^ k * 10 ^ (exponent - k).toNat * 10 ^ (-exponent).toNat) := by
      simp only [Nat.mul_assoc, Nat.mul_left_comm]
    _ = coefficient * one * (10 ^ exponent.toNat * 10 ^ (-(exponent - k)).toNat) := by rw [same]
    _ = coefficient * 10 ^ exponent.toNat * one * 10 ^ (-(exponent - k)).toNat := by
      simp only [Nat.mul_assoc, Nat.mul_left_comm]

end Decimal

/-! ### The shortest decimal -/

theorem place_exactDecimal {place : Nat} (finite : place < infinityPlace) :
    (exactDecimal place).place = place := by
  have scaled (k : Nat) : nearest (units place * 5 ^ k * 10 ^ 0 * 2 ^ k) (10 ^ k) = place := by
    have same : units place * 5 ^ k * 10 ^ 0 * 2 ^ k = units place * 10 ^ k := by
      rw [Nat.pow_zero, Nat.mul_one, Nat.mul_assoc, ← Nat.mul_pow]
    have unscaled := nearest_mul_right (units place) 1 (Nat.pow_pos (n := k) (show 0 < 10 by decide))
    rw [Nat.one_mul] at unscaled
    rw [same, unscaled, nearest_units finite]
  rw [Decimal.place_eq]
  exact scaled 1074

/-- The shortest decimal of a double reads back as the double. -/
theorem place_shortestDecimal {place : Nat} (finite : place < infinityPlace) :
    (shortestDecimal place).place = place := by
  unfold shortestDecimal
  split
  next zero =>
    subst zero
    have nothing := nearest_units finite
    rw [Decimal.place_eq]
    simpa [units] using nothing
  next =>
    simp only
    generalize found :
      (List.range 17).findSome? (fun (digits : Nat) => neighbour? place (leadingExponent place - digits)) = result
    cases result with
    | none => exact place_exactDecimal finite
    | some d =>
      obtain ⟨digits, -, read⟩ := List.exists_of_findSome?_eq_some found
      exact neighbour?_reads read

end Lox.Number
