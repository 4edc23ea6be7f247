/-!
# Magnitudes

The finite non-negative doubles, counted from zero. The place of a double in this order is also its
bit pattern, and every double is a whole number of units of 2⁻¹⁰⁷⁴, so rounding to the nearest
double is a question about natural numbers.
-/
namespace Lox.Number

/-- Powers are those of natural numbers, whatever other notions of a power are known. -/
@[default_instance 20000]
instance (priority := 20000) power : Pow Nat Nat := instPowNat

/-- One, counted in units of 2⁻¹⁰⁷⁴. -/
def one : Nat := 2 ^ 1074

/-- The place after the largest finite double. -/
def infinityPlace : Nat := 0x7FF * 2 ^ 52

/-- The double at a place, counted in units of 2⁻¹⁰⁷⁴. -/
def units (place : Nat) : Nat :=
  if place < 2 ^ 52 then place else (2 ^ 52 + place % 2 ^ 52) * 2 ^ (place / 2 ^ 52 - 1)

/-- A quotient rounded to the nearest natural number, a half going to the even neighbour. -/
def roundHalfEven (num den : Nat) : Nat :=
  let low := num / den
  let twice := 2 * (num % den)
  if twice < den then low else if den < twice then low + 1 else low + low % 2

/-- How many binary digits a number of units has beyond the 53 that a double keeps. -/
def excess (x : Nat) : Nat := Nat.log2 x + 1 - 53

/-- The place of the double nearest to `num / den` units, infinity's when the quotient is too large.
A double that keeps 53 digits after dropping `s` stands `s` binades of 2⁵² places further on. -/
def nearest (num den : Nat) : Nat :=
  let dropped := excess (num / den)
  min (roundHalfEven num (den * 2 ^ dropped) + dropped * 2 ^ 52) infinityPlace

theorem roundHalfEven_mul_left (q : Nat) {den : Nat} (positive : 0 < den) :
    roundHalfEven (q * den) den = q := by
  simp [roundHalfEven, Nat.mul_div_cancel _ positive, positive]

theorem units_of_lt {place : Nat} (small : place < 2 ^ 53) : units place = place := by
  unfold units
  split
  · rfl
  · have top : place / 2 ^ 52 = 1 := by omega
    rw [top]
    omega

end Lox.Number
