import Lox.Number.Magnitude

/-!
# Decimals

Numbers in decimal notation, the double that each of them denotes, and the fewest digits that denote
a given double.
-/
namespace Lox.Number

/-- The number `coefficient * 10 ^ exponent`. -/
structure Decimal where
  coefficient : Nat
  exponent : Int
  deriving DecidableEq, Repr

namespace Decimal

/-- The decimal as a quotient of natural numbers. -/
def quotient (d : Decimal) : Nat × Nat :=
  match d.exponent with
  | .ofNat e => (d.coefficient * 10 ^ e, 1)
  | .negSucc e => (d.coefficient, 10 ^ (e + 1))

/-- The place of the double nearest to a decimal. -/
def place (d : Decimal) : Nat :=
  let (num, den) := d.quotient
  nearest (num * one) den

end Decimal

/-- The double at a place written out in full: `2⁻¹⁰⁷⁴ = 5¹⁰⁷⁴ * 10⁻¹⁰⁷⁴`. -/
def exactDecimal (place : Nat) : Decimal := ⟨units place * 5 ^ 1074, -1074⟩

/-- The exponent of the first digit of a positive double. The smallest one is above `10⁻³²⁴`, so the
digits before the point of its product with `10⁴⁰⁰` tell. -/
def leadingExponent (place : Nat) : Int :=
  (Nat.toDigits 10 (units place * 10 ^ 400 / one)).length - 401

/-- The double at a place divided by `10 ^ exponent`, as a quotient. -/
def scaled (place : Nat) (exponent : Int) : Nat × Nat :=
  match exponent with
  | .ofNat e => (units place, one * 10 ^ e)
  | .negSucc e => (units place * 10 ^ (e + 1), one)

/-- Of the two neighbours of a double among the multiples of `10 ^ exponent`, the one that reads
back as the double. If both do, the nearer is taken, and the even one when they are equally near. -/
def neighbour? (place : Nat) (exponent : Int) : Option Decimal :=
  let (num, den) := scaled place exponent
  let low : Decimal := ⟨num / den, exponent⟩
  let high : Decimal := ⟨num / den + 1, exponent⟩
  if low.place = place ∧ (high.place ≠ place ∨ roundHalfEven num den = num / den) then some low
  else if high.place = place then some high
  else none

/-- The decimal with the fewest digits that reads back as the double at a place, and the nearest to
it among those. Seventeen digits always suffice. -/
def shortestDecimal (place : Nat) : Decimal :=
  if place = 0 then ⟨0, 0⟩
  else
    let top := leadingExponent place
    let found := (List.range 17).findSome? fun (digits : Nat) => neighbour? place (top - digits)
    found.getD (exactDecimal place)

theorem neighbour?_reads {place : Nat} {exponent : Int} {d : Decimal}
    (found : neighbour? place exponent = some d) : d.place = place := by
  unfold neighbour? at found
  split at found
  next =>
    simp only at found
    split at found
    next low => exact Option.some.inj found ▸ low.1
    next =>
      split at found
      next high => exact Option.some.inj found ▸ high
      next => exact absurd found (by simp)

end Lox.Number
