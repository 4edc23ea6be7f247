import Lox.Number.Decimal

/-!
# Written numbers

Reading a number literal, and the three ways in which a number is written: as a value of the
language prints, as a literal of the language, and in full detail for a token.
-/
namespace Lox.Number

/-! ### Doubles by sign and place -/

/-- The place of a number's magnitude. -/
def place (v : Float) : Nat := v.toBits.toNat % 2 ^ 63

/-- Whether the sign bit is set, which tells the two zeros apart. -/
def isNegative (v : Float) : Bool := 2 ^ 63 ≤ v.toBits.toNat

/-- The number with the given sign and magnitude. -/
def ofPlace (negative : Bool) (place : Nat) : Float :=
  Float.ofBits (UInt64.ofNat (if negative then 2 ^ 63 + place else place))

/-- Not a number: no magnitude stands beyond infinity's. -/
def isNaN (v : Float) : Bool := infinityPlace < place v

/-- Either zero. -/
def isZero (v : Float) : Bool := place v == 0

/-- A quotient. Nothing is divided by a zero. -/
def divide (left right : Float) (_nonzero : isZero right = false) : Float := left / right

/-- A finite number without a fraction. -/
def isWhole (v : Float) : Bool := place v < infinityPlace && units (place v) % one == 0

/-- Two numbers are equal when they are the same double or both zero, and neither is NaN. -/
def equal (a b : Float) : Bool :=
  !isNaN a && !isNaN b && (a.toBits == b.toBits || isZero a && isZero b)

/-! ### Reading -/

/-- Digits with an optional point between them, as a decimal. -/
def decimalOfLiteral (text : List Char) : Decimal :=
  let whole := text.takeWhile (· != '.')
  let fraction := (text.dropWhile (· != '.')).drop 1
  ⟨Nat.ofDigitChars 10 (whole ++ fraction) 0, -fraction.length⟩

/-- The number that a literal denotes: the nearest double, infinity when it is too large. -/
def ofLiteral (text : List Char) : Float := ofPlace false (decimalOfLiteral text).place

/-! ### Writing -/

namespace Decimal

/-- The digits of a decimal from its first to its last that is not zero. -/
def digits (d : Decimal) : List Char :=
  match ((Nat.toDigits 10 d.coefficient).reverse.dropWhile (· == '0')).reverse with
  | [] => ['0']
  | ds => ds

/-- How many digits stand before the point; a negative count calls for zeros after it. -/
def pointAfter (d : Decimal) : Int := (Nat.toDigits 10 d.coefficient).length + d.exponent

/-- A decimal without an exponent, with at least one digit on either side of the point. -/
def positional (d : Decimal) : List Char :=
  let ds := d.digits
  match d.pointAfter with
  | .ofNat 0 => '0' :: '.' :: ds
  | .negSucc n => '0' :: '.' :: List.replicate (n + 1) '0' ++ ds
  | .ofNat n =>
    if ds.length ≤ n then ds ++ List.replicate (n - ds.length) '0' ++ ['.', '0']
    else ds.take n ++ '.' :: ds.drop n

/-- A decimal with one digit before the point and an exponent of at least two digits. -/
def scientific (d : Decimal) : List Char :=
  let exponent := d.pointAfter - 1
  let size := Nat.toDigits 10 exponent.natAbs
  let mantissa := match d.digits with
    | first :: second :: more => first :: '.' :: second :: more
    | ds => ds
  let sign := if exponent < 0 then '-' else '+'
  mantissa ++ 'e' :: sign :: List.replicate (2 - size.length) '0' ++ size

/-- Positional for the exponents from -4 to 15, scientific for the others. -/
def shown (d : Decimal) : List Char :=
  let exponent := d.pointAfter - 1
  if -4 ≤ exponent ∧ exponent < 16 then d.positional else d.scientific

end Decimal

/-- A number with its sign, its magnitude written as told. -/
def signed (write : Nat → List Char) (v : Float) : List Char :=
  if isNaN v then ['n', 'a', 'n']
  else
    let magnitude := if place v = infinityPlace then ['i', 'n', 'f'] else write (place v)
    if isNegative v then '-' :: magnitude else magnitude

/-- A number in full detail: shortest digits that read back, a fraction always shown. -/
def detailed (v : Float) : List Char := signed (fun place => (shortestDecimal place).shown) v

/-- The digits of a whole number; the sign of a zero is dropped. -/
def wholeDigits (v : Float) : List Char :=
  let digits := Nat.toDigits 10 (units (place v) / one)
  if isNegative v && !isZero v then '-' :: digits else digits

/-- A number as `print` writes it: a whole number exactly and without a point. -/
def printed (v : Float) : List Char := if isWhole v then wholeDigits v else detailed v

/-- Digits that read as infinity. -/
def infinityDigits : List Char := '1' :: List.replicate 309 '0'

/-- A number as a literal: no exponent, and infinity as digits beyond the largest double. -/
def literal (v : Float) : List Char :=
  if isWhole v then wholeDigits v
  else if place v = infinityPlace && !isNegative v then infinityDigits
  else signed (fun place => (shortestDecimal place).positional) v

end Lox.Number
