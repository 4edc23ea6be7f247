import Lox.Proofs.Number.Bits
import Lox.Proofs.Number.Nearest

/-!
# Literals read back

A number that is not negative is written as a literal of the language, digits with at most one point
between them, and the literal denotes the number. The digits of a decimal without an exponent have
the value of the decimal, wherever the point falls among them.
-/
namespace Lox.Number

/-- Some digits, perhaps with a point between them. -/
def Numeral (text : List Char) : Prop :=
  (text ≠ [] ∧ ∀ c ∈ text, c.isDigit = true) ∨
    ∃ whole fraction, text = whole ++ '.' :: fraction ∧ whole ≠ [] ∧ fraction ≠ [] ∧
      (∀ c ∈ whole, c.isDigit = true) ∧ ∀ c ∈ fraction, c.isDigit = true

theorem Numeral.begins {text : List Char} (numeral : Numeral text) :
    ∃ c more, text = c :: more ∧ c.isDigit = true := by
  rcases numeral with ⟨some, digits⟩ | ⟨whole, fraction, rfl, some, -, digits, -⟩
  · obtain ⟨c, more, rfl⟩ := List.exists_cons_of_ne_nil some
    exact ⟨c, more, rfl, digits c List.mem_cons_self⟩
  · obtain ⟨c, more, rfl⟩ := List.exists_cons_of_ne_nil some
    exact ⟨c, _, rfl, digits c List.mem_cons_self⟩

/-! ### Reading digits -/

theorem not_point_of_digits {text : List Char} (digits : ∀ c ∈ text, c.isDigit = true) :
    ∀ c ∈ text, (c != '.') = true := by
  intro c member
  have digit := digits c member
  by_cases point : c = '.'
  · subst point
    exact absurd digit (by decide)
  · simpa using point

theorem decimalOfLiteral_whole {text : List Char} (digits : ∀ c ∈ text, c.isDigit = true) :
    decimalOfLiteral text = ⟨Nat.ofDigitChars 10 text 0, 0⟩ := by
  have points := not_point_of_digits digits
  have taken : (text ++ []).takeWhile (· != '.') = text ++ [].takeWhile (· != '.') :=
    List.takeWhile_append_of_pos points
  have dropped : (text ++ []).dropWhile (· != '.') = [].dropWhile (· != '.') :=
    List.dropWhile_append_of_pos points
  rw [List.append_nil] at taken dropped
  unfold decimalOfLiteral
  rw [taken, dropped]
  simp

theorem decimalOfLiteral_point {whole : List Char} (fraction : List Char)
    (digits : ∀ c ∈ whole, c.isDigit = true) :
    decimalOfLiteral (whole ++ '.' :: fraction) =
      ⟨Nat.ofDigitChars 10 (whole ++ fraction) 0, -fraction.length⟩ := by
  have points := not_point_of_digits digits
  unfold decimalOfLiteral
  rw [List.takeWhile_append_of_pos points, List.dropWhile_append_of_pos points]
  simp

/-! ### Writing digits -/

namespace Decimal

/-- The digits of a decimal are those of its coefficient without the zeros at their end. -/
theorem digits_spec (d : Decimal) :
    ∃ zeros, Nat.toDigits 10 d.coefficient = d.digits ++ List.replicate zeros '0' := by
  have zeros : ∀ c ∈ (Nat.toDigits 10 d.coefficient).reverse.takeWhile (· == '0'), c = '0' :=
    fun c member => by simpa using List.all_eq_true.mp (List.all_takeWhile) c member
  have split := List.takeWhile_append_dropWhile (p := (· == '0'))
    (l := (Nat.toDigits 10 d.coefficient).reverse)
  have whole := congrArg List.reverse split
  rw [List.reverse_append, List.reverse_reverse, List.eq_replicate_of_mem zeros,
    List.reverse_replicate] at whole
  unfold digits
  split
  next nothing =>
    rw [nothing, List.nil_append] at whole
    have zero : d.coefficient = 0 := by
      have value := congrArg (Nat.ofDigitChars 10 · 0) whole
      simpa using value.symm
    exact ⟨0, by rw [zero]; rfl⟩
  next => exact ⟨_, whole.symm⟩

theorem digits_ne_nil (d : Decimal) : d.digits ≠ [] := by
  unfold digits
  split
  · exact List.cons_ne_nil _ _
  next some => exact some

theorem isDigit_of_mem_digits {d : Decimal} : ∀ c ∈ d.digits, c.isDigit = true := by
  intro c member
  obtain ⟨zeros, spec⟩ := d.digits_spec
  have member : c ∈ Nat.toDigits 10 d.coefficient := by
    rw [spec]
    exact List.mem_append_left _ member
  exact Nat.isDigit_of_mem_toDigits (by decide) (by decide) member

/-- The digits of a decimal fall short of its coefficient by some zeros, which its point is behind. -/
theorem value_digits (d : Decimal) :
    ∃ zeros : Nat, Nat.ofDigitChars 10 d.digits 0 * 10 ^ zeros = d.coefficient ∧
      d.pointAfter = d.digits.length + zeros + d.exponent := by
  obtain ⟨zeros, spec⟩ := d.digits_spec
  refine ⟨zeros, ?_, ?_⟩
  · have value := congrArg (Nat.ofDigitChars 10 · 0) spec
    simpa [Nat.ofDigitChars_append, Nat.mul_comm] using value.symm
  · rw [pointAfter, spec, List.length_append, List.length_replicate, Int.natCast_add]

/-- Digits and the place of their point stand for a decimal if both agree up to zeros. -/
theorem place_digits {d : Decimal} {digits : List Char} {after : Nat} (zeros shift : Nat)
    (value : Nat.ofDigitChars 10 digits 0 * 10 ^ zeros = d.coefficient * 10 ^ shift)
    (exponent : d.exponent - shift = -after - zeros) :
    (⟨Nat.ofDigitChars 10 digits 0, -after⟩ : Decimal).place = d.place := by
  rw [← place_shift _ zeros, value, ← exponent, place_shift]

/-- Some digits before a point and some after it, which have the value of a decimal together. -/
structure Halves (d : Decimal) (whole fraction : List Char) : Prop where
  whole_ne_nil : whole ≠ []
  fraction_ne_nil : fraction ≠ []
  whole_digits : ∀ c ∈ whole, c.isDigit = true
  fraction_digits : ∀ c ∈ fraction, c.isDigit = true
  place_eq : (⟨Nat.ofDigitChars 10 (whole ++ fraction) 0, -fraction.length⟩ : Decimal).place = d.place

theorem isDigit_of_mem_zeros {count : Nat} : ∀ c ∈ List.replicate count '0', c.isDigit = true := by
  intro c member
  rw [List.eq_of_mem_replicate member]
  decide

/-- A point in front of every digit: the zeros between are written, and one before the point. -/
theorem halves_before {d : Decimal} {n : Nat} (point : d.pointAfter = -n) :
    d.Halves ['0'] (List.replicate n '0' ++ d.digits) := by
  obtain ⟨zeros, value, behind⟩ := d.value_digits
  refine ⟨List.cons_ne_nil _ _, List.append_ne_nil_of_right_ne_nil _ d.digits_ne_nil, by simp, ?_, ?_⟩
  · exact List.forall_mem_append.mpr ⟨isDigit_of_mem_zeros, isDigit_of_mem_digits⟩
  · refine place_digits zeros 0 ?_ ?_
    · simpa [Nat.ofDigitChars_cons, Nat.ofDigitChars_append] using value
    · rw [List.length_append, List.length_replicate]
      omega

/-- A point behind every digit: the zeros between are written, and one after the point. -/
theorem halves_behind {d : Decimal} {n : Nat} (point : d.pointAfter = n) (short : d.digits.length ≤ n) :
    d.Halves (d.digits ++ List.replicate (n - d.digits.length) '0') ['0'] := by
  obtain ⟨zeros, value, behind⟩ := d.value_digits
  refine ⟨List.append_ne_nil_of_left_ne_nil d.digits_ne_nil _, List.cons_ne_nil _ _, ?_, by simp, ?_⟩
  · exact List.forall_mem_append.mpr ⟨isDigit_of_mem_digits, isDigit_of_mem_zeros⟩
  · refine place_digits zeros (n - d.digits.length + 1) ?_ ?_
    · rw [← value]
      simp only [Nat.ofDigitChars_append, Nat.ofDigitChars_replicate_zero, Nat.ofDigitChars_cons,
        Nat.ofDigitChars_nil, Nat.pow_succ, Nat.sub_self, Nat.add_zero]
      simp only [Nat.mul_comm, Nat.mul_left_comm, Nat.mul_assoc]
    · rw [List.length_singleton]
      omega

/-- A point between two digits parts them. -/
theorem halves_between {d : Decimal} {n : Nat} (point : d.pointAfter = n) (positive : n ≠ 0)
    (long : n < d.digits.length) : d.Halves (d.digits.take n) (d.digits.drop n) := by
  obtain ⟨zeros, value, behind⟩ := d.value_digits
  refine ⟨?_, ?_, ?_, ?_, ?_⟩
  · simpa using ⟨positive, d.digits_ne_nil⟩
  · simpa using long
  · exact fun c member => isDigit_of_mem_digits c (List.mem_of_mem_take member)
  · exact fun c member => isDigit_of_mem_digits c (List.mem_of_mem_drop member)
  · rw [List.take_append_drop]
    refine place_digits zeros 0 (by simpa using value) ?_
    rw [List.length_drop]
    omega

/-- The digits before and after the point of a decimal have its value. -/
theorem positional_spec (d : Decimal) :
    ∃ whole fraction, d.positional = whole ++ '.' :: fraction ∧ d.Halves whole fraction := by
  unfold positional
  simp only
  split
  next point => exact ⟨['0'], d.digits, rfl, halves_before (n := 0) point⟩
  next n point => exact ⟨['0'], List.replicate (n + 1) '0' ++ d.digits, rfl, halves_before point⟩
  next n positive point =>
    have point : d.pointAfter = (n : Nat) := point
    split
    next short => exact ⟨_, _, by simp, halves_behind point short⟩
    next long =>
      have positive : n ≠ 0 := fun none => positive (by rw [none])
      exact ⟨_, _, rfl, halves_between point positive (Nat.lt_of_not_le long)⟩

end Decimal

/-! ### Literals -/

theorem numeral_toDigits (n : Nat) : Numeral (Nat.toDigits 10 n) :=
  .inl ⟨Nat.toDigits_ne_nil, fun _ => Nat.isDigit_of_mem_toDigits (by decide) (by decide)⟩

theorem place_positional (d : Decimal) :
    Numeral d.positional ∧ (decimalOfLiteral d.positional).place = d.place := by
  obtain ⟨whole, fraction, text, halves⟩ := d.positional_spec
  rw [text, decimalOfLiteral_point fraction halves.whole_digits]
  exact ⟨.inr ⟨whole, fraction, rfl, halves.whole_ne_nil, halves.fraction_ne_nil,
    halves.whole_digits, halves.fraction_digits⟩, halves.place_eq⟩

theorem isDigit_of_mem_infinityDigits : ∀ c ∈ infinityDigits, c.isDigit = true := by
  intro c member
  rcases List.mem_cons.mp member with rfl | member
  · decide
  · exact Decimal.isDigit_of_mem_zeros c member

/-- The digits of infinity denote a number that is too large. -/
theorem place_infinityDigits : (decimalOfLiteral infinityDigits).place = infinityPlace := by
  rw [decimalOfLiteral_whole isDigit_of_mem_infinityDigits]
  decide +kernel

/-- A number that is not negative is denoted by its literal. -/
theorem ofLiteral_literal {v : Float} (positive : isNegative v = false)
    (number : isNaN v = false) : Numeral (literal v) ∧ ofLiteral (literal v) = v := by
  have bounded : place v ≤ infinityPlace := by simpa [isNaN] using number
  -- The number has no sign, so only its place has to be read back.
  have back : ∀ text, (decimalOfLiteral text).place = place v → ofLiteral text = v := by
    intro text same
    unfold ofLiteral
    rw [same, ofPlace_place positive]
  unfold literal
  split
  next whole =>
    unfold isWhole at whole
    rw [Bool.and_eq_true, decide_eq_true_eq, beq_iff_eq] at whole
    have exact_ : units (place v) / one * one = units (place v) :=
      Nat.div_mul_cancel (Nat.dvd_of_mod_eq_zero whole.2)
    have digits : ∀ c ∈ Nat.toDigits 10 (units (place v) / one), c.isDigit = true :=
      fun _ => Nat.isDigit_of_mem_toDigits (by decide) (by decide)
    unfold wholeDigits
    rw [positive, Bool.false_and, if_neg (by decide)]
    refine ⟨numeral_toDigits _, back _ ?_⟩
    rw [decimalOfLiteral_whole digits, Decimal.place_eq, Nat.ofDigitChars_ten_toDigits]
    simp only [Int.toNat_zero, Int.neg_zero, Nat.pow_zero, Nat.mul_one]
    rw [exact_, nearest_units whole.1]
  next =>
    split
    next infinite =>
      have infinite : place v = infinityPlace := by simpa [positive] using infinite
      exact ⟨.inl ⟨List.cons_ne_nil _ _, isDigit_of_mem_infinityDigits⟩,
        back _ (place_infinityDigits.trans infinite.symm)⟩
    next finite =>
      have finite : place v < infinityPlace := by
        have other : place v ≠ infinityPlace := by simpa [positive] using finite
        omega
      obtain ⟨numeral, same⟩ := place_positional (shortestDecimal (place v))
      unfold signed
      rw [number, if_neg (by decide), if_neg (Nat.ne_of_lt finite), positive, if_neg (by decide)]
      exact ⟨numeral, back _ (same.trans (place_shortestDecimal finite))⟩

end Lox.Number
