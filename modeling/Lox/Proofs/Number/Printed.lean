import Lox.Proofs.Number.ReadBack
import Mathlib.Data.List.Basic

/-!
# Printed numbers

What is printed of a number tells the number: a whole one has no point and no exponent, any other has one
of them, and both have digits that are read back. So numbers that print alike are equal. Of the numbers
that are equal only the two zeros are not the same, and both print without a sign.
-/
namespace Lox.Number

/-! ### Decimals by their digits -/

namespace Decimal

/-- The value of a decimal lies in its digits and the place of its point. -/
theorem place_of_digits (d : Decimal) :
    (⟨Nat.ofDigitChars 10 d.digits 0, d.pointAfter - d.digits.length⟩ : Decimal).place = d.place := by
  obtain ⟨zeros, value, behind⟩ := d.value_digits
  have exponent : d.pointAfter - d.digits.length - zeros = d.exponent := by omega
  rw [← place_shift _ zeros, value, exponent]

theorem place_congr {one other : Decimal} (digits : one.digits = other.digits)
    (point : one.pointAfter = other.pointAfter) : one.place = other.place := by
  rw [← place_of_digits one, digits, point, place_of_digits]

/-- A point behind the first digit, if there are more. -/
theorem mantissa_spec {digits : List Char} (number : ∀ c ∈ digits, c.isDigit = true)
    (some : digits ≠ []) :
    ∃ c more, (match digits with
        | first :: second :: rest => first :: '.' :: second :: rest
        | ds => ds) = c :: more ∧ c.isDigit = true ∧ 'e' ∉ c :: more ∧
      (c :: more).filter Char.isDigit = digits := by
  have kept : digits.filter Char.isDigit = digits := List.filter_eq_self.mpr number
  have plain : 'e' ∉ digits := fun member => absurd (number _ member) (by decide)
  match digits with
  | [] => exact absurd rfl some
  | [only] => exact ⟨only, [], rfl, number only (by simp), plain, kept⟩
  | first :: second :: rest =>
    refine ⟨first, _, rfl, number first (by simp), ?_, ?_⟩
    · simpa using plain
    · simpa [List.filter_cons] using kept

/-- A decimal with an exponent is its digits, with a point among them, and behind them the exponent with its
sign. -/
theorem scientific_spec (d : Decimal) :
    ∃ c more size, d.scientific =
        c :: more ++ 'e' :: (if d.pointAfter - 1 < 0 then '-' else '+') :: size ∧
      c.isDigit = true ∧ 'e' ∉ c :: more ∧ (c :: more).filter Char.isDigit = d.digits ∧
      (∀ c ∈ size, c.isDigit = true) ∧
      Nat.ofDigitChars 10 size 0 = (d.pointAfter - 1).natAbs := by
  obtain ⟨c, more, mantissa, digit, plain, digits⟩ := mantissa_spec isDigit_of_mem_digits d.digits_ne_nil
  let size := Nat.toDigits 10 (d.pointAfter - 1).natAbs
  refine ⟨c, more, List.replicate (2 - size.length) '0' ++ size, ?_, digit, plain, digits, ?_, ?_⟩
  · rw [← mantissa]
    exact List.append_assoc _ _ _
  · intro c member
    rcases List.mem_append.mp member with zero | digit
    · exact isDigit_of_mem_zeros c zero
    · exact Nat.isDigit_of_mem_toDigits (by decide) (by decide) digit
  · rw [Nat.ofDigitChars_append, Nat.ofDigitChars_replicate_zero, Nat.mul_zero,
      Nat.ofDigitChars_ten_toDigits]

theorem scientific_inj {one other : Decimal} (same : one.scientific = other.scientific) :
    one.place = other.place := by
  obtain ⟨first, more, size, text, -, plain, digits, number, value⟩ := one.scientific_spec
  obtain ⟨head, tail, back, shape, -, -, figures, -, amount⟩ := other.scientific_spec
  have behind : 'e' ∉ (if one.pointAfter - 1 < 0 then '-' else '+') :: size := by
    intro member
    rcases List.mem_cons.mp member with sign | digit
    · split at sign <;> exact absurd sign (by decide)
    · exact absurd (number _ digit) (by decide)
  -- There is one `e` in each text, so what stands before it and behind it is the same in both.
  rw [text, shape, List.append_cons_inj_of_notMem plain behind] at same
  obtain ⟨front, -, rest⟩ := same
  rw [front] at digits
  obtain ⟨sign, rfl⟩ := List.cons.inj rest
  refine place_congr (digits.symm.trans figures) ?_
  -- The sign and the size make up the exponent.
  have size := value.symm.trans amount
  split at sign <;> split at sign
  · omega
  · exact absurd sign (by decide)
  · exact absurd sign (by decide)
  · omega

theorem mem_positional {d : Decimal} {c : Char} (member : c ∈ d.positional) :
    c.isDigit = true ∨ c = '.' := by
  obtain ⟨whole, fraction, text, halves⟩ := d.positional_spec
  rw [text, List.mem_append, List.mem_cons] at member
  rcases member with before | point | after
  · exact .inl (halves.whole_digits c before)
  · exact .inr point
  · exact .inl (halves.fraction_digits c after)

theorem positional_ne_scientific (one other : Decimal) : one.positional ≠ other.scientific := by
  intro same
  obtain ⟨_, _, _, text, -⟩ := other.scientific_spec
  have member : 'e' ∈ one.positional := by simp [same, text]
  rcases mem_positional member with digit | point
  · exact absurd digit (by decide)
  · exact absurd point (by decide)

/-- Decimals that are shown alike are read back as the same double. -/
theorem shown_inj {one other : Decimal} (same : one.shown = other.shown) : one.place = other.place := by
  unfold shown at same
  simp only at same
  split at same <;> split at same
  · have back := (place_positional one).2
    rw [same, (place_positional other).2] at back
    exact back.symm
  · exact absurd same (positional_ne_scientific _ _)
  · exact absurd same.symm (positional_ne_scientific _ _)
  · exact scientific_inj same

/-- A decimal that is shown begins with a digit, and has a point or an exponent. -/
theorem shown_spec (d : Decimal) :
    (∃ c more, d.shown = c :: more ∧ c.isDigit = true) ∧
      ∃ c ∈ d.shown, c = '.' ∨ c = 'e' := by
  unfold shown
  simp only
  split
  · obtain ⟨whole, fraction, text, -⟩ := d.positional_spec
    exact ⟨(place_positional d).1.begins, '.', by simp [text], .inl rfl⟩
  · obtain ⟨c, more, _, text, digit, -⟩ := d.scientific_spec
    exact ⟨⟨c, _, text, digit⟩, 'e', by simp [text], .inr rfl⟩

end Decimal

/-! ### Numbers without their sign -/

/-- A number is told by its sign and its place. -/
theorem eq_of_place {v w : Float} (sign : isNegative v = isNegative w) (same : place v = place w) :
    v = w := by
  have bits : v.toBits = w.toBits := by
    apply UInt64.toNat_inj.mp
    have high := v.toBits.toNat_lt
    have top := w.toBits.toNat_lt
    simp only [isNegative, decide_eq_decide] at sign
    simp only [place] at same
    omega
  rw [← ofBits_toBits v, bits, ofBits_toBits]

/-- Besides doubles that are the same only the zeros are equal. -/
theorem equal_iff {a b : Float} :
    equal a b = true ↔ (isNaN a = false ∧ isNaN b = false) ∧
      (a = b ∨ isZero a = true ∧ isZero b = true) := by
  have bits : a.toBits = b.toBits ↔ a = b := by
    constructor
    · intro same
      rw [← ofBits_toBits a, same, ofBits_toBits]
    · exact congrArg Float.toBits
  simp [equal, bits]

theorem isWhole_of_isZero {v : Float} (zero : isZero v = true) : isWhole v = true := by
  simp only [isZero, beq_iff_eq] at zero
  simp only [isWhole, zero, units_of_lt (Nat.two_pow_pos 53), Nat.zero_mod]
  rfl

/-- What is printed of a number besides its sign. -/
def bare (v : Float) : List Char :=
  if isWhole v then Nat.toDigits 10 (units (place v) / one)
  else if place v = infinityPlace then ['i', 'n', 'f']
  else (shortestDecimal (place v)).shown

/-- The zeros are printed without a sign. -/
theorem printed_eq {v : Float} (number : isNaN v = false) :
    printed v = if isNegative v && !isZero v then '-' :: bare v else bare v := by
  unfold printed bare
  split
  · rfl
  next fraction =>
    have nonzero : isZero v = false := by
      by_contra zero
      exact fraction (isWhole_of_isZero (by simpa using zero))
    simp [detailed, signed, number, nonzero]

/-- Whole numbers are those that are printed in digits alone. -/
theorem isWhole_iff_bare {v : Float} : isWhole v = true ↔ ∀ c ∈ bare v, c.isDigit = true := by
  unfold bare
  constructor
  · intro whole
    rw [if_pos whole]
    exact fun _ => Nat.isDigit_of_mem_toDigits (by decide) (by decide)
  · intro digits
    by_contra fraction
    rw [if_neg fraction] at digits
    split at digits
    · exact absurd (digits 'i' (by simp)) (by decide)
    · obtain ⟨c, member, mark⟩ := (shortestDecimal (place v)).shown_spec.2
      have digit := digits c member
      rcases mark with rfl | rfl <;> exact absurd digit (by decide)

theorem ne_of_begins {text : List Char} {mark : Char}
    (begins : ∃ c more, text = c :: more ∧ c.isDigit = true) (other : mark.isDigit = false)
    (rest : List Char) : text ≠ mark :: rest := by
  rintro rfl
  obtain ⟨c, more, shape, digit⟩ := begins
  obtain ⟨rfl, -⟩ := List.cons.inj shape
  exact absurd digit (by simp [other])

theorem bare_ne_sign (v : Float) (rest : List Char) : bare v ≠ '-' :: rest := by
  unfold bare
  split
  · exact ne_of_begins (numeral_toDigits _).begins (by decide) rest
  · split
    · simp
    · exact ne_of_begins (shortestDecimal (place v)).shown_spec.1 (by decide) rest

/-- Infinity is not shown as a decimal is. -/
theorem shown_ne_infinity (d : Decimal) : d.shown ≠ ['i', 'n', 'f'] :=
  ne_of_begins d.shown_spec.1 (by decide) _

theorem sign_inj {minus negative : Bool} {text other : List Char}
    (plain : ∀ rest, text ≠ '-' :: rest) (bare : ∀ rest, other ≠ '-' :: rest)
    (same : (if minus then '-' :: text else text) = if negative then '-' :: other else other) :
    minus = negative ∧ text = other := by
  cases minus <;> cases negative
  · exact ⟨rfl, same⟩
  · exact absurd same (plain _)
  · exact absurd same.symm (bare _)
  · exact ⟨rfl, List.tail_eq_of_cons_eq same⟩

theorem units_of_isWhole {v : Float} (whole : isWhole v = true) :
    units (place v) / one * one = units (place v) ∧ nearest (units (place v)) 1 = place v := by
  unfold isWhole at whole
  rw [Bool.and_eq_true, decide_eq_true_eq, beq_iff_eq] at whole
  exact ⟨Nat.div_mul_cancel (Nat.dvd_of_mod_eq_zero whole.2), nearest_units whole.1⟩

/-! ### Numbers by what is printed -/

section

variable {v w : Float} (number : isNaN v = false) (other : isNaN w = false)

include number other

/-- What is printed besides the sign is read back, so it tells the place. -/
theorem bare_inj (same : bare v = bare w) : place v = place w := by
  -- Only whole numbers are printed in digits alone, so the text tells which way it was written.
  have alike : isWhole v = isWhole w := by
    rw [Bool.eq_iff_iff, isWhole_iff_bare, isWhole_iff_bare, same]
  unfold bare at same
  rw [alike] at same
  by_cases whole : isWhole w = true
  · rw [if_pos whole, if_pos whole] at same
    have digits := congrArg (Nat.ofDigitChars 10 · 0) same
    simp only [Nat.ofDigitChars_ten_toDigits] at digits
    obtain ⟨exact_, back⟩ := units_of_isWhole (alike.trans whole)
    obtain ⟨precise, again⟩ := units_of_isWhole whole
    rw [← back, ← exact_, digits, precise, again]
  · rw [if_neg whole, if_neg whole] at same
    have bounded : place v ≤ infinityPlace := by simpa [isNaN] using number
    have limited : place w ≤ infinityPlace := by simpa [isNaN] using other
    split at same <;> split at same
    next infinite others => exact infinite.trans others.symm
    next => exact absurd same.symm (shown_ne_infinity _)
    next => exact absurd same (shown_ne_infinity _)
    next finite others =>
      have back := Decimal.shown_inj same
      rwa [place_shortestDecimal (by omega), place_shortestDecimal (by omega)] at back

/-- Numbers that print alike are equal. -/
theorem equal_of_printed (same : printed v = printed w) : equal v w = true := by
  rw [printed_eq number, printed_eq other] at same
  obtain ⟨sign, text⟩ := sign_inj (bare_ne_sign v) (bare_ne_sign w) same
  have places := bare_inj number other text
  have zeros : isZero v = isZero w := by simp only [isZero, places]
  apply equal_iff.mpr
  refine ⟨⟨number, other⟩, ?_⟩
  -- The sign is told by the text, except for a zero, and zeros are equal whatever their signs.
  cases zero : isZero w with
  | true => exact .inr ⟨zeros.trans zero, rfl⟩
  | false =>
    simp only [zeros, zero, Bool.not_false, Bool.and_true] at sign
    exact .inl (eq_of_place sign places)

end

/-- Equal numbers print alike, the zeros too. -/
theorem printed_of_equal {v w : Float} (same : equal v w = true) : printed v = printed w := by
  obtain ⟨⟨number, other⟩, rfl | ⟨zero, nothing⟩⟩ := equal_iff.mp same
  · rfl
  · have places : place v = place w := by
      simp only [isZero, beq_iff_eq] at zero nothing
      rw [zero, nothing]
    rw [printed_eq number, printed_eq other, zero, nothing]
    simp [bare, isWhole, places]

end Lox.Number
