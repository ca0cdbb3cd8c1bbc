import Lisplet.CommandLine.Run
import Mathlib

/-!
# Exit statuses wrap below the limit of 64 bits

The exit status for a finite result is a signed byte: the whole part of the result, taken
modulo 256. What a result stands for is said by the model of `Float`, and the fields that
`Binary64.ofBits` reads are those of that model.

The whole part is held within 64 bits before it is wrapped. Below this range the two agree all
the same, because doubles so far from zero are multiples of 256. Above it they do not: every
result from two to the 63rd on has the status of the largest number of 64 bits, which is -1,
while the result itself wraps to 0.
-/

namespace Lisplet

namespace Dyadic

/-- The value as a rational number. -/
def toRat (value : Dyadic) : ℚ :=
  value.significand * 2 ^ value.exponent

theorem toRat_nonneg (value : Dyadic) : 0 ≤ value.toRat :=
  mul_nonneg (Nat.cast_nonneg _) (zpow_nonneg zero_le_two _)

/-- A dyadic number is its numerator over its denominator. -/
theorem toRat_eq_div (value : Dyadic) : value.toRat = value.numerator / value.denominator := by
  obtain ⟨significand, exponent⟩ := value
  rcases exponent.eq_nat_or_neg with ⟨power, rfl | rfl⟩
  · simp [toRat, numerator, denominator]
  · simp [toRat, numerator, denominator, div_eq_mul_inv]

/-- The whole part is that of the rational number. -/
theorem floor_toRat (value : Dyadic) : ⌊value.toRat⌋ = value.floor := by
  rw [toRat_eq_div, Rat.floor_natCast_div_natCast]
  rfl

/-- A value of 53 bits or fewer that needs more than 63 bits to be written out ends in zeros. -/
theorem dvd_floor_of_large {value : Dyadic} (bits : value.significand < 2 ^ 53)
    (large : 2 ^ 63 ≤ value.floor) : 256 ∣ value.floor := by
  have exponent : 8 ≤ value.exponent.toNat := by
    by_contra small
    have power : 2 ^ value.exponent.toNat ≤ 2 ^ 7 :=
      Nat.pow_le_pow_right (by decide) (by omega)
    have bounded : value.floor ≤ value.significand * 2 ^ 7 :=
      (Nat.div_le_self _ _).trans (Nat.mul_le_mul_left _ power)
    omega
  have whole : value.denominator = 1 := by
    rw [denominator, Int.toNat_of_nonpos (by omega), Nat.pow_eq, pow_zero]
  rw [floor, whole, Nat.div_one]
  exact Dvd.dvd.mul_left (pow_dvd_pow 2 exponent) _

end Dyadic

namespace Binary64

/-- The number that a double stands for, if it is finite. -/
def toRat? : Binary64 → Option ℚ
  | nan => none
  | infinite _ => none
  | finite negative magnitude => some (if negative then -magnitude.toRat else magnitude.toRat)

/-- A significand has 53 bits or fewer. -/
theorem significand_lt_of_ofBits {bits : Nat} {negative : Bool} {magnitude : Dyadic}
    (read : ofBits bits = .finite negative magnitude) : magnitude.significand < 2 ^ 53 := by
  have fraction : bits % Nat.pow 2 fractionBits < 2 ^ 52 := Nat.mod_lt _ (by decide)
  have implicit : Nat.pow 2 fractionBits = 2 ^ 52 := rfl
  unfold ofBits at read
  dsimp only at read
  split at read
  · split at read <;> cases read
  · split at read
    · cases read
      dsimp only
      omega
    · cases read
      dsimp only
      omega

end Binary64

section Model

open Float.Model Float.Model.UnpackedFloat

/-- The number that an unpacked double stands for, if it is finite. -/
def unpackedValue? : UnpackedFloat → Option ℚ
  | .notANumber => none
  | .infinity _ => none
  | .zero _ => some 0
  | .finite sign mantissa exponent _ => some (sign.apply mantissa * 2 ^ exponent)

/-- The number that a double stands for, if it is finite. -/
def exactValue? (value : Float) : Option ℚ :=
  unpackedValue? value.toModel.unpack

variable (bits : BitVec Format.binary64.numBits)

/-- The fraction stands in the low bits. -/
theorem toNat_unpackMantissa :
    (unpackMantissa bits).toNat = bits.toNat % Nat.pow 2 Binary64.fractionBits := by
  simp [unpackMantissa, Binary64.fractionBits]

/-- The exponent stands in the eleven bits above the fraction. -/
theorem toNat_unpackExponent :
    (unpackExponent bits).toNat =
      bits.toNat / Nat.pow 2 Binary64.fractionBits % Nat.pow 2 11 := by
  simp [unpackExponent, Binary64.fractionBits, Nat.shiftRight_eq_div_pow]

/-- The sign is the highest bit. -/
theorem toNat_unpackSign : (unpackSign bits).toNat = bits.toNat / Nat.pow 2 63 % 2 := by
  simp [unpackSign, Nat.shiftRight_eq_div_pow]

/-- The bit of a significand that is not stored stands in front of the others. -/
theorem toNat_append_unpackMantissa :
    (1#1 ++ unpackMantissa bits).toNat =
      Nat.pow 2 Binary64.fractionBits + bits.toNat % Nat.pow 2 Binary64.fractionBits := by
  rw [BitVec.toNat_append, ← Nat.shiftLeft_add_eq_or_of_lt (unpackMantissa bits).isLt,
    toNat_unpackMantissa]
  rfl

/-- The sign that is unpacked is that of the highest bit. -/
theorem unpackedSign_eq :
    Sign.ofBitVec (unpackSign bits) =
      if bits.toNat / Nat.pow 2 63 % 2 == 1 then .negative else .positive := by
  have positive : unpackSign bits = 0#1 ↔ bits.toNat / Nat.pow 2 63 % 2 = 0 := by
    rw [← BitVec.toNat_inj, toNat_unpackSign]
    rfl
  rcases Nat.mod_two_eq_zero_or_one (bits.toNat / Nat.pow 2 63) with even | odd
  · rw [Sign.ofBitVec, if_pos (positive.2 even), even]
    rfl
  · have nonzero : unpackSign bits ≠ 0#1 := by
      rw [ne_eq, positive, odd]
      exact one_ne_zero
    rw [Sign.ofBitVec, if_neg nonzero, odd]
    rfl

/-- The exponent of a significand that is read as a whole number. -/
theorem unpackedExponent_eq :
    ((unpackExponent bits).toNat : ℤ) - (Format.binary64.exponentBias + (52 : Nat)) =
      (bits.toNat / Nat.pow 2 Binary64.fractionBits % Nat.pow 2 11 : Nat) - 1075 := by
  rw [toNat_unpackExponent]
  rfl

theorem apply_zero (sign : Sign) : sign.apply 0 = 0 := by
  cases sign <;> rfl

/-- A sign and a magnitude stand for the same number in both forms. -/
theorem toRat?_finite (negative : Bool) (magnitude : Dyadic) :
    (Binary64.finite negative magnitude).toRat? =
      some (((if negative then Sign.negative else .positive).apply magnitude.significand : ℚ) *
        2 ^ magnitude.exponent) := by
  cases negative <;> simp [Binary64.toRat?, Dyadic.toRat, Sign.apply]

/-- The fields of a double are read as its model unpacks them. -/
theorem toRat?_ofBits :
    (Binary64.ofBits bits.toNat).toRat? = unpackedValue? (unpack Format.binary64 bits) := by
  have special_iff : unpackExponent bits = -1#_ ↔
      bits.toNat / Nat.pow 2 Binary64.fractionBits % Nat.pow 2 11 = Nat.pow 2 11 - 1 := by
    rw [← BitVec.toNat_inj, toNat_unpackExponent]
    rfl
  have small_iff : unpackExponent bits = 0#_ ↔
      bits.toNat / Nat.pow 2 Binary64.fractionBits % Nat.pow 2 11 = 0 := by
    rw [← BitVec.toNat_inj, toNat_unpackExponent]
    rfl
  rw [Binary64.ofBits, UnpackedFloat.unpack]
  dsimp only
  by_cases special : unpackExponent bits = -1#_
  · rw [if_pos special, if_pos (special_iff.1 special)]
    split <;> split <;> rfl
  rw [if_neg special, if_neg (mt special_iff.2 special), unpackedExponent_eq, unpackedSign_eq]
  by_cases small : unpackExponent bits = 0#_
  · rw [if_pos small, if_pos (small_iff.1 small), toRat?_finite]
    by_cases noMantissa : unpackMantissa bits = 0#_
    · -- A zero is unpacked without a mantissa, and read with a significand of zero.
      rw [dif_pos noMantissa, unpackedValue?, ← toNat_unpackMantissa, noMantissa]
      simp [apply_zero]
    · rw [dif_neg noMantissa, unpackedValue?, toNat_unpackMantissa, small_iff.1 small]
      rfl
  · have exponent : Binary64.leastExponent +
        (bits.toNat / Nat.pow 2 Binary64.fractionBits % Nat.pow 2 11 - 1 : Nat) =
        (bits.toNat / Nat.pow 2 Binary64.fractionBits % Nat.pow 2 11 : Nat) - 1075 := by
      have positive := mt small_iff.2 small
      rw [Binary64.leastExponent]
      omega
    rw [if_neg small, if_neg (mt small_iff.2 small), toRat?_finite, exponent, unpackedValue?,
      toNat_append_unpackMantissa]

/-- What a double is read as stands for the number that the double stands for. -/
theorem toRat?_ofFloat (value : Float) : (Binary64.ofFloat value).toRat? = exactValue? value :=
  toRat?_ofBits value.toModel.toBits.toBitVec

end Model

/-- A number without its fraction. -/
def wholePart (value : ℚ) : ℤ :=
  if 0 ≤ value then ⌊value⌋ else ⌈value⌉

/-- The whole part of a number that is not negative is rounded down. -/
theorem wholePart_of_nonneg {value : ℚ} (nonneg : 0 ≤ value) : wholePart value = ⌊value⌋ :=
  if_pos nonneg

/-- A number and its negation have the same whole part but for the sign. -/
theorem wholePart_neg (value : ℚ) : wholePart (-value) = -wholePart value := by
  rcases lt_trichotomy value 0 with negative | rfl | positive
  · rw [wholePart, wholePart, if_pos (by simpa using negative.le), if_neg (by simpa using negative),
      Int.floor_neg]
  · simp [wholePart]
  · rw [wholePart, wholePart, if_neg (by simpa using positive), if_pos positive.le, Int.ceil_neg]

/-- Whether a number is the signed byte that the whole part of a value wraps to. -/
structure IsWrapped (value : ℚ) (status : ℤ) : Prop where
  lower : -128 ≤ status
  upper : status ≤ 127
  congruent : status ≡ wholePart value [ZMOD 256]

/-- There is one signed byte that a value wraps to. -/
theorem isWrapped_iff {value : ℚ} {status : ℤ} :
    IsWrapped value status ↔ status = (wholePart value).bmod 256 := by
  rw [eq_comm, Int.bmod_eq_iff (by decide)]
  constructor
  · rintro ⟨lower, upper, congruent⟩
    exact ⟨lower, Int.lt_add_one_of_le upper, congruent.symm.dvd⟩
  · rintro ⟨lower, upper, congruent⟩
    exact ⟨lower, Int.le_of_lt_add_one upper, (Int.modEq_of_dvd congruent).symm⟩

section Finite

variable {value : Float} {number : ℚ}

/-- A finite double is read as a sign and a magnitude, and these have its whole part. -/
theorem read_of_exactValue? (finite : exactValue? value = some number) :
    ∃ negative magnitude, Binary64.ofFloat value = .finite negative magnitude ∧
      magnitude.significand < 2 ^ 53 ∧
      wholePart number = if negative then -(magnitude.floor : ℤ) else magnitude.floor := by
  rw [← toRat?_ofFloat] at finite
  cases read : Binary64.ofFloat value with
  | nan =>
    rw [read] at finite
    cases finite
  | infinite negative =>
    rw [read] at finite
    cases finite
  | finite negative magnitude =>
    rw [read] at finite
    cases finite
    refine ⟨negative, magnitude, rfl, Binary64.significand_lt_of_ofBits read, ?_⟩
    have floor : wholePart magnitude.toRat = magnitude.floor := by
      rw [wholePart_of_nonneg magnitude.toRat_nonneg, magnitude.floor_toRat]
    cases negative with
    | true => exact (wholePart_neg _).trans (congrArg Neg.neg floor)
    | false => exact floor

/-- The whole part is held within 64 bits before it wraps. -/
theorem exitStatus_of_finite (finite : exactValue? value = some number) :
    exitStatus value = (max (-2 ^ 63) (min (2 ^ 63 - 1) (wholePart number))).bmod 256 := by
  obtain ⟨negative, magnitude, read, -, whole⟩ := read_of_exactValue? finite
  rw [exitStatus, read, whole]
  rfl

/-- A finite double whose whole part does not fit into 64 bits is a multiple of 256. -/
theorem dvd_wholePart_of_large (finite : exactValue? value = some number)
    (large : 2 ^ 63 ≤ (wholePart number).natAbs) : 256 ∣ wholePart number := by
  obtain ⟨negative, magnitude, -, bits, whole⟩ := read_of_exactValue? finite
  have size : (wholePart number).natAbs = magnitude.floor := by
    rw [whole]
    cases negative <;> simp
  rw [size] at large
  rw [← Int.dvd_natAbs, size]
  exact Int.natCast_dvd_natCast.2 (magnitude.dvd_floor_of_large bits large)

/-- A number stays below a positive limit exactly if its whole part does. -/
theorem wholePart_lt_iff (number : ℚ) {limit : ℤ} (positive : 0 < limit) :
    wholePart number < limit ↔ number < limit := by
  rw [wholePart]
  split
  next => exact Int.floor_lt
  next negative =>
    have below : number < 0 := lt_of_not_ge negative
    have whole : ⌈number⌉ ≤ 0 := Int.ceil_le.2 (by exact_mod_cast below.le)
    have above : (0 : ℚ) < limit := by exact_mod_cast positive
    exact iff_of_true (whole.trans_lt positive) (below.trans above)

/-- Within 64 bits and below, a finite double has the status that its whole part wraps to. -/
theorem exitStatus_of_lt_limit (finite : exactValue? value = some number)
    (below : wholePart number < 2 ^ 63) : exitStatus value = (wholePart number).bmod 256 := by
  rw [exitStatus_of_finite finite]
  by_cases fits : -2 ^ 63 ≤ wholePart number
  · rw [min_eq_right (by omega), max_eq_right fits]
  · have multiple := dvd_wholePart_of_large finite (by omega)
    rw [min_eq_right (by omega), max_eq_left (by omega), Int.bmod_eq_zero_of_dvd multiple]
    decide

/-- From two to the 63rd on the status is that of the largest number of 64 bits. -/
theorem exitStatus_of_limit_le (finite : exactValue? value = some number)
    (above : 2 ^ 63 ≤ wholePart number) : exitStatus value = -1 := by
  rw [exitStatus_of_finite finite, min_eq_left (by omega)]
  decide

/-- Below two to the 63rd the exit status of a finite result is the one signed byte that its
whole part wraps to, however far below zero the result lies. From two to the 63rd on it is -1,
while the result wraps to 0. -/
theorem exitStatus_wraps_below_limit (finite : exactValue? value = some number) :
    (number < 2 ^ 63 → ∀ status, IsWrapped number status ↔ status = exitStatus value) ∧
      (2 ^ 63 ≤ number →
        exitStatus value = -1 ∧ ∀ status, IsWrapped number status ↔ status = 0) := by
  have limit : wholePart number < 2 ^ 63 ↔ number < 2 ^ 63 := by
    exact_mod_cast wholePart_lt_iff number (show (0 : ℤ) < 2 ^ 63 by decide)
  constructor
  · intro below status
    rw [isWrapped_iff, exitStatus_of_lt_limit finite (limit.2 below)]
  · intro above
    have whole : 2 ^ 63 ≤ wholePart number := by
      rwa [← not_lt, limit, not_lt]
    have multiple := dvd_wholePart_of_large finite (by omega)
    refine ⟨exitStatus_of_limit_le finite whole, fun status => ?_⟩
    rw [isWrapped_iff, Int.bmod_eq_zero_of_dvd multiple]

end Finite

/-- A fraction, which is cut off towards zero, and a number far below what 64 bits hold. -/
theorem exitStatus_wraps_below_limit_at_negative_results :
    (exactValue? (-129.5) = some (-259 / 2) ∧ exitStatus (-129.5) = 127 ∧
      ∀ status, IsWrapped (-259 / 2) status ↔ status = 127) ∧
    (exactValue? (-3e21) = some (-3 * 10 ^ 21) ∧ exitStatus (-3e21) = 0 ∧
      ∀ status, IsWrapped (-3 * 10 ^ 21) status ↔ status = 0) := by
  have fraction : exactValue? (-129.5) = some (-259 / 2) := by decide +kernel
  have fractionStatus : exitStatus (-129.5) = 127 := by decide +kernel
  have large : exactValue? (-3e21) = some (-3 * 10 ^ 21) := by decide +kernel
  have largeStatus : exitStatus (-3e21) = 0 := by decide +kernel
  refine ⟨⟨fraction, fractionStatus, ?_⟩, large, largeStatus, ?_⟩
  · rw [← fractionStatus]
    exact (exitStatus_wraps_below_limit fraction).1 (by norm_num)
  · rw [← largeStatus]
    exact (exitStatus_wraps_below_limit large).1 (by norm_num)

/-- The largest number that can be written is rounded to two to the 63rd. Its exit status is not
the signed byte that it wraps to. -/
theorem exitStatus_of_largest_number :
    exactValue? (Float.ofInt Int64.maxValue.toInt) = some (2 ^ 63) ∧
      exitStatus (Float.ofInt Int64.maxValue.toInt) = -1 ∧
      IsWrapped (2 ^ 63) 0 ∧ ¬ IsWrapped (2 ^ 63) (-1) := by
  have wraps : ∀ status, IsWrapped (2 ^ 63) status ↔ status = 0 := by
    intro status
    rw [isWrapped_iff]
    have whole : (wholePart (2 ^ 63)).bmod 256 = 0 := by decide +kernel
    rw [whole]
  refine ⟨by decide +kernel, by decide +kernel, (wraps 0).2 rfl, ?_⟩
  rw [wraps]
  decide

end Lisplet
