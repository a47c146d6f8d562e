import Mathlib.Algebra.Group.Nat.Defs
import Mathlib.Data.Nat.Basic

/-! Single and double precision numbers by their bit patterns. A double that single precision
represents exactly is rounded to the pattern that it came from.
-/

namespace FloatPattern

/-- The widths of the fields behind the sign bit. -/
structure Format where
  mantissaBits : Nat
  exponentBits : Nat

def single : Format := { mantissaBits := 23, exponentBits := 8 }

def double : Format := { mantissaBits := 52, exponentBits := 11 }

namespace Format

def pack (format : Format) (sign exponent mantissa : Nat) : Nat :=
  (sign * 2 ^ format.exponentBits + exponent) * 2 ^ format.mantissaBits + mantissa

def sign (format : Format) (pattern : Nat) : Nat :=
  pattern / 2 ^ format.mantissaBits / 2 ^ format.exponentBits

def exponent (format : Format) (pattern : Nat) : Nat :=
  pattern / 2 ^ format.mantissaBits % 2 ^ format.exponentBits

def mantissa (format : Format) (pattern : Nat) : Nat :=
  pattern % 2 ^ format.mantissaBits

variable (format : Format)

/-- A pattern is packed from its own fields. -/
theorem pack_fields (pattern : Nat)
    : format.pack (format.sign pattern) (format.exponent pattern) (format.mantissa pattern)
      = pattern := by
  rw [pack, sign, exponent, mantissa, Nat.div_add_mod', Nat.div_add_mod']

variable {sign exponent mantissa : Nat}

/-- Behind the mantissa stand exponent and sign. -/
theorem pack_div (inMantissa : mantissa < 2 ^ format.mantissaBits)
    : format.pack sign exponent mantissa / 2 ^ format.mantissaBits
      = sign * 2 ^ format.exponentBits + exponent := by
  rw [pack, Nat.mul_comm, Nat.mul_add_div (Nat.two_pow_pos _), Nat.div_eq_of_lt inMantissa,
    Nat.add_zero]

/-- The sign is read back. -/
theorem sign_pack (inExponent : exponent < 2 ^ format.exponentBits)
    (inMantissa : mantissa < 2 ^ format.mantissaBits)
    : format.sign (format.pack sign exponent mantissa) = sign := by
  rw [Format.sign, pack_div format inMantissa, Nat.mul_comm, Nat.mul_add_div (Nat.two_pow_pos _),
    Nat.div_eq_of_lt inExponent, Nat.add_zero]

/-- So is the exponent. -/
theorem exponent_pack (inExponent : exponent < 2 ^ format.exponentBits)
    (inMantissa : mantissa < 2 ^ format.mantissaBits)
    : format.exponent (format.pack sign exponent mantissa) = exponent := by
  rw [Format.exponent, pack_div format inMantissa, Nat.mul_comm, Nat.mul_add_mod,
    Nat.mod_eq_of_lt inExponent]

/-- So is the mantissa. -/
theorem mantissa_pack (inMantissa : mantissa < 2 ^ format.mantissaBits)
    : format.mantissa (format.pack sign exponent mantissa) = mantissa := by
  rw [Format.mantissa, pack, Nat.mul_comm, Nat.mul_add_mod, Nat.mod_eq_of_lt inMantissa]

/-- Fields that fit make a pattern that fits. -/
theorem pack_lt (inSign : sign < 2) (inExponent : exponent < 2 ^ format.exponentBits)
    (inMantissa : mantissa < 2 ^ format.mantissaBits)
    : format.pack sign exponent mantissa
      < 2 ^ (1 + format.exponentBits + format.mantissaBits) := by
  have upper : (sign * 2 ^ format.exponentBits + exponent) + 1 ≤ 2 ^ (1 + format.exponentBits) := by
    have := Nat.mul_le_mul_right (2 ^ format.exponentBits) (Nat.le_of_lt_succ inSign)
    rw [Nat.pow_add]
    omega
  calc
    format.pack sign exponent mantissa
        < ((sign * 2 ^ format.exponentBits + exponent) + 1) * 2 ^ format.mantissaBits := by
          rw [pack, Nat.add_mul (_ + _) 1]
          omega
    _ ≤ 2 ^ (1 + format.exponentBits) * 2 ^ format.mantissaBits := Nat.mul_le_mul_right _ upper
    _ = 2 ^ (1 + format.exponentBits + format.mantissaBits) := (Nat.pow_add ..).symm

end Format

/-- `x / 2 ^ shift` rounded to the nearest number, a tie to the even one. -/
def roundShift (x shift : Nat) : Nat :=
  let quotient := x / 2 ^ shift
  let rest := x % 2 ^ shift
  if 2 ^ shift < 2 * rest ∨ (2 * rest = 2 ^ shift ∧ quotient % 2 = 1) then quotient + 1
  else quotient

/-- Nothing is rounded where nothing is cut off. -/
theorem roundShift_mul (x shift : Nat) : roundShift (x * 2 ^ shift) shift = x := by
  have positive := Nat.two_pow_pos shift
  simp only [roundShift, Nat.mul_mod_left, Nat.mul_div_cancel x positive]
  rw [if_neg (by omega)]

/-- The double `significand * 2 ^ scale`, where that is exact and not subnormal. -/
def scaled (sign significand : Nat) (scale : Int) : Nat :=
  let top := significand.log2
  double.pack sign (top + scale + 1023).toNat ((significand - 2 ^ top) * 2 ^ (52 - top))

/-- The pattern of the single that a double is rounded to. Every NaN becomes the quiet one with
its sign; where all NaNs are one value, that is the only NaN there is.
-/
def narrow (pattern : Nat) : Nat :=
  let sign := double.sign pattern
  let exponent := double.exponent pattern
  let mantissa := double.mantissa pattern
  if exponent = 2047 then single.pack sign 255 (if mantissa = 0 then 0 else 2 ^ 22)
  else
    let significand := if exponent = 0 then mantissa else 2 ^ 52 + mantissa
    let exponent := max 1 exponent
    let magnitude :=
      (exponent - 897) * 2 ^ 23 + roundShift significand (29 + (897 - exponent))
    single.pack sign 0 (min (255 * 2 ^ 23) magnitude)

/-- A significand aligned to the width of a double's. -/
theorem aligned_significand {significand : Nat} (positive : significand ≠ 0)
    (small : significand < 2 ^ 24)
    : 2 ^ 52 + (significand - 2 ^ significand.log2) * 2 ^ (52 - significand.log2)
        = significand * 2 ^ (52 - significand.log2)
      ∧ (significand - 2 ^ significand.log2) * 2 ^ (52 - significand.log2) < 2 ^ 52 := by
  have low : 2 ^ significand.log2 ≤ significand := Nat.log2_self_le positive
  have high : significand < 2 ^ (significand.log2 + 1) := Nat.lt_log2_self
  have top : significand.log2 < 24 := (Nat.log2_lt positive).mpr small
  have whole : 2 ^ significand.log2 * 2 ^ (52 - significand.log2) = 2 ^ 52 := by
    rw [← Nat.pow_add, Nat.add_sub_cancel' (by omega)]
  have below := Nat.mul_le_mul_right (2 ^ (52 - significand.log2)) low
  have above : (significand - 2 ^ significand.log2) * 2 ^ (52 - significand.log2)
      < 2 ^ significand.log2 * 2 ^ (52 - significand.log2) := by
    apply Nat.mul_lt_mul_of_pos_right _ (Nat.two_pow_pos _)
    rw [Nat.pow_succ] at high
    omega
  rw [whole] at above
  refine ⟨?_, above⟩
  rw [Nat.sub_mul, whole]
  omega

/-- The pattern of a scaled number, for the exponents that single precision has. -/
theorem scaled_lt {sign significand exponent : Nat} (inSign : sign < 2) (positive : significand ≠ 0)
    (small : significand < 2 ^ 24) (high : exponent ≤ 254)
    : scaled sign significand (exponent - 150) < 2 ^ 64 := by
  have top : significand.log2 < 24 := (Nat.log2_lt positive).mpr small
  have inExponent : ((significand.log2 : Int) + (exponent - 150) + 1023).toNat < 2 ^ 11 := by omega
  exact double.pack_lt inSign inExponent (aligned_significand positive small).2

/-- What single precision represents exactly is rounded to itself. -/
theorem narrow_scaled {sign significand exponent : Nat} (positive : significand ≠ 0)
    (small : significand < 2 ^ 24) (low : 1 ≤ exponent) (high : exponent ≤ 254)
    (normal : exponent = 1 ∨ 2 ^ 23 ≤ significand)
    : narrow (scaled sign significand (exponent - 150))
      = single.pack sign 0 ((exponent - 1) * 2 ^ 23 + significand) := by
  obtain ⟨aligned, inMantissa⟩ := aligned_significand positive small
  have top : significand.log2 < 24 := (Nat.log2_lt positive).mpr small
  have place
      : ((significand.log2 : Int) + (exponent - 150) + 1023).toNat
        = significand.log2 + exponent + 873 := by
    omega
  have inExponent : significand.log2 + exponent + 873 < 2 ^ 11 := by omega
  have shift : 29 + (897 - (significand.log2 + exponent + 873)) = 52 - significand.log2
      ∧ significand.log2 + exponent + 873 - 897 = exponent - 1 := by
    rcases normal with first | full
    · omega
    · have : 23 ≤ significand.log2 := (Nat.le_log2 positive).mpr full
      omega
  simp only [narrow, scaled, place]
  rw [double.sign_pack inExponent inMantissa, double.exponent_pack inExponent inMantissa,
    double.mantissa_pack inMantissa, if_neg (by omega), if_neg (by omega),
    Nat.max_eq_right (by omega), shift.1, shift.2, aligned, roundShift_mul,
    Nat.min_eq_right (by omega)]

end FloatPattern
