import Capnp.Library.FloatPattern
import Capnp.Runtime.Message
import Mathlib.Data.Nat.Bitwise

/-! Floats as bit patterns, and the conversions between the two precisions that the accessors of
single precision fields make.
-/

namespace Capnp

open FloatPattern

/-- A `Float` by its bit pattern. Lean's own type has a single NaN, whose pattern is the one of
`specialFloats`; the other NaN patterns are those that the code moves around as bits.
-/
structure Float where
  ofBits ::
  toBits : UInt64
deriving DecidableEq

/-- `significand * 2 ^ scale`, negated at the sign bit. -/
def Float.scaleB (signBit : Bool) (significand : Nat) (scale : Int) : Float :=
  .ofBits (UInt64.ofNat (scaled signBit.toNat significand scale))

/-- Every division, sum and scaling of the source is exact here. -/
def float32FromBits (bits : UInt32) : Float :=
  let signBit := bits &&& 0x80000000 != 0
  let exp := bits >>> 23 &&& 0xff
  let mant := bits &&& 0x7fffff
  if exp = 0 then
    if mant = 0 then if signBit then .ofBits 0x8000000000000000 else .ofBits 0
    -- `mant / 2 ^ 23 * 2 ^ (-126)`
    else .scaleB signBit mant.toNat (-149)
  else if exp = 255 then
    if mant = 0 then
      if signBit then .ofBits 0xfff0000000000000 else .ofBits 0x7ff0000000000000
    else .ofBits 0x7ff8000000000000
  -- `(1 + mant / 2 ^ 23) * 2 ^ (exp - 127)`
  else .scaleB signBit (2 ^ 23 + mant.toNat) (exp.toNat - 150)

/-- `Float32.toBits (Float.toFloat32 v)` -/
def float32Bits (v : Float) : UInt32 :=
  UInt32.ofNat (narrow v.toBits.toNat)

/-- The source reads the sign of the format. -/
theorem signBit_eq (bits : UInt32)
    : (bits &&& 0x80000000 != 0).toNat = single.sign bits.toNat := by
  have range := bits.toNat_lt
  have masked : (bits &&& 0x80000000 != 0) = bits.toNat.testBit 31 := by
    rw [Bool.eq_iff_iff, bne_iff_ne, ne_eq, ← UInt32.toNat_inj, UInt32.toNat_and]
    show ¬ bits.toNat &&& 2 ^ 31 = 0 ↔ _
    rw [Nat.and_two_pow]
    cases bits.toNat.testBit 31 <;> simp
  rw [masked, Nat.testBit_eq_decide_div_mod_eq, Format.sign, Nat.div_div_eq_div_mul, ← Nat.pow_add]
  show (decide (bits.toNat / 2 ^ 31 % 2 = 1)).toNat = bits.toNat / 2 ^ 31
  have bit : bits.toNat / 2 ^ 31 < 2 := by omega
  by_cases set : bits.toNat / 2 ^ 31 % 2 = 1 <;> simp only [set, decide_true, decide_false,
    Bool.toNat_true, Bool.toNat_false] <;> omega

/-- It reads the exponent of the format. -/
theorem exp_eq (bits : UInt32) : (bits >>> 23 &&& 0xff).toNat = single.exponent bits.toNat := by
  rw [UInt32.toNat_and, UInt32.toNat_shiftRight, Nat.shiftRight_eq_div_pow]
  exact Nat.and_two_pow_sub_one_eq_mod _ 8

/-- It reads the mantissa of the format. -/
theorem mant_eq (bits : UInt32) : (bits &&& 0x7fffff).toNat = single.mantissa bits.toNat := by
  rw [UInt32.toNat_and]
  exact Nat.and_two_pow_sub_one_eq_mod _ 23

/-- A scaled number of single precision is rounded to its pattern. -/
theorem float32Bits_scaleB {bits : UInt32} {signBit : Bool} {significand exponent : Nat}
    (positive : significand ≠ 0) (small : significand < 2 ^ 24) (low : 1 ≤ exponent)
    (high : exponent ≤ 254) (normal : exponent = 1 ∨ 2 ^ 23 ≤ significand)
    (fields
      : bits.toNat = single.pack signBit.toNat 0 ((exponent - 1) * 2 ^ 23 + significand))
    : float32Bits (.scaleB signBit significand (exponent - 150)) = bits := by
  have inSign : signBit.toNat < 2 := signBit.toNat_lt
  have range : scaled signBit.toNat significand (exponent - 150) < UInt64.size :=
    scaled_lt inSign positive small high
  rw [float32Bits, Float.scaleB, UInt64.toNat_ofNat_of_lt' range,
    narrow_scaled positive small low high normal, ← fields, UInt32.ofNat_toNat]

/-- The two zeros, the two infinities and the one NaN that is read. -/
def specialFloats : List Float :=
  [.ofBits 0, .ofBits 0x8000000000000000, .ofBits 0x7ff0000000000000, .ofBits 0xfff0000000000000,
    .ofBits 0x7ff8000000000000]

/-- Any other number that is read has the pattern that it was read from. -/
theorem float32FromBits_mem_or (bits : UInt32)
    : float32FromBits bits ∈ specialFloats ∨ float32Bits (float32FromBits bits) = bits := by
  have whole := single.pack_fields bits.toNat
  have exponentRange : single.exponent bits.toNat < 2 ^ 8 := Nat.mod_lt _ (by decide)
  have mantissaRange : single.mantissa bits.toNat < 2 ^ 23 := Nat.mod_lt _ (by decide)
  have widths : single.exponentBits = 8 ∧ single.mantissaBits = 23 := ⟨rfl, rfl⟩
  fun_cases float32FromBits bits with
  | case1 => exact .inl (by decide)
  | case2 => exact .inl (by decide)
  | case3 signBit exp mant zero nonzero =>
      right
      have sign : signBit.toNat = single.sign bits.toNat := signBit_eq bits
      have exponent : exp.toNat = single.exponent bits.toNat := exp_eq bits
      have mantissa : mant.toNat = single.mantissa bits.toNat := mant_eq bits
      have none : exp.toNat = 0 := congrArg UInt32.toNat zero
      have positive : mant.toNat ≠ 0 := fun none => nonzero (UInt32.toNat_inj.mp none)
      have scale : (-149 : Int) = (1 : Nat) - 150 := rfl
      rw [scale]
      apply float32Bits_scaleB positive (by omega) (Nat.le_refl 1) (by omega) (.inl rfl)
      simp only [Format.pack, widths.1, widths.2, ← sign, ← exponent, ← mantissa] at whole ⊢
      omega
  | case4 => exact .inl (by decide)
  | case5 => exact .inl (by decide)
  | case6 => exact .inl (by decide)
  | case7 signBit exp mant nonzero finite =>
      right
      have sign : signBit.toNat = single.sign bits.toNat := signBit_eq bits
      have exponent : exp.toNat = single.exponent bits.toNat := exp_eq bits
      have mantissa : mant.toNat = single.mantissa bits.toNat := mant_eq bits
      have low : exp.toNat ≠ 0 := fun none => nonzero (UInt32.toNat_inj.mp none)
      have high : exp.toNat ≠ 255 := fun all => finite (UInt32.toNat_inj.mp all)
      refine float32Bits_scaleB (by omega) (by omega) (by omega) (by omega) (.inr (by omega)) ?_
      simp only [Format.pack, widths.1, widths.2, ← sign, ← exponent, ← mantissa] at whole ⊢
      omega

/-- A number that is read comes back from the pattern that it is rounded to. -/
theorem float32FromBits_float32Bits (bits : UInt32)
    : float32FromBits (float32Bits (float32FromBits bits)) = float32FromBits bits := by
  rcases float32FromBits_mem_or bits with special | same
  · have fixed : ∀ v ∈ specialFloats, float32FromBits (float32Bits v) = v := by decide +kernel
    exact fixed _ special
  · rw [same]

end Capnp
