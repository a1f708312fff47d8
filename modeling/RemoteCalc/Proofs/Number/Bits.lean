import RemoteCalc.Number.Rank
import Mathlib

/-!
# Doubles and their bits

A double is packed into a word of sign, exponent and mantissa.  Unpacking the word
gives the double back, so that a double is what its bits say, and its bits order
the finite doubles of one sign by size.
-/

namespace RemoteCalc.Number

open Float.Model Float.Model.UnpackedFloat

abbrev Word := BitVec Format.binary64.numBits

private theorem toBitVec_ofBitVec (bit : BitVec 1) :
    (Sign.ofBitVec bit).toBitVec = bit := by
  revert bit
  decide

private theorem packComponents_of_fields {word : Word} {exponent : BitVec 11}
    {mantissa : BitVec 52} (hexponent : unpackExponent word = exponent)
    (hmantissa : unpackMantissa word = mantissa) :
    packComponents .binary64 (Sign.ofBitVec (unpackSign word)) exponent mantissa = word := by
  subst hexponent hmantissa
  rw [packComponents, toBitVec_ofBitVec]
  ext i hi
  simp only [unpackSign, unpackExponent, unpackMantissa, BitVec.extractLsb]
  grind

theorem toNat_unpackExponent (word : Word) :
    (unpackExponent word).toNat = word.toNat / 2 ^ 52 % 2 ^ 11 := by
  simp [unpackExponent, Nat.shiftRight_eq_div_pow]

theorem toNat_unpackMantissa (word : Word) :
    (unpackMantissa word).toNat = word.toNat % 2 ^ 52 := by
  simp [unpackMantissa]

/-- The significand of a normal double: its stored bits behind a leading one. -/
theorem toNat_significand (word : Word) :
    (1#1 ++ unpackMantissa word).toNat = 2 ^ 52 + word.toNat % 2 ^ 52 := by
  rw [BitVec.toNat_append, ← Nat.shiftLeft_add_eq_or_of_lt (unpackMantissa word).isLt,
    toNat_unpackMantissa, Nat.shiftLeft_eq]
  rfl

private theorem pack_unpack {word : Word} (valid : Format.binary64.Valid word) :
    UnpackedFloat.pack .binary64 (UnpackedFloat.unpack .binary64 word) = word := by
  have hmantissa := toNat_unpackMantissa word
  have hexponent := toNat_unpackExponent word
  have hbias : ((Format.binary64.exponentBias : Nat) : Int) = 1023 := rfl
  have hwidth : Format.binary64.mantissaBits = 53 := rfl
  rw [UnpackedFloat.unpack]
  split_ifs with hmax hzero hmin hzero
  · exact packComponents_of_fields hmax hzero
  · exact (valid.eq_packedNaN hmax hzero).symm
  · exact packComponents_of_fields hmin hzero
  · have hne : (unpackMantissa word).toNat ≠ 0 := by
      simpa [BitVec.toNat_eq] using hzero
    have hlog : (unpackMantissa word).toNat.log2 < 52 :=
      (Nat.log2_lt hne).mpr (unpackMantissa word).isLt
    rw [UnpackedFloat.pack]
    simp only [hmin, hbias]
    rw [if_neg (by decide), if_neg (by omega)]
    exact packComponents_of_fields hmin (by simp)
  · have hsignificand := toNat_significand word
    have hlog : (1#1 ++ unpackMantissa word).toNat.log2 = 52 :=
      (Nat.log2_eq_iff (by omega)).mpr ⟨by omega, by omega⟩
    have hne : (unpackExponent word).toNat ≠ 2047 := by
      intro h
      apply hmax
      apply BitVec.eq_of_toNat_eq
      simpa using h
    have hbiased : ((unpackExponent word).toNat -
        (Format.binary64.exponentBias + Format.binary64.mantissaBitsWithoutImplicit) +
        Format.binary64.exponentBias + Format.binary64.mantissaBitsWithoutImplicit : Int).toNat =
          (unpackExponent word).toNat := by omega
    rw [UnpackedFloat.pack]
    simp only [hbiased]
    rw [if_neg (by simp only [Format.binary64]; omega), if_pos (by omega)]
    apply packComponents_of_fields
    · rw [BitVec.ofNat_toNat, BitVec.setWidth_eq]
    · apply BitVec.eq_of_toNat_eq
      rw [BitVec.toNat_ofNat, hsignificand, hmantissa]
      exact ((Nat.add_mod_left ..).trans (Nat.mod_mod ..)).symm

@[simp] theorem ofBits_toBits (value : Float) : Float.ofBits value.toBits = value := by
  obtain ⟨bits, valid⟩ := value
  have hbits : Float.Model.ofBits bits = ⟨bits, valid⟩ := by
    simp only [Float.Model.ofBits, Float.Model.pack, pack_unpack valid]
  exact congrArg Float.ofModel hbits

/-! ## Shapes -/

theorem unpackExponent_eq_max_iff (word : Word) :
    unpackExponent word = -1#_ ↔ infiniteRank ≤ word.toNat % signBit := by
  rw [← BitVec.toNat_inj, toNat_unpackExponent]
  simp [infiniteRank, blockSize, signBit]
  omega

theorem unpackMantissa_eq_zero_iff (word : Word) :
    unpackMantissa word = 0#_ ↔ word.toNat % blockSize = 0 := by
  rw [← BitVec.toNat_inj, toNat_unpackMantissa]
  simp [blockSize]

/-- Only one double is no number, as all its payloads are kept as one. -/
theorem eq_notANumber {value : Float}
    (h : infiniteRank < value.toBits.toNat % signBit) :
    value = notANumber := by
  have hbits : value.toBits.toBitVec = packedNaN .binary64 := by
    apply value.toModel.valid.eq_packedNaN
    · exact (unpackExponent_eq_max_iff _).mpr h.le
    · rw [Ne, unpackMantissa_eq_zero_iff]
      change infiniteRank < value.toModel.toBits.toBitVec.toNat % signBit at h
      simp only [infiniteRank, blockSize, signBit, Nat.pow_eq] at h ⊢
      omega
  have : value.toBits = 0x7ff8000000000000 := UInt64.toBitVec_inj.mp hbits
  rw [notANumber, ← this, ofBits_toBits]

private theorem toBits_toNat_split (value : Float) :
    value.toBits.toNat = (if signBit ≤ value.toBits.toNat then signBit else 0) +
      value.toBits.toNat % signBit := by
  have := value.toBits.toNat_lt
  split_ifs <;> simp only [signBit, Nat.pow_eq] at * <;> omega

private theorem ofRank_of_toBits {value : Float} {negative : Bool} {rank : Nat}
    (hle : rank ≤ infiniteRank)
    (h : value.toBits.toNat = (if negative then signBit else 0) + rank) :
    ofRank negative rank = value := by
  rw [ofRank, Nat.min_eq_left hle, ← h, UInt64.ofNat_toNat, ofBits_toBits]

def Shape.Describes : Shape → Float → Prop
  | .notANumber, value => value = Number.notANumber
  | .infinite negative, value => ofRank negative infiniteRank = value
  | .finite negative rank, value => rank < infiniteRank ∧ ofRank negative rank = value

theorem shape_describes (value : Float) : (shape value).Describes value := by
  have hsplit := toBits_toNat_split value
  simp only [shape]
  split_ifs with hfinite hinfinite
  · exact ⟨hfinite, ofRank_of_toBits hfinite.le (by simpa using hsplit)⟩
  · rw [hinfinite] at hsplit
    exact ofRank_of_toBits le_rfl (by simpa using hsplit)
  · exact eq_notANumber (by omega)

private theorem beq_zero_iff_isZero (unpacked : UnpackedFloat) :
    unpacked.beq (.zero .positive) = true ↔ ∃ sign, unpacked = .zero sign := by
  rcases unpacked with (_ | _) | _ | _ | ⟨_ | _⟩ <;>
    simp [UnpackedFloat.beq, UnpackedFloat.compare]

theorem unpack_eq_zero_iff (word : Word) :
    (∃ sign, UnpackedFloat.unpack .binary64 word = .zero sign) ↔
      unpackExponent word = 0#_ ∧ unpackMantissa word = 0#_ := by
  have hne : -BitVec.ofNat Format.binary64.exponentBits 1 ≠ 0#_ := by decide
  rw [UnpackedFloat.unpack]
  split_ifs with hmax hzero hmin hzero <;> simp_all

theorem beq_zero_iff (value : Float) :
    (value == 0) = true ↔ value.toBits = 0 ∨ value.toBits = 0x8000000000000000 := by
  have hunpack : (0 : Float).toModel.unpack = .zero .positive := rfl
  have hbeq : (value == 0) = value.toModel.unpack.beq (0 : Float).toModel.unpack := rfl
  have hlt := value.toBits.toNat_lt
  rw [hbeq, hunpack, beq_zero_iff_isZero, Float.Model.unpack, unpack_eq_zero_iff,
    unpackMantissa_eq_zero_iff, ← BitVec.toNat_inj, toNat_unpackExponent]
  change value.toBits.toNat / 2 ^ 52 % 2 ^ 11 = 0 ∧
    value.toBits.toNat % blockSize = 0 ↔ _
  simp only [← UInt64.toNat_inj, blockSize, Nat.pow_eq, UInt64.toNat_ofNat]
  omega

end RemoteCalc.Number
