import RemoteCalc.Proofs.Number.Shortest
import RemoteCalc.Proofs.Wire.Field

/-!
# The layout of numbers

A finite double other than zero is written with the fewest digits that are rounded to it.
The decimal exponent of these digits decides whether they stand positionally or before an
exponent part, and neither form has a zero more than it needs.
-/

namespace RemoteCalc.Number

open Float.Model Float.Model.UnpackedFloat

/-! ## The size of a double -/

theorem toNat_unpackSign (word : Word) :
    (unpackSign word).toNat = word.toNat / 2 ^ 63 := by
  have : word.toNat < 2 ^ 64 := word.isLt
  simp [unpackSign, Nat.shiftRight_eq_div_pow]
  omega

private theorem ofBitVec_unpackSign (word : Word) :
    Sign.ofBitVec (unpackSign word) = if signBit ≤ word.toNat then .negative else .positive := by
  have hlt : word.toNat < 2 ^ 64 := word.isLt
  have hsign := toNat_unpackSign word
  have hbit : signBit = 2 ^ 63 := rfl
  split_ifs with h
  · rw [show unpackSign word = 1#1 from BitVec.eq_of_toNat_eq (by simp; omega)]
    rfl
  · rw [show unpackSign word = 0#1 from BitVec.eq_of_toNat_eq (by simp; omega)]
    rfl

private theorem unpack_eq_finite {word : Word} (hpos : 0 < word.toNat % signBit)
    (hfinite : word.toNat % signBit < infiniteRank) :
    ∃ mantissa exponent hmantissa,
      UnpackedFloat.unpack .binary64 word =
        .finite (if signBit ≤ word.toNat then .negative else .positive) mantissa exponent
          hmantissa ∧
      (mantissa : ℚ) * 2 ^ (exponent + 1074) = steps (word.toNat % signBit) := by
  have hmax := mt (unpackExponent_eq_max_iff word).mp hfinite.not_ge
  have hexponent := toNat_unpackExponent word
  have hmantissa := toNat_unpackMantissa word
  have hunits : ((Format.binary64.exponentBias : Nat) : Int) +
    ((Format.binary64.mantissaBitsWithoutImplicit : Nat) : Int) = 1075 := rfl
  have hlt : word.toNat % 2 ^ 52 < blockSize := Nat.mod_lt _ (by decide)
  have hsignificand := toNat_significand word
  rw [UnpackedFloat.unpack]
  simp only [ofBitVec_unpackSign, hunits, if_neg hmax]
  by_cases hmin : unpackExponent word = 0#_
  · -- A subnormal has no leading one, and its mantissa counts single steps.
    have hfield : word.toNat / 2 ^ 52 % 2 ^ 11 = 0 := by
      rw [← hexponent, hmin]
      rfl
    have hsame : word.toNat % signBit = word.toNat % 2 ^ 52 := by
      simp only [signBit, Nat.pow_eq]
      omega
    have hzero : unpackMantissa word ≠ 0#_ := by
      rw [Ne, ← BitVec.toNat_inj, hmantissa, ← hsame]
      exact hpos.ne'
    rw [if_pos hmin, dif_neg hzero]
    refine ⟨_, _, by rwa [hmantissa, ← hsame], rfl, ?_⟩
    rw [hsame, steps_of_lt hlt, hmin, hmantissa]
    simp
  · have hfield : 0 < word.toNat / 2 ^ 52 % 2 ^ 11 := by
      rw [← hexponent]
      exact Nat.pos_of_ne_zero fun h => hmin (BitVec.eq_of_toNat_eq h)
    obtain ⟨block, hblock⟩ := Nat.exists_eq_add_of_lt hfield
    have hsplit : word.toNat % signBit =
        (block + 1) * blockSize + word.toNat % 2 ^ 52 := by
      simp only [signBit, blockSize, Nat.pow_eq]
      omega
    rw [if_neg hmin]
    refine ⟨_, _, by omega, rfl, ?_⟩
    have hplace : ((unpackExponent word).toNat : Int) - 1075 + 1074 =
        (block : Nat) := by omega
    rw [hsplit, steps_block hlt, hsignificand, hplace, zpow_natCast]
    push_cast
    rfl

/-- The value of a double without its sign, in steps. -/
def magnitude (value : Float) : ℚ :=
  match value.toModel.unpack with
  | .finite _ mantissa exponent _ => mantissa * 2 ^ (exponent + 1074)
  | _ => 0

theorem lt_zero_iff (value : Float) :
    value < 0 ↔ value.toModel.unpack.lt (.zero .positive) = true := by
  change decide (value.toModel < (0 : Float).toModel) = true ↔ _
  rw [decide_eq_true_iff]
  exact Iff.rfl

private theorem isFinite_infiniteRank (negative : Bool) :
    (ofRank negative infiniteRank).isFinite = false := by
  cases negative <;> decide +kernel

private theorem ofRank_zero_beq (negative : Bool) :
    (ofRank negative 0 == 0) = true := by
  cases negative <;> decide +kernel

private theorem sign_and_magnitude {value : Float} {negative : Bool} {rank : Nat}
    (hshape : shape value = .finite negative rank) (hpos : 0 < rank) :
    negative = decide (value < 0) ∧ magnitude value = steps rank := by
  simp only [shape] at hshape
  split_ifs at hshape with hfinite
  cases hshape
  obtain ⟨mantissa, exponent, hmantissa, hunpack, hsteps⟩ :=
    unpack_eq_finite hpos hfinite
  change value.toModel.unpack = _ at hunpack
  refine ⟨?_, by rw [magnitude, hunpack]; exact hsteps⟩
  rw [decide_eq_decide, lt_zero_iff, hunpack]
  by_cases hsign : signBit ≤ value.toBits.toNat
  · simp [hsign, UnpackedFloat.lt, UnpackedFloat.compare]
  · simp [hsign, UnpackedFloat.lt, UnpackedFloat.compare]

private theorem shape_of_isFinite {value : Float} (hfinite : value.isFinite = true)
    (hnonzero : (value == 0) = false) :
    ∃ rank, 0 < rank ∧ rank < infiniteRank ∧ magnitude value = steps rank ∧
      shape value = .finite (decide (value < 0)) rank := by
  have hdescribes := shape_describes value
  cases hshape : shape value with
  | notANumber =>
      rw [hshape] at hdescribes
      rw [show value = notANumber from hdescribes] at hfinite
      exact absurd hfinite (by decide +kernel)
  | infinite negative =>
      rw [hshape] at hdescribes
      rw [← show ofRank negative infiniteRank = value from hdescribes,
        isFinite_infiniteRank] at hfinite
      contradiction
  | finite negative rank =>
      rw [hshape] at hdescribes
      obtain ⟨hrank, hvalue⟩ := hdescribes
      have hpos : 0 < rank := by
        by_contra hzero
        obtain rfl : rank = 0 := by omega
        rw [← hvalue, ofRank_zero_beq] at hnonzero
        contradiction
      obtain ⟨rfl, hmagnitude⟩ := sign_and_magnitude hshape hpos
      exact ⟨rank, hpos, hrank, hmagnitude, rfl⟩

/-! ## The two layouts -/

inductive IsFraction : List Char → Prop
  | missing : IsFraction []
  | places {places : List Char} (hdigits : IsDigits places) (hlast : places.getLast? ≠ some '0') :
      IsFraction ('.' :: places)

/-- One digit before the point, and an exponent part of at least two digits. -/
inductive IsScientific (exponent : Int) : List Char → Prop
  | intro {lead : Char} {fraction shown : List Char} (hlead : lead.isDigit = true)
      (hnonzero : lead ≠ '0') (hfraction : IsFraction fraction)
      (hdigits : IsDigits shown)
      (hvalue : digitValue shown = exponent.natAbs) (hwidth : 2 ≤ shown.length)
      (hleading : shown.head? = some '0' → shown.length = 2) :
      IsScientific exponent
        (lead :: (fraction ++ 'e' :: (if exponent < 0 then '-' else '+') :: shown))

inductive IsPositional : List Char → Prop
  | intro {whole fraction : List Char} (hwhole : IsDigits whole)
      (hcanonical : IsCanonical whole) (hfraction : IsFraction fraction) :
      IsPositional (whole ++ fraction)

def IsLaidOut (exponent : Int) (text : List Char) : Prop :=
  if exponent < -4 ∨ 17 ≤ exponent then IsScientific exponent text else IsPositional text

private theorem mantissa_digits {n : Nat} (hmod : n % 10 ≠ 0) :
    ∃ lead fraction, mantissa (digits n) = lead :: fraction ∧ lead.isDigit = true ∧
      lead ≠ '0' ∧ IsFraction fraction := by
  have hdigits := isDigit_digits (n := n)
  have hhead := head?_digits (n := n) (by omega)
  have hlast := getLast?_digits hmod
  match hshown : digits n with
  | [] => simp [digits] at hshown
  | [lead] =>
      rw [hshown] at hdigits hhead
      exact ⟨lead, [], rfl, hdigits lead (by simp), by simpa using hhead, .missing⟩
  | lead :: next :: places =>
      rw [hshown] at hdigits hhead hlast
      obtain ⟨hlead, hplaces⟩ := List.forall_mem_cons.mp hdigits
      rw [List.getLast?_cons_cons] at hlast
      exact ⟨lead, '.' :: next :: places, rfl, hlead, by simpa using hhead,
        .places ⟨by simp, hplaces⟩ hlast⟩

private theorem isScientific_layout {decimal : Decimal}
    (hmod : decimal.coefficient % 10 ≠ 0) (exponent : Int) :
    IsScientific exponent (mantissa (digits decimal.coefficient) ++ exponentPart exponent) := by
  obtain ⟨lead, fraction, hmantissa, hlead, hnonzero, hfraction⟩ := mantissa_digits hmod
  rw [hmantissa, exponentPart]
  have hshown := digitCount_pos exponent.natAbs
  change 0 < (digits exponent.natAbs).length at hshown
  refine .intro hlead hnonzero hfraction (isDigits_padded _ _)
    (digitValue_zeros_digits _ _) ?_ ?_
  · simp
    omega
  · intro hzero
    by_contra hlong
    -- Only an exponent below ten is filled up with a zero, to a width of two.
    have hunpadded : 2 - (digits exponent.natAbs).length = 0 := by
      simp at hlong
      omega
    rw [hunpadded, List.replicate_zero, List.nil_append] at hzero hlong
    have hpositive : 0 < exponent.natAbs := by
      by_contra hnone
      rw [Nat.eq_zero_of_not_pos hnone] at hunpadded
      contradiction
    exact head?_digits hpositive hzero

private theorem isPositional_point {padded : List Char} {places : Nat}
    (hdigits : ∀ c ∈ padded, c.isDigit = true) (hplaces : 0 < places)
    (hlength : places < padded.length) (hlast : padded.getLast? ≠ some '0')
    (hleading : padded.head? = some '0' → padded.length = places + 1) :
    IsPositional (padded.take (padded.length - places) ++
      '.' :: padded.drop (padded.length - places)) := by
  have hnonempty : padded ≠ [] := by
    rintro rfl
    simp at hlength
  have hwhole : padded.length - places ≠ 0 := by omega
  refine .intro ⟨?_, fun c hc => hdigits c (List.mem_of_mem_take hc)⟩ ?_
    (.places ⟨?_, fun c hc => hdigits c (List.mem_of_mem_drop hc)⟩ ?_)
  · simp [hnonempty, hwhole]
  · intro hzero
    rw [List.head?_take, if_neg hwhole] at hzero
    obtain ⟨rest, rfl⟩ := List.head?_eq_some_iff.mp hzero
    rw [hleading hzero, Nat.add_sub_cancel_left]
    rfl
  · simp
    omega
  · rwa [List.getLast?_drop, if_neg (by omega)]

private theorem isPositional_layout {decimal : Decimal}
    (hmod : decimal.coefficient % 10 ≠ 0) :
    IsPositional (positional decimal) := by
  have hdigits := isDigit_digits (n := decimal.coefficient)
  have hhead := head?_digits (n := decimal.coefficient) (by omega)
  have hlast := getLast?_digits hmod
  have hne := digits_ne_nil decimal.coefficient
  simp only [positional]
  split_ifs with hwhole
  · have hall : IsDigits
        (digits decimal.coefficient ++ List.replicate decimal.exponent.toNat '0') :=
      ⟨by simp [hne], List.forall_mem_append.mpr ⟨hdigits, isDigit_zeros _⟩⟩
    have hleading : (digits decimal.coefficient ++
        List.replicate decimal.exponent.toNat '0').head? ≠ some '0' := by
      simpa [List.head?_append, hne] using hhead
    have hpositional := IsPositional.intro hall (fun hzero => absurd hzero hleading) .missing
    rwa [List.append_nil] at hpositional
  · refine isPositional_point (isDigits_padded _ _).2 (by omega) ?_ ?_ ?_
    · simp
      omega
    · simpa [List.getLast?_append, hne] using hlast
    · intro hzero
      simp only [List.length_append, List.length_replicate]
      by_contra hlength
      have hunpadded : (-decimal.exponent).toNat + 1 - (digits decimal.coefficient).length = 0 := by
        omega
      rw [hunpadded] at hzero
      exact hhead hzero

private theorem isLaidOut_layout {decimal : Decimal}
    (hmod : decimal.coefficient % 10 ≠ 0) :
    IsLaidOut decimal.leadingExponent (layout wireRange decimal) := by
  have hrange : wireRange.lowest = -4 ∧ wireRange.above = 17 := ⟨rfl, rfl⟩
  rw [IsLaidOut, layout]
  split_ifs with hscientific hpositional hpositional
  · omega
  · exact isScientific_layout hmod _
  · exact isPositional_layout hmod
  · omega

/-! ## Written numbers -/

/-- The text of a rank: the fewest digits that are rounded to it, laid out by their exponent. -/
structure IsShortest (rank : Nat) (text : List Char) (decimal : Decimal)
    (exponent : Int) :
    Prop where
  spelled : IsDecimal text decimal
  rounds : Rounds decimal.size rank
  minimal : ∀ other : Decimal, Rounds other.size rank →
    decimal.significantDigits ≤ other.significantDigits
  reached : Decimal.gridStep exponent ≤ decimal.size
  below : decimal.size < Decimal.gridStep (exponent + 1)
  laidOut : IsLaidOut exponent text

private theorem isShortest_layout {rank : Nat} (hpos : 0 < rank)
    (hfinite : rank < infiniteRank) :
    ∃ decimal exponent,
      IsShortest rank (layout wireRange (Decimal.ofRank rank)) decimal exponent := by
  obtain ⟨read, hread, hsize⟩ := decimal?_layout wireRange (Decimal.ofRank rank)
  have hself := Decimal.rounds_ofRank hfinite
  have hcoefficient := Decimal.coefficient_pos hpos hself
  refine ⟨read, (Decimal.ofRank rank).leadingExponent, ?_⟩
  constructor
  · exact Literal.decimal?_eq_some_iff.mp hread
  · rwa [hsize]
  · exact fun other hother => Decimal.significantDigits_minimal hpos hfinite hsize hother
  · rw [hsize]
    exact Decimal.gridStep_leadingExponent_le hcoefficient
  · rw [hsize]
    exact Decimal.lt_gridStep_leadingExponent _
  · exact isLaidOut_layout (Decimal.coefficient_ofRank_mod hpos hfinite)

private theorem head?_signed {negative : Bool} {text : List Char} {decimal : Decimal}
    (h : IsDecimal text decimal) :
    (signed negative text).head? = some '-' ↔ negative = true := by
  have hplain : text.head? ≠ some '-' := by
    intro hhead
    obtain ⟨rest, rfl⟩ := List.head?_eq_some_iff.mp hhead
    have hread := Literal.decimal?_eq_some_iff.mpr h
    rw [decimal?_sign (by decide) (by decide)] at hread
    contradiction
  cases negative <;> simp [signed, hplain]

/--
A finite double other than zero is written with a sign exactly if it is negative, and
otherwise with as few digits as are rounded to it, in at most 24 characters.
-/
theorem write_shortest {value : Float} (hfinite : value.isFinite = true)
    (hnonzero : (value == 0) = false) :
    ∃ text rank decimal exponent,
      write value = signed (decide (value < 0)) text ∧
      ((write value).head? = some '-' ↔ value < 0) ∧
      IsShortest rank text decimal exponent ∧
      rank < infiniteRank ∧ magnitude value = steps rank ∧
      ofRank (decide (value < 0)) rank = value ∧
      (write value).length ≤ 24 ∧
      Wire.IsValue Wire.numberWidth (write value) := by
  obtain ⟨rank, hpos, hrank, hmagnitude, hshape⟩ := shape_of_isFinite hfinite hnonzero
  have hdescribes := shape_describes value
  rw [hshape] at hdescribes
  obtain ⟨decimal, exponent, hshortest⟩ := isShortest_layout hpos hrank
  have hwrite : write value =
      signed (decide (value < 0)) (layout wireRange (Decimal.ofRank rank)) := by
    simp only [write, hshape]
  have hhead := @head?_signed (decide (value < 0)) _ _ hshortest.spelled
  rw [← hwrite, decide_eq_true_iff] at hhead
  have hlength : (write value).length ≤ 24 := by
    obtain ⟨-, hlo, hhi⟩ := Decimal.ofRank_bounds hrank
    have hdigits : digitCount (Decimal.ofRank rank).coefficient ≤ 17 + 0 :=
      (digitCount_le_iff (by decide)).mpr (Decimal.coefficient_ofRank_lt hpos hrank)
    have := length_layout_le hdigits (by decide) hlo hhi
    rw [hwrite, signed]
    split_ifs
    · simp only [List.length_cons]
      omega
    · omega
  exact ⟨_, rank, decimal, exponent, hwrite, hhead, hshortest, hrank,
    hmagnitude, hdescribes.2, hlength, Wire.isValue_write value⟩

theorem write_shortest_subnormal :
    (ofRank true 1).isFinite = true ∧ (ofRank true 1 == 0) = false ∧
    ∃ text rank decimal exponent,
      write (ofRank true 1) = signed (decide (ofRank true 1 < 0)) text ∧
      ((write (ofRank true 1)).head? = some '-' ↔ ofRank true 1 < 0) ∧
      IsShortest rank text decimal exponent ∧
      rank < infiniteRank ∧ magnitude (ofRank true 1) = steps rank ∧
      ofRank (decide (ofRank true 1 < 0)) rank = ofRank true 1 ∧
      (write (ofRank true 1)).length ≤ 24 ∧
      Wire.IsValue Wire.numberWidth (write (ofRank true 1)) := by
  have hfinite : (ofRank true 1).isFinite = true := by decide +kernel
  have hnonzero : (ofRank true 1 == 0) = false := by decide +kernel
  exact ⟨hfinite, hnonzero, write_shortest hfinite hnonzero⟩

example : write (ofRank true 1) = "-5e-324".toList := by decide +kernel

end RemoteCalc.Number
