import RemoteCalc.Proofs.Number.Digits

/-!
# The shortest decimals

The decimal that is written for a double has the fewest significant digits of all that
round to it.  A rank takes up an interval of sizes: between a shorter decimal and the one
found there would be a power of ten, on a grid that was searched before in vain.
-/

namespace RemoteCalc.Number

namespace Decimal

variable {rank : Nat}

/-! ## Grids that hold a decimal of a rank -/

theorem rounds_ofRank (hfinite : rank < infiniteRank) :
    Rounds (ofRank rank).size rank := by
  have hself := (ofRank rank).rounds_inSteps
  have hread := rank_of_rounds hself
  rw [rank_ofRank hfinite] at hread
  generalize nearestRank _ _ = nearest at hself hread
  obtain rfl : rank = nearest := by omega
  exact hself

private theorem rank_of_finite {decimal : Decimal} (hfinite : rank < infiniteRank)
    (h : Rounds decimal.size rank) : decimal.rank = rank := by
  rw [rank_of_rounds h, Nat.min_eq_left hfinite.le]

/-- If any point of a grid belongs to a rank, so does a neighbour of the rank's own size. -/
theorem onGrid?_isSome_of_rounds {decimal : Decimal} (hfinite : rank < infiniteRank)
    (h : Rounds decimal.size rank) : (onGrid? rank decimal.exponent).isSome := by
  have hstep := gridStep_pos decimal.exponent
  have hfloor := floorPoint_le (steps rank) decimal.exponent
  have hceil := lt_floorPoint (steps rank) decimal.exponent
  have hself := rounds_steps rank
  rcases le_or_gt decimal.size (steps rank) with hle | hlt
  · have hpoint : decimal.coefficient ≤ floorPoint (steps rank) decimal.exponent := by
      rw [floorPoint_eq]
      exact Nat.le_floor ((le_div_iff₀ hstep).mpr hle)
    have hsize : decimal.size ≤
        size ⟨floorPoint (steps rank) decimal.exponent, decimal.exponent⟩ :=
      mul_le_mul_of_nonneg_right (Nat.cast_le.mpr hpoint) hstep.le
    exact onGrid?_isSome (.inl rfl)
      (rank_of_finite hfinite (h.convex hself hsize hfloor))
  · have hpoint : floorPoint (steps rank) decimal.exponent + 1 ≤
        decimal.coefficient := by
      have hless := lt_of_mul_lt_mul_right (lt_of_le_of_lt hfloor hlt) hstep.le
      exact_mod_cast hless
    have hsize : size ⟨floorPoint (steps rank) decimal.exponent + 1, decimal.exponent⟩ ≤
        decimal.size :=
      mul_le_mul_of_nonneg_right (Nat.cast_le.mpr hpoint) hstep.le
    refine onGrid?_isSome (.inr rfl) (rank_of_finite hfinite (hself.convex h ?_ hsize))
    rw [size]
    push_cast
    exact hceil.le

private theorem floorPoint_eq_zero {size : Nat} {exponent : Int}
    (h : size < gridStep exponent) :
    floorPoint size exponent = 0 := by
  rw [floorPoint_eq, Nat.floor_eq_zero]
  exact (div_lt_one (gridStep_pos exponent)).mpr h

private theorem size_shift (coefficient zeros : Nat) (exponent : Int) :
    size ⟨coefficient * 10 ^ zeros, exponent⟩ =
      size ⟨coefficient, exponent + zeros⟩ := by
  simp only [size, gridStep_add]
  push_cast
  ring

private theorem eq_of_size_eq {coefficient other : Nat} {exponent : Int}
    (h : size ⟨coefficient, exponent⟩ = size ⟨other, exponent⟩) :
    coefficient = other := by
  exact_mod_cast mul_right_cancel₀ (gridStep_pos exponent).ne' h

private theorem size_one (exponent : Int) : size ⟨1, exponent⟩ = gridStep exponent := by
  rw [size, Nat.cast_one, one_mul]

theorem coefficient_pos {decimal : Decimal} (hpos : 0 < rank)
    (h : Rounds decimal.size rank) :
    0 < decimal.coefficient := by
  by_contra hzero
  have hsize : decimal.size = 0 := by
    rw [size, Nat.eq_zero_of_not_pos hzero, Nat.cast_zero, zero_mul]
  rw [hsize] at h
  have := h.unique (rounds_zero le_rfl (by norm_num))
  omega

theorem gridStep_leadingExponent_le {decimal : Decimal}
    (hpos : 0 < decimal.coefficient) :
    gridStep decimal.leadingExponent ≤ decimal.size := by
  have hcount := digitCount_pos decimal.coefficient
  have hexponent : decimal.leadingExponent =
      decimal.exponent + (digitCount decimal.coefficient - 1 : Nat) := by
    rw [leadingExponent]
    omega
  have hle : (10 ^ (digitCount decimal.coefficient - 1) : ℚ) ≤ decimal.coefficient := by
    exact_mod_cast pow_digitCount_le hpos
  rw [hexponent, gridStep_add, size]
  exact mul_le_mul_of_nonneg_right hle (gridStep_pos _).le

theorem lt_gridStep_leadingExponent (decimal : Decimal) :
    decimal.size < gridStep (decimal.leadingExponent + 1) := by
  have hexponent : decimal.leadingExponent + 1 =
      decimal.exponent + (digitCount decimal.coefficient : Nat) := by
    rw [leadingExponent]
    omega
  have hlt : (decimal.coefficient : ℚ) < 10 ^ digitCount decimal.coefficient := by
    exact_mod_cast lt_pow_digitCount decimal.coefficient
  rw [hexponent, gridStep_add, size]
  exact mul_lt_mul_of_pos_right hlt (gridStep_pos _)

/-! ## The decimal that the search finds -/

section

variable (hpos : 0 < rank) (hfinite : rank < infiniteRank)
include hpos hfinite

/-- With more than one digit it lies on a finer grid than the search began with, and every
coarser grid was left without a point of the rank. -/
theorem exponent_le_of_rounds {decimal : Decimal}
    (hmany : 1 < digitCount (ofRank rank).coefficient) (h : Rounds decimal.size rank) :
    decimal.exponent ≤ (ofRank rank).exponent := by
  obtain ⟨offset, -, hfound, hearlier⟩ := ofRank_found hpos hfinite
  obtain ⟨-, hexponent, hpoint⟩ := onGrid?_eq_some hfound
  have hlt := lt_gridStep_exponentOfSteps (steps_strictMono hpos)
  generalize exponentOfSteps (steps rank) + 1 = first at *
  -- The first grid has no points near the rank but zero and one, of one digit each.
  have hoffset : 0 < offset := by
    by_contra hzero
    obtain rfl : offset = 0 := by omega
    rw [Nat.cast_zero, sub_zero, floorPoint_eq_zero hlt] at hpoint
    have hdigit := (digitCount_le_iff (n := (ofRank rank).coefficient) Nat.one_pos).mpr (by omega)
    omega
  have hempty (other : Decimal) (earlier : Nat) (hlt : earlier < offset)
      (hgrid : other.exponent = first - earlier) : ¬ Rounds other.size rank := by
    intro hother
    have hsome := onGrid?_isSome_of_rounds hfinite hother
    simp [hgrid, hearlier earlier hlt] at hsome
  by_contra hcoarser
  rcases le_or_gt decimal.exponent first with hwithin | habove
  · exact hempty decimal (first - decimal.exponent).toNat (by omega) (by omega) h
  · -- On a grid that was not searched, the power that the search began with is nearer.
    refine hempty ⟨1, first⟩ 0 hoffset (by simp) ((rounds_steps rank).convex h ?_ ?_)
    · rw [size_one]
      exact hlt.le
    · have hone : (1 : ℚ) ≤ decimal.coefficient := by
        exact_mod_cast coefficient_pos hpos h
      calc size ⟨1, first⟩
          = gridStep first := size_one first
        _ ≤ gridStep decimal.exponent := gridStep_strictMono.monotone habove.le
        _ ≤ decimal.size := le_mul_of_one_le_left (gridStep_pos _).le hone

/-- A shorter decimal would leave room for a power of ten between itself and the one found. -/
theorem digitCount_le_of_rounds {decimal : Decimal} (h : Rounds decimal.size rank) :
    digitCount (ofRank rank).coefficient ≤ digitCount decimal.coefficient := by
  by_contra hshorter
  have hcount := digitCount_pos decimal.coefficient
  have hmany : 1 < digitCount (ofRank rank).coefficient := by omega
  have hexponent := exponent_le_of_rounds hpos hfinite hmany h
  have hself := rounds_ofRank hfinite
  have hpower : Rounds (size ⟨1, (ofRank rank).leadingExponent⟩) rank := by
    rw [size_one]
    refine h.convex hself ?_ (gridStep_leadingExponent_le (coefficient_pos hpos hself))
    refine (lt_gridStep_leadingExponent decimal).le.trans (gridStep_strictMono.monotone ?_)
    rw [leadingExponent, leadingExponent]
    omega
  have := exponent_le_of_rounds hpos hfinite hmany hpower
  simp only [leadingExponent] at this
  omega

theorem coefficient_ofRank_mod : (ofRank rank).coefficient % 10 ≠ 0 := by
  intro hzero
  have hself := rounds_ofRank hfinite
  have hcoefficient := coefficient_pos hpos hself
  generalize hdecimal : ofRank rank = decimal at *
  obtain ⟨coefficient, exponent⟩ := decimal
  obtain ⟨shorter, hshorter⟩ := Nat.dvd_of_mod_eq_zero hzero
  obtain rfl : coefficient = shorter * 10 ^ 1 := by simp only at hshorter; omega
  have hminimal := digitCount_le_of_rounds hpos hfinite (size_shift shorter 1 exponent ▸ hself)
  simp only [hdecimal, digitCount_mul_pow (n := shorter) (by simp at hcoefficient; omega)]
    at hminimal
  omega

theorem coefficient_ofRank_lt : (ofRank rank).coefficient < 10 ^ 17 := by
  have hmod := coefficient_ofRank_mod hpos hfinite
  have hle := (ofRank_bounds hfinite).1
  have : (ofRank rank).coefficient ≠ 10 ^ 17 := fun h => hmod (by rw [h]; rfl)
  omega

end

/-! ## Significant digits -/

/-- The digits of a decimal but for the zeros that they end with. -/
def significantDigits (decimal : Decimal) : Nat :=
  ((digits decimal.coefficient).rdropWhile (· == '0')).length

private theorem exists_significant {decimal : Decimal}
    (hpos : 0 < decimal.coefficient) :
    ∃ other : Decimal, other.size = decimal.size ∧ other.coefficient % 10 ≠ 0 ∧
      digitCount other.coefficient = decimal.significantDigits := by
  obtain ⟨coefficient, exponent⟩ := decimal
  obtain ⟨zeros, rest, hrest, rfl⟩ :=
    Nat.exists_eq_pow_mul_and_not_dvd (n := coefficient) (by simp at hpos; omega) 10 (by decide)
  have hmod : rest % 10 ≠ 0 := fun h => hrest (Nat.dvd_of_mod_eq_zero h)
  have hkept : (digits rest).rdropWhile (· == '0') = digits rest :=
    List.rdropWhile_eq_self_iff.mpr fun _ => by simpa using getLast_digits_ne_zero hmod
  rw [mul_comm]
  refine ⟨⟨rest, exponent + zeros⟩, (size_shift rest zeros exponent).symm, hmod, ?_⟩
  have hdropped : (digits rest ++ List.replicate zeros '0').rdropWhile (· == '0') =
      (digits rest).rdropWhile (· == '0') := by
    rw [List.rdropWhile, List.reverse_append, List.reverse_replicate,
      List.dropWhile_append_of_pos (by simp), List.rdropWhile]
  rw [significantDigits, digits_mul_pow (by omega), hdropped, hkept]
  rfl

private theorem coefficient_le_of_size_eq {decimal other : Decimal}
    (hmod : decimal.coefficient % 10 ≠ 0)
    (h : decimal.size = other.size) : decimal.coefficient ≤ other.coefficient := by
  obtain ⟨coefficient, exponent⟩ := decimal
  obtain ⟨coefficient', exponent'⟩ := other
  rcases le_total exponent exponent' with hle | hge
  · obtain ⟨zeros, rfl⟩ := Int.le.dest hle
    rw [← size_shift] at h
    obtain rfl := eq_of_size_eq h
    cases zeros with
    | zero => simp
    | succ zeros => simp [Nat.pow_succ, ← Nat.mul_assoc] at hmod
  · obtain ⟨zeros, rfl⟩ := Int.le.dest hge
    rw [← size_shift] at h
    obtain rfl := eq_of_size_eq h
    exact Nat.le_mul_of_pos_right _ (Nat.pow_pos (by decide))

private theorem significantDigits_le {decimal other : Decimal}
    (h : other.size = decimal.size) (hpos : 0 < decimal.coefficient) :
    decimal.significantDigits ≤ digitCount other.coefficient := by
  obtain ⟨shortest, hsize, hmod, hcount⟩ := exists_significant hpos
  have hle := coefficient_le_of_size_eq hmod (hsize.trans h.symm)
  rw [← hcount]
  exact (digitCount_le_iff (digitCount_pos _)).mpr (hle.trans_lt (lt_pow_digitCount _))

variable {rank : Nat} (hpos : 0 < rank) (hfinite : rank < infiniteRank)
include hpos hfinite

/-- No decimal that is rounded to a rank has fewer significant digits than the one found. -/
theorem significantDigits_minimal {read other : Decimal}
    (hread : read.size = (ofRank rank).size) (hother : Rounds other.size rank) :
    read.significantDigits ≤ other.significantDigits := by
  have hself := rounds_ofRank hfinite
  obtain ⟨shorter, hsize, -, hcount⟩ := exists_significant (coefficient_pos hpos hother)
  calc read.significantDigits
      ≤ digitCount (ofRank rank).coefficient :=
        significantDigits_le hread.symm (coefficient_pos hpos (hread ▸ hself))
    _ ≤ digitCount shorter.coefficient := digitCount_le_of_rounds hpos hfinite (hsize ▸ hother)
    _ = other.significantDigits := hcount

end Decimal

end RemoteCalc.Number
