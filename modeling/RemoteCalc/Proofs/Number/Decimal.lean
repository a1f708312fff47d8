import RemoteCalc.Number.Decimal
import RemoteCalc.Proofs.Number.Rank
import Mathlib.Algebra.Order.Floor.Semifield
import Mathlib.Tactic

/-!
# The shortest decimal of a rank

A decimal belongs to the rank that its size is rounded to.  The search for a short
decimal goes from coarse grids to fine ones, and the first decimal that it finds
belongs to the rank it was made from.
-/

namespace RemoteCalc.Number

/-! ## Digits -/

theorem digitCount_le_iff {n count : Nat} (h : 0 < count) :
    digitCount n ≤ count ↔ n < 10 ^ count :=
  Nat.length_toDigits_le_iff (by decide) h

theorem digitCount_pos (n : Nat) : 0 < digitCount n := Nat.length_toDigits_pos

theorem lt_pow_digitCount (n : Nat) : n < 10 ^ digitCount n :=
  (digitCount_le_iff (digitCount_pos n)).mp le_rfl

theorem pow_digitCount_le {n : Nat} (h : 0 < n) : 10 ^ (digitCount n - 1) ≤ n := by
  by_contra hlt
  rcases Nat.eq_zero_or_pos (digitCount n - 1) with hzero | hpos
  · rw [hzero] at hlt
    omega
  · have := (digitCount_le_iff hpos).mpr (Nat.lt_of_not_le hlt)
    omega

namespace Decimal

/-! ## Grids -/

theorem stepsPerUnit_pos : 0 < stepsPerUnit := by decide +kernel

def gridStep (exponent : Int) : ℚ := 10 ^ exponent * stepsPerUnit

theorem gridStep_pos (exponent : Int) : 0 < gridStep exponent := by
  have : (0 : ℚ) < stepsPerUnit := Nat.cast_pos.mpr stepsPerUnit_pos
  rw [gridStep]
  positivity

theorem gridStep_add (exponent : Int) (finer : Nat) :
    gridStep (exponent + finer) = 10 ^ finer * gridStep exponent := by
  rw [gridStep, gridStep, zpow_add₀ (by norm_num), zpow_natCast]
  ring

theorem gridStep_strictMono : StrictMono gridStep := fun exponent other h =>
  mul_lt_mul_of_pos_right (zpow_lt_zpow_right₀ (by norm_num) h)
    (Nat.cast_pos.mpr stepsPerUnit_pos)

private theorem steps_infiniteRank_le : (steps infiniteRank : ℚ) ≤ gridStep 400 := by
  have hbound : (steps infiniteRank : ℚ) ≤ ((10 ^ 400 * stepsPerUnit : Nat) : ℚ) :=
    Nat.cast_le.mpr (by decide +kernel)
  rw [Nat.cast_mul, Nat.cast_pow] at hbound
  exact hbound

private theorem gridStep_lt_half : 2 * gridStep (-400) < 1 := by
  have hbound : ((2 * stepsPerUnit : Nat) : ℚ) < ((10 ^ 400 : Nat) : ℚ) :=
    Nat.cast_lt.mpr (by decide +kernel)
  have hsplit : (10 : ℚ) ^ (-400 : Int) = (10 ^ 400)⁻¹ := zpow_neg 10 400
  rw [gridStep, hsplit]
  generalize stepsPerUnit = unit at *
  rw [Nat.cast_mul, Nat.cast_pow] at hbound
  rw [mul_left_comm, inv_mul_lt_iff₀ (by positivity), mul_one]
  exact hbound

/-! ## Reading rounds correctly -/

/-- The value of a decimal, in steps. -/
def size (decimal : Decimal) : ℚ := decimal.coefficient * gridStep decimal.exponent

private theorem size_nonneg (decimal : Decimal) : 0 ≤ decimal.size :=
  mul_nonneg (Nat.cast_nonneg _) (gridStep_pos _).le

private theorem zpow_eq (exponent : Int) :
    (10 : ℚ) ^ exponent = 10 ^ exponent.toNat / 10 ^ (-exponent).toNat := by
  rcases le_total 0 exponent with h | h
  · obtain ⟨n, rfl⟩ := Int.eq_ofNat_of_zero_le h
    simp
  · obtain ⟨n, hn⟩ := Int.eq_ofNat_of_zero_le (neg_nonneg.mpr h)
    obtain rfl : exponent = -n := by omega
    simp

private theorem inSteps_eq (decimal : Decimal) :
    decimal.inSteps = (decimal.coefficient * 10 ^ decimal.exponent.toNat * stepsPerUnit,
      10 ^ (-decimal.exponent).toNat) := by
  rw [inSteps]
  split_ifs with h
  · rw [Int.toNat_of_nonpos (neg_nonpos.mpr h)]
    rfl
  · rw [Int.toNat_of_nonpos (le_of_not_ge h), Nat.pow_zero, Nat.mul_one]
    rfl

private theorem inSteps_size (decimal : Decimal) :
    (decimal.inSteps.1 / decimal.inSteps.2 : ℚ) = decimal.size := by
  rw [inSteps_eq, size, gridStep, zpow_eq]
  push_cast
  ring

theorem rounds_inSteps (decimal : Decimal) :
    Rounds decimal.size (nearestRank decimal.inSteps.1 decimal.inSteps.2) := by
  rw [← inSteps_size]
  apply nearestRank_rounds
  rw [inSteps_eq]
  exact Nat.pow_pos (by decide)

private theorem le_size {decimal : Decimal} (hpos : 0 < decimal.coefficient)
    (h : 400 < decimal.exponent) : (steps infiniteRank : ℚ) ≤ decimal.size := by
  have hone : (1 : ℚ) ≤ decimal.coefficient := by exact_mod_cast hpos
  calc (steps infiniteRank : ℚ)
      ≤ gridStep 400 := steps_infiniteRank_le
    _ ≤ gridStep decimal.exponent := gridStep_strictMono.monotone h.le
    _ ≤ decimal.size := le_mul_of_one_le_left (gridStep_pos _).le hone

private theorem size_lt {decimal : Decimal}
    (h : digitCount decimal.coefficient + decimal.exponent < -400) :
    2 * decimal.size < 1 := by
  have hcoefficient : (decimal.coefficient : ℚ) < 10 ^ digitCount decimal.coefficient := by
    exact_mod_cast lt_pow_digitCount decimal.coefficient
  calc 2 * decimal.size
      ≤ 2 * (10 ^ digitCount decimal.coefficient * gridStep decimal.exponent) := by
        have := gridStep_pos decimal.exponent
        rw [size]
        gcongr
    _ = 2 * gridStep (digitCount decimal.coefficient + decimal.exponent) := by
        rw [Int.add_comm, gridStep_add]
    _ ≤ 2 * gridStep (-400) := by
        gcongr
        exact gridStep_strictMono.monotone h.le
    _ < 1 := gridStep_lt_half

/-- Reading is correctly rounded: the rank of a decimal is the one nearest its value. -/
theorem rank_of_rounds {decimal : Decimal} {rank : Nat} (h : Rounds decimal.size rank) :
    decimal.rank = min rank infiniteRank := by
  rw [Decimal.rank]
  split_ifs with hzero hlarge hsmall
  · have hsize : decimal.size = 0 := by rw [size, hzero, Nat.cast_zero, zero_mul]
    rw [h.unique (rounds_zero decimal.size_nonneg (by rw [hsize]; norm_num)), Nat.zero_min]
  · have := h.le_of_steps_le (le_size (Nat.pos_of_ne_zero hzero) hlarge)
    exact (Nat.min_eq_right this).symm
  · rw [h.unique (rounds_zero decimal.size_nonneg (size_lt hsmall)), Nat.zero_min]
  · rw [h.unique decimal.rounds_inSteps]

theorem rank_eq_of_size_eq {decimal other : Decimal} (h : decimal.size = other.size) :
    decimal.rank = other.rank := by
  rw [rank_of_rounds decimal.rounds_inSteps,
    rank_of_rounds (h ▸ decimal.rounds_inSteps)]

/-! ## Points of a grid -/

def floorPoint (size : Nat) (exponent : Int) : Nat :=
  (scaled size exponent).1 / (scaled size exponent).2

private theorem scaled_eq (size : Nat) (exponent : Int) :
    scaled size exponent =
      (size * 10 ^ (-exponent).toNat, stepsPerUnit * 10 ^ exponent.toNat) := by
  rw [scaled]
  split_ifs with h
  · rw [Int.toNat_of_nonpos (neg_nonpos.mpr h), Nat.pow_zero, Nat.mul_one]
    rfl
  · rw [Int.toNat_of_nonpos (le_of_not_ge h), Nat.pow_zero, Nat.mul_one]
    rfl

theorem floorPoint_eq (size : Nat) (exponent : Int) :
    floorPoint size exponent = ⌊(size : ℚ) / gridStep exponent⌋₊ := by
  rw [floorPoint, ← Nat.floor_div_eq_div (K := ℚ), scaled_eq, gridStep, zpow_eq]
  generalize stepsPerUnit = unit
  congr 1
  push_cast
  field_simp

theorem floorPoint_le (size : Nat) (exponent : Int) :
    floorPoint size exponent * gridStep exponent ≤ size := by
  rw [floorPoint_eq, ← le_div_iff₀ (gridStep_pos exponent)]
  have := gridStep_pos exponent
  exact Nat.floor_le (by positivity)

theorem lt_floorPoint (size : Nat) (exponent : Int) :
    size < (floorPoint size exponent + 1 : ℚ) * gridStep exponent := by
  rw [floorPoint_eq, ← div_lt_iff₀ (gridStep_pos exponent)]
  exact Nat.lt_floor_add_one _

theorem onGrid?_eq_some {target : Nat} {exponent : Int} {decimal : Decimal}
    (h : onGrid? target exponent = some decimal) :
    decimal.rank = target ∧ decimal.exponent = exponent ∧
      (decimal.coefficient = floorPoint (steps target) exponent ∨
        decimal.coefficient = floorPoint (steps target) exponent + 1) := by
  rw [onGrid?] at h
  dsimp only at h
  split at h
  · next hlower hupper =>
    simp only [Option.some.injEq] at h
    subst h
    split_ifs
    · exact ⟨of_decide_eq_true hlower, rfl, .inl rfl⟩
    · exact ⟨of_decide_eq_true hupper, rfl, .inr rfl⟩
  · next hlower _ =>
    simp only [Option.some.injEq] at h
    subst h
    exact ⟨of_decide_eq_true hlower, rfl, .inl rfl⟩
  · next _ hupper =>
    simp only [Option.some.injEq] at h
    subst h
    exact ⟨of_decide_eq_true hupper, rfl, .inr rfl⟩
  · simp at h

theorem onGrid?_isSome {target point : Nat} {exponent : Int}
    (hpoint : point = floorPoint (steps target) exponent ∨
      point = floorPoint (steps target) exponent + 1)
    (hrank : rank ⟨point, exponent⟩ = target) : (onGrid? target exponent).isSome := by
  rw [onGrid?]
  dsimp only
  rcases hpoint with rfl | rfl <;> rw [floorPoint] at hrank <;> split <;> simp_all

/-- Where a size holds `10 ^ 16` grid steps, one of the points beside it reads back. -/
theorem exists_point {target : Nat} {exponent : Int} (hpos : 0 < target)
    (hfine : 10 ^ 16 * gridStep exponent ≤ steps target) :
    ∃ point, (point = floorPoint (steps target) exponent ∨
      point = floorPoint (steps target) exponent + 1) ∧
        Rounds (size ⟨point, exponent⟩) target := by
  obtain ⟨below, rfl⟩ : ∃ below, target = below + 1 := ⟨target - 1, by omega⟩
  have hle := floorPoint_le (steps (below + 1)) exponent
  have hlt := lt_floorPoint (steps (below + 1)) exponent
  generalize hfloor : floorPoint (steps (below + 1)) exponent = point at *
  have hspacing : (steps (below + 1) : ℚ) < 2 * 2 ^ 52 * spacing (below + 1) := by
    exact_mod_cast steps_lt_spacing (below + 1)
  by_cases hlower : 2 * (steps (below + 1) - point * gridStep exponent) < spacing below
  · exact ⟨point, .inl rfl, rounds_up hle hlower⟩
  · refine ⟨point + 1, .inr rfl, rounds_down ?_ ?_⟩ <;> rw [size] <;> push_cast
    · exact hlt.le
    · rcases spacing_succ below with hsame | hopen
      · rw [hsame] at hlower
        linarith
      · have : (steps (below + 1) : ℚ) = 2 ^ 52 * spacing (below + 1) := by
          exact_mod_cast hopen
        linarith

private theorem onGrid?_isSome_of_fine {target : Nat} {exponent : Int}
    (hpos : 0 < target) (hfinite : target < infiniteRank)
    (hfine : 10 ^ 16 * gridStep exponent ≤ steps target) :
    (onGrid? target exponent).isSome := by
  obtain ⟨point, hpoint, hrounds⟩ := exists_point hpos hfine
  apply onGrid?_isSome hpoint
  rw [rank_of_rounds hrounds, Nat.min_eq_left hfinite.le]

/-! ## The search -/

theorem search_found {target : Nat} (finer : Nat) (exponent : Int)
    (h : ∃ offset < finer, (onGrid? target (exponent - offset)).isSome) :
    ∃ offset < finer, onGrid? target (exponent - offset) = some (search target finer exponent) ∧
      ∀ earlier < offset, onGrid? target (exponent - earlier) = none := by
  induction finer generalizing exponent with
  | zero => simp at h
  | succ finer ih =>
      rw [search]
      cases hgrid : onGrid? target exponent with
      | some decimal => exact ⟨0, Nat.succ_pos _, by simpa using hgrid, by simp⟩
      | none =>
          have hshift (offset : Nat) :
              exponent - 1 - (offset : Int) = exponent - (offset + 1 : Nat) := by
            push_cast
            ring
          have htail : ∃ offset < finer, (onGrid? target (exponent - 1 - offset)).isSome := by
            obtain ⟨offset, hlt, hsome⟩ := h
            cases offset with
            | zero => simp [hgrid] at hsome
            | succ offset =>
                refine ⟨offset, by omega, ?_⟩
                rwa [hshift]
          obtain ⟨offset, hlt, hfound, hearlier⟩ := ih _ htail
          rw [hshift] at hfound
          refine ⟨offset + 1, by omega, hfound, fun earlier hlt' => ?_⟩
          cases earlier with
          | zero => simpa using hgrid
          | succ earlier =>
              rw [← hshift]
              exact hearlier earlier (by omega)

private theorem gridStep_exponentOfSteps_le {size : Nat} (hpos : 0 < size) :
    gridStep (exponentOfSteps size) ≤ size := by
  have hunit := stepsPerUnit_pos
  rw [exponentOfSteps, gridStep]
  generalize stepsPerUnit = unit at *
  split_ifs with hle
  · have hquotient : 0 < size / unit := Nat.div_pos hle hunit
    have hexponent : ((digitCount (size / unit) : Int) - 1) =
        ((digitCount (size / unit) - 1 : Nat) : Int) := by
      have := digitCount_pos (size / unit)
      omega
    rw [hexponent, zpow_natCast]
    exact_mod_cast (Nat.le_div_iff_mul_le hunit).mp (pow_digitCount_le hquotient)
  · have hlt := (Nat.div_lt_iff_lt_mul hpos).mp (lt_pow_digitCount ((unit - 1) / size))
    have hbound : unit ≤ 10 ^ digitCount ((unit - 1) / size) * size := by omega
    rw [zpow_neg, zpow_natCast, inv_mul_le_iff₀ (by positivity)]
    exact_mod_cast hbound

theorem lt_gridStep_exponentOfSteps {size : Nat} (hpos : 0 < size) :
    size < gridStep (exponentOfSteps size + 1) := by
  have hunit := stepsPerUnit_pos
  rw [exponentOfSteps, gridStep]
  generalize stepsPerUnit = unit at *
  split_ifs with hle
  · rw [sub_add_cancel, zpow_natCast]
    exact_mod_cast (Nat.div_lt_iff_lt_mul hunit).mp (lt_pow_digitCount (size / unit))
  · have hquotient : 0 < (unit - 1) / size := Nat.div_pos (by omega) hpos
    have hmul := (Nat.le_div_iff_mul_le hpos).mp (pow_digitCount_le hquotient)
    have hexponent : -(digitCount ((unit - 1) / size) : Int) + 1 =
        -((digitCount ((unit - 1) / size) - 1 : Nat) : Int) := by
      have := digitCount_pos ((unit - 1) / size)
      omega
    rw [hexponent, zpow_neg, zpow_natCast, lt_inv_mul_iff₀ (by positivity)]
    exact_mod_cast (by omega : 10 ^ (digitCount ((unit - 1) / size) - 1) * size < unit)

private theorem exponentOfSteps_bounds {target : Nat} (hpos : 0 < target)
    (hfinite : target < infiniteRank) :
    -401 < exponentOfSteps (steps target) ∧ exponentOfSteps (steps target) < 400 := by
  have hsteps : 0 < steps target := steps_strictMono hpos
  have hle := gridStep_exponentOfSteps_le hsteps
  have hlt := lt_gridStep_exponentOfSteps hsteps
  have hlarge : (steps target : ℚ) < steps infiniteRank := by
    exact_mod_cast steps_strictMono hfinite
  have hone : (1 : ℚ) ≤ steps target := by exact_mod_cast hsteps
  constructor
  · have : gridStep (-400) < gridStep (exponentOfSteps (steps target) + 1) := by
      linarith [gridStep_lt_half, gridStep_pos (-400)]
    have := gridStep_strictMono.lt_iff_lt.mp this
    omega
  · exact gridStep_strictMono.lt_iff_lt.mp
      (hle.trans_lt (hlarge.trans_le steps_infiniteRank_le))

theorem ofRank_found {target : Nat} (hpos : 0 < target)
    (hfinite : target < infiniteRank) :
    ∃ offset ≤ maxDigits,
      onGrid? target (exponentOfSteps (steps target) + 1 - offset) = some (ofRank target) ∧
      ∀ earlier < offset,
        onGrid? target (exponentOfSteps (steps target) + 1 - earlier) = none := by
  have hle := gridStep_exponentOfSteps_le (steps_strictMono hpos)
  have hfine : 10 ^ 16 * gridStep (exponentOfSteps (steps target) + 1 - (17 : Nat)) ≤
      steps target := by
    rw [← gridStep_add]
    convert hle using 2
    push_cast
    ring
  obtain ⟨offset, hlt, hfound, hearlier⟩ := search_found (maxDigits + 1)
    (exponentOfSteps (steps target) + 1)
    ⟨17, by decide, onGrid?_isSome_of_fine hpos hfinite hfine⟩
  refine ⟨offset, by omega, ?_, hearlier⟩
  rwa [ofRank, if_neg hpos.ne']

/-- The chosen decimal reads back. -/
theorem rank_ofRank {target : Nat} (hfinite : target < infiniteRank) :
    (ofRank target).rank = target := by
  rcases Nat.eq_zero_or_pos target with rfl | hpos
  · rfl
  · obtain ⟨offset, -, hfound, -⟩ := ofRank_found hpos hfinite
    exact (onGrid?_eq_some hfound).1

/-- A coefficient that seventeen digits or a power of ten make up, and an exponent of three. -/
theorem ofRank_bounds {target : Nat} (hfinite : target < infiniteRank) :
    (ofRank target).coefficient ≤ 10 ^ 17 ∧
      -420 < (ofRank target).exponent ∧ (ofRank target).exponent < 420 := by
  rcases Nat.eq_zero_or_pos target with rfl | hpos
  · decide
  · obtain ⟨offset, hoffset, hfound, -⟩ := ofRank_found hpos hfinite
    obtain ⟨-, hexponent, hpoint⟩ := onGrid?_eq_some hfound
    have hbounds := exponentOfSteps_bounds hpos hfinite
    have hmax : maxDigits = 17 := rfl
    refine ⟨?_, by omega, by omega⟩
    have hle := floorPoint_le (steps target) (exponentOfSteps (steps target) + 1 - offset)
    have hlt := lt_gridStep_exponentOfSteps (steps_strictMono hpos)
    generalize floorPoint (steps target) (exponentOfSteps (steps target) + 1 - offset) = point at *
    have hsize : (point : ℚ) < 10 ^ offset := by
      have hstep := gridStep_pos (exponentOfSteps (steps target) + 1 - offset)
      have hsplit := gridStep_add (exponentOfSteps (steps target) + 1 - offset) offset
      rw [sub_add_cancel] at hsplit
      rw [hsplit] at hlt
      exact lt_of_mul_lt_mul_right (hle.trans_lt hlt) hstep.le
    have hpow : 10 ^ offset ≤ 10 ^ 17 := Nat.pow_le_pow_right (by decide) (by omega)
    have : point < 10 ^ offset := by exact_mod_cast hsize
    omega

end Decimal

end RemoteCalc.Number
