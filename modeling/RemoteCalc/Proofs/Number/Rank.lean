import RemoteCalc.Number.Rank
import Mathlib.Tactic

/-!
# Rounding to a rank

`steps` lists the sizes of the doubles in strictly increasing order, and each
`spacing` is large against the size at which it stands.  `Rounds` says what it means
for a size to be rounded to a rank; `nearestRank` finds that rank, and there is
only one.
-/

namespace RemoteCalc.Number

/-! ## Sizes -/

theorem blockSize_pos : 0 < blockSize := by decide

private theorem blockSize_eq : blockSize = 2 ^ 52 := rfl

def spacing (rank : Nat) : Nat := 2 ^ (rank / blockSize - 1)

private theorem spacing_pos (rank : Nat) : 0 < spacing rank := Nat.two_pow_pos _

private theorem spacing_of_lt {rank : Nat} (h : rank < blockSize) :
    spacing rank = 1 := by
  rw [spacing, Nat.div_eq_of_lt h, Nat.zero_sub, Nat.pow_zero]

private theorem spacing_block {block fraction : Nat} (h : fraction < blockSize) :
    spacing ((block + 1) * blockSize + fraction) = 2 ^ block := by
  rw [spacing, Nat.add_comm, Nat.add_mul_div_right _ _ blockSize_pos,
    Nat.div_eq_of_lt h, Nat.zero_add, Nat.add_sub_cancel]

private theorem exists_block {rank : Nat} (h : blockSize ≤ rank) :
    ∃ block fraction, fraction < blockSize ∧
      rank = (block + 1) * blockSize + fraction := by
  have hpos : 0 < rank / blockSize := Nat.div_pos h blockSize_pos
  refine ⟨rank / blockSize - 1, rank % blockSize, Nat.mod_lt _ blockSize_pos, ?_⟩
  rw [Nat.sub_add_cancel hpos, Nat.mul_comm, Nat.div_add_mod]

theorem steps_of_lt {rank : Nat} (h : rank < blockSize) : steps rank = rank := if_pos h

theorem steps_block {block fraction : Nat} (h : fraction < blockSize) :
    steps ((block + 1) * blockSize + fraction) =
      (blockSize + fraction) * 2 ^ block := by
  have hge : ¬ (block + 1) * blockSize + fraction < blockSize := by
    rw [Nat.add_mul]
    omega
  have hspacing : spacing ((block + 1) * blockSize + fraction) = 2 ^ block :=
    spacing_block h
  rw [spacing] at hspacing
  rw [steps, if_neg hge, Nat.pow_eq, hspacing, Nat.add_comm ((block + 1) * blockSize),
    Nat.add_mul_mod_self_right, Nat.mod_eq_of_lt h]

@[simp] theorem steps_zero : steps 0 = 0 := rfl

private theorem steps_succ (rank : Nat) :
    steps (rank + 1) = steps rank + spacing rank := by
  rcases Nat.lt_or_ge rank blockSize with hlt | hge
  · rw [steps_of_lt hlt, spacing_of_lt hlt]
    rcases Nat.lt_or_ge (rank + 1) blockSize with hnext | hnext
    · exact steps_of_lt hnext
    · have hopen : rank + 1 = (0 + 1) * blockSize + 0 := by omega
      rw [hopen, steps_block blockSize_pos]
      omega
  · obtain ⟨block, fraction, hfraction, rfl⟩ := exists_block hge
    rw [steps_block hfraction, spacing_block hfraction]
    rcases Nat.lt_or_ge (fraction + 1) blockSize with hnext | hnext
    · rw [Nat.add_assoc, steps_block hnext]
      ring
    · have hopen : (block + 1) * blockSize + fraction + 1 =
          (block + 1 + 1) * blockSize + 0 := by
        rw [Nat.add_mul (block + 1) 1]
        omega
      have hfull : blockSize + fraction + 1 = 2 * blockSize := by omega
      rw [hopen, steps_block blockSize_pos, ← Nat.succ_mul, Nat.succ_eq_add_one, hfull]
      ring

theorem steps_strictMono : StrictMono steps :=
  strictMono_nat_of_lt_succ fun rank => by
    rw [steps_succ]
    exact Nat.lt_add_of_pos_right (spacing_pos rank)

theorem steps_lt_spacing (rank : Nat) : steps rank < 2 * blockSize * spacing rank := by
  rcases Nat.lt_or_ge rank blockSize with hlt | hge
  · rw [steps_of_lt hlt, spacing_of_lt hlt]
    omega
  · obtain ⟨block, fraction, hfraction, rfl⟩ := exists_block hge
    rw [steps_block hfraction, spacing_block hfraction]
    exact Nat.mul_lt_mul_of_pos_right (by omega) (Nat.two_pow_pos _)

theorem spacing_succ (rank : Nat) :
    spacing rank = spacing (rank + 1) ∨
      steps (rank + 1) = blockSize * spacing (rank + 1) := by
  rcases Nat.lt_or_ge (rank + 1) blockSize with hlt | hge
  · left
    rw [spacing_of_lt hlt, spacing_of_lt (by omega)]
  · obtain ⟨block, fraction, hfraction, hrank⟩ := exists_block hge
    cases fraction with
    | zero =>
        right
        rw [hrank, steps_block hfraction, spacing_block hfraction, Nat.add_zero]
    | succ fraction =>
        left
        have hbelow : rank = (block + 1) * blockSize + fraction := by omega
        rw [hrank, spacing_block hfraction, hbelow, spacing_block (by omega)]

/-! ## Finding a size -/

theorem floorRank_of_lt {size : Nat} (h : size < blockSize) :
    floorRank size = size := by
  have hlog : size.log2 - 52 = 0 := by
    rcases Nat.eq_zero_or_pos size with rfl | hpos
    · rfl
    · have : size.log2 < 52 := (Nat.log2_lt hpos.ne').mpr h
      omega
  simp [floorRank, hlog]

private theorem floorRank_block {size : Nat} (h : blockSize ≤ size) :
    ∃ block fraction, fraction < blockSize ∧
      floorRank size = (block + 1) * blockSize + fraction ∧
      size / 2 ^ block = blockSize + fraction := by
  have hne : size ≠ 0 := by
    have := blockSize_pos
    omega
  have hlog : 52 ≤ size.log2 := (Nat.le_log2 hne).mpr h
  obtain ⟨block, hblock⟩ := Nat.exists_eq_add_of_le hlog
  have hlo : blockSize ≤ size / 2 ^ block := by
    rw [Nat.le_div_iff_mul_le (Nat.two_pow_pos _), blockSize_eq,
      ← Nat.pow_add, ← hblock]
    exact Nat.log2_self_le hne
  have hhi : size / 2 ^ block < 2 * blockSize := by
    rw [Nat.div_lt_iff_lt_mul (Nat.two_pow_pos _), blockSize_eq, ← Nat.pow_succ',
      ← Nat.pow_add]
    have := Nat.lt_log2_self (n := size)
    rwa [hblock, Nat.add_right_comm] at this
  refine ⟨block, size / 2 ^ block - blockSize, by omega, ?_, by omega⟩
  have hshift : size.log2 - 52 = block := by omega
  rw [floorRank, hshift, Nat.pow_eq, Nat.add_mul]
  omega

private theorem steps_floorRank_le (size : Nat) : steps (floorRank size) ≤ size := by
  rcases Nat.lt_or_ge size blockSize with hlt | hge
  · rw [floorRank_of_lt hlt, steps_of_lt hlt]
  · obtain ⟨block, fraction, hfraction, hrank, hquotient⟩ := floorRank_block hge
    rw [hrank, steps_block hfraction, ← hquotient]
    exact Nat.div_mul_le_self _ _

private theorem lt_steps_floorRank (size : Nat) :
    size < steps (floorRank size + 1) := by
  rw [steps_succ]
  rcases Nat.lt_or_ge size blockSize with hlt | hge
  · rw [floorRank_of_lt hlt, steps_of_lt hlt, spacing_of_lt hlt]
    omega
  · obtain ⟨block, fraction, hfraction, hrank, hquotient⟩ := floorRank_block hge
    rw [hrank, steps_block hfraction, spacing_block hfraction, ← hquotient]
    exact Nat.lt_div_mul_add (Nat.two_pow_pos _)

/-! ## Rounding -/

/-- Twice the size that lies halfway between a rank and the next one. -/
def middle (rank : Nat) : Nat := steps rank + steps (rank + 1)

private theorem middle_strictMono : StrictMono middle := fun _ _ h =>
  Nat.add_lt_add (steps_strictMono h) (steps_strictMono (Nat.succ_lt_succ h))

/--
A size in steps is rounded to a rank if it lies between the middles on either side of
the rank; a middle itself belongs to the even one of its two ranks.
-/
structure Rounds (size : ℚ) (rank : Nat) : Prop where
  above : ∀ below, rank = below + 1 →
    (middle below : ℚ) < 2 * size ∨ (middle below : ℚ) = 2 * size ∧ rank % 2 = 0
  under : 2 * size < middle rank ∨ 2 * size = middle rank ∧ rank % 2 = 0

theorem Rounds.le {size : ℚ} {rank other : Nat} (h : Rounds size rank)
    (hother : Rounds size other) : rank ≤ other := by
  by_contra hlt
  obtain ⟨below, rfl⟩ : ∃ below, rank = below + 1 := ⟨rank - 1, by omega⟩
  have hmiddle : (middle other : ℚ) ≤ middle below := by
    exact_mod_cast middle_strictMono.monotone (by omega : other ≤ below)
  rcases h.above below rfl with ha | ⟨ha, heven⟩ <;>
    rcases hother.under with hu | ⟨hu, heven'⟩
  · linarith
  · linarith
  · linarith
  · have : middle other = middle below := by
      have : (middle other : ℚ) = middle below := by linarith
      exact_mod_cast this
    have := middle_strictMono.injective this
    omega

theorem Rounds.unique {size : ℚ} {rank other : Nat} (h : Rounds size rank)
    (hother : Rounds size other) : rank = other :=
  Nat.le_antisymm (h.le hother) (hother.le h)

section Nearest

variable {size : ℚ} {rank : Nat}

private theorem above_of_steps_le (h : (steps rank : ℚ) ≤ size) (below : Nat)
    (hrank : rank = below + 1) :
    (middle below : ℚ) < 2 * size ∨ (middle below : ℚ) = 2 * size ∧ rank % 2 = 0 := by
  left
  have hlt : middle below < 2 * steps rank := by
    have := steps_strictMono (Nat.lt_add_one below)
    subst hrank
    rw [middle]
    omega
  have : (middle below : ℚ) < 2 * steps rank := by exact_mod_cast hlt
  linarith

private theorem under_of_lt_steps (h : size < steps rank) : 2 * size < middle rank := by
  have hlt : 2 * steps rank < middle rank := by
    have := steps_strictMono (Nat.lt_add_one rank)
    rw [middle]
    omega
  have : (2 * steps rank : ℚ) < middle rank := by exact_mod_cast hlt
  linarith

private theorem rounds_below (hle : (steps rank : ℚ) ≤ size)
    (h : 2 * size < middle rank ∨ 2 * size = middle rank ∧ rank % 2 = 0) :
    Rounds size rank :=
  ⟨above_of_steps_le hle, h⟩

private theorem rounds_above (hlt : size < steps (rank + 1))
    (h : (middle rank : ℚ) < 2 * size ∨ (middle rank : ℚ) = 2 * size ∧ (rank + 1) % 2 = 0) :
    Rounds size (rank + 1) := by
  refine ⟨fun below hbelow => ?_, .inl (under_of_lt_steps hlt)⟩
  obtain rfl : rank = below := by omega
  exact h

theorem rounds_zero (hle : 0 ≤ size) (hlt : 2 * size < 1) : Rounds size 0 :=
  rounds_below (by simpa using hle) (.inl (by
    have hmiddle : middle 0 = 1 := by
      rw [middle, steps_succ, steps_zero, spacing_of_lt blockSize_pos]
    simpa [hmiddle] using hlt))

theorem rounds_up {below : Nat} (hle : size ≤ steps (below + 1))
    (h : 2 * (steps (below + 1) - size) < spacing below) : Rounds size (below + 1) := by
  have hmiddle : (middle below : ℚ) = 2 * steps (below + 1) - spacing below := by
    rw [middle, steps_succ]
    push_cast
    ring
  refine ⟨fun other hother => .inl ?_, .inl ?_⟩
  · obtain rfl : below = other := by omega
    linarith
  · have hnext := steps_strictMono (Nat.lt_add_one (below + 1))
    have : (2 * steps (below + 1) : ℚ) < middle (below + 1) := by
      exact_mod_cast (by rw [middle]; omega : 2 * steps (below + 1) < middle (below + 1))
    linarith

theorem rounds_down (hle : (steps rank : ℚ) ≤ size)
    (h : 2 * (size - steps rank) < spacing rank) : Rounds size rank := by
  refine rounds_below hle (.inl ?_)
  rw [middle, steps_succ]
  push_cast
  linarith

theorem Rounds.le_of_steps_le {other : Nat} (h : Rounds size rank)
    (hother : (steps other : ℚ) ≤ size) : other ≤ rank := by
  by_contra hlt
  have hmiddle : middle rank < 2 * steps other := by
    have hnext := steps_strictMono.monotone (by omega : rank + 1 ≤ other)
    have := steps_strictMono (Nat.lt_add_one rank)
    rw [middle]
    omega
  have : (middle rank : ℚ) < 2 * steps other := by exact_mod_cast hmiddle
  rcases h.under with hu | ⟨hu, -⟩ <;> linarith

theorem rounds_steps (rank : Nat) : Rounds (steps rank) rank := by
  refine rounds_below le_rfl (.inl ?_)
  have := steps_strictMono (Nat.lt_add_one rank)
  exact_mod_cast (by rw [middle]; omega : 2 * steps rank < middle rank)

/-- What lies between two sizes of a rank has the same rank. -/
theorem Rounds.convex {low high : ℚ} (hlow : Rounds low rank) (hhigh : Rounds high rank)
    (hle : low ≤ size) (hge : size ≤ high) : Rounds size rank where
  above below hbelow := by
    rcases hlow.above below hbelow with hlt | ⟨heq, heven⟩
    · exact .inl (by linarith)
    · rcases hle.lt_or_eq with hless | rfl
      · exact .inl (by linarith)
      · exact .inr ⟨heq, heven⟩
  under := by
    rcases hhigh.under with hlt | ⟨heq, heven⟩
    · exact .inl (by linarith)
    · rcases hge.lt_or_eq with hless | rfl
      · exact .inl (by linarith)
      · exact .inr ⟨heq, heven⟩

end Nearest

theorem nearestRank_rounds (num : Nat) {den : Nat} (hden : 0 < den) :
    Rounds (num / den) (nearestRank num den) := by
  have hpos : (0 : ℚ) < den := by exact_mod_cast hden
  have hle : (steps (floorRank (num / den)) : ℚ) ≤ num / den := by
    rw [le_div_iff₀ hpos]
    exact_mod_cast (Nat.le_div_iff_mul_le hden).mp (steps_floorRank_le (num / den))
  have hlt : (num / den : ℚ) < steps (floorRank (num / den) + 1) := by
    rw [div_lt_iff₀ hpos]
    exact_mod_cast (Nat.div_lt_iff_lt_mul hden).mp (lt_steps_floorRank (num / den))
  have hmiddle : nearestRank num den =
      if 2 * num < den * middle (floorRank (num / den)) then floorRank (num / den)
      else if den * middle (floorRank (num / den)) < 2 * num then floorRank (num / den) + 1
      else floorRank (num / den) + floorRank (num / den) % 2 := rfl
  rw [hmiddle]
  generalize floorRank (num / den) = below at *
  have hcompare : (2 * (num / den) : ℚ) = (2 * num : Nat) / den := by push_cast; ring
  split_ifs with hunder habove
  · refine rounds_below hle (.inl ?_)
    rw [hcompare, div_lt_iff₀ hpos, mul_comm (middle below : ℚ)]
    exact_mod_cast hunder
  · refine rounds_above hlt (.inl ?_)
    rw [hcompare, lt_div_iff₀ hpos, mul_comm (middle below : ℚ)]
    exact_mod_cast habove
  · have htie : (2 * (num / den) : ℚ) = middle below := by
      rw [hcompare, div_eq_iff hpos.ne', mul_comm (middle below : ℚ)]
      exact_mod_cast (by omega : 2 * num = den * middle below)
    rcases Nat.mod_two_eq_zero_or_one below with heven | hodd
    · rw [heven, Nat.add_zero]
      exact rounds_below hle (.inr ⟨htie, heven⟩)
    · rw [hodd]
      exact rounds_above hlt (.inr ⟨htie.symm, by omega⟩)

end RemoteCalc.Number
