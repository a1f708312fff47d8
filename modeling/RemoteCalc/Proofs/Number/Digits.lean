import RemoteCalc.Proofs.Number.Grammar

/-!
# Digits of whole numbers

A whole number is written with no zero in front, unless it is zero, and with those zeros at
its end that it has as a multiple of a power of ten.  No other digits without a zero in
front are read as the number.
-/

namespace RemoteCalc.Number

/-! ## The first and the last digit -/

theorem digits_of_lt {n : Nat} (h : n < 10) : digits n = [n.digitChar] :=
  Nat.toDigits_of_lt_base h

private theorem digits_of_ge {n : Nat} (h : 10 ≤ n) :
    digits n = digits (n / 10) ++ [(n % 10).digitChar] :=
  Nat.toDigits_of_base_le (by decide) h

theorem digits_ne_nil (n : Nat) : digits n ≠ [] := by simp [digits]

theorem digitChar_eq_zero_iff {digit : Nat} (h : digit < 10) :
    digit.digitChar = '0' ↔ digit = 0 := by
  interval_cases digit <;> decide

private theorem getLast_digits (n : Nat) :
    (digits n).getLast (digits_ne_nil n) = (n % 10).digitChar := by
  rcases Nat.lt_or_ge n 10 with h | h
  · simp [digits_of_lt h, Nat.mod_eq_of_lt h]
  · simp [digits_of_ge h]

theorem getLast_digits_ne_zero {n : Nat} (h : n % 10 ≠ 0) :
    (digits n).getLast (digits_ne_nil n) ≠ '0' := by
  rw [getLast_digits, Ne, digitChar_eq_zero_iff (Nat.mod_lt n (by decide))]
  exact h

theorem head?_digits {n : Nat} (hpos : 0 < n) : (digits n).head? ≠ some '0' := by
  induction n using Nat.strongRecOn with
  | ind n ih =>
      rcases Nat.lt_or_ge n 10 with h | h
      · simpa [digits_of_lt h, digitChar_eq_zero_iff h] using hpos.ne'
      · rw [digits_of_ge h, List.head?_append_of_ne_nil _ (digits_ne_nil _)]
        exact ih (n / 10) (by omega) (by omega)

theorem digits_mul_pow {n : Nat} (hpos : 0 < n) (zeros : Nat) :
    digits (n * 10 ^ zeros) = digits n ++ List.replicate zeros '0' := by
  induction zeros with
  | zero => simp
  | succ zeros ih =>
      have hpow := Nat.pow_pos (n := zeros) (show 0 < 10 by decide)
      have hshift : n * 10 ^ (zeros + 1) = n * 10 ^ zeros * 10 := by ring
      have hten : 10 ≤ n * 10 ^ (zeros + 1) := by
        rw [hshift]
        exact Nat.le_mul_of_pos_left _ (Nat.mul_pos hpos hpow)
      rw [digits_of_ge hten, hshift,
        Nat.mul_div_cancel _ (by decide), ih, Nat.mul_mod_left, List.append_assoc,
        List.replicate_succ']
      rfl

theorem digitCount_mul_pow {n : Nat} (hpos : 0 < n) (zeros : Nat) :
    digitCount (n * 10 ^ zeros) = digitCount n + zeros := by
  change (digits (n * 10 ^ zeros)).length = (digits n).length + zeros
  simp [digits_mul_pow hpos]

theorem getLast?_digits {n : Nat} (h : n % 10 ≠ 0) :
    (digits n).getLast? ≠ some '0' := by
  rw [List.getLast?_eq_some_getLast (digits_ne_nil n)]
  simpa using getLast_digits_ne_zero h

theorem isDigits_padded (zeros n : Nat) :
    IsDigits (List.replicate zeros '0' ++ digits n) :=
  ⟨by simp [digits], List.forall_mem_append.mpr ⟨isDigit_zeros zeros, isDigit_digits⟩⟩

/-! ## The only spelling -/

def IsCanonical (run : List Char) : Prop := run.head? = some '0' → run = ['0']

theorem isCanonical_of_short {run : List Char}
    (h : ¬ (run.head? = some '0' ∧ 1 < run.length)) :
    IsCanonical run := by
  intro hhead
  obtain ⟨tail, rfl⟩ := List.head?_eq_some_iff.mp hhead
  cases tail with
  | nil => rfl
  | cons c tail => exact absurd ⟨hhead, by simp⟩ h

theorem isCanonical_digits (n : Nat) : IsCanonical (digits n) := by
  intro hhead
  rcases Nat.eq_zero_or_pos n with rfl | hpos
  · rfl
  · exact absurd hhead (head?_digits hpos)

private theorem digitChar_toNat {c : Char} (h : c.isDigit = true) :
    Nat.digitChar (c.toNat - '0'.toNat) = c ∧ c.toNat - '0'.toNat < 10 := by
  simp only [Char.isDigit, Bool.and_eq_true, decide_eq_true_eq] at h
  have hlo : 48 ≤ c.toNat := h.1
  have hhi : c.toNat ≤ 57 := h.2
  have hzero : '0'.toNat = 48 := rfl
  refine ⟨?_, by omega⟩
  apply Char.toNat_inj.mp
  rw [Nat.toNat_digitChar_of_lt_ten (by omega)]
  omega

private theorem digits_append {cs : List Char} {n : Nat} (hpos : 0 < n)
    (h : ∀ c ∈ cs, c.isDigit = true) :
    digits n ++ cs = digits (Nat.ofDigitChars 10 cs n) := by
  induction cs generalizing n with
  | nil => simp [Nat.ofDigitChars]
  | cons c cs ih =>
      obtain ⟨hc, hcs⟩ := List.forall_mem_cons.mp h
      obtain ⟨hchar, hlt⟩ := digitChar_toNat hc
      have hstep := Nat.toDigits_append_toDigits (b := 10) (by decide) hpos hlt
      rw [Nat.toDigits_of_lt_base hlt, hchar] at hstep
      rw [Nat.ofDigitChars_cons, ← ih (by omega) hcs, digits, digits, ← hstep]
      simp

theorem digits_digitValue {run : List Char} (h : IsDigits run)
    (hcanonical : IsCanonical run) :
    digits (digitValue run) = run := by
  obtain ⟨hne, hall⟩ := h
  cases run with
  | nil => contradiction
  | cons c cs =>
      obtain ⟨hc, hcs⟩ := List.forall_mem_cons.mp hall
      obtain ⟨hchar, hlt⟩ := digitChar_toNat hc
      by_cases hzero : c = '0'
      · rw [hcanonical (by rw [hzero]; rfl)]
        rfl
      · have hpos : 0 < c.toNat - '0'.toNat := by
          by_contra hnone
          rw [Nat.eq_zero_of_not_pos hnone] at hchar
          exact hzero hchar.symm
        have happend := digits_append hpos hcs
        rw [digits_of_lt hlt, hchar] at happend
        simpa [digitValue, Nat.ofDigitChars_cons] using happend.symm

end RemoteCalc.Number
