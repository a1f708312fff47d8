import RemoteCalc.Number.Layout
import RemoteCalc.Number.Literal
import RemoteCalc.Proofs.Number.Bits
import RemoteCalc.Proofs.Number.Decimal
import RemoteCalc.Proofs.Text.Run

/-!
# Numbers through their texts

A number that is written is read back with the same bits, and its text is made of a
few plain characters.
-/

namespace RemoteCalc.Number

open Text

/-! ## Digits -/

theorem isDigit_digits {n : Nat} : ∀ c ∈ digits n, c.isDigit = true := fun _ h =>
  Nat.isDigit_of_mem_toDigits (by decide) (by decide) h

theorem digitValue_zeros_digits (zeros n : Nat) :
    digitValue (List.replicate zeros '0' ++ digits n) = n := by
  rw [digitValue, Nat.ofDigitChars_append, Nat.ofDigitChars_replicate_zero,
    Nat.mul_zero]
  exact Nat.ofDigitChars_ten_toDigits

private theorem digitValue_digits_zeros (zeros n : Nat) :
    digitValue (digits n ++ List.replicate zeros '0') = n * 10 ^ zeros := by
  rw [digitValue, Nat.ofDigitChars_append, Nat.ofDigitChars_replicate_zero,
    Nat.mul_comm]
  exact congrArg (· * _) Nat.ofDigitChars_ten_toDigits

@[simp] theorem natural?_zeros_digits (zeros n : Nat) :
    natural? (List.replicate zeros '0' ++ digits n) = some n := by
  have hne : List.replicate zeros '0' ++ digits n ≠ [] := by simp [digits]
  have hall : (List.replicate zeros '0' ++ digits n).all Char.isDigit := by
    simp only [List.all_append, List.all_replicate, Bool.and_eq_true, List.all_eq_true]
    exact ⟨by simp, isDigit_digits⟩
  rw [natural?, if_pos ⟨hne, hall⟩, digitValue_zeros_digits]

/-! ## Reading the parts of a decimal -/

namespace Literal

private theorem exponent?_exponentPart (exponent : Int) :
    exponent? (exponentPart exponent) = some exponent := by
  rw [exponentPart]
  split_ifs with h
  · simp [exponent?, abs_of_neg h]
  · simp [exponent?, abs_of_nonneg (not_lt.mp h)]

private theorem stopsAt_exponentPart (exponent : Int) :
    StopsAt Char.isDigit (exponentPart exponent) := rfl

theorem decimal?_whole {whole rest : List Char} {exponent : Int}
    (hwhole : ∀ c ∈ whole, c.isDigit = true) (hne : whole ≠ [])
    (hrest : StopsAt Char.isDigit rest) (hpoint : fraction rest = ([], rest))
    (hexponent : exponent? rest = some exponent) :
    decimal? (whole ++ rest) = some ⟨digitValue whole, exponent⟩ := by
  simp [decimal?, takeWhile_run hwhole hrest, dropWhile_run hwhole hrest,
    hpoint, hexponent, hne]

theorem decimal?_places {whole places rest : List Char} {exponent : Int}
    (hwhole : ∀ c ∈ whole, c.isDigit = true) (hne : whole ++ places ≠ [])
    (hplaces : ∀ c ∈ places, c.isDigit = true)
    (hrest : StopsAt Char.isDigit rest) (hexponent : exponent? rest = some exponent) :
    decimal? (whole ++ '.' :: (places ++ rest)) =
      some ⟨digitValue (whole ++ places), exponent - places.length⟩ := by
  have hpoint : StopsAt Char.isDigit ('.' :: (places ++ rest)) := rfl
  simpa [decimal?, takeWhile_run hwhole hpoint, dropWhile_run hwhole hpoint, fraction,
    takeWhile_run hplaces hrest, dropWhile_run hplaces hrest, hexponent] using hne

private theorem decimal?_point {cs : List Char} {places : Nat}
    (hdigits : ∀ c ∈ cs, c.isDigit = true)
    (hplaces : places < cs.length) :
    decimal? (cs.take (cs.length - places) ++ '.' :: cs.drop (cs.length - places)) =
      some ⟨digitValue cs, -places⟩ := by
  have hne : cs.take (cs.length - places) ++ cs.drop (cs.length - places) ≠ [] := by
    rw [List.take_append_drop, Ne, ← List.length_eq_zero_iff]
    omega
  have htail : ∀ c ∈ cs.drop (cs.length - places), c.isDigit = true := fun c hc =>
    hdigits c (List.mem_of_mem_drop hc)
  have hread := decimal?_places (fun c hc => hdigits c (List.mem_of_mem_take hc)) hne htail
    (stopsAt_nil _) rfl
  have hexponent : (0 : Int) - (cs.drop (cs.length - places)).length = -places := by
    rw [List.length_drop]
    omega
  rwa [List.append_nil, List.take_append_drop, hexponent] at hread

end Literal

/-! ## Reading what was laid out -/

theorem decimal?_mantissa (decimal : Decimal) :
    Literal.decimal? (mantissa (digits decimal.coefficient) ++
      exponentPart decimal.leadingExponent) = some decimal := by
  have hvalue : digitValue (digits decimal.coefficient) = decimal.coefficient :=
    Nat.ofDigitChars_ten_toDigits
  have hdigits := isDigit_digits (n := decimal.coefficient)
  have hcount : digitCount decimal.coefficient =
      (digits decimal.coefficient).length := rfl
  have hexponent := Literal.exponent?_exponentPart decimal.leadingExponent
  have hstop := Literal.stopsAt_exponentPart decimal.leadingExponent
  obtain ⟨coefficient, exponent⟩ := decimal
  simp only [Decimal.leadingExponent, hcount] at hvalue hdigits hexponent hstop ⊢
  match hshown : digits coefficient with
  | [] => simp [digits] at hshown
  | [digit] =>
      rw [hshown] at hvalue hdigits hexponent hstop
      rw [mantissa, Literal.decimal?_whole hdigits (by simp) hstop rfl hexponent, hvalue]
      simp
  | digit :: next :: places =>
      rw [hshown] at hvalue hdigits hexponent hstop
      have hhead : ∀ c ∈ [digit], c.isDigit = true := fun c hc =>
        hdigits c (by simp_all)
      have htail : ∀ c ∈ next :: places, c.isDigit = true := fun c hc =>
        hdigits c (List.mem_cons_of_mem _ hc)
      have hread := Literal.decimal?_places hhead (by simp) htail hstop hexponent
      rw [show [digit] ++ next :: places = digit :: next :: places from rfl,
        hvalue] at hread
      refine hread.trans ?_
      simp only [List.length_cons, Option.some.injEq, Decimal.mk.injEq, true_and]
      push_cast
      ring

theorem isDigit_zeros (zeros : Nat) :
    ∀ c ∈ List.replicate zeros '0', c.isDigit = true := by
  simp

private theorem size_whole {decimal : Decimal} (h : 0 ≤ decimal.exponent) :
    Decimal.size ⟨decimal.coefficient * 10 ^ decimal.exponent.toNat, 0⟩ =
      decimal.size := by
  obtain ⟨n, hn⟩ := Int.eq_ofNat_of_zero_le h
  have hstep := Decimal.gridStep_add 0 n
  rw [zero_add] at hstep
  rw [Decimal.size, Decimal.size, hn, hstep]
  push_cast
  rw [Int.toNat_natCast]
  ring

private theorem decimal?_positional (decimal : Decimal) :
    ∃ read, Literal.decimal? (positional decimal) = some read ∧
      read.size = decimal.size := by
  rw [positional]
  dsimp only
  split_ifs with h
  · have hdigits := List.forall_mem_append.mpr
      ⟨isDigit_digits (n := decimal.coefficient), isDigit_zeros decimal.exponent.toNat⟩
    have hne : digits decimal.coefficient ++ List.replicate decimal.exponent.toNat '0' ≠ [] := by
      simp [digits]
    have hread := Literal.decimal?_whole hdigits hne (stopsAt_nil _) rfl rfl
    rw [List.append_nil, digitValue_digits_zeros] at hread
    exact ⟨_, hread, size_whole h⟩
  · generalize hzeros : (-decimal.exponent).toNat + 1 - (digits decimal.coefficient).length = zeros
    have hdigits := List.forall_mem_append.mpr
      ⟨isDigit_zeros zeros, isDigit_digits (n := decimal.coefficient)⟩
    have hlength : (-decimal.exponent).toNat <
        (List.replicate zeros '0' ++ digits decimal.coefficient).length := by
      rw [List.length_append, List.length_replicate]
      omega
    have hread := Literal.decimal?_point hdigits hlength
    have hexponent : -((-decimal.exponent).toNat : Int) = decimal.exponent := by omega
    rw [digitValue_zeros_digits, hexponent] at hread
    exact ⟨_, hread, rfl⟩

/-- Whatever the range, what is laid out is read with the same value. -/
theorem decimal?_layout (range : PositionalRange) (decimal : Decimal) :
    ∃ read, Literal.decimal? (layout range decimal) = some read ∧
      read.size = decimal.size := by
  rw [layout]
  split_ifs
  · exact decimal?_positional decimal
  · exact ⟨decimal, decimal?_mantissa decimal, rfl⟩

theorem decimal?_sign {c : Char} (hdigit : c.isDigit = false) (hpoint : c ≠ '.')
    (cs : List Char) : Literal.decimal? (c :: cs) = none := by
  have hfraction : Literal.fraction (c :: cs) = ([], c :: cs) := by
    rw [Literal.fraction]
    rintro _ ⟨⟩
    exact hpoint rfl
  simp [Literal.decimal?, hdigit, hfraction]

private theorem read?_signed {negative : Bool} {cs : List Char} {decimal : Decimal}
    (h : Literal.decimal? cs = some decimal) :
    read? (signed negative cs) = some (ofRank negative decimal.rank) := by
  have hliteral : Literal.ofChars? cs = some (.decimal decimal) := by
    rw [Literal.ofChars?, h]
  cases negative with
  | true =>
      change (Literal.ofChars? cs).map (Literal.value true) = _
      rw [hliteral]
      rfl
  | false =>
      rw [signed, if_neg (by decide), read?]
      · rw [hliteral]
        rfl
      · rintro rest rfl
        rw [decimal?_sign (by decide) (by decide)] at h
        contradiction
      · rintro rest rfl
        rw [decimal?_sign (by decide) (by decide)] at h
        contradiction

/-- A number that was written is read as the same double. -/
theorem read?_write (value : Float) : read? (write value) = some value := by
  have hshape := shape_describes value
  rw [write]
  cases hvalue : shape value with
  | notANumber =>
      rw [hvalue] at hshape
      rw [show value = notANumber from hshape]
      rfl
  | infinite negative =>
      rw [hvalue] at hshape
      have hword : read? (signed negative "inf".toList) =
          some (ofRank negative infiniteRank) := by
        cases negative <;> rfl
      exact hword.trans (congrArg some hshape)
  | finite negative rank =>
      rw [hvalue] at hshape
      obtain ⟨hfinite, hrank⟩ := hshape
      obtain ⟨decimal, hread, hsize⟩ := decimal?_layout wireRange (Decimal.ofRank rank)
      refine (read?_signed hread).trans (congrArg some ?_)
      rw [Decimal.rank_eq_of_size_eq hsize, Decimal.rank_ofRank hfinite, hrank]

/-! ## What a written number is made of -/

def isNumberChar (c : Char) : Bool := c.isDigit || ".e+-infa".toList.contains c

private theorem isNumberChar_of_isDigit {c : Char} (h : c.isDigit = true) :
    isNumberChar c = true := by
  simp [isNumberChar, h]

private theorem all_digits (n : Nat) : (digits n).all isNumberChar = true :=
  List.all_eq_true.mpr fun _ hc => isNumberChar_of_isDigit (isDigit_digits _ hc)

private theorem all_zeros (zeros : Nat) :
    (List.replicate zeros '0').all isNumberChar = true := by
  rw [List.all_replicate]
  split
  · rfl
  · decide

private theorem all_mantissa {cs : List Char} (h : cs.all isNumberChar = true) :
    (mantissa cs).all isNumberChar = true := by
  have hpoint : isNumberChar '.' = true := by decide
  match cs with
  | [] => rfl
  | [_] => exact h
  | _ :: _ :: _ =>
      simp only [mantissa, List.all_cons, Bool.and_eq_true] at h ⊢
      exact ⟨h.1, hpoint, h.2⟩

private theorem all_exponentPart (exponent : Int) :
    (exponentPart exponent).all isNumberChar = true := by
  have hmark : isNumberChar 'e' = true := by decide
  have hsign : isNumberChar (if exponent < 0 then '-' else '+') = true := by
    split <;> decide
  simp only [exponentPart, List.all_cons, List.all_append, Bool.and_eq_true]
  exact ⟨hmark, hsign, all_zeros _, all_digits _⟩

private theorem all_positional (decimal : Decimal) :
    (positional decimal).all isNumberChar = true := by
  have hpoint : isNumberChar '.' = true := by decide
  rw [positional]
  dsimp only
  split_ifs
  · rw [List.all_append, all_digits, all_zeros]
    rfl
  · generalize hpadded : List.replicate ((-decimal.exponent).toNat + 1 -
      (digits decimal.coefficient).length) '0' ++ digits decimal.coefficient = padded
    have hall : padded.all isNumberChar = true := by
      rw [← hpadded, List.all_append, all_zeros, all_digits]
      rfl
    rw [List.all_append, List.all_cons, hpoint]
    rw [← List.take_append_drop (padded.length - (-decimal.exponent).toNat) padded,
      List.all_append] at hall
    simpa using hall

theorem all_write (value : Float) : (write value).all isNumberChar = true := by
  have hsigned {negative : Bool} {cs : List Char} (h : cs.all isNumberChar = true) :
      (signed negative cs).all isNumberChar = true := by
    cases negative <;> simpa [signed, isNumberChar] using h
  rw [write]
  split
  · decide
  · exact hsigned (by decide)
  · refine hsigned ?_
    rw [layout]
    split_ifs
    · exact all_positional _
    · rw [List.all_append, all_mantissa (all_digits _), all_exponentPart]
      rfl

theorem write_ne_nil (value : Float) : write value ≠ [] := by
  intro h
  have hread := read?_write value
  rw [h] at hread
  contradiction

private theorem length_mantissa_le (cs : List Char) :
    (mantissa cs).length ≤ cs.length + 1 := by
  match cs with
  | [] => simp [mantissa]
  | [_] => simp [mantissa]
  | _ :: _ :: _ => simp [mantissa]

private theorem length_exponentPart_le {exponent : Int} (h : exponent.natAbs < 1000) :
    (exponentPart exponent).length ≤ 5 := by
  have hdigits : (digits exponent.natAbs).length ≤ 3 :=
    (digitCount_le_iff (by decide)).mpr h
  simp only [exponentPart, List.length_cons, List.length_append, List.length_replicate]
  omega

theorem length_layout_le {decimal : Decimal} {extra : Nat}
    (hdigits : digitCount decimal.coefficient ≤ 17 + extra) (hextra : extra ≤ 1)
    (hlo : -420 < decimal.exponent) (hhi : decimal.exponent < 420) :
    (layout wireRange decimal).length ≤ 23 + extra := by
  have hpos := digitCount_pos decimal.coefficient
  have hcount : digitCount decimal.coefficient =
      (digits decimal.coefficient).length := rfl
  have hlead : decimal.leadingExponent =
      decimal.exponent + digitCount decimal.coefficient - 1 := rfl
  rw [layout]
  split_ifs with hrange
  · have hrange' : -4 ≤ decimal.leadingExponent ∧ decimal.leadingExponent < 17 := hrange
    rw [positional]
    dsimp only
    split_ifs
    · simp only [List.length_append, List.length_replicate]
      omega
    · simp only [List.length_append, List.length_cons, List.length_take,
        List.length_drop, List.length_replicate]
      omega
  · have hmantissa := length_mantissa_le (digits decimal.coefficient)
    have hexponent : (exponentPart decimal.leadingExponent).length ≤ 5 :=
      length_exponentPart_le (by omega)
    rw [List.length_append]
    omega

theorem length_write_le (value : Float) : (write value).length ≤ 25 := by
  have hsigned (negative : Bool) (cs : List Char) :
      (signed negative cs).length ≤ cs.length + 1 := by
    cases negative <;> simp [signed]
  have hshape := shape_describes value
  rw [write]
  cases hvalue : shape value with
  | notANumber => decide
  | infinite negative => exact (hsigned negative _).trans (by decide)
  | finite negative rank =>
      rw [hvalue] at hshape
      obtain ⟨hcoefficient, hlo, hhi⟩ := Decimal.ofRank_bounds hshape.1
      have hdigits : digitCount (Decimal.ofRank rank).coefficient ≤ 17 + 1 :=
        (digitCount_le_iff (by decide)).mpr (by omega)
      have := length_layout_le hdigits le_rfl hlo hhi
      exact (hsigned negative _).trans (by omega)

end RemoteCalc.Number
