import RemoteCalc.Proofs.Number.Text

/-!
# The spelling of numbers

A text stands for a double exactly if it has an optional sign and then either digits,
with an optional point and an optional exponent, or one of three words in any letter
case.  The double is the one that the decimal is rounded to, whatever its size.
-/

namespace RemoteCalc.Number

open Text

/-! ## The grammar -/

inductive IsSign : List Char → Bool → Prop
  | missing : IsSign [] false
  | plus : IsSign ['+'] false
  | minus : IsSign ['-'] true

def IsDigits (cs : List Char) : Prop := cs ≠ [] ∧ ∀ c ∈ cs, c.isDigit = true

inductive IsExponent : List Char → Int → Prop
  | missing : IsExponent [] 0
  | marked {mark : Char} {sign digits : List Char} {negative : Bool}
      (hmark : mark = 'e' ∨ mark = 'E') (hsign : IsSign sign negative)
      (hdigits : IsDigits digits) :
      IsExponent (mark :: (sign ++ digits))
        (if negative then -(digitValue digits : Int) else digitValue digits)

inductive IsDecimal : List Char → Decimal → Prop
  | whole {whole tail : List Char} {exponent : Int} (hdigits : IsDigits whole)
      (hexponent : IsExponent tail exponent) :
      IsDecimal (whole ++ tail) ⟨digitValue whole, exponent⟩
  | pointed {whole places tail : List Char} {exponent : Int}
      (hdigits : IsDigits (whole ++ places)) (hexponent : IsExponent tail exponent) :
      IsDecimal (whole ++ '.' :: (places ++ tail))
        ⟨digitValue (whole ++ places), exponent - places.length⟩

def IsWord (word : String) (cs : List Char) : Prop := cs.map Char.toLower = word.toList

/-- A text without a sign, and the double that it stands for behind a sign. -/
inductive IsMagnitude (negative : Bool) : List Char → Float → Prop
  | decimal {cs : List Char} {decimal : Decimal} {rank : Nat} (h : IsDecimal cs decimal)
      (hrounds : Rounds decimal.size rank) :
      IsMagnitude negative cs (ofRank negative rank)
  | infinity {cs : List Char} (h : IsWord "inf" cs ∨ IsWord "infinity" cs) :
      IsMagnitude negative cs (ofRank negative infiniteRank)
  | notANumber {cs : List Char} (h : IsWord "nan" cs) : IsMagnitude negative cs notANumber

inductive IsNumber : List Char → Float → Prop
  | signed {sign cs : List Char} {negative : Bool} {value : Float} (hsign : IsSign sign negative)
      (h : IsMagnitude negative cs value) : IsNumber (sign ++ cs) value

/-! ## Digits and exponents -/

theorem natural?_eq_some_iff {cs : List Char} {n : Nat} :
    natural? cs = some n ↔ IsDigits cs ∧ digitValue cs = n := by
  rw [natural?, IsDigits, ← List.all_eq_true]
  split_ifs with h
  · simp [h.1, h.2]
  · exact iff_of_false (by simp) fun hdigits => h hdigits.1

namespace Literal

private theorem exponent?_marked {mark : Char} (hmark : mark = 'e' ∨ mark = 'E')
    {sign digits : List Char} {negative : Bool} (hsign : IsSign sign negative)
    (hdigits : IsDigits digits) :
    exponent? (mark :: (sign ++ digits)) =
      some (if negative then -(digitValue digits : Int) else digitValue digits) := by
  have hread := natural?_eq_some_iff.mpr ⟨hdigits, rfl⟩
  cases hsign with
  | plus => simp [exponent?, hmark, hread]
  | minus => simp [exponent?, hmark, hread]
  | missing =>
      obtain ⟨hne, hall⟩ := hdigits
      cases digits with
      | nil => contradiction
      | cons digit digits =>
          have hdigit := hall digit List.mem_cons_self
          have hplus : digit ≠ '+' := by
            rintro rfl
            contradiction
          have hminus : digit ≠ '-' := by
            rintro rfl
            contradiction
          simp [exponent?, hmark, hread, hplus, hminus]

theorem exponent?_eq_some_iff {cs : List Char} {exponent : Int} :
    exponent? cs = some exponent ↔ IsExponent cs exponent := by
  constructor
  · intro h
    cases cs with
    | nil =>
        cases h
        exact .missing
    | cons mark cs =>
        simp only [exponent?] at h
        split_ifs at h with hmark
        split at h <;> simp [Option.bind_eq_some_iff, natural?_eq_some_iff] at h <;>
          obtain ⟨hdigits, rfl⟩ := h
        · exact .marked hmark .minus hdigits
        · exact .marked hmark .plus hdigits
        · exact .marked hmark .missing hdigits
  · rintro (_ | ⟨hmark, hsign, hdigits⟩)
    · rfl
    · exact exponent?_marked hmark hsign hdigits

/-! ## Decimals -/

theorem stopsAt_exponent {cs : List Char} {exponent : Int}
    (h : IsExponent cs exponent) :
    StopsAt Char.isDigit cs ∧ fraction cs = ([], cs) := by
  cases h with
  | missing => exact ⟨trivial, rfl⟩
  | marked hmark hsign hdigits => rcases hmark with rfl | rfl <;> exact ⟨rfl, rfl⟩

private theorem fraction_cases (cs : List Char) :
    fraction cs = ([], cs) ∨
      ∃ places tail, (∀ c ∈ places, c.isDigit = true) ∧ cs = '.' :: (places ++ tail) ∧
        fraction cs = (places, tail) := by
  unfold fraction
  split
  · rename_i cs
    exact .inr ⟨cs.takeWhile Char.isDigit, cs.dropWhile Char.isDigit,
      fun _ hc => List.mem_takeWhile_imp hc, by rw [List.takeWhile_append_dropWhile], rfl⟩
  · exact .inl rfl

theorem decimal?_eq_some_iff {cs : List Char} {decimal : Decimal} :
    decimal? cs = some decimal ↔ IsDecimal cs decimal := by
  constructor
  · intro h
    have hdigits : ∀ c ∈ cs.takeWhile Char.isDigit, c.isDigit = true := fun _ hc =>
      List.mem_takeWhile_imp hc
    have hsplit := List.takeWhile_append_dropWhile (p := Char.isDigit) (l := cs)
    rw [← hsplit]
    simp only [decimal?] at h
    rcases fraction_cases (cs.dropWhile Char.isDigit) with
      hpoint | ⟨places, tail, hplaces, hrest, hpoint⟩
    · simp only [hpoint] at h
      split_ifs at h with hnone
      obtain ⟨exponent, hexponent, rfl⟩ := Option.map_eq_some_iff.mp h
      simpa using IsDecimal.whole ⟨by simpa using hnone, hdigits⟩
        (exponent?_eq_some_iff.mp hexponent)
    · simp only [hpoint] at h
      split_ifs at h with hnone
      obtain ⟨exponent, hexponent, rfl⟩ := Option.map_eq_some_iff.mp h
      rw [hrest]
      exact .pointed ⟨by simpa using hnone, List.forall_mem_append.mpr ⟨hdigits, hplaces⟩⟩
        (exponent?_eq_some_iff.mp hexponent)
  · intro h
    cases h with
    | whole hdigits hexponent =>
        obtain ⟨hstop, hpoint⟩ := stopsAt_exponent hexponent
        exact decimal?_whole hdigits.2 hdigits.1 hstop hpoint
          (exponent?_eq_some_iff.mpr hexponent)
    | pointed hdigits hexponent =>
        obtain ⟨hwhole, hplaces⟩ := List.forall_mem_append.mp hdigits.2
        exact decimal?_places hwhole hdigits.1 hplaces (stopsAt_exponent hexponent).1
          (exponent?_eq_some_iff.mpr hexponent)

/-! ## Words -/

theorem not_isDigit_of_isAlpha {c : Char} (h : c.isAlpha = true) :
    c.isDigit = false := by
  simp only [Char.isAlpha, Char.isUpper, Char.isLower, Char.isDigit, Bool.or_eq_true,
    Bool.and_eq_true, decide_eq_true_eq, UInt32.le_iff_toNat_le, ge_iff_le] at h ⊢
  simp at h ⊢
  omega

private theorem isAlpha_of_isWord {word : String}
    (hword : word.toList.all Char.isAlpha = true)
    {cs : List Char} (h : IsWord word cs) : ∀ c ∈ cs, c.isAlpha = true := by
  intro c hc
  have hlower : c.toLower ∈ word.toList := h ▸ List.mem_map_of_mem hc
  simpa using List.all_eq_true.mp hword _ hlower

private theorem decimal?_of_isWord {word : String}
    (hword : word.toList.all Char.isAlpha = true)
    {cs : List Char} (h : IsWord word cs) : decimal? cs = none := by
  cases cs with
  | nil => rfl
  | cons c cs =>
      have halpha := isAlpha_of_isWord hword h c List.mem_cons_self
      apply decimal?_sign
      · exact not_isDigit_of_isAlpha halpha
      · rintro rfl
        contradiction

private theorem ofRank_rank (negative : Bool) {decimal : Decimal} {rank : Nat}
    (h : Rounds decimal.size rank) :
    ofRank negative decimal.rank = ofRank negative rank := by
  rw [Decimal.rank_of_rounds h, ofRank, ofRank, Nat.min_assoc, Nat.min_self]

theorem ofChars?_map_value_iff {negative : Bool} {cs : List Char} {value : Float} :
    (ofChars? cs).map (Literal.value negative) = some value ↔
      IsMagnitude negative cs value := by
  constructor
  · intro h
    obtain ⟨literal, hliteral, rfl⟩ := Option.map_eq_some_iff.mp h
    simp only [ofChars?] at hliteral
    split at hliteral
    · rename_i decimal hdecimal
      cases hliteral
      rw [Literal.value, ofRank_rank negative decimal.rounds_inSteps]
      exact .decimal (decimal?_eq_some_iff.mp hdecimal) decimal.rounds_inSteps
    · split_ifs at hliteral with hinfinity hnan <;> cases hliteral
      · exact .infinity hinfinity
      · exact .notANumber hnan
  · intro h
    cases h with
    | decimal hdecimal hrounds =>
        have hread := decimal?_eq_some_iff.mpr hdecimal
        simp [ofChars?, hread, Literal.value, ofRank_rank negative hrounds]
    | infinity hword =>
        have hread : decimal? cs = none :=
          hword.elim (decimal?_of_isWord (by decide)) (decimal?_of_isWord (by decide))
        unfold IsWord at hword
        simp only [ofChars?, hread, if_pos hword, Option.map_some, Literal.value]
    | notANumber hword =>
        have hread : decimal? cs = none := decimal?_of_isWord (by decide) hword
        unfold IsWord at hword
        simp [ofChars?, hread, hword, Literal.value]

private theorem ofChars?_sign {c : Char} (h : c = '-' ∨ c = '+') (cs : List Char) :
    ofChars? (c :: cs) = none := by
  have hdecimal : decimal? (c :: cs) = none := by
    rcases h with rfl | rfl <;> exact decimal?_sign (by decide) (by decide) cs
  rcases h with rfl | rfl <;> simp [ofChars?, hdecimal]

end Literal

/-! ## Numbers -/

/-- What is read as a number is what the grammar allows, with the value that it gives. -/
theorem read?_eq_some_iff {cs : List Char} {value : Float} :
    read? cs = some value ↔ IsNumber cs value := by
  constructor
  · intro h
    unfold read? at h
    split at h <;> have hmagnitude := Literal.ofChars?_map_value_iff.mp h
    · exact .signed .minus hmagnitude
    · exact .signed .plus hmagnitude
    · exact .signed .missing hmagnitude
  · rintro ⟨hsign, hmagnitude⟩
    have hread := Literal.ofChars?_map_value_iff.mpr hmagnitude
    cases hsign with
    | minus => exact hread
    | plus => exact hread
    | missing =>
        rw [List.nil_append, read?]
        · exact hread
        · rintro rest rfl
          simp [Literal.ofChars?_sign] at hread
        · rintro rest rfl
          simp [Literal.ofChars?_sign] at hread

end RemoteCalc.Number
