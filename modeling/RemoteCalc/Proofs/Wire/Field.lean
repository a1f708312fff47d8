import RemoteCalc.Proofs.Number.Text
import RemoteCalc.Wire.Field

/-!
# Fields and their values

A text of ASCII characters goes through bytes unchanged.  A field whose value is not
empty, not too wide and free of semicolons is taken off the front of any text that
begins with it.
-/

namespace RemoteCalc.Wire

open Text

/-! ## Characters -/

def isValueChar (c : Char) : Bool := ' ' ≤ c && c ≤ '~' && c ≠ ';'

theorem toNat_of_isValueChar {c : Char} (h : isValueChar c = true) :
    32 ≤ c.toNat ∧ c.toNat ≤ 126 := by
  simp only [isValueChar, Bool.and_eq_true, decide_eq_true_eq] at h
  exact ⟨h.1.1, h.1.2⟩

theorem ne_of_isValueChar {c : Char} (h : isValueChar c = true) : c ≠ ';' := by
  rintro rfl
  contradiction

private theorem isValueChar_of_isDigit {c : Char} (h : c.isDigit = true) :
    isValueChar c = true := by
  simp only [Char.isDigit, Bool.and_eq_true, decide_eq_true_eq] at h
  have hlo : 48 ≤ c.toNat := h.1
  have hhi : c.toNat ≤ 57 := h.2
  have hblank : ' ' ≤ c := by
    change 32 ≤ c.toNat
    omega
  have htilde : c ≤ '~' := by
    change c.toNat ≤ 126
    omega
  have hne : c ≠ ';' := by
    rintro rfl
    contradiction
  simp [isValueChar, hblank, htilde, hne]

theorem isValueChar_of_isNumberChar {c : Char} (h : Number.isNumberChar c = true) :
    isValueChar c = true := by
  simp only [Number.isNumberChar, Bool.or_eq_true] at h
  rcases h with hdigit | hmark
  · exact isValueChar_of_isDigit hdigit
  · have hall : ".e+-infa".toList.all isValueChar = true := by decide
    exact List.all_eq_true.mp hall c (by simpa using hmark)

/-! ## Bytes of characters -/

def IsAsciiText (cs : List Char) : Prop := ∀ c ∈ cs, c.toNat < 128

theorem IsAsciiText.append {first second : List Char} (hfirst : IsAsciiText first)
    (hsecond : IsAsciiText second) : IsAsciiText (first ++ second) := by
  intro c hc
  rcases List.mem_append.mp hc with h | h
  · exact hfirst c h
  · exact hsecond c h

theorem ofUInt8_toUInt8 {c : Char} (h : c.toNat < 128) :
    Char.ofUInt8 c.toUInt8 = c := by
  apply Char.ext
  apply UInt32.toNat_inj.mp
  have : c.toNat = c.val.toNat := rfl
  simp only [Char.ofUInt8, Char.toUInt8, UInt8.toNat_toUInt32, UInt32.toNat_toUInt8]
  omega

private theorem isAscii_toUInt8 {c : Char} (h : c.toNat < 128) :
    isAscii c.toUInt8 = true := by
  have : c.toNat = c.val.toNat := rfl
  simp only [isAscii, decide_eq_true_eq, UInt8.lt_iff_toNat_lt, Char.toUInt8,
    UInt32.toNat_toUInt8]
  change c.val.toNat % 256 < 128
  omega

theorem map_ofUInt8_ofChars {cs : List Char} (h : IsAsciiText cs) :
    (ofChars cs).map Char.ofUInt8 = cs := by
  have hid : ∀ c ∈ cs, (Char.ofUInt8 ∘ Char.toUInt8) c = id c := fun c hc =>
    ofUInt8_toUInt8 (h c hc)
  rw [ofChars, List.map_map, List.map_congr_left hid, List.map_id]

theorem isAscii_of_mem_ofChars {cs : List Char} (h : IsAsciiText cs) :
    ∀ b ∈ ofChars cs, isAscii b = true := by
  intro b hb
  obtain ⟨c, hc, rfl⟩ := List.mem_map.mp hb
  exact isAscii_toUInt8 (h c hc)

theorem frameChars_ofChars {cs : List Char} (hascii : IsAsciiText cs)
    (hlength : cs.length ≤ maxFrameLength) : frameChars (ofChars cs) = .ok cs := by
  have hall : (ofChars cs).all isAscii = true :=
    List.all_eq_true.mpr (isAscii_of_mem_ofChars hascii)
  have hshort : ¬ maxFrameLength < (ofChars cs).length := by
    rw [ofChars, List.length_map]
    omega
  rw [frameChars, if_neg hshort, if_pos hall, map_ofUInt8_ofChars hascii]

/-! ## Taking a field off the front -/

/-- What a field of this width is read with: any text that does not end it early. -/
structure IsReadable (width : Nat) (value : List Char) : Prop where
  nonempty : value ≠ []
  fits : value.length ≤ width
  unended : ';' ∉ value

/-- What a field of this width can carry. -/
structure IsValue (width : Nat) (value : List Char) : Prop where
  nonempty : value ≠ []
  fits : value.length ≤ width
  chars : ∀ c ∈ value, isValueChar c = true

theorem IsValue.isReadable {width : Nat} {value : List Char} (h : IsValue width value) :
    IsReadable width value :=
  ⟨h.nonempty, h.fits, fun hmem => ne_of_isValueChar (h.chars _ hmem) rfl⟩

theorem IsValue.isAsciiText {width : Nat} {value : List Char}
    (h : IsValue width value) :
    IsAsciiText value := by
  intro c hc
  have := (toNat_of_isValueChar (h.chars c hc)).2
  omega

private theorem field_append (key : String) (value rest : List Char) :
    field key value ++ rest = (key.toList ++ [':']) ++ (value ++ ';' :: rest) := by
  simp [field]

theorem takeField_eq_ok_iff {key : String} {width : Nat} {text value rest : List Char} :
    takeField key width text = .ok (value, rest) ↔
      text = field key value ++ rest ∧ IsReadable width value := by
  constructor
  · intro h
    simp only [takeField] at h
    split at h
    · contradiction
    · rename_i body hprefix
      split at h
      · contradiction
      · rename_i c tail hdrop
        split_ifs at h with hempty hlong
        cases h
        have hend : c = ';' := by
          have hstop := stopsAt_dropWhile (fun c : Char => decide (c ≠ ';')) body
          rw [hdrop] at hstop
          exact not_not.mp (of_decide_eq_false hstop)
        have hbody := List.takeWhile_append_dropWhile
          (p := fun c : Char => decide (c ≠ ';')) (l := body)
        rw [hdrop, hend] at hbody
        refine ⟨?_, hempty, Nat.not_lt.mp hlong, ?_⟩
        · rw [field_append, hbody]
          exact (List.isPrefixOf?_eq_some_iff_append_eq.mp hprefix).symm
        · intro hmem
          simpa using List.mem_takeWhile_imp hmem
  · rintro ⟨rfl, hvalue⟩
    have hprefix : (key.toList ++ [':']).isPrefixOf? (field key value ++ rest) =
        some (value ++ ';' :: rest) :=
      List.isPrefixOf?_eq_some_iff_append_eq.mpr (field_append key value rest).symm
    have hrun : ∀ c ∈ value, decide (c ≠ ';') = true := by
      intro c hc
      exact decide_eq_true fun hend => hvalue.unended (hend ▸ hc)
    have hstop : StopsAt (fun c : Char => decide (c ≠ ';')) (';' :: rest) := rfl
    simp only [takeField, hprefix, takeWhile_run hrun hstop, dropWhile_run hrun hstop]
    rw [if_neg hvalue.nonempty, if_neg (Nat.not_lt.mpr hvalue.fits)]

theorem takeField_field (key : String) {width : Nat} {value : List Char}
    (h : IsValue width value) (rest : List Char) :
    takeField key width (field key value ++ rest) = .ok (value, rest) :=
  takeField_eq_ok_iff.mpr ⟨rfl, h.isReadable⟩

theorem isAsciiText_field {key : String} {value : List Char}
    (hkey : IsAsciiText key.toList) (hvalue : IsAsciiText value) :
    IsAsciiText (field key value) := by
  have hcolon : IsAsciiText [':'] := by simp [IsAsciiText]
  have hend : IsAsciiText [';'] := by simp [IsAsciiText]
  exact (hkey.append (hcolon.append hvalue)).append hend

theorem length_field_le (key : String) {width : Nat} {value : List Char}
    (h : IsValue width value) :
    (field key value).length ≤ key.toList.length + width + 2 := by
  have := h.fits
  simp [field]
  omega

theorem frameChars_fields {first second third : List Char} (hfirst : IsAsciiText first)
    (hsecond : IsAsciiText second) (hthird : IsAsciiText third)
    (hlength : first.length + second.length + third.length ≤ maxFrameLength) :
    frameChars (ofChars (first ++ second ++ third)) =
      .ok (first ++ (second ++ third)) := by
  rw [List.append_assoc]
  apply frameChars_ofChars (hfirst.append (hsecond.append hthird))
  simp only [List.length_append]
  omega

/-! ## Numbers in fields -/

theorem isValue_write (number : Float) : IsValue numberWidth (Number.write number) where
  nonempty := Number.write_ne_nil number
  fits := (Number.length_write_le number).trans (by decide)
  chars c hc := isValueChar_of_isNumberChar (List.all_eq_true.mp (Number.all_write number) c hc)

theorem numberOfField_write (number : Float) :
    numberOfField (Number.write number) = .ok number := by
  rw [numberOfField, Number.read?_write]

end RemoteCalc.Wire
