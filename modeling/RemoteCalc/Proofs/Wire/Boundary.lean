import RemoteCalc.Proofs.Wire.Codec
import RemoteCalc.Proofs.Wire.Frame

/-!
# Where an encoded frame ends

Each field of a frame ends with the only semicolon in it, whatever its value is.  Three
fields are therefore found as one frame in every run of bytes that begins with them, and
nothing shorter is taken for it.
-/

namespace RemoteCalc.Wire

/-! ## Terminated texts -/

structure IsTerminated (cs : List Char) : Prop where
  ascii : IsAsciiText cs
  single : cs.count ';' = 1
  ended : cs.getLast? = some ';'

theorem toUInt8_eq_terminator_iff {c : Char} (h : c.toNat < 128) :
    c.toUInt8 = terminator ↔ c = ';' := by
  constructor
  · intro hbyte
    have hchar : Char.ofUInt8 c.toUInt8 = Char.ofUInt8 terminator := by rw [hbyte]
    rwa [ofUInt8_toUInt8 h] at hchar
  · rintro rfl
    rfl

private theorem count_terminator_ofChars {cs : List Char} (h : IsAsciiText cs) :
    (ofChars cs).count terminator = cs.count ';' := by
  induction cs with
  | nil => rfl
  | cons c cs ih =>
      obtain ⟨hc, hcs⟩ := List.forall_mem_cons.mp h
      have hrest := ih hcs
      unfold ofChars at hrest ⊢
      rw [List.map_cons]
      by_cases hend : c = ';'
      · rw [(toUInt8_eq_terminator_iff hc).mpr hend, hend, List.count_cons_self,
          List.count_cons_self, hrest]
      · rw [List.count_cons_of_ne (mt (toUInt8_eq_terminator_iff hc).mp hend),
          List.count_cons_of_ne hend, hrest]

theorem isTerminated_field {key : String} {width : Nat} {value : List Char}
    (hkey : key.toList.all isValueChar = true) (hascii : IsAsciiText value)
    (h : IsReadable width value) : IsTerminated (field key value) := by
  have hkey := List.all_eq_true.mp hkey
  have hkeyAscii : IsAsciiText key.toList := by
    intro c hc
    have := (toNat_of_isValueChar (hkey c hc)).2
    omega
  have hkeyNone : key.toList.count ';' = 0 :=
    List.count_eq_zero.mpr fun hmem => ne_of_isValueChar (hkey _ hmem) rfl
  constructor
  · exact isAsciiText_field hkeyAscii hascii
  · simp [field, hkeyNone, List.count_eq_zero.mpr h.unended]
  · unfold field
    rw [List.getLast?_append]
    rfl

theorem IsValue.isTerminated {key : String} {width : Nat} {value : List Char}
    (h : IsValue width value) (hkey : key.toList.all isValueChar = true) :
    IsTerminated (field key value) :=
  isTerminated_field hkey h.isAsciiText h.isReadable

theorem frameLength?_terminated {first second third : List Char}
    (hfirst : IsTerminated first)
    (hsecond : IsTerminated second) (hthird : IsTerminated third) :
    frameLength? (ofChars (first ++ second ++ third)) =
      some (ofChars (first ++ second ++ third)).length := by
  apply frameLength?_eq_length_iff.mpr
  constructor
  · rw [count_terminator_ofChars ((hfirst.ascii.append hsecond.ascii).append hthird.ascii)]
    simp [hfirst.single, hsecond.single, hthird.single, fieldCount]
  · simp [ofChars, List.getLast?_append, hthird.ended]
    rfl

private theorem frameLength?_eq_none_of_prefix {start frame : Bytes}
    (h : frameLength? frame = some frame.length) (hstart : start <+: frame)
    (hproper : start ≠ frame) : frameLength? start = none := by
  have hshort : start.length < frame.length :=
    lt_of_le_of_ne hstart.length_le fun hlength => hproper (hstart.eq_of_length hlength)
  rw [List.prefix_iff_eq_take.mp hstart, frameLength?_take h,
    if_neg (Nat.not_le.mpr hshort)]

/-! ## Visible bytes -/

/-- A byte that is ASCII and neither a blank nor a control character. -/
def IsVisible (b : UInt8) : Prop := 0x20 < b ∧ b < 0x7f

def isVisibleChar (c : Char) : Bool := isValueChar c && c ≠ ' '

private theorem isVisible_toUInt8 {c : Char} (h : isVisibleChar c = true) :
    IsVisible c.toUInt8 := by
  simp only [isVisibleChar, Bool.and_eq_true, decide_eq_true_eq] at h
  obtain ⟨hlo, hhi⟩ := toNat_of_isValueChar h.1
  have hblank : c.toNat ≠ 32 := fun heq => h.2 (Char.toNat_inj.mp heq)
  have hbyte : c.toUInt8.toNat = c.toNat := by
    have : c.toNat = c.val.toNat := rfl
    simp only [Char.toUInt8, UInt32.toNat_toUInt8]
    omega
  simp only [IsVisible, UInt8.lt_iff_toNat_lt, hbyte]
  constructor
  · change 32 < c.toNat
    omega
  · change c.toNat < 127
    omega

private theorem isVisible_field {key : String} {value : List Char}
    (hkey : key.toList.all isVisibleChar = true)
    (hvalue : value.all isVisibleChar = true) :
    ∀ b ∈ ofChars (field key value), IsVisible b := by
  intro b hb
  obtain ⟨c, hc, rfl⟩ := List.mem_map.mp hb
  simp only [field, List.mem_append, List.mem_cons, List.not_mem_nil, or_false] at hc
  rcases hc with (hc | rfl | hc) | rfl
  · exact isVisible_toUInt8 (List.all_eq_true.mp hkey c hc)
  · exact ⟨by decide, by decide⟩
  · exact isVisible_toUInt8 (List.all_eq_true.mp hvalue c hc)
  · exact ⟨by decide, by decide⟩

private theorem all_isVisibleChar_write (number : Float) :
    (Number.write number).all isVisibleChar = true := by
  apply List.all_eq_true.mpr
  intro c hc
  have hnumber := List.all_eq_true.mp (Number.all_write number) c hc
  have hblank : c ≠ ' ' := by
    rintro rfl
    contradiction
  simp [isVisibleChar, isValueChar_of_isNumberChar hnumber, hblank]

/-! ## Requests -/

namespace Request

theorem frameLength?_encode (request : Request) :
    frameLength? request.encode = some request.encode.length := by
  apply frameLength?_terminated
  · exact (isValue_code request.operation).isTerminated (by decide)
  · exact (isValue_write request.lhs).isTerminated (by decide)
  · exact (isValue_write request.rhs).isTerminated (by decide)

private theorem isVisible_encode (request : Request) :
    ∀ b ∈ request.encode, IsVisible b := by
  have hcode : request.operation.code.toList.all isVisibleChar = true := by
    cases request.operation <;> decide
  intro b hb
  simp only [encode, ofChars, List.map_append, List.mem_append] at hb
  rcases hb with (hb | hb) | hb
  · exact isVisible_field (by decide) hcode b hb
  · exact isVisible_field (by decide) (all_isVisibleChar_write request.lhs) b hb
  · exact isVisible_field (by decide) (all_isVisibleChar_write request.rhs) b hb

/--
A request is read back from its frame with the bits of its operands, the frame is visible
ASCII, and it ends where it is found to end, whatever follows it and not before.
-/
theorem encode_reads_back (request : Request) :
    (∃ decoded, decode request.encode = .ok decoded ∧
      decoded.operation = request.operation ∧
      decoded.lhs.toBits = request.lhs.toBits ∧
      decoded.rhs.toBits = request.rhs.toBits) ∧
    (∀ b ∈ request.encode, IsVisible b) ∧
    (∀ more, frameLength? (request.encode ++ more) = some request.encode.length) ∧
    ∀ start, start <+: request.encode → start ≠ request.encode →
      frameLength? start = none := by
  refine ⟨⟨request, decode_encode request, rfl, rfl, rfl⟩,
    isVisible_encode request, ?_, ?_⟩
  · intro more
    exact frameLength?_append (frameLength?_encode request) more
  · intro start hstart hproper
    exact frameLength?_eq_none_of_prefix (frameLength?_encode request) hstart hproper

end Request

end RemoteCalc.Wire
