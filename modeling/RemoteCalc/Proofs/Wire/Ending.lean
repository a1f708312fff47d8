import RemoteCalc.Proofs.Wire.Grammar

/-!
# Where a reader finds the end of a frame

The length of a frame is found by counting semicolons, and requests and responses are read
key by key and value by value.  Both put the end in the same place: what is read as a
request or as a response has its length there, and nothing but blanks behind it.  The
blanks can be cut off, and others put there up to the greatest length of a frame.
-/

namespace RemoteCalc.Wire

open Text

variable {α : Type} {decode : Bytes → Except FrameFault α}

private theorem ofChars_append (first second : List Char) :
    ofChars (first ++ second) = ofChars first ++ ofChars second :=
  List.map_append

/-! ## Frames of three fields -/

/--
What is read are three fields in their order, with texts that make up the value, and blanks
behind the last field.
-/
structure ReadsFields (decode : Bytes → Except FrameFault α)
    (first second third : String)
    (Values : α → List Char → List Char → List Char → Prop) : Prop where
  keys : ∀ key ∈ [first, second, third], key.toList.all isValueChar = true
  readable : ∀ {value a b c}, Values value a b c →
    ∀ text ∈ [a, b, c], ∃ width, IsReadable width text
  decode_eq_ok_iff : ∀ {frame value}, decode frame = .ok value ↔
    frame.length ≤ maxFrameLength ∧ ∃ a b c blanks, Values value a b c ∧
      (∀ blank ∈ blanks, isAsciiBlank blank = true) ∧
        IsAsciiText (field first a ++ field second b ++ field third c ++ blanks) ∧
          frame = ofChars (field first a ++ field second b ++ field third c ++ blanks)

section Fields

variable {first second third : String}
  {Values : α → List Char → List Char → List Char → Prop}

private theorem ReadsFields.frameLength?_fields
    (h : ReadsFields decode first second third Values)
    {value : α} {a b c : List Char} (hvalues : Values value a b c)
    (hascii : IsAsciiText (field first a ++ field second b ++ field third c)) :
    frameLength? (ofChars (field first a ++ field second b ++ field third c)) =
      some (ofChars (field first a ++ field second b ++ field third c)).length := by
  have hterminated {key : String} {text : List Char} (hkey : key ∈ [first, second, third])
      (htext : text ∈ [a, b, c])
      (hfield : field key text <:+: field first a ++ field second b ++ field third c) :
      IsTerminated (field key text) := by
    obtain ⟨width, hreadable⟩ := h.readable hvalues text htext
    refine isTerminated_field (h.keys key hkey) ?_ hreadable
    exact fun d hd => hascii d (hfield.subset (by simp [field, hd]))
  apply frameLength?_terminated
  · exact hterminated (by simp) (by simp) ⟨[], field second b ++ field third c, by simp⟩
  · exact hterminated (by simp) (by simp) ⟨field first a, field third c, rfl⟩
  · exact hterminated (by simp) (by simp) ⟨field first a ++ field second b, [], by simp⟩

private theorem ReadsFields.exists_frame
    (h : ReadsFields decode first second third Values)
    {bytes : Bytes} {value : α} (hread : decode bytes = .ok value) :
    ∃ frame blanks, bytes = frame ++ blanks ∧ (∀ b ∈ blanks, isBlankByte b = true) ∧
      frameLength? frame = some frame.length ∧ decode frame = .ok value := by
  obtain ⟨hshort, a, b, c, blanks, hvalues, hblanks, hascii, rfl⟩ :=
    h.decode_eq_ok_iff.mp hread
  obtain ⟨hfields, hrest⟩ : IsAsciiText (field first a ++ field second b ++ field third c) ∧
      IsAsciiText blanks := List.forall_mem_append.mp hascii
  refine ⟨_, _, ofChars_append _ blanks, ?_, h.frameLength?_fields hvalues hfields, ?_⟩
  · apply blank_chars_iff.mp
    rwa [chars_ofChars hrest]
  · rw [ofChars_append, List.length_append] at hshort
    exact h.decode_eq_ok_iff.mpr
      ⟨by omega, a, b, c, [], hvalues, by simp, by simpa using hfields,
      by simp⟩

theorem ReadsFields.length_le (h : ReadsFields decode first second third Values)
    {bytes : Bytes} {value : α} (hread : decode bytes = .ok value) :
    bytes.length ≤ maxFrameLength :=
  (h.decode_eq_ok_iff.mp hread).1

private theorem ReadsFields.decode_append
    (h : ReadsFields decode first second third Values)
    {bytes more : Bytes} {value : α} (hread : decode bytes = .ok value)
    (hmore : ∀ b ∈ more, isBlankByte b = true)
    (hshort : (bytes ++ more).length ≤ maxFrameLength) :
    decode (bytes ++ more) = .ok value := by
  obtain ⟨-, a, b, c, blanks, hvalues, hblanks, hascii, rfl⟩ :=
    h.decode_eq_ok_iff.mp hread
  have hchars : ∀ blank ∈ chars more, isAsciiBlank blank = true :=
    blank_chars_iff.mpr hmore
  have hplain : IsAsciiText (chars more) := by
    intro blank hblank
    have := hchars blank hblank
    simp only [isAsciiBlank, Bool.or_eq_true, beq_iff_eq] at this
    rcases this with (((rfl | rfl) | rfl) | rfl) | rfl <;> decide
  refine h.decode_eq_ok_iff.mpr ⟨hshort, a, b, c, blanks ++ chars more, hvalues,
    List.forall_mem_append.mpr ⟨hblanks, hchars⟩, ?_, ?_⟩
  · rw [← List.append_assoc]
    exact hascii.append hplain
  · rw [← List.append_assoc, ofChars_append _ (chars more), ofChars_chars]

private theorem ReadsFields.exists_length
    (h : ReadsFields decode first second third Values)
    {bytes : Bytes} {value : α} (hread : decode bytes = .ok value) :
    ∃ length, frameLength? bytes = some length ∧
      (∀ b ∈ bytes.drop length, isBlankByte b = true) ∧
        decode (bytes.take length) = .ok value := by
  obtain ⟨frame, blanks, rfl, hblanks, hlength, hframe⟩ := h.exists_frame hread
  refine ⟨frame.length, frameLength?_append hlength blanks, ?_, ?_⟩
  · rwa [List.drop_left]
  · rwa [List.take_left]

theorem ReadsFields.decode_append_iff (h : ReadsFields decode first second third Values)
    {frame : Bytes} {value : α} (hread : decode frame = .ok value)
    (hlength : frameLength? frame = some frame.length) (more : Bytes) (other : α) :
    decode (frame ++ more) = .ok other ↔
      other = value ∧ (∀ b ∈ more, isBlankByte b = true) ∧
        frame.length + more.length ≤ maxFrameLength := by
  constructor
  · intro hmore
    have hshort := h.length_le hmore
    rw [List.length_append] at hshort
    obtain ⟨length, hfound, hblanks, hother⟩ := h.exists_length hmore
    -- What follows a frame does not move its end, so the cut gives back the frame alone.
    rw [frameLength?_append hlength] at hfound
    obtain rfl := Option.some.inj hfound
    rw [List.take_left, hread] at hother
    rw [List.drop_left] at hblanks
    exact ⟨(Except.ok.inj hother).symm, hblanks, hshort⟩
  · rintro ⟨rfl, hblanks, hshort⟩
    exact h.decode_append hread hblanks (by rwa [List.length_append])

/-! ## The two places of an end -/

/--
What is read has a length, behind which stand only blanks, and is read as the same when cut
there.  A frame of its own length is read as the same with exactly those bytes behind it
that are blanks and do not make it too long, and with others not at all.
-/
structure EndsAtLength (decode : Bytes → Except FrameFault α) : Prop where
  cut : ∀ {bytes value}, decode bytes = .ok value → ∃ length,
    frameLength? bytes = some length ∧ (∀ b ∈ bytes.drop length, isBlankByte b = true) ∧
      decode (bytes.take length) = .ok value
  followed : ∀ {frame value}, decode frame = .ok value →
    frameLength? frame = some frame.length →
      ∀ more other, decode (frame ++ more) = .ok other ↔
      other = value ∧ (∀ b ∈ more, isBlankByte b = true) ∧
        frame.length + more.length ≤ maxFrameLength

private theorem ReadsFields.endsAtLength
    (h : ReadsFields decode first second third Values) :
    EndsAtLength decode :=
  ⟨h.exists_length, h.decode_append_iff⟩

end Fields

/-! ## Requests and responses -/

theorem Request.readsFields : ReadsFields Request.decode "OP" "OP1" "OP2"
    fun request code lhs rhs => code = request.operation.code.toList ∧
      Spells request.lhs lhs ∧ Spells request.rhs rhs where
  keys := by decide
  readable := by
    rintro request _ lhs rhs ⟨rfl, hlhs, hrhs⟩ text htext
    simp only [List.mem_cons, List.not_mem_nil, or_false] at htext
    rcases htext with rfl | rfl | rfl
    · exact ⟨_, (isValue_code request.operation).isReadable⟩
    · exact ⟨_, hlhs.readable⟩
    · exact ⟨_, hrhs.readable⟩
  decode_eq_ok_iff := by
    intro frame request
    rw [Request.decode_eq_ok_iff]
    refine and_congr_right fun _ => ⟨?_, ?_⟩
    · rintro ⟨lhs, rhs, blanks, hlhs, hrhs, hrest⟩
      exact ⟨_, lhs, rhs, blanks, ⟨rfl, hlhs, hrhs⟩, hrest⟩
    · rintro ⟨_, lhs, rhs, blanks, ⟨rfl, hlhs, hrhs⟩, hrest⟩
      exact ⟨lhs, rhs, blanks, hlhs, hrhs, hrest⟩

theorem Response.readsFields : ReadsFields Response.decode "RES" "ERR" "STYPE"
    fun response result error tag => Spells response.result result ∧
      (IsReadable errorWidth error ∧ response.error = errorOfField error) ∧
        IsReadable tagWidth tag ∧ response.tag = String.ofList tag where
  keys := by decide
  readable := by
    rintro response result error tag ⟨hresult, ⟨herror, -⟩, htag, -⟩ text htext
    simp only [List.mem_cons, List.not_mem_nil, or_false] at htext
    rcases htext with rfl | rfl | rfl
    · exact ⟨_, hresult.readable⟩
    · exact ⟨_, herror⟩
    · exact ⟨_, htag⟩
  decode_eq_ok_iff := Response.decode_eq_ok_iff

/-- The readers of requests and of responses find the end of a frame where its length does. -/
theorem decoders_end_at_length :
    EndsAtLength Request.decode ∧ EndsAtLength Response.decode :=
  ⟨Request.readsFields.endsAtLength, Response.readsFields.endsAtLength⟩

end RemoteCalc.Wire
