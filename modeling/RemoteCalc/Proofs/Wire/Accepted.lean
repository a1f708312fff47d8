import RemoteCalc.Proofs.Wire.Boundary

/-!
# What a request may look like

A request is read from its three fields in their order, with operands in any spelling
and blanks behind the last field.  Nothing else is read as a request, so that the blanks
can be cut off and the rest is a frame that is found where it ends.
-/

namespace RemoteCalc.Wire

open Text

theorem bind_eq_ok_iff {ε α β : Type} {action : Except ε α} {next : α → Except ε β}
    {result : β} :
    action >>= next = .ok result ↔ ∃ value, action = .ok value ∧
      next value = .ok result := by
  cases action <;> simp [bind, Except.bind]

/-! ## Bytes and characters -/

@[simp] theorem toUInt8_ofUInt8 (b : UInt8) : (Char.ofUInt8 b).toUInt8 = b := by
  simp [Char.ofUInt8, Char.toUInt8]

theorem ofUInt8_eq_iff {b : UInt8} {c : Char} (h : c.toNat < 128) :
    Char.ofUInt8 b = c ↔ b = c.toUInt8 := by
  constructor
  · rintro rfl
    rw [toUInt8_ofUInt8]
  · rintro rfl
    exact ofUInt8_toUInt8 h

/-- Space, tab, line feed, form feed and carriage return, and no other byte. -/
theorem isBlankByte_iff {b : UInt8} :
    isBlankByte b = true ↔ b ∈ [0x20, 0x09, 0x0a, 0x0c, 0x0d] := by
  simp only [isBlankByte, isAsciiBlank, Bool.or_eq_true, beq_iff_eq, List.mem_cons,
    List.not_mem_nil, or_false, or_assoc]
  rw [ofUInt8_eq_iff (by decide), ofUInt8_eq_iff (by decide), ofUInt8_eq_iff (by decide),
    ofUInt8_eq_iff (by decide), ofUInt8_eq_iff (by decide)]
  rfl

theorem frameChars_eq_ok_iff {frame : Bytes} {cs : List Char} :
    frameChars frame = .ok cs ↔
      frame.length ≤ maxFrameLength ∧ IsAsciiText cs ∧ frame = ofChars cs := by
  constructor
  · intro h
    rw [frameChars] at h
    split_ifs at h with hlong hall
    cases h
    refine ⟨Nat.not_lt.mp hlong, ?_, ?_⟩
    · intro c hc
      obtain ⟨b, hb, rfl⟩ := List.mem_map.mp hc
      have hascii := List.all_eq_true.mp hall b hb
      rw [isAscii, decide_eq_true_eq, UInt8.lt_iff_toNat_lt] at hascii
      exact hascii
    · have hid : ∀ b ∈ frame, (Char.toUInt8 ∘ Char.ofUInt8) b = id b := fun b _ =>
        toUInt8_ofUInt8 b
      rw [ofChars, List.map_map, List.map_congr_left hid, List.map_id]
  · rintro ⟨hlength, hascii, rfl⟩
    rw [ofChars, List.length_map] at hlength
    exact frameChars_ofChars hascii hlength

theorem finish_eq_ok_iff {rest : List Char} {done : Unit} :
    finish rest = .ok done ↔ ∀ c ∈ rest, isAsciiBlank c = true := by
  rw [finish, ← List.all_eq_true]
  split_ifs with hblank <;> simp [hblank]

theorem numberOfField_eq_ok_iff {value : List Char} {number : Float} :
    numberOfField value = .ok number ↔ Number.read? value = some number := by
  rw [numberOfField]
  cases Number.read? value <;> simp

theorem ofCode?_eq_some_iff {code : String} {operation : Operation} :
    Operation.ofCode? code = some operation ↔ code = operation.code := by
  constructor
  · intro h
    unfold Operation.ofCode? at h
    split at h <;> cases h <;> rfl
  · rintro rfl
    exact Operation.ofCode?_code operation

theorem operationOfCode_eq_ok_iff {code : String} {operation : Operation} :
    operationOfCode code = .ok operation ↔ code = operation.code := by
  rw [operationOfCode, ← ofCode?_eq_some_iff]
  cases Operation.ofCode? code <;> simp

/-! ## Requests -/

/-- A field may hold this text for this number. -/
structure Spells (number : Float) (text : List Char) : Prop where
  readable : IsReadable numberWidth text
  value : Number.read? text = some number

namespace Request

def text (request : Request) (lhs rhs : List Char) : List Char :=
  field "OP" request.operation.code.toList ++ field "OP1" lhs ++ field "OP2" rhs

theorem decode_eq_ok_iff {frame : Bytes} {request : Request} :
    decode frame = .ok request ↔
      frame.length ≤ maxFrameLength ∧ ∃ lhs rhs blanks, Spells request.lhs lhs ∧
        Spells request.rhs rhs ∧ (∀ c ∈ blanks, isAsciiBlank c = true) ∧
          IsAsciiText (request.text lhs rhs ++ blanks) ∧
            frame = ofChars (request.text lhs rhs ++ blanks) := by
  simp only [decode, bind_eq_ok_iff, Prod.exists, frameChars_eq_ok_iff,
    takeField_eq_ok_iff,
    operationOfCode_eq_ok_iff, numberOfField_eq_ok_iff, finish_eq_ok_iff,
    pure, Except.pure, Except.ok.injEq]
  constructor
  · rintro ⟨cs, ⟨hlength, hascii, rfl⟩, code, _, ⟨rfl, hcode⟩, operation, hoperation, lhs, _,
      ⟨rfl, hlhs⟩, left, hleft, rhs, blanks, ⟨rfl, hrhs⟩, right,
      hright, -, hblanks, rfl⟩
    have hcodeText : code = operation.code.toList := by
      rw [← hoperation, String.toList_ofList]
    have hassoc : text ⟨operation, left, right⟩ lhs rhs ++ blanks =
        field "OP" code ++ (field "OP1" lhs ++ (field "OP2" rhs ++ blanks)) := by
      simp [text, hcodeText]
    exact ⟨hlength, lhs, rhs, blanks, ⟨hlhs, hleft⟩, ⟨hrhs, hright⟩, hblanks,
      hassoc ▸ hascii, congrArg ofChars hassoc.symm⟩
  · rintro ⟨hlength, lhs, rhs, blanks, hlhs, hrhs, hblanks, hascii, rfl⟩
    refine ⟨_, ⟨hlength, hascii, rfl⟩, _, _,
      ⟨?_, (isValue_code request.operation).isReadable⟩,
      request.operation, String.ofList_toList, lhs, _, ⟨rfl, hlhs.readable⟩,
      request.lhs,
      hlhs.value, rhs, blanks, ⟨rfl, hrhs.readable⟩, request.rhs, hrhs.value, (),
      hblanks, rfl⟩
    simp [text]

private theorem frameLength?_text {request : Request} {lhs rhs : List Char}
    (hlhs : IsReadable numberWidth lhs) (hrhs : IsReadable numberWidth rhs)
    (hascii : IsAsciiText (request.text lhs rhs)) :
    frameLength? (ofChars (request.text lhs rhs)) =
      some (ofChars (request.text lhs rhs)).length := by
  have hlhsAscii : IsAsciiText lhs := fun c hc => hascii c (by simp [text, field, hc])
  have hrhsAscii : IsAsciiText rhs := fun c hc => hascii c (by simp [text, field, hc])
  apply frameLength?_terminated
  · exact (isValue_code request.operation).isTerminated (by decide)
  · exact isTerminated_field (by decide) hlhsAscii hlhs
  · exact isTerminated_field (by decide) hrhsAscii hrhs

theorem exists_frame_of_decode {bytes : Bytes} {request : Request}
    (h : decode bytes = .ok request) :
    ∃ frame blanks, bytes = frame ++ blanks ∧ (∀ b ∈ blanks, isBlankByte b = true) ∧
      decode frame = .ok request ∧ frameLength? frame = some frame.length ∧
        StopsAt isBlankByte frame := by
  obtain ⟨hlength, lhs, rhs, blanks, hlhs, hrhs, hblanks, hascii, rfl⟩ :=
    decode_eq_ok_iff.mp h
  have hsplit : ofChars (request.text lhs rhs ++ blanks) =
      ofChars (request.text lhs rhs) ++ ofChars blanks := List.map_append
  have htext : IsAsciiText (request.text lhs rhs) := fun c hc =>
    hascii c (List.mem_append_left _ hc)
  refine ⟨_, _, hsplit, ?_, ?_,
    frameLength?_text hlhs.readable hrhs.readable htext, rfl⟩
  · intro b hb
    obtain ⟨c, hc, rfl⟩ := List.mem_map.mp hb
    rw [isBlankByte, ofUInt8_toUInt8 (hascii c (List.mem_append_right _ hc))]
    exact hblanks c hc
  · rw [hsplit, List.length_append] at hlength
    have hbare : request.text lhs rhs ++ [] = request.text lhs rhs := List.append_nil _
    exact decode_eq_ok_iff.mpr
      ⟨by omega, lhs, rhs, [], hlhs, hrhs, List.forall_mem_nil _, hbare.symm ▸ htext,
      by rw [hbare]⟩

end Request

end RemoteCalc.Wire
