import RemoteCalc.Proofs.Number.Grammar
import RemoteCalc.Proofs.Wire.Accepted
import RemoteCalc.Wire.Response

/-!
# The grammar of frames

A frame is read as a request or as a response exactly if its bytes have the form of one,
field by field.  All other bytes are a malformed frame, with a fault that is about the
frame as a whole or about one of its fields.
-/

namespace RemoteCalc.Wire

open Text

/-! ## Bytes of fields -/

def bytesOf (text : String) : Bytes := ofChars text.toList

def chars (bytes : Bytes) : List Char := bytes.map Char.ofUInt8

structure IsFieldValue (width : Nat) (bytes : Bytes) : Prop where
  some : 1 ≤ bytes.length
  fits : bytes.length ≤ width
  unended : terminator ∉ bytes

structure IsNumberValue (bytes : Bytes) (number : Float) : Prop
    extends IsFieldValue numberWidth bytes where
  number : Number.IsNumber (chars bytes) number

structure IsPlain (bytes : Bytes) : Prop where
  short : bytes.length ≤ maxFrameLength
  ascii : ∀ b ∈ bytes, isAscii b = true

theorem ofChars_chars (bytes : Bytes) : ofChars (chars bytes) = bytes := by
  simp [ofChars, chars, Function.comp_def, toUInt8_ofUInt8]

private theorem isAsciiText_chars {bytes : Bytes} (h : ∀ b ∈ bytes, isAscii b = true) :
    IsAsciiText (chars bytes) := by
  intro c hc
  obtain ⟨b, hb, rfl⟩ := List.mem_map.mp hc
  have hascii := h b hb
  rw [isAscii, decide_eq_true_eq, UInt8.lt_iff_toNat_lt] at hascii
  exact hascii

private theorem chars_inj {first second : Bytes} :
    chars first = chars second ↔ first = second := by
  constructor
  · intro h
    rw [← ofChars_chars first, h, ofChars_chars]
  · exact congrArg chars

@[simp] theorem chars_append (first second : Bytes) :
    chars (first ++ second) = chars first ++ chars second :=
  List.map_append

theorem chars_ofChars {cs : List Char} (h : IsAsciiText cs) : chars (ofChars cs) = cs :=
  map_ofUInt8_ofChars h

private theorem chars_bytesOf {text : String} (h : IsAsciiText text.toList) :
    chars (bytesOf text) = text.toList :=
  chars_ofChars h

theorem end_mem_chars_iff {bytes : Bytes} : ';' ∈ chars bytes ↔ terminator ∈ bytes := by
  constructor
  · intro h
    obtain ⟨b, hb, hend⟩ := List.mem_map.mp h
    have hbyte : b = terminator := by
      rw [← toUInt8_ofUInt8 b, hend]
      rfl
    exact hbyte ▸ hb
  · exact fun h => List.mem_map.mpr ⟨terminator, h, rfl⟩

theorem isFieldValue_iff {width : Nat} {bytes : Bytes} :
    IsFieldValue width bytes ↔ IsReadable width (chars bytes) := by
  constructor
  · rintro ⟨hsome, hfits, hunended⟩
    refine ⟨?_, by simpa [chars] using hfits, mt end_mem_chars_iff.mp hunended⟩
    rintro hnone
    simp [List.map_eq_nil_iff.mp hnone] at hsome
  · rintro ⟨hsome, hfits, hunended⟩
    refine ⟨?_, by simpa [chars] using hfits, mt end_mem_chars_iff.mpr hunended⟩
    exact List.length_pos_iff.mpr fun hnone => hsome (List.map_eq_nil_iff.mpr hnone)

theorem isNumberValue_iff {bytes : Bytes} {number : Float} :
    IsNumberValue bytes number ↔ Spells number (chars bytes) := by
  constructor
  · rintro ⟨hvalue, hnumber⟩
    exact ⟨isFieldValue_iff.mp hvalue, Number.read?_eq_some_iff.mpr hnumber⟩
  · rintro ⟨hreadable, hread⟩
    exact ⟨isFieldValue_iff.mpr hreadable, Number.read?_eq_some_iff.mp hread⟩

theorem blank_chars_iff {bytes : Bytes} :
    (∀ c ∈ chars bytes, isAsciiBlank c = true) ↔ ∀ b ∈ bytes, isBlankByte b = true := by
  simp [chars, isBlankByte]

/-! ## Faults -/

/-- The faults that a frame can be found to have when it is read by these fields. -/
inductive IsFoundIn (frame : Bytes) (fields : List (String × Nat)) : FrameFault → Prop
  | tooLong (h : maxFrameLength < frame.length) : IsFoundIn frame fields (.tooLong frame.length)
  | notAscii (h : ∃ b ∈ frame, isAscii b = false) : IsFoundIn frame fields .notAscii
  | expected {key : String} {width : Nat} (h : (key, width) ∈ fields) :
      IsFoundIn frame fields (.expectedField key)
  | unterminated {key : String} {width : Nat} (h : (key, width) ∈ fields) :
      IsFoundIn frame fields (.unterminatedField key)
  | empty {key : String} {width : Nat} (h : (key, width) ∈ fields) :
      IsFoundIn frame fields (.emptyField key)
  | long {key : String} {width : Nat} (h : (key, width) ∈ fields) :
      IsFoundIn frame fields (.longField key width)
  | unknownOperation (code : String) (h : ("OP", Request.codeWidth) ∈ fields) :
      IsFoundIn frame fields (.unknownOperation code)
  | invalidNumber (text : String) : IsFoundIn frame fields (.invalidNumber text)
  | trailingBytes : IsFoundIn frame fields .trailingBytes

section Faults

variable {ε α β : Type} {p : ε → Prop}

def FailsOnly (p : ε → Prop) (action : Except ε α) : Prop :=
  ∀ fault, action = .error fault → p fault

theorem FailsOnly.ok (value : α) : FailsOnly p (.ok value : Except ε α) := nofun

theorem FailsOnly.bind {action : Except ε α} {next : α → Except ε β}
    (h : FailsOnly p action)
    (hnext : ∀ value, FailsOnly p (next value)) : FailsOnly p (action >>= next) := by
  cases action with
  | error fault =>
      intro _ hfault
      cases hfault
      exact h fault rfl
  | ok value => exact hnext value

private theorem FailsOnly.ok_or_error {action : Except ε α} (h : FailsOnly p action)
    {q : α → Prop} (hok : ∀ {value}, action = .ok value ↔ q value) :
    (∃ value, q value) ∨ ∃ fault, action = .error fault ∧ p fault := by
  cases haction : action with
  | ok value => exact .inl ⟨value, hok.mp haction⟩
  | error fault => exact .inr ⟨fault, rfl, h fault haction⟩

end Faults

variable {frame : Bytes} {fields : List (String × Nat)}

private theorem frameChars_failsOnly :
    FailsOnly (IsFoundIn frame fields) (frameChars frame) := by
  intro fault h
  rw [frameChars] at h
  split_ifs at h with hlong hascii <;> cases h
  · exact .tooLong hlong
  · exact .notAscii (by simpa using hascii)

private theorem takeField_failsOnly {key : String} {width : Nat}
    (hfield : (key, width) ∈ fields)
    (text : List Char) : FailsOnly (IsFoundIn frame fields) (takeField key width text) := by
  intro fault h
  simp only [takeField] at h
  split at h
  · cases h
    exact .expected hfield
  · split at h
    · cases h
      exact .unterminated hfield
    · split_ifs at h <;> cases h
      · exact .empty hfield
      · exact .long hfield

private theorem numberOfField_failsOnly (value : List Char) :
    FailsOnly (IsFoundIn frame fields) (numberOfField value) := by
  intro fault h
  rw [numberOfField] at h
  split at h <;> cases h
  exact .invalidNumber _

private theorem operationOfCode_failsOnly (hfield : ("OP", Request.codeWidth) ∈ fields)
    (code : String) :
    FailsOnly (IsFoundIn frame fields) (operationOfCode code) := by
  intro fault h
  rw [operationOfCode] at h
  split at h <;> cases h
  exact .unknownOperation _ hfield

private theorem finish_failsOnly (rest : List Char) :
    FailsOnly (IsFoundIn frame fields) (finish rest) := by
  intro fault h
  rw [finish] at h
  split_ifs at h
  cases h
  exact .trailingBytes

/-! ## Frames of three fields -/

theorem exists_text_iff (frame : Bytes) (first second third : String)
    (values : List Char → List Char → List Char → Prop) :
    (frame.length ≤ maxFrameLength ∧ ∃ a b c blanks, values a b c ∧
        (∀ blank ∈ blanks, isAsciiBlank blank = true) ∧
          IsAsciiText (field first a ++ field second b ++ field third c ++ blanks) ∧
            frame = ofChars (field first a ++ field second b ++ field third c ++ blanks)) ↔
      IsPlain frame ∧ ∃ a b c blanks : Bytes, values (chars a) (chars b) (chars c) ∧
        (∀ blank ∈ blanks, isBlankByte blank = true) ∧
          chars frame = field first (chars a) ++ field second (chars b) ++
            field third (chars c) ++ chars blanks := by
  constructor
  · rintro ⟨hshort, a, b, c, blanks, hvalues, hblanks, hascii, rfl⟩
    -- Characters beyond ASCII would not come back from their bytes, so each part has to be ASCII.
    have ha : chars (ofChars a) = a :=
      chars_ofChars fun d hd => hascii d (by simp [field, hd])
    have hb : chars (ofChars b) = b :=
      chars_ofChars fun d hd => hascii d (by simp [field, hd])
    have hc : chars (ofChars c) = c :=
      chars_ofChars fun d hd => hascii d (by simp [field, hd])
    have hrest : chars (ofChars blanks) = blanks :=
      chars_ofChars fun d hd => hascii d (by simp [hd])
    refine ⟨⟨hshort, isAscii_of_mem_ofChars hascii⟩, ofChars a, ofChars b, ofChars c,
      ofChars blanks, ?_, blank_chars_iff.mp ?_, ?_⟩
    · rwa [ha, hb, hc]
    · rwa [hrest]
    · rw [chars_ofChars hascii, ha, hb, hc, hrest]
  · rintro ⟨⟨hshort, hascii⟩, a, b, c, blanks, hvalues, hblanks, hframe⟩
    refine ⟨hshort, _, _, _, _, hvalues, blank_chars_iff.mpr hblanks, ?_, ?_⟩
    · exact hframe ▸ isAsciiText_chars hascii
    · rw [← hframe, ofChars_chars]

/-! ## Requests -/

namespace Request

/-- The bytes of a request, with its operands in any spelling and blanks behind it. -/
def IsSpelled (request : Request) (frame : Bytes) : Prop :=
  IsPlain frame ∧ ∃ lhs rhs blanks : Bytes,
    frame = bytesOf "OP:" ++ bytesOf request.operation.code ++ bytesOf ";OP1:" ++ lhs ++
      bytesOf ";OP2:" ++ rhs ++ bytesOf ";" ++ blanks ∧
    IsNumberValue lhs request.lhs ∧ IsNumberValue rhs request.rhs ∧
    ∀ b ∈ blanks, isBlankByte b = true

def fieldWidths : List (String × Nat) :=
  [("OP", codeWidth), ("OP1", numberWidth), ("OP2", numberWidth)]

private theorem chars_code (operation : Operation) :
    chars (bytesOf operation.code) = operation.code.toList :=
  chars_bytesOf (isValue_code operation).isAsciiText

theorem decode_eq_ok_iff_isSpelled {frame : Bytes} {request : Request} :
    decode frame = .ok request ↔ request.IsSpelled frame := by
  have htext (lhs rhs blanks : Bytes) :
      chars (bytesOf "OP:" ++ bytesOf request.operation.code ++ bytesOf ";OP1:" ++ lhs ++
        bytesOf ";OP2:" ++ rhs ++ bytesOf ";" ++ blanks) =
      request.text (chars lhs) (chars rhs) ++ chars blanks := by
    simp [chars_code, text, field]
    rfl
  have htexts := exists_text_iff frame "OP" "OP1" "OP2" fun code lhs rhs =>
    code = request.operation.code.toList ∧ Spells request.lhs lhs ∧
      Spells request.rhs rhs
  rw [decode_eq_ok_iff]
  constructor
  · rintro ⟨hshort, lhs, rhs, blanks, hlhs, hrhs, hblanks, hascii, hframe⟩
    obtain ⟨hplain, code, lhs, rhs, blanks, ⟨hcode, hlhs, hrhs⟩, hblanks, hframe⟩ :=
      htexts.mp ⟨hshort, _, lhs, rhs, blanks, ⟨rfl, hlhs, hrhs⟩, hblanks, hascii, hframe⟩
    refine ⟨hplain, lhs, rhs, blanks, chars_inj.mp ?_, isNumberValue_iff.mpr hlhs,
      isNumberValue_iff.mpr hrhs, hblanks⟩
    rw [hframe, htext, text, hcode]
  · rintro ⟨hplain, lhs, rhs, blanks, hframe, hlhs, hrhs, hblanks⟩
    obtain ⟨hshort, _, lhs, rhs, blanks, ⟨rfl, hlhs, hrhs⟩, hblanks, hascii, hframe⟩ :=
      htexts.mpr ⟨hplain, bytesOf request.operation.code, lhs, rhs, blanks,
        ⟨chars_code _, isNumberValue_iff.mp hlhs, isNumberValue_iff.mp hrhs⟩,
        hblanks, by
          rw [hframe, htext, text, chars_code]⟩
    exact ⟨hshort, lhs, rhs, blanks, hlhs, hrhs, hblanks, hascii, hframe⟩

theorem decode_failsOnly (frame : Bytes) :
    FailsOnly (IsFoundIn frame fieldWidths) (decode frame) := by
  refine frameChars_failsOnly.bind fun text => ?_
  refine (takeField_failsOnly (by decide) text).bind fun (code, text) => ?_
  refine (operationOfCode_failsOnly (by decide) _).bind fun operation => ?_
  refine (takeField_failsOnly (by decide) text).bind fun (lhs, text) => ?_
  refine (numberOfField_failsOnly lhs).bind fun lhs => ?_
  refine (takeField_failsOnly (by decide) text).bind fun (rhs, text) => ?_
  refine (numberOfField_failsOnly rhs).bind fun rhs => ?_
  exact (finish_failsOnly text).bind fun _ => .ok _

/-- Every frame is read as the request that it spells, or found to be malformed. -/
theorem decode_request_grammar (frame : Bytes) :
    (∀ request, decode frame = .ok request ↔ request.IsSpelled frame) ∧
      ((∃ request : Request, request.IsSpelled frame) ∨
        ∃ fault, decode frame = .error fault ∧ IsFoundIn frame fieldWidths fault) :=
  ⟨fun _ => decode_eq_ok_iff_isSpelled,
    (decode_failsOnly frame).ok_or_error decode_eq_ok_iff_isSpelled⟩

end Request

/-! ## Responses -/

namespace Response

/-- The bytes of a response as a server may send it, with blanks behind it. -/
def IsSpelled (response : Response) (frame : Bytes) : Prop :=
  IsPlain frame ∧ ∃ result error tag blanks : Bytes,
    frame = bytesOf "RES:" ++ result ++ bytesOf ";ERR:" ++ error ++ bytesOf ";STYPE:" ++ tag ++
      bytesOf ";" ++ blanks ∧
    IsNumberValue result response.result ∧
    (IsFieldValue errorWidth error ∧ response.error =
      if error = bytesOf "NULL" then none else some (String.ofList (chars error))) ∧
    (IsFieldValue tagWidth tag ∧ response.tag = String.ofList (chars tag)) ∧
    ∀ b ∈ blanks, isBlankByte b = true

def fieldWidths : List (String × Nat) :=
  [("RES", numberWidth), ("ERR", errorWidth), ("STYPE", tagWidth)]

def text (result error tag : List Char) : List Char :=
  field "RES" result ++ field "ERR" error ++ field "STYPE" tag

theorem decode_eq_ok_iff {frame : Bytes} {response : Response} :
    decode frame = .ok response ↔
      frame.length ≤ maxFrameLength ∧ ∃ result error tag blanks,
        (Spells response.result result ∧
          (IsReadable errorWidth error ∧ response.error = errorOfField error) ∧
            IsReadable tagWidth tag ∧ response.tag = String.ofList tag) ∧
          (∀ c ∈ blanks, isAsciiBlank c = true) ∧
            IsAsciiText (text result error tag ++ blanks) ∧
              frame = ofChars (text result error tag ++ blanks) := by
  simp only [decode, bind_eq_ok_iff, Prod.exists, frameChars_eq_ok_iff,
    takeField_eq_ok_iff, numberOfField_eq_ok_iff, finish_eq_ok_iff, pure, Except.pure,
    Except.ok.injEq]
  constructor
  · rintro ⟨cs, ⟨hshort, hascii, rfl⟩, result, _, ⟨rfl, hresult⟩, number, hnumber, error, _,
      ⟨rfl, herror⟩, tag, blanks, ⟨rfl, htag⟩, -, hblanks, rfl⟩
    refine ⟨hshort, result, error, tag, blanks,
      ⟨⟨hresult, hnumber⟩, ⟨herror, rfl⟩, htag, rfl⟩, hblanks, ?_⟩
    simpa [text] using hascii
  · rintro ⟨hshort, result, error, tag, blanks, ⟨hresult, ⟨herror, herrorText⟩, htag, htagText⟩,
      hblanks, hascii, rfl⟩
    refine ⟨_, ⟨hshort, hascii, rfl⟩, result, _, ⟨?_, hresult.readable⟩,
      response.result, hresult.value, error, _, ⟨rfl, herror⟩, tag, blanks, ⟨rfl, htag⟩,
      (), hblanks, ?_⟩
    · simp [text]
    · rw [← herrorText, ← htagText]

theorem decode_failsOnly (frame : Bytes) :
    FailsOnly (IsFoundIn frame fieldWidths) (decode frame) := by
  refine frameChars_failsOnly.bind fun text => ?_
  refine (takeField_failsOnly (by decide) text).bind fun (result, text) => ?_
  refine (numberOfField_failsOnly result).bind fun result => ?_
  refine (takeField_failsOnly (by decide) text).bind fun (error, text) => ?_
  refine (takeField_failsOnly (by decide) text).bind fun (tag, text) => ?_
  exact (finish_failsOnly text).bind fun _ => .ok _

private theorem errorOfField_chars (error : Bytes) :
    errorOfField (chars error) =
      if error = bytesOf "NULL" then none else some (String.ofList (chars error)) := by
  have hnone : noError = chars (bytesOf "NULL") := rfl
  simp only [errorOfField, hnone, chars_inj]

theorem decode_eq_ok_iff_isSpelled {frame : Bytes} {response : Response} :
    decode frame = .ok response ↔ response.IsSpelled frame := by
  have htext (result error tag blanks : Bytes) :
      chars (bytesOf "RES:" ++ result ++ bytesOf ";ERR:" ++ error ++ bytesOf ";STYPE:" ++ tag ++
        bytesOf ";" ++ blanks) =
      text (chars result) (chars error) (chars tag) ++ chars blanks := by
    simp [text, field]
    rfl
  have htexts := exists_text_iff frame "RES" "ERR" "STYPE" fun result error tag =>
    Spells response.result result ∧
      (IsReadable errorWidth error ∧ response.error = errorOfField error) ∧
        IsReadable tagWidth tag ∧ response.tag = String.ofList tag
  refine decode_eq_ok_iff.trans (htexts.trans (and_congr_right fun _ => ?_))
  constructor
  · rintro ⟨result, error, tag, blanks, ⟨hresult, herror, htag⟩, hblanks, hframe⟩
    rw [← isFieldValue_iff, errorOfField_chars] at herror
    rw [← isFieldValue_iff] at htag
    exact ⟨result, error, tag, blanks, chars_inj.mp (hframe.trans (htext _ _ _ _).symm),
      isNumberValue_iff.mpr hresult, herror, htag, hblanks⟩
  · rintro ⟨result, error, tag, blanks, rfl, hresult, herror, htag, hblanks⟩
    rw [isFieldValue_iff, ← errorOfField_chars] at herror
    rw [isFieldValue_iff] at htag
    exact ⟨result, error, tag, blanks, ⟨isNumberValue_iff.mp hresult, herror, htag⟩,
      hblanks, htext _ _ _ _⟩

/-- Every frame is read as the response that it spells, or found to be malformed. -/
theorem decode_response_grammar (frame : Bytes) :
    (∀ response, decode frame = .ok response ↔ response.IsSpelled frame) ∧
      ((∃ response : Response, response.IsSpelled frame) ∨
        ∃ fault, decode frame = .error fault ∧ IsFoundIn frame fieldWidths fault) :=
  ⟨fun _ => decode_eq_ok_iff_isSpelled,
    (decode_failsOnly frame).ok_or_error decode_eq_ok_iff_isSpelled⟩

end Response

end RemoteCalc.Wire
