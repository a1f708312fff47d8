import RemoteCalc.Proofs.Wire.Field
import RemoteCalc.Wire.Request
import RemoteCalc.Wire.Response

/-!
# Requests and responses through their frames

Every request is read back from its frame unchanged.  A response comes back with its
texts cleaned: whatever they held, they stay within their fields.
-/

namespace RemoteCalc.Wire

/-! ## Requests -/

namespace Request

theorem isValue_code (operation : Operation) :
    IsValue codeWidth operation.code.toList := by
  cases operation <;> exact ⟨by decide, by decide, List.all_eq_true.mp (by decide)⟩

theorem frameChars_encode (request : Request) :
    frameChars request.encode = .ok (field "OP" request.operation.code.toList ++
      (field "OP1" (Number.write request.lhs) ++ field "OP2" (Number.write request.rhs))) := by
  have hcode := isValue_code request.operation
  have hlhs := isValue_write request.lhs
  have hrhs := isValue_write request.rhs
  refine frameChars_fields (isAsciiText_field (by simp [IsAsciiText]) hcode.isAsciiText)
    (isAsciiText_field (by simp [IsAsciiText]) hlhs.isAsciiText)
    (isAsciiText_field (by simp [IsAsciiText]) hrhs.isAsciiText) ?_
  have := length_field_le "OP" hcode
  have := length_field_le "OP1" hlhs
  have := length_field_le "OP2" hrhs
  simp only [codeWidth_eq, numberWidth_eq, maxFrameLength, String.reduceToList,
    List.length_cons, List.length_nil] at *
  omega

theorem decode_encode (request : Request) : decode request.encode = .ok request := by
  have hcode := isValue_code request.operation
  have hlhs := isValue_write request.lhs
  have hrhs := takeField_field "OP2" (isValue_write request.rhs) []
  rw [List.append_nil] at hrhs
  rw [decode, frameChars_encode]
  simp only [bind, Except.bind, takeField_field _ hcode, takeField_field _ hlhs, hrhs,
    operationOfCode, numberOfField_write, String.ofList_toList, Operation.ofCode?_code]
  rfl

end Request

/-! ## Responses -/

namespace Response

private theorem isValueChar_cleanChar (c : Char) :
    isValueChar (cleanChar c) = true := by
  rw [cleanChar]
  split_ifs with hend hplain
  · decide
  · simp [isValueChar, hplain, hend]
  · decide

theorem isValue_clean {width : Nat} {text : String} (hwidth : 0 < width)
    (htext : text ≠ "") :
    IsValue width (clean width text) where
  nonempty := by
    simp [clean, hwidth.ne', htext]
  fits := by
    rw [clean, List.length_take]
    exact Nat.min_le_left _ _
  chars c hc := by
    obtain ⟨source, -, rfl⟩ := List.mem_map.mp (List.mem_of_mem_take hc)
    exact isValueChar_cleanChar source

theorem isValue_errorField (error : Option String) :
    IsValue errorWidth (errorField error) := by
  have hnone : IsValue errorWidth noError :=
    ⟨by decide, by decide, List.all_eq_true.mp (by decide)⟩
  cases error with
  | none => exact hnone
  | some error =>
      rw [errorField]
      split_ifs with h
      · exact hnone
      · exact isValue_clean (by decide) h

theorem isValue_tagField (tag : String) : IsValue tagWidth (tagField tag) := by
  rw [tagField]
  split_ifs with h
  · exact ⟨by decide, by decide, List.all_eq_true.mp (by decide)⟩
  · exact isValue_clean (by decide) h

/-- What a response is read back as. -/
def cleaned (response : Response) : Response :=
  ⟨response.result, errorOfField (errorField response.error),
    String.ofList (tagField response.tag)⟩

theorem frameChars_encode (response : Response) :
    frameChars response.encode = .ok (field "RES" (Number.write response.result) ++
      (field "ERR" (errorField response.error) ++ field "STYPE" (tagField response.tag))) := by
  have hresult := isValue_write response.result
  have herror := isValue_errorField response.error
  have htag := isValue_tagField response.tag
  refine frameChars_fields
    (isAsciiText_field (by simp [IsAsciiText]) hresult.isAsciiText)
    (isAsciiText_field (by simp [IsAsciiText]) herror.isAsciiText)
    (isAsciiText_field (by simp [IsAsciiText]) htag.isAsciiText) ?_
  have := length_field_le "RES" hresult
  have := length_field_le "ERR" herror
  have := length_field_le "STYPE" htag
  simp only [numberWidth_eq, errorWidth_eq, tagWidth_eq, maxFrameLength,
    String.reduceToList, List.length_cons, List.length_nil] at *
  omega

theorem decode_encode (response : Response) :
    decode response.encode = .ok response.cleaned := by
  have hresult := isValue_write response.result
  have herror := isValue_errorField response.error
  have htag := takeField_field "STYPE" (isValue_tagField response.tag) []
  rw [List.append_nil] at htag
  rw [decode, frameChars_encode]
  simp only [bind, Except.bind, takeField_field _ hresult,
    takeField_field _ herror, htag, numberOfField_write]
  rfl

end Response

end RemoteCalc.Wire
