import RemoteCalc.Proofs.Service
import RemoteCalc.Proofs.Wire.Accepted

/-!
# Responses in normal form

Encoding brings the texts of a response into a form that they keep from then on: what a
client reads encodes to the frame that it was read from.  No text can disturb another
field.  The only error that is lost is one that says what stands for none.
-/

namespace RemoteCalc

open Wire

def wireError : Option String → Option String
  | none => none
  | some error => if error = "" then none else some (wireText 255 error)

namespace Wire.Response

/-! ## Cleaned texts -/

theorem ofList_ne_empty {value : List Char} (h : value ≠ []) :
    String.ofList value ≠ "" := by
  simpa using h

private theorem cleanChar_of_isValueChar {c : Char} (h : isValueChar c = true) :
    cleanChar c = c := by
  simp only [isValueChar, Bool.and_eq_true, decide_eq_true_eq] at h
  rw [cleanChar, if_neg h.2, if_pos h.1]

private theorem clean_ofList {width : Nat} {value : List Char}
    (h : IsValue width value) :
    clean width (String.ofList value) = value := by
  have hid : ∀ c ∈ value, cleanChar c = id c := fun c hc =>
    cleanChar_of_isValueChar (h.chars c hc)
  rw [clean, String.toList_ofList, List.map_congr_left hid, List.map_id,
    List.take_of_length_le h.fits]

private theorem errorField_errorOfField {value : List Char}
    (h : IsValue errorWidth value) :
    errorField (errorOfField value) = value := by
  rw [errorOfField]
  split_ifs with hnone
  · exact hnone.symm
  · rw [errorField, if_neg (ofList_ne_empty h.nonempty), clean_ofList h]

private theorem tagField_ofList {value : List Char} (h : IsValue tagWidth value) :
    tagField (String.ofList value) = value := by
  rw [tagField, if_neg (ofList_ne_empty h.nonempty), clean_ofList h]

/-- What is read from a frame encodes to that frame. -/
theorem encode_cleaned (response : Response) :
    response.cleaned.encode = response.encode := by
  have herror := errorField_errorOfField (isValue_errorField response.error)
  have htag := tagField_ofList (isValue_tagField response.tag)
  simp only [encode, cleaned, herror, htag]

/-! ## The mark for no error -/

theorem eq_of_cleanChar_eq {c d : Char} (h : cleanChar c = d) (hcomma : d ≠ ',')
    (hmark : d ≠ '?') : c = d := by
  rw [cleanChar] at h
  split_ifs at h with hend hplain
  · exact absurd h.symm hcomma
  · exact h
  · exact absurd h.symm hmark

private theorem eq_of_map_cleanChar_eq {cs ds : List Char} (h : cs.map cleanChar = ds)
    (hplain : ∀ d ∈ ds, d ≠ ',' ∧ d ≠ '?') : cs = ds := by
  induction cs generalizing ds with
  | nil => exact h
  | cons c cs ih =>
      subst h
      obtain ⟨⟨hcomma, hmark⟩, hrest⟩ := List.forall_mem_cons.mp hplain
      rw [List.map_cons, ← eq_of_cleanChar_eq rfl hcomma hmark, ← ih rfl hrest]

theorem clean_eq_noError_iff {text : String} :
    clean errorWidth text = noError ↔ text = "NULL" := by
  constructor
  · intro h
    have hlength := congrArg List.length h
    simp only [clean, List.length_take, List.length_map, errorWidth_eq, noError,
      String.reduceToList, List.length_cons, List.length_nil] at hlength
    rw [clean, List.take_of_length_le (by rw [List.length_map, errorWidth_eq]; omega)] at h
    have hplain : ∀ d ∈ noError, d ≠ ',' ∧ d ≠ '?' := by simp [noError]
    exact String.toList_inj.mp (eq_of_map_cleanChar_eq h hplain)
  · rintro rfl
    decide

theorem error_cleaned (response : Response) :
    response.cleaned.error =
      if response.error = some "NULL" then none else wireError response.error := by
  rw [cleaned]
  cases response.error with
  | none => rfl
  | some error =>
      rw [errorField, wireError]
      split_ifs with hempty hnull hnull
      · rfl
      · rfl
      · rw [errorOfField, if_pos (clean_eq_noError_iff.mpr (Option.some.inj hnull))]
      · rw [errorOfField, if_neg (mt clean_eq_noError_iff.mp (mt (congrArg some) hnull)),
          ofList_clean]
        rfl

/-! ## Frames -/

theorem frameLength?_encode (response : Response) :
    frameLength? response.encode = some response.encode.length := by
  apply frameLength?_terminated
  · exact (isValue_write response.result).isTerminated (by decide)
  · exact (isValue_errorField response.error).isTerminated (by decide)
  · exact (isValue_tagField response.tag).isTerminated (by decide)

/--
A response becomes one ASCII frame within the limit.  It is read back with the bits of
its result and with its texts in normal form, and the same frame is written for it again.
-/
theorem encode_normalizes (response : Response) (h : response.error ≠ some "NULL") :
    (∀ b ∈ response.encode, isAscii b = true) ∧
    response.encode.length ≤ maxFrameLength ∧
    response.encode.count terminator = fieldCount ∧
    response.encode.getLast? = some terminator ∧
    ∃ decoded, decode response.encode = .ok decoded ∧
      decoded.result.toBits = response.result.toBits ∧
      decoded.error = wireError response.error ∧
      decoded.tag = wireTag response.tag ∧
      decoded.encode = response.encode := by
  obtain ⟨hlength, hascii, hchars⟩ :=
    frameChars_eq_ok_iff.mp (frameChars_encode response)
  obtain ⟨hcount, hlast⟩ := frameLength?_eq_length_iff.mp (frameLength?_encode response)
  refine ⟨?_, hlength, hcount, hlast, response.cleaned, decode_encode response, rfl, ?_,
    ofList_tagField response.tag, encode_cleaned response⟩
  · rw [hchars]
    exact isAscii_of_mem_ofChars hascii
  · rw [error_cleaned, if_neg h]

def hostile : Response := ⟨-0.5, some "\nRES:1;é", "STYPE:;"⟩

theorem encode_normalizes_hostile :
    hostile.error ≠ some "NULL" ∧
      ∃ decoded, decode hostile.encode = .ok decoded ∧
        decoded.result.toBits = hostile.result.toBits ∧
        decoded.error = some "?RES:1,?" ∧ decoded.tag = "STYPE:," ∧
        decoded.encode = hostile.encode := by
  have hnull : hostile.error ≠ some "NULL" := by decide
  obtain ⟨-, -, -, -, decoded, hdecoded, hresult, herror, htag, hencode⟩ :=
    encode_normalizes hostile hnull
  exact ⟨hnull, decoded, hdecoded, hresult,
    herror.trans (by decide), htag.trans (by decide), hencode⟩

/-! ## Failures -/

/-- A client that reads the frame of this response gets to see an error. -/
def ReadsAsFailure (response : Response) : Prop :=
  ∃ decoded error, decode response.encode = .ok decoded ∧
    decoded.error = some error ∧ error ≠ ""

theorem readsAsFailure_iff (response : Response) :
    response.ReadsAsFailure ↔
      ∃ error, response.error = some error ∧ error ≠ "" ∧ error ≠ "NULL" := by
  have hread : response.ReadsAsFailure ↔
      ∃ error, response.cleaned.error = some error ∧ error ≠ "" := by
    simp [ReadsAsFailure, decode_encode]
  rw [hread, error_cleaned]
  cases response.error with
  | none => simp [wireError]
  | some error =>
      by_cases hnull : error = "NULL"
      · simp [hnull]
      · by_cases hempty : error = ""
        · simp [hempty, wireError]
        · have hclean : wireText 255 error ≠ "" := by
            rw [← ofList_clean]
            exact ofList_ne_empty (isValue_clean (by decide) hempty).nonempty
          simp [hnull, hempty, wireError, hclean]

/-- An error is read back as one if and only if it says something other than `NULL`. -/
theorem errors_read_back_iff (result : Float) (error tag : String) :
    ((failure error tag).ReadsAsFailure ↔ error ≠ "" ∧ error ≠ "NULL") ∧
      ((Response.mk result (some error) tag).ReadsAsFailure ↔ error ≠ "" ∧ error ≠ "NULL") := by
  constructor
  · rw [readsAsFailure_iff, failure]
    by_cases hempty : error = "" <;> simp [hempty]
  · simp [readsAsFailure_iff]

theorem null_error_is_lost :
    ¬((∀ error tag, error ≠ "" → (failure error tag).ReadsAsFailure) ∧
      ∀ result error tag, error ≠ "" →
        (Response.mk result (some error) tag).ReadsAsFailure) := by
  rintro ⟨hfailure, -⟩
  obtain ⟨error, herror, -, hnull⟩ :=
    (readsAsFailure_iff _).mp (hfailure "NULL" "T" (by decide))
  exact hnull (Option.some.inj herror).symm

end Wire.Response

end RemoteCalc
