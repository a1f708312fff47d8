import Mathlib.Data.List.DropRight
import RemoteCalc.Fault
import RemoteCalc.Proofs.Number.Digits

/-!
# What is shown of a fault

The texts are told here cause by cause, and a span of time by what its text says of it: how
many of the largest unit that it fills.
-/

namespace RemoteCalc

open Number

/-! ## Spans of time -/

namespace Span

/-- A count of nanoseconds, told in units of `10 ^ width` and with no place too many. -/
inductive InUnits (nanos width : Nat) : List Char → Prop where
  | whole {count : Nat} (exact : count * 10 ^ width = nanos) : InUnits nanos width (digits count)
  | parts {count : Nat} {places : List Char} (digits : IsDigits places)
      (fits : places.length ≤ width) (needed : places.getLast? ≠ some '0')
      (exact : count * 10 ^ width + digitValue places * 10 ^ (width - places.length) = nanos) :
      InUnits nanos width (Number.digits count ++ '.' :: places)

inductive Shows (span : Span) : String → Prop where
  | seconds {count : List Char} (fills : 1000000000 ≤ span.nanos)
      (exact : InUnits span.nanos 9 count) : Shows span (String.ofList count ++ "s")
  | millis {count : List Char} (fills : 1000000 ≤ span.nanos) (few : span.nanos < 1000000000)
      (exact : InUnits span.nanos 6 count) : Shows span (String.ofList count ++ "ms")
  | micros {count : List Char} (fills : 1000 ≤ span.nanos) (few : span.nanos < 1000000)
      (exact : InUnits span.nanos 3 count) : Shows span (String.ofList count ++ "µs")
  | nanos {count : List Char} (few : span.nanos < 1000) (exact : InUnits span.nanos 0 count) :
      Shows span (String.ofList count ++ "ns")

private theorem places_append_zeros (part width : Nat) :
    ∃ zeros, places part width ++ List.replicate zeros '0' =
      List.replicate (width - (digits part).length) '0' ++ digits part := by
  let padded := List.replicate (width - (digits part).length) '0' ++ digits part
  have hzeros : ∀ c ∈ padded.rtakeWhile (· == '0'), c = '0' := by
    intro c hc
    simpa using List.mem_rtakeWhile_imp hc
  refine ⟨(padded.rtakeWhile (· == '0')).length, ?_⟩
  rw [← List.eq_replicate_of_mem hzeros]
  exact List.rdropWhile_append_rtakeWhile

private theorem getLast?_places (part width : Nat) :
    (places part width).getLast? ≠ some '0' := by
  intro hlast
  have hne : places part width ≠ [] := fun hnil => by simp [hnil] at hlast
  rw [List.getLast?_eq_some_getLast hne, Option.some.injEq] at hlast
  exact List.rdropWhile_last_not (· == '0') _ hne (beq_iff_eq.mpr hlast)

private theorem length_padded {part width : Nat} (hlt : part < 10 ^ width)
    (hne : places part width ≠ []) :
    (List.replicate (width - (digits part).length) '0' ++ digits part).length = width := by
  rcases Nat.eq_zero_or_pos width with rfl | hpos
  · obtain rfl : part = 0 := Nat.lt_one_iff.mp hlt
    exact absurd rfl hne
  · have hle : (digits part).length ≤ width := (digitCount_le_iff hpos).mpr hlt
    rw [List.length_append, List.length_replicate, Nat.sub_add_cancel hle]

private theorem inUnits_of_whole {nanos width : Nat}
    (h : places (nanos % 10 ^ width) width = []) :
    inUnits nanos width = digits (nanos / 10 ^ width) := by
  simp only [inUnits, Nat.pow_eq, h]
  rfl

private theorem inUnits_of_parts {nanos width : Nat}
    (h : places (nanos % 10 ^ width) width ≠ []) :
    inUnits nanos width =
      digits (nanos / 10 ^ width) ++ '.' :: places (nanos % 10 ^ width) width := by
  obtain ⟨first, rest, hplaces⟩ := List.exists_cons_of_ne_nil h
  simp only [inUnits, Nat.pow_eq, hplaces]
  rfl

private theorem inUnits_inUnits (nanos width : Nat) :
    InUnits nanos width (inUnits nanos width) := by
  have hlt : nanos % 10 ^ width < 10 ^ width := Nat.mod_lt _ (Nat.pow_pos (by decide))
  have hsplit := Nat.div_add_mod' nanos (10 ^ width)
  have hlast := getLast?_places (nanos % 10 ^ width) width
  have hlength := length_padded hlt
  obtain ⟨zeros, hzeros⟩ := places_append_zeros (nanos % 10 ^ width) width
  have hvalue := congrArg digitValue hzeros
  rw [digitValue_zeros_digits] at hvalue
  have hall : ∀ c ∈ places (nanos % 10 ^ width) width, c.isDigit = true := by
    intro c hc
    have hpadded : c ∈ List.replicate (width - (digits (nanos % 10 ^ width)).length) '0' ++
        digits (nanos % 10 ^ width) := hzeros ▸ List.mem_append_left _ hc
    exact (isDigits_padded _ _).2 c hpadded
  by_cases hne : places (nanos % 10 ^ width) width = []
  · rw [inUnits_of_whole hne]
    rw [hne, List.nil_append, digitValue, Nat.ofDigitChars_replicate_zero] at hvalue
    exact .whole (by omega)
  · rw [inUnits_of_parts hne]
    generalize places (nanos % 10 ^ width) width = shown at *
    have hwidth : shown.length + zeros = width := by
      rw [← hlength hne, ← hzeros, List.length_append, List.length_replicate]
    have hrest : width - shown.length = zeros := by omega
    rw [digitValue, Nat.ofDigitChars_append, Nat.ofDigitChars_replicate_zero,
      Nat.mul_comm] at hvalue
    refine .parts ⟨hne, hall⟩ (by omega) hlast ?_
    rw [hrest, digitValue, hvalue, hsplit]

private theorem shows_text (span : Span) : span.Shows span.text := by
  rw [text]
  split_ifs with hseconds hmillis hmicros
  · exact .seconds hseconds (inUnits_inUnits _ 9)
  · exact .millis hmillis (Nat.lt_of_not_le hseconds) (inUnits_inUnits _ 6)
  · exact .micros hmicros (Nat.lt_of_not_le hmillis) (inUnits_inUnits _ 3)
  · exact .nanos (Nat.lt_of_not_le hmicros) (inUnits_inUnits _ 0)

end Span

/-! ## Faults -/

inductive IoKind.Shows : IoKind → String → Prop where
  | timedOut : Shows .timedOut "timed out"
  | wouldBlock : Shows .wouldBlock "operation would block"
  | connectionReset : Shows .connectionReset "connection reset"
  | interrupted : Shows .interrupted "operation interrupted"
  | other : Shows .other "other error"
  | addressInUse : Shows .addressInUse "Address already in use (os error 98)"
  | connectionRefused : Shows .connectionRefused "Connection refused (os error 111)"
  | networkUnreachable : Shows .networkUnreachable "Network is unreachable (os error 101)"
  | zeroTimeout : Shows .zeroTimeout "cannot set a 0 duration timeout"
  | notFound : Shows .notFound "No such file or directory (os error 2)"
  | accessDenied : Shows .accessDenied "Permission denied (os error 13)"
  | notDirectory : Shows .notDirectory "Not a directory (os error 20)"
  | isDirectory : Shows .isDirectory "Is a directory (os error 21)"
  | nameTooLong : Shows .nameTooLong "File name too long (os error 36)"
  | invalidText : Shows .invalidText "stream did not contain valid UTF-8"

inductive IoFault.Shows : IoFault → String → Prop where
  | own (kind : IoKind) (text : String) : Shows ⟨kind, some text⟩ text
  | plain {kind : IoKind} {text : String} (usual : kind.Shows text) : Shows ⟨kind, none⟩ text

inductive Wire.FrameFault.Shows : FrameFault → String → Prop where
  | tooLong (length : Nat) :
      Shows (.tooLong length) ("frame of " ++ toString length ++ " bytes exceeds 1024")
  | notAscii : Shows .notAscii "frame is not ASCII"
  | expectedField (key : String) : Shows (.expectedField key) ("expected field " ++ key)
  | unterminatedField (key : String) :
      Shows (.unterminatedField key) ("field " ++ key ++ " is not terminated")
  | emptyField (key : String) : Shows (.emptyField key) ("field " ++ key ++ " is empty")
  | longField (key : String) (width : Nat) :
      Shows (.longField key width)
        ("field " ++ key ++ " is longer than " ++ toString width ++ " bytes")
  | unknownOperation (code : String) :
      Shows (.unknownOperation code) ("unknown operation " ++ Text.quoted code)
  | invalidNumber (text : String) :
      Shows (.invalidNumber text) ("invalid number " ++ Text.quoted text)
  | trailingBytes : Shows .trailingBytes "trailing bytes after frame"
  | noBoundary : Shows .noBoundary "no frame within 1024 bytes"
  | reported (text : String) : Shows (.reported text) text

inductive TransportFault.Shows : TransportFault → String → Prop where
  | closedMidFrame : Shows .closedMidFrame "stream closed in the middle of a frame"
  | closedUnanswered : Shows .closedUnanswered "server closed the connection without answering"
  | reported (text : String) : Shows (.reported text) text

inductive ConfigFault.Shows : ConfigFault → String → Prop where
  | unreadableTable (path : String) {cause : IoFault} {text : String} (shown : cause.Shows text) :
      Shows (.unreadableTable path cause) ("cannot read endpoint table " ++ path ++ ": " ++ text)
  | noWorkers : Shows .noWorkers "a worker pool needs at least one thread"
  | reported (text : String) : Shows (.reported text) text

inductive Fault.Shows : Fault → String → Prop where
  | io {cause : IoFault} {text : String} (shown : cause.Shows text) :
      Shows (.io cause) ("io error " ++ text)
  | malformedTable (reason : String) : Shows (.malformedTable reason) ("serde error " ++ reason)
  | frame {cause : Wire.FrameFault} {text : String} (shown : cause.Shows text) :
      Shows (.frame cause) ("malformed frame: " ++ text)
  | timeout {after : Span} {text : String} (shown : after.Shows text) :
      Shows (.timeout after) ("timed out after " ++ text)
  | transport {cause : TransportFault} {text : String} (shown : cause.Shows text) :
      Shows (.transport cause) ("transport error: " ++ text)
  | noEndpoints : Shows .noEndpoints "the endpoint table is empty"
  | exhausted (failures : List Failure) :
      Shows (.exhausted failures) ("no endpoint could complete the request (" ++
        String.intercalate "; " (failures.map fun item => item.endpoint ++ ": " ++ item.reason) ++
        ")")
  | config {cause : ConfigFault} {text : String} (shown : cause.Shows text) :
      Shows (.config cause) ("config error: " ++ text)

theorem IoFault.shows_message (fault : IoFault) : fault.Shows fault.message := by
  obtain ⟨kind, _ | text⟩ := fault
  · cases kind <;> exact .plain (by constructor)
  · exact .own kind text

theorem Wire.FrameFault.shows_message (fault : FrameFault) :
    fault.Shows fault.message := by
  have hlimit : toString maxFrameLength = "1024" := by decide +kernel
  cases fault with
  | tooLong length =>
      have hbound : " bytes exceeds " ++ toString maxFrameLength =
          " bytes exceeds 1024" := by
        rw [hlimit]
        rfl
      have hshown := Shows.tooLong length
      rwa [← hbound, ← String.append_assoc] at hshown
  | noBoundary =>
      have hmessage : FrameFault.noBoundary.message = "no frame within 1024 bytes" := by
        change "no frame within " ++ toString maxFrameLength ++ " bytes" = _
        rw [hlimit]
        rfl
      exact hmessage ▸ Shows.noBoundary
  | _ => constructor

theorem TransportFault.shows_message (fault : TransportFault) :
    fault.Shows fault.message := by
  cases fault <;> constructor

theorem ConfigFault.shows_message (fault : ConfigFault) :
    fault.Shows fault.message := by
  cases fault with
  | unreadableTable path cause => exact .unreadableTable path cause.shows_message
  | noWorkers => exact .noWorkers
  | reported text => exact .reported text

theorem Fault.shows_message (fault : Fault) : fault.Shows fault.message := by
  cases fault with
  | io cause => exact .io cause.shows_message
  | malformedTable reason => exact .malformedTable reason
  | frame cause => exact .frame cause.shows_message
  | timeout after => exact .timeout after.shows_text
  | transport cause => exact .transport cause.shows_message
  | noEndpoints => exact .noEndpoints
  | exhausted failures => exact .exhausted failures
  | config cause => exact .config cause.shows_message

end RemoteCalc
