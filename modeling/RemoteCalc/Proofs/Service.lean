import RemoteCalc.Proofs.Wire.Codec
import RemoteCalc.Service

/-!
# Evaluation through a service

A request that is encoded, handled by a service and decoded again at the client's end
gives what the calculator gives on the same operands.
-/

namespace RemoteCalc

open Wire Calculator

/-! ## Cleaned texts -/

def IsControl (c : Char) : Prop := c.toNat < 32 ∨ c.toNat = 127

instance (c : Char) : Decidable (IsControl c) := inferInstanceAs (Decidable (_ ∨ _))

def wireChar (c : Char) : Char :=
  if c = ';' then ','
  else if 128 ≤ c.toNat ∨ IsControl c then '?'
  else c

def wireText (width : Nat) (text : String) : String :=
  String.ofList ((text.toList.map wireChar).take width)

def wireTag (tag : String) : String :=
  if tag = "" then "?" else String.ofList ((tag.toList.map wireChar).take 127)

private theorem cleanChar_eq_wireChar (c : Char) :
    Response.cleanChar c = wireChar c := by
  have hplain : (' ' ≤ c ∧ c ≤ '~') ↔ ¬ (128 ≤ c.toNat ∨ IsControl c) := by
    change (32 ≤ c.toNat ∧ c.toNat ≤ 126) ↔ _
    rw [IsControl]
    omega
  rw [Response.cleanChar, wireChar]
  split_ifs <;> first | rfl | tauto

theorem ofList_clean (width : Nat) (text : String) :
    String.ofList (Response.clean width text) = wireText width text := by
  rw [Response.clean, funext cleanChar_eq_wireChar]
  rfl

theorem ofList_tagField (tag : String) :
    String.ofList (Response.tagField tag) = wireTag tag := by
  rw [Response.tagField, wireTag]
  split_ifs
  · rfl
  · exact ofList_clean Response.tagWidth tag

/-! ## Rejections -/

/-- What a client gets to see whose request could not be read. -/
def badRequestFrame (tag : String) : Bytes :=
  ofChars
    ("RES:0;ERR:Server error: Bad request format;".toList ++ field "STYPE" (wireTag tag).toList)

theorem Service.rejection_eq (service : Service) :
    service.rejection = badRequestFrame service.tag := by
  have hfields : field "RES" (Number.write 0) ++
      field "ERR" (Response.errorField (some badRequest)) =
        "RES:0;ERR:Server error: Bad request format;".toList := by decide +kernel
  have hfailure : Response.failure badRequest service.tag =
      ⟨0, some badRequest, service.tag⟩ := rfl
  rw [rejection, hfailure, Response.encode, hfields, badRequestFrame, ← ofList_tagField]
  simp only [String.toList_ofList]

theorem decode_badRequestFrame (tag : String) :
    Response.decode (badRequestFrame tag) =
      .ok ⟨0, some "Server error: Bad request format", wireTag tag⟩ := by
  have herror : Response.errorOfField (Response.errorField (some Service.badRequest)) =
      some "Server error: Bad request format" := by decide
  rw [← Service.rejection_eq ⟨tag⟩, Service.rejection, Response.decode_encode,
    ← ofList_tagField, ← herror]
  rfl

/-! ## The calculator -/

def IsZero (value : Float) : Prop :=
  value.toBits = 0 ∨ value.toBits = 0x8000000000000000

instance (value : Float) : Decidable (IsZero value) :=
  inferInstanceAs (Decidable (_ ∨ _))

private theorem evaluate_of_zero {operation : Operation} {lhs rhs : Float}
    (h : operation = .divide ∧ IsZero rhs) :
    evaluate operation lhs rhs = .error .divisionByZero := by
  obtain ⟨rfl, hzero⟩ := h
  rw [evaluate, if_pos ((Number.beq_zero_iff rhs).mpr hzero)]

private theorem evaluate_of_arithmetic {operation : Operation} {lhs rhs : Float}
    (hexit : operation ≠ .exit) (h : ¬ (operation = .divide ∧ IsZero rhs)) :
    ∃ value, evaluate operation lhs rhs = .ok value := by
  cases operation with
  | add => exact ⟨_, rfl⟩
  | subtract => exact ⟨_, rfl⟩
  | multiply => exact ⟨_, rfl⟩
  | divide =>
      have hzero : ¬ (rhs == 0) = true := fun hbeq =>
        h ⟨rfl, (Number.beq_zero_iff rhs).mp hbeq⟩
      exact ⟨lhs / rhs, by rw [evaluate, if_neg hzero]⟩
  | exit => exact absurd rfl hexit

namespace Service

theorem handle_of_decode (service : Service) {frame : Bytes} {request : Request}
    (h : Request.decode frame = .ok request) :
    service.handle frame = .ok (service.reply request) := by
  rw [handle, h]
  rfl

theorem handle_of_error (service : Service) {frame : Bytes} {fault : FrameFault}
    (h : Request.decode frame = .error fault) :
    service.handle frame = .error fault := by
  rw [handle, h]
  rfl

theorem handleOrReject_of_decode (service : Service) {frame : Bytes} {request : Request}
    (h : Request.decode frame = .ok request) :
    service.handleOrReject frame = service.reply request := by
  rw [handleOrReject, handle_of_decode service h]

theorem handleOrReject_of_error (service : Service) {frame : Bytes} {fault : FrameFault}
    (h : Request.decode frame = .error fault) :
    service.handleOrReject frame = .frame service.rejection := by
  rw [handleOrReject, handle_of_error service h]

private theorem handle_encode (service : Service) (request : Request) :
    service.handle request.encode = .ok (service.reply request) :=
  service.handle_of_decode (Request.decode_encode request)

private theorem tag_respond (service : Service) (request : Request) :
    (service.respond request).tag = service.tag := by
  rw [respond]
  split <;> rfl

private theorem cleaned_respond_of_zero (service : Service) {operation : Operation}
    {lhs rhs : Float}
    (h : operation = .divide ∧ IsZero rhs) :
    (service.respond ⟨operation, lhs, rhs⟩).cleaned.error = some "Division by zero" ∧
      (service.respond ⟨operation, lhs, rhs⟩).cleaned.result = 0 := by
  have hmessage : Response.errorOfField (Response.errorField (some "Division by zero")) =
      some "Division by zero" := by decide
  rw [respond, evaluate_of_zero h]
  exact ⟨hmessage, rfl⟩

private theorem cleaned_respond_of_value (service : Service) {request : Request}
    {value : Float}
    (h : evaluate request.operation request.lhs request.rhs = .ok value) :
    (service.respond request).cleaned.error = none ∧
      (service.respond request).cleaned.result = value := by
  rw [respond, h]
  exact ⟨rfl, rfl⟩

/-! ## Answers -/

/-- What a client reads that has sent this request, unless it asks to exit. -/
structure IsAnswer (service : Service) (request : Request)
    (response : Response) : Prop where
  tag : response.tag = wireTag service.tag
  outcome :
    if request.operation = .divide ∧ IsZero request.rhs then
      response.error = some "Division by zero" ∧ response.result.toBits = 0
    else
      response.error = none ∧
        ∃ value, evaluate request.operation request.lhs request.rhs = .ok value ∧
          response.result.toBits = value.toBits

theorem isAnswer_cleaned_respond (service : Service) {request : Request}
    (h : request.operation ≠ .exit) :
    service.IsAnswer request (service.respond request).cleaned where
  tag := by
    rw [← ofList_tagField, ← tag_respond service request]
    rfl
  outcome := by
    split_ifs with hzero
    · obtain ⟨herror, hresult⟩ := service.cleaned_respond_of_zero hzero
      refine ⟨herror, ?_⟩
      rw [show (service.respond request).cleaned.result = 0 from hresult]
      decide +kernel
    · obtain ⟨value, hvalue⟩ := evaluate_of_arithmetic h hzero
      obtain ⟨herror, hresult⟩ := service.cleaned_respond_of_value hvalue
      exact ⟨herror, value, hvalue, congrArg Float.toBits hresult⟩

/-- What a request is answered does not depend on the service, but for its tag. -/
theorem IsAnswer.alike {service other : Service} {request : Request}
    {response response' : Response} (h : service.IsAnswer request response)
    (h' : other.IsAnswer request response') :
    response'.error = response.error ∧
      response'.result.toBits = response.result.toBits := by
  have houtcome := h.outcome
  have houtcome' := h'.outcome
  split_ifs at houtcome houtcome'
  · exact ⟨houtcome'.1.trans houtcome.1.symm, houtcome'.2.trans houtcome.2.symm⟩
  · obtain ⟨herror, value, hvalue, hbits⟩ := houtcome
    obtain ⟨herror', value', hvalue', hbits'⟩ := houtcome'
    cases hvalue.symm.trans hvalue'
    exact ⟨herror'.trans herror.symm, hbits'.trans hbits.symm⟩

/-! ## Remote and local evaluation -/

/-- Remote evaluation agrees with local evaluation on every pair of operands. -/
theorem handle_encode_evaluates (service : Service) (operation : Operation)
    (lhs rhs : Float) :
    if operation = .exit then
      service.handle (Request.encode ⟨operation, lhs, rhs⟩) = .ok .hangup
    else
      ∃ bytes response,
        service.handle (Request.encode ⟨operation, lhs, rhs⟩) = .ok (.frame bytes) ∧
        Response.decode bytes = .ok response ∧
        response.tag = wireTag service.tag ∧
        if operation = .divide ∧ IsZero rhs then
          response.error = some "Division by zero" ∧ response.result.toBits = 0
        else
          response.error = none ∧
            ∃ value, evaluate operation lhs rhs = .ok value ∧
              response.result.toBits = value.toBits := by
  rw [handle_encode, reply]
  have htag : (service.respond ⟨operation, lhs, rhs⟩).cleaned.tag =
      wireTag service.tag := by
    rw [← ofList_tagField, ← tag_respond service ⟨operation, lhs, rhs⟩]
    rfl
  split_ifs with hexit hzero
  · rfl
  · obtain ⟨herror, hresult⟩ := service.cleaned_respond_of_zero hzero
    refine ⟨_, _, rfl, Response.decode_encode _, htag, herror, ?_⟩
    rw [hresult]
    decide +kernel
  · obtain ⟨value, hvalue⟩ := evaluate_of_arithmetic hexit hzero
    obtain ⟨herror, hresult⟩ := cleaned_respond_of_value service
      (show evaluate (Request.mk operation lhs rhs).operation lhs rhs = .ok value from hvalue)
    exact ⟨_, _, rfl, Response.decode_encode _, htag, herror, value, hvalue,
      congrArg Float.toBits hresult⟩

end Service

end RemoteCalc
