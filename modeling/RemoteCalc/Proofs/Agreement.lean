import RemoteCalc.EventLoop.Datagrams
import RemoteCalc.Proofs.Blocking.Conversation
import RemoteCalc.Proofs.EventLoop.Script
import RemoteCalc.Proofs.Wire.Normal

/-!
# Servers that answer alike

Four kinds of server find the request in what they receive in four ways.  Whoever sends
nothing but a request is sent the same answer by all of them.  On a stream that holds
more than that, the two stream servers begin with the same answer, unless it comes with
blanks in front: a blocking server skips them, and the event loop does not.
-/

namespace RemoteCalc

open Wire

/-! ## What clients are owed -/

/-- What has to be sent for a request, unless it asks to exit. -/
def owed (service : Service) (request : Request) : Option Bytes :=
  if request.operation = .exit then none else some (service.respond request).encode

def frameAnswer? (service : Service) (frame : Bytes) : Option Bytes :=
  match Request.decode frame with
  | .ok request => owed service request
  | .error _ => none

/-- What has to be sent for the first frame of a stream. -/
def firstAnswer? (service : Service) (stream : Bytes) : Option Bytes :=
  (frameLength? stream).bind fun length => frameAnswer? service (stream.take length)

variable {service : Service} {frame stream bytes : Bytes} {request : Request}
  {length : Nat}

private theorem frameAnswer?_of_decode (h : Request.decode frame = .ok request) :
    frameAnswer? service frame = owed service request := by
  rw [frameAnswer?, h]

private theorem exists_decode_of_frameAnswer?
    (h : frameAnswer? service frame = some bytes) :
    ∃ request, Request.decode frame = .ok request ∧
      bytes = (service.respond request).encode := by
  rw [frameAnswer?] at h
  split at h
  · rename_i request hdecode
    rw [owed] at h
    split_ifs at h
    exact ⟨request, hdecode, (Option.some.inj h).symm⟩
  · contradiction

private theorem firstAnswer?_of_frame (h : frameLength? stream = some length) :
    firstAnswer? service stream = frameAnswer? service (stream.take length) := by
  rw [firstAnswer?, h, Option.bind_some]

private theorem firstAnswer?_of_none (h : frameLength? stream = none) :
    firstAnswer? service stream = none := by
  rw [firstAnswer?, h, Option.bind_none]

private theorem exists_decode_of_firstAnswer?
    (h : firstAnswer? service stream = some bytes) :
    ∃ length request, frameLength? stream = some length ∧
      Request.decode (stream.take length) = .ok request ∧
        bytes = (service.respond request).encode := by
  obtain ⟨length, hlength, hframe⟩ := Option.bind_eq_some_iff.mp h
  obtain ⟨request, hdecode, hbytes⟩ := exists_decode_of_frameAnswer? hframe
  exact ⟨length, request, hlength, hdecode, hbytes⟩

theorem length_le_of_decode (h : Request.decode frame = .ok request) :
    frame.length ≤ maxFrameLength :=
  (Request.decode_eq_ok_iff.mp h).1

theorem firstAnswer?_of_decode (h : Request.decode bytes = .ok request) :
    firstAnswer? service bytes = owed service request := by
  obtain ⟨frame, blanks, rfl, -, hframe, hlength, -⟩ := Request.exists_frame_of_decode h
  rw [firstAnswer?_of_frame (frameLength?_append hlength blanks), List.take_left,
    frameAnswer?_of_decode hframe]

private theorem firstAnswer?_of_long
    (h : ∀ length, frameLength? stream = some length → maxFrameLength < length) :
    firstAnswer? service stream = none := by
  apply Option.eq_none_iff_forall_ne_some.mpr
  intro bytes hbytes
  obtain ⟨length, request, hlength, hdecode, -⟩ := exists_decode_of_firstAnswer? hbytes
  have hle := length_le_of_decode hdecode
  rw [List.length_take_of_le (frameLength?_le hlength)] at hle
  exact absurd hle (Nat.not_le.mpr (h length hlength))

private theorem firstAnswer?_of_blank (h : trimmed stream ≠ stream) :
    firstAnswer? service stream = none := by
  apply Option.eq_none_iff_forall_ne_some.mpr
  intro bytes hbytes
  obtain ⟨length, request, -, hdecode, -⟩ := exists_decode_of_firstAnswer? hbytes
  obtain ⟨frame, blanks, htake, -, -, hframe, hunblank⟩ :=
    Request.exists_frame_of_decode hdecode
  have hself := trimmed_eq_self hunblank
  have hstream := trimmed_append_of_frame (hself.symm ▸ hframe) (blanks ++ stream.drop length)
  rw [hself, ← List.append_assoc, ← htake, List.take_append_drop] at hstream
  exact h hstream

/-! ## What each kind of server sends -/

theorem received_of_decode (h : Request.decode bytes = .ok request) :
    received bytes = bytes :=
  List.take_of_length_le (Nat.le_succ_of_le (length_le_of_decode h))

namespace EventLoop

private theorem received_outcomeOfFrame (service : Service) (frame : Bytes) :
    (outcomeOfFrame service frame).received = (frameAnswer? service frame).getD [] := by
  cases hdecode : Request.decode frame with
  | error fault => simp [outcomeOfFrame, frameAnswer?, service.handle_of_error hdecode, hdecode]
  | ok request =>
      rw [outcomeOfFrame, service.handle_of_decode hdecode, Service.reply,
        frameAnswer?_of_decode hdecode, owed]
      split_ifs <;> rfl

theorem writtenTo_eq_firstAnswer (service : Service) {steps : List Step} {place : Nat}
    {client : Client} (hclient : (Client.ofScript steps)[place]? = some client) :
    ((Loop.run service steps).turn service).writtenTo place =
      (firstAnswer? service client.sent).getD [] := by
  rw [Loop.writtenTo_turn service hclient, Client.outcome?]
  cases hlength : frameLength? client.sent with
  | none =>
      have hseen : frameLength? (client.sent.take maxFrameLength) = none := by
        rw [frameLength?_eq_none_iff] at hlength ⊢
        exact ((List.take_sublist _ _).count_le _).trans_lt hlength
      rw [firstAnswer?_of_none hlength, hseen]
      split_ifs <;> rfl
  | some length =>
      rw [frameLength?_take hlength]
      by_cases hle : length ≤ maxFrameLength
      · have htake : (client.sent.take maxFrameLength).take length =
            client.sent.take length := by
          rw [List.take_take, Nat.min_eq_left hle]
        rw [if_pos hle, firstAnswer?_of_frame hlength, ← received_outcomeOfFrame,
          ← htake]
      · have hlong : firstAnswer? service client.sent = none := by
          apply firstAnswer?_of_long
          intro other hother
          cases hlength.symm.trans hother
          exact Nat.not_le.mp hle
        rw [if_neg hle, hlong]
        split_ifs <;> rfl

theorem receiveDatagram_of_decode (h : Request.decode frame = .ok request)
    (counters : Counters) :
    (receiveDatagram service counters frame).1 = owed service request := by
  rw [receiveDatagram, received_of_decode h, service.handle_of_decode h,
    Service.reply, owed]
  split_ifs <;> rfl

end EventLoop

namespace Blocking

theorem answer_of_decode (h : Request.decode frame = .ok request) :
    answer service frame = owed service request := by
  rw [answer, service.handleOrReject_of_decode h, Service.reply, owed]
  split_ifs <;> rfl

private theorem written_of_decode (h : Request.decode frame = .ok request) :
    written service [frame] [] = (owed service request).getD [] := by
  have hexit : asksToExit frame = decide (request.operation = .exit) := by
    rw [asksToExit, h]
  have hanswer : answerTo service frame = (service.respond request).encode := by
    rw [answerTo, h]
  rw [written_cons, written_nil, hexit, hanswer, owed]
  by_cases hoperation : request.operation = .exit <;> simp [hoperation, maxFrameLength]

theorem serveStream_of_decode (h : Request.decode bytes = .ok request)
    {source : List Arrival}
    (hcut : Arrival.IsCut source) (hbytes : Arrival.bytes source = bytes) :
    serveStream service source = (owed service request).getD [] := by
  obtain ⟨frame, after, rfl, hafter, hframe, hlength, hunblank⟩ :=
    Request.exists_frame_of_decode h
  obtain ⟨hcount, hlast⟩ := frameLength?_eq_length_iff.mp hlength
  obtain ⟨framed, rfl⟩ : ∃ framed : Framed, framed.bytes = frame :=
    ⟨⟨frame, hunblank, length_le_of_decode hframe, hcount, hlast⟩, rfl⟩
  obtain ⟨blanks, rfl⟩ : ∃ blanks : Blanks, blanks.bytes = after :=
    ⟨⟨after, hafter⟩, rfl⟩
  have hreading : (Inbox.ofSource source).IsReading := ⟨hcut, Nat.succ_pos _⟩
  have htext : trimmed (Inbox.ofSource source).stream =
      trimmed (spaced [(framed, blanks)] ++ []) := by
    simp [Inbox.ofSource, Inbox.stream, hbytes, spaced]
  calc serveStream service source
      = written service [framed.bytes] [] :=
        flatten_converse service [(framed, blanks)] ⟨[], trivial, Nat.succ_pos _⟩ hreading htext
    _ = (owed service request).getD [] := written_of_decode hframe

/-- A blocking server begins with the answer to the first frame, or else with a rejection. -/
theorem head?_converse (service : Service) {source : List Arrival}
    (hcut : Arrival.IsCut source) :
    (converse service (.ofSource source)).head? =
        firstAnswer? service (trimmed (Arrival.bytes source)) ∨
      firstAnswer? service (trimmed (Arrival.bytes source)) = none ∧
        (converse service (.ofSource source)).head? = some service.rejection := by
  obtain ⟨⟨delivery, rest⟩, hreceive⟩ :
      ∃ received, (Inbox.ofSource source).receive = received := ⟨_, rfl⟩
  have hreading : (Inbox.ofSource source).IsReading := ⟨hcut, Nat.succ_pos _⟩
  have houtcome : Inbox.Outcome (trimmed (Arrival.bytes source)) delivery rest :=
    Inbox.outcome_of_receive hreading hreceive
  rw [converse_of_receive hreceive]
  cases houtcome with
  | @frame length rest found =>
      rw [firstAnswer?_of_frame found]
      cases hdecode : Request.decode ((trimmed (Arrival.bytes source)).take length) with
      | error fault =>
          right
          simp [frameAnswer?, hdecode, service.handleOrReject_of_error hdecode]
      | ok request =>
          left
          rw [frameAnswer?_of_decode hdecode, owed]
          simp only [service.handleOrReject_of_decode hdecode, Service.reply]
          split_ifs <;> rfl
  | overflow full long => exact .inr ⟨firstAnswer?_of_long long, rfl⟩
  | finished empty =>
      rw [empty]
      exact .inl rfl
  | broken short endless =>
      rw [firstAnswer?_of_none endless]
      exact .inl rfl

end Blocking

/-! ## Every kind of server -/

/--
Whatever is read as a request gets the same answer from every kind of server, over a
stream in any pieces and beside any other clients as well as in a datagram.  A request to
exit gets none from any of them.
-/
theorem servers_answer_alike (service : Service) {bytes : Bytes} {request : Request}
    (h : Request.decode bytes = .ok request) :
    (∀ source, Arrival.IsCut source → Arrival.bytes source = bytes →
      Blocking.serveStream service source = (owed service request).getD []) ∧
    (∀ steps place finished,
      (EventLoop.Client.ofScript steps)[place]? = some ⟨bytes, finished⟩ →
        ((EventLoop.Loop.run service steps).turn service).writtenTo place =
          (owed service request).getD []) ∧
    Blocking.answer service (received bytes) = owed service request ∧
    ∀ counters, (EventLoop.receiveDatagram service counters bytes).1 =
      owed service request := by
  refine ⟨?_, ?_, ?_, ?_⟩
  · intro source hcut hbytes
    exact Blocking.serveStream_of_decode h hcut hbytes
  · intro steps place finished hclient
    rw [EventLoop.writtenTo_eq_firstAnswer service hclient, firstAnswer?_of_decode h]
  · rw [received_of_decode h]
    exact Blocking.answer_of_decode h
  · exact EventLoop.receiveDatagram_of_decode h

def oddDivision : Bytes := ofChars "OP:DIV;OP1:+01e0;OP2:-.0; \r\n".toList

def oddScript : List EventLoop.Step :=
  [.deed (.move (.connect [])), .deed (.move (.connect (oddDivision.take 9))), .turn,
    .deed (.move (.send 1 (oddDivision.drop 9))), .deed (.move (.finish 1))]

theorem servers_answer_oddDivision :
    (Request.decode oddDivision = .ok ⟨.divide, 1, -0.0⟩ ∧
      (EventLoop.Client.ofScript oddScript)[1]? = some ⟨oddDivision, true⟩) ∧
    Blocking.serveStream ⟨"T"⟩ [.data (oddDivision.take 9), .data (oddDivision.drop 9)] =
      ofChars "RES:0;ERR:Division by zero;STYPE:T;".toList ∧
    ((EventLoop.Loop.run ⟨"T"⟩ oddScript).turn ⟨"T"⟩).writtenTo 1 =
      ofChars "RES:0;ERR:Division by zero;STYPE:T;".toList ∧
    Blocking.answer ⟨"T"⟩ (received oddDivision) =
      some (ofChars "RES:0;ERR:Division by zero;STYPE:T;".toList) ∧
    (EventLoop.receiveDatagram ⟨"T"⟩ ⟨0, 0, 0⟩ oddDivision).1 =
      some (ofChars "RES:0;ERR:Division by zero;STYPE:T;".toList) := by
  have hdecode : Request.decode oddDivision =
      .ok ⟨.divide, 1, -0.0⟩ := by decide +kernel
  have hclient : (EventLoop.Client.ofScript oddScript)[1]? =
      some ⟨oddDivision, true⟩ := by
    decide +kernel
  have howed : owed ⟨"T"⟩ ⟨.divide, 1, -0.0⟩ =
      some (ofChars "RES:0;ERR:Division by zero;STYPE:T;".toList) := by decide +kernel
  have hcut : Arrival.IsCut [.data (oddDivision.take 9), .data (oddDivision.drop 9)] :=
    .cons (by decide) (.cons (by decide) Arrival.isCut_nil)
  obtain ⟨hstream, hloop, hdatagram, hevent⟩ := servers_answer_alike ⟨"T"⟩ hdecode
  have hstream := hstream _ hcut (by decide +kernel)
  have hloop := hloop _ _ _ hclient
  have hevent := hevent ⟨0, 0, 0⟩
  rw [howed] at hstream hloop hdatagram hevent
  exact ⟨⟨hdecode, hclient⟩, hstream, hloop, hdatagram, hevent⟩

/-! ## The first answer on a stream -/

theorem encode_ne_nil (response : Response) : response.encode ≠ [] := by
  intro hnil
  have hframe := Response.frameLength?_encode response
  rw [hnil] at hframe
  contradiction

private theorem error_failure {error : String} (h : error ≠ "") (tag : String) :
    (Response.failure error tag).error = some error :=
  if_neg h

private theorem error_respond (service : Service) (request : Request) :
    (service.respond request).error = none ∨
      (service.respond request).error = some "Division by zero" ∨
        (service.respond request).error = some "Invalid operation: EXT" := by
  obtain ⟨operation, lhs, rhs⟩ := request
  rw [Service.respond]
  cases operation with
  | add => exact .inl rfl
  | subtract => exact .inl rfl
  | multiply => exact .inl rfl
  | divide =>
      simp only [Calculator.evaluate]
      split_ifs
      · exact .inr (.inl (error_failure (by decide) _))
      · exact .inl rfl
  | exit => exact .inr (.inr (error_failure (by decide) _))

private theorem encode_respond_ne_rejection (service : Service) (request : Request) :
    (service.respond request).encode ≠ service.rejection := by
  intro hsame
  have hdecoded := Response.decode_encode (service.respond request)
  rw [hsame, Service.rejection, Response.decode_encode] at hdecoded
  have herror := congrArg Response.error (Except.ok.inj hdecoded)
  rw [Response.error_cleaned, Response.error_cleaned,
    error_failure (by decide)] at herror
  rcases error_respond service request with h | h | h <;>
    · rw [h] at herror
      revert herror
      decide

def BeginsWith (service : Service) (source : List Arrival) (request : Request) : Prop :=
  (Blocking.converse service (.ofSource source)).head? =
    some (service.respond request).encode

/--
However the stream comes and whatever other clients do, a blocking server begins with a
computed response exactly if the event loop sends this response and nothing else.
-/
def FirstAnswersAgree (service : Service) (stream : Bytes) : Prop :=
  ∀ source, Arrival.IsCut source → Arrival.bytes source = stream →
    ∀ steps place, (EventLoop.Client.ofScript steps)[place]? = some ⟨stream, true⟩ →
      ∀ request, BeginsWith service source request ↔
        ((EventLoop.Loop.run service steps).turn service).writtenTo place =
          (service.respond request).encode

theorem beginsWith_iff {source : List Arrival} (hcut : Arrival.IsCut source) :
    BeginsWith service source request ↔
      firstAnswer? service (trimmed (Arrival.bytes source)) =
        some (service.respond request).encode := by
  rw [BeginsWith]
  rcases Blocking.head?_converse service hcut with hsame | ⟨hnone, hrejection⟩
  · rw [hsame]
  · have hne := encode_respond_ne_rejection service request
    simp [hnone, hrejection, hne.symm]

theorem writtenTo_eq_respond_iff {steps : List EventLoop.Step}
    {place : Nat} {finished : Bool}
    (hclient : (EventLoop.Client.ofScript steps)[place]? = some ⟨stream, finished⟩) :
    ((EventLoop.Loop.run service steps).turn service).writtenTo place =
        (service.respond request).encode ↔
      firstAnswer? service stream = some (service.respond request).encode := by
  rw [EventLoop.writtenTo_eq_firstAnswer service hclient]
  cases firstAnswer? service stream with
  | none => simp [(encode_ne_nil (service.respond request)).symm]
  | some answer => simp

/-- An answer behind blanks is sent by blocking servers only. -/
theorem not_firstAnswersAgree (hblank : trimmed stream ≠ stream)
    (hanswer : firstAnswer? service (trimmed stream) ≠ none) :
    ¬FirstAnswersAgree service stream := by
  intro hagree
  obtain ⟨bytes, hbytes⟩ := Option.ne_none_iff_exists'.mp hanswer
  obtain ⟨length, request, -, -, rfl⟩ := exists_decode_of_firstAnswer? hbytes
  have hne : stream ≠ [] := by
    rintro rfl
    exact hblank rfl
  have hcut : Arrival.IsCut [.data stream] := .cons hne Arrival.isCut_nil
  have hwhole : Arrival.bytes [.data stream] = stream := List.append_nil _
  have hclient : (EventLoop.Client.ofScript
      [.deed (.move (.connect stream)), .deed (.move (.finish 0))])[0]? =
        some ⟨stream, true⟩ := rfl
  have hbegins : BeginsWith service [.data stream] request := by
    rwa [beginsWith_iff hcut, hwhole]
  have hwritten := (hagree _ hcut hwhole _ _ hclient request).mp hbegins
  rw [writtenTo_eq_respond_iff hclient, firstAnswer?_of_blank hblank] at hwritten
  contradiction

/--
The stream servers agree on the first answer if and only if the stream does not begin
with blanks, or has no request to compute something behind them.
-/
theorem firstAnswersAgree_iff (service : Service) (stream : Bytes) :
    FirstAnswersAgree service stream ↔
      trimmed stream = stream ∨ firstAnswer? service (trimmed stream) = none := by
  constructor
  · intro hagree
    by_contra hneither
    obtain ⟨hblank, hanswer⟩ := not_or.mp hneither
    exact not_firstAnswersAgree hblank hanswer hagree
  · rintro hsame source hcut rfl steps place hclient request
    have hfirst : firstAnswer? service (trimmed (Arrival.bytes source)) =
        firstAnswer? service (Arrival.bytes source) := by
      by_cases hblank : trimmed (Arrival.bytes source) = Arrival.bytes source
      · rw [hblank]
      · rw [hsame.resolve_left hblank, firstAnswer?_of_blank hblank]
    rw [beginsWith_iff hcut, writtenTo_eq_respond_iff hclient, hfirst]

def lateRequest : Bytes := ofChars "\nOP:ADD;OP1:1;OP2:2;".toList

theorem lateRequest_answers_differ :
    ¬∀ service stream, FirstAnswersAgree service stream := by
  intro hagree
  have hblank : trimmed lateRequest ≠ lateRequest := by decide
  have hanswer : firstAnswer? ⟨"T"⟩ (trimmed lateRequest) ≠ none := by decide +kernel
  exact not_firstAnswersAgree hblank hanswer (hagree ⟨"T"⟩ lateRequest)

end RemoteCalc
