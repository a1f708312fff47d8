import RemoteCalc.Net.Network
import RemoteCalc.Proofs.Blocking.Session
import RemoteCalc.Proofs.Failover.Call
import RemoteCalc.Proofs.Server

/-!
# One attempt over a network

Where a calculator is at the other end, an attempt brings back the answer to the request,
whichever the mode of the server and the transport, and in whatever pieces the answer comes.
Where there is none, nothing that is brought back is a response.
-/

namespace RemoteCalc.Net

open Wire Directory

/-! ## Pieces -/

theorem isCutOf_inPieces (lengths : List Nat) (bytes : Bytes) :
    IsCutOf bytes (inPieces lengths bytes) := by
  fun_induction inPieces lengths bytes with
  | case1 => exact ⟨Arrival.isCut_nil, rfl⟩
  | case2 bytes hne => exact isCutOf_data hne
  | case3 length lengths bytes hne ih =>
    refine ⟨.cons ?_ ih.cut, ?_⟩
    · simpa [List.take_eq_nil_iff] using hne
    · rw [Arrival.bytes, ih.whole, List.take_append_drop]

/-- The pieces are all ways to cut the bytes. -/
theorem isCutOf_iff {bytes : Bytes} {source : List Arrival} :
    IsCutOf bytes source ↔ ∃ lengths, inPieces lengths bytes = source := by
  constructor
  · rintro ⟨hcut, rfl⟩
    induction source with
    | nil => exact ⟨[], rfl⟩
    | cons arrival source ih =>
        obtain ⟨found, hfound, rfl⟩ := hcut arrival List.mem_cons_self
        obtain ⟨lengths, hlengths⟩ := ih hcut.tail
        obtain ⟨b, rest, rfl⟩ := List.exists_cons_of_ne_nil hfound
        exact ⟨rest.length :: lengths, by simp [Arrival.bytes, inPieces, hlengths]⟩
  · rintro ⟨lengths, rfl⟩
    exact isCutOf_inPieces lengths bytes

/-! ## Who is at the other end -/

/-- A server that has started, with this service, and speaks the transport. -/
inductive IsCalculator (transport : Transport) : Remote → Service → Prop
  | intro {server : Server} (speaks : server.transport = transport)
      (started : server.start (.ok ()) = .ok ()) :
      IsCalculator transport (.server server) server.service

/-- Nobody, or one who sends nothing that is read as a response. -/
inductive IsUseless : Transport → Remote → Prop
  | down (transport : Transport) : IsUseless transport .down
  | silent (transport : Transport) : IsUseless transport .silent
  | cannedStream {data : Bytes}
      (rejected : ∀ length, frameLength? (trimmed data) = some length →
        ∃ cause, Response.decode ((trimmed data).take length) = .error cause) :
      IsUseless .stream (.canned data)
  | cannedDatagram {data : Bytes}
      (rejected : ∃ cause, Response.decode (received data) = .error cause) :
      IsUseless .datagram (.canned data)

namespace Network

variable {network : Network} {endpoint : Endpoint} {request : Request} {timeout : Span}
  {pieces : List Nat}

private theorem connect_eq (hroute : network.hasRoute = true)
    (htimed : timeout.nanos ≠ 0) :
    network.connect timeout = .ok () := by
  simp [connect, hroute, htimed]

private theorem firstFrame_encode (response : Response) {source : List Arrival}
    (h : IsCutOf response.encode source) : firstFrame source = .ok response.encode := by
  have htext : trimmed (Inbox.ofSource source).stream =
      response.encode ++ ([] ++ []) := by
    rw [Inbox.stream_ofSource h, trimmed_eq_self response.stopsAt_encode,
      List.append_nil, List.append_nil]
  obtain ⟨rest, hreceive, -, -⟩ := Blocking.receive_framed (.ofResponse response)
    Blocking.Blanks.none (Inbox.isReading_ofSource h.cut) htext
  rw [firstFrame, hreceive]
  rfl

private theorem attempt_of_calculator (hroute : network.hasRoute = true)
    (htimed : timeout.nanos ≠ 0)
    {service : Service} (h : IsCalculator endpoint.transport (network.remote endpoint) service)
    (hexit : request.operation ≠ .exit) :
    network.attempt pieces endpoint request.encode timeout =
      .ok (service.respond request).encode := by
  have howed : owed service request = some (service.respond request).encode :=
    if_neg hexit
  rw [attempt, connect_eq hroute htimed]
  generalize network.remote endpoint = remote at h
  cases h with
  | @intro server speaks started =>
      cases endpoint.transport with
      | stream =>
          have hreply := Server.replyToStream_of_decode started request.decode_encode
          rw [howed, Option.getD_some] at hreply
          change firstFrame (inPieces pieces _) = _
          rw [hreply]
          exact firstFrame_encode _ (isCutOf_inPieces pieces _)
      | datagram =>
          have hreply := Server.replyToDatagram_of_decode started request.decode_encode
          have hwhole := List.take_of_length_le
            (Nat.le_succ_of_le (server.service.respond request).length_encode_le)
          rw [howed] at hreply
          change (datagramReply request.encode _).mapError Fault.io = _
          rw [datagramReply, hreply]
          exact congrArg Except.ok hwhole

/-! ## Replies that count for nothing -/

theorem accept_mapError {reply : Except Fault Bytes} {fault : Fault}
    (h : Failover.accept reply = .error fault) (f : Fault → Fault) :
    ∃ other, Failover.accept (reply.mapError f) = .error other := by
  cases reply with
  | ok frame => exact ⟨fault, h⟩
  | error cause => exact ⟨f cause, rfl⟩

private theorem accept_of_rejected {frame : Bytes} {cause : FrameFault}
    (h : Response.decode frame = .error cause) :
    Failover.accept (.ok frame) = .error (.frame cause) :=
  (Failover.Verdict.malformed h).eq_accept

private theorem accept_firstFrame {data : Bytes}
    (hrejected : ∀ length, frameLength? (trimmed data) = some length →
      ∃ cause, Response.decode ((trimmed data).take length) = .error cause)
    {source : List Arrival} (h : IsCutOf data source) :
    ∃ fault, Failover.accept (firstFrame source) = .error fault := by
  have houtcome := Inbox.outcome_receive (Inbox.isReading_ofSource h.cut)
  rw [Inbox.stream_ofSource h] at houtcome
  rw [firstFrame]
  generalize (Inbox.ofSource source).receive.1 = delivery at houtcome
  generalize (Inbox.ofSource source).receive.2 = rest at houtcome
  cases houtcome with
  | frame found =>
      obtain ⟨cause, hcause⟩ := hrejected _ found
      exact ⟨_, accept_of_rejected hcause⟩
  | overflow => exact ⟨_, rfl⟩
  | finished => exact ⟨_, rfl⟩
  | broken => exact ⟨_, rfl⟩

private theorem accept_firstFrame_of_silent :
    Failover.accept (firstFrame [.fault ⟨.wouldBlock, none⟩]) =
      .error (.io ⟨.wouldBlock, none⟩) := by
  decide +kernel

private theorem accept_attempt_of_useless (hroute : network.hasRoute = true)
    (htimed : timeout.nanos ≠ 0)
    (h : IsUseless endpoint.transport (network.remote endpoint)) (frame : Bytes) :
    ∃ fault, Failover.accept (network.attempt pieces endpoint frame timeout) =
      .error fault := by
  rw [attempt, connect_eq hroute htimed]
  generalize endpoint.transport = transport at h
  generalize network.remote endpoint = remote at h
  cases h with
  | down => cases transport <;> exact ⟨_, rfl⟩
  | silent =>
      cases transport with
      | stream => exact ⟨_, accept_firstFrame_of_silent⟩
      | datagram => exact ⟨_, rfl⟩
  | cannedStream rejected =>
      exact accept_firstFrame rejected (isCutOf_inPieces pieces _)
  | cannedDatagram rejected =>
      obtain ⟨cause, hcause⟩ := rejected
      exact ⟨_, accept_of_rejected hcause⟩

/-! ## Exchanges -/

variable {course : Course}

theorem accept_untimed_of_calculator (hroute : network.hasRoute = true)
    (htimed : timeout.nanos ≠ 0) {service : Service}
    (h : IsCalculator endpoint.transport (network.remote endpoint) service)
    (hexit : request.operation ≠ .exit) (made : Nat) :
    Failover.accept ((network.untimed course endpoint request.encode timeout).run made).1 =
      .ok (service.respond request).cleaned := by
  change Failover.accept ((network.attempt _ _ _ _).mapError _) = _
  rw [attempt_of_calculator hroute htimed h hexit]
  exact (Failover.Verdict.response (Response.decode_encode _)).eq_accept

theorem accept_untimed_of_useless (hroute : network.hasRoute = true)
    (htimed : timeout.nanos ≠ 0)
    (h : IsUseless endpoint.transport (network.remote endpoint)) (frame : Bytes)
    (made : Nat) :
    ∃ fault, Failover.accept ((network.untimed course endpoint frame timeout).run made).1 =
      .error fault := by
  obtain ⟨fault, hfault⟩ := accept_attempt_of_useless hroute htimed h frame
  exact accept_mapError hfault _

end Network

end RemoteCalc.Net
