import RemoteCalc.Blocking.Server
import RemoteCalc.Proofs.Blocking.Conversation
import RemoteCalc.Proofs.Pool.Schedule
import RemoteCalc.Proofs.Wire.Limit

/-!
# Pooled servers and iterative servers

What a client is sent does not depend on how its stream is cut, on what the receive buffer
held before, or on the other clients.  A pool therefore sends each client what a server
sends that takes its clients in turn, in whatever order its workers get to them.
-/

namespace RemoteCalc

open Wire

/-! ## One stream -/

namespace Wire

private theorem HasLateEnd.hasLongFrame {stream : Bytes} (h : HasLateEnd stream) :
    HasLongFrame stream := by
  induction h with
  | here found late _ => exact .here found late
  | later found short _ ih => exact .later found short ih

private theorem not_hasLongFrame_of_short {stream : Bytes}
    (h : stream.length ≤ maxFrameLength) :
    ¬HasLongFrame stream := by
  intro hlong
  induction hlong with
  | @here stream length found long =>
      have hle := frameLength?_le found
      have htrimmed := length_trimmed_le stream
      omega
  | @later stream length found short rest ih =>
      have htrimmed := length_trimmed_le stream
      apply ih
      rw [List.length_drop]
      omega

end Wire

namespace Blocking

variable {α β : Type}

private theorem converse_of_agree (service : Service) {first second : Inbox}
    (h : Inbox.Agree first second) :
    converse service first = converse service second := by
  induction hweight : first.weight using Nat.strong_induction_on generalizing first second with
  | _ weight ih =>
      obtain ⟨⟨delivery, rest⟩, hfirst⟩ : ∃ received, first.receive = received :=
        ⟨_, rfl⟩
      obtain ⟨⟨delivery', rest'⟩, hsecond⟩ : ∃ received, second.receive = received :=
        ⟨_, rfl⟩
      obtain ⟨hdelivery, hrest⟩ := h.receive
      rw [hfirst, hsecond] at hdelivery hrest
      obtain rfl : delivery = delivery' := hdelivery
      rw [converse_of_receive hfirst, converse_of_receive hsecond]
      cases delivery with
      | frame frame =>
          have hlater := ih rest.weight (hweight ▸ Inbox.weight_receive_frame hfirst) hrest rfl
          simp only [hlater]
      | finished => rfl
      | fault cause => cases cause <;> rfl

/-- What is sent on a stream, told by its bytes alone. -/
def streamAnswer (service : Service) (stream : Bytes) : Bytes :=
  serveStream service (singles stream)

private theorem serveStream_eq_streamAnswer (service : Service) {stream : Bytes}
    (hlimit : ¬HasLongFrame stream) {source : List Arrival}
    (h : IsCutOf stream source) :
    serveStream service source = streamAnswer service stream := by
  have hsingles := isCutOf_singles stream
  have hagree : Inbox.Agree (.ofSource source) (.ofSource (singles stream)) := by
    refine .reading (Inbox.isReading_ofSource h.cut)
      (Inbox.isReading_ofSource hsingles.cut) ?_ ?_
    · rw [Inbox.stream_ofSource h, Inbox.stream_ofSource hsingles]
    · rw [Inbox.stream_ofSource h]
      exact mt HasLateEnd.hasLongFrame hlimit
  rw [streamAnswer, serveStream, serveStream, converse_of_agree service hagree]

private theorem map_serveStream (service : Service) {streams : List Bytes}
    (hlimit : ∀ stream ∈ streams, ¬HasLongFrame stream) {sources : List (List Arrival)}
    (h : List.Forall₂ IsCutOf streams sources) :
    sources.map (serveStream service) = streams.map (streamAnswer service) := by
  induction h with
  | nil => rfl
  | cons hcut _ ih =>
      obtain ⟨hfirst, hrest⟩ := List.forall_mem_cons.mp hlimit
      rw [List.map_cons, List.map_cons, serveStream_eq_streamAnswer service hfirst hcut,
        ih hrest]

/-! ## One datagram -/

namespace Buffer

private theorem request_receive (buffer : Buffer) (datagram : Bytes) :
    (buffer.receive datagram).request = received datagram :=
  List.take_left

private theorem requests_eq_map (buffer : Buffer) (datagrams : List Bytes) :
    buffer.requests datagrams = datagrams.map received := by
  induction datagrams generalizing buffer with
  | nil => rfl
  | cons datagram rest ih => rw [requests, request_receive, ih, List.map_cons]

end Buffer

def datagramAnswer (service : Service) (datagram : Bytes) : Option Bytes :=
  answer service (received datagram)

theorem map_answer_requests (service : Service) (datagrams : List Bytes) :
    (Buffer.empty.requests datagrams).map (answer service) =
      datagrams.map (datagramAnswer service) := by
  rw [Buffer.requests_eq_map, List.map_map]
  rfl

/-! ## All clients -/

theorem served_zipIdx (serve : α → β) (clients : List α) :
    served serve clients.zipIdx = (clients.map serve).zipIdx.map Prod.swap := by
  rw [List.zipIdx_map, List.map_map]
  rfl

private theorem sentTo_zipIdx (answers : List β) (start place : Nat) :
    sentTo ((answers.zipIdx start).map Prod.swap) (start + place) =
      answers[place]?.toList := by
  induction answers generalizing start place with
  | nil => rfl
  | cons answer answers ih =>
      rw [List.zipIdx_cons, List.map_cons, sentTo, List.filter_cons]
      cases place with
      | zero =>
          have hnone : ((answers.zipIdx (start + 1)).map Prod.swap).filter
              (fun item => item.1 = start) = [] := by
            apply List.filter_eq_nil_iff.mpr
            intro item hitem
            obtain ⟨⟨other, index⟩, hindex, rfl⟩ := List.mem_map.mp hitem
            have hle := (List.mem_zipIdx hindex).1
            rw [Prod.fst_swap, decide_eq_true_iff]
            omega
          simp [hnone]
      | succ place =>
          have hlater := ih (start + 1) place
          rw [Nat.add_assoc, Nat.add_comm 1 place] at hlater
          simpa [sentTo] using hlater

private theorem sentTo_of_perm {sent : Sent β} {answers : List β}
    (h : sent.Perm (answers.zipIdx.map Prod.swap)) (place : Nat) :
    sentTo sent place = answers[place]?.toList := by
  have hplace := sentTo_zipIdx answers 0 place
  rw [Nat.zero_add] at hplace
  have hperm : (sentTo sent place).Perm (answers[place]?.toList) :=
    hplace ▸ (h.filter _).map Prod.snd
  cases hanswer : answers[place]? with
  | none => exact List.perm_nil.mp (by simpa [hanswer] using hperm)
  | some answer => exact List.perm_singleton.mp (by simpa [hanswer] using hperm)

private theorem map_sentTo_of_perm {γ : Type} {sent : Sent β} {answers : List β}
    (h : sent.Perm (answers.zipIdx.map Prod.swap)) (gather : List β → γ) :
    ((List.range answers.length).map fun client => gather (sentTo sent client)) =
      answers.map fun answer => gather [answer] := by
  apply List.ext_getElem
  · rw [List.length_map, List.length_map, List.length_range]
  · intro place hplace hlt
    rw [List.length_map] at hlt
    rw [List.getElem_map, List.getElem_map, List.getElem_range, sentTo_of_perm h,
      List.getElem?_eq_getElem hlt]
    rfl

private theorem streamReplies_of_perm {sent : Sent Bytes} {answers : List Bytes}
    (h : sent.Perm (answers.zipIdx.map Prod.swap)) :
    streamReplies answers.length sent = answers := by
  rw [streamReplies, map_sentTo_of_perm h]
  simp

private theorem datagramReplies_of_perm {sent : Sent (Option Bytes)}
    {answers : List (Option Bytes)} (h : sent.Perm (answers.zipIdx.map Prod.swap)) :
    datagramReplies answers.length sent = answers.map Option.toList := by
  rw [datagramReplies, map_sentTo_of_perm h]
  apply List.map_congr_left
  rintro (_ | answer) _ <;> rfl

theorem served_of_schedule {workers : Nat} (hworkers : 0 < workers) (serve : α → β)
    (clients : List α) :
    ∃ state, Pool.start workers clients.zipIdx = .ok state ∧
      ∀ schedule later, state.follow? Pool.returning schedule = some later →
          later.AllStopped →
        (served serve later.ran).Perm ((clients.map serve).zipIdx.map Prod.swap) := by
  refine ⟨_, Pool.start_eq hworkers _, ?_⟩
  intro schedule later hfollow hstopped
  have hsound := (Pool.Sound.initial workers clients.zipIdx).follow hfollow
  rw [← served_zipIdx]
  exact (hsound.ran_perm_of_allStopped hworkers hstopped).map _

/-- A server without a pool, or with one that has a worker. -/
def Concurrency.Serves : Concurrency → Prop
  | .iterative => True
  | .pooled workers => 0 < workers

variable {concurrency : Concurrency}

private theorem serveAll_perm (h : concurrency.Serves) (serve : α → β)
    (clients : List α) :
    ∃ sent, serveAll concurrency serve clients = .ok sent ∧
      sent.Perm ((clients.map serve).zipIdx.map Prod.swap) := by
  cases concurrency with
  | iterative => exact ⟨_, rfl, .of_eq (served_zipIdx serve clients)⟩
  | pooled workers =>
      have hnone : clients.zipIdx.countP (fun job => (Pool.returning job).escapes) = 0 :=
        List.countP_eq_zero.mpr fun _ _ => Bool.false_ne_true
      obtain ⟨ran, hran, hperm⟩ := Pool.runAll_perm (hnone.trans_lt h)
      refine ⟨_, by rw [serveAll, hran]; rfl, ?_⟩
      rw [← served_zipIdx]
      exact hperm.map _

theorem serveStreams_eq_map (h : concurrency.Serves) (service : Service)
    (sources : List (List Arrival)) :
    serveStreams service concurrency sources =
      .ok (sources.map (serveStream service)) := by
  obtain ⟨sent, hsent, hperm⟩ := serveAll_perm h (serveStream service) sources
  have hreplies := streamReplies_of_perm hperm
  rw [List.length_map] at hreplies
  rw [serveStreams, hsent]
  exact congrArg Except.ok hreplies

private theorem serveStreams_eq (h : concurrency.Serves) (service : Service)
    {streams : List Bytes}
    (hlimit : ∀ stream ∈ streams, ¬HasLongFrame stream) {sources : List (List Arrival)}
    (hsources : List.Forall₂ IsCutOf streams sources) :
    serveStreams service concurrency sources =
      .ok (streams.map (streamAnswer service)) := by
  rw [serveStreams_eq_map h, map_serveStream service hlimit hsources]

theorem datagramReplies_of_answers {service : Service} {datagrams : List Bytes}
    {sent : Sent (Option Bytes)}
    (h : sent.Perm ((datagrams.map (datagramAnswer service)).zipIdx.map Prod.swap)) :
    datagramReplies datagrams.length sent =
      datagrams.map fun datagram => (datagramAnswer service datagram).toList := by
  have hreplies := datagramReplies_of_perm h
  rwa [List.length_map, List.map_map] at hreplies

theorem serveDatagrams_eq (h : concurrency.Serves) (service : Service)
    (datagrams : List Bytes) :
    serveDatagrams service concurrency datagrams =
      .ok (datagrams.map fun datagram => (datagramAnswer service datagram).toList) := by
  obtain ⟨sent, hsent, hperm⟩ :=
    serveAll_perm h (answer service) (Buffer.empty.requests datagrams)
  rw [map_answer_requests] at hperm
  rw [serveDatagrams, hsent]
  exact congrArg Except.ok (datagramReplies_of_answers hperm)

/--
For streams that are cut for a pool in one way and for an iterative server in another, and
for datagrams: after any schedule by which all workers have stopped, the pool has sent what
the iterative server sends, and each client has got the answer to its own bytes.
-/
theorem pooled_serves_as_iterative (service : Service) {workers : Nat}
    (hworkers : 0 < workers)
    {streams : List Bytes} (hlimit : ∀ stream ∈ streams, ¬HasLongFrame stream)
    {sources arrivals : List (List Arrival)}
    (hsources : List.Forall₂ IsCutOf streams sources)
    (harrivals : List.Forall₂ IsCutOf streams arrivals) (datagrams : List Bytes) :
    ((∃ state, Pool.start workers sources.zipIdx = .ok state ∧
        ∀ schedule later, state.follow? Pool.returning schedule = some later →
          later.AllStopped →
          (served (serveStream service) later.ran).Perm
            (served (serveStream service) arrivals.zipIdx) ∧
          streamReplies streams.length (served (serveStream service) later.ran) =
            streams.map (streamAnswer service)) ∧
      serveStreams service (.pooled workers) sources =
        .ok (streams.map (streamAnswer service)) ∧
      serveStreams service .iterative arrivals =
        .ok (streams.map (streamAnswer service))) ∧
    (∃ state, Pool.start workers (Buffer.empty.requests datagrams).zipIdx = .ok state ∧
        ∀ schedule later, state.follow? Pool.returning schedule = some later →
          later.AllStopped →
          (served (answer service) later.ran).Perm
            (served (answer service) (Buffer.empty.requests datagrams).zipIdx) ∧
          datagramReplies datagrams.length (served (answer service) later.ran) =
            datagrams.map fun datagram => (datagramAnswer service datagram).toList) ∧
      serveDatagrams service (.pooled workers) datagrams =
        .ok (datagrams.map fun datagram => (datagramAnswer service datagram).toList) ∧
      serveDatagrams service .iterative datagrams =
        .ok (datagrams.map fun datagram => (datagramAnswer service datagram).toList) := by
  have hpooled : (Concurrency.pooled workers).Serves := hworkers
  have hiterative : Concurrency.iterative.Serves := trivial
  refine ⟨⟨?_, serveStreams_eq hpooled service hlimit hsources,
      serveStreams_eq hiterative service hlimit harrivals⟩,
    ?_, serveDatagrams_eq hpooled service datagrams,
    serveDatagrams_eq hiterative service datagrams⟩
  · obtain ⟨state, hstart, hserved⟩ :=
      served_of_schedule hworkers (serveStream service) sources
    refine ⟨state, hstart, ?_⟩
    intro schedule later hfollow hstopped
    have hsent := hserved schedule later hfollow hstopped
    rw [map_serveStream service hlimit hsources] at hsent
    constructor
    · rwa [served_zipIdx, map_serveStream service hlimit harrivals]
    · have hreplies := streamReplies_of_perm hsent
      rwa [List.length_map] at hreplies
  · obtain ⟨state, hstart, hserved⟩ :=
      served_of_schedule hworkers (answer service) (Buffer.empty.requests datagrams)
    refine ⟨state, hstart, ?_⟩
    intro schedule later hfollow hstopped
    have hsent := hserved schedule later hfollow hstopped
    rw [map_answer_requests] at hsent
    constructor
    · rwa [served_zipIdx, map_answer_requests]
    · exact datagramReplies_of_answers hsent

private theorem streamAnswer_spaced (service : Service)
    (frames : List (Framed × Blanks)) :
    streamAnswer service (spaced frames) =
      written service (frames.map fun item => item.1.bytes) [] := by
  have hsingles := isCutOf_singles (spaced frames)
  apply flatten_converse service frames ⟨[], trivial, Nat.succ_pos _⟩
    (Inbox.isReading_ofSource hsingles.cut)
  rw [Inbox.stream_ofSource hsingles, List.append_nil]

def noRequest : Framed :=
  ⟨ofChars ";;-;".toList, rfl, by decide, by decide, by decide⟩

/-- Two workers, a client that sends a frame with no request in two reads, and a silent one. -/
theorem two_workers_serve_as_iterative :
    (0 < 2 ∧ (∀ stream ∈ [noRequest.bytes, []], ¬HasLongFrame stream) ∧
      List.Forall₂ IsCutOf [noRequest.bytes, []]
        [[.data [terminator], .data [terminator, 0x2d, terminator]], []] ∧
      List.Forall₂ IsCutOf [noRequest.bytes, []] [[.data noRequest.bytes], []]) ∧
    serveStreams ⟨"T"⟩ (.pooled 2)
        [[.data [terminator], .data [terminator, 0x2d, terminator]], []] =
      .ok [ofChars "RES:0;ERR:Server error: Bad request format;STYPE:T;".toList, []] ∧
    serveDatagrams ⟨"T"⟩ (.pooled 2) [noRequest.bytes] =
      .ok [[ofChars "RES:0;ERR:Server error: Bad request format;STYPE:T;".toList]] := by
  have hlimit : ∀ stream ∈ [noRequest.bytes, []], ¬HasLongFrame stream := by
    intro stream hstream
    apply not_hasLongFrame_of_short
    rcases List.mem_pair.mp hstream with rfl | rfl <;> decide
  have hsilent : IsCutOf [] [] := ⟨Arrival.isCut_nil, rfl⟩
  have hsources : List.Forall₂ IsCutOf [noRequest.bytes, []]
      [[.data [terminator], .data [terminator, 0x2d, terminator]], []] :=
    .cons ⟨.cons (by decide) (.cons (by decide) Arrival.isCut_nil), rfl⟩ (.cons hsilent .nil)
  have harrivals : List.Forall₂ IsCutOf [noRequest.bytes, []] [[.data noRequest.bytes], []] :=
    .cons (isCutOf_data (by decide)) (.cons hsilent .nil)
  have hframe : streamAnswer ⟨"T"⟩ noRequest.bytes =
      ofChars "RES:0;ERR:Server error: Bad request format;STYPE:T;".toList := by
    have hexit : ¬asksToExit noRequest.bytes = true := by decide
    have hspaced := streamAnswer_spaced ⟨"T"⟩ [(noRequest, ⟨[], List.forall_mem_nil _⟩)]
    rw [List.map_singleton, written_cons, if_neg hexit, written_nil] at hspaced
    exact hspaced
  have hnone : streamAnswer ⟨"T"⟩ [] = [] := streamAnswer_spaced ⟨"T"⟩ []
  obtain ⟨⟨-, hstreams, -⟩, -, hdatagrams, -⟩ :=
    pooled_serves_as_iterative ⟨"T"⟩ (show 0 < 2 by decide) hlimit hsources harrivals
      [noRequest.bytes]
  refine ⟨⟨by decide, hlimit, hsources, harrivals⟩, ?_, hdatagrams⟩
  rw [hstreams, List.map_cons, List.map_singleton, hframe, hnone]

end Blocking

end RemoteCalc
