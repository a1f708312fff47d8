import RemoteCalc.Blocking.Conversation
import RemoteCalc.Proofs.Service
import RemoteCalc.Proofs.Wire.Inbox

/-!
# What a blocking server writes

A client sends frames, with blanks between them and perhaps the beginning of one more
behind them.  The server answers the frames one by one up to the first that asks to
exit, however the stream was cut into reads.
-/

namespace RemoteCalc.Blocking

open Text Wire

/-! ## Answers -/

def asksToExit (frame : Bytes) : Bool :=
  match Request.decode frame with
  | .ok request => request.operation = .exit
  | .error _ => false

def answerTo (service : Service) (frame : Bytes) : Bytes :=
  match Request.decode frame with
  | .ok request => (service.respond request).encode
  | .error _ => badRequestFrame service.tag

private theorem handleOrReject_eq (service : Service) (frame : Bytes) :
    service.handleOrReject frame =
      if asksToExit frame then .hangup else .frame (answerTo service frame) := by
  rw [Service.handleOrReject, Service.handle, asksToExit, answerTo,
    ← service.rejection_eq]
  cases Request.decode frame with
  | error fault => rfl
  | ok request =>
      by_cases hexit : request.operation = .exit <;>
        simp [Except.map, Service.reply, hexit]

/-! ## Talks -/

/-- One frame in a stream, without the blanks around it. -/
structure Framed where
  bytes : Bytes
  unblank : StopsAt isBlankByte bytes
  short : bytes.length ≤ maxFrameLength
  fields : bytes.count terminator = fieldCount
  ended : bytes.getLast? = some terminator

structure Blanks where
  bytes : Bytes
  blank : ∀ b ∈ bytes, isBlankByte b = true

/-- What is left of a stream behind its last frame and the blanks there. -/
structure Remainder where
  bytes : Bytes
  unblank : StopsAt isBlankByte bytes
  unfinished : bytes.count terminator < fieldCount

/-- All that a client sends: each frame comes with the blanks behind it. -/
structure Talk where
  lead : Blanks
  frames : List (Framed × Blanks)
  remainder : Remainder

def spaced (frames : List (Framed × Blanks)) : Bytes :=
  frames.flatMap fun item => item.1.bytes ++ item.2.bytes

namespace Talk

def bytes (talk : Talk) : Bytes :=
  talk.lead.bytes ++ spaced talk.frames ++ talk.remainder.bytes

def frameBytes (talk : Talk) : List Bytes := talk.frames.map fun item => item.1.bytes

end Talk

/--
What is written for these frames and the bytes behind them: the answers to the frames
before the first that asks to exit, and a rejection if there is none and the bytes are
too many to become a frame.
-/
def written (service : Service) (frames : List Bytes) (remainder : Bytes) : Bytes :=
  (frames.takeWhile fun frame => !asksToExit frame).flatMap (answerTo service) ++
    if (∀ frame ∈ frames, asksToExit frame = false) ∧ maxFrameLength ≤ remainder.length then
      badRequestFrame service.tag
    else []

theorem Framed.frameLength?_append (frame : Framed) (more : Bytes) :
    frameLength? (frame.bytes ++ more) = some frame.bytes.length :=
  Wire.frameLength?_append (frameLength?_eq_length_iff.mpr ⟨frame.fields, frame.ended⟩) more

private theorem Framed.ne_nil (frame : Framed) : frame.bytes ≠ [] := by
  intro hnil
  have hended := frame.ended
  rw [hnil] at hended
  contradiction

theorem Framed.trimmed_append (frame : Framed) (more : Bytes) :
    trimmed (frame.bytes ++ more) = frame.bytes ++ more := by
  rw [Wire.trimmed_append, trimmed_eq_self frame.unblank, if_neg frame.ne_nil]

theorem trimmed_spaced_cons (frame : Framed) (blanks : Blanks)
    (frames : List (Framed × Blanks)) (more : Bytes) :
    trimmed (spaced ((frame, blanks) :: frames) ++ more) =
      frame.bytes ++ (blanks.bytes ++ (spaced frames ++ more)) := by
  rw [← frame.trimmed_append]
  simp [spaced]

theorem receive_framed (frame : Framed) (blanks : Blanks) {more : Bytes} {inbox : Inbox}
    (h : inbox.IsReading)
    (htext : trimmed inbox.stream = frame.bytes ++ (blanks.bytes ++ more)) :
    ∃ rest, inbox.receive = (.frame frame.bytes, rest) ∧ rest.IsReading ∧
      trimmed rest.stream = trimmed more := by
  obtain ⟨⟨delivery, rest⟩, hreceive⟩ : ∃ received, inbox.receive = received := ⟨_, rfl⟩
  have hlength := frame.frameLength?_append (blanks.bytes ++ more)
  have houtcome := Inbox.outcome_of_receive h hreceive
  rw [htext] at houtcome
  cases houtcome with
  | frame found bound reading left =>
      cases hlength.symm.trans found
      refine ⟨rest, ?_, reading, ?_⟩
      · rw [hreceive, List.take_left]
      · rw [left, List.drop_left, trimmed_blanks blanks.blank]
  | overflow full long => exact absurd (long _ hlength) (Nat.not_lt.mpr frame.short)
  | finished empty => simp [frame.ne_nil] at empty
  | broken short endless => rw [hlength] at endless; contradiction

/-! ## The server -/

theorem converse_of_receive {service : Service} {inbox rest : Inbox}
    {delivery : Delivery} :
    inbox.receive = (delivery, rest) → converse service inbox =
      match delivery with
      | .frame frame =>
          match service.handleOrReject frame with
          | .frame bytes => bytes :: converse service rest
          | .hangup => []
      | .fault (.frame _) => [service.rejection]
      | _ => [] := by
  intro h
  rw [converse]
  split
  · rename_i frame rest' hreceive
    cases h.symm.trans hreceive
    rfl
  · rename_i fault rest' hreceive
    cases h.symm.trans hreceive
    rfl
  · rename_i hframe hfault
    cases delivery with
    | frame frame => exact (hframe _ _ h).elim
    | finished => rfl
    | fault cause =>
        cases cause with
        | frame fault => exact (hfault _ _ h).elim
        | _ => rfl

theorem written_nil (service : Service) (remainder : Bytes) :
    written service [] remainder =
      if maxFrameLength ≤ remainder.length then badRequestFrame service.tag else [] := by
  simp [written]

theorem written_cons (service : Service) (frame : Bytes) (frames : List Bytes)
    (remainder : Bytes) :
    written service (frame :: frames) remainder =
      if asksToExit frame then []
      else answerTo service frame ++ written service frames remainder := by
  by_cases hexit : asksToExit frame = true <;> simp [written, hexit]

/-- Wherever the server stands among the frames, it writes what they and the rest call for. -/
theorem flatten_converse (service : Service) (frames : List (Framed × Blanks))
    (remainder : Remainder) {inbox : Inbox} (h : inbox.IsReading)
    (htext : trimmed inbox.stream = trimmed (spaced frames ++ remainder.bytes)) :
    (converse service inbox).flatten =
      written service (frames.map fun item => item.1.bytes) remainder.bytes := by
  induction frames generalizing inbox with
  | nil =>
      obtain ⟨⟨delivery, rest⟩, hreceive⟩ : ∃ received, inbox.receive = received :=
        ⟨_, rfl⟩
      have hself : trimmed (spaced [] ++ remainder.bytes) = remainder.bytes :=
        trimmed_eq_self remainder.unblank
      have hnone := frameLength?_eq_none_iff.mpr remainder.unfinished
      have houtcome := Inbox.outcome_of_receive h hreceive
      rw [htext, hself] at houtcome
      rw [List.map_nil, written_nil, converse_of_receive hreceive]
      cases houtcome with
      | frame found => rw [hnone] at found; contradiction
      | overflow full => simp [if_pos full, service.rejection_eq]
      | finished empty => simp [empty, maxFrameLength]
      | broken short => simp [if_neg (Nat.not_le.mpr short)]
  | cons head frames ih =>
      obtain ⟨frame, blanks⟩ := head
      rw [trimmed_spaced_cons] at htext
      obtain ⟨rest, hreceive, hreading, hmore⟩ := receive_framed frame blanks h htext
      rw [List.map_cons, written_cons, converse_of_receive hreceive]
      simp only [handleOrReject_eq]
      by_cases hexit : asksToExit frame.bytes = true
      · simp [hexit]
      · simp [hexit, ih hreading hmore]

/--
A server answers every frame of a talk in order, up to the first that asks to exit, in
whatever pieces the talk arrives.  A frame that is no request costs one rejection.
-/
theorem serveStream_talk (service : Service) (talk : Talk) {source : List Arrival}
    (hcut : Arrival.IsCut source) (hbytes : Arrival.bytes source = talk.bytes) :
    (∀ frame, service.handleOrReject frame =
      if asksToExit frame then .hangup else .frame (answerTo service frame)) ∧
    Response.decode (badRequestFrame service.tag) =
      .ok ⟨0, some "Server error: Bad request format", wireTag service.tag⟩ ∧
    serveStream service source =
      written service talk.frameBytes talk.remainder.bytes := by
  refine ⟨handleOrReject_eq service, decode_badRequestFrame service.tag, ?_⟩
  apply flatten_converse service talk.frames talk.remainder
  · exact ⟨hcut, Nat.succ_pos _⟩
  · rw [Inbox.ofSource, Inbox.stream, List.nil_append, hbytes, Talk.bytes,
      List.append_assoc, trimmed_blanks talk.lead.blank]

/-- A frame that is no request, a request to exit, and the beginning of a third frame. -/
def briefTalk : Talk where
  lead := ⟨[0x0a], List.all_eq_true.mp rfl⟩
  frames :=
    [(⟨ofChars ";;;".toList, rfl, by decide, by decide, by decide⟩,
        ⟨[0x20], List.all_eq_true.mp rfl⟩),
      (⟨ofChars "OP:EXT;OP1:0;OP2:0;".toList, rfl, by decide, by decide, by decide⟩,
        ⟨[], List.forall_mem_nil _⟩)]
  remainder := ⟨ofChars "OP:".toList, rfl, by decide⟩

def briefCut : List Arrival :=
  [.data (briefTalk.bytes.take 2), .data (briefTalk.bytes.drop 2)]

theorem serveStream_briefTalk :
    (Arrival.IsCut briefCut ∧ Arrival.bytes briefCut = briefTalk.bytes) ∧
      serveStream ⟨"T"⟩ briefCut =
        ofChars "RES:0;ERR:Server error: Bad request format;STYPE:T;".toList := by
  have hcut : Arrival.IsCut briefCut :=
    .cons (by decide) (.cons (by decide) Arrival.isCut_nil)
  have hbytes : Arrival.bytes briefCut = briefTalk.bytes := by decide
  have hrejected : badRequestFrame "T" =
      ofChars "RES:0;ERR:Server error: Bad request format;STYPE:T;".toList := by decide
  have hwritten : written ⟨"T"⟩ briefTalk.frameBytes briefTalk.remainder.bytes =
      badRequestFrame "T" := by
    have hfirst : ¬asksToExit (ofChars ";;;".toList) = true := by decide
    have hsecond : asksToExit (ofChars "OP:EXT;OP1:0;OP2:0;".toList) = true := by
      decide +kernel
    have hframes : briefTalk.frameBytes =
        [ofChars ";;;".toList, ofChars "OP:EXT;OP1:0;OP2:0;".toList] := rfl
    rw [hframes, written_cons, written_cons, if_neg hfirst, if_pos hsecond,
      List.append_nil]
    rfl
  have hserved := (serveStream_talk ⟨"T"⟩ briefTalk hcut hbytes).2.2
  exact ⟨⟨hcut, hbytes⟩, hserved.trans (hwritten.trans hrejected)⟩

end RemoteCalc.Blocking
