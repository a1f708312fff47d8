import RemoteCalc.Proofs.Blocking.Conversation
import RemoteCalc.Proofs.Wire.Faults

/-!
# Receiving a talk

The frames of a talk are received one by one, each once and byte for byte, and then the
end of the stream, in whatever pieces the talk arrives.  Reads that fail in between are
told in the place where they happen and change nothing else.
-/

namespace RemoteCalc.Blocking

open Text Wire

/-- A server writes the same to a client that ends its stream and to one that falls silent. -/
theorem converse_followed_fault (service : Service) {cause : IoFault}
    (hkind : cause.kind ≠ .interrupted) {inbox : Inbox}
    (hscript : Arrival.IsScript inbox.source) :
    converse service (inbox.followed [.fault cause]) = converse service inbox := by
  have hself : inbox.followed [] = inbox := by rw [Inbox.followed, List.append_nil]
  cases Inbox.reach hscript with
  | within delivery rest receives unended script faults =>
      have hreceive := receives []
      have hlater : rest.followed [] = rest := by rw [Inbox.followed, List.append_nil]
      rw [hself, hlater] at hreceive
      rw [converse_of_receive (receives _), converse_of_receive hreceive]
      cases delivery with
      | frame frame =>
          have := Inbox.weight_receive_frame hreceive
          simp only [converse_followed_fault service hkind script]
      | finished => rfl
      | fault cause => cases cause <;> rfl
  | beyond pending receives endless short faults =>
      have hended := receives []
      rw [hself, Inbox.receive_of_short endless short, Arrival.read] at hended
      have hsilent := receives [.fault cause]
      rw [Inbox.receive_fault endless short, if_neg hkind] at hsilent
      rw [converse_of_receive hsilent]
      split_ifs at hended <;> rw [converse_of_receive hended]
termination_by inbox.weight

def Remainder.ending (remainder : Remainder) : Delivery :=
  if remainder.bytes = [] then .finished else .fault (.transport .closedMidFrame)

private theorem Remainder.isEnd_ending (remainder : Remainder) :
    remainder.ending.IsEnd := by
  rw [Remainder.ending]
  split_ifs
  · exact .inl rfl
  · exact .inr rfl

private theorem receive_remainder {remainder : Remainder}
    (hshort : remainder.bytes.length < maxFrameLength)
    {inbox : Inbox} (h : inbox.IsReading)
    (htext : trimmed inbox.stream = remainder.bytes) :
    inbox.receive = (remainder.ending, ⟨remainder.bytes, []⟩) := by
  obtain ⟨⟨delivery, rest⟩, hreceive⟩ : ∃ received, inbox.receive = received := ⟨_, rfl⟩
  have hnone := frameLength?_eq_none_iff.mpr remainder.unfinished
  have houtcome := Inbox.outcome_of_receive h hreceive
  rw [htext] at houtcome
  rw [hreceive]
  cases houtcome with
  | frame found => rw [hnone] at found; contradiction
  | overflow full => omega
  | finished empty => rw [Remainder.ending, if_pos empty, empty]
  | broken _ _ some => rw [Remainder.ending, if_neg some]

private theorem yields_remainder {remainder : Remainder}
    (hshort : remainder.bytes.length < maxFrameLength)
    {inbox : Inbox} (h : inbox.IsReading)
    (htext : trimmed inbox.stream = remainder.bytes) :
    inbox.Yields [] remainder.ending := by
  have hreading : (Inbox.mk remainder.bytes []).IsReading :=
    ⟨Arrival.isCut_nil, Nat.lt_add_right _ hshort⟩
  have hself : trimmed (Inbox.mk remainder.bytes []).stream = remainder.bytes := by
    rw [Inbox.trimmed_stream_of_nil rfl, trimmed_eq_self remainder.unblank]
  intro calls
  rw [List.length_nil, Nat.zero_add, List.nil_append]
  induction calls generalizing inbox with
  | zero => rfl
  | succ calls ih =>
      rw [Inbox.receiveMany_succ, receive_remainder hshort h htext, ih hreading hself,
        List.replicate_succ]

theorem yields_spaced (frames : List (Framed × Blanks)) (remainder : Remainder)
    (hshort : remainder.bytes.length < maxFrameLength) {inbox : Inbox}
    (h : inbox.IsReading)
    (htext : trimmed inbox.stream = trimmed (spaced frames ++ remainder.bytes)) :
    inbox.Yields (frames.map fun item => .frame item.1.bytes) remainder.ending := by
  induction frames generalizing inbox with
  | nil =>
      rw [spaced, List.flatMap_nil, List.nil_append,
        trimmed_eq_self remainder.unblank] at htext
      exact yields_remainder hshort h htext
  | cons head frames ih =>
      obtain ⟨frame, blanks⟩ := head
      rw [trimmed_spaced_cons] at htext
      obtain ⟨rest, hreceive, hreading, hmore⟩ := receive_framed frame blanks h htext
      rw [List.map_cons, Inbox.yields_cons_iff, hreceive]
      exact ⟨rfl, ih hreading hmore⟩

private theorem yields_talk {talk : Talk}
    (hshort : talk.remainder.bytes.length < maxFrameLength)
    {source : List Arrival} (h : IsCutOf talk.bytes source) :
    (Inbox.ofSource source).Yields
    (talk.frameBytes.map .frame) talk.remainder.ending := by
  rw [Talk.frameBytes, List.map_map]
  apply yields_spaced talk.frames talk.remainder hshort (Inbox.isReading_ofSource h.cut)
  rw [Inbox.stream_ofSource h, Talk.bytes, List.append_assoc,
    trimmed_blanks talk.lead.blank]

/--
A talk is received through any cuts and faults.  The frames come in their order, byte for
byte, and the faults in theirs, but for interrupted reads; then every call meets the end.
Without one of the faults, all other deliveries are the same, in the same order.
-/
theorem talk_received_through_faults (talk : Talk)
    (hshort : talk.remainder.bytes.length < maxFrameLength) {source : List Arrival}
    (hscript : Arrival.IsScript source) (hbytes : Arrival.bytes source = talk.bytes) :
    ∃ results : List Delivery,
      results.filter (fun delivery => delivery.io?.isNone) = talk.frameBytes.map .frame ∧
      results.filterMap Delivery.io? = Arrival.reported source ∧
      (Inbox.ofSource source).Yields results talk.remainder.ending ∧
      ∀ before cause after, source = before ++ .fault cause :: after →
        if cause.kind = .interrupted then
          ∀ calls, (Inbox.ofSource source).receiveMany calls =
            (Inbox.ofSource (before ++ after)).receiveMany calls
        else
          ∃ first second, results = first ++ .fault (.io cause) :: second ∧
            (Inbox.ofSource (before ++ after)).Yields (first ++ second) talk.remainder.ending := by
  have hending := talk.remainder.isEnd_ending
  have hscripted {source : List Arrival} (hscript : Arrival.IsScript source)
      (hbytes : Arrival.bytes source = talk.bytes) :=
    Inbox.exists_isScripted (by simp) hending (fun _ => yields_talk hshort) hscript
      hbytes
  obtain ⟨results, hresults⟩ := hscripted hscript hbytes
  refine ⟨results, hresults.plain, hresults.faults, hresults.yields, ?_⟩
  rintro before cause after rfl
  have hbefore : Arrival.IsScript before := hscript.mono (List.subset_append_left _ _)
  split_ifs with hkind
  · intro calls
    exact Inbox.receiveMany_interrupted hkind calls (.ofSource before) hbefore
  · rw [Arrival.bytes_remove_fault] at hbytes
    obtain ⟨others, hothers⟩ := hscripted hscript.remove_fault hbytes
    obtain ⟨first, second, rfl, hinserted⟩ := hothers.insert hkind hbefore hending
    exact ⟨first, second, hresults.unique hinserted, hothers.yields⟩

def faultyCut : List Arrival :=
  [.data (briefTalk.bytes.take 2), .fault ⟨.interrupted, none⟩, .fault ⟨.timedOut, none⟩,
    .data (briefTalk.bytes.drop 2), .fault ⟨.other, none⟩]

theorem briefTalk_received_through_faults :
    (briefTalk.remainder.bytes.length < maxFrameLength ∧ Arrival.IsScript faultyCut ∧
      Arrival.bytes faultyCut = briefTalk.bytes) ∧
    ∃ results : List Delivery,
      results.filter (fun delivery => delivery.io?.isNone) =
        [.frame (ofChars ";;;".toList), .frame (ofChars "OP:EXT;OP1:0;OP2:0;".toList)] ∧
      results.filterMap Delivery.io? = [⟨.timedOut, none⟩, ⟨.other, none⟩] ∧
      (Inbox.ofSource faultyCut).Yields results
      (.fault (.transport .closedMidFrame)) := by
  have hshort : briefTalk.remainder.bytes.length < maxFrameLength := by decide
  have hscript : Arrival.IsScript faultyCut := by simp [Arrival.IsScript, faultyCut]; decide
  have hbytes : Arrival.bytes faultyCut = briefTalk.bytes := by decide
  obtain ⟨results, hframes, hfaults, hyields, -⟩ :=
    talk_received_through_faults briefTalk hshort hscript hbytes
  exact ⟨⟨hshort, hscript, hbytes⟩, results, hframes, hfaults, hyields⟩

end RemoteCalc.Blocking
