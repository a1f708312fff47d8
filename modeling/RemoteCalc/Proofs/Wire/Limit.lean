import RemoteCalc.Proofs.Wire.Cuts

/-!
# The length of received frames

The limit is looked at before a read and not after it, so that a frame may exceed it by
less than one chunk.  Here reads may also fail and streams may end more than once: no
call loses a byte by that, and each leaves less than there was.
-/

namespace RemoteCalc.Wire

open Text

namespace Arrival

private theorem bytes_of_read_error {room : Nat} {source rest : List Arrival}
    {cause : IoFault}
    (h : read room source = (.error cause, rest)) : bytes source = bytes rest := by
  match source with
  | [] => simp [read] at h
  | .fault _ :: _ =>
      cases h
      rfl
  | .data held :: source =>
      rw [read] at h
      split_ifs at h <;> simp at h

private theorem weight_of_read_nil {room : Nat} (hroom : 0 < room)
    {source rest : List Arrival} (h : read room source = (.ok [], rest)) :
    source = [] ∨ weight rest < weight source := by
  match source with
  | [] => exact .inl rfl
  | .fault _ :: _ => simp [read] at h
  | .data held :: source =>
      right
      rw [read] at h
      split_ifs at h with hfits
      · cases h
        simp [weight]
      · simp only [Prod.mk.injEq, Except.ok.injEq, List.take_eq_nil_iff] at h
        rcases h.1 with hzero | rfl
        · omega
        · simp at hfits

end Arrival

/-- A frame over the limit comes in the stream, after frames within it. -/
inductive HasLongFrame : Bytes → Prop
  | here {stream : Bytes} {length : Nat} (found : frameLength? (trimmed stream) = some length)
      (long : maxFrameLength < length) : HasLongFrame stream
  | later {stream : Bytes} {length : Nat} (found : frameLength? (trimmed stream) = some length)
      (short : length ≤ maxFrameLength)
      (rest : HasLongFrame ((trimmed stream).drop length)) : HasLongFrame stream

theorem HasLongFrame.of_trimmed_eq {first second : Bytes}
    (same : trimmed first = trimmed second)
    (h : HasLongFrame first) : HasLongFrame second := by
  cases h with
  | here found long =>
      rw [same] at found
      exact .here found long
  | later found short rest =>
      rw [same] at found rest
      exact .later found short rest

private theorem HasLongFrame.frameLength?_ne_none {stream : Bytes}
    (h : HasLongFrame stream) :
    frameLength? (trimmed stream) ≠ none := by
  cases h with
  | here found => simp [found]
  | later found => simp [found]

theorem HasLongFrame.drop {stream : Bytes} (h : HasLongFrame stream) {length : Nat}
    (found : frameLength? (trimmed stream) = some length)
    (short : length ≤ maxFrameLength) :
    HasLongFrame ((trimmed stream).drop length) := by
  cases h with
  | here found' long =>
      cases found.symm.trans found'
      exact absurd short (Nat.not_le.mpr long)
  | later found' short' rest =>
      cases found.symm.trans found'
      exact rest

theorem HasLateEnd.of_trimmed_eq {first second : Bytes}
    (same : trimmed first = trimmed second)
    (h : HasLateEnd first) : HasLateEnd second := by
  cases h with
  | here found late bound =>
      rw [same] at found
      exact .here found late bound
  | later found short rest =>
      rw [same] at found rest
      exact .later found short rest

namespace Inbox

/-! ## One call whatever its reads meet -/

def IsShort (inbox : Inbox) : Prop :=
  inbox.pending.length < maxFrameLength + chunkLength

/--
What a call comes to, told from the bytes still to come and the weight of the inbox.  A
call without a frame may be made again, unless it has come to the limit.
-/
inductive Progress (text : Bytes) (weight : Nat) : Delivery → Inbox → Prop where
  | frame {length : Nat} {rest : Inbox} (found : frameLength? text = some length)
      (bound : length < maxFrameLength + chunkLength) (short : rest.IsShort)
      (left : rest.stream = text.drop length) (used : rest.weight < weight) :
      Progress text weight (.frame (text.take length)) rest
  | overflow {rest : Inbox} (stuck : rest.IsStuck) :
      Progress text weight (.fault (.frame .noBoundary)) rest
  | interrupted {delivery : Delivery} {rest : Inbox} (short : rest.IsShort)
      (unframed : ∀ frame, delivery ≠ .frame frame) (kept : trimmed rest.stream = text)
      (used : frameLength? text = none ∨ rest.weight < weight) :
      Progress text weight delivery rest

theorem Progress.mono {text : Bytes} {weight weight' : Nat} (hle : weight ≤ weight')
    {delivery : Delivery} {rest : Inbox} (h : Progress text weight delivery rest) :
    Progress text weight' delivery rest := by
  cases h with
  | frame found bound short left used =>
      exact .frame found bound short left (used.trans_le hle)
  | overflow stuck => exact .overflow stuck
  | interrupted short unframed kept used =>
      exact .interrupted short unframed kept
        (used.imp_right fun hlt => hlt.trans_le hle)

private theorem stream_read_error {inbox : Inbox} {room : Nat} {source : List Arrival}
    {cause : IoFault}
    (hread : Arrival.read room inbox.source = (.error cause, source)) :
    trimmed (Inbox.mk (trimmed inbox.pending) source).stream =
      trimmed inbox.stream := by
  have hkept : Arrival.bytes inbox.source = [] ++ Arrival.bytes source :=
    Arrival.bytes_of_read_error hread
  rw [← stream_read hkept, List.append_nil]

private theorem weight_trimmed_lt {inbox : Inbox} {source : List Arrival}
    (h : Arrival.weight source < Arrival.weight inbox.source) :
    (Inbox.mk (trimmed inbox.pending) source).weight < inbox.weight :=
  Nat.add_lt_add_of_le_of_lt (length_trimmed_le inbox.pending) h

private theorem interrupted_of_read_nil {inbox : Inbox} (h : inbox.IsShort)
    {source : List Arrival} (hnone : frameLength? (trimmed inbox.pending) = none)
    (hread : Arrival.read chunkLength inbox.source = (.ok [], source))
    {delivery : Delivery} (hunframed : ∀ frame, delivery ≠ .frame frame) :
    Progress (trimmed inbox.stream) inbox.weight delivery ⟨trimmed inbox.pending, source⟩ := by
  have hkept := stream_read (Arrival.bytes_of_read hread).2
  rw [List.append_nil] at hkept
  refine .interrupted ((length_trimmed_le _).trans_lt h) hunframed hkept ?_
  rcases Arrival.weight_of_read_nil (by decide) hread with hnil | hlt
  · left
    rw [trimmed_stream_of_nil hnil, hnone]
  · exact .inr (weight_trimmed_lt hlt)

private theorem progress_receive {inbox : Inbox} (h : inbox.IsShort) :
    Progress (trimmed inbox.stream) inbox.weight inbox.receive.1 inbox.receive.2 := by
  fun_induction receive inbox with
  | case1 inbox pending length hlength =>
    have htext : trimmed inbox.stream = pending ++ Arrival.bytes inbox.source :=
      trimmed_append_of_frame hlength _
    have hpending : pending.length ≤ inbox.pending.length :=
      length_trimmed_le inbox.pending
    have hlen := frameLength?_le hlength
    have hpos := length_pos_of_lengthThrough? hlength
    have hshort : inbox.pending.length < maxFrameLength + chunkLength := h
    have hframe : pending.take length = (trimmed inbox.stream).take length := by
      rw [htext, List.take_append_of_le_length hlen]
    rw [hframe]
    refine .frame ?_ (by omega) ?_ ?_ ?_
    · rw [htext]
      exact frameLength?_append hlength _
    · rw [IsShort, List.length_drop]
      omega
    · rw [htext, stream, List.drop_append_of_le_length hlen]
    · simp only [weight, List.length_drop]
      omega
  | case2 inbox pending hnone hfull =>
    exact .overflow ⟨hfull, hnone, stopsAt_trimmed inbox.pending⟩
  | case3 inbox pending hnone hfull cause source hread hkind ih =>
    have hpending : pending.length ≤ inbox.pending.length :=
      length_trimmed_le inbox.pending
    rw [← stream_read_error hread]
    exact (ih (hpending.trans_lt h)).mono
      (weight_trimmed_lt (Arrival.weight_read_error hread)).le
  | case4 inbox pending hnone hfull cause source hread hkind =>
    have hpending : pending.length ≤ inbox.pending.length :=
      length_trimmed_le inbox.pending
    exact .interrupted (hpending.trans_lt h) (by simp) (stream_read_error hread)
      (.inr (weight_trimmed_lt (Arrival.weight_read_error hread)))
  | case5 inbox pending hnone hfull source hread hempty =>
    exact interrupted_of_read_nil h hnone hread (by simp)
  | case6 inbox pending hnone hfull source hread hempty =>
    exact interrupted_of_read_nil h hnone hread (by simp)
  | case7 inbox pending hnone hfull b bytes source hread ih =>
    obtain ⟨hroom, hbytes⟩ := Arrival.bytes_of_read hread
    have hpending : pending.length ≤ inbox.pending.length :=
      length_trimmed_le inbox.pending
    have hweight := Arrival.weight_read_ok hread
    rw [← stream_read hbytes]
    refine (ih ?_).mono ?_
    · rw [IsShort, List.length_append]
      omega
    · simp only [weight, List.length_append, List.length_cons]
      omega

private theorem isShort_ofSource (source : List Arrival) : (ofSource source).IsShort :=
  Nat.succ_pos _

/-! ## All calls -/

theorem receiveMany_of_isStuck {inbox : Inbox} (h : inbox.IsStuck) (calls : Nat) :
    receiveMany calls inbox = List.replicate calls (.fault (.frame .noBoundary)) := by
  induction calls with
  | zero => rfl
  | succ calls ih =>
      rw [receiveMany_succ, receive_of_stuck h, ih]
      rfl

private theorem length_le_of_early {inbox : Inbox} (h : inbox.IsShort)
    (hearly : ¬HasLateEnd inbox.stream) {calls : Nat} {frame : Bytes}
    (hmem : .frame frame ∈ receiveMany calls inbox) :
    frame.length ≤ maxFrameLength := by
  induction calls generalizing inbox with
  | zero => contradiction
  | succ calls ih =>
      have hprogress := progress_receive h
      rw [receiveMany_succ, List.mem_cons] at hmem
      generalize inbox.receive.1 = delivery at hprogress hmem
      generalize inbox.receive.2 = rest at hprogress hmem
      cases hprogress with
      | frame found bound short left used =>
          have hlimit := le_limit_of_early hearly found bound
          rcases hmem with hframe | hlater
          · cases hframe
            exact (List.length_take_le _ _).trans hlimit
          · refine ih short ?_ hlater
            rw [left]
            exact fun hrest => hearly (.later found hlimit hrest)
      | overflow stuck =>
          rw [receiveMany_of_isStuck stuck, List.mem_replicate] at hmem
          simp at hmem
      | interrupted short unframed kept used =>
          rcases hmem with hframe | hlater
          · exact absurd hframe.symm (unframed frame)
          · exact ih short (fun hlate => hearly (hlate.of_trimmed_eq kept)) hlater

private theorem noBoundary_mem_of_early {inbox : Inbox} (h : inbox.IsShort)
    (hearly : ¬HasLateEnd inbox.stream) (hlong : HasLongFrame inbox.stream) :
    ∃ calls, .fault (.frame .noBoundary) ∈ receiveMany calls inbox := by
  -- A call before the limit is reached leaves less, also when it is interrupted.
  induction hweight : inbox.weight using Nat.strong_induction_on generalizing inbox with
  | _ weight ih =>
      have hprogress := progress_receive h
      have hcall (calls : Nat) := receiveMany_succ calls inbox
      generalize inbox.receive.1 = delivery at hprogress hcall
      generalize inbox.receive.2 = rest at hprogress hcall
      have hmore : (∃ calls, .fault (.frame .noBoundary) ∈ receiveMany calls rest) →
          ∃ calls, .fault (.frame .noBoundary) ∈ receiveMany calls inbox := by
        rintro ⟨calls, hmem⟩
        refine ⟨calls + 1, ?_⟩
        rw [hcall]
        exact List.mem_cons_of_mem _ hmem
      cases hprogress with
      | frame found bound short left used =>
          have hlimit := le_limit_of_early hearly found bound
          apply hmore
          apply ih _ (hweight ▸ used) short _ _ rfl
          · rw [left]
            exact fun hrest => hearly (.later found hlimit hrest)
          · rw [left]
            exact hlong.drop found hlimit
      | overflow stuck =>
          refine ⟨1, ?_⟩
          rw [hcall]
          exact List.mem_cons_self
      | interrupted short unframed kept used =>
          have hlt : rest.weight < inbox.weight :=
            used.resolve_left hlong.frameLength?_ne_none
          exact hmore (ih _ (hweight ▸ hlt) short
            (fun hlate => hearly (hlate.of_trimmed_eq kept)) (hlong.of_trimmed_eq kept.symm) rfl)

end Inbox

private theorem exists_long_frame {stream : Bytes} (h : HasLateEnd stream) :
    ∃ source, Cuts stream source ∧ ∃ calls frame,
      .frame frame ∈ Inbox.receiveMany calls (.ofSource source) ∧
        maxFrameLength < frame.length := by
  induction h with
  | @here stream length found late bound =>
      obtain ⟨source, hcuts, hframe⟩ := Inbox.exists_cut_late found late bound
      refine ⟨source, hcuts, 1, (trimmed stream).take length, ?_, ?_⟩
      · rw [Inbox.receiveMany_succ, hframe]
        exact List.mem_cons_self
      · rwa [List.length_take_of_le (frameLength?_le found)]
  | @later stream length found short rest ih =>
      obtain ⟨source, hcuts, calls, frame, hmem, hlong⟩ := ih
      refine ⟨_, hcuts.after_frame, calls + 1, frame, ?_, hlong⟩
      rw [Inbox.receiveMany_succ, Inbox.receive_singles_frame source found short]
      exact List.mem_cons_of_mem _ hmem

/--
However a stream is read, with whatever faults in between, no frame over the limit is
handed out and the fault of the limit comes instead, if and only if the stream has no
late end.
-/
theorem frames_within_limit_iff (stream : Bytes) :
    (∀ source, Arrival.bytes source = stream →
      (∀ calls frame, .frame frame ∈ Inbox.receiveMany calls (.ofSource source) →
        frame.length ≤ maxFrameLength) ∧
      (HasLongFrame stream →
        ∃ calls, .fault (.frame .noBoundary) ∈ Inbox.receiveMany calls (.ofSource source))) ↔
      ¬HasLateEnd stream := by
  constructor
  · intro hwithin hlate
    obtain ⟨source, hcuts, calls, frame, hmem, hlong⟩ := exists_long_frame hlate
    exact absurd ((hwithin source hcuts.whole).1 calls frame hmem)
      (Nat.not_le.mpr hlong)
  · rintro hearly source rfl
    have hshort := Inbox.isShort_ofSource source
    exact ⟨fun calls frame => Inbox.length_le_of_early hshort hearly,
      Inbox.noBoundary_mem_of_early hshort hearly⟩

def lateReads : List Arrival :=
  [.data (terminator :: terminator :: List.replicate 510 0x78), .data (List.replicate 511 0x78),
    .data [0x78, terminator]]

theorem lateReads_exceed :
    ¬∀ source calls frame, .frame frame ∈ Inbox.receiveMany calls (.ofSource source) →
      frame.length ≤ maxFrameLength := by
  have hnil : trimmed [] = [] := rfl
  have hself (bytes : Bytes) : trimmed (terminator :: bytes) = terminator :: bytes :=
    trimmed_eq_self rfl
  have hreads : Inbox.receive (.ofSource lateReads) =
      Inbox.receive ⟨Arrival.bytes lateReads, []⟩ := by
    rw [Inbox.ofSource, lateReads, Inbox.receive_of_read, hnil, List.nil_append,
      Inbox.receive_of_read, hself, Inbox.receive_of_read, List.cons_append, hself,
      Arrival.bytes, Arrival.bytes, Arrival.bytes, Arrival.bytes]
    · simp only [List.append_assoc, List.cons_append, List.append_nil]
    all_goals decide +kernel
  have hfound : frameLength? (trimmed (Inbox.mk (Arrival.bytes lateReads) []).pending) =
      some 1025 := by decide +kernel
  have hframe : .frame (Arrival.bytes lateReads) ∈
      Inbox.receiveMany 1 (.ofSource lateReads) := by
    rw [Inbox.receiveMany_succ, hreads, Inbox.receive_of_frame hfound]
    decide +kernel
  intro hbound
  have hlength := hbound lateReads 1 _ hframe
  exact absurd hlength (by decide +kernel)

end RemoteCalc.Wire
