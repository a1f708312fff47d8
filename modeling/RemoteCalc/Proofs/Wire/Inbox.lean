import RemoteCalc.Proofs.Text.Run
import RemoteCalc.Proofs.Wire.Frame
import RemoteCalc.Wire.Inbox

/-!
# What an inbox delivers

The bytes of a stream may be cut into reads in any way.  Whatever the cut, a call for
the next frame skips the blanks before it and comes to one of four outcomes, which
are told here from the bytes still to come.
-/

namespace RemoteCalc.Wire

open Text

/-! ## Blanks before a frame -/

def trimmed (bytes : Bytes) : Bytes := bytes.dropWhile isBlankByte

theorem trimmed_blanks {blanks : Bytes} (h : ∀ b ∈ blanks, isBlankByte b = true)
    (bytes : Bytes) : trimmed (blanks ++ bytes) = trimmed bytes :=
  List.dropWhile_append_of_pos h

theorem trimmed_eq_self {bytes : Bytes} (h : StopsAt isBlankByte bytes) :
    trimmed bytes = bytes :=
  dropWhile_run (List.forall_mem_nil _) h

theorem trimmed_append (first second : Bytes) :
    trimmed (first ++ second) =
      if trimmed first = [] then trimmed second else trimmed first ++ second := by
  rw [trimmed, trimmed, trimmed, List.dropWhile_append]
  by_cases h : first.dropWhile isBlankByte = []
  · rw [if_pos h, if_pos (List.isEmpty_iff.mpr h)]
  · rw [if_neg h, if_neg (mt List.isEmpty_iff.mp h)]

theorem stopsAt_trimmed (bytes : Bytes) : StopsAt isBlankByte (trimmed bytes) :=
  stopsAt_dropWhile isBlankByte bytes

theorem trimmed_trimmed_append (first second : Bytes) :
    trimmed (trimmed first ++ second) = trimmed (first ++ second) := by
  have htwice : trimmed (trimmed first) = trimmed first :=
    trimmed_eq_self (stopsAt_trimmed first)
  rw [trimmed_append, trimmed_append, htwice]

theorem trimmed_append_of_frame {first : Bytes} {length : Nat}
    (h : frameLength? (trimmed first) = some length) (second : Bytes) :
    trimmed (first ++ second) = trimmed first ++ second := by
  have hne : trimmed first ≠ [] := by
    intro hnil
    rw [hnil] at h
    simp [frameLength?, fieldCount] at h
  rw [trimmed_append, if_neg hne]

theorem length_trimmed_le (bytes : Bytes) : (trimmed bytes).length ≤ bytes.length :=
  (List.dropWhile_sublist _).length_le

/-! ## Cuts -/

namespace Arrival

@[simp] def bytes : List Arrival → Bytes
  | [] => []
  | .data found :: rest => found ++ bytes rest
  | .fault _ :: rest => bytes rest

theorem bytes_of_read {room : Nat} {source rest : List Arrival} {found : Bytes}
    (h : read room source = (.ok found, rest)) :
    found.length ≤ room ∧ bytes source = found ++ bytes rest := by
  match source with
  | [] =>
      cases h
      simp [bytes]
  | .fault _ :: _ => simp [read] at h
  | .data held :: source =>
      rw [read] at h
      split_ifs at h with hfits
      · cases h
        exact ⟨hfits, rfl⟩
      · cases h
        constructor
        · exact List.length_take_le _ _
        · rw [bytes, bytes, ← List.append_assoc, List.take_append_drop]

/-- A source of nothing but data, in pieces of which none is empty. -/
def IsCut (source : List Arrival) : Prop :=
  ∀ arrival ∈ source, ∃ found, found ≠ [] ∧ arrival = .data found

theorem isCut_nil : IsCut [] := List.forall_mem_nil _

theorem IsCut.tail {arrival : Arrival} {rest : List Arrival}
    (h : IsCut (arrival :: rest)) :
    IsCut rest := fun other hother => h other (List.mem_cons_of_mem _ hother)

theorem IsCut.cons {found : Bytes} (hfound : found ≠ []) {rest : List Arrival}
    (h : IsCut rest) : IsCut (.data found :: rest) := by
  intro arrival harrival
  rcases List.mem_cons.mp harrival with rfl | hrest
  · exact ⟨found, hfound, rfl⟩
  · exact h arrival hrest

private theorem read_cut {room : Nat} (hroom : 0 < room) {source : List Arrival}
    (h : IsCut source) :
    (source = [] ∧ read room source = (.ok [], [])) ∨
      ∃ found rest, found ≠ [] ∧ read room source = (.ok found, rest) ∧ IsCut rest := by
  cases source with
  | nil => exact .inl ⟨rfl, rfl⟩
  | cons arrival rest =>
      obtain ⟨found, hfound, rfl⟩ := h arrival List.mem_cons_self
      right
      rw [read]
      split_ifs with hfits
      · exact ⟨found, rest, hfound, rfl, h.tail⟩
      · refine ⟨found.take room, .data (found.drop room) :: rest, ?_, rfl, ?_⟩
        · rw [Ne, List.take_eq_nil_iff]
          rintro (hzero | hnil)
          · omega
          · exact hfound hnil
        · apply h.tail.cons
          rw [Ne, List.drop_eq_nil_iff]
          omega

private theorem read_ne_error {room : Nat} (hroom : 0 < room)
    {source rest : List Arrival}
    (h : IsCut source) {cause : IoFault} : read room source ≠ (.error cause, rest) := by
  rcases read_cut hroom h with ⟨-, hread⟩ | ⟨found, left, -, hread, -⟩ <;>
    simp [hread]

private theorem eq_nil_of_read {room : Nat} (hroom : 0 < room)
    {source rest : List Arrival}
    (h : IsCut source) (hread : read room source = (.ok [], rest)) :
    source = [] ∧ rest = [] := by
  rcases read_cut hroom h with ⟨hnil, hend⟩ | ⟨found, left, hfound, hsome, -⟩
  · rw [hend] at hread
    cases hread
    exact ⟨hnil, rfl⟩
  · rw [hsome] at hread
    cases hread
    contradiction

private theorem isCut_of_read {room : Nat} (hroom : 0 < room)
    {source rest : List Arrival}
    (h : IsCut source) {found : Bytes} (hread : read room source = (.ok found, rest)) :
    IsCut rest := by
  rcases read_cut hroom h with ⟨-, hend⟩ | ⟨some, left, -, hsome, hcut⟩
  · rw [hend] at hread
    cases hread
    exact isCut_nil
  · rw [hsome] at hread
    cases hread
    exact hcut

end Arrival

/-- The reads of a stream find all its bytes, in pieces of any sizes, and nothing else. -/
structure IsCutOf (stream : Bytes) (source : List Arrival) : Prop where
  cut : Arrival.IsCut source
  whole : Arrival.bytes source = stream

theorem isCutOf_data {stream : Bytes} (h : stream ≠ []) :
    IsCutOf stream [.data stream] :=
  ⟨.cons h Arrival.isCut_nil, List.append_nil stream⟩

/-! ## Outcomes -/

namespace Inbox

def stream (inbox : Inbox) : Bytes := inbox.pending ++ Arrival.bytes inbox.source

/-- An inbox that reads a cut, and has read no more than a call leaves behind. -/
structure IsReading (inbox : Inbox) : Prop where
  cut : Arrival.IsCut inbox.source
  short : inbox.pending.length < maxFrameLength + chunkLength

theorem isReading_ofSource {source : List Arrival} (h : Arrival.IsCut source) :
    (ofSource source).IsReading :=
  ⟨h, Nat.succ_pos _⟩

theorem stream_ofSource {stream : Bytes} {source : List Arrival}
    (h : IsCutOf stream source) : (ofSource source).stream = stream :=
  h.whole

structure IsStuck (inbox : Inbox) : Prop where
  full : maxFrameLength ≤ inbox.pending.length
  endless : frameLength? inbox.pending = none
  unblank : StopsAt isBlankByte inbox.pending

/--
What a call for the next frame comes to, told from the bytes still to come without the
blanks before them.
-/
inductive Outcome (text : Bytes) : Delivery → Inbox → Prop where
  | frame {length : Nat} {rest : Inbox} (found : frameLength? text = some length)
      (bound : length < maxFrameLength + chunkLength) (reading : rest.IsReading)
      (left : rest.stream = text.drop length) : Outcome text (.frame (text.take length)) rest
  | overflow {rest : Inbox} (full : maxFrameLength ≤ text.length)
      (long : ∀ length, frameLength? text = some length → maxFrameLength < length)
      (stuck : rest.IsStuck) : Outcome text (.fault (.frame .noBoundary)) rest
  | finished (empty : text = []) : Outcome text .finished ⟨[], []⟩
  | broken (short : text.length < maxFrameLength) (endless : frameLength? text = none)
      (some : text ≠ []) : Outcome text (.fault (.transport .closedMidFrame)) ⟨text, []⟩

theorem stream_read {inbox : Inbox} {found : Bytes} {source : List Arrival}
    (h : Arrival.bytes inbox.source = found ++ Arrival.bytes source) :
    trimmed (Inbox.mk (trimmed inbox.pending ++ found) source).stream =
      trimmed inbox.stream := by
  rw [stream, stream, h, List.append_assoc, trimmed_trimmed_append]

theorem trimmed_stream_of_nil {inbox : Inbox} (h : inbox.source = []) :
    trimmed inbox.stream = trimmed inbox.pending := by
  rw [stream, h, Arrival.bytes, List.append_nil]

private theorem limit_lt_of_full {pending more : Bytes} {length : Nat}
    (hnone : frameLength? pending = none) (hfull : maxFrameLength ≤ pending.length)
    (hlength : frameLength? (pending ++ more) = some length) :
    maxFrameLength < length := by
  have htake := frameLength?_take hlength pending.length
  rw [List.take_left, hnone] at htake
  by_contra hshort
  rw [if_pos (by omega)] at htake
  contradiction

theorem outcome_receive {inbox : Inbox} (h : inbox.IsReading) :
    Outcome (trimmed inbox.stream) inbox.receive.1 inbox.receive.2 := by
  fun_induction receive inbox with
  | case1 inbox pending length hlength =>
    have htext : trimmed inbox.stream = pending ++ Arrival.bytes inbox.source :=
      trimmed_append_of_frame hlength _
    have hpending : pending.length ≤ inbox.pending.length :=
      length_trimmed_le inbox.pending
    have hshort := h.short
    have hlen := frameLength?_le hlength
    have hframe : pending.take length = (trimmed inbox.stream).take length := by
      rw [htext, List.take_append_of_le_length hlen]
    rw [hframe]
    refine .frame ?_ (by omega) ⟨h.cut, ?_⟩ ?_
    · rw [htext]
      exact frameLength?_append hlength _
    · rw [List.length_drop]
      omega
    · rw [htext, stream, List.drop_append_of_le_length hlen]
  | case2 inbox pending hnone hfull =>
    have hne : pending ≠ [] := by
      intro hnil
      rw [hnil] at hfull
      contradiction
    have htext : trimmed inbox.stream = pending ++ Arrival.bytes inbox.source := by
      rw [stream, trimmed_append]
      exact if_neg hne
    rw [htext]
    refine .overflow ?_ ?_ ⟨hfull, hnone, stopsAt_trimmed inbox.pending⟩
    · rw [List.length_append]
      omega
    · exact fun length hlength => limit_lt_of_full hnone hfull hlength
  | case3 inbox pending hnone hfull cause source hread hkind ih =>
    exact absurd hread (Arrival.read_ne_error (by decide) h.cut)
  | case4 inbox pending hnone hfull cause source hread hkind =>
    exact absurd hread (Arrival.read_ne_error (by decide) h.cut)
  | case5 inbox pending hnone hfull source hread hempty =>
    obtain ⟨hsource, rfl⟩ := Arrival.eq_nil_of_read (by decide) h.cut hread
    rw [trimmed_stream_of_nil hsource, hempty]
    exact .finished hempty
  | case6 inbox pending hnone hfull source hread hempty =>
    obtain ⟨hsource, rfl⟩ := Arrival.eq_nil_of_read (by decide) h.cut hread
    rw [trimmed_stream_of_nil hsource]
    exact .broken (Nat.not_le.mp hfull) hnone hempty
  | case7 inbox pending hnone hfull b bytes source hread ih =>
    -- What was read moves from the source to the pending bytes; the text stays the same.
    obtain ⟨hroom, hbytes⟩ := Arrival.bytes_of_read hread
    have hpending : pending.length ≤ inbox.pending.length :=
      length_trimmed_le inbox.pending
    rw [← stream_read hbytes]
    apply ih
    refine ⟨Arrival.isCut_of_read (by decide) h.cut hread, ?_⟩
    rw [List.length_append]
    omega

theorem outcome_of_receive {inbox rest : Inbox} {delivery : Delivery}
    (h : inbox.IsReading) (hreceive : inbox.receive = (delivery, rest)) :
    Outcome (trimmed inbox.stream) delivery rest := by
  have houtcome := outcome_receive h
  rwa [hreceive] at houtcome

/-! ## Single calls -/

theorem receive_of_frame {inbox : Inbox} {length : Nat}
    (h : frameLength? (trimmed inbox.pending) = some length) :
    inbox.receive =
      (.frame ((trimmed inbox.pending).take length),
        ⟨(trimmed inbox.pending).drop length, inbox.source⟩) := by
  rw [trimmed] at h ⊢
  rw [receive]
  simp only [h]

theorem receive_of_full {inbox : Inbox}
    (hnone : frameLength? (trimmed inbox.pending) = none)
    (hfull : maxFrameLength ≤ (trimmed inbox.pending).length) :
    inbox.receive = (.fault (.frame .noBoundary), ⟨trimmed inbox.pending, inbox.source⟩) := by
  rw [trimmed] at hnone hfull ⊢
  rw [receive]
  simp only [hnone, if_pos hfull]

theorem receive_of_short {pending : Bytes} {source : List Arrival}
    (hnone : frameLength? (trimmed pending) = none)
    (hshort : (trimmed pending).length < maxFrameLength) :
    receive ⟨pending, source⟩ =
      match Arrival.read chunkLength source with
      | (.error cause, rest) =>
          if cause.kind = .interrupted then receive ⟨trimmed pending, rest⟩
          else (.fault (.io cause), ⟨trimmed pending, rest⟩)
      | (.ok [], rest) =>
          if trimmed pending = [] then (.finished, ⟨trimmed pending, rest⟩)
          else (.fault (.transport .closedMidFrame), ⟨trimmed pending, rest⟩)
      | (.ok (b :: bytes), rest) => receive ⟨trimmed pending ++ b :: bytes, rest⟩ := by
  rw [trimmed] at hnone hshort ⊢
  rw [receive]
  simp only [hnone, if_neg (Nat.not_le.mpr hshort)]
  split <;> rename_i hread <;> rw [hread]

theorem receive_of_read {pending found : Bytes} {rest : List Arrival}
    (hnone : frameLength? (trimmed pending) = none)
    (hshort : (trimmed pending).length < maxFrameLength) (hfound : found ≠ [])
    (hsmall : found.length ≤ chunkLength) :
    receive ⟨pending, .data found :: rest⟩ =
      receive ⟨trimmed pending ++ found, rest⟩ := by
  obtain ⟨b, bytes, rfl⟩ := List.exists_cons_of_ne_nil hfound
  rw [receive_of_short hnone hshort, Arrival.read, if_pos hsmall]

theorem receive_trimmed (pending : Bytes) (source : List Arrival) :
    receive ⟨trimmed pending, source⟩ = receive ⟨pending, source⟩ := by
  have hself : trimmed (trimmed pending) = trimmed pending :=
    trimmed_eq_self (stopsAt_trimmed pending)
  rw [trimmed, trimmed] at hself
  rw [trimmed, receive, receive]
  simp only [hself]

theorem receive_of_stuck {inbox : Inbox} (h : inbox.IsStuck) :
    inbox.receive = (.fault (.frame .noBoundary), inbox) := by
  have hself := trimmed_eq_self h.unblank
  have hreceive := receive_of_full (by rw [hself]; exact h.endless)
    (by rw [hself]; exact h.full)
  rwa [hself] at hreceive

@[simp] theorem receiveMany_succ (calls : Nat) (inbox : Inbox) :
    receiveMany (calls + 1) inbox =
      inbox.receive.1 :: receiveMany calls inbox.receive.2 := rfl

end Inbox

end RemoteCalc.Wire
