import Mathlib.Data.List.TakeWhile
import RemoteCalc.Proofs.Wire.Inbox

/-!
# Streams and the ways to cut them

The results of all calls for frames are told by the bytes of a stream alone, unless it
has a frame that is too long by less than a chunk.  Such a frame is handed out if its
last bytes come in one read that goes over the limit, and is a fault otherwise.
-/

namespace RemoteCalc.Wire

open Text

/-! ## Cuts of a stream -/

structure Cuts (stream : Bytes) (source : List Arrival) : Prop where
  cut : Arrival.IsCut source
  small : ∀ found, .data found ∈ source → found.length ≤ chunkLength
  whole : Arrival.bytes source = stream

private theorem cuts_nil : Cuts [] [] :=
  ⟨Arrival.isCut_nil, by simp, rfl⟩

theorem Cuts.cons {found stream : Bytes} {source : List Arrival} (hne : found ≠ [])
    (hsmall : found.length ≤ chunkLength) (h : Cuts stream source) :
    Cuts (found ++ stream) (.data found :: source) where
  cut := h.cut.cons hne
  small other hother := by
    rcases List.mem_cons.mp hother with heq | hrest
    · cases heq
      exact hsmall
    · exact h.small other hrest
  whole := by rw [Arrival.bytes, h.whole]

def singles (bytes : Bytes) : List Arrival := bytes.map fun b => .data [b]

private theorem Cuts.singles_append {stream : Bytes} {source : List Arrival}
    (h : Cuts stream source)
    (bytes : Bytes) : Cuts (bytes ++ stream) (singles bytes ++ source) := by
  induction bytes with
  | nil => exact h
  | cons b bytes ih => exact ih.cons (List.cons_ne_nil b []) (Nat.succ_pos _)

private theorem cuts_singles (stream : Bytes) : Cuts stream (singles stream) := by
  have h := cuts_nil.singles_append stream
  rwa [List.append_nil, List.append_nil] at h

theorem isCutOf_singles (stream : Bytes) : IsCutOf stream (singles stream) :=
  ⟨(cuts_singles stream).cut, (cuts_singles stream).whole⟩

/-! ## Agreement -/

/-- A frame that is too long, but could be complete before the limit is seen. -/
inductive HasLateEnd : Bytes → Prop
  | here {stream : Bytes} {length : Nat} (found : frameLength? (trimmed stream) = some length)
      (late : maxFrameLength < length) (bound : length < maxFrameLength + chunkLength) :
      HasLateEnd stream
  | later {stream : Bytes} {length : Nat} (found : frameLength? (trimmed stream) = some length)
      (short : length ≤ maxFrameLength)
      (rest : HasLateEnd ((trimmed stream).drop length)) : HasLateEnd stream

theorem le_limit_of_early {stream : Bytes} (hearly : ¬HasLateEnd stream) {length : Nat}
    (found : frameLength? (trimmed stream) = some length)
    (bound : length < maxFrameLength + chunkLength) : length ≤ maxFrameLength := by
  by_contra hlong
  exact hearly (.here found (Nat.not_le.mp hlong) bound)

namespace Inbox

/-- Two inboxes from which all calls are going to give the same results. -/
inductive Agree : Inbox → Inbox → Prop where
  | reading {first second : Inbox} (hfirst : first.IsReading) (hsecond : second.IsReading)
      (same : trimmed first.stream = trimmed second.stream)
      (early : ¬HasLateEnd first.stream) : Agree first second
  | stuck {first second : Inbox} (hfirst : first.IsStuck) (hsecond : second.IsStuck) :
      Agree first second
  | refl (inbox : Inbox) : Agree inbox inbox

private theorem Outcome.agree {stream : Bytes} (hearly : ¬HasLateEnd stream)
    {delivery delivery' : Delivery} {rest rest' : Inbox}
    (h : Outcome (trimmed stream) delivery rest)
    (h' : Outcome (trimmed stream) delivery' rest') :
    delivery = delivery' ∧ Agree rest rest' := by
  cases h with
  | frame found bound reading left =>
      have hshort := le_limit_of_early hearly found bound
      cases h' with
      | frame found' bound' reading' left' =>
          cases found.symm.trans found'
          have hrest : ¬HasLateEnd rest.stream := by
            rw [left]
            exact fun hrest => hearly (.later found hshort hrest)
          exact ⟨rfl, .reading reading reading' (by rw [left, left']) hrest⟩
      | overflow full' long' => exact absurd (long' _ found) (Nat.not_lt.mpr hshort)
      | finished empty' => rw [empty'] at found; contradiction
      | broken short' endless' => rw [endless'] at found; contradiction
  | overflow full long stuck =>
      cases h' with
      | frame found' bound' =>
          exact absurd (long _ found')
            (Nat.not_lt.mpr (le_limit_of_early hearly found' bound'))
      | overflow full' long' stuck' => exact ⟨rfl, .stuck stuck stuck'⟩
      | finished empty' => rw [empty'] at full; contradiction
      | broken short' => exact absurd full (Nat.not_le.mpr short')
  | finished empty =>
      cases h' with
      | frame found' => rw [empty] at found'; contradiction
      | overflow full' => rw [empty] at full'; contradiction
      | finished => exact ⟨rfl, .refl _⟩
      | broken => contradiction
  | broken short endless =>
      cases h' with
      | frame found' => rw [endless] at found'; contradiction
      | overflow full' => exact absurd full' (Nat.not_le.mpr short)
      | finished => contradiction
      | broken => exact ⟨rfl, .refl _⟩

/-- One call gives the same result on both sides and leaves them in agreement. -/
theorem Agree.receive {first second : Inbox} (h : Agree first second) :
    first.receive.1 = second.receive.1 ∧ Agree first.receive.2 second.receive.2 := by
  cases h with
  | reading hfirst hsecond same early =>
      have houtcome := outcome_receive hsecond
      rw [← same] at houtcome
      exact (outcome_receive hfirst).agree early houtcome
  | stuck hfirst hsecond =>
      rw [receive_of_stuck hfirst, receive_of_stuck hsecond]
      exact ⟨rfl, .stuck hfirst hsecond⟩
  | refl => exact ⟨rfl, .refl _⟩

theorem Agree.receiveMany {first second : Inbox} (h : Agree first second)
    (calls : Nat) :
    receiveMany calls first = receiveMany calls second := by
  induction calls generalizing first second with
  | zero => rfl
  | succ calls ih =>
      obtain ⟨hdelivery, hrest⟩ := h.receive
      rw [receiveMany_succ, receiveMany_succ, hdelivery, ih hrest]

/-! ## Disagreement -/

theorem unfinished_of_longer {first second : Bytes} (hsecond : second ≠ [])
    (hwhole : ∀ length, frameLength? (trimmed (first ++ second)) = some length →
      (trimmed (first ++ second)).length ≤ length)
    (hfits : (trimmed (first ++ second)).length ≤ maxFrameLength) :
    frameLength? (trimmed first) = none ∧ (trimmed first).length < maxFrameLength := by
  rw [trimmed_append] at hwhole hfits
  by_cases hnil : trimmed first = []
  · rw [hnil]
    exact ⟨rfl, by decide⟩
  · have hpos := List.length_pos_iff.mpr hsecond
    rw [if_neg hnil, List.length_append] at hfits
    rw [if_neg hnil, List.length_append] at hwhole
    constructor
    · apply Option.eq_none_iff_forall_ne_some.mpr
      intro length hlength
      have hlong := hwhole length (frameLength?_append hlength second)
      have hle := frameLength?_le hlength
      omega
    · omega

private theorem receive_singles (pending bytes : Bytes) (more : List Arrival)
    (hwhole : ∀ length, frameLength? (trimmed (pending ++ bytes)) = some length →
      (trimmed (pending ++ bytes)).length ≤ length)
    (hfits : (trimmed (pending ++ bytes)).length ≤ maxFrameLength) :
    receive ⟨pending, singles bytes ++ more⟩ =
      receive ⟨trimmed (pending ++ bytes), more⟩ := by
  induction bytes generalizing pending with
  | nil =>
      rw [List.append_nil]
      exact (receive_trimmed pending more).symm
  | cons b bytes ih =>
      have hstep : trimmed (trimmed pending ++ [b] ++ bytes) =
          trimmed (pending ++ b :: bytes) := by
        rw [List.append_assoc, trimmed_trimmed_append]
        rfl
      obtain ⟨hnone, hshort⟩ :=
        unfinished_of_longer (List.cons_ne_nil b bytes) hwhole hfits
      calc receive ⟨pending, singles (b :: bytes) ++ more⟩
          = receive ⟨trimmed pending ++ [b], singles bytes ++ more⟩ :=
            receive_of_read hnone hshort (List.cons_ne_nil b []) (Nat.succ_pos _)
        _ = receive ⟨trimmed (pending ++ b :: bytes), more⟩ := by
            rw [ih, hstep] <;> rw [hstep]
            · exact hwhole
            · exact hfits

private theorem trimmed_take (stream : Bytes) (kept : Nat) :
    trimmed ((trimmed stream).take kept) = (trimmed stream).take kept :=
  trimmed_eq_self ((stopsAt_trimmed stream).take kept)

private theorem frameLength?_trimmed_take {stream : Bytes} {length : Nat}
    (found : frameLength? (trimmed stream) = some length) (kept : Nat) :
    frameLength? (trimmed ((trimmed stream).take kept)) =
      if length ≤ kept then some length else none := by
  rw [trimmed_take, frameLength?_take found]

private theorem receive_singles_take {stream : Bytes} {kept : Nat} (more : List Arrival)
    (hwhole : ∀ length, frameLength? (trimmed stream) = some length → kept ≤ length)
    (hfits : kept ≤ maxFrameLength) :
    receive (.ofSource (singles (stream.takeWhile isBlankByte ++ (trimmed stream).take kept) ++
      more)) = receive ⟨(trimmed stream).take kept, more⟩ := by
  have hself : trimmed ([] ++ (stream.takeWhile isBlankByte ++ (trimmed stream).take kept)) =
      (trimmed stream).take kept := by
    rw [List.nil_append, trimmed_blanks fun b hb => List.mem_takeWhile_imp hb,
      trimmed_take]
  have hread := receive_singles [] (stream.takeWhile isBlankByte ++ (trimmed stream).take kept)
    more
  rw [hself] at hread
  apply hread
  · intro length hlength
    have hlonger := frameLength?_append hlength ((trimmed stream).drop kept)
    rw [List.take_append_drop] at hlonger
    exact le_trans (List.length_take_le _ _) (hwhole length hlonger)
  · exact le_trans (List.length_take_le _ _) hfits

private theorem takeWhile_append_trimmed (stream : Bytes) :
    stream.takeWhile isBlankByte ++ trimmed stream = stream :=
  List.takeWhile_append_dropWhile

theorem receive_singles_frame {stream : Bytes} {length : Nat} (more : List Arrival)
    (found : frameLength? (trimmed stream) = some length)
    (short : length ≤ maxFrameLength) :
    receive (.ofSource (singles (stream.takeWhile isBlankByte ++
      (trimmed stream).take length) ++ more)) =
        (.frame ((trimmed stream).take length), .ofSource more) := by
  have hframe := (frameLength?_trimmed_take found length).trans (if_pos le_rfl)
  rw [receive_singles_take more (fun other hother => (Option.some.inj (found.symm.trans hother)).le)
    short, receive_of_frame hframe]
  simp [trimmed_take, ofSource, List.take_take]

private theorem receive_singles_late {stream : Bytes} {length : Nat}
    (found : frameLength? (trimmed stream) = some length)
    (late : maxFrameLength < length) :
    (receive (.ofSource (singles stream))).1 = .fault (.frame .noBoundary) := by
  have hsplit : singles stream = singles (stream.takeWhile isBlankByte ++
      (trimmed stream).take maxFrameLength) ++ singles ((trimmed stream).drop maxFrameLength) := by
    rw [singles, singles, singles, ← List.map_append, List.append_assoc,
      List.take_append_drop, takeWhile_append_trimmed]
  rw [hsplit, receive_singles_take, receive_of_full]
  · rw [frameLength?_trimmed_take found, if_neg (Nat.not_le.mpr late)]
  · have hle := frameLength?_le found
    rw [trimmed_take, List.length_take]
    omega
  · intro other hother
    cases found.symm.trans hother
    exact late.le
  · exact le_rfl

theorem exists_cut_late {stream : Bytes} {length : Nat}
    (found : frameLength? (trimmed stream) = some length)
    (late : maxFrameLength < length) (bound : length < maxFrameLength + chunkLength) :
    ∃ source, Cuts stream source ∧
      (receive (.ofSource source)).1 = .frame ((trimmed stream).take length) := by
  have hle := frameLength?_le found
  -- One byte below the limit the inbox reads once more, and that read brings the end.
  obtain ⟨kept, hkept⟩ : ∃ kept, kept + 1 = maxFrameLength := ⟨1023, rfl⟩
  generalize hending : ((trimmed stream).drop kept).take (length - kept) = ending
  have hlength : ending.length = length - kept := by
    rw [← hending, List.length_take, List.length_drop]
    omega
  have hframe : (trimmed stream).take kept ++ ending =
      (trimmed stream).take length := by
    rw [← hending, ← List.take_add]
    congr
    omega
  have hne : ending ≠ [] := List.ne_nil_of_length_pos (by omega)
  have hsmall : ending.length ≤ chunkLength := by omega
  refine ⟨singles (stream.takeWhile isBlankByte ++ (trimmed stream).take kept) ++
    .data ending :: singles ((trimmed stream).drop length), ?_, ?_⟩
  · have hcuts := ((cuts_singles ((trimmed stream).drop length)).cons hne hsmall).singles_append
      (stream.takeWhile isBlankByte ++ (trimmed stream).take kept)
    rwa [List.append_assoc, ← List.append_assoc _ ending, hframe, List.take_append_drop,
      takeWhile_append_trimmed] at hcuts
  · have hwhole : ∀ other, frameLength? (trimmed stream) = some other →
        kept ≤ other := by
      intro other hother
      cases found.symm.trans hother
      omega
    have hnone := (frameLength?_trimmed_take found kept).trans (if_neg (by omega))
    have hshort : (trimmed ((trimmed stream).take kept)).length < maxFrameLength := by
      rw [trimmed_take, List.length_take]
      omega
    have hfound := (frameLength?_trimmed_take found length).trans (if_pos le_rfl)
    rw [receive_singles_take _ hwhole (by omega), receive_of_read hnone hshort hne hsmall,
      trimmed_take, hframe, receive_of_frame hfound]
    simp [trimmed_take, List.take_take]

end Inbox

theorem Cuts.after_frame {stream : Bytes} {length : Nat} {source : List Arrival}
    (h : Cuts ((trimmed stream).drop length) source) :
    Cuts stream (singles (stream.takeWhile isBlankByte ++ (trimmed stream).take length) ++
      source) := by
  have hwhole : stream.takeWhile isBlankByte ++ (trimmed stream).take length ++
      (trimmed stream).drop length = stream := by
    rw [List.append_assoc, List.take_append_drop, Inbox.takeWhile_append_trimmed]
  have hcuts := h.singles_append (stream.takeWhile isBlankByte ++ (trimmed stream).take length)
  rwa [hwhole] at hcuts

/-- A stream with a late end can be cut so that its frame is found and so that it is not. -/
theorem exists_cuts_differ {stream : Bytes} (h : HasLateEnd stream) :
    ∃ first second, Cuts stream first ∧ Cuts stream second ∧
      ∃ calls, Inbox.receiveMany calls (.ofSource first) ≠
        Inbox.receiveMany calls (.ofSource second) := by
  induction h with
  | @here stream length found late bound =>
      obtain ⟨source, hcuts, hframe⟩ := Inbox.exists_cut_late found late bound
      refine ⟨source, singles stream, hcuts, cuts_singles stream, 1, ?_⟩
      rw [Inbox.receiveMany_succ, Inbox.receiveMany_succ, hframe,
        Inbox.receive_singles_late found late]
      simp
  | @later stream length found short rest ih =>
      obtain ⟨first, second, hfirst, hsecond, calls, hne⟩ := ih
      refine ⟨_, _, hfirst.after_frame, hsecond.after_frame, calls + 1, ?_⟩
      rw [Inbox.receiveMany_succ, Inbox.receiveMany_succ,
        Inbox.receive_singles_frame first found short,
        Inbox.receive_singles_frame second found short]
      simpa using hne

/--
The results of all calls for frames are told by the bytes of a stream alone if and only
if the stream has no late end.
-/
theorem receiveMany_same_iff (stream : Bytes) :
    (∀ first second, Cuts stream first → Cuts stream second → ∀ calls,
      Inbox.receiveMany calls (.ofSource first) =
        Inbox.receiveMany calls (.ofSource second)) ↔
        ¬HasLateEnd stream := by
  constructor
  · intro hsame hlate
    obtain ⟨first, second, hfirst, hsecond, calls, hne⟩ := exists_cuts_differ hlate
    exact hne (hsame first second hfirst hsecond calls)
  · intro hearly first second hfirst hsecond calls
    have hreading {source : List Arrival} (h : Cuts stream source) :
        (Inbox.ofSource source).IsReading := ⟨h.cut, Nat.succ_pos _⟩
    apply Inbox.Agree.receiveMany
    apply Inbox.Agree.reading (hreading hfirst) (hreading hsecond)
    · exact congrArg trimmed (hfirst.whole.trans hsecond.whole.symm)
    · exact fun hlate => hearly (hfirst.whole ▸ hlate)

def lateStream : Bytes :=
  terminator :: terminator :: (List.replicate 1023 0x78 ++ [terminator])

theorem lateStream_cuts_differ :
    ¬∀ stream first second, Cuts stream first → Cuts stream second → ∀ calls,
      Inbox.receiveMany calls (.ofSource first) =
        Inbox.receiveMany calls (.ofSource second) := by
  have hself : trimmed lateStream = lateStream := trimmed_eq_self rfl
  have hframe : frameLength? (trimmed lateStream) = some 1026 := by
    rw [hself]
    decide +kernel
  have hlate : HasLateEnd lateStream := .here hframe (by decide) (by decide)
  obtain ⟨first, second, hfirst, hsecond, calls, hne⟩ := exists_cuts_differ hlate
  exact fun hsame => hne (hsame lateStream first second hfirst hsecond calls)

end RemoteCalc.Wire
