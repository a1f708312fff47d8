import RemoteCalc.Fault
import RemoteCalc.Wire.Frame

/-!
# Receiving frames from a stream

An inbox reads a stream in chunks and hands out its frames one by one.  Blanks
before a frame are skipped, and bytes after it wait for the next call.  A stream
is the list of what its reads will find; after the last of them it has ended.
-/

namespace RemoteCalc.Wire

/-- What one or more reads find: bytes, none at the end of a stream, or a fault. -/
inductive Arrival where
  | data (bytes : Bytes)
  | fault (cause : IoFault)
  deriving DecidableEq, Repr

def chunkLength : Nat := 512

namespace Arrival

def read (room : Nat) : List Arrival → Except IoFault Bytes × List Arrival
  | [] => (.ok [], [])
  | .fault cause :: rest => (.error cause, rest)
  | .data bytes :: rest =>
      if bytes.length ≤ room then (.ok bytes, rest)
      else (.ok (bytes.take room), .data (bytes.drop room) :: rest)

def weight : List Arrival → Nat
  | [] => 0
  | .fault _ :: rest => weight rest + 1
  | .data bytes :: rest => weight rest + bytes.length + 1

theorem weight_read_error {room : Nat} {source rest : List Arrival} {cause : IoFault}
    (h : read room source = (.error cause, rest)) : weight rest < weight source := by
  match source with
  | [] => simp [read] at h
  | .fault _ :: _ =>
      simp only [read, Prod.mk.injEq] at h
      simp [weight, h.2]
  | .data bytes :: _ =>
      simp only [read] at h
      split at h <;> simp at h

theorem weight_read_ok {room : Nat} {source rest : List Arrival}
    {b : UInt8} {bytes : Bytes} (h : read room source = (.ok (b :: bytes), rest)) :
    weight rest + bytes.length < weight source := by
  match source with
  | [] => simp [read] at h
  | .fault _ :: _ => simp [read] at h
  | .data found :: tail =>
      simp only [read] at h
      split at h
      · simp only [Prod.mk.injEq, Except.ok.injEq] at h
        simp only [weight, ← h.2, h.1, List.length_cons]
        omega
      · simp only [Prod.mk.injEq, Except.ok.injEq] at h
        have hlength := congrArg List.length h.1
        simp only [List.length_take, List.length_cons] at hlength
        simp only [weight, ← h.2, List.length_drop]
        omega

end Arrival

structure Inbox where
  pending : Bytes
  source : List Arrival
  deriving DecidableEq, Repr

inductive Delivery where
  | frame (bytes : Bytes)
  | finished
  | fault (cause : Fault)
  deriving DecidableEq, Repr

namespace Inbox

def ofSource (source : List Arrival) : Inbox := ⟨[], source⟩

set_option linter.unusedVariables false in
/--
The next frame.  Reading goes on until a frame is complete, the limit is reached
without one, the stream ends or a read fails.  An interrupted read is tried again.
-/
def receive (inbox : Inbox) : Delivery × Inbox :=
  let pending := inbox.pending.dropWhile Text.isBlankByte
  match frameLength? pending with
  | some length =>
      (.frame (pending.take length), ⟨pending.drop length, inbox.source⟩)
  | none =>
      if maxFrameLength ≤ pending.length then
        (.fault (.frame .noBoundary), ⟨pending, inbox.source⟩)
      else
        match h : Arrival.read chunkLength inbox.source with
        | (.error cause, source) =>
            if cause.kind = .interrupted then receive ⟨pending, source⟩
            else (.fault (.io cause), ⟨pending, source⟩)
        | (.ok [], source) =>
            if pending = [] then (.finished, ⟨pending, source⟩)
            else (.fault (.transport .closedMidFrame), ⟨pending, source⟩)
        | (.ok (b :: bytes), source) =>
            receive ⟨pending ++ b :: bytes, source⟩
termination_by Arrival.weight inbox.source
decreasing_by
  · exact Arrival.weight_read_error h
  · have := Arrival.weight_read_ok h
    simp only [h] at *
    omega

def weight (inbox : Inbox) : Nat :=
  inbox.pending.length + Arrival.weight inbox.source

theorem weight_receive_frame {inbox rest : Inbox} {frame : Bytes}
    (h : inbox.receive = (.frame frame, rest)) : rest.weight < inbox.weight := by
  have hle (bytes : Bytes) : (bytes.dropWhile Text.isBlankByte).length ≤ bytes.length :=
    (List.dropWhile_sublist _).length_le
  fun_induction receive inbox with
  | case1 inbox pending length hlength =>
    simp only [Prod.mk.injEq] at h
    have hpos := length_pos_of_lengthThrough? hlength
    have hlen := le_length_of_lengthThrough? hlength
    have : pending.length ≤ inbox.pending.length := hle inbox.pending
    simp only [← h.2, weight, List.length_drop]
    omega
  | case2 => simp at h
  | case3 inbox pending _ _ cause source hread _ ih =>
    have := ih h
    have := Arrival.weight_read_error hread
    have : pending.length ≤ inbox.pending.length := hle inbox.pending
    simp only [weight] at *
    omega
  | case4 => simp at h
  | case5 => simp at h
  | case6 => simp at h
  | case7 inbox pending _ _ b bytes source hread ih =>
    have := ih h
    have := Arrival.weight_read_ok hread
    have : pending.length ≤ inbox.pending.length := hle inbox.pending
    simp only [weight, List.length_append, List.length_cons] at *
    omega

def receiveMany : Nat → Inbox → List Delivery
  | 0, _ => []
  | calls + 1, inbox =>
      let (delivery, inbox) := inbox.receive
      delivery :: receiveMany calls inbox

end Inbox

end RemoteCalc.Wire
