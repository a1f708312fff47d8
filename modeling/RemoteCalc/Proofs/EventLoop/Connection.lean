import RemoteCalc.EventLoop.Connection
import RemoteCalc.Proofs.Wire.Frame

/-!
# What becomes of a connection

The outcome of a connection is told by the bytes that its client sends, whatever
pieces they come in and whenever the loop looks at them.  Once a client has sent
enough to settle it, nothing that it does later makes a difference.
-/

namespace RemoteCalc.EventLoop

open Wire

/-! ## Outcomes -/

/-- What a client has sent, and whether it has shut down its side behind that. -/
structure Client where
  sent : Bytes
  finished : Bool
  deriving DecidableEq, Repr

structure Outcome where
  received : Bytes
  ending : Ending
  deriving DecidableEq, Repr

def outcomeOfFrame (service : Service) (frame : Bytes) : Outcome :=
  match service.handle frame with
  | .ok (.frame bytes) => ⟨bytes, .served⟩
  | .ok .hangup => ⟨[], .silent⟩
  | .error _ => ⟨[], .dropped⟩

namespace Client

def send (client : Client) (data : Bytes) : Client :=
  if client.finished then client else { client with sent := client.sent ++ data }

def finish (client : Client) : Client := { client with finished := true }

/--
The outcome for a client that has sent this much, or none as long as its connection
stays open.  No more bytes are looked at than a frame may have.
-/
def outcome? (service : Service) (client : Client) : Option Outcome :=
  let seen := client.sent.take maxFrameLength
  match frameLength? seen with
  | some length => some (outcomeOfFrame service (seen.take length))
  | none =>
      if maxFrameLength ≤ client.sent.length then some ⟨[], .dropped⟩
      else if client.finished then some ⟨[], .silent⟩
      else none

theorem outcome?_eq_some_iff {service : Service} {client : Client} {outcome : Outcome} :
    client.outcome? service = some outcome ↔
      (∃ length, frameLength? (client.sent.take maxFrameLength) = some length ∧
          outcome = outcomeOfFrame service (client.sent.take length)) ∨
        (frameLength? (client.sent.take maxFrameLength) = none ∧
          (maxFrameLength ≤ client.sent.length ∧ outcome = ⟨[], .dropped⟩ ∨
            client.sent.length < maxFrameLength ∧ client.finished = true ∧
              outcome = ⟨[], .silent⟩)) := by
  rw [outcome?]
  cases hframe : frameLength? (client.sent.take maxFrameLength) with
  | some length =>
      have hle : length ≤ maxFrameLength :=
        Nat.le_trans (frameLength?_le hframe) (List.length_take_le _ _)
      simp only [List.take_take, Nat.min_eq_left hle, Option.some.injEq,
        exists_eq_left', reduceCtorEq, false_and, or_false]
      exact eq_comm
  | none =>
      by_cases hfull : maxFrameLength ≤ client.sent.length
      · simp [hfull, Nat.not_lt.mpr hfull]
        exact eq_comm
      · by_cases hfinished : client.finished = true
        · simp [hfull, Nat.not_le.mp hfull, hfinished]
          exact eq_comm
        · simp [hfull, hfinished]

section

variable {service : Service} {input inbound : Bytes} {finished : Bool}

private theorem take_input_append (hfits : input.length ≤ maxFrameLength) :
    (input ++ inbound).take maxFrameLength =
      input ++ inbound.take (maxFrameLength - input.length) := by
  rw [List.take_append, List.take_of_length_le hfits]

private theorem outcome?_of_frame {length : Nat} (h : frameLength? input = some length)
    (hfits : input.length ≤ maxFrameLength) :
    outcome? service ⟨input ++ inbound, finished⟩ =
      some (outcomeOfFrame service (input.take length)) := by
  apply outcome?_eq_some_iff.mpr
  refine .inl ⟨length, ?_, ?_⟩
  · rw [take_input_append hfits]
    exact frameLength?_append h _
  · rw [List.take_append_of_le_length (frameLength?_le h)]

private theorem outcome?_of_full (hnone : frameLength? input = none)
    (hfits : input.length ≤ maxFrameLength) (hfull : maxFrameLength ≤ input.length) :
    outcome? service ⟨input ++ inbound, finished⟩ = some ⟨[], .dropped⟩ := by
  apply outcome?_eq_some_iff.mpr
  refine .inr ⟨?_, .inl ⟨?_, rfl⟩⟩
  · rwa [take_input_append hfits, Nat.sub_eq_zero_of_le hfull, List.take_zero,
      List.append_nil]
  · rw [List.length_append]
    omega

theorem outcome?_of_short (hnone : frameLength? input = none)
    (hshort : input.length < maxFrameLength) :
    outcome? service ⟨input, finished⟩ = if finished then some ⟨[], .silent⟩ else none := by
  have hseen : frameLength? (input.take maxFrameLength) = none := by
    rwa [List.take_of_length_le (Nat.le_of_lt hshort)]
  simp [outcome?, hseen, Nat.not_le.mpr hshort]

end

theorem outcome?_send {service : Service} {client : Client} {outcome : Outcome}
    (h : client.outcome? service = some outcome) (data : Bytes) :
    (client.send data).outcome? service = some outcome := by
  rw [send]
  split_ifs with hfinished
  · exact h
  · rw [outcome?_eq_some_iff] at h ⊢
    rcases h with ⟨length, hframe, rfl⟩ | ⟨hnone, ⟨hfull, rfl⟩ | ⟨-, hended, -⟩⟩
    · left
      have hle : length ≤ client.sent.length :=
        Nat.le_trans (frameLength?_le hframe) (List.length_take_le' _ _)
      refine ⟨length, ?_, ?_⟩
      · rw [List.take_append]
        exact frameLength?_append hframe _
      · rw [List.take_append_of_le_length hle]
    · right
      refine ⟨?_, .inl ⟨?_, rfl⟩⟩
      · rwa [List.take_append_of_le_length hfull]
      · rw [List.length_append]
        omega
    · contradiction

theorem outcome?_finish {service : Service} {client : Client} {outcome : Outcome}
    (h : client.outcome? service = some outcome) :
    client.finish.outcome? service = some outcome := by
  rw [outcome?_eq_some_iff] at h ⊢
  rcases h with hframe | ⟨hnone, hfull | ⟨hshort, -, hsilent⟩⟩
  · exact .inl hframe
  · exact .inr ⟨hnone, .inl hfull⟩
  · exact .inr ⟨hnone, .inr ⟨hshort, rfl, hsilent⟩⟩

end Client

/-! ## Reading -/

namespace Connection

theorem isClosed_of_phase {connection : Connection} {ending : Ending}
    (h : connection.phase = .closed ending) : connection.isClosed = true := by
  rw [isClosed, h]

private theorem process_outcome (service : Service) (connection : Connection)
    (h : connection.socket.outbound = []) :
    (connection.process service).phase =
        .closed (outcomeOfFrame service connection.input).ending ∧
      (connection.process service).socket.outbound =
        (outcomeOfFrame service connection.input).received := by
  rw [process, outcomeOfFrame]
  cases service.handle connection.input with
  | error fault => exact ⟨rfl, h⟩
  | ok reply =>
      cases reply with
      | hangup => exact ⟨rfl, h⟩
      | frame bytes => simp [flush, close, h]

@[simp] def awaiting (input inbound : Bytes) (ended : Bool) : Connection :=
  ⟨.reading, input, [], ⟨inbound, ended, []⟩⟩

/--
The connections that a client may have: one that is not looked at yet, one that waits
for the rest of a frame, and one that is closed with the client's outcome.
-/
inductive Follows (service : Service) : Connection → Client → Prop where
  | opened (client : Client) :
      Follows service ⟨.accepted, [], [], ⟨client.sent, client.finished, []⟩⟩ client
  | awaiting {input inbound : Bytes} {ended : Bool} (hnone : frameLength? input = none)
      (hshort : input.length < maxFrameLength) :
      Follows service (.awaiting input inbound ended) ⟨input ++ inbound, ended⟩
  | closed {connection : Connection} {client : Client} {outcome : Outcome}
      (houtcome : client.outcome? service = some outcome)
      (hphase : connection.phase = .closed outcome.ending)
      (hreceived : connection.socket.outbound = outcome.received) :
      Follows service connection client

def IsIdle (connection : Connection) : Prop :=
  connection.isClosed = true ∨ ∃ input, connection = .awaiting input [] false

private theorem follows_read (service : Service) {connection : Connection}
    (hphase : connection.phase = .reading) (houtput : connection.output = [])
    (houtbound : connection.socket.outbound = [])
    (hfits : connection.input.length ≤ maxFrameLength) :
    (connection.read service).IsIdle ∧
      Follows service (connection.read service)
        ⟨connection.input ++ connection.socket.inbound, connection.socket.ended⟩ := by
  fun_induction read service connection with
  | case1 connection length hlength =>
    obtain ⟨hclosed, hreceived⟩ := process_outcome service
      { connection with input := connection.input.take length } houtbound
    exact ⟨.inl (isClosed_of_phase hclosed),
      .closed (Client.outcome?_of_frame hlength hfits) hclosed hreceived⟩
  | case2 connection hnone hfull =>
    exact ⟨.inl rfl, .closed (Client.outcome?_of_full hnone hfits hfull) rfl houtbound⟩
  | case3 connection hnone hfull hinbound hended =>
    rw [hinbound, List.append_nil, hended]
    have houtcome : Client.outcome? service ⟨connection.input, true⟩ =
        some ⟨[], .silent⟩ :=
      Client.outcome?_of_short hnone (Nat.not_le.mp hfull)
    exact ⟨.inl rfl, .closed houtcome rfl houtbound⟩
  | case4 connection hnone hfull hinbound hended =>
    have hself : connection = .awaiting connection.input [] false := by
      obtain ⟨phase, input, output, ⟨inbound, ended, outbound⟩⟩ := connection
      simp_all
    rw [hself]
    exact ⟨.inr ⟨connection.input, rfl⟩, .awaiting hnone (Nat.not_le.mp hfull)⟩
  | case5 connection hnone hfull hinbound room socket ih =>
    have hsplit : connection.input ++ connection.socket.inbound.take room ++
        connection.socket.inbound.drop room =
          connection.input ++ connection.socket.inbound := by
      rw [List.append_assoc, List.take_append_drop]
    -- A read asks for no more than fits, so the input never outgrows the limit.
    have hroom : room ≤ maxFrameLength - connection.input.length := Nat.min_le_left _ _
    rw [← hsplit]
    apply ih hphase houtput houtbound
    rw [List.length_append, List.length_take]
    omega

/-- An open connection stays with its client when it is taken as far as it can go. -/
theorem follows_advance {service : Service} {connection : Connection} {client : Client}
    (h : Follows service connection client) (hopen : connection.isClosed = false) :
    (connection.advance service).IsIdle ∧
      Follows service (connection.advance service) client := by
  cases h with
  | opened client => exact follows_read service rfl rfl rfl (Nat.zero_le _)
  | awaiting hnone hshort =>
      exact follows_read service rfl rfl rfl (Nat.le_of_lt hshort)
  | closed houtcome hphase hreceived =>
      rw [isClosed_of_phase hphase] at hopen
      contradiction

end Connection

end RemoteCalc.EventLoop
