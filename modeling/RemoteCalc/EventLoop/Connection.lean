import RemoteCalc.Service
import RemoteCalc.Wire.Inbox

/-!
# Connections of the event loop

The event loop serves all clients on one thread and never waits for one of them.
Each connection therefore remembers how far it has got.  It reads what has arrived
until a frame is complete, answers that frame, and closes; whatever comes after
the frame is left unread.
-/

namespace RemoteCalc.EventLoop

open Wire

inductive Ending where
  | served
  | dropped
  | silent
  deriving DecidableEq, Repr

inductive Phase where
  | accepted
  | reading
  | processing
  | writing
  | closed (ending : Ending)
  deriving DecidableEq, Repr

/--
The server's end of a stream: what has arrived and was not read yet, whether the
client has shut down its side behind that, and all that was written so far.
-/
structure Socket where
  inbound : Bytes
  ended : Bool
  outbound : Bytes
  deriving DecidableEq, Repr

structure Connection where
  phase : Phase
  input : Bytes
  output : Bytes
  socket : Socket
  deriving DecidableEq, Repr

namespace Connection

def opened (inbound : Bytes) : Connection :=
  ⟨.accepted, [], [], ⟨inbound, false, []⟩⟩

def isClosed (connection : Connection) : Bool :=
  match connection.phase with
  | .closed _ => true
  | _ => false

def close (connection : Connection) (ending : Ending) : Connection :=
  { connection with phase := .closed ending }

/-- Writes the output and closes, since a connection serves one request. -/
def flush (connection : Connection) : Connection :=
  let socket := { connection.socket with
    outbound := connection.socket.outbound ++ connection.output }
  { connection with output := [], socket }.close .served

def process (service : Service) (connection : Connection) : Connection :=
  let connection := { connection with phase := .processing }
  match service.handle connection.input with
  | .ok (.frame bytes) => { connection with phase := .writing, output := bytes }.flush
  | .ok .hangup => connection.close .silent
  | .error _ => connection.close .dropped

def room (connection : Connection) : Nat :=
  min (maxFrameLength - connection.input.length) chunkLength

def read (service : Service) (connection : Connection) : Connection :=
  match frameLength? connection.input with
  | some length =>
      process service { connection with input := connection.input.take length }
  | none =>
      if maxFrameLength ≤ connection.input.length then connection.close .dropped
      else if connection.socket.inbound = [] then
        if connection.socket.ended then connection.close .silent else connection
      else
        let room := connection.room
        let socket := { connection.socket with
          inbound := connection.socket.inbound.drop room }
        read service { connection with
          input := connection.input ++ connection.socket.inbound.take room, socket }
termination_by connection.socket.inbound.length
decreasing_by
  rename_i hlimit harrived
  have hpos := List.length_pos_iff.mpr harrived
  simp only [Connection.room, List.length_drop, chunkLength]
  omega

def advance (service : Service) (connection : Connection) : Connection :=
  match connection.phase with
  | .accepted | .reading => read service { connection with phase := .reading }
  | .writing => connection.flush
  | .processing | .closed _ => connection

def isReady (connection : Connection) : Bool :=
  connection.socket.inbound ≠ [] || connection.socket.ended

end Connection

end RemoteCalc.EventLoop
