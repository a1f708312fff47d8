import RemoteCalc.Failover
import RemoteCalc.Server
import RemoteCalc.Wire.Inbox

/-!
# Calls over a network

An attempt connects to an endpoint, sends one frame and waits for one reply.  What
it meets depends on the host, which may have no route at all, and on who is at
the other end.  An attempt over a stream has a deadline, which is fixed first and
which the clock of the host has to be able to tell.
-/

namespace RemoteCalc.Net

open Wire Directory

inductive Remote where
  | server (server : Server)
  | canned (data : Bytes)
  | silent
  | down
  deriving DecidableEq, Repr

structure Network where
  hasRoute : Bool
  remote : Endpoint → Remote

/--
How the attempts of a host go, one after the other: what its clock shows when each of
them begins, and the pieces in which the bytes of a stream come then.
-/
structure Course where
  clock : Nat → Span
  pieces : Nat → List Nat

/-- Bytes in pieces of these lengths and one byte more each; one last piece has the rest. -/
def inPieces : List Nat → Bytes → List Arrival
  | _, [] => []
  | [], bytes => [.data bytes]
  | length :: lengths, bytes =>
      .data (bytes.take (length + 1)) :: inPieces lengths (bytes.drop (length + 1))

namespace Network

def connect (network : Network) (timeout : Span) : Except IoFault Unit :=
  if network.hasRoute = false then .error ⟨.networkUnreachable, none⟩
  else if timeout.nanos = 0 then .error ⟨.zeroTimeout, none⟩
  else .ok ()

def streamSource (pieces : List Nat) (frame : Bytes) :
    Remote → Except IoFault (List Arrival)
  | .server server => .ok (inPieces pieces (server.replyToStream frame))
  | .canned data => .ok (inPieces pieces data)
  | .silent => .ok [.fault ⟨.wouldBlock, none⟩]
  | .down => .error ⟨.connectionRefused, none⟩

def datagramReply (frame : Bytes) : Remote → Except IoFault Bytes
  | .server server =>
      match server.replyToDatagram frame with
      | some reply => .ok (received reply)
      | none => .error ⟨.wouldBlock, none⟩
  | .canned data => .ok (received data)
  | .silent => .error ⟨.wouldBlock, none⟩
  | .down => .error ⟨.connectionRefused, none⟩

/-- What a delivery is to a client; a stream that ends before a frame has not answered. -/
def answer : Delivery → Except Fault Bytes
  | .frame bytes => .ok bytes
  | .finished => .error (.transport .closedUnanswered)
  | .fault cause => .error cause

def firstFrame (source : List Arrival) : Except Fault Bytes :=
  answer (Inbox.ofSource source).receive.1

/-- A wait that was given up is a timeout. -/
def classify (timeout : Span) : Fault → Fault
  | .io ⟨.wouldBlock, _⟩ => .timeout timeout
  | .io ⟨.timedOut, _⟩ => .timeout timeout
  | fault => fault

def attempt (network : Network) (pieces : List Nat) (endpoint : Endpoint)
    (frame : Bytes) (timeout : Span) : Except Fault Bytes := do
  (network.connect timeout).mapError .io
  match endpoint.transport with
  | .stream =>
      let source ← (streamSource pieces frame (network.remote endpoint)).mapError .io
      firstFrame source
  | .datagram => (datagramReply frame (network.remote endpoint)).mapError .io

variable (network : Network) (course : Course)

/-- The exchange of a host without its deadlines, which counts the attempts. -/
def untimed : Failover.Exchange (StateM Nat) :=
  fun endpoint frame timeout made =>
    let reply := network.attempt (course.pieces made) endpoint frame timeout
    (reply.mapError (classify timeout), made + 1)

def exchange : Failover.Exchange (ExceptT Breakdown (StateM Nat)) :=
  Failover.timed course.clock (network.untimed course)

def calls (client : Failover.Client) (requests : List Request) :
    Except Breakdown (List (Except Fault Failover.Answer)) :=
  ((client.sendAll (network.exchange course) requests).run.run 0).1

end Network

end RemoteCalc.Net
