import RemoteCalc.EventLoop.Streams

/-!
# The event loop over datagrams

Every datagram is a request of its own.  One that cannot be read is dropped
without an answer, and so is a request to exit, which is not even counted.
-/

namespace RemoteCalc.EventLoop

open Wire

def receiveDatagram (service : Service) (counters : Counters) (datagram : Bytes) :
    Option Bytes × Counters :=
  match service.handle (received datagram) with
  | .ok (.frame bytes) => (some bytes, counters.add .served)
  | .ok .hangup => (none, counters)
  | .error _ => (none, counters.add .dropped)

def receiveAll (service : Service) (counters : Counters) :
    List Bytes → List (Option Bytes) × Counters
  | [] => ([], counters)
  | datagram :: rest =>
      let (reply, counters) := receiveDatagram service counters datagram
      let (replies, counters) := receiveAll service counters rest
      (reply :: replies, counters)

def receiveBatches (service : Service) (counters : Counters) :
    List (List Bytes) → List (List (Option Bytes) × Counters)
  | [] => []
  | batch :: rest =>
      let (replies, counters) := receiveAll service counters batch
      (replies, counters) :: receiveBatches service counters rest

structure BatchLook where
  counters : Counters
  openCount : Nat
  replies : List (Option Bytes)
  deriving DecidableEq, Repr

def watchBatches (service : Service) (batches : List (List Bytes)) : List BatchLook :=
  (receiveBatches service .zero batches).map fun (replies, counters) => ⟨counters, 0, replies⟩

end RemoteCalc.EventLoop
