import RemoteCalc.Blocking.Conversation
import RemoteCalc.Pool

/-!
# Blocking servers

A blocking server serves its clients one at a time, in the order in which they
come, or hands each to a pool of workers.  What a client is sent is tagged with
the client's place in the order of arrival.
-/

namespace RemoteCalc.Blocking

open Wire

inductive Concurrency where
  | iterative
  | pooled (workers : Nat)
  deriving DecidableEq, Repr

def Concurrency.check : Concurrency → Except Fault Unit
  | .iterative => .ok ()
  | .pooled workers => Pool.checkSize workers

/-- What was sent, to which client, in the order of sending. -/
abbrev Sent (α : Type) := List (Nat × α)

def served {α β : Type} (serve : α → β) (order : List (α × Nat)) : Sent β :=
  order.map fun (client, place) => (place, serve client)

def serveAll {α β : Type} (concurrency : Concurrency) (serve : α → β)
    (clients : List α) : Except Fault (Sent β) :=
  match concurrency with
  | .iterative => .ok (served serve clients.zipIdx)
  | .pooled workers => (Pool.runAll Pool.returning workers clients.zipIdx).map (served serve)

def sentTo {α : Type} (sent : Sent α) (client : Nat) : List α :=
  (sent.filter fun item => item.1 = client).map Prod.snd

/-! ## Streams -/

def streamReplies (clients : Nat) (sent : Sent Bytes) : List Bytes :=
  (List.range clients).map fun client => (sentTo sent client).flatten

def serveStreams (service : Service) (concurrency : Concurrency)
    (streams : List (List Arrival)) : Except Fault (List Bytes) :=
  (serveAll concurrency (serveStream service) streams).map (streamReplies streams.length)

/-! ## Datagrams -/

/--
The one buffer of a server, into which all datagrams are received: behind the last one
stands what is left of those before it.
-/
structure Buffer where
  bytes : Bytes
  filled : Nat

namespace Buffer

def empty : Buffer := ⟨List.replicate datagramRoom 0, 0⟩

def receive (buffer : Buffer) (datagram : Bytes) : Buffer :=
  let found := received datagram
  ⟨found ++ buffer.bytes.drop found.length, found.length⟩

def request (buffer : Buffer) : Bytes := buffer.bytes.take buffer.filled

def requests (buffer : Buffer) : List Bytes → List Bytes
  | [] => []
  | datagram :: rest =>
      let buffer := buffer.receive datagram
      buffer.request :: requests buffer rest

end Buffer

def datagramReplies (clients : Nat) (sent : Sent (Option Bytes)) : List (List Bytes) :=
  (List.range clients).map fun client => (sentTo sent client).filterMap id

def serveDatagrams (service : Service) (concurrency : Concurrency)
    (datagrams : List Bytes) : Except Fault (List (List Bytes)) :=
  (serveAll concurrency (answer service) (Buffer.empty.requests datagrams)).map
    (datagramReplies datagrams.length)

end RemoteCalc.Blocking
