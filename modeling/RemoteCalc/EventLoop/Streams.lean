import RemoteCalc.EventLoop.Connection

/-!
# The event loop over streams

The loop keeps a table of clients in the order in which they connected.  A client
waits to be accepted, is then held under a token that no other client ever gets,
and is gone once its connection has closed.  Events say that clients are waiting
or that the client of some token can go on; an event for a client that is gone
changes nothing.
-/

namespace RemoteCalc.EventLoop

open Wire

structure Counters where
  accepted : Nat
  served : Nat
  dropped : Nat
  deriving DecidableEq, Repr

namespace Counters

def zero : Counters := ⟨0, 0, 0⟩

def accept (counters : Counters) : Counters :=
  { counters with accepted := counters.accepted + 1 }

def add (counters : Counters) : Ending → Counters
  | .served => { counters with served := counters.served + 1 }
  | .dropped => { counters with dropped := counters.dropped + 1 }
  | .silent => counters

end Counters

/-- A client; it has a token from the moment it is accepted. -/
structure Peer where
  token : Option Nat
  connection : Connection
  deriving DecidableEq, Repr

namespace Peer

def isWaiting (peer : Peer) : Bool := peer.token.isNone

def isHeld (peer : Peer) : Bool :=
  peer.token.isSome && !peer.connection.isClosed

def isReady (peer : Peer) : Bool := peer.isHeld && peer.connection.isReady

end Peer

/-- Tokens below this one belong to the loop itself. -/
def firstToken : Nat := 2

@[simp] theorem firstToken_eq : firstToken = 2 := rfl

inductive Event where
  | waiting
  | ready (token : Nat)
  deriving DecidableEq, Repr

structure Loop where
  peers : List Peer
  nextToken : Nat
  counters : Counters
  deriving DecidableEq, Repr

namespace Loop

def start : Loop := ⟨[], firstToken, .zero⟩

def advanceAt (service : Service) (loop : Loop) (place : Nat) : Loop :=
  match loop.peers[place]? with
  | none => loop
  | some peer =>
      let connection := peer.connection.advance service
      let counters :=
        match connection.phase with
        | .closed ending => loop.counters.add ending
        | _ => loop.counters
      { loop with peers := loop.peers.set place { peer with connection }, counters }

def giveToken (loop : Loop) (place : Nat) : Loop :=
  { loop with
    peers := loop.peers.modify place fun peer =>
      { peer with token := some loop.nextToken }
    nextToken := loop.nextToken + 1
    counters := loop.counters.accept }

def welcome (service : Service) (loop : Loop) (place : Nat) : Loop :=
  if (loop.peers[place]?).any Peer.isWaiting then
    (loop.giveToken place).advanceAt service place
  else loop

def acceptAll (service : Service) (loop : Loop) : Loop :=
  (List.range loop.peers.length).foldl (welcome service) loop

def placeOf? (loop : Loop) (token : Nat) : Option Nat :=
  loop.peers.findIdx? fun peer => peer.token == some token && peer.isHeld

def serve (service : Service) (loop : Loop) (token : Nat) : Loop :=
  match loop.placeOf? token with
  | none => loop
  | some place => loop.advanceAt service place

def handle (service : Service) (loop : Loop) : Event → Loop
  | .waiting => loop.acceptAll service
  | .ready token => loop.serve service token

def pending (loop : Loop) : List Event :=
  let ready := (loop.peers.filter Peer.isReady).filterMap fun peer =>
    peer.token.map Event.ready
  if loop.peers.any Peer.isWaiting then .waiting :: ready else ready

/--
Handles all events that are due; nothing is due after that.  A poll reports no more than
128 events, so that this stands for as many polls as it takes.
-/
def turn (service : Service) (loop : Loop) : Loop :=
  loop.pending.foldl (handle service) loop

def openCount (loop : Loop) : Nat := loop.peers.countP Peer.isHeld

/-! ## What clients do -/

inductive Move where
  | connect (data : Bytes)
  | send (client : Nat) (data : Bytes)
  | finish (client : Nat)
  deriving DecidableEq, Repr

def Socket.arrive (socket : Socket) (data : Bytes) : Socket :=
  if socket.ended then socket else { socket with inbound := socket.inbound ++ data }

def Peer.arrive (peer : Peer) (data : Bytes) : Peer :=
  if peer.connection.isClosed then peer
  else { peer with connection := { peer.connection with
    socket := Socket.arrive peer.connection.socket data } }

def Peer.finish (peer : Peer) : Peer :=
  if peer.connection.isClosed then peer
  else { peer with connection := { peer.connection with
    socket := { peer.connection.socket with ended := true } } }

/-- Clients are numbered in the order in which they connect. -/
def move (loop : Loop) : Move → Loop
  | .connect data =>
      { loop with peers := loop.peers ++ [⟨none, .opened data⟩] }
  | .send client data =>
      { loop with peers := loop.peers.modify client (Peer.arrive · data) }
  | .finish client =>
      { loop with peers := loop.peers.modify client Peer.finish }

def writtenTo (loop : Loop) (client : Nat) : Bytes :=
  match loop.peers[client]? with
  | some peer => peer.connection.socket.outbound
  | none => []

def hasClosed (loop : Loop) (client : Nat) : Bool :=
  match loop.peers[client]? with
  | some peer => peer.connection.isClosed
  | none => false

end Loop

/-- What is written to a single client that sends these bytes at once. -/
def serveStream (service : Service) (data : Bytes) : Bytes :=
  ((Loop.start.move (.connect data)).turn service).writtenTo 0

end RemoteCalc.EventLoop
