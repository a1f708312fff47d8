import RemoteCalc.Blocking.Server
import RemoteCalc.Directory.Endpoint
import RemoteCalc.EventLoop.Datagrams

/-!
# Servers

A server is a service behind one of three strategies and one of two transports.
Whichever it is, clients send it the same frames and get the same answers to
every request that can be read.
-/

namespace RemoteCalc

open Wire Directory

inductive Mode where
  | iterative
  | pooled
  | reactor
  deriving DecidableEq, Repr

structure Server where
  mode : Mode
  transport : Transport
  workers : Nat
  service : Service
  deriving DecidableEq, Repr

namespace Server

def concurrency? (server : Server) : Option Blocking.Concurrency :=
  match server.mode with
  | .iterative => some .iterative
  | .pooled => some (.pooled server.workers)
  | .reactor => none

def start (server : Server) (bound : Except IoFault Unit) : Except Fault Unit := do
  bound.mapError .io
  match server.concurrency? with
  | some concurrency => concurrency.check
  | none => return ()

/-- What clients of the event loop are sent that connect, send and finish in turn. -/
def loopStreams (service : Service) (streams : List Bytes) : List Bytes :=
  streams.map fun data =>
    let loop := (EventLoop.Loop.start.move (.connect data)).move (.finish 0)
    (loop.turn service).writtenTo 0

def serveStreams (server : Server) (streams : List Bytes) : Except Fault (List Bytes) :=
  match server.concurrency? with
  | some concurrency =>
      Blocking.serveStreams server.service concurrency
        (streams.map fun data => [Arrival.data data])
  | none => .ok (loopStreams server.service streams)

def serveDatagrams (server : Server) (datagrams : List Bytes) :
    Except Fault (List (Option Bytes)) :=
  match server.concurrency? with
  | some concurrency =>
      (Blocking.serveDatagrams server.service concurrency datagrams).map
        fun sent => sent.map List.head?
  | none => .ok (EventLoop.receiveAll server.service .zero datagrams).1

/--
What the server sends to a single client that sends this much, and then neither sends more
nor ends its stream: a blocking server gives it up when nothing has come for some time.
-/
def replyToStream (server : Server) (data : Bytes) : Bytes :=
  match server.concurrency? with
  | some concurrency =>
      match Blocking.serveStreams server.service concurrency
        [[.data data, .fault ⟨.wouldBlock, none⟩]] with
      | .ok [reply] => reply
      | _ => []
  | none => EventLoop.serveStream server.service data

def replyToDatagram (server : Server) (datagram : Bytes) : Option Bytes :=
  match server.serveDatagrams [datagram] with
  | .ok [reply] => reply
  | _ => none

end Server

end RemoteCalc
