import RemoteCalc.Console.Client
import RemoteCalc.Console.Server
import RemoteCalc.EventLoop.Connection
import RemoteCalc.Net.Network
import Std.Async.System
import Std.Async.TCP
import Std.Async.Timer
import Std.Async.UDP
import Std.Sync.Channel

/-!
# The command line

`client` runs a menu session over the servers of an endpoint table, and `server`
serves on a socket.  This file moves bytes between sockets, terminals and the
library, and decides nothing else.
-/

namespace RemoteCalc.Host

open Std.Async Wire

/-! ## Faults of the host -/

def codeOf : IO.Error → Option UInt32
  | .otherError code _ | .resourceBusy code _ | .resourceVanished code _
  | .timeExpired code _ | .protocolError code _ | .unsupportedOperation code _
  | .interrupted _ code _ | .noFileOrDirectory _ code _ | .invalidArgument _ code _
  | .permissionDenied _ code _ | .inappropriateType _ code _ | .noSuchThing _ code _
  | .alreadyExists _ code _ | .resourceExhausted _ code _ => some code
  | _ => none

/-- The number of a system error, which may come with either sign. -/
def errorNumber (code : UInt32) : Nat :=
  if code < 0x80000000 then code.toNat else (0 - code).toNat

def ioFault (error : IO.Error) : IoFault :=
  match (codeOf error).map errorNumber with
  | some 2 => ⟨.notFound, none⟩
  | some 4 => ⟨.interrupted, none⟩
  | some 13 => ⟨.accessDenied, none⟩
  | some 20 => ⟨.notDirectory, none⟩
  | some 21 => ⟨.isDirectory, none⟩
  | some 36 => ⟨.nameTooLong, none⟩
  | some 98 => ⟨.addressInUse, none⟩
  | some 101 => ⟨.networkUnreachable, none⟩
  | some 104 => ⟨.connectionReset, none⟩
  | some 110 => ⟨.timedOut, none⟩
  | some 111 => ⟨.connectionRefused, none⟩
  | _ => ⟨.other, some (toString error)⟩

def guarded {α : Type} (action : IO α) : IO (Except IoFault α) := do
  try
    return .ok (← action)
  catch error =>
    return .error (ioFault error)

/-! ## Addresses, bytes and time -/

def hostAddress : Net.SocketAddress → Std.Net.SocketAddress
  | .v4 address port =>
      .v4 ⟨.ofParts address.first address.second address.third address.fourth, port⟩
  | .v6 address _ port => .v6 ⟨⟨address.groups⟩, port⟩

def packed (bytes : Bytes) : ByteArray := ⟨bytes.toArray⟩

def now : IO Span := return .ofMillis (← IO.monoMsNow)

def deadlineIn (span : Span) : IO Span := do
  return ⟨(← now).nanos + span.nanos⟩

def longestWait : Nat := 1000000000000

def waitUntil (deadline : Span) : Async Unit := do
  let left := deadline.nanos / 1000000 - (← IO.monoMsNow)
  sleep (.ofNat (min left longestWait))

def before {α : Type} (deadline : Span) (action : Async α) : IO (Except IoFault α) :=
  guarded do
    let result : Option α ←
      (Async.race (some <$> action) (do waitUntil deadline; return none)).block
    match result with
    | some value => return value
    | none => throw (.timeExpired 110 "timed out")

/-! ## Streams -/

def readStream (socket : TCP.Socket.Client) (deadline : Span) : IO Arrival := do
  match ← before deadline (socket.recv? chunkLength.toUInt64) with
  | .ok (some bytes) => return .data bytes.toList
  | .ok none => return .data []
  | .error cause => return .fault cause

/-- The next frame: an inbox that has run dry is given what one more read finds. -/
partial def receive (read : IO Arrival) (inbox : Inbox) : IO (Delivery × Inbox) := do
  match inbox.receive with
  | (.finished, rest) => more .finished rest
  | (.fault (.transport .closedMidFrame), rest) =>
      more (.fault (.transport .closedMidFrame)) rest
  | result => return result
where
  more (ending : Delivery) (inbox : Inbox) : IO (Delivery × Inbox) := do
    match ← read with
    | .data [] => return (ending, inbox)
    | arrival => receive read { inbox with source := [arrival] }

def sendStream (socket : TCP.Socket.Client) (bytes : Bytes) : IO Unit :=
  unless bytes.isEmpty do (socket.send (packed bytes)).block

/-! ## Calls -/

def callStream (address : Net.SocketAddress) (frame : Bytes) (deadline : Span) :
    IO (Except Fault Bytes) := do
  let socket ← TCP.Socket.Client.mk
  match ← before deadline (socket.connect (hostAddress address)) with
  | .error cause => return .error (.io cause)
  | .ok () =>
      match ← guarded (sendStream socket frame) with
      | .error cause => return .error (.io cause)
      | .ok () =>
          let (delivery, _) ← receive (readStream socket deadline) (.ofSource [])
          return Net.Network.answer delivery

def callDatagram (address : Net.SocketAddress) (frame : Bytes) (timeout : Span) :
    IO (Except Fault Bytes) := do
  let deadline ← deadlineIn timeout
  let reply ← guarded do
    let socket ← UDP.Socket.mk
    socket.connect (hostAddress address)
    (socket.send (packed frame)).block
    before deadline (socket.recv datagramRoom.toUInt64)
  match reply.bind id with
  | .ok (bytes, _) => return .ok bytes.toList
  | .error cause => return .error (.io cause)

def exchange : Failover.Exchange (ExceptT Breakdown IO) :=
  fun endpoint frame timeout => do
  let reply ←
    match endpoint.transport with
    | .stream =>
        let deadline ← MonadExcept.ofExcept (Clock.after (← now) timeout)
        callStream endpoint.socketAddress frame deadline
    | .datagram => callDatagram endpoint.socketAddress frame timeout
  return reply.mapError (Net.Network.classify timeout)

/-! ## The client -/

partial def readLine (input : IO.FS.Stream) (line : Bytes) : IO Bytes := do
  match (← input.read 1).toList with
  | [] => return line
  | bytes =>
      let line := line ++ bytes
      if bytes.contains Console.lineFeed then return line else readLine input line

def display (text : String) : IO Unit := do
  let output ← IO.getStdout
  output.putStr text
  output.flush

partial def converse (client : Failover.Client) (stage : Console.Stage) :
    IO Console.Finish := do
  display stage.question
  match Console.splitLines (← readLine (← IO.getStdin) []) with
  | [] => return .endOfInput
  | line :: _ =>
      let (remark, step) := stage.hear (Console.decodeLine line)
      display remark
      match step with
      | .ask stage => converse client stage
      | .finish finish => return finish
      | .call request =>
          match ← (client.send exchange request).run with
          | .error cause => return .broken cause
          | .ok (result, client) =>
              match Console.showAnswer result with
              | .ok text =>
                  display text
                  converse client .choosing
              | .error fault => return .fault fault

def conclude (outcome : Console.Outcome) : IO UInt32 := do
  display outcome.output
  if let some report := outcome.report then IO.eprintln report
  return outcome.exitCode.toUInt32

def readTable (args : List String) : IO Console.Files := do
  match Console.Libraries.plain.parse args with
  | .ok ⟨some path, _⟩ =>
      let content ← guarded (IO.FS.readBinFile path)
      return fun _ => content.map ByteArray.toList
  | _ => return fun _ => .error ⟨.notFound, none⟩

def clientProgram (args : List String) : IO UInt32 := do
  match Console.startClient .plain (← readTable args) args with
  | .error outcome => conclude outcome
  | .ok client =>
      conclude (Console.finishClient "" (← converse client .choosing))

/-! ## Servers over streams -/

def idleTime : Span := .ofSeconds 30

partial def answerStream (service : Service) (socket : TCP.Socket.Client)
    (inbox : Inbox) : IO Unit := do
  let read := do readStream socket (← deadlineIn idleTime)
  match ← receive read inbox with
  | (.frame frame, rest) =>
      match service.handleOrReject frame with
      | .frame bytes =>
          sendStream socket bytes
          answerStream service socket rest
      | .hangup => return
  | (.fault (.frame _), _) => sendStream socket service.rejection
  | _ => return

def serveClient (service : Service) (socket : TCP.Socket.Client) : IO Unit := do
  discard <| guarded do
    answerStream service socket (.ofSource [])
    socket.shutdown.block

partial def advance (service : Service) (socket : TCP.Socket.Client)
    (connection : EventLoop.Connection) : Async Unit := do
  let connection := connection.advance service
  unless connection.socket.outbound.isEmpty do
    socket.send (packed connection.socket.outbound)
  if connection.isClosed then
    socket.shutdown
  else
    let arrived ← socket.recv? chunkLength.toUInt64
    let inbound := (arrived.map ByteArray.toList).getD []
    advance service socket
      { connection with socket := ⟨inbound, arrived.isNone, []⟩ }

/-! ## Work -/

abbrev Spread := IO Unit → IO Unit

partial def work (queue : Std.CloseableChannel.Sync (IO Unit)) : IO Unit := do
  match ← queue.recv with
  | some job =>
      discard <| guarded job
      work queue
  | none => return

def spread (server : Server) : IO Spread := do
  match server.mode with
  | .pooled =>
      let queue ← Std.CloseableChannel.Sync.new
      for _ in List.range server.workers do
        discard <| IO.asTask (work queue) .dedicated
      return fun job => (queue.send job).toIO fun _ => .userError "the queue is closed"
  | .iterative | .reactor => return fun job => job

/-! ## Servers -/

partial def serveStreams (server : Server) (listener : TCP.Socket.Server)
    (spread : Spread) : IO Unit := do
  let socket ← listener.accept.block
  match server.mode with
  | .reactor =>
      discard <| (advance server.service socket (.opened [])).asTask
  | _ => spread (serveClient server.service socket)
  serveStreams server listener spread

/-- The answer to a datagram; only the event loop drops what it cannot read. -/
def answerTo (server : Server) (datagram : Bytes) : Option Bytes :=
  match server.mode with
  | .reactor =>
      (EventLoop.receiveDatagram server.service .zero datagram).1
  | _ => Blocking.answer server.service (received datagram)

partial def serveDatagrams (server : Server) (socket : UDP.Socket) (spread : Spread) :
    IO Unit := do
  let (datagram, sender) ← (socket.recv datagramRoom.toUInt64).block
  spread do
    if let some reply := answerTo server datagram.toList then
      (socket.send (packed reply) sender).block
  serveDatagrams server socket spread

inductive Bound where
  | stream (listener : TCP.Socket.Server)
  | datagram (socket : UDP.Socket)

def bind (transport : Directory.Transport) (address : Net.SocketAddress) :
    IO Bound := do
  match transport with
  | .stream =>
      let listener ← TCP.Socket.Server.mk
      listener.bind (hostAddress address)
      listener.listen 128
      return .stream listener
  | .datagram =>
      let socket ← UDP.Socket.mk
      socket.bind (hostAddress address)
      return .datagram socket

def bindFor (args : List String) : IO (Except IoFault Bound) := do
  match Console.ServerOptions.parse args with
  | .ok options => guarded (bind options.transport options.listenAddress)
  | .error _ => return .error ⟨.other, none⟩

def serverProgram (args : List String) : IO UInt32 := do
  let bound ← bindFor args
  let processors := (← System.getCPUInfo).size
  match bound, Console.startServer args processors fun _ => bound.map fun _ => () with
  | .ok (.stream listener), .serving server _ =>
      serveStreams server listener (← spread server)
      return 0
  | .ok (.datagram socket), .serving server _ =>
      serveDatagrams server socket (← spread server)
      return 0
  | .error _, .serving _ _ => return 1
  | _, .ended outcome => conclude outcome

end RemoteCalc.Host

def main (args : List String) : IO UInt32 :=
  match args with
  | "client" :: args => RemoteCalc.Host.clientProgram args
  | "server" :: args => RemoteCalc.Host.serverProgram args
  | _ => do
      IO.eprintln "Usage: client [OPTIONS] or server [OPTIONS]"
      return 2
