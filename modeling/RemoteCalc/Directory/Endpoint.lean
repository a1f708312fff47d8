import RemoteCalc.Net.Address

/-!
# Endpoints

Where one server can be reached: a name for people, an address, a port and a
transport.
-/

namespace RemoteCalc.Directory

inductive Transport where
  | stream
  | datagram
  deriving DecidableEq, Repr

namespace Transport

def protocol : Transport → String
  | stream => "tcp"
  | datagram => "udp"

def word : Transport → String
  | stream => "stream"
  | datagram => "datagram"

def words : List String := [stream.word, datagram.word]

def ofWord? : String → Option Transport
  | "stream" => some stream
  | "datagram" => some datagram
  | _ => none

@[simp] theorem ofWord?_word (transport : Transport) :
    ofWord? transport.word = some transport := by
  cases transport <;> rfl

end Transport

structure Endpoint where
  name : String
  address : Net.Ipv4
  port : UInt16
  transport : Transport
  deriving DecidableEq, Repr

namespace Endpoint

def socketAddress (endpoint : Endpoint) : Net.SocketAddress :=
  .v4 endpoint.address endpoint.port

def text (endpoint : Endpoint) : String :=
  endpoint.name ++ " (" ++ endpoint.socketAddress.text ++ "/" ++
    endpoint.transport.protocol ++ ")"

end Endpoint

def localServers : List Endpoint :=
  [⟨"Iterative TCP Server", .localhost, 9001, .stream⟩,
    ⟨"Concurrent TCP Threads Server", .localhost, 9002, .stream⟩,
    ⟨"Concurrent TCP Processes Server", .localhost, 9003, .stream⟩,
    ⟨"Concurrent TCP Async Server", .localhost, 9004, .stream⟩,
    ⟨"Iterative UDP Server", .localhost, 9005, .datagram⟩,
    ⟨"Concurrent UDP Threads Server", .localhost, 9006, .datagram⟩,
    ⟨"Concurrent UDP Processes Server", .localhost, 9007, .datagram⟩,
    ⟨"Concurrent UDP Async Server", .localhost, 9008, .datagram⟩]

end RemoteCalc.Directory
