import RemoteCalc.Directory.Endpoint
import RemoteCalc.Fault
import RemoteCalc.Json.Library
import RemoteCalc.Wire.Frame

/-!
# Endpoint tables

A table is a JSON list of endpoints, and an endpoint a record of four fields.  A table is
loaded whole or not at all, and an empty one is refused.
-/

namespace RemoteCalc.Directory

open Json

variable (json : Library)

namespace Endpoint

def names : List String := ["name", "address", "port", "transport"]

def ofFields? : List Value → Option Endpoint
  | [name, address, port, transport] => do
      let name ← json.string name
      let address ← json.parsed Net.Ipv4.ofChars? address
      let port ← json.natural Net.SocketAddress.maxPort port
      let transport ← (json.word Transport.words transport).bind Transport.ofWord?
      return ⟨name, address, port.toUInt16, transport⟩
  | _ => none

def ofValue? (value : Value) : Option Endpoint :=
  (json.record names value).bind (ofFields? json)

def members (endpoint : Endpoint) : List (String × List Char) :=
  [("name", json.writeString endpoint.name),
    ("address", json.writeString endpoint.address.text),
    ("port", json.writeNatural endpoint.port.toNat),
    ("transport", json.writeString endpoint.transport.word)]

def written (endpoint : Endpoint) : List Char :=
  json.writeRecord (endpoint.members json)

end Endpoint

def readTable : Reader (List Endpoint) := json.list (Endpoint.ofValue? json)

def parse (text : List Char) : Except Fault (List Endpoint) :=
  match json.fromText (readTable json) text with
  | .error reason => .error (.malformedTable reason)
  | .ok [] => .error .noEndpoints
  | .ok (endpoint :: rest) => .ok (endpoint :: rest)

def decodeText? (bytes : Wire.Bytes) : Option (List Char) :=
  (String.fromUTF8? ⟨bytes.toArray⟩).map String.toList

def load (path : String) (content : Except IoFault Wire.Bytes) :
    Except Fault (List Endpoint) :=
  match content with
  | .error cause => .error (.config (.unreadableTable path cause))
  | .ok bytes =>
      match decodeText? bytes with
      | none =>
          .error (.config (.unreadableTable path ⟨.invalidText, none⟩))
      | some text => parse json text

end RemoteCalc.Directory
