import RemoteCalc.Service
import RemoteCalc.Wire.Inbox

/-!
# Conversations

A blocking server talks with one client at a time: over a stream it answers
frame after frame until the stream ends or the client asks to exit, and a
datagram gets one answer at most.
-/

namespace RemoteCalc.Blocking

open Wire

set_option linter.unusedVariables false in
/--
The frames that a server writes to one stream.  Where no frame can be made out the
server says so and closes, as it has no place to go on from.
-/
def converse (service : Service) (inbox : Inbox) : List Bytes :=
  match h : inbox.receive with
  | (.frame frame, rest) =>
      match service.handleOrReject frame with
      | .frame bytes => bytes :: converse service rest
      | .hangup => []
  | (.fault (.frame _), _) => [service.rejection]
  | _ => []
termination_by inbox.weight
decreasing_by exact Inbox.weight_receive_frame h

def serveStream (service : Service) (source : List Arrival) : Bytes :=
  (converse service (.ofSource source)).flatten

def answer (service : Service) (datagram : Bytes) : Option Bytes :=
  match service.handleOrReject datagram with
  | .frame bytes => some bytes
  | .hangup => none

end RemoteCalc.Blocking
