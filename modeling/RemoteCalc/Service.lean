import RemoteCalc.Calculator
import RemoteCalc.Wire.Request
import RemoteCalc.Wire.Response

/-!
# The service behind every server

A service turns one request frame into one reply.  It stamps each response with
its tag.  Servers differ in what they do with a frame that is no request: some
drop it, and some answer it with a rejection.
-/

namespace RemoteCalc

open Wire Calculator

inductive Reply where
  | frame (bytes : Bytes)
  | hangup
  deriving DecidableEq, Repr

structure Service where
  tag : String
  deriving DecidableEq, Repr

namespace Service

def badRequest : String := "Server error: Bad request format"

def respond (service : Service) (request : Request) : Response :=
  match evaluate request.operation request.lhs request.rhs with
  | .ok result => .success result service.tag
  | .error fault => .failure fault.message service.tag

def rejection (service : Service) : Bytes :=
  (Response.failure badRequest service.tag).encode

def reply (service : Service) (request : Request) : Reply :=
  if request.operation = .exit then .hangup
  else .frame (service.respond request).encode

def handle (service : Service) (frame : Bytes) : Except FrameFault Reply :=
  (Request.decode frame).map service.reply

def handleOrReject (service : Service) (frame : Bytes) : Reply :=
  match service.handle frame with
  | .ok reply => reply
  | .error _ => .frame service.rejection

end Service

end RemoteCalc
