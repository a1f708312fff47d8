import RemoteCalc.Span
import RemoteCalc.Wire.Fault

/-!
# Faults

Everything that can keep a call from being answered or a program from starting,
by cause.  `Fault.message` is the only place that words them.
-/

namespace RemoteCalc

inductive IoKind where
  | timedOut
  | wouldBlock
  | connectionReset
  | interrupted
  | other
  | addressInUse
  | connectionRefused
  | networkUnreachable
  | zeroTimeout
  | notFound
  | accessDenied
  | notDirectory
  | isDirectory
  | nameTooLong
  | invalidText
  deriving DecidableEq, Repr

def IoKind.message : IoKind → String
  | timedOut => "timed out"
  | wouldBlock => "operation would block"
  | connectionReset => "connection reset"
  | interrupted => "operation interrupted"
  | other => "other error"
  | addressInUse => "Address already in use (os error 98)"
  | connectionRefused => "Connection refused (os error 111)"
  | networkUnreachable => "Network is unreachable (os error 101)"
  | zeroTimeout => "cannot set a 0 duration timeout"
  | notFound => "No such file or directory (os error 2)"
  | accessDenied => "Permission denied (os error 13)"
  | notDirectory => "Not a directory (os error 20)"
  | isDirectory => "Is a directory (os error 21)"
  | nameTooLong => "File name too long (os error 36)"
  | invalidText => "stream did not contain valid UTF-8"

structure IoFault where
  kind : IoKind
  wording : Option String := none
  deriving DecidableEq, Repr

def IoFault.message (fault : IoFault) : String :=
  fault.wording.getD fault.kind.message

inductive TransportFault where
  | closedMidFrame
  | closedUnanswered
  | reported (text : String)
  deriving DecidableEq, Repr

def TransportFault.message : TransportFault → String
  | closedMidFrame => "stream closed in the middle of a frame"
  | closedUnanswered => "server closed the connection without answering"
  | reported text => text

inductive ConfigFault where
  | unreadableTable (path : String) (cause : IoFault)
  | noWorkers
  | reported (text : String)
  deriving DecidableEq, Repr

def ConfigFault.message : ConfigFault → String
  | unreadableTable path cause =>
      "cannot read endpoint table " ++ path ++ ": " ++ cause.message
  | noWorkers => "a worker pool needs at least one thread"
  | reported text => text

structure Failure where
  endpoint : String
  reason : String
  deriving DecidableEq, Repr

inductive Fault where
  | io (fault : IoFault)
  | malformedTable (reason : String)
  | frame (fault : Wire.FrameFault)
  | timeout (after : Span)
  | transport (fault : TransportFault)
  | noEndpoints
  | exhausted (failures : List Failure)
  | config (fault : ConfigFault)
  deriving DecidableEq, Repr

def Failure.summary (failures : List Failure) : String :=
  String.intercalate "; "
    (failures.map fun failure => failure.endpoint ++ ": " ++ failure.reason)

def Fault.message : Fault → String
  | io fault => "io error " ++ fault.message
  | malformedTable reason => "serde error " ++ reason
  | frame fault => "malformed frame: " ++ fault.message
  | timeout after => "timed out after " ++ after.text
  | transport fault => "transport error: " ++ fault.message
  | noEndpoints => "the endpoint table is empty"
  | exhausted failures =>
      "no endpoint could complete the request (" ++ Failure.summary failures ++ ")"
  | config fault => "config error: " ++ fault.message

end RemoteCalc
