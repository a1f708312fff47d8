import RemoteCalc.Console.Report
import RemoteCalc.Net.Address
import RemoteCalc.Server

/-!
# The server program

Arguments choose the strategy, the transport, the address, the tag and the number
of workers.  Each strategy on each transport has a port and a tag of its own,
which are used when no others are given.
-/

namespace RemoteCalc.Console

open Directory

structure ServerOptions where
  mode : Mode
  transport : Transport
  address : Option Net.SocketAddress
  tag : Option String
  workers : Option Nat
  deriving DecidableEq, Repr

namespace ServerOptions

def mode? : String → Option Mode
  | "iterative" => some .iterative
  | "pooled" => some .pooled
  | "reactor" => some .reactor
  | _ => none

def transport? : String → Option Transport
  | "tcp" => some .stream
  | "udp" => some .datagram
  | _ => none

def address? (value : String) : Option Net.SocketAddress :=
  Net.SocketAddress.ofChars? value.toList

def maxWorkers : Nat := 4294967295

/-- A count of workers; a minus sign is allowed before a zero. -/
def workers? (value : String) : Option Nat :=
  match value.toList with
  | '-' :: digits => (Number.natural? digits).bind (Number.atMost? 0)
  | digits => Number.unsigned? maxWorkers digits

def settings : List Setting :=
  [⟨"mode", some 'm', checkBy mode? .invalidValue⟩,
    ⟨"transport", some 't', checkBy transport? .invalidValue⟩,
    ⟨"addr", some 'a', checkBy address? .valueValidation⟩,
    ⟨"tag", none, fun _ => .ok ()⟩,
    ⟨"threads", none, checkBy workers? .valueValidation⟩]

def parse (args : List String) : Except UsageFault ServerOptions :=
  (readOptions settings args).map fun found =>
    { mode := ((valueOf found "mode").bind mode?).getD .reactor
      transport := ((valueOf found "transport").bind transport?).getD .stream
      address := (valueOf found "addr").bind address?
      tag := valueOf found "tag"
      workers := (valueOf found "threads").bind workers? }

def defaults : Mode → Transport → UInt16 × String
  | .iterative, .stream => (9001, "iterative_tcp")
  | .pooled, .stream => (9002, "concurrent_tcp_threads")
  | .reactor, .stream => (9004, "concurrent_tcp_async")
  | .iterative, .datagram => (9005, "iterative_udp")
  | .pooled, .datagram => (9006, "concurrent_udp_threads")
  | .reactor, .datagram => (9008, "concurrent_udp_async")

def defaultPort (options : ServerOptions) : UInt16 :=
  (defaults options.mode options.transport).1

def defaultTag (options : ServerOptions) : String :=
  (defaults options.mode options.transport).2

def listenAddress (options : ServerOptions) : Net.SocketAddress :=
  options.address.getD (.v4 .unspecified options.defaultPort)

def server (options : ServerOptions) (processors : Nat) : Server :=
  { mode := options.mode
    transport := options.transport
    workers := options.workers.getD processors
    service := ⟨options.tag.getD options.defaultTag⟩ }

def poolSize? (options : ServerOptions) (processors : Nat) : Option Nat :=
  if options.mode = .pooled then some (options.workers.getD processors) else none

def help : String :=
  "Usage: calc-server [OPTIONS]\n\nOptions:\n" ++
    "  -m, --mode <MODE>            " ++
      "Concurrency strategy [default: reactor] " ++
      "[possible values: iterative, pooled, reactor]\n" ++
    "  -t, --transport <TRANSPORT>  " ++
      "Transport to serve [default: tcp] [possible values: tcp, udp]\n" ++
    "  -a, --addr <ADDR>            " ++
      "Address to bind, defaults to the well-known port of the mode\n" ++
    "      --tag <TAG>              Server tag reported in every response\n" ++
    "      --threads <THREADS>      " ++
      "Workers for the pooled mode, defaults to the number of CPUs\n" ++
    "  -h, --help                   Print help\n" ++
    "  -V, --version                Print version\n"

end ServerOptions

inductive Startup where
  | serving (server : Server) (address : Net.SocketAddress)
  | ended (outcome : Outcome)
  deriving Repr

def startServer (args : List String) (processors : Nat)
    (bind : Net.SocketAddress → Except IoFault Unit) : Startup :=
  match ServerOptions.parse args with
  | .error fault => .ended (.usage (usageText ServerOptions.help fault) fault)
  | .ok options =>
      let server := options.server processors
      let address := options.listenAddress
      match server.start (bind address) with
      | .ok () => .serving server address
      | .error fault =>
          .ended (.failure ""
            (report (("cannot serve on " ++ address.text) :: messages fault)))

end RemoteCalc.Console
