import RemoteCalc.Console.Report
import RemoteCalc.Console.Session
import RemoteCalc.Directory.Table
import RemoteCalc.Json.Plain

/-!
# The client program

Arguments name an endpoint table and a timeout; without a table the client knows
the local servers.  Then the menu session runs over the given exchange.
-/

namespace RemoteCalc.Console

open Failover

structure ClientOptions where
  endpoints : Option String
  timeout : Nat
  deriving DecidableEq, Repr

namespace ClientOptions

def defaultTimeout : Nat := 5

def maxSeconds : Nat := 18446744073709551615

def seconds? (value : String) : Option Nat :=
  Number.unsigned? maxSeconds value.toList

def path? (value : String) : Option String :=
  if value = "" then none else some value

def settings : List Setting :=
  [⟨"endpoints", some 'e', checkBy path? .invalidValue⟩,
    ⟨"timeout", some 't', checkBy seconds? .valueValidation⟩]

def parse (args : List String) : Except UsageFault ClientOptions :=
  (readOptions settings args).map fun found =>
    ⟨valueOf found "endpoints",
      ((valueOf found "timeout").bind seconds?).getD defaultTimeout⟩

/-- The time one attempt may take, which is never nothing. -/
def span (options : ClientOptions) : Span := .ofSeconds (max options.timeout 1)

def help : String :=
  "Usage: calc-client [OPTIONS]\n\nOptions:\n" ++
    "  -e, --endpoints <ENDPOINTS>  " ++
      "JSON endpoint table, defaults to the eight local servers\n" ++
    "  -t, --timeout <TIMEOUT>      Per-endpoint timeout in seconds [default: 5]\n" ++
    "  -h, --help                   Print help\n" ++
    "  -V, --version                Print version\n"

end ClientOptions

/-- What the program takes from others: a reader of arguments, and one of tables. -/
structure Libraries where
  parse : List String → Except UsageFault ClientOptions
  json : Json.Library

def Libraries.plain : Libraries := ⟨ClientOptions.parse, Json.plain⟩

abbrev Files := String → Except IoFault Wire.Bytes

def loadEndpoints (json : Json.Library) (files : Files) (options : ClientOptions) :
    Except Fault (List Directory.Endpoint) :=
  match options.endpoints with
  | some path => Directory.load json path (files path)
  | none => .ok Directory.localServers

def prepareClient (json : Json.Library) (files : Files) (options : ClientOptions) :
    Except Fault Client := do
  let table ← loadEndpoints json files options
  let client ← Client.ofTable table
  return client.withTimeout options.span

def finishClient (shown : String) : Finish → Outcome
  | .exited | .endOfInput => .success shown
  | .unreadableLine => .failure shown (report [IoKind.invalidText.message])
  | .fault fault => .failure shown (report (messages fault))
  | .broken _ => .breakdown shown

def startClient (libraries : Libraries) (files : Files) (args : List String) :
    Except Outcome Client :=
  match libraries.parse args with
  | .error fault => .error (.usage (usageText ClientOptions.help fault) fault)
  | .ok options =>
      (prepareClient libraries.json files options).mapError fun fault =>
        .failure "" (report (messages fault))

def runClient {m : Type → Type} [Monad m] (libraries : Libraries) (files : Files)
    (exchange : Exchange (ExceptT Breakdown m)) (args : List String)
    (input : Wire.Bytes) :
    m Outcome := do
  match startClient libraries files args with
  | .error outcome => return outcome
  | .ok client =>
      let transcript ←
        session exchange client .choosing ((splitLines input).map decodeLine)
      return finishClient transcript.shown transcript.finish

end RemoteCalc.Console
