import RemoteCalc.Clock
import RemoteCalc.Directory.Endpoint
import RemoteCalc.Fault
import RemoteCalc.Wire.Request
import RemoteCalc.Wire.Response

/-!
# Calls with failover

A client knows a table of endpoints and where in it the next call begins.  A call
tries the endpoints one after the other, round the end of the table to the start,
until one gives a well-formed response, and the next call begins behind that one.
How a frame gets to an endpoint and a reply back is the business of an exchange,
which has effects of its own and may answer differently every time.
-/

namespace RemoteCalc.Failover

open Wire Directory

/-- One attempt: carries a frame to an endpoint and brings back what it replies. -/
abbrev Exchange (m : Type → Type) :=
  Endpoint → Bytes → Span → m (Except Fault Bytes)

def defaultTimeout : Span := .ofSeconds 5

structure Client where
  endpoints : List Endpoint
  cursor : Fin endpoints.length
  timeout : Span

structure Answer where
  endpoint : String
  response : Response
  deriving DecidableEq

def Client.ofTable (table : List Endpoint) : Except Fault Client :=
  if h : 0 < table.length then .ok ⟨table, ⟨0, h⟩, defaultTimeout⟩
  else .error .noEndpoints

def Client.withTimeout (client : Client) (timeout : Span) : Client :=
  { client with timeout }

def behind {size : Nat} (place : Fin size) : Fin size :=
  ⟨(place + 1) % size, Nat.mod_lt _ (Nat.zero_lt_of_lt place.isLt)⟩

def Client.walk (client : Client) : List (Fin client.endpoints.length) :=
  (List.finRange client.endpoints.length).map (client.cursor + ·)

/-- A reply counts only if it is a well-formed response. -/
def accept (reply : Except Fault Bytes) : Except Fault Response :=
  reply.bind fun frame => (Response.decode frame).mapError .frame

variable {m : Type → Type} [Monad m]

/--
Tries the places in turn: the first that gives a response, with that response, or
the failures of all of them.
-/
def Client.attempt (client : Client) (exchange : Exchange m) (frame : Bytes) :
    List (Fin client.endpoints.length) →
      m (Except (List Failure) (Fin client.endpoints.length × Response))
  | [] => return .error []
  | place :: rest => do
      let endpoint := client.endpoints[place]
      match accept (← exchange endpoint frame client.timeout) with
      | .ok response => return .ok (place, response)
      | .error fault =>
          let result ← client.attempt exchange frame rest
          return result.mapError (⟨endpoint.name, fault.message⟩ :: ·)

def Client.send (client : Client) (exchange : Exchange m) (request : Request) :
    m (Except Fault Answer × Client) := do
  match ← client.attempt exchange request.encode client.walk with
  | .ok (place, response) =>
      return (.ok ⟨client.endpoints[place].name, response⟩,
        { client with cursor := behind place })
  | .error failures =>
      return (.error (.exhausted failures), { client with cursor := behind client.cursor })

def Client.sendAll (exchange : Exchange m) :
    Client → List Request → m (List (Except Fault Answer))
  | _, [] => return []
  | client, request :: rest => do
      let (outcome, client) ← client.send exchange request
      let outcomes ← client.sendAll exchange rest
      return outcome :: outcomes

/-! ## Deadlines -/

/-- When an attempt that begins now has to be over, if that is fixed before it. -/
def deadlineAt (now : Span) (endpoint : Endpoint) (timeout : Span) :
    Except Breakdown (Option Span) :=
  match endpoint.transport with
  | .stream => (Clock.after now timeout).map some
  | .datagram => .ok none

/-- The exchange with deadlines, by the clock that the state of the exchange shows. -/
def timed {σ : Type} (clock : σ → Span) (exchange : Exchange (StateM σ)) :
    Exchange (ExceptT Breakdown (StateM σ)) :=
  fun endpoint frame timeout state =>
    match deadlineAt (clock state) endpoint timeout with
    | .error cause => (.error cause, state)
    | .ok _ =>
        let (reply, next) := (exchange endpoint frame timeout).run state
        (.ok reply, next)

end RemoteCalc.Failover
