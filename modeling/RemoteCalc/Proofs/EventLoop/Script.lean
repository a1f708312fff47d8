import RemoteCalc.EventLoop.Watch
import RemoteCalc.Proofs.EventLoop.Streams

/-!
# Every client gets its own outcome

A script says what clients do, which events come in between, and when the loop turns.
Whatever the script, each connection follows its own client, and after a turn each
client has come to the outcome that its own bytes call for.
-/

namespace RemoteCalc.EventLoop

open Wire

/-! ## Scripts -/

inductive Step where
  | deed (deed : Deed)
  | event (event : Event)
  | turn
  deriving DecidableEq, Repr

namespace Client

def perform (clients : List Client) : Deed → List Client
  | .move (.connect data) => clients ++ [⟨data, false⟩]
  | .move (.send client data) => clients.modify client fun client => client.send data
  | .move (.finish client) => clients.modify client finish
  | .leave client => clients.modify client finish
  | .wait => clients

def step (clients : List Client) : Step → List Client
  | .deed deed => perform clients deed
  | .event _ | .turn => clients

/-- The clients of a script, told from their own deeds alone. -/
def ofScript (steps : List Step) : List Client := steps.foldl step []

end Client

namespace Loop

variable {service : Service} {loop : Loop} {clients : List Client}

def perform (loop : Loop) (deed : Deed) : Loop := (Watch.perform ⟨loop, []⟩ deed).loop

def step (service : Service) (loop : Loop) : Step → Loop
  | .deed deed => loop.perform deed
  | .event event => loop.handle service event
  | .turn => loop.turn service

def run (service : Service) (steps : List Step) : Loop :=
  steps.foldl (step service) start

private theorem follows_modify (h : loop.Follows service clients) {f : Peer → Peer}
    {g : Client → Client}
    (hfollows : ∀ peer client, peer.Follows service client → (f peer).Follows service (g client))
    (htoken : ∀ peer, (f peer).token = peer.token)
    (hphase : ∀ peer, (f peer).connection.phase = peer.connection.phase) (place : Nat) :
    Follows service { loop with peers := loop.peers.modify place f }
      (clients.modify place g) where
  peers := forall₂_modify h.peers hfollows place
  counters := by
    have hcount {p : Peer → Bool} (hp : ∀ peer, p (f peer) = p peer) :
        (loop.peers.modify place f).countP p = loop.peers.countP p := by
      have hmap := congrArg (List.countP id) (map_modify_same hp loop.peers place)
      rwa [List.countP_map, List.countP_map] at hmap
    rw [h.counters, tally, tally, hcount fun peer => by rw [htoken],
      hcount fun peer => by rw [Peer.hasEnded, Peer.hasEnded, hphase],
      hcount fun peer => by rw [Peer.hasEnded, Peer.hasEnded, hphase]]
  tokens := by
    rw [tokens, map_modify_same htoken]
    exact h.tokens

private theorem token_arrive (peer : Peer) (data : Bytes) :
    (Peer.arrive peer data).token = peer.token := by
  rw [Peer.arrive]
  split_ifs <;> rfl

private theorem phase_arrive (peer : Peer) (data : Bytes) :
    (Peer.arrive peer data).connection.phase = peer.connection.phase := by
  rw [Peer.arrive]
  split_ifs <;> rfl

private theorem token_finish (peer : Peer) : (Peer.finish peer).token = peer.token := by
  rw [Peer.finish]
  split_ifs <;> rfl

private theorem phase_finish (peer : Peer) :
    (Peer.finish peer).connection.phase = peer.connection.phase := by
  rw [Peer.finish]
  split_ifs <;> rfl

private theorem follows_connect (h : loop.Follows service clients) (data : Bytes) :
    (loop.move (.connect data)).Follows service (clients ++ [⟨data, false⟩]) where
  peers := by
    have hnew : Peer.Follows service ⟨none, .opened data⟩ ⟨data, false⟩ :=
      ⟨.opened ⟨data, false⟩, iff_of_true rfl rfl⟩
    exact List.rel_append h.peers (.cons hnew .nil)
  counters := by
    show loop.counters = tally (loop.peers ++ [⟨none, .opened data⟩])
    rw [h.counters]
    simp [tally, Peer.hasEnded, Connection.opened]
  tokens := by
    show AreGiven ((loop.peers ++ [Peer.mk none (.opened data)]).map Peer.token) loop.nextToken
    rw [List.map_append]
    exact h.tokens.append_none

theorem follows_perform (h : loop.Follows service clients) (deed : Deed) :
    (loop.perform deed).Follows service (Client.perform clients deed) := by
  have hfinish (client : Nat) : (loop.move (.finish client)).Follows service
      (clients.modify client Client.finish) :=
    follows_modify h (fun _ _ h => h.finish) token_finish phase_finish client
  cases deed with
  | move move =>
      cases move with
      | connect data => exact follows_connect h data
      | send client data =>
          exact follows_modify h (fun _ _ h => h.arrive data) (token_arrive · data)
            (phase_arrive · data) client
      | finish client => exact hfinish client
  | leave client => exact hfinish client
  | wait => exact h

theorem follows_start (service : Service) : start.Follows service [] where
  peers := .nil
  counters := rfl
  tokens := ⟨Nat.le_refl _, by simp [tokens, start], by simp [tokens, start]⟩

private theorem follows_step (h : loop.Follows service clients) (step : Step) :
    (loop.step service step).Follows service (Client.step clients step) := by
  cases step with
  | deed deed => exact follows_perform h deed
  | event event => exact (leads_handle h event).follows
  | turn => exact (leads_turn h).follows

private theorem follows_foldl (h : loop.Follows service clients) (steps : List Step) :
    (steps.foldl (step service) loop).Follows service (steps.foldl Client.step clients) := by
  induction steps generalizing loop clients with
  | nil => exact h
  | cons step steps ih => exact ih (follows_step h step)

/-- A loop stays with its clients through every script. -/
theorem follows_run (service : Service) (steps : List Step) :
    (run service steps).Follows service (Client.ofScript steps) :=
  follows_foldl (follows_start service) steps

end Loop

/-! ## Outcomes after a turn -/

namespace Client

def endsIn (service : Service) (ending : Ending) (client : Client) : Bool :=
  (client.outcome? service).map Outcome.ending = some ending

end Client

namespace Peer

variable {service : Service} {peer : Peer} {client : Client}

private theorem cases_of_settled (h : peer.Follows service client)
    (hsettled : peer.IsSettled) :
    (∃ input, peer.connection = .awaiting input [] false ∧ client.outcome? service = none) ∨
      ∃ outcome, client.outcome? service = some outcome ∧
        peer.connection.phase = .closed outcome.ending ∧
          peer.connection.socket.outbound = outcome.received := by
  obtain ⟨token, connection⟩ := peer
  obtain ⟨hconnection, htoken⟩ := h
  obtain ⟨hwaiting, hready⟩ := hsettled
  cases hconnection with
  | opened client =>
      rw [isWaiting, htoken.mpr rfl] at hwaiting
      contradiction
  | @awaiting input inbound ended hnone hshort =>
      left
      cases token with
      | none => contradiction
      | some token =>
          obtain ⟨rfl, rfl⟩ : inbound = [] ∧ ended = false := by
            simpa [isReady, isHeld, Connection.isReady,
              Connection.isClosed] using hready
          refine ⟨input, rfl, ?_⟩
          rw [List.append_nil]
          exact Client.outcome?_of_short hnone hshort
  | closed houtcome hphase hreceived => exact .inr ⟨_, houtcome, hphase, hreceived⟩

private theorem token_of_settled (hsettled : peer.IsSettled) :
    peer.token.isSome = true := by
  have hwaiting := hsettled.1
  rw [isWaiting] at hwaiting
  cases htoken : peer.token with
  | none => rw [htoken] at hwaiting; contradiction
  | some token => rfl

private theorem hasEnded_of_settled (h : peer.Follows service client)
    (hsettled : peer.IsSettled)
    (ending : Ending) : peer.hasEnded ending = client.endsIn service ending := by
  rw [hasEnded, Client.endsIn]
  rcases cases_of_settled h hsettled with ⟨input, hawaiting, hnone⟩ | ⟨outcome, hsome, hphase, -⟩
  · rw [hawaiting, hnone]
    rfl
  · rw [hphase, hsome]
    simp

private theorem isHeld_of_settled (h : peer.Follows service client)
    (hsettled : peer.IsSettled) :
    peer.isHeld = (client.outcome? service).isNone := by
  rw [isHeld, token_of_settled hsettled, Bool.true_and]
  rcases cases_of_settled h hsettled with ⟨input, hawaiting, hnone⟩ | ⟨outcome, hsome, hphase, -⟩
  · rw [hawaiting, hnone]
    rfl
  · rw [Connection.isClosed_of_phase hphase, hsome]
    rfl

end Peer

namespace Loop

/-- What a client has received after a script and a turn is told by its own bytes. -/
theorem writtenTo_turn (service : Service) {steps : List Step}
    {place : Nat} {client : Client}
    (h : (Client.ofScript steps)[place]? = some client) :
    ((run service steps).turn service).writtenTo place =
      match client.outcome? service with
      | some outcome => outcome.received
      | none => [] := by
  have hbefore := follows_run service steps
  obtain ⟨peer, hpeer, hfollows⟩ :=
    forall₂_getElem? (leads_turn hbefore).follows.peers.flip h
  have hsettled := settled_of_turn hbefore peer (List.mem_of_getElem? hpeer)
  rw [writtenTo, hpeer]
  rcases Peer.cases_of_settled hfollows hsettled with
    ⟨input, hawaiting, hnone⟩ | ⟨outcome, hsome, -, hreceived⟩
  · simp [hnone, hawaiting]
  · rw [hsome]
    exact hreceived

/--
After any script and one more turn nothing is due.  Each client has received what its
own bytes call for, is closed if they call for that, and is counted once.
-/
theorem turn_outcomes (service : Service) (steps : List Step) :
    let loop := (run service steps).turn service
    let clients := Client.ofScript steps
    loop.pending = [] ∧
    (∀ (place : Nat) (client : Client), clients[place]? = some client →
      match client.outcome? service with
      | some outcome =>
          loop.writtenTo place = outcome.received ∧ loop.hasClosed place = true
      | none => loop.writtenTo place = [] ∧ loop.hasClosed place = false) ∧
    loop.counters =
      ⟨clients.length, clients.countP (Client.endsIn service .served),
        clients.countP (Client.endsIn service .dropped)⟩ ∧
    loop.openCount = clients.countP fun client => (client.outcome? service).isNone := by
  intro loop clients
  have hbefore := follows_run service steps
  have hfollows : loop.Follows service clients := (leads_turn hbefore).follows
  have hsettled : ∀ peer ∈ loop.peers, peer.IsSettled := settled_of_turn hbefore
  have hpeers := (List.forall₂_and_left _ _).mpr ⟨hsettled, hfollows.peers⟩
  refine ⟨pending_eq_nil hsettled, ?_, ?_, ?_⟩
  · intro place client hclient
    obtain ⟨peer, hpeer, hpeerSettled, hpeerFollows⟩ :=
      forall₂_getElem? hpeers.flip hclient
    rw [writtenTo, hasClosed, hpeer]
    rcases Peer.cases_of_settled hpeerFollows hpeerSettled with
      ⟨input, hawaiting, hnone⟩ | ⟨outcome, hsome, hphase, hreceived⟩
    · simp [hnone, hawaiting, Connection.isClosed]
    · rw [hsome]
      exact ⟨hreceived, Connection.isClosed_of_phase hphase⟩
  · rw [hfollows.counters]
    apply Counters.ext
    · have hall : ∀ peer ∈ loop.peers, peer.token.isSome = true := fun peer hmem =>
        Peer.token_of_settled (hsettled peer hmem)
      exact (List.countP_eq_length.mpr hall).trans hfollows.peers.length_eq
    · exact countP_forall₂ hpeers fun peer client h => Peer.hasEnded_of_settled h.2 h.1 _
    · exact countP_forall₂ hpeers fun peer client h => Peer.hasEnded_of_settled h.2 h.1 _
  · exact countP_forall₂ hpeers fun peer client h => Peer.isHeld_of_settled h.2 h.1

end Loop

end RemoteCalc.EventLoop
