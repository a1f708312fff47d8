import RemoteCalc.Proofs.EventLoop.Script

/-!
# Incidents

Sockets fail, clients are turned away and the listener may give one client at a time.
Through all of it no counter goes back, and the loop stays with each client whose
connection has not failed.
-/

namespace RemoteCalc.EventLoop

open Wire

/-! ## Incidents -/

inductive Incident where
  | step (step : Step)
  /-- One client is accepted and the listener gives no more for now. -/
  | accept (place : Nat)
  /-- The socket of one client fails as it is accepted, read or written to. -/
  | failure (place : Nat)
  /-- A client cannot be registered and is let go.  Only its token tells that it was there. -/
  | refusal
  deriving DecidableEq, Repr

/-- A connection that is held and fails is closed, and counted neither as served nor as dropped. -/
def Peer.fail (peer : Peer) : Peer :=
  if peer.isHeld then { peer with connection := peer.connection.close .silent } else peer

namespace Loop

def fail (loop : Loop) (place : Nat) : Loop :=
  let loop := if (loop.peers[place]?).any Peer.isWaiting then loop.giveToken place else loop
  { loop with peers := loop.peers.modify place Peer.fail }

def incur (service : Service) (loop : Loop) : Incident → Loop
  | .step step => loop.step service step
  | .accept place => loop.welcome service place
  | .failure place => loop.fail place
  | .refusal => { loop with nextToken := loop.nextToken + 1 }

def history (service : Service) (incidents : List Incident) : Loop :=
  incidents.foldl (incur service) start

end Loop

namespace Client

def incur (clients : List Client) : Incident → List Client
  | .step step => Client.step clients step
  | .accept _ | .failure _ | .refusal => clients

/-- What clients have done, told from their own deeds alone. -/
def history (incidents : List Incident) : List Client := incidents.foldl incur []

end Client

/-! ## What only grows -/

namespace Loop

/-- No counter goes back, no token is given again and no closed connection opens again. -/
structure Grows (before after : Loop) : Prop where
  accepted : before.counters.accepted ≤ after.counters.accepted
  served : before.counters.served ≤ after.counters.served
  dropped : before.counters.dropped ≤ after.counters.dropped
  nextToken : before.nextToken ≤ after.nextToken
  closed : ∀ place, before.hasClosed place = true → after.hasClosed place = true

namespace Grows

theorem refl (loop : Loop) : loop.Grows loop where
  accepted := Nat.le_refl _
  served := Nat.le_refl _
  dropped := Nat.le_refl _
  nextToken := Nat.le_refl _
  closed _ := id

theorem trans {first second third : Loop} (h : first.Grows second)
    (h' : second.Grows third) :
    first.Grows third where
  accepted := Nat.le_trans h.accepted h'.accepted
  served := Nat.le_trans h.served h'.served
  dropped := Nat.le_trans h.dropped h'.dropped
  nextToken := Nat.le_trans h.nextToken h'.nextToken
  closed place := h'.closed place ∘ h.closed place

theorem foldl {ι : Type} {f : Loop → ι → Loop}
    (hstep : ∀ loop item, Grows loop (f loop item))
    (loop : Loop) (items : List ι) : loop.Grows (items.foldl f loop) := by
  induction items generalizing loop with
  | nil => exact .refl loop
  | cons item items ih => exact (hstep loop item).trans (ih _)

private theorem of_modify (loop : Loop) (place : Nat) {f : Peer → Peer}
    (hclosed : ∀ peer, peer.connection.isClosed = true → (f peer).connection.isClosed = true) :
    loop.Grows { loop with peers := loop.peers.modify place f } where
  accepted := Nat.le_refl _
  served := Nat.le_refl _
  dropped := Nat.le_refl _
  nextToken := Nat.le_refl _
  closed other := by
    simp only [hasClosed, List.getElem?_modify]
    cases loop.peers[other]? with
    | none => exact id
    | some peer =>
        intro hpeer
        by_cases hplace : place = other
        · simpa [hplace] using hclosed peer hpeer
        · simpa [hplace] using hpeer

end Grows

variable (service : Service) (loop : Loop)

private theorem isClosed_advance {connection : Connection}
    (h : connection.isClosed = true) :
    (connection.advance service).isClosed = true := by
  rw [Connection.isClosed] at h
  rw [Connection.advance]
  split at h
  · rename_i ending hphase
    rw [hphase]
    exact Connection.isClosed_of_phase hphase
  · contradiction

private theorem grows_advanceAt (place : Nat) :
    loop.Grows (loop.advanceAt service place) := by
  cases hpeer : loop.peers[place]? with
  | none =>
      rw [advanceAt, hpeer]
      exact .refl loop
  | some peer =>
      rw [advanceAt_eq hpeer]
      refine ⟨?_, ?_, ?_, Nat.le_refl _, ?_⟩
      · exact Nat.le_of_eq (Counters.accepted_close _ _).symm
      · rw [Counters.served_close _ none]
        exact Nat.le_add_right _ _
      · rw [Counters.dropped_close _ none]
        exact Nat.le_add_right _ _
      · intro other
        simp only [hasClosed, List.getElem?_set]
        by_cases hplace : place = other
        · subst hplace
          rw [hpeer, if_pos rfl]
          split_ifs
          · exact isClosed_advance service
          · intro hclosed
            have := (List.getElem?_eq_some_iff.mp hpeer).1
            contradiction
        · rw [if_neg hplace]
          exact id

private theorem grows_giveToken (place : Nat) : loop.Grows (loop.giveToken place) := by
  have hpeers := Grows.of_modify loop place (f := fun peer =>
    { peer with token := some loop.nextToken }) fun _ => id
  exact ⟨Nat.le_succ _, Nat.le_refl _, Nat.le_refl _, Nat.le_succ _, hpeers.closed⟩

private theorem grows_welcome (place : Nat) :
    loop.Grows (loop.welcome service place) := by
  rw [welcome]
  split_ifs
  · exact (grows_giveToken loop place).trans (grows_advanceAt service _ place)
  · exact .refl loop

private theorem grows_handle (event : Event) :
    loop.Grows (loop.handle service event) := by
  cases event with
  | waiting => exact .foldl (grows_welcome service) loop _
  | ready token =>
      rw [handle, serve]
      split
      · exact .refl loop
      · exact grows_advanceAt service loop _

private theorem grows_perform (deed : Deed) : loop.Grows (loop.perform deed) := by
  have hfinish (client : Nat) : loop.Grows (loop.move (.finish client)) :=
    .of_modify loop client fun peer hclosed => by
      rwa [Peer.finish, if_pos hclosed]
  cases deed with
  | move move =>
      cases move with
      | connect data =>
          refine ⟨Nat.le_refl _, Nat.le_refl _, Nat.le_refl _, Nat.le_refl _, ?_⟩
          intro place hclosed
          rw [hasClosed] at hclosed
          split at hclosed
          · rename_i peer hpeer
            have hlt := (List.getElem?_eq_some_iff.mp hpeer).1
            have hsame : (loop.peers ++ [⟨none, .opened data⟩])[place]? =
                some peer := by
              rwa [List.getElem?_append_left hlt]
            show hasClosed (loop.move (.connect data)) place = true
            rw [hasClosed, move, hsame]
            exact hclosed
          · contradiction
      | send client data =>
          exact .of_modify loop client fun peer hclosed => by
            rwa [Peer.arrive, if_pos hclosed]
      | finish client => exact hfinish client
  | leave client => exact hfinish client
  | wait => exact .refl loop

private theorem grows_fail (place : Nat) : loop.Grows (loop.fail place) := by
  have hfail (loop : Loop) :
      loop.Grows { loop with peers := loop.peers.modify place Peer.fail } :=
    .of_modify loop place fun peer hclosed => by
      rwa [Peer.fail, if_neg]
      rw [Peer.isHeld, hclosed]
      simp
  rw [fail]
  split_ifs
  · exact (grows_giveToken loop place).trans (hfail _)
  · exact hfail loop

private theorem grows_incur (incident : Incident) :
    loop.Grows (loop.incur service incident) := by
  cases incident with
  | step step =>
      cases step with
      | deed deed => exact grows_perform loop deed
      | event event => exact grows_handle service loop event
      | turn => exact .foldl (grows_handle service) loop _
  | accept place => exact grows_welcome service loop place
  | failure place => exact grows_fail loop place
  | refusal =>
      exact ⟨Nat.le_refl _, Nat.le_refl _, Nat.le_refl _, Nat.le_succ _, fun _ => id⟩

theorem grows_foldl (incidents : List Incident) :
    loop.Grows (incidents.foldl (incur service) loop) :=
  .foldl (grows_incur service) loop incidents

/-! ## Staying with the clients -/

variable {service loop} {clients seen : List Client} {past : List Incident}
  {place : Nat} {peer : Peer}

def departed : Client := ⟨[], true⟩

/-- A connection that has failed; to the loop its client has departed. -/
structure HasFailed (loop : Loop) (past : List Incident) (seen : List Client)
    (place : Nat) :
    Prop where
  closed : loop.hasClosed place = true
  failure : .failure place ∈ past
  departed : seen[place]? = some departed

/-- A loop that has stayed with its clients, but for those whose connection has failed. -/
structure StaysWith (service : Service) (loop : Loop) (clients : List Client)
    (past : List Incident) (seen : List Client) : Prop where
  follows : loop.Follows service seen
  length : seen.length = clients.length
  same : ∀ place, seen[place]? = clients[place]? ∨ loop.HasFailed past seen place

private theorem perform_getElem?_congr (hlength : seen.length = clients.length)
    (hsame : seen[place]? = clients[place]?) (deed : Deed) :
    (Client.perform seen deed)[place]? = (Client.perform clients deed)[place]? := by
  cases deed with
  | move move =>
      cases move with
      | connect data => simp only [Client.perform, List.getElem?_append, hlength, hsame]
      | send client data => simp only [Client.perform, List.getElem?_modify, hsame]
      | finish client => simp only [Client.perform, List.getElem?_modify, hsame]
  | leave client => simp only [Client.perform, List.getElem?_modify, hsame]
  | wait => exact hsame

private theorem length_perform (hlength : seen.length = clients.length) (deed : Deed) :
    (Client.perform seen deed).length = (Client.perform clients deed).length := by
  cases deed with
  | move move => cases move <;> simp [Client.perform, hlength]
  | leave client => simp [Client.perform, hlength]
  | wait => exact hlength

private theorem perform_getElem?_departed (h : seen[place]? = some departed)
    (deed : Deed) :
    (Client.perform seen deed)[place]? = some departed := by
  have hmodify {f : Client → Client} (hf : f departed = departed) (client : Nat) :
      (seen.modify client f)[place]? = some departed := by
    rw [List.getElem?_modify, h]
    by_cases hclient : client = place <;> simp [hclient, hf]
  cases deed with
  | move move =>
      cases move with
      | connect data =>
          rw [Client.perform, List.getElem?_append_left (List.getElem?_eq_some_iff.mp h).1, h]
      | send client data => exact hmodify rfl client
      | finish client => exact hmodify rfl client
  | leave client => exact hmodify rfl client
  | wait => exact h

theorem HasFailed.of_grows {after : Loop} (h : loop.HasFailed past seen place)
    (incident : Incident) (hgrows : loop.Grows after) :
    after.HasFailed (past ++ [incident]) seen place where
  closed := hgrows.closed place h.closed
  failure := List.mem_append_left _ h.failure
  departed := h.departed

theorem StaysWith.of_grows {after : Loop} (h : loop.StaysWith service clients past seen)
    (incident : Incident) (hgrows : loop.Grows after)
    (hfollows : after.Follows service seen) :
    after.StaysWith service clients (past ++ [incident]) seen where
  follows := hfollows
  length := h.length
  same place := (h.same place).imp_right fun hfailed => hfailed.of_grows incident hgrows

private theorem outbound_of_open {connection : Connection} {client : Client}
    (h : connection.Follows service client) (hopen : connection.isClosed = false) :
    connection.socket.outbound = [] := by
  cases h with
  | opened client => rfl
  | awaiting hnone hshort => rfl
  | closed houtcome hphase hreceived =>
      rw [Connection.isClosed_of_phase hphase] at hopen
      contradiction

private theorem outcome?_departed (service : Service) :
    departed.outcome? service = some ⟨[], .silent⟩ :=
  Client.outcome?_of_short rfl (by decide)

theorem ending_of_departed {ending : Ending}
    (h : departed.endsIn service ending = true) :
    ending = .silent := by
  rw [Client.endsIn, outcome?_departed] at h
  simpa [eq_comm] using h

private theorem follows_departed {connection : Connection} {client : Client}
    (h : connection.Follows service client) (hopen : connection.isClosed = false)
    (token : Nat) :
    Peer.Follows service ⟨some token, connection.close .silent⟩ departed where
  connection := by
    have houtbound := outbound_of_open h hopen
    exact .closed (outcome?_departed service) rfl houtbound
  token := by simp [Connection.close]

private theorem fail_of_open (htokens : AreGiven loop.tokens loop.nextToken)
    (hpeer : loop.peers[place]? = some peer)
    (hopen : peer.connection.isClosed = false) :
    ∃ token next, AreGiven (loop.tokens.set place (some token)) next ∧
      loop.fail place =
        ⟨loop.peers.set place ⟨some token, peer.connection.close .silent⟩, next,
          if peer.isWaiting then loop.counters.accept else loop.counters⟩ := by
  obtain ⟨token, connection⟩ := peer
  cases token with
  | none =>
      refine ⟨loop.nextToken, loop.nextToken + 1, htokens.set_next place, ?_⟩
      rw [fail, hpeer, if_pos (by rfl)]
      simp only [giveToken, List.modify_modify_eq]
      simp [List.modify_eq_set_getElem?, hpeer, Peer.fail, Peer.isHeld,
        hopen, Peer.isWaiting]
  | some token =>
      have hplace : loop.tokens[place]? = some (some token) := by
        rw [tokens, List.getElem?_map, hpeer]
        rfl
      refine ⟨token, loop.nextToken, by rwa [set_of_getElem? hplace], ?_⟩
      rw [fail, hpeer, if_neg (by simp [Peer.isWaiting])]
      simp [List.modify_eq_set_getElem?, hpeer, Peer.fail, Peer.isHeld,
        hopen, Peer.isWaiting]

private theorem fail_of_closed (hpeer : loop.peers[place]? = some peer)
    (htoken : peer.token.isSome = true)
    (hclosed : peer.connection.isClosed = true) : loop.fail place = loop := by
  have hwaiting : peer.isWaiting = false := by
    rw [Peer.isWaiting, Option.isNone_eq_false_iff]
    exact htoken
  have hheld : peer.isHeld = false := by
    rw [Peer.isHeld, hclosed]
    simp
  rw [fail, hpeer, if_neg (by simpa using hwaiting)]
  simp [List.modify_eq_set_getElem?, hpeer, Peer.fail, hheld, set_of_getElem? hpeer]

private theorem fail_of_none (hpeer : loop.peers[place]? = none) :
    loop.fail place = loop := by
  rw [fail, hpeer, if_neg (by simp)]
  simp [List.modify_eq_set_getElem?, hpeer]

theorem token_of_closed {client : Client} (h : peer.Follows service client)
    (hclosed : peer.connection.isClosed = true) : peer.token.isSome = true := by
  by_contra hnone
  rw [Peer.isClosed_of_waiting h (by simpa using hnone)] at hclosed
  contradiction

private theorem follows_close (h : loop.Follows service seen)
    (hpeer : loop.peers[place]? = some peer)
    (hopen : peer.connection.isClosed = false) {token next : Nat}
    (htokens : AreGiven (loop.tokens.set place (some token)) next) :
    Follows service
      ⟨loop.peers.set place ⟨some token, peer.connection.close .silent⟩, next,
        if peer.isWaiting then loop.counters.accept else loop.counters⟩
      (seen.set place departed) where
  peers := by
    obtain ⟨client, -, hfollows⟩ := forall₂_getElem? h.peers hpeer
    rw [List.set_eq_modify, List.set_eq_modify]
    exact forall₂_modify h.peers
      (fun _ _ _ => follows_departed hfollows.connection hopen token) place
  counters := by
    rw [h.counters, tally_set hpeer hopen]
    rfl
  tokens := by rwa [tokens, List.map_set]

private theorem StaysWith.fail (h : loop.StaysWith service clients past seen)
    (place : Nat) :
    ∃ seen, (loop.fail place).StaysWith service clients (past ++ [.failure place]) seen := by
  have hgrows := grows_fail loop place
  cases hpeer : loop.peers[place]? with
  | none =>
      have hfollows := h.follows
      rw [← fail_of_none hpeer] at hfollows
      exact ⟨seen, h.of_grows _ hgrows hfollows⟩
  | some peer =>
      obtain ⟨client, -, hclient⟩ := forall₂_getElem? h.follows.peers hpeer
      cases hopen : peer.connection.isClosed with
      | true =>
          have hfollows := h.follows
          rw [← fail_of_closed hpeer (token_of_closed hclient hopen) hopen] at hfollows
          exact ⟨seen, h.of_grows _ hgrows hfollows⟩
      | false =>
          obtain ⟨token, next, htokens, hfail⟩ :=
            fail_of_open h.follows.tokens hpeer hopen
          have hlt := (List.getElem?_eq_some_iff.mp hpeer).1
          rw [hfail] at hgrows ⊢
          refine ⟨seen.set place departed, follows_close h.follows hpeer hopen htokens,
            by rw [List.length_set, h.length], ?_⟩
          intro other
          by_cases hother : place = other
          · subst hother
            refine .inr ⟨?_, List.mem_append_right _ (List.mem_singleton_self _), ?_⟩
            · rw [hasClosed, List.getElem?_set_self hlt]
              rfl
            · exact List.getElem?_set_self (h.follows.peers.length_eq ▸ hlt)
          · rw [List.getElem?_set_ne hother]
            refine (h.same other).imp_right fun hfailed => ?_
            refine ⟨hgrows.closed other hfailed.closed,
              List.mem_append_left _ hfailed.failure, ?_⟩
            rw [List.getElem?_set_ne hother, hfailed.departed]

theorem StaysWith.perform (h : loop.StaysWith service clients past seen) (deed : Deed) :
    (loop.perform deed).StaysWith service (Client.perform clients deed)
      (past ++ [.step (.deed deed)]) (Client.perform seen deed) where
  follows := follows_perform h.follows deed
  length := length_perform h.length deed
  same place := by
    rcases h.same place with hsame | hfailed
    · exact .inl (perform_getElem?_congr h.length hsame deed)
    · have hafter := hfailed.of_grows (.step (.deed deed)) (grows_perform loop deed)
      exact .inr ⟨hafter.closed, hafter.failure, perform_getElem?_departed hafter.departed deed⟩

private theorem StaysWith.incur (h : loop.StaysWith service clients past seen)
    (incident : Incident) :
    ∃ seen, (loop.incur service incident).StaysWith service (Client.incur clients incident)
      (past ++ [incident]) seen := by
  have hgrows := grows_incur service loop incident
  cases incident with
  | step step =>
      cases step with
      | deed deed => exact ⟨_, h.perform deed⟩
      | event event => exact ⟨seen, h.of_grows _ hgrows (leads_handle h.follows event).follows⟩
      | turn => exact ⟨seen, h.of_grows _ hgrows (leads_turn h.follows).follows⟩
  | accept place => exact ⟨seen, h.of_grows _ hgrows (leads_welcome h.follows place).follows⟩
  | failure place => exact h.fail place
  | refusal =>
      refine ⟨seen, h.of_grows _ hgrows ⟨h.follows.peers, h.follows.counters, ?_⟩⟩
      exact h.follows.tokens.skip

theorem StaysWith.foldl (h : loop.StaysWith service clients past seen)
    (incidents : List Incident) :
    ∃ seen, (incidents.foldl (Loop.incur service) loop).StaysWith service
      (incidents.foldl Client.incur clients) (past ++ incidents) seen := by
  induction incidents generalizing loop clients past seen with
  | nil => exact ⟨seen, by rwa [List.append_nil]⟩
  | cons incident incidents ih =>
      obtain ⟨seen, hnext⟩ := h.incur incident
      rw [List.append_cons]
      exact ih hnext

/-- A loop stays with its clients through whatever happens. -/
theorem exists_staysWith (service : Service) (incidents : List Incident) :
    ∃ seen, (history service incidents).StaysWith service (Client.history incidents) incidents
      seen := by
  have hstart : start.StaysWith service [] [] [] :=
    ⟨follows_start service, rfl, fun _ => .inl rfl⟩
  exact hstart.foldl incidents

end Loop

end RemoteCalc.EventLoop
