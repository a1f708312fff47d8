import RemoteCalc.Proofs.EventLoop.Incidents

/-!
# The books of the event loop

Whatever clients do, whichever events come and whatever fails, the loop holds only
connections that wait for the rest of a frame, each under a token of its own, and
every connection that it has accepted is held or has come to one of three ends.  When
nothing is due, the input of a held connection is all that its client has sent.
-/

namespace RemoteCalc.EventLoop

open Wire

variable {service : Service} {loop : Loop} {clients : List Client}
  {place : Nat} {peer : Peer} {client : Client}

namespace Peer

/-! ## Held connections -/

theorem awaiting_of_held (h : peer.Follows service client)
    (hheld : peer.isHeld = true) :
    ∃ input inbound, peer.connection = .awaiting input inbound client.finished ∧
      client.sent = input ++ inbound ∧ input.length < maxFrameLength ∧
        frameLength? input = none := by
  obtain ⟨token, connection⟩ := peer
  obtain ⟨hconnection, htoken⟩ := h
  obtain ⟨⟨token, rfl⟩, hopen⟩ := (Loop.isHeld_iff _).mp hheld
  cases hconnection with
  | opened client => simp at htoken
  | @awaiting input inbound ended hnone hshort =>
      exact ⟨input, inbound, rfl, rfl, hshort, hnone⟩
  | closed houtcome hphase hreceived =>
      rw [Connection.isClosed_of_phase hphase] at hopen
      contradiction

private theorem eq_of_settled (h : peer.Follows service client)
    (hheld : peer.isHeld = true)
    (hsettled : peer.IsSettled) : client = ⟨peer.connection.input, false⟩ := by
  obtain ⟨input, inbound, hawaiting, hsent, -⟩ := awaiting_of_held h hheld
  obtain ⟨sent, finished⟩ := client
  obtain ⟨rfl, rfl⟩ : inbound = [] ∧ finished = false := by
    simpa [isReady, hheld, hawaiting, Connection.isReady] using hsettled.2
  rw [hawaiting, show sent = input ++ [] from hsent, List.append_nil]
  rfl

/-! ## Ends -/

theorem endsIn_of_hasEnded {ending : Ending} (h : peer.Follows service client)
    (hended : peer.hasEnded ending = true) : client.endsIn service ending = true := by
  obtain ⟨token, connection⟩ := peer
  have hphase : connection.phase = .closed ending := of_decide_eq_true hended
  obtain ⟨hconnection, -⟩ := h
  cases hconnection with
  | opened client => cases hphase
  | awaiting hnone hshort => cases hphase
  | closed houtcome hclosed hreceived =>
      rw [Client.endsIn, houtcome]
      simpa using hclosed.symm.trans hphase

def standings (peer : Peer) : List Bool :=
  [peer.isHeld, peer.hasEnded .served, peer.hasEnded .dropped, peer.hasEnded .silent]

private theorem count_standings (h : peer.Follows service client) :
    peer.standings.count true = peer.token.isSome.toNat := by
  obtain ⟨token, phase, input, output, socket⟩ := peer
  have htoken := h.token
  cases phase with
  | closed ending =>
      have hsome := Loop.token_of_closed h rfl
      cases ending <;> simp_all [standings, isHeld, hasEnded, Connection.isClosed]
  | _ => cases token <;> simp_all [standings, isHeld, hasEnded, Connection.isClosed]

private theorem countP_standings {peers : List Peer}
    (h : ∀ peer ∈ peers, peer.standings.count true = peer.token.isSome.toNat) :
    peers.countP (fun peer => peer.token.isSome) =
      peers.countP isHeld + peers.countP (hasEnded .served) + peers.countP (hasEnded .dropped) +
        peers.countP (hasEnded .silent) := by
  induction peers with
  | nil => rfl
  | cons peer peers ih =>
      have hpeer := h peer List.mem_cons_self
      have hrest := ih fun other hother => h other (List.mem_cons_of_mem _ hother)
      have htoken : (if peer.token.isSome = true then 1 else 0) = peer.token.isSome.toNat := by
        cases peer.token.isSome <;> rfl
      simp only [standings, List.count_cons, List.count_nil, beq_true] at hpeer
      simp only [List.countP_cons]
      omega

end Peer

namespace Loop

private theorem settled_of_pending (hpending : loop.pending = [])
    (hpeer : peer ∈ loop.peers) :
    peer.IsSettled := by
  constructor
  · rw [← Bool.not_eq_true]
    intro hwaiting
    have hdue := waiting_mem_pending hpeer hwaiting
    rw [hpending] at hdue
    contradiction
  · rw [← Bool.not_eq_true]
    intro hready
    have hheld : peer.isHeld = true := ((Bool.and_eq_true _ _).mp hready).1
    obtain ⟨⟨token, htoken⟩, -⟩ := (isHeld_iff peer).mp hheld
    have hdue := ready_mem_pending hpeer hready htoken
    rw [hpending] at hdue
    contradiction

/-- A connection as the loop holds it, under a token that was given to no other. -/
structure Holds (loop : Loop) (place : Nat) (peer : Peer) : Prop where
  token : ∃ token, peer.token = some token ∧ firstToken ≤ token ∧
    token < loop.nextToken ∧
    ∀ other otherPeer, loop.peers[other]? = some otherPeer →
      otherPeer.token = some token →
      other = place
  phase : peer.connection.phase = .reading
  input_short : peer.connection.input.length < maxFrameLength
  input_unfinished : peer.connection.input.count terminator < fieldCount
  output : peer.connection.output = []

private theorem holds_of_held (h : loop.Follows service clients)
    (hpeer : loop.peers[place]? = some peer)
    (hheld : peer.isHeld = true) : loop.Holds place peer := by
  obtain ⟨client, -, hfollows⟩ := forall₂_getElem? h.peers hpeer
  obtain ⟨input, inbound, hawaiting, -, hshort, hnone⟩ :=
    Peer.awaiting_of_held hfollows hheld
  obtain ⟨⟨token, htoken⟩, -⟩ := (isHeld_iff peer).mp hheld
  have hgiven {other : Nat} {otherPeer : Peer} (hother : loop.peers[other]? = some otherPeer)
      (hsame : otherPeer.token = some token) : loop.tokens[other]? =
        some (some token) := by
    rw [tokens, List.getElem?_map, hother, Option.map_some, hsame]
  have hbounds := h.tokens.bounds token (List.mem_of_getElem? (hgiven hpeer htoken))
  refine ⟨⟨token, htoken, hbounds.1, hbounds.2, ?_⟩, ?_, ?_, ?_, ?_⟩
  · intro other otherPeer hother hsame
    exact h.tokens.distinct _ _ token (hgiven hother hsame) (hgiven hpeer htoken)
  · rw [hawaiting]
    rfl
  · rwa [hawaiting]
  · rw [hawaiting]
    exact frameLength?_eq_none_iff.mp hnone
  · rw [hawaiting]
    rfl

namespace StaysWith

variable {past : List Incident} {seen : List Client}

private theorem standings (h : loop.StaysWith service clients past seen) :
    ∀ peer ∈ loop.peers, peer.standings.count true = peer.token.isSome.toNat := by
  intro peer hmem
  obtain ⟨place, hpeer⟩ := List.mem_iff_getElem?.mp hmem
  obtain ⟨client, -, hclient⟩ := forall₂_getElem? h.follows.peers hpeer
  exact Peer.count_standings hclient

private theorem endsIn_or_failed {ending : Ending}
    (h : loop.StaysWith service clients past seen)
    (hpeer : loop.peers[place]? = some peer) (hclient : clients[place]? = some client)
    (hended : peer.hasEnded ending = true) :
    client.endsIn service ending = true ∨ ending = .silent ∧ .failure place ∈ past := by
  obtain ⟨other, hother, hfollows⟩ := forall₂_getElem? h.follows.peers hpeer
  have hends := Peer.endsIn_of_hasEnded hfollows hended
  rcases h.same place with hsame | hfailed
  · obtain rfl : other = client :=
      Option.some.inj (hother.symm.trans (hsame.trans hclient))
    exact .inl hends
  · obtain rfl : other = departed :=
      Option.some.inj (hother.symm.trans hfailed.departed)
    exact .inr ⟨ending_of_departed hends, hfailed.failure⟩

private theorem client_of_held (h : loop.StaysWith service clients past seen)
    (hpending : loop.pending = []) (hpeer : loop.peers[place]? = some peer)
    (hheld : peer.isHeld = true) :
    clients[place]? = some ⟨peer.connection.input, false⟩ := by
  have hsettled := settled_of_pending hpending (List.mem_of_getElem? hpeer)
  obtain ⟨client, hclient, hfollows⟩ := forall₂_getElem? h.follows.peers hpeer
  rcases h.same place with hsame | hfailed
  · rw [← hsame, hclient]
    exact congrArg some (Peer.eq_of_settled hfollows hheld hsettled)
  · have hclosed : peer.connection.isClosed = true := by
      simpa [hasClosed, hpeer] using hfailed.closed
    rw [((isHeld_iff peer).mp hheld).2] at hclosed
    contradiction

end StaysWith

/--
In every state of the loop its books are in order: what it holds, where each accepted
client stands, how the counters add up, and that no number goes back.  An event leaves
nothing for later, so that with nothing due the loop has read all that was sent.
-/
theorem history_in_order (service : Service) (incidents : List Incident) :
    let loop := history service incidents
    let clients := Client.history incidents
    (∀ place peer, loop.peers[place]? = some peer → peer.isHeld = true →
      loop.Holds place peer) ∧
    (∀ peer ∈ loop.peers, peer.standings.count true = peer.token.isSome.toNat) ∧
    (∀ (place : Nat) (peer : Peer) (client : Client) (ending : Ending),
      loop.peers[place]? = some peer → clients[place]? = some client →
        peer.hasEnded ending = true →
          client.endsIn service ending = true ∨
            ending = .silent ∧ Incident.failure place ∈ incidents) ∧
    loop.counters = tally loop.peers ∧
    loop.counters.accepted =
      loop.openCount + loop.counters.served + loop.counters.dropped +
      loop.peers.countP (Peer.hasEnded .silent) ∧
    (∀ more, loop.Grows (history service (incidents ++ more))) ∧
    (∀ event place peer, loop.peers[place]? = some peer → Concerns event peer →
      (loop.handle service event).SettledAt place) ∧
    (loop.turn service).pending = [] ∧
    (loop.pending = [] → ∀ (place : Nat) (peer : Peer), loop.peers[place]? = some peer →
      peer.isHeld = true → clients[place]? = some ⟨peer.connection.input, false⟩) := by
  intro loop clients
  obtain ⟨seen, hstays⟩ := exists_staysWith service incidents
  have hfollows : loop.Follows service seen := hstays.follows
  refine ⟨fun _ _ => holds_of_held hfollows, hstays.standings,
    fun _ _ _ _ hpeer hclient hended => hstays.endsIn_or_failed hpeer hclient hended,
    hfollows.counters, ?_, ?_, ?_, pending_eq_nil (settled_of_turn hfollows),
    fun hpending _ _ hpeer hheld => hstays.client_of_held hpending hpeer hheld⟩
  · rw [hfollows.counters]
    exact Peer.countP_standings hstays.standings
  · intro more
    rw [history, List.foldl_append]
    exact grows_foldl service _ more
  · intro event place peer hpeer hconcerned
    exact (leads_handle hfollows event).settled place peer hpeer hconcerned

end Loop

end RemoteCalc.EventLoop
