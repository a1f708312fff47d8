import RemoteCalc.EventLoop.Streams
import RemoteCalc.Proofs.EventLoop.Connection
import RemoteCalc.Proofs.Lists

/-!
# The table of clients

Each peer of the table follows its own client.  The counters of the loop can be read
off the table, and so can the tokens that were given.
-/

namespace RemoteCalc.EventLoop

open Wire

/-! ## Peers -/

namespace Peer

/-- A client of the table stays with what it did; it has a token once it is looked at. -/
structure Follows (service : Service) (peer : Peer) (client : Client) : Prop where
  connection : peer.connection.Follows service client
  token : peer.token = none ↔ peer.connection.phase = .accepted

def hasEnded (ending : Ending) (peer : Peer) : Bool :=
  peer.connection.phase = .closed ending

/-- There is nothing to do for this client until it makes a move. -/
def IsSettled (peer : Peer) : Prop := peer.isWaiting = false ∧ peer.isReady = false

theorem isClosed_of_waiting {service : Service} {peer : Peer} {client : Client}
    (h : peer.Follows service client) (hwaiting : peer.token = none) :
    peer.connection.isClosed = false := by
  rw [Connection.isClosed, h.token.mp hwaiting]

theorem Follows.arrive {service : Service} {peer : Peer} {client : Client}
    (h : peer.Follows service client) (data : Bytes) :
    (Loop.Peer.arrive peer data).Follows service (client.send data) := by
  obtain ⟨token, connection⟩ := peer
  obtain ⟨hconnection, htoken⟩ := h
  cases hconnection with
  | opened client =>
      obtain ⟨sent, finished⟩ := client
      cases finished with
      | true => exact ⟨.opened ⟨sent, true⟩, htoken⟩
      | false => exact ⟨.opened ⟨sent ++ data, false⟩, htoken⟩
  | @awaiting input inbound ended hnone hshort =>
      cases ended with
      | true => exact ⟨.awaiting hnone hshort, htoken⟩
      | false =>
          have hsent : (Client.mk (input ++ inbound) false).send data =
              ⟨input ++ (inbound ++ data), false⟩ := by
            simp [Client.send]
          rw [hsent]
          exact ⟨.awaiting hnone hshort, htoken⟩
  | closed houtcome hphase hreceived =>
      rw [Loop.Peer.arrive, if_pos (Connection.isClosed_of_phase hphase)]
      exact ⟨.closed (Client.outcome?_send houtcome data) hphase hreceived, htoken⟩

theorem Follows.finish {service : Service} {peer : Peer} {client : Client}
    (h : peer.Follows service client) :
    (Loop.Peer.finish peer).Follows service client.finish := by
  obtain ⟨token, connection⟩ := peer
  obtain ⟨hconnection, htoken⟩ := h
  cases hconnection with
  | opened client => exact ⟨.opened client.finish, htoken⟩
  | awaiting hnone hshort => exact ⟨.awaiting hnone hshort, htoken⟩
  | closed houtcome hphase hreceived =>
      rw [Loop.Peer.finish, if_pos (Connection.isClosed_of_phase hphase)]
      exact ⟨.closed (Client.outcome?_finish houtcome) hphase hreceived, htoken⟩

theorem follows_advance {service : Service} {peer : Peer} {client : Client}
    (h : peer.Follows service client) (hopen : peer.connection.isClosed = false)
    (token : Nat) :
    let after : Peer := ⟨some token, peer.connection.advance service⟩
    after.Follows service client ∧ after.IsSettled := by
  obtain ⟨hidle, hconnection⟩ := Connection.follows_advance h.connection hopen
  rcases hidle with hclosed | ⟨input, hawaiting⟩
  · refine ⟨⟨hconnection, ?_⟩, rfl, ?_⟩
    · refine iff_of_false (by simp) ?_
      intro (hphase : (peer.connection.advance service).phase = .accepted)
      rw [Connection.isClosed, hphase] at hclosed
      contradiction
    · simp [isReady, isHeld, hclosed]
  · rw [hawaiting] at hconnection ⊢
    exact ⟨⟨hconnection, by simp⟩, rfl, rfl⟩

end Peer

/-! ## The table -/

def tally (peers : List Peer) : Counters where
  accepted := peers.countP fun peer => peer.token.isSome
  served := peers.countP (Peer.hasEnded .served)
  dropped := peers.countP (Peer.hasEnded .dropped)

/-- Every token is given once, and none that the loop keeps for itself. -/
structure AreGiven (tokens : List (Option Nat)) (next : Nat) : Prop where
  first : firstToken ≤ next
  bounds : ∀ token, some token ∈ tokens → firstToken ≤ token ∧ token < next
  distinct : ∀ i j token : Nat,
    tokens[i]? = some (some token) → tokens[j]? = some (some token) → i = j

namespace AreGiven

variable {tokens : List (Option Nat)} {next : Nat}

theorem append_none (h : AreGiven tokens next) : AreGiven (tokens ++ [none]) next where
  first := h.first
  bounds token htoken := h.bounds token (by simpa using htoken)
  distinct i j token hi hj := by
    have hgiven {place : Nat} (hplace : (tokens ++ [none])[place]? = some (some token)) :
        tokens[place]? = some (some token) := by
      rw [List.getElem?_append] at hplace
      split_ifs at hplace with hlt
      · exact hplace
      · have := List.mem_of_getElem? hplace
        simp at this
    exact h.distinct i j token (hgiven hi) (hgiven hj)

theorem skip (h : AreGiven tokens next) : AreGiven tokens (next + 1) where
  first := Nat.le_succ_of_le h.first
  bounds token htoken := (h.bounds token htoken).imp_right Nat.lt_succ_of_lt
  distinct := h.distinct

theorem set_next (h : AreGiven tokens next) (place : Nat) :
    AreGiven (tokens.set place (some next)) (next + 1) where
  first := Nat.le_succ_of_le h.first
  bounds token htoken := by
    rcases List.mem_or_eq_of_mem_set htoken with hold | hnew
    · obtain ⟨hfirst, hnext⟩ := h.bounds token hold
      exact ⟨hfirst, Nat.lt_succ_of_lt hnext⟩
    · cases hnew
      exact ⟨h.first, Nat.lt_succ_self next⟩
  distinct i j token hi hj := by
    have hcases {other : Nat}
        (hother : (tokens.set place (some next))[other]? = some (some token)) :
        place = other ∧ token = next ∨ tokens[other]? = some (some token) ∧
          token < next := by
      rw [List.getElem?_set] at hother
      split_ifs at hother with hplace hlength
      · exact .inl ⟨hplace, by simpa [eq_comm] using hother⟩
      · exact .inr ⟨hother, (h.bounds token (List.mem_of_getElem? hother)).2⟩
    rcases hcases hi with ⟨rfl, hi⟩ | ⟨hi, hilt⟩ <;> rcases hcases hj with ⟨rfl, hj⟩ | ⟨hj, hjlt⟩
    · rfl
    · omega
    · omega
    · exact h.distinct i j token hi hj

end AreGiven

attribute [ext] Counters

namespace Counters

def close (counters : Counters) (connection : Connection) : Counters :=
  match connection.phase with
  | .closed ending => counters.add ending
  | _ => counters

variable (counters : Counters) (token : Option Nat) (connection : Connection)

theorem accepted_close : (counters.close connection).accepted = counters.accepted := by
  rw [close]
  split
  · rename_i ending _
    cases ending <;> rfl
  · rfl

theorem served_close : (counters.close connection).served =
    counters.served + (Peer.hasEnded .served ⟨token, connection⟩).toNat := by
  rw [close, Peer.hasEnded]
  split
  · rename_i ending hphase
    cases ending <;> simp [add, hphase]
  · rename_i hopen
    rw [decide_eq_false (hopen .served)]
    rfl

theorem dropped_close : (counters.close connection).dropped =
    counters.dropped + (Peer.hasEnded .dropped ⟨token, connection⟩).toNat := by
  rw [close, Peer.hasEnded]
  split
  · rename_i ending hphase
    cases ending <;> simp [add, hphase]
  · rename_i hopen
    rw [decide_eq_false (hopen .dropped)]
    rfl

end Counters

private theorem hasEnded_of_open {peer : Peer}
    (hopen : peer.connection.isClosed = false)
    (ending : Ending) : peer.hasEnded ending = false := by
  refine decide_eq_false ?_
  intro hphase
  rw [Connection.isClosed_of_phase hphase] at hopen
  contradiction

theorem tally_set {peers : List Peer} {place : Nat} {peer : Peer}
    (hpeer : peers[place]? = some peer) (hopen : peer.connection.isClosed = false)
    (token : Nat) (connection : Connection) :
    tally (peers.set place ⟨some token, connection⟩) =
      (if peer.isWaiting then (tally peers).accept else tally peers).close connection := by
  have haccepted := countP_set_add (fun peer : Peer => peer.token.isSome) hpeer
    ⟨some token, connection⟩
  have hserved := countP_set_add (Peer.hasEnded .served) hpeer ⟨some token, connection⟩
  have hdropped := countP_set_add (Peer.hasEnded .dropped) hpeer ⟨some token, connection⟩
  rw [hasEnded_of_open hopen] at hserved hdropped
  apply Counters.ext
  · rw [Counters.accepted_close, Peer.isWaiting]
    cases hwaiting : peer.token <;> simp [tally, Counters.accept, hwaiting] at haccepted ⊢ <;> omega
  · rw [Counters.served_close _ (some token), apply_ite Counters.served]
    simpa [tally, Counters.accept] using hserved
  · rw [Counters.dropped_close _ (some token), apply_ite Counters.dropped]
    simpa [tally, Counters.accept] using hdropped

end RemoteCalc.EventLoop
