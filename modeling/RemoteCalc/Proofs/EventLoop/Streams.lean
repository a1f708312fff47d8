import RemoteCalc.Proofs.EventLoop.Table

/-!
# Work of the event loop

Whatever event comes, the loop works on some peers and leaves the others alone.  A
peer that was worked on is settled until its client makes a move, so that nothing is
due after a turn.
-/

namespace RemoteCalc.EventLoop

open Wire

namespace Loop

def tokens (loop : Loop) : List (Option Nat) := loop.peers.map Peer.token

structure Follows (service : Service) (loop : Loop) (clients : List Client) : Prop where
  peers : List.Forall₂ (Peer.Follows service) loop.peers clients
  counters : loop.counters = tally loop.peers
  tokens : AreGiven loop.tokens loop.nextToken

variable {service : Service} {loop : Loop} {clients : List Client}
  {place : Nat} {peer : Peer}

theorem advanceAt_eq (hpeer : loop.peers[place]? = some peer) :
    loop.advanceAt service place =
      ⟨loop.peers.set place ⟨peer.token, peer.connection.advance service⟩, loop.nextToken,
        loop.counters.close (peer.connection.advance service)⟩ := by
  rw [advanceAt, hpeer]
  rfl

private theorem welcome_eq (hpeer : loop.peers[place]? = some peer)
    (hwaiting : peer.isWaiting = true) :
    loop.welcome service place =
      ⟨loop.peers.set place ⟨some loop.nextToken, peer.connection.advance service⟩,
        loop.nextToken + 1,
        loop.counters.accept.close (peer.connection.advance service)⟩ := by
  have hgiven : (loop.giveToken place).peers[place]? =
      some { peer with token := some loop.nextToken } := by
    simp [giveToken, hpeer]
  have hset (after : Peer) :
      (loop.giveToken place).peers.set place after = loop.peers.set place after := by
    apply List.ext_getElem?
    intro i
    simp only [giveToken, List.getElem?_set, List.getElem?_modify, List.length_modify]
    split_ifs <;> simp_all
  rw [welcome, hpeer, if_pos (by simpa using hwaiting), advanceAt_eq hgiven, hset]
  rfl

def SettledAt (loop : Loop) (place : Nat) : Prop :=
  ∃ peer, loop.peers[place]? = some peer ∧ peer.IsSettled

/--
A loop comes to another one by work on some of its peers.  Whoever is worked on is
settled by it, and nobody else changes.
-/
structure Leads (service : Service) (clients : List Client)
    (concerned : Nat → Peer → Prop) (before after : Loop) : Prop where
  follows : after.Follows service clients
  others : ∀ place, after.peers[place]? = before.peers[place]? ∨ after.SettledAt place
  settled : ∀ place peer, before.peers[place]? = some peer → concerned place peer →
    after.SettledAt place

namespace Leads

variable {concerned concerned' : Nat → Peer → Prop} {before after : Loop}

private theorem settledAt (h : Leads service clients concerned before after)
    (hsettled : before.SettledAt place) : after.SettledAt place := by
  obtain ⟨peer, hpeer, hpeerSettled⟩ := hsettled
  rcases h.others place with hsame | hafter
  · exact ⟨peer, hsame.trans hpeer, hpeerSettled⟩
  · exact hafter

theorem refl (h : loop.Follows service clients) :
    Leads service clients (fun _ _ => False) loop loop :=
  ⟨h, fun _ => .inl rfl, fun _ _ _ hfalse => hfalse.elim⟩

theorem mono (h : Leads service clients concerned before after)
    (hle : ∀ place peer, before.peers[place]? = some peer → concerned' place peer →
      concerned place peer) :
    Leads service clients concerned' before after where
  follows := h.follows
  others := h.others
  settled place peer hpeer hconcerned :=
    h.settled place peer hpeer (hle place peer hpeer hconcerned)

theorem trans {next : Loop} (h : Leads service clients concerned before after)
    (h' : Leads service clients concerned' after next) :
    Leads service clients (fun place peer => concerned place peer ∨ concerned' place peer)
      before next where
  follows := h'.follows
  others place := by
    rcases h.others place with hsame | hsettled
    · rw [← hsame]
      exact h'.others place
    · exact .inr (h'.settledAt hsettled)
  settled place peer hpeer hconcerned := by
    rcases hconcerned with hfirst | hsecond
    · exact h'.settledAt (h.settled place peer hpeer hfirst)
    · rcases h.others place with hsame | hsettled
      · exact h'.settled place peer (hsame.trans hpeer) hsecond
      · exact h'.settledAt hsettled

end Leads

private theorem leads_foldl {ι : Type} {f : Loop → ι → Loop}
    {concerned : ι → Nat → Peer → Prop}
    (hstep : ∀ loop : Loop, loop.Follows service clients → ∀ item,
      Leads service clients (concerned item) loop (f loop item))
    (h : loop.Follows service clients) (items : List ι) :
    Leads service clients (fun place peer => ∃ item ∈ items, concerned item place peer)
      loop (items.foldl f loop) := by
  induction items generalizing loop with
  | nil => exact (Leads.refl h).mono (by simp)
  | cons item items ih =>
      have hfirst := hstep loop h item
      exact (hfirst.trans (ih hfirst.follows)).mono (by simp)

private theorem leads_set (h : loop.Follows service clients)
    (hpeer : loop.peers[place]? = some peer)
    (hopen : peer.connection.isClosed = false) {token next : Nat}
    (htokens : AreGiven (loop.tokens.set place (some token)) next) :
    Leads service clients (fun other _ => other = place) loop
      ⟨loop.peers.set place ⟨some token, peer.connection.advance service⟩, next,
        (if peer.isWaiting then loop.counters.accept else loop.counters).close
          (peer.connection.advance service)⟩ := by
  obtain ⟨client, hclient, hfollows⟩ := forall₂_getElem? h.peers hpeer
  obtain ⟨hafter, hsettled⟩ := Peer.follows_advance hfollows hopen token
  have hlt : place < loop.peers.length := (List.getElem?_eq_some_iff.mp hpeer).1
  have hset : SettledAt ⟨loop.peers.set place ⟨some token, peer.connection.advance service⟩,
      next, (if peer.isWaiting then loop.counters.accept else loop.counters).close
        (peer.connection.advance service)⟩ place :=
    ⟨_, List.getElem?_set_self hlt, hsettled⟩
  refine ⟨⟨?_, ?_, ?_⟩, ?_, ?_⟩
  · apply forall₂_set h.peers
    intro other hother
    cases hclient.symm.trans hother
    exact hafter
  · rw [h.counters, tally_set hpeer hopen]
  · rwa [tokens, List.map_set]
  · intro other
    by_cases hother : other = place
    · subst hother
      exact .inr hset
    · exact .inl (List.getElem?_set_ne (Ne.symm hother))
  · rintro other peer - rfl
    exact hset

theorem leads_welcome (h : loop.Follows service clients) (place : Nat) :
    Leads service clients (fun other peer => other = place ∧ peer.isWaiting = true) loop
      (loop.welcome service place) := by
  by_cases hwaiting : (loop.peers[place]?).any Peer.isWaiting = true
  · obtain ⟨peer, hpeer, hnone⟩ := (Option.any_eq_true _ _).mp hwaiting
    obtain ⟨client, -, hfollows⟩ := forall₂_getElem? h.peers hpeer
    have hopen := Peer.isClosed_of_waiting hfollows (Option.isNone_iff_eq_none.mp hnone)
    have hset := leads_set h hpeer hopen (h.tokens.set_next place)
    rw [if_pos hnone] at hset
    rw [welcome_eq hpeer hnone]
    exact hset.mono fun other peer _ hother => hother.1
  · rw [welcome, if_neg hwaiting]
    refine (Leads.refl h).mono ?_
    rintro other peer hpeer ⟨rfl, hnone⟩
    rw [hpeer] at hwaiting
    exact hwaiting hnone

private theorem leads_acceptAll (h : loop.Follows service clients) :
    Leads service clients (fun _ peer => peer.isWaiting = true) loop
      (loop.acceptAll service) := by
  refine (leads_foldl (fun loop h place => leads_welcome h place) h _).mono ?_
  intro place peer hpeer hwaiting
  have hlt : place < loop.peers.length := (List.getElem?_eq_some_iff.mp hpeer).1
  exact ⟨place, List.mem_range.mpr hlt, rfl, hwaiting⟩

theorem isHeld_iff (peer : Peer) :
    peer.isHeld = true ↔
      (∃ token, peer.token = some token) ∧ peer.connection.isClosed = false := by
  rw [Peer.isHeld, Bool.and_eq_true, Bool.not_eq_true', Option.isSome_iff_exists]

theorem placeOf?_eq_some_iff (h : loop.Follows service clients) {token : Nat} :
    loop.placeOf? token = some place ↔
      ∃ peer, loop.peers[place]? = some peer ∧ peer.token = some token ∧
        peer.isHeld = true := by
  have htoken {other : Nat} {peer : Peer} (hpeer : loop.peers[other]? = some peer) :
      loop.tokens[other]? = some peer.token := by
    rw [tokens, List.getElem?_map, hpeer, Option.map_some]
  rw [placeOf?, List.findIdx?_eq_some_iff_getElem]
  constructor
  · rintro ⟨hlt, hfound, -⟩
    rw [Bool.and_eq_true, beq_iff_eq] at hfound
    exact ⟨loop.peers[place], List.getElem?_eq_getElem hlt, hfound⟩
  · rintro ⟨peer, hpeer, hsame, hheld⟩
    obtain ⟨hlt, rfl⟩ := List.getElem?_eq_some_iff.mp hpeer
    refine ⟨hlt, ?_, ?_⟩
    · rw [Bool.and_eq_true, beq_iff_eq]
      exact ⟨hsame, hheld⟩
    · intro other hother hfound
      -- An earlier match would hold the same token, which is given only once.
      rw [Bool.and_eq_true, beq_iff_eq] at hfound
      have hearlier := htoken (List.getElem?_eq_getElem (Nat.lt_trans hother hlt))
      have hthis := htoken hpeer
      rw [hfound.1] at hearlier
      rw [hsame] at hthis
      exact Nat.ne_of_lt hother (h.tokens.distinct _ _ _ hearlier hthis)

private theorem leads_serve (h : loop.Follows service clients) (token : Nat) :
    Leads service clients (fun _ peer => peer.token = some token ∧ peer.isHeld = true) loop
      (loop.serve service token) := by
  rw [serve]
  cases hplace : loop.placeOf? token with
  | none =>
      refine (Leads.refl h).mono ?_
      rintro place peer hpeer ⟨htoken, hheld⟩
      have hfound := (placeOf?_eq_some_iff h).mpr ⟨peer, hpeer, htoken, hheld⟩
      rw [hplace] at hfound
      contradiction
  | some place =>
      obtain ⟨peer, hpeer, htoken, hheld⟩ := (placeOf?_eq_some_iff h).mp hplace
      have hopen := ((isHeld_iff peer).mp hheld).2
      have htokens : AreGiven (loop.tokens.set place (some token)) loop.nextToken := by
        rw [← htoken, tokens, ← List.map_set, set_of_getElem? hpeer]
        exact h.tokens
      have hset := leads_set h hpeer hopen htokens
      have hwaiting : peer.isWaiting = false := by
        rw [Peer.isWaiting, htoken]
        rfl
      rw [hwaiting, if_neg Bool.false_ne_true, ← htoken] at hset
      show Leads _ _ _ loop (loop.advanceAt service place)
      rw [advanceAt_eq hpeer]
      refine hset.mono ?_
      rintro other otherPeer hother ⟨hsame, hotherHeld⟩
      have hfound := (placeOf?_eq_some_iff h).mpr ⟨otherPeer, hother, hsame, hotherHeld⟩
      exact Option.some.inj (hfound.symm.trans hplace)

def Concerns : Event → Peer → Prop
  | .waiting, peer => peer.isWaiting = true
  | .ready token, peer => peer.token = some token ∧ peer.isHeld = true

theorem leads_handle (h : loop.Follows service clients) (event : Event) :
    Leads service clients (fun _ => Concerns event) loop (loop.handle service event) := by
  cases event with
  | waiting => exact leads_acceptAll h
  | ready token => exact leads_serve h token

theorem waiting_mem_pending (hpeer : peer ∈ loop.peers)
    (hwaiting : peer.isWaiting = true) :
    Event.waiting ∈ loop.pending := by
  have hany : loop.peers.any Peer.isWaiting = true :=
    List.any_eq_true.mpr ⟨peer, hpeer, hwaiting⟩
  rw [pending, if_pos hany]
  exact List.mem_cons_self

theorem ready_mem_pending (hpeer : peer ∈ loop.peers) (hready : peer.isReady = true)
    {token : Nat} (htoken : peer.token = some token) :
    Event.ready token ∈ loop.pending := by
  have hmem : Event.ready token ∈ (loop.peers.filter Peer.isReady).filterMap fun peer =>
      peer.token.map Event.ready := by
    apply List.mem_filterMap.mpr
    exact ⟨peer, List.mem_filter.mpr ⟨hpeer, hready⟩, by rw [htoken, Option.map_some]⟩
  rw [pending]
  split_ifs
  · exact List.mem_cons_of_mem _ hmem
  · exact hmem

/-- A turn settles every peer. -/
theorem leads_turn (h : loop.Follows service clients) :
    Leads service clients (fun _ _ => True) loop (loop.turn service) := by
  have hfold := leads_foldl (fun _ h event => leads_handle h event) h loop.pending
  refine ⟨hfold.follows, hfold.others, ?_⟩
  rintro place peer hpeer -
  have hmem := List.mem_of_getElem? hpeer
  by_cases hwaiting : peer.isWaiting = true
  · exact hfold.settled place peer hpeer
      ⟨_, waiting_mem_pending hmem hwaiting, hwaiting⟩
  · by_cases hready : peer.isReady = true
    · have hheld : peer.isHeld = true := ((Bool.and_eq_true _ _).mp hready).1
      obtain ⟨⟨token, htoken⟩, -⟩ := (isHeld_iff peer).mp hheld
      exact hfold.settled place peer hpeer
        ⟨_, ready_mem_pending hmem hready htoken, htoken, hheld⟩
    · apply hfold.settledAt
      exact ⟨peer, hpeer, Bool.not_eq_true _ ▸ hwaiting, Bool.not_eq_true _ ▸ hready⟩

theorem settled_of_turn (h : loop.Follows service clients) :
    ∀ peer ∈ (loop.turn service).peers, peer.IsSettled := by
  intro peer hmem
  obtain ⟨place, hpeer⟩ := List.mem_iff_getElem?.mp hmem
  have hturn := leads_turn h
  have hsettled : (loop.turn service).SettledAt place := by
    rcases hturn.others place with hsame | hsettled
    · exact hturn.settled place peer (hsame.symm.trans hpeer) trivial
    · exact hsettled
  obtain ⟨other, hother, hotherSettled⟩ := hsettled
  cases hpeer.symm.trans hother
  exact hotherSettled

theorem pending_eq_nil (h : ∀ peer ∈ loop.peers, peer.IsSettled) :
    loop.pending = [] := by
  have hwaiting : ¬loop.peers.any Peer.isWaiting = true := by
    rw [List.any_eq_true]
    rintro ⟨peer, hmem, hpeer⟩
    rw [(h peer hmem).1] at hpeer
    contradiction
  have hready : loop.peers.filter Peer.isReady = [] := by
    rw [List.filter_eq_nil_iff]
    intro peer hmem hpeer
    rw [(h peer hmem).2] at hpeer
    contradiction
  rw [pending, if_neg hwaiting, hready]
  rfl

end Loop

end RemoteCalc.EventLoop
