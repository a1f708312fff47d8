import Mathlib.Data.Fintype.Card
import Mathlib.Data.Nat.Nth
import RemoteCalc.Proofs.Failover.Call
import RemoteCalc.Proofs.Wire.Codec

/-!
# Calls take turns

Some endpoints of the table answer every attempt and the others none.  The walk from the
cursor round the table meets the live ones again and again in the same order, and each
call of a sequence goes on from where the call before it ended.
-/

namespace RemoteCalc.Failover

open Wire Directory

variable {σ : Type}

structure Call where
  outcome : Except Fault Answer
  attempts : List Attempt

namespace Client

def calls (exchange : Exchange (StateM σ)) : Client → σ → List Request → List Call
  | _, _, [] => []
  | client, state, request :: requests =>
      let ((outcome, next), after) := (client.send exchange request).run state
      ⟨outcome, client.attempts exchange request state⟩ :: calls exchange next after requests

/--
In some states of the exchange, which it never leaves, the live places give a response to
each request and the others give none.
-/
structure IsSteady (client : Client) (exchange : Exchange (StateM σ))
    (requests : List Request)
    (states : Set σ) (live : Finset (Fin client.endpoints.length)) : Prop where
  stays : ∀ request ∈ requests, ∀ place, ∀ state ∈ states,
    (((client.attemptAt request place).make exchange).run state).2 ∈ states
  answers : ∀ request ∈ requests, ∀ place ∈ live, ∀ state ∈ states, ∃ response,
    Verdict (((client.attemptAt request place).make exchange).run state).1 (.ok response)
  fails : ∀ request ∈ requests, ∀ place ∉ live, ∀ state ∈ states, ∃ fault,
    Verdict (((client.attemptAt request place).make exchange).run state).1 (.error fault)

def Gives (client : Client) (exchange : Exchange (StateM σ)) (states : Set σ)
    (request : Request) (place : Fin client.endpoints.length)
    (response : Response) : Prop :=
  ∃ state ∈ states,
    Verdict (((client.attemptAt request place).make exchange).run state).1 (.ok response)

variable (client : Client) (live : Finset (Fin client.endpoints.length))

/-! ## The live places on the walk -/

def Meets (step : Nat) : Prop :=
  client.placeAt step ∈ live

instance : DecidablePred (client.Meets live) :=
  fun step => inferInstanceAs (Decidable (client.placeAt step ∈ live))

/-- The step at which the walk meets a live place for the first time, the second and so on. -/
noncomputable def liveStep (turn : Nat) : Nat :=
  Nat.nth (client.Meets live) turn

noncomputable def livePlace (turn : Nat) : Fin client.endpoints.length :=
  client.placeAt (client.liveStep live turn)

/-- How far the walk has come before a turn: behind the live place of the turn before. -/
noncomputable def stepsBefore : Nat → Nat
  | 0 => 0
  | turn + 1 => client.liveStep live turn + 1

/-- The places from where the walk stands up to the next live one. -/
noncomputable def tried (turn : Nat) : List (Fin client.endpoints.length) :=
  (List.range' (client.stepsBefore live turn)
    (client.stepsBefore live (turn + 1) - client.stepsBefore live turn)).map client.placeAt

theorem exists_step (start : Nat) (place : Fin client.endpoints.length) :
    ∃ count < client.endpoints.length, client.placeAt (start + count) = place := by
  have hinjective : Function.Injective
      fun count : Fin client.endpoints.length => client.placeAt (start + count) := by
    intro first second heq
    exact Fin.ext (client.placeAt_add_inj first.isLt second.isLt heq)
  obtain ⟨count, hcount⟩ := Finite.injective_iff_surjective.mp hinjective place
  exact ⟨count, count.isLt, hcount⟩

private theorem count_window (start : Nat) :
    Nat.count (client.Meets live) (start + client.endpoints.length) =
      Nat.count (client.Meets live) start + live.card := by
  rw [Nat.count_add, Nat.add_left_cancel_iff, Nat.count_eq_card_filter_range]
  apply Finset.card_nbij fun count => client.placeAt (start + count)
  · intro count hcount
    exact (Finset.mem_filter.mp hcount).2
  · intro first hfirst second hsecond heq
    have hfirst := Finset.mem_range.mp (Finset.mem_filter.mp hfirst).1
    have hsecond := Finset.mem_range.mp (Finset.mem_filter.mp hsecond).1
    exact client.placeAt_add_inj hfirst hsecond heq
  · intro place hplace
    obtain ⟨count, hcount, rfl⟩ := client.exists_step start place
    exact ⟨count, Finset.mem_filter.mpr ⟨Finset.mem_range.mpr hcount, hplace⟩, rfl⟩

section Nonempty

variable {live} (hlive : live.Nonempty)
include hlive

private theorem infinite_meets : (Set.ofPred (client.Meets live)).Infinite := by
  obtain ⟨place, hplace⟩ := hlive
  rw [Set.infinite_iff_exists_gt]
  intro bound
  obtain ⟨count, -, rfl⟩ := client.exists_step (bound + 1) place
  exact ⟨bound + 1 + count, hplace, by omega⟩

private theorem livePlace_mem (turn : Nat) : client.livePlace live turn ∈ live :=
  Nat.nth_mem_of_infinite (client.infinite_meets hlive) turn

private theorem stepsBefore_le (turn : Nat) :
    client.stepsBefore live turn ≤ client.liveStep live turn := by
  cases turn with
  | zero => exact Nat.zero_le _
  | succ turn => exact Nat.nth_strictMono (client.infinite_meets hlive) (Nat.lt_succ_self turn)

private theorem monotone_stepsBefore : Monotone (client.stepsBefore live) :=
  monotone_nat_of_le_succ fun turn => Nat.le_succ_of_le (client.stepsBefore_le hlive turn)

private theorem count_stepsBefore (turn : Nat) :
    Nat.count (client.Meets live) (client.stepsBefore live turn) = turn := by
  cases turn with
  | zero => exact Nat.count_zero _
  | succ turn => exact Nat.count_nth_succ_of_infinite (client.infinite_meets hlive) turn

private theorem not_meets {turn step : Nat} (hle : client.stepsBefore live turn ≤ step)
    (hlt : step < client.liveStep live turn) : ¬ client.Meets live step := by
  intro hmeets
  have hcount : Nat.count (client.Meets live) step < turn := by
    calc Nat.count (client.Meets live) step
      _ < Nat.count (client.Meets live) (client.liveStep live turn) :=
        Nat.count_strict_mono hmeets hlt
      _ = turn := Nat.count_nth_of_infinite (client.infinite_meets hlive) turn
  have hbefore := Nat.count_monotone (client.Meets live) hle
  rw [client.count_stepsBefore hlive] at hbefore
  omega

private theorem stepsBefore_add_card_le (first : Nat) :
    client.stepsBefore live (first + live.card) ≤
      client.stepsBefore live first + client.endpoints.length := by
  obtain ⟨others, hcard⟩ := Nat.exists_eq_add_of_le' hlive.card_pos
  rw [hcard, ← Nat.add_assoc]
  change client.liveStep live (first + others) < _
  apply Nat.nth_lt_of_lt_count
  rw [count_window, client.count_stepsBefore hlive]
  omega

private theorem liveStep_lt (turn : Nat) :
    client.liveStep live turn < client.stepsBefore live turn + client.endpoints.length := by
  calc client.liveStep live turn
    _ < client.stepsBefore live (turn + 1) := Nat.lt_succ_self _
    _ ≤ client.stepsBefore live (turn + live.card) :=
      client.monotone_stepsBefore hlive (Nat.add_le_add_left hlive.card_pos turn)
    _ ≤ client.stepsBefore live turn + client.endpoints.length :=
      client.stepsBefore_add_card_le hlive turn

private theorem flatMap_tried (first turns : Nat) :
    (List.range' first turns).flatMap (client.tried live) =
      (List.range' (client.stepsBefore live first)
        (client.stepsBefore live (first + turns) - client.stepsBefore live first)).map
          client.placeAt := by
  induction turns with
  | zero => simp
  | succ turns ih =>
      obtain ⟨before, hbefore⟩ := Nat.exists_eq_add_of_le
        (client.monotone_stepsBefore hlive (Nat.le_add_right first turns))
      obtain ⟨last, hlast⟩ := Nat.exists_eq_add_of_le
        (client.monotone_stepsBefore hlive (Nat.le_succ (first + turns)))
      rw [List.range'_1_concat, List.flatMap_append, ih, List.flatMap_singleton, tried,
        ← List.map_append, ← Nat.add_assoc, hlast, hbefore, Nat.add_sub_cancel_left,
        Nat.add_sub_cancel_left, List.range'_append_1, Nat.add_assoc,
        Nat.add_sub_cancel_left]

private theorem nodup_flatMap_tried (first : Nat) :
    ((List.range' first live.card).flatMap (client.tried live)).Nodup := by
  rw [client.flatMap_tried hlive]
  apply client.nodup_places
  have hround := client.stepsBefore_add_card_le hlive first
  omega

private theorem livePlace_mem_tried (turn : Nat) :
    client.livePlace live turn ∈ client.tried live turn := by
  have hle := client.stepsBefore_le hlive turn
  apply List.mem_map_of_mem
  rw [List.mem_range'_1, stepsBefore]
  omega

private theorem nodup_livePlaces (first : Nat) :
    ((List.range' first live.card).map (client.livePlace live)).Nodup := by
  -- Each live place is the last that its turn tries, and no place is tried in two turns.
  have hdisjoint := (List.nodup_flatMap.mp (client.nodup_flatMap_tried hlive first)).2
  rw [List.Nodup, List.pairwise_map]
  apply hdisjoint.imp
  intro earlier later hdisjoint heq
  apply hdisjoint (client.livePlace_mem_tried hlive earlier)
  rw [heq]
  exact client.livePlace_mem_tried hlive later

private theorem toFinset_livePlaces (first : Nat) :
    ((List.range' first live.card).map (client.livePlace live)).toFinset = live := by
  apply Finset.eq_of_subset_of_card_le
  · intro place hplace
    obtain ⟨turn, -, rfl⟩ := List.mem_map.mp (List.mem_toFinset.mp hplace)
    exact client.livePlace_mem hlive turn
  · rw [List.toFinset_card_of_nodup (client.nodup_livePlaces hlive first)]
    simp

end Nonempty

/-! ## Calls one after the other -/

def moved (steps : Nat) : Client :=
  { client with cursor := client.placeAt steps }

@[simp] theorem moved_zero : client.moved 0 = client := by
  rw [moved, placeAt_zero]

private theorem placeAt_moved (steps step : Nat) :
    (client.moved steps).placeAt step = client.placeAt (steps + step) :=
  Fin.ext (by simp [placeAt, moved, Nat.add_assoc])

private theorem places_moved (steps count : Nat) :
    (List.range count).map (client.moved steps).placeAt =
      (List.range' steps count).map client.placeAt := by
  rw [List.range'_eq_map_range, List.map_map]
  exact List.map_congr_left fun step _ => client.placeAt_moved steps step

variable {client live} {exchange : Exchange (StateM σ)} {requests : List Request}
  {states : Set σ}

private theorem IsSteady.stateAt_mem (h : client.IsSteady exchange requests states live)
    {request : Request} (hrequest : request ∈ requests) {state : σ}
    (hstate : state ∈ states) (steps step : Nat) :
    (client.moved steps).stateAt exchange request state step ∈ states := by
  induction step with
  | zero => exact hstate
  | succ step ih => exact h.stays request hrequest _ _ ih

private theorem replyAt_moved (request : Request) (state : σ) (steps step : Nat) :
    (client.moved steps).replyAt exchange request state step =
      (((client.attemptAt request (client.placeAt (steps + step))).make exchange).run
        ((client.moved steps).stateAt exchange request state step)).1 := by
  rw [← placeAt_moved]
  rfl

theorem IsSteady.response (h : client.IsSteady exchange requests states live)
    {request : Request} (hrequest : request ∈ requests) {state : σ}
    (hstate : state ∈ states)
    {steps step : Nat} (hlive : client.placeAt (steps + step) ∈ live) :
    ∃ response,
      Verdict ((client.moved steps).replyAt exchange request state step) (.ok response) := by
  rw [replyAt_moved]
  exact h.answers request hrequest _ hlive _ (h.stateAt_mem hrequest hstate steps step)

theorem IsSteady.failure (h : client.IsSteady exchange requests states live)
    {request : Request} (hrequest : request ∈ requests) {state : σ}
    (hstate : state ∈ states)
    {steps step : Nat} (hdead : client.placeAt (steps + step) ∉ live) :
    ∃ failure, (client.moved steps).FailsWith exchange request state step failure := by
  obtain ⟨fault, hfault⟩ :=
    h.fails request hrequest _ hdead _ (h.stateAt_mem hrequest hstate steps step)
  rw [← replyAt_moved] at hfault
  exact ⟨_, fault, hfault, rfl, fault.shows_message⟩

/--
A call that begins some steps from the cursor leaves the next one to begin at others and
the exchange in one of the states, and its caller sees such a call.
-/
def Moves (client : Client) (exchange : Exchange (StateM σ)) (states : Set σ)
    (request : Request) (start next : Nat) (Seen : Call → Prop) : Prop :=
  ∀ state ∈ states, ∃ outcome, ∃ last ∈ states,
    ((client.moved start).send exchange request).run state =
      ((outcome, client.moved next), last) ∧
    Seen ⟨outcome, (client.moved start).attempts exchange request state⟩

def IsAnswered (client : Client) (exchange : Exchange (StateM σ)) (states : Set σ)
    (request : Request) (tried : List (Fin client.endpoints.length))
    (place : Fin client.endpoints.length) (call : Call) : Prop :=
  ∃ response, client.Gives exchange states request place response ∧
    call = ⟨.ok ⟨client.nameAt place, response⟩, tried.map (client.attemptAt request)⟩

def IsExhausted (client : Client) (request : Request)
    (tried : List (Fin client.endpoints.length)) (call : Call) : Prop :=
  ∃ failures, call = ⟨.error (.exhausted failures), tried.map (client.attemptAt request)⟩

private theorem IsSteady.moves_of_live
    (h : client.IsSteady exchange requests states live)
    {request : Request} (hrequest : request ∈ requests) {start count : Nat}
    (hlt : count < client.endpoints.length)
    (hdead : ∀ earlier < count, client.placeAt (start + earlier) ∉ live)
    (hlive : client.placeAt (start + count) ∈ live) :
    client.Moves exchange states request start (start + (count + 1))
      (client.IsAnswered exchange states request
        ((List.range' start (count + 1)).map client.placeAt)
        (client.placeAt (start + count))) := by
  intro state hstate
  have hmoved : count < (client.moved start).endpoints.length := hlt
  have hfail := fun earlier hearlier => h.failure hrequest hstate (hdead earlier hearlier)
  obtain ⟨response, hresponse⟩ := h.response hrequest hstate hlive
  have hrun := run_send_of_response hmoved hfail hresponse
  have htold := attempts_of_response hmoved hfail hresponse
  rw [placeAt_moved, placeAt_moved] at hrun
  rw [places_moved] at htold
  rw [replyAt_moved] at hresponse
  refine ⟨_, _, h.stateAt_mem hrequest hstate start (count + 1), hrun, response, ?_, ?_⟩
  · exact ⟨_, h.stateAt_mem hrequest hstate start count, hresponse⟩
  · rw [htold]
    rfl

private theorem IsSteady.moves_of_none (h : client.IsSteady exchange requests states ∅)
    {request : Request} (hrequest : request ∈ requests) (start : Nat) :
    client.Moves exchange states request start (start + 1)
      (client.IsExhausted request
        ((List.range' start client.endpoints.length).map client.placeAt)) := by
  intro state hstate
  have hfail (step : Nat) :
      ∃ failure, (client.moved start).FailsWith exchange request state step failure :=
    h.failure hrequest hstate (Finset.notMem_empty _)
  choose failure hfailure using hfail
  have hall : List.Forall₂ ((client.moved start).FailsWith exchange request state)
      (List.range client.endpoints.length) ((List.range client.endpoints.length).map failure) :=
    List.forall₂_map_right_iff.mpr (List.forall₂_same.mpr fun step _ => hfailure step)
  have hrun := run_send_of_failures hall
  have htold := attempts_of_failures hall
  rw [placeAt_moved] at hrun
  rw [places_moved] at htold
  refine ⟨_, _, h.stateAt_mem hrequest hstate start _, hrun,
    (List.range client.endpoints.length).map failure, ?_⟩
  rw [htold]
  rfl

private theorem IsSteady.moves_turn (h : client.IsSteady exchange requests states live)
    (hlive : live.Nonempty) {request : Request} (hrequest : request ∈ requests)
    (turn : Nat) :
    client.Moves exchange states request (client.stepsBefore live turn)
      (client.stepsBefore live (turn + 1))
      (client.IsAnswered exchange states request (client.tried live turn)
        (client.livePlace live turn)) := by
  obtain ⟨count, hcount⟩ := Nat.exists_eq_add_of_le (client.stepsBefore_le hlive turn)
  have hbound := client.liveStep_lt hlive turn
  have hnext : client.stepsBefore live (turn + 1) =
      client.stepsBefore live turn + (count + 1) := by
    rw [stepsBefore, hcount, Nat.add_assoc]
  have hplace : client.livePlace live turn =
      client.placeAt (client.stepsBefore live turn + count) := by
    rw [livePlace, hcount]
  have hmet := client.livePlace_mem hlive turn
  rw [hplace] at hmet ⊢
  rw [tried, hnext, Nat.add_sub_cancel_left]
  apply h.moves_of_live hrequest _ _ hmet
  · omega
  · intro earlier hearlier
    apply client.not_meets hlive (Nat.le_add_right _ _)
    omega

/-- Each call of a sequence goes on from where the call before it left the client. -/
theorem calls_follow {steps : Nat → Nat} {Seen : Nat → Request → Call → Prop}
    (hmoves : ∀ turn, ∀ request ∈ requests, client.Moves exchange states request (steps turn)
      (steps (turn + 1)) (Seen turn request))
    {state : σ} (hstate : state ∈ states) (made : Nat) {turn : Nat} {request : Request}
    (hrequest : requests[turn]? = some request) :
    ∃ call ∈ ((client.moved (steps made)).calls exchange state requests)[turn]?,
      Seen (made + turn) request call := by
  induction requests generalizing made state turn with
  | nil => simp at hrequest
  | cons first requests ih =>
      obtain ⟨outcome, last, hlast, hrun, hseen⟩ :=
        hmoves made first List.mem_cons_self state hstate
      rw [calls, hrun]
      cases turn with
      | zero =>
          obtain rfl : first = request := Option.some.inj hrequest
          exact ⟨_, rfl, hseen⟩
      | succ turn =>
          have hlater := ih
            (fun turn request hmem => hmoves turn request (List.mem_cons_of_mem _ hmem))
            hlast (made + 1) hrequest
          rwa [Nat.add_right_comm] at hlater

/--
With some endpoints live, each call is answered by the next live place on the walk, so that
as many calls as there are live places take every one of them once and try no place twice.
With none live, each call tries all places and begins one place further on.
-/
theorem calls_take_turns (h : client.IsSteady exchange requests states live) {state : σ}
    (hstate : state ∈ states) :
    (live.Nonempty →
      (∀ turn request, requests[turn]? = some request →
        ∃ call ∈ (client.calls exchange state requests)[turn]?,
          client.IsAnswered exchange states request (client.tried live turn)
            (client.livePlace live turn) call) ∧
      ∀ first,
        ((List.range' first live.card).map (client.livePlace live)).Nodup ∧
        ((List.range' first live.card).map (client.livePlace live)).toFinset = live ∧
        ((List.range' first live.card).flatMap (client.tried live)).Nodup) ∧
    (live = ∅ →
      (∀ turn request, requests[turn]? = some request →
        ∃ call ∈ (client.calls exchange state requests)[turn]?,
          client.IsExhausted request
            ((List.range' turn client.endpoints.length).map client.placeAt) call) ∧
      ∀ first, ((List.range' first client.endpoints.length).map client.placeAt).Nodup) := by
  constructor
  · intro hlive
    refine ⟨?_, fun first => ⟨client.nodup_livePlaces hlive first,
      client.toFinset_livePlaces hlive first, client.nodup_flatMap_tried hlive first⟩⟩
    intro turn request hrequest
    have hcall := calls_follow (fun turn request hmem => h.moves_turn hlive hmem turn)
      hstate 0 hrequest
    rwa [stepsBefore, moved_zero, Nat.zero_add] at hcall
  · rintro rfl
    refine ⟨?_, fun first => client.nodup_places first le_rfl⟩
    intro turn request hrequest
    have hcall := calls_follow (fun turn request hmem => h.moves_of_none hmem turn)
      hstate 0 hrequest
    rwa [moved_zero, Nat.zero_add] at hcall

end Client

/-! ## Three endpoints, one of which is down -/

def threeEndpoints : Client where
  endpoints :=
    [⟨"A", .localhost, 9001, .stream⟩, ⟨"B", .localhost, 9002, .stream⟩,
      ⟨"C", .localhost, 9003, .datagram⟩]
  cursor := ⟨1, by decide⟩
  timeout := defaultTimeout

def withoutB : Exchange (StateM Nat) :=
  fun endpoint _ _ made =>
    if endpoint.name = "B" then (.error (.transport .closedUnanswered), made + 1)
    else (.ok (Response.success made.toFloat endpoint.name).encode, made + 1)

def upWithoutB : Finset (Fin threeEndpoints.endpoints.length) :=
  {place | threeEndpoints.nameAt place ≠ "B"}

private theorem make_withoutB (request : Request)
    (place : Fin threeEndpoints.endpoints.length) (made : Nat) :
    ((threeEndpoints.attemptAt request place).make withoutB).run made =
      if threeEndpoints.nameAt place = "B" then (.error (.transport .closedUnanswered), made + 1)
      else (.ok (Response.success made.toFloat (threeEndpoints.nameAt place)).encode, made + 1) :=
  rfl

private theorem isSteady_withoutB (requests : List Request) :
    threeEndpoints.IsSteady withoutB requests Set.univ upWithoutB where
  stays _ _ _ _ _ := Set.mem_univ _
  answers request _ place hplace made _ := by
    have hname : threeEndpoints.nameAt place ≠ "B" := (Finset.mem_filter.mp hplace).2
    rw [make_withoutB, if_neg hname]
    exact ⟨_, .response (Response.decode_encode _)⟩
  fails request _ place hplace made _ := by
    have hname : threeEndpoints.nameAt place = "B" := by
      simpa [upWithoutB] using hplace
    rw [make_withoutB, if_pos hname]
    exact ⟨_, .unanswered _⟩

private theorem livePlace_withoutB :
    threeEndpoints.livePlace upWithoutB 2 = ⟨2, by decide⟩ ∧
    threeEndpoints.tried upWithoutB 2 = [⟨1, by decide⟩, ⟨2, by decide⟩] := by
  have hthird : threeEndpoints.liveStep upWithoutB 2 = 4 :=
    Nat.nth_count (p := threeEndpoints.Meets upWithoutB) (n := 4) (by decide)
  have hsecond : threeEndpoints.liveStep upWithoutB 1 = 2 :=
    Nat.nth_count (p := threeEndpoints.Meets upWithoutB) (n := 2) (by decide)
  rw [Client.tried, Client.stepsBefore, Client.stepsBefore, Client.livePlace,
    hsecond, hthird]
  exact ⟨rfl, rfl⟩

def sumOfNothing : Request := ⟨.add, 0, 0⟩

/-- The third of three calls finds `B` down once more and is answered by `C`. -/
theorem third_call_withoutB :
    threeEndpoints.IsSteady withoutB [sumOfNothing, sumOfNothing, sumOfNothing] Set.univ
        upWithoutB ∧
      ∃ response,
        (threeEndpoints.calls withoutB 0 [sumOfNothing, sumOfNothing, sumOfNothing])[2]? =
          some ⟨.ok ⟨"C", response⟩,
            [⟨1, by decide⟩, ⟨2, by decide⟩].map (threeEndpoints.attemptAt sumOfNothing)⟩ := by
  have hsteady := isSteady_withoutB [sumOfNothing, sumOfNothing, sumOfNothing]
  have hlive : upWithoutB.Nonempty := ⟨⟨0, by decide⟩, by decide⟩
  obtain ⟨hplace, htried⟩ := livePlace_withoutB
  obtain ⟨call, hcall, response, -, rfl⟩ :=
    ((Client.calls_take_turns hsteady (Set.mem_univ 0)).1 hlive).1 2 sumOfNothing rfl
  rw [hplace, htried] at hcall
  exact ⟨hsteady, response, hcall⟩

end RemoteCalc.Failover
