import RemoteCalc.Proofs.Failover.Rotation

/-!
# Calls with deadlines

Before an attempt over a stream it is fixed when the attempt has to be over, by a clock that
may be unable to tell.  As long as the clock can, calls are the same as without deadlines,
and each of them makes the attempts that it makes alone.
-/

namespace RemoteCalc

/-! ## Moments -/

namespace Clock

variable {now last span : Span}

theorem after_of_limit_le
    (h : secondsLimit ≤ (Span.mk (now.nanos + span.nanos)).seconds) :
    after now span = .error .momentOutOfReach :=
  if_neg (Nat.not_lt.mpr h)

theorem exists_after_iff :
    (∃ moment, after now span = .ok moment) ↔
      (Span.mk (now.nanos + span.nanos)).seconds < secondsLimit := by
  constructor
  · rintro ⟨moment, h⟩
    by_contra hlimit
    rw [after_of_limit_le (Nat.not_lt.mp hlimit)] at h
    contradiction
  · intro h
    exact ⟨_, if_pos h⟩

private theorem exists_after_of_le (hle : now.nanos ≤ last.nanos)
    (h : ∃ moment, after last span = .ok moment) :
    ∃ moment, after now span = .ok moment := by
  rw [exists_after_iff] at h ⊢
  exact (Nat.div_le_div_right (Nat.add_le_add_right hle _)).trans_lt h

end Clock

namespace Failover

open Wire Directory

/-! ## Exchanges that do not break down -/

section Lift

variable {m : Type → Type} [Monad m] [LawfulMonad m] {client : Client}
  {exchange : Exchange m} {lifted : Exchange (ExceptT Breakdown m)}

/-- All that the other exchange does for the client is what this one does. -/
def Client.Carries (client : Client) (exchange : Exchange m)
    (lifted : Exchange (ExceptT Breakdown m)) : Prop :=
  ∀ endpoint ∈ client.endpoints, ∀ frame,
    lifted endpoint frame client.timeout =
      ExceptT.lift (exchange endpoint frame client.timeout)

private theorem Client.Carries.run_attempt (h : client.Carries exchange lifted)
    (frame : Bytes) (places : List (Fin client.endpoints.length)) :
    (client.attempt lifted frame places).run =
      Except.ok <$> client.attempt exchange frame places := by
  induction places with
  | nil => simp [attempt]
  | cons place rest ih =>
      have hplace := h client.endpoints[place] (List.getElem_mem place.isLt) frame
      rw [attempt, attempt, hplace, ExceptT.run_bind_lift, map_bind]
      refine bind_congr fun reply => ?_
      cases accept reply with
      | ok response => simp
      | error fault =>
          simp [ih]
          rfl

theorem Client.Carries.run_send (h : client.Carries exchange lifted)
    (request : Request) :
    (client.send lifted request).run = Except.ok <$> client.send exchange request := by
  rw [send, ExceptT.run_bind, h.run_attempt, send, bind_map_left, map_bind]
  refine bind_congr fun result => ?_
  cases result <;> simp

end Lift

variable {σ : Type}

/-! ## Deadlines -/

variable {client : Client} {clock : σ → Span} {exchange : Exchange (StateM σ)}

theorem deadlineAt_of_stream {now : Span} {endpoint : Endpoint} {timeout : Span}
    (h : endpoint.transport = .stream) :
    deadlineAt now endpoint timeout = (Clock.after now timeout).map some := by
  rw [deadlineAt, h]

private theorem deadlineAt_of_datagram {now : Span} {endpoint : Endpoint}
    {timeout : Span} (h : endpoint.transport = .datagram) :
    deadlineAt now endpoint timeout = .ok none := by
  rw [deadlineAt, h]

private theorem run_timed (endpoint : Endpoint) (frame : Bytes) (timeout : Span)
    (state : σ) :
    (timed clock exchange endpoint frame timeout).run.run state =
      match deadlineAt (clock state) endpoint timeout with
      | .error cause => (Except.error cause, state)
      | .ok _ =>
          (Except.ok ((exchange endpoint frame timeout).run state).1,
            ((exchange endpoint frame timeout).run state).2) :=
  rfl

/-- No attempt of the client's is kept from being made at these moments. -/
def Client.InReach (client : Client) (now : Span) : Prop :=
  ∀ endpoint ∈ client.endpoints, ∃ deadline, deadlineAt now endpoint client.timeout =
    .ok deadline

theorem Client.inReach_iff {now : Span} :
    client.InReach now ↔ (∀ endpoint ∈ client.endpoints, endpoint.transport = .datagram) ∨
      ∃ moment, Clock.after now client.timeout = .ok moment := by
  constructor
  · intro h
    rw [or_iff_not_imp_right]
    intro hclock endpoint hmem
    obtain ⟨deadline, hdeadline⟩ := h endpoint hmem
    cases htransport : endpoint.transport with
    | datagram => rfl
    | stream =>
        rw [deadlineAt_of_stream htransport] at hdeadline
        cases hafter : Clock.after now client.timeout with
        | ok moment => exact absurd ⟨moment, hafter⟩ hclock
        | error cause =>
            rw [hafter] at hdeadline
            contradiction
  · intro h endpoint hmem
    cases htransport : endpoint.transport with
    | datagram => exact ⟨none, deadlineAt_of_datagram htransport⟩
    | stream =>
        rcases h with hdatagrams | ⟨moment, hmoment⟩
        · rw [hdatagrams endpoint hmem] at htransport
          contradiction
        · exact ⟨some moment, by rw [deadlineAt_of_stream htransport, hmoment]; rfl⟩

theorem Client.InReach.of_le {now last : Span} (h : client.InReach last)
    (hle : now.nanos ≤ last.nanos) : client.InReach now := by
  rw [inReach_iff] at h ⊢
  exact h.imp_right (Clock.exists_after_of_le hle)

theorem Client.carries_timed (h : ∀ state, client.InReach (clock state)) :
    client.Carries exchange (timed clock exchange) := by
  intro endpoint hmem frame
  funext state
  obtain ⟨deadline, hdeadline⟩ := h state endpoint hmem
  refine (run_timed endpoint frame client.timeout state).trans ?_
  rw [hdeadline]
  rfl

/-! ## Breakdowns -/

/-- Nothing that the exchange ever brings back is a response. -/
def IsDeaf (exchange : Exchange (StateM σ)) : Prop :=
  ∀ endpoint frame timeout state,
    ∃ fault, accept ((exchange endpoint frame timeout).run state).1 = .error fault

private theorem run_timed_bind {α : Type} (endpoint : Endpoint) (frame : Bytes)
    (timeout : Span)
    (next : Except Fault Bytes → ExceptT Breakdown (StateM σ) α) (state : σ) :
    (timed clock exchange endpoint frame timeout >>= next).run.run state =
      match deadlineAt (clock state) endpoint timeout with
      | .error cause => (.error cause, state)
      | .ok _ =>
          (next ((exchange endpoint frame timeout).run state).1).run.run
            ((exchange endpoint frame timeout).run state).2 := by
  rw [ExceptT.run_bind, run_bind, run_timed]
  cases deadlineAt (clock state) endpoint timeout <;> rfl

private theorem Client.attempt_breaks_down (hdeaf : IsDeaf exchange)
    {now : Span} {frame : Bytes}
    {places : List (Fin client.endpoints.length)} {place : Fin client.endpoints.length}
    (hmem : place ∈ places) {cause : Breakdown}
    (h : deadlineAt now (client.endpoints.get place) client.timeout = .error cause)
    (state : σ) :
    ∃ cause after, (client.attempt (timed (fun _ => now) exchange) frame places).run.run state =
      (.error cause, after) := by
  induction places generalizing state with
  | nil => contradiction
  | cons first rest ih =>
      rw [attempt, run_timed_bind]
      cases hfirst : deadlineAt now (client.endpoints.get first) client.timeout with
      | error cause => exact ⟨cause, state, rfl⟩
      | ok deadline =>
          obtain ⟨fault, hfault⟩ :=
            hdeaf client.endpoints[first] frame client.timeout state
          have hrest : place ∈ rest := by
            rcases List.mem_cons.mp hmem with rfl | hrest
            · rw [h] at hfirst
              contradiction
            · exact hrest
          obtain ⟨cause, after, hrun⟩ :=
            ih hrest ((exchange client.endpoints[first] frame client.timeout).run state).2
          refine ⟨cause, after, ?_⟩
          simp only [hfault]
          rw [ExceptT.run_bind, run_bind, hrun]
          rfl

private theorem Client.exists_walk (client : Client) :
    ∃ rest, client.walk = client.cursor :: rest := by
  obtain ⟨steps, hsteps⟩ : ∃ steps, List.range' 0 client.endpoints.length =
      0 :: steps := by
    obtain ⟨size, hsize⟩ := Nat.exists_eq_add_of_le' client.size_pos
    rw [hsize]
    exact ⟨_, List.range'_succ⟩
  rw [client.walk_eq, hsteps, List.map_cons, client.placeAt_zero]
  exact ⟨_, rfl⟩

private theorem Client.mem_walk (client : Client)
    (place : Fin client.endpoints.length) :
    place ∈ client.walk := by
  obtain ⟨step, hstep, hplace⟩ := client.exists_step 0 place
  rw [walk_eq, List.mem_map]
  exact ⟨step, List.mem_range'_1.mpr ⟨Nat.zero_le _, by omega⟩, by rwa [Nat.zero_add] at hplace⟩

/-- A call that nobody answers breaks down at the first endpoint whose deadline is out of reach. -/
theorem Client.send_breaks_down (hdeaf : IsDeaf exchange) {now : Span}
    (h : ¬client.InReach now) (request : Request) (state : σ) :
    ∃ cause after, (client.send (timed (fun _ => now) exchange) request).run.run state =
      (.error cause, after) := by
  rw [InReach] at h
  push Not at h
  obtain ⟨endpoint, hmem, hdeadline⟩ := h
  obtain ⟨place, rfl⟩ := List.get_of_mem hmem
  cases hcause : deadlineAt now (client.endpoints.get place) client.timeout with
  | ok deadline => exact absurd hcause (hdeadline deadline)
  | error cause =>
      obtain ⟨cause, after, hrun⟩ :=
        attempt_breaks_down hdeaf (client.mem_walk place) hcause state
      refine ⟨cause, after, ?_⟩
      rw [send, ExceptT.run_bind, run_bind, hrun]
      rfl

theorem Client.send_of_first_deadline {state : σ} {cause : Breakdown}
    (h : deadlineAt (clock state) (client.endpoints.get client.cursor) client.timeout =
      .error cause) (request : Request) :
    (client.send (timed clock exchange) request).run.run state =
      (.error cause, state) := by
  obtain ⟨rest, hwalk⟩ := client.exists_walk
  have hattempt : (client.attempt (timed clock exchange) request.encode client.walk).run.run state =
      (.error cause, state) := by
    rw [hwalk, attempt, run_timed_bind]
    simp only [List.get_eq_getElem] at h
    simp only [Fin.getElem_fin, h]
  rw [send, ExceptT.run_bind, run_bind, hattempt]
  rfl

/-! ## Attempts that are written down -/

theorem Client.run_attempt_recorded (exchange : Exchange (StateM σ)) (request : Request)
    (places : List (Fin client.endpoints.length)) (state : σ) :
    ∃ made, ∀ before,
      (client.attempt (recorded exchange) request.encode places).run (state, before) =
        (((client.attempt exchange request.encode places).run state).1,
          ((client.attempt exchange request.encode places).run state).2,
          before ++ made) := by
  induction places generalizing state with
  | nil => exact ⟨[], fun before => by rw [List.append_nil]; rfl⟩
  | cons place rest ih =>
      have hmake (before : List Attempt) :
          ((client.attemptAt request place).make (recorded exchange)).run (state, before) =
            ((((client.attemptAt request place).make exchange).run state).1,
              (((client.attemptAt request place).make exchange).run state).2,
              before ++ [client.attemptAt request place]) := rfl
      obtain ⟨made, hmade⟩ := ih (((client.attemptAt request place).make exchange).run state).2
      simp only [run_attempt_cons, hmake]
      cases accept (((client.attemptAt request place).make exchange).run state).1 with
      | ok response => exact ⟨[client.attemptAt request place], fun before => rfl⟩
      | error fault =>
          refine ⟨client.attemptAt request place :: made, fun before => ?_⟩
          simp only [hmade, List.append_assoc, List.singleton_append]
          rfl

theorem Client.run_send_recorded (client : Client) (exchange : Exchange (StateM σ))
    (request : Request) (state : σ) (before : List Attempt) :
    (client.send (recorded exchange) request).run (state, before) =
      (((client.send exchange request).run state).1, ((client.send exchange request).run state).2,
        before ++ client.attempts exchange request state) := by
  obtain ⟨made, hmade⟩ :=
    run_attempt_recorded exchange request client.walk state
  have hsend (before : List Attempt) :
      (client.send (recorded exchange) request).run (state, before) =
        (((client.send exchange request).run state).1,
          ((client.send exchange request).run state).2, before ++ made) := by
    rw [send, run_bind, hmade, send, run_bind]
    cases ((client.attempt exchange request.encode client.walk).run state).1 <;> rfl
  rw [hsend, attempts, hsend, List.nil_append]

theorem Client.run_send_cases (client : Client) (exchange : Exchange (StateM σ))
    (request : Request) (state : σ) :
    ∃ (result : Except (List Failure) Answer) (cursor : Fin client.endpoints.length) (after : σ),
      (client.send exchange request).run state =
        ((result.mapError .exhausted, { client with cursor }), after) := by
  rw [send, run_bind]
  generalize (client.attempt exchange request.encode client.walk).run state = ended
  obtain ⟨⟨failures⟩ | ⟨place, response⟩, after⟩ := ended
  · exact ⟨.error failures, _, after, rfl⟩
  · exact ⟨.ok _, _, after, rfl⟩

end Failover

end RemoteCalc
