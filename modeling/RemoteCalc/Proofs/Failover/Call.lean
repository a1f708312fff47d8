import Mathlib.Data.Int.ModEq
import Mathlib.Data.List.Nodup
import RemoteCalc.Failover
import RemoteCalc.Proofs.Fault

/-!
# One call with failover

An exchange has a state of its own, so that it may answer every attempt in another way.
The state and the reply of each attempt are told here step by step along the table, as
if no attempt ever ended a call, and a call is described by them: it stops at the first
reply that is a well-formed response, and fails if there is none.
-/

namespace RemoteCalc.Failover

open Wire Directory

/-- What a reply is worth: a well-formed response, or the reason why it is none. -/
inductive Verdict : Except Fault Bytes → Except Fault Response → Prop where
  | response {frame : Bytes} {response : Response}
      (wellFormed : Response.decode frame = .ok response) : Verdict (.ok frame) (.ok response)
  | malformed {frame : Bytes} {cause : FrameFault}
      (malformed : Response.decode frame = .error cause) :
      Verdict (.ok frame) (.error (.frame cause))
  | unanswered (fault : Fault) : Verdict (.error fault) (.error fault)

private theorem verdict_accept (reply : Except Fault Bytes) :
    Verdict reply (accept reply) := by
  cases reply with
  | error fault => exact .unanswered fault
  | ok frame =>
      simp only [accept, Except.bind]
      cases hframe : Response.decode frame with
      | error cause => exact .malformed hframe
      | ok response => exact .response hframe

theorem Verdict.eq_accept {reply : Except Fault Bytes} {verdict : Except Fault Response}
    (h : Verdict reply verdict) : accept reply = verdict := by
  cases h with
  | response wellFormed => simp [accept, Except.bind, wellFormed, Except.mapError]
  | malformed malformed => simp [accept, Except.bind, malformed, Except.mapError]
  | unanswered fault => rfl

structure Attempt where
  endpoint : Endpoint
  frame : Bytes
  timeout : Span
  deriving DecidableEq

variable {σ : Type}

theorem run_bind {α β : Type} (action : StateM σ α) (next : α → StateM σ β)
    (state : σ) :
    (action >>= next).run state =
      (next (action.run state).1).run (action.run state).2 :=
  rfl

def Attempt.make (attempt : Attempt) (exchange : Exchange (StateM σ)) :
    StateM σ (Except Fault Bytes) :=
  exchange attempt.endpoint attempt.frame attempt.timeout

/-- An exchange that does the same and writes down what it was told. -/
def recorded (exchange : Exchange (StateM σ)) : Exchange (StateM (σ × List Attempt)) :=
  fun endpoint frame timeout (state, made) =>
    let (reply, next) := (exchange endpoint frame timeout).run state
    (reply, next, made ++ [⟨endpoint, frame, timeout⟩])

namespace Client

variable (client : Client) (exchange : Exchange (StateM σ)) (request : Request)
  (state : σ)

/-! ## The walk along the table -/

theorem size_pos : 0 < client.endpoints.length :=
  Nat.zero_lt_of_lt client.cursor.isLt

/-- The place that many steps behind the cursor, round the end of the table. -/
def placeAt (step : Nat) : Fin client.endpoints.length :=
  ⟨(client.cursor + step) % client.endpoints.length, Nat.mod_lt _ client.size_pos⟩

def nameAt (place : Fin client.endpoints.length) : String :=
  (client.endpoints.get place).name

def attemptAt (place : Fin client.endpoints.length) : Attempt :=
  ⟨client.endpoints.get place, request.encode, client.timeout⟩

/-- The state of the exchange before an attempt, if all attempts before it were made. -/
def stateAt : Nat → σ
  | 0 => state
  | step + 1 =>
      (((client.attemptAt request (client.placeAt step)).make exchange).run (stateAt step)).2

def replyAt (step : Nat) : Except Fault Bytes :=
  (((client.attemptAt request (client.placeAt step)).make exchange).run
    (client.stateAt exchange request state step)).1

/-- The attempt gives no response, and this is what a call reports of it. -/
def FailsWith (step : Nat) (failure : Failure) : Prop :=
  ∃ fault, Verdict (client.replyAt exchange request state step) (.error fault) ∧
    failure = ⟨client.nameAt (client.placeAt step), fault.message⟩ ∧
    fault.Shows failure.reason

def attempts : List Attempt :=
  ((client.send (recorded exchange) request).run (state, [])).2.2

@[simp] theorem placeAt_zero : client.placeAt 0 = client.cursor :=
  Fin.ext (Nat.mod_eq_of_lt client.cursor.isLt)

private theorem behind_placeAt (step : Nat) :
    behind (client.placeAt step) = client.placeAt (step + 1) :=
  Fin.ext (by simp [behind, placeAt, Nat.add_assoc])

private theorem behind_cursor : behind client.cursor = client.placeAt 1 := by
  rw [← client.placeAt_zero, behind_placeAt]

theorem walk_eq : client.walk =
    (List.range' 0 client.endpoints.length).map client.placeAt := by
  apply List.ext_getElem
  · simp [walk]
  · intro step hwalk hrange
    apply Fin.ext
    simp [walk, placeAt, Fin.val_add]

theorem placeAt_add_inj {start first second : Nat}
    (hfirst : first < client.endpoints.length)
    (hsecond : second < client.endpoints.length)
    (h : client.placeAt (start + first) = client.placeAt (start + second)) :
    first = second := by
  have hmod : client.cursor + start + first ≡ client.cursor + start + second
      [MOD client.endpoints.length] := by
    rw [Nat.add_assoc, Nat.add_assoc]
    exact congrArg Fin.val h
  exact Nat.ModEq.eq_of_lt_of_lt (Nat.ModEq.add_left_cancel' _ hmod) hfirst hsecond

theorem nodup_places (start : Nat) {steps : Nat} (h : steps ≤ client.endpoints.length) :
    ((List.range' start steps).map client.placeAt).Nodup := by
  rw [List.range'_eq_map_range, List.map_map]
  apply List.Nodup.map_on _ List.nodup_range
  intro first hfirst second hsecond heq
  rw [List.mem_range] at hfirst hsecond
  exact client.placeAt_add_inj (hfirst.trans_le h) (hsecond.trans_le h) heq

/-- Among any steps one is the first that gives a response, or each has its failure. -/
theorem first_response_or_failures (step size : Nat) :
    (∃ count < size,
      (∀ earlier < count,
        ∃ failure, client.FailsWith exchange request state (step + earlier) failure) ∧
      ∃ response, Verdict (client.replyAt exchange request state (step + count))
        (.ok response)) ∨
    ∃ failures, List.Forall₂ (client.FailsWith exchange request state)
      (List.range' step size) failures := by
  induction size generalizing step with
  | zero => exact .inr ⟨[], .nil⟩
  | succ size ih =>
      have hverdict := verdict_accept (client.replyAt exchange request state step)
      cases haccept : accept (client.replyAt exchange request state step) with
      | ok response =>
          rw [haccept] at hverdict
          exact .inl ⟨0, Nat.succ_pos size, by simp, response, hverdict⟩
      | error fault =>
          rw [haccept] at hverdict
          have hfirst : client.FailsWith exchange request state step _ :=
            ⟨fault, hverdict, rfl, fault.shows_message⟩
          rcases ih (step + 1) with ⟨count, hlt, hfail, response, hresponse⟩ | ⟨failures, hfailures⟩
          · refine .inl ⟨count + 1, Nat.succ_lt_succ hlt, ?_, response, ?_⟩
            · intro earlier hearlier
              cases earlier with
              | zero => exact ⟨_, hfirst⟩
              | succ earlier =>
                  obtain ⟨failure, hfailure⟩ :=
                    hfail earlier (Nat.lt_of_succ_lt_succ hearlier)
                  exact ⟨failure, by rwa [Nat.add_right_comm] at hfailure⟩
            · rwa [Nat.add_right_comm] at hresponse
          · exact .inr ⟨_ :: failures, by rw [List.range'_succ]; exact .cons hfirst hfailures⟩

/-! ## The attempts of a call -/

variable {client exchange request state}

theorem run_attempt_cons (place : Fin client.endpoints.length)
    (rest : List (Fin client.endpoints.length)) :
    (client.attempt exchange request.encode (place :: rest)).run state =
      match accept (((client.attemptAt request place).make exchange).run state).1 with
      | .ok response =>
          (.ok (place, response), (((client.attemptAt request place).make exchange).run state).2)
      | .error fault =>
          match (client.attempt exchange request.encode rest).run
            (((client.attemptAt request place).make exchange).run state).2 with
          | (result, last) =>
              (result.mapError (⟨client.nameAt place, fault.message⟩ :: ·), last) := by
  have hmake : (client.attemptAt request place).make exchange =
      exchange client.endpoints[place] request.encode client.timeout := rfl
  rw [attempt, run_bind, hmake]
  cases accept ((exchange client.endpoints[place] request.encode client.timeout).run state).1 with
  | ok response => rfl
  | error fault => rfl

private theorem run_attempt_of_response {step : Nat} {response : Response}
    (h : Verdict (client.replyAt exchange request state step) (.ok response))
    (rest : List (Fin client.endpoints.length)) :
    (client.attempt exchange request.encode (client.placeAt step :: rest)).run
        (client.stateAt exchange request state step) =
      (.ok (client.placeAt step, response), client.stateAt exchange request state (step + 1)) := by
  have haccept := h.eq_accept
  rw [replyAt] at haccept
  rw [run_attempt_cons, haccept]
  rfl

private theorem run_attempt_of_failure {step : Nat} {failure : Failure}
    (h : client.FailsWith exchange request state step failure)
    (rest : List (Fin client.endpoints.length)) :
    (client.attempt exchange request.encode (client.placeAt step :: rest)).run
        (client.stateAt exchange request state step) =
      match (client.attempt exchange request.encode rest).run
        (client.stateAt exchange request state (step + 1)) with
      | (result, last) => (result.mapError (failure :: ·), last) := by
  obtain ⟨fault, hverdict, rfl, -⟩ := h
  have haccept := hverdict.eq_accept
  rw [replyAt] at haccept
  rw [run_attempt_cons, haccept]
  rfl

private theorem run_attempt_first {step count size : Nat} {response : Response}
    (hlt : count < size) (hfail : ∀ earlier < count,
      ∃ failure, client.FailsWith exchange request state (step + earlier) failure)
    (h : Verdict (client.replyAt exchange request state (step + count)) (.ok response)) :
    (client.attempt exchange request.encode ((List.range' step size).map client.placeAt)).run
        (client.stateAt exchange request state step) =
      (.ok (client.placeAt (step + count), response),
        client.stateAt exchange request state (step + count + 1)) := by
  induction count generalizing step size with
  | zero =>
      obtain ⟨size, rfl⟩ := Nat.exists_eq_add_of_le' hlt
      rw [List.range'_succ, List.map_cons]
      exact run_attempt_of_response h _
  | succ count ih =>
      obtain ⟨size, rfl⟩ := Nat.exists_eq_add_of_le' (Nat.zero_lt_of_lt hlt)
      obtain ⟨failure, hfirst⟩ := hfail 0 (Nat.succ_pos count)
      rw [Nat.add_zero] at hfirst
      have hnext : step + (count + 1) = step + 1 + count := by omega
      rw [hnext] at h ⊢
      rw [List.range'_succ, List.map_cons, run_attempt_of_failure hfirst, ih _ _ h]
      · rfl
      · omega
      · intro earlier hearlier
        obtain ⟨later, hlater⟩ := hfail (earlier + 1) (by omega)
        exact ⟨later, by rwa [Nat.add_right_comm]⟩

private theorem run_attempt_none {step size : Nat} {failures : List Failure}
    (h : List.Forall₂ (client.FailsWith exchange request state) (List.range' step size)
      failures) :
    (client.attempt exchange request.encode ((List.range' step size).map client.placeAt)).run
        (client.stateAt exchange request state step) =
      (.error failures, client.stateAt exchange request state (step + size)) := by
  induction size generalizing step failures with
  | zero =>
      cases h
      rfl
  | succ size ih =>
      rw [List.range'_succ] at h ⊢
      cases h with
      | cons hfirst hrest =>
          rw [List.map_cons, run_attempt_of_failure hfirst, ih hrest,
            Nat.add_right_comm]
          rfl

/-! ## The outcome of a call -/

theorem run_send_of_response {step : Nat} {response : Response}
    (hlt : step < client.endpoints.length)
    (hfail : ∀ earlier < step, ∃ failure, client.FailsWith exchange request state earlier failure)
    (h : Verdict (client.replyAt exchange request state step) (.ok response)) :
    (client.send exchange request).run state =
      ((.ok ⟨client.nameAt (client.placeAt step), response⟩,
        { client with cursor := client.placeAt (step + 1) }),
        client.stateAt exchange request state (step + 1)) := by
  rw [← Nat.zero_add step] at h
  have hrun := run_attempt_first hlt (by simpa only [Nat.zero_add] using hfail) h
  rw [← walk_eq, Nat.zero_add] at hrun
  change (client.attempt exchange request.encode client.walk).run state = _ at hrun
  rw [send, run_bind, hrun, ← behind_placeAt]
  rfl

theorem run_send_of_failures {failures : List Failure}
    (h : List.Forall₂ (client.FailsWith exchange request state)
      (List.range client.endpoints.length) failures) :
    (client.send exchange request).run state =
      ((.error (.exhausted failures), { client with cursor := client.placeAt 1 }),
        client.stateAt exchange request state client.endpoints.length) := by
  rw [List.range_eq_range'] at h
  have hrun := run_attempt_none h
  rw [← walk_eq, Nat.zero_add] at hrun
  change (client.attempt exchange request.encode client.walk).run state = _ at hrun
  rw [send, run_bind, hrun, ← behind_cursor]
  rfl

/-! ## What an exchange is told -/

theorem stateAt_recorded (step : Nat) :
    client.stateAt (recorded exchange) request (state, []) step =
      (client.stateAt exchange request state step,
        ((List.range step).map client.placeAt).map (client.attemptAt request)) := by
  induction step with
  | zero => rfl
  | succ step ih =>
      rw [stateAt, ih, List.range_succ, List.map_append, List.map_append]
      rfl

private theorem replyAt_recorded (step : Nat) :
    client.replyAt (recorded exchange) request (state, []) step =
      client.replyAt exchange request state step := by
  rw [replyAt, stateAt_recorded]
  rfl

private theorem failsWith_recorded (step : Nat) (failure : Failure) :
    client.FailsWith (recorded exchange) request (state, []) step failure ↔
      client.FailsWith exchange request state step failure := by
  rw [FailsWith, FailsWith, replyAt_recorded]

theorem attempts_of_response {step : Nat} {response : Response}
    (hlt : step < client.endpoints.length)
    (hfail : ∀ earlier < step, ∃ failure, client.FailsWith exchange request state earlier failure)
    (h : Verdict (client.replyAt exchange request state step) (.ok response)) :
    client.attempts exchange request state =
      ((List.range (step + 1)).map client.placeAt).map (client.attemptAt request) := by
  rw [← replyAt_recorded] at h
  have hrun := run_send_of_response hlt
    (by simpa only [failsWith_recorded] using hfail) h
  rw [attempts, hrun, stateAt_recorded]

theorem attempts_of_failures {failures : List Failure}
    (h : List.Forall₂ (client.FailsWith exchange request state)
      (List.range client.endpoints.length) failures) :
    client.attempts exchange request state =
      ((List.range client.endpoints.length).map client.placeAt).map
        (client.attemptAt request) := by
  have hrecorded : client.FailsWith (recorded exchange) request (state, []) =
      client.FailsWith exchange request state := by
    funext step failure
    exact propext (failsWith_recorded step failure)
  rw [← hrecorded] at h
  rw [attempts, run_send_of_failures h, stateAt_recorded]

/--
A call goes along the table from its cursor, tells every endpoint the same and none of
them twice, and ends with the first response, behind which the next call begins.  If there
is none, it reports why of each endpoint in turn and the next call begins one place on.
-/
theorem send_ends_with_first_response (exchange : Exchange (StateM σ)) (client : Client)
    (request : Request) (state : σ) :
    ∃ steps ≤ client.endpoints.length,
      client.attempts exchange request state =
        ((List.range steps).map client.placeAt).map (client.attemptAt request) ∧
      ((List.range steps).map client.placeAt).Nodup ∧
      ((∃ step response, steps = step + 1 ∧
          (∀ earlier < step,
            ∃ failure, client.FailsWith exchange request state earlier failure) ∧
          Verdict (client.replyAt exchange request state step) (.ok response) ∧
          (client.send exchange request).run state =
            ((.ok ⟨client.nameAt (client.placeAt step), response⟩,
              { client with cursor := client.placeAt steps }),
              client.stateAt exchange request state steps)) ∨
        ∃ failures, steps = client.endpoints.length ∧
          List.Forall₂ (client.FailsWith exchange request state) (List.range steps) failures ∧
          (client.send exchange request).run state =
            ((.error (.exhausted failures), { client with cursor := client.placeAt 1 }),
              client.stateAt exchange request state steps)) := by
  rcases first_response_or_failures client exchange request state 0 client.endpoints.length with
    ⟨step, hlt, hfail, response, h⟩ | ⟨failures, h⟩
  · simp only [Nat.zero_add] at hfail h
    refine ⟨step + 1, hlt, attempts_of_response hlt hfail h,
      by rw [List.range_eq_range']; exact client.nodup_places 0 hlt,
      .inl ⟨step, response, rfl, hfail, h, run_send_of_response hlt hfail h⟩⟩
  · rw [← List.range_eq_range'] at h
    exact ⟨client.endpoints.length, le_rfl, attempts_of_failures h,
      by rw [List.range_eq_range']; exact client.nodup_places 0 le_rfl,
      .inr ⟨failures, rfl, h, run_send_of_failures h⟩⟩

end Client

def mishap (timeout : Span) : Nat → Except Fault Bytes
  | 0 => .error (.timeout timeout)
  | 1 => .ok (ofChars ";".toList)
  | _ => .error (.malformedTable "expected value at line 1 column 1")

def mishaps : Exchange (StateM Nat) :=
  fun _ _ timeout made => (mishap timeout made, made + 1)

def mishapClient : Client where
  endpoints :=
    [⟨"A", .localhost, 9001, .stream⟩, ⟨"B", .localhost, 9002, .stream⟩,
      ⟨"C", .localhost, 9003, .datagram⟩]
  cursor := ⟨2, by decide⟩
  timeout := .ofMillis 1500

private theorem replyAt_mishaps (request : Request) (step : Nat) :
    mishapClient.replyAt mishaps request 0 step = mishap (.ofMillis 1500) step := by
  have hstate : mishapClient.stateAt mishaps request 0 step = step := by
    induction step with
    | zero => rfl
    | succ step ih =>
        rw [Client.stateAt, ih]
        rfl
  rw [Client.replyAt, hstate]
  rfl

theorem send_mishaps :
    (mishapClient.send mishaps ⟨.add, 0, 0⟩).run 0 =
      ((.error (.exhausted [⟨"C", "timed out after 1.5s"⟩,
          ⟨"A", "malformed frame: expected field RES"⟩,
          ⟨"B", "serde error expected value at line 1 column 1"⟩]),
        { mishapClient with cursor := ⟨0, by decide⟩ }), 3) := by
  have hframe : Response.decode (ofChars ";".toList) =
      .error (.expectedField "RES") := rfl
  have hlate : (Fault.timeout (.ofMillis 1500)).message = "timed out after 1.5s" := by
    decide +kernel
  obtain ⟨steps, -, -, -, ⟨step, response, -, -, hresponse, -⟩ | ⟨failures, hsteps, hfail, hrun⟩⟩ :=
    Client.send_ends_with_first_response mishaps mishapClient ⟨.add, 0, 0⟩ 0
  · rw [replyAt_mishaps] at hresponse
    match step, hresponse with
    | 1, .response wellFormed => cases hframe.symm.trans wellFormed
  · have hrange : List.range steps = [0, 1, 2] := hsteps ▸ rfl
    rw [hrange] at hfail
    obtain _ | ⟨⟨late, hfirst, rfl, -⟩, _ | ⟨⟨garbled, hsecond, rfl, -⟩,
      _ | ⟨⟨unread, hthird, rfl, -⟩, _ | _⟩⟩⟩ := hfail
    rw [replyAt_mishaps] at hfirst hsecond hthird
    cases hfirst
    cases hthird
    cases hsecond with
    | malformed malformed =>
        cases hframe.symm.trans malformed
        rw [hrun, hsteps, hlate]
        rfl

end RemoteCalc.Failover
