import RemoteCalc.Proofs.Console.Lines
import RemoteCalc.Proofs.Failover.Deadline

/-!
# What an input asks for

The lines of an input ask for calls and say how a session ends, whatever comes of the calls.
A session over the lines makes exactly these calls and ends in that way, unless it breaks
down before.
-/

namespace RemoteCalc.Console

open Failover

/-! ## Scripts -/

def Offers (line : List Char) (operation : Operation) : Prop :=
  ∃ choice, Says line choice ∧ (choice, operation) ∈ offers

/--
The calls that an input asks for in their order, and how a session over it ends.  A line
that chooses an operation takes the next line for its numbers, and another line stands
alone.
-/
inductive Asks : Wire.Bytes → List Wire.Request → Finish → Prop
  | nothing : Asks [] [] .endOfInput
  | unreadable {input rest : Wire.Bytes} (first : Begins input none rest) :
      Asks input [] .unreadableLine
  | exit {input rest : Wire.Bytes} {line : List Char} (first : Begins input (some line) rest)
      (said : Says line 5) : Asks input [] .exited
  | other {input rest : Wire.Bytes} {line : List Char} {requests : List Wire.Request}
      {finish : Finish} (first : Begins input (some line) rest)
      (said : ∀ choice, Says line choice → choice = 0 ∨ 5 < choice)
      (later : Asks rest requests finish) : Asks input requests finish
  | cutOff {input : Wire.Bytes} {line : List Char} {operation : Operation}
      (first : Begins input (some line) []) (offers : Offers line operation) :
      Asks input [] .endOfInput
  | unreadableNumbers {input middle rest : Wire.Bytes} {line : List Char} {operation : Operation}
      (first : Begins input (some line) middle) (offers : Offers line operation)
      (second : Begins middle none rest) : Asks input [] .unreadableLine
  | noCall {input middle rest : Wire.Bytes} {line numbers : List Char} {operation : Operation}
      {requests : List Wire.Request} {finish : Finish}
      (first : Begins input (some line) middle)
      (offers : Offers line operation) (second : Begins middle (some numbers) rest)
      (enters : ∀ lhs rhs, ¬Enters numbers lhs rhs)
      (later : Asks rest requests finish) :
      Asks input requests finish
  | call {input middle rest : Wire.Bytes} {line numbers : List Char} {operation : Operation}
      {lhs rhs : Float} {requests : List Wire.Request} {finish : Finish}
      (first : Begins input (some line) middle) (offers : Offers line operation)
      (second : Begins middle (some numbers) rest) (enters : Enters numbers lhs rhs)
      (later : Asks rest requests finish) :
      Asks input (⟨operation, lhs, rhs⟩ :: requests) finish

private theorem offers_cases (choice : Nat) :
    choice = 5 ∨ (∃ operation, (choice, operation) ∈ offers) ∨
      choice = 0 ∨ 5 < choice := by
  match choice with
  | 0 => exact .inr (.inr (.inl rfl))
  | 1 => exact .inr (.inl ⟨.add, by decide⟩)
  | 2 => exact .inr (.inl ⟨.subtract, by decide⟩)
  | 3 => exact .inr (.inl ⟨.multiply, by decide⟩)
  | 4 => exact .inr (.inl ⟨.divide, by decide⟩)
  | 5 => exact .inl rfl
  | choice + 6 => exact .inr (.inr (.inr (by omega)))

private theorem choice_cases (line : List Char) :
    Says line 5 ∨ (∃ operation, Offers line operation) ∨
      ∀ choice, Says line choice → choice = 0 ∨ 5 < choice := by
  cases hchoice : choice? line with
  | none =>
      refine .inr (.inr fun choice hsays => ?_)
      rw [choice?_eq_some_iff.mpr hsays] at hchoice
      contradiction
  | some said =>
      have hsaid := choice?_eq_some_iff.mp hchoice
      rcases offers_cases said with rfl | ⟨operation, hoffers⟩ | hother
      · exact .inl hsaid
      · exact .inr (.inl ⟨operation, said, hsaid, hoffers⟩)
      · refine .inr (.inr fun choice hsays => ?_)
        rw [choice?_eq_some_iff.mpr hsays] at hchoice
        obtain rfl := Option.some.inj hchoice
        exact hother

theorem exists_asks (input : Wire.Bytes) :
    ∃ requests finish, Asks input requests finish := by
  by_cases hnil : input = []
  · exact ⟨[], .endOfInput, hnil ▸ .nothing⟩
  obtain ⟨line | line, rest, hfirst, hshorter⟩ := exists_begins hnil
  · exact ⟨[], .unreadableLine, .unreadable hfirst⟩
  rcases choice_cases line with hexit | ⟨operation, hoffers⟩ | hother
  · exact ⟨[], .exited, .exit hfirst hexit⟩
  · by_cases hrest : rest = []
    · exact ⟨[], .endOfInput, .cutOff (hrest ▸ hfirst) hoffers⟩
    obtain ⟨numbers | numbers, later, hsecond, hless⟩ := exists_begins hrest
    · exact ⟨[], .unreadableLine, .unreadableNumbers hfirst hoffers hsecond⟩
    obtain ⟨requests, finish, hlater⟩ := exists_asks later
    by_cases henters : ∃ lhs rhs, Enters numbers lhs rhs
    · obtain ⟨lhs, rhs, henters⟩ := henters
      exact ⟨_, finish, .call hfirst hoffers hsecond henters hlater⟩
    · push Not at henters
      exact ⟨requests, finish, .noCall hfirst hoffers hsecond henters hlater⟩
  · obtain ⟨requests, finish, hlater⟩ := exists_asks rest
    exact ⟨requests, finish, .other hfirst hother hlater⟩
termination_by input.length

/-! ## What a line leads to -/

theorem hear_exit {line : List Char} (h : Says line 5) :
    Stage.choosing.hear (some line) = (goodbye, .finish .exited) := by
  rw [Stage.hear, choose, choice?_eq_some_iff.mpr h]
  rfl

private theorem hear_offers {line : List Char} {operation : Operation}
    (h : Offers line operation) :
    Stage.choosing.hear (some line) = ("", .ask (.entering operation)) := by
  obtain ⟨choice, hsays, hoffers⟩ := h
  have hexit : choice ≠ exitChoice := by
    rintro rfl
    cases operation <;> simp [exitChoice, offers] at hoffers
  rw [Stage.hear, choose, choice?_eq_some_iff.mpr hsays]
  simp only [if_neg hexit, operation?_eq_some_iff.mpr hoffers]

private theorem hear_other {line : List Char}
    (h : ∀ choice, Says line choice → choice = 0 ∨ 5 < choice) :
    ∃ remark, Stage.choosing.hear (some line) = (remark, .ask .choosing) := by
  rw [Stage.hear, choose]
  cases hchoice : choice? line with
  | none => exact ⟨_, rfl⟩
  | some choice =>
      have hsaid := h choice (choice?_eq_some_iff.mp hchoice)
      have hexit : choice ≠ exitChoice := by
        rintro rfl
        simp [exitChoice] at hsaid
      have hnone : operation? choice = none := by
        cases hoperation : operation? choice with
        | none => rfl
        | some operation =>
            have hoffers := operation?_eq_some_iff.mp hoperation
            simp [offers] at hoffers
            omega
      simp only [if_neg hexit, hnone]
      exact ⟨_, rfl⟩

private theorem hear_enters {line : List Char} {lhs rhs : Float}
    (h : Enters line lhs rhs) (operation : Operation) :
    (Stage.entering operation).hear
    (some line) = ("", .call ⟨operation, lhs, rhs⟩) := by
  rw [Stage.hear, enter, operands?_eq_some_iff.mpr h]

private theorem hear_noNumbers {line : List Char} (h : ∀ lhs rhs, ¬Enters line lhs rhs)
    (operation : Operation) :
    (Stage.entering operation).hear (some line) = (notTwoNumbers, .ask .choosing) := by
  rw [Stage.hear, enter]
  cases hoperands : operands? line with
  | none => rfl
  | some operands => exact absurd (operands?_eq_some_iff.mp hoperands) (h _ _)

/-! ## Sessions -/

variable {σ : Type}

section Steps

variable (exchange : Exchange (ExceptT Breakdown (StateM σ))) (client : Client)
  {stage : Stage} {line : Line} {remark : String} {state after : σ}

private theorem run_session_ask {next : Stage}
    (h : stage.hear line = (remark, .ask next)) (rest : List Line) (state : σ) :
    (session exchange client stage (line :: rest)).run state =
      (.after (stage.question ++ remark) [] ((session exchange client next rest).run state).1,
        ((session exchange client next rest).run state).2) := by
  rw [session, h]
  rfl

private theorem run_session_offers {input rest : Wire.Bytes} {chosen : List Char}
    {operation : Operation}
    (first : Begins input (some chosen) rest) (offers : Offers chosen operation)
    (state : σ) :
    ∃ shown, (session exchange client .choosing (linesOf input)).run state =
      (.after shown []
          ((session exchange client (.entering operation) (linesOf rest)).run state).1,
        ((session exchange client (.entering operation) (linesOf rest)).run state).2) := by
  rw [first.linesOf_eq, run_session_ask exchange client (hear_offers offers)]
  exact ⟨_, rfl⟩

private theorem run_session_finish {finish : Finish}
    (h : stage.hear line = (remark, .finish finish))
    (rest : List Line) (state : σ) :
    (session exchange client stage (line :: rest)).run state =
      (⟨stage.question ++ remark, [], finish⟩, state) := by
  rw [session, h]
  rfl

private theorem run_session_call {request : Wire.Request}
    (h : stage.hear line = (remark, .call request))
    {result : Except (List Failure) Answer} {next : Client}
    (hsend : (client.send exchange request).run.run state =
      (.ok (result.mapError .exhausted, next), after)) (rest : List Line) :
    ∃ shown, (session exchange client stage (line :: rest)).run state =
      (.after shown [⟨request, result.mapError .exhausted⟩]
          ((session exchange next .choosing rest).run after).1,
        ((session exchange next .choosing rest).run after).2) := by
  obtain ⟨text, htext⟩ : ∃ text, showAnswer (result.mapError .exhausted) =
      .ok text := by
    cases result with
    | ok answer => exact ⟨_, rfl⟩
    | error failures => exact ⟨_, rfl⟩
  refine ⟨stage.question ++ remark ++ text, ?_⟩
  rw [session, h]
  simp only [run_bind, hsend, htext]
  rfl

private theorem run_session_broken {request : Wire.Request}
    (h : stage.hear line = (remark, .call request))
    {cause : Breakdown}
    (hsend : (client.send exchange request).run.run state = (.error cause, after))
    (rest : List Line) :
    (session exchange client stage (line :: rest)).run state =
      (⟨stage.question ++ remark, [], .broken cause⟩, after) := by
  rw [session, h]
  simp only [run_bind, hsend]
  rfl

end Steps

variable {client : Client} {exchange : Exchange (StateM σ)}

/-! ## Sessions that do not break down -/

/--
A session makes the calls, one after the other, and no others, and then it ends.  Each call
has an answer or has failed at all endpoints, and its attempts have been written down.
-/
structure Performs (exchange : Exchange (StateM σ)) (client : Client)
    (state : σ × List Attempt) (requests : List Wire.Request) (finish : Finish)
    (ended : Transcript × σ × List Attempt) :
    Prop where
  asked : ended.1.calls.map Call.request = requests
  results : ended.1.calls.map Call.result =
    (client.calls exchange state.1 requests).map Failover.Call.outcome
  attempts : ended.2.2 =
    state.2 ++ (client.calls exchange state.1 requests).flatMap Failover.Call.attempts
  exhausted : ∀ call ∈ ended.1.calls, ∀ fault, call.result = .error fault →
    ∃ failures, fault = .exhausted failures
  finish : ended.1.finish = finish

namespace Performs

variable {state : σ × List Attempt} {requests : List Wire.Request} {finish : Finish}
  {ended : Transcript × σ × List Attempt}

theorem nothing (shown : String) : Performs exchange client state [] finish
    (⟨shown, [], finish⟩, state) where
  asked := rfl
  results := rfl
  attempts := (List.append_nil _).symm
  exhausted := List.forall_mem_nil _
  finish := rfl

theorem after (h : Performs exchange client state requests finish ended)
    (shown : String) :
    Performs exchange client state requests finish (.after shown [] ended.1, ended.2) :=
  ⟨h.asked, h.results, h.attempts, h.exhausted, h.finish⟩

theorem call {request : Wire.Request} {result : Except (List Failure) Answer}
    {next : Client} {after : σ} (hsend : (client.send exchange request).run state.1 =
      ((result.mapError .exhausted, next), after))
    (h : Performs exchange next (after, state.2 ++ client.attempts exchange request state.1)
      requests finish ended) (shown : String) :
    Performs exchange client state (request :: requests) finish
      (.after shown [⟨request, result.mapError .exhausted⟩] ended.1, ended.2) := by
  have hcalls : client.calls exchange state.1 (request :: requests) =
      ⟨result.mapError .exhausted, client.attempts exchange request state.1⟩ ::
        next.calls exchange after requests := by
    rw [Client.calls, hsend]
  refine ⟨congrArg (request :: ·) h.asked, ?_, ?_, ?_, h.finish⟩
  · rw [hcalls]
    exact congrArg (result.mapError .exhausted :: ·) h.results
  · rw [hcalls, List.flatMap_cons, ← List.append_assoc]
    exact h.attempts
  · refine List.forall_mem_cons.mpr ⟨?_, h.exhausted⟩
    intro fault hfault
    cases result with
    | ok answer => contradiction
    | error failures => exact ⟨failures, (Except.error.inj hfault).symm⟩

end Performs

/-- A session makes the calls that its input asks for and ends as the input says. -/
theorem Asks.performs {input : Wire.Bytes} {requests : List Wire.Request}
    {finish : Finish} (h : Asks input requests finish)
    {lifted : Exchange (ExceptT Breakdown (StateM (σ × List Attempt)))}
    (hcarries : client.Carries (recorded exchange) lifted) (state : σ × List Attempt) :
    Performs exchange client state requests finish
      ((session lifted client .choosing (linesOf input)).run state) := by
  induction h generalizing client state with
  | nothing =>
      rw [linesOf_nil]
      exact .nothing _
  | unreadable first =>
      rw [first.linesOf_eq, run_session_finish lifted client rfl]
      exact .nothing _
  | exit first said =>
      rw [first.linesOf_eq, run_session_finish lifted client (hear_exit said)]
      exact .nothing _
  | other first said later ih =>
      obtain ⟨remark, hremark⟩ := hear_other said
      rw [first.linesOf_eq, run_session_ask lifted client hremark]
      exact (ih hcarries state).after _
  | cutOff first offers =>
      obtain ⟨_, hfirst⟩ := run_session_offers lifted client first offers state
      rw [hfirst, linesOf_nil]
      exact .nothing _
  | unreadableNumbers first offers second =>
      obtain ⟨_, hfirst⟩ := run_session_offers lifted client first offers state
      rw [hfirst, second.linesOf_eq, run_session_finish lifted client rfl]
      exact .nothing _
  | noCall first offers second enters later ih =>
      obtain ⟨_, hfirst⟩ := run_session_offers lifted client first offers state
      rw [hfirst, second.linesOf_eq,
        run_session_ask lifted client (hear_noNumbers enters _)]
      exact ((ih hcarries state).after _).after _
  | @call _ _ _ _ _ operation lhs rhs requests finish first offers second enters later ih =>
      obtain ⟨result, cursor, after, hsend⟩ :=
        client.run_send_cases exchange ⟨operation, lhs, rhs⟩ state.1
      have hrecorded := client.run_send_recorded exchange ⟨operation, lhs, rhs⟩ state.1 state.2
      rw [hsend] at hrecorded
      have hlifted : (client.send lifted ⟨operation, lhs, rhs⟩).run.run state =
          (.ok (result.mapError .exhausted, { client with cursor }),
            after, state.2 ++ client.attempts exchange ⟨operation, lhs, rhs⟩ state.1) := by
        rw [hcarries.run_send]
        exact congrArg (fun ended => (Except.ok ended.1, ended.2)) hrecorded
      obtain ⟨_, hfirst⟩ := run_session_offers lifted client first offers state
      obtain ⟨shown, hcall⟩ :=
        run_session_call lifted client (hear_enters enters operation) hlifted (linesOf _)
      rw [hfirst, second.linesOf_eq, hcall]
      -- The next call has the same table and timeout, so that it does not break down either.
      have hlater := @ih { client with cursor } hcarries
        (after, state.2 ++ client.attempts exchange ⟨operation, lhs, rhs⟩ state.1)
      exact (Performs.call hsend hlater shown).after _

/-! ## Sessions that break down -/

theorem Asks.session_breaks_down {input : Wire.Bytes} {requests : List Wire.Request}
    {finish : Finish} (h : Asks input requests finish) (hcalls : requests ≠ [])
    (hdeaf : IsDeaf exchange) {now : Span} (hreach : ¬client.InReach now) (state : σ) :
    ∃ shown cause after,
      (session (timed (fun _ => now) exchange) client .choosing (linesOf input)).run state =
        (⟨shown, [], .broken cause⟩, after) := by
  induction h with
  | nothing | unreadable | exit | cutOff | unreadableNumbers => contradiction
  | other first said later ih =>
      obtain ⟨remark, hremark⟩ := hear_other said
      obtain ⟨shown, cause, after, hrun⟩ := ih hcalls
      rw [first.linesOf_eq, run_session_ask _ client hremark, hrun]
      exact ⟨_, cause, after, rfl⟩
  | noCall first offers second enters later ih =>
      obtain ⟨_, hfirst⟩ := run_session_offers _ client first offers state
      obtain ⟨shown, cause, after, hrun⟩ := ih hcalls
      rw [hfirst, second.linesOf_eq,
        run_session_ask _ client (hear_noNumbers enters _), hrun]
      exact ⟨_, cause, after, rfl⟩
  | @call _ _ _ _ _ operation lhs rhs _ _ first offers second enters later _ =>
      obtain ⟨cause, after, hsend⟩ :=
        Client.send_breaks_down hdeaf hreach ⟨operation, lhs, rhs⟩ state
      obtain ⟨_, hfirst⟩ := run_session_offers _ client first offers state
      rw [hfirst, second.linesOf_eq,
        run_session_broken _ client (hear_enters enters operation) hsend]
      exact ⟨_, cause, after, rfl⟩

end RemoteCalc.Console
