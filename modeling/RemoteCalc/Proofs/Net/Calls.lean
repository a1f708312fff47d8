import RemoteCalc.Proofs.Failover.Deadline
import RemoteCalc.Proofs.Lists
import RemoteCalc.Proofs.Net.Exchange

/-!
# Calls over a network

A client has a table in which at least one endpoint is that of a calculator, and the others
give no response.  As long as no attempt breaks down every call succeeds, whatever servers
the calculators are, and the calculators are called in turn.
-/

namespace RemoteCalc.Net

open Wire Directory Failover

def Network.HasCalculator (network : Network) (endpoint : Endpoint) : Prop :=
  ∃ service, IsCalculator endpoint.transport (network.remote endpoint) service

/--
The client has time and a route; at the other end of each of its endpoints is a calculator
or none that gives a response, and of at least one a calculator.
-/
structure Network.Hosts (network : Network) (client : Client) : Prop where
  route : network.hasRoute = true
  timed : client.timeout.nanos ≠ 0
  each : ∀ endpoint ∈ client.endpoints,
    network.HasCalculator endpoint ∨
      IsUseless endpoint.transport (network.remote endpoint)
  some : ∃ endpoint ∈ client.endpoints, network.HasCalculator endpoint

/--
Each call is answered by the first calculator from the cursor on, and the next call goes on
behind it.  The response is the answer of that calculator, which is the answer of every
other service but for the tag.
-/
inductive Network.AnsweredInTurn (network : Network) :
    Client → List Request → List (Except Fault Answer) → Prop
  | nil (client : Client) : network.AnsweredInTurn client [] []
  | cons {client : Client} {request : Request} {rest : List Request}
      {outcomes : List (Except Fault Answer)} {step : Nat} {service : Service}
      {response : Response} (within : step < client.endpoints.length)
      (earlier : ∀ before < step,
        ¬network.HasCalculator (client.endpoints.get (client.placeAt before)))
      (first : IsCalculator (client.endpoints.get (client.placeAt step)).transport
        (network.remote (client.endpoints.get (client.placeAt step))) service)
      (answer : service.IsAnswer request response)
      (alike : ∀ other response', Service.IsAnswer other request response' →
        response'.error = response.error ∧
          response'.result.toBits = response.result.toBits)
      (later : network.AnsweredInTurn { client with cursor := client.placeAt (step + 1) } rest
        outcomes) :
      network.AnsweredInTurn client (request :: rest)
        (.ok ⟨client.nameAt (client.placeAt step), response⟩ :: outcomes)

namespace Network

variable {network : Network} {course : Course} {client : Client} {request : Request}
  {requests : List Request}

private theorem Hosts.atCursor (hosts : network.Hosts client)
    (cursor : Fin client.endpoints.length) :
    network.Hosts { client with cursor } :=
  ⟨hosts.route, hosts.timed, hosts.each, hosts.some⟩

private theorem not_hasCalculator_of_fails (hosts : network.Hosts client)
    (hexit : request.operation ≠ .exit) {made step : Nat} {failure : Failure}
    (h : client.FailsWith (network.untimed course) request made step failure) :
    ¬network.HasCalculator (client.endpoints.get (client.placeAt step)) := by
  rintro ⟨service, hcalculator⟩
  obtain ⟨fault, hverdict, -⟩ := h
  have haccept := hverdict.eq_accept
  rw [Client.replyAt, Client.attemptAt, Attempt.make,
    accept_untimed_of_calculator hosts.route hosts.timed hcalculator hexit] at haccept
  contradiction

private theorem not_all_fail (hosts : network.Hosts client)
    (hexit : request.operation ≠ .exit) {made : Nat} (failures : List Failure) :
    ¬List.Forall₂ (client.FailsWith (network.untimed course) request made)
      (List.range' 0 client.endpoints.length) failures := by
  intro hfailures
  obtain ⟨endpoint, hmem, hcalculator⟩ := hosts.some
  obtain ⟨place, rfl⟩ := List.get_of_mem hmem
  obtain ⟨step, hlt, rfl⟩ := client.exists_step 0 place
  have hstep : (List.range' 0 client.endpoints.length)[step]? =
      Option.some (0 + step) := by
    rw [List.getElem?_range' hlt, Nat.one_mul]
  obtain ⟨failure, -, hfails⟩ := forall₂_getElem? hfailures hstep
  exact not_hasCalculator_of_fails hosts hexit hfails hcalculator

private theorem exists_service_of_response (hosts : network.Hosts client)
    (hexit : request.operation ≠ .exit) {made step : Nat} {response : Response}
    (h : Verdict (client.replyAt (network.untimed course) request made step) (.ok response)) :
    ∃ service, IsCalculator (client.endpoints.get (client.placeAt step)).transport
        (network.remote (client.endpoints.get (client.placeAt step))) service ∧
      response = (service.respond request).cleaned := by
  have haccept := h.eq_accept
  rw [Client.replyAt, Client.attemptAt, Attempt.make] at haccept
  rcases hosts.each (client.endpoints.get (client.placeAt step)) (List.get_mem _ _) with
    ⟨service, hcalculator⟩ | huseless
  · rw [accept_untimed_of_calculator hosts.route hosts.timed hcalculator hexit] at haccept
    exact ⟨service, hcalculator, (Except.ok.inj haccept).symm⟩
  · obtain ⟨fault, hfault⟩ :=
      accept_untimed_of_useless hosts.route hosts.timed huseless request.encode _
    rw [hfault] at haccept
    contradiction

private theorem exists_run_send (hosts : network.Hosts client) (course : Course)
    (hexit : request.operation ≠ .exit) (made : Nat) :
    ∃ step < client.endpoints.length, ∃ service,
      (∀ before < step,
        ¬network.HasCalculator (client.endpoints.get (client.placeAt before))) ∧
      IsCalculator (client.endpoints.get (client.placeAt step)).transport
        (network.remote (client.endpoints.get (client.placeAt step))) service ∧
      ∃ after, (client.send (network.untimed course) request).run made =
        ((.ok ⟨client.nameAt (client.placeAt step), (service.respond request).cleaned⟩,
          { client with cursor := client.placeAt (step + 1) }), after) := by
  rcases client.first_response_or_failures (network.untimed course) request made 0
    client.endpoints.length with ⟨step, hlt, hearlier, response, hresponse⟩ | ⟨failures, hfailures⟩
  · simp only [Nat.zero_add] at hearlier hresponse
    obtain ⟨service, hcalculator, rfl⟩ :=
      exists_service_of_response hosts hexit hresponse
    refine ⟨step, hlt, service, fun before hbefore => ?_, hcalculator, _,
      Client.run_send_of_response hlt hearlier hresponse⟩
    obtain ⟨failure, hfails⟩ := hearlier before hbefore
    exact not_hasCalculator_of_fails hosts hexit hfails
  · exact absurd hfailures (not_all_fail hosts hexit failures)

private theorem exists_sendAll (hosts : network.Hosts client)
    (hreach : ∀ made, client.InReach (course.clock made))
    (hrequests : ∀ request ∈ requests, request.operation ≠ .exit) (made : Nat) :
    ∃ outcomes after,
      (client.sendAll (network.exchange course) requests).run.run made = (.ok outcomes, after) ∧
        network.AnsweredInTurn client requests outcomes := by
  induction requests generalizing client made with
  | nil => exact ⟨[], made, rfl, .nil client⟩
  | cons request rest ih =>
      obtain ⟨hexit, hrest⟩ := List.forall_mem_cons.mp hrequests
      obtain ⟨step, hlt, service, hearlier, hcalculator, after, hrun⟩ :=
        exists_run_send hosts course hexit made
      have hsend : (client.send (network.exchange course) request).run.run made =
          (.ok (.ok ⟨client.nameAt (client.placeAt step), (service.respond request).cleaned⟩,
            { client with cursor := client.placeAt (step + 1) }), after) := by
        rw [exchange, (Client.carries_timed hreach).run_send]
        exact congrArg (fun ended => (Except.ok ended.1, ended.2)) hrun
      -- The next call has the same table, and so the same endpoints tell their deadlines.
      obtain ⟨outcomes, last, houtcomes, hturn⟩ :=
        ih (hosts.atCursor (client.placeAt (step + 1))) hreach hrest after
      refine ⟨_ :: outcomes, last, ?_, .cons hlt hearlier hcalculator
        (service.isAnswer_cleaned_respond hexit)
        (fun _ _ hother => (service.isAnswer_cleaned_respond hexit).alike hother) hturn⟩
      rw [Client.sendAll, ExceptT.run_bind, run_bind, hsend]
      simp only [ExceptT.run_bind, run_bind, houtcomes]
      rfl

private theorem calls_of_first_deadline (network : Network) {cause : Breakdown}
    (h : deadlineAt (course.clock 0) (client.endpoints.get client.cursor) client.timeout =
      .error cause) (request : Request) :
    network.calls course client [request] = .error cause := by
  have hsend : (client.send (network.exchange course) request).run.run 0 =
      (.error cause, 0) :=
    Client.send_of_first_deadline h request
  rw [calls, Client.sendAll, ExceptT.run_bind, run_bind, hsend]
  rfl

/--
Calls up to a moment all succeed and are answered in turn, wherever the first begins, if
and only if there is no stream in the table or the clock can tell when an attempt has to be
over that begins at that moment.
-/
theorem answered_in_turn_iff (hosts : network.Hosts client) (last : Span) :
    (∀ cursor course requests, (∀ made, (course.clock made).nanos ≤ last.nanos) →
      (∀ request ∈ requests, request.operation ≠ .exit) →
        ∃ outcomes, network.calls course { client with cursor } requests = .ok outcomes ∧
          network.AnsweredInTurn { client with cursor } requests outcomes) ↔
      (∀ endpoint ∈ client.endpoints, endpoint.transport = .datagram) ∨
        ∃ moment, Clock.after last client.timeout = .ok moment := by
  rw [← Client.inReach_iff]
  constructor
  · intro hcalls endpoint hmem
    obtain ⟨place, rfl⟩ := List.get_of_mem hmem
    cases hdeadline : deadlineAt last (client.endpoints.get place) client.timeout with
    | ok deadline => exact ⟨deadline, rfl⟩
    | error cause =>
        obtain ⟨outcomes, houtcomes, -⟩ := hcalls place ⟨fun _ => last, fun _ => []⟩
          [⟨.add, 0, 0⟩] (fun _ => Nat.le_refl _) (by simp)
        have hbreaks : network.calls ⟨fun _ => last, fun _ => []⟩
            { client with cursor := place } [⟨.add, 0, 0⟩] = .error cause :=
          calls_of_first_deadline network hdeadline _
        rw [hbreaks] at houtcomes
        contradiction
  · intro hreach cursor course requests hclock hrequests
    obtain ⟨outcomes, after, hrun, hturn⟩ := exists_sendAll (hosts.atCursor cursor)
      (fun made => Client.InReach.of_le hreach (hclock made)) hrequests 0
    exact ⟨outcomes, congrArg Prod.fst hrun, hturn⟩

def mixedNetwork : Network where
  hasRoute := true
  remote endpoint :=
    match endpoint.transport, endpoint.port with
    | .stream, 9001 => .canned (ofChars ";;;".toList)
    | .datagram, 9002 => .silent
    | .stream, 9003 => .server ⟨.pooled, .stream, 2, ⟨"x;y"⟩⟩
    | .datagram, 9004 => .server ⟨.reactor, .datagram, 0, ⟨"z"⟩⟩
    | _, _ => .down

def mixedClient : Client where
  endpoints :=
    [⟨"A", .localhost, 9001, .stream⟩, ⟨"B", .localhost, 9002, .datagram⟩,
      ⟨"C", .localhost, 9003, .stream⟩, ⟨"D", .localhost, 9004, .datagram⟩]
  cursor := ⟨0, Nat.succ_pos _⟩
  timeout := .ofSeconds 5

private theorem hosts_mixedClient : mixedNetwork.Hosts mixedClient where
  route := rfl
  timed := by decide
  each endpoint hmem := by
    simp only [mixedClient, List.mem_cons, List.not_mem_nil, or_false] at hmem
    rcases hmem with rfl | rfl | rfl | rfl
    · refine .inr (.cannedStream fun length found => ?_)
      cases found
      exact ⟨_, rfl⟩
    · exact .inr (.silent _)
    · exact .inl ⟨⟨"x;y"⟩, .intro rfl rfl⟩
    · exact .inl ⟨⟨"z"⟩, .intro rfl rfl⟩
  some := ⟨⟨"D", .localhost, 9004, .datagram⟩, by simp [mixedClient], ⟨"z"⟩, .intro rfl rfl⟩

def mixedCourse : Course where
  clock made := .ofMillis (500 * min made 2)
  pieces _ := [0, 2]

private theorem clock_mixedCourse (made : Nat) :
    (mixedCourse.clock made).nanos ≤ (Span.ofSeconds 1).nanos := by
  simp only [mixedCourse, Span.ofMillis, Span.ofSeconds, Span.ofParts]
  omega

/-- From the start of the table on, C is the first to answer. -/
theorem division_of_mixedClient :
    mixedNetwork.Hosts mixedClient ∧
      ∃ response, mixedNetwork.calls mixedCourse mixedClient [⟨.divide, 1, 0⟩] =
          .ok [.ok ⟨"C", response⟩] ∧
        response.error = Option.some "Division by zero" ∧ response.tag = "x,y" := by
  have hreach : ∃ moment, Clock.after (.ofSeconds 1) mixedClient.timeout = .ok moment :=
    Clock.exists_after_iff.mpr (by decide)
  obtain ⟨outcomes, houtcomes, hturn⟩ :=
    (answered_in_turn_iff hosts_mixedClient (.ofSeconds 1)).mpr (.inr hreach) ⟨0, Nat.succ_pos _⟩
      mixedCourse [⟨.divide, 1, 0⟩] clock_mixedCourse (by simp)
  refine ⟨hosts_mixedClient, ?_⟩
  cases hturn with
  | @cons _ _ _ _ step service response within earlier first answer alike later =>
      cases later
      have hfirst : IsCalculator .stream (.server ⟨.pooled, .stream, 2, ⟨"x;y"⟩⟩) ⟨"x;y"⟩ :=
        .intro rfl rfl
      obtain rfl | rfl | rfl | hbehind : step = 0 ∨ step = 1 ∨ step = 2 ∨
          2 < step := by omega
      · change IsCalculator .stream (.canned _) service at first
        contradiction
      · change IsCalculator .datagram .silent service at first
        contradiction
      · change IsCalculator .stream (.server ⟨.pooled, .stream, 2, ⟨"x;y"⟩⟩) service at first
        have hzero : Operation.divide = .divide ∧ IsZero 0 := by decide +kernel
        have houtcome := answer.outcome
        rw [if_pos hzero] at houtcome
        cases first
        exact ⟨response, houtcomes, houtcome.1, answer.tag.trans (by decide)⟩
      · exact absurd ⟨_, hfirst⟩ (earlier 2 hbehind)

def farClient : Client where
  endpoints := [⟨"A", .localhost, 9003, .stream⟩]
  cursor := ⟨0, Nat.succ_pos _⟩
  timeout := .ofSeconds 9223372036854775807

private theorem hosts_farClient : mixedNetwork.Hosts farClient where
  route := rfl
  timed := by decide
  each endpoint hmem := by
    obtain rfl := List.mem_singleton.mp hmem
    exact .inl ⟨⟨"x;y"⟩, .intro rfl rfl⟩
  some := ⟨_, List.mem_singleton_self _, ⟨"x;y"⟩, .intro rfl rfl⟩

theorem farClient_breaks_down :
    ¬∀ (network : Network) (course : Course) (client : Client), network.Hosts client →
      ∀ requests : List Request, (∀ request ∈ requests, request.operation ≠ .exit) →
        ∃ outcomes, network.calls course client requests = .ok outcomes ∧
          network.AnsweredInTurn client requests outcomes := by
  intro hcalls
  have hclock : Clock.after (.ofSeconds 1) farClient.timeout =
      .error .momentOutOfReach :=
    Clock.after_of_limit_le (by decide)
  have hdeadline : deadlineAt (.ofSeconds 1) (farClient.endpoints.get farClient.cursor)
      farClient.timeout = .error .momentOutOfReach := by
    rw [deadlineAt_of_stream rfl, hclock]
    rfl
  have hbreaks : mixedNetwork.calls ⟨fun _ => .ofSeconds 1, fun _ => []⟩ farClient
      [⟨.add, 1, 1⟩] = .error .momentOutOfReach := calls_of_first_deadline _ hdeadline _
  obtain ⟨outcomes, houtcomes, -⟩ :=
    hcalls mixedNetwork ⟨fun _ => .ofSeconds 1, fun _ => []⟩ farClient hosts_farClient
      [⟨.add, 1, 1⟩] (by simp)
  rw [hbreaks] at houtcomes
  contradiction

end Network

end RemoteCalc.Net
