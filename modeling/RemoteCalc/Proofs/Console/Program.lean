import RemoteCalc.Console.Client
import RemoteCalc.Proofs.Console.Script
import RemoteCalc.Proofs.Directory.Table

/-!
# Runs of the client program

The program makes the calls that its input asks for, whatever comes of them, and its exit
code says whether it has read a line that is not text.  It does so as long as the clock can
tell when an attempt has to be over.
-/

namespace RemoteCalc.Console

open Failover Directory

variable {σ : Type}

/-! ## Starting -/

def ClientOptions.clientOf (options : ClientOptions) {table : List Endpoint}
    (h : table ≠ []) : Client :=
  ⟨table, ⟨0, List.length_pos_iff.mpr h⟩, options.span⟩

variable {libraries : Libraries} {files : Files} {args : List String}
  {options : ClientOptions} {table : List Endpoint}

private theorem startClient_of_table (hoptions : libraries.parse args = .ok options)
    (htable : loadEndpoints libraries.json files options = .ok table)
    (hne : table ≠ []) :
    startClient libraries files args = .ok (options.clientOf hne) := by
  have hclient : prepareClient libraries.json files options =
      .ok (options.clientOf hne) := by
    rw [prepareClient, htable]
    change (Client.ofTable table >>= _) = _
    rw [Client.ofTable, dif_pos (List.length_pos_iff.mpr hne)]
    rfl
  rw [startClient, hoptions]
  simp only [hclient]
  rfl

/-! ## Running -/

/-- The exchange with deadlines that writes down all that it is told. -/
def watched (clock : σ → Span) (exchange : Exchange (StateM σ)) :
    Exchange (ExceptT Breakdown (StateM (σ × List Attempt))) :=
  timed (fun state => clock state.1) (recorded exchange)

section Runs

variable (clock : σ → Span) (exchange : Exchange (StateM σ)) (state : σ)
  (input : Wire.Bytes)

def sessionOf (client : Client) : Transcript × σ × List Attempt :=
  (session (watched clock exchange) client .choosing (linesOf input)).run (state, [])

def runOf (libraries : Libraries) (files : Files) (args : List String) :
    Outcome × σ × List Attempt :=
  (runClient libraries files (watched clock exchange) args input).run (state, [])

private theorem runOf_eq {client : Client}
    (h : startClient libraries files args = .ok client) :
    runOf clock exchange state input libraries files args =
      (finishClient (sessionOf clock exchange state input client).1.shown
          (sessionOf clock exchange state input client).1.finish,
        (sessionOf clock exchange state input client).2) := by
  rw [runOf, runClient, h]
  rfl

/--
The run makes exactly the calls that its input asks for, none of which ends it, and it is a
failure if and only if its session comes to a line that is not text.
-/
structure RunsAsAsked (libraries : Libraries) (files : Files) (args : List String)
    (client : Client) : Prop where
  asks : ∃ requests finish, Asks input requests finish
  performs : ∀ requests finish, Asks input requests finish →
    Performs exchange client (state, []) requests finish
      (sessionOf clock exchange state input client)
  told : (runOf clock exchange state input libraries files args).2 =
    (sessionOf clock exchange state input client).2
  exitCode : ∀ requests finish, Asks input requests finish →
    (runOf clock exchange state input libraries files args).1.exitCode =
      if finish = .unreadableLine then 1 else 0

end Runs

theorem Asks.exitCode {input : Wire.Bytes} {requests : List Wire.Request}
    {finish : Finish} (h : Asks input requests finish) (shown : String) :
    (finishClient shown finish).exitCode = if finish = .unreadableLine then 1 else 0 := by
  induction h with
  | nothing | unreadable | exit | cutOff | unreadableNumbers => rfl
  | other _ _ _ ih | noCall _ _ _ _ _ ih | call _ _ _ _ _ ih => exact ih

private theorem runsAsAsked {client : Client}
    (hstart : startClient libraries files args = .ok client)
    {clock : σ → Span} (hreach : ∀ state, client.InReach (clock state))
    (exchange : Exchange (StateM σ)) (state : σ) (input : Wire.Bytes) :
    RunsAsAsked clock exchange state input libraries files args client := by
  have hperforms {requests : List Wire.Request} {finish : Finish}
      (h : Asks input requests finish) :
      Performs exchange client (state, []) requests finish
        (sessionOf clock exchange state input client) :=
    h.performs (Client.carries_timed fun state => hreach state.1) (state, [])
  refine ⟨exists_asks input, fun _ _ => hperforms, ?_, ?_⟩
  · rw [runOf_eq clock exchange state input hstart]
  · intro requests finish h
    rw [runOf_eq clock exchange state input hstart, (hperforms h).finish]
    exact h.exitCode _

/-! ## Runs that break down -/

def sumInput : Wire.Bytes :=
  utf8 ['1'] ++ lineFeed :: (utf8 ['1', ' ', '1'] ++ lineFeed :: (utf8 ['5'] ++ lineFeed :: []))

private theorem begins_utf8 {text : List Char} (free : lineFeed ∉ utf8 text)
    (bare : (utf8 text).getLast? ≠ some carriageReturn) (rest : Wire.Bytes) :
    Begins (utf8 text ++ lineFeed :: rest) (some text) rest := by
  have hdecode : decodeLine (utf8 text) = some text := decodeText?_eq_some_iff.mpr rfl
  exact hdecode ▸ Begins.fed free bare

private theorem exists_asks_sumInput :
    ∃ lhs rhs, Asks sumInput [⟨.add, lhs, rhs⟩] .exited := by
  have hnumbers : (operands? ['1', ' ', '1']).isSome = true := by decide +kernel
  obtain ⟨⟨lhs, rhs⟩, hnumbers⟩ := Option.isSome_iff_exists.mp hnumbers
  have hoffers : Offers ['1'] .add := ⟨1, choice?_eq_some_iff.mp (by decide), by decide⟩
  have hexit : Asks (utf8 ['5'] ++ lineFeed :: []) [] .exited :=
    .exit (begins_utf8 (by decide) (by decide) []) (choice?_eq_some_iff.mp (by decide))
  exact ⟨lhs, rhs, .call (begins_utf8 (by decide) (by decide) _) hoffers
    (begins_utf8 (by decide) (by decide) _) (operands?_eq_some_iff.mp hnumbers) hexit⟩

def silence : Exchange (StateM Unit) :=
  fun _ _ _ => pure (.error (.transport .closedUnanswered))

private theorem isDeaf_recorded {exchange : Exchange (StateM σ)} (h : IsDeaf exchange) :
    IsDeaf (recorded exchange) :=
  fun endpoint frame timeout state => h endpoint frame timeout state.1

private theorem isDeaf_silence : IsDeaf silence :=
  fun _ _ _ _ => ⟨_, rfl⟩

private theorem not_runsAsAsked {client : Client} {now : Span}
    (hreach : ¬client.InReach now) :
    ¬RunsAsAsked (fun _ => now) silence () sumInput libraries files args client := by
  intro hruns
  obtain ⟨lhs, rhs, hasks⟩ := exists_asks_sumInput
  obtain ⟨shown, cause, after, hbroken⟩ :=
    hasks.session_breaks_down (List.cons_ne_nil _ _)
      (isDeaf_recorded isDeaf_silence) hreach ((), [])
  have hfinish := (hruns.performs _ _ hasks).finish
  rw [sessionOf, watched, hbroken] at hfinish
  contradiction

/--
All runs of the program up to a moment do what their inputs ask for if and only if there is
no stream in the table or the clock can tell when an attempt has to be over that begins at
that moment.
-/
theorem runs_as_asked_iff (hoptions : libraries.parse args = .ok options)
    (htable : loadEndpoints libraries.json files options = .ok table) (hne : table ≠ [])
    (last : Span) :
    (∀ (σ : Type) (clock : σ → Span) (exchange : Exchange (StateM σ)) (state : σ)
        (input : Wire.Bytes), (∀ state, (clock state).nanos ≤ last.nanos) →
          RunsAsAsked clock exchange state input libraries files args
            (options.clientOf hne)) ↔
      (∀ endpoint ∈ table, endpoint.transport = .datagram) ∨
        ∃ moment, Clock.after last options.span = .ok moment := by
  have hstart := startClient_of_table hoptions htable hne
  have hreach : (options.clientOf hne).InReach last ↔
      (∀ endpoint ∈ table, endpoint.transport = .datagram) ∨
        ∃ moment, Clock.after last options.span = .ok moment := Client.inReach_iff
  rw [← hreach]
  constructor
  · intro hruns
    by_contra hout
    exact not_runsAsAsked hout (hruns Unit (fun _ => last) silence () sumInput
      fun _ => Nat.le_refl _)
  · intro hin σ clock exchange state input hclock
    exact runsAsAsked hstart
      (fun state => hin.of_le (hclock state)) exchange state input

def noFiles : Files := fun _ => .error ⟨.notFound, none⟩

private theorem localServers_ne_nil : localServers ≠ [] :=
  List.cons_ne_nil _ _

/-- A sum over the local servers, none of which answers, and yet the program ends as it is told. -/
theorem sum_without_answers :
    Libraries.plain.parse [] = .ok ⟨none, 5⟩ ∧
      loadEndpoints Libraries.plain.json noFiles ⟨none, 5⟩ = .ok localServers ∧
        localServers ≠ [] ∧
      ∃ request : Wire.Request, request.operation = .add ∧
        (sessionOf (fun _ => .ofSeconds 86400) silence () sumInput
          (ClientOptions.clientOf ⟨none, 5⟩ localServers_ne_nil)).1.calls.map Call.request =
            [request] ∧
        (runOf (fun _ => .ofSeconds 86400) silence () sumInput .plain noFiles []).2.2.length = 8 ∧
        (runOf (fun _ => .ofSeconds 86400) silence () sumInput .plain noFiles []).1.exitCode =
          0 := by
  have hclock : ∃ moment, Clock.after (.ofSeconds 86400) (ClientOptions.span ⟨none, 5⟩) =
      .ok moment := Clock.exists_after_iff.mpr (by decide)
  have hruns := (@runs_as_asked_iff .plain noFiles [] ⟨none, 5⟩ localServers rfl rfl
    localServers_ne_nil (.ofSeconds 86400)).mpr (.inr hclock) Unit (fun _ => .ofSeconds 86400)
      silence () sumInput fun _ => Nat.le_refl _
  obtain ⟨lhs, rhs, hasks⟩ := exists_asks_sumInput
  have hperforms := hruns.performs _ _ hasks
  refine ⟨rfl, rfl, localServers_ne_nil, ⟨.add, lhs, rhs⟩, rfl, hperforms.asked, ?_,
    hruns.exitCode _ _ hasks⟩
  rw [hruns.told, hperforms.attempts]
  rfl

theorem far_timeout_breaks_down :
    ¬∀ (files : Files) (args : List String) (options : ClientOptions) (table : List Endpoint)
      (hne : table ≠ []), Libraries.plain.parse args = .ok options →
        loadEndpoints Libraries.plain.json files options = .ok table →
          ∀ (σ : Type) (clock : σ → Span) (exchange : Exchange (StateM σ)) (state : σ)
            (input : Wire.Bytes),
            RunsAsAsked clock exchange state input .plain files args
              (options.clientOf hne) := by
  intro hruns
  have hoptions : Libraries.plain.parse ["--timeout=9223372036854775807"] =
      .ok ⟨none, 9223372036854775807⟩ := by decide +kernel
  have hclock : Clock.after (.ofSeconds 1) (ClientOptions.span ⟨none, 9223372036854775807⟩) =
      .error .momentOutOfReach := Clock.after_of_limit_le (by decide)
  have hout : ¬(ClientOptions.clientOf ⟨none, 9223372036854775807⟩ localServers_ne_nil).InReach
      (.ofSeconds 1) := by
    rw [Client.inReach_iff]
    rintro (hdatagrams | ⟨moment, hmoment⟩)
    · exact absurd (hdatagrams _ List.mem_cons_self) (by decide)
    · have hboth := hclock.symm.trans hmoment
      contradiction
  exact not_runsAsAsked hout (hruns noFiles _ _ _ localServers_ne_nil hoptions rfl Unit
    (fun _ => .ofSeconds 1) silence () sumInput)

end RemoteCalc.Console
