import RemoteCalc.Proofs.Blocking.Receiving
import RemoteCalc.Proofs.Service
import RemoteCalc.Proofs.Wire.Accepted
import RemoteCalc.Proofs.Wire.Cuts
import RemoteCalc.Proofs.Wire.Normal

/-!
# Sessions

A client may send many requests before it reads an answer.  Each answer ends where the
client finds it to end, whatever the tag and the numbers in it, so that the answers stay in
step with the requests on the whole way to the server and back.
-/

namespace RemoteCalc

open Text Wire

/-! ## Encoded frames -/

namespace Wire

theorem Request.length_encode_le (request : Request) :
    request.encode.length ≤ maxFrameLength :=
  (frameChars_eq_ok_iff.mp request.frameChars_encode).1

theorem Response.length_encode_le (response : Response) :
    response.encode.length ≤ maxFrameLength :=
  (frameChars_eq_ok_iff.mp response.frameChars_encode).1

theorem Request.stopsAt_encode (request : Request) :
    StopsAt isBlankByte request.encode := by
  have hfirst : isBlankByte 'O'.toUInt8 = false := by decide
  simpa [encode, field, ofChars, StopsAt] using hfirst

theorem Response.stopsAt_encode (response : Response) :
    StopsAt isBlankByte response.encode := by
  have hfirst : isBlankByte 'R'.toUInt8 = false := by decide
  simpa [encode, field, ofChars, StopsAt] using hfirst

end Wire

namespace Blocking

def Framed.ofWhole {bytes : Bytes} (unblank : StopsAt isBlankByte bytes)
    (short : bytes.length ≤ maxFrameLength)
    (whole : frameLength? bytes = some bytes.length) :
    Framed where
  bytes
  unblank
  short
  fields := (frameLength?_eq_length_iff.mp whole).1
  ended := (frameLength?_eq_length_iff.mp whole).2

def Framed.ofRequest (request : Request) : Framed :=
  .ofWhole request.stopsAt_encode request.length_encode_le request.frameLength?_encode

def Framed.ofResponse (response : Response) : Framed :=
  .ofWhole response.stopsAt_encode response.length_encode_le response.frameLength?_encode

private theorem isBlankByte_of_mem_nil : ∀ b ∈ ([] : Bytes), isBlankByte b = true :=
  List.forall_mem_nil _

def Blanks.none : Blanks := ⟨[], isBlankByte_of_mem_nil⟩

/-! ## Reading frames -/

def Remainder.none : Remainder := ⟨[], trivial, Nat.succ_pos _⟩

private theorem receiveMany_spaced (frames : List (Framed × Blanks)) {inbox : Inbox}
    (h : inbox.IsReading)
    (htext : trimmed inbox.stream = trimmed (spaced frames)) (extra : Nat) :
    Inbox.receiveMany (frames.length + extra) inbox =
      (frames.map fun item => .frame item.1.bytes) ++ List.replicate extra .finished := by
  have hyields := yields_spaced frames .none (Nat.succ_pos _) h
    (htext.trans (congrArg trimmed (List.append_nil _).symm)) extra
  rwa [List.length_map] at hyields

/-! ## Sessions -/

theorem asksToExit_encode (request : Request) :
    asksToExit request.encode = decide (request.operation = .exit) := by
  rw [asksToExit, Request.decode_encode]

private theorem answerTo_encode (service : Service) (request : Request) :
    answerTo service request.encode = (service.respond request).encode := by
  rw [answerTo, Request.decode_encode]

/-- The requests that are answered: those before the first that asks to exit. -/
def answered (requests : List Request) : List Request :=
  requests.takeWhile fun request => request.operation ≠ .exit

private theorem written_encode (service : Service) (requests : List Request) :
    written service (requests.map Request.encode) [] =
      (answered requests).flatMap fun request => (service.respond request).encode := by
  induction requests with
  | nil => rfl
  | cons request requests ih =>
      rw [List.map_cons, written_cons, asksToExit_encode, answerTo_encode, ih]
      by_cases hexit : request.operation = .exit <;> simp [answered, hexit]

private theorem serveStream_requests (service : Service) (lead : Blanks)
    (items : List (Request × Blanks))
    {source : List Arrival}
    (h : IsCutOf (lead.bytes ++ items.flatMap fun item => item.1.encode ++ item.2.bytes) source) :
    serveStream service source =
      (answered (items.map Prod.fst)).flatMap fun request => (service.respond request).encode := by
  have hspaced : spaced (items.map fun item => (Framed.ofRequest item.1, item.2)) =
      items.flatMap fun item => item.1.encode ++ item.2.bytes :=
    List.flatMap_map ..
  have hframes : (items.map fun item => (Framed.ofRequest item.1, item.2)).map
      (fun item => item.1.bytes) = (items.map Prod.fst).map Request.encode := by
    rw [List.map_map, List.map_map]
    rfl
  rw [← written_encode, ← hframes]
  apply flatten_converse service _ ⟨[], trivial, Nat.succ_pos _⟩
    (Inbox.isReading_ofSource h.cut)
  rw [Inbox.stream_ofSource h, trimmed_blanks lead.blank, hspaced, List.append_nil]

/--
However a client's requests and the server's answers are cut, with whatever blanks between
the requests: the client receives one frame for each request before the first that asks to
exit, in order, each with what the calculator gives for that request, and then the end.
-/
theorem session_stays_in_step (service : Service) (lead : Blanks)
    (items : List (Request × Blanks)) {source output : List Arrival}
    (hsource : IsCutOf (lead.bytes ++ items.flatMap fun item => item.1.encode ++ item.2.bytes)
      source)
    (houtput : IsCutOf (serveStream service source) output) :
    ∃ frames : List Bytes,
      List.Forall₂
        (fun request frame =>
          ∃ response, Response.decode frame = .ok response ∧
            service.IsAnswer request response)
        ((items.map Prod.fst).takeWhile fun request => request.operation ≠ .exit) frames ∧
      ∀ extra, Inbox.receiveMany (frames.length + extra) (.ofSource output) =
        frames.map .frame ++ List.replicate extra .finished := by
  have hsent := serveStream_requests service lead items hsource
  generalize hrequests : answered (items.map Prod.fst) = requests at hsent
  refine ⟨requests.map fun request => (service.respond request).encode, ?_, ?_⟩
  · rw [← hrequests, answered, List.forall₂_map_right_iff, List.forall₂_same]
    intro request hrequest
    have hexit := List.mem_takeWhile_imp hrequest
    exact ⟨_, Response.decode_encode _,
      service.isAnswer_cleaned_respond (of_decide_eq_true hexit)⟩
  · intro extra
    have hspaced : spaced (requests.map fun request =>
        (Framed.ofResponse (service.respond request), Blanks.none)) =
          serveStream service source := by
      rw [hsent, spaced, List.flatMap_map]
      simp [Framed.ofResponse, Framed.ofWhole, Blanks.none]
    have hstream := (Inbox.stream_ofSource houtput).trans hspaced.symm
    have hreads := receiveMany_spaced _ (Inbox.isReading_ofSource houtput.cut)
      (congrArg trimmed hstream) extra
    rw [List.length_map, List.map_map] at hreads
    rw [List.length_map, List.map_map]
    exact hreads

def hastyItems : List (Request × Blanks) :=
  [(⟨.divide, 1, 0⟩, Blanks.none), (⟨.exit, 0, 0⟩, ⟨[0x20, 0x0a], List.all_eq_true.mp rfl⟩),
    (⟨.add, 1, 2⟩, Blanks.none)]

def hastyBytes : Bytes := hastyItems.flatMap fun item => item.1.encode ++ item.2.bytes

/-- A tag with a semicolon and a line break in it gets through to the client, cleaned. -/
theorem hasty_session_stays_in_step :
    (IsCutOf hastyBytes (singles hastyBytes) ∧
      IsCutOf (serveStream ⟨"a;\n"⟩ (singles hastyBytes))
        (singles (serveStream ⟨"a;\n"⟩ (singles hastyBytes)))) ∧
    ∃ frame response, Response.decode frame = .ok response ∧
      response.error = some "Division by zero" ∧ response.tag = "a,?" ∧
      ∀ extra, Inbox.receiveMany (1 + extra)
          (.ofSource (singles (serveStream ⟨"a;\n"⟩ (singles hastyBytes)))) =
        .frame frame :: List.replicate extra .finished := by
  obtain ⟨frames, hanswers, hreads⟩ :=
    session_stays_in_step ⟨"a;\n"⟩ Blanks.none hastyItems (isCutOf_singles hastyBytes)
      (isCutOf_singles _)
  have hrequests : (hastyItems.map Prod.fst).takeWhile
      (fun request => request.operation ≠ .exit) = [⟨.divide, 1, 0⟩] := rfl
  rw [hrequests] at hanswers
  obtain ⟨frame, rest, ⟨response, hdecode, hanswer⟩, hnone, rfl⟩ :=
    List.forall₂_cons_left_iff.mp hanswers
  obtain rfl := List.forall₂_nil_left_iff.mp hnone
  have hzero : Operation.divide = .divide ∧ IsZero 0 := by decide +kernel
  have htag : wireTag "a;\n" = "a,?" := by decide
  have houtcome := hanswer.outcome
  rw [if_pos hzero] at houtcome
  exact ⟨⟨isCutOf_singles _, isCutOf_singles _⟩, frame, response, hdecode, houtcome.1,
    hanswer.tag.trans htag, hreads⟩

end Blocking

end RemoteCalc
