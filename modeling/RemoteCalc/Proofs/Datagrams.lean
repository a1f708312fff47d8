import RemoteCalc.Proofs.Agreement
import RemoteCalc.Proofs.Blocking.Pooled

/-!
# Datagrams

A server receives one byte more of a datagram than a frame may have, so that the cut makes
no request of a datagram that is none.  What it sends for a datagram is told by the whole
of that datagram alone.  The two kinds of server differ only in what they send for a
datagram that cannot be read, and the event loop counts what has become of all of them.
-/

namespace RemoteCalc

open Wire

/-! ## One datagram -/

/-- What is sent for a datagram, with this for one that cannot be read. -/
def datagramReply (service : Service) (otherwise : Option Bytes) (datagram : Bytes) :
    Option Bytes :=
  match Request.decode datagram with
  | .ok request => owed service request
  | .error _ => otherwise

variable {service : Service} {datagram : Bytes} {request : Request} {fault : FrameFault}

private theorem decode_of_received
    (h : Request.decode (received datagram) = .ok request) :
    Request.decode datagram = .ok request := by
  have hshort := length_le_of_decode h
  rw [received, datagramRoom, List.length_take] at hshort
  have hself : received datagram = datagram := List.take_of_length_le (by
    rw [datagramRoom]
    omega)
  rwa [hself] at h

private theorem exists_error_of_received (h : Request.decode datagram = .error fault) :
    ∃ other, Request.decode (received datagram) = .error other := by
  cases hcut : Request.decode (received datagram) with
  | ok request => cases h.symm.trans (decode_of_received hcut)
  | error other => exact ⟨other, rfl⟩

namespace Blocking

private theorem datagramAnswer_eq (service : Service) (datagram : Bytes) :
    datagramAnswer service datagram =
      datagramReply service (some (badRequestFrame service.tag)) datagram := by
  rw [datagramAnswer, datagramReply]
  cases hdecode : Request.decode datagram with
  | ok request =>
      rw [received_of_decode hdecode]
      exact answer_of_decode hdecode
  | error fault =>
      obtain ⟨other, hcut⟩ := exists_error_of_received hdecode
      rw [answer, service.handleOrReject_of_error hcut, service.rejection_eq]

end Blocking

namespace EventLoop

def endingOf (datagram : Bytes) : Ending :=
  match Request.decode datagram with
  | .ok request => if request.operation = .exit then .silent else .served
  | .error _ => .dropped

private theorem receiveDatagram_eq (service : Service) (counters : Counters)
    (datagram : Bytes) :
    receiveDatagram service counters datagram =
      (datagramReply service none datagram, counters.add (endingOf datagram)) := by
  rw [receiveDatagram, datagramReply, endingOf]
  cases hdecode : Request.decode datagram with
  | ok request =>
      rw [received_of_decode hdecode, service.handle_of_decode hdecode, Service.reply]
      by_cases hexit : request.operation = .exit <;> simp [owed, hexit, Counters.add]
  | error fault =>
      obtain ⟨other, hcut⟩ := exists_error_of_received hdecode
      rw [service.handle_of_error hcut]

/-! ## Counters -/

def Counters.after (counters : Counters) (datagrams : List Bytes) : Counters :=
  { counters with
    served := counters.served + datagrams.countP (endingOf · = .served)
    dropped := counters.dropped + datagrams.countP (endingOf · = .dropped) }

private theorem Counters.after_append (counters : Counters)
    (first second : List Bytes) :
    counters.after (first ++ second) = (counters.after first).after second := by
  simp [after, Nat.add_assoc]

private theorem Counters.after_singleton (counters : Counters) (datagram : Bytes) :
    counters.after [datagram] = counters.add (endingOf datagram) := by
  cases hending : endingOf datagram <;> simp [after, add, hending]

private theorem receiveAll_eq (service : Service) (counters : Counters)
    (batch : List Bytes) :
    receiveAll service counters batch =
      (batch.map (datagramReply service none), counters.after batch) := by
  induction batch generalizing counters with
  | nil => rfl
  | cons datagram batch ih =>
      simp only [receiveAll, receiveDatagram_eq, ih, ← Counters.after_singleton,
        ← Counters.after_append]
      rfl

private theorem getElem?_receiveBatches (service : Service) (counters : Counters)
    (batches : List (List Bytes)) (place : Nat) :
    (receiveBatches service counters batches)[place]? =
      batches[place]?.map fun batch =>
        (batch.map (datagramReply service none),
          counters.after (batches.take (place + 1)).flatten) := by
  induction batches generalizing counters place with
  | nil => rfl
  | cons batch batches ih =>
      rw [receiveBatches, receiveAll_eq]
      cases place with
      | zero => simp
      | succ place => simp [ih, Counters.after_append]

private theorem countP_endings (datagrams : List Bytes) :
    datagrams.countP (endingOf · = .served) + datagrams.countP (endingOf · = .dropped) +
      datagrams.countP (endingOf · = .silent) = datagrams.length := by
  induction datagrams with
  | nil => rfl
  | cons datagram datagrams ih =>
      cases hending : endingOf datagram <;> simp [hending] <;> omega

theorem endingOf_served_iff {datagram : Bytes} (service : Service) :
    endingOf datagram = .served ↔ (datagramReply service none datagram).isSome := by
  rw [endingOf, datagramReply]
  cases Request.decode datagram with
  | error fault => simp
  | ok request => by_cases hexit : request.operation = .exit <;> simp [owed, hexit]

theorem endingOf_dropped_iff {datagram : Bytes} :
    endingOf datagram = .dropped ↔ (Request.decode datagram).isOk = false := by
  rw [endingOf]
  cases Request.decode datagram with
  | error fault => simp [Except.isOk, Except.toBool]
  | ok request =>
      by_cases hexit : request.operation = .exit <;> simp [hexit, Except.isOk, Except.toBool]

theorem endingOf_silent_iff {datagram : Bytes} :
    endingOf datagram = .silent ↔ Blocking.asksToExit datagram = true := by
  rw [endingOf, Blocking.asksToExit]
  cases Request.decode datagram with
  | error fault => simp
  | ok request => by_cases hexit : request.operation = .exit <;> simp [hexit]

/-- What is seen once these datagrams have been received, of which the last are the batch. -/
structure IsAccount (service : Service) (seen batch : List Bytes)
    (look : BatchLook) : Prop where
  replies : look.replies = batch.map (datagramReply service none)
  accepted : look.counters.accepted = 0
  openCount : look.openCount = 0
  served : look.counters.served =
    seen.countP fun datagram => (datagramReply service none datagram).isSome
  dropped : look.counters.dropped =
    seen.countP fun datagram => !(Request.decode datagram).isOk
  whole : look.counters.served + look.counters.dropped + seen.countP Blocking.asksToExit =
    seen.length

private theorem isAccount_after (service : Service) (seen batch : List Bytes) :
    IsAccount service seen batch
      ⟨Counters.zero.after seen, 0, batch.map (datagramReply service none)⟩ := by
  have hserved : seen.countP (endingOf · = .served) =
      seen.countP fun datagram => (datagramReply service none datagram).isSome :=
    List.countP_congr fun _ _ => by simp [endingOf_served_iff service]
  have hdropped : seen.countP (endingOf · = .dropped) =
      seen.countP fun datagram => !(Request.decode datagram).isOk :=
    List.countP_congr fun _ _ => by simp [endingOf_dropped_iff]
  have hsilent : seen.countP (endingOf · = .silent) = seen.countP Blocking.asksToExit :=
    List.countP_congr fun _ _ => by simp [endingOf_silent_iff]
  constructor
  · rfl
  · rfl
  · rfl
  · simp [Counters.after, Counters.zero, hserved]
  · simp [Counters.after, Counters.zero, hdropped]
  · simpa [Counters.after, Counters.zero, hsilent] using countP_endings seen

private theorem exists_look (service : Service) {batches : List (List Bytes)}
    {place : Nat} {batch : List Bytes} (h : batches[place]? = some batch) :
    ∃ look, (watchBatches service batches)[place]? = some look ∧
      IsAccount service (batches.take (place + 1)).flatten batch look := by
  refine ⟨_, ?_, isAccount_after service _ batch⟩
  rw [watchBatches, List.getElem?_map, getElem?_receiveBatches, h]
  rfl

end EventLoop

/-! ## Blocking servers -/

namespace Blocking

private theorem serveDatagrams_eq_check (service : Service) (concurrency : Concurrency)
    (datagrams : List Bytes) :
    serveDatagrams service concurrency datagrams = concurrency.check.map fun _ =>
      datagrams.map fun datagram =>
        (datagramReply service (some (badRequestFrame service.tag)) datagram).toList := by
  simp only [← datagramAnswer_eq]
  cases concurrency with
  | iterative =>
      have hserves : Concurrency.iterative.Serves := trivial
      exact serveDatagrams_eq hserves service datagrams
  | pooled workers =>
      rw [Concurrency.check, Pool.checkSize]
      split_ifs with hnone
      · rw [hnone]
        rfl
      · have hserves : (Concurrency.pooled workers).Serves := Nat.pos_of_ne_zero hnone
        exact serveDatagrams_eq hserves service datagrams

end Blocking

/-! ## All servers -/

/--
Each datagram is answered for itself, in whatever batches and behind whatever others it
comes.  The event loop sends nothing for one that cannot be read, and accounts for every
datagram after every batch.  A blocking server sends a rejection for it instead, with a
pool under any schedule by which its workers come to stop.
-/
theorem datagrams_answered_alone (service : Service) :
    (∀ (batches : List (List Bytes)) (place : Nat) (batch : List Bytes),
      batches[place]? = some batch →
        ∃ look, (EventLoop.watchBatches service batches)[place]? = some look ∧
          EventLoop.IsAccount service (batches.take (place + 1)).flatten batch look) ∧
    ∀ datagrams : List Bytes,
      (∀ concurrency : Blocking.Concurrency,
        Blocking.serveDatagrams service concurrency datagrams =
          concurrency.check.map fun _ => datagrams.map fun datagram =>
            (datagramReply service (some (badRequestFrame service.tag)) datagram).toList) ∧
      ∀ workers, 0 < workers →
        ∃ state, Pool.start workers (Blocking.Buffer.empty.requests datagrams).zipIdx = .ok state ∧
          ∀ schedule later, state.follow? Pool.returning schedule = some later →
          later.AllStopped →
            Blocking.datagramReplies datagrams.length
                (Blocking.served (Blocking.answer service) later.ran) =
              datagrams.map fun datagram =>
                (datagramReply service (some (badRequestFrame service.tag)) datagram).toList := by
  refine ⟨fun _ _ _ => EventLoop.exists_look service,
    fun datagrams => ⟨fun concurrency =>
    Blocking.serveDatagrams_eq_check service concurrency datagrams, ?_⟩⟩
  intro workers hworkers
  obtain ⟨state, hstart, hserved⟩ := Blocking.served_of_schedule hworkers
    (Blocking.answer service) (Blocking.Buffer.empty.requests datagrams)
  refine ⟨state, hstart, fun schedule later hfollow hstopped => ?_⟩
  have hsent := hserved schedule later hfollow hstopped
  rw [Blocking.map_answer_requests] at hsent
  simp only [← Blocking.datagramAnswer_eq]
  exact Blocking.datagramReplies_of_answers hsent

def fullDatagram : Bytes :=
  ofChars "OP:ADD;OP1:1;OP2:2;".toList ++ List.replicate 1005 0x20

def exitDatagram : Bytes := ofChars "OP:EXT;OP1:0;OP2:0;".toList

def fullBatches : List (List Bytes) :=
  [[fullDatagram, fullDatagram ++ [0x20]], [], [exitDatagram]]

/-- With one more blank behind it, the request of the full datagram is none. -/
theorem fullBatches_answered_alone :
    (fullBatches[2]? = some [exitDatagram] ∧ 0 < 2) ∧
    (∃ look, (EventLoop.watchBatches ⟨"T"⟩ fullBatches)[2]? = some look ∧
      look.replies = [none] ∧ look.counters.served = 1 ∧ look.counters.dropped = 1) ∧
    Blocking.serveDatagrams ⟨"T"⟩ (.pooled 2) fullBatches.flatten =
      .ok [[ofChars "RES:3;ERR:NULL;STYPE:T;".toList],
        [ofChars "RES:0;ERR:Server error: Bad request format;STYPE:T;".toList], []] ∧
    ∃ state, Pool.start 2 (Blocking.Buffer.empty.requests fullBatches.flatten).zipIdx =
      .ok state := by
  have hworkers : 0 < 2 := by decide
  obtain ⟨hloop, hblocking⟩ := datagrams_answered_alone ⟨"T"⟩
  obtain ⟨look, hlook, haccount⟩ := hloop fullBatches 2 [exitDatagram] rfl
  obtain ⟨hserve, hpool⟩ := hblocking fullBatches.flatten
  obtain ⟨state, hstart, -⟩ := hpool 2 hworkers
  have hreplies : [exitDatagram].map (datagramReply ⟨"T"⟩ none) =
      [none] := by decide +kernel
  have hserved : (fullBatches.take 3).flatten.countP
      (fun datagram => (datagramReply ⟨"T"⟩ none datagram).isSome) =
        1 := by decide +kernel
  have hdropped : (fullBatches.take 3).flatten.countP
      (fun datagram => !(Request.decode datagram).isOk) = 1 := by decide +kernel
  have hsent : (fullBatches.flatten.map fun datagram =>
      (datagramReply ⟨"T"⟩ (some (badRequestFrame "T")) datagram).toList) =
        [[ofChars "RES:3;ERR:NULL;STYPE:T;".toList],
          [ofChars "RES:0;ERR:Server error: Bad request format;STYPE:T;".toList],
          []] := by
    decide +kernel
  refine ⟨⟨rfl, hworkers⟩, ⟨look, hlook, haccount.replies.trans hreplies,
    haccount.served.trans hserved, haccount.dropped.trans hdropped⟩, ?_, state, hstart⟩
  rw [hserve, hsent]
  rfl

end RemoteCalc
