import RemoteCalc.Proofs.Agreement
import RemoteCalc.Proofs.Blocking.Pooled
import RemoteCalc.Proofs.Blocking.Receiving
import RemoteCalc.Server

/-!
# Servers of every mode

A server that has started answers a request by itself with what its service owes for it,
whichever its mode, over a stream and in a datagram.
-/

namespace RemoteCalc.Server

open Wire

variable {server : Server} {bytes : Bytes} {request : Request}

private theorem serves_of_started (h : server.start (.ok ()) = .ok ())
    {concurrency : Blocking.Concurrency}
    (hmode : server.concurrency? = some concurrency) :
    concurrency.Serves := by
  have hcheck : concurrency.check = .ok () := by
    rw [start, hmode] at h
    exact h
  cases concurrency with
  | iterative => trivial
  | pooled workers =>
      rw [Blocking.Concurrency.check, Pool.checkSize] at hcheck
      split_ifs at hcheck with hnone
      exact Nat.pos_of_ne_zero hnone

private theorem ne_nil_of_decode (h : Request.decode bytes = .ok request) :
    bytes ≠ [] := by
  obtain ⟨frame, blanks, rfl, -, -, hlength, -⟩ := Request.exists_frame_of_decode h
  rintro hnil
  rw [(List.append_eq_nil_iff.mp hnil).1] at hlength
  contradiction

theorem replyToStream_of_decode (hstart : server.start (.ok ()) = .ok ())
    (h : Request.decode bytes = .ok request) :
    server.replyToStream bytes = (owed server.service request).getD [] := by
  cases hmode : server.concurrency? with
  | some concurrency =>
      have hcut := isCutOf_data (ne_nil_of_decode h)
      have hscript : Arrival.IsScript (Inbox.ofSource [.data bytes]).source := by
        simpa [Inbox.ofSource, Arrival.IsScript] using ne_nil_of_decode h
      have hsilent : Blocking.serveStream server.service [.data bytes, .fault ⟨.wouldBlock, none⟩] =
          Blocking.serveStream server.service [.data bytes] :=
        congrArg List.flatten (Blocking.converse_followed_fault server.service (by decide) hscript)
      have hreplies := Blocking.serveStreams_eq_map (serves_of_started hstart hmode)
        server.service [[.data bytes, .fault ⟨.wouldBlock, none⟩]]
      rw [List.map_singleton, hsilent] at hreplies
      rw [replyToStream, hmode]
      simp only [hreplies]
      exact Blocking.serveStream_of_decode h hcut.cut hcut.whole
  | none =>
      have hclient : (EventLoop.Client.ofScript [.deed (.move (.connect bytes))])[0]? =
          some ⟨bytes, false⟩ := rfl
      rw [replyToStream, hmode, ← firstAnswer?_of_decode h]
      exact EventLoop.writtenTo_eq_firstAnswer server.service hclient

theorem replyToDatagram_of_decode (hstart : server.start (.ok ()) = .ok ())
    (h : Request.decode bytes = .ok request) :
    server.replyToDatagram bytes = owed server.service request := by
  cases hmode : server.concurrency? with
  | some concurrency =>
      have hanswer : Blocking.datagramAnswer server.service bytes =
          owed server.service request := by
        rw [Blocking.datagramAnswer, received_of_decode h]
        exact Blocking.answer_of_decode h
      have hreplies : server.serveDatagrams [bytes] =
          .ok [owed server.service request] := by
        rw [serveDatagrams, hmode, ← hanswer]
        simp [Blocking.serveDatagrams_eq (serves_of_started hstart hmode), Except.map]
      rw [replyToDatagram, hreplies]
  | none =>
      have hanswer : (EventLoop.receiveDatagram server.service .zero bytes).1 =
          owed server.service request :=
        EventLoop.receiveDatagram_of_decode h .zero
      have hreplies : server.serveDatagrams [bytes] =
          .ok [owed server.service request] := by
        rw [serveDatagrams, hmode, ← hanswer]
        rfl
      rw [replyToDatagram, hreplies]

end RemoteCalc.Server
