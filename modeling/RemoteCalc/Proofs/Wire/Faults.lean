import RemoteCalc.Proofs.Wire.Inbox

/-!
# Faults between reads

A read may fail at any time.  A call that ends with the fault leaves what it has read to
the next call, so that all deliveries but that of the fault are the same as if the read
had not been tried.  A read that was interrupted is tried again within the call, and
leaves no trace at all.
-/

namespace RemoteCalc.Wire

/-! ## Sources with faults -/

namespace Arrival

/-- Pieces of data of which none is empty, with any faults between them. -/
def IsScript (source : List Arrival) : Prop :=
  ∀ found, .data found ∈ source → found ≠ []

@[simp] def reported : List Arrival → List IoFault
  | [] => []
  | .data _ :: rest => reported rest
  | .fault cause :: rest =>
      if cause.kind = .interrupted then reported rest else cause :: reported rest

private theorem reported_append (first second : List Arrival) :
    reported (first ++ second) = reported first ++ reported second := by
  induction first with
  | nil => rfl
  | cons arrival first ih =>
      cases arrival with
      | data found => simp [ih]
      | fault cause =>
          simp only [List.cons_append, reported, ih]
          split_ifs <;> rfl

private theorem bytes_append (first second : List Arrival) :
    bytes (first ++ second) = bytes first ++ bytes second := by
  induction first with
  | nil => rfl
  | cons arrival first ih => cases arrival <;> simp [ih]

theorem bytes_remove_fault (before after : List Arrival) (cause : IoFault) :
    bytes (before ++ .fault cause :: after) = bytes (before ++ after) := by
  rw [bytes_append, bytes_append, bytes]

theorem IsCut.append {first second : List Arrival} (hfirst : IsCut first)
    (hsecond : IsCut second) : IsCut (first ++ second) :=
  List.forall_mem_append.mpr ⟨hfirst, hsecond⟩

private theorem IsCut.reported_eq_nil {source : List Arrival} (h : IsCut source) :
    reported source = [] := by
  induction source with
  | nil => rfl
  | cons arrival source ih =>
      obtain ⟨found, -, rfl⟩ := h arrival List.mem_cons_self
      exact ih h.tail

theorem IsScript.mono {source other : List Arrival} (h : IsScript source)
    (hsubset : other ⊆ source) :
    IsScript other := fun found hfound => h found (hsubset hfound)

theorem IsScript.remove_fault {before after : List Arrival} {cause : IoFault}
    (h : IsScript (before ++ .fault cause :: after)) : IsScript (before ++ after) :=
  h.mono (by simp)

private theorem read_append {room : Nat} {source rest : List Arrival}
    {found : Except IoFault Bytes}
    (h : read room source = (found, rest)) (hfound : found ≠ .ok [])
    (more : List Arrival) :
    read room (source ++ more) = (found, rest ++ more) := by
  match source with
  | [] =>
      cases h
      contradiction
  | .fault _ :: _ =>
      cases h
      rfl
  | .data held :: _ =>
      simp only [List.cons_append, read] at h ⊢
      split_ifs at h ⊢ <;> cases h <;> rfl

private theorem eq_fault_of_read {room : Nat} {source rest : List Arrival}
    {cause : IoFault}
    (h : read room source = (.error cause, rest)) : source = .fault cause :: rest := by
  match source with
  | [] => simp [read] at h
  | .fault _ :: _ => simpa [read] using h
  | .data held :: _ =>
      rw [read] at h
      split_ifs at h <;> cases h

private theorem script_of_read {room : Nat} {source rest : List Arrival} {found : Bytes}
    (hscript : IsScript source) (h : read room source = (.ok found, rest)) :
    IsScript rest ∧ reported source = reported rest := by
  match source with
  | [] =>
      cases h
      exact ⟨hscript, rfl⟩
  | .fault _ :: _ => simp [read] at h
  | .data held :: source =>
      have htail : IsScript source := hscript.mono (List.subset_cons_self _ _)
      rw [read] at h
      split_ifs at h with hfits <;> cases h
      · exact ⟨htail, rfl⟩
      · refine ⟨fun found hfound => ?_, rfl⟩
        rcases List.mem_cons.mp hfound with heq | hrest
        · cases heq
          rw [Ne, List.drop_eq_nil_iff]
          omega
        · exact htail found hrest

private theorem eq_nil_of_read_nil {room : Nat} (hroom : 0 < room)
    {source rest : List Arrival}
    (hscript : IsScript source) (h : read room source = (.ok [], rest)) :
    source = [] := by
  match source with
  | [] => rfl
  | .fault _ :: _ => simp [read] at h
  | .data held :: source =>
      have hheld := hscript held List.mem_cons_self
      rw [read] at h
      split_ifs at h with hfits
      · cases h
        contradiction
      · simp only [Prod.mk.injEq, Except.ok.injEq, List.take_eq_nil_iff] at h
        rcases h.1 with hzero | hnil
        · omega
        · contradiction

end Arrival

/-! ## Single calls -/

namespace Delivery

@[simp] def io? : Delivery → Option IoFault
  | .fault (.io cause) => some cause
  | _ => none

def IsEnd (delivery : Delivery) : Prop :=
  delivery = .finished ∨ delivery = .fault (.transport .closedMidFrame)

end Delivery

namespace Inbox

open Arrival

def followed (inbox : Inbox) (more : List Arrival) : Inbox :=
  ⟨inbox.pending, inbox.source ++ more⟩

/--
What a call comes to when there is more behind the source: it ends within the source, and
never sees the rest, or it reads all of the source and goes on with the rest.
-/
inductive Reach (inbox : Inbox) : Prop
  | within (delivery : Delivery) (rest : Inbox)
      (receives : ∀ more, (inbox.followed more).receive = (delivery, rest.followed more))
      (unended : ¬delivery.IsEnd) (script : IsScript rest.source)
      (faults : reported inbox.source = delivery.io?.toList ++ reported rest.source)
  | beyond (pending : Bytes)
      (receives : ∀ more, (inbox.followed more).receive = receive ⟨pending, more⟩)
      (endless : frameLength? (trimmed pending) = none)
      (short : (trimmed pending).length < maxFrameLength)
      (faults : reported inbox.source = [])

private theorem Reach.of_receive {inbox next : Inbox} (h : next.Reach)
    (hreceive : ∀ more, (inbox.followed more).receive = (next.followed more).receive)
    (hfaults : reported inbox.source = reported next.source) : inbox.Reach := by
  cases h with
  | within delivery rest receives unended script faults =>
      exact .within delivery rest
        (fun more => (hreceive more).trans (receives more)) unended
        script (hfaults.trans faults)
  | beyond pending receives endless short faults =>
      exact .beyond pending (fun more => (hreceive more).trans (receives more)) endless short
        (hfaults.trans faults)

private theorem receive_followed_of_read {inbox : Inbox} {found : Except IoFault Bytes}
    {rest : List Arrival} (hread : Arrival.read chunkLength inbox.source = (found, rest))
    (hfound : found ≠ .ok []) (hnone : frameLength? (trimmed inbox.pending) = none)
    (hshort : (trimmed inbox.pending).length < maxFrameLength) (more : List Arrival) :
    (inbox.followed more).receive =
      match found with
      | .error cause =>
          if cause.kind = .interrupted then (followed ⟨trimmed inbox.pending, rest⟩ more).receive
          else (.fault (.io cause), followed ⟨trimmed inbox.pending, rest⟩ more)
      | .ok found => (followed ⟨trimmed inbox.pending ++ found, rest⟩ more).receive := by
  rw [followed, receive_of_short hnone hshort]
  simp only [followed, read_append hread hfound more]
  cases found with
  | error cause => rfl
  | ok found =>
      cases found with
      | nil => contradiction
      | cons b bytes => rfl

theorem reach {inbox : Inbox} (h : IsScript inbox.source) : inbox.Reach := by
  fun_induction receive inbox with
  | case1 inbox pending length hlength =>
    exact .within (.frame (pending.take length)) ⟨pending.drop length, inbox.source⟩
      (fun more => @receive_of_frame (inbox.followed more) _ hlength)
      (by simp [Delivery.IsEnd]) h rfl
  | case2 inbox pending hnone hfull =>
    exact .within (.fault (.frame .noBoundary)) ⟨pending, inbox.source⟩
      (fun more => @receive_of_full (inbox.followed more) hnone hfull)
      (by simp [Delivery.IsEnd]) h rfl
  | case3 inbox pending hnone hfull cause source hread hkind ih =>
    have hsource := eq_fault_of_read hread
    have hscript : IsScript source := h.mono (hsource ▸ List.subset_cons_self _ _)
    refine (ih hscript).of_receive (fun more => ?_) ?_
    · rw [receive_followed_of_read hread (by simp) hnone (Nat.not_le.mp hfull)]
      exact if_pos hkind
    · rw [hsource, reported, if_pos hkind]
  | case4 inbox pending hnone hfull cause source hread hkind =>
    have hsource := eq_fault_of_read hread
    have hscript : IsScript source := h.mono (hsource ▸ List.subset_cons_self _ _)
    refine .within (.fault (.io cause)) ⟨pending, source⟩ (fun more => ?_)
      (by simp [Delivery.IsEnd]) hscript ?_
    · rw [receive_followed_of_read hread (by simp) hnone (Nat.not_le.mp hfull)]
      exact if_neg hkind
    · rw [hsource, reported, if_neg hkind]
      rfl
  | case5 inbox pending hnone hfull source hread hempty
  | case6 inbox pending hnone hfull source hread hempty =>
    have hsource := eq_nil_of_read_nil (by decide) h hread
    refine .beyond inbox.pending (fun more => ?_) hnone (Nat.not_le.mp hfull) ?_
    · rw [followed, hsource, List.nil_append]
    · rw [hsource, reported]
  | case7 inbox pending hnone hfull b bytes source hread ih =>
    obtain ⟨hscript, hfaults⟩ := script_of_read h hread
    refine (ih hscript).of_receive (fun more => ?_) hfaults
    exact receive_followed_of_read hread (by simp) hnone (Nat.not_le.mp hfull) more

/-! ## Many calls -/

/-- The calls come to these deliveries, and after them to the same one again and again. -/
def Yields (inbox : Inbox) (results : List Delivery) (ending : Delivery) : Prop :=
  ∀ extra, receiveMany (results.length + extra) inbox =
    results ++ List.replicate extra ending

section Many

variable {inbox other : Inbox} {delivery ending : Delivery} {results : List Delivery}

theorem yields_cons_iff :
    inbox.Yields (delivery :: results) ending ↔
      inbox.receive.1 = delivery ∧ inbox.receive.2.Yields results ending := by
  simp [Yields, Nat.add_right_comm _ 1, forall_and]

private theorem Yields.receive_eq_of_nil (h : inbox.Yields [] ending) :
    inbox.receive.1 = ending := by
  simpa [receiveMany] using h 1

private theorem receiveMany_congr (h : inbox.receive = other.receive) (calls : Nat) :
    receiveMany calls inbox = receiveMany calls other := by
  cases calls with
  | zero => rfl
  | succ calls => rw [receiveMany_succ, receiveMany_succ, h]

theorem Yields.congr (h : inbox.receive = other.receive)
    (hother : other.Yields results ending) :
    inbox.Yields results ending := fun extra =>
  (receiveMany_congr h _).trans (hother extra)

theorem Yields.unique {others : List Delivery} (h : inbox.Yields results ending)
    (hothers : inbox.Yields others ending) (hlength : results.length = others.length) :
    results = others := by
  have hresults := h 0
  have hsame := hothers 0
  rw [hlength, hsame] at hresults
  simpa using hresults.symm

end Many

/-! ## Taking a fault out -/

section Fault

variable {cause : IoFault} {pending : Bytes} {inbox : Inbox} {results : List Delivery}
  {ending : Delivery} {rest : List Arrival}

theorem receive_fault (endless : frameLength? (trimmed pending) = none)
    (short : (trimmed pending).length < maxFrameLength) (cause : IoFault) :
    receive ⟨pending, .fault cause :: rest⟩ =
      if cause.kind = .interrupted then receive ⟨pending, rest⟩
      else (.fault (.io cause), ⟨trimmed pending, rest⟩) := by
  rw [receive_of_short endless short, Arrival.read]
  simp only [receive_trimmed]

/-- An interrupted read changes nothing. -/
theorem receiveMany_interrupted (hkind : cause.kind = .interrupted)
    (calls : Nat) (inbox : Inbox) (h : IsScript inbox.source) :
    receiveMany calls (inbox.followed (.fault cause :: rest)) =
      receiveMany calls (inbox.followed rest) := by
  induction calls generalizing inbox with
  | zero => rfl
  | succ calls ih =>
      cases reach h with
      | within delivery later receives _ script _ =>
          rw [receiveMany_succ, receiveMany_succ, receives, receives, ih later script]
      | beyond pending receives endless short _ =>
          apply receiveMany_congr
          rw [receives, receives, receive_fault endless short, if_pos hkind]

private theorem Yields.fault_met (hkind : cause.kind ≠ .interrupted)
    (receives : ∀ more, (inbox.followed more).receive = receive ⟨pending, more⟩)
    (endless : frameLength? (trimmed pending) = none)
    (short : (trimmed pending).length < maxFrameLength)
    (h : (inbox.followed rest).Yields results ending) :
    (inbox.followed (.fault cause :: rest)).Yields (.fault (.io cause) :: results) ending := by
  rw [yields_cons_iff, receives, receive_fault endless short, if_neg hkind]
  refine ⟨rfl, h.congr ?_⟩
  rw [receives, receive_trimmed]

/--
A read that fails otherwise adds one delivery.  It is the fault, it comes after all
deliveries that end before the fault, and the others are the same as without it.
-/
theorem Yields.insert (hkind : cause.kind ≠ .interrupted)
    (hscript : IsScript inbox.source)
    (hending : ending.IsEnd) (h : (inbox.followed rest).Yields results ending) :
    ∃ first second, results = first ++ second ∧
      first.filterMap Delivery.io? = reported inbox.source ∧
        (inbox.followed (.fault cause :: rest)).Yields
          (first ++ .fault (.io cause) :: second) ending := by
  induction results generalizing inbox with
  | nil =>
      cases reach hscript with
      | within met later receives unended _ _ =>
          have hreceive := h.receive_eq_of_nil
          rw [receives] at hreceive
          cases hreceive
          contradiction
      | beyond pending receives endless short faults =>
          exact ⟨[], [], rfl, faults.symm, h.fault_met hkind receives endless short⟩
  | cons delivery results ih =>
      cases reach hscript with
      | within met later receives _ script faults =>
          rw [yields_cons_iff, receives] at h
          obtain ⟨rfl, hrest⟩ := h
          obtain ⟨first, second, rfl, hfirst, hinserted⟩ := ih script hrest
          refine ⟨met :: first, second, rfl, ?_, ?_⟩
          · rw [List.filterMap_cons, faults, ← hfirst]
            cases met.io? <;> rfl
          · rw [List.cons_append, yields_cons_iff, receives]
            exact ⟨rfl, hinserted⟩
      | beyond pending receives endless short faults =>
          exact ⟨[], delivery :: results, rfl, faults.symm,
            h.fault_met hkind receives endless short⟩

end Fault

/-! ## Scripts -/

theorem followed_ofSource (before after : List Arrival) :
    (ofSource before).followed after = ofSource (before ++ after) := rfl

private theorem length_eq_filter_add_filterMap {α β : Type} (f : α → Option β)
    (items : List α) :
    items.length =
      (items.filter fun item => (f item).isNone).length + (items.filterMap f).length := by
  induction items with
  | nil => rfl
  | cons item items ih => cases h : f item <;> simp [h, ih] <;> omega

/-- The deliveries of a stream without faults, with the faults of a script among them. -/
structure IsScripted (plain : List Delivery) (source : List Arrival) (ending : Delivery)
    (results : List Delivery) : Prop where
  plain : results.filter (fun delivery => delivery.io?.isNone) = plain
  faults : results.filterMap Delivery.io? = reported source
  yields : (ofSource source).Yields results ending

section Scripts

variable {plain results : List Delivery} {source before after : List Arrival}
  {cause : IoFault} {ending : Delivery}

theorem IsScripted.unique {others : List Delivery}
    (h : IsScripted plain source ending results)
    (hothers : IsScripted plain source ending others) : results = others := by
  apply h.yields.unique hothers.yields
  rw [length_eq_filter_add_filterMap Delivery.io? results, h.plain, h.faults,
    length_eq_filter_add_filterMap Delivery.io? others, hothers.plain, hothers.faults]

theorem IsScripted.interrupted (hkind : cause.kind = .interrupted)
    (hscript : IsScript before)
    (h : IsScripted plain (before ++ after) ending results) :
    IsScripted plain (before ++ .fault cause :: after) ending results where
  plain := h.plain
  faults := by rw [h.faults, reported_append, reported_append, reported, if_pos hkind]
  yields extra :=
    (receiveMany_interrupted hkind _ (ofSource before) hscript).trans (h.yields extra)

theorem IsScripted.insert (hkind : cause.kind ≠ .interrupted)
    (hscript : IsScript before)
    (hending : ending.IsEnd) (h : IsScripted plain (before ++ after) ending results) :
    ∃ first second, results = first ++ second ∧
      IsScripted plain (before ++ .fault cause :: after) ending
        (first ++ .fault (.io cause) :: second) := by
  have hwithout := h.yields
  rw [← followed_ofSource] at hwithout
  obtain ⟨first, second, rfl, hfirst, hyields⟩ := hwithout.insert hkind hscript hending
  refine ⟨first, second, rfl, ?_, ?_, hyields⟩
  · simpa using h.plain
  · have hfaults := h.faults
    rw [List.filterMap_append, hfirst, reported_append] at hfaults
    rw [List.filterMap_append, hfirst, reported_append, reported, if_neg hkind,
      List.filterMap_cons, List.append_cancel_left hfaults]
    rfl

theorem exists_isScripted {stream : Bytes}
    (hplain : ∀ delivery ∈ plain, delivery.io? = none) (hending : ending.IsEnd)
    (hcut : ∀ source, IsCutOf stream source → (ofSource source).Yields plain ending)
    (hscript : IsScript source) (hbytes : Arrival.bytes source = stream) :
    ∃ results, IsScripted plain source ending results := by
  -- The first fault is put in last, where nothing but data stands before it.
  suffices h : ∀ after before, IsCut before → IsScript (before ++ after) →
      Arrival.bytes (before ++ after) = stream →
        ∃ results, IsScripted plain (before ++ after) ending results from
    h source [] isCut_nil hscript hbytes
  intro after
  induction after with
  | nil =>
      intro before hbefore _ hwhole
      rw [List.append_nil] at hwhole ⊢
      refine ⟨plain, ?_, ?_, hcut before ⟨hbefore, hwhole⟩⟩
      · simpa using hplain
      · rw [hbefore.reported_eq_nil]
        simpa [List.filterMap_eq_nil_iff] using hplain
  | cons arrival after ih =>
      intro before hbefore hall hwhole
      cases arrival with
      | data found =>
          have hfound : IsCut (before ++ [.data found]) :=
            hbefore.append (.cons (hall found (by simp)) isCut_nil)
          rw [List.append_cons] at hall hwhole ⊢
          exact ih _ hfound hall hwhole
      | fault cause =>
          rw [bytes_remove_fault] at hwhole
          have hscript : IsScript before := hall.mono (List.subset_append_left _ _)
          obtain ⟨results, hresults⟩ := ih before hbefore hall.remove_fault hwhole
          by_cases hkind : cause.kind = .interrupted
          · exact ⟨results, hresults.interrupted hkind hscript⟩
          · obtain ⟨first, second, -, hinserted⟩ :=
              hresults.insert hkind hscript hending
            exact ⟨_, hinserted⟩

end Scripts

end Inbox

end RemoteCalc.Wire
