import RemoteCalc.Proofs.Directory.Endpoint
import RemoteCalc.Proofs.Lists

/-!
# Defective elements

Each way in which a value can fail to stand for an endpoint has a name here, and there are
no others.
-/

namespace RemoteCalc.Directory

open Json

inductive IsDefective : Value → Prop
  | kind {value : Value} (harray : ∀ values, value ≠ .array values)
      (hobject : ∀ members, value ≠ .object members) : IsDefective value
  | length {values : List Value} (h : values.length ≠ Field.all.length) :
      IsDefective (.array values)
  | place {values : List Value} {field : Field} {value : Value}
      (hplace : (field, value) ∈ Field.all.zip values)
      (hwrong : ∀ endpoint : Endpoint, ¬ endpoint.Has field value) :
      IsDefective (.array values)
  | unnamed {members : List Member} {member : Member} (hmember : member ∈ members)
      (h : ∀ text, ¬ IsText member.1 text) : IsDefective (.object members)
  | missing {members : List Member} {field : Field}
      (h : ∀ member ∈ members, ¬ IsText member.1 field.key.toList) :
      IsDefective (.object members)
  | repeated {members : List Member} {first second : Member} {field : Field}
      (hsub : [first, second].Sublist members)
      (hfirst : IsText first.1 field.key.toList)
      (hsecond : IsText second.1 field.key.toList) : IsDefective (.object members)
  | wrong {members : List Member} {member : Member} {field : Field} (hmember : member ∈ members)
      (hkey : IsText member.1 field.key.toList)
      (hwrong : ∀ endpoint : Endpoint, ¬ endpoint.Has field member.2) :
      IsDefective (.object members)

variable {members few : List Member} {named : List (String × Value)} {field : Field}

/-! ## No endpoint has a defect -/

theorem IsEndpoint.only {endpoint : Endpoint}
    (h : IsEndpoint endpoint (.object members)) (field : Field) :
    ∃ named value, IsNamed members named ∧ endpoint.Has field value ∧
      named.filter (fun member => member.1 = field.key) = [(field.key, value)] := by
  have hnodup : keys.Nodup := by decide
  cases h with
  | fields hnamed hknown hvalues =>
      obtain ⟨name, address, port, transport, rfl, hname, haddress, hport, htransport⟩ :=
        forall₂_fields_iff.mp hvalues
      have honly (key : String) (value : Value)
          (hmem : (key, value) ∈ keys.zip [name, address, port, transport]) :=
        filter_eq_of_perm hnodup hknown hmem
      have hzip : keys.zip [name, address, port, transport] = [("name", name),
        ("address", address), ("port", port), ("transport", transport)] := rfl
      cases field with
      | name => exact ⟨_, name, hnamed, hname, honly _ _ (by simp [hzip, Field.key])⟩
      | address => exact ⟨_, address, hnamed, haddress, honly _ _ (by simp [hzip, Field.key])⟩
      | port => exact ⟨_, port, hnamed, hport, honly _ _ (by simp [hzip, Field.key])⟩
      | transport =>
          exact ⟨_, transport, hnamed, htransport,
            honly _ _ (by simp [hzip, Field.key])⟩

private theorem sublist_filter {key : String} (hnamed : IsNamed members named)
    (hsub : few.Sublist members) (hkey : ∀ member ∈ few, IsText member.1 key.toList) :
    (few.map fun member => (key, member.2)).Sublist
      (named.filter fun member => member.1 = key) := by
  obtain ⟨fewNamed, hfew, hfewNamed⟩ := forall₂_sublist hnamed hsub
  have hsame : fewNamed = few.map fun member => (key, member.2) := by
    clear hfew hsub
    induction hfewNamed with
    | nil => rfl
    | @cons member entry few rest hmember _ ih =>
        obtain ⟨hfirst, hrest⟩ := List.forall_mem_cons.mp hkey
        have hentry : entry = (key, member.2) :=
          Prod.ext (String.toList_inj.mp (hmember.1.unique hfirst)) hmember.2.symm
        rw [ih hrest, hentry, List.map_cons]
  rw [← hsame]
  have hall : fewNamed.filter (fun member => member.1 = key) = fewNamed := by
    refine List.filter_eq_self.mpr fun entry hentry => ?_
    obtain ⟨member, -, rfl⟩ := List.mem_map.mp (hsame ▸ hentry)
    simp
  rw [← hall]
  exact hfew.filter _

private theorem exists_members {entries : List (String × Value)}
    (hnamed : IsNamed members named) (hsub : entries.Sublist named) :
    ∃ few : List Member, few.Sublist members ∧ IsNamed few entries := by
  obtain ⟨few, hfew, hentries⟩ := forall₂_sublist hnamed.flip hsub
  exact ⟨few, hfew, hentries.flip⟩

theorem IsDefective.not_isEndpoint {value : Value} (h : IsDefective value)
    (endpoint : Endpoint) : ¬ IsEndpoint endpoint value := by
  intro hendpoint
  cases h with
  | kind harray hobject =>
      cases hendpoint with
      | row => exact harray _ rfl
      | fields => exact hobject _ rfl
  | length h =>
      cases hendpoint with
      | row hvalues => exact h hvalues.length_eq.symm
  | place hplace hwrong =>
      cases hendpoint with
      | row hvalues => exact hwrong endpoint ((List.forall₂_iff_zip.mp hvalues).2 hplace)
  | unnamed hmember h =>
      obtain ⟨named, value, hnamed, -⟩ := hendpoint.only .name
      obtain ⟨entries, -, hentries⟩ :=
        forall₂_sublist hnamed (List.singleton_sublist.mpr hmember)
      cases hentries with
      | cons hentry => exact h _ hentry.1
  -- The entry that the field was read from comes from a member with its key.
  | @missing members field h =>
      obtain ⟨named, value, hnamed, -, honly⟩ := hendpoint.only field
      have hentry : [(field.key, value)].Sublist named := honly ▸ List.filter_sublist
      obtain ⟨few, hfew, hentries⟩ := exists_members hnamed hentry
      cases hentries with
      | cons hmember hnil =>
          cases hnil
          exact h _ (List.singleton_sublist.mp hfew) hmember.1
  | @repeated members first second field hsub hfirst hsecond =>
      obtain ⟨named, value, hnamed, -, honly⟩ := hendpoint.only field
      have htwice := sublist_filter hnamed hsub
        (by simp [hfirst, hsecond] : ∀ member ∈ [first, second], IsText member.1 field.key.toList)
      rw [honly] at htwice
      exact absurd htwice.length_le (by simp)
  | @wrong members member field hmember hkey hwrong =>
      obtain ⟨named, value, hnamed, hvalue, honly⟩ := hendpoint.only field
      have hfound := sublist_filter hnamed (List.singleton_sublist.mpr hmember)
        (by simp [hkey] : ∀ other ∈ [member], IsText other.1 field.key.toList)
      rw [honly] at hfound
      have heq : member.2 = value := by simpa using hfound
      exact hwrong endpoint (heq ▸ hvalue)

/-! ## What has no defect is an endpoint -/

theorem exists_endpoint {name address port transport : Value}
    (hname : ∃ endpoint : Endpoint, endpoint.Has .name name)
    (haddress : ∃ endpoint : Endpoint, endpoint.Has .address address)
    (hport : ∃ endpoint : Endpoint, endpoint.Has .port port)
    (htransport : ∃ endpoint : Endpoint, endpoint.Has .transport transport) :
    ∃ endpoint : Endpoint,
      List.Forall₂ endpoint.Has Field.all [name, address, port, transport] := by
  obtain ⟨first, hname⟩ := hname
  obtain ⟨second, haddress⟩ := haddress
  obtain ⟨third, hport⟩ := hport
  obtain ⟨fourth, htransport⟩ := htransport
  exact ⟨⟨first.name, second.address, third.port, fourth.transport⟩,
    .cons hname (.cons haddress (.cons hport (.cons htransport .nil)))⟩

private theorem exists_named (h : ∀ member ∈ members, ∃ text, IsText member.1 text) :
    ∃ named, IsNamed members named := by
  induction members with
  | nil => exact ⟨[], .nil⟩
  | cons member members ih =>
      obtain ⟨⟨text, htext⟩, hrest⟩ := List.forall_mem_cons.mp h
      obtain ⟨named, hnamed⟩ := ih hrest
      exact ⟨(String.ofList text, member.2) :: named,
        .cons ⟨by rwa [String.toList_ofList], rfl⟩ hnamed⟩

/-- Without a defect a field is there once, with a value of its kind. -/
theorem exists_only (h : ¬ IsDefective (.object members))
    (hnamed : IsNamed members named) (field : Field) :
    ∃ value, named.filter (fun member => member.1 = field.key) = [(field.key, value)] ∧
      ∃ endpoint : Endpoint, endpoint.Has field value := by
  obtain ⟨member, hmember, hkey⟩ : ∃ member ∈ members, IsText member.1 field.key.toList := by
    by_contra hnone
    push Not at hnone
    exact h (.missing hnone)
  have hfound := sublist_filter hnamed (List.singleton_sublist.mpr hmember)
    (by simp [hkey] : ∀ other ∈ [member], IsText other.1 field.key.toList)
  have hwhole : named.filter (fun entry => entry.1 = field.key) =
      [(field.key, member.2)] := by
    match hfilter : named.filter fun entry => entry.1 = field.key with
    | [] =>
        rw [hfilter] at hfound
        simp at hfound
    | [entry] =>
        rw [hfilter] at hfound
        have heq : (field.key, member.2) = entry := by simpa using hfound
        rwa [heq]
    | first :: second :: rest =>
        -- Two entries of one name come from two members with its key.
        have hkeys : ∀ entry ∈ first :: second :: rest, entry.1 = field.key := by
          intro entry hentry
          rw [← hfilter] at hentry
          exact of_decide_eq_true (List.mem_filter.mp hentry).2
        have htwo : [first, second].Sublist named :=
          ((List.nil_sublist rest).cons_cons second |>.cons_cons first).trans
            (hfilter ▸ List.filter_sublist)
        obtain ⟨few, hfew, hentries⟩ := exists_members hnamed htwo
        rcases hentries with _ | ⟨hfirst, _ | ⟨hsecond, _ | _⟩⟩
        rw [hkeys first (by simp)] at hfirst
        rw [hkeys second (by simp)] at hsecond
        exact absurd (.repeated hfew hfirst.1 hsecond.1) h
  refine ⟨member.2, hwhole, ?_⟩
  by_contra hnone
  push Not at hnone
  exact h (.wrong hmember hkey hnone)

theorem exists_isEndpoint {value : Value} (h : ¬ IsDefective value) :
    ∃ endpoint, IsEndpoint endpoint value := by
  have hnodup : keys.Nodup := by decide
  cases value with
  | array values =>
      have hlength : values.length = 4 := by
        by_contra hwrong
        exact h (.length hwrong)
      obtain ⟨name, address, port, transport, rfl⟩ := List.length_eq_four.mp hlength
      have hplace (field : Field) (value : Value)
          (hmem : (field, value) ∈ Field.all.zip [name, address, port, transport]) :
          ∃ endpoint : Endpoint, endpoint.Has field value := by
        by_contra hnone
        push Not at hnone
        exact h (.place hmem hnone)
      obtain ⟨endpoint, hvalues⟩ :=
        exists_endpoint (hplace .name name (by simp [Field.all]))
        (hplace .address address (by simp [Field.all])) (hplace .port port (by simp [Field.all]))
        (hplace .transport transport (by simp [Field.all]))
      exact ⟨endpoint, .row hvalues⟩
  | object members =>
      obtain ⟨named, hnamed⟩ : ∃ named, IsNamed members named := by
        refine exists_named fun member hmember => ?_
        by_contra hnone
        push Not at hnone
        exact h (.unnamed hmember hnone)
      obtain ⟨name, hname, hnameHas⟩ := exists_only h hnamed .name
      obtain ⟨address, haddress, haddressHas⟩ := exists_only h hnamed .address
      obtain ⟨port, hport, hportHas⟩ := exists_only h hnamed .port
      obtain ⟨transport, htransport, htransportHas⟩ := exists_only h hnamed .transport
      obtain ⟨endpoint, hvalues⟩ :=
        exists_endpoint hnameHas haddressHas hportHas htransportHas
      have hknown := filter_mem_perm hnodup
        (.cons hname (.cons haddress (.cons hport (.cons htransport .nil))))
      exact ⟨endpoint, .fields hnamed hknown hvalues⟩
  | _ => exact absurd (.kind (by simp) (by simp)) h

end RemoteCalc.Directory
