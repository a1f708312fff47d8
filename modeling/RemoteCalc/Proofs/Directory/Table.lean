import RemoteCalc.Proofs.Directory.Defect
import RemoteCalc.Proofs.Json.Plain

/-!
# Endpoint tables

With a library that does what it is documented to do, a table is loaded from every spelling
of an array of endpoints, the one that is written for them among others, and from no other
text.  What is no such array, one without elements and what is no text at all are told apart.
-/

namespace RemoteCalc.Directory

open Json

variable {json : Library} (hreads : json.Reads)
  (htexts : json.ReadsTexts (readTable json))

/-! ## Tables -/

include hreads in
theorem readTable_eq_some_iff {value : Value} {endpoints : List Endpoint} :
    readTable json value = some endpoints ↔
      ∃ values, value = .array values ∧ List.Forall₂ IsEndpoint endpoints values := by
  simp only [readTable, hreads.lists, ofValue?_eq_some_iff hreads]

private theorem parse_cases (json : Library) (text : List Char) :
    (∃ endpoints, parse json text = .ok endpoints) ∨
      parse json text = .error .noEndpoints ∨
      ∃ reason, parse json text = .error (.malformedTable reason) := by
  unfold parse
  split <;> simp

section Parse

include hreads htexts

theorem fromText_eq_ok_iff {text : List Char} {endpoints : List Endpoint} :
    json.fromText (readTable json) text = .ok endpoints ↔
      ∃ values, Spells text (Value.array values).tokens ∧
        List.Forall₂ IsEndpoint endpoints values := by
  simp only [htexts text endpoints, readTable_eq_some_iff hreads]
  constructor
  · rintro ⟨value, hvalue, values, rfl, hendpoints⟩
    exact ⟨values, hvalue, hendpoints⟩
  · rintro ⟨values, hvalue, hendpoints⟩
    exact ⟨_, hvalue, values, rfl, hendpoints⟩

theorem parse_eq_ok_iff {text : List Char} {endpoints : List Endpoint} :
    parse json text = .ok endpoints ↔ endpoints ≠ [] ∧
      ∃ values, Spells text (Value.array values).tokens ∧
        List.Forall₂ IsEndpoint endpoints values := by
  rw [← fromText_eq_ok_iff hreads htexts]
  unfold parse
  generalize json.fromText (readTable json) text = read
  match read with
  | .error reason => simp
  | .ok [] => simp
  | .ok (endpoint :: rest) =>
      simp only [Except.ok.injEq, iff_and_self]
      rintro rfl
      exact List.cons_ne_nil _ _

theorem parse_eq_noEndpoints_iff {text : List Char} :
    parse json text = .error .noEndpoints ↔ Spells text (Value.array []).tokens := by
  have hread := @fromText_eq_ok_iff json hreads htexts text []
  simp only [List.forall₂_nil_left_iff, exists_eq_right] at hread
  rw [← hread]
  unfold parse
  generalize json.fromText (readTable json) text = read
  match read with
  | .error reason => simp
  | .ok [] => simp
  | .ok (endpoint :: rest) => simp

private theorem exists_malformed {text : List Char}
    (h : ∀ endpoints values, Spells text (Value.array values).tokens →
      ¬ List.Forall₂ IsEndpoint endpoints values) :
    ∃ reason, parse json text = .error (.malformedTable reason) := by
  rcases parse_cases json text with ⟨endpoints, hok⟩ | hnone | hmalformed
  · obtain ⟨-, values, hspells, hendpoints⟩ := (parse_eq_ok_iff hreads htexts).mp hok
    exact absurd hendpoints (h endpoints values hspells)
  · exact absurd .nil (h [] [] ((parse_eq_noEndpoints_iff hreads htexts).mp hnone))
  · exact hmalformed

end Parse

theorem exists_endpoints_iff {values : List Value} :
    (∃ endpoints, List.Forall₂ IsEndpoint endpoints values) ↔
      ∀ value ∈ values, ¬ IsDefective value := by
  induction values with
  | nil => simp
  | cons value values ih =>
      rw [List.forall_mem_cons, ← ih]
      constructor
      · rintro ⟨_, _ | ⟨hendpoint, hendpoints⟩⟩
        exact ⟨fun hdefective => hdefective.not_isEndpoint _ hendpoint, _, hendpoints⟩
      · rintro ⟨hsound, endpoints, hendpoints⟩
        obtain ⟨endpoint, hendpoint⟩ := exists_isEndpoint hsound
        exact ⟨endpoint :: endpoints, .cons hendpoint hendpoints⟩

/-- One defective element is enough to refuse an array, and nothing else is. -/
theorem exists_malformed_array_iff (hreads : json.Reads)
    (htexts : json.ReadsTexts (readTable json)) {text : List Char} {values : List Value}
    (hspells : Spells text (Value.array values).tokens) :
    (∃ reason, parse json text = .error (.malformedTable reason)) ↔
      ∃ value ∈ values, IsDefective value := by
  constructor
  · rintro ⟨reason, h⟩
    by_contra hnone
    push Not at hnone
    obtain ⟨endpoints, hendpoints⟩ := exists_endpoints_iff.mpr hnone
    cases hendpoints with
    | nil => simp [(parse_eq_noEndpoints_iff hreads htexts).mpr hspells] at h
    | cons hfirst hrest =>
        have hok := (parse_eq_ok_iff hreads htexts).mpr
          ⟨List.cons_ne_nil _ _, _, hspells, .cons hfirst hrest⟩
        simp [hok] at h
  · rintro ⟨value, hvalue, hdefective⟩
    refine exists_malformed hreads htexts fun endpoints others hothers hendpoints => ?_
    have hread := ofChars?_eq_some_iff.mpr hspells
    rw [ofChars?_eq_some_iff.mpr hothers] at hread
    cases hread
    exact exists_endpoints_iff.mp ⟨endpoints, hendpoints⟩ value hvalue hdefective

/-! ## Files -/

def utf8 (text : List Char) : Wire.Bytes := (String.ofList text).toUTF8.data.toList

theorem decodeText?_eq_some_iff {bytes : Wire.Bytes} {text : List Char} :
    decodeText? bytes = some text ↔ bytes = utf8 text := by
  have hvalid (string : String) :
      String.fromUTF8? ⟨string.toUTF8.data.toList.toArray⟩ = some string := by
    have hbytes : (⟨string.toUTF8.data.toList.toArray⟩ : ByteArray) =
        string.toByteArray := by simp
    rw [hbytes, String.fromUTF8?, dif_pos string.isValidUTF8]
    rfl
  constructor
  · intro h
    obtain ⟨string, hstring, rfl⟩ := Option.map_eq_some_iff.mp h
    unfold String.fromUTF8? at hstring
    split_ifs at hstring
    cases hstring
    simp [utf8, String.fromUTF8]
  · rintro rfl
    simp only [decodeText?, utf8, hvalid]
    simp

private theorem load_utf8 (json : Library) (path : String) (text : List Char) :
    load json path (.ok (utf8 text)) = parse json text := by
  simp [load, decodeText?_eq_some_iff.mpr rfl]

private theorem parse_ne_config (json : Library) (text : List Char)
    (fault : ConfigFault) :
    parse json text ≠ .error (.config fault) := by
  rcases parse_cases json text with ⟨endpoints, h⟩ | h | ⟨reason, h⟩ <;> simp [h]

theorem load_eq_config_iff (json : Library) (path : String)
    (content : Except IoFault Wire.Bytes) :
    (∃ fault, load json path content = .error (.config fault)) ↔
      ∀ text, content ≠ .ok (utf8 text) := by
  cases content with
  | error cause => simp [load]
  | ok bytes =>
      cases htext : decodeText? bytes with
      | none =>
          refine iff_of_true
            ⟨.unreadableTable path ⟨.invalidText, none⟩, by simp only [load, htext]⟩ ?_
          rintro text ⟨⟩
          rw [decodeText?_eq_some_iff.mpr rfl] at htext
          contradiction
      | some text =>
          obtain rfl := decodeText?_eq_some_iff.mp htext
          simp [load_utf8, parse_ne_config]

private theorem exists_text {path : String} {content : Except IoFault Wire.Bytes}
    {result : Except Fault (List Endpoint)} (h : load json path content = result)
    (hconfig : ∀ fault, result ≠ .error (.config fault)) :
    ∃ text, content = .ok (utf8 text) ∧ parse json text = result := by
  by_contra hnone
  have hunread : ∀ text, content ≠ .ok (utf8 text) := by
    rintro text rfl
    exact hnone ⟨text, rfl, by rw [← load_utf8 json path, h]⟩
  obtain ⟨fault, hfault⟩ := (load_eq_config_iff json path content).mpr hunread
  exact hconfig fault (h.symm.trans hfault)

include hreads htexts in
/--
A table is loaded whole or not at all.  A file that cannot be read as text, an array without
elements and every other text are told apart, and one defective element or anything after
the array makes the whole text malformed.
-/
theorem load_all_or_nothing (path : String) :
    (∀ content, (∃ fault, load json path content = .error (.config fault)) ↔
      ∀ text, content ≠ .ok (utf8 text)) ∧
    (∀ content, load json path content = .error .noEndpoints ↔
      ∃ text, content = .ok (utf8 text) ∧ Spells text (Value.array []).tokens) ∧
    (∀ content endpoints, load json path content = .ok endpoints →
      endpoints ≠ [] ∧ ∃ text values, content = .ok (utf8 text) ∧
        Spells text (Value.array values).tokens ∧
          List.Forall₂ IsEndpoint endpoints values) ∧
    (∀ content fault, load json path content = .error fault →
      (∃ cause, fault = .config cause) ∨ fault = .noEndpoints ∨
        ∃ reason, fault = .malformedTable reason) ∧
    (∀ text values, Spells text (Value.array values).tokens →
      ((∃ reason, load json path (.ok (utf8 text)) = .error (.malformedTable reason)) ↔
        ∃ value ∈ values, IsDefective value)) ∧
    (∀ front rest values, Spells front (Value.array values).tokens →
      (∃ c ∈ rest, isSpace c = false) →
        ∃ reason, load json path (.ok (utf8 (front ++ rest))) =
          .error (.malformedTable reason)) := by
  refine ⟨load_eq_config_iff json path, fun content => ⟨fun h => ?_, ?_⟩,
    fun content endpoints h => ?_, fun content fault h => ?_,
    fun text values hspells => ?_, fun front rest values hfront hrest => ?_⟩
  · obtain ⟨text, rfl, hparse⟩ := exists_text h (by simp)
    exact ⟨text, rfl, (parse_eq_noEndpoints_iff hreads htexts).mp hparse⟩
  · rintro ⟨text, rfl, hspells⟩
    rw [load_utf8, (parse_eq_noEndpoints_iff hreads htexts).mpr hspells]
  · obtain ⟨text, rfl, hparse⟩ := exists_text h (by simp)
    obtain ⟨hne, values, hspells, hendpoints⟩ :=
      (parse_eq_ok_iff hreads htexts).mp hparse
    exact ⟨hne, text, values, rfl, hspells, hendpoints⟩
  · by_cases hconfig : ∃ cause, fault = .config cause
    · exact .inl hconfig
    · obtain ⟨text, rfl, hparse⟩ := exists_text h (by simpa using hconfig)
      rcases parse_cases json text with ⟨endpoints, hok⟩ | hnone | ⟨reason, hmalformed⟩
      · simp [hok] at hparse
      · exact .inr (.inl (by simpa [hnone] using hparse.symm))
      · exact .inr (.inr ⟨reason, by simpa [hmalformed] using hparse.symm⟩)
  · simp only [load_utf8, exists_malformed_array_iff hreads htexts hspells]
  · rw [load_utf8]
    exact exists_malformed hreads htexts fun _ _ hspells _ =>
      not_spells_append hfront hrest hspells

/-- No element, one that is no endpoint, and something after the array. -/
theorem load_all_or_nothing_plain :
    (plain.Reads ∧ plain.ReadsTexts (readTable plain)) ∧
    load plain "servers.json" (.ok (utf8 "[]".toList)) = .error .noEndpoints ∧
    (∃ reason, load plain "servers.json" (.ok (utf8 "[7]".toList)) =
      .error (.malformedTable reason)) ∧
    ∃ reason, load plain "servers.json" (.ok (utf8 ("[]".toList ++ ['7']))) =
      .error (.malformedTable reason) := by
  have htexts := plain_readsTexts (readTable plain)
  have hnone : Spells "[]".toList (Value.array []).tokens := @spells_array [] [] .nil
  have hseven : Spells ['7'] (Value.number ['7']).tokens := by
    rw [Value.tokens]
    exact (SpellsToken.number (Plain.isNumber_digits 7)).alone
  have hone : Spells "[7]".toList (Value.array [.number ['7']]).tokens :=
    spells_array (.cons hseven .nil)
  have hdefective : IsDefective (.number ['7']) := .kind (by simp) (by simp)
  obtain ⟨-, hempty, -, -, helements, hrest⟩ :=
    load_all_or_nothing plain_reads htexts "servers.json"
  exact ⟨⟨plain_reads, htexts⟩, (hempty _).mpr ⟨_, rfl, hnone⟩,
    (helements _ _ hone).mpr ⟨_, List.mem_singleton_self _, hdefective⟩,
    hrest _ _ _ hnone ⟨'7', List.mem_singleton_self _, by decide⟩⟩

/-! ## Written tables -/

theorem exists_written (hwrites : json.Writes) (endpoint : Endpoint) :
    ∃ value, Spells (endpoint.written json) value.tokens ∧
      IsEndpoint endpoint value := by
  obtain ⟨name, hname, hnameText⟩ := hwrites.strings endpoint.name
  obtain ⟨address, haddress, haddressText⟩ := hwrites.strings endpoint.address.text
  obtain ⟨port, hport, hportValue⟩ := hwrites.naturals endpoint.port.toNat
  obtain ⟨transport, htransport, htransportText⟩ :=
    hwrites.strings endpoint.transport.word
  have hmembers : List.Forall₂ (fun member value => Spells member.2 value.tokens)
      (endpoint.members json) [name, address, port, transport] :=
    .cons hname (.cons haddress (.cons hport (.cons htransport .nil)))
  obtain ⟨pairs, hpairs, hnamed⟩ := hwrites.records hmembers
  exact ⟨.object pairs, hpairs, .fields hnamed (.refl _)
    (.cons hnameText (.cons haddressText (.cons hportValue
      (.cons (.word htransportText) .nil))))⟩

private theorem exists_table (hwrites : json.Writes) (endpoints : List Endpoint) :
    ∃ values,
      Spells ('[' :: List.intercalate [','] (endpoints.map (Endpoint.written json)) ++ [']'])
        (Value.array values).tokens ∧
      List.Forall₂ IsEndpoint endpoints values := by
  have hwritten : ∃ values,
      List.Forall₂ (fun text value => Spells text value.tokens)
        (endpoints.map (Endpoint.written json)) values ∧
          List.Forall₂ IsEndpoint endpoints values := by
    induction endpoints with
    | nil => exact ⟨[], .nil, .nil⟩
    | cons endpoint endpoints ih =>
        obtain ⟨value, hvalue, hendpoint⟩ := exists_written hwrites endpoint
        obtain ⟨values, hvalues, hendpoints⟩ := ih
        exact ⟨value :: values, .cons hvalue hvalues, .cons hendpoint hendpoints⟩
  obtain ⟨values, hvalues, hendpoints⟩ := hwritten
  exact ⟨values, spells_array hvalues, hendpoints⟩

include hreads htexts in
/--
Every spelling of an array of endpoints loads as those endpoints in their order, and so does
what is written for them.
-/
theorem load_spelled (hwrites : json.Writes) (path : String) {endpoints : List Endpoint}
    (hne : endpoints ≠ []) :
    (∀ text values, Spells text (Value.array values).tokens →
      List.Forall₂ IsEndpoint endpoints values →
        load json path (.ok (utf8 text)) = .ok endpoints) ∧
    load json path (.ok (utf8
      ('[' :: List.intercalate [','] (endpoints.map (Endpoint.written json)) ++ [']']))) =
        .ok endpoints := by
  have hload (text : List Char) (values : List Value)
      (hspells : Spells text (Value.array values).tokens)
      (hendpoints : List.Forall₂ IsEndpoint endpoints values) :
      load json path (.ok (utf8 text)) = .ok endpoints := by
    rw [load_utf8]
    exact (parse_eq_ok_iff hreads htexts).mpr ⟨hne, values, hspells, hendpoints⟩
  obtain ⟨values, hspells, hendpoints⟩ := exists_table hwrites endpoints
  exact ⟨hload, hload _ values hspells hendpoints⟩

theorem load_spelled_local :
    (plain.Reads ∧ plain.ReadsTexts (readTable plain) ∧ plain.Writes ∧ localServers ≠ []) ∧
    (∀ text values, Spells text (Value.array values).tokens →
      List.Forall₂ IsEndpoint localServers values →
        load plain "servers.json" (.ok (utf8 text)) = .ok localServers) ∧
    load plain "servers.json" (.ok (utf8
      ('[' :: List.intercalate [','] (localServers.map (Endpoint.written plain)) ++ [']']))) =
        .ok localServers := by
  have hne : localServers ≠ [] := by decide
  have htexts := plain_readsTexts (readTable plain)
  exact ⟨⟨plain_reads, htexts, plain_writes, hne⟩,
    load_spelled plain_reads htexts plain_writes "servers.json" hne⟩

end RemoteCalc.Directory
