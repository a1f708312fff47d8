import RemoteCalc.Directory.Table
import RemoteCalc.Proofs.Json.Library
import RemoteCalc.Proofs.Net.Address

/-!
# Values that stand for endpoints

Each field of an endpoint has its own kind of value.  An endpoint is read from an array of
the four values, or from an object that has the four fields once each among any others.
-/

namespace RemoteCalc.Directory

open Json

/-! ## Fields -/

inductive Field where
  | name
  | address
  | port
  | transport
  deriving DecidableEq, Repr

namespace Field

def key : Field → String
  | name => "name"
  | address => "address"
  | port => "port"
  | transport => "transport"

def all : List Field := [name, address, port, transport]

end Field

def keys : List String := Field.all.map Field.key

def Endpoint.Has (endpoint : Endpoint) : Field → Value → Prop
  | .name => IsString endpoint.name
  | .address => IsString endpoint.address.text
  | .port => IsNatural endpoint.port.toNat
  | .transport => IsWord endpoint.transport.word

/-- The four values in an array, or as the known fields of an object, in any order. -/
inductive IsEndpoint (endpoint : Endpoint) : Value → Prop
  | row {values : List Value} (hvalues : List.Forall₂ endpoint.Has Field.all values) :
      IsEndpoint endpoint (.array values)
  | fields {members : List Member} {named : List (String × Value)} {values : List Value}
      (hnamed : IsNamed members named)
      (hknown : (named.filter fun member => member.1 ∈ keys).Perm (keys.zip values))
      (hvalues : List.Forall₂ endpoint.Has Field.all values) :
      IsEndpoint endpoint (.object members)

theorem isEndpoint_iff {endpoint : Endpoint} {value : Value} :
    IsEndpoint endpoint value ↔
      ∃ values, IsRecord keys values value ∧
        List.Forall₂ endpoint.Has Field.all values := by
  constructor
  · rintro (hvalues | ⟨hnamed, hknown, hvalues⟩)
    · exact ⟨_, .row hvalues.length_eq.symm, hvalues⟩
    · exact ⟨_, .members hvalues.length_eq.symm hnamed hknown, hvalues⟩
  · rintro ⟨values, hlength | ⟨hlength, hnamed, hknown⟩, hvalues⟩
    · exact .row hvalues
    · exact .fields hnamed hknown hvalues

theorem forall₂_fields_iff {endpoint : Endpoint} {values : List Value} :
    List.Forall₂ endpoint.Has Field.all values ↔
      ∃ name address port transport, values = [name, address, port, transport] ∧
        endpoint.Has .name name ∧ endpoint.Has .address address ∧
          endpoint.Has .port port ∧
          endpoint.Has .transport transport := by
  constructor
  · rintro (_ | ⟨hname, _ | ⟨haddress, _ | ⟨hport, _ | ⟨htransport, _ | _⟩⟩⟩⟩)
    exact ⟨_, _, _, _, rfl, hname, haddress, hport, htransport⟩
  · rintro ⟨name, address, port, transport, rfl, hname, haddress, hport, htransport⟩
    exact .cons hname (.cons haddress (.cons hport (.cons htransport .nil)))

/-! ## Reading endpoints -/

theorem ofWord?_eq_some_iff {word : String} {transport : Transport} :
    Transport.ofWord? word = some transport ↔ word = transport.word := by
  constructor
  · intro h
    unfold Transport.ofWord? at h
    split at h <;> cases h <;> rfl
  · rintro rfl
    exact Transport.ofWord?_word transport

private theorem word_mem_words (transport : Transport) :
    transport.word ∈ Transport.words := by
  cases transport <;> decide

section Reading

variable {json : Library} (hreads : json.Reads)
include hreads

theorem address_eq_some_iff {value : Value} {address : Net.Ipv4} :
    json.parsed Net.Ipv4.ofChars? value = some address ↔
      IsString address.text value := by
  rw [hreads.parses]
  constructor
  · rintro ⟨text, htext, haddress⟩
    rwa [← String.toList_inj.mp (Net.ofChars?_eq_some_iff.mp haddress)]
  · exact fun h => ⟨_, h, Net.ofChars?_eq_some_iff.mpr rfl⟩

theorem port_eq_some_iff {value : Value} {port : UInt16} :
    (json.natural Net.SocketAddress.maxPort value).map Nat.toUInt16 = some port ↔
      IsNatural port.toNat value := by
  have hmax : Net.SocketAddress.maxPort = 65535 := rfl
  have hfits : Net.SocketAddress.maxPort < 2 ^ 64 := by decide
  have hlt := port.toNat_lt
  simp only [Option.map_eq_some_iff, hreads.naturals hfits]
  constructor
  · rintro ⟨n, ⟨hn, hle⟩, rfl⟩
    have hsame : n.toUInt16.toNat = n := by
      simp
      omega
    rwa [hsame]
  · exact fun h => ⟨_, ⟨h, by omega⟩, by simp⟩

theorem transport_eq_some_iff {value : Value} {transport : Transport} :
    (json.word Transport.words value).bind Transport.ofWord? = some transport ↔
      IsWord transport.word value := by
  simp only [Option.bind_eq_some_iff, hreads.words, ofWord?_eq_some_iff]
  constructor
  · rintro ⟨word, ⟨-, hword⟩, rfl⟩
    exact hword
  · exact fun h => ⟨_, ⟨word_mem_words transport, h⟩, rfl⟩

theorem ofFields?_eq_some_iff {values : List Value} {endpoint : Endpoint} :
    Endpoint.ofFields? json values = some endpoint ↔
      List.Forall₂ endpoint.Has Field.all values := by
  rw [forall₂_fields_iff]
  constructor
  · intro h
    unfold Endpoint.ofFields? at h
    split at h
    · rename_i name address port transport
      simp only [Option.bind_eq_bind, Option.bind_eq_some_iff] at h
      obtain ⟨_, hname, _, haddress, port', hport, _, htransport, ⟨⟩⟩ := h
      refine ⟨_, _, _, _, rfl, hreads.strings.mp hname,
        (address_eq_some_iff hreads).mp haddress,
        (port_eq_some_iff hreads).mp (by rw [hport]; rfl), ?_⟩
      exact (transport_eq_some_iff hreads).mp (Option.bind_eq_some_iff.mpr htransport)
    · contradiction
  · rintro ⟨name, address, port, transport, rfl, hname, haddress, hport, htransport⟩
    obtain ⟨n, hn, hsame⟩ :=
      Option.map_eq_some_iff.mp ((port_eq_some_iff hreads).mpr hport)
    simp only [Endpoint.ofFields?, hreads.strings.mpr hname,
      (address_eq_some_iff hreads).mpr haddress, hn,
      (transport_eq_some_iff hreads).mpr htransport]
    simp [hsame]

theorem ofValue?_eq_some_iff {value : Value} {endpoint : Endpoint} :
    Endpoint.ofValue? json value = some endpoint ↔ IsEndpoint endpoint value := by
  have hnodup : Endpoint.names.Nodup := by decide
  rw [isEndpoint_iff, Endpoint.ofValue?, Option.bind_eq_some_iff]
  simp only [hreads.records hnodup, ofFields?_eq_some_iff hreads]
  rfl

end Reading

end RemoteCalc.Directory
