import RemoteCalc.Net.Address
import RemoteCalc.Proofs.Number.Digits

/-!
# The notation of addresses

An octet has one spelling without leading zeros, so that an address has one text.  No
other text is read as it.
-/

namespace RemoteCalc.Net

open Number Text

theorem octet?_eq_some_iff {cs rest : List Char} {octet : UInt8} :
    octet? cs = some (octet, rest) ↔
      cs = digits octet.toNat ++ rest ∧ StopsAt Char.isDigit rest := by
  constructor
  · intro h
    simp only [octet?] at h
    split_ifs at h with hbad
    obtain ⟨hne, -, hshort⟩ := not_or.mp hbad |>.imp_right not_or.mp
    obtain ⟨n, hn, heq⟩ := Option.map_eq_some_iff.mp h
    simp only [atMost?] at hn
    split_ifs at hn with hle
    cases hn
    cases heq
    have hrun : IsDigits (cs.takeWhile Char.isDigit) :=
      ⟨hne, fun _ hc => List.mem_takeWhile_imp hc⟩
    have hoctet : (digitValue (cs.takeWhile Char.isDigit)).toUInt8.toNat =
        digitValue (cs.takeWhile Char.isDigit) := by
      simp
      omega
    rw [hoctet, digits_digitValue hrun (isCanonical_of_short hshort),
      List.takeWhile_append_dropWhile]
    exact ⟨rfl, stopsAt_dropWhile _ _⟩
  · rintro ⟨rfl, hrest⟩
    have hlt := octet.toNat_lt
    have hcount : (digits octet.toNat).length ≤ 3 :=
      (digitCount_le_iff (by decide)).mpr (by omega)
    have hcanonical := isCanonical_digits octet.toNat
    have hshort : ¬ ((digits octet.toNat).head? = some '0' ∧ 1 < (digits octet.toNat).length) := by
      rintro ⟨hhead, hlong⟩
      rw [hcanonical hhead] at hlong
      contradiction
    have hvalue : digitValue (digits octet.toNat) = octet.toNat :=
      Nat.ofDigitChars_ten_toDigits
    simp only [octet?, takeWhile_run isDigit_digits hrest,
      dropWhile_run isDigit_digits hrest]
    rw [if_neg (by simp [digits_ne_nil, hcount]; simpa using hshort), hvalue, atMost?,
      if_pos (by omega)]
    simp

theorem take?_eq_some_iff {c : Char} {cs rest : List Char} :
    take? c cs = some rest ↔ cs = c :: rest := by
  cases cs with
  | nil => simp [take?]
  | cons d cs => simp [take?]

private theorem text_toList (address : Ipv4) :
    address.text.toList =
      digits address.first.toNat ++ '.' :: (digits address.second.toNat ++
        '.' :: (digits address.third.toNat ++ '.' :: digits address.fourth.toNat)) := by
  simp [Ipv4.text, Ipv4.octets, digits, Nat.repr]

theorem ipv4?_eq_some_iff {cs rest : List Char} {address : Ipv4} :
    ipv4? cs = some (address, rest) ↔
      cs = address.text.toList ++ rest ∧ StopsAt Char.isDigit rest := by
  have hpoint (cs : List Char) : StopsAt Char.isDigit ('.' :: cs) := rfl
  obtain ⟨first, second, third, fourth⟩ := address
  rw [text_toList]
  simp only [ipv4?, Option.bind_eq_bind, Option.bind_eq_some_iff, Option.pure_def,
    Option.some.injEq, Prod.mk.injEq, Ipv4.mk.injEq, Prod.exists, take?_eq_some_iff,
    octet?_eq_some_iff]
  constructor
  · rintro ⟨_, _, ⟨rfl, -⟩, _, rfl, _, _, ⟨rfl, -⟩, _, rfl, _, _, ⟨rfl, -⟩, _, rfl, _, _,
      ⟨rfl, hrest⟩, ⟨rfl, rfl, rfl, rfl⟩, rfl⟩
    exact ⟨by simp, hrest⟩
  · rintro ⟨rfl, hrest⟩
    simp only [List.append_assoc, List.cons_append]
    exact ⟨first, _, ⟨rfl, hpoint _⟩, _, rfl, second, _, ⟨rfl, hpoint _⟩, _, rfl,
      third, _, ⟨rfl, hpoint _⟩, _, rfl, fourth, rest, ⟨rfl, hrest⟩,
      ⟨rfl, rfl, rfl, rfl⟩, rfl⟩

theorem ofChars?_eq_some_iff {cs : List Char} {address : Ipv4} :
    Ipv4.ofChars? cs = some address ↔ cs = address.text.toList := by
  have hread : Ipv4.ofChars? cs = some address ↔ ipv4? cs = some (address, []) := by
    unfold Ipv4.ofChars?
    split <;> simp_all
  simp [hread, ipv4?_eq_some_iff, stopsAt_nil]

end RemoteCalc.Net
