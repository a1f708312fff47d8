import Mathlib.Data.List.Basic
import Mathlib.Data.List.Count
import RemoteCalc.Wire.Frame

/-!
# Where a frame ends

The end of a frame depends on no byte behind it, and no shorter run of bytes has it.
-/

namespace RemoteCalc.Wire

/-! ## Counting terminators -/

theorem lengthThrough?_append {count length : Nat} {bytes : Bytes}
    (h : lengthThrough? count bytes = some length) (more : Bytes) :
    lengthThrough? count (bytes ++ more) = some length := by
  induction bytes generalizing count length with
  | nil =>
      cases count with
      | zero => simpa using h
      | succ count => simp at h
  | cons b bytes ih =>
      cases count with
      | zero => simpa using h
      | succ count =>
          simp only [List.cons_append, lengthThrough?] at h ⊢
          split at h <;> rename_i hb
          · obtain ⟨n, hn, rfl⟩ := Option.map_eq_some_iff.mp h
            rw [if_pos hb, ih hn, Option.map_some]
          · obtain ⟨n, hn, rfl⟩ := Option.map_eq_some_iff.mp h
            rw [if_neg hb, ih hn, Option.map_some]

theorem lengthThrough?_eq_none_iff {count : Nat} {bytes : Bytes} :
    lengthThrough? count bytes = none ↔ bytes.count terminator < count := by
  induction bytes generalizing count with
  | nil => cases count <;> simp
  | cons b bytes ih =>
      cases count with
      | zero => simp
      | succ count =>
          simp only [lengthThrough?]
          by_cases hb : b = terminator
          · rw [if_pos hb, Option.map_eq_none_iff, ih, hb, List.count_cons_self]
            omega
          · rw [if_neg hb, Option.map_eq_none_iff, ih, List.count_cons_of_ne hb]

private theorem lengthThrough?_take {count length : Nat} {bytes : Bytes}
    (h : lengthThrough? count bytes = some length) (kept : Nat) :
    lengthThrough? count (bytes.take kept) = if length ≤ kept then some length else none := by
  induction bytes generalizing count length kept with
  | nil =>
      cases count with
      | zero =>
          obtain rfl : 0 = length := by simpa using h
          simp
      | succ count => simp at h
  | cons b bytes ih =>
      cases count with
      | zero =>
          obtain rfl : 0 = length := by simpa using h
          simp
      | succ count =>
          simp only [lengthThrough?] at h
          cases kept with
          | zero =>
              split at h <;>
                · obtain ⟨n, -, rfl⟩ := Option.map_eq_some_iff.mp h
                  simp
          | succ kept =>
              simp only [List.take_succ_cons, lengthThrough?]
              split at h <;> rename_i hb
              · obtain ⟨n, hn, rfl⟩ := Option.map_eq_some_iff.mp h
                rw [if_pos hb, ih hn]
                simp only [Nat.add_le_add_iff_right]
                split <;> rfl
              · obtain ⟨n, hn, rfl⟩ := Option.map_eq_some_iff.mp h
                rw [if_neg hb, ih hn]
                simp only [Nat.add_le_add_iff_right]
                split <;> rfl

theorem lengthThrough?_eq_length_iff {count : Nat} {bytes : Bytes} :
    lengthThrough? (count + 1) bytes = some bytes.length ↔
      bytes.count terminator = count + 1 ∧ bytes.getLast? = some terminator := by
  induction bytes generalizing count with
  | nil => simp
  | cons b bytes ih =>
      have hsucc (found : Option Nat) :
          found.map (· + 1) = some (b :: bytes).length ↔ found = some bytes.length := by
        cases found <;> simp
      simp only [lengthThrough?]
      cases bytes with
      | nil =>
          by_cases hb : b = terminator
          · cases count <;> simp [hb]
          · simp [hb]
      | cons next bytes =>
          rw [List.getLast?_cons_cons]
          by_cases hb : b = terminator
          · rw [if_pos hb, hsucc, hb, List.count_cons_self]
            cases count with
            | zero =>
                have hlong : lengthThrough? 0 (next :: bytes) ≠ some (next :: bytes).length := by
                  simp
                refine iff_of_false hlong ?_
                rintro ⟨hcount, hlast⟩
                have := List.count_pos_iff.mpr (List.mem_of_getLast? hlast)
                omega
            | succ count => rw [ih, Nat.add_right_cancel_iff]
          · rw [if_neg hb, hsucc, ih, List.count_cons_of_ne hb]

/-! ## Frames -/

theorem frameLength?_append {length : Nat} {bytes : Bytes}
    (h : frameLength? bytes = some length) (more : Bytes) :
    frameLength? (bytes ++ more) = some length :=
  lengthThrough?_append h more

theorem frameLength?_eq_none_iff {bytes : Bytes} :
    frameLength? bytes = none ↔ bytes.count terminator < fieldCount :=
  lengthThrough?_eq_none_iff

theorem frameLength?_take {length : Nat} {bytes : Bytes}
    (h : frameLength? bytes = some length) (kept : Nat) :
    frameLength? (bytes.take kept) = if length ≤ kept then some length else none :=
  lengthThrough?_take h kept

theorem frameLength?_eq_length_iff {bytes : Bytes} :
    frameLength? bytes = some bytes.length ↔
      bytes.count terminator = fieldCount ∧ bytes.getLast? = some terminator :=
  lengthThrough?_eq_length_iff

theorem frameLength?_le {length : Nat} {bytes : Bytes}
    (h : frameLength? bytes = some length) : length ≤ bytes.length :=
  le_length_of_lengthThrough? h

end RemoteCalc.Wire
