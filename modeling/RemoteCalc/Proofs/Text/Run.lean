import Mathlib.Data.List.Basic

/-!
# Longest runs

A reader that takes elements as long as they have a property stops exactly behind
a run of such elements if what follows the run does not begin with one more.
-/

namespace RemoteCalc.Text

variable {α : Type}

/-- A list that does not go on with an element of this property. -/
def StopsAt (p : α → Bool) : List α → Prop
  | [] => True
  | a :: _ => p a = false

theorem stopsAt_nil (p : α → Bool) : StopsAt p [] := trivial

theorem stopsAt_dropWhile (p : α → Bool) (list : List α) :
    StopsAt p (list.dropWhile p) := by
  induction list with
  | nil => trivial
  | cons a list ih =>
      rw [List.dropWhile_cons]
      split_ifs with ha
      · exact ih
      · exact Bool.eq_false_iff.mpr ha

theorem StopsAt.take {p : α → Bool} {list : List α} (h : StopsAt p list) (n : Nat) :
    StopsAt p (list.take n) := by
  cases list with
  | nil => rwa [List.take_nil]
  | cons a list =>
      cases n with
      | zero => exact stopsAt_nil p
      | succ n => exact h

theorem StopsAt.mono {p q : α → Bool} {list : List α} (h : StopsAt p list)
    (hpq : ∀ a, q a = true → p a = true) : StopsAt q list := by
  cases list with
  | nil => trivial
  | cons a list =>
      unfold StopsAt at h ⊢
      simpa [h] using hpq a

theorem takeWhile_run {p : α → Bool} {run rest : List α} (hrun : ∀ a ∈ run, p a = true)
    (hrest : StopsAt p rest) : (run ++ rest).takeWhile p = run := by
  rw [List.takeWhile_append_of_pos hrun]
  cases rest with
  | nil => simp
  | cons a rest => simp [show p a = false from hrest]

theorem dropWhile_run {p : α → Bool} {run rest : List α} (hrun : ∀ a ∈ run, p a = true)
    (hrest : StopsAt p rest) : (run ++ rest).dropWhile p = rest := by
  rw [List.dropWhile_append_of_pos hrun]
  cases rest with
  | nil => simp
  | cons a rest => simp [show p a = false from hrest]

end RemoteCalc.Text
