import Mathlib.Data.List.Forall2

/-!
# Lists that are related place by place

Two lists stay related place by place when both change in the same place, when one is
given another element that is related as well, or when both lose the same places.
-/

namespace RemoteCalc

variable {α β : Type} {R : α → β → Prop} {as : List α} {bs : List β}

theorem forall₂_getElem? (h : List.Forall₂ R as bs) {i : Nat} {a : α}
    (ha : as[i]? = some a) :
    ∃ b, bs[i]? = some b ∧ R a b := by
  induction h generalizing i with
  | nil => contradiction
  | cons hab _ ih =>
      cases i with
      | zero =>
          cases ha
          exact ⟨_, rfl, hab⟩
      | succ i => exact ih ha

theorem forall₂_set (h : List.Forall₂ R as bs) {i : Nat} {a : α}
    (hab : ∀ b, bs[i]? = some b → R a b) : List.Forall₂ R (as.set i a) bs := by
  induction h generalizing i with
  | nil => exact .nil
  | cons hhead htail ih =>
      cases i with
      | zero => exact .cons (hab _ rfl) htail
      | succ i => exact .cons hhead (ih hab)

theorem forall₂_modify (h : List.Forall₂ R as bs) {f : α → α} {g : β → β}
    (hfg : ∀ a b, R a b → R (f a) (g b)) (i : Nat) :
    List.Forall₂ R (as.modify i f) (bs.modify i g) := by
  induction h generalizing i with
  | nil => cases i <;> exact .nil
  | cons hhead htail ih =>
      cases i with
      | zero => exact .cons (hfg _ _ hhead) htail
      | succ i => exact .cons hhead (ih i)

theorem forall₂_sublist {few : List α} (h : List.Forall₂ R as bs)
    (hsub : few.Sublist as) :
    ∃ others, others.Sublist bs ∧ List.Forall₂ R few others := by
  induction hsub generalizing bs with
  | slnil => exact ⟨[], List.nil_sublist bs, .nil⟩
  | cons a _ ih =>
      cases h with
      | cons _ htail =>
          obtain ⟨others, hothers, hfew⟩ := ih htail
          exact ⟨others, hothers.cons _, hfew⟩
  | cons_cons a _ ih =>
      cases h with
      | cons hhead htail =>
          obtain ⟨others, hothers, hfew⟩ := ih htail
          exact ⟨_, hothers.cons_cons _, .cons hhead hfew⟩

theorem countP_forall₂ (h : List.Forall₂ R as bs) {p : α → Bool} {q : β → Bool}
    (hpq : ∀ a b, R a b → p a = q b) : as.countP p = bs.countP q := by
  induction h with
  | nil => rfl
  | cons hhead _ ih => rw [List.countP_cons, List.countP_cons, ih, hpq _ _ hhead]

theorem set_of_getElem? {i : Nat} {a : α} (h : as[i]? = some a) : as.set i a = as := by
  obtain ⟨hlt, rfl⟩ := List.getElem?_eq_some_iff.mp h
  exact List.set_getElem_self hlt

theorem map_modify_same {γ : Type} {f : α → α} {g : α → γ} (h : ∀ a, g (f a) = g a)
    (as : List α) (i : Nat) : (as.modify i f).map g = as.map g := by
  induction as generalizing i with
  | nil => cases i <;> rfl
  | cons a as ih =>
      cases i with
      | zero => rw [List.modify_zero_cons, List.map_cons, List.map_cons, h]
      | succ i => rw [List.modify_succ_cons, List.map_cons, List.map_cons, ih]

theorem countP_set_add (p : α → Bool) {i : Nat} {a : α} (h : as[i]? = some a) (b : α) :
    (as.set i b).countP p + (p a).toNat = as.countP p + (p b).toNat := by
  induction as generalizing i with
  | nil => contradiction
  | cons first as ih =>
      cases i with
      | zero =>
          obtain rfl : first = a := Option.some.inj h
          rw [List.set_cons_zero, List.countP_cons, List.countP_cons]
          cases p first <;> cases p b <;> simp
      | succ i =>
          have hrest := ih h
          rw [List.set_cons_succ, List.countP_cons, List.countP_cons]
          omega

theorem filterMap_set_perm {γ : Type} (f : α → Option γ) {i : Nat} {a : α}
    (h : as[i]? = some a) (b : α) :
    ((as.set i b).filterMap f ++ (f a).toList).Perm (as.filterMap f ++ (f b).toList) := by
  induction as generalizing i with
  | nil => contradiction
  | cons first as ih =>
      have hcons (x : α) (xs : List α) :
          (x :: xs).filterMap f = (f x).toList ++ xs.filterMap f := by
        rw [List.filterMap_cons]
        cases f x <;> rfl
      cases i with
      | zero =>
          obtain rfl : first = a := Option.some.inj h
          rw [List.set_cons_zero, hcons, hcons, List.append_assoc (f first).toList]
          exact List.perm_append_comm.trans (List.perm_append_comm.append_left _)
      | succ i =>
          rw [List.set_cons_succ, hcons, hcons, List.append_assoc, List.append_assoc]
          exact (ih h).append_left _

end RemoteCalc
