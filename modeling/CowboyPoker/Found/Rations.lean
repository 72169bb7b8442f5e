import Mathlib.Data.List.Basic

/-!
# Spending from rations

Events of a run of which some spend and some give out a new ration of `quota`, whatever is left of the
old one.

* `Rationed` — a list of events spends no more than it has; it starts with some left and ends with some
  left.
* `Rationed.append` — lists in a row; `Rationed.of_countP` — a list that gives out no ration.
* `Rationed.countP_le` — between two rations no more than `quota` is spent.
-/

namespace CowboyPoker.Found

variable {α : Type} {renews spends : α → Bool} {quota b b' c : ℕ} {o o' : List α}

/-- With `b` left at the start, the events spend no more than they have, and at the end at least `b'` is
left. -/
inductive Rationed (renews spends : α → Bool) (quota : ℕ) : ℕ → List α → ℕ → Prop
  /-- Nothing happened. -/
  | nil {b b' : ℕ} (h : b' ≤ b) : Rationed renews spends quota b [] b'
  /-- A new ration. -/
  | renew {b b' : ℕ} {x : α} {o : List α} (hx : renews x = true)
      (h : Rationed renews spends quota quota o b') : Rationed renews spends quota b (x :: o) b'
  /-- Something is spent. -/
  | spend {b b' : ℕ} {x : α} {o : List α} (hx : renews x = false) (hs : spends x = true)
      (h : Rationed renews spends quota b o b') : Rationed renews spends quota (b + 1) (x :: o) b'
  /-- Any other event. -/
  | other {b b' : ℕ} {x : α} {o : List α} (hx : renews x = false) (hs : spends x = false)
      (h : Rationed renews spends quota b o b') : Rationed renews spends quota b (x :: o) b'

namespace Rationed

/-- More may be there at the start. -/
theorem mono (h : Rationed renews spends quota b o b') (hle : b ≤ c) :
    Rationed renews spends quota c o b' := by
  induction h generalizing c with
  | nil h => exact .nil (Nat.le_trans h hle)
  | renew hx h => exact .renew hx h
  | spend hx hs _ ih =>
      obtain ⟨c, rfl⟩ := Nat.exists_eq_add_of_lt hle
      exact .spend hx hs (ih (by omega))
  | other hx hs _ ih => exact .other hx hs (ih hle)

/-- Events in a row. -/
theorem append (h : Rationed renews spends quota b o c) (h' : Rationed renews spends quota c o' b') :
    Rationed renews spends quota b (o ++ o') b' := by
  induction h with
  | nil hle => exact h'.mono hle
  | renew hx _ ih => exact .renew hx (ih h')
  | spend hx hs _ ih => exact .spend hx hs (ih h')
  | other hx hs _ ih => exact .other hx hs (ih h')

/-- Events that give out no ration. -/
theorem of_countP (hquiet : ∀ x ∈ o, renews x = false) (hle : o.countP spends + b' ≤ b) :
    Rationed renews spends quota b o b' := by
  induction o generalizing b with
  | nil => exact .nil (by simpa using hle)
  | cons x o ih =>
      obtain ⟨hx, hquiet⟩ := List.forall_mem_cons.mp hquiet
      rw [List.countP_cons] at hle
      by_cases hs : spends x = true
      · rw [if_pos hs] at hle
        obtain ⟨b, rfl⟩ : ∃ c, b = c + 1 := ⟨b - 1, by omega⟩
        exact .spend hx hs (ih hquiet (by omega))
      · rw [if_neg hs] at hle
        exact .other hx (Bool.eq_false_iff.mpr hs) (ih hquiet hle)

/-- What is left in the middle of a list of events. -/
theorem exists_middle (h : Rationed renews spends quota b (o ++ o') b') (hle : b ≤ quota) :
    ∃ c ≤ quota, Rationed renews spends quota c o' b' := by
  induction o generalizing b with
  | nil => exact ⟨b, hle, h⟩
  | cons x o ih =>
      cases h with
      | renew _ h => exact ih h (Nat.le_refl quota)
      | spend _ _ h => exact ih h (Nat.le_of_succ_le hle)
      | other _ _ h => exact ih h hle

/-- Events that give out no ration spend what is left at most. -/
theorem countP_le_of_quiet (h : Rationed renews spends quota b (o ++ o') b')
    (hquiet : ∀ x ∈ o, renews x = false) : o.countP spends ≤ b := by
  induction o generalizing b with
  | nil => exact Nat.zero_le b
  | cons x o ih =>
      obtain ⟨hx, hquiet⟩ := List.forall_mem_cons.mp hquiet
      cases h with
      | renew hrenews =>
          rw [hx] at hrenews
          cases hrenews
      | spend _ hs h =>
          rw [List.countP_cons_of_pos hs]
          exact Nat.succ_le_succ (ih h hquiet)
      | other _ hs h =>
          rw [List.countP_cons_of_neg (by rw [hs]; exact Bool.false_ne_true)]
          exact ih h hquiet

/-- **Between two rations** no more than the quota is spent. -/
theorem countP_le {before mid after : List α}
    (h : Rationed renews spends quota b (before ++ mid ++ after) b') (hle : b ≤ quota)
    (hquiet : ∀ x ∈ mid, renews x = false) : mid.countP spends ≤ quota := by
  rw [List.append_assoc] at h
  obtain ⟨c, hc, h⟩ := h.exists_middle hle
  exact Nat.le_trans (h.countP_le_of_quiet hquiet) hc

end Rationed

end CowboyPoker.Found
