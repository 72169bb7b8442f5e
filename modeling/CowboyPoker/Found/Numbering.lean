import CowboyPoker.Found.DoubleIndex

/-!
# Keys numbered in order

A table that gives every new key the next number, kept as one map for each direction.

* `Numbering toId ofId keys` — the two maps are inverse to each other, between the keys and the numbers
  below the size of the first.
* `Numbering.insert` — a new key gets the size as its number. `Numbering.lookup_insert` — the other keys
  keep theirs.
-/

namespace CowboyPoker.Found

variable {K : Type*} [DecidableEq K]

/-- The maps are inverse bijections between `keys` and the numbers below the size of the first map. -/
structure Numbering (toId : KeyMap K ℕ) (ofId : KeyMap ℕ K) (keys : Set K) : Prop where
  inverse : ∀ k i, toId.lookup k = some i ↔ ofId.lookup i = some k
  keys : ∀ k, (∃ i, toId.lookup k = some i) ↔ k ∈ keys
  ids : ∀ i, (∃ k, ofId.lookup i = some k) ↔ i < toId.entries.length

namespace Numbering

variable {toId : KeyMap K ℕ} {ofId : KeyMap ℕ K} {keys : Set K}

theorem empty : Numbering (∅ : KeyMap K ℕ) ∅ ∅ where
  inverse _ _ := by simp
  keys _ := by simp
  ids i := iff_of_false (fun ⟨_, h⟩ => by simp at h) (Nat.not_lt_zero i)

/-- Two keys have different numbers. -/
theorem injective (h : Numbering toId ofId keys) {k k' : K} {i : ℕ} (hk : toId.lookup k = some i)
    (hk' : toId.lookup k' = some i) : k = k' :=
  Option.some.inj (((h.inverse k i).mp hk).symm.trans ((h.inverse k' i).mp hk'))

/-- A key that is not in the table has no number. -/
theorem lookup_eq_none (h : Numbering toId ofId keys) {k : K} (hk : k ∉ keys) :
    toId.lookup k = none := by
  rcases hlookup : toId.lookup k with _ | i
  · rfl
  · exact absurd ((h.keys k).mp ⟨i, hlookup⟩) hk

/-- A new key changes no other number. -/
theorem lookup_insert (h : Numbering toId ofId keys) {new : K} (hnew : new ∉ keys) {k : K} {i n : ℕ}
    (hk : toId.lookup k = some i) : (toId.insert new n).lookup k = some i := by
  refine lookup_insert_eq_some_iff.mpr (.inr ⟨?_, hk⟩)
  rintro rfl
  exact hnew ((h.keys k).mp ⟨i, hk⟩)

/-- **A new key** gets the next number. -/
theorem insert (h : Numbering toId ofId keys) {new : K} (hnew : new ∉ keys) :
    Numbering (toId.insert new toId.entries.length) (ofId.insert toId.entries.length new)
      (Insert.insert new keys) := by
  have hfree : ∀ k, toId.lookup k ≠ some toId.entries.length := fun k hk =>
    lt_irrefl _ ((h.ids _).mp ⟨k, (h.inverse _ _).mp hk⟩)
  have hnone := h.lookup_eq_none hnew
  refine ⟨fun k i => ?_, fun k => ?_, fun i => ?_⟩
  · rw [lookup_insert_eq_some_iff, lookup_insert_eq_some_iff, h.inverse k i]
    by_cases hk : k = new
    · subst hk
      have hold : ofId.lookup i ≠ some k := fun hold => by
        rw [(h.inverse k i).mpr hold] at hnone
        cases hnone
      grind
    · by_cases hi : i = toId.entries.length
      · subst hi
        have hold : ofId.lookup toId.entries.length ≠ some k := fun hold =>
          hfree k ((h.inverse k _).mpr hold)
        grind
      · grind
  · rw [Set.mem_insert_iff, ← h.keys k]
    constructor
    · rintro ⟨i, hi⟩
      rcases lookup_insert_eq_some_iff.mp hi with ⟨rfl, -⟩ | ⟨-, hi⟩
      · exact .inl rfl
      · exact .inr ⟨i, hi⟩
    · rintro (rfl | ⟨i, hi⟩)
      · exact ⟨_, AList.lookup_insert _⟩
      · exact ⟨i, h.lookup_insert hnew hi⟩
  · have hlength : (toId.insert new toId.entries.length).entries.length =
        toId.entries.length + 1 := by
      simp only [AList.entries_insert_of_notMem (AList.lookup_eq_none.mp hnone), List.length_cons]
    rw [hlength, Nat.lt_succ_iff_lt_or_eq, ← h.ids i]
    constructor
    · rintro ⟨k, hk⟩
      rcases lookup_insert_eq_some_iff.mp hk with ⟨rfl, -⟩ | ⟨-, hk⟩
      · exact .inr rfl
      · exact .inl ⟨k, hk⟩
    · rintro (⟨k, hk⟩ | rfl)
      · by_cases hi : i = toId.entries.length
        · exact ⟨new, hi ▸ AList.lookup_insert _⟩
        · exact ⟨k, lookup_insert_eq_some_iff.mpr (.inr ⟨hi, hk⟩)⟩
      · exact ⟨new, AList.lookup_insert _⟩

end Numbering

end CowboyPoker.Found
