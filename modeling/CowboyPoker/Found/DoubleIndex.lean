import Mathlib.Data.List.AList
import Mathlib.Data.Set.Function

/-!
# Two maps that index one set of records

A table of records `R` with two lookup attributes `f : R → K₁` and `g : R → K₂`, kept as one map per
attribute. `DoubleIndex m₁ m₂ f g` says that the two maps hold the same records, each under its own
attributes; it is a partial bijection between the keys of the two maps.

* `members` — the records of the table; `mem_members_iff_right` reads it off either map.
* `DoubleIndex.insert` / `DoubleIndex.erase` — adding a record whose two keys are free, and removing
  a record from both maps, keep the two indexes in step.
* `DoubleIndex.congr` — only the attributes of the records in the table matter.
* `DoubleIndex.nodup_map` — a pass over one map meets each value of the other attribute once.
-/

namespace CowboyPoker.Found

variable {R K₁ K₂ : Type*} [DecidableEq K₁] [DecidableEq K₂]

/-- A finite map from keys to values. -/
abbrev KeyMap (K V : Type*) := AList fun _ : K => V

/-- A lookup in a map that was extended by one binding. -/
theorem lookup_insert_eq_some_iff {K V : Type*} [DecidableEq K] {m : KeyMap K V} {k k' : K}
    {v v' : V} : (m.insert k v).lookup k' = some v' ↔
      k' = k ∧ v = v' ∨ k' ≠ k ∧ m.lookup k' = some v' := by
  by_cases h : k' = k
  · subst h
    simp [AList.lookup_insert]
  · simp [AList.lookup_insert_ne h, h]

/-- A lookup in a map that lost one binding. -/
theorem lookup_erase_eq_some_iff {K V : Type*} [DecidableEq K] {m : KeyMap K V} {k k' : K}
    {v' : V} : (m.erase k).lookup k' = some v' ↔ k' ≠ k ∧ m.lookup k' = some v' := by
  by_cases h : k' = k
  · subst h
    simp [AList.lookup_erase]
  · simp [AList.lookup_erase_ne h, h]

/-- Two maps hold the same records, each under its own attribute. -/
structure DoubleIndex (m₁ : KeyMap K₁ R) (m₂ : KeyMap K₂ R) (f : R → K₁) (g : R → K₂) : Prop where
  /-- A record of the first map is filed under its attribute, and also in the second map. -/
  left : ∀ k r, m₁.lookup k = some r → f r = k ∧ m₂.lookup (g r) = some r
  /-- A record of the second map is filed under its attribute, and also in the first map. -/
  right : ∀ k r, m₂.lookup k = some r → g r = k ∧ m₁.lookup (f r) = some r

/-- The records that the first map holds under their own attribute. -/
def members (m₁ : KeyMap K₁ R) (f : R → K₁) : Set R := {r | m₁.lookup (f r) = some r}

namespace DoubleIndex

variable {m₁ : KeyMap K₁ R} {m₂ : KeyMap K₂ R} {f f' : R → K₁} {g g' : R → K₂}

/-- The empty maps index nothing. -/
theorem empty : DoubleIndex (∅ : KeyMap K₁ R) (∅ : KeyMap K₂ R) f g where
  left _ _ h := by simp at h
  right _ _ h := by simp at h

/-- Both maps hold the same records. -/
theorem mem_members_iff_right (h : DoubleIndex m₁ m₂ f g) {r : R} :
    r ∈ members m₁ f ↔ m₂.lookup (g r) = some r :=
  ⟨fun hr => (h.left _ _ hr).2, fun hr => (h.right _ _ hr).2⟩

/-- What is filed in the first map is a member. -/
theorem mem_members_of_left (h : DoubleIndex m₁ m₂ f g) {k : K₁} {r : R}
    (hr : m₁.lookup k = some r) : r ∈ members m₁ f := by
  have hk := (h.left k r hr).1
  subst hk
  exact hr

/-- What is filed in the second map is a member. -/
theorem mem_members_of_right (h : DoubleIndex m₁ m₂ f g) {k : K₂} {r : R}
    (hr : m₂.lookup k = some r) : r ∈ members m₁ f :=
  (h.right k r hr).2

/-- The first attribute tells records of the table apart. -/
theorem injOn_left : Set.InjOn f (members m₁ f) := by
  intro r hr r' hr' heq
  have hr'' : m₁.lookup (f r) = some r' := heq ▸ hr'
  exact Option.some.inj (Eq.trans (Eq.symm hr) hr'')

/-- The second attribute tells records of the table apart. -/
theorem injOn_right (h : DoubleIndex m₁ m₂ f g) : Set.InjOn g (members m₁ f) := by
  intro r hr r' hr' heq
  rw [h.mem_members_iff_right] at hr hr'
  rw [heq] at hr
  exact Option.some.inj (Eq.trans (Eq.symm hr) hr')

/-- The entries of the first map have distinct second attributes. -/
theorem nodup_map (h : DoubleIndex m₁ m₂ f g) : (m₁.entries.map fun kv => g kv.2).Nodup := by
  refine List.Nodup.map_on ?_ m₁.nodupKeys.nodup
  rintro ⟨k, r⟩ hmem ⟨k', r'⟩ hmem' heq
  have hr := AList.mem_lookup_iff.mpr hmem
  have hr' := AList.mem_lookup_iff.mpr hmem'
  have hrecord : r = r' := h.injOn_right (h.mem_members_of_left hr) (h.mem_members_of_left hr') heq
  subst hrecord
  have hkey : k = k' := (h.left k r hr).1.symm.trans (h.left k' r hr').1
  subst hkey
  rfl

/-- Only the attributes of the records in the table matter. -/
theorem congr (h : DoubleIndex m₁ m₂ f g) (hf : ∀ r ∈ members m₁ f, f' r = f r)
    (hg : ∀ r ∈ members m₁ f, g' r = g r) : DoubleIndex m₁ m₂ f' g' where
  left k r hr := by
    have hmem := h.mem_members_of_left hr
    rw [hf r hmem, hg r hmem]
    exact h.left k r hr
  right k r hr := by
    have hmem := h.mem_members_of_right hr
    rw [hf r hmem, hg r hmem]
    exact h.right k r hr

/-- Adding a record whose two keys are free. -/
theorem insert (h : DoubleIndex m₁ m₂ f g) {r : R} (h₁ : m₁.lookup (f r) = none)
    (h₂ : m₂.lookup (g r) = none) :
    DoubleIndex (m₁.insert (f r) r) (m₂.insert (g r) r) f g where
  left k r' hr' := by
    rcases lookup_insert_eq_some_iff.mp hr' with ⟨rfl, rfl⟩ | ⟨hne, hr'⟩
    · exact ⟨rfl, AList.lookup_insert _⟩
    · obtain ⟨hk, hr₂⟩ := h.left k r' hr'
      have hg : g r' ≠ g r := by
        intro heq
        rw [heq, h₂] at hr₂
        cases hr₂
      exact ⟨hk, by rw [AList.lookup_insert_ne hg, hr₂]⟩
  right k r' hr' := by
    rcases lookup_insert_eq_some_iff.mp hr' with ⟨rfl, rfl⟩ | ⟨hne, hr'⟩
    · exact ⟨rfl, AList.lookup_insert _⟩
    · obtain ⟨hk, hr₁⟩ := h.right k r' hr'
      have hf : f r' ≠ f r := by
        intro heq
        rw [heq, h₁] at hr₁
        cases hr₁
      exact ⟨hk, by rw [AList.lookup_insert_ne hf, hr₁]⟩

/-- Removing a record of the table from both maps. -/
theorem erase (h : DoubleIndex m₁ m₂ f g) {r : R} (hr : r ∈ members m₁ f) :
    DoubleIndex (m₁.erase (f r)) (m₂.erase (g r)) f g where
  left k r' hr' := by
    obtain ⟨hne, hr'⟩ := lookup_erase_eq_some_iff.mp hr'
    obtain ⟨hk, hr₂⟩ := h.left k r' hr'
    refine ⟨hk, lookup_erase_eq_some_iff.mpr ⟨fun heq => hne ?_, hr₂⟩⟩
    rw [← hk, h.injOn_right (h.mem_members_of_left hr') hr heq]
  right k r' hr' := by
    obtain ⟨hne, hr'⟩ := lookup_erase_eq_some_iff.mp hr'
    obtain ⟨hk, hr₁⟩ := h.right k r' hr'
    refine ⟨hk, lookup_erase_eq_some_iff.mpr ⟨fun heq => hne ?_, hr₁⟩⟩
    rw [← hk, injOn_left (h.mem_members_of_right hr') hr heq]

end DoubleIndex

end CowboyPoker.Found
