import Mathlib.Data.Finset.Card
import Mathlib.Data.Set.Basic

/-!
# Graphs of counted references

Pointers of type `S`, some of which are parts of objects of type `O`, point to objects of type `O`. An
object goes away, with the pointers that are parts of it, when nothing refers to it any more.

* `refs A ptr x` — the number of pointers in `A` to `x`; how it changes with `A` and with `ptr`.
* `Collected` — the objects that go away when the pointers in `dropped` are dropped: those without a pin
  to which only dropped pointers and parts of collected objects point.
* `Collected.notMem` — no collected object is in a set whose members are pinned, or pointed to from
  outside all objects or from a member.
-/

namespace CowboyPoker.Found

variable {S O : Type*}

section refs

variable [DecidableEq O] {A : Finset S} {ptr ptr' : S → Option O} {s : S} {x : O}

/-- The number of pointers in `A` to `x`. -/
def refs (A : Finset S) (ptr : S → Option O) (x : O) : ℕ := (A.filter fun s => ptr s = some x).card

/-- No reference counts when no pointer of the set points there. -/
theorem refs_eq_zero_iff : refs A ptr x = 0 ↔ ∀ s ∈ A, ptr s ≠ some x := by
  rw [refs, Finset.card_eq_zero, Finset.filter_eq_empty_iff]

/-- Something points to an object with a positive count. -/
theorem exists_of_refs_pos (h : 0 < refs A ptr x) : ∃ s ∈ A, ptr s = some x := by
  by_contra hnone
  refine h.ne' (refs_eq_zero_iff.mpr fun s hs hptr => hnone ⟨s, hs, hptr⟩)

/-- The references depend on the pointers of the set alone. -/
theorem refs_congr (h : ∀ s ∈ A, ptr s = ptr' s) : refs A ptr = refs A ptr' := by
  funext x
  exact congrArg Finset.card (Finset.filter_congr fun s hs => by rw [h s hs])

variable [DecidableEq S]

/-- A pointer more. -/
theorem refs_insert (hs : s ∉ A) :
    refs (insert s A) ptr x = refs A ptr x + if ptr s = some x then 1 else 0 := by
  unfold refs
  rw [Finset.filter_insert]
  split
  · exact Finset.card_insert_of_notMem fun hmem => hs (Finset.mem_filter.mp hmem).1
  · rfl

/-- A pointer less. -/
theorem refs_erase (hs : s ∈ A) :
    refs A ptr x = refs (A.erase s) ptr x + if ptr s = some x then 1 else 0 := by
  rw [← refs_insert (Finset.notMem_erase s A), Finset.insert_erase hs]

/-- A pointer that is set. -/
theorem refs_update (hs : s ∈ A) (o : Option O) :
    refs A (Function.update ptr s o) x = refs (A.erase s) ptr x + if o = some x then 1 else 0 := by
  rw [refs_erase hs, Function.update_self]
  have hsame : refs (A.erase s) (Function.update ptr s o) = refs (A.erase s) ptr :=
    refs_congr fun s' hs' => Function.update_of_ne (Finset.ne_of_mem_erase hs') ..
  rw [hsame]

end refs

/-! ## Collected objects -/

/-- The objects that go away when the pointers in `dropped` are dropped. -/
inductive Collected (A : Set S) (ptr owner : S → Option O) (pinned : O → Prop) (dropped : Set S) :
    O → Prop
  /-- An object without a pin, all other pointers to which are parts of collected objects. -/
  | intro {x : O} (hpinned : ¬ pinned x)
      (howned : ∀ s ∈ A, ptr s = some x → s ∉ dropped → owner s ≠ none)
      (hparts : ∀ s ∈ A, ∀ o, ptr s = some x → s ∉ dropped → owner s = some o →
        Collected A ptr owner pinned dropped o) : Collected A ptr owner pinned dropped x

/-- **What is kept.** -/
theorem Collected.notMem {A : Set S} {ptr owner : S → Option O} {pinned : O → Prop} {dropped : Set S}
    {kept : Set O} (hkept : ∀ x ∈ kept, ¬ pinned x →
      ∃ s ∈ A, ptr s = some x ∧ s ∉ dropped ∧ ∀ o, owner s = some o → o ∈ kept)
    {x : O} (h : Collected A ptr owner pinned dropped x) : x ∉ kept := by
  induction h with
  | @intro x hpinned howned _ ih =>
      intro hx
      obtain ⟨s, hs, hptr, hdropped, howner⟩ := hkept x hx hpinned
      obtain ⟨o, ho⟩ := Option.ne_none_iff_exists'.mp (howned s hs hptr hdropped)
      exact ih s hs o hptr hdropped ho (howner o ho)

end CowboyPoker.Found
