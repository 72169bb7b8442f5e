import CowboyPoker.Found.Fallible
import CowboyPoker.ServerCore.RefCounting
import Mathlib.Tactic.Ring

/-!
# What `Release` deletes

The last reference to an object deletes it, and its destructor releases what its members point to.

* `Dropping` — a heap in the middle of a release: some pointers are being released, and do not count.
* `Shrinks` — what a part of the deletion does to the heap.
* `releaseRef_spec` — the recursion does not run out of fuel, and it fails only by destroying a pointer
  that is being released.
* `release_spec` — `Release` deletes just the doomed objects, and it fails just when it deletes the
  object that its pointer is a member of.
-/

namespace CowboyPoker.ServerCore

open CowboyPoker.Found

namespace PtrHeap

/-- At most the objects that were created are alive. -/
theorem liveCount_le (h : PtrHeap) : h.liveCount ≤ h.next :=
  (Finset.card_filter_le _ _).trans (Finset.card_range _).le

/-- The object whose destructor begins does not live any more. -/
theorem live_beginDelete_self (h : PtrHeap) (x : ℕ) : ((h.decRef x).beginDelete x).live x = false :=
  Function.update_self ..

/-- The others live on. -/
theorem live_beginDelete_of_ne {h : PtrHeap} {x y : ℕ} (hne : y ≠ x) :
    ((h.decRef x).beginDelete x).live y = h.live y := Function.update_of_ne hne ..

/-- The object that is deleted is not alive any more, and the others are as before. -/
theorem live_beginDelete_iff {h : PtrHeap} {x y : ℕ} :
    ((h.decRef x).beginDelete x).live y = true ↔ y ≠ x ∧ h.live y = true := by
  by_cases heq : y = x
  · subst heq
    rw [live_beginDelete_self]
    exact iff_of_false Bool.false_ne_true fun hlive => hlive.1 rfl
  · rw [live_beginDelete_of_ne heq]
    exact (and_iff_right heq).symm

/-! ## The deletion of objects, from the inside -/

/-- A heap within the release of the pointers in `base` of `h₀`. The pointers in `releasing` are being
released, and do not count any more, except that one of `pending` is not subtracted yet. -/
structure Dropping (h₀ : PtrHeap) (base : Set PtrSlot) (releasing : Finset PtrSlot) (pending : Option ℕ)
    (h : PtrHeap) : Prop where
  slots : h.slots ⊆ h₀.slots
  held : releasing ⊆ h.slots
  ptr : ∀ p ∈ h.slots, h.ptr p = h₀.ptr p
  live : ∀ x, h.live x = true → h₀.live x = true
  members : h.members = h₀.members
  creationRefs : h.creationRefs = h₀.creationRefs
  next : h.next = h₀.next
  targets : ∀ p ∈ h.slots, p ∉ releasing → ∀ x, h.ptr p = some x → h.live x = true
  counted : ∀ x, h.live x = true → h.refCount x =
    refs (h.slots \ releasing) h.ptr x + h.creationRefs x + if pending = some x then 1 else 0
  positive : ∀ x, h.live x = true → 0 < h.refCount x
  dropped : ∀ p ∈ h₀.slots, p ∉ h.slots ∨ p ∈ releasing →
    p ∈ base ∨ ∃ o, p.owner = some o ∧ h.live o = false
  doomed : ∀ o, h₀.live o = true → h.live o = false → h₀.Doomed base o

/-- What a part of the deletion does: pointers and objects go, and an object that goes takes its members
along. The pointers in `done` go besides. -/
structure Shrinks (done : List PtrSlot) (h h' : PtrHeap) : Prop where
  slots : h'.slots ⊆ h.slots
  live : ∀ o, h'.live o = true → h.live o = true
  next : h'.next = h.next
  gone : ∀ p ∈ done, p ∉ h'.slots
  parts : ∀ o, h.live o = true → h'.live o = false → ∀ i, .member o i ∉ h'.slots
  kept : ∀ p ∈ h.slots, p ∉ h'.slots →
    p ∈ done ∨ ∃ o, p.owner = some o ∧ h.live o = true ∧ h'.live o = false

section dropping

variable {h₀ h h' h'' : PtrHeap} {base : Set PtrSlot} {releasing : Finset PtrSlot} {pending : Option ℕ}
  {x : ℕ} {p m : PtrSlot} {done : List PtrSlot}

/-- Nothing is destroyed where nothing happens. -/
theorem Shrinks.refl (h : PtrHeap) : Shrinks [] h h where
  slots := Finset.Subset.refl _
  live _ := id
  next := rfl
  gone := nofun
  parts _ hlive hdead := nomatch hlive.symm.trans hdead
  kept _ hmem hgone := absurd hmem hgone

/-- No object comes to life. -/
theorem Shrinks.liveCount_le (h : Shrinks done h' h'') : h''.liveCount ≤ h'.liveCount := by
  unfold liveCount
  rw [h.next]
  exact Finset.card_le_card (Finset.monotone_filter_right _ fun x _ => h.live x)

/-- What is gone stays gone. -/
theorem Shrinks.dead (h : Shrinks done h' h'') {o : ℕ} (hdead : h'.live o = false) :
    h''.live o = false := by
  rw [← Bool.not_eq_true] at hdead ⊢
  exact fun hlive => hdead (h.live o hlive)

/-- A member of an object that is gone ends only when it is its turn. -/
theorem Shrinks.still_mem (h : Shrinks done h' h'') {o i : ℕ} (hmem : .member o i ∈ h'.slots)
    (hdead : h'.live o = false) (hturn : .member o i ∉ done) : .member o i ∈ h''.slots := by
  by_contra hgone
  rcases h.kept _ hmem hgone with hmem | ⟨o', howner, hlive, -⟩
  · exact hturn hmem
  · obtain rfl := Option.some.inj howner
    exact absurd (hdead.symm.trans hlive) Bool.false_ne_true

/-- One part of the deletion after another. -/
theorem Shrinks.trans {done' : List PtrSlot} (h₁ : Shrinks done h h') (h₂ : Shrinks done' h' h'') :
    Shrinks (done ++ done') h h'' := by
  refine ⟨h₂.slots.trans h₁.slots, fun o hlive => h₁.live o (h₂.live o hlive), h₂.next.trans h₁.next,
    fun p hp hmem => ?_, fun o hlive hgone i hmem => ?_, fun p hp hgone => ?_⟩
  · rcases List.mem_append.mp hp with hp | hp
    · exact h₁.gone p hp (h₂.slots hmem)
    · exact h₂.gone p hp hmem
  · rcases hmid : h'.live o with _ | _
    · exact h₁.parts o hlive hmid i (h₂.slots hmem)
    · exact h₂.parts o hmid hgone i hmem
  · by_cases hmid : p ∈ h'.slots
    · rcases h₂.kept p hmid hgone with hp | ⟨o, howner, hlive, hgone⟩
      · exact .inl (List.mem_append_right _ hp)
      · exact .inr ⟨o, howner, h₁.live o hlive, hgone⟩
    · rcases h₁.kept p hp hmid with hp | ⟨o, howner, hlive, hmid⟩
      · exact .inl (List.mem_append_left _ hp)
      · exact .inr ⟨o, howner, hlive, h₂.dead hmid⟩

/-- A pointer ends besides. -/
theorem Shrinks.ended (h : Shrinks [] h' h'') (m : PtrSlot) (ptr' : PtrSlot → Option ℕ) :
    Shrinks [m] h' { h'' with slots := h''.slots.erase m, ptr := ptr' } where
  slots := (Finset.erase_subset _ _).trans h.slots
  live := h.live
  next := h.next
  gone p hp hmem := (Finset.mem_erase.mp hmem).1 (List.mem_singleton.mp hp)
  parts o hlive hgone i hmem := h.parts o hlive hgone i (Finset.mem_of_mem_erase hmem)
  kept p hp hgone := by
    by_cases heq : p = m
    · exact .inl (List.mem_singleton.mpr heq)
    · refine .inr ((h.kept p hp fun hmem => ?_).resolve_left List.not_mem_nil)
      exact hgone (Finset.mem_erase.mpr ⟨heq, hmem⟩)

/-- A member of an object that lives is released only by the release itself. -/
theorem Dropping.mem_base (h : Dropping h₀ base releasing pending h') {o i : ℕ}
    (hmem : .member o i ∈ h₀.slots) (ho : h'.live o = true)
    (hgone : .member o i ∉ h'.slots ∨ .member o i ∈ releasing) : .member o i ∈ base := by
  rcases h.dropped _ hmem hgone with hbase | ⟨o', howner, hdead⟩
  · exact hbase
  · obtain rfl := Option.some.inj howner
    exact absurd (hdead.symm.trans ho) Bool.false_ne_true

/-- The members of an object that lives exist. -/
theorem Dropping.member_mem (h : Dropping h₀ base releasing pending h') (hbase : base ⊆ releasing)
    {o i : ℕ} (hmem : .member o i ∈ h₀.slots) (ho : h'.live o = true) : .member o i ∈ h'.slots := by
  by_contra hgone
  exact hgone (h.held (hbase (h.mem_base hmem ho (.inl hgone))))

/-- A pointer is released from now on. -/
theorem Dropping.hold (h : Dropping h₀ base releasing none h') (hm : m ∈ h'.slots)
    (hnew : m ∉ releasing) {o : ℕ} (howner : m.owner = some o) (hdead : h'.live o = false) :
    Dropping h₀ base (insert m releasing) (h'.ptr m) h' where
  slots := h.slots
  held := Finset.insert_subset hm h.held
  ptr := h.ptr
  live := h.live
  members := h.members
  creationRefs := h.creationRefs
  next := h.next
  targets p hp hnot := h.targets p hp fun hmem => hnot (Finset.mem_insert_of_mem hmem)
  counted x hx := by
    have hset : h'.slots \ releasing = insert m (h'.slots \ insert m releasing) := by
      ext p
      by_cases heq : p = m
      · subst heq
        simp [hm, hnew]
      · simp [heq]
    have hnot : m ∉ h'.slots \ insert m releasing := fun hmem =>
      (Finset.mem_sdiff.mp hmem).2 (Finset.mem_insert_self _ _)
    rw [h.counted x hx, hset, refs_insert hnot]
    simp only [reduceCtorEq, if_false, add_zero, Nat.cast_add, Nat.cast_ite, Nat.cast_one,
      Nat.cast_zero]
    ring
  positive := h.positive
  dropped p hp hgone := by
    by_cases heq : p = m
    · exact .inr ⟨o, heq ▸ howner, hdead⟩
    · exact h.dropped p hp (hgone.imp id fun hmem => (Finset.mem_insert.mp hmem).resolve_left heq)
  doomed := h.doomed

/-- A pointer that was released ends. -/
theorem Dropping.ended (h : Dropping h₀ base (insert m releasing) none h') (hnew : m ∉ releasing)
    {ptr' : PtrSlot → Option ℕ} (hptr : ∀ p, p ≠ m → ptr' p = h'.ptr p) :
    Dropping h₀ base releasing none { h' with slots := h'.slots.erase m, ptr := ptr' } where
  slots := (Finset.erase_subset _ _).trans h.slots
  held p hp := Finset.mem_erase.mpr
    ⟨fun heq => hnew (heq ▸ hp), h.held (Finset.mem_insert_of_mem hp)⟩
  ptr p hp := (hptr p (Finset.ne_of_mem_erase hp)).trans (h.ptr p (Finset.mem_of_mem_erase hp))
  live := h.live
  members := h.members
  creationRefs := h.creationRefs
  next := h.next
  targets p hp hnot x hx := by
    have hne := Finset.ne_of_mem_erase hp
    refine h.targets p (Finset.mem_of_mem_erase hp) (fun hmem => ?_) x ((hptr p hne).symm.trans hx)
    exact hnot ((Finset.mem_insert.mp hmem).resolve_left hne)
  counted x hx := by
    have hset : h'.slots.erase m \ releasing = h'.slots \ insert m releasing := by
      ext p
      simp only [Finset.mem_sdiff, Finset.mem_erase, Finset.mem_insert]
      tauto
    have hsame : refs (h'.slots \ insert m releasing) ptr' =
        refs (h'.slots \ insert m releasing) h'.ptr :=
      refs_congr fun p hp => hptr p fun heq =>
        (Finset.mem_sdiff.mp hp).2 (heq ▸ Finset.mem_insert_self _ _)
    simp only [hset, hsame]
    exact h.counted x hx
  positive := h.positive
  dropped p hp hgone := by
    refine h.dropped p hp ?_
    by_cases heq : p = m
    · exact .inr (heq ▸ Finset.mem_insert_self _ _)
    · refine hgone.imp (fun hnot hmem => hnot (Finset.mem_erase.mpr ⟨heq, hmem⟩)) fun hmem => ?_
      exact Finset.mem_insert_of_mem hmem
  doomed := h.doomed

/-- The count goes down, and is not zero. -/
theorem Dropping.decRef (h : Dropping h₀ base releasing (some x) h') (hx : h'.live x = true)
    (hne : (h'.decRef x).refCount x ≠ 0) : Dropping h₀ base releasing none (h'.decRef x) where
  slots := h.slots
  held := h.held
  ptr := h.ptr
  live := h.live
  members := h.members
  creationRefs := h.creationRefs
  next := h.next
  targets := h.targets
  counted y hy := by
    have hcount := h.counted y hy
    by_cases heq : y = x
    · subst heq
      simp only [PtrHeap.decRef, Function.update_self, if_true, reduceCtorEq, if_false] at hcount ⊢
      omega
    · simp only [PtrHeap.decRef, Function.update_of_ne heq]
      simpa [Ne.symm heq] using hcount
  positive y hy := by
    have hpos := h.positive y hy
    by_cases heq : y = x
    · subst heq
      simp only [PtrHeap.decRef, Function.update_self] at hne ⊢
      omega
    · simp only [PtrHeap.decRef, Function.update_of_ne heq]
      exact hpos
  dropped := h.dropped
  doomed := h.doomed

/-- Nothing refers any more to an object whose last reference is released. -/
theorem Dropping.unreferenced (h : Dropping h₀ base releasing (some x) h') (hx : h'.live x = true)
    (hzero : (h'.decRef x).refCount x = 0) :
    (∀ p ∈ h'.slots, p ∉ releasing → h'.ptr p ≠ some x) ∧ h₀.creationRefs x = 0 := by
  have hcount := h.counted x hx
  simp only [PtrHeap.decRef, Function.update_self] at hzero
  simp only [if_true] at hcount
  have hrefs : refs (h'.slots \ releasing) h'.ptr x = 0 := by omega
  refine ⟨fun p hp hnot => refs_eq_zero_iff.mp hrefs p (Finset.mem_sdiff.mpr ⟨hp, hnot⟩), ?_⟩
  rw [← h.creationRefs]
  omega

/-- Such an object is doomed: what referred to it was released, or was a member of an object that is
gone. -/
theorem Dropping.doomed_of_unreferenced (h : Dropping h₀ base releasing pending h')
    (hown : ∀ o i, .member o i ∈ h₀.slots → h₀.live o = true)
    (hnone : ∀ p ∈ h'.slots, p ∉ releasing → h'.ptr p ≠ some x) (hcreation : h₀.creationRefs x = 0) :
    h₀.Doomed base x := by
  have hdropped : ∀ p ∈ h₀.slots, h₀.ptr p = some x → p ∉ base →
      ∃ o, p.owner = some o ∧ h'.live o = false := by
    intro p hp hptr hbase
    refine (h.dropped p hp ?_).resolve_left hbase
    by_cases hmem : p ∈ h'.slots
    · by_cases hrel : p ∈ releasing
      · exact .inr hrel
      · exact absurd ((h.ptr p hmem).trans hptr) (hnone p hmem hrel)
    · exact .inl hmem
  refine .intro (not_not.mpr hcreation) (fun p hp hptr hbase => ?_)
    fun p hp o hptr hbase howner => ?_
  · obtain ⟨o, howner, -⟩ := hdropped p hp hptr hbase
    exact howner ▸ Option.some_ne_none o
  · obtain ⟨o', howner', hdead⟩ := hdropped p hp hptr hbase
    obtain rfl := Option.some.inj (howner.symm.trans howner')
    refine h.doomed o ?_ hdead
    cases p with
    | var n => cases howner
    | member o' i =>
        obtain rfl := Option.some.inj howner
        exact hown o' i hp

/-- The last reference is released, and the destructor begins. -/
theorem Dropping.beginDelete (h : Dropping h₀ base releasing (some x) h')
    (hown : ∀ o i, .member o i ∈ h₀.slots → h₀.live o = true) (hx : h'.live x = true)
    (hzero : (h'.decRef x).refCount x = 0) :
    Dropping h₀ base releasing none ((h'.decRef x).beginDelete x) := by
  obtain ⟨hnone, hcreation⟩ := h.unreferenced hx hzero
  have hne : ∀ y, ((h'.decRef x).beginDelete x).live y = true → y ≠ x := fun y hy =>
    (live_beginDelete_iff.mp hy).1
  have hmono : ∀ y, ((h'.decRef x).beginDelete x).live y = true → h'.live y = true := fun y hy =>
    (live_beginDelete_iff.mp hy).2
  have hcongr : ∀ y, y ≠ x → ((h'.decRef x).beginDelete x).refCount y = h'.refCount y :=
    fun y hy => Function.update_of_ne hy ..
  refine ⟨h.slots, h.held, h.ptr, fun y hy => h.live y (hmono y hy), h.members, h.creationRefs, h.next,
    fun p hp hnot y hy => ?_, fun y hy => ?_, fun y hy => ?_, fun p hp hgone => ?_,
    fun o hlive hdead => ?_⟩
  · have hyx : y ≠ x := by
      rintro rfl
      exact hnone p hp hnot hy
    exact live_beginDelete_iff.mpr ⟨hyx, h.targets p hp hnot y hy⟩
  · have hcount := h.counted y (hmono y hy)
    have hpending : (some x = some y) = False := eq_false fun heq => hne y hy (Option.some.inj heq).symm
    simp only [hpending, if_false] at hcount
    rw [hcongr y (hne y hy)]
    exact hcount
  · rw [hcongr y (hne y hy)]
    exact h.positive y (hmono y hy)
  · refine (h.dropped p hp hgone).imp id fun ⟨o, howner, hdead⟩ => ⟨o, howner, ?_⟩
    by_cases heq : o = x
    · exact heq ▸ live_beginDelete_self h' x
    · exact (live_beginDelete_of_ne heq).trans hdead
  · by_cases heq : o = x
    · exact heq ▸ h.doomed_of_unreferenced hown hnone hcreation
    · exact h.doomed o hlive ((live_beginDelete_of_ne heq).symm.trans hdead)

/-- What is left to fail with: a pointer that is being released is destroyed. -/
def Fails (h₀ : PtrHeap) (base : Set PtrSlot) (fault : PtrFault) : Prop :=
  fault ≠ .outOfFuel ∧ ∃ p ∈ base, h₀.DoomedSlot base p

/-- What the `ReleaseRef` of an object does within the release, given that it destroys what is to be
destroyed. -/
def ReleaseSpec (h₀ : PtrHeap) (base : Set PtrSlot) (root : ℕ) (fuel : ℕ)
    (releaseRef : PtrHeap → ℕ → Except PtrFault PtrHeap) : Prop :=
  ∀ releasing x h, Dropping h₀ base releasing (some x) h → base ⊆ releasing → h.live x = true →
    (x = root ∨ h.live root = false) → h.liveCount < fuel →
      Ends (fun h' => Dropping h₀ base releasing none h' ∧ Shrinks [] h h') (Fails h₀ base)
        (releaseRef h x)

/-- A member of an object whose destructor has begun is destroyed. If it is being released, it points to
the object that was deleted first. -/
theorem destroyWith_spec (hown : ∀ o i, .member o i ∈ h₀.slots ↔ h₀.live o = true ∧ i < h₀.members o)
    {root : ℕ} (hroot : ∀ p ∈ base, h₀.ptr p = some root) {fuel : ℕ}
    {releaseRef : PtrHeap → ℕ → Except PtrFault PtrHeap}
    (hspec : ReleaseSpec h₀ base root fuel releaseRef)
    (hdead : ∀ h x, h.live x = false → releaseRef h x = .error .objectGone)
    (h : Dropping h₀ base releasing none h') (hbase : base ⊆ releasing) {o i : ℕ}
    (hm : .member o i ∈ h'.slots) (hinner : .member o i ∈ releasing → .member o i ∈ base)
    (ho : h'.live o = false) (hrootDead : h'.live root = false) (hfuel : h'.liveCount < fuel) :
    Ends (fun h'' => Dropping h₀ base releasing none h'' ∧ Shrinks [.member o i] h' h'') (Fails h₀ base)
      (destroyWith releaseRef h' (.member o i)) := by
  have hread : h'.readPtr (.member o i) = .ok (h'.ptr (.member o i)) := if_pos hm
  unfold destroyWith releaseWith
  rw [hread]
  by_cases hrel : .member o i ∈ releasing
  · -- the pointer that is being released
    have hmem := hinner hrel
    have hptr : h'.ptr (.member o i) = some root := (h.ptr _ hm).trans (hroot _ hmem)
    have hlive := ((hown o i).mp (h.slots hm)).1
    rw [hptr]
    show Ends _ _ (releaseRef h' root >>= _ >>= _)
    rw [hdead h' root hrootDead]
    exact ⟨nofun, _, hmem, o, rfl, h.doomed o hlive ho⟩
  · have hhold := h.hold hm hrel rfl ho
    rcases hptr : h'.ptr (.member o i) with _ | y
    · rw [hptr] at hhold
      exact ⟨hhold.ended hrel fun _ _ => rfl, (Shrinks.refl h').ended _ _⟩
    · rw [hptr] at hhold
      have hy := h.targets _ hm hrel y hptr
      have hsub : base ⊆ (insert (.member o i) releasing : Finset PtrSlot) := fun p hp =>
        Finset.mem_insert_of_mem (hbase hp)
      have hcall := hspec _ y h' hhold hsub hy (.inr hrootDead) hfuel
      show Ends _ _ (releaseRef h' y >>= _ >>= _)
      refine Ends.bind (P := fun h'' => Dropping h₀ base releasing none (h''.dropSlot (.member o i)) ∧
        Shrinks [.member o i] h' (h''.dropSlot (.member o i))) (hcall.bind ?_) fun _ => id
      rintro h'' ⟨hdrop, hshrinks⟩
      have hwrite : h''.writePtr (.member o i) none =
          .ok { h'' with ptr := Function.update h''.ptr (.member o i) none } :=
        if_pos (hdrop.held (Finset.mem_insert_self _ _))
      rw [hwrite]
      exact ⟨hdrop.ended hrel fun p hp => Function.update_of_ne hp .., hshrinks.ended _ _⟩

/-- An object that is gone cannot be released. -/
theorem releaseRef_of_dead {fuel : ℕ} (hdead : h.live x = false) :
    releaseRef (fuel + 1) h x = .error .objectGone := by
  rw [releaseRef, if_neg (by rw [hdead]; exact Bool.false_ne_true)]

/-- The beginning of a destructor lowers the number of live objects. -/
theorem liveCount_beginDelete (hx : h.live x = true) (hlt : x < h.next) :
    ((h.decRef x).beginDelete x).liveCount < h.liveCount := by
  refine Finset.card_lt_card (Finset.ssubset_iff_of_subset ?_ |>.mpr ⟨x, ?_, ?_⟩)
  · intro y hy
    obtain ⟨hrange, hy⟩ := Finset.mem_filter.mp hy
    exact Finset.mem_filter.mpr ⟨hrange, (live_beginDelete_iff.mp hy).2⟩
  · exact Finset.mem_filter.mpr ⟨Finset.mem_range.mpr hlt, hx⟩
  · intro hmem
    exact (live_beginDelete_iff.mp (Finset.mem_filter.mp hmem).2).1 rfl

/-- The pointers of an object are numbered. -/
theorem mem_memberSlots : m ∈ h.memberSlots x ↔ ∃ i < h.members x, m = .member x i := by
  simp only [memberSlots, List.mem_map, List.mem_reverse, List.mem_range, eq_comm]

/-- Each is listed once. -/
theorem nodup_memberSlots (h : PtrHeap) (x : ℕ) : (h.memberSlots x).Nodup :=
  (List.nodup_reverse.mpr List.nodup_range).map fun _ _ heq => (PtrSlot.member.inj heq).2

/-- When all members of an object are destroyed that begins to be deleted, it has taken its members
along. -/
theorem Shrinks.beginDelete (hx : h.live x = true)
    (hmembers : ∀ i, .member x i ∈ h.slots → i < h.members x)
    (hshrinks : Shrinks (h.memberSlots x) ((h.decRef x).beginDelete x) h') : Shrinks [] h h' := by
  have hdead : h'.live x = false := hshrinks.dead (live_beginDelete_self h x)
  have hmono : ∀ y, ((h.decRef x).beginDelete x).live y = true → h.live y = true := fun y hy =>
    (live_beginDelete_iff.mp hy).2
  refine ⟨hshrinks.slots, fun o hlive => hmono o (hshrinks.live o hlive), hshrinks.next, nofun,
    fun o hlive hgone i hmem => ?_, fun p hp hgone => ?_⟩
  · by_cases heq : o = x
    · subst heq
      exact hshrinks.gone _ (mem_memberSlots.mpr ⟨i, hmembers i (hshrinks.slots hmem), rfl⟩) hmem
    · exact hshrinks.parts o (live_beginDelete_iff.mpr ⟨heq, hlive⟩) hgone i hmem
  · rcases hshrinks.kept p hp hgone with hmem | ⟨o, howner, hlive, hgone⟩
    · obtain ⟨i, -, rfl⟩ := mem_memberSlots.mp hmem
      exact .inr ⟨x, rfl, hx, hdead⟩
    · exact .inr ⟨o, howner, hmono o hlive, hgone⟩

/-- **The deletion of objects.** Within the release of `base`, `ReleaseRef` terminates, and it fails only
by destroying a pointer in `base`. -/
theorem releaseRef_spec
    (hown : ∀ o i, .member o i ∈ h₀.slots ↔ h₀.live o = true ∧ i < h₀.members o)
    (hbounded : ∀ x, h₀.live x = true → x < h₀.next) {root : ℕ}
    (hroot : ∀ p ∈ base, h₀.ptr p = some root) (fuel : ℕ) :
    ReleaseSpec h₀ base root fuel (releaseRef fuel) := by
  induction fuel with
  | zero => exact fun _ _ h _ _ _ _ hfuel => absurd hfuel (Nat.not_lt_zero _)
  | succ fuel ih =>
      intro releasing x h hdrop hbase hx hrootx hfuel
      rw [releaseRef, if_pos hx]
      by_cases hzero : (h.decRef x).refCount x = 0
      swap
      · simp only [if_neg hzero]
        exact ⟨hdrop.decRef hx hzero, Finset.Subset.refl _, fun _ => id, rfl, nofun,
          fun _ hlive hdead => absurd (hdead.symm.trans hlive) Bool.false_ne_true,
          fun _ hmem hgone => absurd hmem hgone⟩
      simp only [if_pos hzero]
      have hbegun := hdrop.beginDelete (fun o i hmem => ((hown o i).mp hmem).1) hx hzero
      have hlt : x < h.next := hdrop.next ▸ hbounded x (hdrop.live x hx)
      have hcount := liveCount_beginDelete hx hlt
      set h₁ := (h.decRef x).beginDelete x with hh₁
      have hself : h₁.live x = false := live_beginDelete_self h x
      have hrootDead : h₁.live root = false := by
        by_cases heq : root = x
        · exact heq ▸ hself
        · exact (live_beginDelete_of_ne heq).trans (hrootx.resolve_left (Ne.symm heq))
      obtain ⟨fuel, rfl⟩ : ∃ n, fuel = n + 1 := ⟨fuel - 1, by omega⟩
      have hmembers : ∀ i, .member x i ∈ h.slots → i < h.members x := fun i hmem =>
        hdrop.members ▸ ((hown x i).mp (hdrop.slots hmem)).2
      -- the members are destroyed one after another
      refine (Ends.foldlM_prefix (I := fun done h' =>
        Dropping h₀ base releasing none h' ∧ Shrinks done h₁ h') (h.memberSlots x)
          (fun done m rest h' hsplit ⟨hdrop', hshrinks⟩ => ?_) ⟨hbegun, Shrinks.refl h₁⟩).mono
            fun h' ⟨hdrop', hshrinks⟩ => ⟨hdrop', hshrinks.beginDelete hx hmembers⟩
      obtain ⟨i, hi, rfl⟩ := mem_memberSlots.mp
        (hsplit ▸ List.mem_append_right done List.mem_cons_self : m ∈ h.memberSlots x)
      have hnew : .member x i ∉ done := fun hmem => by
        have hnodup := nodup_memberSlots h x
        rw [← hsplit] at hnodup
        exact (List.nodup_append.mp hnodup).2.2 _ hmem _ List.mem_cons_self rfl
      have hmem₀ : .member x i ∈ h₀.slots := (hown x i).mpr ⟨hdrop.live x hx, hdrop.members ▸ hi⟩
      have hslot : .member x i ∈ h₁.slots := hdrop.member_mem hbase hmem₀ hx
      have hstill := hshrinks.still_mem hslot hself hnew
      have hinner : .member x i ∈ releasing → .member x i ∈ base := fun hrel =>
        hdrop.mem_base hmem₀ hx (.inr hrel)
      have hfuel' : h'.liveCount < fuel + 1 := by
        have hle := hshrinks.liveCount_le
        omega
      exact (destroyWith_spec hown hroot ih (fun _ _ => releaseRef_of_dead) hdrop' hbase hstill hinner
        (hshrinks.dead hself) (hshrinks.dead hrootDead) hfuel').mono
          fun h'' ⟨hdrop'', hshrinks'⟩ => ⟨hdrop'', hshrinks.trans hshrinks'⟩

/-! ## The result -/

variable (hown : ∀ o i, .member o i ∈ h₀.slots ↔ h₀.live o = true ∧ i < h₀.members o)
  (hdrop : Dropping h₀ base releasing none h) (hshrinks : Shrinks [] h₀ h) (hbase : base ⊆ releasing)

include hown hshrinks in
/-- The members that are left belong to live objects. -/
theorem Shrinks.live_of_mem {o i : ℕ} (hmem : .member o i ∈ h.slots) : h.live o = true := by
  rw [← Bool.not_eq_false]
  intro hdead
  exact hshrinks.parts o ((hown o i).mp (hshrinks.slots hmem)).1 hdead i hmem

include hown hdrop hshrinks hbase in
/-- The objects that are left are those that are not doomed. -/
theorem Dropping.live_iff (o : ℕ) : h.live o = true ↔ h₀.live o = true ∧ ¬ h₀.Doomed base o := by
  constructor
  · refine fun hlive => ⟨hdrop.live o hlive, fun hdoomed => ?_⟩
    suffices hnot : o ∉ {x | h.live x = true} from hnot hlive
    refine hdoomed.notMem fun x hx hcreation => ?_
    have hcount := hdrop.counted x hx
    have hpos := hdrop.positive x hx
    simp only [hdrop.creationRefs, not_not.mp hcreation, reduceCtorEq, if_false] at hcount
    have hrefs : 0 < refs (h.slots \ releasing) h.ptr x := by omega
    obtain ⟨p, hp, hptr⟩ := exists_of_refs_pos hrefs
    obtain ⟨hp, hrel⟩ := Finset.mem_sdiff.mp hp
    refine ⟨p, hdrop.slots hp, (hdrop.ptr p hp).symm.trans hptr, fun hmem => hrel (hbase hmem), ?_⟩
    intro o howner
    cases p with
    | var n => cases howner
    | member o' i =>
        obtain rfl := Option.some.inj howner
        exact hshrinks.live_of_mem hown hp
  · rintro ⟨hlive, hkept⟩
    rw [← Bool.not_eq_false]
    exact fun hdead => hkept (hdrop.doomed o hlive hdead)

include hown hdrop hshrinks hbase in
/-- The pointers that are left are those that are not members of doomed objects. -/
theorem Dropping.mem_slots_iff (p : PtrSlot) :
    p ∈ h.slots ↔ p ∈ h₀.slots ∧ ¬ h₀.DoomedSlot base p := by
  constructor
  · refine fun hp => ⟨hdrop.slots hp, ?_⟩
    rintro ⟨o, howner, hdoomed⟩
    cases p with
    | var n => cases howner
    | member o' i =>
        obtain rfl := Option.some.inj howner
        exact ((hdrop.live_iff hown hshrinks hbase _).mp (hshrinks.live_of_mem hown hp)).2 hdoomed
  · rintro ⟨hp, hkept⟩
    by_contra hgone
    obtain ⟨o, howner, hlive, hdead⟩ := (hshrinks.kept p hp hgone).resolve_left List.not_mem_nil
    exact hkept ⟨o, howner, hdrop.doomed o hlive hdead⟩

include hown hdrop hshrinks in
/-- When the pointers that were released are null, the heap is consistent. -/
theorem Dropping.consistent (hbounded : ∀ x, h₀.live x = true → x < h₀.next)
    {ptr' : PtrSlot → Option ℕ} (hnull : ∀ p ∈ releasing, ptr' p = none)
    (hsame : ∀ p, p ∉ releasing → ptr' p = h.ptr p) : Consistent { h with ptr := ptr' } where
  counted x hx := by
    have hrefs : refs h.slots ptr' x = refs (h.slots \ releasing) h.ptr x := by
      have hcongr : refs (h.slots \ releasing) ptr' = refs (h.slots \ releasing) h.ptr :=
        refs_congr fun p hp => hsame p (Finset.mem_sdiff.mp hp).2
      rw [← hcongr]
      refine congrArg Finset.card (Finset.ext fun p => ?_)
      simp only [Finset.mem_filter, Finset.mem_sdiff]
      refine ⟨fun ⟨hp, hptr⟩ => ⟨⟨hp, fun hrel => ?_⟩, hptr⟩, fun ⟨⟨hp, _⟩, hptr⟩ => ⟨hp, hptr⟩⟩
      cases (hnull p hrel).symm.trans hptr
    have hcount := hdrop.counted x hx
    simp only [reduceCtorEq, if_false, add_zero] at hcount
    show h.refCount x = refs h.slots ptr' x + h.creationRefs x
    rw [hrefs]
    exact hcount
  positive := hdrop.positive
  targets p hp x hptr := by
    have hrel : p ∉ releasing := fun hrel => nomatch (hnull p hrel).symm.trans hptr
    exact hdrop.targets p hp hrel x ((hsame p hrel).symm.trans hptr)
  owners o i := by
    refine ⟨fun hmem => ⟨hshrinks.live_of_mem hown hmem, ?_⟩, fun ⟨hlive, hi⟩ => ?_⟩
    · exact hdrop.members ▸ ((hown o i).mp (hdrop.slots hmem)).2
    · have hmem : .member o i ∈ h₀.slots := (hown o i).mpr ⟨hdrop.live o hlive, hdrop.members ▸ hi⟩
      by_contra hgone
      obtain ⟨o', howner, -, hdead⟩ := (hshrinks.kept _ hmem hgone).resolve_left List.not_mem_nil
      obtain rfl := Option.some.inj howner
      exact absurd (hdead.symm.trans hlive) Bool.false_ne_true
  bounded x hx := hdrop.next ▸ hbounded x (hdrop.live x hx)

end dropping

/-! ## Releasing a pointer -/

section release

variable {h h' : PtrHeap} {p q : PtrSlot} {x : ℕ}

/-- What the release of the pointer `p` leaves. -/
structure Released (h : PtrHeap) (p : PtrSlot) (h' : PtrHeap) : Prop where
  consistent : h'.Consistent
  null : h'.ptr p = none
  ptr : ∀ q ∈ h'.slots, q ≠ p → h'.ptr q = h.ptr q
  slots : ∀ q, q ∈ h'.slots ↔ q ∈ h.slots ∧ ¬ h.DoomedSlot {p} q

/-- Reading a pointer that exists. -/
theorem readPtr_of_mem (hp : p ∈ h.slots) : h.readPtr p = .ok (h.ptr p) := if_pos hp

/-- Writing a pointer that exists. -/
theorem writePtr_of_mem (hp : p ∈ h.slots) (o : Option ℕ) :
    h.writePtr p o = .ok { h with ptr := Function.update h.ptr p o } := if_pos hp

/-- The release of a null pointer. -/
theorem release_of_null (hp : p ∈ h.slots) (hnull : h.ptr p = none) : h.release p = .ok h := by
  rw [release, releaseWith, readPtr_of_mem hp, hnull]
  rfl

/-- **`Release`** succeeds just when it does not delete the object that the pointer is a member of, and
deletes just the doomed objects. -/
theorem release_spec (hc : h.Consistent) (hp : p ∈ h.slots) (hptr : h.ptr p = some x) :
    Ends (fun h' => p ∈ h'.slots ∧ Released h p h') (fun _ => h.DoomedSlot {p} p) (h.release p) := by
  have hstart : Dropping h {p} {p} (some x) h := by
    refine ⟨Finset.Subset.refl _, Finset.singleton_subset_iff.mpr hp, fun _ _ => rfl, fun _ => id, rfl,
      rfl, rfl, fun q hq _ => hc.targets q hq, fun y hy => ?_, hc.positive, fun q hq hgone => ?_,
      fun o hlive hdead => absurd (hdead.symm.trans hlive) Bool.false_ne_true⟩
    · rw [hc.counted y hy, refs_erase hp, hptr, Finset.sdiff_singleton_eq_erase]
      simp only [Nat.cast_add, Nat.cast_ite, Nat.cast_one, Nat.cast_zero]
      ring
    · exact .inl (Finset.mem_singleton.mp (hgone.resolve_left fun hnot => hnot hq))
  have hbase : ({p} : Set PtrSlot) ⊆ ({p} : Finset PtrSlot) := fun q hq => Finset.mem_singleton.mpr hq
  have hfuel : h.liveCount < h.next + 1 := Nat.lt_succ_of_le h.liveCount_le
  have hroot : ∀ q ∈ ({p} : Set PtrSlot), h.ptr q = some x := fun q hq => (congrArg h.ptr hq).trans hptr
  have hcall := releaseRef_spec hc.owners hc.bounded hroot (h.next + 1) {p} x h hstart hbase
    (hc.targets p hp x hptr) (.inl rfl) hfuel
  rw [release, releaseWith, readPtr_of_mem hp, hptr]
  show Ends _ _ (releaseRef (h.next + 1) h x >>= _)
  refine Ends.bind (hcall.imp (fun _ => id) ?_) fun h₁ ⟨hdrop, hshrinks⟩ => ?_
  · rintro fault ⟨-, q, rfl, hdoomed⟩
    exact hdoomed
  · have hmem : p ∈ h₁.slots := hdrop.held (Finset.mem_singleton_self p)
    have hslots : ∀ q, q ∈ h₁.slots ↔ q ∈ h.slots ∧ ¬ h.DoomedSlot {p} q :=
      hdrop.mem_slots_iff hc.owners hshrinks hbase
    rw [writePtr_of_mem hmem]
    refine ⟨hmem, hdrop.consistent hc.owners hshrinks hc.bounded (fun q hq => ?_) fun q hq => ?_,
      Function.update_self .., fun q hq hne => ?_, hslots⟩
    · rw [Finset.mem_singleton.mp hq]
      exact Function.update_self ..
    · exact Function.update_of_ne (fun heq => hq (Finset.mem_singleton.mpr heq)) ..
    · exact (Function.update_of_ne hne ..).trans (hdrop.ptr q hq)

end release

end PtrHeap

end CowboyPoker.ServerCore
