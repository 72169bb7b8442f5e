import CowboyPoker.Found.Transducer
import CowboyPoker.ServerCore.CascadedDeletion

/-!
# Programs with `TSharedPtr`s

* `pointers` — a program: it makes and releases objects, and constructs, copies, moves, assigns and
  destroys pointers to them, in any order.
* `PointerSafety` — no operation accesses what is gone, the counts stay exact, and an assignment leaves
  the pointer where its source pointed to.
* `Consistent.set`, `Consistent.move` and the other lemmas of that kind — what each operation keeps.
* `pointerSafety_iff` — the law holds in a run just when no assignment releases an object with which
  one of its two pointers goes, and no pointer is moved to itself.
-/

namespace CowboyPoker.ServerCore

open CowboyPoker.Found

/-! ## The machine -/

/-- An operation of a program. -/
inductive PtrOp
  /-- `new`, for an object with so many members. -/
  | newObject (members : ℕ)
  /-- The creator of the object `x` calls `ReleaseRef`. -/
  | releaseCreation (x : ℕ)
  /-- The variable `n` is constructed, null or from a raw pointer. -/
  | construct (n : ℕ) (o : Option ℕ)
  /-- The variable `n` is constructed as a copy of `q`. -/
  | copyConstruct (n : ℕ) (q : PtrSlot)
  /-- The variable `n` is constructed by a move from `q`. -/
  | moveConstruct (n : ℕ) (q : PtrSlot)
  /-- `p = q`. -/
  | copyAssign (p q : PtrSlot)
  /-- `p = std::move(q)`. -/
  | moveAssign (p q : PtrSlot)
  /-- The variable `n` is destroyed. -/
  | destroy (n : ℕ)

namespace PtrHeap

/-- What the operation does. -/
def perform (h : PtrHeap) : PtrOp → Except PtrFault PtrHeap
  | .newObject members => .ok (h.newObject members)
  | .releaseCreation x => h.releaseCreation x
  | .construct n o => h.construct n o
  | .copyConstruct n q => h.copyConstruct n q
  | .moveConstruct n q => h.moveConstruct n q
  | .copyAssign p q => h.copyAssign p q
  | .moveAssign p q => h.moveAssign p q
  | .destroy n => h.destroy n

/-- A program can perform the operation: the pointers that it names exist, a variable that it
constructs does not, the target of a raw pointer lives, and the reference that a creator releases was
not released yet. -/
def Offers (h : PtrHeap) : PtrOp → Prop
  | .newObject _ => True
  | .releaseCreation x => h.live x = true ∧ 0 < h.creationRefs x
  | .construct n o => .var n ∉ h.slots ∧ ∀ x ∈ o, h.live x = true
  | .copyConstruct n q => .var n ∉ h.slots ∧ q ∈ h.slots
  | .moveConstruct n q => .var n ∉ h.slots ∧ q ∈ h.slots
  | .copyAssign p q => p ∈ h.slots ∧ q ∈ h.slots
  | .moveAssign p q => p ∈ h.slots ∧ q ∈ h.slots
  | .destroy n => .var n ∈ h.slots

instance (h : PtrHeap) : (op : PtrOp) → Decidable (h.Offers op)
  | .newObject _ => inferInstanceAs (Decidable True)
  | .releaseCreation x => inferInstanceAs (Decidable (h.live x = true ∧ 0 < h.creationRefs x))
  | .construct n o => inferInstanceAs (Decidable (.var n ∉ h.slots ∧ ∀ x ∈ o, h.live x = true))
  | .copyConstruct n q => inferInstanceAs (Decidable (.var n ∉ h.slots ∧ q ∈ h.slots))
  | .moveConstruct n q => inferInstanceAs (Decidable (.var n ∉ h.slots ∧ q ∈ h.slots))
  | .copyAssign p q => inferInstanceAs (Decidable (p ∈ h.slots ∧ q ∈ h.slots))
  | .moveAssign p q => inferInstanceAs (Decidable (p ∈ h.slots ∧ q ∈ h.slots))
  | .destroy n => inferInstanceAs (Decidable (.var n ∈ h.slots))

/-- After an assignment, its left side points to what the right side pointed to. -/
def Assigned (h : PtrHeap) (op : PtrOp) (h' : PtrHeap) : Prop :=
  ∀ p q, op = .copyAssign p q ∨ op = .moveAssign p q → h'.ptr p = h.ptr q

/-- When an assignment releases an object, neither of its pointers is a member of an object that is
deleted with it; and a pointer to an object is not moved to itself. -/
def AssignsSafely (h : PtrHeap) : PtrOp → Prop
  | .copyAssign p q => h.ptr p = h.ptr q ∨ h.ptr p = none ∨
      ¬ h.DoomedSlot {p} p ∧ ¬ h.DoomedSlot {p} q
  | .moveAssign p q => h.ptr p = none ∨
      p ≠ q ∧ ¬ h.DoomedSlot {p} p ∧ ¬ h.DoomedSlot {p} q
  | _ => True

end PtrHeap

/-- A program: its heap, and the access that made it fail. -/
structure PtrState where
  heap : PtrHeap
  fault : Option PtrFault := none

/-- One step; nothing once the program has failed. -/
def PtrState.step (s : PtrState) (op : PtrOp) : PtrState × Option Unit :=
  match s.fault with
  | some _ => (s, none)
  | none =>
      if s.heap.Offers op then
        match s.heap.perform op with
        | .ok heap => ({ heap }, some ())
        | .error fault => ({ s with fault := some fault }, some ())
      else (s, none)

/-- The programs. -/
def pointers : Transducer PtrState PtrOp (Option Unit) where
  step := PtrState.step

/-- A step of a run. -/
abbrev PtrEntry : Type := Entry PtrState PtrOp (Option Unit)

/-- The operation accesses nothing that is gone, leaves the counts exact, and assigns. -/
def PtrEntry.Safe (e : PtrEntry) : Prop :=
  e.output ≠ none → e.after.fault = none ∧ e.after.heap.CountsExact ∧
    e.before.heap.Assigned e.input e.after.heap

/-- **The law.** -/
def PointerSafety (h : List PtrEntry) : Prop := ∀ e ∈ h, e.Safe

/-! ## What the operations keep -/

namespace PtrHeap

variable {h h' : PtrHeap} {p q : PtrSlot} {x n : ℕ} {o : Option ℕ}

/-- A null pointer is set. -/
theorem Consistent.set (hc : h.Consistent) (hp : p ∈ h.slots) (hnull : h.ptr p = none)
    (ho : ∀ x ∈ o, h.live x = true) :
    ∃ h', h.set p o = .ok h' ∧ h'.Consistent ∧ h'.slots = h.slots ∧
      h'.ptr = Function.update h.ptr p o := by
  have htargets : ∀ q ∈ h.slots, ∀ x, Function.update h.ptr p o q = some x → h.live x = true := by
    intro q hq x hx
    by_cases heq : q = p
    · subst heq
      rw [Function.update_self] at hx
      exact ho x hx
    · rw [Function.update_of_ne heq] at hx
      exact hc.targets q hq x hx
  have hrefs : ∀ x, refs h.slots (Function.update h.ptr p o) x =
      refs h.slots h.ptr x + if o = some x then 1 else 0 := by
    intro x
    have hold : refs h.slots h.ptr x = refs (h.slots.erase p) h.ptr x +
        if h.ptr p = some x then 1 else 0 := refs_erase hp
    rw [hnull] at hold
    rw [refs_update hp, hold]
    rfl
  unfold PtrHeap.set
  rw [writePtr_of_mem hp]
  rcases o with _ | y
  · refine ⟨_, rfl, ⟨fun x hx => ?_, hc.positive, htargets, hc.owners, hc.bounded⟩, rfl, rfl⟩
    have hcount := hc.counted x hx
    simp only [hrefs, reduceCtorEq, if_false, add_zero]
    exact hcount
  · have hy := ho y rfl
    refine ⟨_, if_pos hy, ⟨fun x hx => ?_, fun x hx => ?_, htargets, hc.owners, hc.bounded⟩, rfl, rfl⟩
    · have hcount := hc.counted x hx
      simp only [hrefs, Option.some.injEq]
      by_cases heq : x = y
      · subst heq
        simp only [Function.update_self, if_true, Nat.cast_add, Nat.cast_one]
        omega
      · simp only [Function.update_of_ne heq, if_neg (Ne.symm heq), add_zero]
        exact hcount
    · have hpos := hc.positive x hx
      by_cases heq : x = y
      · subst heq
        simp only [Function.update_self]
        omega
      · simp only [Function.update_of_ne heq]
        exact hpos

/-- A null pointer takes over from another one. -/
theorem Consistent.move (hc : h.Consistent) (hp : p ∈ h.slots) (hq : q ∈ h.slots) (hne : p ≠ q)
    (hnull : h.ptr p = none) :
    Consistent { h with ptr := Function.update (Function.update h.ptr p (h.ptr q)) q none } where
  counted x hx := by
    have hp' : p ∈ h.slots.erase q := Finset.mem_erase.mpr ⟨hne, hp⟩
    have hold₁ : refs h.slots h.ptr x = refs (h.slots.erase q) h.ptr x +
        if h.ptr q = some x then 1 else 0 := refs_erase hq
    have hold₂ : refs (h.slots.erase q) h.ptr x = refs ((h.slots.erase q).erase p) h.ptr x +
        if h.ptr p = some x then 1 else 0 := refs_erase hp'
    rw [hnull] at hold₂
    have hcount := hc.counted x hx
    show h.refCount x = refs h.slots _ x + h.creationRefs x
    rw [refs_update hq, refs_update hp', hcount, hold₁, hold₂]
    rfl
  positive := hc.positive
  targets r hr x hx := by
    have hx : Function.update (Function.update h.ptr p (h.ptr q)) q none r = some x := hx
    by_cases hrq : r = q
    · subst hrq
      cases (Function.update_self ..).symm.trans hx
    · rw [Function.update_of_ne hrq] at hx
      by_cases hrp : r = p
      · subst hrp
        rw [Function.update_self] at hx
        exact hc.targets q hq x hx
      · rw [Function.update_of_ne hrp] at hx
        exact hc.targets r hr x hx
  owners := hc.owners
  bounded := hc.bounded

/-- How a pointer takes over from another one that exists. -/
theorem takeOver_eq (hp : p ∈ h.slots) (hq : q ∈ h.slots) :
    (h.readPtr q >>= fun o => h.writePtr p o >>= fun h' => h'.writePtr q none) =
      .ok { h with ptr := Function.update (Function.update h.ptr p (h.ptr q)) q none } := by
  rw [readPtr_of_mem hq]
  show h.writePtr p (h.ptr q) >>= _ = _
  rw [writePtr_of_mem hp]
  exact if_pos hq

/-- A new variable is null. -/
theorem Consistent.newVar (hc : h.Consistent) (hn : .var n ∉ h.slots) : (h.newVar n).Consistent where
  counted x hx := by
    have hnull : (h.newVar n).ptr (.var n) = none := Function.update_self ..
    have hsame : refs h.slots (h.newVar n).ptr = refs h.slots h.ptr := by
      refine refs_congr fun q hq => Function.update_of_ne ?_ ..
      rintro rfl
      exact hn hq
    have hcount := hc.counted x hx
    show h.refCount x = refs (insert (.var n) h.slots) (h.newVar n).ptr x + h.creationRefs x
    rw [refs_insert hn, hnull, hsame]
    exact hcount
  positive := hc.positive
  targets q hq x hx := by
    by_cases heq : q = .var n
    · subst heq
      cases (Function.update_self ..).symm.trans hx
    · exact hc.targets q ((Finset.mem_insert.mp hq).resolve_left heq) x
        ((Function.update_of_ne heq ..).symm.trans hx)
  owners o i := (Finset.mem_insert.trans (or_iff_right PtrSlot.noConfusion)).trans (hc.owners o i)
  bounded := hc.bounded

/-- A null variable ends. -/
theorem Consistent.dropSlot (hc : h.Consistent) (hn : .var n ∈ h.slots)
    (hnull : h.ptr (.var n) = none) : (h.dropSlot (.var n)).Consistent where
  counted x hx := by
    have hcount := hc.counted x hx
    rw [refs_erase hn, hnull] at hcount
    exact hcount
  positive := hc.positive
  targets q hq x hx := hc.targets q (Finset.mem_of_mem_erase hq) x hx
  owners o i := (Finset.mem_erase.trans (and_iff_right PtrSlot.noConfusion)).trans (hc.owners o i)
  bounded := hc.bounded

/-- A new object. -/
theorem Consistent.newObject (hc : h.Consistent) (members : ℕ) : (h.newObject members).Consistent := by
  have hfresh : h.live h.next ≠ true := fun hlive => lt_irrefl _ (hc.bounded _ hlive)
  have howner : ∀ q ∈ h.slots, q.owner ≠ some h.next := by
    intro q hq howner
    cases q with
    | var n => cases howner
    | member o i =>
        obtain rfl := Option.some.inj howner
        exact hfresh ((hc.owners _ i).mp hq).1
  have hold : ∀ q ∈ h.slots, (h.newObject members).ptr q = h.ptr q := fun q hq => if_neg (howner q hq)
  have hnew : ∀ q x, q ∈ (h.newObject members).slots → (h.newObject members).ptr q = some x →
      q ∈ h.slots := by
    intro q x hq hx
    refine (Finset.mem_union.mp hq).resolve_right fun hmem => ?_
    obtain ⟨i, -, rfl⟩ := Finset.mem_image.mp hmem
    have hnull : (h.newObject members).ptr (.member h.next i) = none := if_pos rfl
    cases hnull.symm.trans hx
  have hrefs : refs (h.newObject members).slots (h.newObject members).ptr = refs h.slots h.ptr := by
    rw [← refs_congr hold]
    funext x
    refine congrArg Finset.card (Finset.ext fun q => ?_)
    simp only [Finset.mem_filter]
    exact ⟨fun ⟨hq, hx⟩ => ⟨hnew q x hq hx, hx⟩, fun ⟨hq, hx⟩ => ⟨Finset.mem_union_left _ hq, hx⟩⟩
  have hself : ∀ x, (h.newObject members).live x = true →
      x = h.next ∨ x ≠ h.next ∧ h.live x = true := by
    intro x hx
    by_cases heq : x = h.next
    · exact .inl heq
    · exact .inr ⟨heq, (Function.update_of_ne heq ..).symm.trans hx⟩
  refine ⟨fun x hx => ?_, fun x hx => ?_, fun q hq x hx => ?_, fun o i => ?_, fun x hx => ?_⟩
  · rw [hrefs]
    rcases hself x hx with rfl | ⟨hne, hlive⟩
    · have hzero : refs h.slots h.ptr h.next = 0 :=
        refs_eq_zero_iff.mpr fun q hq hptr => hfresh (hc.targets q hq _ hptr)
      simp only [PtrHeap.newObject, Function.update_self, hzero]
      rfl
    · simp only [PtrHeap.newObject, Function.update_of_ne hne]
      exact hc.counted x hlive
  · rcases hself x hx with rfl | ⟨hne, hlive⟩
    · simp only [PtrHeap.newObject, Function.update_self]
      exact Int.one_pos
    · simp only [PtrHeap.newObject, Function.update_of_ne hne]
      exact hc.positive x hlive
  · have hmem := hnew q x hq hx
    have hlive := hc.targets q hmem x ((hold q hmem).symm.trans hx)
    have hne : x ≠ h.next := fun heq => hfresh (heq ▸ hlive)
    exact (Function.update_of_ne hne ..).trans hlive
  · by_cases heq : o = h.next
    · subst heq
      have hnone : .member h.next i ∉ h.slots := fun hmem => hfresh ((hc.owners _ i).mp hmem).1
      simp only [PtrHeap.newObject, Finset.mem_union, hnone, false_or, Finset.mem_image,
        Finset.mem_range, Function.update_self, true_and, PtrSlot.member.injEq, exists_eq_right]
    · simp only [PtrHeap.newObject, Finset.mem_union, Finset.mem_image, Finset.mem_range,
        Function.update_of_ne heq, PtrSlot.member.injEq, Ne.symm heq, false_and, and_false,
        exists_false, or_false]
      exact hc.owners o i
  · rcases hself x hx with rfl | ⟨-, hlive⟩
    · exact Nat.lt_succ_self _
    · exact (hc.bounded x hlive).trans (Nat.lt_succ_self _)

/-- The creator of an object releases its reference. -/
theorem Consistent.releaseCreation (hc : h.Consistent) (hx : h.live x = true)
    (hcreation : 0 < h.creationRefs x) :
    ∃ h', h.releaseCreation x = .ok h' ∧ h'.Consistent := by
  set h₀ : PtrHeap :=
    { h with creationRefs := Function.update h.creationRefs x (h.creationRefs x - 1) } with hh₀
  have hstart : Dropping h₀ ∅ ∅ (some x) h₀ := by
    refine ⟨Finset.Subset.refl _, Finset.empty_subset _, fun _ _ => rfl, fun _ => id, rfl, rfl, rfl,
      fun q hq _ => hc.targets q hq, fun y hy => ?_, hc.positive, fun q hq hgone => ?_,
      fun o hlive hdead => absurd (hdead.symm.trans hlive) Bool.false_ne_true⟩
    · have hcount := hc.counted y hy
      rw [Finset.sdiff_empty]
      by_cases heq : y = x
      · subst heq
        simp only [hh₀, Function.update_self, if_true]
        omega
      · have hpending : (some x = some y) = False :=
          eq_false fun hsame => heq (Option.some.inj hsame).symm
        simp only [hh₀, Function.update_of_ne heq, hpending, if_false, add_zero]
        exact hcount
    · exact absurd (hgone.resolve_left fun hnot => hnot hq) (Finset.notMem_empty q)
  have hfuel : h₀.liveCount < h.next + 1 := Nat.lt_succ_of_le h₀.liveCount_le
  have howners : ∀ o i, .member o i ∈ h₀.slots ↔ h₀.live o = true ∧ i < h₀.members o := hc.owners
  have hbounded : ∀ x, h₀.live x = true → x < h₀.next := hc.bounded
  have hcall := releaseRef_spec howners hbounded (fun q hq => hq.elim) (h.next + 1) ∅ x h₀ hstart
    (Set.empty_subset _) hx (.inl rfl) hfuel
  unfold PtrHeap.releaseCreation
  rcases hrelease : releaseRef (h.next + 1) h₀ x with fault | h'
  · rw [hrelease] at hcall
    obtain ⟨-, q, hq, -⟩ := hcall
    exact hq.elim
  · rw [hrelease] at hcall
    exact ⟨h', rfl, hcall.1.consistent howners hcall.2 hbounded
      (fun q hq => absurd hq (Finset.notMem_empty q)) fun _ _ => rfl⟩

/-- A variable is destroyed: it is a member of no object. -/
theorem Consistent.destroy (hc : h.Consistent) (hn : .var n ∈ h.slots) :
    ∃ h', h.destroy n = .ok h' ∧ h'.Consistent := by
  have hrelease : ∃ h', h.release (.var n) = .ok h' ∧ h'.Consistent ∧ .var n ∈ h'.slots ∧
      h'.ptr (.var n) = none := by
    rcases hptr : h.ptr (.var n) with _ | x
    · exact ⟨h, release_of_null hn hptr, hc, hn, hptr⟩
    · have hspec := release_spec hc hn hptr
      rcases hrelease : h.release (.var n) with fault | h'
      · rw [hrelease] at hspec
        obtain ⟨o, howner, -⟩ := hspec
        cases howner
      · rw [hrelease] at hspec
        exact ⟨h', rfl, hspec.2.consistent, hspec.1, hspec.2.null⟩
  obtain ⟨h', hok, hc', hn', hnull⟩ := hrelease
  refine ⟨h'.dropSlot (.var n), ?_, hc'.dropSlot hn' hnull⟩
  unfold PtrHeap.destroy destroyWith
  rw [← PtrHeap.release, hok]
  rfl

/-- A variable is constructed by a copy. -/
theorem Consistent.copyConstruct (hc : h.Consistent) (hn : .var n ∉ h.slots) (hq : q ∈ h.slots) :
    ∃ h', h.copyConstruct n q = .ok h' ∧ h'.Consistent := by
  have hq' : q ∈ (h.newVar n).slots := Finset.mem_insert_of_mem hq
  obtain ⟨h', hset, hc', -⟩ := (hc.newVar hn).set (o := (h.newVar n).ptr q)
    (Finset.mem_insert_self _ _) (Function.update_self ..) fun x hx => (hc.newVar hn).targets q hq' x hx
  refine ⟨h', ?_, hc'⟩
  show (h.newVar n).readPtr q >>= _ = _
  rw [readPtr_of_mem hq']
  exact hset

/-- A variable is constructed by a move. -/
theorem Consistent.moveConstruct (hc : h.Consistent) (hn : .var n ∉ h.slots) (hq : q ∈ h.slots) :
    ∃ h', h.moveConstruct n q = .ok h' ∧ h'.Consistent := by
  have hne : .var n ≠ q := fun heq => hn (heq ▸ hq)
  have hn' : .var n ∈ (h.newVar n).slots := Finset.mem_insert_self _ _
  have hq' : q ∈ (h.newVar n).slots := Finset.mem_insert_of_mem hq
  refine ⟨_, ?_, (hc.newVar hn).move hn' hq' hne (Function.update_self ..)⟩
  exact takeOver_eq hn' hq'

/-- **The copy assignment.** -/
theorem copyAssign_spec (hc : h.Consistent) (hp : p ∈ h.slots) (hq : q ∈ h.slots) :
    Ends (fun h' => h'.Consistent ∧ h.AssignsSafely (.copyAssign p q) ∧ h'.ptr p = h.ptr q)
      (fun _ => ¬ h.AssignsSafely (.copyAssign p q)) (h.copyAssign p q) := by
  unfold PtrHeap.copyAssign
  rw [readPtr_of_mem hp, readPtr_of_mem hq]
  show Ends _ _ (ite (h.ptr p ≠ h.ptr q) _ _)
  by_cases heq : h.ptr p = h.ptr q
  · rw [if_neg (not_not.mpr heq)]
    exact ⟨hc, .inl heq, heq⟩
  rw [if_pos heq]
  have hqp : q ≠ p := fun hsame => heq (hsame ▸ rfl)
  rcases hptr : h.ptr p with _ | x
  · obtain ⟨h', hset, hc', -, hptr'⟩ := hc.set (o := h.ptr q) hp hptr (hc.targets q hq)
    rw [release_of_null hp hptr]
    show Ends _ _ (h.readPtr q >>= _)
    rw [readPtr_of_mem hq]
    show Ends _ _ (h.set p (h.ptr q))
    rw [hset]
    exact ⟨hc', .inr (.inl hptr), by rw [hptr', Function.update_self]⟩
  have hsafe : h.AssignsSafely (.copyAssign p q) ↔
      ¬ h.DoomedSlot {p} p ∧ ¬ h.DoomedSlot {p} q := by
    refine ⟨fun hsafe => ?_, fun hsafe => .inr (.inr hsafe)⟩
    exact (hsafe.resolve_left heq).resolve_left (hptr ▸ Option.some_ne_none x)
  refine Ends.bind ((release_spec hc hp hptr).imp (fun _ => id) fun _ hdoomed hsafe =>
    (hsafe.resolve_left heq).elim (fun hnull => nomatch hptr.symm.trans hnull) fun hkept =>
      hkept.1 hdoomed) fun h₁ ⟨hp₁, hreleased⟩ => ?_
  have hkept := ((hreleased.slots p).mp hp₁).2
  by_cases hq₁ : q ∈ h₁.slots
  · have hsame : h₁.ptr q = h.ptr q := hreleased.ptr q hq₁ hqp
    obtain ⟨h', hset, hc', -, hptr'⟩ := hreleased.consistent.set (o := h₁.ptr q) hp₁ hreleased.null
      (hreleased.consistent.targets q hq₁)
    rw [readPtr_of_mem hq₁]
    show Ends _ _ (h₁.set p (h₁.ptr q))
    rw [hset]
    refine ⟨hc', hsafe.mpr ⟨hkept, ((hreleased.slots q).mp hq₁).2⟩, ?_⟩
    rw [hptr', Function.update_self, hsame]
  · have hgone : h₁.readPtr q = .error .ptrGone := if_neg hq₁
    rw [hgone]
    exact fun hbad => hq₁ ((hreleased.slots q).mpr ⟨hq, (hsafe.mp hbad).2⟩)

/-- **The move assignment.** It assigns just when it is safe. -/
theorem moveAssign_spec (hc : h.Consistent) (hp : p ∈ h.slots) (hq : q ∈ h.slots) :
    Ends (fun h' => h'.Consistent ∧ (h.AssignsSafely (.moveAssign p q) ↔ h'.ptr p = h.ptr q))
      (fun _ => ¬ h.AssignsSafely (.moveAssign p q)) (h.moveAssign p q) := by
  unfold PtrHeap.moveAssign
  rcases hptr : h.ptr p with _ | x
  · rw [release_of_null hp hptr]
    show Ends _ _ (h.readPtr q >>= fun o => h.writePtr p o >>= fun h' => h'.writePtr q none)
    rw [takeOver_eq hp hq]
    have hsafe : h.AssignsSafely (.moveAssign p q) := .inl hptr
    by_cases heq : p = q
    · -- a null pointer that is moved to itself
      subst heq
      have hself : Function.update (Function.update h.ptr p (h.ptr p)) p none = h.ptr := by
        rw [Function.update_eq_self, ← hptr, Function.update_eq_self]
      rw [hself]
      exact ⟨hc, iff_of_true hsafe rfl⟩
    · refine ⟨hc.move hp hq heq hptr, iff_of_true hsafe ?_⟩
      exact (Function.update_of_ne heq ..).trans (Function.update_self ..)
  have hsafe : h.AssignsSafely (.moveAssign p q) ↔
      p ≠ q ∧ ¬ h.DoomedSlot {p} p ∧ ¬ h.DoomedSlot {p} q :=
    or_iff_right (hptr ▸ Option.some_ne_none x)
  rw [hsafe]
  refine Ends.bind ((release_spec hc hp hptr).imp (fun _ => id) fun _ hdoomed hkept =>
    hkept.2.1 hdoomed) fun h₁ ⟨hp₁, hreleased⟩ => ?_
  have hkept := ((hreleased.slots p).mp hp₁).2
  by_cases hq₁ : q ∈ h₁.slots
  swap
  · have hgone : h₁.readPtr q = .error .ptrGone := if_neg hq₁
    rw [hgone]
    exact fun hbad => hq₁ ((hreleased.slots q).mpr ⟨hq, hbad.2.2⟩)
  rw [takeOver_eq hp₁ hq₁]
  by_cases heq : p = q
  · -- the release has made the pointer null
    subst heq
    have hself : Function.update (Function.update h₁.ptr p (h₁.ptr p)) p none = h₁.ptr := by
      rw [Function.update_eq_self, ← hreleased.null, Function.update_eq_self]
    rw [hself]
    refine ⟨hreleased.consistent, iff_of_false (fun hbad => hbad.1 rfl) ?_⟩
    rw [hreleased.null, hptr]
    exact (Option.some_ne_none x).symm
  · refine ⟨hreleased.consistent.move hp₁ hq₁ heq hreleased.null, iff_of_true ?_ ?_⟩
    · exact ⟨heq, hkept, ((hreleased.slots q).mp hq₁).2⟩
    · have hself : Function.update (Function.update h₁.ptr p (h₁.ptr q)) q none p = h₁.ptr q :=
        (Function.update_of_ne heq ..).trans (Function.update_self ..)
      exact hself.trans (hreleased.ptr q hq₁ (Ne.symm heq))

/-- An operation that assigns nothing is safe, and there is nothing that it should have assigned. -/
theorem perform_of_not_assignment {op : PtrOp}
    (hop : ∀ p q, ¬ (op = .copyAssign p q ∨ op = .moveAssign p q))
    (hok : ∃ h', h.perform op = .ok h' ∧ h'.Consistent) :
    Ends (fun h' => h'.Consistent ∧ (h.AssignsSafely op ↔ h.Assigned op h'))
      (fun _ => ¬ h.AssignsSafely op) (h.perform op) := by
  obtain ⟨h', hperform, hc'⟩ := hok
  have hsafe : h.AssignsSafely op := by
    cases op with
    | copyAssign p q => exact absurd (.inl rfl) (hop p q)
    | moveAssign p q => exact absurd (.inr rfl) (hop p q)
    | _ => exact trivial
  rw [hperform]
  exact ⟨hc', iff_of_true hsafe fun p q hassigns => absurd hassigns (hop p q)⟩

/-- **What an operation does.** It keeps the heap consistent, or it fails; an assignment assigns just
when it is safe, and fails only when it is not. -/
theorem perform_spec (hc : h.Consistent) {op : PtrOp} (hoffers : h.Offers op) :
    Ends (fun h' => h'.Consistent ∧ (h.AssignsSafely op ↔ h.Assigned op h'))
      (fun _ => ¬ h.AssignsSafely op) (h.perform op) := by
  cases op with
  | newObject members =>
      exact perform_of_not_assignment (fun _ _ => nofun) ⟨_, rfl, hc.newObject members⟩
  | releaseCreation x =>
      exact perform_of_not_assignment (fun _ _ => nofun) (hc.releaseCreation hoffers.1 hoffers.2)
  | construct n o =>
      obtain ⟨h', hok, hc', -⟩ := (hc.newVar hoffers.1).set (Finset.mem_insert_self _ _)
        (Function.update_self ..) hoffers.2
      exact perform_of_not_assignment (fun _ _ => nofun) ⟨h', hok, hc'⟩
  | copyConstruct n q =>
      exact perform_of_not_assignment (fun _ _ => nofun) (hc.copyConstruct hoffers.1 hoffers.2)
  | moveConstruct n q =>
      exact perform_of_not_assignment (fun _ _ => nofun) (hc.moveConstruct hoffers.1 hoffers.2)
  | copyAssign p q =>
      refine (copyAssign_spec hc hoffers.1 hoffers.2).mono fun h' ⟨hc', hsafe, hassigned⟩ =>
        ⟨hc', iff_of_true hsafe ?_⟩
      rintro p q (hop | hop) <;> cases hop
      exact hassigned
  | moveAssign p q =>
      refine (moveAssign_spec hc hoffers.1 hoffers.2).mono fun h' ⟨hc', hsafe⟩ => ⟨hc', ?_⟩
      rw [hsafe]
      refine ⟨fun hassigned => ?_, fun hassigned => hassigned p q (.inr rfl)⟩
      rintro p q (hop | hop) <;> cases hop
      exact hassigned
  | destroy n => exact perform_of_not_assignment (fun _ _ => nofun) (hc.destroy hoffers)

end PtrHeap

/-! ## Runs -/

section runs

variable {s : PtrState}

/-- Unless it has failed, a program has a consistent heap. -/
def PtrState.Sound (s : PtrState) : Prop := s.fault = none → s.heap.Consistent

/-- **What a step does.** Nothing, or the operation, which a program can perform that has not failed. -/
theorem PtrState.step_cases (s : PtrState) (op : PtrOp) :
    s.step op = (s, none) ∨ s.fault = none ∧ s.heap.Offers op ∧
      ((∃ h', s.heap.perform op = .ok h' ∧ s.step op = ({ heap := h' }, some ())) ∨
        ∃ fault, s.heap.perform op = .error fault ∧
          s.step op = ({ s with fault := some fault }, some ())) := by
  rcases hfault : s.fault with _ | fault
  swap
  · left
    simp only [step, hfault]
  by_cases hoffers : s.heap.Offers op
  swap
  · left
    simp only [step, hfault, if_neg hoffers]
  refine .inr ⟨rfl, hoffers, ?_⟩
  rcases hperform : s.heap.perform op with fault | h'
  · refine .inr ⟨fault, rfl, ?_⟩
    simp only [step, hfault, if_pos hoffers, hperform]
  · refine .inl ⟨h', rfl, ?_⟩
    simp only [step, hfault, if_pos hoffers, hperform]

/-- A program that has not failed keeps its heap consistent. -/
theorem PtrState.Sound.step (hs : s.Sound) (op : PtrOp) : (pointers.step s op).1.Sound := by
  show (s.step op).1.Sound
  rcases s.step_cases op with hstep | ⟨hfault, hoffers, ⟨h', hperform, hstep⟩ | ⟨fault, -, hstep⟩⟩
  · rwa [hstep]
  · have hspec := PtrHeap.perform_spec (hs hfault) hoffers
    rw [hperform] at hspec
    rw [hstep]
    exact fun _ => hspec.1
  · rw [hstep]
    exact nofun

/-- **When a step is safe.** -/
theorem PtrState.Sound.safe_iff (hs : s.Sound) (op : PtrOp) :
    PtrEntry.Safe (pointers.entry s op) ↔
      ((pointers.entry s op).output ≠ none → s.heap.AssignsSafely op) := by
  have hentry : pointers.entry s op = ⟨s, op, (s.step op).1, (s.step op).2⟩ := rfl
  rw [hentry]
  rcases s.step_cases op with
    hstep | ⟨hfault, hoffers, ⟨h', hperform, hstep⟩ | ⟨fault, hperform, hstep⟩⟩
  · rw [hstep]
    exact iff_of_true (fun hout => absurd rfl hout) fun hout => absurd rfl hout
  · have hspec := PtrHeap.perform_spec (hs hfault) hoffers
    rw [hperform] at hspec
    rw [hstep]
    refine forall_congr' fun _ => ?_
    exact ⟨fun hsafe => hspec.2.mpr hsafe.2.2, fun hsafe => ⟨rfl, hspec.1.counted, hspec.2.mp hsafe⟩⟩
  · have hspec := PtrHeap.perform_spec (hs hfault) hoffers
    rw [hperform] at hspec
    rw [hstep]
    refine forall_congr' fun _ => ?_
    exact iff_of_false (fun hsafe => Option.some_ne_none fault hsafe.1) hspec

variable {h : PtrHeap}

/-- **When pointers are safe.** In every run: just when no assignment releases an object with which one
of its two pointers goes, and no pointer to an object is moved to itself. -/
theorem pointerSafety_iff (hc : h.Consistent) (ops : List PtrOp) :
    PointerSafety (pointers.trace { heap := h } ops) ↔
      ∀ e ∈ pointers.trace { heap := h } ops,
        e.output ≠ none → e.before.heap.AssignsSafely e.input := by
  refine forall₂_congr fun e he => ?_
  have hsound : e.before.Sound :=
    pointers.trace_invariant (I := PtrState.Sound) (fun _ => hc) (fun _ op hs => hs.step op) he
  have heq := pointers.eq_entry_of_mem_trace he
  have hiff := hsound.safe_iff e.input
  rwa [← heq] at hiff

end runs

/-! ## Three programs -/

/-- The heap of a program that has done nothing. -/
theorem PtrHeap.consistent_empty : PtrHeap.Consistent {} where
  counted _ := nofun
  positive _ := nofun
  targets _ hp := absurd hp (Finset.notMem_empty _)
  owners _ _ := iff_of_false (Finset.notMem_empty _) fun hlive => Bool.false_ne_true hlive.1
  bounded _ := nofun

/-- Two nodes, `head` at the first one, and the second one as its `next`. -/
def listOps : List PtrOp :=
  [.newObject 1, .newObject 1, .construct 0 (some 0), .construct 1 (some 1), .releaseCreation 0,
    .releaseCreation 1, .copyAssign (.member 0 0) (.var 1), .destroy 1]

/-- To make the list is safe. -/
theorem pointerSafety_listOps : PointerSafety (pointers.trace { heap := {} } listOps) := by
  refine (pointerSafety_iff PtrHeap.consistent_empty listOps).mpr fun e he _ => ?_
  simp only [listOps, Transducer.trace_cons, Transducer.trace_nil, List.mem_cons, List.not_mem_nil,
    or_false] at he
  rcases he with rfl | rfl | rfl | rfl | rfl | rfl | rfl | rfl
  case inr.inr.inr.inr.inr.inr.inl => exact .inr (.inl rfl)
  all_goals exact trivial

/-- `head = head->next` reads the pointer that the deletion of the first node has destroyed, and a
pointer that is moved to itself is null afterwards. -/
theorem not_pointerSafety_head_next :
    ¬ PointerSafety (pointers.trace { heap := {} } (listOps ++ [.copyAssign (.var 0) (.member 0 0)])) ∧
      ¬ PointerSafety (pointers.trace { heap := {} } (listOps ++ [.moveAssign (.var 0) (.var 0)])) := by
  constructor
  · intro hlaw
    have hsafe := hlaw _ ((Transducer.mem_trace_iff _).mpr ⟨listOps, _, [], rfl, rfl⟩)
    have hfault : (pointers.entry (pointers.exec { heap := {} } listOps)
        (.copyAssign (.var 0) (.member 0 0))).after.fault = some .ptrGone := by decide
    exact nomatch hfault.symm.trans (hsafe (by decide)).1
  · intro hlaw
    have hsafe := hlaw _ ((Transducer.mem_trace_iff _).mpr ⟨listOps, _, [], rfl, rfl⟩)
    have hassigned := (hsafe (by decide)).2.2 (.var 0) (.var 0) (.inr rfl)
    revert hassigned
    decide

end CowboyPoker.ServerCore
