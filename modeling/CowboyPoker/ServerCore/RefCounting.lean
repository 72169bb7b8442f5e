import CowboyPoker.Found.OwnershipGraph
import Mathlib.Data.Finset.Filter
import Mathlib.Data.Finset.Range
import Mathlib.Logic.Function.Basic

/-!
# `RefCountable` and `TSharedPtr`

* `PtrHeap` — objects that derive from `RefCountable`, the `TSharedPtr`s that are variables or members
  of objects, and where they point. The count is an integer: it never gets near the bounds of `int32`.
* `releaseRef`, `release`, `set`, `copyAssign`, `moveAssign` — the functions of the source. An access to
  a pointer that was destroyed, or to the count of an object whose destructor has begun, is an error.
  The recursion through the destructors has fuel.
* `PtrHeap.Consistent` — the counts are the numbers of pointers and creation references.
* `PtrHeap.Doomed` — the objects that are deleted when certain pointers are released.
-/

namespace CowboyPoker.ServerCore

open CowboyPoker.Found

/-- A `TSharedPtr`. -/
inductive PtrSlot
  /-- A variable. -/
  | var (n : ℕ)
  /-- The member with the index `i` of the object `o`. -/
  | member (o i : ℕ)
  deriving DecidableEq

/-- The object that a pointer is a member of. -/
def PtrSlot.owner : PtrSlot → Option ℕ
  | var _ => none
  | member o _ => some o

/-- An access to something that is gone. -/
inductive PtrFault
  /-- The fuel ran out: the code would not terminate. -/
  | outOfFuel
  /-- The count of an object is accessed whose destructor has begun. -/
  | objectGone
  /-- A `TSharedPtr` is accessed that was destroyed. -/
  | ptrGone
  deriving DecidableEq

/-- The objects and the pointers of a program. -/
structure PtrHeap where
  /-- The pointers that exist. -/
  slots : Finset PtrSlot := ∅
  /-- `_ptr`. -/
  ptr : PtrSlot → Option ℕ := fun _ => none
  /-- The objects whose destructor has not begun. -/
  live : ℕ → Bool := fun _ => false
  /-- `_refCount`. The `atomic<int32>` is this number below 2^31 references to an object. -/
  refCount : ℕ → ℤ := fun _ => 0
  /-- The number of `TSharedPtr` members of an object. -/
  members : ℕ → ℕ := fun _ => 0
  /-- The references of the creators of an object that were not released. -/
  creationRefs : ℕ → ℕ := fun _ => 0
  /-- The next new object. -/
  next : ℕ := 0

namespace PtrHeap

/-! ## The functions of the source -/

/-- A `TSharedPtr` is read. -/
def readPtr (h : PtrHeap) (p : PtrSlot) : Except PtrFault (Option ℕ) :=
  if p ∈ h.slots then .ok (h.ptr p) else .error .ptrGone

/-- A `TSharedPtr` is written. -/
def writePtr (h : PtrHeap) (p : PtrSlot) (o : Option ℕ) : Except PtrFault PtrHeap :=
  if p ∈ h.slots then .ok { h with ptr := Function.update h.ptr p o } else .error .ptrGone

/-- A `TSharedPtr` ends. -/
def dropSlot (h : PtrHeap) (p : PtrSlot) : PtrHeap := { h with slots := h.slots.erase p }

/-- The state after `--_refCount`. -/
def decRef (h : PtrHeap) (x : ℕ) : PtrHeap :=
  { h with refCount := Function.update h.refCount x (h.refCount x - 1) }

/-- The destructor of an object begins. -/
def beginDelete (h : PtrHeap) (x : ℕ) : PtrHeap :=
  { h with live := Function.update h.live x false }

/-- Source: `ServerCore/RefCounting.h`, `RefCountable::AddRef` -/
def addRef (h : PtrHeap) (x : ℕ) : Except PtrFault PtrHeap :=
  if h.live x then .ok { h with refCount := Function.update h.refCount x (h.refCount x + 1) }
  else .error .objectGone

/-- `TSharedPtr::Release`, with the `ReleaseRef` that it calls.
Source: `ServerCore/RefCounting.h`, `TSharedPtr::Release` -/
def releaseWith (releaseRef : PtrHeap → ℕ → Except PtrFault PtrHeap) (h : PtrHeap) (p : PtrSlot) :
    Except PtrFault PtrHeap := do
  match ← h.readPtr p with
  | none => return h
  | some x =>
      let h ← releaseRef h x
      h.writePtr p none

/-- `~TSharedPtr`, with the `ReleaseRef` that it calls.
Source: `ServerCore/RefCounting.h`, `TSharedPtr::~TSharedPtr` -/
def destroyWith (releaseRef : PtrHeap → ℕ → Except PtrFault PtrHeap) (h : PtrHeap) (p : PtrSlot) :
    Except PtrFault PtrHeap := do
  let h ← releaseWith releaseRef h p
  return h.dropSlot p

/-- The `TSharedPtr` members of an object, in the order of their destruction. -/
def memberSlots (h : PtrHeap) (x : ℕ) : List PtrSlot :=
  (List.range (h.members x)).reverse.map (.member x)

/-- `ReleaseRef`: the last reference deletes the object, whose destructor destroys its members.
Source: `ServerCore/RefCounting.h`, `RefCountable::ReleaseRef` -/
def releaseRef : ℕ → PtrHeap → ℕ → Except PtrFault PtrHeap
  | 0, _, _ => .error .outOfFuel
  | fuel + 1, h, x =>
      if h.live x then
        let h := h.decRef x
        if h.refCount x = 0 then
          (h.memberSlots x).foldlM (destroyWith (releaseRef fuel)) (h.beginDelete x)
        else .ok h
      else .error .objectGone

/-- Source: `ServerCore/RefCounting.h`, `TSharedPtr::Release` -/
def release (h : PtrHeap) (p : PtrSlot) : Except PtrFault PtrHeap :=
  releaseWith (releaseRef (h.next + 1)) h p

/-- Source: `ServerCore/RefCounting.h`, `TSharedPtr::Set` -/
def set (h : PtrHeap) (p : PtrSlot) (o : Option ℕ) : Except PtrFault PtrHeap := do
  let h ← h.writePtr p o
  match o with
  | none => return h
  | some x => h.addRef x

/-- The copy assignment `p = q`.
Source: `ServerCore/RefCounting.h`, `TSharedPtr::operator=` -/
def copyAssign (h : PtrHeap) (p q : PtrSlot) : Except PtrFault PtrHeap := do
  if (← h.readPtr p) ≠ (← h.readPtr q) then
    let h ← h.release p
    h.set p (← h.readPtr q)
  else return h

/-- The move assignment `p = std::move(q)`.
Source: `ServerCore/RefCounting.h`, `TSharedPtr::operator=` -/
def moveAssign (h : PtrHeap) (p q : PtrSlot) : Except PtrFault PtrHeap := do
  let h ← h.release p
  let h ← h.writePtr p (← h.readPtr q)
  h.writePtr q none

/-- A new variable. -/
def newVar (h : PtrHeap) (n : ℕ) : PtrHeap :=
  { h with slots := insert (.var n) h.slots, ptr := Function.update h.ptr (.var n) none }

/-- `TSharedPtr(ptr)` for a new variable; `TSharedPtr()` is that of the null pointer.
Source: `ServerCore/RefCounting.h`, `TSharedPtr::TSharedPtr` -/
def construct (h : PtrHeap) (n : ℕ) (o : Option ℕ) : Except PtrFault PtrHeap :=
  (h.newVar n).set (.var n) o

/-- `TSharedPtr(q)` for a new variable.
Source: `ServerCore/RefCounting.h`, `TSharedPtr::TSharedPtr` -/
def copyConstruct (h : PtrHeap) (n : ℕ) (q : PtrSlot) : Except PtrFault PtrHeap := do
  let h := h.newVar n
  h.set (.var n) (← h.readPtr q)

/-- `TSharedPtr(std::move(q))` for a new variable.
Source: `ServerCore/RefCounting.h`, `TSharedPtr::TSharedPtr` -/
def moveConstruct (h : PtrHeap) (n : ℕ) (q : PtrSlot) : Except PtrFault PtrHeap := do
  let h := h.newVar n
  let h ← h.writePtr (.var n) (← h.readPtr q)
  h.writePtr q none

/-- `~TSharedPtr` of a variable.
Source: `ServerCore/RefCounting.h`, `TSharedPtr::~TSharedPtr` -/
def destroy (h : PtrHeap) (n : ℕ) : Except PtrFault PtrHeap :=
  destroyWith (releaseRef (h.next + 1)) h (.var n)

/-- A new object with null members and one reference, that of its creator.
Source: `ServerCore/RefCounting.h`, `RefCountable::RefCountable` -/
def newObject (h : PtrHeap) (members : ℕ) : PtrHeap where
  slots := h.slots ∪ (Finset.range members).image (.member h.next)
  ptr p := if p.owner = some h.next then none else h.ptr p
  live := Function.update h.live h.next true
  refCount := Function.update h.refCount h.next 1
  members := Function.update h.members h.next members
  creationRefs := Function.update h.creationRefs h.next 1
  next := h.next + 1

/-- The creator of an object calls `ReleaseRef`. -/
def releaseCreation (h : PtrHeap) (x : ℕ) : Except PtrFault PtrHeap :=
  releaseRef (h.next + 1)
    { h with creationRefs := Function.update h.creationRefs x (h.creationRefs x - 1) } x

/-! ## Consistent heaps -/

/-- **The counts.** An object counts the pointers to it and its creation references. -/
def CountsExact (h : PtrHeap) : Prop :=
  ∀ x, h.live x = true → h.refCount x = refs h.slots h.ptr x + h.creationRefs x

/-- A heap between two operations. -/
structure Consistent (h : PtrHeap) : Prop where
  counted : h.CountsExact
  positive : ∀ x, h.live x = true → 0 < h.refCount x
  targets : ∀ p ∈ h.slots, ∀ x, h.ptr p = some x → h.live x = true
  owners : ∀ o i, .member o i ∈ h.slots ↔ h.live o = true ∧ i < h.members o
  bounded : ∀ x, h.live x = true → x < h.next

/-- The objects that are deleted when the pointers in `base` are released. -/
abbrev Doomed (h : PtrHeap) (base : Set PtrSlot) (x : ℕ) : Prop :=
  Collected h.slots h.ptr PtrSlot.owner (fun x => h.creationRefs x ≠ 0) base x

/-- A pointer that is a member of such an object. -/
def DoomedSlot (h : PtrHeap) (base : Set PtrSlot) (p : PtrSlot) : Prop :=
  ∃ o, p.owner = some o ∧ h.Doomed base o

/-- The number of objects whose destructor has not begun. -/
def liveCount (h : PtrHeap) : ℕ := ((Finset.range h.next).filter fun x => h.live x = true).card

end PtrHeap

end CowboyPoker.ServerCore
