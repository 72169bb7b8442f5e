import CowboyPoker.Found.Acyclic
import CowboyPoker.Found.DoubleIndex
import CowboyPoker.Found.Fallible
import Mathlib.Data.Finset.Card
import Mathlib.Data.Finset.Filter
import Mathlib.Data.Finset.Range
import Mathlib.Data.List.Sort
import Mathlib.Logic.Function.Basic

/-!
# `DeadLockProfiler`: the graph of nested locks

Every name that is pushed gets an id; `_lockHistory` has an edge from an id to another once a thread
pushed the second while the first was on top of its stack. A new edge starts a depth-first search of the
whole graph for a cycle.

* `DeadLockProfiler`, `pushLock`, `popLock` — the profiler and its two operations. Names are compared as
  the source compares them, by the pointer.
* `Search`, `dfs`, `checkCycle`, `printCycle` — the search. The `-1` of `_parent` is `none`, and every
  access of a vector is checked. The recursion and the walk along the parents have fuel.
* `checkCycle_spec` — the search ends without running out of fuel or of a vector, and finds a cycle just
  when there is one.
-/

namespace CowboyPoker.ServerCore

open CowboyPoker.Found Relation

/-- How a call of the profiler stops the program. -/
inductive ProfilerStop (ν : Type)
  /-- The fuel ran out: the code would not terminate. -/
  | outOfFuel
  /-- A vector is accessed out of its range. -/
  | outOfRange
  /-- `DEADLOCK_DETECTED`, after the lines that were printed. -/
  | deadlockDetected (printed : List (Option ν × Option ν))
  /-- `MULTIPLE_UNLOCK`. -/
  | multipleUnlock
  /-- `INVALID_UNLOCK`. -/
  | invalidUnlock
  deriving DecidableEq

/-- The ids are numbered from 0 on, one for each name; up to 2^31 names an `int32` is this number.
Source: `ServerCore/DeadLockProfiler.h`, `DeadLockProfiler` -/
structure DeadLockProfiler (ν : Type) where
  /-- `_nameToId`. -/
  nameToId : KeyMap ν ℕ := ∅
  /-- `_idToName`. -/
  idToName : KeyMap ℕ ν := ∅
  /-- `_lockHistory`; a set lists its elements in ascending order. -/
  lockHistory : KeyMap ℕ (List ℕ) := ∅

/-- The vectors of a search and `_discoveredCount`.
Source: `ServerCore/DeadLockProfiler.h`, `DeadLockProfiler` -/
structure Search where
  discoveredOrder : ℕ → ℤ := fun _ => -1
  discoveredCount : ℕ := 0
  finished : ℕ → Bool := fun _ => false
  parent : ℕ → Option ℕ := fun _ => none

/-- The state after `_discoveredOrder[here] = _discoveredCount++`. -/
def Search.discover (s : Search) (here : ℕ) : Search := { s with
  discoveredOrder := Function.update s.discoveredOrder here s.discoveredCount
  discoveredCount := s.discoveredCount + 1 }

/-- The state after `_finished[here] = true`. -/
def Search.finish (s : Search) (here : ℕ) : Search :=
  { s with finished := Function.update s.finished here true }

namespace DeadLockProfiler

variable {ν : Type} (d : DeadLockProfiler ν)

/-- The number of names, `_nameToId.size()`. -/
def lockCount [DecidableEq ν] : ℕ := d.nameToId.entries.length

/-- An edge of the graph. -/
def Edge (a b : ℕ) : Prop := ∃ history, d.lockHistory.lookup a = some history ∧ b ∈ history

variable [DecidableEq ν]

/-- An access of a vector of length `lockCount` at `i`. -/
def checkIndex (i : ℕ) : Except (ProfilerStop ν) Unit :=
  if i < d.lockCount then .ok () else .error .outOfRange

/-- The walk along the parents that prints a cycle.
Source: `ServerCore/DeadLockProfiler.cpp`, `DeadLockProfiler::Dfs` -/
def printCycle (s : Search) (there : ℕ) :
    ℕ → ℕ → Except (ProfilerStop ν) (List (Option ν × Option ν))
  | 0, _ => .error .outOfFuel
  | fuel + 1, now => do
      d.checkIndex now
      match s.parent now with
      | none => .error .outOfRange
      | some parent =>
          let line := (d.idToName.lookup parent, d.idToName.lookup now)
          if parent = there then return [line]
          else return line :: (← printCycle s there fuel parent)

/-- Source: `ServerCore/DeadLockProfiler.cpp`, `DeadLockProfiler::Dfs` -/
def dfs : ℕ → ℕ → Search → Except (ProfilerStop ν) Search
  | 0, _, _ => .error .outOfFuel
  | fuel + 1, here, s => do
      d.checkIndex here
      if s.discoveredOrder here ≠ -1 then return s
      let s := s.discover here
      match d.lockHistory.lookup here with
      | none => return s.finish here
      | some nextSet =>
          let s ← nextSet.foldlM (fun s there => do
            d.checkIndex there
            if s.discoveredOrder there = -1 then
              dfs fuel there { s with parent := Function.update s.parent there (some here) }
            else if s.discoveredOrder here < s.discoveredOrder there then
              return s
            else if s.finished there = false then
              let printed ← d.printCycle s there (d.lockCount + 1) here
              .error (.deadlockDetected ((d.idToName.lookup here, d.idToName.lookup there) :: printed))
            else
              return s) s
          return s.finish here

/-- Source: `ServerCore/DeadLockProfiler.cpp`, `DeadLockProfiler::CheckCycle` -/
def checkCycle : Except (ProfilerStop ν) Unit := do
  let _ ← (List.range d.lockCount).foldlM (fun s lockId => d.dfs (d.lockCount + 1) lockId s) {}
  return ()

/-- The id of a name, and the profiler that has it.
Source: `ServerCore/DeadLockProfiler.cpp`, `DeadLockProfiler::PushLock` -/
def findOrIssue (name : ν) : ℕ × DeadLockProfiler ν :=
  match d.nameToId.lookup name with
  | none =>
      let lockId := d.lockCount
      (lockId, { d with
        nameToId := d.nameToId.insert name lockId
        idToName := d.idToName.insert lockId name })
  | some lockId => (lockId, d)

/-- `_lockHistory[lockId]`. -/
def history (lockId : ℕ) : List ℕ := (d.lockHistory.lookup lockId).getD []

/-- `_lockHistory[prevId].insert(lockId)`. -/
def insertHistory (prevId lockId : ℕ) : DeadLockProfiler ν := { d with
  lockHistory :=
    d.lockHistory.insert prevId ((d.history prevId).orderedInsert (· ≤ ·) lockId) }

/-- `lLockStack` is the stack of the calling thread, top first.
Source: `ServerCore/DeadLockProfiler.cpp`, `DeadLockProfiler::PushLock` -/
def pushLock (lLockStack : List ℕ) (name : ν) :
    Except (ProfilerStop ν) (DeadLockProfiler ν × List ℕ) := do
  let (lockId, d) := d.findOrIssue name
  match lLockStack with
  | [] => return (d, [lockId])
  | prevId :: _ =>
      if lockId ≠ prevId ∧ lockId ∉ d.history prevId then
        let d := d.insertHistory prevId lockId
        d.checkCycle
        return (d, lockId :: lLockStack)
      else return (d, lockId :: lLockStack)

/-- Source: `ServerCore/DeadLockProfiler.cpp`, `DeadLockProfiler::PopLock` -/
def popLock (lLockStack : List ℕ) (name : ν) :
    Except (ProfilerStop ν) (DeadLockProfiler ν × List ℕ) :=
  match lLockStack with
  | [] => .error .multipleUnlock
  | top :: rest =>
      -- `operator[]` gives an unknown name the id 0
      let (lockId, d) := match d.nameToId.lookup name with
        | none => (0, { d with nameToId := d.nameToId.insert name 0 })
        | some lockId => (lockId, d)
      if top ≠ lockId then .error .invalidUnlock else .ok (d, rest)

/-! ## The search -/

/-- The edges join different ids that were issued. -/
structure WellNumbered : Prop where
  source : ∀ a b, d.Edge a b → a < d.lockCount
  target : ∀ a b, d.Edge a b → b < d.lockCount
  irrefl : ∀ a b, d.Edge a b → a ≠ b

/-- How a search may stop: with a cycle. -/
def Cyclic (stop : ProfilerStop ν) : Prop :=
  (∃ printed, stop = .deadlockDetected printed) ∧ ¬ Acyclic d.Edge

/-- The number of ids that a search has not discovered. -/
def undiscovered (s : Search) : ℕ :=
  ((Finset.range d.lockCount).filter fun v => s.discoveredOrder v = -1).card

/-- The state of a search between two accesses: `path` are the ids whose call of `Dfs` has not
returned, innermost first. -/
structure OnPath (path : List ℕ) (s : Search) : Prop where
  range : ∀ v, s.discoveredOrder v ≠ -1 → v < d.lockCount
  count : ∀ v, s.discoveredOrder v < s.discoveredCount
  grey : ∀ v, v ∈ path ↔ s.discoveredOrder v ≠ -1 ∧ s.finished v = false
  discovered : ∀ v, s.finished v = true → s.discoveredOrder v ≠ -1
  order : path.Pairwise fun upper lower => s.discoveredOrder lower < s.discoveredOrder upper
  chain : path.IsChain fun upper lower => d.Edge lower upper ∧ s.parent upper = some lower
  explored : Explored d.Edge {v | s.finished v = true}

/-- What a search never changes again. -/
structure Extends (s s' : Search) : Prop where
  discoveredOrder : ∀ v, s.discoveredOrder v ≠ -1 → s'.discoveredOrder v = s.discoveredOrder v
  finished : ∀ v, s.finished v = true → s'.finished v = true
  parent : ∀ v, s.discoveredOrder v ≠ -1 → s'.parent v = s.parent v

variable {d} {s s' s'' : Search} {path : List ℕ} {here there : ℕ}

/-- A search extends itself. -/
theorem Extends.refl (s : Search) : Extends s s := ⟨fun _ _ => rfl, fun _ => id, fun _ _ => rfl⟩

/-- A search that goes on from an extension is an extension. -/
theorem Extends.trans (h : Extends s s') (h' : Extends s' s'') : Extends s s'' := by
  have hdisc : ∀ v, s.discoveredOrder v ≠ -1 → s'.discoveredOrder v ≠ -1 := fun v hv => by
    rwa [h.discoveredOrder v hv]
  refine ⟨fun v hv => ?_, fun v hv => h'.finished v (h.finished v hv), fun v hv => ?_⟩
  · rw [h'.discoveredOrder v (hdisc v hv), h.discoveredOrder v hv]
  · rw [h'.parent v (hdisc v hv), h.parent v hv]

/-- As the search goes on, less is left to discover. -/
theorem Extends.undiscovered_le (h : Extends s s') : d.undiscovered s' ≤ d.undiscovered s := by
  refine Finset.card_le_card fun v hv => ?_
  obtain ⟨hrange, hv⟩ := Finset.mem_filter.mp hv
  refine Finset.mem_filter.mpr ⟨hrange, ?_⟩
  by_contra hne
  exact hne ((h.discoveredOrder v hne).symm.trans hv)

/-- The node that is entered is the new end of the path. -/
theorem OnPath.discover (h : d.OnPath path s) (hnew : s.discoveredOrder here = -1)
    (hrange : here < d.lockCount)
    (htop : ∀ top ∈ path.head?, d.Edge top here ∧ s.parent here = some top) :
    d.OnPath (here :: path) (s.discover here) := by
  have hself : (s.discover here).discoveredOrder here = s.discoveredCount :=
    Function.update_self ..
  have hother : ∀ v, v ≠ here → (s.discover here).discoveredOrder v = s.discoveredOrder v :=
    fun v hv => Function.update_of_ne hv ..
  have hpath : ∀ v ∈ path, v ≠ here := by
    rintro v hv rfl
    exact ((h.grey v).mp hv).1 hnew
  refine ⟨fun v hv => ?_, fun v => ?_, fun v => ?_, fun v hv => ?_, ?_, ?_, h.explored⟩
  · by_cases hvh : v = here
    · exact hvh ▸ hrange
    · exact h.range v (hother v hvh ▸ hv)
  · by_cases hvh : v = here
    · subst hvh
      rw [hself]
      exact Int.ofNat_lt.mpr (Nat.lt_succ_self _)
    · rw [hother v hvh]
      exact (h.count v).trans (Int.ofNat_lt.mpr (Nat.lt_succ_self _))
  · by_cases hvh : v = here
    · subst hvh
      refine iff_of_true List.mem_cons_self ⟨hself ▸ by omega, ?_⟩
      rw [← Bool.not_eq_true]
      exact fun hfin => h.discovered v hfin hnew
    · rw [hother v hvh, List.mem_cons, or_iff_right hvh]
      exact h.grey v
  · by_cases hvh : v = here
    · exact absurd hnew (h.discovered here (hvh ▸ hv))
    · rw [hother v hvh]
      exact h.discovered v hv
  · refine List.pairwise_cons.mpr ⟨fun v hv => ?_, h.order.imp_of_mem fun hu hv hlt => ?_⟩
    · rw [hself, hother v (hpath v hv)]
      exact h.count v
    · rwa [hother _ (hpath _ hu), hother _ (hpath _ hv)]
  · cases path with
    | nil => exact List.isChain_singleton _
    | cons top path => exact List.isChain_cons_cons.mpr ⟨htop top rfl, h.chain⟩

/-- The entry to a new node extends the search. -/
theorem Extends.discover (hnew : s.discoveredOrder here = -1) : Extends s (s.discover here) := by
  refine ⟨fun v hv => Function.update_of_ne ?_ .., fun _ => id, fun _ _ => rfl⟩
  rintro rfl
  exact hv hnew

/-- It leaves less to discover. -/
theorem undiscovered_discover (hnew : s.discoveredOrder here = -1) (hrange : here < d.lockCount) :
    d.undiscovered (s.discover here) < d.undiscovered s := by
  refine Finset.card_lt_card (Finset.ssubset_iff_of_subset ?_ |>.mpr ⟨here, ?_, ?_⟩)
  · intro v hv
    obtain ⟨hmem, hv⟩ := Finset.mem_filter.mp hv
    refine Finset.mem_filter.mpr ⟨hmem, ?_⟩
    by_contra hne
    exact hne (((Extends.discover hnew).discoveredOrder v hne).symm.trans hv)
  · exact Finset.mem_filter.mpr ⟨Finset.mem_range.mpr hrange, hnew⟩
  · intro hmem
    have hself : (s.discover here).discoveredOrder here = s.discoveredCount :=
      Function.update_self ..
    have hzero := (Finset.mem_filter.mp hmem).2
    omega

/-- `Dfs(here)` is done once the successors of `here` are finished. -/
theorem OnPath.finish (h : d.OnPath (here :: path) s)
    (hsucc : ∀ b, d.Edge here b → s.finished b = true) : d.OnPath path (s.finish here) := by
  have hself : (s.finish here).finished here = true := Function.update_self ..
  have hother : ∀ v, v ≠ here → (s.finish here).finished v = s.finished v :=
    fun v hv => Function.update_of_ne hv ..
  obtain ⟨hdisc, hgrey⟩ := (h.grey here).mp List.mem_cons_self
  obtain ⟨hbelow, horder⟩ := List.pairwise_cons.mp h.order
  refine ⟨h.range, h.count, fun v => ?_, fun v hv => ?_, horder, h.chain.tail, ?_⟩
  · by_cases hvh : v = here
    · subst hvh
      refine iff_of_false (fun hv => lt_irrefl _ (hbelow v hv)) fun hv => ?_
      rw [hself] at hv
      exact Bool.noConfusion hv.2
    · have hv := h.grey v
      rw [List.mem_cons, or_iff_right hvh] at hv
      rw [hother v hvh]
      exact hv
  · by_cases hvh : v = here
    · exact hvh ▸ hdisc
    · exact h.discovered v (hother v hvh ▸ hv)
  · have hset : {v | (s.finish here).finished v = true} =
        Insert.insert here {v | s.finished v = true} := by
      ext v
      by_cases hvh : v = here
      · subst hvh
        exact iff_of_true hself (Set.mem_insert _ _)
      · rw [Set.mem_insert_iff, or_iff_right hvh]
        show (s.finish here).finished v = true ↔ _
        rw [hother v hvh]
        rfl
    rw [hset]
    refine h.explored.insert (fun hfin => ?_) hsucc
    exact Bool.noConfusion (hgrey.symm.trans hfin)

/-- The end of a node extends the search. -/
theorem Extends.finish (s : Search) (here : ℕ) : Extends s (s.finish here) := by
  refine ⟨fun _ _ => rfl, fun v hv => ?_, fun _ _ => rfl⟩
  by_cases hvh : v = here
  · subst hvh
    exact Function.update_self ..
  · exact (Function.update_of_ne hvh ..).trans hv

/-- The walk along the parents from the innermost call gets to every id on the path. -/
theorem printCycle_spec {now fuel : ℕ}
    (hchain : (now :: path).IsChain fun upper lower => d.Edge lower upper ∧ s.parent upper = some lower)
    (hrange : ∀ v ∈ now :: path, v < d.lockCount) (hthere : there ∈ path)
    (hfuel : path.length < fuel) : ∃ printed, d.printCycle s there fuel now = .ok printed := by
  induction path generalizing now fuel with
  | nil => exact absurd hthere List.not_mem_nil
  | cons parent path ih =>
      obtain ⟨⟨-, hparent⟩, hrest⟩ := List.isChain_cons_cons.mp hchain
      obtain ⟨fuel, rfl⟩ : ∃ n, fuel = n + 1 := ⟨fuel - 1, by omega⟩
      have hindex : d.checkIndex now = .ok () := if_pos (hrange now List.mem_cons_self)
      simp only [printCycle, hindex, hparent]
      by_cases heq : parent = there
      · rw [if_pos heq]
        exact ⟨_, rfl⟩
      · rw [if_neg heq]
        obtain ⟨printed, hprinted⟩ := ih hrest (fun v hv => hrange v (List.mem_cons_of_mem _ hv))
          ((List.mem_cons.mp hthere).resolve_left (Ne.symm heq)) (Nat.lt_of_succ_lt_succ hfuel)
        rw [hprinted]
        exact ⟨_, rfl⟩

/-- What the call of `Dfs(here)` in the state `s` leads to: `here` is discovered, and if it was not
before, it is finished. -/
structure Done (d : DeadLockProfiler ν) (path : List ℕ) (here : ℕ) (s s' : Search) : Prop where
  onPath : d.OnPath path s'
  ext : Extends s s'
  discovered : s'.discoveredOrder here ≠ -1
  finished : s.discoveredOrder here = -1 → s'.finished here = true

/-- The path of a search is no longer than the vectors. -/
theorem OnPath.length_le (h : d.OnPath path s) : path.length ≤ d.lockCount := by
  have hnodup : path.Nodup := h.order.imp fun hlt heq => by
    rw [heq] at hlt
    exact lt_irrefl _ hlt
  rw [← List.toFinset_card_of_nodup hnodup, ← Finset.card_range d.lockCount]
  refine Finset.card_le_card fun v hv => ?_
  exact Finset.mem_range.mpr (h.range v ((h.grey v).mp (List.mem_toFinset.mp hv)).1)

/-- The parent of an id that is not discovered yet is free to be set. -/
theorem OnPath.setParent (h : d.OnPath path s) (hnew : s.discoveredOrder there = -1) :
    d.OnPath path { s with parent := Function.update s.parent there (some here) } := by
  refine ⟨h.range, h.count, h.grey, h.discovered, h.order, ?_, h.explored⟩
  refine h.chain.imp_of_mem_imp fun upper lower hupper _ hlink => ⟨hlink.1, ?_⟩
  have hne : upper ≠ there := by
    rintro rfl
    exact ((h.grey upper).mp hupper).1 hnew
  exact (Function.update_of_ne hne ..).trans hlink.2

/-- So does the parent of a node that is not discovered. -/
theorem Extends.setParent (hnew : s.discoveredOrder there = -1) :
    Extends s { s with parent := Function.update s.parent there (some here) } := by
  refine ⟨fun _ _ => rfl, fun _ => id, fun v hv => Function.update_of_ne ?_ ..⟩
  rintro rfl
  exact hv hnew

/-- One successor of `here`: it is finished then, or it closes a cycle. -/
theorem visit_spec (hd : d.WellNumbered) {fuel : ℕ}
    (ih : ∀ here s path, d.OnPath path s → here < d.lockCount → d.undiscovered s < fuel →
      (s.discoveredOrder here = -1 → ∀ top ∈ path.head?, d.Edge top here ∧ s.parent here = some top) →
      Ends (d.Done path here s) d.Cyclic (d.dfs fuel here s))
    (hpath : d.OnPath (here :: path) s) (hedge : d.Edge here there)
    (hfuel : d.undiscovered s < fuel) :
    Ends (fun s' => d.OnPath (here :: path) s' ∧ Extends s s' ∧ s'.finished there = true) d.Cyclic
      (do
        d.checkIndex there
        if s.discoveredOrder there = -1 then
          d.dfs fuel there { s with parent := Function.update s.parent there (some here) }
        else if s.discoveredOrder here < s.discoveredOrder there then
          return s
        else if s.finished there = false then
          let printed ← d.printCycle s there (d.lockCount + 1) here
          .error (.deadlockDetected ((d.idToName.lookup here, d.idToName.lookup there) :: printed))
        else
          return s) := by
  have hindex : d.checkIndex there = .ok () := if_pos (hd.target _ _ hedge)
  rw [hindex]
  show Ends _ _ (ite ..)
  by_cases hnew : s.discoveredOrder there = -1
  · -- a tree edge
    rw [if_pos hnew]
    refine (ih there _ _ (hpath.setParent hnew) (hd.target _ _ hedge) hfuel ?_).mono fun s' hdone =>
      ⟨hdone.onPath, (Extends.setParent hnew).trans hdone.ext, hdone.finished hnew⟩
    rintro _ top htop
    obtain rfl := Option.some.inj htop
    exact ⟨hedge, Function.update_self ..⟩
  rw [if_neg hnew]
  -- an id that is not finished is on the path, and not above `here`
  have hgrey : s.finished there = false → there ∈ path ∧
      s.discoveredOrder there < s.discoveredOrder here := by
    intro hfin
    have hmem := (List.mem_cons.mp ((hpath.grey there).mpr ⟨hnew, hfin⟩)).resolve_left
      (Ne.symm (hd.irrefl _ _ hedge))
    exact ⟨hmem, (List.pairwise_cons.mp hpath.order).1 there hmem⟩
  by_cases hlt : s.discoveredOrder here < s.discoveredOrder there
  · rw [if_pos hlt]
    refine ⟨hpath, Extends.refl s, ?_⟩
    by_contra hfin
    exact lt_asymm hlt (hgrey (Bool.not_eq_true _ ▸ hfin)).2
  rw [if_neg hlt]
  by_cases hfin : s.finished there = false
  · -- a back edge
    rw [if_pos hfin]
    have hmem := (hgrey hfin).1
    obtain ⟨printed, hprinted⟩ :
        ∃ printed, d.printCycle s there (d.lockCount + 1) here = .ok printed :=
      printCycle_spec hpath.chain (fun v hv => hpath.range v ((hpath.grey v).mp hv).1) hmem
        (Nat.lt_succ_of_le (Nat.le_of_succ_le hpath.length_le))
    rw [hprinted]
    refine ⟨⟨_, rfl⟩, fun hacyclic => ?_⟩
    have hreach : ReflTransGen d.Edge there here :=
      reach_of_isChain (hpath.chain.imp fun _ _ hlink => hlink.1) (List.mem_cons_of_mem _ hmem)
    exact hacyclic there (TransGen.tail' hreach hedge)
  · rw [if_neg hfin]
    exact ⟨hpath, Extends.refl s, Bool.not_eq_false _ ▸ hfin⟩

/-- **The specification of `Dfs`.** -/
theorem dfs_spec (hd : d.WellNumbered) (fuel here : ℕ) (s : Search) (path : List ℕ)
    (hpath : d.OnPath path s) (hrange : here < d.lockCount) (hfuel : d.undiscovered s < fuel)
    (htop : s.discoveredOrder here = -1 →
      ∀ top ∈ path.head?, d.Edge top here ∧ s.parent here = some top) :
    Ends (d.Done path here s) d.Cyclic (d.dfs fuel here s) := by
  induction fuel generalizing here s path with
  | zero => exact absurd hfuel (Nat.not_lt_zero _)
  | succ fuel ih =>
      have hindex : d.checkIndex here = .ok () := if_pos hrange
      simp only [dfs]
      rw [hindex]
      show Ends _ _ (ite ..)
      by_cases hnew : s.discoveredOrder here = -1
      swap
      · rw [if_pos hnew]
        exact ⟨hpath, Extends.refl s, hnew, fun h => absurd h hnew⟩
      rw [if_neg (not_not.mpr hnew)]
      have hpath' := hpath.discover hnew hrange (htop hnew)
      have hext := Extends.discover hnew
      have hfuel' : d.undiscovered (s.discover here) < fuel := by
        have hlt := undiscovered_discover hnew hrange
        omega
      -- at the end of `Dfs(here)`
      have hfinish : ∀ s', d.OnPath (here :: path) s' → Extends (s.discover here) s' →
          (∀ b, d.Edge here b → s'.finished b = true) → d.Done path here s (s'.finish here) := by
        intro s' hs' hext' hsucc
        refine ⟨hs'.finish hsucc, (hext.trans hext').trans (Extends.finish s' here),
          ((hs'.grey here).mp List.mem_cons_self).1, fun _ => Function.update_self ..⟩
      cases hnext : d.lockHistory.lookup here with
      | none =>
          refine hfinish _ hpath' (Extends.refl _) fun b hb => ?_
          obtain ⟨history, hhistory, -⟩ := hb
          rw [hnext] at hhistory
          cases hhistory
      | some nextSet =>
          have hedge : ∀ b ∈ nextSet, d.Edge here b := fun b hb => ⟨nextSet, hnext, hb⟩
          -- the loop: what it has dealt with is finished
          refine (Ends.foldlM (I := fun done s' => d.OnPath (here :: path) s' ∧
            Extends (s.discover here) s' ∧ ∀ b ∈ done, s'.finished b = true) nextSet ?_
            ⟨hpath', Extends.refl _, fun _ hb => absurd hb List.not_mem_nil⟩).bind ?_
          · rintro done there s' hthere ⟨hs', hext', hdone⟩
            refine (visit_spec hd ih hs' (hedge there hthere)
              (hext'.undiscovered_le.trans_lt hfuel')).mono ?_
            rintro s'' ⟨hs'', hext'', hfin⟩
            refine ⟨hs'', hext'.trans hext'', fun b hb => ?_⟩
            rcases List.mem_append.mp hb with hb | hb
            · exact hext''.finished b (hdone b hb)
            · exact List.mem_singleton.mp hb ▸ hfin
          · rintro s' ⟨hs', hext', hdone⟩
            refine hfinish s' hs' hext' fun b hb => ?_
            obtain ⟨history, hhistory, hmem⟩ := hb
            obtain rfl := Option.some.inj (hnext.symm.trans hhistory)
            exact hdone b hmem

/-- **The specification of `CheckCycle`.** It ends without running out of fuel or of a vector: with a
cycle if there is one, and without an error if there is none. -/
theorem checkCycle_spec (hd : d.WellNumbered) :
    Ends (fun _ => Acyclic d.Edge) d.Cyclic d.checkCycle := by
  have hinit : d.OnPath [] {} := by
    refine ⟨fun _ hv => absurd rfl hv, fun _ => ?_, fun v => ?_, nofun, .nil, .nil, ?_⟩
    · show (-1 : ℤ) < 0
      omega
    · exact iff_of_false List.not_mem_nil fun hv => hv.1 rfl
    · have hempty : {v | ({} : Search).finished v = true} = ∅ := by
        ext v
        exact iff_of_false Bool.noConfusion id
      rw [hempty]
      exact .empty
  have hfuel : ∀ s : Search, d.undiscovered s < d.lockCount + 1 := fun s =>
    Nat.lt_succ_of_le ((Finset.card_filter_le _ _).trans_eq (Finset.card_range _))
  refine (Ends.foldlM (I := fun done s => d.OnPath [] s ∧ ∀ v ∈ done, s.discoveredOrder v ≠ -1)
    (List.range d.lockCount) ?_ ⟨hinit, fun _ hv => absurd hv List.not_mem_nil⟩).bind ?_
  · rintro done lockId s hmem ⟨hs, hdone⟩
    refine (dfs_spec hd _ lockId s [] hs (List.mem_range.mp hmem) (hfuel s) nofun).mono ?_
    intro s' hs'
    refine ⟨hs'.onPath, fun v hv => ?_⟩
    rcases List.mem_append.mp hv with hv | hv
    · rw [hs'.ext.discoveredOrder v (hdone v hv)]
      exact hdone v hv
    · exact List.mem_singleton.mp hv ▸ hs'.discovered
  · rintro s ⟨hs, hdone⟩
    refine hs.explored.acyclic_of_forall fun a b hab => ?_
    -- nothing is left on the path, so what is discovered is finished
    have hdisc := hdone a (List.mem_range.mpr (hd.source a b hab))
    by_contra hfin
    exact absurd ((hs.grey a).mpr ⟨hdisc, Bool.not_eq_true _ ▸ hfin⟩) List.not_mem_nil

end DeadLockProfiler

end CowboyPoker.ServerCore
