import CowboyPoker.Found.Simulation
import CowboyPoker.ServerCore.LockExclusion
import CowboyPoker.ServerCore.Registry
import CowboyPoker.ServerCore.RegistryCalls

/-!
# The registry is an atomic object

Any number of threads call the methods of `UdpService` at any time, and write to the contexts that they
got from it without a lock. Every access to the lock, to a map, to the counter and to a context is a step
of its own. `Tick` is left out: it reads `lastAliveMs` under the read lock while others write it without
one, so what it collects need not be what was silent at one moment. Its removals are calls of
`RemoveClient`.

* `UdpShared`, `RegistryThread`, `udpAct` — what the threads share, where a thread is, what it
  does. `udpThreads` — the interleaving of all threads.
* `atomicThreads` — the same calls on a registry in which a call takes one step.
* `RegistryCase` — what a step can do. `Linearizes` — how the two machines correspond.
* `registry_linearizable` — every run with the lock shows what a run without interruptions shows.
-/

namespace CowboyPoker.ServerCore

open CowboyPoker.Found
open UdpService

variable {τ β : Type}

/-! ## The machine -/

/-- What the threads share. -/
structure UdpShared where
  /-- `_locks[0]`. -/
  lock : LockProcess := {}
  /-- The maps, the counter and the contexts. -/
  service : UdpService := UdpService.init

/-- Where a thread is. -/
inductive CallPc (β : Type)
  /-- Outside all methods. -/
  | idle
  /-- In the constructor of the guard. -/
  | entering (c : RegistryCall β) (q : LockPc)
  /-- Behind the constructor of the guard. -/
  | inside (c : RegistryCall β) (p : RegistryPos β)
  /-- In the destructor of the guard, with the result. -/
  | leaving (c : RegistryCall β) (r : RegistryResult β) (q : LockPc)

/-- A thread, with the contexts that it got from the registry. -/
structure RegistryThread (β : Type) where
  known : List UdpClientContextRef := []
  pc : CallPc β := .idle

/-- What the scheduler picks. -/
inductive RegistryChoice (β : Type)
  /-- A thread outside calls a method. -/
  | call (c : RegistryCall β)
  /-- A thread in a method takes its next step; the clock shows `now`. -/
  | next (now : UInt64)
  /-- A thread outside writes to a context that it knows. -/
  | touch (r : UdpClientContextRef) (w : ContextWrite)

/-- What a step of a thread shows. -/
inductive RegistryShown (β : Type)
  /-- A call. -/
  | called (c : RegistryCall β)
  /-- The return from a call, with its result. -/
  | returned (c : RegistryCall β) (r : RegistryResult β)
  /-- A write without a lock. -/
  | touched (r : UdpClientContextRef) (w : ContextWrite)

/-- What a thread does. Nothing moves after a crash.
Source: `ServerCore/UdpService.cpp`, `GameServer/UdpGameSession.cpp` -/
def udpAct (ids : LThreadIds τ) :
    Program τ UdpShared (RegistryThread β) (RegistryChoice β) (Option (RegistryShown β)) :=
  fun t s p k =>
    if s.lock.crash ≠ none then none
    else
      match p.pc, k with
      | .idle, .call c => some (s, { p with pc := .entering c c.mode.lock }, some (.called c))
      | .idle, .touch r w =>
          if r ∈ p.known then
            some ({ s with service := w.perform r s.service }, p, some (.touched r w))
          else none
      | .entering c q, .next now =>
          let next := q.resume s.lock [] (s.lock.lock.step (ids.id t) now q)
          some ({ s with lock := next.1 },
            { p with pc := next.2.pc.elim (.inside c c.start) (.entering c) }, none)
      | .inside c b, .next now =>
          let next := c.step s.service now.toNat b
          some ({ s with service := next.1 },
            { p with pc := next.2.elim (.inside c) fun r => .leaving c r c.mode.unlock }, none)
      | .leaving c r q, .next now =>
          let next := q.resume s.lock [] (s.lock.lock.step (ids.id t) now q)
          match next.2.pc with
          | some q' => some ({ s with lock := next.1 }, { p with pc := .leaving c r q' }, none)
          | none =>
              some ({ s with lock := next.1 }, ⟨p.known ++ r.contexts, .idle⟩, some (.returned c r))
      | _, _ => none

/-- The threads, interleaved. -/
def udpThreads [DecidableEq τ] (ids : LThreadIds τ) (β : Type) :
    Transducer (Processes τ UdpShared (RegistryThread β)) (τ × RegistryChoice β)
      (Option (Option (RegistryShown β))) :=
  interleave (udpAct ids)

/-- An empty registry, and no thread in any method. -/
def udpInit (τ β : Type) : Processes τ UdpShared (RegistryThread β) where
  shared := {}
  pc _ := {}

/-! ## The atomic object -/

/-- Where a thread is. -/
inductive AtomicPc (β : Type)
  /-- Outside all methods. -/
  | idle
  /-- In a method, before its one step. -/
  | called (c : RegistryCall β)
  /-- In a method, behind its one step. -/
  | returning (c : RegistryCall β) (r : RegistryResult β)

/-- A thread, with the contexts that it got from the registry. -/
structure AtomicThread (β : Type) where
  known : List UdpClientContextRef := []
  pc : AtomicPc β := .idle

/-- What the scheduler picks. -/
inductive AtomicChoice (β : Type)
  /-- A thread outside calls a method. -/
  | call (c : RegistryCall β)
  /-- The call takes effect at the time `now`. -/
  | commit (now : ℤ)
  /-- The method returns. -/
  | return
  /-- A thread outside writes to a context that it knows. -/
  | touch (r : UdpClientContextRef) (w : ContextWrite)

/-- What a thread does. -/
def atomicAct :
    Program τ UdpService (AtomicThread β) (AtomicChoice β) (Option (RegistryShown β)) :=
  fun _ s p k =>
    match p.pc, k with
    | .idle, .call c => some (s, { p with pc := .called c }, some (.called c))
    | .idle, .touch r w =>
        if r ∈ p.known then some (w.perform r s, p, some (.touched r w)) else none
    | .called c, .commit now =>
        some ((c.perform s now).1, { p with pc := .returning c (c.perform s now).2 }, none)
    | .returning c r, .return => some (s, ⟨p.known ++ r.contexts, .idle⟩, some (.returned c r))
    | _, _ => none

/-- The threads of the atomic registry, interleaved. -/
def atomicThreads (τ β : Type) [DecidableEq τ] :
    Transducer (Processes τ UdpService (AtomicThread β)) (τ × AtomicChoice β)
      (Option (Option (RegistryShown β))) :=
  interleave atomicAct

/-- An empty registry, and no thread in any method. -/
def atomicInit (τ β : Type) : Processes τ UdpService (AtomicThread β) where
  shared := UdpService.init
  pc _ := {}

/-- Which thread shows what. -/
def shownBy {σ κ ο : Type} (e : Entry σ (τ × κ) (Option (Option ο))) : List (τ × ο) :=
  (e.output.join.map (Prod.mk e.input.1)).toList

/-! ## What a step can do -/

/-- The thread as a thread of the lock: behind the constructor of the guard it has the guard. -/
def CallPc.lockThread : CallPc β → LockThread
  | idle => {}
  | entering _ q => ⟨[], some q⟩
  | inside c _ => ⟨[c.mode], none⟩
  | leaving _ _ q => ⟨[], some q⟩

/-- The position in the section of the guard. -/
def CallPc.section : CallPc β → Option (RegistryCall β × RegistryPos β)
  | inside c b => some (c, b)
  | _ => none

/-- The position as the atomic object sees it. -/
def CallPc.atomic : CallPc β → AtomicPc β
  | idle => .idle
  | entering c _ => .called c
  | inside c _ => .called c
  | leaving c r _ => .returning c r

/-- What the function of the lock that a thread is in gives up. -/
def LockPc.releases : LockPc → Option LockMode
  | writeUnlock _ => some .write
  | readUnlock => some .read
  | _ => none

/-- Two positions in the same function of the lock. -/
inductive SameFunction : LockPc → LockPc → Prop
  | writeLock (p p' : WriteLockPc) : SameFunction (.writeLock p) (.writeLock p')
  | writeUnlock (p p' : WriteUnlockPc) : SameFunction (.writeUnlock p) (.writeUnlock p')
  | readLock (p p' : ReadLockPc) : SameFunction (.readLock p) (.readLock p')
  | readUnlock : SameFunction .readUnlock .readUnlock

/-- A position is in its own function. -/
theorem SameFunction.refl (q : LockPc) : SameFunction q q := by
  cases q with
  | writeLock p => exact .writeLock p p
  | writeUnlock p => exact .writeUnlock p p
  | readLock p => exact .readLock p p
  | readUnlock => exact .readUnlock

/-- A constructor is in the function of the lock that its call needs, a destructor in the one that gives
up what the constructor acquired. -/
def CallPc.Placed : CallPc β → Prop
  | entering c q => q.returned [] = [c.mode]
  | leaving c _ q => q.releases = some c.mode
  | _ => True

/-- A step of the lock. -/
def LockMoves (ids : LThreadIds τ) (t : τ) (s : LockProcess) (p : LockThread) (s' : LockProcess)
    (p' : LockThread) : Prop :=
  ∃ k, lockAct ids t s p k = some (s', p', ())

/-- What a step of a thread can do, and what it shows. -/
inductive RegistryCase (ids : LThreadIds τ) (t : τ) (s : UdpShared) (p : RegistryThread β) :
    UdpShared → RegistryThread β → Option (RegistryShown β) → Prop
  /-- A method is called. -/
  | call (c : RegistryCall β) (hp : p.pc = .idle)
      (hlock : LockMoves ids t s.lock {} s.lock ⟨[], some c.mode.lock⟩) :
      RegistryCase ids t s p s { p with pc := .entering c c.mode.lock } (some (.called c))
  /-- A context is written to. -/
  | touch (r : UdpClientContextRef) (w : ContextWrite) (hp : p.pc = .idle) (hr : r ∈ p.known) :
      RegistryCase ids t s p { s with service := w.perform r s.service } p (some (.touched r w))
  /-- The constructor of the guard goes on. -/
  | acquire {c : RegistryCall β} {q q' : LockPc} {lock : LockProcess} (hp : p.pc = .entering c q)
      (hlock : LockMoves ids t s.lock ⟨[], some q⟩ lock ⟨[], some q'⟩)
      (hq : SameFunction q q') :
      RegistryCase ids t s p { s with lock } { p with pc := .entering c q' } none
  /-- The constructor of the guard returns. -/
  | enter {c : RegistryCall β} {q : LockPc} {lock : LockProcess} (hp : p.pc = .entering c q)
      (hlock : LockMoves ids t s.lock ⟨[], some q⟩ lock ⟨q.returned [], none⟩) :
      RegistryCase ids t s p { s with lock } { p with pc := .inside c c.start } none
  /-- The method goes on. -/
  | move {c : RegistryCall β} {b b' : RegistryPos β} {service : UdpService} (now : ℤ)
      (hp : p.pc = .inside c b) (hstep : c.step s.service now b = (service, .inl b')) :
      RegistryCase ids t s p { s with service } { p with pc := .inside c b' } none
  /-- The body of the method ends. -/
  | leave {c : RegistryCall β} {b : RegistryPos β} {r : RegistryResult β} {service : UdpService}
      (now : ℤ) (hp : p.pc = .inside c b) (hstep : c.step s.service now b = (service, .inr r))
      (hlock : LockMoves ids t s.lock ⟨[c.mode], none⟩ s.lock ⟨[], some c.mode.unlock⟩) :
      RegistryCase ids t s p { s with service } { p with pc := .leaving c r c.mode.unlock } none
  /-- The destructor of the guard goes on. -/
  | release {c : RegistryCall β} {r : RegistryResult β} {q q' : LockPc} {lock : LockProcess}
      (hp : p.pc = .leaving c r q)
      (hlock : LockMoves ids t s.lock ⟨[], some q⟩ lock ⟨[], some q'⟩)
      (hq : SameFunction q q') :
      RegistryCase ids t s p { s with lock } { p with pc := .leaving c r q' } none
  /-- The method returns. -/
  | return {c : RegistryCall β} {r : RegistryResult β} {q : LockPc} {lock : LockProcess}
      (hp : p.pc = .leaving c r q)
      (hlock : LockMoves ids t s.lock ⟨[], some q⟩ lock ⟨q.returned [], none⟩) :
      RegistryCase ids t s p { s with lock } ⟨p.known ++ r.contexts, .idle⟩ (some (.returned c r))

section step

variable {ids : LThreadIds τ} {t : τ} {s s' : UdpShared} {p p' : RegistryThread β}
  {k : RegistryChoice β} {o : Option (RegistryShown β)}

/-- The holds that a thread is left with depend on the function alone. -/
theorem SameFunction.returned {q q' : LockPc} (h : SameFunction q q') (held : List LockMode) :
    q'.returned held = q.returned held := by
  cases h <;> rfl

/-- What a thread releases depends on the function alone. -/
theorem SameFunction.releases {q q' : LockPc} (h : SameFunction q q') : q'.releases = q.releases := by
  cases h <;> rfl

/-- A thread does not get from one function of the lock to another. -/
theorem Lock.sameFunction_of_goto {lThreadId : UInt32} {now : UInt64} {l l' : Lock} {q q' : LockPc}
    (h : l.step lThreadId now q = (l', .goto q')) : SameFunction q q' := by
  have hgoto : (l.step lThreadId now q).2 = .goto q' := by rw [h]
  cases q with
  | writeLock p =>
      cases p with
      | load => cases hgoto; exact .writeLock _ _
      | recurse => cases hgoto
      | tick => cases hgoto; exact .writeLock _ _
      | exchange beingTick spinCount =>
          simp only [Lock.step, Lock.writeLockStep] at hgoto
          split at hgoto <;> cases hgoto <;> exact .writeLock _ _
      | count => cases hgoto
      | timeout beingTick =>
          simp only [Lock.step, Lock.writeLockStep] at hgoto
          split at hgoto <;> cases hgoto
          exact .writeLock _ _
  | writeUnlock p =>
      cases p with
      | load =>
          simp only [Lock.step, Lock.writeUnlockStep] at hgoto
          split at hgoto <;> cases hgoto
          exact .writeUnlock _ _
      | count =>
          simp only [Lock.step, Lock.writeUnlockStep] at hgoto
          split at hgoto <;> cases hgoto
          exact .writeUnlock _ _
      | store => cases hgoto
  | readLock p =>
      cases p with
      | load => cases hgoto; exact .readLock _ _
      | add => cases hgoto
      | tick => cases hgoto; exact .readLock _ _
      | loadCount beingTick spinCount => cases hgoto; exact .readLock _ _
      | exchange beingTick spinCount expected =>
          simp only [Lock.step, Lock.readLockStep] at hgoto
          split at hgoto <;> cases hgoto
          exact .readLock _ _
      | timeout beingTick =>
          simp only [Lock.step, Lock.readLockStep] at hgoto
          split at hgoto <;> cases hgoto
          exact .readLock _ _
  | readUnlock =>
      simp only [Lock.step, Lock.readUnlockStep] at hgoto
      split at hgoto <;> cases hgoto

/-- A thread in a function of the lock goes on in it, or returns. -/
theorem resume_cases (ids : LThreadIds τ) (t : τ) (s : LockProcess) (q : LockPc) (now : UInt64) :
    (∃ q', (q.resume s [] (s.lock.step (ids.id t) now q)).2 = ⟨[], some q'⟩ ∧
        SameFunction q q') ∨
      (q.resume s [] (s.lock.step (ids.id t) now q)).2 = ⟨q.returned [], none⟩ := by
  rcases hstep : s.lock.step (ids.id t) now q with ⟨lock, q' | _ | cause⟩
  · exact .inl ⟨q', rfl, Lock.sameFunction_of_goto hstep⟩
  · exact .inr rfl
  · exact .inl ⟨q, rfl, .refl q⟩

variable (ids t) in
/-- A step in a function of the lock. -/
theorem lockMoves_next {s : LockProcess} (hcrash : s.crash = none) (q : LockPc) (now : UInt64) :
    LockMoves ids t s ⟨[], some q⟩ (q.resume s [] (s.lock.step (ids.id t) now q)).1
      (q.resume s [] (s.lock.step (ids.id t) now q)).2 := by
  refine ⟨.next now, ?_⟩
  unfold lockAct
  rw [if_neg (not_not.mpr hcrash)]

/-- A guard is constructed. -/
theorem lockMoves_lock {s : LockProcess} (hcrash : s.crash = none) (mode : LockMode) :
    LockMoves ids t s {} s ⟨[], some mode.lock⟩ := by
  refine ⟨.lock mode, ?_⟩
  have hread : ¬ (mode = .write ∧ LockMode.read ∈ ([] : List LockMode)) :=
    fun h => List.not_mem_nil h.2
  unfold lockAct
  rw [if_neg (not_not.mpr hcrash)]
  exact if_neg hread

/-- A guard is destroyed. -/
theorem lockMoves_unlock {s : LockProcess} (hcrash : s.crash = none) (mode : LockMode) :
    LockMoves ids t s ⟨[mode], none⟩ s ⟨[], some mode.unlock⟩ := by
  refine ⟨.unlock, ?_⟩
  unfold lockAct
  rw [if_neg (not_not.mpr hcrash)]

/-- **The inversion lemma.** -/
theorem registryCase (h : udpAct ids t s p k = some (s', p', o)) :
    RegistryCase ids t s p s' p' o := by
  unfold udpAct at h
  by_cases hcrash : s.lock.crash ≠ none
  · rw [if_pos hcrash] at h
    cases h
  rw [if_neg hcrash] at h
  have hnone := not_not.mp hcrash
  split at h
  · rename_i hp
    cases h
    exact .call _ hp (lockMoves_lock hnone _)
  · rename_i hp
    obtain ⟨hr, h⟩ := Option.ite_none_right_eq_some.mp h
    cases h
    exact .touch _ _ hp hr
  · rename_i c q now hp
    cases h
    have hlock := lockMoves_next ids t hnone q now
    rcases resume_cases ids t s.lock q now with ⟨q', hnext, hq⟩ | hnext
    · rw [hnext] at hlock ⊢
      exact .acquire hp hlock hq
    · rw [hnext] at hlock ⊢
      exact .enter hp hlock
  · rename_i c b now hp
    cases h
    rcases hstep : c.step s.service now.toNat b with ⟨service, b' | r⟩
    · exact .move _ hp hstep
    · exact .leave _ hp hstep (lockMoves_unlock hnone _)
  · rename_i c r q now hp
    dsimp only at h
    have hlock := lockMoves_next ids t hnone q now
    rcases resume_cases ids t s.lock q now with ⟨q', hnext, hq⟩ | hnext
    · rw [hnext] at h hlock
      cases h
      exact .release hp hlock hq
    · rw [hnext] at h hlock
      cases h
      exact .return hp hlock
  · cases h

/-- An acquisition returns with one hold, of its mode. -/
theorem LockMode.returned_lock (mode : LockMode) : mode.lock.returned [] = [mode] := by
  cases mode <;> rfl

/-- The release of a mode releases that mode. -/
theorem LockMode.releases_unlock (mode : LockMode) : mode.unlock.releases = some mode := by
  cases mode <;> rfl

/-- The release of the only hold returns with none. -/
theorem LockPc.returned_of_releases {q : LockPc} {mode : LockMode} (h : q.releases = some mode) :
    q.returned [] = [] := by
  cases q with
  | writeLock p => cases h
  | readLock p => cases h
  | _ => rfl

/-- The threads stay where they can be. -/
theorem RegistryCase.placed (h : RegistryCase ids t s p s' p' o) (hp : p.pc.Placed) :
    p'.pc.Placed := by
  cases h with
  | call c hidle hlock => exact c.mode.returned_lock
  | touch r w hidle hr => exact hp
  | acquire hpc hlock hq =>
      rw [hpc] at hp
      exact (hq.returned []).trans hp
  | enter hpc hlock => trivial
  | move now hpc hstep => trivial
  | leave now hpc hstep hlock => exact LockMode.releases_unlock _
  | release hpc hlock hq =>
      rw [hpc] at hp
      exact hq.releases.trans hp
  | «return» hpc hlock => trivial

/-- To the lock, a step is one of its own or none at all. -/
theorem RegistryCase.lockMoves (h : RegistryCase ids t s p s' p' o) (hp : p.pc.Placed) :
    (s'.lock = s.lock ∧ p'.pc.lockThread = p.pc.lockThread) ∨
      LockMoves ids t s.lock p.pc.lockThread s'.lock p'.pc.lockThread := by
  cases h with
  | call c hpc hlock =>
      rw [hpc]
      exact .inr hlock
  | touch r w hpc hr => exact .inl ⟨rfl, rfl⟩
  | acquire hpc hlock hq =>
      rw [hpc]
      exact .inr hlock
  | @enter c q lock hpc hlock =>
      rw [hpc] at hp ⊢
      rw [show q.returned [] = _ from hp] at hlock
      exact .inr hlock
  | move now hpc hstep =>
      rw [hpc]
      exact .inl ⟨rfl, rfl⟩
  | leave now hpc hstep hlock =>
      rw [hpc]
      exact .inr hlock
  | release hpc hlock hq =>
      rw [hpc]
      exact .inr hlock
  | @«return» c r q lock hpc hlock =>
      rw [hpc] at hp ⊢
      rw [LockPc.returned_of_releases hp] at hlock
      exact .inr hlock

end step

/-! ## Exclusion -/

/-- The threads as the lock sees them. -/
def lockView (s : Processes τ UdpShared (RegistryThread β)) : Processes τ LockProcess LockThread where
  shared := s.shared.lock
  pc t := (s.pc t).pc.lockThread

/-- The threads in their sections. -/
def sections (pc : τ → RegistryThread β) (t : τ) : Option (RegistryCall β × RegistryPos β) :=
  (pc t).pc.section

/-- A call holds the lock for reading at most once. -/
theorem readHolds_lockThread (pc : CallPc β) : readHolds pc.lockThread ≤ 1 := by
  have hpending : ∀ q : LockPc, pendingReads (some q) ≤ 1 := by
    intro q
    unfold pendingReads
    split <;> omega
  cases pc with
  | idle => exact Nat.zero_le 1
  | entering c q => exact (Nat.zero_add _).trans_le (hpending q)
  | inside c b => exact (List.count_le_length (l := [c.mode]))
  | leaving c r q => exact (Nat.zero_add _).trans_le (hpending q)

/-- A call holds the lock for writing at most once. -/
theorem writeDepth_lockThread (pc : CallPc β) : writeDepth pc.lockThread ≤ 1 := by
  cases pc with
  | inside c b => exact (List.count_le_length (l := [c.mode]))
  | _ => exact Nat.zero_le 1

variable [Fintype τ] {ids : LThreadIds τ}

/-- The halves of the word have room for all threads. -/
theorem bounded_lockView (ids : LThreadIds τ) (s : Processes τ UdpShared (RegistryThread β)) :
    Bounded (lockView s) := by
  constructor
  · have hsum : ∑ u, readHolds ((lockView s).pc u) ≤ ∑ _u : τ, 1 :=
      Finset.sum_le_sum fun u _ => readHolds_lockThread _
    rw [← Finset.card_eq_sum_ones, Finset.card_univ] at hsum
    exact hsum.trans_lt ids.card_lt
  · exact fun t => (writeDepth_lockThread _).trans_lt (by omega)

/-- A method that writes holds the lock for writing in its section. -/
theorem holdsWrite_of_section {pc : CallPc β} {c : RegistryCall β} {b : RegistryPos β}
    (h : pc.section = some (c, b)) (hc : c.mode = .write) : HoldsWrite pc.lockThread := by
  cases pc with
  | inside c' b' =>
      cases h
      exact .inl (List.mem_singleton.mpr hc.symm)
  | _ => cases h

/-- **A method that writes is alone.** -/
theorem Owned.alone {s : Processes τ UdpShared (RegistryThread β)} {owner : Option τ}
    (h : Owned ids owner (lockView s)) : Alone (registrySection β) (sections s.pc) := by
  intro t u c b ht hc hut
  have howner := (h.holds t).mp (holdsWrite_of_section ht hc)
  have hreads := h.readers t u howner hut
  rcases hu : sections s.pc u with _ | ⟨c', b'⟩
  · rfl
  · rcases hmode : c'.mode with _ | _
    · -- a reader has a read hold
      exfalso
      have hpc : (s.pc u).pc = .inside c' b' := by
        unfold sections CallPc.section at hu
        split at hu
        · cases hu
          assumption
        · cases hu
      have hone : readHolds (s.pc u).pc.lockThread = 1 := by
        rw [hpc, CallPc.lockThread, hmode]
        rfl
      exact absurd (hone.symm.trans hreads) (by omega)
    · have hself := (h.holds u).mp (holdsWrite_of_section hu hmode)
      exact absurd (Option.some.inj (hself.symm.trans howner)) hut

/-- The call whose guard a thread has, until the destructor of the guard returns. -/
def CallPc.guarded : CallPc β → Option (RegistryCall β)
  | inside c _ => some c
  | leaving c _ _ => some c
  | _ => none

/-- The word of the lock says what the threads hold, and a thread holds what its guard has acquired until
it has given it up. -/
structure Guarded (ids : LThreadIds τ) (s : Processes τ UdpShared (RegistryThread β)) : Prop where
  /-- The upper half of the word names the thread that writes. -/
  writer : ∀ t, HoldsWrite (s.pc t).pc.lockThread →
    s.shared.lock.lock.lockFlag.toNat / 65536 = (ids.id t).toNat
  /-- The lower half counts the threads that read. -/
  readers : s.shared.lock.lock.lockFlag.toNat % 65536 = ∑ t, readHolds (s.pc t).pc.lockThread
  /-- Who releases holds, in the mode of the call. -/
  holds : ∀ t c, (s.pc t).pc.guarded = some c →
    (c.mode = .write → HoldsWrite (s.pc t).pc.lockThread) ∧
      (c.mode = .read → readHolds (s.pc t).pc.lockThread = 1)

/-- A thread with a guard holds the lock. -/
theorem CallPc.Placed.holds {pc : CallPc β} (h : pc.Placed) {c : RegistryCall β}
    (hc : pc.guarded = some c) :
    (c.mode = .write → HoldsWrite pc.lockThread) ∧ (c.mode = .read → readHolds pc.lockThread = 1) := by
  cases pc with
  | idle => cases hc
  | entering c' q => cases hc
  | inside c' b =>
      cases hc
      refine ⟨fun hmode => .inl ?_, fun hmode => ?_⟩
      · rw [CallPc.lockThread, hmode]
        exact List.mem_singleton_self _
      · rw [CallPc.lockThread, hmode]
        rfl
  | leaving c' r q =>
      cases hc
      have hplaced : q.releases = some c.mode := h
      refine ⟨fun hmode => .inr ?_, fun hmode => ?_⟩
      · rw [hmode] at hplaced
        cases q with
        | writeUnlock p => trivial
        | _ => cases hplaced
      · rw [hmode] at hplaced
        cases q with
        | readUnlock => rfl
        | _ => cases hplaced

/-- The invariant of the lock says so. -/
theorem Owned.guarded {s : Processes τ UdpShared (RegistryThread β)} {owner : Option τ}
    (h : Owned ids owner (lockView s)) (hplaced : ∀ t, (s.pc t).pc.Placed) : Guarded ids s := by
  obtain ⟨hupper, hlower⟩ := h.halves (bounded_lockView ids s)
  refine ⟨fun t ht => ?_, hlower, fun t c hc => (hplaced t).holds hc⟩
  have howner : owner = some t := (h.holds t).mp ht
  rw [howner] at hupper
  exact hupper

section run

variable [DecidableEq τ] {s : Processes τ UdpShared (RegistryThread β)} {t : τ}
  {s' : UdpShared} {p' : RegistryThread β} {o : Option (RegistryShown β)}

omit [Fintype τ] in
/-- The view of the lock follows a step. -/
theorem lockView_update : lockView ⟨s', Function.update s.pc t p'⟩ =
    ⟨s'.lock, Function.update (lockView s).pc t p'.pc.lockThread⟩ := by
  unfold lockView
  congr 1
  funext u
  by_cases hu : u = t
  · subst hu
    simp only [Function.update_self]
  · simp only [Function.update_of_ne hu]

omit [Fintype τ] in
/-- The sections follow a step. -/
theorem sections_update : sections (Function.update s.pc t p') =
    Function.update (sections s.pc) t p'.pc.section := by
  funext u
  by_cases hu : u = t
  · subst hu
    simp only [sections, Function.update_self]
  · simp only [sections, Function.update_of_ne hu]

/-- The lock keeps its invariant. -/
theorem RegistryCase.owned (h : RegistryCase ids t s.shared (s.pc t) s' p' o)
    (hplaced : (s.pc t).pc.Placed) (howned : ∃ owner, Owned ids owner (lockView s)) :
    ∃ owner, Owned ids owner (lockView ⟨s', Function.update s.pc t p'⟩) := by
  obtain ⟨owner, howned⟩ := howned
  rcases h.lockMoves hplaced with ⟨hlock, hthread⟩ | ⟨k, hact⟩
  · refine ⟨owner, ?_⟩
    rw [lockView_update, hlock, hthread]
    have hself : Function.update (lockView s).pc t (s.pc t).pc.lockThread = (lockView s).pc :=
      Function.update_eq_self t _
    rw [hself]
    exact howned
  · have hbound := bounded_lockView ids ⟨s', Function.update s.pc t p'⟩
    rw [lockView_update] at hbound ⊢
    exact howned.step (bounded_lockView ids s) hact hbound

end run

/-! ## The simulation -/

/-- The contexts that a thread has a pointer to. -/
def RegistryThread.contexts (p : RegistryThread β) : List UdpClientContextRef :=
  match p.pc with
  | .leaving _ r _ => p.known ++ r.contexts
  | _ => p.known

/-- The thread as the atomic object sees it. -/
def RegistryThread.atomic (p : RegistryThread β) : AtomicThread β := ⟨p.known, p.pc.atomic⟩

/-- The contexts that a registry refers to have been created. -/
structure Created (a : UdpService) : Prop where
  allocated : Allocated a
  filed : Filed a

/-- The registry with the lock and the atomic one. -/
structure Linearizes (ids : LThreadIds τ) (s : Processes τ UdpShared (RegistryThread β))
    (a : Processes τ UdpService (AtomicThread β)) : Prop where
  owned : ∃ owner, Owned ids owner (lockView s)
  placed : ∀ t, (s.pc t).pc.Placed
  /-- The atomic registry is the committed one. -/
  committed : Committed (registrySection β) a.shared s.shared.service (sections s.pc)
  threads : a.pc = fun t => (s.pc t).atomic
  created : Created a.shared
  known : ∀ t, ∀ r ∈ (s.pc t).contexts, r < a.shared.next

/-- At the start nothing is filed. -/
theorem created_init : Created UdpService.init := ⟨allocated_init, filed_init⟩

section created

variable {a s : UdpService} (h : Created a)
include h

/-- An atomic call keeps the registry well formed, and returns a context that was created. -/
theorem Created.perform (c : RegistryCall β) (now : ℤ) :
    Created (c.perform a now).1 ∧ a.next ≤ (c.perform a now).1.next ∧
      ∀ r ∈ (c.perform a now).2.contexts, r < (c.perform a now).1.next := by
  cases c with
  | registerClient addr =>
      refine ⟨⟨h.allocated.registerClient addr now, h.filed.registerClient addr now⟩,
        next_le_registerClient a addr now, fun r hr => ?_⟩
      obtain rfl : r = (a.registerClient addr now).1 := List.mem_singleton.mp hr
      show (a.registerClient addr now).1 < (a.registerClient addr now).2.next
      rcases hlook : a.addrMap.lookup (sockAddrKey addr) with _ | r
      · rw [registerClient_of_none hlook]
        exact Nat.lt_succ_self _
      · rw [registerClient_of_some hlook]
        exact h.allocated _ r hlook
  | removeClient sessionId =>
      obtain ⟨-, hnext, -⟩ := removeClient_frame a sessionId
      refine ⟨⟨h.allocated.foldl_removeClient [sessionId], h.filed.removeClient sessionId⟩,
        hnext.ge, fun r hr => ?_⟩
      cases hr
  | findByAddr addr =>
      refine ⟨h, le_rfl, fun r hr => ?_⟩
      exact h.allocated _ r (findByAddr_eq_some_iff.mp (Option.mem_toList.mp hr)).1
  | findById sessionId =>
      refine ⟨h, le_rfl, fun r hr => ?_⟩
      exact (h.filed _ r (Option.mem_toList.mp hr)).1
  | broadcast buf => exact ⟨h, le_rfl, fun r hr => absurd hr List.not_mem_nil⟩
  | broadcastExcept excludeSessionId buf => exact ⟨h, le_rfl, fun r hr => absurd hr List.not_mem_nil⟩

/-- A write to a context files nothing. -/
theorem Created.touch (w : ContextWrite) (r : UdpClientContextRef) : Created (w.perform r a) where
  allocated := h.allocated
  filed := h.filed.modifyCtx (w.apply_sessionId _)

end created

omit [Fintype τ] in
/-- One input of the atomic registry. -/
theorem atomic_step [DecidableEq τ] {a : Processes τ UdpService (AtomicThread β)} {t : τ}
    {k : AtomicChoice β} {a' : UdpService} {q' : AtomicThread β} {o : Option (RegistryShown β)}
    (h : atomicAct t a.shared (a.pc t) k = some (a', q', o)) :
    (atomicThreads τ β).exec a [(t, k)] = ⟨a', Function.update a.pc t q'⟩ ∧
      ((atomicThreads τ β).trace a [(t, k)]).flatMap shownBy = (o.map (Prod.mk t)).toList := by
  have hstep : (atomicThreads τ β).step a (t, k) = (⟨a', Function.update a.pc t q'⟩, some o) :=
    interleave_step_of_some h
  constructor
  · rw [Transducer.exec_cons, hstep]
    rfl
  · rw [Transducer.trace_cons, Transducer.trace_nil, List.flatMap_singleton]
    unfold shownBy
    rw [Transducer.entry_output, hstep]
    rfl

section simulation

variable [DecidableEq τ] {s : Processes τ UdpShared (RegistryThread β)}
  {a : Processes τ UdpService (AtomicThread β)} {t : τ} {s' : UdpShared}
  {p' : RegistryThread β} {o : Option (RegistryShown β)}

omit [Fintype τ] in
/-- The calls in progress follow a step. -/
theorem atomic_update : (fun u => (Function.update s.pc t p' u).atomic) =
    Function.update (fun u => (s.pc u).atomic) t p'.atomic := by
  funext u
  by_cases hu : u = t
  · subst hu
    simp only [Function.update_self]
  · simp only [Function.update_of_ne hu]

/-- What is left to show of a step, when the lock and the positions are settled. -/
theorem Linearizes.update (h : Linearizes ids s a) (hcase : RegistryCase ids t s.shared (s.pc t) s' p' o)
    {a' : UdpService}
    (hcommitted : Alone (registrySection β) (Function.update (sections s.pc) t p'.pc.section) →
      Committed (registrySection β) a' s'.service (Function.update (sections s.pc) t p'.pc.section))
    (hcreated : Created a') (hnext : a.shared.next ≤ a'.next) (hknown : ∀ r ∈ p'.contexts, r < a'.next) :
    Linearizes ids ⟨s', Function.update s.pc t p'⟩ ⟨a', Function.update a.pc t p'.atomic⟩ := by
  have howned := hcase.owned (h.placed t) h.owned
  obtain ⟨owner, hlock⟩ := howned
  have halone := hlock.alone
  rw [sections_update] at halone
  refine ⟨⟨owner, hlock⟩, ?_, ?_, ?_, hcreated, ?_⟩
  · rw [Function.forall_update_iff s.pc fun _ p => p.pc.Placed]
    exact ⟨hcase.placed (h.placed t), fun u _ => h.placed u⟩
  · rw [sections_update]
    exact hcommitted halone
  · rw [atomic_update, h.threads]
  · rw [Function.forall_update_iff s.pc fun _ p => ∀ r ∈ p.contexts, r < a'.next]
    exact ⟨hknown, fun u _ r hr => (h.known u r hr).trans_le hnext⟩

/-- A step that the atomic registry does not see. -/
theorem Linearizes.silent (h : Linearizes ids s a)
    (hcase : RegistryCase ids t s.shared (s.pc t) s' p' none) (hatomic : p'.atomic = (s.pc t).atomic)
    (hcommitted : Alone (registrySection β) (Function.update (sections s.pc) t p'.pc.section) →
      Committed (registrySection β) a.shared s'.service
        (Function.update (sections s.pc) t p'.pc.section))
    (hcontexts : p'.contexts = (s.pc t).contexts) :
    Linearizes ids ⟨s', Function.update s.pc t p'⟩ a := by
  have hnext := h.update hcase hcommitted h.created le_rfl (by
    rw [hcontexts]
    exact h.known t)
  have hsame : Function.update a.pc t p'.atomic = a.pc := by
    rw [hatomic, h.threads]
    exact Function.update_eq_self t _
  rwa [hsame] at hnext

omit [DecidableEq τ] in
/-- The thread that moves, as the atomic registry sees it. -/
theorem Linearizes.pc_eq (h : Linearizes ids s a) {pc : CallPc β} (hpc : (s.pc t).pc = pc) :
    a.pc t = ⟨(s.pc t).known, pc.atomic⟩ := by
  rw [h.threads, ← hpc]
  rfl

omit [Fintype τ] [DecidableEq τ] in
/-- The section of a thread is that of its position. -/
theorem sections_eq {pc : CallPc β} (hpc : (s.pc t).pc = pc) : sections s.pc t = pc.section := by
  rw [sections, hpc]

/-- A thread that stays outside its section. -/
theorem Linearizes.outside (h : Linearizes ids s a) (hbefore : (s.pc t).pc.section = none)
    (hafter : p'.pc.section = none) :
    Committed (registrySection β) a.shared s.shared.service
      (Function.update (sections s.pc) t p'.pc.section) := by
  have hsame : Function.update (sections s.pc) t p'.pc.section = sections s.pc := by
    rw [hafter, ← hbefore]
    exact Function.update_eq_self t _
  rw [hsame]
  exact h.committed

omit [DecidableEq τ] in
/-- A write without a lock is one to the committed registry, too. -/
theorem Linearizes.committed_touch (h : Linearizes ids s a) {r : UdpClientContextRef}
    (hr : r < a.shared.next) (w : ContextWrite) :
    Committed (registrySection β) (w.perform r a.shared) (w.perform r s.shared.service)
      (sections s.pc) :=
  h.committed.update (fun u => r < u.next) hr
    (fun _ _ _ _ _ _ hstep hlt => hlt.trans_le (registryStep_write (w := w) hlt hstep).2)
    fun _ _ _ _ _ _ hstep hlt => (registryStep_write (w := w) hlt hstep).1

/-- **The step lemma.** What a step shows is what some inputs of the atomic registry show. -/
theorem Linearizes.step (h : Linearizes ids s a) (hcase : RegistryCase ids t s.shared (s.pc t) s' p' o) :
    ∃ fs, Linearizes ids ⟨s', Function.update s.pc t p'⟩ ((atomicThreads τ β).exec a fs) ∧
      ((atomicThreads τ β).trace a fs).flatMap shownBy = (o.map (Prod.mk t)).toList := by
  have hsimulates := hcase
  cases hcase with
  | call c hpc hlock =>
      have hact : atomicAct t a.shared (a.pc t) (.call c) =
          some (a.shared, ⟨(s.pc t).known, .called c⟩, some (.called c)) := by
        rw [h.pc_eq hpc]
        rfl
      obtain ⟨hexec, hshown⟩ := atomic_step hact
      refine ⟨[(t, .call c)], ?_, hshown⟩
      rw [hexec]
      refine h.update hsimulates (fun _ => h.outside (by rw [hpc]; rfl) rfl) h.created le_rfl ?_
      have hknown := h.known t
      rw [RegistryThread.contexts, hpc] at hknown
      exact hknown
  | touch r w hpc hr =>
      have hact : atomicAct t a.shared (a.pc t) (.touch r w) =
          some (w.perform r a.shared, a.pc t, some (.touched r w)) := by
        rw [h.pc_eq hpc]
        exact if_pos hr
      obtain ⟨hexec, hshown⟩ := atomic_step hact
      have hknown := h.known t
      rw [RegistryThread.contexts, hpc] at hknown
      refine ⟨[(t, .touch r w)], ?_, hshown⟩
      have hthread : a.pc t = (s.pc t).atomic := by rw [h.threads]
      rw [hexec, hthread]
      refine h.update hsimulates (fun _ => ?_) (h.created.touch w r) le_rfl (h.known t)
      have hsame : Function.update (sections s.pc) t (s.pc t).pc.section = sections s.pc :=
        Function.update_eq_self t _
      rw [hsame]
      exact h.committed_touch (hknown r hr) w
  | acquire hpc hlock hq =>
      refine ⟨[], h.silent hsimulates ?_ (fun _ => h.outside (by rw [hpc]; rfl) rfl) ?_, rfl⟩
      · rw [RegistryThread.atomic, RegistryThread.atomic, hpc]
        rfl
      · rw [RegistryThread.contexts, RegistryThread.contexts, hpc]
  | enter hpc hlock =>
      refine ⟨[], h.silent hsimulates ?_ (fun halone => ?_) ?_, rfl⟩
      · rw [RegistryThread.atomic, RegistryThread.atomic, hpc]
        rfl
      · exact h.committed.enter (sections_eq hpc) halone
      · rw [RegistryThread.contexts, RegistryThread.contexts, hpc]
  | move now hpc hstep =>
      refine ⟨[], h.silent hsimulates ?_ (fun _ => ?_) ?_, rfl⟩
      · rw [RegistryThread.atomic, RegistryThread.atomic, hpc]
        rfl
      · obtain ⟨owner, howned⟩ := h.owned
        exact h.committed.move howned.alone (sections_eq hpc) hstep
      · rw [RegistryThread.contexts, RegistryThread.contexts, hpc]
  | @leave c b r service now hpc hstep hlock =>
      -- the call takes effect
      obtain ⟨owner, howned⟩ := h.owned
      obtain ⟨hcomputes, hcommitted⟩ := h.committed.leave howned.alone (sections_eq hpc) hstep
      obtain ⟨time, hperform⟩ := registrySection_computes_iff.mp hcomputes
      have hact : atomicAct t a.shared (a.pc t) (.commit time) =
          some (service, ⟨(s.pc t).known, .returning c r⟩, none) := by
        rw [h.pc_eq hpc]
        show some ((c.perform a.shared time).1, _, _) = _
        rw [hperform]
      obtain ⟨hexec, hshown⟩ := atomic_step hact
      obtain ⟨hcreated, hnext, hcontexts⟩ := h.created.perform c time
      rw [hperform] at hcreated hnext hcontexts
      refine ⟨[(t, .commit time)], ?_, hshown⟩
      rw [hexec]
      refine h.update hsimulates (fun _ => hcommitted) hcreated hnext fun r' hr' => ?_
      rcases List.mem_append.mp hr' with hold | hnew
      · have hknown := h.known t
        rw [RegistryThread.contexts, hpc] at hknown
        exact (hknown r' hold).trans_le hnext
      · exact hcontexts r' hnew
  | release hpc hlock hq =>
      refine ⟨[], h.silent hsimulates ?_ (fun _ => h.outside (by rw [hpc]; rfl) rfl) ?_, rfl⟩
      · rw [RegistryThread.atomic, RegistryThread.atomic, hpc]
        rfl
      · rw [RegistryThread.contexts, RegistryThread.contexts, hpc]
  | @«return» c r q lock hpc hlock =>
      have hact : atomicAct t a.shared (a.pc t) .return =
          some (a.shared, ⟨(s.pc t).known ++ r.contexts, .idle⟩, some (.returned c r)) := by
        rw [h.pc_eq hpc]
        rfl
      obtain ⟨hexec, hshown⟩ := atomic_step hact
      refine ⟨[(t, .return)], ?_, hshown⟩
      rw [hexec]
      refine h.update hsimulates (fun _ => h.outside (by rw [hpc]; rfl) rfl) h.created le_rfl ?_
      have hknown := h.known t
      rw [RegistryThread.contexts, hpc] at hknown
      exact hknown

variable (ids) in
/-- The step lemma, for the machine. -/
theorem linearizes_step (e : τ × RegistryChoice β) (h : Linearizes ids s a) :
    ∃ fs, Linearizes ids ((udpThreads ids β).step s e).1 ((atomicThreads τ β).exec a fs) ∧
      ((atomicThreads τ β).trace a fs).flatMap shownBy =
        shownBy ((udpThreads ids β).entry s e) := by
  obtain ⟨t, k⟩ := e
  unfold shownBy
  rw [Transducer.entry_output]
  rcases hact : udpAct ids t s.shared (s.pc t) k with _ | ⟨s', p', o⟩
  · have hstep : (udpThreads ids β).step s (t, k) = (s, none) := interleave_step_of_none hact
    rw [hstep]
    exact ⟨[], h, rfl⟩
  · have hstep : (udpThreads ids β).step s (t, k) = (⟨s', Function.update s.pc t p'⟩, some o) :=
      interleave_step_of_some hact
    rw [hstep]
    exact h.step (registryCase hact)

end simulation

/-! ## Runs -/

section runs

variable [DecidableEq τ]

/-- At the start the two machines agree. -/
theorem linearizes_init (ids : LThreadIds τ) (β : Type) :
    Linearizes ids (udpInit τ β) (atomicInit τ β) where
  owned := (owned_run ids [] fun _ he => absurd he List.not_mem_nil).2
  placed _ := trivial
  committed := ⟨fun _ => rfl, fun _ _ _ h => by cases h⟩
  threads := rfl
  created := created_init
  known _ _ hr := absurd hr List.not_mem_nil

/-- **The registry is linearizable.** However many threads call its methods under `Lock`, and whatever they
write to the contexts without it: the calls, the returns with their results and the writes are those of a
run in which every call takes effect in one step between its call and its return. While nobody is in a
method the registry is the one of that run; a method that writes is alone in its section; the word of the
lock says who holds it, and who releases it holds it; and the lock never reports a wrong release. -/
theorem registry_linearizable (ids : LThreadIds τ) (events : List (τ × RegistryChoice β)) :
    let s := (udpThreads ids β).exec (udpInit τ β) events
    Alone (registrySection β) (sections s.pc) ∧ Guarded ids s ∧
      s.shared.lock.crash ≠ some .invalidUnlockOrder ∧ s.shared.lock.crash ≠ some .multipleUnlock ∧
      ∃ history : List (τ × AtomicChoice β),
        let a := (atomicThreads τ β).exec (atomicInit τ β) history
        ((atomicThreads τ β).trace (atomicInit τ β) history).flatMap shownBy =
            ((udpThreads ids β).trace (udpInit τ β) events).flatMap shownBy ∧
          (∀ t, a.pc t = (s.pc t).atomic) ∧ Created a.shared ∧
          ((∀ t, sections s.pc t = none) → s.shared.service = a.shared) := by
  intro s
  obtain ⟨history, h, hshown⟩ := Transducer.trace_simulation
    (M := udpThreads ids β) (A := atomicThreads τ β) shownBy shownBy
    (fun _ _ e h => linearizes_step ids e h) (linearizes_init ids β) events
  obtain ⟨owner, howned⟩ := h.owned
  refine ⟨howned.alone, howned.guarded h.placed, howned.crash.1, howned.crash.2, history, hshown,
    fun t => ?_, h.created, ?_⟩
  · rw [h.threads]
  · intro hnone
    refine h.committed.same fun t c b ht => ?_
    rw [hnone t] at ht
    cases ht

end runs

end CowboyPoker.ServerCore
