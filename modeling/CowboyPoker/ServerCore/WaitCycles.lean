import CowboyPoker.ServerCore.Lock
import CowboyPoker.ServerCore.ProfilerRuns

/-!
# Which wait cycles the profiler can miss

Threads of a debug build use any number of locks through the guards. The constructor of a guard pushes
the name of the lock and then spins for it, its destructor pops the name and then releases. The name is
`typeid(this).name()`, the same for all instances of a class, and an edge from a name to itself is not
recorded.

* `guardThreads` — the threads with the locks and the profiler, interleaved.
* `NestingInv` — a thread's stack has the names of its guards, and each but the lowest is either the
  same as the one below or its successor in the graph.
* `wait_cycle_same_name` — threads that wait in a cycle without `DEADLOCK_DETECTED` wait for locks of
  one name.
-/

namespace CowboyPoker.ServerCore

open CowboyPoker.Found DeadLockProfiler

/-! ## Guards on many locks -/

/-- What the threads share: the locks, the profiler, and how the program stopped. -/
structure GuardShared (L ν : Type) where
  locks : L → Lock := fun _ => {}
  profiler : DeadLockProfiler ν := {}
  stop : Option (ProfilerStop ν) := none
  crash : Option LockCrash := none

/-- Where a thread is in a guard. -/
inductive GuardPc (L : Type)
  /-- In no guard's constructor or destructor. -/
  | outside
  /-- In the constructor, at `PushLock`. -/
  | push (l : L) (mode : LockMode)
  /-- In the destructor, at `PopLock`. -/
  | pop (l : L) (mode : LockMode)
  /-- In a function of the lock, behind the call of the profiler. -/
  | inside (l : L) (q : LockPc)
  deriving DecidableEq

/-- A thread: its guards, last constructed first, its `LLockStack` and its position. -/
structure GuardThread (L : Type) where
  held : List (L × LockMode) := []
  lLockStack : List ℕ := []
  pc : GuardPc L := .outside

/-- The guards of a thread that returns from a function of `l`. -/
def guardsAfter {L : Type} (held : List (L × LockMode)) (l : L) : LockPc → List (L × LockMode)
  | .writeLock _ => (l, .write) :: held
  | .readLock _ => (l, .read) :: held
  | .writeUnlock _ => held
  | .readUnlock => held

/-- What the scheduler lets a thread do. -/
inductive GuardChoice (L : Type)
  /-- A thread outside constructs a guard on `l`. -/
  | lock (l : L) (mode : LockMode)
  /-- A thread outside destroys the guard that it constructed last. -/
  | unlock
  /-- A thread inside takes its next step; the clock shows `now`. -/
  | next (now : UInt64)

section machine

variable {τ L ν : Type} [DecidableEq L] [DecidableEq ν]

/-- What a thread does; `name l` is the name that the guards on `l` pass. Nothing moves after a crash.
Source: `ServerCore/CoreMacro.h`, `READ_LOCK_IDX`, `WRITE_LOCK_IDX`; `ServerCore/Lock.cpp` -/
def guardAct (ids : LThreadIds τ) (name : L → ν) :
    Program τ (GuardShared L ν) (GuardThread L) (GuardChoice L) Unit := fun t s p k =>
  match s.stop, s.crash, p.pc, k with
  | none, none, .outside, .lock l mode => some (s, { p with pc := .push l mode }, ())
  | none, none, .outside, .unlock =>
      match p.held with
      | [] => none
      | (l, mode) :: held => some (s, { p with held, pc := .pop l mode }, ())
  | none, none, .push l mode, .next _ =>
      match s.profiler.pushLock p.lLockStack (name l) with
      | .ok (profiler, lLockStack) =>
          some ({ s with profiler }, { p with lLockStack, pc := .inside l mode.lock }, ())
      | .error stop => some ({ s with stop := some stop }, p, ())
  | none, none, .pop l mode, .next _ =>
      match s.profiler.popLock p.lLockStack (name l) with
      | .ok (profiler, lLockStack) =>
          some ({ s with profiler }, { p with lLockStack, pc := .inside l mode.unlock }, ())
      | .error stop => some ({ s with stop := some stop }, p, ())
  | none, none, .inside l q, .next now =>
      match (s.locks l).step (ids.id t) now q with
      | (lock, .goto q') =>
          some ({ s with locks := Function.update s.locks l lock }, { p with pc := .inside l q' }, ())
      | (lock, .return) =>
          some ({ s with locks := Function.update s.locks l lock },
            { p with held := guardsAfter p.held l q, pc := .outside }, ())
      | (lock, .crash cause) =>
          some ({ s with locks := Function.update s.locks l lock, crash := some cause }, p, ())
  | _, _, _, _ => none

/-- The threads that use the locks, interleaved. -/
def guardThreads [DecidableEq τ] (ids : LThreadIds τ) (name : L → ν) :
    Transducer (Processes τ (GuardShared L ν) (GuardThread L)) (τ × GuardChoice L) (Option Unit) :=
  interleave (guardAct ids name)

end machine

/-- New locks, a new profiler, and threads without guards. -/
def guardInit (τ L ν : Type) : Processes τ (GuardShared L ν) (GuardThread L) where
  shared := {}
  pc _ := {}

/-! ## Wait cycles -/

/-- In the loop of `WriteLock` or `ReadLock`. -/
def Spinning : LockPc → Prop
  | .writeLock (.exchange _ _) => True
  | .writeLock (.timeout _) => True
  | .readLock (.loadCount _ _) => True
  | .readLock (.exchange _ _ _) => True
  | .readLock (.timeout _) => True
  | _ => False

section cycles

variable {τ L ν : Type}

/-- A thread spins for `l`. -/
def SpinsFor (p : GuardThread L) (l : L) : Prop := ∃ q, p.pc = .inside l q ∧ Spinning q

/-- A thread has a guard on `l`. -/
def Holds (p : GuardThread L) (l : L) : Prop := ∃ mode, (l, mode) ∈ p.held

/-- Two or more threads, each with the lock that it spins for; the next one holds it, and the first
one holds that of the last. -/
def WaitCycle (s : Processes τ (GuardShared L ν) (GuardThread L)) : List (τ × L) → Prop
  | [] => False
  | first :: rest => rest ≠ [] ∧ ((first :: rest).map Prod.fst).Nodup ∧
      (∀ x ∈ first :: rest, SpinsFor (s.pc x.1) x.2) ∧
      (first :: rest ++ [first]).IsChain fun x y => Holds (s.pc y.1) x.2

/-! ## The invariant -/

/-- In `WriteLock` or `ReadLock`. -/
def LockPc.acquires : LockPc → Bool
  | .writeLock _ => true
  | .readLock _ => true
  | .writeUnlock _ => false
  | .readUnlock => false

/-- The locks whose names a thread has pushed and not popped, last first. -/
def pushedLocks (p : GuardThread L) : List L :=
  match p.pc with
  | .inside l q => if q.acquires then l :: p.held.map Prod.fst else p.held.map Prod.fst
  | .pop l _ => l :: p.held.map Prod.fst
  | _ => p.held.map Prod.fst

variable [DecidableEq ν]

/-- The stack of a thread has the ids of the names that it has pushed, and each is the same as the one
below or its successor in the graph. -/
structure NestingInv (name : L → ν) (d : DeadLockProfiler ν) (p : GuardThread L) : Prop where
  ids : List.Forall₂ (fun lockId l => d.nameToId.lookup (name l) = some lockId) p.lLockStack
    (pushedLocks p)
  nested : p.lLockStack.IsChain fun upper lower => upper = lower ∨ d.Edge lower upper

/-- The invariant of the profiler and of the stacks. -/
abbrev GuardInv (name : L → ν) : Processes τ (GuardShared L ν) (GuardThread L) → Prop :=
  LocalInv (fun s => s.profiler.ProfilerInv) (fun _ s p => NestingInv name s.profiler p)
    fun _ _ => True

variable {name : L → ν} {d d' : DeadLockProfiler ν} {p : GuardThread L}

theorem NestingInv.grows (h : NestingInv name d p) (hgrows : Grows d d') : NestingInv name d' p where
  ids := h.ids.imp fun _ _ hname => hgrows.lookup _ _ hname
  nested := h.nested.imp fun _ _ hlink => hlink.imp id (hgrows.edge _ _)

theorem NestingInv.top_lt (hd : d.ProfilerInv) (h : NestingInv name d p) :
    ∀ top ∈ p.lLockStack.head?, top < d.lockCount := by
  have hids := h.ids
  generalize p.lLockStack = lLockStack, pushedLocks p = pushed at hids
  intro top htop
  cases hids with
  | nil => cases htop
  | cons hname _ => exact Option.some.inj htop ▸ hd.issued _ _ hname

/-- A step in a function of the lock stays in the function or returns from it. -/
theorem Lock.step_acquires {l l' : Lock} {lThreadId : UInt32} {now : UInt64} {q q' : LockPc}
    (h : l.step lThreadId now q = (l', .goto q')) : q'.acquires = q.acquires := by
  cases q with
  | writeLock p => cases p <;> grind [Lock.step, writeLockStep, LockPc.acquires]
  | writeUnlock p => cases p <;> grind [Lock.step, writeUnlockStep, LockPc.acquires]
  | readLock p => cases p <;> grind [Lock.step, readLockStep, LockPc.acquires]
  | readUnlock => grind [Lock.step, readUnlockStep, LockPc.acquires]

/-- What a step of a thread is. -/
inductive GuardStep [DecidableEq L] (ids : LThreadIds τ) (name : L → ν) (t : τ)
    (s : GuardShared L ν) : GuardThread L → GuardShared L ν → GuardThread L → Prop
  /-- A guard is about to be constructed. -/
  | called (held lLockStack l mode) : GuardStep ids name t s ⟨held, lLockStack, .outside⟩
      s ⟨held, lLockStack, .push l mode⟩
  /-- A guard is about to be destroyed. -/
  | ended (held lLockStack l mode) : GuardStep ids name t s ⟨(l, mode) :: held, lLockStack, .outside⟩
      s ⟨held, lLockStack, .pop l mode⟩
  /-- `PushLock` returned. -/
  | pushed {held lLockStack l mode profiler lLockStack'}
      (h : s.profiler.pushLock lLockStack (name l) = .ok (profiler, lLockStack')) :
      GuardStep ids name t s ⟨held, lLockStack, .push l mode⟩
        { s with profiler } ⟨held, lLockStack', .inside l mode.lock⟩
  /-- `PopLock` returned. -/
  | popped {held lLockStack l mode profiler lLockStack'}
      (h : s.profiler.popLock lLockStack (name l) = .ok (profiler, lLockStack')) :
      GuardStep ids name t s ⟨held, lLockStack, .pop l mode⟩
        { s with profiler } ⟨held, lLockStack', .inside l mode.unlock⟩
  /-- A step inside a function of the lock. -/
  | moved {held lLockStack l q now lock q'}
      (h : (s.locks l).step (ids.id t) now q = (lock, .goto q')) :
      GuardStep ids name t s ⟨held, lLockStack, .inside l q⟩
        { s with locks := Function.update s.locks l lock } ⟨held, lLockStack, .inside l q'⟩
  /-- A function of the lock returned. -/
  | returned {held lLockStack l q now lock}
      (h : (s.locks l).step (ids.id t) now q = (lock, .return)) :
      GuardStep ids name t s ⟨held, lLockStack, .inside l q⟩
        { s with locks := Function.update s.locks l lock }
        ⟨guardsAfter held l q, lLockStack, .outside⟩
  /-- The program ended. -/
  | ceased {p s'} (hprofiler : s'.profiler = s.profiler) : GuardStep ids name t s p s' p

/-- **The inversion of a step.** -/
theorem guardStep [DecidableEq L] {ids : LThreadIds τ} {s s' : GuardShared L ν} {t : τ}
    {k : GuardChoice L} {p' : GuardThread L} {o : Unit}
    (hact : guardAct ids name t s p k = some (s', p', o)) : GuardStep ids name t s p s' p' := by
  obtain ⟨held, lLockStack, pc⟩ := p
  unfold guardAct at hact
  split at hact
  · rename_i hpc
    obtain rfl : pc = .outside := hpc
    cases hact
    exact .called _ _ _ _
  · rename_i hpc
    obtain rfl : pc = .outside := hpc
    cases held with
    | nil => cases hact
    | cons guard held =>
        cases hact
        exact .ended _ _ _ _
  · rename_i l mode now hstop hcrash hpc
    obtain rfl : pc = .push l mode := hpc
    split at hact <;> cases hact
    · exact .pushed ‹_›
    · exact .ceased rfl
  · rename_i l mode now hstop hcrash hpc
    obtain rfl : pc = .pop l mode := hpc
    split at hact <;> cases hact
    · exact .popped ‹_›
    · exact .ceased rfl
  · rename_i l q now hstop hcrash hpc
    obtain rfl : pc = .inside l q := hpc
    split at hact <;> cases hact
    · exact .moved ‹_›
    · exact .returned ‹_›
    · exact .ceased rfl
  · cases hact

/-- The new top of the stack is linked to the one below it. -/
theorem NestingInv.push {held : List (L × LockMode)} {lLockStack : List ℕ} {l : L} {mode : LockMode}
    {lockId : ℕ} (h : NestingInv name d' ⟨held, lLockStack, .push l mode⟩)
    (hlookup : d'.nameToId.lookup (name l) = some lockId)
    (hedge : ∀ prevId, lLockStack.head? = some prevId → prevId ≠ lockId → d'.Edge prevId lockId) :
    NestingInv name d' ⟨held, lockId :: lLockStack, .inside l mode.lock⟩ := by
  refine ⟨?_, ?_⟩
  · have hids : pushedLocks ⟨held, lockId :: lLockStack, .inside l mode.lock⟩ =
        l :: held.map Prod.fst := by
      cases mode <;> rfl
    rw [hids]
    exact .cons hlookup h.ids
  · cases lLockStack with
    | nil => exact List.isChain_singleton _
    | cons prevId rest =>
        refine List.isChain_cons_cons.mpr ⟨?_, h.nested⟩
        by_cases heq : prevId = lockId
        · exact .inl heq.symm
        · exact .inr (hedge prevId rfl heq)

/-- What a step of a thread keeps. -/
theorem guardAct_step [DecidableEq L] {ids : LThreadIds τ}
    {s : Processes τ (GuardShared L ν) (GuardThread L)} (h : GuardInv name s) {t : τ}
    {k : GuardChoice L} {s' : GuardShared L ν} {p' : GuardThread L} {o : Unit}
    (hact : guardAct ids name t s.shared (s.pc t) k = some (s', p', o)) :
    s'.profiler.ProfilerInv ∧ NestingInv name s'.profiler p' ∧
      Grows s.shared.profiler s'.profiler := by
  have hinv := h.shared
  have hnest := h.each t
  have hstep := guardStep hact
  generalize s.pc t = p at hstep hnest
  cases hstep with
  | called held lLockStack l mode => exact ⟨hinv, ⟨hnest.ids, hnest.nested⟩, Grows.refl _⟩
  | ended held lLockStack l mode => exact ⟨hinv, ⟨hnest.ids, hnest.nested⟩, Grows.refl _⟩
  | @pushed held lLockStack l mode profiler lLockStack' hpush =>
      have hspec := pushLock_spec hinv (hnest.top_lt hinv) (name l)
      simp only at hspec
      rw [hpush] at hspec
      obtain ⟨hinv', hgrows, hlookup, rfl, hedge⟩ := hspec
      exact ⟨hinv', (hnest.grows hgrows).push hlookup hedge, hgrows⟩
  | @popped held lLockStack l mode profiler lLockStack' hpop =>
      obtain ⟨hids, hnested⟩ := hnest
      cases hids with
      | cons hname hrest =>
          rw [popLock_top hname] at hpop
          cases hpop
          refine ⟨hinv, ⟨?_, hnested.tail⟩, Grows.refl _⟩
          have hpushed : ∀ stack, pushedLocks ⟨held, stack, .inside l mode.unlock⟩ =
              held.map Prod.fst := by
            intro stack
            cases mode <;> rfl
          rw [hpushed]
          exact hrest
  | @moved held lLockStack l q now lock q' hmoved =>
      have hpushed : pushedLocks ⟨held, lLockStack, .inside l q'⟩ =
          pushedLocks ⟨held, lLockStack, .inside l q⟩ := by
        simp only [pushedLocks, Lock.step_acquires hmoved]
      exact ⟨hinv, ⟨hpushed ▸ hnest.ids, hnest.nested⟩, Grows.refl _⟩
  | @returned held lLockStack l q now lock hreturned =>
      have hpushed : pushedLocks ⟨guardsAfter held l q, lLockStack, .outside⟩ =
          pushedLocks ⟨held, lLockStack, .inside l q⟩ := by
        cases q <;> rfl
      exact ⟨hinv, ⟨hpushed ▸ hnest.ids, hnest.nested⟩, Grows.refl _⟩
  | ceased hprofiler =>
      rw [hprofiler]
      exact ⟨hinv, hnest, Grows.refl _⟩

end cycles

/-! ## Runs -/

section runs

variable {τ L ν : Type} [DecidableEq τ] [DecidableEq L] [DecidableEq ν] (ids : LThreadIds τ)
  (name : L → ν)

theorem guardInv_run (events : List (τ × GuardChoice L)) :
    GuardInv name ((guardThreads ids name).exec (guardInit τ L ν) events) := by
  refine (guardThreads ids name).exec_invariant ?_ ?_ events
  · exact ⟨profilerInv_empty, fun _ => ⟨.nil, .nil⟩, fun _ _ _ => trivial⟩
  · intro s e h
    refine interleave_step h e fun s' p' o hact => ?_
    obtain ⟨hinv, hnest, hgrows⟩ := guardAct_step h hact
    exact LocalInv.update h hinv hnest fun u _ => ⟨(h.each u).grows hgrows, trivial, trivial⟩

variable {name} {d : DeadLockProfiler ν} {p : GuardThread L}

omit [DecidableEq L] in
/-- The name that a thread spins for is on top of its stack. -/
theorem NestingInv.top_of_spins (h : NestingInv name d p) {l : L} (hspin : SpinsFor p l) :
    ∃ rest, p.lLockStack = d.idOf (name l) :: rest ∧
      d.nameToId.lookup (name l) = some (d.idOf (name l)) ∧
      List.Forall₂ (fun lockId l => d.nameToId.lookup (name l) = some lockId) rest
        (p.held.map Prod.fst) := by
  obtain ⟨q, hpc, hq⟩ := hspin
  have hpushed : pushedLocks p = l :: p.held.map Prod.fst := by
    have hacquires : q.acquires = true := by
      cases q with
      | writeLock p => rfl
      | readLock p => rfl
      | writeUnlock p => exact hq.elim
      | readUnlock => exact hq.elim
    simp only [pushedLocks, hpc, hacquires, if_true]
  have hids := h.ids
  rw [hpushed] at hids
  obtain ⟨top, rest, hname, hrest, hstack⟩ := List.forall₂_cons_right_iff.mp hids
  have hid : d.idOf (name l) = top := by
    simp only [idOf, findOrIssue, hname]
  exact ⟨rest, hid ▸ hstack, hid ▸ hname, hrest⟩

omit [DecidableEq L] in
/-- The name of a lock that a thread has a guard on has an id, and the id is on the stack. -/
theorem exists_lockId_of_mem {lLockStack : List ℕ} {held : List (L × LockMode)}
    (hids : List.Forall₂ (fun lockId l => d.nameToId.lookup (name l) = some lockId) lLockStack
      (held.map Prod.fst)) {l : L} {mode : LockMode} (hmem : (l, mode) ∈ held) :
    ∃ lockId ∈ lLockStack, d.nameToId.lookup (name l) = some lockId := by
  obtain ⟨i, hi, hget⟩ := List.getElem_of_mem (List.mem_map_of_mem (f := Prod.fst) hmem)
  have hi' : i < lLockStack.length := hids.length_eq.symm ▸ hi
  have hname := hids.get hi' hi
  have hl : (held.map Prod.fst).get ⟨i, hi⟩ = l := hget
  rw [hl] at hname
  exact ⟨_, List.get_mem lLockStack ⟨i, hi'⟩, hname⟩

omit [DecidableEq ν] in
/-- Along a stack whose ids are linked, every id reaches the top. -/
theorem reach_top {top : ℕ} {lLockStack : List ℕ}
    (hchain : (top :: lLockStack).IsChain fun upper lower => upper = lower ∨ d.Edge lower upper)
    {lockId : ℕ} (hmem : lockId ∈ top :: lLockStack) :
    Relation.ReflTransGen d.Edge lockId top := by
  have hpath := reach_of_isChain (r := Relation.ReflTransGen d.Edge)
    (hchain.imp fun upper lower hlink => ?_) hmem
  · rwa [Relation.reflTransGen_eq_self] at hpath
  · rcases hlink with rfl | hedge
    · exact .refl
    · exact .single hedge

omit [DecidableEq L] in
/-- A thread that spins for a lock has a path to its name from the name of every lock that it
holds. -/
theorem NestingInv.reach (h : NestingInv name d p) {l m : L} (hspin : SpinsFor p m)
    (hold : Holds p l) : Relation.ReflTransGen d.Edge (d.idOf (name l)) (d.idOf (name m)) := by
  obtain ⟨rest, hstack, -, hrest⟩ := h.top_of_spins hspin
  obtain ⟨mode, hmem⟩ := hold
  obtain ⟨lockId, hlower, hname⟩ := exists_lockId_of_mem hrest hmem
  have hid : d.idOf (name l) = lockId := by
    simp only [idOf, findOrIssue, hname]
  have hchain := h.nested
  rw [hstack] at hchain
  rw [hid]
  exact reach_top hchain (List.mem_cons_of_mem _ hlower)

/-- **What the profiler can miss.** In every state of every run in which `DEADLOCK_DETECTED` was not
raised, the threads of a wait cycle wait for locks of one name. -/
theorem wait_cycle_same_name (events : List (τ × GuardChoice L)) :
    let s := (guardThreads ids name).exec (guardInit τ L ν) events
    s.shared.stop = none → ∀ cycle, WaitCycle s cycle →
      ∀ x ∈ cycle, ∀ y ∈ cycle, name x.2 = name y.2 := by
  intro s _ cycle hcycle x hx y hy
  have h : GuardInv name s := guardInv_run ids name events
  cases cycle with
  | nil => exact hcycle.elim
  | cons first rest =>
      obtain ⟨-, -, hspins, hholds⟩ := hcycle
      have hchain : (first :: rest ++ [first]).IsChain fun x y =>
          Relation.ReflTransGen s.shared.profiler.Edge (s.shared.profiler.idOf (name x.2))
            (s.shared.profiler.idOf (name y.2)) := by
        refine hholds.imp_of_mem_imp fun x y _ hy hold => (h.each y.1).reach (hspins y ?_) hold
        rcases List.mem_append.mp hy with hy | hy
        · exact hy
        · exact List.mem_singleton.mp hy ▸ List.mem_cons_self
      have hid : s.shared.profiler.idOf (name x.2) = s.shared.profiler.idOf (name y.2) :=
        (h.shared.acyclic.eq_of_closed_chain hchain hx).trans
          (h.shared.acyclic.eq_of_closed_chain hchain hy).symm
      obtain ⟨-, -, hlookupx, -⟩ := (h.each x.1).top_of_spins (hspins x hx)
      obtain ⟨-, -, hlookupy, -⟩ := (h.each y.1).top_of_spins (hspins y hy)
      rw [hid] at hlookupx
      exact h.shared.injective _ _ _ hlookupx hlookupy

end runs

open GuardChoice in
/-- Two threads each write to one of two locks, and then ask for the other one. -/
def oppositeRun : List (Bool × GuardChoice Bool) :=
  [(false, lock false .write)] ++ List.replicate 5 (false, next 0) ++
    [(true, lock true .write)] ++ List.replicate 5 (true, next 0) ++
    [(false, lock true .write)] ++ List.replicate 3 (false, next 0) ++
    [(true, lock false .write)] ++ List.replicate 3 (true, next 0)

/-- The state after `oppositeRun` when both locks belong to instances of one class. -/
def oppositeState : Processes Bool (GuardShared Bool Unit) (GuardThread Bool) :=
  (guardThreads twoThreadIds fun _ => ()).exec (guardInit Bool Bool Unit) oppositeRun

theorem oppositeState_wait_cycle : WaitCycle oppositeState [(false, true), (true, false)] := by
  have hfirst : (oppositeState.pc false).pc = .inside true (.writeLock (.exchange 0 0)) ∧
      (oppositeState.pc false).held = [(false, .write)] := by
    decide +kernel
  have hsecond : (oppositeState.pc true).pc = .inside false (.writeLock (.exchange 0 0)) ∧
      (oppositeState.pc true).held = [(true, .write)] := by
    decide +kernel
  have hholds : Holds (oppositeState.pc true) true ∧ Holds (oppositeState.pc false) false := by
    refine ⟨⟨.write, ?_⟩, ⟨.write, ?_⟩⟩
    · rw [hsecond.2]
      exact List.mem_cons_self
    · rw [hfirst.2]
      exact List.mem_cons_self
  refine ⟨List.cons_ne_nil _ _, by decide, fun x hx => ?_, ?_⟩
  · rcases List.mem_cons.mp hx with rfl | hx
    · exact ⟨_, hfirst.1, trivial⟩
    · obtain rfl := List.mem_singleton.mp hx
      exact ⟨_, hsecond.1, trivial⟩
  · exact List.isChain_cons_cons.mpr ⟨hholds.1, List.isChain_cons_cons.mpr ⟨hholds.2,
      List.isChain_singleton _⟩⟩

/-- Nothing was raised. -/
theorem oppositeState_silent : oppositeState.shared.stop = none ∧ oppositeState.shared.crash = none := by
  have hstop : oppositeState.shared.stop.isNone = true ∧ oppositeState.shared.crash = none := by
    decide +kernel
  exact ⟨Option.isNone_iff_eq_none.mp hstop.1, hstop.2⟩

theorem wait_cycle_same_name_opposite :
    oppositeState.shared.stop = none ∧ WaitCycle oppositeState [(false, true), (true, false)] ∧
      ∀ x ∈ [(false, true), (true, false)], ∀ y ∈ [(false, true), (true, false)],
        (fun _ : Bool => ()) x.2 = (fun _ : Bool => ()) y.2 :=
  ⟨oppositeState_silent.1, oppositeState_wait_cycle,
    wait_cycle_same_name twoThreadIds oppositeRun oppositeState_silent.1 _ oppositeState_wait_cycle⟩

/-- Two instances of one class, locked in opposite orders, deadlock undetected. -/
theorem wait_cycle_undetected :
    ∃ (events : List (Bool × GuardChoice Bool)) (cycle : List (Bool × Bool)),
      let s := (guardThreads twoThreadIds fun _ => ()).exec (guardInit Bool Bool Unit) events
      s.shared.stop = none ∧ s.shared.crash = none ∧ WaitCycle s cycle :=
  ⟨oppositeRun, _, oppositeState_silent.1, oppositeState_silent.2, oppositeState_wait_cycle⟩

end CowboyPoker.ServerCore
