import CowboyPoker.Found.Interleaving

/-!
# `Lock`: the reader/writer spin lock

One word packs the id of the thread that writes (upper 16 bits) and the number of read holds (lower 16
bits); `_writeCount`, which is not atomic, counts the recursion of the writer.

* `Lock`, `LockPc`, `Lock.step` — the lock, the positions in its four functions, and what a thread does
  at one: one step for each atomic operation, each access of `_writeCount` and each reading of the clock.
* `lockThreads` — threads that use one lock through the guards, interleaved. A guard releases what it
  acquired, last acquired first, and a thread does not ask to write while it reads.
-/

namespace CowboyPoker.ServerCore

open CowboyPoker.Found

/-! ## The lock -/

/-- `ACQUIRE_TIMEOUT_TIC`. -/
def acquireTimeoutTic : UInt64 := 10000

/-- `MAX_SPIN_COUNT`. -/
def maxSpinCount : ℕ := 5000

/-- `WRITE_THREAD_MASK`. -/
def writeThreadMask : UInt32 := 0xFFFF0000

/-- `READ_COUNT_MASK`. -/
def readCountMask : UInt32 := 0x0000FFFF

/-- `EMPTY_FLAG`. -/
def emptyFlag : UInt32 := 0x00000000

/-- Source: `ServerCore/Lock.h`, `Lock` -/
structure Lock where
  /-- `_lockFlag`. -/
  lockFlag : UInt32 := emptyFlag
  /-- `_writeCount`. -/
  writeCount : UInt16 := 0
  deriving DecidableEq

/-- `(_lockFlag.load() & WRITE_THREAD_MASK) >> 16`. -/
def Lock.lockThreadId (l : Lock) : UInt32 := (l.lockFlag &&& writeThreadMask) >>> 16

/-- `_lockFlag.load() & READ_COUNT_MASK`. -/
def Lock.readCount (l : Lock) : UInt32 := l.lockFlag &&& readCountMask

/-- `(LThreadId << 16) & WRITE_THREAD_MASK`. -/
def desiredFlag (lThreadId : UInt32) : UInt32 := (lThreadId <<< 16) &&& writeThreadMask

/-- The causes that the lock crashes with. -/
inductive LockCrash
  /-- `WRITE_LOCK_TIMEOUT`. -/
  | writeLockTimeout
  /-- `READ_LOCK_TIMEOUT`. -/
  | readLockTimeout
  /-- `INVALID_UNLOCK_ORDER`. -/
  | invalidUnlockOrder
  /-- `MULTIPLE_UNLOCK`. -/
  | multipleUnlock
  deriving DecidableEq

/-- A position in `WriteLock`. -/
inductive WriteLockPc
  /-- At the load of the flag. -/
  | load
  /-- At `_writeCount++` in the branch of the writer. -/
  | recurse
  /-- At `GetTickCount64` before the loop. -/
  | tick
  /-- At the compare-exchange. -/
  | exchange (beingTick : UInt64) (spinCount : ℕ)
  /-- At `_writeCount++` behind the compare-exchange. -/
  | count
  /-- At the test of the time-out. -/
  | timeout (beingTick : UInt64)
  deriving DecidableEq

/-- A position in `WriteUnlock`. -/
inductive WriteUnlockPc
  /-- At the load of the flag. -/
  | load
  /-- At `--_writeCount`. -/
  | count
  /-- At the store of the flag. -/
  | store
  deriving DecidableEq

/-- A position in `ReadLock`. -/
inductive ReadLockPc
  /-- At the first load of the flag. -/
  | load
  /-- At the `fetch_add` in the branch of the writer. -/
  | add
  /-- At `GetTickCount64` before the loop. -/
  | tick
  /-- At the load of the read count. -/
  | loadCount (beingTick : UInt64) (spinCount : ℕ)
  /-- At the compare-exchange. -/
  | exchange (beingTick : UInt64) (spinCount : ℕ) (expected : UInt32)
  /-- At the test of the time-out. -/
  | timeout (beingTick : UInt64)
  deriving DecidableEq

/-- A position in a function of the lock. -/
inductive LockPc
  /-- In `WriteLock`. -/
  | writeLock (p : WriteLockPc)
  /-- In `WriteUnlock`. -/
  | writeUnlock (p : WriteUnlockPc)
  /-- In `ReadLock`. -/
  | readLock (p : ReadLockPc)
  /-- In `ReadUnlock`, at the `fetch_sub`. -/
  | readUnlock
  deriving DecidableEq

/-- What a thread does after a step. -/
inductive LockNext
  /-- It goes on in the function. -/
  | goto (p : LockPc)
  /-- The function returns. -/
  | return
  /-- It crashes. -/
  | crash (cause : LockCrash)
  deriving DecidableEq

namespace Lock

/-- `now` is what `GetTickCount64` returns.
Source: `ServerCore/Lock.cpp`, `Lock::WriteLock` -/
def writeLockStep (lThreadId : UInt32) (now : UInt64) (l : Lock) : WriteLockPc → Lock × LockNext
  | .load => (l, .goto (.writeLock (if l.lockThreadId = lThreadId then .recurse else .tick)))
  | .recurse => ({ l with writeCount := l.writeCount + 1 }, .return)
  | .tick => (l, .goto (.writeLock (.exchange now 0)))
  | .exchange beingTick spinCount =>
      if l.lockFlag = emptyFlag then
        ({ l with lockFlag := desiredFlag lThreadId }, .goto (.writeLock .count))
      else
        (l, .goto (.writeLock (if spinCount + 1 < maxSpinCount then
          .exchange beingTick (spinCount + 1) else .timeout beingTick)))
  | .count => ({ l with writeCount := l.writeCount + 1 }, .return)
  | .timeout beingTick =>
      (l, if now - beingTick ≥ acquireTimeoutTic then .crash .writeLockTimeout
        else .goto (.writeLock (.exchange beingTick 0)))

/-- Source: `ServerCore/Lock.cpp`, `Lock::WriteUnlock` -/
def writeUnlockStep (l : Lock) : WriteUnlockPc → Lock × LockNext
  | .load =>
      (l, if l.readCount ≠ 0 then .crash .invalidUnlockOrder else .goto (.writeUnlock .count))
  | .count =>
      let lockCount := l.writeCount - 1
      ({ l with writeCount := lockCount },
        if lockCount = 0 then .goto (.writeUnlock .store) else .return)
  | .store => ({ l with lockFlag := emptyFlag }, .return)

/-- `now` is what `GetTickCount64` returns.
Source: `ServerCore/Lock.cpp`, `Lock::ReadLock` -/
def readLockStep (lThreadId : UInt32) (now : UInt64) (l : Lock) : ReadLockPc → Lock × LockNext
  | .load => (l, .goto (.readLock (if l.lockThreadId = lThreadId then .add else .tick)))
  | .add => ({ l with lockFlag := l.lockFlag + 1 }, .return)
  | .tick => (l, .goto (.readLock (.loadCount now 0)))
  | .loadCount beingTick spinCount =>
      (l, .goto (.readLock (.exchange beingTick spinCount l.readCount)))
  | .exchange beingTick spinCount expected =>
      if l.lockFlag = expected then ({ l with lockFlag := expected + 1 }, .return)
      else
        (l, .goto (.readLock (if spinCount + 1 < maxSpinCount then
          .loadCount beingTick (spinCount + 1) else .timeout beingTick)))
  | .timeout beingTick =>
      (l, if now - beingTick ≥ acquireTimeoutTic then .crash .readLockTimeout
        else .goto (.readLock (.loadCount beingTick 0)))

/-- Source: `ServerCore/Lock.cpp`, `Lock::ReadUnlock` -/
def readUnlockStep (l : Lock) : Lock × LockNext :=
  ({ l with lockFlag := l.lockFlag - 1 },
    if l.readCount = 0 then .crash .multipleUnlock else .return)

/-- What a thread does at a position. -/
def step (lThreadId : UInt32) (now : UInt64) (l : Lock) : LockPc → Lock × LockNext
  | .writeLock p => l.writeLockStep lThreadId now p
  | .writeUnlock p => l.writeUnlockStep p
  | .readLock p => l.readLockStep lThreadId now p
  | .readUnlock => l.readUnlockStep

end Lock

/-! ## Threads with guards -/

/-- What a guard has acquired. -/
inductive LockMode
  /-- `ReadLockGuard`. -/
  | read
  /-- `WriteLockGuard`. -/
  | write
  deriving DecidableEq

/-- The position a guard's constructor starts at. -/
def LockMode.lock : LockMode → LockPc
  | read => .readLock .load
  | write => .writeLock .load

/-- The position a guard's destructor starts at. -/
def LockMode.unlock : LockMode → LockPc
  | read => .readUnlock
  | write => .writeUnlock .load

/-- Where a thread is: the guards it has on the lock, last constructed first, and its position in a
function of the lock. A guard counts from the return of its constructor to the start of its
destructor. -/
structure LockThread where
  held : List LockMode := []
  pc : Option LockPc := none
  deriving DecidableEq

/-- The guards of a thread that returns from a function. -/
def LockPc.returned (held : List LockMode) : LockPc → List LockMode
  | writeLock _ => .write :: held
  | readLock _ => .read :: held
  | writeUnlock _ => held
  | readUnlock => held

/-- What the threads share. -/
structure LockProcess where
  lock : Lock := {}
  /-- The cause that the program crashed with. -/
  crash : Option LockCrash := none
  deriving DecidableEq

/-- What the scheduler lets a thread do. -/
inductive LockChoice
  /-- A thread outside constructs a guard. -/
  | lock (mode : LockMode)
  /-- A thread outside destroys the guard that it constructed last. -/
  | unlock
  /-- A thread in a function takes its next step; the clock shows `now`. -/
  | next (now : UInt64)
  deriving DecidableEq

/-- The ids that `ThreadManager::InitTLS` has given to the threads. -/
structure LThreadIds (τ : Type) where
  id : τ → UInt32
  injective : Function.Injective id
  pos : ∀ t, 0 < (id t).toNat
  lt : ∀ t, (id t).toNat < 65536

/-- The ids of two threads. -/
def twoThreadIds : LThreadIds Bool where
  id t := if t then 2 else 1
  injective := by
    intro t u h
    revert h
    cases t <;> cases u <;> decide
  pos t := by cases t <;> decide
  lt t := by cases t <;> decide

/-- What becomes of the process and of a thread with the guards `held` when it has taken a step at
`q`. -/
def LockPc.resume (s : LockProcess) (held : List LockMode) (q : LockPc) :
    Lock × LockNext → LockProcess × LockThread
  | (lock, .goto q') => ({ s with lock }, ⟨held, some q'⟩)
  | (lock, .return) => ({ s with lock }, ⟨q.returned held, none⟩)
  | (lock, .crash cause) => (⟨lock, some cause⟩, ⟨held, some q⟩)

/-- What a thread does. A thread that has a read guard does not construct a write guard, and nothing
moves after a crash.
Source: `ServerCore/Lock.h`, `ReadLockGuard`, `WriteLockGuard` -/
def lockAct {τ : Type} (ids : LThreadIds τ) :
    Program τ LockProcess LockThread LockChoice Unit :=
  fun t s p k =>
    if s.crash ≠ none then none
    else
      match p, k with
      | ⟨held, none⟩, .lock mode =>
          if mode = .write ∧ .read ∈ held then none
          else some (s, ⟨held, some mode.lock⟩, ())
      | ⟨mode :: held, none⟩, .unlock => some (s, ⟨held, some mode.unlock⟩, ())
      | ⟨held, some q⟩, .next now =>
          let next := q.resume s held (s.lock.step (ids.id t) now q)
          some (next.1, next.2, ())
      | _, _ => none

/-- The threads of a lock, interleaved. -/
def lockThreads {τ : Type} [DecidableEq τ] (ids : LThreadIds τ) :
    Transducer (Processes τ LockProcess LockThread) (τ × LockChoice) (Option Unit) :=
  interleave (lockAct ids)

/-- A new lock, and no thread in any of its functions. -/
def lockInit (τ : Type) : Processes τ LockProcess LockThread where
  shared := {}
  pc _ := {}

/-! ## The two halves of the flag -/

theorem Lock.lockThreadId_toNat (l : Lock) : l.lockThreadId.toNat = l.lockFlag.toNat / 65536 := by
  have hmask : writeThreadMask.toNat >>> 16 = 2 ^ 16 - 1 := by decide
  have hlt : l.lockFlag.toNat / 65536 < 2 ^ 16 := Nat.div_lt_of_lt_mul l.lockFlag.toNat_lt
  have h16 : (16 : UInt32).toNat % 32 = 16 := by decide
  rw [lockThreadId, UInt32.toNat_shiftRight, UInt32.toNat_and, h16, Nat.shiftRight_and_distrib, hmask,
    Nat.and_two_pow_sub_one_eq_mod, Nat.shiftRight_eq_div_pow, Nat.mod_eq_of_lt hlt]

theorem Lock.readCount_toNat (l : Lock) : l.readCount.toNat = l.lockFlag.toNat % 65536 := by
  have hmask : readCountMask.toNat = 2 ^ 16 - 1 := by decide
  rw [readCount, UInt32.toNat_and, hmask, Nat.and_two_pow_sub_one_eq_mod]

theorem desiredFlag_toNat {lThreadId : UInt32} (h : lThreadId.toNat < 65536) :
    (desiredFlag lThreadId).toNat = lThreadId.toNat * 65536 := by
  have hmask : writeThreadMask.toNat = (2 ^ 16 - 1) <<< 16 := by decide
  have h16 : (16 : UInt32).toNat % 32 = 16 := by decide
  have hlt : lThreadId.toNat <<< 16 < 2 ^ 32 := by
    rw [Nat.shiftLeft_eq]
    omega
  rw [desiredFlag, UInt32.toNat_and, UInt32.toNat_shiftLeft, h16, Nat.mod_eq_of_lt hlt, hmask,
    ← Nat.shiftLeft_and_distrib, Nat.and_two_pow_sub_one_eq_mod, Nat.mod_eq_of_lt h,
    Nat.shiftLeft_eq]

/-- What a step of a thread is: it constructs a guard, starts to destroy one, or takes a step in a
function of the lock. -/
theorem lockAct_eq_some {τ : Type} {ids : LThreadIds τ} {t : τ} {s s' : LockProcess}
    {p p' : LockThread} {k : LockChoice} {o : Unit} (h : lockAct ids t s p k = some (s', p', o)) :
    s.crash = none ∧
      ((∃ mode held, p = ⟨held, none⟩ ∧ ¬ (mode = LockMode.write ∧ LockMode.read ∈ held) ∧ s' = s ∧
          p' = ⟨held, some mode.lock⟩) ∨
        (∃ mode held, p = ⟨mode :: held, none⟩ ∧ s' = s ∧ p' = ⟨held, some mode.unlock⟩) ∨
        ∃ q held now, p = ⟨held, some q⟩ ∧
          (s', p') = q.resume s held (s.lock.step (ids.id t) now q)) := by
  unfold lockAct at h
  by_cases hcrash : s.crash ≠ none
  · rw [if_pos hcrash] at h
    cases h
  rw [if_neg hcrash] at h
  refine ⟨not_not.mp hcrash, ?_⟩
  split at h
  · obtain ⟨hmode, h⟩ := Option.ite_none_left_eq_some.mp h
    cases h
    exact .inl ⟨_, _, rfl, hmode, rfl, rfl⟩
  · cases h
    exact .inr (.inl ⟨_, _, rfl, rfl, rfl⟩)
  · cases h
    exact .inr (.inr ⟨_, _, _, rfl, rfl⟩)
  · cases h

end CowboyPoker.ServerCore
