import CowboyPoker.ServerCore.Lock
import Mathlib.Algebra.Order.BigOperators.Group.Finset

/-!
# What the word of a lock says

At any moment of any run the upper half of `_lockFlag` names the thread that writes, the lower half
counts the read holds, and `_writeCount` is the nesting of the writer.

* `HoldsWrite`, `readHolds`, `writeDepth` — what a thread holds, from its guards and its position. A
  write hold lasts from the compare-exchange to the store, a read hold to the `fetch_sub`.
* `Owned` — the invariant, given the thread that holds the lock for writing.
* `Owned.move`, `Owned.acquire`, `Owned.release` — the three ways in which a step keeps it.
-/

namespace CowboyPoker.ServerCore

open CowboyPoker.Found

variable {τ : Type}

/-! ## What a thread holds -/

/-- The read hold of a thread that is about to give it up. -/
def pendingReads : Option LockPc → ℕ
  | some .readUnlock => 1
  | _ => 0

/-- The count of a writer that has not decremented it yet. -/
def pendingWrites : Option LockPc → ℕ
  | some (.writeUnlock .load) => 1
  | some (.writeUnlock .count) => 1
  | _ => 0

/-- The windows of acquiring and of releasing: a thread has set the flag and not yet counted itself,
or it is in `WriteUnlock`. -/
def WriteWindow : Option LockPc → Prop
  | some (.writeLock .count) => True
  | some (.writeUnlock _) => True
  | _ => False

/-- The number of read holds of a thread. -/
def readHolds (p : LockThread) : ℕ := p.held.count .read + pendingReads p.pc

/-- The nesting of a thread's write guards. -/
def writeDepth (p : LockThread) : ℕ := p.held.count .write

/-- A thread holds the lock for writing. -/
def HoldsWrite (p : LockThread) : Prop := .write ∈ p.held ∨ WriteWindow p.pc

/-- The bounds that the halves of the word and `_writeCount` have room for. -/
def Bounded [Fintype τ] (s : Processes τ LockProcess LockThread) : Prop :=
  ∑ u, readHolds (s.pc u) < 65536 ∧ ∀ t, writeDepth (s.pc t) < 65536

instance [Fintype τ] (s : Processes τ LockProcess LockThread) : Decidable (Bounded s) :=
  inferInstanceAs (Decidable (_ ∧ _))

/-- Thread ids are 16 bits wide and not zero. -/
theorem LThreadIds.card_lt [Fintype τ] (ids : LThreadIds τ) : Fintype.card τ < 65536 := by
  have hle := Fintype.card_le_of_injective
    (fun t => (⟨(ids.id t).toNat - 1, by have := ids.pos t; have := ids.lt t; omega⟩ : Fin 65535))
    fun t u h => by
      have hpred := congrArg Fin.val h
      have ht := ids.pos t
      have hu := ids.pos u
      dsimp only at hpred
      exact ids.injective (UInt32.toNat_inj.mp (by omega))
  rw [Fintype.card_fin] at hle
  omega

/-! ## The invariant -/

/-- What a position says about the guards. -/
def GuardsAt (held : List LockMode) : Option LockPc → Prop
  | some (.writeLock .recurse) => .write ∈ held ∧ .read ∉ held
  | some (.writeLock .count) => .write ∉ held ∧ .read ∉ held
  | some (.writeLock _) => .read ∉ held
  | some (.writeUnlock .store) => .write ∉ held ∧ .read ∉ held
  | some (.writeUnlock _) => .read ∉ held
  | some (.readLock .add) => .write ∈ held
  | some (.readLock (.exchange _ _ expected)) => expected.toNat < 65536
  | _ => True

/-- What a thread knows: below a write guard there are write guards only. -/
structure LockThread.WellFormed (p : LockThread) : Prop where
  lifo : p.held.Pairwise fun upper lower => upper = .write → lower = .write
  guards : GuardsAt p.held p.pc

/-- What `_writeCount` is when a thread writes. -/
def counted (p : LockThread) : ℕ := writeDepth p + pendingWrites p.pc

/-- The upper half of the flag. -/
def ownerId (ids : LThreadIds τ) : Option τ → ℕ
  | none => 0
  | some t => (ids.id t).toNat

/-- The invariant, when `owner` holds the lock for writing. -/
structure Owned [Fintype τ] (ids : LThreadIds τ) (owner : Option τ)
    (s : Processes τ LockProcess LockThread) : Prop where
  flag : s.shared.lock.lockFlag.toNat = ownerId ids owner * 65536 + ∑ u, readHolds (s.pc u)
  holds : ∀ t, HoldsWrite (s.pc t) ↔ owner = some t
  /-- Nobody reads while another writes. -/
  readers : ∀ t u, owner = some t → u ≠ t → readHolds (s.pc u) = 0
  free : owner = none → s.shared.lock.writeCount.toNat = 0
  count : ∀ t, owner = some t → s.shared.lock.writeCount.toNat = counted (s.pc t)
  threads : ∀ t, (s.pc t).WellFormed
  crash : s.shared.crash ≠ some .invalidUnlockOrder ∧ s.shared.crash ≠ some .multipleUnlock

section guards

variable {held : List LockMode}

/-- Below a write guard nobody reads. -/
theorem LockThread.WellFormed.not_read {pc : Option LockPc}
    (h : (⟨.write :: held, pc⟩ : LockThread).WellFormed) : LockMode.read ∉ held := fun hmem =>
  LockMode.noConfusion ((List.pairwise_cons.mp h.lifo).1 _ hmem rfl)

/-- A write guard may be put on write guards. -/
theorem lifo_write (h : held.Pairwise fun upper lower => upper = .write → lower = .write)
    (hread : .read ∉ held) :
    (LockMode.write :: held).Pairwise fun upper lower => upper = .write → lower = .write := by
  refine List.pairwise_cons.mpr ⟨fun mode hmem _ => ?_, h⟩
  cases mode with
  | read => exact absurd hmem hread
  | write => rfl

/-- A read guard may be put on anything. -/
theorem lifo_read (h : held.Pairwise fun upper lower => upper = .write → lower = .write) :
    (LockMode.read :: held).Pairwise fun upper lower => upper = .write → lower = .write :=
  List.pairwise_cons.mpr ⟨fun _ _ => LockMode.noConfusion, h⟩

theorem count_write_cons : (LockMode.read :: held).count .write = held.count .write :=
  List.count_cons_of_ne (by decide)

theorem count_read_cons : (LockMode.write :: held).count .read = held.count .read :=
  List.count_cons_of_ne (by decide)

theorem writeDepth_eq_zero {p : LockThread} (h : .write ∉ p.held) : writeDepth p = 0 :=
  List.count_eq_zero.mpr h

end guards

section step

variable [Fintype τ] [DecidableEq τ] {ids : LThreadIds τ} {owner : Option τ}
  {s : Processes τ LockProcess LockThread} {t : τ} {s' : LockProcess} {p' : LockThread}

theorem sum_readHolds (s : Processes τ LockProcess LockThread) (t : τ) (p' : LockThread) :
    ∑ u, readHolds (Function.update s.pc t p' u) + readHolds (s.pc t) =
      ∑ u, readHolds (s.pc u) + readHolds p' :=
  sum_of_moved readHolds s.pc t p'

omit [DecidableEq τ] in
theorem readHolds_le_sum (s : Processes τ LockProcess LockThread) (t : τ) :
    readHolds (s.pc t) ≤ ∑ u, readHolds (s.pc u) :=
  Finset.single_le_sum (f := fun u => readHolds (s.pc u)) (fun _ _ => Nat.zero_le _)
    (Finset.mem_univ t)

/-- The owner stays, and the thread that moves changes the word by what it changes its holds. -/
theorem Owned.move (h : Owned ids owner s)
    (hflag : s'.lock.lockFlag.toNat + readHolds (s.pc t) =
      s.shared.lock.lockFlag.toNat + readHolds p')
    (hholds : HoldsWrite p' ↔ HoldsWrite (s.pc t))
    (hreads : readHolds p' = 0 ∨ readHolds p' ≤ readHolds (s.pc t) ∨ owner = none ∨ owner = some t)
    (hother : owner ≠ some t → s'.lock.writeCount = s.shared.lock.writeCount)
    (hcount : owner = some t → s'.lock.writeCount.toNat = counted p')
    (hthread : p'.WellFormed)
    (hcrash : s'.crash ≠ some .invalidUnlockOrder ∧ s'.crash ≠ some .multipleUnlock) :
    Owned ids owner ⟨s', Function.update s.pc t p'⟩ where
  flag := by
    have hsum := sum_readHolds s t p'
    have hold := h.flag
    simp only
    omega
  holds := by
    rw [Function.forall_update_iff s.pc fun u q => HoldsWrite q ↔ owner = some u]
    exact ⟨hholds.trans (h.holds t), fun u _ => h.holds u⟩
  readers u v hu hv := by
    by_cases hvt : v = t
    · subst hvt
      simp only [Function.update_self]
      rcases hreads with hzero | hle | hnone | hself
      · exact hzero
      · exact Nat.le_zero.mp (hle.trans_eq (h.readers u v hu hv))
      · rw [hnone] at hu
        cases hu
      · rw [hself] at hu
        exact absurd (Option.some.inj hu) hv
    · simp only [Function.update_of_ne hvt]
      exact h.readers u v hu hv
  free hnone := by
    simp only [hother (by rw [hnone]; exact nofun)]
    exact h.free hnone
  count u hu := by
    by_cases hut : u = t
    · subst hut
      simp only [Function.update_self]
      exact hcount hu
    · simp only [Function.update_of_ne hut]
      rw [hother (fun hself => hut (Option.some.inj (hu.symm.trans hself)))]
      exact h.count u hu
  threads := by
    rw [Function.forall_update_iff s.pc fun _ q => q.WellFormed]
    exact ⟨hthread, fun u _ => h.threads u⟩
  crash := hcrash

/-- A step that changes neither the lock nor a hold. -/
theorem Owned.quiet (h : Owned ids owner s) (hlock : s'.lock = s.shared.lock)
    (hholds : HoldsWrite p' ↔ HoldsWrite (s.pc t)) (hreads : readHolds p' = readHolds (s.pc t))
    (hcount : counted p' = counted (s.pc t)) (hthread : p'.WellFormed)
    (hcrash : s'.crash ≠ some .invalidUnlockOrder ∧ s'.crash ≠ some .multipleUnlock) :
    Owned ids owner ⟨s', Function.update s.pc t p'⟩ :=
  h.move (by rw [hlock, hreads]) hholds (.inr (.inl hreads.le)) (fun _ => by rw [hlock])
    (fun hself => by rw [hlock, hcount]; exact h.count t hself) hthread hcrash

/-- The thread that moves takes the free lock for writing. -/
theorem Owned.acquire (h : Owned ids none s)
    (hsum : ∑ u, readHolds (s.pc u) = 0)
    (hflag : s'.lock.lockFlag.toNat = (ids.id t).toNat * 65536)
    (hwriteCount : s'.lock.writeCount = s.shared.lock.writeCount) (hholds : HoldsWrite p')
    (hreads : readHolds p' = readHolds (s.pc t)) (hcount : counted p' = 0)
    (hthread : p'.WellFormed)
    (hcrash : s'.crash ≠ some .invalidUnlockOrder ∧ s'.crash ≠ some .multipleUnlock) :
    Owned ids (some t) ⟨s', Function.update s.pc t p'⟩ where
  flag := by
    have hsame := sum_readHolds s t p'
    rw [hsum, hreads, Nat.add_right_cancel_iff] at hsame
    simp only [hflag, hsame, ownerId, Nat.add_zero]
  holds := by
    rw [Function.forall_update_iff s.pc fun u q => HoldsWrite q ↔ some t = some u]
    refine ⟨iff_of_true hholds rfl, fun u hu => iff_of_false (fun hwrite => ?_) fun heq => ?_⟩
    · exact nomatch (h.holds u).mp hwrite
    · exact hu (Option.some.inj heq).symm
  readers u v hu hv := by
    obtain rfl := Option.some.inj hu
    simp only [Function.update_of_ne hv]
    exact Nat.le_zero.mp ((readHolds_le_sum s v).trans_eq hsum)
  free := nofun
  count u hu := by
    obtain rfl := Option.some.inj hu
    simp only [Function.update_self, hcount, hwriteCount]
    exact h.free rfl
  threads := by
    rw [Function.forall_update_iff s.pc fun _ q => q.WellFormed]
    exact ⟨hthread, fun u _ => h.threads u⟩
  crash := hcrash

/-- The writer empties the word. -/
theorem Owned.release (h : Owned ids (some t) s)
    (hflag : s'.lock.lockFlag.toNat = 0)
    (hwriteCount : s'.lock.writeCount = s.shared.lock.writeCount)
    (hcount : counted (s.pc t) = 0) (hholds : ¬ HoldsWrite p') (hreads : readHolds p' = 0)
    (hthread : p'.WellFormed)
    (hcrash : s'.crash ≠ some .invalidUnlockOrder ∧ s'.crash ≠ some .multipleUnlock) :
    Owned ids none ⟨s', Function.update s.pc t p'⟩ where
  flag := by
    have hzero : ∀ u, readHolds (Function.update s.pc t p' u) = 0 := by
      rw [Function.forall_update_iff s.pc fun _ q => readHolds q = 0]
      exact ⟨hreads, fun u hu => h.readers t u rfl hu⟩
    simp only [hflag, ownerId, Finset.sum_eq_zero fun u _ => hzero u, Nat.zero_mul, Nat.add_zero]
  holds := by
    rw [Function.forall_update_iff s.pc fun u q => HoldsWrite q ↔ none = some u]
    refine ⟨iff_of_false hholds nofun, fun u hu => iff_of_false (fun hwrite => ?_) nofun⟩
    exact hu (Option.some.inj ((h.holds u).mp hwrite)).symm
  readers := nofun
  free _ := by
    simp only [hwriteCount, h.count t rfl, hcount]
  count := nofun
  threads := by
    rw [Function.forall_update_iff s.pc fun _ q => q.WellFormed]
    exact ⟨hthread, fun u _ => h.threads u⟩
  crash := hcrash

end step

/-! ## Steps -/

section cases

variable [Fintype τ] {ids : LThreadIds τ} {owner : Option τ}
  {s : Processes τ LockProcess LockThread} {t : τ} {held : List LockMode} {q : LockPc}
  {s' : LockProcess} {p' : LockThread} {now : UInt64}

/-- The two halves of the word. -/
theorem Owned.halves (h : Owned ids owner s) (hbound : Bounded s) :
    s.shared.lock.lockFlag.toNat / 65536 = ownerId ids owner ∧
      s.shared.lock.lockFlag.toNat % 65536 = ∑ u, readHolds (s.pc u) := by
  have hflag := h.flag
  have hlt := hbound.1
  omega

/-- The id in the word is that of the thread that moves just when it holds the lock for writing. -/
theorem Owned.lockThreadId (h : Owned ids owner s) (hbound : Bounded s) :
    s.shared.lock.lockThreadId = ids.id t ↔ owner = some t := by
  rw [← UInt32.toNat_inj, Lock.lockThreadId_toNat, (h.halves hbound).1]
  cases owner with
  | none => exact iff_of_false (ids.pos t).ne nofun
  | some u =>
      rw [ownerId, UInt32.toNat_inj, ids.injective.eq_iff, Option.some.injEq]

/-- A word with an empty upper half has no writer. -/
theorem Owned.of_lt (h : Owned ids owner s) (hlt : s.shared.lock.lockFlag.toNat < 65536) :
    owner = none := by
  have hflag := h.flag
  cases owner with
  | none => rfl
  | some u =>
      have hpos := ids.pos u
      rw [ownerId] at hflag
      omega

variable [DecidableEq τ]

/-- While a thread without read holds writes, there are no read holds. -/
theorem Owned.sum_eq_zero (h : Owned ids owner s) (howner : owner = some t)
    (hself : readHolds (s.pc t) = 0) : ∑ u, readHolds (s.pc u) = 0 := by
  refine Finset.sum_eq_zero fun u _ => ?_
  by_cases hu : u = t
  · exact hu ▸ hself
  · exact h.readers t u howner hu

/-- A thread that spins moves on without a trace. -/
theorem Owned.spin (h : Owned ids owner s) (hp : s.pc t = ⟨held, some q⟩) {q' : LockPc}
    (hreads : pendingReads (some q') = pendingReads (some q))
    (hcount : pendingWrites (some q') = pendingWrites (some q))
    (hwindow : WriteWindow (some q') ↔ WriteWindow (some q)) (hguards : GuardsAt held (some q')) :
    Owned ids owner ⟨s.shared, Function.update s.pc t ⟨held, some q'⟩⟩ := by
  have hthread := h.threads t
  rw [hp] at hthread
  refine h.quiet rfl ?_ ?_ ?_ ⟨hthread.lifo, hguards⟩ h.crash
  · rw [hp]
    exact or_congr Iff.rfl hwindow
  · rw [hp, readHolds, readHolds, hreads]
  · rw [hp, counted, counted, hcount, writeDepth, writeDepth]

/-- A thread that times out takes the program down and leaves the lock as it is. -/
theorem Owned.timeOut (h : Owned ids owner s) (hp : s.pc t = ⟨held, some q⟩) {cause : LockCrash}
    (hcause : cause = .writeLockTimeout ∨ cause = .readLockTimeout) :
    Owned ids owner ⟨⟨s.shared.lock, some cause⟩, Function.update s.pc t ⟨held, some q⟩⟩ := by
  rw [← hp]
  refine h.quiet rfl Iff.rfl rfl rfl (h.threads t) ?_
  rcases hcause with rfl | rfl <;> exact ⟨nofun, nofun⟩

omit τ [Fintype τ] [DecidableEq τ] in
/-- The count of a writer that nests deeper. -/
theorem writeCount_succ {writeCount : UInt16} (h : writeCount.toNat = held.count .write)
    (hlt : writeDepth ⟨.write :: held, none⟩ < 65536) :
    (writeCount + 1).toNat = counted ⟨.write :: held, none⟩ := by
  have hdepth : writeDepth ⟨.write :: held, none⟩ = held.count .write + 1 := List.count_cons_self
  rw [hdepth] at hlt
  rw [counted, hdepth, UInt16.toNat_add, h]
  exact Nat.mod_eq_of_lt hlt

/-- The step lemma of `WriteLock`. -/
theorem Owned.writeLock (h : Owned ids owner s) (hbound : Bounded s)
    {p : WriteLockPc} (hp : s.pc t = ⟨held, some (.writeLock p)⟩)
    (hstep : (s', p') =
      (LockPc.writeLock p).resume s.shared held (s.shared.lock.writeLockStep (ids.id t) now p))
    (hbound' : Bounded ⟨s', Function.update s.pc t p'⟩) :
    ∃ owner, Owned ids owner ⟨s', Function.update s.pc t p'⟩ := by
  have hthread := h.threads t
  have hholds := h.holds t
  have hcount := h.count t
  have hdepth : writeDepth p' < 65536 := by
    have hself := hbound'.2 t
    simpa only [Function.update_self] using hself
  rw [hp] at hthread hholds hcount
  have hguards := hthread.guards
  cases p with
  | load =>
      cases hstep
      refine ⟨owner, ?_⟩
      by_cases hid : s.shared.lock.lockThreadId = ids.id t
      · rw [if_pos hid]
        have hwrite := (hholds.mpr ((h.lockThreadId hbound).mp hid)).resolve_right id
        exact h.spin hp rfl rfl Iff.rfl ⟨hwrite, hguards⟩
      · rw [if_neg hid]
        exact h.spin hp rfl rfl Iff.rfl hguards
  | recurse =>
      cases hstep
      have howner := hholds.mp (.inl hguards.1)
      refine ⟨owner, h.move ?_ ?_ (.inr (.inr (.inr howner))) (absurd howner) (fun _ => ?_)
        ⟨lifo_write hthread.lifo hguards.2, trivial⟩ h.crash⟩
      · rw [hp]
        rfl
      · rw [hp]
        exact iff_of_true (.inl List.mem_cons_self) (.inl hguards.1)
      · exact writeCount_succ (hcount howner) hdepth
  | tick =>
      cases hstep
      exact ⟨owner, h.spin hp rfl rfl Iff.rfl hguards⟩
  | exchange beingTick spinCount =>
      simp only [Lock.writeLockStep] at hstep
      split at hstep
      · rename_i hempty
        cases hstep
        have hflag : s.shared.lock.lockFlag.toNat = 0 := by
          rw [hempty]
          rfl
        obtain rfl := h.of_lt (hflag.trans_lt (by omega))
        have hsum : ∑ u, readHolds (s.pc u) = 0 := by
          have hword := h.flag
          rw [hflag, ownerId] at hword
          omega
        have hwrite : .write ∉ held := fun hmem => nomatch hholds.mp (.inl hmem)
        refine ⟨some t, h.acquire hsum (desiredFlag_toNat (ids.lt t)) rfl (.inr trivial) ?_
          (writeDepth_eq_zero hwrite) ⟨hthread.lifo, hwrite, hguards⟩ h.crash⟩
        rw [hp]
        rfl
      · cases hstep
        refine ⟨owner, ?_⟩
        split <;> exact h.spin hp rfl rfl Iff.rfl hguards
  | count =>
      cases hstep
      have howner := hholds.mp (.inr trivial)
      refine ⟨owner, h.move ?_ ?_ (.inr (.inr (.inr howner))) (absurd howner) (fun _ => ?_)
        ⟨lifo_write hthread.lifo hguards.2, trivial⟩ h.crash⟩
      · rw [hp]
        rfl
      · rw [hp]
        exact iff_of_true (.inl List.mem_cons_self) (.inr trivial)
      · exact writeCount_succ (hcount howner) hdepth
  | timeout beingTick =>
      simp only [Lock.writeLockStep] at hstep
      split at hstep
      · cases hstep
        exact ⟨owner, h.timeOut hp (.inl rfl)⟩
      · cases hstep
        exact ⟨owner, h.spin hp rfl rfl Iff.rfl hguards⟩

/-- The step lemma of `WriteUnlock`. -/
theorem Owned.writeUnlock (h : Owned ids owner s) (hbound : Bounded s)
    {p : WriteUnlockPc} (hp : s.pc t = ⟨held, some (.writeUnlock p)⟩)
    (hstep : (s', p') =
      (LockPc.writeUnlock p).resume s.shared held (s.shared.lock.writeUnlockStep p)) :
    ∃ owner, Owned ids owner ⟨s', Function.update s.pc t p'⟩ := by
  have hthread := h.threads t
  have hholds := h.holds t
  rw [hp] at hthread hholds
  have howner := hholds.mp (.inr trivial)
  have hcount := h.count t howner
  rw [hp] at hcount
  have hguards := hthread.guards
  cases p with
  | load =>
      simp only [Lock.writeUnlockStep] at hstep
      split at hstep
      · -- nobody reads while this thread writes
        rename_i hreads
        have hself : readHolds (s.pc t) = 0 := by
          rw [hp]
          exact List.count_eq_zero.mpr hguards
        have hzero : s.shared.lock.readCount.toNat = 0 := by
          rw [Lock.readCount_toNat, (h.halves hbound).2, h.sum_eq_zero howner hself]
        exact absurd (UInt32.toNat_inj.mp hzero) hreads
      · cases hstep
        exact ⟨owner, h.spin hp rfl rfl Iff.rfl hguards⟩
  | count =>
      have hpred : (s.shared.lock.writeCount - 1).toNat = held.count .write := by
        have hle : (1 : UInt16) ≤ s.shared.lock.writeCount := by
          rw [UInt16.le_iff_toNat_le, hcount]
          exact Nat.le_add_left 1 _
        rw [UInt16.toNat_sub_of_le _ _ hle, hcount]
        exact Nat.add_sub_cancel (held.count .write) 1
      simp only [Lock.writeUnlockStep] at hstep
      split at hstep
      · rename_i hzero
        cases hstep
        have hwrite : .write ∉ held := by
          rw [hzero] at hpred
          exact List.count_eq_zero.mp hpred.symm
        refine ⟨owner, h.move ?_ ?_ (.inr (.inr (.inr howner))) (absurd howner) (fun _ => hpred)
          ⟨hthread.lifo, hwrite, hguards⟩ h.crash⟩
        · rw [hp]
          rfl
        · rw [hp]
          exact Iff.rfl
      · rename_i hne
        cases hstep
        have hwrite : .write ∈ held := by
          by_contra hmem
          rw [List.count_eq_zero.mpr hmem] at hpred
          exact hne (UInt16.toNat_inj.mp hpred)
        refine ⟨owner, h.move ?_ ?_ (.inr (.inr (.inr howner))) (absurd howner) (fun _ => hpred)
          ⟨hthread.lifo, trivial⟩ h.crash⟩
        · rw [hp]
          rfl
        · rw [hp]
          exact iff_of_true (.inl hwrite) (.inr trivial)
  | store =>
      cases hstep
      subst howner
      have hreads : held.count .read = 0 := List.count_eq_zero.mpr hguards.2
      refine ⟨none, h.release rfl rfl ?_ (fun hwrite => ?_) hreads ⟨hthread.lifo, trivial⟩ h.crash⟩
      · rw [hp]
        exact List.count_eq_zero.mpr hguards.1
      · exact hwrite.elim hguards.1 id

omit τ [Fintype τ] [DecidableEq τ] in
/-- A read guard adds a read hold. -/
theorem readHolds_cons : readHolds ⟨.read :: held, none⟩ = held.count .read + 1 := by
  simp only [readHolds, pendingReads, List.count_cons_self, Nat.add_zero]

/-- A thread that writes, or one that finds no writer, gets a read hold. -/
theorem Owned.read (h : Owned ids owner s) {p : ReadLockPc}
    (hp : s.pc t = ⟨held, some (.readLock p)⟩) (howner : owner = none ∨ owner = some t)
    (hbound' : Bounded ⟨{ s.shared with
        lock := { s.shared.lock with lockFlag := s.shared.lock.lockFlag + 1 } },
      Function.update s.pc t ⟨.read :: held, none⟩⟩) :
    Owned ids owner ⟨{ s.shared with
        lock := { s.shared.lock with lockFlag := s.shared.lock.lockFlag + 1 } },
      Function.update s.pc t ⟨.read :: held, none⟩⟩ := by
  have hthread := h.threads t
  have hcount := h.count t
  have hsum := sum_readHolds s t ⟨.read :: held, none⟩
  have hflag := h.flag
  have hlt := hbound'.1
  have hself : readHolds (s.pc t) = held.count .read := by
    rw [hp]
    rfl
  rw [hp] at hthread hcount
  rw [hself, readHolds_cons] at hsum
  refine h.move ?_ ?_ (.inr (.inr howner)) (fun _ => rfl) (fun hown => ?_)
    ⟨lifo_read hthread.lifo, trivial⟩ h.crash
  · -- the lower half has room
    have hid : ownerId ids owner < 65536 := by
      cases owner with
      | none => exact Nat.zero_lt_succ _
      | some u => exact ids.lt u
    have hroom : s.shared.lock.lockFlag.toNat + 1 < 2 ^ 32 := by
      simp only at hlt
      omega
    have hone : (1 : UInt32).toNat = 1 := rfl
    rw [hself, readHolds_cons, UInt32.toNat_add, hone, Nat.mod_eq_of_lt hroom]
    omega
  · rw [hp]
    exact or_congr (List.mem_cons.trans (or_iff_right LockMode.noConfusion)) Iff.rfl
  · rw [hcount hown]
    exact count_write_cons.symm

/-- The step lemma of `ReadLock`. -/
theorem Owned.readLock (h : Owned ids owner s) (hbound : Bounded s)
    {p : ReadLockPc} (hp : s.pc t = ⟨held, some (.readLock p)⟩)
    (hstep : (s', p') =
      (LockPc.readLock p).resume s.shared held (s.shared.lock.readLockStep (ids.id t) now p))
    (hbound' : Bounded ⟨s', Function.update s.pc t p'⟩) :
    ∃ owner, Owned ids owner ⟨s', Function.update s.pc t p'⟩ := by
  have hholds := h.holds t
  have hguards := (h.threads t).guards
  rw [hp] at hholds hguards
  cases p with
  | load =>
      cases hstep
      refine ⟨owner, ?_⟩
      by_cases hid : s.shared.lock.lockThreadId = ids.id t
      · rw [if_pos hid]
        have hwrite := (hholds.mpr ((h.lockThreadId hbound).mp hid)).resolve_right id
        exact h.spin hp rfl rfl Iff.rfl hwrite
      · rw [if_neg hid]
        exact h.spin hp rfl rfl Iff.rfl trivial
  | add =>
      cases hstep
      exact ⟨owner, h.read hp (.inr (hholds.mp (.inl hguards))) hbound'⟩
  | tick =>
      cases hstep
      exact ⟨owner, h.spin hp rfl rfl Iff.rfl trivial⟩
  | loadCount beingTick spinCount =>
      cases hstep
      refine ⟨owner, h.spin hp rfl rfl Iff.rfl ?_⟩
      show s.shared.lock.readCount.toNat < 65536
      rw [Lock.readCount_toNat]
      exact Nat.mod_lt _ (by omega)
  | exchange beingTick spinCount expected =>
      simp only [Lock.readLockStep] at hstep
      split at hstep
      · rename_i hexpected
        subst hexpected
        cases hstep
        exact ⟨owner, h.read hp (.inl (h.of_lt hguards)) hbound'⟩
      · cases hstep
        refine ⟨owner, ?_⟩
        split <;> exact h.spin hp rfl rfl Iff.rfl trivial
  | timeout beingTick =>
      simp only [Lock.readLockStep] at hstep
      split at hstep
      · cases hstep
        exact ⟨owner, h.timeOut hp (.inr rfl)⟩
      · cases hstep
        exact ⟨owner, h.spin hp rfl rfl Iff.rfl trivial⟩

/-- The step lemma of `ReadUnlock`. -/
theorem Owned.readUnlock (h : Owned ids owner s) (hbound : Bounded s)
    (hp : s.pc t = ⟨held, some .readUnlock⟩)
    (hstep : (s', p') = LockPc.readUnlock.resume s.shared held s.shared.lock.readUnlockStep) :
    ∃ owner, Owned ids owner ⟨s', Function.update s.pc t p'⟩ := by
  have hthread := h.threads t
  have hcount := h.count t
  have hself : readHolds (s.pc t) = held.count .read + 1 := by
    rw [hp]
    rfl
  have hpos : 0 < ∑ u, readHolds (s.pc u) :=
    Nat.lt_of_lt_of_le (hself ▸ Nat.succ_pos _) (readHolds_le_sum s t)
  rw [hp] at hthread hcount
  simp only [Lock.readUnlockStep] at hstep
  split at hstep
  · -- the read hold of this thread is counted
    rename_i hzero
    have hreads : s.shared.lock.readCount.toNat = 0 := by
      rw [hzero]
      rfl
    rw [Lock.readCount_toNat, (h.halves hbound).2] at hreads
    omega
  · cases hstep
    have hread : readHolds ⟨LockPc.readUnlock.returned held, none⟩ = held.count .read := rfl
    refine ⟨owner, h.move ?_ ?_ (.inr (.inl ?_)) (fun _ => rfl) (fun hown => ?_)
      ⟨hthread.lifo, trivial⟩ h.crash⟩
    · have hle : (1 : UInt32) ≤ s.shared.lock.lockFlag := by
        rw [UInt32.le_iff_toNat_le, h.flag]
        exact Nat.le_add_left_of_le hpos
      have hpred := UInt32.toNat_sub_of_le _ _ hle
      rw [UInt32.le_iff_toNat_le] at hle
      have hone : (1 : UInt32).toNat = 1 := rfl
      rw [hself, hread]
      show (s.shared.lock.lockFlag - 1).toNat + (held.count .read + 1) = _
      rw [hpred]
      omega
    · rw [hp]
      exact Iff.rfl
    · rw [hself]
      exact Nat.le_succ _
    · exact hcount hown

/-- **The step lemma.** A step between two states within the bounds keeps the invariant. -/
theorem Owned.step (h : Owned ids owner s) (hbound : Bounded s) {k : LockChoice} {o : Unit}
    (hact : lockAct ids t s.shared (s.pc t) k = some (s', p', o))
    (hbound' : Bounded ⟨s', Function.update s.pc t p'⟩) :
    ∃ owner, Owned ids owner ⟨s', Function.update s.pc t p'⟩ := by
  have hthread := h.threads t
  obtain ⟨-, ⟨mode, held, hp, hmode, rfl, rfl⟩ | ⟨mode, held, hp, rfl, rfl⟩ | ⟨q, held, now, hp, hstep⟩⟩ :=
    lockAct_eq_some hact
  · -- a guard is constructed
    rw [hp] at hthread
    refine ⟨owner, h.quiet rfl ?_ ?_ ?_ ⟨hthread.lifo, ?_⟩ h.crash⟩
    · rw [hp]
      cases mode <;> exact Iff.rfl
    · rw [hp]
      cases mode <;> rfl
    · rw [hp]
      cases mode <;> rfl
    · cases mode with
      | read => trivial
      | write => exact fun hread => hmode ⟨rfl, hread⟩
  · -- the last guard is destroyed
    rw [hp] at hthread
    have hlifo := (List.pairwise_cons.mp hthread.lifo).2
    cases mode with
    | read =>
        refine ⟨owner, h.quiet rfl ?_ ?_ ?_ ⟨hlifo, trivial⟩ h.crash⟩
        · rw [hp]
          exact or_congr (List.mem_cons.trans (or_iff_right LockMode.noConfusion)).symm Iff.rfl
        · rw [hp, readHolds_cons]
          rfl
        · rw [hp]
          exact count_write_cons.symm
    | write =>
        refine ⟨owner, h.quiet rfl ?_ ?_ ?_ ⟨hlifo, hthread.not_read⟩ h.crash⟩
        · rw [hp]
          exact iff_of_true (.inr trivial) (.inl List.mem_cons_self)
        · rw [hp]
          exact count_read_cons.symm
        · rw [hp]
          exact List.count_cons_self.symm
  · -- a step in a function
    cases q with
    | writeLock p => exact h.writeLock hbound hp hstep hbound'
    | writeUnlock p => exact h.writeUnlock hbound hp hstep
    | readLock p => exact h.readLock hbound hp hstep hbound'
    | readUnlock => exact h.readUnlock hbound hp hstep

end cases

/-! ## Runs -/

section runs

variable [Fintype τ] [DecidableEq τ] (ids : LThreadIds τ)

/-- The invariant holds in every run within the bounds. -/
theorem owned_run (events : List (τ × LockChoice))
    (hbound : ∀ e ∈ (lockThreads ids).trace (lockInit τ) events, Bounded e.after) :
    Bounded ((lockThreads ids).exec (lockInit τ) events) ∧
      ∃ owner, Owned ids owner ((lockThreads ids).exec (lockInit τ) events) := by
  refine (lockThreads ids).guarded_invariant
    (I := fun s => Bounded s ∧ ∃ owner, Owned ids owner s) ?_ ?_ events hbound
  · have hreads : ∑ u, readHolds ((lockInit τ).pc u) = 0 := Finset.sum_eq_zero fun _ _ => rfl
    refine ⟨⟨hreads.trans_lt (Nat.zero_lt_succ _), fun _ => Nat.zero_lt_succ _⟩, none, ?_⟩
    refine ⟨?_, fun _ => iff_of_false ?_ nofun, nofun, fun _ => rfl, nofun, fun _ => ?_, nofun, nofun⟩
    · rw [hreads, ownerId, Nat.zero_mul]
      rfl
    · exact fun hwrite => hwrite.elim List.not_mem_nil id
    · exact ⟨List.Pairwise.nil, trivial⟩
  · rintro s ⟨t, k⟩ ⟨hbefore, owner, h⟩ hafter
    refine ⟨hafter, ?_⟩
    rcases hact : lockAct ids t s.shared (s.pc t) k with _ | ⟨s', p', o⟩
    · rw [lockThreads, interleave_step_of_none hact]
      exact ⟨owner, h⟩
    · rw [Transducer.entry_after, lockThreads, interleave_step_of_some hact] at hafter
      rw [lockThreads, interleave_step_of_some hact]
      exact h.step hbefore hact hafter

/-- In every state of every run within the bounds: the upper half of `_lockFlag` is the id of the
thread that holds the lock for writing, or 0; the lower half is the number of read holds;
`_writeCount` is the nesting of the writer, outside the windows; nobody holds while another writes;
and the lock has not crashed for a wrong release. -/
theorem lock_correct (events : List (τ × LockChoice))
    (hbound : ∀ e ∈ (lockThreads ids).trace (lockInit τ) events, Bounded e.after) :
    let s := (lockThreads ids).exec (lockInit τ) events
    (∀ t, HoldsWrite (s.pc t) → s.shared.lock.lockFlag.toNat / 65536 = (ids.id t).toNat) ∧
      ((∀ t, ¬ HoldsWrite (s.pc t)) → s.shared.lock.lockFlag.toNat / 65536 = 0) ∧
      s.shared.lock.lockFlag.toNat % 65536 = ∑ t, readHolds (s.pc t) ∧
      (∀ t, HoldsWrite (s.pc t) → ¬ WriteWindow (s.pc t).pc →
        s.shared.lock.writeCount.toNat = writeDepth (s.pc t)) ∧
      ((∀ t, ¬ HoldsWrite (s.pc t)) → s.shared.lock.writeCount.toNat = 0) ∧
      (∀ t u, t ≠ u → HoldsWrite (s.pc t) → ¬ HoldsWrite (s.pc u) ∧ readHolds (s.pc u) = 0) ∧
      s.shared.crash ≠ some .invalidUnlockOrder ∧ s.shared.crash ≠ some .multipleUnlock := by
  intro s
  obtain ⟨hbounded, owner, h⟩ := owned_run ids events hbound
  obtain ⟨hupper, hlower⟩ := h.halves hbounded
  have hnone : (∀ t, ¬ HoldsWrite (s.pc t)) → owner = none := by
    intro hfree
    rcases howner : owner with _ | t
    · rfl
    · exact absurd ((h.holds t).mpr howner) (hfree t)
  refine ⟨fun t ht => ?_, fun hfree => ?_, hlower, fun t ht hwindow => ?_, fun hfree => ?_,
    fun t u hne ht => ⟨fun hu => ?_, ?_⟩, h.crash⟩
  · rw [hupper, (h.holds t).mp ht, ownerId]
  · rw [hupper, hnone hfree, ownerId]
  · rw [h.count t ((h.holds t).mp ht), counted]
    have hpending : pendingWrites (s.pc t).pc = 0 := by
      generalize (s.pc t).pc = pc at hwindow
      rcases pc with _ | q
      · rfl
      · cases q with
        | writeUnlock p => exact absurd trivial hwindow
        | writeLock p => rfl
        | readLock p => rfl
        | readUnlock => rfl
    exact Nat.add_eq_left.mpr hpending
  · exact h.free (hnone hfree)
  · exact hne (Option.some.inj (((h.holds t).mp ht).symm.trans ((h.holds u).mp hu)))
  · exact h.readers t u ((h.holds t).mp ht) (Ne.symm hne)

end runs

open LockChoice in
/-- The first thread writes and reads below; the second one waits. -/
def writeReadRun : List (Bool × LockChoice) :=
  [(false, lock .write)] ++ List.replicate 4 (false, next 0) ++ [(true, lock .read)] ++
    List.replicate 3 (true, next 0) ++ [(false, lock .read)] ++ List.replicate 2 (false, next 0)

theorem lock_correct_writeReadRun :
    (∀ e ∈ (lockThreads twoThreadIds).trace (lockInit Bool) writeReadRun, Bounded e.after) ∧
      HoldsWrite (((lockThreads twoThreadIds).exec (lockInit Bool) writeReadRun).pc false) ∧
      ((lockThreads twoThreadIds).exec (lockInit Bool) writeReadRun).shared.lock.lockFlag.toNat %
          65536 =
        ∑ t, readHolds (((lockThreads twoThreadIds).exec (lockInit Bool) writeReadRun).pc t) := by
  have hbound : ∀ e ∈ (lockThreads twoThreadIds).trace (lockInit Bool) writeReadRun,
      Bounded e.after := by
    decide +kernel
  exact ⟨hbound, .inl (by decide +kernel), (lock_correct twoThreadIds writeReadRun hbound).2.2.1⟩

end CowboyPoker.ServerCore
