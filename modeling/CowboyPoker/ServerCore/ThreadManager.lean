import CowboyPoker.Found.Transducer
import CowboyPoker.ServerCore.Lock

/-!
# `ThreadManager`: the ids of the threads

Every thread takes its `LThreadId` from a counter of 32 bits that only grows. The word of a lock has 16
bits for the id of its writer.

* `ThreadManager`, `threadManager` — the threads that were launched, and what happens to them.
* `Distinguishable` — what a lock needs of the ids of the threads that run.
* `Numbered` — the threads that run have different ids, up to the number of those that ever started.
* `distinguishable_iff` — the ids can be told apart throughout a run exactly when no more than `65534`
  threads are started in it besides the main thread.
-/

namespace CowboyPoker.ServerCore

open CowboyPoker.Found

/-! ## The threads -/

/-- Where a thread is in its life. -/
inductive ThreadPhase
  /-- It does not exist. -/
  | unlaunched
  /-- `Launch` has made it, and it is about to call `InitTLS`. -/
  | launched
  /-- It is behind `InitTLS`: it runs its callback, or it is the main thread. -/
  | running
  /-- It is behind `DestroyTLS`. -/
  | finished
  deriving DecidableEq

/-- The threads of the process; the main thread is number `0`, and `Launch` numbers the others.
Source: `ServerCore/ThreadManager.h`, `ThreadManager` -/
structure ThreadManager where
  /-- The number of threads that `Launch` has put in `_threads`. -/
  threads : ℕ
  /-- `SThreadId` of `InitTLS`. -/
  sThreadId : UInt32
  /-- `LThreadId` of each thread. -/
  lThreadId : ℕ → UInt32
  /-- Where each thread is. -/
  phase : ℕ → ThreadPhase

/-- What happens to the threads. -/
inductive ThreadEvent
  /-- A thread calls `Launch`. -/
  | launch
  /-- A thread that was launched calls `InitTLS`. -/
  | initTLS (t : ℕ)
  /-- A thread comes to its end. -/
  | finish (t : ℕ)
  deriving DecidableEq

namespace ThreadManager

/-- `InitTLS` in the thread `t`; the addition is that of an `Atomic<uint32>`.
Source: `ServerCore/ThreadManager.cpp`, `ThreadManager::InitTLS` -/
def initTLS (m : ThreadManager) (t : ℕ) : ThreadManager :=
  { m with
    lThreadId := Function.update m.lThreadId t m.sThreadId
    sThreadId := m.sThreadId + 1
    phase := Function.update m.phase t .running }

@[simp] theorem initTLS_phase_self (m : ThreadManager) (t : ℕ) : (m.initTLS t).phase t = .running :=
  Function.update_self _ _ _

@[simp] theorem initTLS_lThreadId_self (m : ThreadManager) (t : ℕ) :
    (m.initTLS t).lThreadId t = m.sThreadId := Function.update_self _ _ _

theorem initTLS_phase_of_ne (m : ThreadManager) {t u : ℕ} (h : u ≠ t) :
    (m.initTLS t).phase u = m.phase u := Function.update_of_ne h _ _

theorem initTLS_lThreadId_of_ne (m : ThreadManager) {t u : ℕ} (h : u ≠ t) :
    (m.initTLS t).lThreadId u = m.lThreadId u := Function.update_of_ne h _ _

/-- The thread manager that the main thread has constructed.
Source: `ServerCore/ThreadManager.cpp`, `ThreadManager::ThreadManager` -/
def init : ThreadManager :=
  initTLS ⟨0, 1, fun _ => 0, fun _ => .unlaunched⟩ 0

/-- What happens to the threads.
Source: `ServerCore/ThreadManager.cpp`, `ThreadManager::Launch` -/
def step (m : ThreadManager) : ThreadEvent → ThreadManager
  | .launch =>
      { m with
        threads := m.threads + 1
        phase := Function.update m.phase (m.threads + 1) .launched }
  | .initTLS t => if m.phase t = .launched then m.initTLS t else m
  | .finish t =>
      if m.phase t = .running then { m with phase := Function.update m.phase t .finished } else m

end ThreadManager

/-- The threads as a machine. -/
def threadManager : Transducer ThreadManager ThreadEvent Unit where
  step m e := (m.step e, ())

/-- A thread that was launched starts. -/
def starts (t : Entry ThreadManager ThreadEvent Unit) : Bool :=
  match t.input with
  | .launch => false
  | .initTLS u => t.before.phase u = .launched
  | .finish _ => false

/-- How many threads were started, besides the main thread. -/
def threadsStarted (h : List (Entry ThreadManager ThreadEvent Unit)) : ℕ := h.countP starts

/-! ## What the locks need -/

/-- The threads that run can be told apart by the word of a lock. -/
structure Distinguishable (m : ThreadManager) : Prop where
  /-- No encoding is that of a free lock. -/
  nonzero : ∀ t, m.phase t = .running → desiredFlag (m.lThreadId t) ≠ 0
  /-- Different threads have different encodings. -/
  distinct : ∀ t u, m.phase t = .running → m.phase u = .running → t ≠ u →
    desiredFlag (m.lThreadId t) ≠ desiredFlag (m.lThreadId u)
  /-- The upper half of the encoding is the id. -/
  decodes : ∀ t, m.phase t = .running → desiredFlag (m.lThreadId t) >>> 16 = m.lThreadId t
  /-- On a lock that `u` has acquired for writing, whatever it reads besides, the test of `WriteLock` and
  `ReadLock` is true for `u` and for no other thread. -/
  owner : ∀ t u, m.phase t = .running → m.phase u = .running → ∀ (l : Lock) (reads : UInt32),
    reads.toNat < 65536 → l.lockFlag = desiredFlag (m.lThreadId u) + reads →
      (l.lockThreadId = m.lThreadId t ↔ t = u)
  /-- On a lock that nobody has acquired for writing it is true for no thread. -/
  unowned : ∀ t, m.phase t = .running → ∀ l : Lock, l.lockFlag.toNat < 65536 →
    l.lockThreadId ≠ m.lThreadId t

/-! ## The numbers -/

/-- After `n` threads were started, the ids of those that run are different and come from `1` to
`n + 1`. -/
structure Numbered (n : ℕ) (m : ThreadManager) : Prop where
  /-- The next id. -/
  next : m.sThreadId.toNat = n + 2
  /-- Ids start at one. -/
  pos : ∀ t, m.phase t = .running → 0 < (m.lThreadId t).toNat
  /-- No id was given out that is not below the next. -/
  le : ∀ t, m.phase t = .running → (m.lThreadId t).toNat ≤ n + 1
  /-- No two threads that run have the same id. -/
  injective : ∀ t u, m.phase t = .running → m.phase u = .running → m.lThreadId t = m.lThreadId u → t = u

section Numbered

variable {n : ℕ} {m : ThreadManager} {t : ℕ}

/-- The word that a writer has stored, with its reads. -/
theorem lockThreadId_of_word {l : Lock} {lThreadId reads : UInt32} (hid : lThreadId.toNat < 65536)
    (hreads : reads.toNat < 65536) (hword : l.lockFlag = desiredFlag lThreadId + reads) :
    l.lockThreadId = lThreadId := by
  apply UInt32.toNat_inj.mp
  rw [Lock.lockThreadId_toNat, hword, UInt32.toNat_add, desiredFlag_toNat hid,
    Nat.mod_eq_of_lt (by omega)]
  omega

/-- As long as the ids fit into 16 bits they can be told apart. -/
theorem Numbered.distinguishable (h : Numbered n m) (hn : n ≤ 65534) : Distinguishable m := by
  have hlt : ∀ t, m.phase t = .running → (m.lThreadId t).toNat < 65536 := by
    intro t ht
    have hle := h.le t ht
    omega
  constructor
  case nonzero =>
    intro t ht hzero
    have hpos := h.pos t ht
    have hflag := desiredFlag_toNat (hlt t ht)
    rw [hzero] at hflag
    change 0 = _ at hflag
    omega
  case distinct =>
    intro t u ht hu hne heq
    have htflag := desiredFlag_toNat (hlt t ht)
    have huflag := desiredFlag_toNat (hlt u hu)
    rw [heq] at htflag
    exact hne (h.injective t u ht hu (UInt32.toNat_inj.mp (by omega)))
  case decodes =>
    intro t ht
    have h16 : (16 : UInt32).toNat % 32 = 16 := by decide
    apply UInt32.toNat_inj.mp
    rw [UInt32.toNat_shiftRight, desiredFlag_toNat (hlt t ht), h16, Nat.shiftRight_eq_div_pow]
    omega
  case owner =>
    intro t u ht hu l reads hreads hword
    rw [lockThreadId_of_word (hlt u hu) hreads hword]
    exact ⟨fun heq => (h.injective u t hu ht heq).symm, fun heq => heq ▸ rfl⟩
  case unowned =>
    intro t ht l hflag heq
    have hpos := h.pos t ht
    have hdiv := l.lockThreadId_toNat
    rw [heq] at hdiv
    omega

/-- The main thread has the id one. -/
theorem numbered_init : Numbered 0 ThreadManager.init := by
  have hmain : ∀ t, ThreadManager.init.phase t = .running → t = 0 := by
    intro t ht
    by_contra hne
    rw [ThreadManager.init, ThreadManager.initTLS_phase_of_ne _ hne] at ht
    cases ht
  constructor
  case next => decide
  case pos =>
    intro t ht
    rw [hmain t ht]
    decide
  case le =>
    intro t ht
    rw [hmain t ht]
    decide
  case injective =>
    intro t u ht hu _
    rw [hmain t ht, hmain u hu]

/-- The next thread gets the next id. -/
theorem Numbered.initTLS (h : Numbered n m) (hn : n ≤ 65534) :
    Numbered (n + 1) (m.initTLS t) := by
  have hold : ∀ u, (m.initTLS t).phase u = .running → u ≠ t →
      m.phase u = .running ∧ (m.initTLS t).lThreadId u = m.lThreadId u := by
    intro u hu hne
    rw [m.initTLS_phase_of_ne hne] at hu
    exact ⟨hu, m.initTLS_lThreadId_of_ne hne⟩
  have hnew := m.initTLS_lThreadId_self t
  have hnext := h.next
  -- an id that was given out is not the next
  have hfresh : ∀ u, (m.initTLS t).phase u = .running → u ≠ t →
      (m.initTLS t).lThreadId u ≠ (m.initTLS t).lThreadId t := by
    intro u hu hne heq
    obtain ⟨hrun, hid⟩ := hold u hu hne
    have hle := h.le u hrun
    rw [hid, hnew] at heq
    rw [heq] at hle
    omega
  constructor
  case next =>
    show (m.sThreadId + 1).toNat = n + 1 + 2
    rw [UInt32.toNat_add, hnext]
    change (n + 2 + 1) % 2 ^ 32 = _
    omega
  case pos =>
    intro u hu
    by_cases hne : u = t
    · rw [hne, hnew]
      omega
    · obtain ⟨hrun, hid⟩ := hold u hu hne
      rw [hid]
      exact h.pos u hrun
  case le =>
    intro u hu
    by_cases hne : u = t
    · rw [hne, hnew]
      omega
    · obtain ⟨hrun, hid⟩ := hold u hu hne
      have hle := h.le u hrun
      rw [hid]
      omega
  case injective =>
    intro u v hu hv heq
    by_cases hut : u = t
    · by_contra hne
      rw [hut] at heq hne
      exact hfresh v hv (fun h => hne h.symm) heq.symm
    · by_cases hvt : v = t
      · rw [hvt] at heq
        exact absurd heq (hfresh u hu hut)
      · obtain ⟨hru, hidu⟩ := hold u hu hut
        obtain ⟨hrv, hidv⟩ := hold v hv hvt
        rw [hidu, hidv] at heq
        exact h.injective u v hru hrv heq

/-- Where no thread begins to run, the numbers stay as they are. -/
theorem Numbered.mono {m' : ThreadManager} (h : Numbered n m) (hnext : m'.sThreadId = m.sThreadId)
    (hid : m'.lThreadId = m.lThreadId) (hphase : ∀ t, m'.phase t = .running → m.phase t = .running) :
    Numbered n m' where
  next := hnext ▸ h.next
  pos t ht := hid ▸ h.pos t (hphase t ht)
  le t ht := hid ▸ h.le t (hphase t ht)
  injective t u ht hu := hid ▸ h.injective t u (hphase t ht) (hphase u hu)

/-- A phase that is not `running` is given to one thread. -/
theorem running_of_update {phase : ℕ → ThreadPhase} {p : ThreadPhase} (hp : p ≠ .running) {u : ℕ}
    (h : Function.update phase t p u = .running) : phase u = .running := by
  by_cases hne : u = t
  · rw [hne, Function.update_self] at h
    exact absurd h hp
  · rwa [Function.update_of_ne hne] at h

/-- **A step** of the threads: one that starts takes the next id, anything else leaves the ids alone. -/
theorem Numbered.step (h : Numbered n m) (hn : n ≤ 65534) (e : ThreadEvent) :
    Numbered (n + (if starts (threadManager.entry m e) then 1 else 0)) (m.step e) := by
  cases e with
  | launch => exact h.mono rfl rfl fun u hu => running_of_update (p := .launched) nofun hu
  | initTLS t =>
      by_cases hphase : m.phase t = .launched
      · have hstarts : starts (threadManager.entry m (.initTLS t)) = true := by
          simp only [starts, Transducer.entry_input, Transducer.entry_before, hphase, decide_true]
        rw [hstarts, if_pos rfl, ThreadManager.step, if_pos hphase]
        exact h.initTLS hn
      · have hstarts : starts (threadManager.entry m (.initTLS t)) = false := by
          simp only [starts, Transducer.entry_input, Transducer.entry_before, hphase, decide_false]
        rw [hstarts, ThreadManager.step, if_neg hphase]
        exact h
  | finish t =>
      show Numbered n _
      rw [ThreadManager.step]
      split
      · exact h.mono rfl rfl fun u hu => running_of_update (p := .finished) nofun hu
      · exact h

/-- The thread that is started when all ids of 16 bits are given out gets one that encodes to zero. -/
theorem Numbered.not_distinguishable (h : Numbered 65534 m) {e : ThreadEvent}
    (hstarts : starts (threadManager.entry m e)) : ¬ Distinguishable (m.step e) := by
  intro hdist
  cases e with
  | launch => cases hstarts
  | finish t => cases hstarts
  | initTLS t =>
      have hphase : m.phase t = .launched := of_decide_eq_true hstarts
      rw [ThreadManager.step, if_pos hphase] at hdist
      have hzero := hdist.nonzero t (m.initTLS_phase_self t)
      have hid : (m.initTLS t).lThreadId t = 65536 := by
        apply UInt32.toNat_inj.mp
        rw [m.initTLS_lThreadId_self, h.next]
        decide
      rw [hid] at hzero
      exact hzero (by decide)

end Numbered

/-! ## A run -/

section Run

variable {h : List (Entry ThreadManager ThreadEvent Unit)} {t : Entry ThreadManager ThreadEvent Unit}

/-- A further step starts one thread or none. -/
theorem threadsStarted_append_singleton :
    threadsStarted (h ++ [t]) = threadsStarted h + (if starts t then 1 else 0) := by
  rw [threadsStarted, List.countP_append, List.countP_singleton, threadsStarted]

/-- The ids are numbered as long as there are enough of them. -/
theorem numbered_exec (es : List ThreadEvent)
    (hfew : threadsStarted (threadManager.trace .init es) ≤ 65534) :
    Numbered (threadsStarted (threadManager.trace .init es)) (threadManager.exec .init es) := by
  refine threadManager.history_invariant (C := fun _ => True)
    (J := fun h m => threadsStarted h ≤ 65534 → Numbered (threadsStarted h) m) (fun _ => numbered_init)
    ?_ es (fun _ _ => trivial) hfew
  intro h m e hinv _ hle
  rw [threadsStarted_append_singleton] at hle ⊢
  exact (hinv (by omega)).step (by omega) e

/-- As long as the ids could be told apart, there were enough of them. -/
theorem threadsStarted_le {es : List ThreadEvent}
    (hall : ∀ t ∈ threadManager.trace .init es, Distinguishable t.after) :
    threadsStarted (threadManager.trace .init es) ≤ 65534 := by
  have hinv : threadsStarted (threadManager.trace .init es) ≤ 65534 ∧
      Numbered (threadsStarted (threadManager.trace .init es)) (threadManager.exec .init es) := by
    refine threadManager.history_invariant (C := fun t => Distinguishable t.after)
      (J := fun h m => threadsStarted h ≤ 65534 ∧ Numbered (threadsStarted h) m)
      ⟨Nat.zero_le _, numbered_init⟩ ?_ es hall
    rintro h m e ⟨hle, hnum⟩ hdist
    rw [threadsStarted_append_singleton]
    refine ⟨?_, hnum.step hle e⟩
    by_cases hstarts : starts (threadManager.entry m e)
    · have hne : threadsStarted h ≠ 65534 := fun heq =>
        (heq ▸ hnum).not_distinguishable hstarts hdist
      rw [if_pos hstarts]
      omega
    · rw [if_neg hstarts]
      exact hle
  exact hinv.1

/-- **Lock ownership stays distinguishable** throughout a run, exactly when at most `65534` threads are
started in it besides the main thread. -/
theorem distinguishable_iff (es : List ThreadEvent) :
    (Distinguishable .init ∧ ∀ t ∈ threadManager.trace .init es, Distinguishable t.after) ↔
      threadsStarted (threadManager.trace .init es) ≤ 65534 := by
  constructor
  · exact fun ⟨_, hall⟩ => threadsStarted_le hall
  · intro hfew
    refine ⟨numbered_init.distinguishable (by omega), fun t ht => ?_⟩
    obtain ⟨fs, e, gs, rfl, rfl⟩ := threadManager.mem_trace_iff.mp ht
    rw [List.append_cons, Transducer.trace_append] at hfew
    have hprefix : threadsStarted (threadManager.trace .init (fs ++ [e])) ≤ 65534 :=
      ((List.sublist_append_left _ _).countP_le).trans hfew
    have hnum := numbered_exec _ hprefix
    rw [Transducer.exec_append] at hnum
    exact hnum.distinguishable hprefix

/-- `n` threads are launched, and each starts at once. -/
def launchMany (n : ℕ) : List ThreadEvent :=
  (List.range n).flatMap fun i => [.launch, .initTLS (i + 1)]

/-- They all start. -/
theorem threadsStarted_launchMany (n : ℕ) :
    threadsStarted (threadManager.trace .init (launchMany n)) = n ∧
      (threadManager.exec .init (launchMany n)).threads = n := by
  induction n with
  | zero => exact ⟨rfl, rfl⟩
  | succ n ih =>
      obtain ⟨hstarted, hthreads⟩ := ih
      have hsplit : launchMany (n + 1) = launchMany n ++ [.launch] ++ [.initTLS (n + 1)] := by
        rw [launchMany, List.range_succ, List.flatMap_append, List.append_assoc]
        rfl
      have hlaunched : ((threadManager.exec .init (launchMany n)).step .launch).phase (n + 1) =
          .launched := by
        rw [ThreadManager.step, hthreads]
        exact Function.update_self _ _ _
      have hstarts : starts (threadManager.entry (threadManager.exec .init (launchMany n ++ [.launch]))
          (.initTLS (n + 1))) = true := by
        rw [Transducer.exec_append]
        exact decide_eq_true hlaunched
      rw [hsplit]
      constructor
      · rw [Transducer.trace_append, Transducer.trace_cons, Transducer.trace_nil,
          threadsStarted_append_singleton, hstarts, Transducer.trace_append, Transducer.trace_cons,
          Transducer.trace_nil, threadsStarted_append_singleton, hstarted]
        rfl
      · rw [Transducer.exec_append, Transducer.exec_append]
        show (ThreadManager.step _ (.initTLS (n + 1))).threads = n + 1
        rw [ThreadManager.step]
        split <;> exact congrArg (· + 1) hthreads

/-- When `65535` threads have been launched, the last of them encodes to the word of a free lock. -/
theorem not_distinguishable_65535 :
    ¬ (Distinguishable .init ∧
      ∀ t ∈ threadManager.trace .init (launchMany 65535), Distinguishable t.after) := by
  rintro ⟨-, hall⟩
  have hle := threadsStarted_le hall
  rw [(threadsStarted_launchMany 65535).1] at hle
  omega

end Run

end CowboyPoker.ServerCore
