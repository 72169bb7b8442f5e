import CowboyPoker.ServerCore.SessionThreads
import CowboyPoker.ServerCore.UdpService
import CowboyPoker.ServerCore.UdpSession

/-!
# The one receive of the UDP socket

Any number of worker threads run `IocpCore::Dispatch`. Nothing locks `_recvBuf`, `_recvFromAddr` and what
`OnRecvPacket` uses; at any moment there is one of: an outstanding `WSARecvFrom`, a completion in the
queue, a thread on the way from the completion to the next `WSARecvFrom`.

* `RecvShared`, `RecvPc`, `recvAct` — the members of the session, the operation and the completions, and
  what a thread does. The kernel writes `_recvBuf` and `_recvFromAddr` when it completes an operation;
  such a step is taken in the name of any thread.
* `HasToken` — a thread is on the way. `RecvInv` — the token is in one place.
* `single_receive` — one thread at a time handles a datagram, and nothing is overwritten meanwhile.
-/

namespace CowboyPoker.ServerCore

open CowboyPoker.Found

/-- A completion in the queue: the error of a failed operation, and the number of bytes. -/
structure Completion where
  errCode : Option ℕ
  numOfBytes : ℕ
  deriving DecidableEq

/-- What the threads and the kernel share.
Source: `ServerCore/UdpSession.h`, `UdpSession` -/
structure RecvShared where
  /-- `_recvBuf`. -/
  recvBuf : Bytes := List.replicate udpMaxPacket 0
  /-- `_recvFromAddr`. -/
  recvFromAddr : SockAddrIn := ⟨0, 0⟩
  /-- `_recvEvent.owner != nullptr`. -/
  recvOwner : Bool := false
  /-- The number of operations that are not completed. -/
  outstanding : ℕ := 0
  /-- The completions that are not dequeued, oldest first. -/
  completions : List Completion := []
  /-- A member of a null owner was called. -/
  crashed : Bool := false
  deriving DecidableEq

/-- Where a thread is. -/
inductive RecvPc
  /-- At `GetQueuedCompletionStatus`. -/
  | outside
  /-- In `IocpCore::Dispatch`, behind it, with an event. -/
  | dispatch (numOfBytes : ℕ)
  /-- In `ProcessRecv`, at `_recvEvent.owner = nullptr`. -/
  | processRecv (numOfBytes : ℕ)
  /-- In `ProcessRecv`, at the test of `numOfBytes`. -/
  | check (numOfBytes : ℕ)
  /-- In `OnRecvPacket`. -/
  | onRecvPacket (numOfBytes : ℕ)
  /-- In `RegisterRecv`, at `_recvEvent.Init()` and the assignment of its owner. -/
  | registerRecv
  /-- At `WSARecvFrom`. -/
  | wsaRecvFrom
  /-- In the error branch, at `_recvEvent.owner = nullptr`. -/
  | clearOwner
  deriving DecidableEq

/-- In `OnRecvPacket`. -/
def RecvPc.isOnRecvPacket : RecvPc → Bool
  | onRecvPacket _ => true
  | _ => false

/-- How `WSARecvFrom` ends. -/
inductive RecvResult
  /-- It succeeds at once with a datagram. -/
  | received (datagram : Bytes) (sender : SockAddrIn)
  /-- It fails, and `WSAGetLastError` returns the code. -/
  | failed (errorCode : ℕ)

/-- What the scheduler picks. -/
inductive RecvChoice
  /-- The kernel completes an operation with a datagram. -/
  | arrives (datagram : Bytes) (sender : SockAddrIn)
  /-- The kernel completes an operation with an error. -/
  | fails (errCode : ℕ) (numOfBytes : ℕ)
  /-- A thread outside dequeues a completion. -/
  | dequeue
  /-- A thread outside waits in vain. -/
  | timeout
  /-- A thread in `OnRecvPacket` works on the datagram. -/
  | work
  /-- A thread inside takes its next step; `r` is how `WSARecvFrom` ends. -/
  | next (r : RecvResult)

/-- The buffer after a datagram was written to it; what is too long is cut. -/
def writeRecvBuf (recvBuf datagram : Bytes) : Bytes :=
  datagram.take udpMaxPacket ++ recvBuf.drop datagram.length

/-- The kernel writes a datagram and queues its completion. -/
def RecvShared.complete (s : RecvShared) (datagram : Bytes) (sender : SockAddrIn) : RecvShared :=
  { s with
    recvBuf := writeRecvBuf s.recvBuf datagram
    recvFromAddr := sender
    completions := s.completions ++ [⟨none, min datagram.length udpMaxPacket⟩] }

/-- A thread outside gets a completion; a failed one is dispatched too.
Source: `ServerCore/IocpCore.cpp`, `IocpCore::Dispatch` -/
def dequeueStep (s : RecvShared) : Option (RecvShared × RecvPc) :=
  match s.completions with
  | [] => none
  | ⟨errCode, numOfBytes⟩ :: completions =>
      some ({ s with completions },
        if errCode = some waitTimeout then .outside else .dispatch numOfBytes)

/-- A thread inside takes its next step.
Source: `ServerCore/IocpCore.cpp`, `IocpCore::Dispatch`; `ServerCore/UdpSession.cpp`,
`UdpSession::Dispatch`, `UdpSession::ProcessRecv`, `UdpSession::RegisterRecv` -/
def recvNext (s : RecvShared) (r : RecvResult) : RecvPc → Option (RecvShared × RecvPc)
  | .outside => none
  | .dispatch numOfBytes =>
      some (if s.recvOwner then (s, .processRecv numOfBytes)
        else ({ s with crashed := true }, .dispatch numOfBytes))
  | .processRecv numOfBytes => some ({ s with recvOwner := false }, .check numOfBytes)
  | .check numOfBytes =>
      some (s, if udpPacketHeaderSize ≤ numOfBytes then .onRecvPacket numOfBytes else .registerRecv)
  | .onRecvPacket _ => some (s, .registerRecv)
  | .registerRecv => some ({ s with recvOwner := true }, .wsaRecvFrom)
  | .wsaRecvFrom =>
      match r with
      | .received datagram sender => some (s.complete datagram sender, .outside)
      | .failed errorCode =>
          if errorCode = wsaIoPending then
            some ({ s with outstanding := s.outstanding + 1 }, .outside)
          else some (s, .clearOwner)
  | .clearOwner => some ({ s with recvOwner := false }, .registerRecv)

/-- What a thread does, or the kernel in its name, before a crash. -/
def recvChoose (s : RecvShared) (p : RecvPc) : RecvChoice → Option (RecvShared × RecvPc)
  | .arrives datagram sender =>
      if s.outstanding = 0 then none
      else some ({ s with outstanding := s.outstanding - 1 }.complete datagram sender, p)
  | .fails errCode numOfBytes =>
      if s.outstanding = 0 then none
      else some ({ s with
        outstanding := s.outstanding - 1
        completions := s.completions ++ [⟨some errCode, numOfBytes⟩] }, p)
  | .dequeue => if p = .outside then dequeueStep s else none
  | .timeout => if p = .outside then some (s, p) else none
  | .work => if p.isOnRecvPacket then some (s, p) else none
  | .next r => recvNext s r p

/-- What a thread does, or the kernel in its name. -/
def recvAct {τ : Type} : Program τ RecvShared RecvPc RecvChoice Unit := fun _ s p k =>
  if s.crashed then none else (recvChoose s p k).map fun (s, p) => (s, p, ())

/-- The threads of the UDP service, interleaved. -/
def recvThreads (τ : Type) [DecidableEq τ] :
    Transducer (Processes τ RecvShared RecvPc) (τ × RecvChoice) (Option Unit) :=
  interleave recvAct

/-- `UdpService::Start` is about to register the first receive, in the thread `main`.
Source: `ServerCore/UdpService.cpp`, `UdpService::Start` -/
def recvInit {τ : Type} [DecidableEq τ] (main : τ) : Processes τ RecvShared RecvPc where
  shared := {}
  pc := Function.update (fun _ => .outside) main .registerRecv

/-! ## The token -/

/-- A thread is between a completion and the next `WSARecvFrom`. -/
def HasToken (p : RecvPc) : Prop := p ≠ .outside

/-- A thread is between the start of `ProcessRecv` and its call of `RegisterRecv`. -/
def Handling : RecvPc → Prop
  | .processRecv _ => True
  | .check _ => True
  | .onRecvPacket _ => True
  | _ => False

/-- There is at most one operation or completion, and the event has its owner then. -/
structure RecvSharedInv (s : RecvShared) : Prop where
  single : s.outstanding + s.completions.length ≤ 1
  owner : 0 < s.outstanding + s.completions.length → s.recvOwner = true
  crashed : s.crashed = false

/-- While a thread has the token there is neither; on its two ends the event has its owner. -/
structure RecvEach (s : RecvShared) (p : RecvPc) : Prop where
  idle : HasToken p → s.outstanding = 0 ∧ s.completions = []
  owner : (∃ numOfBytes, p = .dispatch numOfBytes) ∨ p = .wsaRecvFrom → s.recvOwner = true

/-- The token is in one place. -/
abbrev RecvInv {τ : Type} : Processes τ RecvShared RecvPc → Prop :=
  LocalInv RecvSharedInv (fun _ => RecvEach) fun p q => ¬ (HasToken p ∧ HasToken q)

/-- What the kernel writes. -/
def SameDatagram (s s' : RecvShared) : Prop :=
  s'.recvBuf = s.recvBuf ∧ s'.recvFromAddr = s.recvFromAddr

/-- What a step does to the token: it stays where it is, moves between the thread and the kernel, or is
lost. -/
inductive RecvStep (s : RecvShared) (p : RecvPc) : RecvShared → RecvPc → Prop
  /-- The thread keeps the token or has none. -/
  | quiet {s' p'} (houtstanding : s'.outstanding = s.outstanding)
      (hcompletions : s'.completions = s.completions) (hdatagram : SameDatagram s s')
      (htoken : HasToken p' ↔ HasToken p) (howner : HasToken p ∨ s'.recvOwner = s.recvOwner)
      (hself : RecvEach s p → RecvEach s' p' ∧ s'.crashed = s.crashed) : RecvStep s p s' p'
  /-- The kernel completes an operation. -/
  | completed {s'} (houtstanding : 0 < s.outstanding)
      (hsum : s'.outstanding + s'.completions.length = s.outstanding + s.completions.length)
      (howner : s'.recvOwner = s.recvOwner) (hcrashed : s'.crashed = s.crashed) : RecvStep s p s' p
  /-- A completion is dequeued. -/
  | dequeued {p'} (c : Completion) (completions : List Completion)
      (h : s.completions = c :: completions) (hp : ¬ HasToken p)
      (hp' : p' = .outside ∨ ∃ numOfBytes, p' = .dispatch numOfBytes) :
      RecvStep s p { s with completions } p'
  /-- `WSARecvFrom` is called. -/
  | posted {s'} (hp : p = .wsaRecvFrom)
      (hsum : s'.outstanding + s'.completions.length = s.outstanding + s.completions.length + 1)
      (howner : s'.recvOwner = s.recvOwner) (hcrashed : s'.crashed = s.crashed) :
      RecvStep s p s' .outside

section inversion

variable {s s' : RecvShared} {p p' : RecvPc}

/-- A position between the two ends of the token asks for nothing but the token. -/
theorem RecvEach.inner (h : RecvEach s p) (houtstanding : s'.outstanding = s.outstanding)
    (hcompletions : s'.completions = s.completions) (hp : HasToken p)
    (hdispatch : ∀ numOfBytes, p' ≠ .dispatch numOfBytes)
    (howner : p' = .wsaRecvFrom → s'.recvOwner = true) : RecvEach s' p' where
  idle _ := by
    rw [houtstanding, hcompletions]
    exact h.idle hp
  owner hends := hends.elim (fun ⟨numOfBytes, heq⟩ => absurd heq (hdispatch numOfBytes)) howner

/-- A step that only moves a thread on its way. -/
theorem RecvStep.inner (hp : HasToken p) (hp' : HasToken p')
    (houtstanding : s'.outstanding = s.outstanding) (hcompletions : s'.completions = s.completions)
    (hdatagram : SameDatagram s s') (hcrashed : s'.crashed = s.crashed)
    (hdispatch : ∀ numOfBytes, p' ≠ .dispatch numOfBytes)
    (howner : p' = .wsaRecvFrom → s'.recvOwner = true) : RecvStep s p s' p' :=
  .quiet houtstanding hcompletions hdatagram (iff_of_true hp' hp) (.inl hp) fun h =>
    ⟨h.inner houtstanding hcompletions hp hdispatch howner, hcrashed⟩

theorem recvNext_step {r : RecvResult} (h : recvNext s r p = some (s', p')) :
    RecvStep s p s' p' := by
  cases p with
  | outside => cases h
  | dispatch numOfBytes =>
      cases howner : s.recvOwner with
      | true =>
          rw [recvNext, howner] at h
          cases h
          exact .inner nofun nofun rfl rfl ⟨rfl, rfl⟩ rfl nofun nofun
      | false =>
          rw [recvNext, howner] at h
          cases h
          refine .quiet rfl rfl ⟨rfl, rfl⟩ Iff.rfl (.inl nofun) fun heach => ?_
          exact absurd (howner.symm.trans (heach.owner (.inl ⟨numOfBytes, rfl⟩))) Bool.noConfusion
  | processRecv numOfBytes =>
      cases h
      exact .inner nofun nofun rfl rfl ⟨rfl, rfl⟩ rfl nofun nofun
  | check numOfBytes =>
      cases h
      split <;> exact .inner nofun nofun rfl rfl ⟨rfl, rfl⟩ rfl nofun nofun
  | onRecvPacket numOfBytes =>
      cases h
      exact .inner nofun nofun rfl rfl ⟨rfl, rfl⟩ rfl nofun nofun
  | registerRecv =>
      cases h
      exact .inner nofun nofun rfl rfl ⟨rfl, rfl⟩ rfl nofun fun _ => rfl
  | wsaRecvFrom =>
      cases r with
      | received datagram sender =>
          cases h
          refine .posted rfl ?_ rfl rfl
          simp only [RecvShared.complete, List.length_append, List.length_singleton]
          omega
      | failed errorCode =>
          simp only [recvNext] at h
          split at h
          · cases h
            refine .posted rfl ?_ rfl rfl
            simp only
            omega
          · cases h
            exact .inner nofun nofun rfl rfl ⟨rfl, rfl⟩ rfl nofun nofun
  | clearOwner =>
      cases h
      exact .inner nofun nofun rfl rfl ⟨rfl, rfl⟩ rfl nofun nofun

/-- **The inversion of a step.** -/
theorem recvStep {τ : Type} {t : τ} {k : RecvChoice} {o : Unit}
    (h : recvAct t s p k = some (s', p', o)) : RecvStep s p s' p' := by
  unfold recvAct at h
  by_cases hcrashed : s.crashed
  · rw [if_pos hcrashed] at h
    cases h
  rw [if_neg hcrashed, Option.map_eq_some_iff] at h
  obtain ⟨⟨s₁, p₁⟩, h, heq⟩ := h
  cases heq
  have hquiet : RecvStep s p s p :=
    .quiet rfl rfl ⟨rfl, rfl⟩ Iff.rfl (.inr rfl) fun heach => ⟨heach, rfl⟩
  cases k with
  | arrives datagram sender =>
      obtain ⟨hout, h⟩ := Option.ite_none_left_eq_some.mp h
      cases h
      refine .completed (Nat.pos_of_ne_zero hout) ?_ rfl rfl
      simp only [RecvShared.complete, List.length_append, List.length_singleton]
      omega
  | fails errCode numOfBytes =>
      obtain ⟨hout, h⟩ := Option.ite_none_left_eq_some.mp h
      cases h
      refine .completed (Nat.pos_of_ne_zero hout) ?_ rfl rfl
      simp only [List.length_append, List.length_singleton]
      omega
  | dequeue =>
      obtain ⟨rfl, hdequeue⟩ := Option.ite_none_right_eq_some.mp h
      unfold dequeueStep at hdequeue
      split at hdequeue
      · cases hdequeue
      · rename_i hcompletions
        cases hdequeue
        refine .dequeued _ _ hcompletions (fun htoken => htoken rfl) ?_
        split
        · exact .inl rfl
        · exact .inr ⟨_, rfl⟩
  | timeout =>
      obtain ⟨-, h⟩ := Option.ite_none_right_eq_some.mp h
      cases h
      exact hquiet
  | work =>
      obtain ⟨-, h⟩ := Option.ite_none_right_eq_some.mp h
      cases h
      exact hquiet
  | next r => exact recvNext_step h

end inversion

/-! ## Runs -/

section runs

variable {τ : Type} [DecidableEq τ] {s : Processes τ RecvShared RecvPc} {t : τ} {s' : RecvShared}
  {p' : RecvPc}

omit [DecidableEq τ] in
/-- While there is an operation or a completion, nobody has the token. -/
theorem RecvInv.free (h : RecvInv s)
    (hpos : 0 < s.shared.outstanding + s.shared.completions.length) (u : τ) :
    ¬ HasToken (s.pc u) := by
  intro htoken
  obtain ⟨hout, hcompletions⟩ := (h.each u).idle htoken
  rw [hout, hcompletions] at hpos
  exact absurd hpos (lt_irrefl 0)

/-- **The step lemma.** -/
theorem RecvInv.update (h : RecvInv s) (hstep : RecvStep s.shared (s.pc t) s' p') :
    RecvInv ⟨s', Function.update s.pc t p'⟩ := by
  -- a thread without the token knows nothing
  have hnone : ∀ {s' : RecvShared} {p : RecvPc}, ¬ HasToken p → RecvEach s' p := by
    intro s' p hp
    obtain rfl := not_not.mp hp
    exact ⟨fun htoken => absurd htoken hp, fun hends => by rcases hends with ⟨_, heq⟩ | heq <;> cases heq⟩
  have hsingle := h.shared.single
  generalize hp : s.pc t = p at hstep
  cases hstep with
  | quiet houtstanding hcompletions hdatagram htoken howner hself =>
      obtain ⟨hnext, hcrashed⟩ := hself (hp ▸ h.each t)
      have hsum : s'.outstanding + s'.completions.length =
          s.shared.outstanding + s.shared.completions.length := by
        rw [houtstanding, hcompletions]
      refine LocalInv.update h ⟨hsum.trans_le hsingle, fun hpos => ?_, hcrashed.trans h.shared.crashed⟩
        hnext fun u hu => ⟨?_, fun hboth => ?_, fun hboth => ?_⟩
      · rw [hsum] at hpos
        rw [howner.resolve_left (hp ▸ h.free hpos t)]
        exact h.shared.owner hpos
      · by_cases hu' : HasToken (s.pc u)
        · have hsame := howner.resolve_left fun htoken => h.pairs t u (Ne.symm hu) ⟨hp ▸ htoken, hu'⟩
          have heach := h.each u
          exact ⟨fun _ => by rw [houtstanding, hcompletions]; exact heach.idle hu',
            fun hends => hsame.trans (heach.owner hends)⟩
        · exact hnone hu'
      · exact h.pairs t u (Ne.symm hu) ⟨hp ▸ htoken.mp hboth.1, hboth.2⟩
      · exact h.pairs t u (Ne.symm hu) ⟨hp ▸ htoken.mp hboth.2, hboth.1⟩
  | completed houtstanding hsum howner hcrashed =>
      have hpos : 0 < s.shared.outstanding + s.shared.completions.length :=
        Nat.add_pos_left houtstanding _
      have hfree := h.free hpos
      refine LocalInv.update h ⟨hsum.trans_le hsingle, fun _ => howner.trans (h.shared.owner hpos),
        hcrashed.trans h.shared.crashed⟩ (hnone (hp ▸ hfree t)) fun u _ =>
        ⟨hnone (hfree u), fun hboth => hfree u hboth.2, fun hboth => hfree u hboth.1⟩
  | dequeued c completions hcompletions hself hp' =>
      have hpos : 0 < s.shared.outstanding + s.shared.completions.length := by
        rw [hcompletions, List.length_cons]
        omega
      have hfree := h.free hpos
      rw [hcompletions, List.length_cons] at hsingle
      have hout : s.shared.outstanding = 0 := by omega
      have hrest : completions = [] := List.eq_nil_of_length_eq_zero (by omega)
      refine LocalInv.update h ⟨?_, fun _ => h.shared.owner hpos, h.shared.crashed⟩ ?_ fun u _ =>
        ⟨hnone (hfree u), fun hboth => hfree u hboth.2, fun hboth => hfree u hboth.1⟩
      · simp only
        omega
      · exact ⟨fun _ => ⟨hout, hrest⟩, fun _ => h.shared.owner hpos⟩
  | posted hpost hsum howner hcrashed =>
      have htoken : HasToken (s.pc t) := by
        rw [hp, hpost]
        exact nofun
      have hself := h.each t
      obtain ⟨hout, hcompletions⟩ := hself.idle htoken
      have hown := howner.trans (hself.owner (.inr (hp.trans hpost)))
      rw [hout, hcompletions] at hsum
      have hothers : ∀ u, u ≠ t → ¬ HasToken (s.pc u) := fun u hu hboth =>
        h.pairs t u (Ne.symm hu) ⟨htoken, hboth⟩
      refine LocalInv.update h ⟨hsum.le, fun _ => hown, hcrashed.trans h.shared.crashed⟩
        (hnone (not_not.mpr rfl)) fun u hu =>
        ⟨hnone (hothers u hu), fun hboth => hothers u hu hboth.2, fun hboth => hothers u hu hboth.1⟩

omit [DecidableEq τ] in
/-- While a thread has the token, no step of another thread writes to the buffer. -/
theorem RecvInv.sameDatagram (h : RecvInv s) (hstep : RecvStep s.shared (s.pc t) s' p') {u : τ}
    (hu : HasToken (s.pc u)) (hne : u ≠ t) : SameDatagram s.shared s' := by
  obtain ⟨hout, -⟩ := (h.each u).idle hu
  generalize hp : s.pc t = p at hstep
  cases hstep with
  | quiet _ _ hdatagram => exact hdatagram
  | completed hpos =>
      rw [hout] at hpos
      exact absurd hpos (lt_irrefl 0)
  | dequeued => exact ⟨rfl, rfl⟩
  | posted hpost =>
      have htoken : HasToken (s.pc t) := by
        rw [hp, hpost]
        exact nofun
      exact absurd ⟨hu, htoken⟩ (h.pairs u t hne)

/-- At the start the thread in `UdpService::Start` has the token. -/
theorem recvInv_init (main : τ) : RecvInv (recvInit main) := by
  refine ⟨⟨Nat.zero_le 1, fun hpos => absurd hpos (lt_irrefl 0), rfl⟩, fun t => ?_, fun t u htu => ?_⟩
  · refine ⟨fun _ => ⟨rfl, rfl⟩, fun hends => ?_⟩
    simp only [recvInit] at hends
    by_cases ht : t = main
    · subst ht
      rw [Function.update_self] at hends
      rcases hends with ⟨_, heq⟩ | heq <;> cases heq
    · rw [Function.update_of_ne ht] at hends
      rcases hends with ⟨_, heq⟩ | heq <;> cases heq
  · rintro ⟨ht, hu⟩
    have honly : ∀ v, HasToken ((recvInit main).pc v) → v = main := by
      intro v hv
      by_contra hne
      refine hv ?_
      simp only [recvInit, Function.update_of_ne hne]
    exact htu ((honly t ht).trans (honly u hu).symm)

/-- The token is in one place in every run. -/
theorem recvInv_run (main : τ) (events : List (τ × RecvChoice)) :
    RecvInv ((recvThreads τ).exec (recvInit main) events) :=
  (recvThreads τ).exec_invariant (recvInv_init main)
    (fun _ e h => interleave_step h e fun _ _ _ hact => h.update (recvStep hact)) events

theorem Handling.hasToken {p : RecvPc} (h : Handling p) : HasToken p := by
  rintro rfl
  exact h

/-- **One receive at a time.** In every state of every run at most one thread is between the start of
`ProcessRecv` and its call of `RegisterRecv`, no `WSARecvFrom` is outstanding and no completion queued
meanwhile, and no step changes `_recvBuf` or `_recvFromAddr`. -/
theorem single_receive (main : τ) (events : List (τ × RecvChoice)) :
    let s := (recvThreads τ).exec (recvInit main) events
    (∀ t u, Handling (s.pc t) → Handling (s.pc u) → t = u) ∧
      (∀ t, Handling (s.pc t) → s.shared.outstanding = 0 ∧ s.shared.completions = []) ∧
      s.shared.crashed = false ∧
      ∀ t, Handling (s.pc t) → ∀ e, SameDatagram s.shared ((recvThreads τ).step s e).1.shared := by
  intro s
  have h : RecvInv s := recvInv_run main events
  refine ⟨fun t u ht hu => ?_, fun t ht => (h.each t).idle ht.hasToken, h.shared.crashed, ?_⟩
  · by_contra hne
    exact h.pairs t u hne ⟨ht.hasToken, hu.hasToken⟩
  · rintro t ht ⟨u, k⟩
    obtain ⟨hout, hcompletions⟩ := (h.each t).idle ht.hasToken
    rcases hact : recvAct u s.shared (s.pc u) k with _ | ⟨s', p', o⟩
    · rw [recvThreads, interleave_step_of_none hact]
      exact ⟨rfl, rfl⟩
    · rw [recvThreads, interleave_step_of_some hact]
      have hstep := recvStep hact
      generalize hp : s.pc u = p at hstep
      cases hstep with
      | quiet _ _ hdatagram => exact hdatagram
      | completed hpos =>
          rw [hout] at hpos
          exact absurd hpos (lt_irrefl 0)
      | dequeued => exact ⟨rfl, rfl⟩
      | posted hpost =>
          -- the thread at `WSARecvFrom` has the token, so it is the one that handles
          have htoken : HasToken (s.pc u) := by
            rw [hp, hpost]
            exact nofun
          obtain rfl : t = u := by
            by_contra hne
            exact h.pairs t u hne ⟨ht.hasToken, htoken⟩
          rw [hp, hpost] at ht
          exact ht.elim

end runs

end CowboyPoker.ServerCore
