import CowboyPoker.ServerCore.ReleaseRight

/-!
# The registry of the sessions

`AddSession` and `ReleaseSession` change `_sessions` and the counter beside it in two statements, under
the lock of the service. Here each statement is a step of its own.

* `RegistryShared`, `RegistryPc`, `registryAct` — the TCP stack with the two taken apart.
* `Refines`, `Refines.step` — every step is one of the stack in which the two are one step, or none.
* `CountShared`, `CountEach` — the counter and the size of `_sessions`, while a thread is between the
  two statements and while none is.
* `registry_law` — the counter is right whenever the lock is free, every session is added exactly once
  and released at most once, and `ReleaseSession` always finds it.
-/

namespace CowboyPoker.ServerCore

open CowboyPoker.Found

variable {τ β : Type}

/-! ## The machine -/

/-- What the threads share.
Source: `ServerCore/Service.h`, `Service` -/
structure RegistryShared (τ β : Type) where
  /-- The stack. -/
  stack : TcpShared τ β := {}
  /-- `_locks[0]` of the service. -/
  lock : SessionLock τ := none
  /-- How often `ReleaseSession` has erased each session. -/
  releases : ℕ → ℕ := fun _ => 0

/-- A position in `AddSession`, behind `WRITE_LOCK`. -/
inductive AddSessionPc
  /-- At `_sessionCount++`. -/
  | increment
  /-- At `_sessions.insert(session)`. -/
  | insert
  /-- At the end of the function. -/
  | unlock
  deriving DecidableEq

/-- A position in `ReleaseSession`, behind `WRITE_LOCK`. -/
inductive ReleaseSessionPc
  /-- At the assertion, which erases the session. -/
  | erase
  /-- At `_sessionCount--`. -/
  | decrement
  /-- At the end of the function. -/
  | unlock
  deriving DecidableEq

/-- Where a thread is. One at `AddSession` or `ReleaseSession` is at their `WRITE_LOCK`. -/
inductive RegistryPc (β : Type)
  /-- At a position of the stack. -/
  | stack (p : TcpPc β)
  /-- In `AddSession`. -/
  | addSession (session : ℕ) (caller : SessionCaller) (p : AddSessionPc)
  /-- In `ReleaseSession`. -/
  | releaseSession (session : ℕ) (caller : SessionCaller) (p : ReleaseSessionPc)
  deriving DecidableEq

/-- The stack has changed. -/
def RegistryShared.setStack (s : RegistryShared τ β) (stack : TcpShared τ β) : RegistryShared τ β :=
  { s with stack }

/-- A step of the stack. -/
def RegistryShared.stackStep (s : RegistryShared τ β) (step : Option (TcpShared τ β × TcpPc β)) :
    Option (RegistryShared τ β × RegistryPc β) :=
  step.map fun (stack, p) => (s.setStack stack, .stack p)

/-- `_sessionCount` has changed. -/
def TcpShared.withCount (s : TcpShared τ β) (sessionCount : ℤ) : TcpShared τ β :=
  { s with sessionCount }

/-- `_sessions.insert(session)`. -/
def TcpShared.insertSession (s : TcpShared τ β) (t : τ) (session : ℕ) : TcpShared τ β :=
  (s.record t (.added session)).setSession session { s.sessions session with inSessions := true }

/-- `_sessions.erase(session)`, which the assertion expects to find it. -/
def TcpShared.eraseSession (s : TcpShared τ β) (session : ℕ) : TcpShared τ β :=
  { s with crashed := s.crashed || !(s.sessions session).inSessions }.setSession session
    { s.sessions session with
      inSessions := false
      crashed := !(s.sessions session).inSessions }

/-- Source: `ServerCore/Service.cpp`, `Service::AddSession` -/
def addSessionStep (t : τ) (s : RegistryShared τ β) (session : ℕ) (caller : SessionCaller) :
    AddSessionPc → RegistryShared τ β × RegistryPc β
  | .increment => (s.setStack (s.stack.withCount (s.stack.sessionCount + 1)),
      .addSession session caller .insert)
  | .insert => (s.setStack (s.stack.insertSession t session), .addSession session caller .unlock)
  | .unlock => ({ s with lock := s.lock.release },
      .stack (.session session caller (.processConnect .onConnected)))

/-- Source: `ServerCore/Service.cpp`, `Service::ReleaseSession` -/
def releaseSessionStep (s : RegistryShared τ β) (session : ℕ) (caller : SessionCaller) :
    ReleaseSessionPc → RegistryShared τ β × RegistryPc β
  | .erase => ({ s with
      stack := s.stack.eraseSession session
      releases := Function.update s.releases session (s.releases session + 1) },
      .releaseSession session caller .decrement)
  | .decrement => (s.setStack (s.stack.withCount (s.stack.sessionCount - 1)),
      .releaseSession session caller .unlock)
  | .unlock => ({ s with lock := s.lock.release }, .stack caller.return)

/-- The position behind the `WRITE_LOCK` at a position of the stack. -/
def TcpPc.locked : TcpPc β → Option (RegistryPc β)
  | .session i caller (.processConnect .addSession) => some (.addSession i caller .increment)
  | .session i caller (.processDisconnect .releaseSession) => some (.releaseSession i caller .erase)
  | _ => none

variable [DecidableEq τ]

/-- A thread inside takes its next step; `r` is how the call in it ends. -/
def registryNext (c : ServiceConfig) (t : τ) (s : RegistryShared τ β) (r : CallResult) :
    RegistryPc β → Option (RegistryShared τ β × RegistryPc β)
  | .stack p =>
      match p.locked with
      | some p' => (s.lock.acquire t).map fun lock => ({ s with lock }, p')
      | none => s.stackStep (tcpNext c t s.stack r p)
  | .addSession session caller p => some (addSessionStep t s session caller p)
  | .releaseSession session caller p => some (releaseSessionStep s session caller p)

/-- What a thread does. -/
def registryAct (c : ServiceConfig) :
    Program τ (RegistryShared τ β) (RegistryPc β) (TcpChoice β) Unit :=
  fun t s p k =>
    if s.stack.crashed then none
    else
      (match p, k with
        | .stack .outside, k => s.stackStep (tcpEnter c t s.stack k)
        | p, .next r => registryNext c t s r p
        | _, _ => none).map fun (s, p) => (s, p, ())

/-- The threads of a service, interleaved. -/
def registryThreads (τ β : Type) [DecidableEq τ] (c : ServiceConfig) :
    Transducer (Processes τ (RegistryShared τ β) (RegistryPc β)) (τ × TcpChoice β) (Option Unit) :=
  interleave (registryAct c)

/-- A service that was not started yet. -/
def registryInit (τ β : Type) : Processes τ (RegistryShared τ β) (RegistryPc β) where
  shared := {}
  pc _ := .stack .outside

/-! ## Steps -/

/-- What a step of a thread is. -/
inductive RegistryStep (c : ServiceConfig) (t : τ) (s : RegistryShared τ β) (k : TcpChoice β) :
    RegistryPc β → RegistryShared τ β → RegistryPc β → Prop
  /-- A step of the stack that does not begin with the lock of the service. -/
  | stack {p stack p'} (hp : p.locked = none) (h : tcpAct c t s.stack p k = some (stack, p', ())) :
      RegistryStep c t s k (.stack p) (s.setStack stack) (.stack p')
  /-- `WRITE_LOCK`. -/
  | lock {p lock p'} (hp : p.locked = some p') (h : s.lock.acquire t = some lock) :
      RegistryStep c t s k (.stack p) { s with lock } p'
  /-- A statement of `AddSession`. -/
  | addSession {i caller p r s' p'} (hk : k = .next r)
      (h : addSessionStep t s i caller p = (s', p')) :
      RegistryStep c t s k (.addSession i caller p) s' p'
  /-- A statement of `ReleaseSession`. -/
  | releaseSession {i caller p r s' p'} (hk : k = .next r)
      (h : releaseSessionStep s i caller p = (s', p')) :
      RegistryStep c t s k (.releaseSession i caller p) s' p'

section steps

variable {c : ServiceConfig} {t : τ} {s s' : RegistryShared τ β} {p p' : RegistryPc β}
  {k : TcpChoice β}

/-- **The inversion of a step.** -/
theorem registryAct_step {o : Unit} (h : registryAct c t s p k = some (s', p', o)) :
    s.stack.crashed = false ∧ RegistryStep c t s k p s' p' := by
  unfold registryAct at h
  by_cases hcrash : s.stack.crashed
  · rw [if_pos hcrash] at h
    cases h
  rw [if_neg hcrash, Option.map_eq_some_iff] at h
  obtain ⟨⟨s₁, p₁⟩, h, heq⟩ := h
  cases heq
  have hfalse : s.stack.crashed = false := Bool.eq_false_iff.mpr hcrash
  refine ⟨hfalse, ?_⟩
  split at h
  · obtain ⟨⟨stack, q⟩, henter, heq⟩ := Option.map_eq_some_iff.mp h
    cases heq
    refine .stack rfl ?_
    simp only [tcpAct, hfalse, Bool.false_eq_true, if_false, henter, Option.map_some]
  · rename_i r hout
    cases p with
    | stack q =>
        simp only [registryNext] at h
        split at h
        · rename_i hlocked
          obtain ⟨lock, hlock, heq⟩ := Option.map_eq_some_iff.mp h
          cases heq
          exact .lock hlocked hlock
        · rename_i hlocked
          obtain ⟨⟨stack, q'⟩, hnext, heq⟩ := Option.map_eq_some_iff.mp h
          cases heq
          refine .stack hlocked ?_
          have hq : q ≠ .outside := by
            rintro rfl
            cases hnext
          simp only [tcpAct, hfalse, Bool.false_eq_true, if_false, hnext, Option.map_some]
    | addSession i caller q => exact .addSession rfl (Option.some.inj h)
    | releaseSession i caller q => exact .releaseSession rfl (Option.some.inj h)
  · cases h

end steps

/-! ## Refinement -/

/-- No step reads `_sessionCount`. -/
def sameStep (n : ℤ) (step : Option (TcpShared τ β × TcpPc β)) : Option (TcpShared τ β × TcpPc β) :=
  step.map fun (s, p) => (s.withCount n, p)

section count

variable {c : ServiceConfig} (t : τ) (s : TcpShared τ β) (n : ℤ) (r : CallResult)

omit [DecidableEq τ] in
/-- `RegisterAccept` does not look at the counter. -/
theorem registerAcceptStep_withCount (e : ℕ) (caller : RegisterAcceptCaller)
    (q : RegisterAcceptPc) : registerAcceptStep (s.withCount n) e caller r q =
      sameStep n (registerAcceptStep s e caller r q) := by
  cases q with
  | createSession =>
      simp only [registerAcceptStep, TcpShared.createSession]
      by_cases hr : r = .ok
      · rw [if_pos hr, if_pos hr]
        rfl
      · rw [if_neg hr, if_neg hr]
        rfl
  | acceptEx i =>
      simp only [registerAcceptStep]
      split <;> rfl

omit [DecidableEq τ] in
/-- `ProcessAccept` does not look at the counter. -/
theorem processAcceptStep_withCount (e : ℕ) (q : ProcessAcceptPc) :
    processAcceptStep (s.withCount n) e r q = sameStep n (processAcceptStep s e r q) := by
  cases q with
  | readSession =>
      have hsession : (s.withCount n).acceptSession e = s.acceptSession e := rfl
      simp only [processAcceptStep, hsession]
      split <;> rfl
  | setUpdateAcceptSocket i => rfl
  | getpeername i => rfl

omit [DecidableEq τ] in
/-- `StartAccept` does not look at the counter. -/
theorem startAcceptStep_withCount (q : StartAcceptPc) :
    startAcceptStep c (s.withCount n) r q = sameStep n (startAcceptStep c s r q) := by
  cases q with
  | listen => rfl
  | loop i =>
      simp only [startAcceptStep]
      split <;> rfl

omit [DecidableEq τ] in
/-- `ClientService::Start` does not look at the counter. -/
theorem clientStartStep_withCount (i : ℤ) :
    clientStartStep c (s.withCount n) r i = sameStep n (clientStartStep c s r i) := by
  simp only [clientStartStep, TcpShared.createSession]
  by_cases hi : i < c.maxSessionCount
  · rw [if_pos hi, if_pos hi]
    by_cases hr : r = .ok
    · rw [if_pos hr, if_pos hr]
      rfl
    · rw [if_neg hr, if_neg hr]
      rfl
  · rw [if_neg hi, if_neg hi]
    rfl

omit [DecidableEq τ] in
/-- `RegisterConnect` does not look at the counter. -/
theorem registerConnectStep_withCount (i : ℕ) (caller : ConnectCaller) (q : RegisterConnectPc) :
    registerConnectStep c (s.withCount n) i caller r q =
      sameStep n (registerConnectStep c s i caller r q) := by
  cases q with
  | connectEx =>
      simp only [registerConnectStep]
      split <;> rfl
  | _ => rfl

/-- A session does not look at the counter, away from `AddSession` and `ReleaseSession`. -/
theorem sessionStep_withCount (i : ℕ) (caller : SessionCaller) (q : SessionPc β)
    (hq : (TcpPc.session i caller q).locked = none) :
    sessionStep t (s.withCount n) i caller r q = sameStep n (sessionStep t s i caller r q) := by
  have haround : (s.withCount n).around t i q = (s.around t i q).withCount n := by
    cases q with
    | processConnect q =>
        cases q with
        | addSession => cases hq
        | _ => rfl
    | processDisconnect q =>
        cases q with
        | releaseSession => cases hq
        | _ => rfl
    | _ => rfl
  simp only [sessionStep, sameStep, Option.map_map, haround]
  rfl

/-- A step inside a member does not look at the counter, away from the two. -/
theorem tcpNext_withCount {p : TcpPc β} (hp : p.locked = none) :
    tcpNext c t (s.withCount n) r p = sameStep n (tcpNext c t s r p) := by
  cases p with
  | outside => rfl
  | clientStart i => exact clientStartStep_withCount s n r i
  | startAccept q => exact startAcceptStep_withCount s n r q
  | registerAccept e caller q => exact registerAcceptStep_withCount s n r e caller q
  | processAccept e q => exact processAcceptStep_withCount s n r e q
  | connect i caller q => exact registerConnectStep_withCount s n r i caller q
  | session i caller q => exact sessionStep_withCount t s n r i caller q hp

omit [DecidableEq τ] in
/-- The completion of an operation does not look at the counter. -/
theorem completeStep_withCount (op : TcpOperation) (numOfBytes : ℕ) (success : Bool) :
    completeStep t (s.withCount n) numOfBytes success op =
      sameStep n (completeStep t s numOfBytes success op) := by
  cases op with
  | connectEx i =>
      have hconnects : (s.withCount n).connects i = s.connects i := rfl
      simp only [completeStep, hconnects]
      cases success <;> split <;> rfl
  | acceptEx e =>
      have haccepting : (s.withCount n).accepting e = s.accepting e := rfl
      simp only [completeStep, haccepting]
      cases success <;> split <;> rfl
  | wsaRecv i | wsaSend i | disconnectEx i =>
      simp only [completeStep, sameStep, Option.map_map]
      rfl

omit [DecidableEq τ] in
/-- `Dispatch` does not look at the counter. -/
theorem dispatchStep_withCount (op : TcpOperation) (numOfBytes : ℕ) (errCode : Option ℕ) :
    dispatchStep t (s.withCount n) op numOfBytes errCode =
      sameStep n (dispatchStep t s op numOfBytes errCode) := by
  have howner : (s.withCount n).hasOwner op = s.hasOwner op := by
    cases op <;> rfl
  simp only [dispatchStep, completeStep_withCount, sameStep, Option.map_map, howner]
  congr 1
  funext ⟨s', p⟩
  simp only [Function.comp_apply]
  split
  · rfl
  · split <;> rfl

omit [DecidableEq τ] in
/-- A step that enters a member does not look at the counter. -/
theorem tcpEnter_withCount (k : TcpChoice β) :
    tcpEnter c t (s.withCount n) k = sameStep n (tcpEnter c t s k) := by
  cases k with
  | start => rfl
  | connect i | send i sendBuffer | disconnect i =>
      have hcreated : (s.withCount n).created = s.created := rfl
      simp only [tcpEnter, hcreated]
      split <;> rfl
  | dequeue op numOfBytes errCode => exact dispatchStep_withCount t s n op numOfBytes errCode
  | next r => rfl

/-- A step of the stack that takes no lock does not depend on the counter. -/
theorem tcpAct_withCount {s s' : TcpShared τ β} {p p' : TcpPc β} {k : TcpChoice β}
    (hp : p.locked = none) (h : tcpAct c t s p k = some (s', p', ())) (n : ℤ) :
    tcpAct c t (s.withCount n) p k = some (s'.withCount n, p', ()) := by
  obtain ⟨hcrashed, hstep⟩ := tcpAct_eq_some h
  have hcrashed' : (s.withCount n).crashed = false := hcrashed
  rcases hstep with ⟨rfl, henter⟩ | ⟨r, rfl, hnext⟩
  · simp only [tcpAct, hcrashed', Bool.false_eq_true, if_false, tcpEnter_withCount, henter, sameStep,
      Option.map_some]
  · have hout : p ≠ .outside := by
      rintro rfl
      cases hnext
    simp only [tcpAct, hcrashed', Bool.false_eq_true, if_false, tcpNext_withCount t s n r hp, hnext,
      sameStep, Option.map_some]

end count

/-- Where a thread is when `AddSession` and `ReleaseSession` are one step: each is taken when
`_sessions` changes. -/
def RegistryPc.atomic : RegistryPc β → TcpPc β
  | .stack p => p
  | .addSession i caller .unlock => .session i caller (.processConnect .onConnected)
  | .addSession i caller _ => .session i caller (.processConnect .addSession)
  | .releaseSession i caller .erase => .session i caller (.processDisconnect .releaseSession)
  | .releaseSession _ caller _ => caller.return

/-- The stack in which the two are one step is in the same state, its counter apart. -/
structure Refines (s : Processes τ (RegistryShared τ β) (RegistryPc β))
    (a : Processes τ (TcpShared τ β) (TcpPc β)) : Prop where
  pc : ∀ t, a.pc t = (s.pc t).atomic
  shared : ∃ n, a.shared = s.shared.stack.withCount n

section refines

variable {c : ServiceConfig} {t : τ} {s : Processes τ (RegistryShared τ β) (RegistryPc β)}
  {a : Processes τ (TcpShared τ β) (TcpPc β)} {s' : RegistryShared τ β} {p' : RegistryPc β}
  {k : TcpChoice β}

/-- The thread that moves is where it was in the stack. -/
theorem Refines.stutter (h : Refines s a) (hstack : ∃ n, s'.stack = s.shared.stack.withCount n)
    (hp : p'.atomic = (s.pc t).atomic) : Refines ⟨s', Function.update s.pc t p'⟩ a where
  pc u := by
    by_cases hu : u = t
    · subst hu
      simp only [Function.update_self, hp]
      exact h.pc u
    · simp only [Function.update_of_ne hu]
      exact h.pc u
  shared := by
    obtain ⟨n, hn⟩ := h.shared
    obtain ⟨m, hm⟩ := hstack
    refine ⟨n, ?_⟩
    rw [hn, hm]
    rfl

/-- Both move. -/
theorem Refines.move (h : Refines s a) {a' : TcpShared τ β} (ha' : ∃ n, a' = s'.stack.withCount n) :
    Refines ⟨s', Function.update s.pc t p'⟩ ⟨a', Function.update a.pc t p'.atomic⟩ where
  pc u := by
    by_cases hu : u = t
    · subst hu
      simp only [Function.update_self]
    · simp only [Function.update_of_ne hu]
      exact h.pc u
  shared := ha'

/-- What a step of the registry is to the stack: nothing, or a step with the same choice. -/
def Matched (c : ServiceConfig) (t : τ) (k : TcpChoice β)
    (a : Processes τ (TcpShared τ β) (TcpPc β))
    (s' : Processes τ (RegistryShared τ β) (RegistryPc β)) : Prop :=
  Refines s' a ∨ ∃ a' q', tcpAct c t a.shared (a.pc t) k = some (a', q', ()) ∧
    Refines s' ⟨a', Function.update a.pc t q'⟩

/-- `_sessions.insert` is `AddSession`. -/
theorem tcpAct_addSession (s : TcpShared τ β) (hcrashed : s.crashed = false) (i : ℕ)
    (caller : SessionCaller) (r : CallResult) :
    tcpAct c t s (.session i caller (.processConnect .addSession)) (.next r) =
      some ((s.insertSession t i).withCount (s.sessionCount + 1),
        .session i caller (.processConnect .onConnected), ()) := by
  simp only [tcpAct, hcrashed, Bool.false_eq_true, if_false]
  rfl

/-- `_sessions.erase` is `ReleaseSession`. -/
theorem tcpAct_releaseSession (s : TcpShared τ β) (hcrashed : s.crashed = false) (i : ℕ)
    (caller : SessionCaller) (r : CallResult) :
    ∃ n, tcpAct c t s (.session i caller (.processDisconnect .releaseSession)) (.next r) =
      some ((s.eraseSession i).withCount n, caller.return, ()) := by
  have hact : tcpAct c t s (.session i caller (.processDisconnect .releaseSession)) (.next r) =
      some ((s.around t i (.processDisconnect .releaseSession)).setSession i
        { s.sessions i with inSessions := false, crashed := !(s.sessions i).inSessions },
        caller.return, ()) := by
    simp only [tcpAct, hcrashed, Bool.false_eq_true, if_false]
    rfl
  rw [hact]
  cases hin : (s.sessions i).inSessions with
  | true =>
      refine ⟨s.sessionCount - 1, ?_⟩
      simp only [TcpShared.around, hin, if_true, TcpShared.eraseSession, hcrashed, Bool.not_true,
        Bool.or_false]
      rfl
  | false =>
      refine ⟨s.sessionCount, ?_⟩
      simp only [TcpShared.around, hin, Bool.false_eq_true, if_false, TcpShared.eraseSession,
        hcrashed, Bool.not_false, Bool.or_true]
      rfl

/-- **The refinement step.** -/
theorem Refines.step (h : Refines s a) {o : Unit}
    (hact : registryAct c t s.shared (s.pc t) k = some (s', p', o)) :
    Matched c t k a ⟨s', Function.update s.pc t p'⟩ := by
  obtain ⟨hcrashed, hstep⟩ := registryAct_step hact
  obtain ⟨n, hn⟩ := h.shared
  have hcrashed' : a.shared.crashed = false := by
    rw [hn]
    exact hcrashed
  have hpc := h.pc t
  generalize hp : s.pc t = p at hstep hpc
  cases hstep with
  | @stack q stack q' hq htcp =>
      refine .inr ⟨stack.withCount n, q', ?_, h.move ⟨n, rfl⟩⟩
      have hpcq : a.pc t = q := hpc
      rw [hpcq, hn]
      exact tcpAct_withCount t hq htcp n
  | @lock q lock p' hq hlock =>
      refine .inl (h.stutter ⟨_, rfl⟩ ?_)
      rw [hp]
      cases q with
      | session i caller q =>
          cases q with
          | processConnect q =>
              cases q <;> cases hq
              rfl
          | processDisconnect q =>
              cases q <;> cases hq
              rfl
          | _ => cases hq
      | _ => cases hq
  | @addSession i caller q r _ _ hk hadd =>
      cases q with
      | increment =>
          cases hadd
          refine .inl (h.stutter ⟨_, rfl⟩ ?_)
          rw [hp]
          rfl
      | insert =>
          cases hadd
          have hpcq : a.pc t = .session i caller (.processConnect .addSession) := hpc
          refine .inr ⟨(a.shared.insertSession t i).withCount (a.shared.sessionCount + 1), _, ?_,
            h.move ⟨a.shared.sessionCount + 1, ?_⟩⟩
          · rw [hpcq, hk]
            exact tcpAct_addSession a.shared hcrashed' i caller r
          · rw [hn]
            rfl
      | unlock =>
          cases hadd
          refine .inl (h.stutter ⟨_, rfl⟩ ?_)
          rw [hp]
          rfl
  | @releaseSession i caller q r _ _ hk hrelease =>
      cases q with
      | erase =>
          cases hrelease
          have hpcq : a.pc t = .session i caller (.processDisconnect .releaseSession) := hpc
          obtain ⟨m, hm⟩ := tcpAct_releaseSession (c := c) (t := t) a.shared hcrashed' i caller r
          refine .inr ⟨(a.shared.eraseSession i).withCount m, _, ?_, h.move ⟨m, ?_⟩⟩
          · rw [hpcq, hk]
            exact hm
          · rw [hn]
            rfl
      | decrement =>
          cases hrelease
          refine .inl (h.stutter ⟨_, rfl⟩ ?_)
          rw [hp]
          rfl
      | unlock =>
          cases hrelease
          refine .inl (h.stutter ⟨_, rfl⟩ ?_)
          rw [hp]
          rfl

omit [DecidableEq τ] in
/-- At the start the two machines agree. -/
theorem refines_init : Refines (registryInit τ β) (tcpInit τ β) := ⟨fun _ => rfl, 0, rfl⟩

end refines

/-! ## The counter -/

/-- `_sessions` has `n` elements. -/
def Sized (s : TcpShared τ β) (n : ℤ) : Prop :=
  ∃ F : Finset ℕ, (∀ i, i ∈ F ↔ (s.sessions i).inSessions = true) ∧ (F.card : ℤ) = n

/-- Behind the `WRITE_LOCK` of the service. -/
def RegistryPc.Inside : RegistryPc β → Prop
  | .stack _ => False
  | _ => True

/-- How far `_sessionCount` is ahead of `_sessions`. -/
def RegistryPc.surplus : RegistryPc β → ℤ
  | .addSession _ _ .insert => 1
  | .releaseSession _ _ .decrement => 1
  | _ => 0

/-- The counter is right while the lock is free; what was erased was added. -/
structure CountShared (s : RegistryShared τ β) : Prop where
  sized : s.lock = none → Sized s.stack s.stack.sessionCount
  releases : ∀ i, s.releases i + (s.stack.sessions i).inSessions.toNat ≤ s.stack.times (.added i)

/-- A thread is behind `WRITE_LOCK` if it holds the lock, once, and knows how wrong the counter is. -/
structure CountEach (t : τ) (s : RegistryShared τ β) (p : RegistryPc β) : Prop where
  holds : p.Inside → s.lock = some (t, 1)
  inside : ∀ depth, s.lock = some (t, depth) → p.Inside
  sized : p.Inside → Sized s.stack (s.stack.sessionCount - p.surplus)

/-- The invariants of the counter. -/
abbrev CountInv : Processes τ (RegistryShared τ β) (RegistryPc β) → Prop :=
  LocalInv CountShared CountEach fun _ _ => True

section sized

variable {s s' : TcpShared τ β} {n : ℤ} {i : ℕ} {t : τ}

omit [DecidableEq τ] in
/-- The size stays where no session enters or leaves `_sessions`. -/
theorem Sized.of_eq (h : Sized s n)
    (heq : ∀ i, (s'.sessions i).inSessions = (s.sessions i).inSessions) {m : ℤ} (hm : n = m) :
    Sized s' m := by
  obtain ⟨F, hF, hcard⟩ := h
  exact ⟨F, fun i => by rw [heq]; exact hF i, hcard.trans hm⟩

omit [DecidableEq τ] in
/-- The insertion of a session that is not in `_sessions` adds one. -/
theorem Sized.inserted (h : Sized s n) (hnew : (s.sessions i).inSessions = false) :
    Sized (s.insertSession t i) (n + 1) := by
  obtain ⟨F, hF, hcard⟩ := h
  have hi : i ∉ F := fun hi => absurd (hnew.symm.trans ((hF i).mp hi)) Bool.false_ne_true
  refine ⟨insert i F, fun j => ?_, ?_⟩
  · by_cases hj : j = i
    · subst hj
      simp [TcpShared.insertSession, TcpShared.setSession]
    · simp [TcpShared.insertSession, TcpShared.setSession, TcpShared.record, hj, hF]
  · rw [Finset.card_insert_of_notMem hi, ← hcard]
    exact Int.natCast_succ F.card

omit [DecidableEq τ] in
/-- The removal of a session that is in `_sessions` takes one off. -/
theorem Sized.erased (h : Sized s n) (hin : (s.sessions i).inSessions = true) :
    Sized (s.eraseSession i) (n - 1) := by
  obtain ⟨F, hF, hcard⟩ := h
  have hi : i ∈ F := (hF i).mpr hin
  refine ⟨F.erase i, fun j => ?_, ?_⟩
  · by_cases hj : j = i
    · subst hj
      simp [TcpShared.eraseSession, TcpShared.setSession]
    · simp [TcpShared.eraseSession, TcpShared.setSession, hj, hF]
  · rw [Finset.card_erase_of_mem hi, ← hcard]
    have hpos : 0 < F.card := Finset.card_pos.mpr ⟨i, hi⟩
    omega

end sized

/-- A step of the stack that takes no lock leaves `_sessions` and the counter alone. -/
theorem StackMove.unlocked {t : τ} {s s' : TcpShared τ β} {p p' : TcpPc β} {k : TcpChoice β}
    (h : StackMove t s p k s' p') (hp : p.locked = none) :
    s'.sessionCount = s.sessionCount ∧
      (∀ i, (s'.sessions i).inSessions = (s.sessions i).inSessions) ∧
        ∀ i, s.times (.added i) ≤ s'.times (.added i) := by
  have htimes := fun i => h.times_le (.added i) (.inr ⟨i, rfl⟩)
  have henter : ∀ {i k' x q}, k.enters = some (i, k') →
      enterStep (s.sessions i) k' = some (x, q) → x.inSessions = (s.sessions i).inSessions := by
    intro i k' x q hk hstep
    rcases enterStep_life (enters_ne_connected hk) hstep with ⟨hsame, -, -⟩ | -
    · exact hsame.inSessions
    · rfl
  have hupdate : ∀ {i x}, x.inSessions = (s.sessions i).inSessions →
      s'.sessions = Function.update s.sessions i x →
      ∀ j, (s'.sessions j).inSessions = (s.sessions j).inSessions := by
    intro i x hx hsessions j
    rw [hsessions]
    by_cases hj : j = i
    · subst hj
      rw [Function.update_self, hx]
    · rw [Function.update_of_ne hj]
  cases h with
  | @member i caller q r x q' hp' _ hnext =>
      subst hp'
      have hx : x.inSessions = (s.sessions i).inSessions := by
        cases nextStep_life hnext with
        | quiet hsame => exact hsame.inSessions
        | add => cases hp
        | release => cases hp
        | _ => rfl
      have hcount : (s.around t i q).sessionCount = s.sessionCount := by
        cases q with
        | processConnect q =>
            cases q with
            | addSession => cases hp
            | _ => rfl
        | processDisconnect q =>
            cases q with
            | releaseSession => cases hp
            | _ => rfl
        | _ => rfl
      refine ⟨hcount, hupdate hx ?_, htimes⟩
      simp only [TcpShared.setSession, sessions_around]
  | enter _ hk hstep hkept hsessions =>
      exact ⟨hkept.sessionCount, hupdate (henter hk hstep) hsessions, htimes⟩
  | dropped _ hk hstep hkept hsessions _ =>
      exact ⟨hkept.sessionCount, hupdate (henter hk hstep) hsessions, htimes⟩
  | other _ hkept hsessions _ =>
      exact ⟨hkept.sessionCount, fun i => by rw [hsessions], htimes⟩

section counter

variable {c : ServiceConfig} {t : τ} {s : Processes τ (RegistryShared τ β) (RegistryPc β)}
  {s' : RegistryShared τ β} {p' : RegistryPc β} {k : TcpChoice β}

omit [DecidableEq τ] in
/-- While a thread holds the lock, it is the only one behind `WRITE_LOCK`. -/
theorem CountInv.alone (h : CountInv s) {depth : ℕ} (hlock : s.shared.lock = some (t, depth)) {u : τ}
    (hu : u ≠ t) : ¬ (s.pc u).Inside := by
  intro hinside
  cases hlock.symm.trans ((h.each u).holds hinside)
  exact hu rfl

/-- A thread that holds the lock takes a statement of `AddSession` or `ReleaseSession`. -/
theorem CountInv.statement (h : CountInv s) (hin : (s.pc t).Inside)
    (hlock : s'.lock = s.shared.lock) (hp' : p'.Inside)
    (hsized : Sized s'.stack (s'.stack.sessionCount - p'.surplus))
    (hreleases : ∀ i, s'.releases i + (s'.stack.sessions i).inSessions.toNat ≤
      s'.stack.times (.added i)) : CountInv ⟨s', Function.update s.pc t p'⟩ := by
  have hheld := (h.each t).holds hin
  refine LocalInv.update h ⟨fun hfree => ?_, hreleases⟩ ⟨fun _ => hlock.trans hheld, fun _ _ => hp',
    fun _ => hsized⟩ fun u hu => ⟨⟨fun hinside => ?_, fun depth hdepth => ?_, fun hinside => ?_⟩,
      trivial, trivial⟩
  · cases (hlock.trans hheld).symm.trans hfree
  · exact absurd hinside (h.alone hheld hu)
  · rw [hlock] at hdepth
    exact (h.each u).inside depth hdepth
  · exact absurd hinside (h.alone hheld hu)

/-- A thread that holds the lock releases it. -/
theorem CountInv.unlock (h : CountInv s) (hin : (s.pc t).Inside) (hsurplus : (s.pc t).surplus = 0)
    {p' : TcpPc β} :
    CountInv ⟨{ s.shared with lock := s.shared.lock.release }, Function.update s.pc t (.stack p')⟩ := by
  have hheld := (h.each t).holds hin
  have hfree : s.shared.lock.release = none := by
    rw [hheld]
    rfl
  have hsized := (h.each t).sized hin
  rw [hsurplus, sub_zero] at hsized
  refine LocalInv.update h ⟨fun _ => hsized, h.shared.releases⟩ ⟨fun hinside => hinside.elim,
    fun depth hdepth => ?_, fun hinside => hinside.elim⟩ fun u hu => ⟨⟨fun hinside => ?_,
      fun depth hdepth => ?_, fun hinside => ?_⟩, trivial, trivial⟩
  · cases hfree.symm.trans hdepth
  · exact absurd hinside (h.alone hheld hu)
  · cases hfree.symm.trans hdepth
  · exact absurd hinside (h.alone hheld hu)

omit [DecidableEq τ] in
/-- `WRITE_LOCK` leads behind the lock, with the counter as it should be. -/
theorem TcpPc.locked_start {q : TcpPc β} (hq : q.locked = some p') :
    p'.Inside ∧ p'.surplus = 0 := by
  cases q with
  | session i caller q =>
      cases q with
      | processConnect q =>
          cases q <;> cases hq
          exact ⟨trivial, rfl⟩
      | processDisconnect q =>
          cases q <;> cases hq
          exact ⟨trivial, rfl⟩
      | _ => cases hq
  | _ => cases hq

/-- A step of the stack that takes no lock. -/
theorem CountInv.stackStep (h : CountInv s) {q q' : TcpPc β} {stack : TcpShared τ β}
    (hp : s.pc t = .stack q) (hq : q.locked = none)
    (htcp : tcpAct c t s.shared.stack q k = some (stack, q', ())) :
    CountInv ⟨s.shared.setStack stack, Function.update s.pc t (.stack q')⟩ := by
  obtain ⟨hcount, hsessions, htimes⟩ := (tcpAct_move htcp).2.unlocked hq
  have hout : ∀ depth, s.shared.lock ≠ some (t, depth) := by
    intro depth hdepth
    have hin := (h.each t).inside depth hdepth
    rw [hp] at hin
    exact hin
  refine LocalInv.update h ⟨fun hfree => ?_, fun i => ?_⟩ ⟨fun hinside => hinside.elim,
    fun depth hdepth => absurd hdepth (hout depth), fun hinside => hinside.elim⟩
    fun u hu => ⟨⟨(h.each u).holds, (h.each u).inside, fun hinside => ?_⟩, trivial, trivial⟩
  · exact (h.shared.sized hfree).of_eq hsessions hcount.symm
  · rw [RegistryShared.setStack, hsessions]
    exact (h.shared.releases i).trans (htimes i)
  · exact ((h.each u).sized hinside).of_eq hsessions (by rw [← hcount]; rfl)

/-- A thread of the stack takes the lock, which is free: the thread does not hold it already. -/
theorem CountInv.locked (h : CountInv s) {q : TcpPc β} {lock : SessionLock τ}
    (hp : s.pc t = .stack q) (hq : q.locked = some p') (hlock : s.shared.lock.acquire t = some lock) :
    CountInv ⟨{ s.shared with lock }, Function.update s.pc t p'⟩ := by
  have hfree : s.shared.lock = none := by
    rcases hlocked : s.shared.lock with _ | ⟨v, depth⟩
    · rfl
    · rw [hlocked] at hlock
      obtain ⟨rfl, -⟩ := Option.ite_none_right_eq_some.mp hlock
      have hin := (h.each v).inside depth hlocked
      rw [hp] at hin
      exact hin.elim
  obtain rfl : lock = some (t, 1) := by
    rw [hfree] at hlock
    exact (Option.some.inj hlock).symm
  obtain ⟨hinside, hsurplus⟩ := TcpPc.locked_start hq
  have hnobody : ∀ u, ¬ (s.pc u).Inside := by
    intro u hinside
    cases hfree.symm.trans ((h.each u).holds hinside)
  refine LocalInv.update h ⟨fun hnone => (by cases hnone), h.shared.releases⟩
    ⟨fun _ => rfl, fun _ _ => hinside, fun _ => ?_⟩
    fun u hu => ⟨⟨fun hinside => absurd hinside (hnobody u), fun depth hdepth => ?_,
      fun hinside => absurd hinside (hnobody u)⟩, trivial, trivial⟩
  · rw [hsurplus, sub_zero]
    exact h.shared.sized hfree
  · cases hdepth
    exact absurd rfl hu

omit [DecidableEq τ] in
/-- `insert` adds a session that was never in `_sessions`. -/
theorem CountShared.insert_releases {x : RegistryShared τ β} (h : CountShared x) {i : ℕ}
    (hnew : (x.stack.sessions i).inSessions = false) (hnone : x.stack.times (.added i) = 0) (j : ℕ) :
    x.releases j + ((x.stack.insertSession t i).sessions j).inSessions.toNat ≤
      (x.stack.insertSession t i).times (.added j) := by
  have hreleases := h.releases j
  have htimes : (x.stack.insertSession t i).times (.added j) =
      x.stack.times (.added j) + if ConnectionEvent.added i = .added j then 1 else 0 :=
    times_record x.stack t (.added i) (.added j)
  rw [htimes]
  by_cases hj : j = i
  · subst hj
    rw [hnone, hnew, Bool.toNat_false] at hreleases
    simp only [hnone, if_true, TcpShared.insertSession, TcpShared.setSession,
      Function.update_self, Bool.toNat_true]
    omega
  · simp only [TcpShared.insertSession, TcpShared.setSession, TcpShared.record,
      Function.update_of_ne hj]
    exact hreleases.trans (Nat.le_add_right _ _)

/-- A statement of `AddSession`, if `insert` finds the session new. -/
theorem CountInv.addSession (h : CountInv s) {i : ℕ} {caller : SessionCaller} {q : AddSessionPc}
    (hp : s.pc t = .addSession i caller q)
    (hinsert : q = .insert →
      (s.shared.stack.sessions i).inSessions = false ∧ s.shared.stack.times (.added i) = 0)
    (hadd : addSessionStep t s.shared i caller q = (s', p')) :
    CountInv ⟨s', Function.update s.pc t p'⟩ := by
  have hin : (s.pc t).Inside := by
    rw [hp]
    exact trivial
  have hsized := (h.each t).sized hin
  rw [hp] at hsized
  cases q with
  | increment =>
      cases hadd
      refine h.statement hin rfl trivial ?_ h.shared.releases
      refine hsized.of_eq (fun _ => rfl) ?_
      simp [RegistryPc.surplus, RegistryShared.setStack, TcpShared.withCount]
  | insert =>
      cases hadd
      obtain ⟨hnew, hnone⟩ := hinsert rfl
      refine h.statement hin rfl trivial ?_ (h.shared.insert_releases hnew hnone)
      refine (hsized.inserted hnew).of_eq (fun _ => rfl) ?_
      simp [RegistryPc.surplus, RegistryShared.setStack, TcpShared.insertSession,
        TcpShared.setSession, TcpShared.record]
  | unlock =>
      cases hadd
      exact h.unlock hin (by rw [hp]; rfl)

/-- A statement of `ReleaseSession`, if `erase` finds the session. -/
theorem CountInv.releaseSession (h : CountInv s) {i : ℕ} {caller : SessionCaller}
    {q : ReleaseSessionPc} (hp : s.pc t = .releaseSession i caller q)
    (herase : q = .erase → (s.shared.stack.sessions i).inSessions = true)
    (hrelease : releaseSessionStep s.shared i caller q = (s', p')) :
    CountInv ⟨s', Function.update s.pc t p'⟩ := by
  have hin : (s.pc t).Inside := by
    rw [hp]
    exact trivial
  have hsized := (h.each t).sized hin
  rw [hp] at hsized
  cases q with
  | erase =>
      cases hrelease
      have hfound := herase rfl
      refine h.statement hin rfl trivial ?_ fun j => ?_
      · refine (hsized.erased hfound).of_eq (fun _ => rfl) ?_
        simp [RegistryPc.surplus, TcpShared.eraseSession, TcpShared.setSession]
      · have hreleases := h.shared.releases j
        have htimes : (s.shared.stack.eraseSession i).times (.added j) =
            s.shared.stack.times (.added j) := rfl
        rw [htimes]
        by_cases hj : j = i
        · subst hj
          rw [hfound, Bool.toNat_true] at hreleases
          simpa only [TcpShared.eraseSession, TcpShared.setSession, Function.update_self,
            Bool.toNat_false] using hreleases
        · simpa only [TcpShared.eraseSession, TcpShared.setSession,
            Function.update_of_ne hj] using hreleases
  | decrement =>
      cases hrelease
      refine h.statement hin rfl trivial ?_ h.shared.releases
      exact hsized.of_eq (fun _ => rfl) (sub_zero _).symm
  | unlock =>
      cases hrelease
      exact h.unlock hin (by rw [hp]; rfl)

/-- **A step keeps the counter**, if `insert` finds the session new and `erase` finds it. -/
theorem CountInv.step (h : CountInv s) (hstep : RegistryStep c t s.shared k (s.pc t) s' p')
    (hinsert : ∀ i caller, s.pc t = .addSession i caller .insert →
      (s.shared.stack.sessions i).inSessions = false ∧ s.shared.stack.times (.added i) = 0)
    (herase : ∀ i caller, s.pc t = .releaseSession i caller .erase →
      (s.shared.stack.sessions i).inSessions = true) :
    CountInv ⟨s', Function.update s.pc t p'⟩ := by
  generalize hp : s.pc t = p at hstep
  cases hstep with
  | stack hq htcp => exact h.stackStep hp hq htcp
  | lock hq hlock => exact h.locked hp hq hlock
  | addSession _ hadd => exact h.addSession hp (fun hq => hinsert _ _ (by rw [hp, hq])) hadd
  | releaseSession _ hrelease =>
      exact h.releaseSession hp (fun hq => herase _ _ (by rw [hp, hq])) hrelease

end counter

/-! ## Runs -/

/-- The registry of the sessions is in order. -/
structure RegistryLaw (s : Processes τ (RegistryShared τ β) (RegistryPc β)) : Prop where
  /-- `_sessionCount` is the size of `_sessions` whenever the lock is free. -/
  count : s.shared.lock = none → Sized s.shared.stack s.shared.stack.sessionCount
  /-- A session that `ProcessConnect` has stored was added exactly once, or its thread is about to add
  it for the first time. -/
  added : ∀ i, s.shared.stack.times (.stored i) = s.shared.stack.times (.added i) ∨
    (s.shared.stack.times (.added i) = 0 ∧ ∃ t, (s.pc t).atomic.Adding i)
  addedOnce : ∀ i, s.shared.stack.times (.added i) ≤ 1
  disconnectedOnce : ∀ i, (s.shared.stack.sessions i).onDisconnectedRuns ≤ 1
  releasedOnce : ∀ i, s.shared.releases i ≤ 1
  /-- The assertion in `ReleaseSession` has not failed, and does not fail in the next step. -/
  found : ∀ i, (s.shared.stack.sessions i).crashed = false ∧
    ∀ t caller, s.pc t = .releaseSession i caller .erase →
      (s.shared.stack.sessions i).inSessions = true

/-- The stack behind the registry, and the counter. -/
structure RegistryInv (s : Processes τ (RegistryShared τ β) (RegistryPc β)) : Prop where
  atomic : ∃ a, Refines s a ∧ (lateInv τ β).OfStack a ∧
    ∀ i, WitnessInv (fun s : TcpShared τ β => s.times (.stored i) ≤ s.times (.added i))
      (TcpPc.Adding i) a
  counter : CountInv s

section runs

variable {c : ServiceConfig} {t : τ} {s : Processes τ (RegistryShared τ β) (RegistryPc β)}
  {a : Processes τ (TcpShared τ β) (TcpPc β)} {s' : RegistryShared τ β} {p' : RegistryPc β}
  {k : TcpChoice β}

omit [DecidableEq τ] in
/-- The two stacks agree on every session. -/
theorem Refines.view (h : Refines s a) (i : ℕ) : a.shared.view i = s.shared.stack.view i := by
  obtain ⟨n, hn⟩ := h.shared
  rw [hn]
  rfl

omit [DecidableEq τ] in
/-- The thread stands in the atomic machine where its position says. -/
theorem Refines.pc_eq (h : Refines s a) {p : RegistryPc β} (hp : s.pc t = p) : a.pc t = p.atomic := by
  rw [h.pc, hp]

omit [DecidableEq τ] in
/-- What `insert` and `erase` find. -/
theorem Refines.finds (h : Refines s a) (hlate : (lateInv τ β).OfStack a) :
    (∀ i caller, s.pc t = .addSession i caller .insert →
      (s.shared.stack.sessions i).inSessions = false ∧ s.shared.stack.times (.added i) = 0) ∧
    ∀ i caller, s.pc t = .releaseSession i caller .erase →
      (s.shared.stack.sessions i).inSessions = true := by
  refine ⟨fun i caller hp => ?_, fun i caller hp => ?_⟩
  · obtain ⟨-, hnone⟩ := (hlate.each t i caller _ (h.pc_eq hp)).adding rfl
    rw [h.view] at hnone
    refine ⟨Bool.eq_false_iff.mpr fun hin => ?_, hnone⟩
    have hone := (hlate.shared i).inSessions
    rw [h.view] at hone
    exact absurd (hnone.symm.trans (hone hin)) Nat.zero_ne_one
  · have hin := (hlate.each t i caller _ (h.pc_eq hp)).registered trivial
    rwa [h.view] at hin

/-- **The step lemma.** -/
theorem RegistryInv.step (h : RegistryInv s) {o : Unit}
    (hact : registryAct c t s.shared (s.pc t) k = some (s', p', o)) (honce : ConnectsOnce s'.stack)
    (hlearns : LearnsLate s.shared.stack k) : RegistryInv ⟨s', Function.update s.pc t p'⟩ := by
  obtain ⟨a, hrefines, hlate, hadding⟩ := h.atomic
  obtain ⟨hinsert, herase⟩ := hrefines.finds (t := t) hlate
  refine ⟨?_, h.counter.step (registryAct_step hact).2 hinsert herase⟩
  rcases hrefines.step hact with hstutter | ⟨a', q', htcp, hmove⟩
  · exact ⟨a, hstutter, hlate, hadding⟩
  · have hlife : (lifeInv τ β).OfStack a :=
      ⟨fun i => (hlate.shared i).toLife, fun u i caller q hq => (hlate.each u i caller q hq).toLifeAt,
        hlate.pairs⟩
    have honce' : ConnectsOnce a' := by
      intro i
      have hview := congrArg SessionView.stored (hmove.view i)
      exact hview.le.trans (honce i)
    have hlearns' : LearnsLate a.shared k := by
      intro i hk
      have hview := congrArg SessionView.added (hrefines.view i)
      exact (hlearns i hk).trans_eq hview.symm
    have hstack := (tcpAct_move htcp).2
    exact ⟨_, hmove, lateInv_move hlate hstack honce' hlearns', fun i =>
      adding_move hlife (hadding i) hstack⟩

omit [DecidableEq τ] in
/-- The invariant holds at the start. -/
theorem RegistryInv.init : RegistryInv (registryInit τ β) where
  atomic := ⟨tcpInit τ β, refines_init, lateInv_init, fun i => .inl le_rfl⟩
  counter :=
    ⟨⟨fun _ => ⟨∅, fun i => by simp [registryInit], rfl⟩, fun i => le_rfl⟩,
      fun t => ⟨fun h => h.elim, fun depth h => (by cases h), fun h => h.elim⟩,
      fun _ _ _ => trivial⟩

omit [DecidableEq τ] in
/-- The invariants give the law. -/
theorem RegistryInv.law (h : RegistryInv s) : RegistryLaw s := by
  obtain ⟨a, hrefines, hlate, hadding⟩ := h.atomic
  have hlife : ∀ i, Late (s.shared.stack.view i) := by
    intro i
    rw [← hrefines.view]
    exact hlate.shared i
  have honce : ∀ i, s.shared.stack.times (.added i) ≤ 1 := fun i =>
    (hlife i).added.trans (hlife i).stored
  refine ⟨h.counter.shared.sized, fun i => ?_, honce, fun i => ?_, fun i => ?_, fun i =>
    ⟨(hlife i).crashed, fun t caller hp => (hrefines.finds hlate).2 i caller hp⟩⟩
  · rcases hadding i with hle | ⟨t, caller, hat⟩
    · have hview := hrefines.view i
      have hstored := congrArg SessionView.stored hview
      have hadded := congrArg SessionView.added hview
      refine .inl (le_antisymm ?_ (hlife i).added)
      exact hstored.symm.le.trans (hle.trans hadded.le)
    · obtain ⟨-, hnone⟩ := (hlate.each t i caller _ hat).adding rfl
      rw [hrefines.view] at hnone
      exact .inr ⟨hnone, t, caller, (hrefines.pc t).symm.trans hat⟩
  · have htotal := (hlife i).total
    have hstored := (hlife i).stored
    have hle : (s.shared.stack.view i).session.onDisconnectedRuns ≤ 1 := by omega
    exact hle
  · exact (Nat.le_add_right _ _).trans ((h.counter.shared.releases i).trans (honce i))

/-- A session that was stored is so from then on. -/
theorem registry_times_le_exec (c : ServiceConfig) {events : List (τ × TcpChoice β)}
    {e : Entry (Processes τ (RegistryShared τ β) (RegistryPc β)) (τ × TcpChoice β) (Option Unit)}
    (he : e ∈ (registryThreads τ β c).trace (registryInit τ β) events) (i : ℕ) :
    e.after.shared.stack.times (.stored i) ≤
      ((registryThreads τ β c).exec (registryInit τ β) events).shared.stack.times (.stored i) := by
  refine (registryThreads τ β c).after_le_exec_of_mem_trace
    (f := fun s => s.shared.stack.times (.stored i)) (fun s e => ?_) he
  refine interleave_step
    (I := fun s' : Processes τ (RegistryShared τ β) (RegistryPc β) =>
      s.shared.stack.times (.stored i) ≤ s'.shared.stack.times (.stored i)) le_rfl e
    fun s' p' o hact => ?_
  obtain ⟨-, hstep⟩ := registryAct_step hact
  generalize s.pc e.1 = p at hstep
  cases hstep with
  | stack _ htcp => exact (tcpAct_move htcp).2.times_le _ (.inl ⟨i, rfl⟩)
  | lock _ _ => exact le_rfl
  | @addSession j caller q _ _ _ _ hadd =>
      cases q with
      | insert =>
          cases hadd
          exact (Nat.le_add_right _ _).trans (times_record s.shared.stack e.1 (.added j) (.stored i)).ge
      | _ =>
          cases hadd
          exact le_rfl
  | @releaseSession j caller q _ _ _ _ hrelease =>
      cases q <;> cases hrelease <;> exact le_rfl

/-- **The registry law.** In every run that stores no session twice, and in which threads call `Send`
and `Disconnect` only on sessions that were added, the counter is the size of `_sessions` whenever the
lock is free, every session that was stored is added exactly once, `OnDisconnected` and
`ReleaseSession` run at most once for each, and `ReleaseSession` finds it. -/
theorem registry_law (c : ServiceConfig) (events : List (τ × TcpChoice β))
    (honce : ConnectsOnce
      ((registryThreads τ β c).exec (registryInit τ β) events).shared.stack)
    (hlearns : ∀ e ∈ (registryThreads τ β c).trace (registryInit τ β) events,
      e.output ≠ none → LearnsLate e.before.shared.stack e.input.2) :
    RegistryLaw ((registryThreads τ β c).exec (registryInit τ β) events) := by
  refine RegistryInv.law ?_
  refine (registryThreads τ β c).guarded_invariant
    (C := fun e => ConnectsOnce e.after.shared.stack ∧
      (e.output ≠ none → LearnsLate e.before.shared.stack e.input.2)) .init (fun s e h hC => ?_)
    events fun e he => ⟨fun i => (registry_times_le_exec c he i).trans (honce i), hlearns e he⟩
  obtain ⟨hafter, hlearns⟩ := hC
  rcases hact : registryAct c e.1 s.shared (s.pc e.1) e.2 with _ | ⟨s', p', o⟩
  · rwa [registryThreads, interleave_step_of_none hact]
  · rw [Transducer.entry_after, registryThreads, interleave_step_of_some hact] at hafter
    rw [Transducer.entry_output, registryThreads, interleave_step_of_some hact] at hlearns
    rw [registryThreads, interleave_step_of_some hact]
    exact h.step hact hafter (hlearns (Option.some_ne_none o))

open TcpChoice in
/-- A server accepts a session, whose peer then closes: the session is added and released. -/
def acceptReleaseRun : List (Unit × TcpChoice ℕ) :=
  [start, next .ok, next .ok, next .ok, next (.failed wsaIoPending), next .ok,
    dequeue (.acceptEx 0) 0 none, next .ok, next .ok, next .ok, next .ok, next .ok, next .ok,
    next .ok, next .ok, next .ok, next .ok, next .ok, next (.failed wsaIoPending), next .ok,
    next (.failed wsaIoPending),
    dequeue (.wsaRecv 0) 0 none, next .ok, next .ok, next .ok, next .ok,
    next (.failed wsaIoPending),
    dequeue (.disconnectEx 0) 0 none, next .ok, next .ok, next .ok, next .ok, next .ok,
    next .ok].map fun k => ((), k)

/-- The law in a run that accepts a client and releases it. -/
theorem registry_law_acceptReleaseRun :
    RegistryLaw ((registryThreads Unit ℕ ⟨.server, 1, true⟩).exec (registryInit Unit ℕ)
        acceptReleaseRun) ∧
      (((registryThreads Unit ℕ ⟨.server, 1, true⟩).exec (registryInit Unit ℕ)
        acceptReleaseRun).shared.stack.sessions 0).onDisconnectedRuns = 1 ∧
      ((registryThreads Unit ℕ ⟨.server, 1, true⟩).exec (registryInit Unit ℕ)
        acceptReleaseRun).shared.releases 0 = 1 := by
  have hlog : ((registryThreads Unit ℕ ⟨.server, 1, true⟩).exec (registryInit Unit ℕ)
      acceptReleaseRun).shared.stack.log.map Prod.snd =
        [.completed 0, .stored 0, .added 0, .onConnected 0] := by decide +kernel
  have hinputs : ∀ k ∈ acceptReleaseRun, ∀ i, k.2 ≠ .disconnect i ∧ ∀ b, k.2 ≠ .send i b := by
    simp [acceptReleaseRun]
  refine ⟨registry_law _ _ (fun i => ?_) fun e he _ i hk => ?_, by decide +kernel, by decide +kernel⟩
  · rw [TcpShared.times, hlog]
    exact List.nodup_iff_count_le_one.mp (by decide) _
  · obtain ⟨fs, k, gs, hes, rfl⟩ := Transducer.mem_trace_iff _ |>.mp he
    have hmem : k ∈ acceptReleaseRun := by
      rw [hes]
      exact List.mem_append_right _ List.mem_cons_self
    obtain ⟨hdisconnect, hsend⟩ := hinputs k hmem i
    rcases hk with hk | ⟨b, hk⟩
    · exact absurd hk hdisconnect
    · exact absurd hk (hsend b)

end runs

end CowboyPoker.ServerCore
