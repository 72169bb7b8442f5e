import CowboyPoker.ServerCore.TcpStack

/-!
# The life of a session

`ProcessConnect` stores `true` in `_connected` and adds the session to the service; the `Disconnect`
that exchanges it for `false` takes the right to release it, which goes through `DisconnectEx` and its
completion to `ReleaseSession`.

* `HoldsRelease` — a position that has the right. `LifeStep`, `EnterStep` — what a step does to
  `_connected`, to the right and to `_sessions`.
* `StackMove` — what a step of the stack does to its sessions.
* `SessionInv` — an invariant of one session and the threads in its members. `SessionInv.OfStack` — it
  holds of every session; `SessionInv.OfStack.update` — the step lemma. `StackMove.witness` — the rule
  for "`A` holds, or a thread is at a position in `T` of the session".
-/

namespace CowboyPoker.ServerCore

open CowboyPoker.Found

variable {τ β : Type}

/-! ## One session -/

/-- At a position that is to release the session: behind the exchange that took effect up to the call
of `DisconnectEx`, and in `ProcessDisconnect`. -/
def SessionPc.HoldsRelease : SessionPc β → Prop
  | .disconnect _ .init => True
  | .disconnect _ .disconnectEx => True
  | .processDisconnect _ => True
  | _ => False

/-- How often a thread at a position that holds the right has run `OnDisconnected`. -/
def SessionPc.ran : SessionPc β → ℕ
  | .processDisconnect .releaseSession => 1
  | _ => 0

/-- In `ProcessConnect`, before the end of `AddSession`. -/
def SessionPc.Starting : SessionPc β → Prop
  | .processConnect .store => True
  | .processConnect .addSession => True
  | _ => False

/-- In the error branch of `RegisterDisconnect`. -/
def SessionPc.Lost : SessionPc β → Prop
  | .disconnect _ .clearOwner => True
  | _ => False

/-- Nothing of a session's life changes. -/
structure SameLife (s s' : SessionShared τ β) : Prop where
  connected : s'.connected = s.connected
  disconnects : s'.disconnects = s.disconnects
  disconnectOwner : s'.disconnectOwner = s.disconnectOwner
  onDisconnectedRuns : s'.onDisconnectedRuns = s.onDisconnectedRuns
  inSessions : s'.inSessions = s.inSessions
  crashed : s'.crashed = s.crashed

/-- A position that has no part in the life of a session. -/
structure SessionPc.Idle (p : SessionPc β) : Prop where
  holds : ¬ p.HoldsRelease
  starting : ¬ p.Starting
  lost : ¬ p.Lost

/-- What the next step in a member of a session does to its life. -/
inductive LifeStep (s : SessionShared τ β) (r : CallResult) :
    SessionPc β → SessionShared τ β → SessionPc β → Prop
  /-- Nothing. -/
  | quiet {p s' p'} (hsame : SameLife s s') (hp : p.Idle) (hp' : p'.Idle) : LifeStep s r p s' p'
  /-- `_connected.store(true)`. -/
  | store : LifeStep s r (.processConnect .store) { s with connected := true }
      (.processConnect .addSession)
  /-- `AddSession`. -/
  | add : LifeStep s r (.processConnect .addSession) { s with inSessions := true }
      (.processConnect .onConnected)
  /-- `_connected.exchange(false)` takes effect. -/
  | take {caller} (hconnected : s.connected = true) :
      LifeStep s r (.disconnect caller .exchange) { s with connected := false }
        (.disconnect caller .init)
  /-- `_disconnectEvent` gets its owner. -/
  | own {caller} : LifeStep s r (.disconnect caller .init) { s with disconnectOwner := true }
      (.disconnect caller .disconnectEx)
  /-- `DisconnectEx` will have a completion. -/
  | post {caller} : LifeStep s r (.disconnect caller .disconnectEx)
      { s with disconnects := s.disconnects + 1 } caller.return
  /-- `DisconnectEx` fails at once. -/
  | lose {caller} (hfailed : r.error ≠ none) : LifeStep s r (.disconnect caller .disconnectEx) s
      (.disconnect caller .clearOwner)
  /-- The error branch takes the owner away. -/
  | abandon {caller} : LifeStep s r (.disconnect caller .clearOwner)
      { s with disconnectOwner := false } caller.return
  /-- `ProcessDisconnect` takes the owner away. -/
  | finish : LifeStep s r (.processDisconnect .clearOwner) { s with disconnectOwner := false }
      (.processDisconnect .onDisconnected)
  /-- `OnDisconnected`. -/
  | run : LifeStep s r (.processDisconnect .onDisconnected)
      { s with onDisconnectedRuns := s.onDisconnectedRuns + 1 } (.processDisconnect .releaseSession)
  /-- `ReleaseSession`. -/
  | release : LifeStep s r (.processDisconnect .releaseSession)
      { s with inSessions := false, crashed := !s.inSessions } .outside

/-- What a step that enters a member does to the life of the session. -/
inductive EnterStep (s : SessionShared τ β) (k : SessionChoice β) :
    SessionShared τ β → SessionPc β → Prop
  /-- Nothing. -/
  | quiet {s' p'} (hsame : SameLife s s') (hp' : p'.Idle) (hk : k ≠ .disconnected) :
      EnterStep s k s' p'
  /-- The completion of `DisconnectEx` is dequeued. -/
  | disconnected (hk : k = .disconnected) (hpos : s.disconnects ≠ 0) :
      EnterStep s k { s with disconnects := s.disconnects - 1 } (.processDisconnect .clearOwner)

section session

variable {t : τ} {s s' : SessionShared τ β} {p p' : SessionPc β} {r : CallResult}

/-- Where the state stays as it is, so does the life of the session. -/
theorem SameLife.refl (s : SessionShared τ β) : SameLife s s := ⟨rfl, rfl, rfl, rfl, rfl, rfl⟩

/-- The way back from `RegisterSend` has no part in the life of a session. -/
theorem idle_afterRegisterSend (nested : Bool) : (afterRegisterSend nested : SessionPc β).Idle := by
  cases nested <;> exact ⟨id, id, id⟩

/-- The way back from `RegisterDisconnect` has no part in the life of a session. -/
theorem idle_return (caller : DisconnectCaller) : (caller.return : SessionPc β).Idle := by
  cases caller <;> exact ⟨id, id, id⟩

/-- The way on from `HandleError` has no part in the life of a session: at most it calls
`Disconnect`. -/
theorem idle_handleError (caller : DisconnectCaller) (errorCode : ℕ) :
    (handleError caller errorCode : SessionPc β).Idle := by
  unfold handleError
  split
  · exact ⟨id, id, id⟩
  · exact idle_return caller

/-- A step between two positions without a part in the life of the session. -/
theorem LifeStep.move (hp : p.Idle) (hp' : p'.Idle) : LifeStep s r p s p' :=
  .quiet (.refl s) hp hp'

variable [DecidableEq τ]

/-- `Send` leaves the life of the session alone. -/
theorem sendStep_life {q : SendPc β} (h : sendStep t s q = some (s', p')) :
    LifeStep s r (.send q) s' p' := by
  have hp : (SessionPc.send q).Idle := ⟨id, id, id⟩
  cases q with
  | check sendBuffer =>
      cases h
      refine .move hp ?_
      split <;> exact ⟨id, id, id⟩
  | lock sendBuffer =>
      obtain ⟨lock, -, heq⟩ := Option.map_eq_some_iff.mp h
      cases heq
      exact .quiet ⟨rfl, rfl, rfl, rfl, rfl, rfl⟩ hp ⟨id, id, id⟩
  | push sendBuffer =>
      cases h
      exact .quiet ⟨rfl, rfl, rfl, rfl, rfl, rfl⟩ hp ⟨id, id, id⟩
  | exchange =>
      cases h
      exact .quiet ⟨rfl, rfl, rfl, rfl, rfl, rfl⟩ hp ⟨id, id, id⟩
  | unlock registerSend =>
      cases h
      refine .quiet ⟨rfl, rfl, rfl, rfl, rfl, rfl⟩ hp ?_
      split <;> exact ⟨id, id, id⟩

/-- `RegisterSend` leaves the life of the session alone. -/
theorem registerSendStep_life {nested : Bool} {q : RegisterSendPc β}
    (h : registerSendStep t s nested r q = some (s', p')) :
    LifeStep s r (.registerSend nested q) s' p' := by
  have hp : (SessionPc.registerSend nested q).Idle := ⟨id, id, id⟩
  cases q with
  | check =>
      cases h
      refine .move hp ?_
      split
      · exact ⟨id, id, id⟩
      · exact idle_afterRegisterSend nested
  | lock =>
      obtain ⟨lock, -, heq⟩ := Option.map_eq_some_iff.mp h
      cases heq
      exact .quiet ⟨rfl, rfl, rfl, rfl, rfl, rfl⟩ hp ⟨id, id, id⟩
  | drain =>
      simp only [registerSendStep] at h
      split at h <;> cases h <;> exact .quiet ⟨rfl, rfl, rfl, rfl, rfl, rfl⟩ hp ⟨id, id, id⟩
  | wsaSend wsaBufs =>
      simp only [registerSendStep] at h
      split at h <;> cases h
      · exact .quiet ⟨rfl, rfl, rfl, rfl, rfl, rfl⟩ hp (idle_afterRegisterSend nested)
      · exact .quiet ⟨rfl, rfl, rfl, rfl, rfl, rfl⟩ hp ⟨id, id, id⟩
  | handleError errorCode =>
      cases h
      exact .move hp (idle_handleError _ errorCode)
  | clearRegistered =>
      cases h
      exact .quiet ⟨rfl, rfl, rfl, rfl, rfl, rfl⟩ hp (idle_afterRegisterSend nested)
  | init | unlock | fill | clearOwner | clearBuffers =>
      cases h
      exact .quiet ⟨rfl, rfl, rfl, rfl, rfl, rfl⟩ hp ⟨id, id, id⟩

/-- `ProcessSend` leaves the life of the session alone. -/
theorem processSendStep_life {q : ProcessSendPc} (h : processSendStep t s q = some (s', p')) :
    LifeStep s r (.processSend q) s' p' := by
  have hp : (SessionPc.processSend q : SessionPc β).Idle := ⟨id, id, id⟩
  cases q with
  | check numOfBytes =>
      cases h
      refine .move hp ?_
      split <;> exact ⟨id, id, id⟩
  | lock =>
      obtain ⟨lock, -, heq⟩ := Option.map_eq_some_iff.mp h
      cases heq
      exact .quiet ⟨rfl, rfl, rfl, rfl, rfl, rfl⟩ hp ⟨id, id, id⟩
  | checkQueue =>
      cases h
      refine .move hp ?_
      split <;> exact ⟨id, id, id⟩
  | clearOwner | clearBuffers | onSend | clearRegistered | unlock =>
      cases h
      exact .quiet ⟨rfl, rfl, rfl, rfl, rfl, rfl⟩ hp ⟨id, id, id⟩

omit [DecidableEq τ] in
/-- What `Disconnect` and `RegisterDisconnect` do to the life of the session. -/
theorem disconnectStep_life {caller : DisconnectCaller} {q : DisconnectPc}
    (h : disconnectStep s caller r q = some (s', p')) :
    LifeStep s r (.disconnect caller q) s' p' := by
  cases q with
  | exchange =>
      cases h
      by_cases hconnected : s.connected
      · rw [if_pos hconnected]
        exact .take hconnected
      · rw [if_neg hconnected]
        have hfalse : s.connected = false := Bool.eq_false_iff.mpr hconnected
        exact .quiet ⟨hfalse.symm, rfl, rfl, rfl, rfl, rfl⟩ ⟨id, id, id⟩ (idle_return caller)
  | init =>
      cases h
      exact .own
  | disconnectEx =>
      simp only [disconnectStep] at h
      split at h
      · cases h
        exact .post
      · rename_i errorCode herror
        cases h
        exact .lose (by rw [herror]; exact Option.some_ne_none errorCode)
  | clearOwner =>
      cases h
      exact .abandon

omit [DecidableEq τ] in
/-- What `ProcessDisconnect` does to the life of the session. -/
theorem processDisconnectStep_life {q : ProcessDisconnectPc}
    (h : processDisconnectStep s q = some (s', p')) :
    LifeStep s r (.processDisconnect q) s' p' := by
  cases q <;> cases h
  · exact .finish
  · exact .run
  · exact .release

omit [DecidableEq τ] in
/-- What `ProcessConnect` does to the life of the session. -/
theorem processConnectStep_life {q : ProcessConnectPc}
    (h : processConnectStep s q = some (s', p')) : LifeStep s r (.processConnect q) s' p' := by
  cases q <;> cases h
  · exact .store
  · exact .add
  · exact .move ⟨id, id, id⟩ ⟨id, id, id⟩

omit [DecidableEq τ] in
/-- `RegisterRecv` leaves the life of the session alone. -/
theorem registerRecvStep_life {q : RegisterRecvPc} (h : registerRecvStep s r q = some (s', p')) :
    LifeStep s r (.registerRecv q) s' p' := by
  have hp : (SessionPc.registerRecv q : SessionPc β).Idle := ⟨id, id, id⟩
  cases q with
  | check =>
      cases h
      refine .move hp ?_
      split <;> exact ⟨id, id, id⟩
  | wsaRecv =>
      simp only [registerRecvStep] at h
      split at h <;> cases h <;> exact .quiet ⟨rfl, rfl, rfl, rfl, rfl, rfl⟩ hp ⟨id, id, id⟩
  | handleError errorCode =>
      cases h
      exact .move hp (idle_handleError _ errorCode)
  | init | clearOwner =>
      cases h
      exact .quiet ⟨rfl, rfl, rfl, rfl, rfl, rfl⟩ hp ⟨id, id, id⟩

omit [DecidableEq τ] in
/-- `ProcessRecv` leaves the life of the session alone. -/
theorem processRecvStep_life {q : ProcessRecvPc} (h : processRecvStep s r q = some (s', p')) :
    LifeStep s r (.processRecv q) s' p' := by
  have hp : (SessionPc.processRecv q : SessionPc β).Idle := ⟨id, id, id⟩
  cases q with
  | clearOwner numOfBytes =>
      cases h
      exact .quiet ⟨rfl, rfl, rfl, rfl, rfl, rfl⟩ hp ⟨id, id, id⟩
  | check numOfBytes =>
      cases h
      refine .move hp ?_
      split <;> exact ⟨id, id, id⟩
  | onRecv =>
      cases h
      refine .move hp ?_
      split <;> exact ⟨id, id, id⟩

/-- **The inversion of a step in a member.** -/
theorem nextStep_life (h : nextStep t s r p = some (s', p')) : LifeStep s r p s' p' := by
  cases p with
  | outside => cases h
  | send q => exact sendStep_life h
  | registerSend nested q => exact registerSendStep_life h
  | processSend q => exact processSendStep_life h
  | disconnect caller q => exact disconnectStep_life h
  | processDisconnect q => exact processDisconnectStep_life h
  | processConnect q => exact processConnectStep_life h
  | registerRecv q => exact registerRecvStep_life h
  | processRecv q => exact processRecvStep_life h

omit [DecidableEq τ] in
/-- **The inversion of a step into a member** other than `ProcessConnect`. -/
theorem enterStep_life {k : SessionChoice β} (hk : k ≠ .connected)
    (h : enterStep s k = some (s', p')) : EnterStep s k s' p' := by
  cases k with
  | send sendBuffer =>
      cases h
      exact .quiet (.refl s) ⟨id, id, id⟩ (by simp)
  | disconnect =>
      cases h
      exact .quiet (.refl s) ⟨id, id, id⟩ (by simp)
  | connected => exact absurd rfl hk
  | received numOfBytes =>
      obtain ⟨-, heq⟩ := Option.ite_none_left_eq_some.mp h
      cases heq
      exact .quiet ⟨rfl, rfl, rfl, rfl, rfl, rfl⟩ ⟨id, id, id⟩ (by simp)
  | sent numOfBytes =>
      simp only [enterStep] at h
      split at h <;> cases h
      exact .quiet ⟨rfl, rfl, rfl, rfl, rfl, rfl⟩ ⟨id, id, id⟩ (by simp)
  | disconnected =>
      obtain ⟨hpos, heq⟩ := Option.ite_none_left_eq_some.mp h
      cases heq
      exact .disconnected rfl hpos
  | next r => cases h

end session

/-! ## The sessions of the stack -/

/-- How often an event was recorded. -/
def TcpShared.times (s : TcpShared τ β) (event : ConnectionEvent) : ℕ :=
  (s.log.map Prod.snd).count event

/-- The member of a session that a thread outside enters by a choice. -/
def TcpChoice.enters : TcpChoice β → Option (ℕ × SessionChoice β)
  | .send i sendBuffer => some (i, .send sendBuffer)
  | .disconnect i => some (i, .disconnect)
  | .dequeue (.wsaRecv i) numOfBytes _ => some (i, .received numOfBytes)
  | .dequeue (.wsaSend i) numOfBytes _ => some (i, .sent numOfBytes)
  | .dequeue (.disconnectEx i) _ _ => some (i, .disconnected)
  | _ => none

/-- A step that counts no session and connects none. -/
structure StackKept (s s' : TcpShared τ β) : Prop where
  stored : ∀ i, s'.times (.stored i) = s.times (.stored i)
  added : ∀ i, s'.times (.added i) = s.times (.added i)
  sessionCount : s'.sessionCount = s.sessionCount

/-- A thread dequeues a completion that goes no further: `Dispatch` takes it for the end of a wait, or
its event has no owner. -/
def Drops (s : TcpShared τ β) (k : TcpChoice β) : Prop :=
  ∃ op numOfBytes errCode, k = .dequeue op numOfBytes errCode ∧
    (errCode = some waitTimeout ∨ s.hasOwner op = false)

/-- What a step of the stack does to its sessions. -/
inductive StackMove [DecidableEq τ] (t : τ) (s : TcpShared τ β) (p : TcpPc β) (k : TcpChoice β) :
    TcpShared τ β → TcpPc β → Prop
  /-- A step in a member of a session. -/
  | member {i caller q r x q'} (hp : p = .session i caller q) (hk : k = .next r)
      (hnext : nextStep t (s.sessions i) r q = some (x, q')) :
      StackMove t s p k ((s.around t i q).setSession i x) (.ofSession i caller q')
  /-- A thread enters a member of a session. -/
  | enter {i k' x q s'} (hp : p = .outside) (hk : k.enters = some (i, k'))
      (henter : enterStep (s.sessions i) k' = some (x, q)) (hkept : StackKept s s')
      (hsessions : s'.sessions = Function.update s.sessions i x) :
      StackMove t s p k s' (.session i .leave q)
  /-- A thread dequeues the completion of an operation of a session, which goes no further. -/
  | dropped {i k' x q s'} (hp : p = .outside) (hk : k.enters = some (i, k'))
      (henter : enterStep (s.sessions i) k' = some (x, q)) (hkept : StackKept s s')
      (hsessions : s'.sessions = Function.update s.sessions i x) (hdrops : Drops s k) :
      StackMove t s p k s' .outside
  /-- A step elsewhere, behind which the thread may be in `ProcessConnect`. -/
  | other {s' p'} (hp : ∀ i caller q, p ≠ .session i caller q) (hkept : StackKept s s')
      (hsessions : s'.sessions = s.sessions)
      (hp' : ∀ i caller q, p' = .session i caller q → q = .processConnect .store) :
      StackMove t s p k s' p'

section stack

variable {c : ServiceConfig} {t : τ} {s s' : TcpShared τ β} {p p' : TcpPc β} {r : CallResult}
  {k : TcpChoice β}

/-- The stack is kept where nothing happens. -/
theorem StackKept.refl (s : TcpShared τ β) : StackKept s s := ⟨fun _ => rfl, fun _ => rfl, rfl⟩

/-- One more entry of the log counts once, for its own event. -/
theorem times_record (s : TcpShared τ β) (t : τ) (event event' : ConnectionEvent) :
    (s.record t event).times event' = s.times event' + if event = event' then 1 else 0 := by
  simp only [TcpShared.times, TcpShared.record, List.map_append, List.map_cons, List.map_nil,
    List.count_append, List.count_singleton, beq_iff_eq]

/-- What an `AcceptEx` or a `ConnectEx` has connected is not stored yet. -/
theorem stackKept_succeed (s : TcpShared τ β) (t : τ) (i : ℕ) : StackKept s (s.succeed t i) where
  stored j := by
    rw [TcpShared.succeed, times_record, if_neg (by simp)]
    rfl
  added j := by
    rw [TcpShared.succeed, times_record, if_neg (by simp)]
    rfl
  sessionCount := rfl

variable [DecidableEq τ]

/-- A step elsewhere that touches nothing of a session. -/
theorem StackMove.elsewhere (hp : ∀ i caller q, p ≠ .session i caller q)
    (hlog : s'.log = s.log) (hcount : s'.sessionCount = s.sessionCount)
    (hsessions : s'.sessions = s.sessions)
    (hp' : ∀ i caller q, p' = .session i caller q → q = .processConnect .store) :
    StackMove t s p k s' p' := by
  refine .other hp ⟨fun i => ?_, fun i => ?_, hcount⟩ hsessions hp'
  · rw [TcpShared.times, hlog]
    rfl
  · rw [TcpShared.times, hlog]
    rfl

/-- `RegisterAccept` keeps the sessions that exist, and what each of them does. -/
theorem registerAcceptStep_move {e : ℕ} {caller : RegisterAcceptCaller} {q : RegisterAcceptPc}
    (h : registerAcceptStep s e caller r q = some (s', p')) :
    StackMove t s (.registerAccept e caller q) k s' p' := by
  cases q with
  | createSession =>
      simp only [registerAcceptStep, TcpShared.createSession] at h
      by_cases hr : r = .ok
      · rw [if_pos hr] at h
        cases h
        exact .elsewhere (by simp) rfl rfl rfl (by simp)
      · rw [if_neg hr] at h
        cases h
        exact .elsewhere (by simp) rfl rfl rfl (by simp)
  | acceptEx i =>
      simp only [registerAcceptStep] at h
      split at h <;> cases h
      · refine .elsewhere (by simp) rfl rfl rfl fun i caller' q hq => ?_
        cases caller <;> cases hq
      · exact .elsewhere (by simp) rfl rfl rfl (by simp)

/-- `ProcessAccept` hands a session over to `ProcessConnect`, or keeps the sessions as they are. -/
theorem processAcceptStep_move {e : ℕ} {q : ProcessAcceptPc}
    (h : processAcceptStep s e r q = some (s', p')) :
    StackMove t s (.processAccept e q) k s' p' := by
  cases q with
  | readSession =>
      simp only [processAcceptStep] at h
      split at h <;> cases h <;> exact .elsewhere (by simp) rfl rfl rfl (by simp)
  | setUpdateAcceptSocket i =>
      cases h
      refine .elsewhere (by simp) rfl rfl rfl fun j caller q hq => ?_
      split at hq <;> cases hq
  | getpeername i =>
      cases h
      refine .elsewhere (by simp) rfl rfl rfl fun j caller q hq => ?_
      split at hq <;> cases hq
      rfl

/-- `StartAccept` keeps the sessions. -/
theorem startAcceptStep_move {q : StartAcceptPc}
    (h : startAcceptStep c s r q = some (s', p')) :
    StackMove t s (.startAccept q) k s' p' := by
  cases q with
  | listen =>
      cases h
      refine .elsewhere (by simp) rfl rfl rfl fun j caller q hq => ?_
      split at hq <;> cases hq
  | loop i =>
      simp only [startAcceptStep] at h
      split at h <;> cases h <;> exact .elsewhere (by simp) rfl rfl rfl (by simp)

/-- `ClientService::Start` goes on to a session it created, or keeps the sessions. -/
theorem clientStartStep_move {i : ℤ} (h : clientStartStep c s r i = some (s', p')) :
    StackMove t s (.clientStart i) k s' p' := by
  simp only [clientStartStep, TcpShared.createSession] at h
  by_cases hi : i < c.maxSessionCount
  · rw [if_pos hi] at h
    by_cases hr : r = .ok
    · rw [if_pos hr] at h
      cases h
      exact .elsewhere (by simp) rfl rfl rfl (by simp)
    · rw [if_neg hr] at h
      cases h
      exact .elsewhere (by simp) rfl rfl rfl (by simp)
  · rw [if_neg hi] at h
    cases h
    exact .elsewhere (by simp) rfl rfl rfl (by simp)

/-- `Connect` and `RegisterConnect` keep the sessions. -/
theorem registerConnectStep_move {i : ℕ} {caller : ConnectCaller} {q : RegisterConnectPc}
    (h : registerConnectStep c s i caller r q = some (s', p')) :
    StackMove t s (.connect i caller q) k s' p' := by
  cases q with
  | check | checkServiceType | bind =>
      cases h
      refine .elsewhere (by simp) rfl rfl rfl fun j caller' q hq => ?_
      split at hq <;> cases hq
  | init | clearOwner =>
      cases h
      exact .elsewhere (by simp) rfl rfl rfl (by simp)
  | connectEx =>
      simp only [registerConnectStep] at h
      split at h <;> cases h
      · refine .elsewhere (by simp) rfl rfl rfl fun j caller' q hq => ?_
        cases caller <;> cases hq
      · exact .elsewhere (by simp) rfl rfl rfl (by simp)

/-- A step inside a member moves at most one session. -/
theorem tcpNext_move (h : tcpNext c t s r p = some (s', p')) :
    StackMove t s p (.next r) s' p' := by
  cases p with
  | outside => cases h
  | clientStart i => exact clientStartStep_move h
  | startAccept q => exact startAcceptStep_move h
  | registerAccept e caller q => exact registerAcceptStep_move h
  | processAccept e q => exact processAcceptStep_move h
  | connect i caller q => exact registerConnectStep_move h
  | session i caller q =>
      obtain ⟨⟨x, q'⟩, hnext, heq⟩ := Option.map_eq_some_iff.mp h
      cases heq
      exact .member rfl rfl hnext

omit [DecidableEq τ] in
/-- What completes behind the back of the sessions. -/
theorem completeStep_other {op : TcpOperation} {numOfBytes : ℕ} {success : Bool}
    (hop : ∀ n errCode, (TcpChoice.dequeue op n errCode : TcpChoice β).enters = none)
    (h : completeStep t s numOfBytes success op = some (s', p')) :
    StackKept s s' ∧ s'.sessions = s.sessions ∧
      ∀ i caller q, p' = .session i caller q → q = .processConnect .store := by
  have hkept : ∀ {s₁ : TcpShared τ β} {i : ℕ}, s₁.log = s.log → s₁.sessionCount = s.sessionCount →
      s₁.sessions = s.sessions →
      StackKept s (if success then s₁.succeed t i else s₁) ∧
        (if success then s₁.succeed t i else s₁).sessions = s.sessions := by
    intro s₁ i hlog hcount hsessions
    have hbase : StackKept s s₁ := by
      refine ⟨fun j => ?_, fun j => ?_, hcount⟩
      · rw [TcpShared.times, hlog]
        rfl
      · rw [TcpShared.times, hlog]
        rfl
    cases success with
    | false => exact ⟨hbase, hsessions⟩
    | true =>
        have hsucceed := stackKept_succeed s₁ t i
        exact ⟨⟨fun j => (hsucceed.stored j).trans (hbase.stored j),
          fun j => (hsucceed.added j).trans (hbase.added j), hcount⟩, hsessions⟩
  cases op with
  | connectEx i =>
      obtain ⟨-, heq⟩ := Option.ite_none_left_eq_some.mp h
      cases heq
      obtain ⟨hk, hsessions⟩ := @hkept
        { s with connects := Function.update s.connects i (s.connects i - 1) } i rfl rfl rfl
      exact ⟨hk, hsessions, fun j caller q hq => by cases hq; rfl⟩
  | acceptEx e =>
      simp only [completeStep] at h
      split at h
      · cases h
      · rename_i i _
        cases h
        obtain ⟨hk, hsessions⟩ := @hkept
          { s with accepting := Function.update s.accepting e none } i rfl rfl rfl
        exact ⟨hk, hsessions, fun j caller q hq => by cases hq⟩
  | wsaRecv i => cases hop 0 none
  | wsaSend i => cases hop 0 none
  | disconnectEx i => cases hop 0 none

omit [DecidableEq τ] in
/-- What completes enters a member of a session otherwise. -/
theorem completeStep_enters {op : TcpOperation} {numOfBytes : ℕ} {success : Bool} {i : ℕ}
    {errCode : Option ℕ} {k' : SessionChoice β}
    (hop : (TcpChoice.dequeue op numOfBytes errCode : TcpChoice β).enters = some (i, k'))
    (h : completeStep t s numOfBytes success op = some (s', p')) :
    ∃ x q, enterStep (s.sessions i) k' = some (x, q) ∧ s' = s.setSession i x ∧
      p' = .session i .leave q := by
  cases op with
  | connectEx j => cases hop
  | acceptEx e => cases hop
  | wsaRecv j | wsaSend j | disconnectEx j =>
      cases hop
      obtain ⟨⟨x, q⟩, henter, heq⟩ := Option.map_eq_some_iff.mp h
      cases heq
      exact ⟨x, q, henter, rfl, rfl⟩

/-- `Dispatch` of a completion moves at most one session. -/
theorem dispatchStep_move {op : TcpOperation} {numOfBytes : ℕ} {errCode : Option ℕ}
    (h : dispatchStep t s op numOfBytes errCode = some (s', p')) :
    StackMove t s .outside (.dequeue op numOfBytes errCode) s' p' := by
  obtain ⟨s₁, p₁, hcomplete, hends⟩ := dispatchStep_eq_some h
  rcases hop : (TcpChoice.dequeue op numOfBytes errCode : TcpChoice β).enters with _ | ⟨i, k'⟩
  · have hnone : ∀ n e, (TcpChoice.dequeue op n e : TcpChoice β).enters = none := by
      intro n e
      cases op <;> first | rfl | cases hop
    obtain ⟨hkept, hsessions, hp'⟩ := completeStep_other hnone hcomplete
    rcases hends with ⟨-, rfl, rfl⟩ | ⟨-, -, rfl, rfl⟩ | ⟨-, rfl, rfl⟩
    · exact .other (by simp) hkept hsessions (by simp)
    · exact .other (by simp) hkept hsessions hp'
    · exact .other (by simp) ⟨hkept.stored, hkept.added, hkept.sessionCount⟩ hsessions (by simp)
  · obtain ⟨x, q, henter, rfl, rfl⟩ := completeStep_enters hop hcomplete
    have hkept : StackKept s (s.setSession i x) := ⟨fun _ => rfl, fun _ => rfl, rfl⟩
    rcases hends with ⟨htimeout, rfl, rfl⟩ | ⟨-, -, rfl, rfl⟩ | ⟨howner, rfl, rfl⟩
    · exact .dropped rfl hop henter hkept rfl ⟨op, numOfBytes, errCode, rfl, .inl htimeout⟩
    · exact .enter rfl hop henter hkept rfl
    · exact .dropped rfl hop henter ⟨fun _ => rfl, fun _ => rfl, rfl⟩ rfl
        ⟨op, numOfBytes, errCode, rfl, .inr howner⟩

/-- A step that enters a member moves at most one session. -/
theorem tcpEnter_move (h : tcpEnter c t s k = some (s', p')) :
    StackMove t s .outside k s' p' := by
  cases k with
  | start =>
      cases h
      refine .elsewhere (by simp) rfl rfl rfl fun i caller q hq => ?_
      split at hq
      · split at hq <;> cases hq
      · cases hq
  | connect i =>
      obtain ⟨-, heq⟩ := Option.ite_none_right_eq_some.mp h
      cases heq
      exact .elsewhere (by simp) rfl rfl rfl (by simp)
  | send i sendBuffer | disconnect i =>
      obtain ⟨-, heq⟩ := Option.ite_none_right_eq_some.mp h
      cases heq
      exact .enter rfl rfl rfl (.refl s) (Function.update_eq_self i s.sessions).symm
  | dequeue op numOfBytes errCode => exact dispatchStep_move h
  | next r => cases h

/-- **The inversion of a step of the stack**, as its sessions see it. -/
theorem tcpAct_move {o : Unit} (h : tcpAct c t s p k = some (s', p', o)) :
    s.crashed = false ∧ StackMove t s p k s' p' := by
  obtain ⟨hcrashed, hstep⟩ := tcpAct_eq_some h
  rcases hstep with ⟨rfl, henter⟩ | ⟨r, rfl, hnext⟩
  · exact ⟨hcrashed, tcpEnter_move henter⟩
  · exact ⟨hcrashed, tcpNext_move hnext⟩

end stack

/-! ## Local invariants of each session -/

/-- A session, and how often it was stored and added. -/
structure SessionView (τ β : Type) where
  session : SessionShared τ β
  stored : ℕ
  added : ℕ

/-- The part of the stack that belongs to a session. -/
def TcpShared.view (s : TcpShared τ β) (i : ℕ) : SessionView τ β :=
  ⟨s.sessions i, s.times (.stored i), s.times (.added i)⟩

/-- How often the next step at a position stores. -/
def SessionPc.stores : SessionPc β → ℕ
  | .processConnect .store => 1
  | _ => 0

/-- How often the next step at a position adds. -/
def SessionPc.adds : SessionPc β → ℕ
  | .processConnect .addSession => 1
  | _ => 0

/-- A session after a step at `q` that leaves it as `x`. -/
def SessionView.after (v : SessionView τ β) (q : SessionPc β) (x : SessionShared τ β) :
    SessionView τ β :=
  ⟨x, v.stored + q.stores, v.added + q.adds⟩

/-- A property of a session, one of each thread in a member of it, and one of any two such threads.
A thread that is at the start of `ProcessConnect`, or outside, is asked for nothing. -/
structure SessionInv (τ β : Type) where
  shared : SessionView τ β → Prop
  each : SessionPc β → SessionView τ β → Prop
  pairs : SessionPc β → SessionPc β → Prop
  each_outside : ∀ v, each .outside v
  each_store : ∀ v, shared v → each (.processConnect .store) v
  pairs_outside : ∀ q, pairs .outside q ∧ pairs q .outside
  pairs_store : ∀ q, pairs (.processConnect .store) q ∧ pairs q (.processConnect .store)

/-- A step of a thread at `q` to `q'`, which leaves the session as `x`, keeps the invariant. -/
structure SessionInv.Keeps (I : SessionInv τ β) (v : SessionView τ β) (q : SessionPc β)
    (x : SessionShared τ β) (q' : SessionPc β) : Prop where
  shared : I.shared (v.after q x)
  self : I.each q' (v.after q x)
  others : ∀ u, I.pairs q u → I.each u v →
    I.each u (v.after q x) ∧ I.pairs q' u ∧ I.pairs u q'

/-- The invariant holds of every session. -/
abbrev SessionInv.OfStack (I : SessionInv τ β) : Processes τ (TcpShared τ β) (TcpPc β) → Prop :=
  LocalInv (fun s => ∀ i, I.shared (s.view i))
    (fun _ s p => ∀ i caller q, p = .session i caller q → I.each q (s.view i))
    fun p p' => ∀ i caller q caller' q', p = .session i caller q → p' = .session i caller' q' →
      I.pairs q q'

section lift

variable {I : SessionInv τ β} {t : τ} {s s' : TcpShared τ β} {i : ℕ} {q q' : SessionPc β}
  {x : SessionShared τ β}

/-- A thread that would enter a member, and does not, disturbs no more. -/
theorem SessionInv.Keeps.outside {v : SessionView τ β} (h : I.Keeps v .outside x q) :
    I.Keeps v .outside x .outside where
  shared := h.shared
  self := I.each_outside _
  others u hu heach := ⟨(h.others u hu heach).1, I.pairs_outside u⟩

/-- A step that keeps the stack and the sessions keeps the view of every session. -/
theorem view_of_kept (hkept : StackKept s s') (hsessions : s'.sessions = s.sessions) (j : ℕ) :
    s'.view j = s.view j := by
  simp only [TcpShared.view, hkept.stored j, hkept.added j, hsessions]

/-- A thread that enters a member of a session changes the view of that one. -/
theorem view_enter (hkept : StackKept s s') (hsessions : s'.sessions = Function.update s.sessions i x) :
    s'.view i = (s.view i).after .outside x ∧ ∀ j, j ≠ i → s'.view j = s.view j := by
  refine ⟨?_, fun j hj => ?_⟩
  · simp only [TcpShared.view, hkept.stored i, hkept.added i, hsessions, Function.update_self]
    rfl
  · simp only [TcpShared.view, hkept.stored j, hkept.added j, hsessions, Function.update_of_ne hj]

/-- How often sessions are stored and added by a step at `q`. -/
theorem times_around (s : TcpShared τ β) (t : τ) (i : ℕ) (q : SessionPc β) (j : ℕ) :
    (s.around t i q).times (.stored j) = s.times (.stored j) + (if j = i then q.stores else 0) ∧
      (s.around t i q).times (.added j) = s.times (.added j) + if j = i then q.adds else 0 := by
  have hnone : q.stores = 0 → q.adds = 0 → (∀ event, (s.around t i q).times event = s.times event) →
      (s.around t i q).times (.stored j) = s.times (.stored j) + (if j = i then q.stores else 0) ∧
        (s.around t i q).times (.added j) =
          s.times (.added j) + if j = i then q.adds else 0 := by
    intro hstores hadds htimes
    rw [hstores, hadds, ite_self, htimes, htimes]
    exact ⟨rfl, rfl⟩
  cases q with
  | processConnect q =>
      cases q with
      | store =>
          simp only [TcpShared.around, times_record, ConnectionEvent.stored.injEq, reduceCtorEq,
            if_false, SessionPc.stores, SessionPc.adds, eq_comm (a := i)]
          exact ⟨rfl, by rw [ite_self]; rfl⟩
      | addSession =>
          simp only [TcpShared.around, times_record, ConnectionEvent.added.injEq, reduceCtorEq,
            if_false, SessionPc.stores, SessionPc.adds, eq_comm (a := i)]
          exact ⟨by rw [ite_self]; rfl, rfl⟩
      | onConnected =>
          simp only [TcpShared.around, times_record, reduceCtorEq, if_false, SessionPc.stores,
            SessionPc.adds, ite_self, Nat.add_zero, and_self]
  | processDisconnect q =>
      cases q with
      | releaseSession =>
          refine hnone rfl rfl fun event => ?_
          simp only [TcpShared.around]
          split <;> rfl
      | _ => exact hnone rfl rfl fun event => rfl
  | _ => exact hnone rfl rfl fun event => rfl

/-- What stands around a step of a session leaves the sessions as they are. -/
theorem sessions_around (s : TcpShared τ β) (t : τ) (i : ℕ) (q : SessionPc β) :
    (s.around t i q).sessions = s.sessions := by
  cases q with
  | processConnect q => cases q <;> rfl
  | processDisconnect q =>
      cases q with
      | releaseSession =>
          simp only [TcpShared.around]
          split <;> rfl
      | _ => rfl
  | _ => rfl

/-- A step in a member changes the view of its session. -/
theorem view_member (s : TcpShared τ β) (t : τ) (i : ℕ) (q : SessionPc β) (x : SessionShared τ β) :
    ((s.around t i q).setSession i x).view i = (s.view i).after q x ∧
      ∀ j, j ≠ i → ((s.around t i q).setSession i x).view j = s.view j := by
  refine ⟨?_, fun j hj => ?_⟩
  · obtain ⟨hstored, hadded⟩ := times_around s t i q i
    rw [if_pos rfl] at hstored hadded
    have hsession : ((s.around t i q).setSession i x).sessions i = x := Function.update_self ..
    simp only [TcpShared.view, hsession]
    exact congrArg₂ (SessionView.mk x) hstored hadded
  · obtain ⟨hstored, hadded⟩ := times_around s t i q j
    rw [if_neg hj] at hstored hadded
    have hsession : ((s.around t i q).setSession i x).sessions j = s.sessions j := by
      simp only [TcpShared.setSession, Function.update_of_ne hj, sessions_around]
    simp only [TcpShared.view, hsession]
    exact congrArg₂ (SessionView.mk (s.sessions j)) hstored hadded

/-- A thread that has not returned from a member of a session is in that session. -/
theorem ofSession_of_ne {caller : SessionCaller} (h : q ≠ .outside) :
    (TcpPc.ofSession i caller q : TcpPc β) = .session i caller q := by
  cases q with
  | outside => exact absurd rfl h
  | _ => rfl

/-- A thread in a session after the step was in that session before it. -/
theorem ofSession_eq_session {caller caller' : SessionCaller} {j : ℕ}
    (h : (TcpPc.ofSession i caller q : TcpPc β) = .session j caller' q') : j = i ∧ q' = q := by
  cases q with
  | outside => cases caller <;> cases h
  | _ =>
      cases h
      exact ⟨rfl, rfl⟩

variable [DecidableEq τ]

/-- One session changes, in a way that keeps the invariant. -/
theorem SessionInv.OfStack.change {s : Processes τ (TcpShared τ β) (TcpPc β)} (h : I.OfStack s)
    {p' : TcpPc β} (hview : s'.view i = (s.shared.view i).after q x ∧
      ∀ j, j ≠ i → s'.view j = s.shared.view j)
    (hpairs : ∀ u, u ≠ t → ∀ caller q₂, s.pc u = .session i caller q₂ → I.pairs q q₂)
    (hkeeps : I.Keeps (s.shared.view i) q x q')
    (hp' : ∀ j caller q₂, p' = .session j caller q₂ → j = i ∧ q₂ = q') :
    I.OfStack ⟨s', Function.update s.pc t p'⟩ := by
  obtain ⟨hself, hother⟩ := hview
  refine LocalInv.update h (fun j => ?_) (fun j caller q₂ hq₂ => ?_) fun u hu => ?_
  · by_cases hj : j = i
    · subst hj
      rw [hself]
      exact hkeeps.shared
    · rw [hother j hj]
      exact h.shared j
  · obtain ⟨rfl, rfl⟩ := hp' j caller q₂ hq₂
    rw [hself]
    exact hkeeps.self
  · refine ⟨fun j caller q₂ hq₂ => ?_, fun j caller q₁ caller' q₂ hq₁ hq₂ => ?_,
      fun j caller q₁ caller' q₂ hq₁ hq₂ => ?_⟩
    · by_cases hj : j = i
      · subst hj
        rw [hself]
        exact (hkeeps.others q₂ (hpairs u hu caller q₂ hq₂) (h.each u j caller q₂ hq₂)).1
      · rw [hother j hj]
        exact h.each u j caller q₂ hq₂
    · obtain ⟨rfl, rfl⟩ := hp' j caller q₁ hq₁
      exact (hkeeps.others q₂ (hpairs u hu caller' q₂ hq₂) (h.each u j caller' q₂ hq₂)).2.1
    · obtain ⟨rfl, rfl⟩ := hp' j caller' q₂ hq₂
      exact (hkeeps.others q₁ (hpairs u hu caller q₁ hq₁) (h.each u j caller q₁ hq₁)).2.2

/-- **The step lemma for an invariant of each session**: what the steps in the members and into them
keep, the stack keeps. -/
theorem SessionInv.OfStack.update {s : Processes τ (TcpShared τ β) (TcpPc β)} (h : I.OfStack s)
    {p' : TcpPc β} {k : TcpChoice β} (hmove : StackMove t s.shared (s.pc t) k s' p')
    (hmember : ∀ i caller q r x q', s.pc t = .session i caller q → k = .next r →
      nextStep t (s.shared.sessions i) r q = some (x, q') → I.Keeps (s.shared.view i) q x q')
    (henter : ∀ i k' x q, k.enters = some (i, k') → enterStep (s.shared.sessions i) k' = some (x, q) →
      I.Keeps (s.shared.view i) .outside x q) :
    I.OfStack ⟨s', Function.update s.pc t p'⟩ := by
  generalize hp : s.pc t = p at hmove
  cases hmove with
  | @member i caller q r x q' hp₁ hk hnext =>
      have hp := hp.trans hp₁
      refine h.change (view_member s.shared t i q x) (fun u hu caller₂ q₂ hq₂ => ?_)
        (hmember i caller q r x q' hp hk hnext) fun j caller₂ q₂ hq₂ => ofSession_eq_session hq₂
      exact h.pairs t u (Ne.symm hu) i caller q caller₂ q₂ hp hq₂
  | @enter i k' x q _ _ hk hstep hkept hsessions =>
      refine h.change (view_enter hkept hsessions) (fun _ _ _ q₂ _ => (I.pairs_outside q₂).1)
        (henter i k' x q hk hstep) fun j caller₂ q₂ hq₂ => ?_
      cases hq₂
      exact ⟨rfl, rfl⟩
  | @dropped i k' x q _ _ hk hstep hkept hsessions _ =>
      exact h.change (view_enter hkept hsessions) (fun _ _ _ q₂ _ => (I.pairs_outside q₂).1)
        (henter i k' x q hk hstep).outside (by simp)
  | other _ hkept hsessions hp' =>
      have hview := view_of_kept hkept hsessions
      refine LocalInv.update h (fun j => ?_) (fun j caller q hq => ?_) fun u hu => ?_
      · rw [hview]
        exact h.shared j
      · rw [hview, hp' j caller q hq]
        exact I.each_store _ (h.shared j)
      · refine ⟨fun j caller q hq => ?_, fun j caller q₁ caller' q₂ hq₁ hq₂ => ?_,
          fun j caller q₁ caller' q₂ hq₁ hq₂ => ?_⟩
        · rw [hview]
          exact h.each u j caller q hq
        · rw [hp' j caller q₁ hq₁]
          exact (I.pairs_store q₂).1
        · rw [hp' j caller' q₂ hq₂]
          exact (I.pairs_store q₁).2

/-- **The rule for a witness in a session**: `A` holds of the stack, or a thread stands at a position in
`T` of a member of the session. -/
theorem StackMove.witness {A : TcpShared τ β → Prop} {T : SessionPc β → Prop}
    {s : Processes τ (TcpShared τ β) (TcpPc β)} {k : TcpChoice β} {p' : TcpPc β}
    (hmove : StackMove t s.shared (s.pc t) k s' p')
    (h : WitnessInv A (fun p => ∃ caller q, p = .session i caller q ∧ T q) s) (hT : ¬ T .outside)
    (hkept : s'.view i = s.shared.view i → A s.shared → A s')
    (hmember : ∀ caller q r x q', s.pc t = .session i caller q → k = .next r →
      nextStep t (s.shared.sessions i) r q = some (x, q') →
      s' = (s.shared.around t i q).setSession i x → A s.shared ∨ T q → A s' ∨ T q')
    (henter : ∀ k' x q, k.enters = some (i, k') → enterStep (s.shared.sessions i) k' = some (x, q) →
      s'.view i = (s.shared.view i).after .outside x → A s.shared → A s' ∨ T q)
    (hdropped : ∀ k' x q, s.pc t = .outside → k.enters = some (i, k') →
      enterStep (s.shared.sessions i) k' = some (x, q) →
      s'.view i = (s.shared.view i).after .outside x → Drops s.shared k → A s.shared → A s') :
    WitnessInv A (fun p => ∃ caller q, p = .session i caller q ∧ T q)
      ⟨s', Function.update s.pc t p'⟩ := by
  refine h.update fun hbefore => ?_
  -- a thread elsewhere is no witness
  have hshared : (∀ caller q, s.pc t ≠ .session i caller q) → A s.shared := fun hno =>
    hbefore.resolve_right fun ⟨caller, q, hat, _⟩ => hno caller q hat
  generalize hp : s.pc t = p at hmove
  cases hmove with
  | @member j caller q r x q' hp' hk hnext =>
      have hpq : s.pc t = .session j caller q := hp.trans hp'
      by_cases hij : i = j
      · subst hij
        have hat : A s.shared ∨ T q := by
          refine hbefore.imp_right fun ⟨caller', q₂, hat, hT₂⟩ => ?_
          cases hpq.symm.trans hat
          exact hT₂
        refine (hmember caller q r x q' hpq hk hnext rfl hat).imp_right fun hT' => ?_
        have hne : q' ≠ .outside := fun heq => hT (heq ▸ hT')
        exact ⟨caller, q', ofSession_of_ne hne, hT'⟩
      · refine .inl (hkept ((view_member s.shared t j q x).2 i hij) (hshared fun caller' q₂ hat => ?_))
        cases hpq.symm.trans hat
        exact hij rfl
  | @enter j k' x q _ hout hk hstep hkept' hsessions =>
      have hA := hshared fun caller' q₂ hat => by cases (hp.trans hout).symm.trans hat
      obtain ⟨hself, hother⟩ := view_enter hkept' hsessions
      by_cases hij : i = j
      · subst hij
        exact (henter k' x q hk hstep hself hA).imp_right fun hT' => ⟨.leave, q, rfl, hT'⟩
      · exact .inl (hkept (hother i hij) hA)
  | @dropped j k' x q _ hout hk hstep hkept' hsessions hdrops =>
      have hA := hshared fun caller' q₂ hat => by cases (hp.trans hout).symm.trans hat
      obtain ⟨hself, hother⟩ := view_enter hkept' hsessions
      by_cases hij : i = j
      · subst hij
        exact .inl (hdropped k' x q (hp.trans hout) hk hstep hself hdrops hA)
      · exact .inl (hkept (hother i hij) hA)
  | other hno hkept' hsessions _ =>
      exact .inl (hkept (view_of_kept hkept' hsessions i)
        (hshared fun caller' q₂ hat => hno i caller' q₂ (hp.symm.trans hat)))

end lift

end CowboyPoker.ServerCore
