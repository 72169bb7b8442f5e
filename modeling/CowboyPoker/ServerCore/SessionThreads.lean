import CowboyPoker.Found.Interleaving

/-!
# `Session`: its members as threads run them

Any number of threads call `Send` and `Disconnect` and dispatch the completions of one session. Each
statement of a member that touches the session is a step of its own, so that a completion can run
before the call that posted it has returned.

* `SessionShared` — the members of the session, its lock, and what the kernel knows of it: which
  operations are outstanding. `pushed` and `handed` log the buffers that entered the queue and the
  lists that were passed to `WSASend`; no step reads them.
* `SessionPc` — where a thread is, one inductive type for each member function.
* `sendStep`, `registerSendStep`, … — what a thread does there, one function for each member
  function. `sessionThreads` — all interleavings.
* `SendPathKept`, `SessionQuiet` — what the steps outside of the send path leave alone, and those
  outside of `ProcessConnect`.

The session connects once: the completion that runs `ProcessConnect` is there from the start and can
be dequeued once. A call that content code makes from within `OnConnected`, `OnRecv`, `OnSend` or
`OnDisconnected` interleaves like one of another thread, since no lock is held there.
-/

namespace CowboyPoker.ServerCore

open CowboyPoker.Found

/-! ## Calls into the system -/

/-- `WSA_IO_PENDING`. -/
def wsaIoPending : ℕ := 997

/-- `WAIT_TIMEOUT`. -/
def waitTimeout : ℕ := 258

/-- `WSAECONNABORTED`. -/
def wsaEConnAborted : ℕ := 10053

/-- `WSAECONNRESET`. -/
def wsaEConnReset : ℕ := 10054

/-- How the call that a step makes ends. -/
inductive CallResult
  /-- It succeeds. -/
  | ok
  /-- It fails, and `WSAGetLastError` returns the code. -/
  | failed (errorCode : ℕ)
  deriving DecidableEq, Repr

/-- The error that an asynchronous call failed with at once; `none` when a completion will come. -/
def CallResult.error : CallResult → Option ℕ
  | ok => none
  | failed errorCode => if errorCode = wsaIoPending then none else some errorCode

/-! ## The lock -/

/-- The lock of a session: the thread that holds it, and how often it has acquired it. -/
abbrev SessionLock (τ : Type) := Option (τ × ℕ)

namespace SessionLock

variable {τ : Type} [DecidableEq τ]

/-- `WRITE_LOCK`; `none` while another thread holds the lock. -/
def acquire (t : τ) : SessionLock τ → Option (SessionLock τ)
  | none => some (some (t, 1))
  | some (u, depth) => if u = t then some (some (t, depth + 1)) else none

/-- The end of a block that starts with `WRITE_LOCK`. -/
def release : SessionLock τ → SessionLock τ
  | some (t, depth + 2) => some (t, depth + 1)
  | _ => none

/-- How often `t` has acquired the lock. -/
def heldBy (t : τ) : SessionLock τ → ℕ
  | some (u, depth) => if u = t then depth else 0
  | none => 0

end SessionLock

/-! ## The session -/

/-- What the threads share.
Source: `ServerCore/Session.h`, `Session` -/
structure SessionShared (τ β : Type) where
  /-- `_connected`. -/
  connected : Bool := false
  /-- `_sendQueue`. -/
  sendQueue : List β := []
  /-- `_sendRegistered`. -/
  sendRegistered : Bool := false
  /-- `_sendEvent.sendBuffers`. -/
  sendBuffers : List β := []
  /-- `_sendEvent.owner != nullptr`. -/
  sendOwner : Bool := false
  /-- `_recvEvent.owner != nullptr`. -/
  recvOwner : Bool := false
  /-- `_disconnectEvent.owner != nullptr`. -/
  disconnectOwner : Bool := false
  /-- `_locks[0]`. -/
  lock : SessionLock τ := none
  /-- Whether the session is in `Service::_sessions`. -/
  inSessions : Bool := false
  /-- How often `OnDisconnected` has run. -/
  onDisconnectedRuns : ℕ := 0
  /-- The completion that connects the session has not been dequeued. -/
  connectPending : Bool := true
  /-- The buffers of each outstanding `WSASend`. -/
  sends : List (List β) := []
  /-- The number of outstanding `WSARecv`s. -/
  recvs : ℕ := 0
  /-- The number of outstanding `DisconnectEx`s. -/
  disconnects : ℕ := 0
  /-- The assertion in `ReleaseSession` failed. -/
  crashed : Bool := false
  /-- Every buffer that was pushed on the queue, oldest first. -/
  pushed : List β := []
  /-- Every list of buffers that was passed to `WSASend`, oldest first. -/
  handed : List (List β) := []

/-! ## Positions -/

/-- A position in `Send`. -/
inductive SendPc (β : Type)
  /-- At the test of `IsConnected()`. -/
  | check (sendBuffer : β)
  /-- At `WRITE_LOCK`. -/
  | lock (sendBuffer : β)
  /-- At `_sendQueue.push(sendBuffer)`. -/
  | push (sendBuffer : β)
  /-- At `_sendRegistered.exchange(true)`. -/
  | exchange
  /-- At the end of the block. -/
  | unlock (registerSend : Bool)
  deriving DecidableEq

/-- A position in `RegisterSend`. -/
inductive RegisterSendPc (β : Type)
  /-- At the test of `IsConnected()`. -/
  | check
  /-- At `_sendEvent.Init()` and the assignment of its owner. -/
  | init
  /-- At `WRITE_LOCK`. -/
  | lock
  /-- At the condition of the loop that empties the queue. -/
  | drain
  /-- At the end of the block. -/
  | unlock
  /-- At the loop that fills `wsaBufs`. -/
  | fill
  /-- At `WSASend`. -/
  | wsaSend (wsaBufs : List β)
  /-- At `HandleError(errorCode)`. -/
  | handleError (errorCode : ℕ)
  /-- At `_sendEvent.owner = nullptr`. -/
  | clearOwner
  /-- At `_sendEvent.sendBuffers.clear()`. -/
  | clearBuffers
  /-- At `_sendRegistered.store(false)`. -/
  | clearRegistered
  deriving DecidableEq

/-- A position in `ProcessSend`. -/
inductive ProcessSendPc
  /-- At `_sendEvent.owner = nullptr`. -/
  | clearOwner (numOfBytes : ℕ)
  /-- At `_sendEvent.sendBuffers.clear()`. -/
  | clearBuffers (numOfBytes : ℕ)
  /-- At the test of `numOfBytes`. -/
  | check (numOfBytes : ℕ)
  /-- At `OnSend`. -/
  | onSend
  /-- At `WRITE_LOCK`. -/
  | lock
  /-- At the test of `_sendQueue.empty()`. -/
  | checkQueue
  /-- At `_sendRegistered.store(false)`. -/
  | clearRegistered
  /-- At the end of the function. -/
  | unlock
  deriving DecidableEq

/-- A position in `Disconnect` or `RegisterDisconnect`. -/
inductive DisconnectPc
  /-- At `_connected.exchange(false)`. -/
  | exchange
  /-- At `_disconnectEvent.Init()` and the assignment of its owner. -/
  | init
  /-- At `DisconnectEx`. -/
  | disconnectEx
  /-- At `_disconnectEvent.owner = nullptr`. -/
  | clearOwner
  deriving DecidableEq

/-- Where `Disconnect` returns to. -/
inductive DisconnectCaller
  /-- To a caller outside, or to the end of `ProcessRecv`. -/
  | leave
  /-- To the end of `ProcessSend`. -/
  | processSend
  /-- To `HandleError` in `RegisterSend`. -/
  | registerSend (nested : Bool)
  /-- To `HandleError` in `RegisterRecv`. -/
  | registerRecv
  deriving DecidableEq

/-- A position in `ProcessDisconnect`. -/
inductive ProcessDisconnectPc
  /-- At `_disconnectEvent.owner = nullptr`. -/
  | clearOwner
  /-- At `OnDisconnected`. -/
  | onDisconnected
  /-- At `ReleaseSession`. -/
  | releaseSession
  deriving DecidableEq

/-- A position in `ProcessConnect`. -/
inductive ProcessConnectPc
  /-- At `_connectEvent.owner = nullptr` and `_connected.store(true)`. -/
  | store
  /-- At `AddSession`. -/
  | addSession
  /-- At `OnConnected`. -/
  | onConnected
  deriving DecidableEq

/-- A position in `RegisterRecv`. -/
inductive RegisterRecvPc
  /-- At the test of `IsConnected()`. -/
  | check
  /-- At `_recvEvent.Init()` and the assignment of its owner. -/
  | init
  /-- At `WSARecv`. -/
  | wsaRecv
  /-- At `HandleError(errorCode)`. -/
  | handleError (errorCode : ℕ)
  /-- At `_recvEvent.owner = nullptr`. -/
  | clearOwner
  deriving DecidableEq

/-- A position in `ProcessRecv`. -/
inductive ProcessRecvPc
  /-- At `_recvEvent.owner = nullptr`. -/
  | clearOwner (numOfBytes : ℕ)
  /-- At the test of `numOfBytes`. -/
  | check (numOfBytes : ℕ)
  /-- At `OnWrite`, `OnRecv`, `OnRead` and `Clean`. -/
  | onRecv
  deriving DecidableEq

/-- Where a thread is. `RegisterSend` is `nested` when `ProcessSend`, which holds the lock, has
called it. -/
inductive SessionPc (β : Type)
  /-- In no member of the session. -/
  | outside
  /-- In `Send`. -/
  | send (p : SendPc β)
  /-- In `RegisterSend`. -/
  | registerSend (nested : Bool) (p : RegisterSendPc β)
  /-- In `ProcessSend`. -/
  | processSend (p : ProcessSendPc)
  /-- In `Disconnect`. -/
  | disconnect (caller : DisconnectCaller) (p : DisconnectPc)
  /-- In `ProcessDisconnect`. -/
  | processDisconnect (p : ProcessDisconnectPc)
  /-- In `ProcessConnect`. -/
  | processConnect (p : ProcessConnectPc)
  /-- In `RegisterRecv`. -/
  | registerRecv (p : RegisterRecvPc)
  /-- In `ProcessRecv`. -/
  | processRecv (p : ProcessRecvPc)
  deriving DecidableEq

/-- The position behind a call of `RegisterSend`. -/
def afterRegisterSend {β : Type} (nested : Bool) : SessionPc β :=
  if nested then .processSend .unlock else .outside

/-- The position behind a call of `Disconnect`. -/
def DisconnectCaller.return {β : Type} : DisconnectCaller → SessionPc β
  | leave => .outside
  | processSend => .outside
  | registerSend nested => .registerSend nested .clearOwner
  | registerRecv => .registerRecv .clearOwner

/-- `HandleError`: two codes disconnect, the others are logged.
Source: `ServerCore/Session.cpp`, `Session::HandleError` -/
def handleError {β : Type} (caller : DisconnectCaller) (errorCode : ℕ) : SessionPc β :=
  if errorCode = wsaEConnReset ∨ errorCode = wsaEConnAborted then .disconnect caller .exchange
  else caller.return

/-! ## Steps -/

variable {τ β : Type} [DecidableEq τ]

/-- Source: `ServerCore/Session.cpp`, `Session::Send` -/
def sendStep (t : τ) (s : SessionShared τ β) :
    SendPc β → Option (SessionShared τ β × SessionPc β)
  | .check sendBuffer => some (s, if s.connected then .send (.lock sendBuffer) else .outside)
  | .lock sendBuffer => (s.lock.acquire t).map fun lock =>
      ({ s with lock }, .send (.push sendBuffer))
  | .push sendBuffer => some ({ s with
      sendQueue := s.sendQueue ++ [sendBuffer]
      pushed := s.pushed ++ [sendBuffer] }, .send .exchange)
  | .exchange => some ({ s with sendRegistered := true }, .send (.unlock !s.sendRegistered))
  | .unlock registerSend => some ({ s with lock := s.lock.release },
      if registerSend then .registerSend false .check else .outside)

/-- Source: `ServerCore/Session.cpp`, `Session::RegisterSend` -/
def registerSendStep (t : τ) (s : SessionShared τ β) (nested : Bool) (r : CallResult) :
    RegisterSendPc β → Option (SessionShared τ β × SessionPc β)
  | .check => some (s,
      if s.connected then .registerSend nested .init else afterRegisterSend nested)
  | .init => some ({ s with sendOwner := true }, .registerSend nested .lock)
  | .lock => (s.lock.acquire t).map fun lock => ({ s with lock }, .registerSend nested .drain)
  | .drain =>
      match s.sendQueue with
      | [] => some (s, .registerSend nested .unlock)
      | sendBuffer :: sendQueue => some ({ s with
          sendQueue
          sendBuffers := s.sendBuffers ++ [sendBuffer] }, .registerSend nested .drain)
  | .unlock => some ({ s with lock := s.lock.release }, .registerSend nested .fill)
  | .fill => some (s, .registerSend nested (.wsaSend s.sendBuffers))
  | .wsaSend wsaBufs =>
      let s := { s with handed := s.handed ++ [wsaBufs] }
      match r.error with
      | none => some ({ s with sends := s.sends ++ [wsaBufs] }, afterRegisterSend nested)
      | some errorCode => some (s, .registerSend nested (.handleError errorCode))
  | .handleError errorCode => some (s, handleError (.registerSend nested) errorCode)
  | .clearOwner => some ({ s with sendOwner := false }, .registerSend nested .clearBuffers)
  | .clearBuffers => some ({ s with sendBuffers := [] }, .registerSend nested .clearRegistered)
  | .clearRegistered => some ({ s with sendRegistered := false }, afterRegisterSend nested)

/-- Source: `ServerCore/Session.cpp`, `Session::ProcessSend` -/
def processSendStep (t : τ) (s : SessionShared τ β) :
    ProcessSendPc → Option (SessionShared τ β × SessionPc β)
  | .clearOwner numOfBytes => some ({ s with sendOwner := false },
      .processSend (.clearBuffers numOfBytes))
  | .clearBuffers numOfBytes => some ({ s with sendBuffers := [] },
      .processSend (.check numOfBytes))
  | .check numOfBytes => some (s,
      if numOfBytes = 0 then .disconnect .processSend .exchange else .processSend .onSend)
  | .onSend => some (s, .processSend .lock)
  | .lock => (s.lock.acquire t).map fun lock => ({ s with lock }, .processSend .checkQueue)
  | .checkQueue => some (s,
      if s.sendQueue = [] then .processSend .clearRegistered else .registerSend true .check)
  | .clearRegistered => some ({ s with sendRegistered := false }, .processSend .unlock)
  | .unlock => some ({ s with lock := s.lock.release }, .outside)

/-- Source: `ServerCore/Session.cpp`, `Session::Disconnect`, `Session::RegisterDisconnect` -/
def disconnectStep (s : SessionShared τ β) (caller : DisconnectCaller) (r : CallResult) :
    DisconnectPc → Option (SessionShared τ β × SessionPc β)
  | .exchange => some ({ s with connected := false },
      if s.connected then .disconnect caller .init else caller.return)
  | .init => some ({ s with disconnectOwner := true }, .disconnect caller .disconnectEx)
  | .disconnectEx =>
      match r.error with
      | none => some ({ s with disconnects := s.disconnects + 1 }, caller.return)
      | some _ => some (s, .disconnect caller .clearOwner)
  | .clearOwner => some ({ s with disconnectOwner := false }, caller.return)

/-- Source: `ServerCore/Session.cpp`, `Session::ProcessDisconnect`; `ServerCore/Service.cpp`,
`Service::ReleaseSession` -/
def processDisconnectStep (s : SessionShared τ β) :
    ProcessDisconnectPc → Option (SessionShared τ β × SessionPc β)
  | .clearOwner => some ({ s with disconnectOwner := false }, .processDisconnect .onDisconnected)
  | .onDisconnected => some ({ s with onDisconnectedRuns := s.onDisconnectedRuns + 1 },
      .processDisconnect .releaseSession)
  | .releaseSession => some ({ s with inSessions := false, crashed := !s.inSessions }, .outside)

/-- Source: `ServerCore/Session.cpp`, `Session::ProcessConnect` -/
def processConnectStep (s : SessionShared τ β) :
    ProcessConnectPc → Option (SessionShared τ β × SessionPc β)
  | .store => some ({ s with connected := true }, .processConnect .addSession)
  | .addSession => some ({ s with inSessions := true }, .processConnect .onConnected)
  | .onConnected => some (s, .registerRecv .check)

/-- Source: `ServerCore/Session.cpp`, `Session::RegisterRecv` -/
def registerRecvStep (s : SessionShared τ β) (r : CallResult) :
    RegisterRecvPc → Option (SessionShared τ β × SessionPc β)
  | .check => some (s, if s.connected then .registerRecv .init else .outside)
  | .init => some ({ s with recvOwner := true }, .registerRecv .wsaRecv)
  | .wsaRecv =>
      match r.error with
      | none => some ({ s with recvs := s.recvs + 1 }, .outside)
      | some errorCode => some (s, .registerRecv (.handleError errorCode))
  | .handleError errorCode => some (s, handleError .registerRecv errorCode)
  | .clearOwner => some ({ s with recvOwner := false }, .outside)

/-- `r` tells whether `OnWrite` or `OnRead` refuses.
Source: `ServerCore/Session.cpp`, `Session::ProcessRecv` -/
def processRecvStep (s : SessionShared τ β) (r : CallResult) :
    ProcessRecvPc → Option (SessionShared τ β × SessionPc β)
  | .clearOwner numOfBytes => some ({ s with recvOwner := false },
      .processRecv (.check numOfBytes))
  | .check numOfBytes => some (s,
      if numOfBytes = 0 then .disconnect .leave .exchange else .processRecv .onRecv)
  | .onRecv => some (s, if r = .ok then .registerRecv .check else .disconnect .leave .exchange)

/-- What the scheduler lets a thread do. -/
inductive SessionChoice (β : Type)
  /-- A thread outside calls `Send`. -/
  | send (sendBuffer : β)
  /-- A thread outside calls `Disconnect`. -/
  | disconnect
  /-- A thread outside dequeues the completion of `ConnectEx` or `AcceptEx`. -/
  | connected
  /-- A thread outside dequeues the completion of a `WSARecv`. -/
  | received (numOfBytes : ℕ)
  /-- A thread outside dequeues the completion of a `WSASend`. -/
  | sent (numOfBytes : ℕ)
  /-- A thread outside dequeues the completion of a `DisconnectEx`. -/
  | disconnected
  /-- A thread inside takes its next step; `r` is how the call in it ends. -/
  | next (r : CallResult)
  deriving DecidableEq

/-- A thread outside enters a member.
Source: `ServerCore/Session.cpp`, `Session::Dispatch` -/
def enterStep (s : SessionShared τ β) :
    SessionChoice β → Option (SessionShared τ β × SessionPc β)
  | .send sendBuffer => some (s, .send (.check sendBuffer))
  | .disconnect => some (s, .disconnect .leave .exchange)
  | .connected =>
      if s.connectPending then some ({ s with connectPending := false }, .processConnect .store)
      else none
  | .received numOfBytes =>
      if s.recvs = 0 then none
      else some ({ s with recvs := s.recvs - 1 }, .processRecv (.clearOwner numOfBytes))
  | .sent numOfBytes =>
      match s.sends with
      | [] => none
      | _ :: sends => some ({ s with sends }, .processSend (.clearOwner numOfBytes))
  | .disconnected =>
      if s.disconnects = 0 then none
      else some ({ s with disconnects := s.disconnects - 1 }, .processDisconnect .clearOwner)
  | .next _ => none

/-- A thread inside takes its next step. -/
def nextStep (t : τ) (s : SessionShared τ β) (r : CallResult) :
    SessionPc β → Option (SessionShared τ β × SessionPc β)
  | .outside => none
  | .send p => sendStep t s p
  | .registerSend nested p => registerSendStep t s nested r p
  | .processSend p => processSendStep t s p
  | .disconnect caller p => disconnectStep s caller r p
  | .processDisconnect p => processDisconnectStep s p
  | .processConnect p => processConnectStep s p
  | .registerRecv p => registerRecvStep s r p
  | .processRecv p => processRecvStep s r p

/-- What a thread does. -/
def sessionAct : Program τ (SessionShared τ β) (SessionPc β) (SessionChoice β) Unit :=
  fun t s p k =>
    if s.crashed then none
    else
      (match p, k with
        | .outside, k => enterStep s k
        | p, .next r => nextStep t s r p
        | _, _ => none).map fun (s, p) => (s, p, ())

/-- The threads of a session, interleaved. -/
def sessionThreads (τ β : Type) [DecidableEq τ] :
    Transducer (Processes τ (SessionShared τ β) (SessionPc β)) (τ × SessionChoice β)
      (Option Unit) :=
  interleave sessionAct

/-- A session whose connection is being established, and no thread in any of its members. -/
def sessionInit (τ β : Type) : Processes τ (SessionShared τ β) (SessionPc β) where
  shared := {}
  pc _ := .outside

/-- What a step of a thread is: it enters a member, or takes the next step in one. -/
theorem sessionAct_eq_some {t : τ} {s s' : SessionShared τ β} {p p' : SessionPc β}
    {k : SessionChoice β} {o : Unit} (h : sessionAct t s p k = some (s', p', o)) :
    (p = .outside ∧ enterStep s k = some (s', p')) ∨
      ∃ r, k = .next r ∧ nextStep t s r p = some (s', p') := by
  unfold sessionAct at h
  by_cases hcrash : s.crashed
  · rw [if_pos hcrash] at h
    cases h
  rw [if_neg hcrash, Option.map_eq_some_iff] at h
  obtain ⟨⟨s₁, p₁⟩, h, heq⟩ := h
  cases heq
  split at h
  · exact .inl ⟨rfl, h⟩
  · exact .inr ⟨_, rfl, h⟩
  · cases h

/-! ## Steps outside of the send path -/

/-- A position outside of `Send`, `RegisterSend` and `ProcessSend`, to which it does not return
either. -/
def SessionPc.Outlying : SessionPc β → Prop
  | .send _ => False
  | .registerSend _ _ => False
  | .processSend _ => False
  | .disconnect caller _ => caller = .leave ∨ caller = .registerRecv
  | _ => True

/-- What the send path works on. -/
structure SendPathKept (s s' : SessionShared τ β) : Prop where
  lock : s'.lock = s.lock
  sendQueue : s'.sendQueue = s.sendQueue
  sendRegistered : s'.sendRegistered = s.sendRegistered
  sendBuffers : s'.sendBuffers = s.sendBuffers
  sends : s'.sends = s.sends
  pushed : s'.pushed = s.pushed
  handed : s'.handed = s.handed

section outlying

variable {t : τ} {s s' : SessionShared τ β} {p p' : SessionPc β} {r : CallResult}

omit [DecidableEq τ] in
/-- The send path is kept where nothing happens. -/
theorem SendPathKept.refl (s : SessionShared τ β) : SendPathKept s s :=
  ⟨rfl, rfl, rfl, rfl, rfl, rfl, rfl⟩

/-- `RegisterDisconnect` called from `PacketSession` code or `RegisterRecv` returns away from the
send path. -/
theorem outlying_return {caller : DisconnectCaller} (h : caller = .leave ∨ caller = .registerRecv) :
    (caller.return : SessionPc β).Outlying := by
  rcases h with rfl | rfl <;> exact trivial

/-- A thread outside of the send path leaves it alone, and stays outside. -/
theorem nextStep_outlying (h : nextStep t s r p = some (s', p')) (hp : p.Outlying) :
    SendPathKept s s' ∧ p'.Outlying := by
  cases p with
  | outside => cases h
  | send q => exact hp.elim
  | registerSend nested q => exact hp.elim
  | processSend q => exact hp.elim
  | disconnect caller q =>
      have hcaller : caller = .leave ∨ caller = .registerRecv := hp
      cases q with
      | exchange =>
          cases h
          refine ⟨⟨rfl, rfl, rfl, rfl, rfl, rfl, rfl⟩, ?_⟩
          split
          · exact hcaller
          · exact outlying_return hcaller
      | init =>
          cases h
          exact ⟨⟨rfl, rfl, rfl, rfl, rfl, rfl, rfl⟩, hcaller⟩
      | disconnectEx =>
          simp only [nextStep, disconnectStep] at h
          split at h <;> cases h
          · exact ⟨⟨rfl, rfl, rfl, rfl, rfl, rfl, rfl⟩, outlying_return hcaller⟩
          · exact ⟨.refl s, hcaller⟩
      | clearOwner =>
          cases h
          exact ⟨⟨rfl, rfl, rfl, rfl, rfl, rfl, rfl⟩, outlying_return hcaller⟩
  | processDisconnect q =>
      cases q <;> cases h <;> exact ⟨⟨rfl, rfl, rfl, rfl, rfl, rfl, rfl⟩, trivial⟩
  | processConnect q =>
      cases q <;> cases h <;> exact ⟨⟨rfl, rfl, rfl, rfl, rfl, rfl, rfl⟩, trivial⟩
  | registerRecv q =>
      cases q with
      | check =>
          cases h
          refine ⟨.refl s, ?_⟩
          split <;> exact trivial
      | init =>
          cases h
          exact ⟨⟨rfl, rfl, rfl, rfl, rfl, rfl, rfl⟩, trivial⟩
      | wsaRecv =>
          simp only [nextStep, registerRecvStep] at h
          split at h <;> cases h <;> exact ⟨⟨rfl, rfl, rfl, rfl, rfl, rfl, rfl⟩, trivial⟩
      | handleError errorCode =>
          cases h
          refine ⟨.refl s, ?_⟩
          unfold handleError
          split
          · exact .inr rfl
          · exact trivial
      | clearOwner =>
          cases h
          exact ⟨⟨rfl, rfl, rfl, rfl, rfl, rfl, rfl⟩, trivial⟩
  | processRecv q =>
      cases q with
      | clearOwner numOfBytes =>
          cases h
          exact ⟨⟨rfl, rfl, rfl, rfl, rfl, rfl, rfl⟩, trivial⟩
      | check numOfBytes =>
          cases h
          refine ⟨.refl s, ?_⟩
          split
          · exact .inl rfl
          · exact trivial
      | onRecv =>
          cases h
          refine ⟨.refl s, ?_⟩
          split
          · exact trivial
          · exact .inl rfl

omit [DecidableEq τ] in
/-- So does a thread that enters anything but the send path. -/
theorem enterStep_outlying {k : SessionChoice β} (hsend : ∀ sendBuffer, k ≠ .send sendBuffer)
    (hsent : ∀ numOfBytes, k ≠ .sent numOfBytes) (h : enterStep s k = some (s', p')) :
    SendPathKept s s' ∧ p'.Outlying := by
  cases k with
  | send sendBuffer => exact absurd rfl (hsend sendBuffer)
  | disconnect =>
      cases h
      exact ⟨.refl s, .inl rfl⟩
  | connected =>
      obtain ⟨-, heq⟩ := Option.ite_none_right_eq_some.mp h
      cases heq
      exact ⟨⟨rfl, rfl, rfl, rfl, rfl, rfl, rfl⟩, trivial⟩
  | received numOfBytes =>
      obtain ⟨-, heq⟩ := Option.ite_none_left_eq_some.mp h
      cases heq
      exact ⟨⟨rfl, rfl, rfl, rfl, rfl, rfl, rfl⟩, trivial⟩
  | sent numOfBytes => exact absurd rfl (hsent numOfBytes)
  | disconnected =>
      obtain ⟨-, heq⟩ := Option.ite_none_left_eq_some.mp h
      cases heq
      exact ⟨⟨rfl, rfl, rfl, rfl, rfl, rfl, rfl⟩, trivial⟩
  | next r => cases h

end outlying

/-! ## Steps outside of `ProcessConnect` -/

/-- In `ProcessConnect`. -/
def SessionPc.Connecting : SessionPc β → Prop
  | .processConnect _ => True
  | _ => False

/-- In `Send`. -/
def SessionPc.InSend : SessionPc β → Prop
  | .send _ => True
  | _ => False

/-- What a step outside of `ProcessConnect` does not do: it connects nothing, and enters neither
`ProcessConnect` nor `Send`. -/
structure SessionQuiet (s : SessionShared τ β) (p : SessionPc β) (s' : SessionShared τ β)
    (p' : SessionPc β) : Prop where
  connected : s'.connected = true → s.connected = true
  inSessions : s'.inSessions = true → s.inSessions = true
  connectPending : s'.connectPending = s.connectPending
  connecting : ¬ p'.Connecting
  send : p'.InSend → p.InSend

section quiet

variable {t : τ} {s s' : SessionShared τ β} {p p' : SessionPc β} {r : CallResult}

/-- A position in neither of the two. -/
def SessionPc.Elsewhere (p : SessionPc β) : Prop := ¬ p.Connecting ∧ ¬ p.InSend

omit [DecidableEq τ] in
/-- A step that leaves the connection alone and ends away from `ProcessConnect` and the send path is
quiet. -/
theorem SessionQuiet.of_eq (hconnected : s'.connected = s.connected)
    (hsessions : s'.inSessions = s.inSessions) (hpending : s'.connectPending = s.connectPending)
    (hp' : p'.Elsewhere) : SessionQuiet s p s' p' where
  connected h := hconnected.symm.trans h
  inSessions h := hsessions.symm.trans h
  connectPending := hpending
  connecting := hp'.1
  send h := absurd h hp'.2

/-- The way back from `RegisterSend` is neither in `ProcessConnect` nor at the start of a send. -/
theorem elsewhere_afterRegisterSend (nested : Bool) :
    (afterRegisterSend nested : SessionPc β).Elsewhere := by
  cases nested <;> exact ⟨id, id⟩

/-- The way back from `RegisterDisconnect` is neither in `ProcessConnect` nor at the start of a
send. -/
theorem elsewhere_return (caller : DisconnectCaller) :
    (caller.return : SessionPc β).Elsewhere := by
  cases caller <;> exact ⟨id, id⟩

/-- The way on from `HandleError` is neither in `ProcessConnect` nor at the start of a send. -/
theorem elsewhere_handleError (caller : DisconnectCaller) (errorCode : ℕ) :
    (handleError caller errorCode : SessionPc β).Elsewhere := by
  unfold handleError
  split
  · exact ⟨id, id⟩
  · exact elsewhere_return caller

/-- `Send` is quiet. -/
theorem sendStep_quiet {p : SendPc β} (h : sendStep t s p = some (s', p')) :
    SessionQuiet s (.send p) s' p' := by
  cases p with
  | check sendBuffer =>
      cases h
      refine ⟨id, id, rfl, ?_, fun _ => trivial⟩
      split <;> exact not_false
  | lock sendBuffer =>
      obtain ⟨lock, -, heq⟩ := Option.map_eq_some_iff.mp h
      cases heq
      exact ⟨id, id, rfl, not_false, fun _ => trivial⟩
  | push sendBuffer =>
      cases h
      exact ⟨id, id, rfl, not_false, fun _ => trivial⟩
  | exchange =>
      cases h
      exact ⟨id, id, rfl, not_false, fun _ => trivial⟩
  | unlock registerSend =>
      cases h
      refine ⟨id, id, rfl, ?_, fun _ => trivial⟩
      split <;> exact not_false

/-- `RegisterSend` is quiet. -/
theorem registerSendStep_quiet {nested : Bool} {p : RegisterSendPc β}
    (h : registerSendStep t s nested r p = some (s', p')) :
    SessionQuiet s (.registerSend nested p) s' p' := by
  cases p with
  | check =>
      cases h
      refine .of_eq rfl rfl rfl ?_
      split
      · exact ⟨id, id⟩
      · exact elsewhere_afterRegisterSend nested
  | lock =>
      obtain ⟨lock, -, heq⟩ := Option.map_eq_some_iff.mp h
      cases heq
      exact .of_eq rfl rfl rfl ⟨id, id⟩
  | drain =>
      simp only [registerSendStep] at h
      split at h <;> cases h <;> exact .of_eq rfl rfl rfl ⟨id, id⟩
  | wsaSend wsaBufs =>
      simp only [registerSendStep] at h
      split at h <;> cases h
      · exact .of_eq rfl rfl rfl (elsewhere_afterRegisterSend nested)
      · exact .of_eq rfl rfl rfl ⟨id, id⟩
  | handleError errorCode =>
      cases h
      exact .of_eq rfl rfl rfl (elsewhere_handleError _ errorCode)
  | clearRegistered =>
      cases h
      exact .of_eq rfl rfl rfl (elsewhere_afterRegisterSend nested)
  | init =>
      cases h
      exact .of_eq rfl rfl rfl ⟨id, id⟩
  | unlock =>
      cases h
      exact .of_eq rfl rfl rfl ⟨id, id⟩
  | fill =>
      cases h
      exact .of_eq rfl rfl rfl ⟨id, id⟩
  | clearOwner =>
      cases h
      exact .of_eq rfl rfl rfl ⟨id, id⟩
  | clearBuffers =>
      cases h
      exact .of_eq rfl rfl rfl ⟨id, id⟩

/-- `ProcessSend` is quiet. -/
theorem processSendStep_quiet {p : ProcessSendPc} (h : processSendStep t s p = some (s', p')) :
    SessionQuiet s (.processSend p) s' p' := by
  cases p with
  | check numOfBytes =>
      cases h
      refine .of_eq rfl rfl rfl ?_
      split <;> exact ⟨id, id⟩
  | lock =>
      obtain ⟨lock, -, heq⟩ := Option.map_eq_some_iff.mp h
      cases heq
      exact .of_eq rfl rfl rfl ⟨id, id⟩
  | checkQueue =>
      cases h
      refine .of_eq rfl rfl rfl ?_
      split <;> exact ⟨id, id⟩
  | clearOwner numOfBytes =>
      cases h
      exact .of_eq rfl rfl rfl ⟨id, id⟩
  | clearBuffers numOfBytes =>
      cases h
      exact .of_eq rfl rfl rfl ⟨id, id⟩
  | onSend =>
      cases h
      exact .of_eq rfl rfl rfl ⟨id, id⟩
  | clearRegistered =>
      cases h
      exact .of_eq rfl rfl rfl ⟨id, id⟩
  | unlock =>
      cases h
      exact .of_eq rfl rfl rfl ⟨id, id⟩

omit [DecidableEq τ] in
/-- `Disconnect` and `RegisterDisconnect` are quiet. -/
theorem disconnectStep_quiet {caller : DisconnectCaller} {p : DisconnectPc}
    (h : disconnectStep s caller r p = some (s', p')) : SessionQuiet s (.disconnect caller p) s' p' := by
  cases p with
  | exchange =>
      cases h
      have helsewhere : (if s.connected then .disconnect caller .init else caller.return :
          SessionPc β).Elsewhere := by
        split
        · exact ⟨id, id⟩
        · exact elsewhere_return caller
      exact ⟨fun hconnected => absurd hconnected Bool.false_ne_true, id, rfl, helsewhere.1,
        fun hsend => absurd hsend helsewhere.2⟩
  | init =>
      cases h
      exact .of_eq rfl rfl rfl ⟨id, id⟩
  | disconnectEx =>
      simp only [disconnectStep] at h
      split at h <;> cases h
      · exact .of_eq rfl rfl rfl (elsewhere_return caller)
      · exact .of_eq rfl rfl rfl ⟨id, id⟩
  | clearOwner =>
      cases h
      exact .of_eq rfl rfl rfl (elsewhere_return caller)

omit [DecidableEq τ] in
/-- `ProcessDisconnect` is quiet. -/
theorem processDisconnectStep_quiet {p : ProcessDisconnectPc}
    (h : processDisconnectStep s p = some (s', p')) : SessionQuiet s (.processDisconnect p) s' p' := by
  cases p with
  | clearOwner =>
      cases h
      exact .of_eq rfl rfl rfl ⟨id, id⟩
  | onDisconnected =>
      cases h
      exact .of_eq rfl rfl rfl ⟨id, id⟩
  | releaseSession =>
      cases h
      exact ⟨id, fun hsessions => absurd hsessions Bool.false_ne_true, rfl, not_false, id⟩

omit [DecidableEq τ] in
/-- `RegisterRecv` is quiet. -/
theorem registerRecvStep_quiet {p : RegisterRecvPc}
    (h : registerRecvStep s r p = some (s', p')) : SessionQuiet s (.registerRecv p) s' p' := by
  cases p with
  | check =>
      cases h
      refine .of_eq rfl rfl rfl ?_
      split <;> exact ⟨id, id⟩
  | init =>
      cases h
      exact .of_eq rfl rfl rfl ⟨id, id⟩
  | wsaRecv =>
      simp only [registerRecvStep] at h
      split at h <;> cases h <;> exact .of_eq rfl rfl rfl ⟨id, id⟩
  | handleError errorCode =>
      cases h
      exact .of_eq rfl rfl rfl (elsewhere_handleError _ errorCode)
  | clearOwner =>
      cases h
      exact .of_eq rfl rfl rfl ⟨id, id⟩

omit [DecidableEq τ] in
/-- `ProcessRecv` is quiet. -/
theorem processRecvStep_quiet {p : ProcessRecvPc}
    (h : processRecvStep s r p = some (s', p')) : SessionQuiet s (.processRecv p) s' p' := by
  cases p with
  | clearOwner numOfBytes =>
      cases h
      exact .of_eq rfl rfl rfl ⟨id, id⟩
  | check numOfBytes =>
      cases h
      refine .of_eq rfl rfl rfl ?_
      split <;> exact ⟨id, id⟩
  | onRecv =>
      cases h
      refine .of_eq rfl rfl rfl ?_
      split <;> exact ⟨id, id⟩

/-- No other member of a session does what `ProcessConnect` does. -/
theorem nextStep_quiet (hp : ¬ p.Connecting) (h : nextStep t s r p = some (s', p')) :
    SessionQuiet s p s' p' := by
  cases p with
  | outside => cases h
  | send p => exact sendStep_quiet h
  | registerSend nested p => exact registerSendStep_quiet h
  | processSend p => exact processSendStep_quiet h
  | disconnect caller p => exact disconnectStep_quiet h
  | processDisconnect p => exact processDisconnectStep_quiet h
  | processConnect p => exact absurd trivial hp
  | registerRecv p => exact registerRecvStep_quiet h
  | processRecv p => exact processRecvStep_quiet h

omit [DecidableEq τ] in
/-- Nor does a thread that dequeues the completion of another operation. -/
theorem enterStep_quiet {k : SessionChoice β} (hconnected : k ≠ .connected)
    (hsend : ∀ sendBuffer, k ≠ .send sendBuffer) (h : enterStep s k = some (s', p')) :
    SessionQuiet s .outside s' p' := by
  cases k with
  | send sendBuffer => exact absurd rfl (hsend sendBuffer)
  | disconnect =>
      cases h
      exact .of_eq rfl rfl rfl ⟨id, id⟩
  | connected => exact absurd rfl hconnected
  | received numOfBytes =>
      obtain ⟨-, heq⟩ := Option.ite_none_left_eq_some.mp h
      cases heq
      exact .of_eq rfl rfl rfl ⟨id, id⟩
  | sent numOfBytes =>
      simp only [enterStep] at h
      split at h <;> cases h
      exact .of_eq rfl rfl rfl ⟨id, id⟩
  | disconnected =>
      obtain ⟨-, heq⟩ := Option.ite_none_left_eq_some.mp h
      cases heq
      exact .of_eq rfl rfl rfl ⟨id, id⟩
  | next r => cases h

end quiet

end CowboyPoker.ServerCore
