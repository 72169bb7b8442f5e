import CowboyPoker.ServerCore.SessionThreads

/-!
# The TCP stack

A service with its sessions, the listener of a server, and the completion port that all of them
post to. Any number of threads start the service, call members of sessions and dispatch completions;
every operation may complete successfully or fail, and a failed completion is dispatched too.

* `ServiceConfig`, `TcpShared` — what a service is made with; its sessions (the `SessionShared` of
  each), its listener's events, and what the kernel knows: which operations are outstanding and which
  sockets are connected. `log` records, with the thread, what the steps of a connection do; no step
  reads it.
* `TcpPc` — where a thread is: in `Start`, in the listener, in `RegisterConnect`, or in another
  member of a session, at a `SessionPc`.
* `registerAcceptStep`, `processAcceptStep`, … — what a thread does there. `dispatchStep` —
  `IocpCore::Dispatch`. `tcpThreads` — all interleavings.

A wait at the completion port that ends without a completion changes nothing and is no step.
-/

namespace CowboyPoker.ServerCore

open CowboyPoker.Found

/-! ## The service -/

/-- Source: `ServerCore/Service.h`, `ServiceType` -/
inductive ServiceType
  | server
  | client
  deriving DecidableEq, Repr

/-- What a service is made with; its session factory makes a new session at each call.
Source: `ServerCore/Service.h`, `Service` -/
structure ServiceConfig where
  /-- `_type`. -/
  serviceType : ServiceType
  /-- `_maxSessionCount`. -/
  maxSessionCount : ℤ
  /-- `_sessionFactory != nullptr`, that is `CanStart()`. -/
  canStart : Bool

/-- A step in the life of a connection. -/
inductive ConnectionEvent
  /-- A `ConnectEx` or `AcceptEx` for the session has completed successfully. -/
  | completed (session : ℕ)
  /-- `_connected.store(true)`. -/
  | stored (session : ℕ)
  /-- `AddSession`. -/
  | added (session : ℕ)
  /-- `OnConnected`. -/
  | onConnected (session : ℕ)
  deriving DecidableEq, Repr

/-- What the threads share. A session is named by its number in the order of `CreateSession`, an
`AcceptEvent` by its number in the order of `StartAccept`.
Source: `ServerCore/Service.h`, `Service`; `ServerCore/Listener.h`, `Listener` -/
structure TcpShared (τ β : Type) where
  /-- The sessions. -/
  sessions : ℕ → SessionShared τ β := fun _ => { connectPending := false }
  /-- The number of sessions that `CreateSession` has made. -/
  created : ℕ := 0
  /-- `_sessionCount`. -/
  sessionCount : ℤ := 0
  /-- `_connectEvent.owner != nullptr` of each session. -/
  connectOwner : ℕ → Bool := fun _ => false
  /-- The number of outstanding `ConnectEx`s of each session. -/
  connects : ℕ → ℕ := fun _ => 0
  /-- The number of `AcceptEvent`s. -/
  acceptEvents : ℕ := 0
  /-- `session` of each `AcceptEvent`. -/
  acceptSession : ℕ → Option ℕ := fun _ => none
  /-- The session whose socket was passed to the outstanding `AcceptEx` of each `AcceptEvent`. -/
  accepting : ℕ → Option ℕ := fun _ => none
  /-- Whether the socket of each session is connected. -/
  socketConnected : ℕ → Bool := fun _ => false
  /-- An assertion failed, or a member of a null pointer was called. -/
  crashed : Bool := false
  /-- What the threads did to connect sessions, oldest first. -/
  log : List (τ × ConnectionEvent) := []

/-! ## Positions -/

/-- A position in `ServerService::Start` or `Listener::StartAccept`. -/
inductive StartAcceptPc
  /-- At the calls that make the listening socket. -/
  | listen
  /-- At the condition of the loop over the `AcceptEvent`s. -/
  | loop (i : ℤ)
  deriving DecidableEq

/-- A position in `RegisterAccept`. -/
inductive RegisterAcceptPc
  /-- At `CreateSession`. -/
  | createSession
  /-- At `AcceptEx`. -/
  | acceptEx (session : ℕ)
  deriving DecidableEq

/-- Where `RegisterAccept` returns to. -/
inductive RegisterAcceptCaller
  /-- To the end of `ProcessAccept`. -/
  | processAccept
  /-- To the loop in `StartAccept`, which goes on with `i`. -/
  | startAccept (i : ℤ)
  deriving DecidableEq

/-- A position in `ProcessAccept`. -/
inductive ProcessAcceptPc
  /-- At the copy of `acceptEvent->session`. -/
  | readSession
  /-- At `SetUpdateAcceptSocket`. -/
  | setUpdateAcceptSocket (session : ℕ)
  /-- At `getpeername` and `SetNetAddress`. -/
  | getpeername (session : ℕ)
  deriving DecidableEq

/-- A position in `Connect` or `RegisterConnect`. -/
inductive RegisterConnectPc
  /-- At the test of `IsConnected()`. -/
  | check
  /-- At the test of `GetServiceType()`. -/
  | checkServiceType
  /-- At `SetReuseAddress` and `BindAnyAddress`. -/
  | bind
  /-- At `_connectEvent.Init()` and the assignment of its owner. -/
  | init
  /-- At `ConnectEx`. -/
  | connectEx
  /-- At `_connectEvent.owner = nullptr`. -/
  | clearOwner
  deriving DecidableEq

/-- Where `Connect` returns to. -/
inductive ConnectCaller
  /-- To a caller outside. -/
  | leave
  /-- To the loop in `ClientService::Start`, which goes on with `i`. -/
  | start (i : ℤ)
  deriving DecidableEq

/-- Where another member of a session returns to. -/
inductive SessionCaller
  /-- To a caller outside. -/
  | leave
  /-- To `ProcessAccept`, which goes on with `RegisterAccept`. -/
  | processAccept (acceptEvent : ℕ)
  deriving DecidableEq

/-- Where a thread is. -/
inductive TcpPc (β : Type)
  /-- In no member of the stack. -/
  | outside
  /-- In `ClientService::Start`, at the condition of the loop and at `CreateSession`. -/
  | clientStart (i : ℤ)
  /-- In `ServerService::Start`. -/
  | startAccept (p : StartAcceptPc)
  /-- In `RegisterAccept`. -/
  | registerAccept (acceptEvent : ℕ) (caller : RegisterAcceptCaller) (p : RegisterAcceptPc)
  /-- In `ProcessAccept`. -/
  | processAccept (acceptEvent : ℕ) (p : ProcessAcceptPc)
  /-- In `Connect`. -/
  | connect (session : ℕ) (caller : ConnectCaller) (p : RegisterConnectPc)
  /-- In another member of a session. -/
  | session (session : ℕ) (caller : SessionCaller) (p : SessionPc β)
  deriving DecidableEq

variable {τ β : Type}

/-- The position behind a call of `RegisterAccept`. -/
def RegisterAcceptCaller.return : RegisterAcceptCaller → TcpPc β
  | processAccept => .outside
  | startAccept i => .startAccept (.loop i)

/-- The position behind a call of `Connect` that returns `true`; behind one that returns `false`,
`ClientService::Start` returns too. -/
def ConnectCaller.return : ConnectCaller → TcpPc β
  | leave => .outside
  | start i => .clientStart i

/-- The position behind a call of another member of a session. -/
def SessionCaller.return : SessionCaller → TcpPc β
  | leave => .outside
  | processAccept acceptEvent => .registerAccept acceptEvent .processAccept .createSession

/-- A thread in a member of a session is at `p`, which may be behind its end. -/
def TcpPc.ofSession (session : ℕ) (caller : SessionCaller) : SessionPc β → TcpPc β
  | .outside => caller.return
  | p => .session session caller p

/-! ## Steps -/

namespace TcpShared

/-- A member of one session was changed. -/
def setSession (s : TcpShared τ β) (session : ℕ) (x : SessionShared τ β) : TcpShared τ β :=
  { s with sessions := Function.update s.sessions session x }

/-- `t` has done something to connect a session. -/
def record (s : TcpShared τ β) (t : τ) (event : ConnectionEvent) : TcpShared τ β :=
  { s with log := s.log ++ [(t, event)] }

/-- A `ConnectEx` or `AcceptEx` for the session was successful, as `t` learns. -/
def succeed (s : TcpShared τ β) (t : τ) (session : ℕ) : TcpShared τ β :=
  { s with socketConnected := Function.update s.socketConnected session true }.record t
    (.completed session)

/-- The new session; `none` for `nullptr`. `r` is how the registration at the completion port ends.
Source: `ServerCore/Service.cpp`, `Service::CreateSession` -/
def createSession (s : TcpShared τ β) (r : CallResult) : Option (TcpShared τ β × ℕ) :=
  if r = .ok then some ({ s with created := s.created + 1 }, s.created) else none

/-- Source: `ServerCore/Service.h`, `Service::GetCurrentSessionCount` -/
def getCurrentSessionCount (s : TcpShared τ β) : ℤ := s.sessionCount

end TcpShared

/-- Source: `ServerCore/Listener.cpp`, `Listener::RegisterAccept` -/
def registerAcceptStep (s : TcpShared τ β) (acceptEvent : ℕ) (caller : RegisterAcceptCaller)
    (r : CallResult) : RegisterAcceptPc → Option (TcpShared τ β × TcpPc β)
  | .createSession =>
      match s.createSession r with
      | none => some ({ s with crashed := true }, .outside)
      | some (s, session) => some ({ s with
          acceptSession := Function.update s.acceptSession acceptEvent (some session) },
          .registerAccept acceptEvent caller (.acceptEx session))
  | .acceptEx session =>
      match r.error with
      | none => some ({ s with
          accepting := Function.update s.accepting acceptEvent (some session) }, caller.return)
      | some _ => some (s, .registerAccept acceptEvent caller .createSession)

/-- `SetUpdateAcceptSocket` and `getpeername` fail on a socket that is not connected.
Source: `ServerCore/Listener.cpp`, `Listener::ProcessAccept` -/
def processAcceptStep (s : TcpShared τ β) (acceptEvent : ℕ) (r : CallResult) :
    ProcessAcceptPc → Option (TcpShared τ β × TcpPc β)
  | .readSession =>
      match s.acceptSession acceptEvent with
      | none => some ({ s with crashed := true }, .outside)
      | some session => some (s, .processAccept acceptEvent (.setUpdateAcceptSocket session))
  | .setUpdateAcceptSocket session => some (s,
      if r = .ok ∧ s.socketConnected session then .processAccept acceptEvent (.getpeername session)
      else .registerAccept acceptEvent .processAccept .createSession)
  | .getpeername session => some (s,
      if r = .ok ∧ s.socketConnected session then
        .session session (.processAccept acceptEvent) (.processConnect .store)
      else .registerAccept acceptEvent .processAccept .createSession)

/-- Source: `ServerCore/Listener.cpp`, `Listener::StartAccept` -/
def startAcceptStep (c : ServiceConfig) (s : TcpShared τ β) (r : CallResult) :
    StartAcceptPc → Option (TcpShared τ β × TcpPc β)
  | .listen => some (s, if r = .ok then .startAccept (.loop 0) else .outside)
  | .loop i => some (
      if i < c.maxSessionCount then ({ s with acceptEvents := s.acceptEvents + 1 },
        .registerAccept s.acceptEvents (.startAccept (i + 1)) .createSession)
      else (s, .outside))

/-- Source: `ServerCore/Service.cpp`, `ClientService::Start` -/
def clientStartStep (c : ServiceConfig) (s : TcpShared τ β) (r : CallResult) (i : ℤ) :
    Option (TcpShared τ β × TcpPc β) :=
  if i < c.maxSessionCount then
    match s.createSession r with
    | none => some ({ s with crashed := true }, .outside)
    | some (s, session) => some (s, .connect session (.start (i + 1)) .check)
  else some (s, .outside)

/-- Source: `ServerCore/Session.cpp`, `Session::RegisterConnect` -/
def registerConnectStep (c : ServiceConfig) (s : TcpShared τ β) (session : ℕ) (caller : ConnectCaller)
    (r : CallResult) : RegisterConnectPc → Option (TcpShared τ β × TcpPc β)
  | .check => some (s,
      if (s.sessions session).connected then .outside
      else .connect session caller .checkServiceType)
  | .checkServiceType => some (s,
      if c.serviceType = .client then .connect session caller .bind else .outside)
  | .bind => some (s, if r = .ok then .connect session caller .init else .outside)
  | .init => some ({ s with connectOwner := Function.update s.connectOwner session true },
      .connect session caller .connectEx)
  | .connectEx =>
      match r.error with
      | none => some ({ s with
          connects := Function.update s.connects session (s.connects session + 1) }, caller.return)
      | some _ => some (s, .connect session caller .clearOwner)
  | .clearOwner => some ({ s with
      connectOwner := Function.update s.connectOwner session false }, .outside)

/-- What a step of a member of a session does to the service around it.
Source: `ServerCore/Session.cpp`, `Session::ProcessConnect`; `ServerCore/Service.cpp`,
`Service::AddSession`, `Service::ReleaseSession` -/
def TcpShared.around (s : TcpShared τ β) (t : τ) (session : ℕ) : SessionPc β → TcpShared τ β
  | .processConnect .store =>
      { s with connectOwner := Function.update s.connectOwner session false }.record t
        (.stored session)
  | .processConnect .addSession =>
      { s with sessionCount := s.sessionCount + 1 }.record t (.added session)
  | .processConnect .onConnected => s.record t (.onConnected session)
  | .processDisconnect .releaseSession =>
      if (s.sessions session).inSessions then { s with sessionCount := s.sessionCount - 1 }
      else { s with crashed := true }
  | _ => s

variable [DecidableEq τ]

/-- Source: `ServerCore/Session.cpp`, `Session` -/
def sessionStep (t : τ) (s : TcpShared τ β) (session : ℕ) (caller : SessionCaller)
    (r : CallResult) (p : SessionPc β) : Option (TcpShared τ β × TcpPc β) :=
  (nextStep t (s.sessions session) r p).map fun (x, p') =>
    ((s.around t session p).setSession session x, .ofSession session caller p')

/-- A thread inside takes its next step; `r` is how the call in it ends. -/
def tcpNext (c : ServiceConfig) (t : τ) (s : TcpShared τ β) (r : CallResult) :
    TcpPc β → Option (TcpShared τ β × TcpPc β)
  | .outside => none
  | .clientStart i => clientStartStep c s r i
  | .startAccept p => startAcceptStep c s r p
  | .registerAccept acceptEvent caller p => registerAcceptStep s acceptEvent caller r p
  | .processAccept acceptEvent p => processAcceptStep s acceptEvent r p
  | .connect session caller p => registerConnectStep c s session caller r p
  | .session session caller p => sessionStep t s session caller r p

/-! ## Completions -/

/-- An asynchronous operation. -/
inductive TcpOperation
  | connectEx (session : ℕ)
  | acceptEx (acceptEvent : ℕ)
  | wsaRecv (session : ℕ)
  | wsaSend (session : ℕ)
  | disconnectEx (session : ℕ)
  deriving DecidableEq, Repr

/-- `iocpEvent->owner != nullptr`. The owner of an `AcceptEvent` is set once and for all. -/
def TcpShared.hasOwner (s : TcpShared τ β) : TcpOperation → Bool
  | .connectEx session => s.connectOwner session
  | .acceptEx _ => true
  | .wsaRecv session => (s.sessions session).recvOwner
  | .wsaSend session => (s.sessions session).sendOwner
  | .disconnectEx session => (s.sessions session).disconnectOwner

/-- An outstanding operation completes, and `t` dequeues its completion. The position is the one that
`Dispatch` of its owner leads to.
Source: `ServerCore/Session.cpp`, `Session::Dispatch`; `ServerCore/Listener.cpp`,
`Listener::Dispatch` -/
def completeStep (t : τ) (s : TcpShared τ β) (numOfBytes : ℕ) (success : Bool) :
    TcpOperation → Option (TcpShared τ β × TcpPc β)
  | .connectEx session =>
      if s.connects session = 0 then none
      else
        let s := { s with
          connects := Function.update s.connects session (s.connects session - 1) }
        some (if success then s.succeed t session else s,
          .session session .leave (.processConnect .store))
  | .acceptEx acceptEvent =>
      match s.accepting acceptEvent with
      | none => none
      | some session =>
          let s := { s with accepting := Function.update s.accepting acceptEvent none }
          some (if success then s.succeed t session else s,
            .processAccept acceptEvent .readSession)
  | .wsaRecv session => (enterStep (s.sessions session) (.received numOfBytes)).map fun (x, p) =>
      (s.setSession session x, .session session .leave p)
  | .wsaSend session => (enterStep (s.sessions session) (.sent numOfBytes)).map fun (x, p) =>
      (s.setSession session x, .session session .leave p)
  | .disconnectEx session => (enterStep (s.sessions session) .disconnected).map fun (x, p) =>
      (s.setSession session x, .session session .leave p)

/-- `errCode` is the error of a failed operation. A failed completion is dispatched like a successful
one, unless its error is `WAIT_TIMEOUT`.
Source: `ServerCore/IocpCore.cpp`, `IocpCore::Dispatch` -/
def dispatchStep (t : τ) (s : TcpShared τ β) (op : TcpOperation) (numOfBytes : ℕ)
    (errCode : Option ℕ) : Option (TcpShared τ β × TcpPc β) :=
  (completeStep t s numOfBytes errCode.isNone op).map fun (s', p) =>
    if errCode = some waitTimeout then (s', .outside)
    else if s.hasOwner op then (s', p)
    else ({ s' with crashed := true }, .outside)

omit [DecidableEq τ] in
/-- A completion is dropped, goes on to its owner, or has none. -/
theorem dispatchStep_eq_some {t : τ} {s s' : TcpShared τ β} {op : TcpOperation} {numOfBytes : ℕ}
    {errCode : Option ℕ} {p' : TcpPc β}
    (h : dispatchStep t s op numOfBytes errCode = some (s', p')) :
    ∃ s₁ p₁, completeStep t s numOfBytes errCode.isNone op = some (s₁, p₁) ∧
      ((errCode = some waitTimeout ∧ s' = s₁ ∧ p' = .outside) ∨
        (errCode ≠ some waitTimeout ∧ s.hasOwner op = true ∧ s' = s₁ ∧ p' = p₁) ∨
          (s.hasOwner op = false ∧ s' = { s₁ with crashed := true } ∧ p' = .outside)) := by
  obtain ⟨⟨s₁, p₁⟩, hcomplete, heq⟩ := Option.map_eq_some_iff.mp h
  refine ⟨s₁, p₁, hcomplete, ?_⟩
  simp only at heq
  split at heq
  · rename_i htimeout
    cases heq
    exact .inl ⟨htimeout, rfl, rfl⟩
  · rename_i htimeout
    split at heq <;> rename_i howner <;> cases heq
    · exact .inr (.inl ⟨htimeout, howner, rfl, rfl⟩)
    · exact .inr (.inr ⟨Bool.eq_false_iff.mpr howner, rfl, rfl⟩)

/-! ## The machine -/

/-- What the scheduler lets a thread do. -/
inductive TcpChoice (β : Type)
  /-- A thread outside calls `Start`. -/
  | start
  /-- A thread outside calls `Connect`. -/
  | connect (session : ℕ)
  /-- A thread outside calls `Send`. -/
  | send (session : ℕ) (sendBuffer : β)
  /-- A thread outside calls `Disconnect`. -/
  | disconnect (session : ℕ)
  /-- A thread outside dequeues a completion; `errCode` is the error of a failed operation. -/
  | dequeue (op : TcpOperation) (numOfBytes : ℕ) (errCode : Option ℕ)
  /-- A thread inside takes its next step; `r` is how the call in it ends. -/
  | next (r : CallResult)
  deriving DecidableEq

/-- A thread outside enters a member of a service or of a session that was made.
Source: `ServerCore/Service.cpp`, `ClientService::Start`, `ServerService::Start` -/
def tcpEnter (c : ServiceConfig) (t : τ) (s : TcpShared τ β) :
    TcpChoice β → Option (TcpShared τ β × TcpPc β)
  | .start => some (s,
      if c.canStart then
        match c.serviceType with
        | .server => .startAccept .listen
        | .client => .clientStart 0
      else .outside)
  | .connect session =>
      if session < s.created then some (s, .connect session .leave .check) else none
  | .send session sendBuffer =>
      if session < s.created then some (s, .session session .leave (.send (.check sendBuffer)))
      else none
  | .disconnect session =>
      if session < s.created then some (s, .session session .leave (.disconnect .leave .exchange))
      else none
  | .dequeue op numOfBytes errCode => dispatchStep t s op numOfBytes errCode
  | .next _ => none

/-- What a thread does. -/
def tcpAct (c : ServiceConfig) :
    Program τ (TcpShared τ β) (TcpPc β) (TcpChoice β) Unit :=
  fun t s p k =>
    if s.crashed then none
    else
      (match p, k with
        | .outside, k => tcpEnter c t s k
        | p, .next r => tcpNext c t s r p
        | _, _ => none).map fun (s, p) => (s, p, ())

/-- The threads of a service, interleaved. -/
def tcpThreads (τ β : Type) [DecidableEq τ] (c : ServiceConfig) :
    Transducer (Processes τ (TcpShared τ β) (TcpPc β)) (τ × TcpChoice β) (Option Unit) :=
  interleave (tcpAct c)

/-- A service that was not started yet. -/
def tcpInit (τ β : Type) : Processes τ (TcpShared τ β) (TcpPc β) where
  shared := {}
  pc _ := .outside

/-- What a step of a thread is: it enters a member, or takes the next step in one. -/
theorem tcpAct_eq_some {c : ServiceConfig} {t : τ} {s s' : TcpShared τ β} {p p' : TcpPc β}
    {k : TcpChoice β} {o : Unit} (h : tcpAct c t s p k = some (s', p', o)) :
    s.crashed = false ∧ ((p = .outside ∧ tcpEnter c t s k = some (s', p')) ∨
      ∃ r, k = .next r ∧ tcpNext c t s r p = some (s', p')) := by
  unfold tcpAct at h
  by_cases hcrash : s.crashed
  · rw [if_pos hcrash] at h
    cases h
  rw [if_neg hcrash, Option.map_eq_some_iff] at h
  obtain ⟨⟨s₁, p₁⟩, h, heq⟩ := h
  cases heq
  refine ⟨Bool.eq_false_iff.mpr hcrash, ?_⟩
  split at h
  · exact .inl ⟨rfl, h⟩
  · exact .inr ⟨_, rfl, h⟩
  · cases h

end CowboyPoker.ServerCore
