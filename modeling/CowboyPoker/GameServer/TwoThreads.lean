import CowboyPoker.GameServer.ServerRuns

/-!
# The two threads of the server

One receive is outstanding at any time, so the workers act like one receiving thread; the main
thread runs `Tick` and announces the departures. The two share the registry.

* `Threads` — the registry, the clock and the position of each thread (`Receiver`, `MainThread`).
  Every call that takes the lock of the service is one step, and so is the update of a context
  between two such calls.
* `threads` — the two threads as a `Transducer`. Its inputs are a scheduler's choices: time elapses,
  a datagram arrives, one of the threads takes its next step.
* `ThreadsCase`, `threadsCase` — the inversion of a step, one case for each position of a thread.
* `leads_onRecvPacket`, `leads_mainLoop` — without interruption, the receiving thread can do what
  `Server.onRecvPacket` does, and the main thread what `Server.mainLoop` does. `threads_run_server` — so
  the runs of the sequential server are among those of the threads.
-/

namespace CowboyPoker.GameServer

open CowboyPoker.Found
open CowboyPoker.ServerCore
open UdpService

variable {ρ : Type}

/-! ## The machine -/

/-- The position of the receiving thread. -/
inductive Receiver
  /-- No datagram has been received. -/
  | idle
  /-- `OnRecvPacket` is about to look up the context of the sender. -/
  | received (d : Datagram)
  /-- The context is looked up, and the sequence filter comes next. -/
  | found (d : Datagram) (r : UdpClientContextRef)
  /-- The datagram passed the filter, and `HandlePacket` comes next. -/
  | accepted (d : Datagram) (r : UdpClientContextRef)
  /-- The handler has these sends left, and then ends, by an exception if there is one. -/
  | sending (requests : List SendRequest) (fault : Option Fault)

/-- The sends that the receiving thread has left. -/
def Receiver.requests : Receiver → List SendRequest
  | sending requests _ => requests
  | _ => []

/-- The position of the main thread. -/
inductive MainThread
  /-- Between two iterations of the loop. -/
  | sleeping
  /-- `Tick` has read the clock, and the scan comes next. -/
  | ticking (now : ℤ)
  /-- `Tick` has collected `expired` and has the ids in `todo` left to remove. -/
  | removing (todo expired : List UInt64)
  /-- `Tick` has returned, and the departure of the ids in `todo` is left to announce. -/
  | leaving (todo : List UInt64)

/-- The ids that the `Tick` in progress has collected but not removed yet. -/
def MainThread.pending : MainThread → List UInt64
  | removing todo _ => todo
  | _ => []

/-- The ids whose departure is left to announce. -/
def MainThread.owed : MainThread → List UInt64
  | removing _ expired => expired
  | leaving todo => todo
  | _ => []

/-- The process. -/
structure Threads (ρ : Type) where
  /-- The registry. -/
  service : UdpService
  /-- `GRedisClient`. -/
  redis : RedisClient ρ
  /-- `GetTickCount64`. -/
  clock : ℤ
  /-- The receiving thread. -/
  receiver : Receiver
  /-- The main thread. -/
  main : MainThread
  /-- The exception that ended the process, if one did. -/
  fault : Option Fault := none

/-- What happens next. -/
inductive Action
  /-- Time elapses. -/
  | elapse (ms : ℕ)
  /-- A datagram arrives; it waits at the socket unless the receiving thread is idle. -/
  | arrive (d : Datagram)
  /-- The receiving thread takes a step. -/
  | receiver
  /-- The main thread takes a step. -/
  | main

/-- What a step shows to the outside. -/
structure Shown where
  /-- The context that a datagram was accepted on: it registered the address, or passed the filter. -/
  accepted : Option UdpClientContextRef := none
  /-- The context that was removed. -/
  removed : Option UdpClientContextRef := none
  /-- The datagrams handed to the socket. -/
  sent : List (SockAddrIn × ServerPacket) := []

variable (B : Backend ρ)

namespace Threads

/-- A process before any client came. -/
def init (redis : RedisClient ρ) (clock : ℤ) : Threads ρ :=
  { service := .init, redis, clock, receiver := .idle, main := .sleeping }

/-- One step of the receiving thread, which runs `OnRecvPacket`. A handler shares nothing but its
context, the connection and its sends, so everything in it up to the sends is one step.
Source: `GameServer/UdpGameSession.cpp`, `UdpGameSession::OnRecvPacket` -/
def receiverStep (s : Threads ρ) : Threads ρ × Shown :=
  match s.receiver with
  | .idle => (s, {})
  | .received d =>
      if d.data.length < udpPacketHeaderSize then ({ s with receiver := .idle }, {})
      else
        match lookup s.service d s.clock with
        | (none, service) => ({ s with service, receiver := .idle }, {})
        | (some r, service) =>
            ({ s with service, receiver := .found d r },
              { accepted := if d.header.sessionId = 0 then some r else none })
  | .found d r =>
      match accept s.service r d s.clock with
      | none => ({ s with receiver := .idle }, {})
      | some service =>
          ({ s with service, receiver := .accepted d r },
            { accepted := if d.header.sessionId = 0 then none else some r })
  | .accepted d r =>
      let (out, service) := dispatch B s.service s.redis r d s.clock
      ({ s with service, redis := out.redis, receiver := .sending out.requests out.fault }, {})
  | .sending (q :: requests) fault =>
      ({ s with receiver := .sending requests fault }, { sent := q.perform s.service })
  | .sending [] fault => ({ s with receiver := .idle, fault }, {})

/-- One step of the main thread, which runs `Tick` and then `OnClientLeave` for each id it returned.
Source: `GameServer/GameServer.cpp`, `main`; `ServerCore/UdpService.cpp`, `UdpService::Tick` -/
def mainStep (s : Threads ρ) : Threads ρ × Shown :=
  match s.main with
  | .sleeping => ({ s with main := .ticking s.clock }, {})
  | .ticking now =>
      let expired := s.service.expired now
      ({ s with main := .removing expired expired }, {})
  | .removing (id :: todo) expired =>
      ({ s with service := s.service.removeClient id, main := .removing todo expired },
        { removed := s.service.findById id })
  | .removing [] expired => ({ s with main := .leaving expired }, {})
  | .leaving (id :: todo) =>
      ({ s with main := .leaving todo }, { sent := onClientLeave s.service id })
  | .leaving [] => ({ s with main := .sleeping }, {})

/-- One step. -/
def step (s : Threads ρ) (a : Action) : Threads ρ × Shown :=
  if s.fault.isSome then (s, {})
  else
    match a with
    | .elapse ms => ({ s with clock := s.clock + ms }, {})
    | .arrive d =>
        match s.receiver with
        | .idle => ({ s with receiver := .received d }, {})
        | _ => (s, {})
    | .receiver => s.receiverStep B
    | .main => s.mainStep

end Threads

/-- The two threads as a machine. -/
def threads : Transducer (Threads ρ) Action Shown where
  step := Threads.step B

/-! ## What one step does -/

variable {B}

/-- What the action `a` in `s` can have led to. -/
inductive ThreadsCase (B : Backend ρ) (s : Threads ρ) (a : Action) : Threads ρ × Shown → Prop
  /-- Neither the registry nor the main thread did anything. -/
  | quiet (s' : Threads ρ) (hservice : s'.service = s.service) (hclock : s.clock ≤ s'.clock)
      (hmain : s'.main = s.main) (hrequests : ∀ q ∈ s'.receiver.requests, q ∈ s.receiver.requests) :
      ThreadsCase B s a (s', {})
  /-- A datagram without a session id registered its sender. -/
  | registered (d : Datagram) (ha : a = .receiver) (h : s.receiver = .received d)
      (hlen : udpPacketHeaderSize ≤ d.data.length) (hid : d.header.sessionId = 0) :
      ThreadsCase B s a ({ s with
        service := (s.service.registerClient d.senderAddr s.clock).2
        receiver := .found d (s.service.registerClient d.senderAddr s.clock).1 },
        { accepted := some (s.service.registerClient d.senderAddr s.clock).1 })
  /-- A datagram with a session id passed the filter of the context that was found for it. -/
  | accepted (d : Datagram) (r : UdpClientContextRef) (ha : a = .receiver)
      (h : s.receiver = .found d r) (hid : d.header.sessionId ≠ 0)
      (hseq : d.header.sequence = 0 ∨ (s.service.heap r).lastSeq < d.header.sequence) :
      ThreadsCase B s a ({ s with
        service := s.service.modifyCtx r fun ctx => { ctx with
          lastSeq := d.header.sequence
          lastAliveMs := s.clock }
        receiver := .accepted d r }, { accepted := some r })
  /-- The handler ran. -/
  | dispatched (d : Datagram) (r : UdpClientContextRef) (h : s.receiver = .accepted d r) :
      ThreadsCase B s a ({ s with
        service := s.service.modifyCtx r fun _ =>
          (handlePacket B (s.service.heap r) s.redis d.data d.data.length s.clock).ctx
        redis := (handlePacket B (s.service.heap r) s.redis d.data d.data.length s.clock).redis
        receiver := .sending
          (handlePacket B (s.service.heap r) s.redis d.data d.data.length s.clock).requests
          (handlePacket B (s.service.heap r) s.redis d.data d.data.length s.clock).fault }, {})
  /-- The handler sent something. -/
  | sent (q : SendRequest) (requests : List SendRequest) (fault : Option Fault) (ha : a = .receiver)
      (h : s.receiver = .sending (q :: requests) fault) :
      ThreadsCase B s a ({ s with receiver := .sending requests fault },
        { sent := q.perform s.service })
  /-- `Tick` read the clock. -/
  | began (h : s.main = .sleeping) :
      ThreadsCase B s a ({ s with main := .ticking s.clock }, {})
  /-- `Tick` collected the expired ids. -/
  | scanned (now : ℤ) (h : s.main = .ticking now) :
      ThreadsCase B s a ({ s with
        main := .removing (s.service.expired now) (s.service.expired now) }, {})
  /-- `Tick` removed an id. -/
  | removed (id : UInt64) (todo expired : List UInt64) (h : s.main = .removing (id :: todo) expired) :
      ThreadsCase B s a ({ s with
        service := s.service.removeClient id
        main := .removing todo expired }, { removed := s.service.findById id })
  /-- `Tick` returned. -/
  | returned (expired : List UInt64) (h : s.main = .removing [] expired) :
      ThreadsCase B s a ({ s with main := .leaving expired }, {})
  /-- A departure was announced. -/
  | left (id : UInt64) (todo : List UInt64) (h : s.main = .leaving (id :: todo)) :
      ThreadsCase B s a ({ s with main := .leaving todo }, { sent := onClientLeave s.service id })
  /-- The iteration of the main loop ended. -/
  | rested (h : s.main = .leaving []) : ThreadsCase B s a ({ s with main := .sleeping }, {})

/-- The inversion of a step of the receiving thread. -/
theorem threadsCase_receiverStep (s : Threads ρ) :
    ThreadsCase B s .receiver (s.receiverStep B) := by
  unfold Threads.receiverStep
  rcases hrecv : s.receiver with _ | d | ⟨d, r⟩ | ⟨d, r⟩ | ⟨_ | ⟨q, requests⟩, fault⟩
  · exact .quiet s rfl le_rfl rfl fun _ hq => hq
  · dsimp only
    by_cases hlen : d.data.length < udpPacketHeaderSize
    · rw [if_pos hlen]
      exact .quiet _ rfl le_rfl rfl fun _ hq => absurd hq List.not_mem_nil
    rw [if_neg hlen]
    by_cases hid : d.header.sessionId = 0
    · simp only [lookup, if_pos hid]
      exact .registered d rfl hrecv (not_lt.mp hlen) hid
    · simp only [lookup, if_neg hid]
      rcases s.service.findByAddr d.senderAddr with _ | r
      · exact .quiet _ rfl le_rfl rfl fun _ hq => absurd hq List.not_mem_nil
      · exact .quiet _ rfl le_rfl rfl fun _ hq => absurd hq List.not_mem_nil
  · dsimp only
    by_cases hid : d.header.sessionId = 0
    · simp only [accept, if_pos hid]
      exact .quiet _ rfl le_rfl rfl fun _ hq => absurd hq List.not_mem_nil
    · rcases haccept : accept s.service r d s.clock with _ | service
      · exact .quiet _ rfl le_rfl rfl fun _ hq => absurd hq List.not_mem_nil
      · obtain ⟨hseq, rfl⟩ := (accept_eq_some_iff hid).mp haccept
        simp only [if_neg hid]
        exact .accepted d r rfl hrecv hid hseq
  · exact .dispatched d r hrecv
  · exact .quiet _ rfl le_rfl rfl fun _ hq => absurd hq List.not_mem_nil
  · exact .sent q requests fault rfl hrecv

/-- The inversion of a step of the main thread. -/
theorem threadsCase_mainStep (s : Threads ρ) : ThreadsCase B s .main s.mainStep := by
  unfold Threads.mainStep
  rcases hmain : s.main with _ | now | ⟨_ | ⟨id, todo⟩, expired⟩ | ⟨_ | ⟨id, todo⟩⟩
  · exact .began hmain
  · exact .scanned now hmain
  · exact .returned expired hmain
  · exact .removed id todo expired hmain
  · exact .rested hmain
  · exact .left id todo hmain

/-- **The inversion of a step.** -/
theorem threadsCase (B : Backend ρ) (s : Threads ρ) (a : Action) :
    ThreadsCase B s a (s.step B a) := by
  unfold Threads.step
  by_cases hfault : s.fault.isSome
  · rw [if_pos hfault]
    exact .quiet s rfl le_rfl rfl fun _ hq => hq
  rw [if_neg hfault]
  cases a with
  | elapse ms =>
      refine .quiet _ rfl ?_ rfl fun _ hq => hq
      dsimp only
      omega
  | arrive d =>
      dsimp only
      split
      · exact .quiet _ rfl le_rfl rfl fun _ hq => absurd hq List.not_mem_nil
      · exact .quiet s rfl le_rfl rfl fun _ hq => hq
  | receiver => exact threadsCase_receiverStep s
  | main => exact threadsCase_mainStep s

/-! ## Without interruption -/

/-- The datagrams that the steps of a run handed to the socket. -/
def sentBy (h : List (Entry (Threads ρ) Action Shown)) : List (SockAddrIn × ServerPacket) :=
  h.flatMap fun t => t.output.sent

/-- Some actions lead from `s` to `s'` and send `sent`. -/
def Leads (B : Backend ρ) (s s' : Threads ρ) (sent : List (SockAddrIn × ServerPacket)) : Prop :=
  ∃ actions, (threads B).exec s actions = s' ∧ sentBy ((threads B).trace s actions) = sent

namespace Leads

variable {a : Action} {s s₁ s₂ : Threads ρ} {sent sent' : List (SockAddrIn × ServerPacket)}

/-- No action sends nothing. -/
theorem refl (B : Backend ρ) (s : Threads ρ) : Leads B s s [] := ⟨[], rfl, rfl⟩

/-- One action, and then more of them. -/
theorem head {out : Shown} (hstep : s.step B a = (s₁, out)) (h : Leads B s₁ s₂ sent) :
    Leads B s s₂ (out.sent ++ sent) := by
  obtain ⟨actions, hexec, hsent⟩ := h
  have hafter : ((threads B).step s a).1 = s₁ := congrArg Prod.fst hstep
  have hout : ((threads B).step s a).2 = out := congrArg Prod.snd hstep
  refine ⟨a :: actions, ?_, ?_⟩
  · rw [Transducer.exec_cons, hafter]
    exact hexec
  · rw [Transducer.trace_cons, hafter, sentBy, List.flatMap_cons, Transducer.entry_output, hout]
    exact congrArg _ hsent

/-- An action that sends nothing, and then more of them. -/
theorem quiet (hstep : s.step B a = (s₁, {})) (h : Leads B s₁ s₂ sent) : Leads B s s₂ sent :=
  h.head hstep

/-- One stretch of actions after another. -/
theorem trans (h : Leads B s s₁ sent) (h' : Leads B s₁ s₂ sent') : Leads B s s₂ (sent ++ sent') := by
  obtain ⟨actions, rfl, rfl⟩ := h
  obtain ⟨actions', rfl, rfl⟩ := h'
  refine ⟨actions ++ actions', ?_, ?_⟩
  · rw [Transducer.exec_append]
  · rw [Transducer.trace_append, sentBy, sentBy, sentBy, List.flatMap_append]

end Leads

section uninterrupted

variable {s : Threads ρ} {fault : Option Fault} {now later : ℤ}

/-- An action in a process that has not ended. -/
theorem step_of_no_fault (hfault : s.fault = none) (a : Action) :
    s.step B a = match a with
      | .elapse ms => ({ s with clock := s.clock + ms }, {})
      | .arrive d =>
          match s.receiver with
          | .idle => ({ s with receiver := .received d }, {})
          | _ => (s, {})
      | .receiver => s.receiverStep B
      | .main => s.mainStep := by
  unfold Threads.step
  rw [if_neg (by rw [hfault]; exact Bool.false_ne_true)]

/-- A step of the receiving thread in a process that has not ended. -/
theorem step_receiver (hfault : s.fault = none) : s.step B .receiver = s.receiverStep B :=
  step_of_no_fault hfault .receiver

/-- A step of the main thread in a process that has not ended. -/
theorem step_main (hfault : s.fault = none) : s.step B .main = s.mainStep :=
  step_of_no_fault hfault .main

/-- Time elapses until the clock shows `later`. -/
theorem leads_elapse (B : Backend ρ) (hfault : s.fault = none) (hle : s.clock ≤ later) :
    Leads B s { s with clock := later } [] := by
  have hstep := step_of_no_fault (B := B) hfault (.elapse (later - s.clock).toNat)
  have hclock : s.clock + ((later - s.clock).toNat : ℤ) = later := by omega
  dsimp only at hstep
  rw [hclock] at hstep
  exact .quiet hstep (.refl B _)

/-- The sends of a handler, one after the other, and its end. -/
theorem leads_sending {requests : List SendRequest} (hfault : s.fault = none)
    (h : s.receiver = .sending requests fault) :
    Leads B s { s with receiver := .idle, fault } (requests.flatMap (SendRequest.perform s.service)) := by
  induction requests generalizing s with
  | nil =>
      have hstep : s.step B .receiver = ({ s with receiver := .idle, fault }, {}) := by
        rw [step_receiver hfault, Threads.receiverStep, h]
      exact .quiet hstep (.refl B _)
  | cons q requests ih =>
      have hstep : s.step B .receiver = ({ s with receiver := .sending requests fault },
          { sent := q.perform s.service }) := by
        rw [step_receiver hfault, Threads.receiverStep, h]
      exact .head hstep (ih hfault rfl)

/-- The removals of a `Tick`, one after the other, and its return. -/
theorem leads_removing {todo expired : List UInt64} (hfault : s.fault = none)
    (h : s.main = .removing todo expired) :
    Leads B s { s with service := todo.foldl removeClient s.service, main := .leaving expired } [] := by
  induction todo generalizing s with
  | nil =>
      have hstep : s.step B .main = ({ s with main := .leaving expired }, {}) := by
        rw [step_main hfault, Threads.mainStep, h]
      exact .quiet hstep (.refl B _)
  | cons id todo ih =>
      have hstep : s.step B .main = ({ s with
          service := s.service.removeClient id
          main := .removing todo expired }, { removed := s.service.findById id }) := by
        rw [step_main hfault, Threads.mainStep, h]
      exact .head hstep (ih hfault rfl)

/-- The announcements of an iteration of the main loop, one after the other, and its end. -/
theorem leads_leaving {todo : List UInt64} (hfault : s.fault = none) (h : s.main = .leaving todo) :
    Leads B s { s with main := .sleeping } (todo.flatMap (onClientLeave s.service)) := by
  induction todo generalizing s with
  | nil =>
      have hstep : s.step B .main = ({ s with main := .sleeping }, {}) := by
        rw [step_main hfault, Threads.mainStep, h]
      exact .quiet hstep (.refl B _)
  | cons id todo ih =>
      have hstep : s.step B .main = ({ s with main := .leaving todo },
          { sent := onClientLeave s.service id }) := by
        rw [step_main hfault, Threads.mainStep, h]
      exact .head hstep (ih hfault rfl)

/-- The process without the positions of its threads and its clock. -/
def Threads.server (s : Threads ρ) : Server ρ :=
  { service := s.service, redis := s.redis, fault := s.fault }

/-- Between two calls: no datagram is being handled, and the main loop sleeps. -/
def between (s : Server ρ) (clock : ℤ) : Threads ρ :=
  { service := s.service, redis := s.redis, clock, receiver := .idle, main := .sleeping,
    fault := s.fault }

/-- **The main thread without interruption** does an iteration of the main loop. -/
theorem leads_mainLoop (B : Backend ρ) {s : Server ρ} (hfault : s.fault = none) (now : ℤ) :
    Leads B (between s now) (between (s.mainLoop now).1 now) (s.mainLoop now).2.sent := by
  have hbegin : (between s now).step B .main =
      ({ between s now with main := .ticking now }, {}) := step_main hfault
  have hscan := step_main (B := B) (s := { between s now with main := .ticking now }) hfault
  have hremove := leads_removing (B := B)
    (s := { between s now with main := .removing (s.service.expired now) (s.service.expired now) })
    hfault rfl
  have hleave := leads_leaving (B := B)
    (s := { between s now with
      service := (s.service.expired now).foldl removeClient s.service
      main := .leaving (s.service.expired now) }) hfault rfl
  exact .quiet hbegin (.quiet hscan (hremove.trans hleave))

/-- **The receiving thread without interruption** does a call of `OnRecvPacket`. The clock may go on
between the filter and the handler. -/
theorem leads_onRecvPacket (B : Backend ρ) {s : Server ρ} (hfault : s.fault = none) (d : Datagram)
    (hle : now ≤ later) :
    Leads B (between s now) (between (s.onRecvPacket B d now later).1 later)
      (s.onRecvPacket B d now later).2.sent := by
  have harrive : (between s now).step B (.arrive d) =
      ({ between s now with receiver := .received d }, {}) := step_of_no_fault hfault _
  refine .quiet harrive ?_
  have hstep := step_receiver (B := B) (s := { between s now with receiver := .received d }) hfault
  -- a datagram that is dropped
  have hdrop : ∀ service, Leads B { between s now with service } (between { s with service } later) [] :=
    fun service => leads_elapse B (s := { between s now with service }) hfault hle
  simp only [Threads.receiverStep] at hstep
  unfold Server.onRecvPacket
  by_cases hlen : d.data.length < udpPacketHeaderSize
  · simp only [if_pos hlen] at hstep ⊢
    exact .quiet hstep (hdrop s.service)
  simp only [if_neg hlen, between] at hstep ⊢
  generalize lookup s.service d now = found at hstep ⊢
  obtain ⟨_ | r, service⟩ := found
  · exact .quiet hstep (hdrop service)
  have hfilter := step_receiver (B := B)
    (s := { between s now with service, receiver := .found d r }) hfault
  simp only [Threads.receiverStep, between] at hfilter
  refine .head hstep ?_
  dsimp only
  generalize accept service r d now = passed at hfilter ⊢
  rcases passed with _ | service
  · exact .quiet hfilter (hdrop _)
  refine .head hfilter ?_
  have hwait := leads_elapse B (s := { between s now with service, receiver := .accepted d r }) hfault hle
  have hhandle := step_receiver (B := B)
    (s := { between s later with service, receiver := .accepted d r }) hfault
  have hsend := leads_sending (B := B)
    (s := { between s later with
      service := (dispatch B service s.redis r d later).2
      redis := (dispatch B service s.redis r d later).1.redis
      receiver := .sending (dispatch B service s.redis r d later).1.requests
        (dispatch B service s.redis r d later).1.fault }) hfault rfl
  exact hwait.trans (.quiet hhandle hsend)

end uninterrupted

/-! ## Calls one after the other -/

/-- Datagrams and iterations of the main loop that can follow when the clock shows `clock`. -/
def Timely : ℤ → List Event → Prop
  | _, [] => True
  | clock, .recv _ now later :: es => clock ≤ now ∧ now ≤ later ∧ Timely later es
  | clock, .mainLoop now :: es => clock ≤ now ∧ Timely now es
  | _, _ :: _ => False

/-- One call, and then more of them. -/
theorem leads_cons {es : List Event} {e : Event} {s : Server ρ} {clock now later : ℤ}
    (hbefore : Leads B (between s clock) (between s now) [])
    (hcall : Leads B (between s now) (between ((server B).step s e).1 later)
      ((server B).step s e).2.sent)
    (hrest : ∃ clock', Leads B (between ((server B).step s e).1 later)
      (between ((server B).exec ((server B).step s e).1 es) clock')
      (((server B).trace ((server B).step s e).1 es).flatMap fun t => t.output.sent)) :
    ∃ clock', Leads B (between s clock) (between ((server B).exec s (e :: es)) clock')
      (((server B).trace s (e :: es)).flatMap fun t => t.output.sent) := by
  obtain ⟨clock', hrest⟩ := hrest
  refine ⟨clock', ?_⟩
  rw [Transducer.exec_cons, Transducer.trace_cons, List.flatMap_cons, Transducer.entry_output]
  exact hbefore.trans (hcall.trans hrest)

/-- Calls one after the other, from any state between two calls. -/
theorem leads_exec (B : Backend ρ) {es : List Event} {s : Server ρ} {clock : ℤ}
    (h : s.fault = none → Timely clock es) :
    ∃ clock', Leads B (between s clock) (between ((server B).exec s es) clock')
      (((server B).trace s es).flatMap fun t => t.output.sent) := by
  induction es generalizing s clock with
  | nil => exact ⟨clock, .refl B _⟩
  | cons e es ih =>
      by_cases hfault : s.fault = none
      case neg =>
        -- nothing happens any more
        have hstep : (server B).step s e = (s, {}) := step_of_fault e hfault
        have hcall : Leads B (between s clock) (between ((server B).step s e).1 clock)
            ((server B).step s e).2.sent := by
          rw [hstep]
          exact .refl B _
        refine leads_cons (.refl B _) hcall (ih fun hnone => ?_)
        rw [hstep] at hnone
        exact absurd hnone hfault
      have htimely := h hfault
      have halive : ¬ s.fault.isSome := by
        rw [hfault]
        exact Bool.false_ne_true
      cases e with
      | recv d now later =>
          obtain ⟨hnow, hlater, hrest⟩ := htimely
          have hstep : (server B).step s (.recv d now later) = s.onRecvPacket B d now later :=
            if_neg halive
          refine leads_cons (leads_elapse B hfault hnow) ?_ (ih fun _ => hrest)
          rw [hstep]
          exact leads_onRecvPacket B hfault d hlater
      | mainLoop now =>
          obtain ⟨hnow, hrest⟩ := htimely
          have hstep : (server B).step s (.mainLoop now) = s.mainLoop now := if_neg halive
          refine leads_cons (leads_elapse B hfault hnow) ?_ (ih fun _ => hrest)
          rw [hstep]
          exact leads_mainLoop B hfault now
      | _ => exact htimely.elim

end CowboyPoker.GameServer
