import CowboyPoker.Found.Simulation
import CowboyPoker.ServerCore.ReceiveToken
import CowboyPoker.GameServer.DatagramParsing
import CowboyPoker.GameServer.TwoThreads

/-!
# The worker threads of the server

The process as `main` starts it: any number of threads run `IocpCore::Dispatch`, and the main thread
registers the first receive and then runs `Tick`. No lock protects the receive buffer, the address of
the sender, the fields of a context or the connection to Redis. A thread in `OnRecvPacket` reads the
buffer anew at each of its steps, with whatever earlier datagrams left behind the received bytes.

* `ServerShared`, `ThreadPc`, `serverAct` — what the threads share, where a thread is, what it does.
  `serverThreads` — the interleaving of all threads.
* `PoolInv` — the receive token is in one place, and no length exceeds the buffer.
* `workers_refine` — the threads do what one receiving thread and the main thread do (`threads`): same
  registry, same store, same datagrams handled and sent, in the same order.
-/

namespace CowboyPoker.GameServer

open CowboyPoker.Found
open CowboyPoker.ServerCore
open UdpService

variable {ρ : Type}

/-! ## The machine -/

/-- What the threads and the kernel share. -/
structure ServerShared (ρ : Type) where
  /-- The members of the UDP session and its operations. -/
  recv : RecvShared
  /-- The registry. -/
  service : UdpService
  /-- `GRedisClient`. -/
  redis : RedisClient ρ
  /-- `GetTickCount64`. -/
  clock : ℤ
  /-- The exception that ended the process, if one did. -/
  fault : Option Fault := none

/-- Where a thread is. -/
inductive ThreadPc
  /-- A worker outside `OnRecvPacket`, or about to enter it. -/
  | worker (p : RecvPc)
  /-- A worker in `OnRecvPacket`: the context is looked up, and the sequence filter comes next. -/
  | found (len : ℕ) (r : UdpClientContextRef)
  /-- A worker in `OnRecvPacket`: the datagram passed the filter, and `HandlePacket` comes next. -/
  | accepted (len : ℕ) (r : UdpClientContextRef)
  /-- A worker in a handler, which has these sends left, and then ends, by an exception if there is
  one. -/
  | sending (len : ℕ) (requests : List SendRequest) (fault : Option Fault)
  /-- The main thread in `UdpService::Start`, at the first `RegisterRecv`. -/
  | starting (p : RecvPc)
  /-- The main thread in its loop. -/
  | main (m : MainThread)

namespace ThreadPc

/-- The position in the receive loop. -/
def recv : ThreadPc → RecvPc
  | worker p => p
  | found len _ => .onRecvPacket len
  | accepted len _ => .onRecvPacket len
  | sending len _ _ => .onRecvPacket len
  | starting p => p
  | main _ => .outside

/-- The position of the main thread in its loop. -/
def mainThread : ThreadPc → MainThread
  | main m => m
  | _ => .sleeping

/-- In `OnRecvPacket`, behind the lookup. -/
def inHandler : ThreadPc → Bool
  | found _ _ => true
  | accepted _ _ => true
  | sending _ _ _ => true
  | _ => false

/-- In the main thread. -/
def isMain : ThreadPc → Bool
  | starting _ => true
  | main _ => true
  | _ => false

/-- Where the main thread goes on when `RegisterRecv` has taken it to `p`. -/
def started (p : RecvPc) : ThreadPc := if p = .outside then main .sleeping else starting p

end ThreadPc

/-- What the scheduler picks. -/
inductive ThreadChoice
  /-- Time elapses. -/
  | elapse (ms : ℕ)
  /-- The kernel completes an operation with a datagram. -/
  | arrives (datagram : Bytes) (sender : SockAddrIn)
  /-- The kernel completes an operation with an error. -/
  | fails (errCode : ℕ) (numOfBytes : ℕ)
  /-- A worker dequeues a completion. -/
  | dequeue
  /-- A thread takes its next step; `r` is how `WSARecvFrom` ends. -/
  | next (r : RecvResult)

/-- What a step of a thread shows. -/
structure ThreadShown where
  /-- The sender and the bytes of a datagram that the kernel wrote to the buffer. -/
  delivered : Option (SockAddrIn × Bytes) := none
  /-- The kernel completed an operation with an error. -/
  failed : Bool := false
  /-- The sender and the bytes that `OnRecvPacket` was called with. -/
  handling : Option (SockAddrIn × Bytes) := none
  /-- What the server does. -/
  shown : Shown := {}

/-- The datagram that a step of the receive loop writes to the buffer; what is too long is cut. -/
def writtenBy (p : RecvPc) : RecvChoice → Option (SockAddrIn × Bytes)
  | .arrives datagram sender => some (sender, datagram.take udpMaxPacket)
  | .next (.received datagram sender) =>
      if p = .wsaRecvFrom then some (sender, datagram.take udpMaxPacket) else none
  | _ => none

/-- A step of the receive loop in which an operation fails. -/
def isFailure : RecvChoice → Bool
  | .fails _ _ => true
  | _ => false

variable (B : Backend ρ)

namespace ServerShared

/-- What one receiving thread and the main thread at the given positions share. -/
def threads (s : ServerShared ρ) (receiver : Receiver) (main : MainThread) : Threads ρ :=
  { service := s.service, redis := s.redis, clock := s.clock, receiver, main, fault := s.fault }

/-- The header of what is in the buffer. -/
def header (s : ServerShared ρ) : UdpPacketHeader := UdpPacketHeader.read s.recv.recvBuf

/-- A step of the receive loop, which leads to the position `back p`. -/
def receive (s : ServerShared ρ) (p : RecvPc) (k : RecvChoice) (back : RecvPc → ThreadPc) :
    Option (ServerShared ρ × ThreadPc × ThreadShown) :=
  (recvChoose s.recv p k).map fun (recv, p') =>
    ({ s with recv }, back p', { delivered := writtenBy p k, failed := isFailure k })

/-- `OnRecvPacket` up to the lookup of the context, called with `_recvFromAddr`, `_recvBuf` and `len`.
When it returns, `RegisterRecv` comes next.
Source: `GameServer/UdpGameSession.cpp`, `UdpGameSession::OnRecvPacket` -/
def lookupStep (s : ServerShared ρ) (len : ℕ) : ServerShared ρ × ThreadPc × ThreadShown :=
  let handling := some (s.recv.recvFromAddr, s.recv.recvBuf.take len)
  if len < udpPacketHeaderSize then (s, .worker .registerRecv, { handling })
  else if s.header.sessionId = 0 then
    let (r, service) := s.service.registerClient s.recv.recvFromAddr s.clock
    ({ s with service }, .found len r, { handling, shown := { accepted := some r } })
  else
    match s.service.findByAddr s.recv.recvFromAddr with
    | none => (s, .worker .registerRecv, { handling })
    | some r => (s, .found len r, { handling })

/-- The sequence filter, on the path with a session id only.
Source: `GameServer/UdpGameSession.cpp`, `UdpGameSession::OnRecvPacket` -/
def filterStep (s : ServerShared ρ) (len : ℕ) (r : UdpClientContextRef) :
    ServerShared ρ × ThreadPc × ThreadShown :=
  if s.header.sessionId = 0 then (s, .accepted len r, {})
  else if s.header.sequence ≠ 0 ∧ s.header.sequence ≤ (s.service.heap r).lastSeq then
    (s, .worker .registerRecv, {})
  else
    ({ s with
        service := s.service.modifyCtx r fun ctx => { ctx with
          lastSeq := s.header.sequence
          lastAliveMs := s.clock } }, .accepted len r, { shown := { accepted := some r } })

/-- `HandlePacket` up to its sends, called with `_recvBuf` and `len`.
Source: `GameServer/UdpServerPacketHandler.cpp`, `UdpServerPacketHandler::HandlePacket` -/
def handleStep (s : ServerShared ρ) (len : ℕ) (r : UdpClientContextRef) :
    ServerShared ρ × ThreadPc × ThreadShown :=
  let out := handlePacket B (s.service.heap r) s.redis s.recv.recvBuf len s.clock
  ({ s with service := s.service.modifyCtx r fun _ => out.ctx, redis := out.redis },
    .sending len out.requests out.fault, {})

/-- The sends of a handler, one after the other, and its end. An exception leaves the process dead. -/
def sendStep (s : ServerShared ρ) (len : ℕ) (requests : List SendRequest) (fault : Option Fault) :
    ServerShared ρ × ThreadPc × ThreadShown :=
  match requests with
  | q :: requests => (s, .sending len requests fault, { shown := { sent := q.perform s.service } })
  | [] =>
      if fault.isSome then ({ s with fault }, .sending len [] fault, {})
      else (s, .worker .registerRecv, {})

/-- The main thread takes a step of its loop.
Source: `GameServer/GameServer.cpp`, `main` -/
def loopStep (s : ServerShared ρ) (m : MainThread) : ServerShared ρ × ThreadPc × ThreadShown :=
  let (s', shown) := (s.threads .idle m).mainStep
  ({ s with service := s'.service }, .main s'.main, { shown })

/-- A thread takes its next step. -/
def nextStep (s : ServerShared ρ) (p : ThreadPc) (r : RecvResult) :
    Option (ServerShared ρ × ThreadPc × ThreadShown) :=
  match p with
  | .worker (.onRecvPacket len) => some (s.lookupStep len)
  | .worker p => s.receive p (.next r) .worker
  | .found len ctx => some (s.filterStep len ctx)
  | .accepted len ctx => some (s.handleStep B len ctx)
  | .sending len requests fault => some (s.sendStep len requests fault)
  | .starting p => s.receive p (.next r) .started
  | .main m => some (s.loopStep m)

end ServerShared

/-- What a thread does, or the kernel in its name. The kernel reports no more bytes than the buffer
holds. -/
def serverAct {τ : Type} :
    Program τ (ServerShared ρ) ThreadPc ThreadChoice ThreadShown := fun _ s p k =>
  if s.fault.isSome ∨ s.recv.crashed then none
  else
    match k with
    | .elapse ms => some ({ s with clock := s.clock + ms }, p, {})
    | .arrives datagram sender => s.receive p.recv (.arrives datagram sender) fun _ => p
    | .fails errCode numOfBytes =>
        if numOfBytes ≤ udpMaxPacket then s.receive p.recv (.fails errCode numOfBytes) fun _ => p
        else none
    | .dequeue =>
        match p with
        | .worker p => s.receive p .dequeue .worker
        | _ => none
    | .next r => s.nextStep B p r

/-- The threads of the server, interleaved. -/
def serverThreads (τ : Type) [DecidableEq τ] :
    Transducer (Processes τ (ServerShared ρ) ThreadPc) (τ × ThreadChoice) (Option ThreadShown) :=
  interleave (serverAct B)

/-- The thread `main` is about to register the first receive; the others wait for completions.
Source: `GameServer/GameServer.cpp`, `main` -/
def serverInit {τ : Type} [DecidableEq τ] (main : τ) (redis : RedisClient ρ) (clock : ℤ) :
    Processes τ (ServerShared ρ) ThreadPc where
  shared := { recv := {}, service := .init, redis, clock }
  pc := Function.update (fun _ => .worker .outside) main (.starting .registerRecv)

/-! ## What one step does -/

variable {B}

/-- A step of the kernel. -/
def isKernel : RecvChoice → Bool
  | .arrives _ _ => true
  | .fails _ _ => true
  | _ => false

/-- How a step `k` of the kernel or of the receive loop moves a thread. -/
inductive Moves (s : RecvShared) (k : RecvChoice) : ThreadPc → ThreadPc → Prop
  /-- The kernel completes an operation and moves nobody. -/
  | kernel {p : ThreadPc} (hk : isKernel k = true) (hout : 0 < s.outstanding) : Moves s k p p
  /-- A worker does not leave `OnRecvPacket` in this way. -/
  | worker {q q' : RecvPc} (hk : isKernel k = false) (hq : ∀ len, q ≠ .onRecvPacket len) :
      Moves s k (.worker q) (.worker q')
  /-- The main thread in `UdpService::Start`. -/
  | starting {q q' : RecvPc} (r : RecvResult) (hk : k = .next r) : Moves s k (.starting q) (.started q')

/-- What a step of a thread at `p` can have led to. -/
inductive ServerCase (B : Backend ρ) (s : ServerShared ρ) (p : ThreadPc) :
    ServerShared ρ × ThreadPc × ThreadShown → Prop
  /-- Time elapsed. -/
  | elapsed (ms : ℕ) : ServerCase B s p ({ s with clock := s.clock + ms }, p, {})
  /-- The kernel or the receive loop took a step. -/
  | received (k : RecvChoice) (recv : RecvShared) (p' : ThreadPc)
      (hchoose : recvChoose s.recv p.recv k = some (recv, p'.recv)) (hmoves : Moves s.recv k p p')
      (hbytes : ∀ errCode numOfBytes, k = .fails errCode numOfBytes → numOfBytes ≤ udpMaxPacket) :
      ServerCase B s p
        ({ s with recv }, p', { delivered := writtenBy p.recv k, failed := isFailure k })
  /-- `OnRecvPacket` looked up the context. -/
  | looked (len : ℕ) (h : p = .worker (.onRecvPacket len)) : ServerCase B s p (s.lookupStep len)
  /-- The sequence filter ran. -/
  | filtered (len : ℕ) (r : UdpClientContextRef) (h : p = .found len r) :
      ServerCase B s p (s.filterStep len r)
  /-- The handler ran. -/
  | handled (len : ℕ) (r : UdpClientContextRef) (h : p = .accepted len r) :
      ServerCase B s p (s.handleStep B len r)
  /-- The handler sent something or ended. -/
  | sent (len : ℕ) (requests : List SendRequest) (fault : Option Fault)
      (h : p = .sending len requests fault) : ServerCase B s p (s.sendStep len requests fault)
  /-- The main thread took a step of its loop. -/
  | looped (m : MainThread) (h : p = .main m) : ServerCase B s p (s.loopStep m)

section inversion

variable {s : ServerShared ρ} {p : ThreadPc}
  {next : ServerShared ρ × ThreadPc × ThreadShown}

/-- A thread that has started stands where it is. -/
theorem recv_started (q : RecvPc) : (ThreadPc.started q).recv = q := by
  unfold ThreadPc.started
  split
  · rename_i heq
    exact heq.symm
  · rfl

/-- A step of the receive loop. -/
theorem serverCase_receive {k : RecvChoice} {back : RecvPc → ThreadPc}
    (h : s.receive p.recv k back = some next)
    (hmoves : ∀ recv q', recvChoose s.recv p.recv k = some (recv, q') →
      (back q').recv = q' ∧ Moves s.recv k p (back q'))
    (hbytes : ∀ errCode numOfBytes, k = .fails errCode numOfBytes → numOfBytes ≤ udpMaxPacket) :
    ServerCase B s p next := by
  unfold ServerShared.receive at h
  obtain ⟨⟨recv, q'⟩, hchoose, rfl⟩ := Option.map_eq_some_iff.mp h
  obtain ⟨hback, hmove⟩ := hmoves recv q' hchoose
  refine .received k recv (back q') ?_ hmove hbytes
  rw [hback]
  exact hchoose

/-- A step of a worker in the receive loop. -/
theorem serverCase_worker {q : RecvPc} {k : RecvChoice} (h : s.receive q k .worker = some next)
    (hk : isKernel k = false) (hq : ∀ len, q ≠ .onRecvPacket len) :
    ServerCase B s (.worker q) next := by
  refine serverCase_receive h (fun recv q' _ => ⟨rfl, .worker hk hq⟩) fun errCode numOfBytes heq => ?_
  rw [heq] at hk
  cases hk

/-- **The inversion of a step.** -/
theorem serverCase {τ : Type} {t : τ} {k : ThreadChoice} (h : serverAct B t s p k = some next) :
    s.fault = none ∧ ServerCase B s p next := by
  unfold serverAct at h
  obtain ⟨halive, h⟩ := Option.ite_none_left_eq_some.mp h
  refine ⟨Option.not_isSome_iff_eq_none.mp fun hfault => halive (.inl hfault), ?_⟩
  cases k with
  | elapse ms =>
      cases h
      exact .elapsed ms
  | arrives datagram sender =>
      refine serverCase_receive h (fun recv q' hchoose => ?_) fun _ _ hk => nomatch hk
      obtain ⟨hout, hchoose⟩ := Option.ite_none_left_eq_some.mp hchoose
      cases hchoose
      exact ⟨rfl, .kernel rfl (Nat.pos_of_ne_zero hout)⟩
  | fails errCode numOfBytes =>
      obtain ⟨hbytes, h⟩ := Option.ite_none_right_eq_some.mp h
      refine serverCase_receive h (fun recv q' hchoose => ?_) fun _ _ hk => ?_
      · obtain ⟨hout, hchoose⟩ := Option.ite_none_left_eq_some.mp hchoose
        cases hchoose
        exact ⟨rfl, .kernel rfl (Nat.pos_of_ne_zero hout)⟩
      · cases hk
        exact hbytes
  | dequeue =>
      cases p with
      | worker q =>
          have h : s.receive q .dequeue .worker = some next := h
          refine serverCase_worker h rfl fun len heq => ?_
          subst heq
          cases h
      | _ => cases h
  | next r =>
      cases p with
      | worker q =>
          cases q with
          | onRecvPacket len =>
              cases h
              exact .looked len rfl
          | _ => exact serverCase_worker h rfl fun _ heq => nomatch heq
      | found len r =>
          cases h
          exact .filtered len r rfl
      | accepted len r =>
          cases h
          exact .handled len r rfl
      | sending len requests fault =>
          cases h
          exact .sent len requests fault rfl
      | starting q =>
          have h : s.receive q (.next r) .started = some next := h
          exact serverCase_receive h (fun recv q' _ => ⟨recv_started q', .starting r rfl⟩)
            fun _ _ hk => nomatch hk
      | main m =>
          cases h
          exact .looped m rfl

/-- What the kernel and the receive loop leave as it is. -/
theorem Moves.frame {recv : RecvShared} {k : RecvChoice} {p p' : ThreadPc} (h : Moves recv k p p') :
    (p.inHandler = true → 0 < recv.outstanding) ∧ p'.inHandler = p.inHandler ∧
      p'.isMain = p.isMain ∧ p'.mainThread = p.mainThread := by
  cases h with
  | kernel hk hout => exact ⟨fun _ => hout, rfl, rfl, rfl⟩
  | worker hk hq => exact ⟨fun hin => absurd hin Bool.false_ne_true, rfl, rfl, rfl⟩
  | starting r hk =>
      unfold ThreadPc.started
      split <;> exact ⟨fun hin => absurd hin Bool.false_ne_true, rfl, rfl, rfl⟩

/-- A step outside the receive loop does not touch the buffer; it ends `OnRecvPacket` or leaves the
thread where it is in the loop. -/
theorem ServerCase.frame (h : ServerCase B s p next) :
    (∃ k, recvChoose s.recv p.recv k = some (next.1.recv, next.2.1.recv) ∧
        ∀ errCode numOfBytes, k = .fails errCode numOfBytes → numOfBytes ≤ udpMaxPacket) ∨
      next.1.recv = s.recv ∧ (next.2.1.recv = p.recv ∨
        (∃ len, p.recv = .onRecvPacket len) ∧ next.2.1.recv = .registerRecv) := by
  cases h with
  | elapsed ms => exact .inr ⟨rfl, .inl rfl⟩
  | received k recv p' hchoose hmoves hbytes => exact .inl ⟨k, hchoose, hbytes⟩
  | looked len h =>
      subst h
      right
      unfold ServerShared.lookupStep
      split_ifs
      · exact ⟨rfl, .inr ⟨⟨len, rfl⟩, rfl⟩⟩
      · exact ⟨rfl, .inl rfl⟩
      · split
        · exact ⟨rfl, .inr ⟨⟨len, rfl⟩, rfl⟩⟩
        · exact ⟨rfl, .inl rfl⟩
  | filtered len r h =>
      subst h
      right
      unfold ServerShared.filterStep
      split_ifs
      · exact ⟨rfl, .inl rfl⟩
      · exact ⟨rfl, .inr ⟨⟨len, rfl⟩, rfl⟩⟩
      · exact ⟨rfl, .inl rfl⟩
  | handled len r h =>
      subst h
      exact .inr ⟨rfl, .inl rfl⟩
  | sent len requests fault h =>
      subst h
      right
      unfold ServerShared.sendStep
      cases requests with
      | cons q requests => exact ⟨rfl, .inl rfl⟩
      | nil =>
          dsimp only
          split_ifs
          · exact ⟨rfl, .inl rfl⟩
          · exact ⟨rfl, .inr ⟨⟨len, rfl⟩, rfl⟩⟩
  | looped m h =>
      subst h
      exact .inr ⟨rfl, .inl rfl⟩

/-- No thread becomes the main thread or ceases to be it. -/
theorem ServerCase.isMain_eq (h : ServerCase B s p next) : next.2.1.isMain = p.isMain := by
  cases h with
  | elapsed ms => rfl
  | received k recv p' hchoose hmoves => exact hmoves.frame.2.2.1
  | looked len h =>
      subst h
      unfold ServerShared.lookupStep
      split_ifs
      · rfl
      · rfl
      · split <;> rfl
  | filtered len r h =>
      subst h
      unfold ServerShared.filterStep
      split_ifs <;> rfl
  | handled len r h =>
      subst h
      rfl
  | sent len requests fault h =>
      subst h
      unfold ServerShared.sendStep
      cases requests with
      | cons q requests => rfl
      | nil =>
          dsimp only
          split_ifs <;> rfl
  | looped m h =>
      subst h
      rfl

/-- What a step does to the receive token. -/
theorem ServerCase.recvStep (h : ServerCase B s p next) (hcrashed : s.recv.crashed = false) :
    RecvStep s.recv p.recv next.1.recv next.2.1.recv := by
  rcases h.frame with ⟨k, hchoose, -⟩ | ⟨hrecv, hpc | ⟨⟨len, hlen⟩, hpc⟩⟩
  · refine ServerCore.recvStep (t := ()) (k := k) (o := ()) ?_
    unfold recvAct
    rw [if_neg (by rw [hcrashed]; exact Bool.false_ne_true), hchoose]
    rfl
  · rw [hrecv, hpc]
    exact .quiet rfl rfl ⟨rfl, rfl⟩ Iff.rfl (.inr rfl) fun heach => ⟨heach, rfl⟩
  · rw [hrecv, hpc, hlen]
    exact .inner nofun nofun rfl rfl ⟨rfl, rfl⟩ rfl nofun nofun

end inversion

/-! ## The invariant -/

/-- The number of bytes that a thread in the receive loop carries. -/
def lenAt : RecvPc → Option ℕ
  | .dispatch numOfBytes => some numOfBytes
  | .processRecv numOfBytes => some numOfBytes
  | .check numOfBytes => some numOfBytes
  | .onRecvPacket numOfBytes => some numOfBytes
  | _ => none

/-- The buffer has its size, and no completion tells of more bytes. -/
structure RecvBounded (s : RecvShared) : Prop where
  buffer : s.recvBuf.length = udpMaxPacket
  completions : ∀ c ∈ s.completions, c.numOfBytes ≤ udpMaxPacket

/-- The buffer keeps its size. -/
theorem length_writeRecvBuf {recvBuf : Bytes} (h : recvBuf.length = udpMaxPacket) (datagram : Bytes) :
    (writeRecvBuf recvBuf datagram).length = udpMaxPacket := by
  unfold writeRecvBuf
  rw [List.length_append, List.length_take, List.length_drop]
  omega

/-- A completion brings no more than the buffer holds. -/
theorem RecvBounded.complete {s : RecvShared} (h : RecvBounded s) (datagram : Bytes)
    (sender : SockAddrIn) : RecvBounded (s.complete datagram sender) where
  buffer := length_writeRecvBuf h.buffer datagram
  completions c hc := by
    rcases List.mem_append.mp hc with hc | hc
    · exact h.completions c hc
    · cases List.mem_singleton.mp hc
      exact min_le_right _ _

/-- The receive loop keeps the bounds. -/
theorem RecvBounded.choose {s s' : RecvShared} {p p' : RecvPc} {k : RecvChoice} (h : RecvBounded s)
    (hlen : ∀ n ∈ lenAt p, n ≤ udpMaxPacket) (hchoose : recvChoose s p k = some (s', p'))
    (hbytes : ∀ errCode numOfBytes, k = .fails errCode numOfBytes → numOfBytes ≤ udpMaxPacket) :
    RecvBounded s' ∧ ∀ n ∈ lenAt p', n ≤ udpMaxPacket := by
  cases k with
  | arrives datagram sender =>
      obtain ⟨-, hchoose⟩ := Option.ite_none_left_eq_some.mp hchoose
      cases hchoose
      have hleft : RecvBounded { s with outstanding := s.outstanding - 1 } :=
        ⟨h.buffer, h.completions⟩
      exact ⟨hleft.complete datagram sender, hlen⟩
  | fails errCode numOfBytes =>
      obtain ⟨-, hchoose⟩ := Option.ite_none_left_eq_some.mp hchoose
      cases hchoose
      refine ⟨⟨h.buffer, fun c hc => ?_⟩, hlen⟩
      rcases List.mem_append.mp hc with hc | hc
      · exact h.completions c hc
      · cases List.mem_singleton.mp hc
        exact hbytes errCode numOfBytes rfl
  | dequeue =>
      obtain ⟨-, hdequeue⟩ := Option.ite_none_right_eq_some.mp hchoose
      unfold dequeueStep at hdequeue
      split at hdequeue
      · cases hdequeue
      · rename_i hcompletions
        cases hdequeue
        have hall := h.completions
        rw [hcompletions, List.forall_mem_cons] at hall
        refine ⟨⟨h.buffer, hall.2⟩, fun n hn => ?_⟩
        split_ifs at hn
        · cases hn
        · cases hn
          exact hall.1
  | timeout =>
      obtain ⟨-, hchoose⟩ := Option.ite_none_right_eq_some.mp hchoose
      cases hchoose
      exact ⟨h, hlen⟩
  | work =>
      obtain ⟨-, hchoose⟩ := Option.ite_none_right_eq_some.mp hchoose
      cases hchoose
      exact ⟨h, hlen⟩
  | next r =>
      cases p with
      | outside => cases hchoose
      | dispatch numOfBytes =>
          rw [recvChoose, recvNext] at hchoose
          split at hchoose
          · cases hchoose
            exact ⟨h, hlen⟩
          · cases hchoose
            exact ⟨⟨h.buffer, h.completions⟩, hlen⟩
      | processRecv numOfBytes =>
          cases hchoose
          exact ⟨⟨h.buffer, h.completions⟩, hlen⟩
      | check numOfBytes =>
          cases hchoose
          refine ⟨h, ?_⟩
          split
          · exact hlen
          · exact fun n hn => absurd hn (Option.not_mem_none n)
      | onRecvPacket numOfBytes =>
          cases hchoose
          exact ⟨h, fun n hn => absurd hn (Option.not_mem_none n)⟩
      | registerRecv =>
          cases hchoose
          exact ⟨⟨h.buffer, h.completions⟩, fun n hn => absurd hn (Option.not_mem_none n)⟩
      | wsaRecvFrom =>
          cases r with
          | received datagram sender =>
              cases hchoose
              exact ⟨h.complete datagram sender, fun n hn => absurd hn (Option.not_mem_none n)⟩
          | failed errorCode =>
              simp only [recvChoose, recvNext] at hchoose
              split at hchoose
              · cases hchoose
                exact ⟨⟨h.buffer, h.completions⟩, fun n hn => absurd hn (Option.not_mem_none n)⟩
              · cases hchoose
                exact ⟨h, fun n hn => absurd hn (Option.not_mem_none n)⟩
      | clearOwner =>
          cases hchoose
          exact ⟨⟨h.buffer, h.completions⟩, fun n hn => absurd hn (Option.not_mem_none n)⟩

section invariant

variable {τ : Type}

/-- The threads in the receive loop. -/
def recvView (s : Processes τ (ServerShared ρ) ThreadPc) : Processes τ RecvShared RecvPc :=
  ⟨s.shared.recv, fun t => (s.pc t).recv⟩

/-- The receive token is in one place, no length exceeds the buffer, and `main` is the main thread. -/
structure PoolInv (main : τ) (s : Processes τ (ServerShared ρ) ThreadPc) : Prop where
  token : RecvInv (recvView s)
  bounded : RecvBounded s.shared.recv
  lens : ∀ t, ∀ n ∈ lenAt (s.pc t).recv, n ≤ udpMaxPacket
  mains : ∀ t, (s.pc t).isMain = true ↔ t = main

variable [DecidableEq τ] {main t : τ} {s : Processes τ (ServerShared ρ) ThreadPc}
  {s' : ServerShared ρ} {p' : ThreadPc} {o : ThreadShown}

/-- The view of the receives follows a step. -/
theorem recvView_update :
    recvView ⟨s', Function.update s.pc t p'⟩ =
      ⟨s'.recv, Function.update (recvView s).pc t p'.recv⟩ := by
  unfold recvView
  congr 1
  funext u
  exact Function.apply_update (fun _ => ThreadPc.recv) s.pc t p' u

/-- The invariant of the pool holds at the start. -/
theorem poolInv_init (main : τ) (redis : RedisClient ρ) (clock : ℤ) :
    PoolInv main (serverInit main redis clock) where
  token := by
    have hview : recvView (serverInit main redis clock) = recvInit main := by
      unfold recvView recvInit serverInit
      congr 1
      funext u
      exact Function.apply_update (fun _ => ThreadPc.recv) (fun _ => .worker .outside) main
        (.starting .registerRecv) u
    rw [hview]
    exact recvInv_init main
  bounded := ⟨List.length_replicate, fun _ hc => absurd hc List.not_mem_nil⟩
  lens u n hn := by
    simp only [serverInit] at hn
    by_cases hu : u = main
    · rw [hu, Function.update_self] at hn
      cases hn
    · rw [Function.update_of_ne hu] at hn
      cases hn
  mains u := by
    simp only [serverInit]
    by_cases hu : u = main
    · rw [hu, Function.update_self]
      exact iff_of_true rfl rfl
    · rw [Function.update_of_ne hu]
      exact iff_of_false Bool.false_ne_true hu

/-- **The step lemma.** -/
theorem PoolInv.update (h : PoolInv main s) (hcase : ServerCase B s.shared (s.pc t) (s', p', o)) :
    PoolInv main ⟨s', Function.update s.pc t p'⟩ := by
  have hbounded : RecvBounded s'.recv ∧ ∀ n ∈ lenAt p'.recv, n ≤ udpMaxPacket := by
    rcases hcase.frame with ⟨k, hchoose, hbytes⟩ | ⟨hrecv, hpc | ⟨-, hpc⟩⟩
    · exact h.bounded.choose (h.lens t) hchoose hbytes
    · dsimp only at hrecv hpc
      rw [hrecv, hpc]
      exact ⟨h.bounded, h.lens t⟩
    · dsimp only at hrecv hpc
      rw [hrecv, hpc]
      exact ⟨h.bounded, fun n hn => nomatch hn⟩
  constructor
  · rw [recvView_update]
    exact h.token.update (hcase.recvStep h.token.shared.crashed)
  · exact hbounded.1
  · rw [Function.forall_update_iff s.pc fun _ q => ∀ n ∈ lenAt q.recv, n ≤ udpMaxPacket]
    exact ⟨hbounded.2, fun u _ => h.lens u⟩
  · rw [Function.forall_update_iff s.pc fun u q => q.isMain = true ↔ u = main]
    exact ⟨hcase.isMain_eq ▸ h.mains t, fun u _ => h.mains u⟩

end invariant

/-! ## One step of a thread in `OnRecvPacket` -/

/-- What the outside sees of the server, and the datagrams that it is given. -/
inductive Observation
  /-- `OnRecvPacket` is called. -/
  | handling (sender : SockAddrIn) (bytes : Bytes)
  /-- A datagram is accepted on a context. -/
  | accepted (r : UdpClientContextRef)
  /-- A context is removed. -/
  | removed (r : UdpClientContextRef)
  /-- A datagram is handed to the socket. -/
  | sent (destAddr : SockAddrIn) (packet : ServerPacket)

/-- What is seen of a step that calls `OnRecvPacket` with `handling` and shows `o`. -/
def observations (handling : Option (SockAddrIn × Bytes)) (o : Shown) : List Observation :=
  (handling.toList.map fun x => .handling x.1 x.2) ++ o.accepted.toList.map .accepted ++
    o.removed.toList.map .removed ++ o.sent.map fun x => .sent x.1 x.2

/-- What the receiving thread is about to call `OnRecvPacket` with. -/
def Receiver.handling : Receiver → Option (SockAddrIn × Bytes)
  | received d => some (d.senderAddr, d.data)
  | _ => none

/-- What is seen of a step of the two threads. -/
def threadsObservations (t : Entry (Threads ρ) Action Shown) : List Observation :=
  match t.input with
  | .receiver => observations t.before.receiver.handling t.output
  | _ => observations none t.output

/-- What is seen of a step of all threads. -/
def serverObservations {τ : Type}
    (t : Entry (Processes τ (ServerShared ρ) ThreadPc) (τ × ThreadChoice) (Option ThreadShown)) :
    List Observation :=
  match t.output with
  | none => []
  | some o => observations o.handling o.shown

/-- `d` is in the buffer: the sender, and the first `len` bytes. -/
structure InBuffer (recv : RecvShared) (len : ℕ) (d : Datagram) : Prop where
  sender : d.senderAddr = recv.recvFromAddr
  data : d.data = recv.recvBuf.take len
  length : d.data.length = len

/-- The thread at `p` does what the receiving thread does. -/
inductive Serves (recv : RecvShared) : ThreadPc → Receiver → Prop
  | found {len : ℕ} {r : UdpClientContextRef} {d : Datagram} (hd : InBuffer recv len d)
      (hlen : udpPacketHeaderSize ≤ len) : Serves recv (.found len r) (.found d r)
  | accepted {len : ℕ} {r : UdpClientContextRef} {d : Datagram} (hd : InBuffer recv len d)
      (hlen : udpPacketHeaderSize ≤ len) : Serves recv (.accepted len r) (.accepted d r)
  | sending {len : ℕ} {requests : List SendRequest} {fault : Option Fault} :
      Serves recv (.sending len requests fault) (.sending requests fault)

/-- A step to `next` is the step `a` of the receiving thread, seen next to the main thread at `m`. -/
def Follows (handling : Option (SockAddrIn × Bytes)) (m : MainThread)
    (next : ServerShared ρ × ThreadPc × ThreadShown) (a : Threads ρ × Shown) : Prop :=
  ∃ receiver, a = (next.1.threads receiver m, next.2.2.shown) ∧ next.2.2.handling = handling ∧
    (next.1.fault = none →
      receiver = .idle ∧ next.2.1.inHandler = false ∨ Serves next.1.recv next.2.1 receiver)

section body

variable {s : ServerShared ρ} {len : ℕ} {d : Datagram} {r : UdpClientContextRef} {m : MainThread}

/-- The buffer holds the datagram and what earlier ones left behind it. -/
theorem InBuffer.recvBuf_eq {recv : RecvShared} (h : InBuffer recv len d) :
    recv.recvBuf = d.data ++ recv.recvBuf.drop len := by
  rw [h.data, List.take_append_drop]

/-- The header in the buffer is that of the datagram. -/
theorem InBuffer.header_eq (h : InBuffer s.recv len d) (hlen : udpPacketHeaderSize ≤ len) :
    s.header = d.header := by
  unfold ServerShared.header
  rw [h.recvBuf_eq]
  exact UdpPacketHeader.read_append_left (h.length.symm ▸ hlen) _

/-- The handler does not see what is behind the datagram. -/
theorem InBuffer.handlePacket_eq (h : InBuffer s.recv len d) (hlen : udpPacketHeaderSize ≤ len)
    (ctx : UdpClientContext) (rc : RedisClient ρ) (now : ℤ) :
    handlePacket B ctx rc s.recv.recvBuf len now =
      handlePacket B ctx rc d.data d.data.length now := by
  rw [h.recvBuf_eq]
  have hlength := h.length
  subst hlength
  exact handlePacket_append hlen d.length_data_lt _

/-- The lookup. -/
theorem follows_lookupStep (h : InBuffer s.recv len d) :
    Follows (some (d.senderAddr, d.data)) m (s.lookupStep len)
      ((s.threads (.received d) m).receiverStep B) := by
  unfold ServerShared.lookupStep Threads.receiverStep
  simp only [ServerShared.threads, h.length, ← h.sender, ← h.data]
  by_cases hlen : len < udpPacketHeaderSize
  · rw [if_pos hlen, if_pos hlen]
    exact ⟨.idle, rfl, rfl, fun _ => .inl ⟨rfl, rfl⟩⟩
  rw [if_neg hlen, if_neg hlen]
  have hlen := not_lt.mp hlen
  rw [h.header_eq hlen]
  by_cases hid : d.header.sessionId = 0
  · simp only [lookup, if_pos hid]
    exact ⟨.found d _, rfl, rfl, fun _ => .inr (.found h hlen)⟩
  · simp only [lookup, if_neg hid]
    rcases s.service.findByAddr d.senderAddr with _ | r
    · exact ⟨.idle, rfl, rfl, fun _ => .inl ⟨rfl, rfl⟩⟩
    · exact ⟨.found d r, rfl, rfl, fun _ => .inr (.found h hlen)⟩

/-- The sequence filter. -/
theorem follows_filterStep (h : InBuffer s.recv len d) (hlen : udpPacketHeaderSize ≤ len) :
    Follows none m (s.filterStep len r) ((s.threads (.found d r) m).receiverStep B) := by
  unfold ServerShared.filterStep Threads.receiverStep
  simp only [ServerShared.threads]
  rw [h.header_eq hlen]
  by_cases hid : d.header.sessionId = 0
  · have haccept : accept s.service r d s.clock = some s.service := if_pos hid
    simp only [if_pos hid, haccept]
    exact ⟨.accepted d r, rfl, rfl, fun _ => .inr (.accepted h hlen)⟩
  simp only [if_neg hid]
  by_cases hdup : d.header.sequence ≠ 0 ∧ d.header.sequence ≤ (s.service.heap r).lastSeq
  · have haccept : accept s.service r d s.clock = none := (if_neg hid).trans (if_pos hdup)
    rw [haccept, if_pos hdup]
    exact ⟨.idle, rfl, rfl, fun _ => .inl ⟨rfl, rfl⟩⟩
  · have haccept : accept s.service r d s.clock =
        some (s.service.modifyCtx r fun ctx => { ctx with
          lastSeq := d.header.sequence
          lastAliveMs := s.clock }) := (if_neg hid).trans (if_neg hdup)
    rw [haccept, if_neg hdup]
    exact ⟨.accepted d r, rfl, rfl, fun _ => .inr (.accepted h hlen)⟩

/-- The handler. -/
theorem follows_handleStep (h : InBuffer s.recv len d) (hlen : udpPacketHeaderSize ≤ len) :
    Follows none m (s.handleStep B len r) ((s.threads (.accepted d r) m).receiverStep B) := by
  unfold ServerShared.handleStep Threads.receiverStep
  simp only [ServerShared.threads, dispatch, h.handlePacket_eq hlen]
  exact ⟨.sending _ _, rfl, rfl, fun _ => .inr .sending⟩

/-- The sends and the end of the handler. -/
theorem follows_sendStep (requests : List SendRequest) (fault : Option Fault)
    (hfault : s.fault = none) :
    Follows none m (s.sendStep len requests fault)
      ((s.threads (.sending requests fault) m).receiverStep B) := by
  unfold ServerShared.sendStep Threads.receiverStep
  simp only [ServerShared.threads]
  rcases requests with _ | ⟨q, requests⟩
  · dsimp only
    rcases fault with _ | fault
    · refine ⟨.idle, ?_, rfl, fun _ => .inl ⟨rfl, rfl⟩⟩
      simp only [ServerShared.threads, Option.isSome_none, Bool.false_eq_true, if_false, hfault]
    · exact ⟨.idle, rfl, rfl, fun hnone => nomatch hnone⟩
  · exact ⟨.sending requests fault, rfl, rfl, fun _ => .inr .sending⟩

end body

/-! ## The simulation -/

section simulation

variable {τ : Type}

/-- The threads in `OnRecvPacket` are where the receiving thread is. -/
def Receives (s : Processes τ (ServerShared ρ) ThreadPc) (receiver : Receiver) : Prop :=
  (receiver = .idle ∧ ∀ t, (s.pc t).inHandler = false) ∨ ∃ t, Serves s.shared.recv (s.pc t) receiver

/-- The two threads do what all threads do. -/
structure Simulates (main : τ) (s : Processes τ (ServerShared ρ) ThreadPc) (a : Threads ρ) : Prop where
  inv : PoolInv main s
  same : ∃ receiver, a = s.shared.threads receiver (s.pc main).mainThread ∧
    (s.shared.fault = none → Receives s receiver)

/-- A thread that serves a datagram is in the handler. -/
theorem Serves.inHandler {recv : RecvShared} {p : ThreadPc} {receiver : Receiver}
    (h : Serves recv p receiver) : p.inHandler = true := by
  cases h <;> rfl

/-- A thread goes on with its datagram while the buffer holds it. -/
theorem Serves.frame {recv recv' : RecvShared} {p : ThreadPc} {receiver : Receiver}
    (h : Serves recv p receiver) (hsame : SameDatagram recv recv') : Serves recv' p receiver := by
  obtain ⟨hbuf, hfrom⟩ := hsame
  have hkeep : ∀ {len : ℕ} {d : Datagram}, InBuffer recv len d → InBuffer recv' len d := fun hd =>
    ⟨hd.sender.trans hfrom.symm, hd.data.trans (by rw [hbuf]), hd.length⟩
  cases h with
  | found hd hlen => exact .found (hkeep hd) hlen
  | accepted hd hlen => exact .accepted (hkeep hd) hlen
  | sending => exact .sending

/-- A thread in the handler has the right to the buffer. -/
theorem hasToken_of_inHandler {p : ThreadPc} (h : p.inHandler = true) : HasToken p.recv := by
  cases p with
  | found len r => exact nofun
  | accepted len r => exact nofun
  | sending len requests fault => exact nofun
  | _ => cases h

variable [DecidableEq τ] {main t : τ} {s : Processes τ (ServerShared ρ) ThreadPc} {a : Threads ρ}
  {receiver : Receiver} {next : ServerShared ρ × ThreadPc × ThreadShown}

omit [DecidableEq τ] in
/-- A thread that handles a datagram is the only one. -/
theorem PoolInv.eq_of_inHandler (h : PoolInv main s) (ht : HasToken (s.pc t).recv) {u : τ}
    (hu : (s.pc u).inHandler = true) : u = t := by
  by_contra hne
  exact h.token.pairs u t hne ⟨hasToken_of_inHandler hu, ht⟩

omit [DecidableEq τ] in
/-- What a thread in the receive loop carries is the length of what is in the buffer. -/
theorem PoolInv.exists_inBuffer (h : PoolInv main s) {len : ℕ}
    (hlen : (s.pc t).recv = .onRecvPacket len) : ∃ d : Datagram, InBuffer s.shared.recv len d := by
  have hle : len ≤ udpMaxPacket := by
    apply h.lens t
    rw [hlen]
    exact rfl
  have hlength : (s.shared.recv.recvBuf.take len).length = len := by
    rw [List.length_take, h.bounded.buffer, Nat.min_eq_left hle]
  exact ⟨⟨s.shared.recv.recvFromAddr, s.shared.recv.recvBuf.take len, hlength.trans_le hle⟩, rfl, rfl,
    hlength⟩

/-- A step of a thread outside the handler leaves the receiving thread where it is. -/
theorem Receives.frame (hreceives : Receives s receiver) (h : PoolInv main s)
    (hcase : ServerCase B s.shared (s.pc t) next) (hp : (s.pc t).inHandler = false)
    (hp' : next.2.1.inHandler = false) :
    Receives ⟨next.1, Function.update s.pc t next.2.1⟩ receiver := by
  rcases hreceives with ⟨hidle, hnone⟩ | ⟨u, hu⟩
  · left
    refine ⟨hidle, ?_⟩
    rw [Function.forall_update_iff s.pc fun _ q => q.inHandler = false]
    exact ⟨hp', fun v _ => hnone v⟩
  · right
    have hne : u ≠ t := by
      rintro rfl
      rw [hu.inHandler] at hp
      cases hp
    refine ⟨u, ?_⟩
    dsimp only
    rw [Function.update_of_ne hne]
    refine hu.frame ?_
    have hrecv : RecvStep s.shared.recv (s.pc t).recv next.1.recv next.2.1.recv :=
      hcase.recvStep h.token.shared.crashed
    exact h.token.sameDatagram hrecv (hasToken_of_inHandler hu.inHandler) hne

/-- A step of the thread in `OnRecvPacket`. -/
theorem Simulates.follow (h : PoolInv main s) (hcase : ServerCase B s.shared (s.pc t) next)
    (ht : HasToken (s.pc t).recv) (htmain : (s.pc t).isMain = false)
    {handling : Option (SockAddrIn × Bytes)} {a : Threads ρ × Shown}
    (hfollows : Follows handling (s.pc main).mainThread next a) :
    Simulates main ⟨next.1, Function.update s.pc t next.2.1⟩ a.1 ∧
      next.2.2.handling = handling ∧ a.2 = next.2.2.shown := by
  obtain ⟨receiver, rfl, hhandling, hreceives⟩ := hfollows
  have hmain : main ≠ t := by
    rintro rfl
    rw [(h.mains main).mpr rfl] at htmain
    cases htmain
  refine ⟨⟨h.update hcase, receiver, ?_, fun hfault => ?_⟩, hhandling, rfl⟩
  · dsimp only
    rw [Function.update_of_ne hmain]
  · rcases hreceives hfault with ⟨hidle, hp'⟩ | hserves
    · left
      refine ⟨hidle, ?_⟩
      rw [Function.forall_update_iff s.pc fun _ q => q.inHandler = false]
      refine ⟨hp', fun u hu => ?_⟩
      by_contra hin
      exact hu (h.eq_of_inHandler ht (Bool.eq_true_of_not_eq_false hin))
    · right
      refine ⟨t, ?_⟩
      dsimp only
      rw [Function.update_self]
      exact hserves

omit [DecidableEq τ] in
/-- A thread in the handler is where the receiving thread is. -/
theorem Receives.serves (hreceives : Receives s receiver) (h : PoolInv main s)
    (ht : (s.pc t).inHandler = true) : Serves s.shared.recv (s.pc t) receiver := by
  rcases hreceives with ⟨-, hnone⟩ | ⟨u, hu⟩
  · rw [hnone t] at ht
    cases ht
  · rwa [h.eq_of_inHandler (hasToken_of_inHandler ht) hu.inHandler] at hu

omit [DecidableEq τ] in
/-- While a thread is on the way to the handler, the receiving thread is idle. -/
theorem Receives.idle (hreceives : Receives s receiver) (h : PoolInv main s)
    (ht : HasToken (s.pc t).recv) (hin : (s.pc t).inHandler = false) : receiver = .idle := by
  rcases hreceives with ⟨hidle, -⟩ | ⟨u, hu⟩
  · exact hidle
  · rw [← h.eq_of_inHandler ht hu.inHandler, hu.inHandler] at hin
    cases hin

/-- The step of the main thread does not depend on the receiving thread. -/
theorem mainStep_threads (s : ServerShared ρ) (receiver : Receiver) (m : MainThread) :
    (s.threads receiver m).mainStep =
      (({ s with service := ((s.threads .idle m).mainStep).1.service } : ServerShared ρ).threads receiver
        ((s.threads .idle m).mainStep).1.main, ((s.threads .idle m).mainStep).2) := by
  rcases m with _ | now | ⟨_ | ⟨id, todo⟩, expired⟩ | ⟨_ | ⟨id, todo⟩⟩ <;> rfl

omit [DecidableEq τ] in
/-- One step of the two threads that shows what is asked for. -/
theorem exists_single {s' : Processes τ (ServerShared ρ) ThreadPc} {a' : Threads ρ} {x : Action}
    {o : Shown} {shows : List Observation} (hstep : a.step B x = (a', o)) (h : Simulates main s' a')
    (hshows : threadsObservations ⟨a, x, a', o⟩ = shows) :
    ∃ actions, Simulates main s' ((threads B).exec a actions) ∧
      ((threads B).trace a actions).flatMap threadsObservations = shows := by
  have hafter : ((threads B).step a x).1 = a' := congrArg Prod.fst hstep
  have hout : ((threads B).step a x).2 = o := congrArg Prod.snd hstep
  refine ⟨[x], ?_, ?_⟩
  · rw [Transducer.exec_cons, hafter]
    exact h
  · rw [Transducer.trace_cons, Transducer.trace_nil, List.flatMap_singleton, Transducer.entry, hafter,
      hout]
    exact hshows

/-- **The step lemma.** Every step of a thread is matched by steps of the two threads that show the
same. -/
theorem Simulates.step (h : Simulates main s a) (e : τ × ThreadChoice) :
    ∃ actions, Simulates main ((serverThreads B τ).step s e).1 ((threads B).exec a actions) ∧
      ((threads B).trace a actions).flatMap threadsObservations =
        serverObservations ((serverThreads B τ).entry s e) := by
  obtain ⟨t, k⟩ := e
  rcases hact : serverAct B t s.shared (s.pc t) k with _ | next
  · have hstep : (serverThreads B τ).step s (t, k) = (s, none) := interleave_step_of_none hact
    refine ⟨[], ?_, ?_⟩
    · rw [hstep]
      exact h
    · simp only [Transducer.entry, serverObservations, hstep]
      rfl
  obtain ⟨hfault, hcase⟩ := serverCase hact
  have hstep : (serverThreads B τ).step s (t, k) =
      (⟨next.1, Function.update s.pc t next.2.1⟩, some next.2.2) := interleave_step_of_some hact
  simp only [Transducer.entry, serverObservations, hstep]
  obtain ⟨hinv, receiver, rfl, hreceives⟩ := h
  have hreceives := hreceives hfault
  -- a thread in `OnRecvPacket` takes the step of the receiving thread
  have hbody : ∀ {receiver : Receiver} {handling : Option (SockAddrIn × Bytes)},
      HasToken (s.pc t).recv → (s.pc t).isMain = false → receiver.handling = handling →
      Follows handling (s.pc main).mainThread next
        ((s.shared.threads receiver (s.pc main).mainThread).receiverStep B) →
      ∃ actions, Simulates main ⟨next.1, Function.update s.pc t next.2.1⟩
          ((threads B).exec (s.shared.threads receiver (s.pc main).mainThread) actions) ∧
        ((threads B).trace (s.shared.threads receiver (s.pc main).mainThread) actions).flatMap
          threadsObservations = observations next.2.2.handling next.2.2.shown := by
    intro receiver handling htoken hmain hhandling hfollows
    obtain ⟨hsim, hsame, hshown⟩ := Simulates.follow hinv hcase htoken hmain hfollows
    refine exists_single (x := .receiver) (step_receiver hfault) hsim ?_
    rw [hsame, ← hshown, ← hhandling]
    rfl
  cases hcase with
  | elapsed ms =>
      have helapse : (s.shared.threads receiver (s.pc main).mainThread).step B (.elapse ms) =
          (({ s.shared with clock := s.shared.clock + ms } : ServerShared ρ).threads receiver
            (s.pc main).mainThread, {}) := by
        unfold Threads.step
        rw [if_neg (by rw [ServerShared.threads, hfault]; exact Bool.false_ne_true)]
        rfl
      have hcase : ServerCase B s.shared (s.pc t)
        ({ s.shared with clock := s.shared.clock + ms }, s.pc t, {}) := .elapsed ms
      refine exists_single helapse ⟨hinv.update hcase, receiver, ?_, fun _ => ?_⟩ rfl
      · simp only [Function.update_eq_self]
      · simp only [Function.update_eq_self]
        exact hreceives
  | received k recv p' hchoose hmoves hbytes =>
      have hcase := ServerCase.received (B := B) k recv p' hchoose hmoves hbytes
      obtain ⟨hbusy, hhandler, -, hloop⟩ := hmoves.frame
      have hp : (s.pc t).inHandler = false := by
        by_contra hin
        have hin := Bool.eq_true_of_not_eq_false hin
        exact (hbusy hin).ne' ((hinv.token.each t).idle (hasToken_of_inHandler hin)).1
      refine ⟨[], ⟨hinv.update hcase, receiver, ?_, fun _ => ?_⟩, rfl⟩
      · dsimp only
        by_cases heq : main = t
        · subst heq
          rw [Function.update_self, hloop]
          rfl
        · rw [Function.update_of_ne heq]
          rfl
      · exact hreceives.frame hinv hcase hp (hhandler.trans hp)
  | looked len hp =>
      have htoken : HasToken (s.pc t).recv := by
        rw [hp]
        exact nofun
      obtain rfl := hreceives.idle hinv htoken (by rw [hp]; rfl)
      obtain ⟨d, hd⟩ := hinv.exists_inBuffer (congrArg ThreadPc.recv hp)
      obtain ⟨actions, hsim, hshows⟩ :=
        hbody htoken (by rw [hp]; rfl) rfl (follows_lookupStep hd)
      have harrive : (threads B).step (s.shared.threads .idle (s.pc main).mainThread) (.arrive d) =
          (s.shared.threads (.received d) (s.pc main).mainThread, {}) := by
        unfold threads Threads.step
        dsimp only
        rw [if_neg (by rw [ServerShared.threads, hfault]; exact Bool.false_ne_true)]
        rfl
      refine ⟨.arrive d :: actions, ?_, ?_⟩
      · rw [Transducer.exec_cons, harrive]
        exact hsim
      · rw [Transducer.trace_cons, List.flatMap_cons, Transducer.entry, harrive]
        exact hshows
  | filtered len r hp =>
      have hserves := hreceives.serves hinv (t := t) (by rw [hp]; rfl)
      rw [hp] at hserves
      cases hserves with
      | found hd hlen =>
          exact hbody (by rw [hp]; exact nofun) (by rw [hp]; rfl) rfl (follows_filterStep hd hlen)
  | handled len r hp =>
      have hserves := hreceives.serves hinv (t := t) (by rw [hp]; rfl)
      rw [hp] at hserves
      cases hserves with
      | accepted hd hlen =>
          exact hbody (by rw [hp]; exact nofun) (by rw [hp]; rfl) rfl (follows_handleStep hd hlen)
  | sent len requests fault hp =>
      have hserves := hreceives.serves hinv (t := t) (by rw [hp]; rfl)
      rw [hp] at hserves
      cases hserves with
      | sending =>
          exact hbody (by rw [hp]; exact nofun) (by rw [hp]; rfl) rfl
            (follows_sendStep requests fault hfault)
  | looped m hp =>
      have hmain : t = main := by
        apply (hinv.mains t).mp
        rw [hp]
        rfl
      subst hmain
      have hcase : ServerCase B s.shared (s.pc t) (s.shared.loopStep m) := .looped m hp
      have hm : (s.pc t).mainThread = m := by
        rw [hp]
        rfl
      rw [hm]
      refine exists_single (x := .main) ((step_main hfault).trans (mainStep_threads _ _ _))
        ⟨hinv.update hcase, receiver, ?_, fun _ => ?_⟩ rfl
      · dsimp only
        rw [Function.update_self]
        rfl
      · exact hreceives.frame hinv hcase (by rw [hp]; rfl) rfl

/-- Every run of the threads is matched by a run of the two threads that shows the same. -/
theorem exists_simulates (B : Backend ρ) (main : τ) (redis : RedisClient ρ) (clock : ℤ)
    (events : List (τ × ThreadChoice)) :
    ∃ actions, Simulates main ((serverThreads B τ).exec (serverInit main redis clock) events)
        ((threads B).exec (.init redis clock) actions) ∧
      ((threads B).trace (.init redis clock) actions).flatMap threadsObservations =
        ((serverThreads B τ).trace (serverInit main redis clock) events).flatMap
          serverObservations := by
  have hinit : Simulates main (serverInit main redis clock) (.init redis clock) := by
    refine ⟨poolInv_init main redis clock, .idle, ?_, fun _ => .inl ⟨rfl, fun t => ?_⟩⟩
    · simp only [serverInit, Function.update_self]
      rfl
    · simp only [serverInit]
      by_cases ht : t = main
      · rw [ht, Function.update_self]
        rfl
      · rw [Function.update_of_ne ht]
        rfl
  exact Transducer.trace_simulation serverObservations threadsObservations
    (fun _ _ e h => h.step (B := B) e) hinit events

/-- **The worker threads refine the receiving thread.** Whatever threads run `IocpCore::Dispatch`, and
however they and the main thread are interleaved, there is a run of one receiving thread and the main
thread that ends with the same registry, store, clock and exception, at the same position of the main
thread, and in which the same datagrams are handled, the same contexts accepted and removed and the same
datagrams sent, in the same order. No two threads are in a handler at the same time, no receive is
outstanding or completed while a thread is in one, and no thread meets an event without an owner. -/
theorem workers_refine (B : Backend ρ) (main : τ) (redis : RedisClient ρ) (clock : ℤ)
    (events : List (τ × ThreadChoice)) :
    let s := (serverThreads B τ).exec (serverInit main redis clock) events
    ∃ actions : List Action, ∃ receiver : Receiver,
      (threads B).exec (.init redis clock) actions =
          s.shared.threads receiver (s.pc main).mainThread ∧
        ((threads B).trace (.init redis clock) actions).flatMap threadsObservations =
          ((serverThreads B τ).trace (serverInit main redis clock) events).flatMap
            serverObservations ∧
        (∀ t u, (s.pc t).inHandler = true → (s.pc u).inHandler = true → t = u) ∧
        (∀ t, (s.pc t).inHandler = true →
          s.shared.recv.outstanding = 0 ∧ s.shared.recv.completions = []) ∧
        s.shared.recv.crashed = false := by
  intro s
  obtain ⟨actions, hsim, hshows⟩ := exists_simulates B main redis clock events
  obtain ⟨receiver, hsame, -⟩ := hsim.same
  exact ⟨actions, receiver, hsame, hshows,
    fun t u ht hu => hsim.inv.eq_of_inHandler (hasToken_of_inHandler hu) ht,
    fun t ht => (hsim.inv.token.each t).idle (hasToken_of_inHandler ht),
    hsim.inv.token.shared.crashed⟩

end simulation

/-! ## Two threads -/

/-- The thread `true` is the main thread, and registers the first receive. -/
def startUp : List (Bool × ThreadChoice) := List.replicate 2 (true, .next (.failed wsaIoPending))

/-- The kernel delivers a datagram, and the thread `false` takes it from the port and handles it. -/
def serveBy (d : Datagram) : List (Bool × ThreadChoice) :=
  (false, .arrives d.data d.senderAddr) :: (false, .dequeue) ::
    List.replicate 12 (false, .next (.failed wsaIoPending))

end CowboyPoker.GameServer
