import CowboyPoker.Found.Transducer
import CowboyPoker.ServerCore.Registry
import CowboyPoker.GameServer.UdpServerPacketHandler

/-!
# `UdpGameSession` and the server as a machine

* `lookup`, `accept`, `dispatch` — the three stages of `OnRecvPacket`: the context of the sender,
  the sequence filter, the handler. Other threads can act between them; `onRecvPacket` is their
  composition without interruption.
* `Arrives` — a datagram that passes both the lookup and the filter, with the registry that the
  handler then sees. `onRecvPacket_cases` says that a datagram either arrives and is dispatched, or
  changes nothing.
* `server` — the server as a `Transducer`. Its inputs are the operations of the registry, the
  datagrams and the iterations of the main loop, each handled to completion. An exception that leaves
  a handler ends the process, which then ignores every input.
-/

namespace CowboyPoker.GameServer

open CowboyPoker.Found
open CowboyPoker.ServerCore

/-- What one receive completion delivers. The receive buffer has `UDP_MAX_PACKET` bytes.
Source: `ServerCore/UdpSession.cpp`, `UdpSession::RegisterRecv` -/
structure Datagram where
  /-- `_recvFromAddr`. -/
  senderAddr : SockAddrIn
  /-- The received bytes of `_recvBuf`. -/
  data : Bytes
  /-- No datagram is longer than the buffer. -/
  length_le : data.length ≤ udpMaxPacket

/-- The header of a datagram. -/
def Datagram.header (d : Datagram) : UdpPacketHeader := UdpPacketHeader.read d.data

/-- A header and a payload of at most `UDP_MAX_PAYLOAD` bytes fit. -/
theorem length_encode_append_le (header : UdpPacketHeader) {payload : Bytes}
    (h : payload.length ≤ udpMaxPayload) : (header.encode ++ payload).length ≤ udpMaxPacket := by
  rw [List.length_append, UdpPacketHeader.length_encode, udpMaxPacket]
  omega

/-- The datagram with a given header and payload. -/
def Datagram.ofPayload (senderAddr : SockAddrIn) (header : UdpPacketHeader) (payload : Bytes)
    (h : payload.length ≤ udpMaxPayload) : Datagram where
  senderAddr
  data := header.encode ++ payload
  length_le := length_encode_append_le header h

@[simp] theorem Datagram.header_ofPayload {senderAddr : SockAddrIn} {header : UdpPacketHeader}
    {payload : Bytes} (h : payload.length ≤ udpMaxPayload) :
    (ofPayload senderAddr header payload h).header = header :=
  UdpPacketHeader.read_encode_append header payload

/-- The handshake of a client: no session id, and the user in the payload. -/
def Datagram.hello (senderAddr : SockAddrIn) (userId : Bytes) (h : userId.length ≤ 1198) : Datagram :=
  .ofPayload senderAddr ⟨0, 0, PacketType.cUdpHello.value⟩
    (Pod.encode (UInt16.ofNat userId.length) ++ userId) (by
      rw [List.length_append, Pod.length_encode, Pod.size_uint16, udpMaxPayload]
      omega)

/-- The handshake of a user whose id is one letter. -/
def Datagram.helloOf (senderAddr : SockAddrIn) (letter : UInt8) : Datagram :=
  .hello senderAddr [letter] (by rw [List.length_singleton]; decide)

/-- A move to the origin. -/
def Datagram.moveToOrigin (senderAddr : SockAddrIn) (sessionId : UInt64) (sequence : UInt32) :
    Datagram :=
  .ofPayload senderAddr ⟨sessionId, sequence, PacketType.cLobbyMove.value⟩ (List.replicate 17 0)
    (by decide)

/-! ## The stages of `OnRecvPacket` -/

/-- The context of the sender: `RegisterClient` when the header has no session id, `FindByAddr`
otherwise.
Source: `GameServer/UdpGameSession.cpp`, `UdpGameSession::OnRecvPacket` -/
def lookup (s : UdpService) (d : Datagram) (now : ℤ) : Option UdpClientContextRef × UdpService :=
  if d.header.sessionId = 0 then
    let (r, s) := s.registerClient d.senderAddr now
    (some r, s)
  else (s.findByAddr d.senderAddr, s)

/-- The sequence filter, on the path with a session id only: `none` for a duplicate.
Source: `GameServer/UdpGameSession.cpp`, `UdpGameSession::OnRecvPacket` -/
def accept (s : UdpService) (r : UdpClientContextRef) (d : Datagram) (now : ℤ) :
    Option UdpService :=
  if d.header.sessionId = 0 then some s
  else if d.header.sequence ≠ 0 ∧ d.header.sequence ≤ (s.heap r).lastSeq then none
  else some (s.modifyCtx r fun ctx => { ctx with
    lastSeq := d.header.sequence
    lastAliveMs := now })

/-- `HandlePacket` on the context at `r`, and the context as the handler leaves it. -/
def dispatch {ρ : Type} (B : Backend ρ) (s : UdpService) (rc : RedisClient ρ)
    (r : UdpClientContextRef) (d : Datagram) (now : ℤ) : HandlerOut ρ × UdpService :=
  let out := handlePacket B (s.heap r) rc d.data d.data.length now
  (out, s.modifyCtx r fun _ => out.ctx)

/-! ## The machine -/

/-- The process. -/
structure Server (ρ : Type) where
  /-- The registry. -/
  service : UdpService
  /-- `GRedisClient`. -/
  redis : RedisClient ρ
  /-- The exception that ended the process, if one did. -/
  fault : Option Fault := none

/-- An input of the server. The integers are readings of the clock: of the lookup or the filter
(`now`) and of the handler (`later`). -/
inductive Event
  /-- A datagram is received. -/
  | recv (d : Datagram) (now later : ℤ)
  /-- An iteration of the main loop. -/
  | mainLoop (now : ℤ)
  /-- A call of `RegisterClient`. -/
  | registerClient (addr : SockAddrIn) (now : ℤ)
  /-- A call of `RemoveClient`. -/
  | removeClient (sessionId : UInt64)
  /-- A call of `FindByAddr`. -/
  | findByAddr (addr : SockAddrIn)
  /-- A call of `FindById`. -/
  | findById (sessionId : UInt64)
  /-- A call of `Tick`. -/
  | tick (now : ℤ)

/-- What a step shows to the outside. -/
structure Output where
  /-- The context that a datagram was dispatched on. -/
  dispatched : Option UdpClientContextRef := none
  /-- The context that a call returned. -/
  result : Option UdpClientContextRef := none
  /-- The packets that were built. -/
  built : List ServerPacket := []
  /-- The datagrams handed to the socket. -/
  sent : List (SockAddrIn × ServerPacket) := []
  /-- The ids that were passed to `RemoveClient`. -/
  removed : List UInt64 := []

variable {ρ : Type} (B : Backend ρ)

namespace Server

/-- A server before any client came. -/
def init (redis : RedisClient ρ) : Server ρ := { service := .init, redis }

/-- `OnRecvPacket`, without an interruption between its stages. The check that the service still
exists always passes: the process keeps the service alive.
Source: `GameServer/UdpGameSession.cpp`, `UdpGameSession::OnRecvPacket` -/
def onRecvPacket (s : Server ρ) (d : Datagram) (now later : ℤ) : Server ρ × Output :=
  if d.data.length < udpPacketHeaderSize then (s, {})
  else
    match lookup s.service d now with
    | (none, service) => ({ s with service }, {})
    | (some r, service) =>
        match accept service r d now with
        | none => ({ s with service }, {})
        | some service =>
            let (out, service) := dispatch B service s.redis r d later
            ({ service, redis := out.redis, fault := out.fault },
              { dispatched := some r
                built := out.requests.map SendRequest.packet
                sent := out.requests.flatMap (SendRequest.perform service) })

/-- One iteration of the main loop: `Tick`, then `OnClientLeave` for each id it returned.
Source: `GameServer/GameServer.cpp`, `main` -/
def mainLoop (s : Server ρ) (now : ℤ) : Server ρ × Output :=
  let (left, service) := s.service.tick now
  ({ s with service },
    { built := left.map ServerPacket.lobbyPlayerLeave
      sent := left.flatMap (onClientLeave service)
      removed := left })

/-- One step. -/
def step (s : Server ρ) (e : Event) : Server ρ × Output :=
  if s.fault.isSome then (s, {})
  else
    match e with
    | .recv d now later => s.onRecvPacket B d now later
    | .mainLoop now => s.mainLoop now
    | .registerClient addr now =>
        let (r, service) := s.service.registerClient addr now
        ({ s with service }, { result := some r })
    | .removeClient id => ({ s with service := s.service.removeClient id }, { removed := [id] })
    | .findByAddr addr => (s, { result := s.service.findByAddr addr })
    | .findById id => (s, { result := s.service.findById id })
    | .tick now =>
        let (removed, service) := s.service.tick now
        ({ s with service }, { removed })

end Server

/-- The server as a machine. -/
def server : Transducer (Server ρ) Event Output where
  step := Server.step B

/-! ## Reading the definitions -/

/-- A datagram that passes the lookup and the sequence filter of the registry `s` at time `now`: the
context it acts on and the registry after both. -/
inductive Arrives (s : UdpService) (d : Datagram) (now : ℤ) : UdpClientContextRef → UdpService → Prop
  /-- A datagram without a session id registers its sender, and nothing filters it. -/
  | handshake (hlen : udpPacketHeaderSize ≤ d.data.length) (hid : d.header.sessionId = 0) :
      Arrives s d now (s.registerClient d.senderAddr now).1 (s.registerClient d.senderAddr now).2
  /-- A datagram with a session id finds the context of its sender's address and is not older than
  the last one accepted there. -/
  | sequenced {r : UdpClientContextRef} (hlen : udpPacketHeaderSize ≤ d.data.length)
      (hid : d.header.sessionId ≠ 0) (hfind : s.findByAddr d.senderAddr = some r)
      (hseq : d.header.sequence = 0 ∨ (s.heap r).lastSeq < d.header.sequence) :
      Arrives s d now r (s.modifyCtx r fun ctx => { ctx with
        lastSeq := d.header.sequence
        lastAliveMs := now })

/-- What passes the filter. -/
theorem accept_eq_some_iff {s service : UdpService} {r : UdpClientContextRef} {d : Datagram} {now : ℤ}
    (hid : d.header.sessionId ≠ 0) :
    accept s r d now = some service ↔
      (d.header.sequence = 0 ∨ (s.heap r).lastSeq < d.header.sequence) ∧
        service = s.modifyCtx r fun ctx => { ctx with
          lastSeq := d.header.sequence
          lastAliveMs := now } := by
  unfold accept
  rw [if_neg hid]
  by_cases hdup : d.header.sequence ≠ 0 ∧ d.header.sequence ≤ (s.heap r).lastSeq
  · rw [if_pos hdup]
    constructor
    · intro h
      cases h
    · rintro ⟨hzero | hlt, -⟩
      · exact absurd hzero hdup.1
      · exact absurd hdup.2 (UInt32.not_le.mpr hlt)
  · rw [if_neg hdup]
    constructor
    · intro h
      cases h
      refine ⟨?_, rfl⟩
      by_cases hzero : d.header.sequence = 0
      · exact .inl hzero
      · exact .inr (UInt32.not_le.mp fun hle => hdup ⟨hzero, hle⟩)
    · rintro ⟨-, rfl⟩
      rfl

namespace Server

variable {B} {s : Server ρ} {d : Datagram} {now later : ℤ} {r : UdpClientContextRef}
  {service : UdpService}

/-- The step on a datagram that arrives. -/
def handled (B : Backend ρ) (s : Server ρ) (d : Datagram) (later : ℤ) (r : UdpClientContextRef)
    (service : UdpService) : Server ρ × Output :=
  let out := handlePacket B (service.heap r) s.redis d.data d.data.length later
  let service' := service.modifyCtx r fun _ => out.ctx
  ({ service := service', redis := out.redis, fault := out.fault },
    { dispatched := some r
      built := out.requests.map SendRequest.packet
      sent := out.requests.flatMap (SendRequest.perform service') })

/-- **A datagram arrives and is handled, or changes nothing.** -/
theorem onRecvPacket_cases (B : Backend ρ) (s : Server ρ) (d : Datagram) (now later : ℤ) :
    (s.onRecvPacket B d now later = (s, {}) ∧ ∀ r service, ¬ Arrives s.service d now r service) ∨
      ∃ r service, Arrives s.service d now r service ∧
        s.onRecvPacket B d now later = handled B s d later r service := by
  unfold onRecvPacket
  by_cases hlen : d.data.length < udpPacketHeaderSize
  · rw [if_pos hlen]
    left
    refine ⟨rfl, ?_⟩
    rintro r service (⟨hlen', -⟩ | ⟨hlen', -⟩) <;> omega
  rw [if_neg hlen]
  have hlen := not_lt.mp hlen
  by_cases hid : d.header.sessionId = 0
  · right
    refine ⟨_, _, .handshake hlen hid, ?_⟩
    simp only [lookup, accept, if_pos hid, dispatch, handled]
  · simp only [lookup, if_neg hid]
    rcases hfind : s.service.findByAddr d.senderAddr with _ | r
    · left
      refine ⟨rfl, ?_⟩
      rintro r service (⟨-, hid'⟩ | ⟨-, -, hfind', -⟩)
      · exact hid hid'
      · rw [hfind] at hfind'
        cases hfind'
    · dsimp only
      rcases haccept : accept s.service r d now with _ | service
      · left
        refine ⟨rfl, ?_⟩
        rintro r' service' (⟨-, hid'⟩ | ⟨-, -, hfind', hseq⟩)
        · exact hid hid'
        · rw [hfind] at hfind'
          cases hfind'
          cases haccept.symm.trans ((accept_eq_some_iff hid).mpr ⟨hseq, rfl⟩)
      · right
        obtain ⟨hseq, rfl⟩ := (accept_eq_some_iff hid).mp haccept
        exact ⟨r, _, .sequenced hlen hid hfind hseq, rfl⟩

end Server

end CowboyPoker.GameServer
