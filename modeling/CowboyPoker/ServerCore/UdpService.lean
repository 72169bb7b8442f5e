import CowboyPoker.Found.DoubleIndex
import CowboyPoker.Found.LittleEndian
import Mathlib.Logic.Function.Basic

/-!
# `UdpService`: the client registry

* `UdpService` — the two maps of the service, the contexts they share and the session id counter.
  A context is a shared object, so it lives in `heap` under an address (`UdpClientContextRef`) and
  the maps hold addresses; `next` is the next free address. Contexts stay in the heap after their
  removal from the maps, as a `shared_ptr` held by a running handler keeps them.
* `registerClient`, `removeClient`, `findByAddr`, `findById`, `tick`, and the three ways to send,
  which return the datagrams handed to the socket as pairs of destination and buffer.

The iteration order of `unordered_map` is unspecified; here it is the order of the entries of the
map. The clock is `GetTickCount64` cast to `int64`: the model takes it as an integer, since the
milliseconds since boot never come near the bounds of the type.
-/

namespace CowboyPoker.ServerCore

open CowboyPoker.Found

/-- An IPv4 address and port in network byte order. The family is `AF_INET` for every sender of the
socket.
Source: `SOCKADDR_IN` as `ServerCore/UdpService.cpp` uses it -/
structure SockAddrIn where
  /-- `sin_addr.s_addr`. -/
  sAddr : UInt32
  /-- `sin_port`. -/
  sinPort : UInt16
  deriving DecidableEq, Repr

/-- `SockAddrKey`: the address xor the port. Different addresses may share a key.
Source: `ServerCore/UdpService.h`, `SockAddrKey` -/
def sockAddrKey (addr : SockAddrIn) : UInt32 := addr.sAddr ^^^ addr.sinPort.toUInt32

/-- What the server knows of a client.
Source: `ServerCore/UdpService.h`, `UdpClientContext` -/
structure UdpClientContext where
  /-- `sessionId`. -/
  sessionId : UInt64 := 0
  /-- `addr`. -/
  addr : SockAddrIn := ⟨0, 0⟩
  /-- `lastSeq`, the sequence number accepted last. -/
  lastSeq : UInt32 := 0
  /-- `lastAliveMs`, the time of the last packet. -/
  lastAliveMs : ℤ := 0
  /-- `userId`, from the payload of the last `C_UDP_HELLO`. -/
  userId : Bytes := []
  deriving DecidableEq, Repr

/-- A shared pointer to a context. -/
abbrev UdpClientContextRef := ℕ

/-- `SESSION_TIMEOUT_MS`.
Source: `ServerCore/UdpService.h`, `UdpService::SESSION_TIMEOUT_MS` -/
def sessionTimeoutMs : ℤ := 10000

/-- The registry of clients.
Source: `ServerCore/UdpService.h`, `UdpService` -/
structure UdpService where
  /-- The contexts created so far, by address. -/
  heap : UdpClientContextRef → UdpClientContext := fun _ => {}
  /-- The address of the next context, hence the number of contexts created. -/
  next : ℕ := 0
  /-- `_idMap`: session id to context. -/
  idMap : KeyMap UInt64 UdpClientContextRef := ∅
  /-- `_addrMap`: address key to context. -/
  addrMap : KeyMap UInt32 UdpClientContextRef := ∅
  /-- The static counter of `GenerateSessionId`. -/
  sCounter : UInt64 := 1

namespace UdpService

/-- A service before any client came. -/
def init : UdpService := {}

/-- An assignment to fields of the context at `r`. -/
def modifyCtx (s : UdpService) (r : UdpClientContextRef)
    (f : UdpClientContext → UdpClientContext) : UdpService :=
  { s with heap := Function.update s.heap r (f (s.heap r)) }

/-- `GenerateSessionId`: the old value of the counter, which is incremented.
Source: `ServerCore/UdpService.cpp`, `UdpService::GenerateSessionId` -/
def generateSessionId (s : UdpService) : UInt64 × UdpService :=
  (s.sCounter, { s with sCounter := s.sCounter + 1 })

/-- `RegisterClient`: the context filed under the key of `addr`, refreshed, or a new one.
Source: `ServerCore/UdpService.cpp`, `UdpService::RegisterClient` -/
def registerClient (s : UdpService) (addr : SockAddrIn) (now : ℤ) :
    UdpClientContextRef × UdpService :=
  let key := sockAddrKey addr
  match s.addrMap.lookup key with
  | some r => (r, s.modifyCtx r fun ctx => { ctx with lastAliveMs := now })
  | none =>
      let (sessionId, s) := s.generateSessionId
      let ctx : UdpClientContext := { sessionId, addr, lastAliveMs := now }
      let r := s.next
      (r, { s with
        heap := Function.update s.heap r ctx
        next := r + 1
        idMap := s.idMap.insert sessionId r
        addrMap := s.addrMap.insert key r })

/-- `RemoveClient`: erases the context with the given id from both maps.
Source: `ServerCore/UdpService.cpp`, `UdpService::RemoveClient` -/
def removeClient (s : UdpService) (sessionId : UInt64) : UdpService :=
  match s.idMap.lookup sessionId with
  | none => s
  | some r =>
      let key := sockAddrKey (s.heap r).addr
      { s with addrMap := s.addrMap.erase key, idMap := s.idMap.erase sessionId }

/-- `FindByAddr`: the context filed under the key of `addr`, if its address is `addr`.
Source: `ServerCore/UdpService.cpp`, `UdpService::FindByAddr` -/
def findByAddr (s : UdpService) (addr : SockAddrIn) : Option UdpClientContextRef :=
  match s.addrMap.lookup (sockAddrKey addr) with
  | none => none
  | some r =>
      if (s.heap r).addr.sAddr = addr.sAddr ∧ (s.heap r).addr.sinPort = addr.sinPort then some r
      else none

/-- `FindById`.
Source: `ServerCore/UdpService.cpp`, `UdpService::FindById` -/
def findById (s : UdpService) (sessionId : UInt64) : Option UdpClientContextRef :=
  s.idMap.lookup sessionId

/-! ## Sending -/

variable {β : Type}

/-- `SendTo`: one datagram to the client with the given id, none if there is no such client.
Source: `ServerCore/UdpService.cpp`, `UdpService::SendTo` -/
def sendTo (s : UdpService) (sessionId : UInt64) (buf : β) : List (SockAddrIn × β) :=
  match s.findById sessionId with
  | none => []
  | some r => [((s.heap r).addr, buf)]

/-- `Broadcast`: one datagram to every registered client.
Source: `ServerCore/UdpService.cpp`, `UdpService::Broadcast` -/
def broadcast (s : UdpService) (buf : β) : List (SockAddrIn × β) :=
  s.idMap.entries.map fun kv => ((s.heap kv.2).addr, buf)

/-- `BroadcastExcept`: one datagram to every registered client with another id.
Source: `ServerCore/UdpService.cpp`, `UdpService::BroadcastExcept` -/
def broadcastExcept (s : UdpService) (excludeSessionId : UInt64) (buf : β) :
    List (SockAddrIn × β) :=
  (s.idMap.entries.filter fun kv => kv.1 ≠ excludeSessionId).map fun kv =>
    ((s.heap kv.2).addr, buf)

/-! ## Expiry -/

/-- The first half of `Tick`, under the read lock: the ids of the clients that have been silent for
longer than the timeout at time `now`.
Source: `ServerCore/UdpService.cpp`, `UdpService::Tick` -/
def expired (s : UdpService) (now : ℤ) : List UInt64 :=
  s.idMap.entries.filterMap fun kv =>
    if now - (s.heap kv.2).lastAliveMs > sessionTimeoutMs then some kv.1 else none

/-- `Tick`: removes the expired clients and returns their ids.
Source: `ServerCore/UdpService.cpp`, `UdpService::Tick` -/
def tick (s : UdpService) (now : ℤ) : List UInt64 × UdpService :=
  (s.expired now, (s.expired now).foldl removeClient s)

/-! ## Reading the definitions -/

section lemmas

variable {s : UdpService} {r r' : UdpClientContextRef} {f : UdpClientContext → UdpClientContext}

/-- The context that is assigned to. -/
@[simp] theorem modifyCtx_heap_self : (s.modifyCtx r f).heap r = f (s.heap r) := by
  simp [modifyCtx]

/-- The other contexts stay. -/
theorem modifyCtx_heap_of_ne (h : r' ≠ r) : (s.modifyCtx r f).heap r' = s.heap r' := by
  simp [modifyCtx, Function.update_of_ne h]

@[simp] theorem modifyCtx_idMap : (s.modifyCtx r f).idMap = s.idMap := rfl

@[simp] theorem modifyCtx_addrMap : (s.modifyCtx r f).addrMap = s.addrMap := rfl

@[simp] theorem modifyCtx_next : (s.modifyCtx r f).next = s.next := rfl

@[simp] theorem modifyCtx_sCounter : (s.modifyCtx r f).sCounter = s.sCounter := rfl

/-- Two addresses with equal parts are equal. -/
theorem sockAddrIn_eq_iff {a b : SockAddrIn} : a = b ↔ a.sAddr = b.sAddr ∧ a.sinPort = b.sinPort := by
  cases a
  cases b
  simp

/-- `FindByAddr` finds the context under the key of `addr` when that context has address `addr`. -/
theorem findByAddr_eq_some_iff {addr : SockAddrIn} :
    s.findByAddr addr = some r ↔
      s.addrMap.lookup (sockAddrKey addr) = some r ∧ (s.heap r).addr = addr := by
  unfold findByAddr
  rcases hlook : s.addrMap.lookup (sockAddrKey addr) with _ | r₀
  · simp
  · simp only [← sockAddrIn_eq_iff]
    by_cases haddr : (s.heap r₀).addr = addr
    · rw [if_pos haddr]
      constructor
      · intro h
        cases h
        exact ⟨rfl, haddr⟩
      · intro h
        exact h.1
    · rw [if_neg haddr]
      constructor
      · intro h
        cases h
      · rintro ⟨h, hr⟩
        cases h
        exact absurd hr haddr

/-- `RegisterClient` on a key that is taken. -/
theorem registerClient_of_some {addr : SockAddrIn} {now : ℤ}
    (h : s.addrMap.lookup (sockAddrKey addr) = some r) :
    s.registerClient addr now =
      (r, s.modifyCtx r fun ctx => { ctx with lastAliveMs := now }) := by
  unfold registerClient
  simp only [h]

/-- `RegisterClient` on a free key. -/
theorem registerClient_of_none {addr : SockAddrIn} {now : ℤ}
    (h : s.addrMap.lookup (sockAddrKey addr) = none) :
    s.registerClient addr now =
      (s.next, { s with
        heap := Function.update s.heap s.next
          { sessionId := s.sCounter, addr, lastAliveMs := now }
        next := s.next + 1
        idMap := s.idMap.insert s.sCounter s.next
        addrMap := s.addrMap.insert (sockAddrKey addr) s.next
        sCounter := s.sCounter + 1 }) := by
  unfold registerClient
  simp only [h, generateSessionId]

/-- An id that is not filed is not removed. -/
theorem removeClient_of_none {id : UInt64} (h : s.idMap.lookup id = none) :
    s.removeClient id = s := by
  unfold removeClient
  simp only [h]

/-- A removal erases the id and the key of the address that the context has. -/
theorem removeClient_of_some {id : UInt64} (h : s.idMap.lookup id = some r) :
    s.removeClient id =
      { s with
        addrMap := s.addrMap.erase (sockAddrKey (s.heap r).addr)
        idMap := s.idMap.erase id } := by
  unfold removeClient
  simp only [h]

/-- Removing a client leaves every context and the counter alone. -/
theorem removeClient_frame (s : UdpService) (id : UInt64) :
    (s.removeClient id).heap = s.heap ∧ (s.removeClient id).next = s.next ∧
      (s.removeClient id).sCounter = s.sCounter := by
  rcases h : s.idMap.lookup id with _ | r
  · rw [removeClient_of_none h]
    exact ⟨rfl, rfl, rfl⟩
  · rw [removeClient_of_some h]
    exact ⟨rfl, rfl, rfl⟩

/-- The same for a list of clients. -/
theorem foldl_removeClient_frame (s : UdpService) (ids : List UInt64) :
    (ids.foldl removeClient s).heap = s.heap ∧ (ids.foldl removeClient s).next = s.next ∧
      (ids.foldl removeClient s).sCounter = s.sCounter := by
  induction ids generalizing s with
  | nil => exact ⟨rfl, rfl, rfl⟩
  | cons id ids ih =>
      obtain ⟨h₁, h₂, h₃⟩ := removeClient_frame s id
      obtain ⟨h₁', h₂', h₃'⟩ := ih (s.removeClient id)
      exact ⟨h₁'.trans h₁, h₂'.trans h₂, h₃'.trans h₃⟩

/-- The ids that `Tick` collects are those of the registered clients silent for too long. -/
theorem mem_expired_iff {now : ℤ} {id : UInt64} :
    id ∈ s.expired now ↔
      ∃ r, s.idMap.lookup id = some r ∧ now - (s.heap r).lastAliveMs > sessionTimeoutMs := by
  unfold expired
  rw [List.mem_filterMap]
  constructor
  · rintro ⟨⟨k, r⟩, hmem, h⟩
    split_ifs at h with hsilent
    cases h
    exact ⟨r, AList.mem_lookup_iff.mpr hmem, hsilent⟩
  · rintro ⟨r, hlook, hsilent⟩
    exact ⟨⟨id, r⟩, AList.mem_lookup_iff.mp hlook, if_pos hsilent⟩

/-- `Tick` collects no id twice. -/
theorem nodup_expired (s : UdpService) (now : ℤ) : (s.expired now).Nodup := by
  have hkeys : (s.idMap.entries.map Sigma.fst).Nodup := s.idMap.nodupKeys
  refine hkeys.sublist ?_
  unfold expired
  generalize s.idMap.entries = entries
  induction entries with
  | nil => exact .slnil
  | cons kv entries ih =>
      rw [List.filterMap_cons, List.map_cons]
      by_cases hsilent : now - (s.heap kv.2).lastAliveMs > sessionTimeoutMs
      · rw [if_pos hsilent]
        exact ih.cons_cons _
      · rw [if_neg hsilent]
        exact ih.cons _

/-- `SendTo` sends at most one datagram, to the address of the client. -/
theorem mem_sendTo_iff {id : UInt64} {buf : β} {x : SockAddrIn × β} :
    x ∈ s.sendTo id buf ↔ ∃ r, s.idMap.lookup id = some r ∧ x = ((s.heap r).addr, buf) := by
  unfold sendTo findById
  rcases s.idMap.lookup id with _ | r
  · simp
  · simp

/-- A broadcast goes to the addresses of the registered clients. -/
theorem mem_broadcast_iff {buf : β} {x : SockAddrIn × β} :
    x ∈ s.broadcast buf ↔
      ∃ id r, s.idMap.lookup id = some r ∧ x = ((s.heap r).addr, buf) := by
  unfold broadcast
  rw [List.mem_map]
  constructor
  · rintro ⟨⟨k, r⟩, hmem, rfl⟩
    exact ⟨k, r, AList.mem_lookup_iff.mpr hmem, rfl⟩
  · rintro ⟨id, r, hlook, rfl⟩
    exact ⟨⟨id, r⟩, AList.mem_lookup_iff.mp hlook, rfl⟩

/-- A broadcast with an exception goes to the addresses of the other registered clients. -/
theorem mem_broadcastExcept_iff {except : UInt64} {buf : β} {x : SockAddrIn × β} :
    x ∈ s.broadcastExcept except buf ↔
      ∃ id r, id ≠ except ∧ s.idMap.lookup id = some r ∧ x = ((s.heap r).addr, buf) := by
  unfold broadcastExcept
  rw [List.mem_map]
  constructor
  · rintro ⟨⟨k, r⟩, hmem, rfl⟩
    rw [List.mem_filter] at hmem
    exact ⟨k, r, by simpa using hmem.2, AList.mem_lookup_iff.mpr hmem.1, rfl⟩
  · rintro ⟨id, r, hne, hlook, rfl⟩
    exact ⟨⟨id, r⟩, List.mem_filter.mpr ⟨AList.mem_lookup_iff.mp hlook, by simpa using hne⟩, rfl⟩

end lemmas

end UdpService

end CowboyPoker.ServerCore
