import CowboyPoker.GameServer.UdpGameSession

/-!
# Runs of the server

* `StepCase`, `stepCase` — the inversion of one step: it leaves the registry alone, handles a
  datagram that arrives, registers an address, or removes a list of ids. Every invariant of a run is
  an analysis of these four cases.
* `Arrives.consistent`, `Arrives.registered`, `Arrives.heap_of_ne` — what the lookup and the filter do to
  the registry.
* `consistent_step` — the registry stays consistent as long as fewer than `2 ^ 64` contexts have
  been created; `consistent_exec` and `consistent_of_mem_trace` say so of runs.
-/

namespace CowboyPoker.GameServer

open CowboyPoker.Found
open CowboyPoker.ServerCore
open UdpService

variable {ρ : Type} {B : Backend ρ}

/-! ## What one step does -/

/-- What a step from `s` on `e` can have led to. -/
inductive StepCase (B : Backend ρ) (s : Server ρ) (e : Event) : Server ρ × Output → Prop
  /-- Nothing happened to the registry, and nothing was sent. -/
  | idle (result : Option UdpClientContextRef)
      (he : ∀ addr now, e = .registerClient addr now → result = none) :
      StepCase B s e (s, { result })
  /-- A datagram arrived and was handled. -/
  | handled (d : Datagram) (now later : ℤ) (r : UdpClientContextRef) (service : UdpService)
      (hfault : s.fault = none) (he : e = .recv d now later)
      (harr : Arrives s.service d now r service) :
      StepCase B s e (Server.handled B s d later r service)
  /-- An address was registered. -/
  | registered (addr : SockAddrIn) (now : ℤ) (hfault : s.fault = none)
      (he : e = .registerClient addr now) :
      StepCase B s e ({ s with service := (s.service.registerClient addr now).2 },
        { result := some (s.service.registerClient addr now).1 })
  /-- Ids were removed, and at most their departure was announced. -/
  | removed (out : Output) (hdispatched : out.dispatched = none)
      (hbuilt : ∀ p ∈ out.built, ∃ id, p = .lobbyPlayerLeave id)
      (hsent : ∀ x ∈ out.sent, ∃ id, x.2 = .lobbyPlayerLeave id)
      (he : ∀ d now later, e ≠ .recv d now later) (he' : ∀ addr now, e ≠ .registerClient addr now) :
      StepCase B s e ({ s with service := out.removed.foldl removeClient s.service }, out)

/-- **The inversion of a step.** -/
theorem stepCase (B : Backend ρ) (s : Server ρ) (e : Event) : StepCase B s e (s.step B e) := by
  unfold Server.step
  by_cases hfault : s.fault.isSome
  · rw [if_pos hfault]
    exact .idle none fun _ _ _ => rfl
  rw [if_neg hfault]
  have hfault := Option.not_isSome_iff_eq_none.mp hfault
  cases e with
  | recv d now later =>
      rcases s.onRecvPacket_cases B d now later with ⟨heq, -⟩ | ⟨r, service, harr, heq⟩
      · simp only [heq]
        exact .idle none fun _ _ _ => rfl
      · simp only [heq]
        exact .handled d now later r service hfault rfl harr
  | mainLoop now =>
      refine .removed (s.mainLoop now).2 rfl ?_ ?_ (fun _ _ _ => Event.noConfusion)
        (fun _ _ => Event.noConfusion)
      · intro p hp
        obtain ⟨id, -, rfl⟩ := List.mem_map.mp hp
        exact ⟨id, rfl⟩
      · intro x hx
        obtain ⟨id, -, hx⟩ := List.mem_flatMap.mp hx
        obtain ⟨_, _, -, rfl⟩ := mem_broadcast_iff.mp hx
        exact ⟨id, rfl⟩
  | registerClient addr now => exact .registered addr now hfault rfl
  | removeClient id =>
      exact .removed { removed := [id] } rfl (by simp) (by simp) (fun _ _ _ => Event.noConfusion)
        (fun _ _ => Event.noConfusion)
  | findByAddr addr => exact .idle _ fun _ _ => Event.noConfusion
  | findById id => exact .idle _ fun _ _ => Event.noConfusion
  | tick now =>
      exact .removed { removed := s.service.expired now } rfl (by simp) (by simp)
        (fun _ _ _ => Event.noConfusion) (fun _ _ => Event.noConfusion)

/-- A datagram arrives on one context only. -/
theorem Arrives.unique {s service service' : UdpService} {d : Datagram} {now : ℤ}
    {r r' : UdpClientContextRef} (h : Arrives s d now r service)
    (h' : Arrives s d now r' service') : r' = r ∧ service' = service := by
  cases h with
  | handshake _ hid =>
      cases h' with
      | handshake => exact ⟨rfl, rfl⟩
      | sequenced _ hid' => exact absurd hid hid'
  | sequenced _ hid hfind =>
      cases h' with
      | handshake _ hid' => exact absurd hid' hid
      | sequenced _ _ hfind' =>
          rw [hfind] at hfind'
          cases hfind'
          exact ⟨rfl, rfl⟩

/-- A process that has ended ignores its inputs. -/
theorem step_of_fault {s : Server ρ} (e : Event) (hfault : s.fault ≠ none) :
    s.step B e = (s, {}) := by
  unfold Server.step
  rw [if_pos (Option.isSome_iff_ne_none.mpr hfault)]

/-- `RegisterClient` in a running server. -/
theorem step_registerClient {s : Server ρ} {addr : SockAddrIn} {now : ℤ} (hfault : s.fault = none) :
    s.step B (.registerClient addr now) =
      ({ s with service := (s.service.registerClient addr now).2 },
        { result := some (s.service.registerClient addr now).1 }) := by
  unfold Server.step
  rw [if_neg (by rw [hfault]; exact Bool.false_ne_true)]

/-- A datagram that arrives at a running server is handled. -/
theorem step_recv_of_arrives {s : Server ρ} {d : Datagram} {now later : ℤ}
    {r : UdpClientContextRef} {service : UdpService} (hfault : s.fault = none)
    (h : Arrives s.service d now r service) :
    s.step B (.recv d now later) = Server.handled B s d later r service := by
  unfold Server.step
  rw [if_neg (by rw [hfault]; exact Bool.false_ne_true)]
  rcases s.onRecvPacket_cases B d now later with ⟨-, hnot⟩ | ⟨r', service', h', heq⟩
  · exact absurd h (hnot r service)
  · obtain ⟨rfl, rfl⟩ := h.unique h'
    exact heq

/-- A datagram that does not arrive changes nothing. -/
theorem step_recv_of_not_arrives {s : Server ρ} {d : Datagram} {now later : ℤ}
    (h : ∀ r service, ¬ Arrives s.service d now r service) :
    s.step B (.recv d now later) = (s, {}) := by
  by_cases hfault : s.fault = none
  · unfold Server.step
    rw [if_neg (by rw [hfault]; exact Bool.false_ne_true)]
    rcases s.onRecvPacket_cases B d now later with ⟨heq, -⟩ | ⟨r, service, h', -⟩
    · exact heq
    · exact absurd h' (h r service)
  · exact step_of_fault _ hfault

/-- What becomes of a datagram. -/
theorem recv_cases (B : Backend ρ) (s : Server ρ) (d : Datagram) (now later : ℤ) :
    s.step B (.recv d now later) = (s, {}) ∨
      ∃ r service, s.fault = none ∧ Arrives s.service d now r service ∧
        s.step B (.recv d now later) = Server.handled B s d later r service := by
  by_cases hfault : s.fault = none
  · by_cases harr : ∃ r service, Arrives s.service d now r service
    · obtain ⟨r, service, harr⟩ := harr
      exact .inr ⟨r, service, hfault, harr, step_recv_of_arrives hfault harr⟩
    · exact .inl (step_recv_of_not_arrives fun r service h => harr ⟨r, service, h⟩)
  · exact .inl (step_of_fault _ hfault)

/-! ## The lookup and the filter -/

namespace Arrives

variable {s service : UdpService} {d : Datagram} {now : ℤ} {r r' : ℕ}

theorem next_le (h : Arrives s d now r service) : s.next ≤ service.next := by
  cases h with
  | handshake => exact next_le_registerClient s _ _
  | sequenced => exact le_rfl

/-- The datagram has a header. -/
theorem length_le (h : Arrives s d now r service) : udpPacketHeaderSize ≤ d.data.length := by
  cases h with
  | handshake hlen => exact hlen
  | sequenced hlen => exact hlen

/-- The registry stays consistent. -/
theorem consistent (h : Arrives s d now r service) (hs : s.Consistent)
    (hbound : service.next < 2 ^ 64) : service.Consistent := by
  cases h with
  | handshake => exact hs.registerClient _ _ hbound
  | sequenced =>
      exact Consistent.modifyCtx (f := fun ctx => { ctx with
        lastSeq := d.header.sequence
        lastAliveMs := now }) hs rfl rfl

/-- The context is filed under the key of the sender's address. -/
theorem addrMap_eq (h : Arrives s d now r service) :
    service.addrMap.lookup (sockAddrKey d.senderAddr) = some r := by
  cases h with
  | handshake => exact registerClient_addrMap
  | sequenced _ _ hfind => exact (findByAddr_eq_some_iff.mp hfind).1

/-- A datagram with a session id acts on the context that `FindByAddr` returns. -/
theorem findByAddr_eq (h : Arrives s d now r service) (hid : d.header.sessionId ≠ 0) :
    s.findByAddr d.senderAddr = some r := by
  cases h with
  | handshake _ hzero => exact absurd hzero hid
  | sequenced _ _ hfind => exact hfind

/-- The context is registered. -/
theorem registered (h : Arrives s d now r service) (hservice : service.Consistent) :
    service.Registered r :=
  hservice.registered_of_addrMap h.addrMap_eq

/-- Every context keeps its id and its address. -/
theorem attrs (h : Arrives s d now r service) (hr' : r' < s.next) :
    (service.heap r').sessionId = (s.heap r').sessionId ∧
      (service.heap r').addr = (s.heap r').addr := by
  cases h with
  | handshake => exact registerClient_attrs _ _ hr'
  | sequenced =>
      by_cases heq : r' = r
      · subst heq
        simp only [modifyCtx_heap_self, and_self]
      · simp only [modifyCtx_heap_of_ne heq, and_self]

/-- Who is registered stays registered. -/
theorem registered_of_registered (h : Arrives s d now r service) (hs : s.Consistent)
    (hbound : service.next < 2 ^ 64) (hr' : s.Registered r') : service.Registered r' := by
  cases h with
  | handshake => exact hs.registered_registerClient hbound hr'
  | sequenced => exact (registered_modifyCtx_iff rfl).mpr hr'

/-- The context has the sender's address if no context of another address is filed under its
key. -/
theorem addr_eq (h : Arrives s d now r service)
    (hkey : ∀ r₀, s.addrMap.lookup (sockAddrKey d.senderAddr) = some r₀ →
      (s.heap r₀).addr = d.senderAddr) : (service.heap r).addr = d.senderAddr := by
  cases h with
  | handshake =>
      rcases hlook : s.addrMap.lookup (sockAddrKey d.senderAddr) with _ | r₀
      · rw [registerClient_of_none hlook]
        simp only [Function.update_self]
      · rw [registerClient_of_some hlook]
        simp only [modifyCtx_heap_self]
        exact hkey r₀ hlook
  | sequenced _ _ hfind =>
      simp only [modifyCtx_heap_self]
      exact (findByAddr_eq_some_iff.mp hfind).2

theorem allocated (h : Arrives s d now r service) (hs : Allocated s) : Allocated service := by
  cases h with
  | handshake => exact hs.registerClient _ _
  | sequenced => exact hs

/-- No other context changes. -/
theorem heap_of_ne (h : Arrives s d now r service) (hne : r' ≠ r) :
    service.heap r' = s.heap r' := by
  cases h with
  | handshake => exact registerClient_heap_of_ne hne
  | sequenced => exact modifyCtx_heap_of_ne hne

end Arrives

/-! ## Handling a datagram -/

namespace Server

variable {s : Server ρ} {d : Datagram} {later : ℤ} {r r' : ℕ} {service : UdpService}

/-- What the handler did to the context and to Redis. -/
theorem handled_spec (B : Backend ρ) (s : Server ρ) (d : Datagram) (later : ℤ) (r : ℕ)
    (service : UdpService) :
    Handled B (accountOf ((handled B s d later r service).1.service.heap r).userId d.data d.data.length)
      (IsMove d.data d.data.length) later (service.heap r) s.redis
      (handlePacket B (service.heap r) s.redis d.data d.data.length later) := by
  have heap : (handled B s d later r service).1.service.heap r =
      (handlePacket B (service.heap r) s.redis d.data d.data.length later).ctx := by
    simp only [handled, modifyCtx_heap_self]
  rw [heap]
  exact handled_handlePacket d.data d.data.length

theorem handled_heap_of_ne (h : r' ≠ r) :
    (handled B s d later r service).1.service.heap r' = service.heap r' := by
  simp only [handled]
  exact modifyCtx_heap_of_ne h

/-- The handled context keeps its id and its address. -/
theorem handled_heap_self (B : Backend ρ) (s : Server ρ) (d : Datagram) (later : ℤ) (r : ℕ)
    (service : UdpService) :
    ((handled B s d later r service).1.service.heap r).sessionId = (service.heap r).sessionId ∧
      ((handled B s d later r service).1.service.heap r).addr = (service.heap r).addr := by
  have h := handled_spec B s d later r service
  simp only [handled, modifyCtx_heap_self]
  exact ⟨h.sessionId, h.addr⟩

theorem handled_next : (handled B s d later r service).1.service.next = service.next := rfl

theorem handled_consistent (h : service.Consistent) :
    (handled B s d later r service).1.service.Consistent := by
  have hctx := handled_heap_self B s d later r service
  simp only [handled, modifyCtx_heap_self] at hctx ⊢
  exact Consistent.modifyCtx h hctx.1 hctx.2

theorem handled_registered_iff :
    (handled B s d later r service).1.service.Registered r' ↔ service.Registered r' := by
  have hctx := handled_heap_self B s d later r service
  simp only [handled, modifyCtx_heap_self] at hctx ⊢
  exact registered_modifyCtx_iff hctx.1

/-- Every packet that is built is one that the handler may ask for, and what is sent of it is sent
from the registry that the handler leaves. -/
theorem exists_request_of_mem_built {p : ServerPacket}
    (hp : p ∈ (handled B s d later r service).2.built) :
    ∃ q, q.packet = p ∧
      RequestFor ((handled B s d later r service).1.service.heap r) (IsMove d.data d.data.length) q ∧
      ∀ x ∈ q.perform (handled B s d later r service).1.service,
        x ∈ (handled B s d later r service).2.sent := by
  obtain ⟨q, hq, rfl⟩ := List.mem_map.mp hp
  have hfor := (handled_spec B s d later r service).requests q hq
  have hctx : (handled B s d later r service).1.service.heap r =
      (handlePacket B (service.heap r) s.redis d.data d.data.length later).ctx := by
    simp only [handled, modifyCtx_heap_self]
  rw [← hctx] at hfor
  exact ⟨q, rfl, hfor, fun x hx => List.mem_flatMap.mpr ⟨q, hq, hx⟩⟩

/-- Every datagram that is sent carries out a request that the handler may make. -/
theorem exists_request_of_mem_sent {x : SockAddrIn × ServerPacket}
    (hx : x ∈ (handled B s d later r service).2.sent) :
    ∃ q, RequestFor ((handled B s d later r service).1.service.heap r)
        (IsMove d.data d.data.length) q ∧
      x ∈ q.perform (handled B s d later r service).1.service := by
  obtain ⟨q, hq, hx⟩ := List.mem_flatMap.mp hx
  have hfor := (handled_spec B s d later r service).requests q hq
  have hctx : (handled B s d later r service).1.service.heap r =
      (handlePacket B (service.heap r) s.redis d.data d.data.length later).ctx := by
    simp only [handled, modifyCtx_heap_self]
  rw [← hctx] at hfor
  exact ⟨q, hfor, hx⟩

end Server

/-- A request for a registered session either goes to its address, or relays a move. -/
theorem perform_of_requestFor {s : UdpService} {r : ℕ} (hr : s.Registered r) {relays : Prop}
    {q : SendRequest} (h : RequestFor (s.heap r) relays q) :
    SendRequest.perform s q = [((s.heap r).addr, q.packet)] ∨
      relays ∧ ∃ posX posY posZ rot animState, q = .broadcastExcept (s.heap r).sessionId
        (.lobbyPlayerMove (s.heap r).sessionId (s.heap r).userId posX posY posZ rot animState) := by
  cases h with
  | handshakeAck => exact .inl (Consistent.sendTo_of_registered hr _)
  | playerInfo info => exact .inl (Consistent.sendTo_of_registered hr _)
  | lobbyPlayerMove hrelays posX posY posZ rot animState =>
      exact .inr ⟨hrelays, posX, posY, posZ, rot, animState, rfl⟩
  | buyWeaponResult => exact .inl (Consistent.sendTo_of_registered hr _)

/-- The datagrams of a request carry its packet. -/
theorem snd_of_mem_perform {s : UdpService} {q : SendRequest} {x : SockAddrIn × ServerPacket}
    (hx : x ∈ q.perform s) : x.2 = q.packet := by
  cases q with
  | sendTo id packet =>
      obtain ⟨_, -, rfl⟩ := mem_sendTo_iff.mp hx
      rfl
  | broadcastExcept id packet =>
      obtain ⟨_, _, -, -, rfl⟩ := mem_broadcastExcept_iff.mp hx
      rfl

/-! ## Consistency along runs -/

/-- No step lowers the number of contexts. -/
theorem next_le_step (B : Backend ρ) (s : Server ρ) (e : Event) :
    s.service.next ≤ (s.step B e).1.service.next := by
  have hcase := stepCase B s e
  generalize s.step B e = next at hcase ⊢
  cases hcase with
  | idle => exact le_rfl
  | handled d now later r service _ _ harr => exact harr.next_le
  | registered addr now => exact next_le_registerClient _ _ _
  | removed out =>
      exact (foldl_removeClient_frame s.service out.removed).2.1.ge

/-- **A step keeps the registry consistent** while ids last. -/
theorem consistent_step {s : Server ρ} {e : Event} (h : s.service.Consistent)
    (hbound : (s.step B e).1.service.next < 2 ^ 64) : (s.step B e).1.service.Consistent := by
  have hcase := stepCase B s e
  generalize s.step B e = next at hcase hbound ⊢
  cases hcase with
  | idle => exact h
  | handled d now later r service _ _ harr =>
      exact Server.handled_consistent (harr.consistent h hbound)
  | registered addr now => exact h.registerClient addr now hbound
  | removed out => exact h.foldl_removeClient out.removed

section runs

variable {s₀ : Server ρ} {es : List Event} {t : Entry (Server ρ) Event Output}

/-- At no point of a run are there more contexts than at its end. -/
theorem next_le_exec (ht : t ∈ (server B).trace s₀ es) :
    t.after.service.next ≤ ((server B).exec s₀ es).service.next :=
  (server B).after_le_exec_of_mem_trace (f := fun s => s.service.next) (next_le_step B) ht

/-- The registry is consistent after every run that creates fewer than `2 ^ 64` contexts. -/
theorem consistent_exec (rc : RedisClient ρ)
    (hbound : ((server B).exec (.init rc) es).service.next < 2 ^ 64) :
    ((server B).exec (.init rc) es).service.Consistent :=
  (server B).guarded_invariant (C := fun t => t.after.service.next < 2 ^ 64)
    (I := fun s => s.service.Consistent) consistent_init (fun _ _ hs hC => consistent_step hs hC) es
    fun _ ht => lt_of_le_of_lt (next_le_exec ht) hbound

/-- The registry is consistent before every step of such a run. -/
theorem consistent_of_mem_trace {rc : RedisClient ρ} (ht : t ∈ (server B).trace (.init rc) es)
    (hbound : ((server B).exec (.init rc) es).service.next < 2 ^ 64) :
    t.before.service.Consistent :=
  (server B).guarded_trace_invariant (C := fun t => t.after.service.next < 2 ^ 64)
    (I := fun s => s.service.Consistent) consistent_init (fun _ _ hs hC => consistent_step hs hC)
    (fun _ hu => lt_of_le_of_lt (next_le_exec hu) hbound) ht

end runs

end CowboyPoker.GameServer
