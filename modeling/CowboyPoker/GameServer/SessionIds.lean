import CowboyPoker.GameServer.ServerRuns

/-!
# Session ids along runs

* `issuedIds` — the session ids issued in a run; `issuedIds_exec` says that these are `1, 2, …` in
  this order, one for each context.
* `registration` — the address that a step registered and the context it got.
* `registered_exec` — a context stays registered, under the same id and address, until a step passes
  its id to `RemoveClient`.
* `registry_invariant` — the two maps of the registry hold the same contexts after every run, no id
  is zero or issued twice, and registering again before removal returns the same id.
-/

namespace CowboyPoker.GameServer

open CowboyPoker.Found
open CowboyPoker.ServerCore
open UdpService

variable {ρ : Type} {B : Backend ρ}

/-! ## Issued ids -/

/-- The id of the context that a step created, if it created one. -/
def newSessionId (t : Entry (Server ρ) Event Output) : Option UInt64 :=
  if t.before.service.next < t.after.service.next then
    some (t.after.service.heap t.before.service.next).sessionId
  else none

/-- The ids issued in a run, oldest first. -/
def issuedIds (h : List (Entry (Server ρ) Event Output)) : List UInt64 := h.filterMap newSessionId

/-- A step creates at most one context. -/
theorem next_step (B : Backend ρ) (s : Server ρ) (e : Event) :
    (s.step B e).1.service.next = s.service.next ∨
      (s.step B e).1.service.next = s.service.next + 1 := by
  have hcase := stepCase B s e
  generalize s.step B e = next at hcase ⊢
  cases hcase with
  | idle => exact .inl rfl
  | handled d now later r service _ _ harr =>
      rw [Server.handled_next]
      cases harr with
      | handshake => exact registerClient_next _ _ _
      | sequenced => exact .inl rfl
  | registered addr now => exact registerClient_next _ _ _
  | removed out => exact .inl (foldl_removeClient_frame s.service out.removed).2.1

/-- The ids `1, …, n`. -/
def firstIds (n : ℕ) : List UInt64 := (List.range n).map fun r => UInt64.ofNat (r + 1)

/-- The next id that the counter gives. -/
theorem firstIds_succ (n : ℕ) : firstIds (n + 1) = firstIds n ++ [UInt64.ofNat (n + 1)] := by
  simp [firstIds, List.range_succ]

/-- The issued ids of a run are `1, 2, …`. -/
theorem issuedIds_exec (rc : RedisClient ρ) {es : List Event}
    (hbound : ((server B).exec (.init rc) es).service.next < 2 ^ 64) :
    issuedIds ((server B).trace (.init rc) es) =
      firstIds ((server B).exec (.init rc) es).service.next := by
  refine ((server B).history_invariant (C := fun t => t.after.service.next < 2 ^ 64)
    (J := fun h s => s.service.Consistent ∧ issuedIds h = firstIds s.service.next)
    ⟨consistent_init, rfl⟩ ?_ es ?_).2
  swap
  · exact fun t ht => lt_of_le_of_lt (next_le_exec ht) hbound
  · rintro h s e ⟨hs, hids⟩ hC
    have hnext : ((server B).step s e).1.service.Consistent := consistent_step hs hC
    refine ⟨hnext, ?_⟩
    rw [issuedIds, List.filterMap_append, ← issuedIds, hids]
    rcases next_step B s e with heq | heq
    · have hnone : newSessionId ((server B).entry s e) = none :=
        if_neg (not_lt.mpr (le_of_eq heq))
      rw [List.filterMap_cons_none hnone, List.filterMap_nil, List.append_nil]
      exact congrArg firstIds heq.symm
    · have hlt : s.service.next < ((server B).step s e).1.service.next :=
        lt_of_lt_of_eq (Nat.lt_succ_self _) heq.symm
      have hsome : newSessionId ((server B).entry s e) = some (UInt64.ofNat (s.service.next + 1)) := by
        rw [← hnext.issued _ hlt]
        exact if_pos hlt
      rw [List.filterMap_cons_some hsome, List.filterMap_nil, ← firstIds_succ]
      exact congrArg firstIds heq.symm

/-- Fewer than `2 ^ 64` ids do not wrap. -/
theorem toNat_ofNat_succ {r n : ℕ} (hr : r < n) (hn : n < 2 ^ 64) :
    (UInt64.ofNat (r + 1)).toNat = r + 1 := by
  rw [UInt64.toNat_ofNat', Nat.mod_eq_of_lt (by omega)]

/-- Fewer than 2^64 ids of the counter are distinct. -/
theorem nodup_firstIds {n : ℕ} (hn : n < 2 ^ 64) : (firstIds n).Nodup := by
  refine List.Nodup.map_on ?_ List.nodup_range
  intro r hr r' hr' heq
  have hnat := congrArg UInt64.toNat heq
  rw [toNat_ofNat_succ (List.mem_range.mp hr) hn, toNat_ofNat_succ (List.mem_range.mp hr') hn]
    at hnat
  omega

/-- Fewer than 2^64 ids of the counter leave out zero. -/
theorem zero_notMem_firstIds {n : ℕ} (hn : n < 2 ^ 64) : 0 ∉ firstIds n := by
  intro hmem
  obtain ⟨r, hr, heq⟩ := List.mem_map.mp hmem
  have hnat := congrArg UInt64.toNat heq
  rw [toNat_ofNat_succ (List.mem_range.mp hr) hn] at hnat
  exact Nat.succ_ne_zero r hnat

/-! ## Registered until removed -/

/-- A step that does not remove a context leaves it registered under its id and address. -/
theorem registered_step {s : Server ρ} {e : Event} {r : ℕ} (hs : s.service.Consistent)
    (hbound : (s.step B e).1.service.next < 2 ^ 64) (hr : s.service.Registered r)
    (hid : (s.service.heap r).sessionId ∉ (s.step B e).2.removed) :
    (s.step B e).1.service.Registered r ∧
      ((s.step B e).1.service.heap r).sessionId = (s.service.heap r).sessionId ∧
      ((s.step B e).1.service.heap r).addr = (s.service.heap r).addr := by
  have hcase := stepCase B s e
  generalize s.step B e = next at hcase hbound hid ⊢
  cases hcase with
  | idle => exact ⟨hr, rfl, rfl⟩
  | handled d now later r' service _ _ harr =>
      obtain ⟨hsid, haddr⟩ := harr.attrs (hs.allocated r hr)
      refine ⟨Server.handled_registered_iff.mpr (harr.registered_of_registered hs hbound hr), ?_⟩
      by_cases heq : r = r'
      · subst heq
        rw [(Server.handled_heap_self ..).1, (Server.handled_heap_self ..).2]
        exact ⟨hsid, haddr⟩
      · rw [Server.handled_heap_of_ne heq]
        exact ⟨hsid, haddr⟩
  | registered addr now =>
      have hattrs := registerClient_attrs addr now (hs.allocated r hr)
      exact ⟨hs.registered_registerClient hbound hr, hattrs.1, hattrs.2⟩
  | removed out =>
      refine ⟨registered_foldl_removeClient_iff.mpr ⟨hr, hid⟩, ?_⟩
      simp only [(foldl_removeClient_frame s.service out.removed).1, and_self]

/-- The same along a run. -/
theorem registered_exec {s : Server ρ} {es : List Event} {r : ℕ} (hs : s.service.Consistent)
    (hr : s.service.Registered r) (hbound : ((server B).exec s es).service.next < 2 ^ 64)
    (hid : ∀ t ∈ (server B).trace s es, (s.service.heap r).sessionId ∉ t.output.removed) :
    ((server B).exec s es).service.Consistent ∧ ((server B).exec s es).service.Registered r ∧
      (((server B).exec s es).service.heap r).addr = (s.service.heap r).addr := by
  have h : ((server B).exec s es).service.Consistent ∧ ((server B).exec s es).service.Registered r ∧
      (((server B).exec s es).service.heap r).sessionId = (s.service.heap r).sessionId ∧
      (((server B).exec s es).service.heap r).addr = (s.service.heap r).addr := by
    refine (server B).guarded_invariant
      (C := fun t => t.after.service.next < 2 ^ 64 ∧
        (s.service.heap r).sessionId ∉ t.output.removed)
      (I := fun s' => s'.service.Consistent ∧ s'.service.Registered r ∧
        (s'.service.heap r).sessionId = (s.service.heap r).sessionId ∧
        (s'.service.heap r).addr = (s.service.heap r).addr) ⟨hs, hr, rfl, rfl⟩ ?_ es
      fun t ht => ⟨lt_of_le_of_lt (next_le_exec ht) hbound, hid t ht⟩
    rintro s' e ⟨hs', hr', hsid, haddr⟩ ⟨hC, hnot⟩
    obtain ⟨hr'', hsid', haddr'⟩ := registered_step hs' hC hr' (by rwa [hsid])
    exact ⟨consistent_step hs' hC, hr'', hsid'.trans hsid, haddr'.trans haddr⟩
  exact ⟨h.1, h.2.1, h.2.2.2⟩

/-! ## Registrations -/

/-- The address that a step passed to `RegisterClient` and the context it got. -/
def registration (t : Entry (Server ρ) Event Output) : Option (SockAddrIn × UdpClientContextRef) :=
  match t.input with
  | .recv d _ _ =>
      if d.header.sessionId = 0 then t.output.dispatched.map fun r => (d.senderAddr, r) else none
  | .registerClient addr _ => t.output.result.map fun r => (addr, r)
  | _ => none

/-- A registration returns the context filed under the key of the address, if there is one, and
leaves the context it returns there. -/
theorem registration_spec {s : Server ρ} {e : Event} {addr : SockAddrIn} {r : UdpClientContextRef}
    (h : registration ((server B).entry s e) = some (addr, r)) :
    (s.step B e).1.service.addrMap.lookup (sockAddrKey addr) = some r ∧
      ∀ r', s.service.addrMap.lookup (sockAddrKey addr) = some r' → r' = r := by
  have hregister : ∀ (s : UdpService) (addr : SockAddrIn) (now : ℤ) (r' : UdpClientContextRef),
      s.addrMap.lookup (sockAddrKey addr) = some r' → r' = (s.registerClient addr now).1 := by
    intro s addr now r' hlook
    rw [registerClient_of_some hlook]
  have hcase := stepCase B s e
  simp only [registration, Transducer.entry, server] at h
  generalize s.step B e = next at hcase h ⊢
  cases hcase with
  | idle result he =>
      cases e with
      | registerClient addr' now => simp [he addr' now rfl] at h
      | _ => simp at h
  | handled d now later r' service _ he harr =>
      subst he
      cases harr with
      | handshake hlen hid =>
          simp only [if_pos hid, Server.handled, Option.map_some, Option.some.injEq,
            Prod.mk.injEq] at h
          obtain ⟨rfl, rfl⟩ := h
          exact ⟨registerClient_addrMap, hregister _ _ _⟩
      | sequenced hlen hid =>
          simp only [if_neg hid] at h
          cases h
  | registered addr' now _ he =>
      subst he
      simp only [Option.map_some, Option.some.injEq, Prod.mk.injEq] at h
      obtain ⟨rfl, rfl⟩ := h
      exact ⟨registerClient_addrMap, hregister _ _ _⟩
  | removed out hdispatched hbuilt hsent he he' =>
      cases e with
      | recv d now later => exact absurd rfl (he d now later)
      | registerClient addr' now => exact absurd rfl (he' addr' now)
      | _ => cases h

/-- A context that was registered for an address is returned again while it is not removed. -/
theorem registration_again (rc : RedisClient ρ) {es : List Event}
    {pre mid post : List (Entry (Server ρ) Event Output)} {t u : Entry (Server ρ) Event Output}
    {addr : SockAddrIn} {r r' : ℕ}
    (hbound : ((server B).exec (.init rc) es).service.next < 2 ^ 64)
    (htrace : (server B).trace (.init rc) es = pre ++ t :: mid ++ u :: post)
    (ht : registration t = some (addr, r)) (hu : registration u = some (addr, r'))
    (hmid : ∀ v ∈ mid, (t.after.service.heap r).sessionId ∉ v.output.removed) :
    r' = r ∧ (u.after.service.heap r').sessionId = (t.after.service.heap r).sessionId := by
  have hmem : ∀ v ∈ [t, u], v.after.service.next < 2 ^ 64 := by
    intro v hv
    suffices hv' : v ∈ (server B).trace (.init rc) es from
      lt_of_le_of_lt (next_le_exec hv') hbound
    rw [htrace]
    rcases List.mem_cons.mp hv with rfl | hv
    · simp
    · rw [List.mem_singleton.mp hv]
      simp
  rw [List.append_assoc] at htrace
  obtain ⟨fs, e, gs, hes, hpre, rfl, hpost⟩ := (server B).trace_eq_append_cons htrace
  obtain ⟨ms, e', hs, rfl, rfl, rfl, -⟩ := (server B).trace_eq_append_cons hpost.symm
  have hnextT := hmem _ (List.mem_cons_self)
  have hnextU := hmem _ (List.mem_cons_of_mem _ List.mem_cons_self)
  have hbefore : ((server B).exec (.init rc) fs).service.next < 2 ^ 64 :=
    lt_of_le_of_lt (next_le_step B _ e) hnextT
  have hT := consistent_step (consistent_exec rc hbefore) hnextT
  obtain ⟨hlookT, -⟩ := registration_spec ht
  have hregT := hT.registered_of_addrMap hlookT
  have hmidBound := lt_of_le_of_lt (next_le_step B _ e') hnextU
  obtain ⟨hU, hregU, haddrU⟩ := registered_exec hT hregT hmidBound hmid
  -- the context is still filed under the key of the address, so the second call finds it
  have hlookU := hU.addrMap_of_registered hregU
  rw [haddrU, hT.key_eq hlookT] at hlookU
  have heq := (registration_spec hu).2 r hlookU
  subst heq
  refine ⟨rfl, ?_⟩
  have hafterU := consistent_step hU hnextU
  have hltU := hafterU.allocated r (hafterU.registered_of_addrMap (registration_spec hu).1)
  exact (hafterU.issued r hltU).trans (hT.issued r (hT.allocated r hregT)).symm

/-- **Registry invariant.** After every run that creates fewer than `2 ^ 64` contexts, each context
that one of the maps holds is held by the other too, each map files it under its own id or under the
key of its own address, no issued id is zero or issued twice, and an address that is registered again
before its context is removed gets the same session id. -/
theorem registry_invariant (rc : RedisClient ρ) (es : List Event)
    (hbound : ((server B).exec (.init rc) es).service.next < 2 ^ 64) :
    let s := ((server B).exec (.init rc) es).service
    (∀ id r, s.idMap.lookup id = some r →
      (s.heap r).sessionId = id ∧ s.addrMap.lookup (sockAddrKey (s.heap r).addr) = some r) ∧
    (∀ key r, s.addrMap.lookup key = some r →
      sockAddrKey (s.heap r).addr = key ∧ s.idMap.lookup (s.heap r).sessionId = some r) ∧
    0 ∉ issuedIds ((server B).trace (.init rc) es) ∧
    (issuedIds ((server B).trace (.init rc) es)).Nodup ∧
    ∀ pre t mid u post addr r r', (server B).trace (.init rc) es = pre ++ t :: mid ++ u :: post →
      registration t = some (addr, r) → registration u = some (addr, r') →
      (∀ v ∈ mid, (t.after.service.heap r).sessionId ∉ v.output.removed) →
      (u.after.service.heap r').sessionId = (t.after.service.heap r).sessionId := by
  have hs := consistent_exec (B := B) rc hbound
  refine ⟨hs.index.left, hs.index.right, ?_, ?_, ?_⟩
  · rw [issuedIds_exec rc hbound]
    exact zero_notMem_firstIds hbound
  · rw [issuedIds_exec rc hbound]
    exact nodup_firstIds hbound
  · intro pre t mid u post addr r r' htrace ht hu hmid
    exact (registration_again rc hbound htrace ht hu hmid).2

/-- A client that registers again after its removal. -/
theorem registry_invariant_registered_twice :
    let es := [.registerClient ⟨0x0100007F, 0x3930⟩ 0, .tick 5000,
      .registerClient ⟨0x0100007F, 0x3930⟩ 7000]
    0 ∉ issuedIds ((server Backend.unreachable).trace (.init .disconnected) es) ∧
      (issuedIds ((server Backend.unreachable).trace (.init .disconnected) es)).Nodup := by
  have h := registry_invariant (B := Backend.unreachable) .disconnected
    [.registerClient ⟨0x0100007F, 0x3930⟩ 0, .tick 5000,
      .registerClient ⟨0x0100007F, 0x3930⟩ 7000] (by decide)
  exact ⟨h.2.2.1, h.2.2.2.1⟩

end CowboyPoker.GameServer
