import CowboyPoker.ServerCore.UdpService

/-!
# The registry invariant

`_idMap` and `_addrMap` are two indexes of one set of contexts: by session id and by address key.

* `Registered s r` — the context at `r` is in the registry.
* `Consistent s` — the two maps form a `DoubleIndex`, the registered contexts are allocated, and
  the `n`-th context was given the id `n + 1` (modulo `2 ^ 64`).
* **One lemma for each operation**: `Consistent.modifyCtx` (an assignment that keeps the id and the
  address), `Consistent.registerClient` (as long as fewer than `2 ^ 64` contexts have been created),
  `Consistent.removeClient` and `Consistent.foldl_removeClient`.
* `Allocated s`, `Filed s` — the contexts filed under an address, or under an id, have been created.
  Both hold however many contexts there are.
* What the invariant gives to callers: session ids are distinct (`Consistent.sessionId_inj`), and
  `SendTo` with the id of a registered context reaches its address (`Consistent.sendTo_of_registered`).
-/

namespace CowboyPoker.ServerCore

open CowboyPoker.Found

namespace UdpService

/-- The context at `r` is in the registry. -/
def Registered (s : UdpService) (r : UdpClientContextRef) : Prop :=
  s.idMap.lookup (s.heap r).sessionId = some r

instance (s : UdpService) (r : UdpClientContextRef) : Decidable (s.Registered r) :=
  inferInstanceAs (Decidable (_ = _))

/-- The registry invariant. -/
structure Consistent (s : UdpService) : Prop where
  /-- The two maps hold the same contexts, by session id and by address key. -/
  index : DoubleIndex s.idMap s.addrMap (fun r => (s.heap r).sessionId)
    (fun r => sockAddrKey (s.heap r).addr)
  /-- Registered contexts have been created. -/
  allocated : ∀ r : ℕ, s.Registered r → r < s.next
  /-- The `r`-th context got the id `r + 1`. -/
  issued : ∀ r : ℕ, r < s.next → (s.heap r).sessionId = UInt64.ofNat (r + 1)
  /-- The counter is one ahead of the number of contexts. -/
  counter : s.sCounter = UInt64.ofNat (s.next + 1)

/-- The empty registry. -/
theorem consistent_init : Consistent init where
  index := .empty
  allocated r h := by simp [Registered, init] at h
  issued r h := absurd h (Nat.not_lt_zero r)
  counter := rfl

variable {s : UdpService} {r r' : ℕ}

/-! ## What the invariant says -/

namespace Consistent

/-- What is filed under an id is registered. -/
theorem registered_of_idMap (h : s.Consistent) {id : UInt64} (hr : s.idMap.lookup id = some r) :
    s.Registered r :=
  h.index.mem_members_of_left hr

/-- What is filed under an address is registered. -/
theorem registered_of_addrMap (h : s.Consistent) {key : UInt32}
    (hr : s.addrMap.lookup key = some r) : s.Registered r :=
  h.index.mem_members_of_right hr

/-- An entry of `_idMap` is filed under the id of its context. -/
theorem sessionId_eq (h : s.Consistent) {id : UInt64} (hr : s.idMap.lookup id = some r) :
    (s.heap r).sessionId = id :=
  (h.index.left id r hr).1

/-- An entry of `_addrMap` is filed under the key of its address. -/
theorem key_eq (h : s.Consistent) {key : UInt32} (hr : s.addrMap.lookup key = some r) :
    sockAddrKey (s.heap r).addr = key :=
  (h.index.right key r hr).1

/-- A registered context is also filed under its address key. -/
theorem addrMap_of_registered (h : s.Consistent) (hr : s.Registered r) :
    s.addrMap.lookup (sockAddrKey (s.heap r).addr) = some r :=
  (h.index.left _ r hr).2

/-- `_addrMap` holds the registered contexts under their address keys. -/
theorem addrMap_eq_some_iff (h : s.Consistent) {key : UInt32} :
    s.addrMap.lookup key = some r ↔ s.Registered r ∧ sockAddrKey (s.heap r).addr = key := by
  constructor
  · exact fun hr => ⟨h.registered_of_addrMap hr, h.key_eq hr⟩
  · rintro ⟨hr, rfl⟩
    exact h.addrMap_of_registered hr

/-- Distinct registered contexts have distinct address keys. -/
theorem eq_of_key_eq (h : s.Consistent) (hr : s.Registered r) (hr' : s.Registered r')
    (hkey : sockAddrKey (s.heap r).addr = sockAddrKey (s.heap r').addr) : r = r' :=
  h.index.injOn_right hr hr' hkey

/-- No two contexts have the same session id. -/
theorem sessionId_inj (h : s.Consistent) (hbound : s.next < 2 ^ 64) (hr : r < s.next)
    (hr' : r' < s.next) (heq : (s.heap r).sessionId = (s.heap r').sessionId) : r = r' := by
  rw [h.issued r hr, h.issued r' hr'] at heq
  have := congrArg UInt64.toNat heq
  rw [UInt64.toNat_ofNat', UInt64.toNat_ofNat', Nat.mod_eq_of_lt (by omega),
    Nat.mod_eq_of_lt (by omega)] at this
  omega

/-- The next id to be issued is not in use. -/
theorem sCounter_free (h : s.Consistent) (hbound : s.next + 1 < 2 ^ 64) :
    s.idMap.lookup s.sCounter = none := by
  rcases hlook : s.idMap.lookup s.sCounter with _ | r
  · rfl
  · have hlt := h.allocated r (h.registered_of_idMap hlook)
    have hid := h.sessionId_eq hlook
    rw [h.issued r hlt, h.counter] at hid
    have := congrArg UInt64.toNat hid
    rw [UInt64.toNat_ofNat', UInt64.toNat_ofNat', Nat.mod_eq_of_lt (by omega),
      Nat.mod_eq_of_lt (by omega)] at this
    omega

/-- Registering files nothing else under an id that has been issued. -/
theorem lookup_registerClient_of_issued (h : s.Consistent) {addr : SockAddrIn} {now : ℤ}
    (hbound : (s.registerClient addr now).2.next < 2 ^ 64) (hr : r < s.next) :
    (s.registerClient addr now).2.idMap.lookup (s.heap r).sessionId =
      s.idMap.lookup (s.heap r).sessionId := by
  rcases hlook : s.addrMap.lookup (sockAddrKey addr) with _ | r₀
  · rw [registerClient_of_none hlook] at hbound ⊢
    simp only at hbound
    apply AList.lookup_insert_ne
    rw [h.issued r hr, h.counter]
    intro heq
    have := congrArg UInt64.toNat heq
    rw [UInt64.toNat_ofNat', UInt64.toNat_ofNat', Nat.mod_eq_of_lt (by omega),
      Nat.mod_eq_of_lt (by omega)] at this
    omega
  · rw [registerClient_of_some hlook]
    rfl

/-- `SendTo` with the id of a registered context reaches its address. -/
theorem sendTo_of_registered {β : Type} (hr : s.Registered r) (buf : β) :
    s.sendTo (s.heap r).sessionId buf = [((s.heap r).addr, buf)] := by
  unfold sendTo findById
  rw [show s.idMap.lookup (s.heap r).sessionId = some r from hr]

end Consistent

/-! ## What the operations keep -/

/-- An assignment that keeps the id and the address of a context keeps who is registered. -/
theorem registered_modifyCtx_iff {f : UdpClientContext → UdpClientContext}
    (hid : (f (s.heap r)).sessionId = (s.heap r).sessionId) :
    (s.modifyCtx r f).Registered r' ↔ s.Registered r' := by
  unfold Registered
  by_cases h : r' = r
  · subst h
    rw [modifyCtx_heap_self, modifyCtx_idMap, hid]
  · rw [modifyCtx_heap_of_ne h, modifyCtx_idMap]

/-- An assignment that keeps the id and the address keeps the registry consistent. -/
theorem Consistent.modifyCtx (h : s.Consistent) {f : UdpClientContext → UdpClientContext}
    (hid : (f (s.heap r)).sessionId = (s.heap r).sessionId)
    (haddr : (f (s.heap r)).addr = (s.heap r).addr) : (s.modifyCtx r f).Consistent := by
  have hsame : ∀ r', ((s.modifyCtx r f).heap r').sessionId = (s.heap r').sessionId ∧
      ((s.modifyCtx r f).heap r').addr = (s.heap r').addr := by
    intro r'
    by_cases hr : r' = r
    · subst hr
      rw [modifyCtx_heap_self]
      exact ⟨hid, haddr⟩
    · rw [modifyCtx_heap_of_ne hr]
      exact ⟨rfl, rfl⟩
  constructor
  · exact h.index.congr (fun r' _ => (hsame r').1) fun r' _ => by rw [(hsame r').2]
  · intro r' hr'
    exact h.allocated r' ((registered_modifyCtx_iff hid).mp hr')
  · intro r' hr'
    rw [(hsame r').1]
    exact h.issued r' hr'
  · exact h.counter

/-- Registering keeps the registry consistent while ids last. -/
theorem Consistent.registerClient (h : s.Consistent) (addr : SockAddrIn) (now : ℤ)
    (hbound : (s.registerClient addr now).2.next < 2 ^ 64) :
    (s.registerClient addr now).2.Consistent := by
  rcases hlook : s.addrMap.lookup (sockAddrKey addr) with _ | r
  · rw [registerClient_of_none hlook] at hbound ⊢
    have hfree := h.sCounter_free hbound
    -- the new context sits at a fresh address, so the old ones keep their attributes
    have hold : ∀ r ∈ members s.idMap fun r => (s.heap r).sessionId, r ≠ s.next :=
      fun r hr => Nat.ne_of_lt (h.allocated r hr)
    have hnew : ∀ c, Function.update s.heap s.next c s.next = c := fun c => by simp
    constructor
    · have hindex : DoubleIndex s.idMap s.addrMap
          (fun r => (Function.update s.heap s.next
            { sessionId := s.sCounter, addr, lastAliveMs := now } r).sessionId)
          (fun r => sockAddrKey (Function.update s.heap s.next
            { sessionId := s.sCounter, addr, lastAliveMs := now } r).addr) :=
        h.index.congr (fun r hr => by rw [Function.update_of_ne (hold r hr)])
          (fun r hr => by rw [Function.update_of_ne (hold r hr)])
      have := hindex.insert (r := s.next) (by rw [hnew]; exact hfree) (by rw [hnew]; exact hlook)
      rwa [hnew] at this
    · intro r hr
      simp only [Registered] at hr ⊢
      rcases lookup_insert_eq_some_iff.mp hr with ⟨-, rfl⟩ | ⟨-, hr⟩
      · exact Nat.lt_succ_self _
      · exact Nat.lt_succ_of_lt (h.allocated r (h.registered_of_idMap hr))
    · intro r hr
      rcases Nat.lt_succ_iff_lt_or_eq.mp hr with hlt | rfl
      · simp only [Function.update_of_ne (Nat.ne_of_lt hlt)]
        exact h.issued r hlt
      · simp only [Function.update_self]
        exact h.counter
    · simp only [h.counter]
      rw [UInt64.ofNat_add s.next.succ]
      rfl
  · rw [registerClient_of_some hlook]
    exact Consistent.modifyCtx (f := fun ctx => { ctx with lastAliveMs := now }) h rfl rfl

/-- Removing a client keeps the registry consistent. -/
theorem Consistent.removeClient (h : s.Consistent) (id : UInt64) :
    (s.removeClient id).Consistent := by
  rcases hlook : s.idMap.lookup id with _ | r
  · rw [removeClient_of_none hlook]
    exact h
  · rw [removeClient_of_some hlook]
    have hid := h.sessionId_eq hlook
    subst hid
    constructor
    · exact h.index.erase hlook
    · intro r' hr'
      exact h.allocated r' (lookup_erase_eq_some_iff.mp hr').2
    · exact h.issued
    · exact h.counter

/-- Removing a list of clients keeps the registry consistent. -/
theorem Consistent.foldl_removeClient (h : s.Consistent) (ids : List UInt64) :
    (ids.foldl UdpService.removeClient s).Consistent := by
  induction ids generalizing s with
  | nil => exact h
  | cons id ids ih => exact ih (h.removeClient id)

/-- Removing a client removes exactly the context with that id. -/
theorem registered_removeClient_iff {id : UInt64} :
    (s.removeClient id).Registered r ↔ s.Registered r ∧ (s.heap r).sessionId ≠ id := by
  rcases hlook : s.idMap.lookup id with _ | r'
  · rw [removeClient_of_none hlook]
    constructor
    · intro hr
      refine ⟨hr, fun heq => ?_⟩
      have hr' : s.idMap.lookup (s.heap r).sessionId = some r := hr
      rw [heq, hlook] at hr'
      cases hr'
    · exact fun hr => hr.1
  · rw [removeClient_of_some hlook]
    show (s.idMap.erase id).lookup (s.heap r).sessionId = some r ↔ _
    rw [lookup_erase_eq_some_iff, and_comm]
    rfl

/-- The same for a list of clients. -/
theorem registered_foldl_removeClient_iff {ids : List UInt64} :
    (ids.foldl UdpService.removeClient s).Registered r ↔
      s.Registered r ∧ (s.heap r).sessionId ∉ ids := by
  induction ids generalizing s with
  | nil => simp
  | cons id ids ih =>
      rw [List.foldl_cons, ih, registered_removeClient_iff,
        (removeClient_frame s id).1, List.mem_cons, not_or, and_assoc]

/-- Registering creates at most one context. -/
theorem registerClient_next (s : UdpService) (addr : SockAddrIn) (now : ℤ) :
    (s.registerClient addr now).2.next = s.next ∨
      (s.registerClient addr now).2.next = s.next + 1 := by
  rcases hlook : s.addrMap.lookup (sockAddrKey addr) with _ | r
  · rw [registerClient_of_none hlook]
    exact .inr rfl
  · rw [registerClient_of_some hlook]
    exact .inl rfl

/-- A registration takes no context back. -/
theorem next_le_registerClient (s : UdpService) (addr : SockAddrIn) (now : ℤ) :
    s.next ≤ (s.registerClient addr now).2.next := by
  rcases s.registerClient_next addr now with h | h <;> omega

/-- Registering keeps the id and the address of every context that exists. -/
theorem registerClient_attrs (addr : SockAddrIn) (now : ℤ) (hr : r < s.next) :
    ((s.registerClient addr now).2.heap r).sessionId = (s.heap r).sessionId ∧
      ((s.registerClient addr now).2.heap r).addr = (s.heap r).addr := by
  rcases hlook : s.addrMap.lookup (sockAddrKey addr) with _ | r₀
  · rw [registerClient_of_none hlook]
    simp only [Function.update_of_ne (Nat.ne_of_lt hr), and_self]
  · rw [registerClient_of_some hlook]
    by_cases heq : r = r₀
    · subst heq
      simp only [modifyCtx_heap_self, and_self]
    · simp only [modifyCtx_heap_of_ne heq, and_self]

/-- Who is registered stays registered. -/
theorem Consistent.registered_registerClient (h : s.Consistent) {addr : SockAddrIn} {now : ℤ}
    (hbound : (s.registerClient addr now).2.next < 2 ^ 64) (hr : s.Registered r) :
    (s.registerClient addr now).2.Registered r := by
  have hattrs := registerClient_attrs addr now (h.allocated r hr)
  unfold Registered
  rw [hattrs.1]
  rcases hlook : s.addrMap.lookup (sockAddrKey addr) with _ | r₀
  · rw [registerClient_of_none hlook] at hbound ⊢
    refine lookup_insert_eq_some_iff.mpr (.inr ⟨?_, hr⟩)
    intro heq
    have hfree := h.sCounter_free hbound
    rw [← heq, show s.idMap.lookup (s.heap r).sessionId = some r from hr] at hfree
    cases hfree
  · rw [registerClient_of_some hlook]
    exact hr

/-- Registering changes no context but the one it returns. -/
theorem registerClient_heap_of_ne {addr : SockAddrIn} {now : ℤ}
    (h : r ≠ (s.registerClient addr now).1) :
    (s.registerClient addr now).2.heap r = s.heap r := by
  rcases hlook : s.addrMap.lookup (sockAddrKey addr) with _ | r₀
  · rw [registerClient_of_none hlook] at h ⊢
    exact Function.update_of_ne h _ _
  · rw [registerClient_of_some hlook] at h ⊢
    simp only [modifyCtx_heap_of_ne h]

/-- The context that `RegisterClient` returns is filed under the key of the address. -/
theorem registerClient_addrMap {addr : SockAddrIn} {now : ℤ} :
    (s.registerClient addr now).2.addrMap.lookup (sockAddrKey addr) =
      some (s.registerClient addr now).1 := by
  rcases hlook : s.addrMap.lookup (sockAddrKey addr) with _ | r
  · rw [registerClient_of_none hlook]
    exact AList.lookup_insert _
  · rw [registerClient_of_some hlook]
    exact hlook

/-! ## Allocation

Unlike `Consistent`, this holds however many contexts have been created. -/

/-- The contexts filed under an address have been created. -/
def Allocated (s : UdpService) : Prop :=
  ∀ key, ∀ r : ℕ, s.addrMap.lookup key = some r → r < s.next

/-- At the start nothing is filed under an address. -/
theorem allocated_init : Allocated init := by
  intro key r h
  simp [init] at h

/-- A registration files a context that it has created. -/
theorem Allocated.registerClient {s : UdpService} (h : Allocated s) (addr : SockAddrIn) (now : ℤ) :
    Allocated (s.registerClient addr now).2 := by
  rcases hlook : s.addrMap.lookup (sockAddrKey addr) with _ | r₀
  · rw [registerClient_of_none hlook]
    intro key r hr
    rcases lookup_insert_eq_some_iff.mp hr with ⟨-, rfl⟩ | ⟨-, hr⟩
    · exact Nat.lt_succ_self _
    · exact Nat.lt_succ_of_lt (h key r hr)
  · rw [registerClient_of_some hlook]
    exact h

/-- Removals file nothing under an address. -/
theorem Allocated.foldl_removeClient {s : UdpService} (h : Allocated s) (ids : List UInt64) :
    Allocated (ids.foldl UdpService.removeClient s) := by
  induction ids generalizing s with
  | nil => exact h
  | cons id ids ih =>
      apply ih
      rcases hlook : s.idMap.lookup id with _ | r₀
      · rw [removeClient_of_none hlook]
        exact h
      · rw [removeClient_of_some hlook]
        exact fun key r hr => h key r (lookup_erase_eq_some_iff.mp hr).2

/-- The contexts filed under an id have been created with that id. -/
def Filed (s : UdpService) : Prop :=
  ∀ id, ∀ r : ℕ, s.idMap.lookup id = some r → r < s.next ∧ (s.heap r).sessionId = id

/-- At the start nothing is filed under an id. -/
theorem filed_init : Filed init := by
  intro id r h
  simp [init] at h

/-- An assignment that keeps the id keeps what is filed under ids. -/
theorem Filed.modifyCtx {s : UdpService} {r : ℕ} {f : UdpClientContext → UdpClientContext}
    (h : Filed s) (hid : (f (s.heap r)).sessionId = (s.heap r).sessionId) :
    Filed (s.modifyCtx r f) := by
  intro id r' hr'
  obtain ⟨hlt, hsession⟩ := h id r' hr'
  refine ⟨hlt, ?_⟩
  by_cases heq : r' = r
  · subst heq
    rw [modifyCtx_heap_self, hid, hsession]
  · rw [modifyCtx_heap_of_ne heq, hsession]

/-- A registration files a context under the id that it gave to it. -/
theorem Filed.registerClient {s : UdpService} (h : Filed s) (addr : SockAddrIn) (now : ℤ) :
    Filed (s.registerClient addr now).2 := by
  rcases hlook : s.addrMap.lookup (sockAddrKey addr) with _ | r₀
  · rw [registerClient_of_none hlook]
    intro id r hr
    rcases lookup_insert_eq_some_iff.mp hr with ⟨rfl, rfl⟩ | ⟨-, hr⟩
    · exact ⟨Nat.lt_succ_self _, by simp only [Function.update_self]⟩
    · obtain ⟨hlt, hsession⟩ := h id r hr
      refine ⟨Nat.lt_succ_of_lt hlt, ?_⟩
      simp only [Function.update_of_ne (Nat.ne_of_lt hlt), hsession]
  · rw [registerClient_of_some hlook]
    exact Filed.modifyCtx (f := fun ctx => { ctx with lastAliveMs := now }) h rfl

/-- Removing a client takes its id out of `_idMap`, and no other. -/
theorem lookup_removeClient_eq_some_iff {s : UdpService} {id id' : UInt64} {r : ℕ} :
    (s.removeClient id').idMap.lookup id = some r ↔ s.idMap.lookup id = some r ∧ id ≠ id' := by
  rcases hlook : s.idMap.lookup id' with _ | r₀
  · rw [removeClient_of_none hlook]
    constructor
    · intro h
      refine ⟨h, ?_⟩
      rintro rfl
      rw [hlook] at h
      cases h
    · exact fun h => h.1
  · rw [removeClient_of_some hlook, and_comm]
    exact lookup_erase_eq_some_iff

/-- The same for a list of clients. -/
theorem lookup_foldl_removeClient_eq_some_iff {s : UdpService} {ids : List UInt64} {id : UInt64}
    {r : ℕ} : (ids.foldl UdpService.removeClient s).idMap.lookup id = some r ↔
      s.idMap.lookup id = some r ∧ id ∉ ids := by
  induction ids generalizing s with
  | nil => simp
  | cons id' ids ih =>
      rw [List.foldl_cons, ih, lookup_removeClient_eq_some_iff, List.mem_cons, not_or, and_assoc]

/-- What is filed after a removal was filed before it. -/
theorem lookup_of_lookup_removeClient {s : UdpService} {id id' : UInt64} {r : ℕ}
    (h : (s.removeClient id).idMap.lookup id' = some r) : s.idMap.lookup id' = some r :=
  (lookup_removeClient_eq_some_iff.mp h).1

/-- A removed id is not filed. -/
theorem lookup_removeClient_self (s : UdpService) (id : UInt64) :
    (s.removeClient id).idMap.lookup id = none :=
  Option.eq_none_iff_forall_ne_some.mpr fun _ h => (lookup_removeClient_eq_some_iff.mp h).2 rfl

/-- A removal files nothing under an id. -/
theorem Filed.removeClient {s : UdpService} (h : Filed s) (id : UInt64) :
    Filed (s.removeClient id) := by
  intro id' r hr
  obtain ⟨hheap, hnext, -⟩ := removeClient_frame s id
  rw [hheap, hnext]
  exact h id' r (lookup_of_lookup_removeClient hr)

/-- A registration files nothing but the context that it returns. -/
theorem lookup_of_lookup_registerClient {s : UdpService} {addr : SockAddrIn} {now : ℤ} {id : UInt64}
    {r : ℕ} (h : (s.registerClient addr now).2.idMap.lookup id = some r)
    (hne : r ≠ (s.registerClient addr now).1) : s.idMap.lookup id = some r := by
  rcases hlook : s.addrMap.lookup (sockAddrKey addr) with _ | r₀
  · rw [registerClient_of_none hlook] at h hne
    rcases lookup_insert_eq_some_iff.mp h with ⟨-, rfl⟩ | ⟨-, h⟩
    · exact absurd rfl hne
    · exact h
  · rwa [registerClient_of_some hlook] at h

/-- A registration refreshes the context that it returns. -/
theorem registerClient_lastAliveMs (s : UdpService) (addr : SockAddrIn) (now : ℤ) :
    ((s.registerClient addr now).2.heap (s.registerClient addr now).1).lastAliveMs = now := by
  rcases hlook : s.addrMap.lookup (sockAddrKey addr) with _ | r₀
  · simp only [registerClient_of_none hlook, Function.update_self]
  · simp only [registerClient_of_some hlook, modifyCtx_heap_self]

end UdpService

end CowboyPoker.ServerCore
