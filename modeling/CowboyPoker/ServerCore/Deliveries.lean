import CowboyPoker.ServerCore.Registry

/-!
# Who gets a broadcast

* `SentOnceTo s sent P` — of the datagrams `sent`, exactly one goes to the address of each context
  that satisfies `P`, and none goes anywhere else.
* `sentOnceTo_broadcast`, `sentOnceTo_broadcastExcept` — the two broadcasts of a consistent registry.
  Both exclude by session id and deliver by address: that no address gets two datagrams, and that an
  excluded session gets none, holds because registered contexts have distinct address keys.
* `SentOnceTo.ne_addr` — a registered context which is not meant gets nothing.
-/

namespace CowboyPoker.ServerCore

open CowboyPoker.Found

namespace UdpService

variable {β : Type} {s : UdpService} {sent : List (SockAddrIn × β)} {P : UdpClientContextRef → Prop}
  {r : UdpClientContextRef}

/-- Exactly one of the datagrams goes to each context that satisfies `P`, and none elsewhere. -/
structure SentOnceTo (s : UdpService) (sent : List (SockAddrIn × β))
    (P : UdpClientContextRef → Prop) : Prop where
  /-- One datagram to each. -/
  once : ∀ r, P r → (sent.map Prod.fst).count (s.heap r).addr = 1
  /-- No other datagram. -/
  only : ∀ x ∈ sent, ∃ r, P r ∧ x.1 = (s.heap r).addr

/-- An assignment that keeps the address of a context keeps where a broadcast goes. -/
theorem broadcastExcept_modifyCtx {f : UdpClientContext → UdpClientContext}
    (hf : (f (s.heap r)).addr = (s.heap r).addr) (except : UInt64) (buf : β) :
    (s.modifyCtx r f).broadcastExcept except buf = s.broadcastExcept except buf := by
  have haddr : ∀ r', ((s.modifyCtx r f).heap r').addr = (s.heap r').addr := by
    intro r'
    by_cases heq : r' = r
    · subst heq
      rw [modifyCtx_heap_self, hf]
    · rw [modifyCtx_heap_of_ne heq]
  simp only [broadcastExcept, modifyCtx_idMap, haddr]

/-- A registered context other than the ones that are meant gets nothing. -/
theorem SentOnceTo.ne_addr (h : SentOnceTo s sent P) (hs : s.Consistent) (hr : s.Registered r)
    (hP : ∀ r', P r' → s.Registered r' ∧ r' ≠ r) : ∀ x ∈ sent, x.1 ≠ (s.heap r).addr := by
  intro x hx heq
  obtain ⟨r', hr', haddr⟩ := h.only x hx
  obtain ⟨hreg, hne⟩ := hP r' hr'
  have hkey : (s.heap r').addr = (s.heap r).addr := haddr.symm.trans heq
  exact hne (hs.eq_of_key_eq hreg hr (congrArg sockAddrKey hkey))

namespace Consistent

/-- Datagrams to some of the entries of `_idMap`. -/
theorem sentOnceTo (h : s.Consistent) {entries : List (Σ _ : UInt64, UdpClientContextRef)}
    (hsub : entries.Sublist s.idMap.entries) (buf : β) (hP : ∀ r, P r ↔ ∃ kv ∈ entries, kv.2 = r) :
    SentOnceTo s (entries.map fun kv => ((s.heap kv.2).addr, buf)) P := by
  have hkeys : (entries.map fun kv => sockAddrKey (s.heap kv.2).addr).Nodup :=
    h.index.nodup_map.sublist (hsub.map _)
  have haddrs : (entries.map fun kv => (s.heap kv.2).addr).Nodup := by
    apply List.Nodup.of_map sockAddrKey
    rwa [List.map_map]
  constructor
  · intro r hr
    obtain ⟨kv, hmem, rfl⟩ := (hP r).mp hr
    rw [List.map_map]
    exact List.count_eq_one_of_mem haddrs (List.mem_map_of_mem hmem)
  · intro x hx
    obtain ⟨kv, hmem, rfl⟩ := List.mem_map.mp hx
    exact ⟨kv.2, (hP kv.2).mpr ⟨kv, hmem, rfl⟩, rfl⟩

/-- **A broadcast** goes once to every registered context. -/
theorem sentOnceTo_broadcast (h : s.Consistent) (buf : β) :
    SentOnceTo s (s.broadcast buf) s.Registered := by
  refine h.sentOnceTo (List.Sublist.refl _) buf fun r => ?_
  constructor
  · intro hr
    exact ⟨⟨_, r⟩, AList.mem_lookup_iff.mp hr, rfl⟩
  · rintro ⟨⟨id, r⟩, hmem, rfl⟩
    exact h.registered_of_idMap (AList.mem_lookup_iff.mpr hmem)

/-- **A broadcast with an exception** goes once to every other registered context. -/
theorem sentOnceTo_broadcastExcept (h : s.Consistent) (hr : s.Registered r) (buf : β) :
    SentOnceTo s (s.broadcastExcept (s.heap r).sessionId buf) fun r' => s.Registered r' ∧ r' ≠ r := by
  refine h.sentOnceTo List.filter_sublist buf fun r' => ?_
  simp only [List.mem_filter, decide_eq_true_eq]
  constructor
  · rintro ⟨hr', hne⟩
    refine ⟨⟨_, r'⟩, ⟨AList.mem_lookup_iff.mp hr', fun heq => hne ?_⟩, rfl⟩
    have hlook : s.idMap.lookup (s.heap r').sessionId = some r' := hr'
    rw [show (s.heap r').sessionId = (s.heap r).sessionId from heq,
      show s.idMap.lookup (s.heap r).sessionId = some r from hr] at hlook
    exact (Option.some.inj hlook).symm
  · rintro ⟨⟨id, r'⟩, ⟨hmem, hne⟩, rfl⟩
    have hlook := AList.mem_lookup_iff.mpr hmem
    refine ⟨h.registered_of_idMap hlook, ?_⟩
    rintro rfl
    exact hne (h.sessionId_eq hlook).symm

end Consistent

end UdpService

end CowboyPoker.ServerCore
