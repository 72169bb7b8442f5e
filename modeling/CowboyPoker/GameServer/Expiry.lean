import CowboyPoker.GameServer.TwoThreads

/-!
# Expiry while datagrams arrive

* `acceptances` — the contexts that a run accepted datagrams on, with the times.
* `RefreshesPending` — a step accepts a datagram on a session whose id the `Tick` in progress has
  collected, but not removed yet. `Tick` decides under one lock and removes under another, and does
  not look again.
* `removesSilent_of_not_refreshesPending` — along a run without such steps, a context is removed only
  when no datagram has been accepted on it within the timeout. The invariant is `Freshness`.
-/

namespace CowboyPoker.GameServer

open CowboyPoker.Found
open CowboyPoker.ServerCore
open UdpService

variable {ρ : Type} {B : Backend ρ}

/-- The contexts that datagrams were accepted on, with the times. -/
def acceptances (h : List (Entry (Threads ρ) Action Shown)) : List (UdpClientContextRef × ℤ) :=
  h.filterMap fun t => t.output.accepted.map fun r => (r, t.before.clock)

/-- The id of the session that the receiving thread is about to accept a datagram on. -/
def Threads.refreshes (s : Threads ρ) : Option UInt64 :=
  match s.receiver with
  | .received d =>
      if udpPacketHeaderSize ≤ d.data.length ∧ d.header.sessionId = 0 then
        match s.service.addrMap.lookup (sockAddrKey d.senderAddr) with
        | some r => some (s.service.heap r).sessionId
        | none => some s.service.sCounter
      else none
  | .found d r =>
      if d.header.sessionId ≠ 0 ∧
          (d.header.sequence = 0 ∨ (s.service.heap r).lastSeq < d.header.sequence) then
        some (s.service.heap r).sessionId
      else none
  | _ => none

/-- The step accepts a datagram on a session that the `Tick` in progress is about to remove. -/
def RefreshesPending (t : Entry (Threads ρ) Action Shown) : Prop :=
  match t.input with
  | .receiver => ∃ id ∈ t.before.refreshes, id ∈ t.before.main.pending
  | _ => False

instance : (t : Entry (Threads ρ) Action Shown) → Decidable (RefreshesPending t)
  | ⟨s, .receiver, _, _⟩ =>
      inferInstanceAs (Decidable (∃ id ∈ s.refreshes, id ∈ s.main.pending))
  | ⟨_, .main, _, _⟩ => inferInstanceAs (Decidable False)
  | ⟨_, .elapse _, _, _⟩ => inferInstanceAs (Decidable False)
  | ⟨_, .arrive _, _, _⟩ => inferInstanceAs (Decidable False)

/-- Whenever a context is removed, every datagram accepted on it is older than the timeout. -/
def RemovesSilent (h : List (Entry (Threads ρ) Action Shown)) : Prop :=
  ∀ pre t post, h = pre ++ t :: post → ∀ r, t.output.removed = some r →
    ∀ time, (r, time) ∈ acceptances pre → sessionTimeoutMs < t.before.clock - time

/-! ## The invariant -/

/-- What is known of the acceptances `h` when the process is in `s`. -/
structure Freshness (h : List (Entry (Threads ρ) Action Shown)) (s : Threads ρ) : Prop where
  /-- Filed contexts have been created. -/
  filed : Filed s.service
  /-- The last packet of a context is not older than any datagram accepted on it. -/
  past : ∀ r time, (r, time) ∈ acceptances h →
    time ≤ s.clock ∧ time ≤ (s.service.heap r).lastAliveMs
  /-- `Tick` compares with a time that is not in the future. -/
  ticking : ∀ now, s.main = .ticking now → now ≤ s.clock
  /-- Nothing was accepted lately on a session that is about to be removed. -/
  silent : ∀ id ∈ s.main.pending, ∀ r, s.service.idMap.lookup id = some r →
    ∀ time, (r, time) ∈ acceptances h → sessionTimeoutMs < s.clock - time

theorem freshness_init (rc : RedisClient ρ) (clock : ℤ) : Freshness [] (.init rc clock) where
  filed := filed_init
  past _ _ h := absurd h List.not_mem_nil
  ticking _ h := nomatch h
  silent _ h := absurd h List.not_mem_nil

theorem acceptances_snoc (h : List (Entry (Threads ρ) Action Shown))
    (t : Entry (Threads ρ) Action Shown) :
    acceptances (h ++ [t]) =
      acceptances h ++ (t.output.accepted.map fun r => (r, t.before.clock)).toList := by
  rw [acceptances, acceptances, List.filterMap_append]
  rcases haccepted : t.output.accepted with _ | r <;> simp [haccepted]

namespace Freshness

variable {h : List (Entry (Threads ρ) Action Shown)} {s : Threads ρ}
  {t : Entry (Threads ρ) Action Shown}

/-- A step that accepts nothing. -/
theorem keep (hinv : Freshness h s) (haccepted : t.output.accepted = none)
    (hfiled : Filed t.after.service) (hclock : s.clock ≤ t.after.clock)
    (hheap : ∀ r, (t.after.service.heap r).lastAliveMs = (s.service.heap r).lastAliveMs ∨
      (t.after.service.heap r).lastAliveMs = s.clock)
    (hticking : ∀ now, t.after.main = .ticking now → now ≤ t.after.clock)
    (hsilent : ∀ id ∈ t.after.main.pending, ∀ r, t.after.service.idMap.lookup id = some r →
      ∀ time, (r, time) ∈ acceptances h → sessionTimeoutMs < s.clock - time) :
    Freshness (h ++ [t]) t.after := by
  have hsame : acceptances (h ++ [t]) = acceptances h := by
    rw [acceptances_snoc, haccepted]
    exact List.append_nil _
  refine ⟨hfiled, fun r time hmem => ?_, hticking, fun id hid r hr time hmem => ?_⟩
  · rw [hsame] at hmem
    obtain ⟨hnow, halive⟩ := hinv.past r time hmem
    rcases hheap r with heq | heq <;> omega
  · rw [hsame] at hmem
    have := hsilent id hid r hr time hmem
    omega

/-- A step that accepts a datagram on a session which is not about to be removed. -/
theorem refresh (hinv : Freshness h s) {r : ℕ} (hbefore : t.before = s)
    (haccepted : t.output.accepted = some r) (hfiled : Filed t.after.service)
    (hclock : t.after.clock = s.clock) (hmain : t.after.main = s.main)
    (halive : (t.after.service.heap r).lastAliveMs = s.clock)
    (hheap : ∀ r' ≠ r, t.after.service.heap r' = s.service.heap r')
    (hlook : ∀ id, ∀ r' ≠ r, t.after.service.idMap.lookup id = some r' →
      s.service.idMap.lookup id = some r')
    (hpending : (t.after.service.heap r).sessionId ∉ s.main.pending) :
    Freshness (h ++ [t]) t.after := by
  have hsnoc : acceptances (h ++ [t]) = acceptances h ++ [(r, s.clock)] := by
    rw [acceptances_snoc, haccepted, hbefore]
    rfl
  constructor
  · exact hfiled
  · intro r' time hmem
    rw [hclock]
    by_cases heq : r' = r
    · subst heq
      rw [halive]
      rw [hsnoc] at hmem
      rcases List.mem_append.mp hmem with hmem | hmem
      · exact ⟨(hinv.past _ _ hmem).1, (hinv.past _ _ hmem).1⟩
      · cases List.mem_singleton.mp hmem
        exact ⟨le_rfl, le_rfl⟩
    · rw [hheap r' heq]
      rw [hsnoc] at hmem
      rcases List.mem_append.mp hmem with hmem | hmem
      · exact hinv.past _ _ hmem
      · cases List.mem_singleton.mp hmem
        exact absurd rfl heq
  · intro now hnow
    rw [hmain] at hnow
    rw [hclock]
    exact hinv.ticking now hnow
  · intro id hid r' hr' time hmem
    rw [hmain] at hid
    rw [hclock]
    -- the refreshed context is not the one that is about to be removed
    have hne : r' ≠ r := by
      rintro rfl
      rw [(hfiled id r' hr').2] at hpending
      exact hpending hid
    rw [hsnoc] at hmem
    rcases List.mem_append.mp hmem with hmem | hmem
    · exact hinv.silent id hid r' (hlook id r' hne hr') time hmem
    · cases List.mem_singleton.mp hmem
      exact absurd rfl hne

end Freshness

/-- A registration refreshes the session of the context that it returns. -/
theorem refreshes_of_received {s : Threads ρ} {d : Datagram} (h : s.receiver = .received d)
    (hlen : udpPacketHeaderSize ≤ d.data.length) (hid : d.header.sessionId = 0) :
    s.refreshes = some ((s.service.registerClient d.senderAddr s.clock).2.heap
      (s.service.registerClient d.senderAddr s.clock).1).sessionId := by
  simp only [Threads.refreshes, h]
  rw [if_pos ⟨hlen, hid⟩]
  rcases hlook : s.service.addrMap.lookup (sockAddrKey d.senderAddr) with _ | r
  · simp only [registerClient_of_none hlook, Function.update_self]
  · simp only [registerClient_of_some hlook, modifyCtx_heap_self]

/-- **The step lemma.** -/
theorem freshness_step {h : List (Entry (Threads ρ) Action Shown)} {s : Threads ρ} {a : Action}
    (hinv : Freshness h s) (hcond : ¬ RefreshesPending ((threads B).entry s a)) :
    Freshness (h ++ [(threads B).entry s a]) ((threads B).step s a).1 := by
  have hcase := threadsCase B s a
  simp only [Transducer.entry, threads] at hcond ⊢
  generalize s.step B a = next at hcase hcond ⊢
  cases hcase with
  | quiet s' hservice hclock hmain =>
      refine hinv.keep rfl ?_ hclock ?_ ?_ ?_
      · rw [hservice]
        exact hinv.filed
      · intro r
        rw [hservice]
        exact .inl rfl
      · intro now hnow
        rw [hmain] at hnow
        exact (hinv.ticking now hnow).trans hclock
      · rw [hservice, hmain]
        exact hinv.silent
  | registered d ha hrecv hlen hid =>
      subst ha
      refine hinv.refresh rfl rfl (hinv.filed.registerClient _ _) rfl rfl
        (registerClient_lastAliveMs _ _ _) (fun r' hne => registerClient_heap_of_ne hne)
        (fun id r' hne hr' => lookup_of_lookup_registerClient hr' hne) ?_
      intro hmem
      exact hcond ⟨_, refreshes_of_received hrecv hlen hid, hmem⟩
  | accepted d r ha hrecv hid hseq =>
      subst ha
      refine hinv.refresh rfl rfl ?_ rfl rfl ?_ ?_ (fun _ _ _ hr' => hr') ?_
      · exact hinv.filed.modifyCtx (f := fun ctx => { ctx with
          lastSeq := d.header.sequence
          lastAliveMs := s.clock }) rfl
      · simp only [modifyCtx_heap_self]
      · intro r' hne
        simp only [modifyCtx_heap_of_ne hne]
      · simp only [modifyCtx_heap_self]
        intro hmem
        refine hcond ⟨_, ?_, hmem⟩
        simp only [Threads.refreshes, hrecv]
        exact if_pos ⟨hid, hseq⟩
  | dispatched d r hrecv =>
      have hhandled : Handled B _ _ s.clock (s.service.heap r) s.redis
          (handlePacket B (s.service.heap r) s.redis d.data d.data.length s.clock) :=
        handled_handlePacket d.data d.data.length
      refine hinv.keep rfl (hinv.filed.modifyCtx hhandled.sessionId) le_rfl ?_ hinv.ticking
        hinv.silent
      intro r'
      by_cases heq : r' = r
      · subst heq
        simp only [modifyCtx_heap_self]
        exact hhandled.lastAliveMs
      · left
        simp only [modifyCtx_heap_of_ne heq]
  | sent => exact hinv.keep rfl hinv.filed le_rfl (fun _ => .inl rfl) hinv.ticking hinv.silent
  | began hmain =>
      refine hinv.keep rfl hinv.filed le_rfl (fun _ => .inl rfl) ?_ fun _ hid => ?_
      · intro now hnow
        cases hnow
        exact le_rfl
      · exact absurd hid List.not_mem_nil
  | scanned now hmain =>
      refine hinv.keep rfl hinv.filed le_rfl (fun _ => .inl rfl) (fun _ h => nomatch h) ?_
      intro id hid r hr time hmem
      obtain ⟨r', hr', hold⟩ := mem_expired_iff.mp hid
      cases hr.symm.trans hr'
      have halive := (hinv.past r time hmem).2
      have hnow := hinv.ticking now hmain
      omega
  | removed id todo expired hmain =>
      have hframe := removeClient_frame s.service id
      refine hinv.keep rfl (hinv.filed.removeClient id) le_rfl ?_ (fun _ h => nomatch h) ?_
      · intro r
        left
        simp only [hframe.1]
      · intro id' hid' r hr
        refine hinv.silent id' ?_ r (lookup_of_lookup_removeClient hr)
        rw [hmain]
        exact List.mem_cons_of_mem _ hid'
  | returned expired hmain =>
      exact hinv.keep rfl hinv.filed le_rfl (fun _ => .inl rfl) (fun _ h => nomatch h)
        fun _ hid => absurd hid List.not_mem_nil
  | left id todo hmain =>
      exact hinv.keep rfl hinv.filed le_rfl (fun _ => .inl rfl) (fun _ h => nomatch h)
        fun _ hid => absurd hid List.not_mem_nil
  | rested hmain =>
      exact hinv.keep rfl hinv.filed le_rfl (fun _ => .inl rfl) (fun _ h => nomatch h)
        fun _ hid => absurd hid List.not_mem_nil

/-! ## Runs -/

/-- A context is removed because `Tick` collected its id. -/
theorem mem_pending_of_removed {s : Threads ρ} {a : Action} {r : UdpClientContextRef}
    (h : (s.step B a).2.removed = some r) :
    ∃ id ∈ s.main.pending, s.service.idMap.lookup id = some r := by
  have hcase := threadsCase B s a
  generalize s.step B a = next at hcase h
  cases hcase with
  | removed id todo expired hmain =>
      refine ⟨id, ?_, h⟩
      rw [hmain]
      exact List.mem_cons_self
  | _ => cases h

/-- **No live session is expired**, in every interleaving in which no datagram is accepted on a session
between the scan of a `Tick` and the removal of the session by that `Tick`. -/
theorem removesSilent_of_not_refreshesPending (rc : RedisClient ρ) (clock : ℤ) (as : List Action)
    (hcond : ∀ t ∈ (threads B).trace (.init rc clock) as, ¬ RefreshesPending t) :
    RemovesSilent ((threads B).trace (.init rc clock) as) := by
  intro pre t post htrace r hremoved time hmem
  obtain ⟨as₁, a, as₂, rfl, rfl, rfl, -⟩ := (threads B).trace_eq_append_cons htrace
  have hinv : Freshness ((threads B).trace (.init rc clock) as₁)
      ((threads B).exec (.init rc clock) as₁) :=
    (threads B).history_invariant (C := fun t => ¬ RefreshesPending t) (J := Freshness)
      (freshness_init rc clock) (fun _ _ _ hinv hC => freshness_step hinv hC) as₁ fun u hu => by
        apply hcond u
        rw [Transducer.trace_append]
        exact List.mem_append_left _ hu
  obtain ⟨id, hid, hr⟩ := mem_pending_of_removed hremoved
  exact hinv.silent id hid r hr time hmem

/-- A handshake from one client. -/
def knock : Datagram := .helloOf ⟨0x0100007F, 0x3930⟩ 65

/-- The receiving thread serves the handshake. -/
def serveKnock : List Action :=
  [.arrive knock, .receiver, .receiver, .receiver, .receiver, .receiver]

/-- A client shakes hands and then falls silent until a `Tick` has collected it. -/
def collected : List Action := serveKnock ++ [.elapse 10001, .main, .main]

theorem removesSilent_collected :
    RemovesSilent ((threads Backend.unreachable).trace (.init .disconnected 0)
      (collected ++ [.main])) :=
  removesSilent_of_not_refreshesPending .disconnected 0 (collected ++ [.main]) (by decide +kernel)

/-- A client that shakes hands again after the scan of a `Tick` is acknowledged, and removed by that
`Tick` all the same. -/
theorem not_removesSilent :
    ¬ RemovesSilent ((threads Backend.unreachable).trace (.init .disconnected 0)
      ((collected ++ serveKnock) ++ [.main])) := by
  intro h
  have hlast := h _ _ _ (Transducer.trace_append _ _ _ _) 0 (by decide +kernel) 10001
    (by decide +kernel)
  exact absurd hlast (by decide +kernel)

end CowboyPoker.GameServer
