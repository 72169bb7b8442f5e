import CowboyPoker.GameServer.ServerRuns

/-!
# The sequence filter along runs

* `dispatchedSeqs r` — the nonzero sequence numbers of the datagrams that a run dispatched on the
  context at `r`, oldest first.
* `Orderly r` — a step of the running server gives the filter of `r` no datagram that it lets through
  unseen: none that carries a sequence number without a session id, and none with sequence number zero
  after another one.
* `dispatchedSeqs_pairwise` — along a run of orderly steps the dispatched sequence numbers increase
  strictly, so none is handled twice. The invariant (`FilterInv`) is that `lastSeq` bounds all of
  them; the two kinds of datagrams above bypass it or reset it.
-/

namespace CowboyPoker.GameServer

open CowboyPoker.Found
open CowboyPoker.ServerCore
open UdpService

variable {ρ : Type} {B : Backend ρ}

/-- The sequence number of the datagram that a step dispatched on `r`, unless it is zero. -/
def dispatchedSeq (r : UdpClientContextRef) (t : Entry (Server ρ) Event Output) : Option UInt32 :=
  match t.input with
  | .recv d _ _ =>
      if t.output.dispatched = some r ∧ d.header.sequence ≠ 0 then some d.header.sequence else none
  | _ => none

/-- The nonzero sequence numbers dispatched on `r`, oldest first. -/
def dispatchedSeqs (r : UdpClientContextRef) (h : List (Entry (Server ρ) Event Output)) :
    List UInt32 :=
  h.filterMap (dispatchedSeq r)

/-- A datagram that reaches the running server and is looked up as `r` has a sequence number zero if it
has no session id, and a sequence number other than zero if it has one and `r` has accepted such a
number. -/
def Orderly (r : UdpClientContextRef) (t : Entry (Server ρ) Event Output) : Prop :=
  match t.input with
  | .recv d now _ =>
      t.before.fault = none → udpPacketHeaderSize ≤ d.data.length →
        (lookup t.before.service d now).1 = some r →
        if d.header.sessionId = 0 then d.header.sequence = 0
        else d.header.sequence = 0 → (t.before.service.heap r).lastSeq = 0
  | _ => True

instance (r : UdpClientContextRef) :
    (t : Entry (Server ρ) Event Output) → Decidable (Orderly r t)
  | ⟨s, .recv d now _, _, _⟩ => inferInstanceAs (Decidable
      (s.fault = none → udpPacketHeaderSize ≤ d.data.length → (lookup s.service d now).1 = some r →
        if d.header.sessionId = 0 then d.header.sequence = 0
        else d.header.sequence = 0 → (s.service.heap r).lastSeq = 0))
  | ⟨_, .mainLoop _, _, _⟩ => inferInstanceAs (Decidable True)
  | ⟨_, .registerClient _ _, _, _⟩ => inferInstanceAs (Decidable True)
  | ⟨_, .removeClient _, _, _⟩ => inferInstanceAs (Decidable True)
  | ⟨_, .findByAddr _, _, _⟩ => inferInstanceAs (Decidable True)
  | ⟨_, .findById _, _, _⟩ => inferInstanceAs (Decidable True)
  | ⟨_, .tick _, _, _⟩ => inferInstanceAs (Decidable True)

/-! ## The invariant -/

/-- A registration leaves the filter of an existing context alone. -/
theorem registerClient_lastSeq {s : UdpService} {addr : SockAddrIn} {now : ℤ} {r : ℕ}
    (hr : r < s.next) : ((s.registerClient addr now).2.heap r).lastSeq = (s.heap r).lastSeq := by
  rcases hlook : s.addrMap.lookup (sockAddrKey addr) with _ | r₀
  · rw [registerClient_of_none hlook]
    simp only [Function.update_of_ne (Nat.ne_of_lt hr)]
  · rw [registerClient_of_some hlook]
    by_cases heq : r = r₀
    · subst heq
      simp only [modifyCtx_heap_self]
    · simp only [modifyCtx_heap_of_ne heq]

/-- What is known of the filter of `r` after the entries `h`. -/
structure FilterInv (r : ℕ) (h : List (Entry (Server ρ) Event Output)) (s : Server ρ) : Prop where
  /-- A context that does not exist yet is not in use. -/
  allocated : Allocated s.service
  /-- Nothing was dispatched on a context that does not exist yet. -/
  fresh : s.service.next ≤ r → dispatchedSeqs r h = []
  /-- The dispatched numbers increase. -/
  increasing : (dispatchedSeqs r h).Pairwise (· < ·)
  /-- None of them is above the last accepted number. -/
  bounded : ∀ q ∈ dispatchedSeqs r h, q ≤ (s.service.heap r).lastSeq

/-- A step that dispatches no number on `r` and keeps the filter of `r`, if `r` exists. -/
theorem FilterInv.keep {r : ℕ} {h : List (Entry (Server ρ) Event Output)} {s : Server ρ}
    {t : Entry (Server ρ) Event Output} (hinv : FilterInv r h s) (hseq : dispatchedSeq r t = none)
    (halloc : Allocated t.after.service) (hnext : s.service.next ≤ t.after.service.next)
    (hlast : r < s.service.next →
      (t.after.service.heap r).lastSeq = (s.service.heap r).lastSeq) :
    FilterInv r (h ++ [t]) t.after := by
  have hsame : dispatchedSeqs r (h ++ [t]) = dispatchedSeqs r h := by
    rw [dispatchedSeqs, List.filterMap_append, List.filterMap_cons_none hseq, List.filterMap_nil,
      List.append_nil, dispatchedSeqs]
  constructor
  · exact halloc
  · intro hle
    rw [hsame]
    exact hinv.fresh (hnext.trans hle)
  · rw [hsame]
    exact hinv.increasing
  · intro q hq
    rw [hsame] at hq
    by_cases hr : r < s.service.next
    · rw [hlast hr]
      exact hinv.bounded q hq
    · rw [hinv.fresh (not_lt.mp hr)] at hq
      exact absurd hq List.not_mem_nil

/-- A step that dispatches a number above the last accepted one, and records it. -/
theorem FilterInv.snoc {r : ℕ} {h : List (Entry (Server ρ) Event Output)} {s : Server ρ}
    {t : Entry (Server ρ) Event Output} {q : UInt32} (hinv : FilterInv r h s)
    (hseq : dispatchedSeq r t = some q) (halloc : Allocated t.after.service)
    (hr : r < t.after.service.next) (hlt : (s.service.heap r).lastSeq < q)
    (hlast : (t.after.service.heap r).lastSeq = q) : FilterInv r (h ++ [t]) t.after := by
  have hsnoc : dispatchedSeqs r (h ++ [t]) = dispatchedSeqs r h ++ [q] := by
    rw [dispatchedSeqs, List.filterMap_append, List.filterMap_cons_some hseq, List.filterMap_nil,
      dispatchedSeqs]
  constructor
  · exact halloc
  · intro hle
    exact absurd hr (not_lt.mpr hle)
  · rw [hsnoc, List.pairwise_append]
    refine ⟨hinv.increasing, List.pairwise_singleton _ _, ?_⟩
    intro p hp q' hq'
    rw [List.mem_singleton.mp hq']
    exact UInt32.lt_of_le_of_lt (hinv.bounded p hp) hlt
  · intro p hp
    rw [hlast]
    rw [hsnoc] at hp
    rcases List.mem_append.mp hp with hp | hp
    · exact UInt32.le_of_lt (UInt32.lt_of_le_of_lt (hinv.bounded p hp) hlt)
    · rw [List.mem_singleton.mp hp]
      exact UInt32.le_refl q

/-- A datagram that arrives on `r` in an orderly way and is handled. -/
theorem filterInv_handled {r : ℕ} {h : List (Entry (Server ρ) Event Output)} {s : Server ρ}
    {d : Datagram} {now later : ℤ} {service : UdpService} (hinv : FilterInv r h s)
    (harr : Arrives s.service d now r service)
    (horderly : if d.header.sessionId = 0 then d.header.sequence = 0
      else d.header.sequence = 0 → (s.service.heap r).lastSeq = 0) :
    FilterInv r (h ++ [⟨s, .recv d now later, (Server.handled B s d later r service).1,
      (Server.handled B s d later r service).2⟩]) (Server.handled B s d later r service).1 := by
  have hlast : ((Server.handled B s d later r service).1.service.heap r).lastSeq =
      (service.heap r).lastSeq := by
    simp only [Server.handled, modifyCtx_heap_self]
    exact (Server.handled_spec B s d later r service).lastSeq
  cases harr with
  | handshake hlen hid =>
      rw [if_pos hid] at horderly
      refine hinv.keep ?_ (hinv.allocated.registerClient _ _) (next_le_registerClient _ _ _) ?_
      · exact if_neg fun hseq => hseq.2 horderly
      · intro hr
        exact hlast.trans (registerClient_lastSeq hr)
  | sequenced hlen hid hfind hnew =>
      rw [if_neg hid] at horderly
      simp only [modifyCtx_heap_self] at hlast
      by_cases hzero : d.header.sequence = 0
      · refine hinv.keep (if_neg fun hseq => hseq.2 hzero) hinv.allocated le_rfl ?_
        intro _
        exact hlast.trans (hzero.trans (horderly hzero).symm)
      · refine hinv.snoc (q := d.header.sequence) (if_pos ⟨rfl, hzero⟩) hinv.allocated ?_ ?_ hlast
        · exact hinv.allocated _ r (findByAddr_eq_some_iff.mp hfind).1
        · exact hnew.resolve_left hzero

/-- The context that `OnRecvPacket` looks up is the one a datagram arrives on. -/
theorem Arrives.lookup_eq {s service : UdpService} {d : Datagram} {now : ℤ} {r : ℕ}
    (h : Arrives s d now r service) : (lookup s d now).1 = some r := by
  unfold lookup
  cases h with
  | handshake _ hid => rw [if_pos hid]
  | sequenced _ hid hfind => rwa [if_neg hid]

/-- **The step lemma.** An orderly step keeps the filter in order. -/
theorem filterInv_step {r : ℕ} {h : List (Entry (Server ρ) Event Output)} {s : Server ρ} {e : Event}
    (hinv : FilterInv r h s) (horderly : Orderly r ((server B).entry s e)) :
    FilterInv r (h ++ [(server B).entry s e]) ((server B).step s e).1 := by
  have hcase := stepCase B s e
  simp only [Transducer.entry, server] at horderly ⊢
  generalize s.step B e = next at hcase horderly ⊢
  cases hcase with
  | idle =>
      refine hinv.keep ?_ hinv.allocated le_rfl fun _ => rfl
      cases e <;> simp [dispatchedSeq]
  | handled d now later r' service hfault he harr =>
      subst he
      by_cases heq : r' = r
      · subst heq
        exact filterInv_handled hinv harr (horderly hfault harr.length_le harr.lookup_eq)
      · refine hinv.keep ?_ ?_ harr.next_le fun _ => ?_
        · exact if_neg fun hseq => heq (Option.some.inj hseq.1)
        · exact harr.allocated hinv.allocated
        · rw [Server.handled_heap_of_ne (Ne.symm heq), harr.heap_of_ne (Ne.symm heq)]
  | registered addr now _ he =>
      subst he
      exact hinv.keep rfl (hinv.allocated.registerClient _ _) (next_le_registerClient _ _ _)
        registerClient_lastSeq
  | removed out hdispatched =>
      have hframe := foldl_removeClient_frame s.service out.removed
      refine hinv.keep ?_ (hinv.allocated.foldl_removeClient _) hframe.2.1.ge fun _ => ?_
      · cases e <;> simp [dispatchedSeq, hdispatched]
      · simp only [hframe.1]

/-- **In-order dispatch.** Along every run whose steps are orderly for `r`, the nonzero sequence
numbers dispatched on `r` increase strictly. -/
theorem dispatchedSeqs_pairwise (rc : RedisClient ρ) (es : List Event) (r : UdpClientContextRef)
    (horderly : ∀ t ∈ (server B).trace (.init rc) es, Orderly r t) :
    (dispatchedSeqs r ((server B).trace (.init rc) es)).Pairwise (· < ·) := by
  have h : FilterInv r ((server B).trace (.init rc) es) ((server B).exec (.init rc) es) :=
    (server B).history_invariant (C := Orderly r) (J := FilterInv r)
    ⟨allocated_init, fun _ => rfl, List.Pairwise.nil, fun _ hq => absurd hq List.not_mem_nil⟩
    (fun _ _ _ hinv hC => filterInv_step hinv hC) es horderly
  exact h.increasing

/-- A datagram of one client with a session id, a sequence number and a type. -/
def numbered (sessionId : UInt64) (sequence : UInt32) (t : PacketType) (payload : Bytes)
    (h : payload.length ≤ udpMaxPayload) : Datagram :=
  .ofPayload ⟨0x0100007F, 0x3930⟩ ⟨sessionId, sequence, t.value⟩ payload h

theorem dispatchedSeqs_pairwise_heartbeats :
    (dispatchedSeqs 0 ((server Backend.unreachable).trace (.init .disconnected)
      [.recv (numbered 0 0 .cUdpHello [0, 0] (by decide)) 0 0,
        .recv (numbered 1 1 .cLobbyHeartbeat [] (by decide)) 5 5,
        .recv (numbered 1 4 .cLobbyHeartbeat [] (by decide)) 9 9])).Pairwise (· < ·) :=
  dispatchedSeqs_pairwise .disconnected _ 0 (by decide)

/-- A heartbeat with sequence number zero lets a purchase through a second time, and a datagram
without a session id is not filtered at all. -/
theorem not_dispatchedSeqs_pairwise :
    ¬ (dispatchedSeqs 0 ((server Backend.unreachable).trace (.init .disconnected)
      [.recv (numbered 0 0 .cUdpHello [0, 0] (by decide)) 0 0,
        .recv (numbered 1 7 .cPurchaseWeapon [1, 0, 65, 1, 0, 0, 0] (by decide)) 5 5,
        .recv (numbered 1 0 .cLobbyHeartbeat [] (by decide)) 6 6,
        .recv (numbered 1 7 .cPurchaseWeapon [1, 0, 65, 1, 0, 0, 0] (by decide)) 7 7,
        .recv (numbered 0 7 .cPurchaseWeapon [1, 0, 65, 1, 0, 0, 0] (by decide)) 8 8])).Pairwise
      (· < ·) := by
  decide

end CowboyPoker.GameServer
