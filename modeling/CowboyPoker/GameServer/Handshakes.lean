import CowboyPoker.GameServer.ServerRuns

/-!
# Sessions come from handshakes

* `IsHandshake d` — a datagram that asks for a session: no session id, the type `C_UDP_HELLO`, and a
  payload that holds the user id it announces. `isHandshake_iff` says that this is what the
  handler parses.
* `HandshakeLaw` — every context of the registry comes from such a datagram, which was acknowledged
  with its id (`CreatedBy`), and every other datagram without a session id leaves the registry alone.
* `Intrudes t` — another datagram without a session id comes from an address that is not filed.
  `OnRecvPacket` registers it before anything looks at its type or its payload.
* `handshakeLaw_iff` — the law holds in a run exactly when nobody intrudes.
-/

namespace CowboyPoker.GameServer

open CowboyPoker.Found
open CowboyPoker.ServerCore
open UdpService

variable {ρ : Type} {B : Backend ρ}

/-! ## Handshakes -/

/-- The payload behind the header. -/
def Datagram.payload (d : Datagram) : Bytes := d.data.drop udpPacketHeaderSize

/-- A datagram that asks for a session: two bytes of payload for the length of the user id, and no
fewer bytes behind them than they say. -/
structure IsHandshake (d : Datagram) : Prop where
  /-- The header has no session id. -/
  sessionId : d.header.sessionId = 0
  /-- The type. -/
  id : PacketType.ofId d.header.id = some .cUdpHello
  /-- The payload holds the length. -/
  two_le : 2 ≤ d.payload.length
  /-- The user id is no longer than the rest. -/
  userIdLen_le : (Pod.read d.payload 0 : UInt16).toNat ≤ d.payload.length - 2

theorem Datagram.length_payload {d : Datagram} (hlen : udpPacketHeaderSize ≤ d.data.length) :
    (d.payload.length : ℤ) = d.data.length - udpPacketHeaderSize := by
  rw [payload, List.length_drop]
  omega

/-- What `Handle_C_UDP_HELLO` parses. -/
theorem isSome_parseUdpHello_iff {payload : Bytes} (hlen : payload.length < 2 ^ 32) :
    (parseUdpHello payload payload.length).1.isSome ↔
      2 ≤ payload.length ∧ (Pod.read payload 0 : UInt16).toNat ≤ payload.length - 2 := by
  unfold parseUdpHello
  by_cases hshort : (payload.length : ℤ) < 2
  · rw [if_pos hshort]
    simp only [Option.isSome_none, Bool.false_eq_true, false_iff, not_and]
    omega
  · rw [if_neg hshort]
    have hfree : (payload.length + 2 ^ 32 - 2 % 2 ^ 32) % 2 ^ 32 = payload.length - 2 := by omega
    simp only [BufferReader.get, BufferReader.freeSize, Int.toNat_natCast, Pod.size_uint16,
      Nat.zero_add, hfree]
    by_cases hfits : payload.length - 2 < (Pod.read payload 0 : UInt16).toNat
    · rw [if_pos hfits]
      simp only [Option.isSome_none, Bool.false_eq_true, false_iff, not_and, not_le]
      exact fun _ => hfits
    · rw [if_neg hfits]
      simp only [Option.isSome_some, true_iff]
      omega

/-- A handshake is what binds a user. -/
theorem isHandshake_iff {d : Datagram} (hlen : udpPacketHeaderSize ≤ d.data.length) :
    IsHandshake d ↔ d.header.sessionId = 0 ∧ (helloUser d.data d.data.length).isSome := by
  have hpayload := Datagram.length_payload hlen
  have hbound : d.payload.length < 2 ^ 32 := by
    have := d.length_le
    unfold udpMaxPacket udpMaxPayload at this
    omega
  have hparse := isSome_parseUdpHello_iff hbound
  rw [hpayload] at hparse
  constructor
  · rintro ⟨hsession, hid, htwo, hrest⟩
    have hid' : PacketType.ofId (UdpPacketHeader.read d.data).id = some .cUdpHello := hid
    refine ⟨hsession, ?_⟩
    simp only [helloUser, hid']
    exact hparse.mpr ⟨htwo, hrest⟩
  · rintro ⟨hsession, hsome⟩
    unfold helloUser at hsome
    split at hsome
    · rename_i hid
      obtain ⟨htwo, hrest⟩ := hparse.mp hsome
      exact ⟨hsession, hid, htwo, hrest⟩
    · cases hsome

/-! ## The law -/

/-- The context is in the registry, under an id or under an address. -/
def InRegistry (s : UdpService) (r : UdpClientContextRef) : Prop :=
  (∃ id, s.idMap.lookup id = some r) ∨ ∃ key, s.addrMap.lookup key = some r

/-- The step created the context, on a handshake that it acknowledged with the id of the context. -/
def CreatedBy (t : Entry (Server ρ) Event Output) (r : UdpClientContextRef) : Prop :=
  ∃ d now later, t.input = .recv d now later ∧ IsHandshake d ∧
    t.before.service.next = r ∧ t.after.service.next = r + 1 ∧
    (d.senderAddr, .udpHandshakeAck (t.after.service.heap r).sessionId) ∈ t.output.sent

/-- **Sessions come only from handshakes**, in a run on `es` of a server that starts with `rc`. -/
structure HandshakeLaw (B : Backend ρ) (rc : RedisClient ρ) (es : List Event) : Prop where
  /-- In every state that is reached, every context of the registry was created on a handshake and
  still has the id that was acknowledged. -/
  created : ∀ fs, fs <+: es → ∀ r, InRegistry ((server B).exec (.init rc) fs).service r →
    ∃ t ∈ (server B).trace (.init rc) fs, CreatedBy t r ∧
      (((server B).exec (.init rc) fs).service.heap r).sessionId =
        (t.after.service.heap r).sessionId
  /-- Any other datagram without a session id leaves the registry and the counter alone. -/
  others : ∀ t ∈ (server B).trace (.init rc) es, ∀ d now later, t.input = .recv d now later →
    d.header.sessionId = 0 → ¬ IsHandshake d →
      t.after.service.idMap = t.before.service.idMap ∧
      t.after.service.addrMap = t.before.service.addrMap ∧
      t.after.service.sCounter = t.before.service.sCounter

/-- A datagram without a session id, long enough for a header, that is no handshake and comes from an
address whose key is not filed reaches a running server. -/
def Intrudes (t : Entry (Server ρ) Event Output) : Prop :=
  ∃ d now later, t.input = .recv d now later ∧ t.before.fault = none ∧
    udpPacketHeaderSize ≤ d.data.length ∧ d.header.sessionId = 0 ∧ ¬ IsHandshake d ∧
    t.before.service.addrMap.lookup (sockAddrKey d.senderAddr) = none

/-! ## One step -/

/-- What the entries `h` and the state they lead to have to do with each other. -/
structure Created (h : List (Entry (Server ρ) Event Output)) (s : Server ρ) : Prop where
  /-- The contexts of the registry exist. -/
  lt_next : ∀ r : ℕ, InRegistry s.service r → r < s.service.next
  /-- Each was created on a handshake. -/
  created : ∀ r, InRegistry s.service r → ∃ t ∈ h, CreatedBy t r ∧
    (s.service.heap r).sessionId = (t.after.service.heap r).sessionId

theorem created_init (rc : RedisClient ρ) : Created [] (.init rc : Server ρ) where
  lt_next r h := by
    rcases h with ⟨id, h⟩ | ⟨key, h⟩ <;> simp [Server.init, UdpService.init] at h
  created r h := by
    rcases h with ⟨id, h⟩ | ⟨key, h⟩ <;> simp [Server.init, UdpService.init] at h

/-- Removals file nothing. -/
theorem inRegistry_of_foldl_removeClient {s : UdpService} {ids : List UInt64} {r : ℕ}
    (h : InRegistry (ids.foldl removeClient s) r) : InRegistry s r := by
  induction ids generalizing s with
  | nil => exact h
  | cons id ids ih =>
      have hone := ih h
      rcases hlook : s.idMap.lookup id with _ | r₀
      · rwa [removeClient_of_none hlook] at hone
      · rw [removeClient_of_some hlook] at hone
        rcases hone with ⟨id', hid'⟩ | ⟨key, hkey⟩
        · exact .inl ⟨id', (lookup_erase_eq_some_iff.mp hid').2⟩
        · exact .inr ⟨key, (lookup_erase_eq_some_iff.mp hkey).2⟩

/-- A step that files nothing new and keeps the ids of the contexts that exist. -/
theorem Created.keep {h : List (Entry (Server ρ) Event Output)} {s s' : Server ρ}
    {t : Entry (Server ρ) Event Output} (hs : Created h s)
    (hfiled : ∀ r, InRegistry s'.service r → InRegistry s.service r)
    (hnext : s.service.next ≤ s'.service.next)
    (hid : ∀ r : ℕ, r < s.service.next →
      (s'.service.heap r).sessionId = (s.service.heap r).sessionId) :
    Created (h ++ [t]) s' where
  lt_next r hr := (hs.lt_next r (hfiled r hr)).trans_le hnext
  created r hr := by
    have hold := hfiled r hr
    obtain ⟨t', ht', hcreated, hsame⟩ := hs.created r hold
    exact ⟨t', List.mem_append_left _ ht', hcreated, (hid r (hs.lt_next r hold)).trans hsame⟩

/-- The handled context keeps its id, and the handler files nothing. -/
theorem sessionId_handled {s : Server ρ} {d : Datagram} {later : ℤ} {r : ℕ} {service : UdpService}
    (r' : ℕ) : ((Server.handled B s d later r service).1.service.heap r').sessionId =
      (service.heap r').sessionId := by
  by_cases heq : r' = r
  · subst heq
    exact (Server.handled_heap_self B s d later r' service).1
  · rw [Server.handled_heap_of_ne heq]

/-- A handshake is acknowledged, whatever becomes of the rest of it. -/
theorem ack_mem_requests (ctx : UdpClientContext) (rc : RedisClient ρ) {d : Datagram} (later : ℤ)
    (hlen : udpPacketHeaderSize ≤ d.data.length) (h : IsHandshake d) :
    .sendTo ctx.sessionId (.udpHandshakeAck ctx.sessionId) ∈
      (handlePacket B ctx rc d.data d.data.length later).requests := by
  have hid : PacketType.ofId (UdpPacketHeader.read d.data).id = some .cUdpHello := h.id
  have hsome := ((isHandshake_iff hlen).mp h).2
  simp only [helloUser, hid] at hsome
  simp only [handlePacket, hid, handleCUdpHello]
  rcases hparse : parseUdpHello (d.data.drop udpPacketHeaderSize)
    (d.data.length - udpPacketHeaderSize) with ⟨_ | user, reads⟩
  · rw [hparse] at hsome
    cases hsome
  · dsimp only [bindUser]
    rcases rc.getPlayerInfo B user with ⟨e | ⟨found, info⟩, rc'⟩
    · exact List.mem_cons_self
    · cases found <;> exact List.mem_cons_self

/-- The step on a handshake from an address that is not filed. -/
theorem createdBy_handled {s : Server ρ} {d : Datagram} (now later : ℤ) (hfault : s.fault = none)
    (hlen : udpPacketHeaderSize ≤ d.data.length) (hhandshake : IsHandshake d)
    (hfree : s.service.addrMap.lookup (sockAddrKey d.senderAddr) = none) :
    CreatedBy ((server B).entry s (.recv d now later)) s.service.next := by
  have harr : Arrives s.service d now _ _ := .handshake hlen hhandshake.sessionId
  have hstep : s.step B (.recv d now later) = Server.handled B s d later _ _ :=
    step_recv_of_arrives hfault harr
  rw [registerClient_of_none hfree] at hstep
  obtain ⟨ctx, hctx⟩ : ∃ ctx : UdpClientContext,
      ctx = { sessionId := s.service.sCounter, addr := d.senderAddr, lastAliveMs := now } :=
    ⟨_, rfl⟩
  have hack := ack_mem_requests (B := B) ctx s.redis later hlen hhandshake
  have haddr : (handlePacket B ctx s.redis d.data d.data.length later).ctx.addr = ctx.addr :=
    (handled_handlePacket d.data d.data.length).addr
  subst hctx
  refine ⟨d, now, later, rfl, hhandshake, rfl, ?_, ?_⟩
  · show (s.step B (.recv d now later)).1.service.next = s.service.next + 1
    rw [hstep, Server.handled_next]
  · show _ ∈ (s.step B (.recv d now later)).2.sent
    simp only [Transducer.entry_after, server, hstep, sessionId_handled, Function.update_self]
    simp only [Server.handled, Function.update_self]
    refine List.mem_flatMap.mpr ⟨_, hack, ?_⟩
    refine mem_sendTo_iff.mpr ⟨s.service.next, ?_, ?_⟩
    · exact AList.lookup_insert _
    · rw [modifyCtx_heap_self, haddr]

/-- The step on a datagram without a session id from an address that is filed. -/
theorem created_of_filed {h : List (Entry (Server ρ) Event Output)} {s : Server ρ} {d : Datagram}
    {now later : ℤ} {r : ℕ} (hs : Created h s)
    (hfiled : s.service.addrMap.lookup (sockAddrKey d.senderAddr) = some r)
    {t : Entry (Server ρ) Event Output} :
    Created (h ++ [t]) (Server.handled B s d later (s.service.registerClient d.senderAddr now).1
      (s.service.registerClient d.senderAddr now).2).1 := by
  rw [registerClient_of_some hfiled]
  refine hs.keep (fun _ hr => hr) le_rfl fun r' hr' => ?_
  rw [sessionId_handled]
  have hattrs := registerClient_attrs d.senderAddr now hr'
  rw [registerClient_of_some hfiled] at hattrs
  exact hattrs.1

/-- **The step lemma.** -/
theorem Created.step {h : List (Entry (Server ρ) Event Output)} {s : Server ρ} {e : Event}
    (hs : Created h s) (hserver : ∀ addr now, e ≠ .registerClient addr now)
    (hnot : ¬ Intrudes ((server B).entry s e)) :
    Created (h ++ [(server B).entry s e]) ((server B).step s e).1 := by
  have hcase := stepCase B s e
  show Created _ (s.step B e).1
  generalize hnext : s.step B e = next at hcase
  cases hcase with
  | idle => exact hs.keep (fun _ hr => hr) le_rfl fun _ _ => rfl
  | registered addr now _ he => exact absurd he (hserver addr now)
  | removed out =>
      obtain ⟨hheap, hcount, -⟩ := foldl_removeClient_frame s.service out.removed
      refine hs.keep (fun _ hr => inRegistry_of_foldl_removeClient hr) hcount.ge fun r _ => ?_
      rw [hheap]
  | handled d now later r service hfault he harr =>
      subst he
      cases harr with
      | sequenced =>
          refine hs.keep (fun _ hr => hr) le_rfl fun r' _ => ?_
          rw [sessionId_handled]
          by_cases heq : r' = r
          · subst heq
            simp only [modifyCtx_heap_self]
          · rw [modifyCtx_heap_of_ne heq]
      | handshake hlen hid =>
          rcases hlook : s.service.addrMap.lookup (sockAddrKey d.senderAddr) with _ | r₀
          · have hhandshake : IsHandshake d := by
              by_contra hno
              exact hnot ⟨d, now, later, rfl, hfault, hlen, hid, hno, hlook⟩
            have hnew := createdBy_handled (B := B) now later hfault hlen
              hhandshake hlook
            have hafter : ((server B).entry s (.recv d now later)).after =
                (Server.handled B s d later (s.service.registerClient d.senderAddr now).1
                  (s.service.registerClient d.senderAddr now).2).1 := congrArg Prod.fst hnext
            rw [← hafter]
            have hfiled : ∀ r, InRegistry ((server B).entry s (.recv d now later)).after.service r →
                r = s.service.next ∨ InRegistry s.service r := by
              rw [hafter, registerClient_of_none hlook]
              rintro r (⟨id, hr⟩ | ⟨key, hr⟩)
              · rcases lookup_insert_eq_some_iff.mp hr with ⟨-, rfl⟩ | ⟨-, hr⟩
                · exact .inl rfl
                · exact .inr (.inl ⟨id, hr⟩)
              · rcases lookup_insert_eq_some_iff.mp hr with ⟨-, rfl⟩ | ⟨-, hr⟩
                · exact .inl rfl
                · exact .inr (.inr ⟨key, hr⟩)
            have hcount : ((server B).entry s (.recv d now later)).after.service.next =
                s.service.next + 1 := by
              rw [hafter, Server.handled_next, registerClient_of_none hlook]
            refine ⟨fun r hr => ?_, fun r hr => ?_⟩
            · rw [hcount]
              rcases hfiled r hr with rfl | hold
              · exact Nat.lt_succ_self _
              · exact Nat.lt_succ_of_lt (hs.lt_next r hold)
            · rcases hfiled r hr with rfl | hold
              · exact ⟨_, List.mem_append_right _ (List.mem_singleton_self _), hnew, rfl⟩
              · obtain ⟨t', ht', hcreated, hsame⟩ := hs.created r hold
                refine ⟨t', List.mem_append_left _ ht', hcreated, ?_⟩
                rw [hafter, sessionId_handled, (registerClient_attrs _ _ (hs.lt_next r hold)).1,
                  hsame]
          · exact created_of_filed hs hlook

/-- A datagram without a session id from an address that is filed, or too short for a header, leaves
the registry alone. -/
theorem registry_of_not_intrudes {s : Server ρ} {d : Datagram} {now later : ℤ}
    (hid : d.header.sessionId = 0) (hhandshake : ¬ IsHandshake d)
    (hnot : ¬ Intrudes ((server B).entry s (.recv d now later))) :
    (s.step B (.recv d now later)).1.service.idMap = s.service.idMap ∧
      (s.step B (.recv d now later)).1.service.addrMap = s.service.addrMap ∧
      (s.step B (.recv d now later)).1.service.sCounter = s.service.sCounter := by
  rcases recv_cases B s d now later with heq | ⟨r, service, hfault, harr, heq⟩
  · rw [heq]
    exact ⟨rfl, rfl, rfl⟩
  · rw [heq]
    cases harr with
    | sequenced _ hne => exact absurd hid hne
    | handshake hlen =>
        rcases hlook : s.service.addrMap.lookup (sockAddrKey d.senderAddr) with _ | r₀
        · exact absurd ⟨d, now, later, rfl, hfault, hlen, hid, hhandshake, hlook⟩ hnot
        · rw [registerClient_of_some hlook]
          exact ⟨rfl, rfl, rfl⟩

/-- An intruder is registered. -/
theorem addrMap_of_intrudes {t : Entry (Server ρ) Event Output} {s : Server ρ} {e : Event}
    (ht : t = (server B).entry s e) (h : Intrudes t) :
    ∃ d now later, t.input = .recv d now later ∧ d.header.sessionId = 0 ∧ ¬ IsHandshake d ∧
      t.after.service.addrMap ≠ t.before.service.addrMap := by
  obtain ⟨d, now, later, hinput, hfault, hlen, hid, hno, hlook⟩ := h
  refine ⟨d, now, later, hinput, hid, hno, fun hsame => ?_⟩
  subst ht
  obtain rfl : e = .recv d now later := hinput
  have harr : Arrives s.service d now _ _ := .handshake hlen hid
  have hrunning : s.fault = none := hfault
  have hfiled := harr.addrMap_eq
  have hafter : ((server B).entry s (.recv d now later)).after.service.addrMap =
      (s.service.registerClient d.senderAddr now).2.addrMap := by
    show (s.step B (.recv d now later)).1.service.addrMap = _
    rw [step_recv_of_arrives hrunning harr]
    rfl
  rw [← hafter, hsame] at hfiled
  cases hlook.symm.trans hfiled

/-! ## Runs -/

/-- **Sessions and handshakes.** In a run of the process, every session comes from a handshake that
was acknowledged, and other datagrams without a session id change nothing, exactly when no other
datagram without a session id comes from an address whose key is not filed. -/
theorem handshakeLaw_iff (B : Backend ρ) (rc : RedisClient ρ) {es : List Event}
    (hserver : ∀ e ∈ es, ∀ addr now, e ≠ .registerClient addr now) :
    HandshakeLaw B rc es ↔ ∀ t ∈ (server B).trace (.init rc) es, ¬ Intrudes t := by
  constructor
  · intro hlaw t ht hintrudes
    obtain ⟨fs, e, gs, -, hentry⟩ := (server B).mem_trace_iff.mp ht
    obtain ⟨d, now, later, hinput, hid, hno, hchanged⟩ := addrMap_of_intrudes hentry hintrudes
    exact hchanged (hlaw.others t ht d now later hinput hid hno).2.1
  · intro hnot
    refine ⟨?_, ?_⟩
    · rintro fs ⟨gs, rfl⟩
      have hrun := (server B).history_invariant
        (C := fun t => (∀ addr now, t.input ≠ .registerClient addr now) ∧ ¬ Intrudes t)
        (J := Created) (created_init rc) (fun h s e hs hC => hs.step hC.1 hC.2) fs (fun t ht => ?_)
      · exact hrun.created
      · obtain ⟨fs', e, gs', rfl, rfl⟩ := (server B).mem_trace_iff.mp ht
        refine ⟨hserver e (by simp), hnot _ ?_⟩
        rw [Transducer.trace_append]
        exact List.mem_append_left _ ht
    · intro t ht d now later hinput hid hno
      have hpast := hnot t ht
      obtain ⟨fs, e, gs, -, rfl⟩ := (server B).mem_trace_iff.mp ht
      obtain rfl : e = .recv d now later := hinput
      exact registry_of_not_intrudes hid hno hpast

/-- A client shakes hands and is silent afterwards. -/
def helloThenTick : List Event := [.recv (.helloOf ⟨0x0100007F, 0x3930⟩ 65) 0 0, .mainLoop 5]

theorem handshakeLaw_iff_helloThenTick :
    HandshakeLaw .unreachable .disconnected helloThenTick ↔
      ∀ t ∈ (server .unreachable).trace (.init .disconnected) helloThenTick, ¬ Intrudes t :=
  handshakeLaw_iff .unreachable .disconnected (by simp [helloThenTick])

/-- A heartbeat without a session id, from an address that never shook hands. -/
def strayHeartbeat : Datagram :=
  .ofPayload ⟨0x0100007F, 0x3930⟩ ⟨0, 0, PacketType.cLobbyHeartbeat.value⟩ [] (Nat.zero_le _)

/-- The stray heartbeat gets a session, and no acknowledgement. -/
theorem not_handshakeLaw_strayHeartbeat :
    ((server .unreachable).step (.init .disconnected) (.recv strayHeartbeat 0 0)).2.sent = [] ∧
      ¬ HandshakeLaw .unreachable .disconnected [.recv strayHeartbeat 0 0] := by
  refine ⟨by decide +kernel, fun hlaw => ?_⟩
  have hno : ¬ IsHandshake strayHeartbeat := fun h => absurd h.two_le (by decide)
  have hsame := (hlaw.others _ List.mem_cons_self strayHeartbeat 0 0 rfl (by decide) hno).2.1
  exact absurd (congrArg (AList.lookup (sockAddrKey strayHeartbeat.senderAddr)) hsame)
    (by decide +kernel)

end CowboyPoker.GameServer
