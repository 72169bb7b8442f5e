import CowboyPoker.Found.Rations
import CowboyPoker.ServerCore.Deliveries
import CowboyPoker.GameServer.GhostPlayers
import CowboyPoker.GameServer.MoveRelay
import CowboyPoker.GameServer.WorkerThreads

/-!
# Why a datagram is sent

Whoever is sent a datagram has asked for a session, and every datagram but the announcement of a
departure is due to the datagram whose handling began last, however many workers run beside the main
loop.

* `Answers`, `Requested` — what a handler sends because of the datagram that it was given.
  `requested_handlePacket` — it sends nothing else, and at most two packets.
* `SendLaw` — the cause of everything that was sent, and how much of it one call sends to an address.
* `SendInv`, `sendInv_step` — the invariant on the two threads, and the step lemma.
* `sends_caused` — the law, for the threads of the whole server.
-/

namespace CowboyPoker.GameServer

open CowboyPoker.Found
open CowboyPoker.ServerCore
open UdpService

variable {ρ : Type} {B : Backend ρ}

/-! ## What a handler sends -/

/-- The payload behind the header. -/
def payloadOf (data : Bytes) : Bytes := data.drop udpPacketHeaderSize

/-- The bytes are a handshake that `Handle_C_UDP_HELLO` acts on. -/
def IsHello (data : Bytes) : Prop :=
  PacketType.ofId (UdpPacketHeader.read data).id = some .cUdpHello ∧ HelloFits (payloadOf data)

/-- The bytes are a purchase that `Handle_C_BUY_WEAPON` acts on. -/
def IsPurchase (data : Bytes) : Prop :=
  PacketType.ofId (UdpPacketHeader.read data).id = some .cPurchaseWeapon ∧
    PurchaseFits (payloadOf data)

/-- The packets that answer `data` on the session `id`, when Redis was asked what leads from `rc` to
`rc'`. -/
inductive Answers (B : Backend ρ) (rc rc' : RedisClient ρ) (id : UInt64) (data : Bytes) :
    ServerPacket → Prop
  /-- A handshake is acknowledged. -/
  | handshakeAck (h : IsHello data) : Answers B rc rc' id data (.udpHandshakeAck id)
  /-- A record that Redis gave out for the user that a handshake or a purchase names. -/
  | playerInfo (info : PlayerRedisInfo) (h : IsHello data ∨ IsPurchase data)
      (hread : RedisClient.ReadBetween B (fun _ => True) (userKey (declaredUser (payloadOf data)))
        (declaredUser (payloadOf data)) info rc rc') : Answers B rc rc' id data (.playerInfo id info)
  /-- The result of a purchase. -/
  | buyWeaponResult (success : Bool) (balance : Int64) (h : IsPurchase data) :
      Answers B rc rc' id data
        (.buyWeaponResult id success (declaredWeapon (payloadOf data)) balance)

/-- The sends that `data` asks for, handled for `ctx`. -/
inductive Requested (B : Backend ρ) (rc rc' : RedisClient ρ) (ctx : UdpClientContext) (data : Bytes) :
    SendRequest → Prop
  /-- An answer goes to the session. -/
  | answer {packet : ServerPacket} (h : Answers B rc rc' ctx.sessionId data packet) :
      Requested B rc rc' ctx data (.sendTo ctx.sessionId packet)
  /-- A move goes to the others. -/
  | relay (h : IsMove data data.length) :
      Requested B rc rc' ctx data (.broadcastExcept ctx.sessionId (relayedMove ctx (payloadOf data)))

section handlers

variable {ctx : UdpClientContext} {rc rc₀ rc₁ rc' : RedisClient ρ} {user : Bytes} {now : ℤ}
  {data : Bytes}

/-- Redis may have been asked more, before and after. -/
theorem Answers.extend {id : UInt64} {packet : ServerPacket} (h : Answers B rc rc' id data packet)
    (hbefore : RedisClient.Commands B (fun _ => True) rc₀ rc)
    (hafter : RedisClient.Commands B (fun _ => True) rc' rc₁) : Answers B rc₀ rc₁ id data packet := by
  cases h with
  | handshakeAck h => exact .handshakeAck h
  | playerInfo info h hread =>
      exact .playerInfo info h (hread.extend (fun _ _ => trivial) hbefore hafter)
  | buyWeaponResult success balance h => exact .buyWeaponResult success balance h

/-- A request has its cause in a longer stretch of commands. -/
theorem Requested.extend {q : SendRequest} (h : Requested B rc rc' ctx data q)
    (hbefore : RedisClient.Commands B (fun _ => True) rc₀ rc)
    (hafter : RedisClient.Commands B (fun _ => True) rc' rc₁) : Requested B rc₀ rc₁ ctx data q := by
  cases h with
  | answer h => exact .answer (h.extend hbefore hafter)
  | relay h => exact .relay h

/-- The sends of a handler are due to `data`, and there are at most two. -/
def SendsFor (B : Backend ρ) (rc : RedisClient ρ) (ctx : UdpClientContext) (data : Bytes)
    (out : HandlerOut ρ) : Prop :=
  (∀ q ∈ out.requests, Requested B rc out.redis ctx data q) ∧ out.requests.length ≤ 2

/-- What a handshake that names `user` sends. -/
theorem sendsFor_bindUser (reads : List Span) (h : IsHello data)
    (huser : user = declaredUser (payloadOf data)) :
    SendsFor B rc ctx data (bindUser B ctx rc user reads) := by
  have hack : ∀ rc', Requested B rc rc' ctx data
      (.sendTo ctx.sessionId (.udpHandshakeAck ctx.sessionId)) := fun _ => .answer (.handshakeAck h)
  subst huser
  unfold SendsFor bindUser
  rcases hread : rc.getPlayerInfo B (declaredUser (payloadOf data)) with ⟨e | ⟨_ | _, info⟩, rc'⟩
  · simp [hack]
  · simp [hack]
  · have hrecord : Requested B rc rc' ctx data
        (.sendTo ctx.sessionId (.playerInfo ctx.sessionId info)) :=
      .answer (.playerInfo info (.inl h) (RedisClient.readBetween_getPlayerInfo hread))
    simp [hack, hrecord]

/-- What a purchase for `user` sends. -/
theorem sendsFor_buyWeapon {weaponType : Int32} (reads : List Span) (h : IsPurchase data)
    (huser : user = declaredUser (payloadOf data))
    (hweapon : weaponType = declaredWeapon (payloadOf data)) :
    SendsFor B rc ctx data (buyWeapon B ctx rc user weaponType reads) := by
  have hanswer : ∀ rc' success balance, Requested B rc rc' ctx data
      (.sendTo ctx.sessionId (.buyWeaponResult ctx.sessionId success weaponType balance)) := by
    intro rc' success balance
    rw [hweapon]
    exact .answer (.buyWeaponResult success balance h)
  subst huser
  have hissued : RedisClient.Commands B (fun _ => True) rc
      (rc.getBalance B (declaredUser (payloadOf data))).2 :=
    (RedisClient.commands_getBalance B).mono fun _ _ => trivial
  unfold SendsFor buyWeapon
  rcases findWeapon weaponType with _ | weapon
  · simp [hanswer]
  dsimp only
  generalize rc.getBalance B (declaredUser (payloadOf data)) = out at hissued
  obtain ⟨e | _ | balance, rc₁⟩ := out
  · simp
  · simp [hanswer]
  dsimp only
  by_cases hprice : balance < weapon.price
  · simp [hprice, hanswer]
  rw [if_neg hprice]
  have hstored : RedisClient.Commands B (fun _ => True) rc₁
      (rc₁.purchaseWeapon B (declaredUser (payloadOf data)) (balance - weapon.price) weaponType
        (weapon.magazineSize * 5)).2 :=
    (RedisClient.commands_purchaseWeapon B).mono fun _ _ => trivial
  generalize rc₁.purchaseWeapon B (declaredUser (payloadOf data)) (balance - weapon.price) weaponType
    (weapon.magazineSize * 5) = out at hstored
  obtain ⟨_ | _, rc₂⟩ := out
  · simp [hanswer]
  dsimp only
  rcases hread : rc₂.getPlayerInfo B (declaredUser (payloadOf data)) with ⟨e | ⟨_ | _, info⟩, rc₃⟩
  · simp [hanswer]
  · simp [hanswer]
  · have hinfo := RedisClient.readBetween_getPlayerInfo hread (P := fun _ => True)
    have hrecord : Requested B rc rc₃ ctx data
        (.sendTo ctx.sessionId (.playerInfo ctx.sessionId info)) :=
      .answer (.playerInfo info (.inr h)
        (hinfo.extend (fun _ h => h) (hissued.trans hstored) (.refl rc₃)))
    simp [hanswer, hrecord]

/-- **What the switch sends**: what the datagram asks for, and at most two packets. -/
theorem requested_handlePacket (hheader : udpPacketHeaderSize ≤ data.length)
    (hlen : data.length < 2 ^ 32) :
    SendsFor B rc ctx data (handlePacket B ctx rc data data.length now) := by
  have hpayload : (payloadOf data).length = data.length - udpPacketHeaderSize := List.length_drop
  have hcast : (data.length : ℤ) - udpPacketHeaderSize = (payloadOf data).length := by
    rw [hpayload]
    omega
  have hshort : (payloadOf data).length < 2 ^ 32 := by omega
  have hidle : ∀ out : HandlerOut ρ, out.requests = [] → SendsFor B rc ctx data out := by
    intro out hout
    simp [SendsFor, hout]
  unfold handlePacket
  dsimp only
  rw [hcast]
  rcases htype : PacketType.ofId (UdpPacketHeader.read data).id with _ | t
  · exact hidle _ rfl
  cases t with
  | cUdpHello =>
      have hparse := parseUdpHello_append hshort []
      rw [List.append_nil] at hparse
      dsimp only [handleCUdpHello]
      by_cases hfits : HelloFits (payloadOf data)
      · rw [show data.drop udpPacketHeaderSize = payloadOf data from rfl, hparse, if_pos hfits]
        exact sendsFor_bindUser _ ⟨htype, hfits⟩ rfl
      · rw [show data.drop udpPacketHeaderSize = payloadOf data from rfl, hparse, if_neg hfits]
        exact hidle _ rfl
  | cLobbyMove =>
      have hmove := handleCLobbyMove_append ctx rc (payloadOf data) []
      rw [List.append_nil] at hmove
      dsimp only
      rw [show data.drop udpPacketHeaderSize = payloadOf data from rfl, hmove]
      by_cases hfits : MoveFits (payloadOf data)
      · rw [if_pos hfits]
        unfold MoveFits at hfits
        have hrelay : Requested B rc rc ctx data
            (.broadcastExcept ctx.sessionId (relayedMove ctx (payloadOf data))) :=
          .relay ⟨htype, by omega⟩
        simp [SendsFor, hrelay]
      · rw [if_neg hfits]
        exact hidle _ rfl
  | cPurchaseWeapon =>
      have hparse := parseBuyWeapon_append hshort []
      rw [List.append_nil] at hparse
      dsimp only [handleCBuyWeapon]
      by_cases hfits : PurchaseFits (payloadOf data)
      · rw [show data.drop udpPacketHeaderSize = payloadOf data from rfl, hparse, if_pos hfits]
        exact sendsFor_buyWeapon _ ⟨htype, hfits⟩ rfl rfl
      · rw [show data.drop udpPacketHeaderSize = payloadOf data from rfl, hparse, if_neg hfits]
        exact hidle _ rfl
  | cGunShotLobby =>
      apply hidle
      dsimp only [handleCGunShotLobby]
      by_cases hempty : ctx.userId = []
      · rw [if_pos hempty]
      · rw [if_neg hempty]
        split <;> rfl
  | _ => exact hidle _ rfl

end handlers

/-! ## The law -/

/-- The observation is a call of `OnRecvPacket`. -/
def Observation.isCall : Observation → Bool
  | handling _ _ => true
  | _ => false

/-- The observation is a datagram to `destAddr` that announces no departure. -/
def Observation.isSendTo (destAddr : SockAddrIn) : Observation → Bool
  | sent _ (.lobbyPlayerLeave _) => false
  | sent addr _ => addr = destAddr
  | _ => false

/-- The call of `OnRecvPacket` that began last is the one with `data` from `sender`. -/
def LastCall (obs : List Observation) (sender : SockAddrIn) (data : Bytes) : Prop :=
  ∃ before after, obs = before ++ .handling sender data :: after ∧
    ∀ x ∈ after, x.isCall = false

/-- The call of `OnRecvPacket` that began last is the one with `data` from `sender`, and the datagram has
been accepted on `r` since. -/
def Serving (obs : List Observation) (sender : SockAddrIn) (data : Bytes) (r : UdpClientContextRef) :
    Prop :=
  ∃ before after, obs = before ++ .handling sender data :: after ∧
    (∀ x ∈ after, x.isCall = false) ∧ .accepted r ∈ after

/-- Behind `obs` the handling of a datagram is the cause of a packet to `destAddr`: it answers the
datagram, or relays it to another session. -/
inductive Caused (B : Backend ρ) (s : UdpService) (rc rc' : RedisClient ρ) (obs : List Observation) :
    SockAddrIn → ServerPacket → Prop
  /-- An answer goes to the session that the datagram was accepted on, whose address has the key of the
  sender. -/
  | answer {sender : SockAddrIn} {data : Bytes} {r : UdpClientContextRef} {packet : ServerPacket}
      (hserving : Serving obs sender data r)
      (hkey : sockAddrKey (s.heap r).addr = sockAddrKey sender)
      (h : Answers B rc rc' (s.heap r).sessionId data packet) :
      Caused B s rc rc' obs (s.heap r).addr packet
  /-- A move goes to the other sessions. -/
  | relay {sender : SockAddrIn} {data : Bytes} {r c : UdpClientContextRef} {ctx : UdpClientContext}
      (hserving : Serving obs sender data r)
      (hkey : sockAddrKey (s.heap r).addr = sockAddrKey sender) (h : IsMove data data.length)
      (hid : ctx.sessionId = (s.heap r).sessionId) (hne : c ≠ r) (hc : .accepted c ∈ obs) :
      Caused B s rc rc' obs (s.heap c).addr (relayedMove ctx (payloadOf data))

/-- `addr` has asked for a session: it has sent a datagram without a session id. -/
def HasAsked (obs : List Observation) (addr : SockAddrIn) : Prop :=
  ∃ data, .handling addr data ∈ obs ∧ (UdpPacketHeader.read data).sessionId = 0

/-- Why the datagrams in `obs` were sent, and how many, in a run that led from the connection `rc` to
Redis to `rc'` and ended with the registry `s`. -/
structure SendLaw (B : Backend ρ) (s : UdpService) (rc rc' : RedisClient ρ) (obs : List Observation) :
    Prop where
  /-- Nobody is sent anything without having asked for a session. -/
  asked : ∀ before after destAddr packet, obs = before ++ .sent destAddr packet :: after →
    HasAsked before destAddr
  /-- A datagram announces a departure, or is due to the datagram that is handled. -/
  caused : ∀ before after destAddr packet, obs = before ++ .sent destAddr packet :: after →
    (∃ id, packet = .lobbyPlayerLeave id) ∨ Caused B s rc rc' before destAddr packet
  /-- Apart from the departures, an address gets at most two datagrams between a call of `OnRecvPacket`
  and the next. -/
  bounded : ∀ before mid after destAddr, obs = before ++ mid ++ after →
    (∀ x ∈ mid, x.isCall = false) → mid.countP (·.isSendTo destAddr) ≤ 2

/-! ## What stays -/

section laws

variable {obs o : List Observation} {sender : SockAddrIn} {data : Bytes} {r : UdpClientContextRef}
  {s s' : UdpService} {rc rc₁ rc' : RedisClient ρ}

/-- The context that is served was accepted. -/
theorem Serving.mem (h : Serving obs sender data r) : .accepted r ∈ obs := by
  obtain ⟨before, after, rfl, -, hr⟩ := h
  exact List.mem_append_right _ (List.mem_cons_of_mem _ hr)

/-- The call stays the last one until the next. -/
theorem LastCall.append (h : LastCall obs sender data) (ho : ∀ x ∈ o, x.isCall = false) :
    LastCall (obs ++ o) sender data := by
  obtain ⟨before, after, rfl, hafter⟩ := h
  refine ⟨before, after ++ o, by simp, fun x hx => ?_⟩
  exact (List.mem_append.mp hx).elim (hafter x) (ho x)

/-- The context is served until the next call. -/
theorem Serving.append (h : Serving obs sender data r) (ho : ∀ x ∈ o, x.isCall = false) :
    Serving (obs ++ o) sender data r := by
  obtain ⟨before, after, rfl, hafter, hr⟩ := h
  refine ⟨before, after ++ o, by simp, fun x hx => ?_, List.mem_append_left o hr⟩
  exact (List.mem_append.mp hx).elim (hafter x) (ho x)

/-- A datagram that is accepted after its call began is served. -/
theorem LastCall.accept (h : LastCall obs sender data) (r : UdpClientContextRef) :
    Serving (obs ++ [.accepted r]) sender data r := by
  obtain ⟨before, after, rfl, hafter⟩ := h
  refine ⟨before, after ++ [.accepted r], by simp, fun x hx => ?_, by simp⟩
  rcases List.mem_append.mp hx with hx | hx
  · exact hafter x hx
  · rw [List.mem_singleton.mp hx]
    rfl

/-- Who has asked has asked. -/
theorem HasAsked.append {addr : SockAddrIn} (h : HasAsked obs addr) : HasAsked (obs ++ o) addr := by
  obtain ⟨data, hmem, hid⟩ := h
  exact ⟨data, List.mem_append_left o hmem, hid⟩

/-- In `s'` the contexts of `s` have the ids and addresses that they had. -/
structure KeepsAttrs (s s' : UdpService) : Prop where
  next : s.next ≤ s'.next
  attrs : ∀ r : ℕ, r < s.next →
    (s'.heap r).sessionId = (s.heap r).sessionId ∧ (s'.heap r).addr = (s.heap r).addr

/-- The contexts are kept where nothing happens. -/
theorem KeepsAttrs.refl (s : UdpService) : KeepsAttrs s s := ⟨le_rfl, fun _ _ => ⟨rfl, rfl⟩⟩

/-- An assignment that keeps the id and the address. -/
theorem KeepsAttrs.modifyCtx {f : UdpClientContext → UdpClientContext}
    (hid : (f (s.heap r)).sessionId = (s.heap r).sessionId)
    (haddr : (f (s.heap r)).addr = (s.heap r).addr) : KeepsAttrs s (s.modifyCtx r f) := by
  refine ⟨le_rfl, fun r' _ => ?_⟩
  by_cases heq : r' = r
  · subst heq
    rw [modifyCtx_heap_self]
    exact ⟨hid, haddr⟩
  · rw [modifyCtx_heap_of_ne heq]
    exact ⟨rfl, rfl⟩

/-- A registration keeps the contexts that were created. -/
theorem KeepsAttrs.registerClient (s : UdpService) (addr : SockAddrIn) (now : ℤ) :
    KeepsAttrs s (s.registerClient addr now).2 :=
  ⟨next_le_registerClient s addr now, fun _ hr => registerClient_attrs addr now hr⟩

/-- A removal keeps the contexts. -/
theorem KeepsAttrs.removeClient (s : UdpService) (id : UInt64) :
    KeepsAttrs s (s.removeClient id) := by
  obtain ⟨hheap, hnext, -⟩ := removeClient_frame s id
  refine ⟨hnext.ge, fun r _ => ?_⟩
  rw [hheap]
  exact ⟨rfl, rfl⟩

/-- The cause of a packet stays its cause. -/
theorem Caused.keeps {destAddr : SockAddrIn} {packet : ServerPacket}
    (h : Caused B s rc rc' obs destAddr packet) (hkeeps : KeepsAttrs s s')
    (hredis : RedisClient.Commands B (fun _ => True) rc' rc₁)
    (haccepted : ∀ r : ℕ, .accepted r ∈ obs → r < s.next) :
    Caused B s' rc rc₁ obs destAddr packet := by
  cases h with
  | @answer sender data r packet hserving hkey h =>
      obtain ⟨hid, haddr⟩ := hkeeps.attrs r (haccepted r hserving.mem)
      rw [← haddr] at hkey ⊢
      rw [← hid] at h
      exact .answer hserving hkey (h.extend (.refl rc) hredis)
  | @relay sender data r c ctx hserving hkey h hctx hne hc =>
      obtain ⟨hid, haddr⟩ := hkeeps.attrs r (haccepted r hserving.mem)
      obtain ⟨-, hcaddr⟩ := hkeeps.attrs c (haccepted c hc)
      rw [← haddr] at hkey
      rw [← hcaddr]
      exact .relay hserving hkey h (hctx.trans hid.symm) hne hc

end laws

/-! ## The invariant -/

/-- The context at `r` serves a datagram from `sender`. -/
structure ServedBy (s : UdpService) (sender : SockAddrIn) (r : UdpClientContextRef) : Prop where
  created : r < s.next
  key : sockAddrKey (s.heap r).addr = sockAddrKey sender

/-- What `obs` tells of the call in progress. -/
def InProgress (B : Backend ρ) (s : UdpService) (rc rc' : RedisClient ρ) (obs : List Observation) :
    Receiver → Prop
  | .idle => True
  | .received _ => True
  | .found d r => LastCall obs d.senderAddr d.data ∧ ServedBy s d.senderAddr r ∧
      udpPacketHeaderSize ≤ d.data.length ∧
      (d.header.sessionId = 0 → Serving obs d.senderAddr d.data r)
  | .accepted d r => Serving obs d.senderAddr d.data r ∧ ServedBy s d.senderAddr r ∧
      udpPacketHeaderSize ≤ d.data.length
  | .sending requests _ => ∀ q ∈ requests, ∃ sender data r ctx, Serving obs sender data r ∧
      ServedBy s sender r ∧ ctx.sessionId = (s.heap r).sessionId ∧ Requested B rc rc' ctx data q

/-- The packets that the call in progress may still send. -/
def Receiver.allowance : Receiver → ℕ
  | idle => 0
  | received _ => 0
  | found _ _ => 2
  | accepted _ _ => 2
  | sending requests _ => requests.length

/-- What is known of `obs` when the process is in `s` and began with the connection `rc`. -/
structure SendInv (B : Backend ρ) (rc : RedisClient ρ) (obs : List Observation) (s : Threads ρ) :
    Prop where
  consistent : s.service.Consistent
  commands : RedisClient.Commands B (fun _ => True) rc s.redis
  /-- A context was created for an address that had asked. -/
  created : ∀ r : ℕ, r < s.service.next → .accepted r ∈ obs ∧ HasAsked obs (s.service.heap r).addr
  accepted : ∀ r : ℕ, .accepted r ∈ obs → r < s.service.next
  progress : InProgress B s.service rc s.redis obs s.receiver
  asked : ∀ before after destAddr packet, obs = before ++ .sent destAddr packet :: after →
    HasAsked before destAddr
  caused : ∀ before after destAddr packet, obs = before ++ .sent destAddr packet :: after →
    (∃ id, packet = .lobbyPlayerLeave id) ∨ Caused B s.service rc s.redis before destAddr packet
  rationed : ∀ destAddr, Rationed Observation.isCall (·.isSendTo destAddr) 2 0 obs
    s.receiver.allowance

/-- The invariant has the law in it. -/
theorem SendInv.law {rc : RedisClient ρ} {obs : List Observation} {s : Threads ρ}
    (h : SendInv B rc obs s) : SendLaw B s.service rc s.redis obs where
  asked := h.asked
  caused := h.caused
  bounded before mid after destAddr heq hquiet := by
    have hrations := h.rationed destAddr
    rw [heq] at hrations
    exact hrations.countP_le (Nat.zero_le 2) hquiet

/-- At the start nothing has been sent. -/
theorem sendInv_init (rc : RedisClient ρ) (clock : ℤ) :
    SendInv B rc [] (.init rc clock : Threads ρ) where
  consistent := consistent_init
  commands := .refl rc
  created _ hr := absurd hr (Nat.not_lt_zero _)
  accepted _ hr := absurd hr List.not_mem_nil
  progress := trivial
  asked _ _ _ _ h := absurd h.symm (List.append_ne_nil_of_right_ne_nil _ (List.cons_ne_nil _ _))
  caused _ _ _ _ h := absurd h.symm (List.append_ne_nil_of_right_ne_nil _ (List.cons_ne_nil _ _))
  rationed _ := .nil le_rfl

/-- The call in progress goes on when `o` is seen. -/
theorem InProgress.append {s s' : UdpService} {rc rc' : RedisClient ρ} {obs o : List Observation}
    {receiver : Receiver} (h : InProgress B s rc rc' obs receiver) (hkeeps : KeepsAttrs s s')
    (ho : ∀ x ∈ o, x.isCall = false) : InProgress B s' rc rc' (obs ++ o) receiver := by
  have hserved : ∀ {sender : SockAddrIn} {r : ℕ}, ServedBy s sender r → ServedBy s' sender r := by
    intro sender r hr
    refine ⟨hr.created.trans_le hkeeps.next, ?_⟩
    rw [(hkeeps.attrs r hr.created).2]
    exact hr.key
  cases receiver with
  | idle => trivial
  | received d => trivial
  | found d r =>
      obtain ⟨hcall, hr, hlen, hserving⟩ := h
      exact ⟨hcall.append ho, hserved hr, hlen, fun hid => (hserving hid).append ho⟩
  | accepted d r =>
      obtain ⟨hserving, hr, hlen⟩ := h
      exact ⟨hserving.append ho, hserved hr, hlen⟩
  | sending requests fault =>
      intro q hq
      obtain ⟨sender, data, r, ctx, hserving, hr, hid, hreq⟩ := h q hq
      refine ⟨sender, data, r, ctx, hserving.append ho, hserved hr, ?_, hreq⟩
      rw [(hkeeps.attrs r hr.created).1]
      exact hid

/-- **The frame rule**: what has to be shown of a step that shows `o`. -/
theorem SendInv.extend {rc : RedisClient ρ} {obs o : List Observation} {s s' : Threads ρ}
    (h : SendInv B rc obs s) (hconsistent : s'.service.Consistent)
    (hredis : RedisClient.Commands B (fun _ => True) s.redis s'.redis)
    (hkeeps : KeepsAttrs s.service s'.service)
    (hcreated : ∀ r : ℕ, s.service.next ≤ r → r < s'.service.next →
      .accepted r ∈ obs ++ o ∧ HasAsked (obs ++ o) (s'.service.heap r).addr)
    (haccepted : ∀ r : ℕ, .accepted r ∈ o → r < s'.service.next)
    (hprogress : InProgress B s'.service rc s'.redis (obs ++ o) s'.receiver)
    (hasked : ∀ before after destAddr packet, o = before ++ .sent destAddr packet :: after →
      HasAsked (obs ++ before) destAddr)
    (hcaused : ∀ before after destAddr packet, o = before ++ .sent destAddr packet :: after →
      (∃ id, packet = .lobbyPlayerLeave id) ∨
        Caused B s'.service rc s'.redis (obs ++ before) destAddr packet)
    (hrationed : ∀ destAddr, Rationed Observation.isCall (·.isSendTo destAddr) 2 s.receiver.allowance
      o s'.receiver.allowance) : SendInv B rc (obs ++ o) s' := by
  -- a datagram in `obs ++ o` is in the one or in the other
  have hsplit : ∀ {before after : List Observation} {x : Observation},
      obs ++ o = before ++ x :: after →
      (∃ rest, obs = before ++ x :: rest) ∨ ∃ rest, before = obs ++ rest ∧ o = rest ++ x :: after := by
    intro before after x heq
    rcases List.append_eq_append_iff.mp heq with ⟨rest, hbefore, ho⟩ | ⟨rest, hobs, hrest⟩
    · exact .inr ⟨rest, hbefore, ho⟩
    · cases rest with
      | nil => exact .inr ⟨[], by simpa using hobs.symm, by simpa using hrest.symm⟩
      | cons y rest =>
          cases hrest
          exact .inl ⟨rest, hobs⟩
  have hold : ∀ r : ℕ, .accepted r ∈ obs → r < s'.service.next :=
    fun r hr => (h.accepted r hr).trans_le hkeeps.next
  constructor
  · exact hconsistent
  · exact h.commands.trans hredis
  · intro r hr
    by_cases hlt : r < s.service.next
    · obtain ⟨hmem, hask⟩ := h.created r hlt
      rw [(hkeeps.attrs r hlt).2]
      exact ⟨List.mem_append_left o hmem, hask.append⟩
    · exact hcreated r (not_lt.mp hlt) hr
  · exact fun r hr => (List.mem_append.mp hr).elim (hold r) (haccepted r)
  · exact hprogress
  · intro before after destAddr packet heq
    rcases hsplit heq with ⟨rest, hobs⟩ | ⟨rest, rfl, ho⟩
    · exact h.asked _ _ _ _ hobs
    · exact hasked _ _ _ _ ho
  · intro before after destAddr packet heq
    rcases hsplit heq with ⟨rest, hobs⟩ | ⟨rest, rfl, ho⟩
    · refine (h.caused _ _ _ _ hobs).imp id fun hcause => ?_
      refine hcause.keeps hkeeps hredis fun r hr => h.accepted r ?_
      rw [hobs]
      exact List.mem_append_left _ hr
    · exact hcaused _ _ _ _ ho
  · exact fun destAddr => (h.rationed destAddr).append (hrationed destAddr)

/-- The frame rule for a step that sends nothing. -/
theorem SendInv.extend_unsent {rc : RedisClient ρ} {obs o : List Observation} {s s' : Threads ρ}
    (h : SendInv B rc obs s) (ho : ∀ destAddr packet, .sent destAddr packet ∉ o)
    (hconsistent : s'.service.Consistent)
    (hredis : RedisClient.Commands B (fun _ => True) s.redis s'.redis)
    (hkeeps : KeepsAttrs s.service s'.service)
    (hcreated : ∀ r : ℕ, s.service.next ≤ r → r < s'.service.next →
      .accepted r ∈ obs ++ o ∧ HasAsked (obs ++ o) (s'.service.heap r).addr)
    (haccepted : ∀ r : ℕ, .accepted r ∈ o → r < s'.service.next)
    (hprogress : InProgress B s'.service rc s'.redis (obs ++ o) s'.receiver)
    (hrationed : ∀ destAddr, Rationed Observation.isCall (·.isSendTo destAddr) 2 s.receiver.allowance
      o s'.receiver.allowance) : SendInv B rc (obs ++ o) s' := by
  refine h.extend hconsistent hredis hkeeps hcreated haccepted hprogress ?_ ?_ hrationed
  · rintro before after destAddr packet rfl
    exact absurd (List.mem_append_right _ List.mem_cons_self) (ho destAddr packet)
  · rintro before after destAddr packet rfl
    exact absurd (List.mem_append_right _ List.mem_cons_self) (ho destAddr packet)

/-- A call leaves room for two datagrams. -/
theorem rationed_call {sender : SockAddrIn} {data : Bytes} {o : List Observation} {b b' : ℕ}
    (ho : ∀ x ∈ o, ∃ r, x = .accepted r) (hle : b' ≤ 2) (destAddr : SockAddrIn) :
    Rationed Observation.isCall (·.isSendTo destAddr) 2 b (.handling sender data :: o) b' := by
  refine .renew rfl (.of_countP ?_ ?_)
  · intro x hx
    obtain ⟨r, rfl⟩ := ho x hx
    rfl
  · have hnone : o.countP (·.isSendTo destAddr) = 0 := by
      rw [List.countP_eq_zero]
      intro x hx
      obtain ⟨r, rfl⟩ := ho x hx
      exact Bool.false_ne_true
    rwa [hnone, Nat.zero_add]

/-! ## The steps -/

/-- A broadcast sends at most one datagram to an address. -/
theorem count_broadcast_le {β : Type} {s : UdpService} (h : s.Consistent) (buf : β)
    (addr : SockAddrIn) : ((s.broadcast buf).map Prod.fst).count addr ≤ 1 := by
  by_cases hmem : addr ∈ (s.broadcast buf).map Prod.fst
  · obtain ⟨x, hx, rfl⟩ := List.mem_map.mp hmem
    obtain ⟨r, hr, heq⟩ := (h.sentOnceTo_broadcast buf).only x hx
    rw [heq]
    exact ((h.sentOnceTo_broadcast buf).once r hr).le
  · rw [List.count_eq_zero_of_not_mem hmem]
    exact Nat.zero_le 1

/-- A request sends at most one datagram to an address. -/
theorem count_perform_le {s : UdpService} (h : s.Consistent) (q : SendRequest) (addr : SockAddrIn) :
    ((q.perform s).map fun x => Observation.sent x.1 x.2).countP (·.isSendTo addr) ≤ 1 := by
  have hcount : ((q.perform s).map fun x => Observation.sent x.1 x.2).countP (·.isSendTo addr) ≤
      ((q.perform s).map Prod.fst).count addr := by
    rw [List.countP_map, List.count_eq_countP, List.countP_map]
    refine List.countP_mono_left fun x _ hx => ?_
    obtain ⟨dest, packet⟩ := x
    cases packet <;> simp_all [Observation.isSendTo]
  refine hcount.trans ?_
  cases q with
  | sendTo id packet =>
      dsimp only [SendRequest.perform, sendTo]
      rcases s.findById id with _ | r
      · exact Nat.zero_le 1
      · exact List.count_le_length
  | broadcastExcept except packet =>
      have hsub : (s.broadcastExcept except packet).Sublist (s.broadcast packet) :=
        List.filter_sublist.map _
      exact ((hsub.map Prod.fst).count_le addr).trans (count_broadcast_le h packet addr)

/-- What is seen of a handler's sends calls nobody. -/
theorem isCall_of_mem_sent {requests : List (SockAddrIn × ServerPacket)} {x : Observation}
    (hx : x ∈ requests.map fun y => Observation.sent y.1 y.2) : x.isCall = false := by
  obtain ⟨y, -, rfl⟩ := List.mem_map.mp hx
  rfl

section steps

variable {rc : RedisClient ρ} {obs : List Observation} {s : Threads ρ}

/-- A step of a handler that sends. -/
theorem SendInv.send (h : SendInv B rc obs s) {q : SendRequest} {requests : List SendRequest}
    {fault : Option Fault} (hrecv : s.receiver = .sending (q :: requests) fault)
    (hbound : s.service.next < 2 ^ 64) :
    SendInv B rc (obs ++ (q.perform s.service).map fun x => .sent x.1 x.2)
      { s with receiver := .sending requests fault } := by
  have hprogress := h.progress
  rw [hrecv] at hprogress
  obtain ⟨sender, data, r, ctx, hserving, hr, hid, hreq⟩ := hprogress q List.mem_cons_self
  have hlookup : ∀ {id c}, s.service.idMap.lookup id = some c →
      c < s.service.next ∧ (s.service.heap c).sessionId = id := by
    intro id c hc
    exact ⟨h.consistent.allocated c (h.consistent.registered_of_idMap hc), h.consistent.sessionId_eq hc⟩
  have hdest : ∀ {before after destAddr packet},
      ((q.perform s.service).map fun x => Observation.sent x.1 x.2) =
        before ++ .sent destAddr packet :: after →
      ∃ c, c < s.service.next ∧ destAddr = (s.service.heap c).addr ∧
        Caused B s.service rc s.redis (obs ++ before) destAddr packet := by
    intro before after destAddr packet heq
    have hserving : Serving (obs ++ before) sender data r := by
      refine hserving.append fun x hx => ?_
      have hmem : x ∈ (q.perform s.service).map fun y => Observation.sent y.1 y.2 := by
        rw [heq]
        exact List.mem_append_left _ hx
      exact isCall_of_mem_sent hmem
    have hmem : Observation.sent destAddr packet ∈
        (q.perform s.service).map fun x => Observation.sent x.1 x.2 := by
      rw [heq]
      exact List.mem_append_right _ List.mem_cons_self
    obtain ⟨⟨dest, p⟩, hx, hsent⟩ := List.mem_map.mp hmem
    cases hsent
    cases hreq with
    | answer hanswer =>
        obtain ⟨c, hc, heq⟩ := mem_sendTo_iff.mp hx
        cases heq
        obtain ⟨hlt, hsession⟩ := hlookup hc
        obtain rfl := h.consistent.sessionId_inj hbound hlt hr.created (hsession.trans hid)
        rw [hid] at hanswer
        exact ⟨c, hlt, rfl, .answer hserving hr.key hanswer⟩
    | relay hmove =>
        obtain ⟨id, c, hne, hc, heq⟩ := mem_broadcastExcept_iff.mp hx
        cases heq
        obtain ⟨hlt, hsession⟩ := hlookup hc
        refine ⟨c, hlt, rfl, .relay hserving hr.key hmove hid ?_ ?_⟩
        · rintro rfl
          exact hne (hsession.symm.trans hid.symm)
        · exact List.mem_append_left before (h.created c hlt).1
  refine h.extend h.consistent (.refl _) (.refl _)
    (fun r hle hlt => absurd hlt (not_lt.mpr hle)) ?_ ?_ ?_ ?_ ?_
  · intro r hr
    obtain ⟨x, -, heq⟩ := List.mem_map.mp hr
    cases heq
  · have hrest : InProgress B s.service rc s.redis obs (.sending requests fault) := fun q' hq' =>
      hprogress q' (List.mem_cons_of_mem q hq')
    exact hrest.append (.refl _) fun x hx => isCall_of_mem_sent hx
  · intro before after destAddr packet heq
    obtain ⟨c, hlt, rfl, -⟩ := hdest heq
    exact (h.created c hlt).2.append
  · intro before after destAddr packet heq
    obtain ⟨c, -, -, hcause⟩ := hdest heq
    exact .inr hcause
  · intro destAddr
    have hone := count_perform_le h.consistent q destAddr
    refine .of_countP (fun x hx => isCall_of_mem_sent hx) ?_
    rw [hrecv]
    simp only [Receiver.allowance, List.length_cons]
    omega

/-- What is seen of a step that calls nothing and sends nothing. -/
theorem observations_idle : observations none {} = [] := rfl

/-- What is seen of a call. -/
theorem observations_call (sender : SockAddrIn) (data : Bytes) (accepted : Option UdpClientContextRef) :
    observations (some (sender, data)) { accepted } =
      .handling sender data :: accepted.toList.map .accepted := by
  simp [observations]

/-- A datagram without a session id registers its sender. -/
theorem SendInv.register (h : SendInv B rc obs s) {d : Datagram}
    (hlen : udpPacketHeaderSize ≤ d.data.length) (hid : d.header.sessionId = 0)
    (hbound : (s.service.registerClient d.senderAddr s.clock).2.next < 2 ^ 64) :
    SendInv B rc (obs ++ [.handling d.senderAddr d.data,
        .accepted (s.service.registerClient d.senderAddr s.clock).1])
      { s with
        service := (s.service.registerClient d.senderAddr s.clock).2
        receiver := .found d (s.service.registerClient d.senderAddr s.clock).1 } := by
  have hnext := h.consistent.registerClient d.senderAddr s.clock hbound
  have hfiled : (s.service.registerClient d.senderAddr s.clock).2.addrMap.lookup
      (sockAddrKey d.senderAddr) = some (s.service.registerClient d.senderAddr s.clock).1 :=
    registerClient_addrMap
  have hserved : ServedBy (s.service.registerClient d.senderAddr s.clock).2 d.senderAddr
      (s.service.registerClient d.senderAddr s.clock).1 :=
    ⟨hnext.allocated _ (hnext.registered_of_addrMap hfiled), hnext.key_eq hfiled⟩
  have hserving : Serving (obs ++ [.handling d.senderAddr d.data,
      .accepted (s.service.registerClient d.senderAddr s.clock).1]) d.senderAddr d.data
      (s.service.registerClient d.senderAddr s.clock).1 :=
    ⟨obs, [.accepted _], rfl, by simp [Observation.isCall], by simp⟩
  refine h.extend_unsent (by simp) hnext (.refl _) (.registerClient _ _ _) ?_ ?_ ?_
    (rationed_call (by simp) le_rfl)
  · intro r hle hlt
    rcases hlook : s.service.addrMap.lookup (sockAddrKey d.senderAddr) with _ | r₀
    · rw [registerClient_of_none hlook] at hlt ⊢
      obtain rfl : r = s.service.next := by
        dsimp only at hlt
        omega
      exact ⟨by simp, d.data, by simp, hid⟩
    · rw [registerClient_of_some hlook] at hlt
      exact absurd hlt (not_lt.mpr hle)
  · intro r hr
    obtain rfl : r = (s.service.registerClient d.senderAddr s.clock).1 := by simpa using hr
    exact hserved.created
  · exact ⟨⟨obs, [.accepted _], rfl, by simp [Observation.isCall]⟩, hserved, hlen,
      fun _ => hserving⟩

/-- The datagram is looked up. -/
theorem SendInv.look (h : SendInv B rc obs s) {d : Datagram} (hrecv : s.receiver = .received d)
    (hbound : (s.receiverStep B).1.service.next < 2 ^ 64) :
    SendInv B rc (obs ++ observations s.receiver.handling (s.receiverStep B).2)
      (s.receiverStep B).1 := by
  have hlast : LastCall (obs ++ [.handling d.senderAddr d.data]) d.senderAddr d.data :=
    ⟨obs, [], rfl, fun x hx => absurd hx List.not_mem_nil⟩
  have hquiet : ∀ receiver : Receiver,
      InProgress B s.service rc s.redis (obs ++ [.handling d.senderAddr d.data]) receiver →
      receiver.allowance ≤ 2 →
      SendInv B rc (obs ++ [.handling d.senderAddr d.data]) { s with receiver } := by
    intro receiver hprogress hallowance
    exact h.extend_unsent (by simp) h.consistent (.refl _) (.refl _)
      (fun r hle hlt => absurd hlt (not_lt.mpr hle)) (by simp) hprogress
      (rationed_call (by simp) hallowance)
  revert hbound
  unfold Threads.receiverStep
  simp only [hrecv, Receiver.handling]
  by_cases hlen : d.data.length < udpPacketHeaderSize
  · rw [if_pos hlen]
    intro _
    rw [observations_call]
    exact hquiet .idle trivial (Nat.zero_le _)
  rw [if_neg hlen]
  have hheader := not_lt.mp hlen
  by_cases hid : d.header.sessionId = 0
  · simp only [lookup, if_pos hid]
    intro hbound
    rw [observations_call]
    exact h.register hheader hid hbound
  · simp only [lookup, if_neg hid]
    intro _
    rcases hfind : s.service.findByAddr d.senderAddr with _ | r
    · rw [observations_call]
      exact hquiet .idle trivial (Nat.zero_le _)
    · rw [observations_call]
      obtain ⟨hlook, -⟩ := findByAddr_eq_some_iff.mp hfind
      have hserved : ServedBy s.service d.senderAddr r :=
        ⟨h.consistent.allocated r (h.consistent.registered_of_addrMap hlook),
          h.consistent.key_eq hlook⟩
      exact hquiet (.found d r) ⟨hlast, hserved, hheader, fun hzero => absurd hzero hid⟩ le_rfl

/-- The datagram passes the sequence filter, or does not. -/
theorem SendInv.filter (h : SendInv B rc obs s) {d : Datagram} {r : UdpClientContextRef}
    (hrecv : s.receiver = .found d r) :
    SendInv B rc (obs ++ observations s.receiver.handling (s.receiverStep B).2)
      (s.receiverStep B).1 := by
  have hprogress := h.progress
  rw [hrecv] at hprogress
  obtain ⟨hcall, hserved, hlen, hserving⟩ := hprogress
  have hallowance : s.receiver.allowance = 2 := by rw [hrecv]; rfl
  unfold Threads.receiverStep
  simp only [hrecv, Receiver.handling]
  by_cases hid : d.header.sessionId = 0
  · simp only [accept, if_pos hid]
    rw [observations_idle]
    refine h.extend_unsent (by simp) h.consistent (.refl _) (.refl _)
      (fun r' hle hlt => absurd hlt (not_lt.mpr hle)) (by simp) ?_ ?_
    · rw [List.append_nil]
      exact ⟨hserving hid, hserved, hlen⟩
    · exact fun _ => .nil hallowance.ge
  · rcases haccept : accept s.service r d s.clock with _ | service
    · rw [observations_idle]
      exact h.extend_unsent (by simp) h.consistent (.refl _) (.refl _)
        (fun r' hle hlt => absurd hlt (not_lt.mpr hle)) (by simp) trivial
        fun _ => .nil (Nat.zero_le _)
    · obtain ⟨-, rfl⟩ := (accept_eq_some_iff hid).mp haccept
      have hkeeps := KeepsAttrs.modifyCtx (s := s.service) (r := r)
        (f := fun ctx => { ctx with lastSeq := d.header.sequence, lastAliveMs := s.clock }) rfl rfl
      have hshown : observations none { accepted := some r } = [.accepted r] := by
        simp [observations]
      simp only [if_neg hid]
      rw [hshown]
      refine h.extend_unsent (by simp)
        (h.consistent.modifyCtx (r := r)
          (f := fun ctx => { ctx with lastSeq := d.header.sequence, lastAliveMs := s.clock }) rfl rfl)
        (.refl _) hkeeps (fun r' hle hlt => absurd hlt (not_lt.mpr hle)) ?_ ?_ ?_
      · intro r' hr'
        obtain rfl : r' = r := by simpa using hr'
        exact hserved.created
      · refine ⟨hcall.accept r, ⟨hserved.created, ?_⟩, hlen⟩
        rw [(hkeeps.attrs r hserved.created).2]
        exact hserved.key
      · exact fun _ => .of_countP (by simp [Observation.isCall]) (by
          simpa [Observation.isSendTo, Receiver.allowance] using hallowance.ge)

/-- The handler runs. -/
theorem SendInv.handle (h : SendInv B rc obs s) {d : Datagram} {r : UdpClientContextRef}
    (hrecv : s.receiver = .accepted d r) :
    SendInv B rc (obs ++ observations s.receiver.handling (s.receiverStep B).2)
      (s.receiverStep B).1 := by
  have hprogress := h.progress
  rw [hrecv] at hprogress
  obtain ⟨hserving, hserved, hlen⟩ := hprogress
  have hhandled : Handled B _ _ s.clock (s.service.heap r) s.redis
      (handlePacket B (s.service.heap r) s.redis d.data d.data.length s.clock) :=
    handled_handlePacket d.data d.data.length
  have hsends : SendsFor B s.redis (s.service.heap r) d.data
      (handlePacket B (s.service.heap r) s.redis d.data d.data.length s.clock) :=
    requested_handlePacket hlen d.length_data_lt
  obtain ⟨hrequested, hlength⟩ := hsends
  have hkeeps := KeepsAttrs.modifyCtx (s := s.service) (r := r) (f := fun _ =>
    (handlePacket B (s.service.heap r) s.redis d.data d.data.length s.clock).ctx)
    hhandled.sessionId hhandled.addr
  obtain ⟨hsession, haddr⟩ := hkeeps.attrs r hserved.created
  unfold Threads.receiverStep
  simp only [hrecv, Receiver.handling, dispatch]
  rw [observations_idle]
  refine h.extend_unsent (by simp)
    (Consistent.modifyCtx (r := r) (f := fun _ =>
      (handlePacket B (s.service.heap r) s.redis d.data d.data.length s.clock).ctx)
      h.consistent hhandled.sessionId hhandled.addr)
    (hhandled.commands.mono fun _ _ => trivial) hkeeps
    (fun r' hle hlt => absurd hlt (not_lt.mpr hle)) (by simp) ?_ ?_
  · intro q hq
    rw [List.append_nil]
    refine ⟨d.senderAddr, d.data, r, s.service.heap r, hserving, ⟨hserved.created, ?_⟩,
      hsession.symm, (hrequested q hq).extend h.commands (.refl _)⟩
    rw [haddr]
    exact hserved.key
  · rw [hrecv]
    exact fun _ => .nil hlength

/-- **A step of the receiving thread.** -/
theorem SendInv.receiverStep (h : SendInv B rc obs s)
    (hbound : (s.receiverStep B).1.service.next < 2 ^ 64) :
    SendInv B rc (obs ++ observations s.receiver.handling (s.receiverStep B).2)
      (s.receiverStep B).1 := by
  rcases hrecv : s.receiver with _ | d | ⟨d, r⟩ | ⟨d, r⟩ | ⟨_ | ⟨q, requests⟩, fault⟩
  · unfold Threads.receiverStep
    simp only [hrecv, Receiver.handling]
    rw [observations_idle, List.append_nil]
    exact h
  · rw [← hrecv]
    exact h.look hrecv hbound
  · rw [← hrecv]
    exact h.filter hrecv
  · rw [← hrecv]
    exact h.handle hrecv
  · unfold Threads.receiverStep
    simp only [hrecv, Receiver.handling]
    rw [observations_idle]
    exact h.extend_unsent (by simp) h.consistent (.refl _) (.refl _)
      (fun r hle hlt => absurd hlt (not_lt.mpr hle)) (by simp) trivial fun _ => .nil (Nat.zero_le _)
  · have hlt : s.service.next < 2 ^ 64 := by
      unfold Threads.receiverStep at hbound
      simpa only [hrecv] using hbound
    unfold Threads.receiverStep
    simp only [hrecv, Receiver.handling]
    exact h.send hrecv hlt

/-- A step of the main thread. -/
theorem SendInv.mainStep (h : SendInv B rc obs s) :
    SendInv B rc (obs ++ observations none s.mainStep.2) s.mainStep.1 := by
  have hquiet : ∀ main : MainThread, SendInv B rc (obs ++ observations none {}) { s with main } := by
    intro main
    rw [observations_idle, List.append_nil]
    exact ⟨h.consistent, h.commands, h.created, h.accepted, h.progress, h.asked, h.caused, h.rationed⟩
  unfold Threads.mainStep
  rcases s.main with _ | now | ⟨_ | ⟨id, todo⟩, expired⟩ | ⟨_ | ⟨id, todo⟩⟩
  · exact hquiet _
  · exact hquiet _
  · exact hquiet _
  · -- a context is removed
    obtain ⟨hheap, hnext, -⟩ := removeClient_frame s.service id
    have hshown : observations none { removed := s.service.findById id } =
        (s.service.findById id).toList.map .removed := by
      simp [observations]
    dsimp only
    rw [hshown]
    refine h.extend_unsent (by simp) (h.consistent.removeClient id) (.refl _) (.removeClient _ _) ?_
      (by simp) ?_ ?_
    · intro r hle hlt
      rw [hnext] at hlt
      exact absurd hlt (not_lt.mpr hle)
    · exact h.progress.append (.removeClient _ _) (by simp [Observation.isCall])
    · exact fun _ => .of_countP (by simp [Observation.isCall]) (by simp [Observation.isSendTo])
  · exact hquiet _
  · -- a departure is announced
    have hshown : observations none { sent := onClientLeave s.service id } =
        (onClientLeave s.service id).map fun x => .sent x.1 x.2 := by
      simp [observations]
    have hleave : ∀ {before after destAddr packet},
        ((onClientLeave s.service id).map fun x => Observation.sent x.1 x.2) =
          before ++ .sent destAddr packet :: after →
        packet = .lobbyPlayerLeave id ∧ ∃ c, c < s.service.next ∧
          destAddr = (s.service.heap c).addr := by
      intro before after destAddr packet heq
      have hmem : Observation.sent destAddr packet ∈
          (onClientLeave s.service id).map fun x => Observation.sent x.1 x.2 := by
        rw [heq]
        exact List.mem_append_right _ List.mem_cons_self
      obtain ⟨x, hx, hsent⟩ := List.mem_map.mp hmem
      obtain ⟨id', c, hc, rfl⟩ := mem_broadcast_iff.mp hx
      cases hsent
      exact ⟨rfl, c, h.consistent.allocated c (h.consistent.registered_of_idMap hc), rfl⟩
    dsimp only
    rw [hshown]
    refine h.extend h.consistent (.refl _) (.refl _)
      (fun r hle hlt => absurd hlt (not_lt.mpr hle)) (by simp)
      (h.progress.append (.refl _) fun x hx => isCall_of_mem_sent hx) ?_ ?_ ?_
    · intro before after destAddr packet heq
      obtain ⟨-, c, hc, rfl⟩ := hleave heq
      exact (h.created c hc).2.append
    · intro before after destAddr packet heq
      exact .inl ⟨id, (hleave heq).1⟩
    · intro destAddr
      have hnone : ((onClientLeave s.service id).map fun x => Observation.sent x.1 x.2).countP
          (·.isSendTo destAddr) = 0 := by
        rw [List.countP_eq_zero]
        intro x hx
        obtain ⟨y, hy, rfl⟩ := List.mem_map.mp hx
        obtain ⟨id', c, -, rfl⟩ := mem_broadcast_iff.mp hy
        exact Bool.false_ne_true
      refine .of_countP (fun x hx => isCall_of_mem_sent hx) ?_
      rw [hnone, Nat.zero_add]

/-- **The step lemma.** -/
theorem sendInv_step {a : Action} (h : SendInv B rc obs s)
    (hbound : (s.step B a).1.service.next < 2 ^ 64) :
    SendInv B rc (obs ++ threadsObservations ((threads B).entry s a)) (s.step B a).1 := by
  simp only [threadsObservations, Transducer.entry, threads]
  unfold Threads.step at hbound ⊢
  by_cases hfault : s.fault.isSome
  · -- a process that has ended does nothing
    simp only [if_pos hfault]
    cases a with
    | receiver =>
        rcases hcall : s.receiver.handling with _ | ⟨sender, data⟩
        · rw [observations_idle, List.append_nil]
          exact h
        · rw [observations_call]
          have hidle : InProgress B s.service rc s.redis (obs ++ .handling sender data ::
              (none : Option UdpClientContextRef).toList.map .accepted) s.receiver ∧
              s.receiver.allowance ≤ 2 := by
            cases hrecv : s.receiver with
            | received d => exact ⟨trivial, Nat.zero_le 2⟩
            | _ =>
                rw [hrecv] at hcall
                cases hcall
          exact h.extend_unsent (by simp) h.consistent (.refl _) (.refl _)
            (fun r hle hlt => absurd hlt (not_lt.mpr hle)) (by simp) hidle.1
            (rationed_call (by simp) hidle.2)
    | _ =>
        dsimp only
        rw [observations_idle, List.append_nil]
        exact h
  simp only [if_neg hfault] at hbound ⊢
  cases a with
  | elapse ms =>
      dsimp only
      rw [observations_idle, List.append_nil]
      exact ⟨h.consistent, h.commands, h.created, h.accepted, h.progress, h.asked, h.caused, h.rationed⟩
  | arrive d =>
      dsimp only
      cases hrecv : s.receiver with
      | idle =>
          dsimp only
          rw [observations_idle]
          exact h.extend_unsent (by simp) h.consistent (.refl _) (.refl _)
            (fun r hle hlt => absurd hlt (not_lt.mpr hle)) (by simp) trivial
            fun _ => .nil (Nat.zero_le _)
      | _ =>
          dsimp only
          rw [observations_idle, List.append_nil]
          exact h
  | receiver => exact h.receiverStep hbound
  | main => exact h.mainStep

end steps

/-! ## The whole server -/

/-- Two players shake hands, and the first one moves. -/
def relayRun : List (Bool × ThreadChoice) :=
  startUp ++ serveBy knockA ++ serveBy knockB ++ serveBy moveA

/-- In that run each player is acknowledged, and the second is sent the move. -/
example :
    let obs := ((serverThreads Backend.unreachable Bool).trace (serverInit true .disconnected 0)
      relayRun).flatMap serverObservations
    obs.countP (·.isSendTo knockA.senderAddr) = 1 ∧ obs.countP (·.isSendTo knockB.senderAddr) = 2 ∧
      obs.countP (·.isCall) = 3 := by
  decide +kernel

end CowboyPoker.GameServer
