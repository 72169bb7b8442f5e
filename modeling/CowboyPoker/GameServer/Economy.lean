import CowboyPoker.GameServer.Accounts
import CowboyPoker.GameServer.AccountIsolation

/-!
# The economy of the lobby

Purchases and shots along runs of a server whose Redis commands all succeed.

* `actionOf B t` — what happened in a step, read off the datagram and the answer.
* `Misdirected t` — a purchase that can be paid, or a loaded shot, of a user whose id contains a NUL.
  The key of such a user ends at the NUL, so that the hash of another user is charged.
* `TradeCase`, `tradeCase` — the inversion of a step: it leaves the hashes alone, or stores one
  purchase, or stores one shot.
* `economy` — the conservation law `EconomyLaw` holds in a run exactly when no step of it is
  misdirected.
-/

namespace CowboyPoker.GameServer

open CowboyPoker.Found
open CowboyPoker.ServerCore
open UdpService

/-! ## What happened in a step -/

variable {ρ : Type}

/-- The answers to purchases among the packets of a step. -/
def answersOf (built : List ServerPacket) : List Bool :=
  built.filterMap fun
    | .buyWeaponResult _ success _ _ => some success
    | _ => none

/-- `ConsumeLobbyAmmo` returns true for the user of a session that has one. -/
def shotSucceeds (B : Backend ρ) (rc : RedisClient ρ) (user : Bytes) : Bool :=
  user ≠ [] && match (rc.consumeLobbyAmmo B user).1 with
    | .ok (consumed, _) => consumed
    | .error _ => false

/-- The purchase or the shot of a step. -/
def actionOf (B : Backend ρ) (t : Entry (Server ρ) Event Output) : Option Trade :=
  match t.input, t.output.dispatched with
  | .recv d _ _, some r =>
      match PacketType.ofId d.header.id with
      | some .cPurchaseWeapon =>
          match (parseBuyWeapon (d.data.drop udpPacketHeaderSize)
              (d.data.length - udpPacketHeaderSize)).1, answersOf t.output.built with
          | some (user, weaponType), success :: _ => some (.purchase user weaponType success)
          | _, _ => none
      | some .cGunShotLobby =>
          let user := (t.after.service.heap r).userId
          some (.shot user (shotSucceeds B t.before.redis user))
      | _ => none
  | _, _ => none

section entry

variable {s : Server ρ} {d : Datagram} {now : ℤ} {r : UdpClientContextRef} {service : UdpService}

/-- The answers among the packets of a handler. -/
theorem answersOf_map_packet (requests : List SendRequest) :
    answersOf (requests.map SendRequest.packet) = (purchaseAnswers requests).map Prod.fst := by
  rw [answersOf, purchaseAnswers, List.filterMap_map, List.map_filterMap]
  congr 1
  funext q
  simp only [Function.comp_apply]
  cases q.packet <;> rfl

/-- What a dispatched datagram did, by the type of its packet. -/
theorem actionOf_entry (B : Backend ρ) (later : ℤ) (hfault : s.fault = none)
    (harr : Arrives s.service d now r service) :
    actionOf B ((server B).entry s (.recv d now later)) =
      let out := handlePacket B (service.heap r) s.redis d.data d.data.length later
      match PacketType.ofId d.header.id with
      | some .cPurchaseWeapon =>
          match (parseBuyWeapon (d.data.drop udpPacketHeaderSize)
              (d.data.length - udpPacketHeaderSize)).1,
            (purchaseAnswers out.requests).map Prod.fst with
          | some (user, weaponType), success :: _ => some (.purchase user weaponType success)
          | _, _ => none
      | some .cGunShotLobby => some (.shot out.ctx.userId (shotSucceeds B s.redis out.ctx.userId))
      | _ => none := by
  have heq : s.step B (.recv d now later) = Server.handled B s d later r service :=
    step_recv_of_arrives hfault harr
  simp only [actionOf, Transducer.entry, server, heq, Server.handled, answersOf_map_packet,
    modifyCtx_heap_self]

/-- The step leaves Redis as the handler does. -/
theorem redis_entry (B : Backend ρ) (later : ℤ) (hfault : s.fault = none)
    (harr : Arrives s.service d now r service) :
    ((server B).entry s (.recv d now later)).after.redis =
      (handlePacket B (service.heap r) s.redis d.data d.data.length later).redis := by
  have heq : s.step B (.recv d now later) = Server.handled B s d later r service :=
    step_recv_of_arrives hfault harr
  simp only [Transducer.entry, server, heq, Server.handled]

/-- The trace of a run that is one step longer. -/
theorem trace_concat (B : Backend ρ) (s₀ : Server ρ) (fs : List Event)
    (e : Event) : (server B).trace s₀ (fs ++ [e]) =
      (server B).trace s₀ fs ++ [(server B).entry ((server B).exec s₀ fs) e] := by
  rw [Transducer.trace_append, Transducer.trace_cons, Transducer.trace_nil]

end entry

/-- `GetBalance` on an account. -/
theorem Holds.storedBalance_eq {B : Backend ρ} {record : Record} {a : Account}
    (h : Holds B record a) : RedisClient.storedBalance record = some (Int64.ofInt a.balance) := by
  simp [RedisClient.storedBalance, h.balance, h.stoll_balance, Except.toOption]

variable [RedisState ρ]

/-- A datagram that is about to be dispatched on the context `r` of the registry `service` makes a
purchase that can be paid, or fires a loaded shot, for `user`. -/
inductive Trades (rc : RedisClient ρ) (service : UdpService) (r : UdpClientContextRef)
    (d : Datagram) : Bytes → Prop
  /-- The purchase gets as far as writing. -/
  | purchase {user : Bytes} {weaponType : Int32} {reads : List Span} {weapon : WeaponInfo}
      {balance : Int64} (htype : PacketType.ofId d.header.id = some .cPurchaseWeapon)
      (hparse : parseBuyWeapon (d.data.drop udpPacketHeaderSize)
        (d.data.length - udpPacketHeaderSize) = (some (user, weaponType), reads))
      (hreach : ReachesStore rc user weaponType weapon balance) : Trades rc service r d user
  /-- The user of the session has a weapon and a round. -/
  | shot (htype : PacketType.ofId d.header.id = some .cGunShotLobby)
      (huser : (service.heap r).userId ≠ []) (hloaded : Loaded rc (service.heap r).userId) :
      Trades rc service r d (service.heap r).userId

/-- A step in which a user whose id contains a NUL trades. -/
def Misdirected (t : Entry (Server ρ) Event Output) : Prop :=
  ∃ d now later r service user, t.input = .recv d now later ∧ t.before.fault = none ∧
    Arrives t.before.service d now r service ∧ Trades t.before.redis service r d user ∧ 0 ∈ user

/-- Every user has an account or no hash at all. -/
def Funded (B : Backend ρ) (rc : RedisClient ρ) : Prop :=
  ∀ u, rc.userHash u = ∅ ∨ ∃ a, Holds B (rc.userHash u) a

/-- **The conservation law** of a run on `es` from `s₀`. -/
structure EconomyLaw (B : Backend ρ) (s₀ : Server ρ)
    (es : List Event) : Prop where
  /-- In every state that is reached, every account is the one that the actions of its user so far
  lead to. -/
  accounts : ∀ fs, fs <+: es → ∀ u a₀, Holds B (s₀.redis.userHash u) a₀ →
    ∃ a, Holds B
        (((server B).exec s₀ fs).redis.userHash u) a ∧
      Law u a₀ (((server B).trace s₀ fs).filterMap
        (actionOf B)) a
  /-- What is refused changes no hash. -/
  refused : ∀ t ∈ (server B).trace s₀ es, ∀ act ∈ actionOf B t,
    act.success = false → t.after.redis.store = t.before.redis.store
  /-- Nobody's hash is changed by a step that is not their own. -/
  others : ∀ t ∈ (server B).trace s₀ es, ∀ u,
    (∀ act ∈ actionOf B t, act.user ≠ u) →
      t.after.redis.userHash u = t.before.redis.userHash u

/-! ## The inversion of a step -/

section inversion

variable {B : Backend ρ} {s : Server ρ} {d : Datagram} {now later : ℤ}
  {r : UdpClientContextRef} {service : UdpService}

/-- What a step did to the hashes. -/
inductive TradeCase (B : Backend ρ)
    (t : Entry (Server ρ) Event Output) : Prop
  /-- Nothing, and nothing was granted. -/
  | idle (hrefused : ∀ act ∈ actionOf B t, act.success = false)
      (hleaves : t.after.redis.Leaves t.before.redis.store) (hdirected : ¬ Misdirected t)
  /-- A purchase was granted and stored. -/
  | bought {user : Bytes} {weaponType : Int32} {weapon : WeaponInfo} {balance : Int64}
      (haction : actionOf B t = some (.purchase user weaponType true))
      (hreach : ReachesStore t.before.redis user weaponType weapon balance)
      (hleaves : t.after.redis.Leaves (Function.update t.before.redis.store (userKey user)
        (RedisState.putAll ρ (t.before.redis.record user) (RedisClient.purchaseFields
          (balance - weapon.price) weaponType (weapon.magazineSize * 5) 0))))
      (hdirected : Misdirected t ↔ 0 ∈ user)
  /-- A shot was granted and stored. -/
  | fired {user : Bytes} (haction : actionOf B t = some (.shot user true))
      (hloaded : Loaded t.before.redis user)
      (hleaves : t.after.redis.Leaves (Function.update t.before.redis.store (userKey user)
        (RedisState.put ρ (t.before.redis.record user) (ascii "ammo")
          (toStringInt32 (storedInt32 (t.before.redis.record user) (ascii "ammo") - 1)))))
      (hdirected : Misdirected t ↔ 0 ∈ user)

/-- The user that a datagram trades for is determined. -/
theorem Trades.unique {rc : RedisClient ρ} {user user' : Bytes}
    (h : Trades rc service r d user) (h' : Trades rc service r d user') : user' = user := by
  cases h with
  | purchase htype hparse =>
      cases h' with
      | purchase htype' hparse' =>
          rw [hparse] at hparse'
          cases hparse'
          rfl
      | shot htype' => cases htype.symm.trans htype'
  | shot htype =>
      cases h' with
      | purchase htype' => cases htype.symm.trans htype'
      | shot => rfl

/-- Whether the step on a datagram that arrives is misdirected. -/
theorem misdirected_iff {B : Backend ρ} (hfault : s.fault = none)
    (harr : Arrives s.service d now r service) :
    Misdirected ((server B).entry s (.recv d now later)) ↔
      ∃ user, Trades s.redis service r d user ∧ 0 ∈ user := by
  constructor
  · rintro ⟨d', now', later', r', service', user, hinput, -, harr', htrades, hmem⟩
    cases hinput
    obtain ⟨rfl, rfl⟩ := harr.unique harr'
    exact ⟨user, htrades, hmem⟩
  · rintro ⟨user, htrades, hmem⟩
    exact ⟨d, now, later, r, service, user, rfl, hfault, harr, htrades, hmem⟩

/-- A step that trades for a user is misdirected exactly when the id has a NUL. -/
theorem misdirected_iff_of_trades {B : Backend ρ} (hfault : s.fault = none)
    (harr : Arrives s.service d now r service) {user : Bytes}
    (htrades : Trades s.redis service r d user) :
    Misdirected ((server B).entry s (.recv d now later)) ↔ 0 ∈ user := by
  rw [misdirected_iff hfault harr]
  constructor
  · rintro ⟨user', htrades', hmem⟩
    rwa [htrades.unique htrades'] at hmem
  · exact fun hmem => ⟨user, htrades, hmem⟩

/-- A step on something other than a datagram that arrives. -/
theorem tradeCase_of_not_dispatched (hhealthy : s.redis.Healthy) {e : Event}
    (hredis : (s.step B e).1.redis = s.redis)
    (hdispatched : (s.step B e).2.dispatched = none)
    (hnot : ∀ d now later r service, e = .recv d now later → s.fault = none →
      ¬ Arrives s.service d now r service) :
    TradeCase B ((server B).entry s e) := by
  refine .idle ?_ ?_ ?_
  · intro act hact
    have hnone : actionOf B ((server B).entry s e) = none := by
      simp only [actionOf, Transducer.entry, server, hdispatched]
    rw [hnone] at hact
    cases hact
  · show (s.step B e).1.redis.Leaves s.redis.store
    rw [hredis]
    exact ⟨hhealthy, rfl⟩
  · rintro ⟨d, now, later, r, service, user, hinput, hfault, harr, -⟩
    exact hnot d now later r service hinput hfault harr

variable [RedisLaws B]

/-- A handler that only reads Redis. -/
theorem handlePacket_healthy {ctx : UdpClientContext} {rc : RedisClient ρ}
    (hhealthy : rc.Healthy) (buffer : Bytes) (len : ℕ)
    (hpurchase : PacketType.ofId (UdpPacketHeader.read buffer).id = some .cPurchaseWeapon →
      (parseBuyWeapon (buffer.drop udpPacketHeaderSize) (len - udpPacketHeaderSize)).1 = none)
    (hshot : PacketType.ofId (UdpPacketHeader.read buffer).id = some .cGunShotLobby →
      ctx.userId = []) :
    (handlePacket B ctx rc buffer len later).redis.Leaves rc.store := by
  unfold handlePacket
  dsimp only
  generalize PacketType.ofId (UdpPacketHeader.read buffer).id = type at hpurchase hshot
  rcases type with _ | type
  · exact ⟨hhealthy, rfl⟩
  cases type with
  | cUdpHello =>
      dsimp only [handleCUdpHello]
      rcases parseUdpHello (buffer.drop udpPacketHeaderSize)
        (len - udpPacketHeaderSize) with ⟨_ | user, reads⟩
      · exact ⟨hhealthy, rfl⟩
      obtain ⟨-, hleaves⟩ := RedisClient.getPlayerInfo_healthy B hhealthy user
      dsimp only [bindUser]
      generalize rc.getPlayerInfo B user = out at hleaves
      obtain ⟨e | ⟨found, info⟩, rc'⟩ := out
      · exact hleaves
      · cases found <;> exact hleaves
  | cLobbyMove =>
      dsimp only [handleCLobbyMove]
      split <;> exact ⟨hhealthy, rfl⟩
  | cPurchaseWeapon =>
      have hnone := hpurchase rfl
      dsimp only [handleCBuyWeapon]
      rcases hparse : parseBuyWeapon (buffer.drop udpPacketHeaderSize)
        (len - udpPacketHeaderSize) with ⟨_ | ⟨user, weaponType⟩, reads⟩
      · exact ⟨hhealthy, rfl⟩
      · rw [hparse] at hnone
        cases hnone
  | cGunShotLobby =>
      dsimp only [handleCGunShotLobby]
      rw [if_pos (hshot rfl)]
      exact ⟨hhealthy, rfl⟩
  | _ => exact ⟨hhealthy, rfl⟩

/-- The hash that the client reaches for a user can be read. -/
theorem Funded.readable {B : Backend ρ} {rc : RedisClient ρ} (h : Funded B rc)
    (user : Bytes) : Readable B (rc.record user) := by
  rw [RedisClient.record_eq_userHash]
  rcases h (cstr user) with hempty | ⟨a, ha⟩
  · rw [hempty]
    exact readable_empty B
  · exact ha.readable

/-- A funded balance can be converted. -/
theorem Funded.converts_balance {B : Backend ρ} {rc : RedisClient ρ} (h : Funded B rc)
    (user : Bytes) : ∀ value, (rc.record user).lookup (ascii "balance") = some value →
      ∃ b, stoll (cstr value) = .ok b := by
  intro value hlook
  rw [RedisClient.record_eq_userHash] at hlook
  rcases h (cstr user) with hempty | ⟨a, ha⟩
  · rw [hempty] at hlook
    simp at hlook
  · exact ha.converts_balance hlook

/-- A purchase that arrives. -/
theorem tradeCase_purchase (hhealthy : s.redis.Healthy) (hfunded : Funded B s.redis)
    (hfault : s.fault = none) (harr : Arrives s.service d now r service) {user : Bytes}
    {weaponType : Int32} {reads : List Span}
    (htype : PacketType.ofId d.header.id = some .cPurchaseWeapon)
    (hparse : parseBuyWeapon (d.data.drop udpPacketHeaderSize)
      (d.data.length - udpPacketHeaderSize) = (some (user, weaponType), reads)) :
    TradeCase B ((server B).entry s (.recv d now later)) := by
  have haction := actionOf_entry B later hfault harr
  have hredis := redis_entry B later hfault harr
  have hout : handlePacket B (service.heap r) s.redis d.data d.data.length later =
      buyWeapon B (service.heap r) s.redis user weaponType reads := by
    have htype' : PacketType.ofId (UdpPacketHeader.read d.data).id = some .cPurchaseWeapon := htype
    simp only [handlePacket, htype', handleCBuyWeapon, hparse]
  rw [hout] at haction hredis
  simp only [htype, hparse] at haction
  rcases buyWeapon_healthy (B := B) hhealthy (service.heap r) weaponType reads
    (hfunded.converts_balance user) with
    ⟨hnot, ⟨b, hanswers⟩, hleaves⟩ | ⟨weapon, balance, hreach, ⟨b, hanswers⟩, hleaves⟩
  · rw [hanswers] at haction
    refine .idle ?_ (hredis ▸ hleaves) ?_
    · intro act hact
      rw [haction] at hact
      cases hact
      rfl
    · rw [misdirected_iff hfault harr]
      rintro ⟨user', htrades, -⟩
      cases htrades with
      | purchase _ hparse' hreach =>
          rw [hparse] at hparse'
          cases hparse'
          exact hnot _ _ hreach
      | shot htype' => cases htype.symm.trans htype'
  · rw [hanswers] at haction
    exact .bought haction hreach (hredis ▸ hleaves)
      (misdirected_iff_of_trades hfault harr (.purchase htype hparse hreach))

/-- A shot that arrives on a session with a user. -/
theorem tradeCase_shot (hhealthy : s.redis.Healthy) (hfunded : Funded B s.redis)
    (hfault : s.fault = none) (harr : Arrives s.service d now r service)
    (htype : PacketType.ofId d.header.id = some .cGunShotLobby)
    (huser : (service.heap r).userId ≠ []) :
    TradeCase B ((server B).entry s (.recv d now later)) := by
  have haction := actionOf_entry B later hfault harr
  have hredis := redis_entry B later hfault harr
  have hout : handlePacket B (service.heap r) s.redis d.data d.data.length later =
      handleCGunShotLobby B (service.heap r) s.redis := by
    have htype' : PacketType.ofId (UdpPacketHeader.read d.data).id = some .cGunShotLobby := htype
    simp only [handlePacket, htype']
  rw [hout] at haction hredis
  simp only [htype, ctx_handleCGunShotLobby] at haction
  have hshot : (handleCGunShotLobby B (service.heap r) s.redis).redis =
      (s.redis.consumeLobbyAmmo B (service.heap r).userId).2 := by
    unfold handleCGunShotLobby
    rw [if_neg huser]
    split <;> simp_all only
  rw [hshot] at hredis
  have hread := hfunded.readable (service.heap r).userId
  by_cases hloaded : Loaded s.redis (service.heap r).userId
  · obtain ⟨hreturn, hleaves⟩ := consumeLobbyAmmo_of_loaded hhealthy hread hloaded
    have hsucceeds : shotSucceeds B s.redis (service.heap r).userId = true := by
      simp [shotSucceeds, hreturn, huser]
    rw [hsucceeds] at haction
    exact .fired haction hloaded (hredis ▸ hleaves)
      (misdirected_iff_of_trades hfault harr (.shot htype huser hloaded))
  · obtain ⟨hreturn, hleaves⟩ := consumeLobbyAmmo_of_not_loaded hhealthy hread hloaded
    have hfails : shotSucceeds B s.redis (service.heap r).userId = false := by
      simp [shotSucceeds, hreturn]
    rw [hfails] at haction
    refine .idle ?_ (hredis ▸ hleaves) ?_
    · intro act hact
      rw [haction] at hact
      cases hact
      rfl
    · rw [misdirected_iff hfault harr]
      rintro ⟨user', htrades, -⟩
      cases htrades with
      | purchase htype' => cases htype.symm.trans htype'
      | shot _ _ hloaded' => exact hloaded hloaded'

/-- A datagram that arrives. -/
theorem tradeCase_handled (hhealthy : s.redis.Healthy)
    (hfunded : Funded B s.redis) (hfault : s.fault = none)
    (harr : Arrives s.service d now r service) :
    TradeCase B ((server B).entry s (.recv d now later)) := by
  by_cases hbuys : PacketType.ofId d.header.id = some .cPurchaseWeapon ∧
      (parseBuyWeapon (d.data.drop udpPacketHeaderSize)
        (d.data.length - udpPacketHeaderSize)).1.isSome
  · obtain ⟨⟨user, weaponType⟩, hsome⟩ := Option.isSome_iff_exists.mp hbuys.2
    exact tradeCase_purchase hhealthy hfunded hfault harr hbuys.1 (Prod.ext hsome rfl)
  by_cases hfires : PacketType.ofId d.header.id = some .cGunShotLobby ∧
      (service.heap r).userId ≠ []
  · exact tradeCase_shot hhealthy hfunded hfault harr hfires.1 hfires.2
  have hpurchase : PacketType.ofId d.header.id = some .cPurchaseWeapon →
      (parseBuyWeapon (d.data.drop udpPacketHeaderSize)
        (d.data.length - udpPacketHeaderSize)).1 = none := fun htype =>
    Option.not_isSome_iff_eq_none.mp fun hsome => hbuys ⟨htype, hsome⟩
  have hshot : PacketType.ofId d.header.id = some .cGunShotLobby →
      (service.heap r).userId = [] := fun htype =>
    not_not.mp fun hne => hfires ⟨htype, hne⟩
  have haction := actionOf_entry B later hfault harr
  have hredis := redis_entry B later hfault harr
  refine .idle ?_ ?_ ?_
  · intro act hact
    rw [haction] at hact
    dsimp only at hact
    split at hact
    · rename_i htype
      rw [hpurchase htype] at hact
      cases hact
    · rename_i htype
      cases hact
      have hctx : (handlePacket B (service.heap r) s.redis d.data d.data.length
          later).ctx.userId = [] := by
        rw [userId_handlePacket, helloUser]
        have htype' : PacketType.ofId (UdpPacketHeader.read d.data).id = some .cGunShotLobby := htype
        simp only [htype', Option.getD_none, hshot htype]
      simp [Trade.success, shotSucceeds, hctx]
    · cases hact
  · rw [hredis]
    exact handlePacket_healthy hhealthy _ _ hpurchase hshot
  · rw [misdirected_iff hfault harr]
    rintro ⟨user, htrades, -⟩
    cases htrades with
    | purchase htype hparse =>
        have hnone := hpurchase htype
        rw [hparse] at hnone
        cases hnone
    | shot htype huser => exact huser (hshot htype)

/-- **The inversion of a step.** -/
theorem tradeCase (hhealthy : s.redis.Healthy) (hfunded : Funded B s.redis)
    (e : Event) : TradeCase B ((server B).entry s e) := by
  have hcase := stepCase B s e
  generalize hnext : s.step B e = next at hcase
  cases hcase with
  | idle result =>
      by_cases harr : ∃ d now later r service, e = .recv d now later ∧ s.fault = none ∧
          Arrives s.service d now r service
      · obtain ⟨d, now, later, r, service, rfl, hfault, harr⟩ := harr
        exact tradeCase_handled hhealthy hfunded hfault harr
      · refine tradeCase_of_not_dispatched hhealthy (by rw [hnext]) (by rw [hnext]) ?_
        intro d now later r service he hfault hd
        exact harr ⟨d, now, later, r, service, he, hfault, hd⟩
  | handled d now later r service hfault he harr =>
      subst he
      exact tradeCase_handled hhealthy hfunded hfault harr
  | registered addr now hfault he =>
      refine tradeCase_of_not_dispatched hhealthy (by rw [hnext]) (by rw [hnext]) ?_
      intro d now later r service he'
      cases he.symm.trans he'
  | removed out hdispatched hbuilt hsent he =>
      refine tradeCase_of_not_dispatched hhealthy (by rw [hnext]) (by rw [hnext, hdispatched]) ?_
      intro d now later r service he'
      exact absurd he' (he d now later)

end inversion

/-! ## One step -/

section step

variable {B : Backend ρ} {t : Entry (Server ρ) Event Output}

/-- What a step keeps of the law. -/
structure StepLaw (B : Backend ρ)
    (t : Entry (Server ρ) Event Output) : Prop where
  /-- The client stays healthy. -/
  healthy : t.after.redis.Healthy
  /-- Who has no hash gets none. -/
  empty : ∀ u, t.before.redis.userHash u = ∅ → t.after.redis.userHash u = ∅
  /-- An account becomes the one that the action leads to. -/
  holds : ∀ u a, Holds B (t.before.redis.userHash u) a →
    ∃ a', Holds B (t.after.redis.userHash u) a' ∧
      Account.Step u a (actionOf B t) a'
  /-- What is refused changes nothing. -/
  refused : ∀ act ∈ actionOf B t, act.success = false →
    t.after.redis.store = t.before.redis.store
  /-- Nobody else's hash changes. -/
  others : ∀ u, (∀ act ∈ actionOf B t, act.user ≠ u) →
    t.after.redis.userHash u = t.before.redis.userHash u

/-- A step that stores `record` for a user without a NUL, of which the action tells. -/
theorem stepLaw_of_update {user : Bytes} {record : Record} {act : Trade}
    (haction : actionOf B t = some act) (huser : act.user = user)
    (hsuccess : act.success = true) (hnul : 0 ∉ user)
    (hleaves : t.after.redis.Leaves
      (Function.update t.before.redis.store (userKey user) record))
    (hne : t.before.redis.userHash user ≠ ∅)
    (hholds : ∀ a, Holds B (t.before.redis.userHash user) a →
      ∃ a', Holds B record a' ∧ Account.Step user a (some act) a') :
    StepLaw B t := by
  have hhash := RedisClient.userHash_update hleaves
  simp only [cstr_eq_self_iff.mpr hnul] at hhash
  refine ⟨hleaves.healthy, ?_, ?_, ?_, ?_⟩
  · intro u hempty
    have hother : u ≠ user := by
      rintro rfl
      exact hne hempty
    rw [hhash, if_neg hother, hempty]
  · intro u a ha
    rw [hhash, haction]
    by_cases heq : u = user
    · subst heq
      rw [if_pos rfl]
      exact hholds a ha
    · rw [if_neg heq]
      refine ⟨a, ha, .same ?_⟩
      intro act' hact' hu
      cases hact'
      exact absurd (hu.symm.trans huser) heq
  · intro act' hact' hfalse
    rw [haction] at hact'
    cases hact'
    rw [hsuccess] at hfalse
    cases hfalse
  · intro u hothers
    have hother : u ≠ user := fun heq => hothers act haction (huser.trans heq.symm)
    rw [hhash, if_neg hother]

/-- **A step that is not misdirected keeps the law.** -/
theorem TradeCase.stepLaw (h : TradeCase B t) (hdirected : ¬ Misdirected t) :
    StepLaw B t := by
  cases h with
  | idle hrefused hleaves =>
      have hhash : ∀ u, t.after.redis.userHash u = t.before.redis.userHash u := fun u =>
        congrFun hleaves.store_eq _
      refine ⟨hleaves.healthy, ?_, ?_, fun _ _ _ => hleaves.store_eq, fun u _ => hhash u⟩
      · intro u hempty
        rw [hhash, hempty]
      · intro u a ha
        rw [hhash]
        exact ⟨a, ha, .same fun act hact _ => hrefused act hact⟩
  | @bought user weaponType weapon balance haction hreach hleaves hiff =>
      have hnul : 0 ∉ user := fun hmem => hdirected (hiff.mpr hmem)
      have hrecord := t.before.redis.record_of_zero_notMem hnul
      have hbalance := hreach.balance_eq.2.2
      rw [hrecord] at hbalance hleaves
      refine stepLaw_of_update haction rfl rfl hnul hleaves ?_ ?_
      · intro (hempty : t.before.redis.userHash user = ∅)
        rw [hempty] at hbalance
        simp [RedisClient.storedBalance] at hbalance
      · intro a ha
        obtain rfl := Option.some.inj (ha.storedBalance_eq.symm.trans hbalance)
        obtain ⟨a', hbuy, ha'⟩ := ha.purchase hreach.weapon_eq hreach.price_le
        exact ⟨a', ha', .bought hbuy⟩
  | @fired user haction hloaded hleaves hiff =>
      have hnul : 0 ∉ user := fun hmem => hdirected (hiff.mpr hmem)
      have hrecord := t.before.redis.record_of_zero_notMem hnul
      obtain ⟨hweapon, hammo⟩ := hloaded
      rw [hrecord] at hweapon hammo hleaves
      refine stepLaw_of_update haction rfl rfl hnul hleaves ?_ ?_
      · intro (hempty : t.before.redis.userHash user = ∅)
        rw [hempty] at hweapon
        exact hweapon (by simp [storedInt32])
      · intro a ha
        obtain ⟨a', hfire, ha'⟩ := ha.shot hweapon hammo
        exact ⟨a', ha', .fired hfire⟩

/-- **A misdirected step changes the hash of somebody else.** -/
theorem TradeCase.exists_changed (h : TradeCase B t) (hmisdirected : Misdirected t) :
    ∃ u, (∀ act ∈ actionOf B t, act.user ≠ u) ∧
      t.after.redis.userHash u ≠ t.before.redis.userHash u := by
  have hother : ∀ user : Bytes, 0 ∈ user → user ≠ cstr user := fun user hmem heq =>
    cstr_eq_self_iff.mp heq.symm hmem
  cases h with
  | idle _ _ hdirected => exact absurd hmisdirected hdirected
  | @bought user weaponType weapon balance haction hreach hleaves hiff =>
      refine ⟨cstr user, ?_, ?_⟩
      · intro act hact
        rw [haction] at hact
        cases hact
        exact hother user (hiff.mp hmisdirected)
      · rw [RedisClient.userHash_update hleaves, if_pos rfl, ← RedisClient.record_eq_userHash]
        intro hsame
        have hbalance := hreach.balance_eq.2.2
        rw [← hsame] at hbalance
        have hlook : (RedisState.putAll ρ (t.before.redis.record user)
            (RedisClient.purchaseFields (balance - weapon.price) weaponType
              (weapon.magazineSize * 5) 0)).lookup (ascii "balance") =
            some (toStringInt64 (balance - weapon.price)) := by
          simp only [RedisState.putAll, RedisClient.purchaseFields, List.foldl_cons, List.foldl_nil]
          rw [RedisState.lookup_put_of_ne _ _ (by decide), RedisState.lookup_put_of_ne _ _ (by decide),
            RedisState.lookup_put_of_ne _ _ (by decide), RedisState.lookup_put_self]
        rw [storedBalance_of_lookup hlook] at hbalance
        exact sub_price_ne balance hreach.weapon_eq (Option.some.inj hbalance)
  | @fired user haction hloaded hleaves hiff =>
      refine ⟨cstr user, ?_, ?_⟩
      · intro act hact
        rw [haction] at hact
        cases hact
        exact hother user (hiff.mp hmisdirected)
      · rw [RedisClient.userHash_update hleaves, if_pos rfl, ← RedisClient.record_eq_userHash]
        intro hsame
        have hammo := storedInt32_of_lookup (RedisState.lookup_put_self (ρ := ρ)
          (t.before.redis.record user) (ascii "ammo")
          (toStringInt32 (storedInt32 (t.before.redis.record user) (ascii "ammo") - 1)))
        rw [hsame] at hammo
        grind

end step

/-! ## Runs -/

section runs

variable {B : Backend ρ} {s₀ : Server ρ}

/-- What relates the hashes at the start to those after the entries `h`. -/
structure RunLaw (B : Backend ρ) (s₀ : Server ρ)
    (h : List (Entry (Server ρ) Event Output)) (s : Server ρ) : Prop where
  /-- The client is healthy. -/
  healthy : s.redis.Healthy
  /-- Who had no hash has none. -/
  empty : ∀ u, s₀.redis.userHash u = ∅ → s.redis.userHash u = ∅
  /-- Every account is the one that the actions lead to. -/
  holds : ∀ u a₀, Holds B (s₀.redis.userHash u) a₀ →
    ∃ a, Holds B (s.redis.userHash u) a ∧
      Law u a₀ (h.filterMap (actionOf B)) a

/-- Along the run the records stay funded. -/
theorem RunLaw.funded {h : List (Entry (Server ρ) Event Output)} {s : Server ρ}
    (hrun : RunLaw B s₀ h s) (hfunded : Funded B s₀.redis) :
    Funded B s.redis := by
  intro u
  rcases hfunded u with hempty | ⟨a₀, ha₀⟩
  · exact .inl (hrun.empty u hempty)
  · obtain ⟨a, ha, -⟩ := hrun.holds u a₀ ha₀
    exact .inr ⟨a, ha⟩

/-- **The step lemma.** -/
theorem RunLaw.step {h : List (Entry (Server ρ) Event Output)} {s : Server ρ}
    {e : Event} (hrun : RunLaw B s₀ h s)
    (hstep : StepLaw B ((server B).entry s e)) :
    RunLaw B s₀ (h ++ [(server B).entry s e])
      ((server B).step s e).1 where
  healthy := hstep.healthy
  empty u hempty := hstep.empty u (hrun.empty u hempty)
  holds u a₀ ha₀ := by
    obtain ⟨a, ha, hlaw⟩ := hrun.holds u a₀ ha₀
    obtain ⟨a', ha', hact⟩ := hstep.holds u a ha
    refine ⟨a', ha', ?_⟩
    have hnext := hlaw.step hact
    rw [List.filterMap_append]
    generalize hentry : actionOf B ((server B).entry s e) = o
      at hnext
    cases o <;> simpa [hentry] using hnext

variable [RedisLaws B]

/-- **The run lemma.** -/
theorem runLaw (hhealthy : s₀.redis.Healthy) (hfunded : Funded B s₀.redis)
    (es : List Event)
    (hdirected : ∀ t ∈ (server B).trace s₀ es, ¬ Misdirected t) :
    RunLaw B s₀ ((server B).trace s₀ es)
      ((server B).exec s₀ es) := by
  refine (server B).history_invariant (C := fun t => ¬ Misdirected t)
    (J := RunLaw B s₀) ?_ ?_ es hdirected
  · exact ⟨hhealthy, fun _ hempty => hempty, fun u a₀ ha₀ => ⟨a₀, ha₀, law_nil u a₀⟩⟩
  · intro h s e hrun hnot
    exact hrun.step ((tradeCase hrun.healthy (hrun.funded hfunded) e).stepLaw hnot)

/-- A step of a run whose steps so far are not misdirected. -/
theorem tradeCase_of_mem_trace (hhealthy : s₀.redis.Healthy)
    (hfunded : Funded B s₀.redis) {fs : List Event}
    (hdirected : ∀ t ∈ (server B).trace s₀ fs, ¬ Misdirected t) (e : Event) :
    TradeCase B ((server B).entry
      ((server B).exec s₀ fs) e) :=
  have hrun := runLaw hhealthy hfunded fs hdirected
  tradeCase hrun.healthy (hrun.funded hfunded) e

/-- A run in which nobody else's hash changes has no misdirected step: the first one would change
such a hash. -/
theorem not_misdirected_of_others (hhealthy : s₀.redis.Healthy)
    (hfunded : Funded B s₀.redis) {es : List Event}
    (hothers : ∀ t ∈ (server B).trace s₀ es, ∀ u,
      (∀ act ∈ actionOf B t, act.user ≠ u) →
        t.after.redis.userHash u = t.before.redis.userHash u) :
    ∀ t ∈ (server B).trace s₀ es, ¬ Misdirected t := by
  induction es using List.reverseRecOn with
  | nil =>
      intro t ht
      exact absurd ht List.not_mem_nil
  | append_singleton fs e ih =>
      rw [trace_concat] at hothers ⊢
      have hpast := ih fun t ht => hothers t (List.mem_append_left _ ht)
      intro t ht
      rcases List.mem_append.mp ht with hmem | hlast
      · exact hpast t hmem
      · obtain rfl := List.mem_singleton.mp hlast
        intro hmisdirected
        obtain ⟨u, hnot, hchanged⟩ :=
          (tradeCase_of_mem_trace hhealthy hfunded hpast e).exists_changed hmisdirected
        exact hchanged (hothers _ ht u hnot)

/-- **Conservation.** On a server whose commands all succeed, and whose users all start with an account
or without a hash, a run keeps the conservation law exactly when no step of it is misdirected: no
purchase that can be paid, and no loaded shot, is for a user whose id contains a NUL. -/
theorem economy (B : Backend ρ) [RedisLaws B] (s₀ : Server ρ)
    (hhealthy : s₀.redis.Healthy) (hfunded : Funded B s₀.redis)
    (es : List Event) :
    EconomyLaw B s₀ es ↔
      ∀ t ∈ (server B).trace s₀ es, ¬ Misdirected t := by
  constructor
  · exact fun hlaw => not_misdirected_of_others hhealthy hfunded hlaw.others
  · intro hdirected
    have hsteps : ∀ t ∈ (server B).trace s₀ es, StepLaw B t := by
      intro t ht
      obtain ⟨fs, e, gs, rfl, rfl⟩ := (server B).mem_trace_iff.mp ht
      refine (tradeCase_of_mem_trace hhealthy hfunded ?_ e).stepLaw (hdirected _ ht)
      intro t' ht'
      refine hdirected t' ?_
      rw [Transducer.trace_append]
      exact List.mem_append_left _ ht'
    refine ⟨?_, fun t ht => (hsteps t ht).refused, fun t ht => (hsteps t ht).others⟩
    rintro fs ⟨gs, rfl⟩ u a₀ ha₀
    refine (runLaw hhealthy hfunded fs fun t ht => hdirected t ?_).holds u a₀ ha₀
    rw [Transducer.trace_append]
    exact List.mem_append_left _ ht

end runs

/-! ## A purchase of a user with a NUL -/

/-- That Redis is connected and stores everything. -/
theorem healthy_redisWithUserA : (redisWithUserA []).Healthy where
  connected := rfl
  done _ := rfl

/-- User `A` starts with 1000, and nobody else has a hash. -/
theorem funded_redisWithUserA (B : Backend RedisServer) : Funded B (redisWithUserA []) := by
  intro u
  have hhash : (redisWithUserA []).userHash u =
      if u = [65] then (∅ : Record).insert (ascii "balance") (ascii "1000") else ∅ := by
    have hkey : ascii "user:" ++ u = userKey [65] ↔ u = [65] := by
      rw [userKey_eq, List.append_cancel_left_eq]
      exact Iff.rfl
    simp only [RedisClient.userHash, RedisClient.store, RedisState.store, redisWithUserA, hkey]
  rw [hhash]
  by_cases hu : u = [65]
  · rw [if_pos hu]
    refine .inr ⟨⟨1000, 0, 0⟩, ?_, ?_, ?_, ?_, ?_⟩
    · refine (readable_empty B).put (ρ := RedisServer) rfl fun info => ⟨{ info with balance := 1000 }, ?_⟩
      rfl
    · rw [AList.lookup_insert]
      decide
    · decide
    · decide
    · decide
  · exact .inl (if_neg hu)

/-- The handshake of a client whose user id is an `A` and a NUL and a `B`. -/
def helloNul : Event :=
  .recv (.hello ⟨0x0100007F, 0x3930⟩ [65, 0, 66] (by decide)) 0 0

/-- The client buys the revolver of type 4 under that id. -/
def purchaseNul : Event :=
  .recv (.ofPayload ⟨0x0100007F, 0x3930⟩ ⟨1, 1, PacketType.cPurchaseWeapon.value⟩
    [3, 0, 65, 0, 66, 4, 0, 0, 0] (by decide)) 5 5

/-- Conversions of floating-point fields are not needed here. -/
def noStof (_ : Bytes) : Except Fault UInt32 := .error .invalidArgument

/-- The law in a run in which player `A` buys a weapon. -/
theorem economy_purchaseForA :
    EconomyLaw (faultyRedis noStof) (.init (redisWithUserA [])) [helloB, purchaseForA] ↔
      ∀ t ∈ (server (faultyRedis noStof)).trace (.init (redisWithUserA [])) [helloB, purchaseForA],
        ¬ Misdirected t :=
  economy (faultyRedis noStof) (.init (redisWithUserA [])) healthy_redisWithUserA
    (funded_redisWithUserA _) [helloB, purchaseForA]

/-- The purchase of the user with a NUL charges `A`. -/
theorem not_economyLaw_purchaseNul :
    (redisWithUserA []).Healthy ∧ Funded (faultyRedis noStof) (redisWithUserA []) ∧
      ¬ EconomyLaw (faultyRedis noStof) (.init (redisWithUserA [])) [helloNul, purchaseNul] := by
  refine ⟨healthy_redisWithUserA, funded_redisWithUserA _, fun hlaw => ?_⟩
  have hsame := hlaw.others _ (List.mem_cons_of_mem _ List.mem_cons_self) [65] (by decide +kernel)
  exact absurd (congrArg (AList.lookup (ascii "balance")) hsame) (by decide +kernel)

end CowboyPoker.GameServer
