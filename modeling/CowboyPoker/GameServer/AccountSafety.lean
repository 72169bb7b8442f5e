import CowboyPoker.GameServer.UserKeys
import CowboyPoker.GameServer.AmmoReport
import CowboyPoker.GameServer.WorkerThreads

/-!
# Accounts on a server that may fail

What any number of workers make of the accounts, whichever commands Redis refuses or loses, and whatever
is in the buffer when a handler reads it.

* `Account.Spends` — what may be left of an account: no more money, the weapon that it had or one that is
  on sale, and no more rounds than it had or than come with a weapon. `Account.Trades` — one purchase or
  one shot.
* `AccountLaw` — what is kept between two states: every account is still an account, which has been spent
  from; while all commands are done, it has come about by trades; and nobody gets an account.
* `Holds.write`, `Holds.writeAll` — the fields of a purchase may be written in part, and leave an account.
* `accountLaw_handlePacket` — the law for a handler. `accounts_kept` — the law between any two states of a
  run of the server.
-/

namespace CowboyPoker.GameServer

open CowboyPoker.Found
open CowboyPoker.ServerCore
open RedisState

/-! ## The abstract account -/

namespace Account

/-- `a'` is what may be left of `a`. -/
structure Spends (a a' : Account) : Prop where
  /-- There is no more money. -/
  balance : a'.balance ≤ a.balance
  /-- A new weapon is one that is on sale. -/
  weapon : a'.weapon = a.weapon ∨ (findWeapon a'.weapon).isSome
  /-- New rounds come with a weapon. -/
  ammo : a'.ammo ≤ a.ammo ∨ ∃ weaponType weapon, findWeapon weaponType = some weapon ∧
    (a'.ammo : ℤ) ≤ 5 * weapon.magazineSize.toInt

/-- An account of which nothing was spent. -/
theorem Spends.refl (a : Account) : Spends a a := ⟨le_rfl, .inl rfl, .inl le_rfl⟩

/-- What was spent before and after. -/
theorem Spends.trans {a b c : Account} (h : Spends a b) (h' : Spends b c) : Spends a c := by
  refine ⟨h'.balance.trans h.balance, ?_, ?_⟩
  · rcases h'.weapon with heq | hsale
    · rw [heq]
      exact h.weapon
    · exact .inr hsale
  · rcases h'.ammo with hle | hnew
    · rcases h.ammo with hle' | ⟨weaponType, weapon, hweapon, hle'⟩
      · exact .inl (hle.trans hle')
      · refine .inr ⟨weaponType, weapon, hweapon, ?_⟩
        omega
    · exact .inr hnew

/-- `a'` is `a` after a purchase or a shot. -/
def Trades (a a' : Account) : Prop := (∃ weaponType, a.buy weaponType = some a') ∨ a.fire = some a'

end Account

/-! ## Writing a purchase in part -/

/-- An entry that a purchase which leaves `v` writes. -/
inductive Writes (v : ℕ) : Bytes × Bytes → Prop
  | balance {b : Int64} (h : b.toInt = v) : Writes v (ascii "balance", toStringInt64 b)
  | weapon {weaponType : Int32} (h : (findWeapon weaponType).isSome) :
      Writes v (ascii "weapon", toStringInt32 weaponType)
  | ammoType (level : Int32) : Writes v (ascii "ammo_type", toStringInt32 level)
  | ammo {weaponType : Int32} {weapon : WeaponInfo} (h : findWeapon weaponType = some weapon) :
      Writes v (ascii "ammo", toStringInt32 (weapon.magazineSize * 5))

section record

variable {ρ : Type} [RedisState ρ] {B : Backend ρ} {record : Record} {a : Account} {v : ℕ}

/-- **One entry** of a purchase leaves an account. -/
theorem Holds.write (h : Holds B record a) (hv : v ≤ a.balance) {kv : Bytes × Bytes}
    (hkv : Writes v kv) :
    ∃ a', Holds B (put ρ record kv.1 kv.2) a' ∧ v ≤ a'.balance ∧ a.Spends a' := by
  cases hkv with
  | @balance b hb =>
      dsimp only
      refine ⟨{ a with balance := v }, ⟨?_, ?_, ?_, ?_, ?_⟩, le_rfl, hv, .inl rfl, .inl le_rfl⟩
      · exact h.readable.put rfl (GameServer.converts_balance b)
      · rw [lookup_put_self, toStringInt64, hb]
        rfl
      · exact hv.trans_lt h.balance_lt
      · rw [storedInt32_put_of_ne (by decide)]
        exact h.weapon
      · rw [storedInt32_put_of_ne (by decide)]
        exact h.ammo
  | @weapon weaponType hsale =>
      dsimp only
      refine ⟨{ a with weapon := weaponType }, ⟨?_, ?_, h.balance_lt, ?_, ?_⟩, hv, le_rfl, .inr hsale,
        .inl le_rfl⟩
      · exact h.readable.put rfl (converts_weapon weaponType)
      · rw [lookup_put_of_ne _ _ (by decide)]
        exact h.balance
      · exact storedInt32_of_lookup (lookup_put_self _ _ _)
      · rw [storedInt32_put_of_ne (by decide)]
        exact h.ammo
  | ammoType level =>
      dsimp only
      refine ⟨a, ⟨?_, ?_, h.balance_lt, ?_, ?_⟩, hv, .refl a⟩
      · exact h.readable.put rfl (converts_ammoType level)
      · rw [lookup_put_of_ne _ _ (by decide)]
        exact h.balance
      · rw [storedInt32_put_of_ne (by decide)]
        exact h.weapon
      · rw [storedInt32_put_of_ne (by decide)]
        exact h.ammo
  | @ammo weaponType weapon hweapon =>
      obtain ⟨hpos, hfive⟩ := findWeapon_magazineSize_pos hweapon
      have hnat : ((5 * weapon.magazineSize.toInt).toNat : ℤ) = 5 * weapon.magazineSize.toInt := by
        omega
      dsimp only
      refine ⟨{ a with ammo := (5 * weapon.magazineSize.toInt).toNat },
        ⟨?_, ?_, h.balance_lt, ?_, ?_⟩, hv, le_rfl, .inl rfl, .inr ⟨weaponType, weapon, hweapon, ?_⟩⟩
      · exact h.readable.put rfl (converts_ammo _)
      · rw [lookup_put_of_ne _ _ (by decide)]
        exact h.balance
      · rw [storedInt32_put_of_ne (by decide)]
        exact h.weapon
      · rw [storedInt32_of_lookup (lookup_put_self _ _ _), hfive, hnat]
      · exact hnat.le

/-- **The entries of a purchase**, whichever of them are stored, leave an account. -/
theorem Holds.writeAll (h : Holds B record a) (hv : v ≤ a.balance) {fields : List (Bytes × Bytes)}
    (hfields : ∀ kv ∈ fields, Writes v kv) (outcomes : ℕ → Outcome) (n : ℕ) :
    ∃ a', Holds B (Found.writeAll (put ρ) outcomes n record fields).2 a' ∧ a.Spends a' := by
  induction fields generalizing n record a with
  | nil => exact ⟨a, h, .refl a⟩
  | cons kv fields ih =>
      obtain ⟨field, value⟩ := kv
      rw [List.forall_mem_cons] at hfields
      unfold Found.writeAll
      cases hout : outcomes n with
      | lost =>
          rw [if_pos rfl]
          exact ⟨a, h, .refl a⟩
      | refused =>
          rw [if_neg (by decide)]
          exact ih h hv hfields.2 (n + 1)
      | done =>
          obtain ⟨a₁, h₁, hv₁, hspends⟩ := h.write hv hfields.1
          obtain ⟨a₂, h₂, hspends'⟩ := ih h₁ hv₁ hfields.2 (n + 1)
          rw [if_neg (by decide)]
          exact ⟨a₂, h₂, hspends.trans hspends'⟩

omit [RedisState ρ] in
/-- What a purchase that can be paid writes. -/
theorem Holds.fieldsOf (h : Holds B record a) {weaponType : Int32} {weapon : WeaponInfo}
    (hweapon : findWeapon weaponType = some weapon)
    (hprice : ¬ Int64.ofInt a.balance < weapon.price) :
    ∃ v ≤ a.balance, ∀ kv ∈ GameServer.fieldsOf weaponType weapon (Int64.ofInt a.balance),
      Writes v kv := by
  have hpos := (findWeapon_price_pos hweapon).1
  have hlt := h.balance_lt
  have hle : weapon.price.toInt ≤ a.balance := by
    rw [Int64.not_lt, Int64.le_iff_toInt_le, h.toInt_balance] at hprice
    exact hprice
  have hnew : (Int64.ofInt a.balance - weapon.price).toInt =
      ((a.balance - weapon.price.toInt.toNat : ℕ) : ℤ) := by
    rw [Int64.toInt_sub, h.toInt_balance, Int.bmod_eq_of_le] <;> omega
  refine ⟨a.balance - weapon.price.toInt.toNat, Nat.sub_le _ _, ?_⟩
  simp only [GameServer.fieldsOf, RedisClient.purchaseFields, List.forall_mem_cons,
    List.not_mem_nil, false_imp_iff, implies_true, and_true]
  refine ⟨.balance hnew, .weapon ?_, .ammoType 0, .ammo hweapon⟩
  rw [hweapon]
  rfl

end record

/-! ## The law -/

/-- What becomes of the accounts between two states of the client. -/
structure AccountLaw {ρ : Type} [RedisState ρ] (B : Backend ρ) (rc rc' : RedisClient ρ) : Prop where
  /-- Nobody gets an account. -/
  empty : ∀ u, rc.userHash u = ∅ → rc'.userHash u = ∅
  /-- An account stays an account, and has been spent from. -/
  kept : ∀ u a, Holds B (rc.userHash u) a → ∃ a', Holds B (rc'.userHash u) a' ∧ a.Spends a'
  /-- While every command is done, -/
  healthy : rc.Healthy → rc'.Healthy
  /-- an account has come about by trades. -/
  traded : rc.Healthy → ∀ u a, Holds B (rc.userHash u) a →
    ∃ a', Holds B (rc'.userHash u) a' ∧ Relation.ReflTransGen Account.Trades a a'

namespace AccountLaw

variable {ρ : Type} [RedisState ρ] {B : Backend ρ} {rc rc' rc'' : RedisClient ρ}

/-- A call that writes nothing. -/
theorem of_store_eq (h : rc'.store = rc.store) (hhealthy : rc.Healthy → rc'.Healthy) :
    AccountLaw B rc rc' := by
  have hhash : ∀ u, rc'.userHash u = rc.userHash u := fun u => congrFun h _
  refine ⟨fun u hu => ?_, fun u a ha => ?_, hhealthy, fun _ u a ha => ?_⟩
  · rw [hhash, hu]
  · exact ⟨a, by rwa [hhash], .refl a⟩
  · exact ⟨a, by rwa [hhash], .refl⟩

/-- The law for no command. -/
theorem refl (rc : RedisClient ρ) : AccountLaw B rc rc := of_store_eq rfl id

/-- The law for one stretch of commands after another. -/
theorem trans (h : AccountLaw B rc rc') (h' : AccountLaw B rc' rc'') : AccountLaw B rc rc'' := by
  refine ⟨fun u hu => h'.empty u (h.empty u hu), fun u a ha => ?_,
    fun hhealthy => h'.healthy (h.healthy hhealthy), fun hhealthy u a ha => ?_⟩
  · obtain ⟨b, hb, hspends⟩ := h.kept u a ha
    obtain ⟨c, hc, hspends'⟩ := h'.kept u b hb
    exact ⟨c, hc, hspends.trans hspends'⟩
  · obtain ⟨b, hb, htrades⟩ := h.traded hhealthy u a ha
    obtain ⟨c, hc, htrades'⟩ := h'.traded (h.healthy hhealthy) u b hb
    exact ⟨c, hc, htrades.trans htrades'⟩

/-- Every user still has an account or no hash at all. -/
theorem funded (h : AccountLaw B rc rc') (hfunded : Funded B rc) : Funded B rc' := by
  intro u
  rcases hfunded u with hempty | ⟨a, ha⟩
  · exact .inl (h.empty u hempty)
  · obtain ⟨a', ha', -⟩ := h.kept u a ha
    exact .inr ⟨a', ha'⟩

/-- A call whose commands are about one user. -/
theorem of_record [RedisLaws B] {user : Bytes}
    (hcommands : RedisClient.Commands B (fun c => c.key = userKey user) rc rc')
    (hempty : rc.record user = ∅ → rc'.record user = ∅)
    (hkept : ∀ a, Holds B (rc.record user) a → ∃ a', Holds B (rc'.record user) a' ∧ a.Spends a')
    (hhealthy : rc.Healthy → rc'.Healthy)
    (htraded : rc.Healthy → ∀ a, Holds B (rc.record user) a →
      ∃ a', Holds B (rc'.record user) a' ∧ Relation.ReflTransGen Account.Trades a a') :
    AccountLaw B rc rc' := by
  have hhash : ∀ u, rc.userHash u = rc.record user ∧ rc'.userHash u = rc'.record user ∨
      rc'.userHash u = rc.userHash u := by
    intro u
    by_cases hkey : userKey user = ascii "user:" ++ u
    · left
      simp only [RedisClient.userHash, RedisClient.record, hkey, and_self]
    · exact .inr (hcommands.store_of_ne B (Ne.symm hkey))
  refine ⟨fun u hu => ?_, fun u a ha => ?_, hhealthy, fun hdone u a ha => ?_⟩
  · rcases hhash u with ⟨hbefore, hafter⟩ | hsame
    · rw [hafter]
      exact hempty (hbefore ▸ hu)
    · rw [hsame, hu]
  · rcases hhash u with ⟨hbefore, hafter⟩ | hsame
    · rw [hafter]
      exact hkept a (hbefore ▸ ha)
    · exact ⟨a, by rwa [hsame], .refl a⟩
  · rcases hhash u with ⟨hbefore, hafter⟩ | hsame
    · rw [hafter]
      exact htraded hdone a (hbefore ▸ ha)
    · exact ⟨a, by rwa [hsame], .refl⟩

end AccountLaw

/-! ## The handlers -/

section handlers

variable {ρ : Type} [RedisState ρ] {B : Backend ρ} [RedisLaws B] {ctx : UdpClientContext}
  {rc : RedisClient ρ} {user : Bytes}

/-- **A purchase keeps the law.** -/
theorem accountLaw_buyWeapon (hfunded : Funded B rc) (weaponType : Int32) (reads : List Span) :
    AccountLaw B rc (buyWeapon B ctx rc user weaponType reads).redis := by
  have hdone := fun hhealthy : rc.Healthy =>
    buyWeapon_healthy (B := B) hhealthy ctx weaponType reads (hfunded.converts_balance user)
  have hhealthy : rc.Healthy → (buyWeapon B ctx rc user weaponType reads).redis.Healthy := by
    intro hhealthy
    rcases hdone hhealthy with ⟨-, -, hleaves⟩ | ⟨weapon, balance, -, -, hleaves⟩
    · exact hleaves.healthy
    · exact hleaves.healthy
  have hhandled : Handled B user False 0 ctx rc (buyWeapon B ctx rc user weaponType reads) :=
    handled_buyWeapon weaponType reads
  have hcommands := hhandled.commands
  rcases buyWeapon_spec B ctx rc user weaponType reads with
    ⟨-, hrecord, -⟩ | ⟨weapon, balance, hreach, hrecord, -⟩
  · refine .of_record hcommands ?_ ?_ hhealthy ?_
    · intro hempty
      rw [hrecord, hempty]
    · intro a ha
      exact ⟨a, by rwa [hrecord], .refl a⟩
    · intro _ a ha
      exact ⟨a, by rwa [hrecord], .refl⟩
  · have hbalance := hreach.balance_eq.2.2
    refine .of_record hcommands ?_ ?_ hhealthy ?_
    · intro hempty
      rw [hempty] at hbalance
      simp [RedisClient.storedBalance] at hbalance
    · intro a ha
      obtain rfl := Option.some.inj (ha.storedBalance_eq.symm.trans hbalance)
      obtain ⟨v, hv, hfields⟩ := ha.fieldsOf hreach.weapon_eq hreach.price_le
      rw [hrecord]
      exact ha.writeAll hv hfields _ _
    · intro hdone' a ha
      obtain rfl := Option.some.inj (ha.storedBalance_eq.symm.trans hbalance)
      rcases hdone hdone' with ⟨hnot, -⟩ | ⟨weapon', balance', hreach', -, hleaves⟩
      · exact absurd hreach (hnot weapon _)
      · obtain ⟨rfl, rfl⟩ := hreach.unique hreach'
        obtain ⟨a', hbuy, ha'⟩ := ha.purchase (ρ := ρ) hreach.weapon_eq hreach.price_le
        refine ⟨a', ?_, .single (.inl ⟨weaponType, hbuy⟩)⟩
        rw [RedisClient.record, hleaves.store_eq, Function.update_self]
        exact ha'

/-- The numbers that a shot tests, in a hash that can be read. -/
theorem Readable.readNumber {ρ : Type} {B : Backend ρ} {record : Record} (h : Readable B record) :
    GameServer.readNumber (ascii "weapon") record = storedInt32 record (ascii "weapon") ∧
      GameServer.readNumber (ascii "ammo") record = storedInt32 record (ascii "ammo") := by
  obtain ⟨info, hread, hweapon, hammo⟩ := h.readFields B []
  obtain ⟨hweapon', hammo'⟩ := weapon_and_ammo hread rfl rfl
  exact ⟨hweapon'.symm.trans hweapon, hammo'.symm.trans hammo⟩

/-- A shot that is granted spends a round. -/
theorem Account.spends_of_fire {a a' : Account} (h : a.fire = some a') : a.Spends a' := by
  unfold Account.fire at h
  obtain ⟨-, h⟩ := Option.ite_none_left_eq_some.mp h
  cases h
  exact ⟨le_rfl, .inl rfl, .inl (Nat.sub_le _ _)⟩

/-- **A shot keeps the law.** -/
theorem accountLaw_consumeLobbyAmmo (hfunded : Funded B rc) (user : Bytes) :
    AccountLaw B rc (rc.consumeLobbyAmmo B user).2 := by
  have hread := hfunded.readable user
  obtain ⟨hweapon, hammo⟩ := hread.readNumber
  have hcommands := RedisClient.commands_consumeLobbyAmmo B rc user
  have hhealthy : rc.Healthy → (rc.consumeLobbyAmmo B user).2.Healthy := by
    intro hhealthy
    by_cases hloaded : Loaded rc user
    · exact (consumeLobbyAmmo_of_loaded hhealthy hread hloaded).2.healthy
    · exact (consumeLobbyAmmo_of_not_loaded hhealthy hread hloaded).2.healthy
  by_cases hshoots : Shoots B rc user
  · obtain ⟨-, hrecord⟩ := consumeLobbyAmmo_of_shoots hshoots
    rw [hammo] at hrecord
    have hstored : storedInt32 (rc.record user) (ascii "weapon") ≠ 0 := hweapon ▸ hshoots.weapon
    have hpos : ¬ storedInt32 (rc.record user) (ascii "ammo") ≤ 0 := by
      rw [← hammo, Int32.not_le]
      exact hshoots.ammo
    -- whether the round is taken or not, a trade leads there
    have hone : ∀ a, Holds B (rc.record user) a → ∃ a',
        Holds B ((rc.consumeLobbyAmmo B user).2.record user) a' ∧
          (a' = a ∨ a.fire = some a') := by
      intro a ha
      rw [hrecord]
      cases rc.outcomes 1 with
      | done =>
          obtain ⟨a', hfire, ha'⟩ := ha.shot hstored hpos
          exact ⟨a', ha', .inr hfire⟩
      | refused => exact ⟨a, ha, .inl rfl⟩
      | lost => exact ⟨a, ha, .inl rfl⟩
    refine .of_record hcommands ?_ ?_ hhealthy ?_
    · intro hempty
      rw [hempty] at hstored
      exact absurd (by simp [storedInt32]) hstored
    · intro a ha
      obtain ⟨a', ha', rfl | hfire⟩ := hone a ha
      · exact ⟨a', ha', .refl a'⟩
      · exact ⟨a', ha', Account.spends_of_fire hfire⟩
    · intro _ a ha
      obtain ⟨a', ha', rfl | hfire⟩ := hone a ha
      · exact ⟨a', ha', .refl⟩
      · exact ⟨a', ha', .single (.inr hfire)⟩
  · obtain ⟨-, hstore⟩ := consumeLobbyAmmo_of_not_shoots hshoots
    have hrecord : (rc.consumeLobbyAmmo B user).2.record user = rc.record user := congrFun hstore _
    refine .of_record hcommands ?_ ?_ hhealthy ?_
    · intro hempty
      rw [hrecord, hempty]
    · intro a ha
      exact ⟨a, by rwa [hrecord], .refl a⟩
    · intro _ a ha
      exact ⟨a, by rwa [hrecord], .refl⟩

/-- **Every handler keeps the law**, whatever it reads. -/
theorem accountLaw_handlePacket (hfunded : Funded B rc) (buffer : Bytes) (len : ℕ)
    (now : ℤ) :
    AccountLaw B rc (handlePacket B ctx rc buffer len now).redis := by
  unfold handlePacket
  dsimp only
  generalize PacketType.ofId (UdpPacketHeader.read buffer).id = type
  rcases type with _ | type
  · exact .refl rc
  cases type with
  | cUdpHello =>
      dsimp only [handleCUdpHello]
      rcases parseUdpHello (buffer.drop udpPacketHeaderSize)
        (len - udpPacketHeaderSize) with ⟨_ | user, reads⟩
      · exact .refl rc
      have hstore := RedisClient.store_getPlayerInfo B rc user
      have hleaves := fun hhealthy : rc.Healthy => (RedisClient.getPlayerInfo_healthy B hhealthy user).2
      dsimp only [bindUser]
      generalize rc.getPlayerInfo B user = out at hstore hleaves
      have hlaw : AccountLaw B rc out.2 :=
        .of_store_eq hstore fun hhealthy => (hleaves hhealthy).healthy
      obtain ⟨e | ⟨found, info⟩, rc'⟩ := out
      · exact hlaw
      · cases found <;> exact hlaw
  | cLobbyMove =>
      dsimp only [handleCLobbyMove]
      split <;> exact .refl rc
  | cPurchaseWeapon =>
      dsimp only [handleCBuyWeapon]
      rcases parseBuyWeapon (buffer.drop udpPacketHeaderSize)
        (len - udpPacketHeaderSize) with ⟨_ | ⟨user, weaponType⟩, reads⟩
      · exact .refl rc
      · exact accountLaw_buyWeapon hfunded weaponType reads
  | cGunShotLobby =>
      dsimp only [handleCGunShotLobby]
      by_cases hempty : ctx.userId = []
      · rw [if_pos hempty]
        exact .refl rc
      · rw [if_neg hempty]
        have hlaw := accountLaw_consumeLobbyAmmo hfunded ctx.userId
        generalize rc.consumeLobbyAmmo B ctx.userId = out at hlaw
        obtain ⟨e | result, rc'⟩ := out
        · exact hlaw
        · exact hlaw
  | _ => exact .refl rc

end handlers

/-! ## Runs -/

section runs

/-- Only a handler uses the connection to Redis. -/
theorem ServerCase.redis {ρ : Type} {B : Backend ρ} {s : ServerShared ρ} {p : ThreadPc}
    {next : ServerShared ρ × ThreadPc × ThreadShown} (h : ServerCase B s p next) :
    next.1.redis = s.redis ∨ ∃ len r,
      next.1.redis = (handlePacket B (s.service.heap r) s.redis s.recv.recvBuf len s.clock).redis := by
  cases h with
  | elapsed => exact .inl rfl
  | received => exact .inl rfl
  | looked len =>
      left
      unfold ServerShared.lookupStep
      split_ifs
      · rfl
      · rfl
      · dsimp only
        split <;> rfl
  | filtered len r =>
      left
      unfold ServerShared.filterStep
      split_ifs <;> rfl
  | handled len r => exact .inr ⟨len, r, rfl⟩
  | sent len requests fault =>
      left
      unfold ServerShared.sendStep
      split
      · rfl
      · split <;> rfl
  | looped m => exact .inl rfl

variable {ρ : Type} [RedisState ρ] {B : Backend ρ} [RedisLaws B] {τ : Type} [DecidableEq τ]

/-- A step of a worker keeps the law. -/
theorem accountLaw_step {s : Processes τ (ServerShared ρ) ThreadPc} (hfunded : Funded B s.shared.redis)
    (e : τ × ThreadChoice) :
    AccountLaw B s.shared.redis ((serverThreads B τ).step s e).1.shared.redis := by
  obtain ⟨t, k⟩ := e
  rcases hact : serverAct B t s.shared (s.pc t) k with _ | next
  · have hstep : (serverThreads B τ).step s (t, k) = (s, none) := interleave_step_of_none hact
    rw [hstep]
    exact .refl _
  · have hstep : (serverThreads B τ).step s (t, k) =
        (⟨next.1, Function.update s.pc t next.2.1⟩, some next.2.2) := interleave_step_of_some hact
    rw [hstep]
    rcases (serverCase hact).2.redis with hsame | ⟨len, r, hhandled⟩
    · rw [hsame]
      exact .refl _
    · rw [hhandled]
      exact accountLaw_handlePacket hfunded _ _ _

/-- Steps of the workers keep the law. -/
theorem accountLaw_exec {s : Processes τ (ServerShared ρ) ThreadPc} (hfunded : Funded B s.shared.redis)
    (events : List (τ × ThreadChoice)) :
    AccountLaw B s.shared.redis ((serverThreads B τ).exec s events).shared.redis :=
  (serverThreads B τ).exec_invariant (I := fun s' => AccountLaw B s.shared.redis s'.shared.redis)
    (.refl _) (fun _ e hlaw => hlaw.trans (accountLaw_step (hlaw.funded hfunded) e)) events

/-- **The accounts of the lobby** are kept by any number of workers, whichever commands are refused or
lost, between any two states of a run. -/
theorem accounts_kept (B : Backend ρ) [RedisLaws B] (main : τ) (redis : RedisClient ρ) (clock : ℤ)
    (hfunded : Funded B redis) (events later : List (τ × ThreadChoice)) :
    AccountLaw B ((serverThreads B τ).exec (serverInit main redis clock) events).shared.redis
      ((serverThreads B τ).exec (serverInit main redis clock) (events ++ later)).shared.redis := by
  have hstart : Funded B (serverInit main redis clock).shared.redis := hfunded
  rw [Transducer.exec_append]
  exact accountLaw_exec ((accountLaw_exec hstart events).funded hstart) later

end runs

/-- The payload of the purchase fits a datagram. -/
theorem length_revolverPayload : revolverPayload.length ≤ udpMaxPayload := by
  decide

/-- User `A` shakes hands. -/
def handshakeRun : List (Bool × ThreadChoice) := startUp ++ serveBy (.helloOf ⟨0x0100007F, 0x3930⟩ 65)

/-- Then `A` buys the revolver of type 4. -/
def purchaseRun : List (Bool × ThreadChoice) :=
  serveBy (.ofPayload ⟨0x0100007F, 0x3930⟩ ⟨1, 1, PacketType.cPurchaseWeapon.value⟩ revolverPayload
    length_revolverPayload)

/-- Redis loses the second field of the purchase. -/
theorem accounts_kept_purchaseRun :
    AccountLaw (faultyRedis noStof)
      ((serverThreads (faultyRedis noStof) Bool).exec
        (serverInit true (redisWithUserA [.done, .done, .done, .lost]) 0) handshakeRun).shared.redis
      ((serverThreads (faultyRedis noStof) Bool).exec
        (serverInit true (redisWithUserA [.done, .done, .done, .lost]) 0)
          (handshakeRun ++ purchaseRun)).shared.redis :=
  accounts_kept (faultyRedis noStof) true (redisWithUserA [.done, .done, .done, .lost]) 0
    (funded_redisWithUserA (faultyRedis noStof)) handshakeRun purchaseRun

/-- The price has been paid, and no weapon has been stored. -/
example :
    let record := ((serverThreads (faultyRedis noStof) Bool).exec
      (serverInit true (redisWithUserA [.done, .done, .done, .lost]) 0)
        (handshakeRun ++ purchaseRun)).shared.redis.record [65]
    record.lookup (ascii "balance") = some (ascii "500") ∧ record.lookup (ascii "weapon") = none := by
  decide +kernel

end CowboyPoker.GameServer
