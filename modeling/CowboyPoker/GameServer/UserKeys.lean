import CowboyPoker.GameServer.Economy

/-!
# The records of different users

Every member of `RedisClient` that takes a user id makes commands about one key, `userKey`, and so far as
the hashes go it is a function of the one under that key.

* `RecordOp` — the members. `RecordOp.commands` — their commands are about the key of the user.
* `CommandRelation B key R` — commands about `key` keep the relation `R` between two states of a
  connection, and get the same reply in both. `CommandRelation.related` — a member for `userId` then keeps
  it too: the rule from which the independence of the other records follows.
* `RecordsSeparate u v` — what it is for two users to have records of their own on any server.
* `recordsSeparate_iff` — two users have records of their own exactly when their ids differ before the
  first NUL byte.
-/

namespace CowboyPoker.GameServer

open CowboyPoker.Found
open CowboyPoker.ServerCore

/-! ## The members -/

/-- A call of a member of `RedisClient` for some user. -/
inductive RecordOp
  /-- `GetPlayerInfo`. -/
  | getPlayerInfo
  /-- `GetBalance`. -/
  | getBalance
  /-- `SetAmmo`. -/
  | setAmmo (ammo : Int32)
  /-- `PurchaseWeapon`. -/
  | purchaseWeapon (newBalance : Int64) (weaponType magazineAmmo ammoEnhanceLevel : Int32)
  /-- `ConsumeLobbyAmmo`. -/
  | consumeLobbyAmmo

/-- What a member returns. -/
inductive RecordAnswer
  /-- The flag and the record, of `GetPlayerInfo`. -/
  | playerInfo (result : Except Fault (Bool × PlayerRedisInfo))
  /-- The balance, of `GetBalance`. -/
  | balance (result : Except Fault (Option Int64))
  /-- The flag, of `SetAmmo` or `PurchaseWeapon`. -/
  | stored (flag : Bool)
  /-- The flag and `outRemainingAmmo`, of `ConsumeLobbyAmmo`. -/
  | remaining (result : Except Fault (Bool × Int32))

section Members

variable {ρ : Type} (B : Backend ρ)

/-- The call for a user. -/
def RecordOp.perform (op : RecordOp) (rc : RedisClient ρ) (userId : Bytes) :
    RecordAnswer × RedisClient ρ :=
  match op with
  | .getPlayerInfo => Prod.map .playerInfo id (rc.getPlayerInfo B userId)
  | .getBalance => Prod.map .balance id (rc.getBalance B userId)
  | .setAmmo ammo => Prod.map .stored id (rc.setAmmo B userId ammo)
  | .purchaseWeapon newBalance weaponType magazineAmmo ammoEnhanceLevel =>
      Prod.map .stored id
        (rc.purchaseWeapon B userId newBalance weaponType magazineAmmo ammoEnhanceLevel)
  | .consumeLobbyAmmo => Prod.map .remaining id (rc.consumeLobbyAmmo B userId)

/-- The commands of a member are about the key of its user. -/
theorem RecordOp.commands (op : RecordOp) (rc : RedisClient ρ) (userId : Bytes) :
    RedisClient.Commands B (fun c => c.key = userKey userId) rc (op.perform B rc userId).2 := by
  cases op with
  | getPlayerInfo => exact (RedisClient.commands_getPlayerInfo B).mono fun c hc => by rw [hc]; rfl
  | getBalance => exact (RedisClient.commands_getBalance B).mono fun c hc => by rw [hc]; rfl
  | setAmmo ammo =>
      exact (RedisClient.commands_setAmmo B).mono fun c hc => by obtain ⟨f, v, rfl⟩ := hc; rfl
  | purchaseWeapon newBalance weaponType magazineAmmo ammoEnhanceLevel =>
      exact (RedisClient.commands_purchaseWeapon B).mono fun c hc => by obtain ⟨f, v, rfl⟩ := hc; rfl
  | consumeLobbyAmmo => exact RedisClient.commands_consumeLobbyAmmo B rc userId

/-! ## Relations that commands about a key keep -/

/-- Two replies are the same, or both are errors. The members look at no text of an error. -/
inductive SameReply : Option RedisReply → Option RedisReply → Prop
  /-- The same reply. -/
  | same (reply : Option RedisReply) : SameReply reply reply
  /-- Two errors. -/
  | errors (text text' : Bytes) : SameReply (some (.error text)) (some (.error text'))

/-- Commands about `key` get the same reply in related states, and lead to related states. -/
structure CommandRelation (key : Bytes) (R : RedisClient ρ → RedisClient ρ → Prop) : Prop where
  connected : ∀ {rc rc'}, R rc rc' → rc.connected = rc'.connected
  command : ∀ {rc rc'}, R rc rc' → ∀ c : RedisCommand, c.key = key →
    SameReply (rc.redisCommand B c).1 (rc'.redisCommand B c).1 ∧
      R (rc.redisCommand B c).2 (rc'.redisCommand B c).2

/-- Two calls return the same and lead to related states. -/
def Related {α : Type} (R : RedisClient ρ → RedisClient ρ → Prop) (x y : α × RedisClient ρ) : Prop :=
  x.1 = y.1 ∧ R x.2 y.2

variable {B} {R : RedisClient ρ → RedisClient ρ → Prop} {rc rc' : RedisClient ρ} {key userId : Bytes}

namespace CommandRelation

/-- `GetPlayerInfo` reads the record under the key, and nothing else. -/
theorem getPlayerInfo (h : CommandRelation B (userKey userId) R) (hR : R rc rc') :
    Related R (rc.getPlayerInfo B userId) (rc'.getPlayerInfo B userId) := by
  have hcommand := h.command hR (.hgetall (userKey userId)) rfl
  unfold RedisClient.getPlayerInfo
  rw [h.connected hR]
  by_cases hconn : ¬ rc'.connected
  · rw [if_pos hconn, if_pos hconn]
    exact ⟨rfl, hR⟩
  · rw [if_neg hconn, if_neg hconn]
    generalize rc.redisCommand B (.hgetall (userKey userId)) = out at hcommand
    generalize rc'.redisCommand B (.hgetall (userKey userId)) = out' at hcommand
    obtain ⟨reply, rc₁⟩ := out
    obtain ⟨reply', rc₁'⟩ := out'
    obtain ⟨hreply, hnext⟩ := hcommand
    cases hreply with
    | same => dsimp only; split <;> exact ⟨rfl, hnext⟩
    | errors text text' => exact ⟨rfl, hnext⟩

/-- `GetBalance` reads one field under the key, and nothing else. -/
theorem getBalance (h : CommandRelation B (userKey userId) R) (hR : R rc rc') :
    Related R (rc.getBalance B userId) (rc'.getBalance B userId) := by
  have hcommand := h.command hR (.hget (userKey userId) (ascii "balance")) rfl
  unfold RedisClient.getBalance
  rw [h.connected hR]
  by_cases hconn : ¬ rc'.connected
  · rw [if_pos hconn, if_pos hconn]
    exact ⟨rfl, hR⟩
  · rw [if_neg hconn, if_neg hconn]
    generalize rc.redisCommand B (.hget (userKey userId) (ascii "balance")) = out at hcommand
    generalize rc'.redisCommand B (.hget (userKey userId) (ascii "balance")) = out' at hcommand
    obtain ⟨reply, rc₁⟩ := out
    obtain ⟨reply', rc₁'⟩ := out'
    obtain ⟨hreply, hnext⟩ := hcommand
    cases hreply with
    | same => dsimp only; split <;> exact ⟨rfl, hnext⟩
    | errors text text' => exact ⟨rfl, hnext⟩

/-- One `HSET`. -/
theorem hset (h : CommandRelation B key R) (hR : R rc rc') (field value : Bytes) :
    Related R (rc.hset B key field value) (rc'.hset B key field value) := by
  have hcommand := h.command hR (.hset key field (cstr value)) rfl
  unfold RedisClient.hset
  generalize rc.redisCommand B (.hset key field (cstr value)) = out at hcommand
  generalize rc'.redisCommand B (.hset key field (cstr value)) = out' at hcommand
  obtain ⟨reply, rc₁⟩ := out
  obtain ⟨reply', rc₁'⟩ := out'
  obtain ⟨hreply, hnext⟩ := hcommand
  cases hreply with
  | same => cases reply <;> exact ⟨rfl, hnext⟩
  | errors text text' => exact ⟨rfl, hnext⟩

/-- The `HSET`s of a purchase, up to the first that is not answered. -/
theorem hsetAll (h : CommandRelation B key R) (hR : R rc rc') (fields : List (Bytes × Bytes)) :
    Related R (rc.hsetAll B key fields) (rc'.hsetAll B key fields) := by
  induction fields generalizing rc rc' with
  | nil => exact ⟨rfl, hR⟩
  | cons kv fields ih =>
      obtain ⟨field, value⟩ := kv
      have hset := h.hset hR field value
      unfold RedisClient.hsetAll
      generalize rc.hset B key field value = out at hset
      generalize rc'.hset B key field value = out' at hset
      obtain ⟨answered, rc₁⟩ := out
      obtain ⟨answered', rc₁'⟩ := out'
      obtain ⟨rfl, hnext⟩ := hset
      cases answered with
      | false => exact ⟨rfl, hnext⟩
      | true => exact ih hnext

/-- `SetAmmo` is one `HSET`. -/
theorem setAmmo (h : CommandRelation B (userKey userId) R) (hR : R rc rc') (ammo : Int32) :
    Related R (rc.setAmmo B userId ammo) (rc'.setAmmo B userId ammo) := by
  unfold RedisClient.setAmmo
  rw [h.connected hR]
  by_cases hconn : ¬ rc'.connected
  · rw [if_pos hconn, if_pos hconn]
    exact ⟨rfl, hR⟩
  · rw [if_neg hconn, if_neg hconn]
    exact h.hset hR _ _

/-- `PurchaseWeapon` is `HSET`s under one key. -/
theorem purchaseWeapon (h : CommandRelation B (userKey userId) R) (hR : R rc rc') (newBalance : Int64)
    (weaponType magazineAmmo ammoEnhanceLevel : Int32) :
    Related R (rc.purchaseWeapon B userId newBalance weaponType magazineAmmo ammoEnhanceLevel)
      (rc'.purchaseWeapon B userId newBalance weaponType magazineAmmo ammoEnhanceLevel) := by
  unfold RedisClient.purchaseWeapon
  rw [h.connected hR]
  by_cases hconn : ¬ rc'.connected
  · rw [if_pos hconn, if_pos hconn]
    exact ⟨rfl, hR⟩
  · rw [if_neg hconn, if_neg hconn]
    exact h.hsetAll hR _

/-- `ConsumeLobbyAmmo` reads the record and stores the rounds under the same key. -/
theorem consumeLobbyAmmo (h : CommandRelation B (userKey userId) R) (hR : R rc rc') :
    Related R (rc.consumeLobbyAmmo B userId) (rc'.consumeLobbyAmmo B userId) := by
  have hread := h.getPlayerInfo hR
  unfold RedisClient.consumeLobbyAmmo
  rw [h.connected hR]
  by_cases hconn : ¬ rc'.connected
  · rw [if_pos hconn, if_pos hconn]
    exact ⟨rfl, hR⟩
  rw [if_neg hconn, if_neg hconn]
  generalize rc.getPlayerInfo B userId = out at hread
  generalize rc'.getPlayerInfo B userId = out' at hread
  obtain ⟨result, rc₁⟩ := out
  obtain ⟨result', rc₁'⟩ := out'
  obtain ⟨rfl, hnext⟩ := hread
  obtain e | ⟨found, info⟩ := result
  · exact ⟨rfl, hnext⟩
  cases found with
  | false => exact ⟨rfl, hnext⟩
  | true =>
      dsimp only
      by_cases hweapon : info.weapon = 0
      · rw [if_pos hweapon, if_pos hweapon]
        exact ⟨rfl, hnext⟩
      by_cases hammo : info.ammo ≤ 0
      · rw [if_neg hweapon, if_neg hweapon, if_pos hammo, if_pos hammo]
        exact ⟨rfl, hnext⟩
      rw [if_neg hweapon, if_neg hweapon, if_neg hammo, if_neg hammo]
      -- the shot is stored under the same key
      have hset := h.setAmmo hnext (info.ammo - 1)
      generalize rc₁.setAmmo B userId (info.ammo - 1) = out at hset
      generalize rc₁'.setAmmo B userId (info.ammo - 1) = out' at hset
      obtain ⟨answered, rc₂⟩ := out
      obtain ⟨answered', rc₂'⟩ := out'
      obtain ⟨rfl, hlast⟩ := hset
      cases answered <;> exact ⟨rfl, hlast⟩

/-- **The rule of one key**: a member keeps every relation that commands about its key keep, and returns
the same in related states. -/
theorem related (h : CommandRelation B (userKey userId) R) (hR : R rc rc') (op : RecordOp) :
    Related R (op.perform B rc userId) (op.perform B rc' userId) := by
  have hmap : ∀ {α : Type} (f : α → RecordAnswer) {x y : α × RedisClient ρ}, Related R x y →
      Related R (Prod.map f id x) (Prod.map f id y) := fun f _ _ hxy => ⟨congrArg f hxy.1, hxy.2⟩
  cases op with
  | getPlayerInfo => exact hmap _ (h.getPlayerInfo hR)
  | getBalance => exact hmap _ (h.getBalance hR)
  | setAmmo ammo => exact hmap _ (h.setAmmo hR ammo)
  | purchaseWeapon newBalance weaponType magazineAmmo ammoEnhanceLevel =>
      exact hmap _ (h.purchaseWeapon hR newBalance weaponType magazineAmmo ammoEnhanceLevel)
  | consumeLobbyAmmo => exact hmap _ (h.consumeLobbyAmmo hR)

end CommandRelation

end Members

/-! ## Two keys -/

section Keys

open RedisState

variable {ρ : Type} [RedisState ρ] {u v key key' : Bytes} {store store' : Bytes → Record}
  {c : RedisCommand}

/-- The states of the client agree, but for the hash under `key`. -/
structure SameExcept (key : Bytes) (rc rc' : RedisClient ρ) : Prop where
  connected : rc.connected = rc'.connected
  issued : rc.issued = rc'.issued
  outcomes : ∀ n, rc.outcomes n = rc'.outcomes n
  store : ∀ k ≠ key, rc.store k = rc'.store k

/-- No member called for `u` reads or changes the record of `v`, whatever server holds the records. -/
structure RecordsSeparate (u v : Bytes) : Prop where
  /-- The keys of the records differ. -/
  keys : userKey u ≠ userKey v
  /-- The record of `v` stays as it is. -/
  unchanged : ∀ (ρ : Type) [RedisState ρ] (B : Backend ρ) [RedisLaws B] (rc : RedisClient ρ)
    (op : RecordOp), (op.perform B rc u).2.record v = rc.record v
  /-- Neither what is returned nor what is done depends on it. -/
  unread : ∀ (ρ : Type) [RedisState ρ] (B : Backend ρ) [RedisLaws B] (rc rc' : RedisClient ρ)
    (op : RecordOp), SameExcept (userKey v) rc rc' →
      (op.perform B rc u).1 = (op.perform B rc' u).1 ∧
        SameExcept (userKey v) (op.perform B rc u).2 (op.perform B rc' u).2

/-- A reply is made from the hash under the key of the command. -/
theorem reply_congr (h : store c.key = store' c.key) : reply store c = reply store' c := by
  cases c <;> simp only [RedisCommand.key] at h <;> simp only [reply, h]

/-- What a command does to a hash is made from that hash. -/
theorem effect_congr (h : store key' = store' key') :
    effect ρ store c key' = effect ρ store' c key' := by
  cases c with
  | hset key field value =>
      by_cases heq : key' = key
      · subst heq
        simp only [effect, Function.update_self, h]
      · simp only [effect, Function.update_of_ne heq, h]
  | hgetall key => exact h
  | hget key field => exact h

/-- States that agree stay so when one more command has been issued in both. -/
theorem SameExcept.next {rc rc' rc₁ rc₁' : RedisClient ρ} (h : SameExcept key rc rc')
    (hnext : rc.Next c rc₁) (hnext' : rc'.Next c rc₁') (hstore : ∀ k ≠ key, rc₁.store k = rc₁'.store k) :
    SameExcept key rc₁ rc₁' where
  connected := by rw [hnext.connected, hnext'.connected, h.connected]
  issued := by rw [hnext.issued, hnext'.issued, h.issued]
  outcomes n := by rw [hnext.outcomes, hnext'.outcomes, h.outcomes]
  store := hstore

/-- A command about another key neither sees nor touches the hash that may differ. -/
theorem commandRelation_sameExcept (B : Backend ρ) [RedisLaws B] (hne : key ≠ key') :
    CommandRelation B key (SameExcept key') := by
  refine ⟨fun hR => hR.connected, fun {rc rc'} hR c hc => ?_⟩
  have hkey : rc.store c.key = rc'.store c.key := hR.store _ (hc ▸ hne)
  have hout : rc.outcomes 0 = rc'.outcomes 0 := hR.outcomes 0
  have hcase := RedisClient.commandCase B c rc
  have hcase' := RedisClient.commandCase B c rc'
  generalize rc.redisCommand B c = out at hcase
  generalize rc'.redisCommand B c = out' at hcase'
  -- the outcome is the same in both states
  cases hcase with
  | done hdone hnext hstore =>
      cases hcase' with
      | done _ hnext' hstore' =>
          refine ⟨?_, hR.next hnext hnext' fun k hk => ?_⟩
          · rw [reply_congr hkey]
            exact .same _
          · rw [hstore, hstore']
            exact effect_congr (hR.store k hk)
      | refused _ hout' => rw [hdone, hout'] at hout; cases hout
      | lost hout' => rw [hdone, hout'] at hout; cases hout
  | refused text hrefused hnext hstore =>
      cases hcase' with
      | done hout' => rw [hrefused, hout'] at hout; cases hout
      | refused text' _ hnext' hstore' =>
          refine ⟨.errors text text', hR.next hnext hnext' ?_⟩
          rw [hstore, hstore']
          exact hR.store
      | lost hout' => rw [hrefused, hout'] at hout; cases hout
  | lost hlost hnext hstore =>
      cases hcase' with
      | done hout' => rw [hlost, hout'] at hout; cases hout
      | refused _ hout' => rw [hlost, hout'] at hout; cases hout
      | lost _ hnext' hstore' =>
          refine ⟨.same _, hR.next hnext hnext' ?_⟩
          rw [hstore, hstore']
          exact hR.store

/-- The keys of two users differ exactly when the ids do before the first NUL byte. -/
theorem userKey_ne_iff : userKey u ≠ userKey v ↔ cstr u ≠ cstr v := by
  rw [userKey_eq, userKey_eq]
  exact not_congr ⟨List.append_cancel_left, fun h => congrArg _ h⟩

/-- Users with different keys have records of their own. -/
theorem recordsSeparate_of_keys (hne : userKey u ≠ userKey v) : RecordsSeparate u v where
  keys := hne
  unchanged _ _ B _ rc op := (op.commands B rc u).store_of_ne B hne.symm
  unread _ _ B _ _ _ op hR := (commandRelation_sameExcept B hne).related hR op

/-- **Different users have records of their own** exactly when their ids differ before the first NUL
byte. -/
theorem recordsSeparate_iff (u v : Bytes) : RecordsSeparate u v ↔ cstr u ≠ cstr v := by
  rw [← userKey_ne_iff]
  exact ⟨fun h => h.keys, recordsSeparate_of_keys⟩

/-- The ids `A` and `A`, NUL, `B` come out of handshakes, and a purchase for the second one changes the
record of the first. -/
theorem not_recordsSeparate_nul :
    helloUser (Datagram.helloOf ⟨0, 0⟩ 65).data 17 = some [65] ∧
      helloUser (Datagram.hello ⟨0, 0⟩ [65, 0, 66] (by decide)).data 19 = some [65, 0, 66] ∧
      ((RecordOp.purchaseWeapon 500 4 6 0).perform (faultyRedis fun _ => .error .invalidArgument)
          (redisWithUserA []) [65, 0, 66]).2.record [65] ≠ (redisWithUserA []).record [65] ∧
      ¬ RecordsSeparate [65, 0, 66] [65] := by
  refine ⟨by decide +kernel, by decide +kernel, fun h => ?_, fun h => h.keys (by decide +kernel)⟩
  have hbalance := congrArg (fun record : Record => record.lookup (ascii "balance")) h
  exact absurd hbalance (by decide +kernel)

end Keys

end CowboyPoker.GameServer
