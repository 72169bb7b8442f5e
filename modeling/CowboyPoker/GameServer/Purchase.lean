import CowboyPoker.GameServer.RedisServer
import CowboyPoker.GameServer.UdpServerPacketHandler

/-!
# Atomicity of a purchase

`Handle_C_BUY_WEAPON` against a Redis server whose commands may be refused or lost.

* `PurchaseAtomic` — the answer tells what happened to the record: success only if the balance was
  charged and the weapon stored, failure only if nothing changed, and the balance in the answer is
  the stored one.
* `buyWeapon_spec` — a purchase either ends before it writes, or the result of the four `HSET`s
  decides the answer.
* `purchaseAtomic_iff` — a purchase for a user without NUL in the id is atomic exactly when it does not
  get as far as writing, or all four fields end up stored without a lost reply (`AllStored`), or an
  `HSET` is lost and none before it changed anything (`NoneStored`). A refused `HSET` counts as success
  in the code, and a lost one leaves the earlier ones in place. With a NUL in the id the hash of the
  user is neither read nor written, so that it has to hold the balance of another user and an `HSET`
  has to be lost.
-/

namespace CowboyPoker.GameServer

open CowboyPoker.Found
open CowboyPoker.ServerCore
open RedisClient

variable {ρ : Type} [RedisState ρ]

/-! ## What an answer promises -/

/-- The answers to a purchase among the requests of a handler: success and balance. -/
def purchaseAnswers (requests : List SendRequest) : List (Bool × Int64) :=
  requests.filterMap fun q =>
    match q.packet with
    | .buyWeaponResult _ success _ balance => some (success, balance)
    | _ => none

/-- The record after a purchase that went through: the price is charged, and the weapon is stored
with plain ammunition and five magazines. -/
def Purchased (before after : Record) (weaponType : Int32) : Prop :=
  ∃ weapon balance, findWeapon weaponType = some weapon ∧ storedBalance before = some balance ∧
    storedBalance after = some (balance - weapon.price) ∧
    after.lookup (ascii "weapon") = some (toStringInt32 weaponType) ∧
    after.lookup (ascii "ammo_type") = some (toStringInt32 0) ∧
    after.lookup (ascii "ammo") = some (toStringInt32 (weapon.magazineSize * 5))

/-- `GetBalance` succeeds with `balance`. -/
def BalanceRead (rc : RedisClient ρ) (user : Bytes) (balance : Int64) : Prop :=
  rc.connected ∧ rc.outcomes 0 = .done ∧
    storedBalance (rc.record user) = some balance

/-- Every answer of the handler to a purchase of `weaponType` by `user` tells what happened to the
hash of the user. -/
def PurchaseAtomic (rc : RedisClient ρ) (user : Bytes) (weaponType : Int32)
    (out : HandlerOut ρ) : Prop :=
  ∀ success balance, (success, balance) ∈ purchaseAnswers out.requests →
    (success = true → Purchased (rc.userHash user) (out.redis.userHash user) weaponType) ∧
    (success = false → ∀ field, (out.redis.userHash user).lookup field =
      (rc.userHash user).lookup field) ∧
    ∀ read, findWeapon weaponType ≠ none → BalanceRead rc user read →
      storedBalance (out.redis.userHash user) = some balance

/-- The purchase gets as far as writing: the weapon exists, and the balance can be read and covers
its price. -/
structure ReachesStore (rc : RedisClient ρ) (user : Bytes) (weaponType : Int32)
    (weapon : WeaponInfo) (balance : Int64) : Prop where
  /-- The weapon is in the table. -/
  weapon_eq : findWeapon weaponType = some weapon
  /-- The balance is read. -/
  balance_eq : BalanceRead rc user balance
  /-- The balance covers the price. -/
  price_le : ¬ balance < weapon.price

/-- The fields that a purchase writes. -/
def fieldsOf (weaponType : Int32) (weapon : WeaponInfo) (balance : Int64) : List (Bytes × Bytes) :=
  purchaseFields (balance - weapon.price) weaponType (weapon.magazineSize * 5) 0

/-- What the writes of a purchase lead to: whether all were answered, and the record. -/
def writesOf (rc : RedisClient ρ) (user : Bytes) (weaponType : Int32)
    (weapon : WeaponInfo) (balance : Int64) : Bool × Record :=
  -- the first command is the one of `GetBalance`
  writeAll (RedisState.put ρ) rc.outcomes 1 (rc.record user)
    (fieldsOf weaponType weapon balance)

/-- The answer to a purchase that ends before it writes: a failure, with the balance that was read. -/
structure FailsUnwritten (rc : RedisClient ρ) (user : Bytes) (weaponType : Int32)
    (answers : List (Bool × Int64)) : Prop where
  failed : ∀ answer ∈ answers, answer.1 = false
  balance : ∀ answer ∈ answers, ∀ read, findWeapon weaponType ≠ none → BalanceRead rc user read →
    answer.2 = read
  answered : ∀ read, findWeapon weaponType ≠ none → BalanceRead rc user read → (false, read) ∈ answers

/-- When no balance is read, every failure will do. -/
theorem FailsUnwritten.of_not_read {rc : RedisClient ρ} {user : Bytes} {weaponType : Int32}
    {answers : List (Bool × Int64)} (hfailed : ∀ answer ∈ answers, answer.1 = false)
    (hread : ∀ read, findWeapon weaponType ≠ none → ¬ BalanceRead rc user read) :
    FailsUnwritten rc user weaponType answers where
  failed := hfailed
  balance _ _ read hne hbalance := absurd hbalance (hread read hne)
  answered read hne hbalance := absurd hbalance (hread read hne)

section inversion

variable (B : Backend ρ) [RedisLaws B]

/-- `PurchaseWeapon` after `GetBalance`. -/
theorem purchaseWeapon_spec {rc rc' : RedisClient ρ} (user : Bytes) (weaponType : Int32)
    (weapon : WeaponInfo) (balance : Int64) (hconn : rc'.connected) (hstore : rc'.store = rc.store)
    (houtcomes : ∀ n, rc'.outcomes n = rc.outcomes (n + 1)) :
    (rc'.purchaseWeapon B user (balance - weapon.price) weaponType (weapon.magazineSize * 5)).1 =
        (writesOf rc user weaponType weapon balance).1 ∧
      (rc'.purchaseWeapon B user (balance - weapon.price) weaponType
        (weapon.magazineSize * 5)).2.record user =
        (writesOf rc user weaponType weapon balance).2 := by
  unfold purchaseWeapon writesOf fieldsOf record
  rw [if_neg (not_not.mpr hconn), ← hstore]
  refine hsetAll_spec B _ (fun kv hkv => cstr_of_mem_purchaseFields hkv) fun i => ?_
  rw [houtcomes, Nat.add_comm]

/-- **The inversion of a purchase.** It ends before it writes, with a failure that names the balance
read, or its writes decide the answer. -/
theorem buyWeapon_spec (ctx : UdpClientContext) (rc : RedisClient ρ) (user : Bytes)
    (weaponType : Int32) (reads : List Span) :
    let out := buyWeapon B ctx rc user weaponType reads
    ((∀ weapon balance, ¬ ReachesStore rc user weaponType weapon balance) ∧
      out.redis.record user = rc.record user ∧
      FailsUnwritten rc user weaponType (purchaseAnswers out.requests)) ∨
    ∃ weapon balance, ReachesStore rc user weaponType weapon balance ∧
      out.redis.record user = (writesOf rc user weaponType weapon balance).2 ∧
      purchaseAnswers out.requests = [((writesOf rc user weaponType weapon balance).1,
        if (writesOf rc user weaponType weapon balance).1 then balance - weapon.price
        else balance)] := by
  have hread := getBalance_eq_ok_iff B rc user
  have hstore := store_getBalance B rc user
  have hnext := fun hconn : rc.connected => getBalance_next B user hconn
  dsimp only
  unfold buyWeapon
  dsimp only
  rcases hweapon : findWeapon weaponType with _ | weapon
  · left
    refine ⟨fun weapon balance h => ?_, rfl, .of_not_read (fun answer hanswer => ?_) fun _ hne => ?_⟩
    · exact absurd (hweapon.symm.trans h.weapon_eq) (Option.some_ne_none weapon).symm
    · rw [List.mem_singleton.mp hanswer]
    · exact absurd hweapon hne
  dsimp only
  generalize rc.getBalance B user = out at hread hstore hnext
  obtain ⟨e | _ | balance, rc₁⟩ := out
  · left
    have hunread : ∀ read, ¬ BalanceRead rc user read := fun read h => by cases (hread read).mpr h
    refine ⟨fun weapon balance h => hunread balance h.balance_eq, congrFun hstore _,
      .of_not_read (fun answer hanswer => ?_) fun read _ => hunread read⟩
    exact absurd hanswer List.not_mem_nil
  · left
    have hunread : ∀ read, ¬ BalanceRead rc user read := fun read h => by cases (hread read).mpr h
    refine ⟨fun weapon balance h => hunread balance h.balance_eq, congrFun hstore _,
      .of_not_read (fun answer hanswer => ?_) fun read _ => hunread read⟩
    rw [List.mem_singleton.mp hanswer]
  have hbalance := (hread balance).mp rfl
  dsimp only
  by_cases hprice : balance < weapon.price
  · left
    rw [if_pos hprice]
    refine ⟨fun weapon' balance' h => ?_, congrFun hstore _, fun answer hanswer => ?_,
      fun answer hanswer read _ hread' => ?_, fun read _ hread' => ?_⟩
    · cases hweapon.symm.trans h.weapon_eq
      cases (hread balance').mpr h.balance_eq
      exact h.price_le hprice
    · rw [List.mem_singleton.mp hanswer]
    · rw [List.mem_singleton.mp hanswer]
      cases (hread read).mpr hread'
      rfl
    · cases (hread read).mpr hread'
      exact List.mem_singleton_self _
  right
  refine ⟨weapon, balance, ⟨hweapon, hbalance, hprice⟩, ?_⟩
  rw [if_neg hprice]
  obtain ⟨hconn, houtcomes⟩ := hnext hbalance.1
  have hwrites := purchaseWeapon_spec B user weaponType weapon balance hconn hstore houtcomes
  generalize rc₁.purchaseWeapon B user (balance - weapon.price) weaponType
    (weapon.magazineSize * 5) = out at hwrites
  obtain ⟨stored, rc₂⟩ := out
  obtain ⟨hok, hrecord⟩ := hwrites
  rw [← hok]
  cases stored with
  | false => exact ⟨hrecord, rfl⟩
  | true =>
      have hinfo := store_getPlayerInfo B rc₂ user
      have hrecord' := (congrFun hinfo (userKey user)).trans hrecord
      dsimp only
      generalize rc₂.getPlayerInfo B user = out at hrecord'
      obtain ⟨e | ⟨found, info⟩, rc₃⟩ := out
      · exact ⟨hrecord', rfl⟩
      · cases found <;> exact ⟨hrecord', rfl⟩

end inversion

/-! ## When a purchase is atomic -/

/-- The weapon and the balance of a purchase that gets as far as writing are determined. -/
theorem ReachesStore.unique {rc : RedisClient ρ} {user : Bytes} {weaponType : Int32}
    {weapon weapon' : WeaponInfo} {balance balance' : Int64}
    (h : ReachesStore rc user weaponType weapon balance)
    (h' : ReachesStore rc user weaponType weapon' balance') :
    weapon' = weapon ∧ balance' = balance := by
  constructor
  · exact Option.some.inj (h'.weapon_eq.symm.trans h.weapon_eq)
  · exact Option.some.inj (h'.balance_eq.2.2.symm.trans h.balance_eq.2.2)

theorem nodup_fieldsOf (weaponType : Int32) (weapon : WeaponInfo) (balance : Int64) :
    ((fieldsOf weaponType weapon balance).map Prod.fst).Nodup := by
  show [ascii "balance", ascii "weapon", ascii "ammo_type", ascii "ammo"].Nodup
  decide

theorem storedBalance_congr {record record' : Record}
    (h : record.lookup (ascii "balance") = record'.lookup (ascii "balance")) :
    storedBalance record = storedBalance record' := by
  unfold storedBalance
  rw [h]

theorem storedBalance_of_lookup {record : Record} {balance : Int64}
    (h : record.lookup (ascii "balance") = some (toStringInt64 balance)) :
    storedBalance record = some balance := by
  unfold storedBalance
  rw [h]
  simp [Except.toOption]

/-- A weapon is never free. -/
theorem sub_price_ne {weaponType : Int32} {weapon : WeaponInfo} (balance : Int64)
    (h : findWeapon weaponType = some weapon) : balance - weapon.price ≠ balance := by
  intro heq
  have hzero : weapon.price = 0 := by grind
  have hpos := (findWeapon_price_pos h).1
  rw [hzero] at hpos
  exact absurd hpos (by decide)

section writes

variable {rc : RedisClient ρ} {user : Bytes} {weaponType : Int32} {weapon : WeaponInfo}
  {balance : Int64}

/-- All writes are answered and stored. -/
theorem writesOf_success_iff (rc : RedisClient ρ) (user : Bytes) (weaponType : Int32)
    (weapon : WeaponInfo) (balance : Int64) :
    (writesOf rc user weaponType weapon balance).1 = true ∧
        (∀ kv ∈ fieldsOf weaponType weapon balance,
          (writesOf rc user weaponType weapon balance).2.lookup kv.1 = some kv.2) ↔
      AllStored rc.outcomes (rc.record user) 1
        (fieldsOf weaponType weapon balance) :=
  RedisState.puts.allStored_iff (nodup_fieldsOf weaponType weapon balance)

/-- A write is lost and nothing has changed. -/
theorem writesOf_failure_iff (rc : RedisClient ρ) (user : Bytes) (weaponType : Int32)
    (weapon : WeaponInfo) (balance : Int64) :
    (writesOf rc user weaponType weapon balance).1 = false ∧
        (∀ field, (writesOf rc user weaponType weapon balance).2.lookup field =
          (rc.record user).lookup field) ↔
      NoneStored rc.outcomes (rc.record user) 1
        (fieldsOf weaponType weapon balance) :=
  RedisState.puts.noneStored_iff (nodup_fieldsOf weaponType weapon balance)

/-- The writes of a purchase leave the record of a purchase exactly when they store every field. -/
theorem purchased_iff (h : ReachesStore rc user weaponType weapon balance) :
    Purchased (rc.record user) (writesOf rc user weaponType weapon balance).2 weaponType ↔
      ∀ kv ∈ fieldsOf weaponType weapon balance,
        (writesOf rc user weaponType weapon balance).2.lookup kv.1 = some kv.2 := by
  have hfields : fieldsOf weaponType weapon balance =
      [(ascii "balance", toStringInt64 (balance - weapon.price)),
        (ascii "weapon", toStringInt32 weaponType), (ascii "ammo_type", toStringInt32 0),
        (ascii "ammo", toStringInt32 (weapon.magazineSize * 5))] := rfl
  constructor
  · rintro ⟨weapon', balance', hweapon, hbefore, hafter, hstored⟩
    obtain ⟨rfl, rfl⟩ : weapon' = weapon ∧ balance' = balance :=
      ⟨Option.some.inj (hweapon.symm.trans h.weapon_eq),
        Option.some.inj (hbefore.symm.trans h.balance_eq.2.2)⟩
    have hbalance : (writesOf rc user weaponType weapon' balance').2.lookup (ascii "balance") =
        some (toStringInt64 (balance' - weapon'.price)) := by
      rcases (RedisState.puts (ρ := ρ)).lookup_writeAll (o := rc.outcomes) (n := 1)
        (m := rc.record user) (nodup_fieldsOf weaponType weapon' balance')
        (k := ascii "balance") (v := toStringInt64 (balance' - weapon'.price))
        List.mem_cons_self with hold | hnew
      · -- the charge was refused, so the old balance would have to be the new one
        have hsame := (storedBalance_congr hold).symm.trans hafter
        rw [hbefore] at hsame
        exact absurd (Option.some.inj hsame).symm (sub_price_ne balance' hweapon)
      · exact hnew
    rw [hfields]
    simp only [List.forall_mem_cons, List.not_mem_nil, false_imp_iff, implies_true, and_true]
    exact ⟨hbalance, hstored⟩
  · intro hall
    rw [hfields] at hall
    simp only [List.forall_mem_cons, List.not_mem_nil, false_imp_iff, implies_true, and_true]
      at hall
    exact ⟨weapon, balance, h.weapon_eq, h.balance_eq.2.2, storedBalance_of_lookup hall.1, hall.2⟩

end writes

section atomic

variable {rc : RedisClient ρ} {user : Bytes} {weaponType : Int32} {out : HandlerOut ρ}

/-- **A purchase that ends before it writes** is answered with a failure that names the balance read. -/
theorem purchaseAtomic_of_unwritten (hhash : out.redis.userHash user = rc.userHash user)
    (hfails : FailsUnwritten rc user weaponType (purchaseAnswers out.requests)) :
    PurchaseAtomic rc user weaponType out ↔
      ∀ read, findWeapon weaponType ≠ none → BalanceRead rc user read →
        storedBalance (rc.userHash user) = some read := by
  rw [PurchaseAtomic, hhash]
  constructor
  · intro hatomic read hne hread
    exact (hatomic _ _ (hfails.answered read hne hread)).2.2 read hne hread
  · intro hstored success balance hmem
    refine ⟨fun htrue => ?_, fun _ _ => rfl, fun read hne hread => ?_⟩
    · exact absurd (htrue.symm.trans (hfails.failed _ hmem)) Bool.noConfusion
    · obtain rfl : balance = read := hfails.balance _ hmem read hne hread
      exact hstored balance hne hread

/-- **A user without NUL in the id.** The writes go to the hash of the user. -/
theorem purchaseAtomic_of_zero_notMem (huser : 0 ∉ user) {weapon : WeaponInfo} {balance : Int64}
    (hreach : ReachesStore rc user weaponType weapon balance)
    (hrecord : out.redis.record user = (writesOf rc user weaponType weapon balance).2)
    (hanswers : purchaseAnswers out.requests = [((writesOf rc user weaponType weapon balance).1,
      if (writesOf rc user weaponType weapon balance).1 then balance - weapon.price else balance)]) :
    PurchaseAtomic rc user weaponType out ↔
      AllStored rc.outcomes (rc.record user) 1 (fieldsOf weaponType weapon balance) ∨
        NoneStored rc.outcomes (rc.record user) 1 (fieldsOf weaponType weapon balance) := by
  have hall := writesOf_success_iff rc user weaponType weapon balance
  have hnone := writesOf_failure_iff rc user weaponType weapon balance
  have hpurchased := purchased_iff hreach
  simp only [PurchaseAtomic, ← record_of_zero_notMem _ huser, hrecord, hanswers, List.mem_singleton]
  generalize writesOf rc user weaponType weapon balance = stored at *
  obtain ⟨ok, after⟩ := stored
  rw [← hall, ← hnone]
  constructor
  · intro hatomic
    obtain ⟨htrue, hfalse, -⟩ := hatomic _ _ rfl
    cases ok with
    | true => exact .inl ⟨rfl, hpurchased.mp (htrue rfl)⟩
    | false => exact .inr ⟨rfl, hfalse rfl⟩
  · intro hcond success newBalance heq
    cases heq
    rcases hcond with ⟨hok, hfields⟩ | ⟨hok, hsame⟩
    · obtain rfl : ok = true := hok
      refine ⟨fun _ => hpurchased.mpr hfields, fun h => Bool.noConfusion h, fun _ _ _ => ?_⟩
      exact storedBalance_of_lookup (hfields (ascii "balance", _) List.mem_cons_self)
    · obtain rfl : ok = false := hok
      refine ⟨fun h => Bool.noConfusion h, fun _ => hsame, fun _ _ _ => ?_⟩
      exact (storedBalance_congr (hsame _)).trans hreach.balance_eq.2.2

/-- **A user with a NUL in the id.** The writes go to another hash. -/
theorem purchaseAtomic_of_unchanged {weapon : WeaponInfo} {balance : Int64}
    (hreach : ReachesStore rc user weaponType weapon balance)
    (hhash : out.redis.userHash user = rc.userHash user)
    (hanswers : purchaseAnswers out.requests = [((writesOf rc user weaponType weapon balance).1,
      if (writesOf rc user weaponType weapon balance).1 then balance - weapon.price else balance)]) :
    PurchaseAtomic rc user weaponType out ↔
      storedBalance (rc.userHash user) = some balance ∧ ∃ i < 4, rc.outcomes (1 + i) = .lost := by
  have hlost : (writesOf rc user weaponType weapon balance).1 = false ↔
      ∃ i < 4, rc.outcomes (1 + i) = .lost := writeAll_fst_eq_false_iff
  have hread : ∀ read, BalanceRead rc user read → read = balance := fun read hread' =>
    Option.some.inj (hread'.2.2.symm.trans hreach.balance_eq.2.2)
  have hweapon : findWeapon weaponType ≠ none := by
    rw [hreach.weapon_eq]
    exact Option.some_ne_none weapon
  simp only [PurchaseAtomic, hhash, hanswers, List.mem_singleton]
  rw [← hlost]
  generalize (writesOf rc user weaponType weapon balance).1 = ok
  constructor
  · intro hatomic
    obtain ⟨htrue, -, hbalance⟩ := hatomic _ _ rfl
    have hstored := hbalance balance hweapon hreach.balance_eq
    cases ok with
    | true =>
        -- nothing was charged to the hash of the user
        obtain ⟨weapon', before, hweapon', hbefore, hafter, -⟩ := htrue rfl
        rw [hbefore] at hafter
        exact absurd (Option.some.inj hafter).symm (sub_price_ne before hweapon')
    | false => exact ⟨hstored, rfl⟩
  · rintro ⟨hstored, rfl⟩ success newBalance heq
    cases heq
    exact ⟨fun h => Bool.noConfusion h, fun _ _ => trivial, fun read _ _ => hstored⟩

end atomic

/-- **Atomicity of a purchase.** A `C_PURCHASE_WEAPON` that parses is answered truthfully exactly
when it does not get as far as writing, or every field ends up stored and no reply is lost, or a
reply is lost before anything has changed. For a user with a NUL in the id, the hash of the user has to
hold the balance that was read, and once the purchase gets as far as writing a reply has to be lost. -/
theorem purchaseAtomic_iff (B : Backend ρ) [RedisLaws B] (ctx : UdpClientContext)
    (rc : RedisClient ρ) {payload : Bytes} {payloadLen : ℤ} {user : Bytes}
    {weaponType : Int32} {reads : List Span}
    (hparse : parseBuyWeapon payload payloadLen = (some (user, weaponType), reads)) :
    PurchaseAtomic rc user weaponType (handleCBuyWeapon B ctx rc payload payloadLen) ↔
      (0 ∉ user → ∀ weapon balance, ReachesStore rc user weaponType weapon balance →
        AllStored rc.outcomes (rc.record user) 1 (fieldsOf weaponType weapon balance) ∨
          NoneStored rc.outcomes (rc.record user) 1 (fieldsOf weaponType weapon balance)) ∧
      (0 ∈ user →
        (∀ read, findWeapon weaponType ≠ none → BalanceRead rc user read →
          storedBalance (rc.userHash user) = some read) ∧
        ∀ weapon balance, ReachesStore rc user weaponType weapon balance →
          ∃ i < 4, rc.outcomes (1 + i) = .lost) := by
  have hhandler : handleCBuyWeapon B ctx rc payload payloadLen =
      buyWeapon B ctx rc user weaponType reads := by
    unfold handleCBuyWeapon
    rw [hparse]
  rw [hhandler]
  have hhandled : Handled B user False 0 ctx rc (buyWeapon B ctx rc user weaponType reads) :=
    handled_buyWeapon weaponType reads
  have hhash : 0 ∈ user →
      (buyWeapon B ctx rc user weaponType reads).redis.userHash user = rc.userHash user :=
    fun huser => hhandled.commands.userHash_eq B fun heq => cstr_eq_self_iff.mp heq huser
  rcases buyWeapon_spec B ctx rc user weaponType reads with
    ⟨hnot, hrecord, hfails⟩ | ⟨weapon, balance, hreach, hrecord, hanswers⟩
  · -- nothing was written
    have hsame : (buyWeapon B ctx rc user weaponType reads).redis.userHash user =
        rc.userHash user := by
      by_cases huser : 0 ∈ user
      · exact hhash huser
      · rwa [record_of_zero_notMem _ huser, record_of_zero_notMem _ huser] at hrecord
    rw [purchaseAtomic_of_unwritten hsame hfails]
    constructor
    · intro hstored
      exact ⟨fun _ weapon balance h => absurd h (hnot weapon balance),
        fun _ => ⟨hstored, fun weapon balance h => absurd h (hnot weapon balance)⟩⟩
    · rintro ⟨-, hnul⟩ read hne hread
      by_cases huser : 0 ∈ user
      · exact (hnul huser).1 read hne hread
      · rw [← record_of_zero_notMem _ huser]
        exact hread.2.2
  · -- the writes decide the answer
    have hunique : ∀ {p : WeaponInfo → Int64 → Prop}, p weapon balance ↔
        ∀ weapon' balance', ReachesStore rc user weaponType weapon' balance' → p weapon' balance' := by
      intro p
      refine ⟨fun hp weapon' balance' h => ?_, fun h => h weapon balance hreach⟩
      obtain ⟨rfl, rfl⟩ := hreach.unique h
      exact hp
    by_cases huser : 0 ∈ user
    · rw [purchaseAtomic_of_unchanged hreach (hhash huser) hanswers]
      refine ⟨fun ⟨hstored, hlost⟩ => ⟨fun hnot => absurd huser hnot, fun _ => ⟨?_, ?_⟩⟩,
        fun h => ?_⟩
      · intro read _ hread
        rw [hstored, ← hread.2.2, hreach.balance_eq.2.2]
      · exact fun _ _ _ => hlost
      · obtain ⟨hread, hlost⟩ := h.2 huser
        refine ⟨hread balance ?_ hreach.balance_eq, hlost weapon balance hreach⟩
        rw [hreach.weapon_eq]
        exact Option.some_ne_none weapon
    · rw [purchaseAtomic_of_zero_notMem huser hreach hrecord hanswers,
        and_iff_left fun hmem => absurd hmem huser, hunique (p := fun weapon balance =>
          AllStored rc.outcomes (rc.record user) 1 (fieldsOf weaponType weapon balance) ∨
            NoneStored rc.outcomes (rc.record user) 1 (fieldsOf weaponType weapon balance))]
      exact ⟨fun h _ => h, fun h => h huser⟩

/-- `A` buys the revolver of type 4, which costs 500. -/
def revolverPayload : Bytes := [1, 0, 65, 4, 0, 0, 0]

theorem purchaseAtomic_iff_revolver :
    PurchaseAtomic (redisWithUserA []) [65] 4
        (handleCBuyWeapon (faultyRedis fun _ => .error .invalidArgument) {} (redisWithUserA [])
          revolverPayload 7) ↔
      (0 ∉ [(65 : UInt8)] → ∀ weapon balance, ReachesStore (redisWithUserA []) [65] 4 weapon balance →
        AllStored (redisWithUserA []).outcomes ((redisWithUserA []).record [65]) 1
            (fieldsOf 4 weapon balance) ∨
          NoneStored (redisWithUserA []).outcomes ((redisWithUserA []).record [65]) 1
            (fieldsOf 4 weapon balance)) ∧
      (0 ∈ [(65 : UInt8)] →
        (∀ read, findWeapon 4 ≠ none → BalanceRead (redisWithUserA []) [65] read →
          storedBalance ((redisWithUserA []).userHash [65]) = some read) ∧
        ∀ weapon balance, ReachesStore (redisWithUserA []) [65] 4 weapon balance →
          ∃ i < 4, (redisWithUserA []).outcomes (1 + i) = .lost) :=
  purchaseAtomic_iff _ {} (redisWithUserA []) (show parseBuyWeapon revolverPayload 7 =
    (some ([65], 4), [⟨0, 2⟩, ⟨2, 1⟩, ⟨3, 4⟩]) by decide)

/-- When the reply to the second `HSET` is lost, the purchase is answered as failed although its price
has been charged. -/
theorem not_purchaseAtomic_lost_weapon :
    ¬ PurchaseAtomic (redisWithUserA [.done, .done, .lost]) [65] 4
      (handleCBuyWeapon (faultyRedis fun _ => .error .invalidArgument) {}
        (redisWithUserA [.done, .done, .lost]) revolverPayload 7) := by
  intro h
  have hsame := (h false 1000 (by decide)).2.1 rfl (ascii "balance")
  exact absurd hsame (by decide)

end CowboyPoker.GameServer
