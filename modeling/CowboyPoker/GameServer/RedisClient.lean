import CowboyPoker.Found.Decimal
import Mathlib.Logic.Relation

/-!
# `RedisClient`

* `Backend ρ` — what the client calls outside the repository: the synchronous `redisCommand` of
  hiredis against a server in a state of type `ρ`, and `stof`. Nothing is assumed of either; a
  development that needs a particular server instantiates the structure.
* `RedisClient ρ` — the connection, the state of the server behind it, and the log of the commands
  issued (`issued`, which no function reads).
* `getPlayerInfo`, `getBalance`, `setAmmo`, `purchaseWeapon`, `consumeLobbyAmmo` — the members of
  the class. A conversion that throws, or a null `str`, ends in a `Fault`.
* `Commands P` — commands with the property `P`, and nothing else, lead from one state of the
  connection to another; the `commands_` lemmas say which commands a member issues.
* `ReadBetween` — a record is what the server answered to an `HGETALL` of a given key.

A `%s` of `redisCommand` is a C string, so a key ends at its first NUL (`userKey`).
-/

namespace CowboyPoker.GameServer

open CowboyPoker.Found

/-! ## Conversions -/

/-- How a handler can end other than by returning. -/
inductive Fault
  /-- `std::invalid_argument`. -/
  | invalidArgument
  /-- `std::out_of_range`. -/
  | outOfRange
  /-- A null pointer was dereferenced. -/
  | nullPointer
  deriving DecidableEq, Repr

/-- `std::stoi`. -/
def stoi (s : Bytes) : Except Fault Int32 :=
  match parseInt s with
  | none => .error .invalidArgument
  | some v => if -2 ^ 31 ≤ v ∧ v < 2 ^ 31 then .ok (Int32.ofInt v) else .error .outOfRange

/-- `std::stoll`. -/
def stoll (s : Bytes) : Except Fault Int64 :=
  match parseInt s with
  | none => .error .invalidArgument
  | some v => if -2 ^ 63 ≤ v ∧ v < 2 ^ 63 then .ok (Int64.ofInt v) else .error .outOfRange

/-- `std::to_string` of an `int64`. -/
def toStringInt64 (v : Int64) : Bytes := decimalInt v.toInt

/-- `std::to_string` of an `int32`. -/
def toStringInt32 (v : Int32) : Bytes := decimalInt v.toInt

/-- An `int64` is the conversion of its numeral. -/
@[simp] theorem stoll_toStringInt64 (v : Int64) : stoll (toStringInt64 v) = .ok v := by
  have hrange : -2 ^ 63 ≤ v.toInt ∧ v.toInt < 2 ^ 63 := ⟨v.le_toInt, v.toInt_lt⟩
  simp only [stoll, toStringInt64, parseInt_decimalInt, if_pos hrange, Int64.ofInt_toInt]

/-- An `int32` is the conversion of its numeral. -/
@[simp] theorem stoi_toStringInt32 (v : Int32) : stoi (toStringInt32 v) = .ok v := by
  have hrange : -2 ^ 31 ≤ v.toInt ∧ v.toInt < 2 ^ 31 := ⟨v.le_toInt, v.toInt_lt⟩
  simp only [stoi, toStringInt32, parseInt_decimalInt, if_pos hrange, Int32.ofInt_toInt]

@[simp] theorem cstr_toStringInt64 (v : Int64) : cstr (toStringInt64 v) = toStringInt64 v :=
  cstr_decimalInt _

@[simp] theorem cstr_toStringInt32 (v : Int32) : cstr (toStringInt32 v) = toStringInt32 v :=
  cstr_decimalInt _

/-! ## Commands and replies -/

/-- A command as it reaches the server. -/
inductive RedisCommand
  /-- `HGETALL key`. -/
  | hgetall (key : Bytes)
  /-- `HGET key field`. -/
  | hget (key field : Bytes)
  /-- `HSET key field value`. -/
  | hset (key field value : Bytes)
  deriving DecidableEq, Repr

/-- The key a command is about. -/
def RedisCommand.key : RedisCommand → Bytes
  | hgetall key => key
  | hget key _ => key
  | hset key _ _ => key

/-- Only `HSET` writes. -/
def RedisCommand.IsWrite : RedisCommand → Prop
  | hset _ _ _ => True
  | _ => False

/-- A `redisReply`, by its type. An element of an array is given by its `str`, which is null for an
element without text. -/
inductive RedisReply
  /-- `REDIS_REPLY_STRING`. -/
  | string (str : Bytes)
  /-- `REDIS_REPLY_ARRAY`. -/
  | array (elements : List (Option Bytes))
  /-- `REDIS_REPLY_INTEGER`. -/
  | integer (value : ℤ)
  /-- `REDIS_REPLY_NIL`. -/
  | nil
  /-- `REDIS_REPLY_STATUS`. -/
  | status (str : Bytes)
  /-- `REDIS_REPLY_ERROR`. -/
  | error (str : Bytes)
  deriving DecidableEq, Repr

/-- `elements`: none unless the reply is an array. -/
def RedisReply.elements : RedisReply → List (Option Bytes)
  | array elements => elements
  | _ => []

/-- The functions of other libraries that the handlers reach. -/
structure Backend (ρ : Type) where
  /-- `redisCommand`: the reply, null on a connection error, and the state of the server after. -/
  redisCommand : RedisCommand → ρ → Option RedisReply × ρ
  /-- `std::stof`; a `float` is its 32-bit pattern. -/
  stof : Bytes → Except Fault UInt32

variable {ρ : Type} (B : Backend ρ)

/-- The user record read from the hash `user:{userId}`, with the initializers of the fields. A
`float` is its 32-bit pattern: `posY` starts as `1.f`.
Source: `GameServer/RedisClient.h`, `PlayerRedisInfo` -/
structure PlayerRedisInfo where
  /-- `userId`. -/
  userId : Bytes := []
  /-- `nickname`. -/
  nickname : Bytes := []
  /-- `scene`. -/
  scene : Bytes := []
  /-- `hp`. -/
  hp : Int32 := 0
  /-- `balance`. -/
  balance : Int64 := 0
  /-- `charType`. -/
  charType : Int32 := 0
  /-- `posX`. -/
  posX : UInt32 := 0
  /-- `posY`. -/
  posY : UInt32 := 0x3F800000
  /-- `posZ`. -/
  posZ : UInt32 := 0
  /-- `rot`. -/
  rot : UInt32 := 0
  /-- `weapon`. -/
  weapon : Int32 := 0
  /-- `ammoType`. -/
  ammoType : Int32 := 0
  /-- `ammo`. -/
  ammo : Int32 := 0
  deriving DecidableEq, Repr

/-- The connection and the server behind it.
Source: `GameServer/RedisClient.h`, `RedisClient` -/
structure RedisClient (ρ : Type) where
  /-- `IsConnected()`, that is `_ctx != nullptr`. -/
  connected : Bool
  /-- The state of the server. -/
  world : ρ
  /-- The commands issued so far. -/
  issued : List RedisCommand := []

/-- A Redis server that never answers. -/
def Backend.unreachable : Backend Unit where
  redisCommand _ w := (none, w)
  stof _ := .error .invalidArgument

/-- The client of a process that could not connect to Redis and continues without it. -/
def RedisClient.disconnected : RedisClient Unit := { connected := false, world := () }

/-- The key of a user: the C string of `"user:" + userId`. -/
def userKey (userId : Bytes) : Bytes := cstr (ascii "user:" ++ userId)

/-- Only the user id is cut. -/
theorem userKey_eq (userId : Bytes) : userKey userId = ascii "user:" ++ cstr userId :=
  cstr_append (by decide) userId

/-- The key of a user id without NUL. -/
theorem userKey_of_zero_notMem {userId : Bytes} (h : 0 ∉ userId) :
    userKey userId = ascii "user:" ++ userId := by
  rw [userKey_eq, cstr_eq_self_iff.mpr h]

/-! ## The members -/

/-- The assignment to the member that a field of the hash names; other fields are skipped.
Source: `GameServer/RedisClient.cpp`, `RedisClient::GetPlayerInfo`, the body of the loop -/
def PlayerRedisInfo.setField (info : PlayerRedisInfo) (field value : Bytes) :
    Except Fault PlayerRedisInfo :=
  if field = ascii "nickname" then .ok { info with nickname := value }
  else if field = ascii "scene" then .ok { info with scene := value }
  else if field = ascii "hp" then (stoi value).map fun v => { info with hp := v }
  else if field = ascii "balance" then (stoll value).map fun v => { info with balance := v }
  else if field = ascii "char_type" then (stoi value).map fun v => { info with charType := v }
  else if field = ascii "pos_x" then (B.stof value).map fun v => { info with posX := v }
  else if field = ascii "pos_y" then (B.stof value).map fun v => { info with posY := v }
  else if field = ascii "pos_z" then (B.stof value).map fun v => { info with posZ := v }
  else if field = ascii "rot" then (B.stof value).map fun v => { info with rot := v }
  else if field = ascii "weapon" then (stoi value).map fun v => { info with weapon := v }
  else if field = ascii "ammo_type" then (stoi value).map fun v => { info with ammoType := v }
  else if field = ascii "ammo" then (stoi value).map fun v => { info with ammo := v }
  else .ok info

/-- The loop over the pairs of a `HGETALL` reply; a last element without a partner is skipped.
Source: `GameServer/RedisClient.cpp`, `RedisClient::GetPlayerInfo` -/
def PlayerRedisInfo.readFields : PlayerRedisInfo → List (Option Bytes) → Except Fault PlayerRedisInfo
  | info, some field :: some value :: rest =>
      match info.setField B (cstr field) (cstr value) with
      | .ok info => readFields info rest
      | .error e => .error e
  | _, _ :: _ :: _ => .error .nullPointer
  | info, _ => .ok info

/-- The result of a conversion, if there is one, is a record of the user `u`. -/
def PlayerRedisInfo.IsOf (u : Bytes) (e : Except Fault PlayerRedisInfo) : Prop :=
  ∀ info, e = .ok info → info.userId = u

theorem PlayerRedisInfo.isOf_ok {u : Bytes} {info : PlayerRedisInfo} (h : info.userId = u) :
    IsOf u (.ok info) := by
  intro info' heq
  cases heq
  exact h

theorem PlayerRedisInfo.isOf_map {α : Type} {u : Bytes} {e : Except Fault α}
    {f : α → PlayerRedisInfo} (h : ∀ v, (f v).userId = u) : IsOf u (e.map f) := by
  intro info heq
  cases e with
  | error e => cases heq
  | ok v =>
      cases heq
      exact h v

theorem PlayerRedisInfo.isOf_ite {c : Prop} [Decidable c] {u : Bytes}
    {a b : Except Fault PlayerRedisInfo} (ha : IsOf u a) (hb : IsOf u b) :
    IsOf u (if c then a else b) := by
  by_cases hc : c
  · rwa [if_pos hc]
  · rwa [if_neg hc]

/-- Reading a field does not touch `userId`. -/
theorem PlayerRedisInfo.isOf_setField (info : PlayerRedisInfo) (field value : Bytes) :
    IsOf info.userId (info.setField B field value) := by
  unfold setField
  repeat' apply isOf_ite
  all_goals first
    | exact isOf_ok rfl
    | exact isOf_map fun _ => rfl

/-- The loop over the fields does not touch `userId`. -/
theorem PlayerRedisInfo.userId_of_readFields {info info' : PlayerRedisInfo}
    {elements : List (Option Bytes)} (h : info.readFields B elements = .ok info') :
    info'.userId = info.userId := by
  induction info, elements using PlayerRedisInfo.readFields.induct B with
  | case1 info field value rest info₁ hset ih =>
      rw [readFields, hset] at h
      exact (ih h).trans (isOf_setField B info _ _ _ hset)
  | case2 info field value rest e hset =>
      rw [readFields, hset] at h
      cases h
  | case3 info a b rest hne =>
      rw [readFields] at h
      · cases h
      · exact hne
  | case4 info elements h₁ h₂ =>
      rw [readFields] at h
      · cases h
        rfl
      · exact h₁
      · exact h₂

namespace RedisClient

/-- `redisCommand` on the connection. -/
def redisCommand (rc : RedisClient ρ) (c : RedisCommand) : Option RedisReply × RedisClient ρ :=
  ((B.redisCommand c rc.world).1,
    { rc with world := (B.redisCommand c rc.world).2, issued := rc.issued ++ [c] })

/-- `GetPlayerInfo`: the returned flag and the record, or the fault that ended it.
Source: `GameServer/RedisClient.cpp`, `RedisClient::GetPlayerInfo` -/
def getPlayerInfo (rc : RedisClient ρ) (userId : Bytes) :
    Except Fault (Bool × PlayerRedisInfo) × RedisClient ρ :=
  if ¬ rc.connected then (.ok (false, {}), rc)
  else
    let (reply, rc) := rc.redisCommand B (.hgetall (userKey userId))
    match reply with
    | none => (.ok (false, {}), rc)
    | some (.error _) => (.ok (false, {}), rc)
    | some .nil => (.ok (false, {}), rc)
    | some (.array elements) =>
        ((PlayerRedisInfo.readFields B { userId := userId } elements).map fun info => (true, info),
          rc)
    -- a reply of any other type has no elements
    | some _ => (.ok (true, { userId := userId }), rc)

/-- `GetBalance`: the balance when the flag is true.
Source: `GameServer/RedisClient.cpp`, `RedisClient::GetBalance` -/
def getBalance (rc : RedisClient ρ) (userId : Bytes) :
    Except Fault (Option Int64) × RedisClient ρ :=
  if ¬ rc.connected then (.ok none, rc)
  else
    let (reply, rc) := rc.redisCommand B (.hget (userKey userId) (ascii "balance"))
    match reply with
    | some (.string str) => ((stoll (cstr str)).map some, rc)
    | _ => (.ok none, rc)

/-- One `HSET` of a field of a user: false only for a null reply, since an error reply is only
logged.
Source: `GameServer/RedisClient.cpp`, the four blocks of `RedisClient::PurchaseWeapon` and the body
of `RedisClient::SetAmmo` -/
def hset (rc : RedisClient ρ) (key field value : Bytes) : Bool × RedisClient ρ :=
  let (reply, rc) := rc.redisCommand B (.hset key field (cstr value))
  match reply with
  | none => (false, rc)
  | some _ => (true, rc)

/-- `SetAmmo`.
Source: `GameServer/RedisClient.cpp`, `RedisClient::SetAmmo` -/
def setAmmo (rc : RedisClient ρ) (userId : Bytes) (ammo : Int32) : Bool × RedisClient ρ :=
  if ¬ rc.connected then (false, rc)
  else rc.hset B (userKey userId) (ascii "ammo") (toStringInt32 ammo)

/-- The `HSET`s of a purchase, up to the first that gets no reply. -/
def hsetAll (rc : RedisClient ρ) (key : Bytes) : List (Bytes × Bytes) → Bool × RedisClient ρ
  | [] => (true, rc)
  | (field, value) :: rest =>
      match rc.hset B key field value with
      | (false, rc) => (false, rc)
      | (true, rc) => hsetAll rc key rest

/-- The fields a purchase stores, in the order in which it stores them. -/
def purchaseFields (newBalance : Int64) (weaponType magazineAmmo ammoEnhanceLevel : Int32) :
    List (Bytes × Bytes) :=
  [(ascii "balance", toStringInt64 newBalance), (ascii "weapon", toStringInt32 weaponType),
    (ascii "ammo_type", toStringInt32 ammoEnhanceLevel), (ascii "ammo", toStringInt32 magazineAmmo)]

/-- `PurchaseWeapon`.
Source: `GameServer/RedisClient.cpp`, `RedisClient::PurchaseWeapon` -/
def purchaseWeapon (rc : RedisClient ρ) (userId : Bytes) (newBalance : Int64)
    (weaponType magazineAmmo : Int32) (ammoEnhanceLevel : Int32 := 0) : Bool × RedisClient ρ :=
  if ¬ rc.connected then (false, rc)
  else rc.hsetAll B (userKey userId)
    (purchaseFields newBalance weaponType magazineAmmo ammoEnhanceLevel)

/-- `ConsumeLobbyAmmo`: the returned flag and `outRemainingAmmo`.
Source: `GameServer/RedisClient.cpp`, `RedisClient::ConsumeLobbyAmmo` -/
def consumeLobbyAmmo (rc : RedisClient ρ) (userId : Bytes) :
    Except Fault (Bool × Int32) × RedisClient ρ :=
  if ¬ rc.connected then (.ok (false, 0), rc)
  else
    match rc.getPlayerInfo B userId with
    | (.error e, rc) => (.error e, rc)
    | (.ok (false, _), rc) => (.ok (false, 0), rc)
    | (.ok (true, info), rc) =>
        if info.weapon = 0 then (.ok (false, 0), rc)
        else if info.ammo ≤ 0 then (.ok (false, 0), rc)
        else
          match rc.setAmmo B userId (info.ammo - 1) with
          | (false, rc) => (.ok (false, 0), rc)
          | (true, rc) => (.ok (true, info.ammo - 1), rc)

/-! ## Which commands a member issues -/

/-- One command with the property `P` leads from `rc` to `rc'`. -/
def Issues (P : RedisCommand → Prop) (rc rc' : RedisClient ρ) : Prop :=
  ∃ c, P c ∧ (rc.redisCommand B c).2 = rc'

/-- Commands with the property `P`, and nothing else, lead from `rc` to `rc'`. -/
def Commands (P : RedisCommand → Prop) : RedisClient ρ → RedisClient ρ → Prop :=
  Relation.ReflTransGen (Issues B P)

/-- All commands issued between two states of the connection have the property `P`. -/
def IssuedOnly (P : RedisCommand → Prop) (rc rc' : RedisClient ρ) : Prop :=
  ∃ cs, rc'.issued = rc.issued ++ cs ∧ ∀ c ∈ cs, P c

/-- Every command that was issued since then satisfies the predicate. -/
theorem IssuedOnly.of_mem_drop {P : RedisCommand → Prop} {rc rc' : RedisClient ρ} {c : RedisCommand}
    (h : IssuedOnly P rc rc') (hc : c ∈ rc'.issued.drop rc.issued.length) : P c := by
  obtain ⟨cs, heq, hP⟩ := h
  rw [heq, List.drop_left] at hc
  exact hP c hc

section commands

variable {B} {P Q : RedisCommand → Prop} {rc rc₁ rc₂ rc₃ rc' : RedisClient ρ} {userId : Bytes}

/-- Nothing was issued. -/
theorem Commands.refl (rc : RedisClient ρ) : Commands B P rc rc := Relation.ReflTransGen.refl

theorem Commands.trans (h₁ : Commands B P rc₁ rc₂) (h₂ : Commands B P rc₂ rc₃) :
    Commands B P rc₁ rc₃ :=
  Relation.ReflTransGen.trans h₁ h₂

/-- One command. -/
theorem Commands.single {c : RedisCommand} (hc : P c) : Commands B P rc (rc.redisCommand B c).2 :=
  Relation.ReflTransGen.single ⟨c, hc, rfl⟩

theorem Commands.mono (h : Commands B P rc rc') (hPQ : ∀ c, P c → Q c) : Commands B Q rc rc' := by
  refine Relation.ReflTransGen.mono (fun rc₁ rc₂ hissues => ?_) rc rc' h
  obtain ⟨c, hc, heq⟩ := hissues
  exact ⟨c, hPQ c hc, heq⟩

/-- The log has what was issued. -/
theorem Commands.issuedOnly (h : Commands B P rc rc') : IssuedOnly P rc rc' := by
  induction h with
  | refl => exact ⟨[], (List.append_nil _).symm, fun c hc => absurd hc List.not_mem_nil⟩
  | tail _ hlast ih =>
      obtain ⟨c, hc, rfl⟩ := hlast
      obtain ⟨cs, heq, hcs⟩ := ih
      refine ⟨cs ++ [c], by simp [redisCommand, heq], fun c' hc' => ?_⟩
      rcases List.mem_append.mp hc' with hc' | hc'
      · exact hcs c' hc'
      · rwa [List.mem_singleton.mp hc']

end commands

variable {rc : RedisClient ρ} {userId : Bytes}

/-- `GetPlayerInfo` reads the hash of the user. -/
theorem commands_getPlayerInfo :
    Commands B (fun c => c = .hgetall (userKey userId)) rc (rc.getPlayerInfo B userId).2 := by
  have h : Commands B (fun c => c = .hgetall (userKey userId)) rc
      (rc.redisCommand B (.hgetall (userKey userId))).2 := .single rfl
  unfold getPlayerInfo
  by_cases hconn : ¬ rc.connected
  · rw [if_pos hconn]
    exact .refl rc
  · rw [if_neg hconn]
    generalize rc.redisCommand B (.hgetall (userKey userId)) = out at h
    obtain ⟨reply, rc'⟩ := out
    dsimp only
    split <;> exact h

/-- `GetBalance` reads one field of the hash of the user. -/
theorem commands_getBalance :
    Commands B (fun c => c = .hget (userKey userId) (ascii "balance")) rc
      (rc.getBalance B userId).2 := by
  have h : Commands B (fun c => c = .hget (userKey userId) (ascii "balance")) rc
      (rc.redisCommand B (.hget (userKey userId) (ascii "balance"))).2 := .single rfl
  unfold getBalance
  by_cases hconn : ¬ rc.connected
  · rw [if_pos hconn]
    exact .refl rc
  · rw [if_neg hconn]
    generalize rc.redisCommand B (.hget (userKey userId) (ascii "balance")) = out at h
    obtain ⟨reply, rc'⟩ := out
    dsimp only
    split <;> exact h

/-- An `HSET` goes to its key. -/
theorem commands_hset (rc : RedisClient ρ) (key field value : Bytes) :
    Commands B (fun c => ∃ f v, c = .hset key f v) rc (rc.hset B key field value).2 := by
  have h : Commands B (fun c => ∃ f v, c = .hset key f v) rc
      (rc.redisCommand B (.hset key field (cstr value))).2 := .single ⟨_, _, rfl⟩
  unfold hset
  generalize rc.redisCommand B (.hset key field (cstr value)) = out at h
  obtain ⟨reply, rc'⟩ := out
  cases reply <;> exact h

theorem commands_hsetAll {key : Bytes} (fields : List (Bytes × Bytes)) :
    Commands B (fun c => ∃ f v, c = .hset key f v) rc (rc.hsetAll B key fields).2 := by
  induction fields generalizing rc with
  | nil => exact .refl rc
  | cons fv fields ih =>
      obtain ⟨field, value⟩ := fv
      have h := commands_hset B rc key field value
      unfold hsetAll
      generalize rc.hset B key field value = out at h
      obtain ⟨ok, rc'⟩ := out
      cases ok with
      | false => exact h
      | true => exact h.trans ih

/-- A shot stores the ammunition of the user. -/
theorem commands_setAmmo {ammo : Int32} :
    Commands B (fun c => ∃ f v, c = .hset (userKey userId) f v) rc
      (rc.setAmmo B userId ammo).2 := by
  unfold setAmmo
  by_cases hconn : ¬ rc.connected
  · rw [if_pos hconn]
    exact .refl rc
  · rw [if_neg hconn]
    exact commands_hset B rc _ _ _

/-- A purchase writes the hash of the user. -/
theorem commands_purchaseWeapon {newBalance : Int64} {weaponType ammo level : Int32} :
    Commands B (fun c => ∃ f v, c = .hset (userKey userId) f v) rc
      (rc.purchaseWeapon B userId newBalance weaponType ammo level).2 := by
  unfold purchaseWeapon
  by_cases hconn : ¬ rc.connected
  · rw [if_pos hconn]
    exact .refl rc
  · rw [if_neg hconn]
    exact commands_hsetAll B _

/-- A shot reads and writes the hash of the user. -/
theorem commands_consumeLobbyAmmo (rc : RedisClient ρ) (userId : Bytes) :
    Commands B (fun c => c.key = userKey userId) rc (rc.consumeLobbyAmmo B userId).2 := by
  have hread : Commands B (fun c => c.key = userKey userId) rc (rc.getPlayerInfo B userId).2 :=
    (commands_getPlayerInfo B).mono fun c hc => by rw [hc]; rfl
  unfold consumeLobbyAmmo
  by_cases hconn : ¬ rc.connected
  · rw [if_pos hconn]
    exact .refl rc
  · rw [if_neg hconn]
    generalize rc.getPlayerInfo B userId = out at hread
    obtain ⟨e | ⟨found, info⟩, rc'⟩ := out
    · exact hread
    · cases found with
      | false => exact hread
      | true =>
          have hset : Commands B (fun c => c.key = userKey userId) rc'
              (rc'.setAmmo B userId (info.ammo - 1)).2 := by
            apply (commands_setAmmo B).mono
            rintro c ⟨f, v, rfl⟩
            rfl
          dsimp only at hread ⊢
          by_cases hweapon : info.weapon = 0
          · rwa [if_pos hweapon]
          · by_cases hammo : info.ammo ≤ 0
            · rwa [if_neg hweapon, if_pos hammo]
            · rw [if_neg hweapon, if_neg hammo]
              generalize rc'.setAmmo B userId (info.ammo - 1) = out at hset
              obtain ⟨stored, rc''⟩ := out
              cases stored <;> exact hread.trans hset

/-! ## Where a record comes from -/

/-- Between `rc` and `rc'`, where all commands have the property `P`, the record `info` of `userId` was
read from the answer of the server to an `HGETALL key`. -/
def ReadBetween (P : RedisCommand → Prop) (key userId : Bytes) (info : PlayerRedisInfo)
    (rc rc' : RedisClient ρ) : Prop :=
  ∃ rc₁ rc₂ reply, Commands B P rc rc₁ ∧ rc₁.redisCommand B (.hgetall key) = (some reply, rc₂) ∧
    Commands B P rc₂ rc' ∧
    PlayerRedisInfo.readFields B { userId := userId } reply.elements = .ok info

section readBetween

variable {B} {P Q : RedisCommand → Prop} {key : Bytes} {info : PlayerRedisInfo}
  {rc' rc₁ rc₂ : RedisClient ρ}

/-- More commands may come before and after. -/
theorem ReadBetween.extend (h : ReadBetween B P key userId info rc₁ rc₂) (hPQ : ∀ c, P c → Q c)
    (hbefore : Commands B Q rc rc₁) (hafter : Commands B Q rc₂ rc') :
    ReadBetween B Q key userId info rc rc' := by
  obtain ⟨rc₃, rc₄, reply, h₁, hreply, h₂, hread⟩ := h
  exact ⟨rc₃, rc₄, reply, hbefore.trans (h₁.mono hPQ), hreply, (h₂.mono hPQ).trans hafter, hread⟩

/-- The record that `GetPlayerInfo` returns comes from the hash of the user. -/
theorem readBetween_getPlayerInfo (h : rc.getPlayerInfo B userId = (.ok (true, info), rc')) :
    ReadBetween B P (userKey userId) userId info rc rc' := by
  unfold getPlayerInfo at h
  by_cases hconn : ¬ rc.connected
  · rw [if_pos hconn] at h
    cases h
  rw [if_neg hconn] at h
  rcases hreply : rc.redisCommand B (.hgetall (userKey userId)) with ⟨_ | reply, rc₁⟩
  · rw [hreply] at h
    cases h
  rw [hreply] at h
  dsimp only at h
  cases reply with
  | error str => cases h
  | nil => cases h
  | array elements =>
      rcases hread : PlayerRedisInfo.readFields B { userId := userId } elements with e | info'
      · simp [hread, Except.map] at h
      · simp only [hread, Except.map, Prod.mk.injEq, Except.ok.injEq, true_and] at h
        obtain ⟨rfl, rfl⟩ := h
        exact ⟨rc, rc₁, _, .refl rc, hreply, .refl rc₁, hread⟩
  | _ =>
      cases h
      exact ⟨rc, rc', _, .refl rc, hreply, .refl rc', rfl⟩

end readBetween

end RedisClient

end CowboyPoker.GameServer
