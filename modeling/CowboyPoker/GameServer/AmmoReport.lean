import CowboyPoker.GameServer.RecordReading

/-!
# What `ConsumeLobbyAmmo` reports

A shot reads the record, tests it, and stores the rounds that are left. The `HSET` may be refused, which
`SetAmmo` only logs, and the record may hold a field that passes for another one.

* `lastNamed` — the value that the loop of `GetPlayerInfo` ends up with for a name.
  `readFields_eq_ok_iff` and `get_of_readFields` describe the loop by it, for records of any content.
* `consumeLobbyAmmo_of_shoots`, `consumeLobbyAmmo_of_not_shoots` — how a shot ends, by the outcomes of
  its two commands.
* `ReportsAmmo` — a shot is reported just as it is stored. `reportsAmmo_iff` — it is exactly when, once a
  shot gets as far as storing, its `HSET` is lost, or done with the weapon and the rounds read from the
  fields of these names.
-/

namespace CowboyPoker.GameServer

open CowboyPoker.Found
open CowboyPoker.ServerCore

/-! ## The loop, for any fields -/

/-- The value of the last field that has the name up to its first NUL byte. -/
def lastNamed (name : Bytes) : List (Σ _ : Bytes, Bytes) → Option Bytes
  | [] => none
  | kv :: entries => (lastNamed name entries).or (if cstr kv.1 = name then some kv.2 else none)

/-- Every value of a field that has a known name up to its first NUL byte converts. -/
def AllConvert (stof : Bytes → Except Fault UInt32) (entries : List (Σ _ : Bytes, Bytes)) : Prop :=
  ∀ kv ∈ entries, ∀ field : PlayerField, cstr kv.1 = field.name →
    ∃ x, field.convert stof (cstr kv.2) = .ok x

section Loop

variable {ρ : Type} {B : Backend ρ} {info info' : PlayerRedisInfo}
  {kv : Σ _ : Bytes, Bytes} {entries : List (Σ _ : Bytes, Bytes)}

/-- An iteration goes on exactly when its value converts, if it has to. -/
theorem setField_eq_ok_iff (info : PlayerRedisInfo) (name value : Bytes) :
    (∃ info', info.setField B name value = .ok info') ↔
      ∀ field : PlayerField, name = field.name → ∃ x, field.convert B.stof value = .ok x := by
  by_cases hknown : ∃ field : PlayerField, name = field.name
  · obtain ⟨field, rfl⟩ := hknown
    obtain ⟨hok, herror⟩ := setField_name B info field value
    constructor
    · rintro ⟨info', hset⟩ other hother
      obtain rfl := PlayerField.name_injective hother
      cases hconvert : field.convert B.stof value with
      | ok x => exact ⟨x, rfl⟩
      | error e =>
          rw [herror e hconvert] at hset
          cases hset
    · intro h
      obtain ⟨x, hx⟩ := h field rfl
      obtain ⟨info', hset, -⟩ := hok x hx
      exact ⟨info', hset⟩
  · have hskip := setField_other B info value fun field hname => hknown ⟨field, hname⟩
    exact ⟨fun _ field hname => absurd ⟨field, hname⟩ hknown, fun _ => ⟨info, hskip⟩⟩

/-- An iteration that goes on has assigned to the member of its name, and to no other. -/
theorem get_of_setField {name value : Bytes} (h : info.setField B name value = .ok info')
    (field : PlayerField) :
    (name = field.name → field.convert B.stof value = .ok (field.get info')) ∧
      (name ≠ field.name → field.get info' = field.get info) := by
  by_cases hknown : ∃ other : PlayerField, name = other.name
  · obtain ⟨other, rfl⟩ := hknown
    obtain ⟨hok, herror⟩ := setField_name B info other value
    cases hconvert : other.convert B.stof value with
    | error e =>
        rw [herror e hconvert] at h
        cases h
    | ok x =>
        obtain ⟨info₁, hset, hget, hothers⟩ := hok x hconvert
        obtain rfl : info₁ = info' := Except.ok.inj (hset.symm.trans h)
        constructor
        · intro heq
          obtain rfl := PlayerField.name_injective heq
          rw [hconvert, hget]
        · exact fun hne => hothers field fun heq => hne (heq ▸ rfl)
  · have hskip := setField_other B info value fun other hname => hknown ⟨other, hname⟩
    obtain rfl : info = info' := Except.ok.inj (hskip.symm.trans h)
    exact ⟨fun heq => absurd ⟨field, heq⟩ hknown, fun _ => rfl⟩

/-- **The loop comes to its end** exactly when every value that has to convert does. -/
theorem readFields_eq_ok_iff (info : PlayerRedisInfo) (entries : List (Σ _ : Bytes, Bytes)) :
    (∃ info', info.readFields B (replyElements entries) = .ok info') ↔ AllConvert B.stof entries := by
  induction entries generalizing info with
  | nil => exact iff_of_true ⟨info, rfl⟩ fun kv hkv => absurd hkv List.not_mem_nil
  | cons kv entries ih =>
      have hhead := setField_eq_ok_iff (B := B) info (cstr kv.1) (cstr kv.2)
      rw [AllConvert, List.forall_mem_cons, ← hhead, readFields_cons]
      cases hset : info.setField B (cstr kv.1) (cstr kv.2) with
      | ok info₁ =>
          rw [and_iff_right ⟨info₁, rfl⟩]
          exact ih info₁
      | error e => exact iff_of_false nofun fun h => nomatch h.1

/-- **A member is read** from the last field that has its name up to a NUL byte. -/
theorem get_of_readFields (h : info.readFields B (replyElements entries) = .ok info')
    (field : PlayerField) :
    (∀ value, lastNamed field.name entries = some value →
        field.convert B.stof (cstr value) = .ok (field.get info')) ∧
      (lastNamed field.name entries = none → field.get info' = field.get info) := by
  induction entries generalizing info with
  | nil =>
      obtain rfl : info = info' := Except.ok.inj h
      exact ⟨nofun, fun _ => rfl⟩
  | cons kv entries ih =>
      rw [readFields_cons] at h
      cases hset : info.setField B (cstr kv.1) (cstr kv.2) with
      | error e =>
          rw [hset] at h
          cases h
      | ok info₁ =>
          rw [hset] at h
          obtain ⟨hnamed, hother⟩ := get_of_setField hset field
          obtain ⟨hlast, hnone⟩ := ih h
          rw [lastNamed]
          cases hrest : lastNamed field.name entries with
          | some value =>
              refine ⟨fun v hv => ?_, nofun⟩
              obtain rfl : value = v := Option.some.inj hv
              exact hlast value hrest
          | none =>
              -- no later field has the name
              rw [Option.none_or]
              by_cases heq : cstr kv.1 = field.name
              · rw [if_pos heq]
                refine ⟨fun v hv => ?_, nofun⟩
                obtain rfl : kv.2 = v := Option.some.inj hv
                rw [hnone hrest]
                exact hnamed heq
              · rw [if_neg heq]
                exact ⟨nofun, fun _ => (hnone hrest).trans (hother heq)⟩

end Loop

/-! ## A shot -/

/-- The number that the loop ends up with for a name; a record has a zero for what is not stored. -/
def readNumber (name : Bytes) (record : Record) : Int32 :=
  match lastNamed name record.entries with
  | some value => (stoi value).toOption.getD 0
  | none => 0

/-- The number that is stored under a name. -/
def storedNumber (name : Bytes) (record : Record) : Option Int32 :=
  (record.lookup name).bind fun value => (stoi value).toOption

section Definitions

variable {ρ : Type} [RedisState ρ]

/-- A shot gets as far as storing: the record was read and converts, and it shows a weapon and at least
one round. -/
structure Shoots (B : Backend ρ) (rc : RedisClient ρ) (userId : Bytes) :
    Prop where
  connected : rc.connected
  read : rc.outcomes 0 = .done
  converts : AllConvert B.stof (rc.record userId).entries
  weapon : readNumber (ascii "weapon") (rc.record userId) ≠ 0
  ammo : 0 < readNumber (ascii "ammo") (rc.record userId)

/-- A shot is reported just as it is stored in the hash of the user: with `true` and `r` only if a weapon
is stored, `r + 1` rounds were and `r` are; with `false` only if the hash is as before. -/
def ReportsAmmo (B : Backend ρ) (rc : RedisClient ρ) (userId : Bytes) :
    Prop :=
  ∀ (flag : Bool) (r : Int32) (rc' : RedisClient ρ),
    rc.consumeLobbyAmmo B userId = (.ok (flag, r), rc') →
      (flag = true → 0 ≤ r.toInt ∧
        (∃ w ≠ 0, storedNumber (ascii "weapon") (rc.userHash userId) = some w) ∧
        (∃ before, storedNumber (ascii "ammo") (rc.userHash userId) = some before ∧
          before.toInt = r.toInt + 1) ∧
        storedNumber (ascii "ammo") (rc'.userHash userId) = some r) ∧
      (flag = false → rc'.userHash userId = rc.userHash userId)

end Definitions

section Shot

variable {ρ : Type} [RedisState ρ] {B : Backend ρ} [RedisLaws B] {rc : RedisClient ρ} {userId : Bytes}

/-- A number is read from the last field of its name. -/
theorem eq_readNumber {ρ : Type} {B : Backend ρ} {info info' : PlayerRedisInfo} {record : Record}
    (h : info.readFields B (replyElements record.entries) = .ok info') (field : PlayerField)
    (number : PlayerRedisInfo → Int32) (hget : ∀ i, field.get i = .int32 (number i))
    (hconvert : ∀ s, field.convert B.stof s = (stoi s).map .int32) (hzero : number info = 0) :
    number info' = readNumber field.name record := by
  obtain ⟨hsome, hnone⟩ := get_of_readFields h field
  rw [readNumber]
  cases hlast : lastNamed field.name record.entries with
  | none =>
      have hsame := hnone hlast
      rw [hget, hget] at hsame
      exact (FieldValue.int32.inj hsame).trans hzero
  | some value =>
      have hvalue := hsome value hlast
      rw [hconvert, hget, stoi_cstr] at hvalue
      cases hstoi : stoi value with
      | error e =>
          rw [hstoi] at hvalue
          cases hvalue
      | ok v =>
          rw [hstoi] at hvalue
          show number info' = (stoi value).toOption.getD 0
          rw [hstoi]
          exact (FieldValue.int32.inj (Except.ok.inj hvalue)).symm

/-- The two members that a shot tests. -/
theorem weapon_and_ammo {ρ : Type} {B : Backend ρ} {info info' : PlayerRedisInfo} {record : Record}
    (h : info.readFields B (replyElements record.entries) = .ok info') (hweapon : info.weapon = 0)
    (hammo : info.ammo = 0) :
    info'.weapon = readNumber (ascii "weapon") record ∧ info'.ammo = readNumber (ascii "ammo") record :=
  ⟨eq_readNumber h .weapon (fun i => i.weapon) (fun _ => rfl) (fun _ => rfl) hweapon,
    eq_readNumber h .ammo (fun i => i.ammo) (fun _ => rfl) (fun _ => rfl) hammo⟩

/-- What `GetPlayerInfo` returns, by the outcome of its command. -/
theorem getPlayerInfo_outcome (B : Backend ρ) [RedisLaws B] (userId : Bytes)
    (hconn : rc.connected) :
    (rc.outcomes 0 = .done →
      (rc.getPlayerInfo B userId).1 =
        (PlayerRedisInfo.readFields B { userId := userId }
          (replyElements (rc.record userId).entries)).map fun info => (true, info)) ∧
      (rc.outcomes 0 ≠ .done →
        (rc.getPlayerInfo B userId).1 = .ok (false, {})) := by
  have hcase := RedisClient.commandCase B (.hgetall (userKey userId)) rc
  unfold RedisClient.getPlayerInfo
  rw [if_neg (not_not.mpr hconn)]
  generalize rc.redisCommand B (.hgetall (userKey userId)) = out at hcase
  cases hcase with
  | done hout => exact ⟨fun _ => rfl, fun h => absurd hout h⟩
  | refused text hout => exact ⟨(fun h => by cases hout.symm.trans h), fun _ => rfl⟩
  | lost hout => exact ⟨(fun h => by cases hout.symm.trans h), fun _ => rfl⟩

/-- The connection after a `GetPlayerInfo`. -/
theorem getPlayerInfo_next (B : Backend ρ) [RedisLaws B] (userId : Bytes)
    (hconn : rc.connected) :
    (rc.getPlayerInfo B userId).2.connected ∧
      ∀ n, (rc.getPlayerInfo B userId).2.outcomes n = rc.outcomes (n + 1) := by
  have hnext := RedisClient.next_redisCommand B rc (.hgetall (userKey userId))
  have hafter := hnext.connected.trans hconn
  unfold RedisClient.getPlayerInfo
  rw [if_neg (not_not.mpr hconn)]
  dsimp only
  split <;> exact ⟨hafter, hnext.outcomes⟩

/-- **A shot that gets as far as storing** reports by the answer to its `HSET`. -/
theorem consumeLobbyAmmo_of_shoots (h : Shoots B rc userId) :
    (rc.consumeLobbyAmmo B userId).1 =
        .ok (if rc.outcomes 1 = .lost then (false, 0)
          else (true, readNumber (ascii "ammo") (rc.record userId) - 1)) ∧
      (rc.consumeLobbyAmmo B userId).2.record userId =
        write (RedisState.put ρ) (rc.record userId) (ascii "ammo")
          (toStringInt32 (readNumber (ascii "ammo") (rc.record userId) - 1))
          (rc.outcomes 1) := by
  obtain ⟨info, hloop⟩ := (readFields_eq_ok_iff (B := B) { userId := userId }
    (rc.record userId).entries).mpr h.converts
  obtain ⟨hweapon, hammo⟩ := weapon_and_ammo hloop rfl rfl
  have hresult := (getPlayerInfo_outcome B userId h.connected).1 h.read
  have hnext := getPlayerInfo_next B userId h.connected
  have hstore := RedisClient.store_getPlayerInfo B rc userId
  rw [hloop] at hresult
  unfold RedisClient.consumeLobbyAmmo
  rw [if_neg (not_not.mpr h.connected)]
  generalize rc.getPlayerInfo B userId = out at hresult hnext hstore
  obtain ⟨result, rc₁⟩ := out
  obtain rfl : result = .ok (true, info) := hresult
  obtain ⟨hconn₁, houtcomes⟩ := hnext
  dsimp only at hconn₁ houtcomes hstore ⊢
  have hpos : ¬ info.ammo ≤ 0 := by
    rw [hammo, Int32.not_le]
    exact h.ammo
  rw [if_neg (hweapon ▸ h.weapon), if_neg hpos, ← hammo]
  -- the shot is one `HSET`
  have hset := RedisClient.hset_spec B rc₁ (userKey userId) (ascii "ammo")
    (cstr_toStringInt32 (info.ammo - 1))
  rw [houtcomes, hstore] at hset
  unfold RedisClient.setAmmo
  rw [if_neg (not_not.mpr hconn₁)]
  generalize rc₁.hset B (userKey userId) (ascii "ammo")
    (toStringInt32 (info.ammo - 1)) = out at hset
  obtain ⟨answered, rc₂⟩ := out
  obtain ⟨hanswered, hwritten, -⟩ := hset
  by_cases hlost : rc.outcomes 1 = .lost
  · simp only [hlost, decide_true, Bool.not_true] at hanswered
    subst hanswered
    rw [if_pos hlost]
    exact ⟨rfl, hwritten⟩
  · simp only [hlost, decide_false, Bool.not_false] at hanswered
    subst hanswered
    rw [if_neg hlost]
    exact ⟨rfl, hwritten⟩

/-- **A shot that does not** reports no success and leaves the hashes alone. -/
theorem consumeLobbyAmmo_of_not_shoots (h : ¬ Shoots B rc userId) :
    (∀ r, (rc.consumeLobbyAmmo B userId).1 ≠ .ok (true, r)) ∧
      (rc.consumeLobbyAmmo B userId).2.store = rc.store := by
  by_cases hconn : rc.connected
  case neg =>
    unfold RedisClient.consumeLobbyAmmo
    rw [if_pos hconn]
    exact ⟨nofun, rfl⟩
  obtain ⟨hdone, hother⟩ := getPlayerInfo_outcome B userId hconn
  have hstore := RedisClient.store_getPlayerInfo B rc userId
  unfold RedisClient.consumeLobbyAmmo
  rw [if_neg (not_not.mpr hconn)]
  by_cases hread : rc.outcomes 0 = .done
  case neg =>
    have hresult := hother hread
    generalize rc.getPlayerInfo B userId = out at hresult hstore
    obtain ⟨result, rc₁⟩ := out
    obtain rfl : result = .ok (false, {}) := hresult
    exact ⟨nofun, hstore⟩
  have hresult := hdone hread
  cases hloop : PlayerRedisInfo.readFields B { userId := userId }
      (replyElements (rc.record userId).entries) with
  | error e =>
      rw [hloop] at hresult
      generalize rc.getPlayerInfo B userId = out at hresult hstore
      obtain ⟨result, rc₁⟩ := out
      obtain rfl : result = .error e := hresult
      exact ⟨nofun, hstore⟩
  | ok info =>
      rw [hloop] at hresult
      generalize rc.getPlayerInfo B userId = out at hresult hstore
      obtain ⟨result, rc₁⟩ := out
      obtain rfl : result = .ok (true, info) := hresult
      dsimp only
      by_cases hweapon : info.weapon = 0
      · rw [if_pos hweapon]
        exact ⟨nofun, hstore⟩
      by_cases hammo : info.ammo ≤ 0
      · rw [if_neg hweapon, if_pos hammo]
        exact ⟨nofun, hstore⟩
      · obtain ⟨hweapon', hammo'⟩ := weapon_and_ammo hloop rfl rfl
        rw [hweapon'] at hweapon
        rw [hammo', Int32.not_le] at hammo
        exact absurd ⟨hconn, hread, (readFields_eq_ok_iff _ _).mp ⟨info, hloop⟩, hweapon, hammo⟩ h

/-- The round that is fired is one that was there. -/
theorem toInt_sub_one {ammo : Int32} (h : 0 < ammo) :
    0 ≤ (ammo - 1).toInt ∧ ammo.toInt = (ammo - 1).toInt + 1 := by
  have hpos : 0 < ammo.toInt := Int32.lt_iff_toInt_lt.mp h
  have hlt : ammo.toInt < 2 ^ 31 := ammo.toInt_lt
  have hone : (1 : Int32).toInt = 1 := by decide
  have hsub : (ammo - 1).toInt = ammo.toInt - 1 := by
    rw [Int32.toInt_sub, hone]
    exact Int.bmod_eq_of_le (by norm_num; omega) (by norm_num; omega)
  omega

/-- The number that a write stores, when it is done. -/
theorem storedNumber_write_done (record : Record) (name : Bytes) (v : Int32) :
    storedNumber name (write (RedisState.put ρ) record name (toStringInt32 v) .done) = some v := by
  rw [write, storedNumber, RedisState.lookup_put_self, Option.bind_some, stoi_toStringInt32]
  rfl

/-- A shot that ends before it stores anything is reported as failed. -/
theorem reportsAmmo_of_not_shoots (h : ¬ Shoots B rc userId)
    (hhash : (rc.consumeLobbyAmmo B userId).2.userHash userId = rc.userHash userId) :
    ReportsAmmo B rc userId := by
  obtain ⟨hno, -⟩ := consumeLobbyAmmo_of_not_shoots h
  intro flag r rc' hcall
  constructor
  · rintro rfl
    exact absurd (congrArg Prod.fst hcall) (hno r)
  · intro _
    rwa [hcall] at hhash

/-- **A user with a NUL in the id.** The hash of the user is not the one that a shot writes. -/
theorem reportsAmmo_of_zero_mem (hnul : 0 ∈ userId) :
    ReportsAmmo B rc userId ↔ (Shoots B rc userId → rc.outcomes 1 = .lost) := by
  have hhash : (rc.consumeLobbyAmmo B userId).2.userHash userId = rc.userHash userId :=
    (RedisClient.commands_consumeLobbyAmmo B rc userId).userHash_eq B fun heq =>
      cstr_eq_self_iff.mp heq hnul
  by_cases h : Shoots B rc userId
  case neg => exact iff_of_true (reportsAmmo_of_not_shoots h hhash) fun h' => absurd h' h
  case pos =>
    obtain ⟨hresult, -⟩ := consumeLobbyAmmo_of_shoots h
    rw [forall_prop_of_true h]
    generalize hcall : rc.consumeLobbyAmmo B userId = out at hresult hhash
    obtain ⟨result, rc₁⟩ := out
    dsimp only at hresult hhash
    rw [ReportsAmmo, hcall]
    by_cases hlost : rc.outcomes 1 = .lost
    · rw [if_pos hlost] at hresult
      subst hresult
      refine iff_of_true (fun flag r rc' heq => ?_) hlost
      cases heq
      exact ⟨fun h => absurd h Bool.false_ne_true, fun _ => hhash⟩
    · rw [if_neg hlost] at hresult
      subst hresult
      -- the same number cannot be the one before the shot and the one behind it
      refine iff_of_false (fun hlaw => ?_) hlost
      obtain ⟨-, -, ⟨before, hbefore, hsucc⟩, hafter⟩ := (hlaw true _ rc₁ rfl).1 rfl
      rw [hhash, hbefore] at hafter
      rw [Option.some.inj hafter] at hsucc
      omega

/-- **A user without NUL in the id.** -/
theorem reportsAmmo_of_zero_notMem (hnul : 0 ∉ userId) :
    ReportsAmmo B rc userId ↔
      (Shoots B rc userId →
        rc.outcomes 1 = .lost ∨
          rc.outcomes 1 = .done ∧
            (∃ w ≠ 0, storedNumber (ascii "weapon") (rc.record userId) = some w) ∧
            storedNumber (ascii "ammo") (rc.record userId) =
              some (readNumber (ascii "ammo") (rc.record userId))) := by
  by_cases h : Shoots B rc userId
  case neg =>
    obtain ⟨-, hstore⟩ := consumeLobbyAmmo_of_not_shoots h
    exact iff_of_true (reportsAmmo_of_not_shoots h (congrFun hstore _)) fun h' => absurd h' h
  case pos =>
    unfold ReportsAmmo
    simp only [← RedisClient.record_of_zero_notMem _ hnul]
    obtain ⟨hresult, hrecord⟩ := consumeLobbyAmmo_of_shoots h
    obtain ⟨hnonneg, hbefore⟩ := toInt_sub_one h.ammo
    rw [forall_prop_of_true h]
    generalize hcall : rc.consumeLobbyAmmo B userId = out at hresult hrecord
    obtain ⟨result, rc₁⟩ := out
    dsimp only at hresult hrecord
    cases houtcome : rc.outcomes 1 with
    | lost =>
        rw [houtcome, if_pos rfl] at hresult
        rw [houtcome] at hrecord
        subst hresult
        refine iff_of_true (fun flag r rc' heq => ?_) (.inl rfl)
        cases heq
        exact ⟨fun h => absurd h Bool.false_ne_true, fun _ => hrecord⟩
    | refused =>
        rw [houtcome, if_neg fun h => by cases h] at hresult
        rw [houtcome] at hrecord
        subst hresult
        refine iff_of_false (fun hlaw => ?_) (by simp)
        obtain ⟨-, -, ⟨before, hbefore', hsucc⟩, hafter⟩ := (hlaw true _ rc₁ rfl).1 rfl
        rw [show rc₁.record userId = rc.record userId from hrecord, hbefore'] at hafter
        rw [Option.some.inj hafter] at hsucc
        omega
    | done =>
        rw [houtcome, if_neg fun h => by cases h] at hresult
        rw [houtcome] at hrecord
        subst hresult
        have hafter : storedNumber (ascii "ammo") (rc₁.record userId) =
            some (readNumber (ascii "ammo") (rc.record userId) - 1) := by
          rw [hrecord, storedNumber_write_done]
        constructor
        · intro hlaw
          obtain ⟨-, hweapon, ⟨before, hstored, hsucc⟩, -⟩ := (hlaw true _ rc₁ rfl).1 rfl
          refine .inr ⟨rfl, hweapon, ?_⟩
          rw [hstored]
          exact congrArg some (Int32.toInt_inj.mp (hsucc.trans hbefore.symm))
        · rintro (hlost | ⟨-, hweapon, hstored⟩) flag r rc' heq
          · cases hlost
          · cases heq
            exact ⟨fun _ => ⟨hnonneg, hweapon, ⟨_, hstored, hbefore⟩, hafter⟩,
              fun h => absurd h.symm Bool.false_ne_true⟩

/-- **Ammo is reported as it is stored** exactly when a shot that gets as far as storing loses its `HSET`,
or has it done for a user without NUL in the id, with the weapon and the rounds read from the fields
`weapon` and `ammo`. -/
theorem reportsAmmo_iff (B : Backend ρ) [RedisLaws B] (rc : RedisClient ρ) (userId : Bytes) :
    ReportsAmmo B rc userId ↔
      (Shoots B rc userId →
        rc.outcomes 1 = .lost ∨
          rc.outcomes 1 = .done ∧ 0 ∉ userId ∧
            (∃ w ≠ 0, storedNumber (ascii "weapon") (rc.record userId) = some w) ∧
            storedNumber (ascii "ammo") (rc.record userId) =
              some (readNumber (ascii "ammo") (rc.record userId))) := by
  by_cases hnul : 0 ∈ userId
  · rw [reportsAmmo_of_zero_mem hnul]
    simp [hnul]
  · rw [reportsAmmo_of_zero_notMem hnul]
    simp [hnul]

/-- A server that knows a user `A` with the weapon of type 4 and three rounds. -/
def redisWithArmedA (outcomes : List Outcome) : RedisClient RedisServer where
  connected := true
  world :=
    { store := fun key =>
        if key = userKey [65] then
          ((∅ : Record).insert (ascii "weapon") (ascii "4")).insert (ascii "ammo") (ascii "3")
        else ∅
      outcomes := fun n => outcomes.getD n .done }

/-- A server that carries out every command. -/
theorem reportsAmmo_iff_armed :
    ReportsAmmo (faultyRedis fun _ => .error .invalidArgument) (redisWithArmedA []) [65] ↔
      (Shoots (faultyRedis fun _ => .error .invalidArgument) (redisWithArmedA []) [65] →
        (redisWithArmedA []).outcomes 1 = .lost ∨
          (redisWithArmedA []).outcomes 1 = .done ∧ 0 ∉ [(65 : UInt8)] ∧
            (∃ w ≠ 0, storedNumber (ascii "weapon") ((redisWithArmedA []).record [65]) = some w) ∧
            storedNumber (ascii "ammo") ((redisWithArmedA []).record [65]) =
              some (readNumber (ascii "ammo") ((redisWithArmedA []).record [65]))) :=
  reportsAmmo_iff (faultyRedis fun _ => .error .invalidArgument) (redisWithArmedA []) [65]

/-- The `HSET` of a shot is answered with an error: two rounds are reported, and three are stored. -/
theorem not_reportsAmmo_refused :
    ((redisWithArmedA [.done, .refused]).consumeLobbyAmmo
        (faultyRedis fun _ => .error .invalidArgument) [65]).1 = .ok (true, 2) ∧
      storedNumber (ascii "ammo") (((redisWithArmedA [.done, .refused]).consumeLobbyAmmo
        (faultyRedis fun _ => .error .invalidArgument) [65]).2.userHash [65]) = some 3 ∧
      ¬ ReportsAmmo (faultyRedis fun _ => .error .invalidArgument) (redisWithArmedA [.done, .refused])
        [65] := by
  have hresult : ((redisWithArmedA [.done, .refused]).consumeLobbyAmmo
      (faultyRedis fun _ => .error .invalidArgument) [65]).1 = .ok (true, 2) := by decide +kernel
  have hstored : storedNumber (ascii "ammo") (((redisWithArmedA [.done, .refused]).consumeLobbyAmmo
      (faultyRedis fun _ => .error .invalidArgument) [65]).2.userHash [65]) = some 3 := by
    decide +kernel
  refine ⟨hresult, hstored, fun hlaw => ?_⟩
  have hreport := hlaw true 2 ((redisWithArmedA [.done, .refused]).consumeLobbyAmmo
    (faultyRedis fun _ => .error .invalidArgument) [65]).2 (Prod.ext hresult rfl)
  have hafter := hstored.symm.trans (hreport.1 rfl).2.2.2
  exact absurd hafter (by decide)

end Shot

end CowboyPoker.GameServer
