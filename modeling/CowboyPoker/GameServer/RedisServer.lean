import CowboyPoker.Found.FaultyWrites
import CowboyPoker.GameServer.RedisClient

/-!
# A Redis server whose commands may fail

What the results about stored records assume of the server behind the `Backend`: it keeps hashes by key,
and each command in turn has an `Outcome`, that it takes effect and gets its normal reply, has no effect
and gets an error reply, or has no effect and gets no reply. Nothing else writes to the hashes.

* `RedisState` — the hashes and the outcomes, as they can be told from a state of the server.
  `RedisLaws` — the backend answers and acts by them. `CommandCase` — what becomes of one command.
* `faultyRedis` — a backend that does; `stof` stays a parameter.
* `record`, `userHash` — the hash that the client reaches for a user, and the hash `user:{userId}`.
* `hset_spec`, `hsetAll_spec` — the `HSET`s of the client are the writes of `Found.FaultyWrites`.
* `store_getBalance`, `store_getPlayerInfo` — the readers leave the hashes alone.
  `getBalance_eq_ok_iff` — what `GetBalance` returns.
* `Healthy` — every command is done. The `_healthy` lemmas say what the members return then, and
  which hashes they leave.
-/

namespace CowboyPoker.GameServer

open CowboyPoker.Found

/-- A hash: field to value. The fields stand in the order in which `HGETALL` lists them. -/
abbrev Record := KeyMap Bytes Bytes

/-! ## What is assumed of the server -/

/-- What a state of the server tells. -/
class RedisState (ρ : Type) where
  /-- The hashes. A key that does not exist has an empty one. -/
  store : ρ → Bytes → Record
  /-- What becomes of the commands to come, the next one first. -/
  outcomes : ρ → ℕ → Outcome
  /-- What a hash is after an `HSET` that is done. -/
  put : Record → Bytes → Bytes → Record
  /-- The field gets the value, and the other fields keep theirs. -/
  puts : Puts put

namespace RedisState

/-- The normal reply to a command. -/
def reply (store : Bytes → Record) : RedisCommand → RedisReply
  | .hgetall key => .array ((store key).entries.flatMap fun kv => [some kv.1, some kv.2])
  | .hget key field =>
      match (store key).lookup field with
      | some value => .string value
      | none => .nil
  | .hset key field _ => .integer (if ((store key).lookup field).isSome then 0 else 1)

/-- The effect of a command that is executed. -/
def effect (ρ : Type) [RedisState ρ] (store : Bytes → Record) : RedisCommand → Bytes → Record
  | .hset key field value => Function.update store key (put ρ (store key) field value)
  | _ => store

/-- Only an `HSET` has an effect. -/
theorem effect_of_not_isWrite {ρ : Type} [RedisState ρ] (store : Bytes → Record) {c : RedisCommand}
    (hread : ¬ c.IsWrite) : effect ρ store c = store := by
  cases c with
  | hset => exact absurd trivial hread
  | _ => rfl

/-- A command changes no hash but the one under its key. -/
theorem effect_of_ne {ρ : Type} [RedisState ρ] (store : Bytes → Record) {c : RedisCommand}
    {key : Bytes} (h : key ≠ c.key) : effect ρ store c key = store key := by
  cases c with
  | hset key field value => exact Function.update_of_ne h _ _
  | _ => rfl

section put

variable {ρ : Type} [RedisState ρ] (record : Record)

/-- The field gets the value. -/
theorem lookup_put_self (field value : Bytes) :
    (put ρ record field value).lookup field = some value :=
  puts.lookup_self record field value

/-- The other fields keep theirs. -/
theorem lookup_put_of_ne {field field' : Bytes} (value : Bytes) (h : field' ≠ field) :
    (put ρ record field value).lookup field' = record.lookup field' :=
  puts.lookup_of_ne record value h

/-- No other field comes up. -/
theorem mem_put {field field' value : Bytes} (h : field' ∈ put ρ record field value) :
    field' = field ∨ field' ∈ record := by
  by_cases heq : field' = field
  · exact .inl heq
  · right
    rw [← AList.lookup_isSome] at h ⊢
    rwa [lookup_put_of_ne record value heq] at h

end put

/-- The entries of a list, stored one after another. -/
def putAll (ρ : Type) [RedisState ρ] (record : Record) (fields : List (Bytes × Bytes)) : Record :=
  fields.foldl (fun record kv => put ρ record kv.1 kv.2) record

end RedisState

open RedisState

/-- The backend answers and acts by the outcomes. -/
class RedisLaws {ρ : Type} [RedisState ρ] (B : Backend ρ) : Prop where
  /-- Every command uses up one outcome. -/
  outcomes_next : ∀ c w n, outcomes (B.redisCommand c w).2 n = outcomes w (n + 1)
  /-- A command that is done gets its normal reply. -/
  reply_done : ∀ c w, outcomes w 0 = .done → (B.redisCommand c w).1 = some (reply (store w) c)
  /-- A command that is done takes effect. -/
  store_done : ∀ c w, outcomes w 0 = .done → store (B.redisCommand c w).2 = effect ρ (store w) c
  /-- A command that is refused gets an error reply. -/
  reply_refused : ∀ c w, outcomes w 0 = .refused → ∃ text, (B.redisCommand c w).1 = some (.error text)
  /-- A command that is lost gets no reply. -/
  reply_lost : ∀ c w, outcomes w 0 = .lost → (B.redisCommand c w).1 = none
  /-- A command that is not done has no effect. -/
  store_failed : ∀ c w, outcomes w 0 ≠ .done → store (B.redisCommand c w).2 = store w

/-! ## A server of which it holds -/

/-- Hashes, and a sequence of outcomes. -/
structure RedisServer where
  /-- The hashes. -/
  store : Bytes → Record
  /-- What becomes of the commands, in the order in which they are issued. -/
  outcomes : ℕ → Outcome
  /-- The number of commands issued so far. -/
  count : ℕ := 0

instance : RedisState RedisServer where
  store := RedisServer.store
  outcomes w n := w.outcomes (w.count + n)
  put record field value := record.insert field value
  puts := puts_insert

/-- A command, with the outcome that is its turn. -/
def RedisServer.execute (c : RedisCommand) (w : RedisServer) : Option RedisReply × RedisServer :=
  match w.outcomes w.count with
  | .done =>
      (some (reply w.store c), { w with store := effect RedisServer w.store c, count := w.count + 1 })
  | .refused => (some (.error (ascii "ERR")), { w with count := w.count + 1 })
  | .lost => (none, { w with count := w.count + 1 })

/-- The backend. -/
def faultyRedis (stof : Bytes → Except Fault UInt32) : Backend RedisServer where
  redisCommand := RedisServer.execute
  stof

instance (stof : Bytes → Except Fault UInt32) : RedisLaws (faultyRedis stof) where
  outcomes_next c w n := by
    have hcount : w.count + 1 + n = w.count + (n + 1) := by omega
    simp only [faultyRedis, RedisServer.execute, outcomes]
    cases w.outcomes w.count <;> simp only [hcount]
  reply_done c w h := by
    simp only [outcomes, Nat.add_zero] at h
    simp only [faultyRedis, RedisServer.execute, h]
    rfl
  store_done c w h := by
    simp only [outcomes, Nat.add_zero] at h
    simp only [faultyRedis, RedisServer.execute, h]
    rfl
  reply_refused c w h := by
    simp only [outcomes, Nat.add_zero] at h
    exact ⟨ascii "ERR", by simp only [faultyRedis, RedisServer.execute, h]⟩
  reply_lost c w h := by
    simp only [outcomes, Nat.add_zero] at h
    simp only [faultyRedis, RedisServer.execute, h]
  store_failed c w h := by
    simp only [outcomes, Nat.add_zero] at h
    simp only [faultyRedis, RedisServer.execute, store]
    cases hout : w.outcomes w.count with
    | done => exact absurd hout h
    | refused => rfl
    | lost => rfl

/-- A server that knows a user `A` with a balance of 1000. The list has the outcomes of the first
commands; the later ones are done. -/
def redisWithUserA (outcomes : List Outcome) : RedisClient RedisServer where
  connected := true
  world :=
    { store := fun key =>
        if key = userKey [65] then (∅ : Record).insert (ascii "balance") (ascii "1000") else ∅
      outcomes := fun n => outcomes.getD n .done }

namespace RedisClient

/-! ## One command -/

section state

variable {ρ : Type} [RedisState ρ]

/-- The hashes behind the connection. -/
def store (rc : RedisClient ρ) : Bytes → Record := RedisState.store rc.world

/-- What becomes of the commands to come. -/
def outcomes (rc : RedisClient ρ) : ℕ → Outcome := RedisState.outcomes rc.world

/-- The hash that the client reaches for a user. -/
def record (rc : RedisClient ρ) (userId : Bytes) : Record := rc.store (userKey userId)

/-- The hash `user:{userId}`.
Source: `GameServer/RedisClient.h`, the comment on `PlayerRedisInfo` -/
def userHash (rc : RedisClient ρ) (userId : Bytes) : Record := rc.store (ascii "user:" ++ userId)

/-- The hash that the client reaches for a user is the one of the C string of the id. -/
theorem record_eq_userHash (rc : RedisClient ρ) (userId : Bytes) :
    rc.record userId = rc.userHash (cstr userId) := by
  rw [record, userKey_eq, userHash]

/-- Without NUL it is the hash of the user. -/
theorem record_of_zero_notMem (rc : RedisClient ρ) {userId : Bytes} (h : 0 ∉ userId) :
    rc.record userId = rc.userHash userId := by
  rw [record_eq_userHash, cstr_eq_self_iff.mpr h]

/-- The connection after one command. -/
structure Next (c : RedisCommand) (rc rc' : RedisClient ρ) : Prop where
  /-- It stands as before. -/
  connected : rc'.connected = rc.connected
  /-- The command is in the log. -/
  issued : rc'.issued = rc.issued ++ [c]
  /-- One outcome is used up. -/
  outcomes : ∀ n, rc'.outcomes n = rc.outcomes (n + 1)

/-- What becomes of a command. -/
inductive CommandCase (c : RedisCommand) (rc : RedisClient ρ) : Option RedisReply × RedisClient ρ → Prop
  /-- It is done. -/
  | done {rc' : RedisClient ρ} (hout : rc.outcomes 0 = .done) (hnext : Next c rc rc')
      (hstore : rc'.store = effect ρ rc.store c) : CommandCase c rc (some (reply rc.store c), rc')
  /-- It is refused. -/
  | refused {rc' : RedisClient ρ} (text : Bytes) (hout : rc.outcomes 0 = .refused)
      (hnext : Next c rc rc') (hstore : rc'.store = rc.store) : CommandCase c rc (some (.error text), rc')
  /-- It is lost. -/
  | lost {rc' : RedisClient ρ} (hout : rc.outcomes 0 = .lost) (hnext : Next c rc rc')
      (hstore : rc'.store = rc.store) : CommandCase c rc (none, rc')

end state

variable {ρ : Type} [RedisState ρ] (B : Backend ρ) [RedisLaws B] {rc : RedisClient ρ} {userId : Bytes}

/-- **The inversion of a command.** -/
theorem commandCase (c : RedisCommand) (rc : RedisClient ρ) :
    CommandCase c rc (rc.redisCommand B c) := by
  have hnext : Next c rc (rc.redisCommand B c).2 :=
    ⟨rfl, rfl, RedisLaws.outcomes_next c rc.world⟩
  rw [show rc.redisCommand B c = ((B.redisCommand c rc.world).1, (rc.redisCommand B c).2) from rfl]
  cases hout : rc.outcomes 0 with
  | done =>
      rw [RedisLaws.reply_done c rc.world hout]
      exact .done hout hnext (RedisLaws.store_done c rc.world hout)
  | refused =>
      obtain ⟨text, htext⟩ := RedisLaws.reply_refused (B := B) c rc.world hout
      have hfailed : RedisState.outcomes rc.world 0 ≠ .done := fun hdone => by
        cases hout.symm.trans hdone
      rw [htext]
      exact .refused text hout hnext (RedisLaws.store_failed c rc.world hfailed)
  | lost =>
      have hfailed : RedisState.outcomes rc.world 0 ≠ .done := fun hdone => by
        cases hout.symm.trans hdone
      rw [RedisLaws.reply_lost c rc.world hout]
      exact .lost hout hnext (RedisLaws.store_failed c rc.world hfailed)

/-- A command that does not write leaves the hashes alone. -/
theorem store_redisCommand (rc : RedisClient ρ) {c : RedisCommand} (hread : ¬ c.IsWrite) :
    (rc.redisCommand B c).2.store = rc.store := by
  have hcase := commandCase B c rc
  generalize rc.redisCommand B c = out at hcase
  cases hcase with
  | done _ _ hstore => rw [hstore, effect_of_not_isWrite _ hread]
  | refused _ _ _ hstore => exact hstore
  | lost _ _ hstore => exact hstore

/-- Every command leaves the connection as it is, and uses up one outcome. -/
theorem next_redisCommand (rc : RedisClient ρ) (c : RedisCommand) :
    Next c rc (rc.redisCommand B c).2 := by
  have hcase := commandCase B c rc
  generalize rc.redisCommand B c = out at hcase
  cases hcase <;> assumption

/-- Commands about one key leave the other hashes alone. -/
theorem Commands.store_of_ne {rc' : RedisClient ρ} {key key' : Bytes}
    (h : Commands B (fun c => c.key = key) rc rc') (hne : key' ≠ key) :
    rc'.store key' = rc.store key' := by
  induction h with
  | refl => rfl
  | @tail rc₁ rc₂ _ hlast ih =>
      obtain ⟨c, rfl, rfl⟩ := hlast
      rw [← ih]
      have hcase := commandCase B c rc₁
      generalize rc₁.redisCommand B c = out at hcase
      cases hcase with
      | done _ _ hstore => rw [hstore, effect_of_ne _ hne]
      | refused _ _ _ hstore => rw [hstore]
      | lost _ _ hstore => rw [hstore]

/-- Commands under a key that was cut leave the hash of the user alone. -/
theorem Commands.userHash_eq {rc' : RedisClient ρ} {u : Bytes}
    (h : Commands B (fun c => c.key = userKey userId) rc rc') (hne : cstr userId ≠ u) :
    rc'.userHash u = rc.userHash u := by
  refine h.store_of_ne B fun heq => hne ?_
  rw [userKey_eq] at heq
  exact (List.append_cancel_left heq).symm

/-! ## Writing -/

/-- One `HSET` is one write to the hash. -/
theorem hset_spec (rc : RedisClient ρ) (key field : Bytes) {value : Bytes} (hvalue : cstr value = value) :
    (rc.hset B key field value).1 = !decide (rc.outcomes 0 = .lost) ∧
      (rc.hset B key field value).2.store key =
        write (put ρ) (rc.store key) field value (rc.outcomes 0) ∧
      ∀ n, (rc.hset B key field value).2.outcomes n = rc.outcomes (n + 1) := by
  have hcase := commandCase B (.hset key field value) rc
  unfold hset
  rw [hvalue]
  generalize rc.redisCommand B (.hset key field value) = out at hcase
  cases hcase with
  | done hout hnext hstore =>
      rw [hout]
      refine ⟨rfl, ?_, hnext.outcomes⟩
      simp only [hstore, effect, Function.update_self, write]
  | refused text hout hnext hstore =>
      rw [hout]
      exact ⟨rfl, congrFun hstore key, hnext.outcomes⟩
  | lost hout hnext hstore =>
      rw [hout]
      exact ⟨rfl, congrFun hstore key, hnext.outcomes⟩

/-- The `HSET`s of a purchase are a list of writes to the hash. -/
theorem hsetAll_spec {key : Bytes} (fields : List (Bytes × Bytes))
    (hvalues : ∀ kv ∈ fields, cstr kv.2 = kv.2) {o : ℕ → Outcome} {n : ℕ}
    (houtcomes : ∀ i, rc.outcomes i = o (n + i)) :
    (rc.hsetAll B key fields).1 = (writeAll (put ρ) o n (rc.store key) fields).1 ∧
      (rc.hsetAll B key fields).2.store key = (writeAll (put ρ) o n (rc.store key) fields).2 := by
  induction fields generalizing rc n with
  | nil => exact ⟨rfl, rfl⟩
  | cons kv fields ih =>
      obtain ⟨field, value⟩ := kv
      rw [List.forall_mem_cons] at hvalues
      have hset := hset_spec B rc key field hvalues.1
      have hfirst : rc.outcomes 0 = o n := houtcomes 0
      rw [hfirst] at hset
      unfold hsetAll writeAll
      generalize rc.hset B key field value = out at hset
      obtain ⟨answered, rc'⟩ := out
      obtain ⟨hanswered, hstore, hnext⟩ := hset
      by_cases hlost : o n = .lost
      · simp only [hlost, write] at hanswered hstore
        subst hanswered
        rw [if_pos hlost]
        exact ⟨rfl, hstore⟩
      · simp only [hlost] at hanswered
        subst hanswered
        rw [if_neg hlost, ← hstore]
        refine ih hvalues.2 fun i => ?_
        rw [hnext, houtcomes]
        congr 1
        omega

/-! ## Reading -/

/-- The balance in a hash, as `GetBalance` reads it. -/
def storedBalance (record : Record) : Option Int64 :=
  match record.lookup (ascii "balance") with
  | some str => (stoll (cstr str)).toOption
  | none => none

/-- A reader leaves the hashes alone. -/
theorem store_getPlayerInfo (rc : RedisClient ρ) (userId : Bytes) :
    (rc.getPlayerInfo B userId).2.store = rc.store := by
  have hread := store_redisCommand B rc (c := .hgetall (userKey userId)) id
  unfold getPlayerInfo
  by_cases hconn : ¬ rc.connected
  · rw [if_pos hconn]
  · rw [if_neg hconn]
    dsimp only
    split <;> exact hread

theorem store_getBalance (rc : RedisClient ρ) (userId : Bytes) :
    (rc.getBalance B userId).2.store = rc.store := by
  have hread := store_redisCommand B rc (c := .hget (userKey userId) (ascii "balance")) id
  unfold getBalance
  by_cases hconn : ¬ rc.connected
  · rw [if_pos hconn]
  · rw [if_neg hconn]
    dsimp only
    split <;> exact hread

/-- The connection after a `GetBalance` that was answered. -/
theorem getBalance_next (userId : Bytes) (hconn : rc.connected) :
    (rc.getBalance B userId).2.connected ∧
      ∀ n, (rc.getBalance B userId).2.outcomes n = rc.outcomes (n + 1) := by
  have hnext := next_redisCommand B rc (.hget (userKey userId) (ascii "balance"))
  have hafter := hnext.connected.trans hconn
  unfold getBalance
  rw [if_neg (not_not.mpr hconn)]
  dsimp only
  split <;> exact ⟨hafter, hnext.outcomes⟩

/-- `GetBalance` succeeds when its command is done and the hash holds a balance. -/
theorem getBalance_eq_ok_iff (rc : RedisClient ρ) (userId : Bytes) (balance : Int64) :
    (rc.getBalance B userId).1 = .ok (some balance) ↔
      rc.connected ∧ rc.outcomes 0 = .done ∧ storedBalance (rc.record userId) = some balance := by
  unfold getBalance
  by_cases hconn : ¬ rc.connected
  · rw [if_pos hconn]
    simp [hconn]
  rw [if_neg hconn]
  have hconn := not_not.mp hconn
  have hcase := commandCase B (.hget (userKey userId) (ascii "balance")) rc
  generalize rc.redisCommand B (.hget (userKey userId) (ascii "balance")) = out at hcase
  simp only [hconn, true_and]
  cases hcase with
  | done hout =>
      simp only [hout, reply, storedBalance, record, true_and]
      rcases (rc.store (userKey userId)).lookup (ascii "balance") with _ | str
      · simp
      · dsimp only
        rcases stoll (cstr str) with e | v
        · simp [Except.map, Except.toOption]
        · simp [Except.map, Except.toOption]
  | refused text hout => simp [hout]
  | lost hout => simp [hout]

/-- The values of a purchase are C strings. -/
theorem cstr_of_mem_purchaseFields {newBalance : Int64} {weaponType ammo level : Int32}
    {kv : Bytes × Bytes} (h : kv ∈ purchaseFields newBalance weaponType ammo level) :
    cstr kv.2 = kv.2 := by
  simp only [purchaseFields, List.mem_cons, List.not_mem_nil, or_false] at h
  rcases h with rfl | rfl | rfl | rfl
  · exact cstr_toStringInt64 _
  · exact cstr_toStringInt32 _
  · exact cstr_toStringInt32 _
  · exact cstr_toStringInt32 _

/-! ## A server that carries out every command -/

/-- The client is connected, and every command is done. -/
structure Healthy (rc : RedisClient ρ) : Prop where
  /-- `IsConnected()`. -/
  connected : rc.connected
  /-- The outcome of every command. -/
  done : ∀ n, rc.outcomes n = .done

/-- A call left the client healthy and the hashes as in `store`. -/
structure Leaves (rc : RedisClient ρ) (store : Bytes → Record) : Prop where
  /-- The client. -/
  healthy : rc.Healthy
  /-- The hashes. -/
  store_eq : rc.store = store

/-- Writing the hash that the client reaches for `user` changes no other hash. -/
theorem userHash_update {rc rc' : RedisClient ρ} {user : Bytes} {record : Record}
    (h : rc'.Leaves (Function.update rc.store (userKey user) record)) (u : Bytes) :
    rc'.userHash u = if u = cstr user then record else rc.userHash u := by
  rw [userHash, h.store_eq, userKey_eq, userHash]
  by_cases heq : u = cstr user
  · rw [if_pos heq, heq, Function.update_self]
  · rw [if_neg heq, Function.update_of_ne fun hkey => heq (List.append_cancel_left hkey)]

section healthy

theorem redisCommand_healthy (h : rc.Healthy) (c : RedisCommand) :
    (rc.redisCommand B c).1 = some (reply rc.store c) ∧
      (rc.redisCommand B c).2.Leaves (effect ρ rc.store c) := by
  have hcase := commandCase B c rc
  generalize rc.redisCommand B c = out at hcase
  cases hcase with
  | done _ hnext hstore =>
      refine ⟨rfl, ⟨hnext.connected.trans h.connected, fun n => ?_⟩, hstore⟩
      rw [hnext.outcomes, h.done]
  | refused _ hout => cases (h.done 0).symm.trans hout
  | lost hout => cases (h.done 0).symm.trans hout

/-- `GetBalance` reads one field. -/
theorem getBalance_healthy (h : rc.Healthy) (userId : Bytes) :
    (rc.getBalance B userId).1 =
        (match (rc.record userId).lookup (ascii "balance") with
          | some str => (stoll (cstr str)).map some
          | none => .ok none) ∧
      (rc.getBalance B userId).2.Leaves rc.store := by
  obtain ⟨hreply, hleaves⟩ := redisCommand_healthy B h (.hget (userKey userId) (ascii "balance"))
  unfold getBalance
  rw [if_neg (not_not.mpr h.connected)]
  generalize rc.redisCommand B (.hget (userKey userId) (ascii "balance")) = out at hreply hleaves
  obtain ⟨answer, rc'⟩ := out
  obtain rfl : answer = _ := hreply
  simp only [reply, record]
  cases (rc.store (userKey userId)).lookup (ascii "balance") with
  | none => exact ⟨rfl, hleaves⟩
  | some str => exact ⟨rfl, hleaves⟩

/-- `GetPlayerInfo` reads all fields. -/
theorem getPlayerInfo_healthy (h : rc.Healthy) (userId : Bytes) :
    (rc.getPlayerInfo B userId).1 =
        (PlayerRedisInfo.readFields B { userId := userId }
          ((rc.record userId).entries.flatMap fun kv => [some kv.1, some kv.2])).map
            (fun info => (true, info)) ∧
      (rc.getPlayerInfo B userId).2.Leaves rc.store := by
  obtain ⟨hreply, hleaves⟩ := redisCommand_healthy B h (.hgetall (userKey userId))
  unfold getPlayerInfo
  rw [if_neg (not_not.mpr h.connected)]
  generalize rc.redisCommand B (.hgetall (userKey userId)) = out at hreply hleaves
  obtain ⟨answer, rc'⟩ := out
  obtain rfl : answer = _ := hreply
  exact ⟨rfl, hleaves⟩

/-- An `HSET` stores its value. -/
theorem hset_healthy (h : rc.Healthy) (key field : Bytes) {value : Bytes}
    (hvalue : cstr value = value) :
    (rc.hset B key field value).1 = true ∧
      (rc.hset B key field value).2.Leaves
        (Function.update rc.store key (put ρ (rc.store key) field value)) := by
  obtain ⟨hreply, hleaves⟩ := redisCommand_healthy B h (.hset key field (cstr value))
  unfold hset
  rw [hvalue] at hreply hleaves ⊢
  generalize rc.redisCommand B (.hset key field value) = out at hreply hleaves
  obtain ⟨answer, rc'⟩ := out
  obtain rfl : answer = _ := hreply
  exact ⟨rfl, hleaves⟩

/-- The `HSET`s of a purchase store all their values. -/
theorem hsetAll_healthy (h : rc.Healthy) (key : Bytes) (fields : List (Bytes × Bytes))
    (hvalues : ∀ kv ∈ fields, cstr kv.2 = kv.2) :
    (rc.hsetAll B key fields).1 = true ∧
      (rc.hsetAll B key fields).2.Leaves
        (Function.update rc.store key (putAll ρ (rc.store key) fields)) := by
  induction fields generalizing rc with
  | nil => exact ⟨rfl, h, (Function.update_eq_self _ _).symm⟩
  | cons kv fields ih =>
      obtain ⟨field, value⟩ := kv
      rw [List.forall_mem_cons] at hvalues
      obtain ⟨hanswered, hleaves⟩ := hset_healthy B h key field hvalues.1
      unfold hsetAll
      generalize rc.hset B key field value = out at hanswered hleaves
      obtain ⟨answered, rc'⟩ := out
      obtain rfl : answered = true := hanswered
      obtain ⟨hall, hrest⟩ := ih hleaves.healthy hvalues.2
      refine ⟨hall, hrest.healthy, ?_⟩
      rw [hrest.store_eq, hleaves.store_eq, Function.update_idem, Function.update_self]
      rfl

/-- A purchase stores its four fields. -/
theorem purchaseWeapon_healthy (h : rc.Healthy) (userId : Bytes) (newBalance : Int64)
    (weaponType magazineAmmo : Int32) :
    (rc.purchaseWeapon B userId newBalance weaponType magazineAmmo).1 = true ∧
      (rc.purchaseWeapon B userId newBalance weaponType magazineAmmo).2.Leaves
        (Function.update rc.store (userKey userId) (putAll ρ (rc.record userId)
          (purchaseFields newBalance weaponType magazineAmmo 0))) := by
  unfold purchaseWeapon
  rw [if_neg (not_not.mpr h.connected)]
  exact hsetAll_healthy B h _ _ fun kv hkv => cstr_of_mem_purchaseFields hkv

/-- A shot stores the rounds that are left. -/
theorem setAmmo_healthy (h : rc.Healthy) (userId : Bytes) (ammo : Int32) :
    (rc.setAmmo B userId ammo).1 = true ∧
      (rc.setAmmo B userId ammo).2.Leaves
        (Function.update rc.store (userKey userId)
          (put ρ (rc.record userId) (ascii "ammo") (toStringInt32 ammo))) := by
  unfold setAmmo
  rw [if_neg (not_not.mpr h.connected)]
  exact hset_healthy B h _ _ (cstr_toStringInt32 ammo)

end healthy

end RedisClient

end CowboyPoker.GameServer
