import CowboyPoker.GameServer.RedisServer
import CowboyPoker.GameServer.UdpServerPacketHandler

/-!
# Reading the record of a user

`GetPlayerInfo` and `GetBalance` against a Redis server with any content: missing keys, keys of another
type, hashes with any fields and values.

* `typedRedis` — the server; it carries out every command.
* `PlayerField` — the fields that `GetPlayerInfo` knows, with the conversion each value goes through
  and the member that it is assigned to. `setField_name` and `setField_other` say so of the body of
  the loop.
* `ReadingLaw` — the readers return, report exactly the records that exist and can be converted, and
  report each stored value.
* `readingLaw_iff` — the law holds exactly when the user id has no NUL, and the key is of another type
  or holds a record whose known values convert, whose texts have no NUL and in which no other field
  passes for a known one.
-/

namespace CowboyPoker.GameServer

open CowboyPoker.Found
open CowboyPoker.ServerCore

/-! ## The server -/

/-- What a key holds. A missing key is an empty hash. -/
inductive RedisValue
  /-- A hash. -/
  | hash (record : Record)
  /-- A value of any other type. -/
  | other

namespace RedisValue

/-- The reply to a command on a key. -/
def reply : RedisValue → RedisCommand → RedisReply
  | hash record, c => RedisState.reply (fun _ => record) c
  | other, _ => .error (ascii "WRONGTYPE")

/-- What the key holds behind the command. -/
def effect : RedisValue → RedisCommand → RedisValue
  | hash record, .hset _ field value => hash (record.insert field value)
  | v, _ => v

/-- A field of a hash. -/
def lookup : RedisValue → Bytes → Option Bytes
  | hash record, field => record.lookup field
  | other, _ => none

/-- The key holds a record. -/
def Exists : RedisValue → Prop
  | hash record => record ≠ ∅
  | other => False

end RedisValue

/-- A server that carries out every command; `stof` stays a parameter. -/
def typedRedis (stof : Bytes → Except Fault UInt32) : Backend (Bytes → RedisValue) where
  redisCommand c store :=
    (some ((store c.key).reply c), Function.update store c.key ((store c.key).effect c))
  stof

/-- A client of a server with the given content. -/
def clientOf (store : Bytes → RedisValue) : RedisClient (Bytes → RedisValue) :=
  { connected := true, world := store }

/-! ## The fields -/

/-- The fields that `GetPlayerInfo` knows.
Source: `GameServer/RedisClient.cpp`, `RedisClient::GetPlayerInfo` -/
inductive PlayerField
  /-- `nickname`. -/
  | nickname
  /-- `scene`. -/
  | scene
  /-- `hp`. -/
  | hp
  /-- `balance`. -/
  | balance
  /-- `char_type`. -/
  | charType
  /-- `pos_x`. -/
  | posX
  /-- `pos_y`. -/
  | posY
  /-- `pos_z`. -/
  | posZ
  /-- `rot`. -/
  | rot
  /-- `weapon`. -/
  | weapon
  /-- `ammo_type`. -/
  | ammoType
  /-- `ammo`. -/
  | ammo
  deriving DecidableEq, Repr

/-- A value of a member of `PlayerRedisInfo`. -/
inductive FieldValue
  /-- A `std::string`. -/
  | text (s : Bytes)
  /-- An `int32`. -/
  | int32 (v : Int32)
  /-- An `int64`. -/
  | int64 (v : Int64)
  /-- A `float`, as its 32-bit pattern. -/
  | float (v : UInt32)
  deriving DecidableEq, Repr

namespace PlayerField

/-- The name in the hash. -/
def name : PlayerField → Bytes
  | nickname => ascii "nickname"
  | scene => ascii "scene"
  | hp => ascii "hp"
  | balance => ascii "balance"
  | charType => ascii "char_type"
  | posX => ascii "pos_x"
  | posY => ascii "pos_y"
  | posZ => ascii "pos_z"
  | rot => ascii "rot"
  | weapon => ascii "weapon"
  | ammoType => ascii "ammo_type"
  | ammo => ascii "ammo"

/-- The conversion of a value. -/
def convert (stof : Bytes → Except Fault UInt32) : PlayerField → Bytes → Except Fault FieldValue
  | nickname, s | scene, s => .ok (.text s)
  | balance, s => (stoll s).map .int64
  | posX, s | posY, s | posZ, s | rot, s => (stof s).map .float
  | hp, s | charType, s | weapon, s | ammoType, s | ammo, s => (stoi s).map .int32

/-- The member. -/
def get (info : PlayerRedisInfo) : PlayerField → FieldValue
  | nickname => .text info.nickname
  | scene => .text info.scene
  | hp => .int32 info.hp
  | balance => .int64 info.balance
  | charType => .int32 info.charType
  | posX => .float info.posX
  | posY => .float info.posY
  | posZ => .float info.posZ
  | rot => .float info.rot
  | weapon => .int32 info.weapon
  | ammoType => .int32 info.ammoType
  | ammo => .int32 info.ammo

/-- The fields that are copied as they are. -/
def IsText : PlayerField → Prop
  | nickname | scene => True
  | _ => False

/-- No two fields have the same name. -/
theorem name_injective : Function.Injective name := by
  intro field field' h
  cases field <;> cases field' <;> first | rfl | exact absurd h (by decide)

/-- A name holds no NUL. -/
theorem cstr_name (field : PlayerField) : cstr field.name = field.name := by
  cases field <;> rfl

end PlayerField

/-! ## The body of the loop -/

section body

variable {ρ : Type} {B : Backend ρ} {info : PlayerRedisInfo}

/-- A conversion that is stored in a member. -/
theorem map_spec {α : Type} {field : PlayerField} {e : Except Fault α} {mk : α → FieldValue}
    {g : α → PlayerRedisInfo} (hget : ∀ v, field.get (g v) = mk v)
    (hother : ∀ v, ∀ other ≠ field, other.get (g v) = other.get info) :
    (∀ x, e.map mk = .ok x → ∃ info', e.map g = .ok info' ∧ field.get info' = x ∧
      ∀ other ≠ field, other.get info' = other.get info) ∧
    (∀ x, e.map mk = .error x → e.map g = .error x) := by
  cases e with
  | error x =>
      constructor
      · intro y h
        cases h
      · intro y h
        cases h
        rfl
  | ok v =>
      constructor
      · intro y h
        cases h
        exact ⟨g v, rfl, hget v, hother v⟩
      · intro y h
        cases h

/-- **A known field** assigns its conversion to its member and leaves the others alone, or ends the
loop with the exception of its conversion. -/
theorem setField_name (B : Backend ρ) (info : PlayerRedisInfo) (field : PlayerField)
    (value : Bytes) :
    (∀ x, field.convert B.stof value = .ok x → ∃ info', info.setField B field.name value = .ok info' ∧
      field.get info' = x ∧ ∀ other ≠ field, other.get info' = other.get info) ∧
    (∀ x, field.convert B.stof value = .error x →
      info.setField B field.name value = .error x) := by
  cases field with
  | nickname =>
      refine ⟨fun x h => ?_, fun x h => by cases h⟩
      cases h
      exact ⟨{ info with nickname := value }, rfl, rfl, fun other h => by cases other <;> trivial⟩
  | scene =>
      refine ⟨fun x h => ?_, fun x h => by cases h⟩
      cases h
      exact ⟨{ info with scene := value }, rfl, rfl, fun other h => by cases other <;> trivial⟩
  | hp =>
      exact map_spec (g := fun v => { info with hp := v }) (fun _ => rfl)
        fun _ other h => by cases other <;> trivial
  | balance =>
      exact map_spec (g := fun v => { info with balance := v }) (fun _ => rfl)
        fun _ other h => by cases other <;> trivial
  | charType =>
      exact map_spec (g := fun v => { info with charType := v }) (fun _ => rfl)
        fun _ other h => by cases other <;> trivial
  | posX =>
      exact map_spec (g := fun v => { info with posX := v }) (fun _ => rfl)
        fun _ other h => by cases other <;> trivial
  | posY =>
      exact map_spec (g := fun v => { info with posY := v }) (fun _ => rfl)
        fun _ other h => by cases other <;> trivial
  | posZ =>
      exact map_spec (g := fun v => { info with posZ := v }) (fun _ => rfl)
        fun _ other h => by cases other <;> trivial
  | rot =>
      exact map_spec (g := fun v => { info with rot := v }) (fun _ => rfl)
        fun _ other h => by cases other <;> trivial
  | weapon =>
      exact map_spec (g := fun v => { info with weapon := v }) (fun _ => rfl)
        fun _ other h => by cases other <;> trivial
  | ammoType =>
      exact map_spec (g := fun v => { info with ammoType := v }) (fun _ => rfl)
        fun _ other h => by cases other <;> trivial
  | ammo =>
      exact map_spec (g := fun v => { info with ammo := v }) (fun _ => rfl)
        fun _ other h => by cases other <;> trivial

/-- Any other field is skipped. -/
theorem setField_other (B : Backend ρ) (info : PlayerRedisInfo) {name : Bytes} (value : Bytes)
    (h : ∀ field : PlayerField, name ≠ field.name) : info.setField B name value = .ok info := by
  unfold PlayerRedisInfo.setField
  rw [if_neg (show name ≠ ascii "nickname" from h .nickname),
    if_neg (show name ≠ ascii "scene" from h .scene),
    if_neg (show name ≠ ascii "hp" from h .hp),
    if_neg (show name ≠ ascii "balance" from h .balance),
    if_neg (show name ≠ ascii "char_type" from h .charType),
    if_neg (show name ≠ ascii "pos_x" from h .posX),
    if_neg (show name ≠ ascii "pos_y" from h .posY),
    if_neg (show name ≠ ascii "pos_z" from h .posZ),
    if_neg (show name ≠ ascii "rot" from h .rot),
    if_neg (show name ≠ ascii "weapon" from h .weapon),
    if_neg (show name ≠ ascii "ammo_type" from h .ammoType),
    if_neg (show name ≠ ascii "ammo" from h .ammo)]

end body

/-! ## The loop -/

/-- The elements of the reply to `HGETALL`. -/
def replyElements (entries : List (Σ _ : Bytes, Bytes)) : List (Option Bytes) :=
  entries.flatMap fun kv => [some kv.1, some kv.2]

/-- No field other than a known one is taken for it. -/
def NoImpostor (entries : List (Σ _ : Bytes, Bytes)) : Prop :=
  ∀ kv ∈ entries, ∀ field : PlayerField, cstr kv.1 = field.name → kv.1 = field.name

section loop

variable {ρ : Type} {B : Backend ρ} {info : PlayerRedisInfo} {entries : List (Σ _ : Bytes, Bytes)}

theorem readFields_nil : info.readFields B (replyElements []) = .ok info := rfl

theorem readFields_cons (kv : Σ _ : Bytes, Bytes) (entries : List (Σ _ : Bytes, Bytes)) :
    info.readFields B (replyElements (kv :: entries)) =
      match info.setField B (cstr kv.1) (cstr kv.2) with
      | .ok info => info.readFields B (replyElements entries)
      | .error e => .error e := rfl

/-- **The loop reads every known field**, when each converts and no other field is taken for it. -/
theorem readFields_spec (hnodup : entries.NodupKeys) (himpostor : NoImpostor entries)
    (hconverts : ∀ kv ∈ entries, ∀ field : PlayerField, kv.1 = field.name →
      ∃ x, field.convert B.stof (cstr kv.2) = .ok x) :
    ∃ info', info.readFields B (replyElements entries) = .ok info' ∧ ∀ field : PlayerField,
      match entries.dlookup field.name with
      | some value => field.convert B.stof (cstr value) = .ok (field.get info')
      | none => field.get info' = field.get info := by
  induction entries generalizing info with
  | nil => exact ⟨info, rfl, fun field => rfl⟩
  | cons kv entries ih =>
      obtain ⟨name, value⟩ := kv
      rw [List.nodupKeys_cons] at hnodup
      obtain ⟨hfresh, hnodup⟩ := hnodup
      have ih := fun info => @ih info hnodup
        (fun kv hkv => himpostor kv (List.mem_cons_of_mem _ hkv))
        (fun kv hkv => hconverts kv (List.mem_cons_of_mem _ hkv))
      rw [readFields_cons]
      dsimp only
      by_cases hknown : ∃ field : PlayerField, name = field.name
      · obtain ⟨field, rfl⟩ := hknown
        obtain ⟨x, hx⟩ := hconverts _ List.mem_cons_self field rfl
        obtain ⟨info₁, hset, hget, hothers⟩ := (setField_name B info field (cstr value)).1 x hx
        rw [field.cstr_name, hset]
        obtain ⟨info', hloop, hfields⟩ := ih info₁
        refine ⟨info', hloop, fun other => ?_⟩
        have hother := hfields other
        by_cases heq : other = field
        · subst heq
          rw [List.dlookup_eq_none.mpr hfresh] at hother
          rw [List.dlookup_cons_eq]
          dsimp only at hother ⊢
          rw [hother, hget, hx]
        · have hname : other.name ≠ field.name := fun h => heq (PlayerField.name_injective h)
          rw [List.dlookup_cons_ne _ _ hname]
          rw [hothers other heq] at hother
          exact hother
      · have hskip : info.setField B (cstr name) (cstr value) = .ok info := by
          refine setField_other B info (cstr value) fun field hfield => hknown ⟨field, ?_⟩
          exact himpostor _ List.mem_cons_self field hfield
        rw [hskip]
        obtain ⟨info', hloop, hfields⟩ := ih info
        refine ⟨info', hloop, fun field => ?_⟩
        have hname : field.name ≠ name := fun h => hknown ⟨field, h.symm⟩
        rw [List.dlookup_cons_ne _ _ hname]
        exact hfields field

/-- A last entry is handled behind the others. -/
theorem readFields_last (name value : Bytes) :
    info.readFields B (replyElements (entries ++ [⟨name, value⟩])) =
      match info.readFields B (replyElements entries) with
      | .ok info => info.setField B (cstr name) (cstr value)
      | .error e => .error e := by
  induction entries generalizing info with
  | nil =>
      rw [List.nil_append, readFields_cons, readFields_nil]
      dsimp only
      cases info.setField B (cstr name) (cstr value) <;> rfl
  | cons kv entries ih =>
      rw [List.cons_append, readFields_cons, readFields_cons]
      cases info.setField B (cstr kv.1) (cstr kv.2) with
      | error e => rfl
      | ok info₁ => exact ih

end loop

/-! ## The law -/

/-- What is used of `std::stof`: it reads a C string, and an empty one is no number. -/
structure IsStof (stof : Bytes → Except Fault UInt32) : Prop where
  /-- No conversion can be performed. -/
  empty : stof [] = .error .invalidArgument
  /-- The conversion stops at a NUL. -/
  cstr : ∀ s, stof (cstr s) = stof s

/-- What `GetPlayerInfo` returns for the user whose key holds `v`. -/
structure InfoRead (stof : Bytes → Except Fault UInt32) (userId : Bytes) (v : RedisValue)
    (found : Bool) (info : PlayerRedisInfo) : Prop where
  /-- True exactly when the record exists and every known field in it converts. -/
  found_iff : found = true ↔ v.Exists ∧ ∀ (field : PlayerField) (value : Bytes),
    v.lookup field.name = some value → ∃ x, field.convert stof value = .ok x
  /-- The record is the user's. -/
  userId : found = true → info.userId = userId
  /-- Each member is the stored value, or the default where none is stored. -/
  fields : found = true → ∀ field : PlayerField,
    match v.lookup field.name with
    | some value => field.convert stof value = .ok (field.get info)
    | none => field.get info = field.get {}

/-- **The readers are total and faithful** on a server with the given content, for the user whose key
holds `v`; a handshake of the user does not end the process. -/
structure ReadsFaithfully (stof : Bytes → Except Fault UInt32) (userId : Bytes) (v : RedisValue)
    (store : Bytes → RedisValue) : Prop where
  /-- `GetPlayerInfo` returns. -/
  info : ∃ found info, ((clientOf store).getPlayerInfo (typedRedis stof) userId).1 =
    .ok (found, info) ∧ InfoRead stof userId v found info
  /-- `GetBalance` returns, and true exactly when a balance is stored and converts. -/
  balance : ∃ balance, ((clientOf store).getBalance (typedRedis stof) userId).1 = .ok balance ∧
    ∀ b, balance = some b ↔
      ∃ value, v.lookup (ascii "balance") = some value ∧ stoll value = .ok b
  /-- `Handle_C_UDP_HELLO` returns. -/
  handshake : ∀ ctx reads,
    (bindUser (typedRedis stof) ctx (clientOf store) userId reads).fault = none

/-- The same record, but for the values of unknown fields and the order in which the fields are
listed. -/
def SameRecord : RedisValue → RedisValue → Prop
  | .hash r, .hash r' => (∀ f, (r'.lookup f).isSome = (r.lookup f).isSome) ∧
      ∀ field : PlayerField, r'.lookup field.name = r.lookup field.name
  | .other, .other => True
  | _, _ => False

/-- The readers are faithful for a user whose key holds `v`, whatever else is stored. -/
def ReadingLaw (stof : Bytes → Except Fault UInt32) (userId : Bytes) (v : RedisValue) : Prop :=
  ∀ store : Bytes → RedisValue, SameRecord v (store (ascii "user:" ++ userId)) →
    ReadsFaithfully stof userId v store

/-- A record that is read as it is stored. -/
structure ReadableRecord (stof : Bytes → Except Fault UInt32) (r : Record) : Prop where
  /-- It exists. -/
  exists_field : r ≠ ∅
  /-- Every known field converts. -/
  converts : ∀ (field : PlayerField) (value : Bytes), r.lookup field.name = some value →
    ∃ x, field.convert stof value = .ok x
  /-- The texts hold no NUL. -/
  texts : ∀ (field : PlayerField) (value : Bytes), field.IsText →
    r.lookup field.name = some value → 0 ∉ value
  /-- No other field has a known name in front of a NUL. -/
  names : ∀ (name : Bytes) (field : PlayerField), (r.lookup name).isSome →
    cstr name = field.name → name = field.name

section law

variable {stof : Bytes → Except Fault UInt32} {userId : Bytes} {store : Bytes → RedisValue}

theorem stoi_cstr (s : Bytes) : stoi (cstr s) = stoi s := by
  rw [stoi, stoi, parseInt_cstr]

theorem stoll_cstr (s : Bytes) : stoll (cstr s) = stoll s := by
  rw [stoll, stoll, parseInt_cstr]

/-- A conversion sees the C string, and a text without NUL is one. -/
theorem convert_cstr (hstof : IsStof stof) (field : PlayerField) {value : Bytes}
    (htext : field.IsText → 0 ∉ value) :
    field.convert stof (cstr value) = field.convert stof value := by
  cases field with
  | nickname => rw [cstr_eq_self_iff.mpr (htext trivial)]
  | scene => rw [cstr_eq_self_iff.mpr (htext trivial)]
  | balance => simp only [PlayerField.convert, stoll_cstr]
  | posX => simp only [PlayerField.convert, hstof.cstr]
  | posY => simp only [PlayerField.convert, hstof.cstr]
  | posZ => simp only [PlayerField.convert, hstof.cstr]
  | rot => simp only [PlayerField.convert, hstof.cstr]
  | _ => simp only [PlayerField.convert, stoi_cstr]

/-- A text is copied. -/
theorem convert_text (field : PlayerField) (h : field.IsText) (s : Bytes) :
    field.convert stof s = .ok (.text s) := by
  cases field with
  | nickname => rfl
  | scene => rfl
  | _ => exact h.elim

/-- The empty string is no number. -/
theorem convert_nil (hstof : IsStof stof) (field : PlayerField) (h : ¬ field.IsText) :
    ∃ e, field.convert stof [] = .error e := by
  cases field with
  | nickname => exact absurd trivial h
  | scene => exact absurd trivial h
  | posX => exact ⟨.invalidArgument, by simp only [PlayerField.convert, hstof.empty]; rfl⟩
  | posY => exact ⟨.invalidArgument, by simp only [PlayerField.convert, hstof.empty]; rfl⟩
  | posZ => exact ⟨.invalidArgument, by simp only [PlayerField.convert, hstof.empty]; rfl⟩
  | rot => exact ⟨.invalidArgument, by simp only [PlayerField.convert, hstof.empty]; rfl⟩
  | _ => exact ⟨.invalidArgument, rfl⟩

/-- `GetPlayerInfo` on a server with the given content. -/
theorem getPlayerInfo_clientOf (stof : Bytes → Except Fault UInt32) (store : Bytes → RedisValue)
    (userId : Bytes) :
    ((clientOf store).getPlayerInfo (typedRedis stof) userId).1 =
      match store (userKey userId) with
      | .hash r => (PlayerRedisInfo.readFields (typedRedis stof) { userId := userId }
          (replyElements r.entries)).map fun info => (true, info)
      | .other => .ok (false, {}) := by
  unfold RedisClient.getPlayerInfo
  rw [if_neg (by simp [clientOf])]
  simp only [RedisClient.redisCommand, clientOf, typedRedis, RedisCommand.key]
  cases store (userKey userId) with
  | hash r => rfl
  | other => rfl

/-- `GetBalance` on a server with the given content. -/
theorem getBalance_clientOf (stof : Bytes → Except Fault UInt32) (store : Bytes → RedisValue)
    (userId : Bytes) :
    ((clientOf store).getBalance (typedRedis stof) userId).1 =
      match (store (userKey userId)).lookup (ascii "balance") with
      | some value => (stoll value).map some
      | none => .ok none := by
  unfold RedisClient.getBalance
  rw [if_neg (by simp [clientOf])]
  simp only [RedisClient.redisCommand, clientOf, typedRedis, RedisCommand.key]
  cases store (userKey userId) with
  | hash r =>
      simp only [RedisValue.reply, RedisState.reply, RedisValue.lookup]
      cases r.lookup (ascii "balance") with
      | none => rfl
      | some value => simp only [stoll_cstr]
  | other => rfl

/-- A handshake ends with the exception of the reader. -/
theorem fault_bindUser {ρ : Type} {B : Backend ρ} {rc : RedisClient ρ} {out : Bool × PlayerRedisInfo}
    (h : (rc.getPlayerInfo B userId).1 = .ok out) (ctx : UdpClientContext) (reads : List Span) :
    (bindUser B ctx rc userId reads).fault = none := by
  unfold bindUser
  dsimp only
  generalize rc.getPlayerInfo B userId = result at h
  obtain ⟨_, rc'⟩ := result
  obtain rfl := h
  obtain ⟨_ | _, info⟩ := out <;> rfl

/-- A key of another type is no record. -/
theorem readsFaithfully_other (hkey : store (userKey userId) = .other) :
    ReadsFaithfully stof userId .other store := by
  have hinfo := getPlayerInfo_clientOf stof store userId
  have hbalance := getBalance_clientOf stof store userId
  rw [hkey] at hinfo hbalance
  refine ⟨⟨false, {}, hinfo, ?_, ?_, ?_⟩, ⟨none, hbalance, ?_⟩, fault_bindUser hinfo⟩
  · simp [RedisValue.Exists]
  · exact fun h => absurd h Bool.false_ne_true
  · exact fun h => absurd h Bool.false_ne_true
  · simp [RedisValue.lookup]

/-- A record that is not empty has a field. -/
theorem exists_isSome_lookup {r : Record} (h : r ≠ ∅) : ∃ name, (r.lookup name).isSome := by
  obtain ⟨entries, hnodup⟩ := r
  cases entries with
  | nil => exact absurd rfl h
  | cons kv entries =>
      refine ⟨kv.1, ?_⟩
      show (List.dlookup kv.1 (kv :: entries)).isSome
      rw [List.dlookup_isSome]
      exact List.mem_cons_self

/-- The same fields are stored in both records, or none. -/
theorem exists_congr {r r' : Record} (hsame : SameRecord (.hash r) (.hash r')) (h : r ≠ ∅) :
    r' ≠ ∅ := by
  rintro rfl
  obtain ⟨name, hname⟩ := exists_isSome_lookup h
  rw [← hsame.1 name, AList.lookup_empty] at hname
  cases hname

theorem SameRecord.symm {r r' : Record} (h : SameRecord (.hash r) (.hash r')) :
    SameRecord (.hash r') (.hash r) :=
  ⟨fun name => (h.1 name).symm, fun field => (h.2 field).symm⟩

/-- The names and the known values of a record decide whether it is readable. -/
theorem ReadableRecord.congr {r r' : Record} (h : ReadableRecord stof r)
    (hsame : SameRecord (.hash r) (.hash r')) : ReadableRecord stof r' := by
  obtain ⟨hnames, hknown⟩ := hsame
  refine ⟨exists_congr ⟨hnames, hknown⟩ h.exists_field, ?_, ?_, ?_⟩
  · intro field value hvalue
    rw [hknown] at hvalue
    exact h.converts field value hvalue
  · intro field value htext hvalue
    rw [hknown] at hvalue
    exact h.texts field value htext hvalue
  · intro name field hsome
    rw [hnames] at hsome
    exact h.names name field hsome

/-- A readable record is read as it is stored. -/
theorem readsFaithfully_hash (hstof : IsStof stof) {r : Record} (hread : ReadableRecord stof r)
    (hkey : store (userKey userId) = .hash r) : ReadsFaithfully stof userId (.hash r) store := by
  have hlookup : ∀ {name value : Bytes}, (⟨name, value⟩ : Σ _ : Bytes, Bytes) ∈ r.entries →
      r.lookup name = some value := fun h => AList.mem_lookup_iff.mpr h
  let blank : PlayerRedisInfo := { userId := userId }
  obtain ⟨info, hloop, hfields⟩ := @readFields_spec _ (typedRedis stof) blank _ r.nodupKeys
    (fun kv hkv field hname => hread.names kv.1 field (by rw [hlookup hkv]; rfl) hname)
    (fun kv hkv field hname => by
      have hvalue := hlookup hkv
      rw [hname] at hvalue
      obtain ⟨x, hx⟩ := hread.converts field kv.2 hvalue
      exact ⟨x, (convert_cstr hstof field fun htext =>
        hread.texts field kv.2 htext hvalue).trans hx⟩)
  have hinfo := getPlayerInfo_clientOf stof store userId
  have hbalance := getBalance_clientOf stof store userId
  rw [hkey] at hinfo hbalance
  dsimp only at hinfo hbalance
  rw [hloop] at hinfo
  refine ⟨⟨true, info, hinfo, ?_, ?_, ?_⟩, ?_, fault_bindUser hinfo⟩
  · exact ⟨fun _ => ⟨hread.exists_field, hread.converts⟩, fun _ => rfl⟩
  · exact fun _ => PlayerRedisInfo.userId_of_readFields (typedRedis stof) hloop
  · intro _ field
    have hfield := hfields field
    simp only [RedisValue.lookup]
    rcases hvalue : r.lookup field.name with _ | value
    · rw [show r.entries.dlookup field.name = none from hvalue] at hfield
      dsimp only at hfield ⊢
      rw [hfield]
      cases field <;> rfl
    · rw [show r.entries.dlookup field.name = some value from hvalue] at hfield
      exact (convert_cstr hstof field fun htext => hread.texts field value htext hvalue).symm.trans
        hfield
  · simp only [RedisValue.lookup] at hbalance ⊢
    rcases hvalue : r.lookup (ascii "balance") with _ | value
    · rw [hvalue] at hbalance
      exact ⟨none, hbalance, by simp⟩
    · rw [hvalue] at hbalance
      obtain ⟨x, hx⟩ := hread.converts .balance value hvalue
      simp only [PlayerField.convert] at hx
      rcases hstoll : stoll value with e | b
      · rw [hstoll] at hx
        cases hx
      · dsimp only at hbalance
        rw [hstoll] at hbalance
        refine ⟨some b, hbalance, fun b' => ?_⟩
        simp [hstoll]

/-- The claims on the readers see the names and the known values of a record only. -/
theorem ReadsFaithfully.congr {r r' : Record} (h : ReadsFaithfully stof userId (.hash r') store)
    (hsame : SameRecord (.hash r) (.hash r')) : ReadsFaithfully stof userId (.hash r) store := by
  obtain ⟨⟨found, info, hinfo, hfound, huser, hfields⟩, ⟨balance, hbalance, hiff⟩, hhandshake⟩ := h
  have hknown : ∀ field : PlayerField, r'.lookup field.name = r.lookup field.name := hsame.2
  have hexists : r' ≠ ∅ ↔ r ≠ ∅ := ⟨exists_congr hsame.symm, exists_congr hsame⟩
  simp only [RedisValue.lookup, RedisValue.Exists, hknown, hexists] at hfound hfields
  simp only [RedisValue.lookup, show r'.lookup (ascii "balance") = r.lookup (ascii "balance") from
    hknown .balance] at hiff
  exact ⟨⟨found, info, hinfo, hfound, huser, hfields⟩, ⟨balance, hbalance, hiff⟩, hhandshake⟩

/-- Readable records, and keys of another type, are read faithfully. -/
theorem readingLaw_of_readable (hstof : IsStof stof) (huser : 0 ∉ userId) {v : RedisValue}
    (hv : v = .other ∨ ∃ r, v = .hash r ∧ ReadableRecord stof r) : ReadingLaw stof userId v := by
  intro store hsame
  rw [← userKey_of_zero_notMem huser] at hsame
  rcases hkey : store (userKey userId) with r' | _
  · rw [hkey] at hsame
    rcases hv with rfl | ⟨r, rfl, hread⟩
    · exact hsame.elim
    · exact (readsFaithfully_hash hstof (hread.congr hsame) hkey).congr hsame
  · rw [hkey] at hsame
    rcases hv with rfl | ⟨r, rfl, -⟩
    · exact readsFaithfully_other hkey
    · exact hsame.elim

/-! ### What breaks the law -/

/-- The record with a field listed last. -/
def listLast (r : Record) (name value : Bytes) : Record where
  entries := (r.erase name).entries ++ [⟨name, value⟩]
  nodupKeys := by
    have hfresh : name ∉ (r.erase name).entries.keys := List.notMem_keys_kerase name r.nodupKeys
    rw [List.nodupKeys_middle, List.append_nil, List.nodupKeys_cons]
    exact ⟨hfresh, (r.erase name).nodupKeys⟩

theorem lookup_listLast (r : Record) (name value other : Bytes) :
    (listLast r name value).lookup other = if other = name then some value else r.lookup other := by
  show List.dlookup other ((r.erase name).entries ++ [⟨name, value⟩]) = _
  rw [List.dlookup_append]
  by_cases heq : other = name
  · subst heq
    have hnone : List.dlookup other (r.erase other).entries = none := AList.lookup_erase other r
    rw [if_pos rfl, hnone, List.dlookup_cons_eq, Option.none_or]
  · have hsame : List.dlookup other (r.erase name).entries = r.lookup other :=
      AList.lookup_erase_ne heq
    have hnone : List.dlookup other [(⟨name, value⟩ : Σ _ : Bytes, Bytes)] = none := by
      rw [List.dlookup_cons_ne _ _ heq, List.dlookup_nil]
    rw [if_neg heq, hsame, hnone, Option.or_none]

/-- An unknown field may be listed last, with any value. -/
theorem sameRecord_listLast {r : Record} {name : Bytes} (hname : (r.lookup name).isSome)
    (value : Bytes) (hvalue : ∀ field : PlayerField, name = field.name →
      r.lookup name = some value) : SameRecord (.hash r) (.hash (listLast r name value)) := by
  constructor
  · intro other
    rw [lookup_listLast]
    split_ifs with heq
    · rw [heq, hname]
      rfl
    · rfl
  · intro field
    rw [lookup_listLast]
    split_ifs with heq
    · rw [heq, hvalue field heq.symm]
    · rfl

/-- What the law says of a hash. -/
theorem ReadingLaw.hash {r r' : Record} (h : ReadingLaw stof userId (.hash r)) (huser : 0 ∉ userId)
    (hsame : SameRecord (.hash r) (.hash r')) :
    r ≠ ∅ ∧ (∀ (field : PlayerField) (value : Bytes), r.lookup field.name = some value →
      ∃ x, field.convert stof value = .ok x) ∧
    ∃ info, PlayerRedisInfo.readFields (typedRedis stof) { userId := userId }
        (replyElements r'.entries) = .ok info ∧ ∀ field : PlayerField,
      match r.lookup field.name with
      | some value => field.convert stof value = .ok (field.get info)
      | none => field.get info = field.get {} := by
  have hkey := userKey_of_zero_notMem huser
  obtain ⟨⟨found, info, hinfo, hread⟩, -, -⟩ :=
    h (fun _ => .hash r') hsame
  rw [getPlayerInfo_clientOf] at hinfo
  dsimp only at hinfo
  rcases hloop : PlayerRedisInfo.readFields (typedRedis stof) { userId := userId }
    (replyElements r'.entries) with e | info'
  · rw [hloop] at hinfo
    cases hinfo
  · rw [hloop] at hinfo
    cases hinfo
    obtain ⟨hexists, hconverts⟩ := hread.found_iff.mp rfl
    exact ⟨hexists, hconverts, info, rfl, hread.fields rfl⟩

/-- The field whose name comes first is the one that the last entry assigns. -/
theorem ReadingLaw.last {r : Record} {name value : Bytes} {field : PlayerField}
    (h : ReadingLaw stof userId (.hash r)) (huser : 0 ∉ userId) (hname : (r.lookup name).isSome)
    (hvalue : ∀ field : PlayerField, name = field.name → r.lookup name = some value)
    (hcut : cstr name = field.name) :
    ∃ info, field.convert stof (cstr value) = .ok (field.get info) ∧
      match r.lookup field.name with
      | some value => field.convert stof value = .ok (field.get info)
      | none => field.get info = field.get {} := by
  obtain ⟨-, -, info, hloop, hfields⟩ := h.hash huser (sameRecord_listLast hname value hvalue)
  refine ⟨info, ?_, hfields field⟩
  rw [show (listLast r name value).entries = (r.erase name).entries ++ [⟨name, value⟩] from rfl,
    readFields_last, hcut] at hloop
  rcases hfirst : PlayerRedisInfo.readFields (typedRedis stof) { userId := userId }
    (replyElements (r.erase name).entries) with e | info₁
  · rw [hfirst] at hloop
    cases hloop
  rw [hfirst] at hloop
  dsimp only at hloop
  obtain ⟨hok, herror⟩ := setField_name (typedRedis stof) info₁ field (cstr value)
  rcases hconvert : field.convert stof (cstr value) with e | x
  · rw [herror e hconvert] at hloop
    cases hloop
  · obtain ⟨info', hset, hget, -⟩ := hok x hconvert
    rw [hset] at hloop
    cases hloop
    rw [hget]

/-- **A user id with a NUL** names the key of another user. -/
theorem zero_notMem_of_readingLaw {v : RedisValue} (h : ReadingLaw stof userId v) : 0 ∉ userId := by
  intro hnul
  have hcut : userKey userId ≠ ascii "user:" ++ userId := by
    intro heq
    have hzero : 0 ∈ userKey userId := by
      rw [heq]
      exact List.mem_append_right _ hnul
    exact zero_notMem_cstr _ hzero
  have hself : SameRecord v v := by
    cases v with
    | hash r => exact ⟨fun _ => rfl, fun _ => rfl⟩
    | other => trivial
  -- the other user has no record in one store, and a key of another type in the next
  have hfound : ∀ w : RedisValue, ∃ found info, ((clientOf (Function.update (fun _ => w)
      (ascii "user:" ++ userId) v)).getPlayerInfo (typedRedis stof) userId).1 = .ok (found, info) ∧
        InfoRead stof userId v found info := by
    intro w
    exact (h _ (by rw [Function.update_self]; exact hself)).info
  have hkey : ∀ w : RedisValue, Function.update (fun _ => w) (ascii "user:" ++ userId) v
      (userKey userId) = w := fun w => Function.update_of_ne hcut _ _
  obtain ⟨found, info, hinfo, hread⟩ := hfound (.hash ∅)
  obtain ⟨found', info', hinfo', hread'⟩ := hfound .other
  rw [getPlayerInfo_clientOf, hkey] at hinfo hinfo'
  cases hinfo
  cases hinfo'
  have htrue := hread.found_iff.mp rfl
  exact Bool.false_ne_true (hread'.found_iff.mpr htrue)

/-- **A record that is read faithfully is readable.** -/
theorem readable_of_readingLaw (hstof : IsStof stof) {r : Record} (huser : 0 ∉ userId)
    (h : ReadingLaw stof userId (.hash r)) : ReadableRecord stof r := by
  have hself : SameRecord (.hash r) (.hash r) := ⟨fun _ => rfl, fun _ => rfl⟩
  obtain ⟨hexists, hconverts, -⟩ := h.hash huser hself
  refine ⟨hexists, hconverts, ?_, ?_⟩
  · intro field value htext hvalue hnul
    obtain ⟨info, hcut, hwhole⟩ := h.last huser
      (by rw [hvalue]; rfl) (fun _ _ => hvalue) field.cstr_name
    rw [hvalue] at hwhole
    dsimp only at hwhole
    rw [convert_text field htext] at hcut hwhole
    have htexts := Except.ok.inj (hcut.trans hwhole.symm)
    rw [← FieldValue.text.inj htexts] at hnul
    exact zero_notMem_cstr value hnul
  · intro name field hsome hcut
    by_contra hne
    -- the name is no known one, so any value may be stored under it
    have hany : ∀ value, ∀ field' : PlayerField, name = field'.name → r.lookup name = some value := by
      rintro value field' rfl
      rw [field'.cstr_name] at hcut
      exact absurd hcut hne
    by_cases htext : field.IsText
    · obtain ⟨info₁, hone, hstored₁⟩ := h.last huser hsome (hany [1]) hcut
      obtain ⟨info₂, htwo, hstored₂⟩ := h.last huser hsome (hany [2]) hcut
      rw [convert_text field htext] at hone htwo
      have hsame : field.get info₁ = field.get info₂ := by
        rcases hlookup : r.lookup field.name with _ | value
        · rw [hlookup] at hstored₁ hstored₂
          exact hstored₁.trans hstored₂.symm
        · rw [hlookup] at hstored₁ hstored₂
          exact Except.ok.inj (hstored₁.symm.trans hstored₂)
      rw [← Except.ok.inj hone, ← Except.ok.inj htwo] at hsame
      exact absurd hsame (by decide)
    · obtain ⟨info, hempty, -⟩ := h.last huser hsome (hany []) hcut
      obtain ⟨e, herror⟩ := convert_nil hstof field htext
      rw [show cstr [] = [] from rfl, herror] at hempty
      cases hempty

end law

/-! ### The condition -/

/-- **Reading the record of a user is total and faithful** exactly when the user id has no NUL, and the
key is of another type or holds a readable record. -/
theorem readingLaw_iff {stof : Bytes → Except Fault UInt32} (hstof : IsStof stof) (userId : Bytes)
    (v : RedisValue) :
    ReadingLaw stof userId v ↔
      0 ∉ userId ∧ (v = .other ∨ ∃ r, v = .hash r ∧ ReadableRecord stof r) := by
  constructor
  · intro h
    have huser := zero_notMem_of_readingLaw h
    refine ⟨huser, ?_⟩
    cases v with
    | other => exact .inl rfl
    | hash r => exact .inr ⟨r, rfl, readable_of_readingLaw hstof huser h⟩
  · rintro ⟨huser, hv⟩
    exact readingLaw_of_readable hstof huser hv

/-- A conversion that knows the numbers zero and one. -/
def stofOfDigit (s : Bytes) : Except Fault UInt32 :=
  match parseInt s with
  | none => .error .invalidArgument
  | some n => .ok (if n = 0 then 0 else 0x3F800000)

theorem isStof_stofOfDigit : IsStof stofOfDigit where
  empty := rfl
  cstr s := by rw [stofOfDigit, stofOfDigit, parseInt_cstr]

/-- A record with one field. -/
def recordOf (name value : Bytes) : Record := (∅ : Record).insert name value

theorem lookup_recordOf {name value other found : Bytes} :
    (recordOf name value).lookup other = some found ↔ other = name ∧ value = found := by
  rw [recordOf, lookup_insert_eq_some_iff, AList.lookup_empty]
  simp

/-- A record that holds one number in a known field is readable. -/
theorem readable_recordOf {stof : Bytes → Except Fault UInt32} (field : PlayerField) {value : Bytes}
    {x : FieldValue} (hfield : ¬ field.IsText) (hvalue : field.convert stof value = .ok x) :
    ReadableRecord stof (recordOf field.name value) where
  exists_field h := by
    have hlookup : (recordOf field.name value).lookup field.name = some value :=
      lookup_recordOf.mpr ⟨rfl, rfl⟩
    rw [h, AList.lookup_empty] at hlookup
    cases hlookup
  converts other found h := by
    obtain ⟨hname, rfl⟩ := lookup_recordOf.mp h
    rw [PlayerField.name_injective hname]
    exact ⟨x, hvalue⟩
  texts other found htext h := by
    obtain ⟨hname, -⟩ := lookup_recordOf.mp h
    rw [PlayerField.name_injective hname] at htext
    exact absurd htext hfield
  names name other h hcut := by
    obtain ⟨found, hfound⟩ := Option.isSome_iff_exists.mp h
    obtain ⟨rfl, -⟩ := lookup_recordOf.mp hfound
    rwa [field.cstr_name] at hcut

/-- A record that holds `100` under `hp`. -/
theorem readingLaw_hp :
    ReadingLaw stofOfDigit [65] (.hash (recordOf (ascii "hp") (ascii "100"))) :=
  (readingLaw_iff isStof_stofOfDigit [65] _).mpr ⟨by decide, .inr ⟨_, rfl,
    readable_recordOf .hp id (show PlayerField.hp.convert _ _ = .ok (.int32 100) from rfl)⟩⟩

/-- A record that holds `abc` under `hp` ends the process, and a record that is missing is reported as
found. -/
theorem not_readingLaw_abc :
    ¬ ReadingLaw stofOfDigit [65] (.hash (recordOf (ascii "hp") (ascii "abc"))) ∧
      ¬ ReadingLaw stofOfDigit [65] (.hash ∅) := by
  constructor
  · intro h
    obtain ⟨-, hconverts, -⟩ := h.hash (by decide) ⟨fun _ => rfl, fun _ => rfl⟩
    obtain ⟨x, hx⟩ := hconverts .hp (ascii "abc") (lookup_recordOf.mpr ⟨rfl, rfl⟩)
    cases hx
  · intro h
    exact (h.hash (by decide) ⟨fun _ => rfl, fun _ => rfl⟩).1 rfl

/-- The exception leaves the handler of a handshake. -/
example (ctx : UdpClientContext) :
    (bindUser (typedRedis stofOfDigit) ctx
      (clientOf fun _ => .hash (recordOf (ascii "hp") (ascii "abc"))) [65] []).fault =
        some .invalidArgument := by
  rfl

end CowboyPoker.GameServer
