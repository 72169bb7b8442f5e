import CowboyPoker.GameServer.Purchase

/-!
# Accounts

What the hash of a user is for: an amount of money, a weapon and its ammunition.

* `Account` — the abstract account, in which nothing can be negative. `Account.buy` and
  `Account.fire` are the two operations of the game on it; either may be refused.
* `Trade` — what happened in a step, as the players see it; `Account.Step` is the effect of a trade
  on the account of one user, and `Law` the account as a function of all trades so far (`Law.step`).
* `Holds B record a` — the hash `record` stores the account `a`. `Holds.purchase` and `Holds.shot`: the
  writes of a purchase and of a shot store the account after `buy` and after `fire`.
* `buyWeapon_healthy`, `consumeLobbyAmmo_of_loaded`, `consumeLobbyAmmo_of_not_loaded` — the handlers
  against a server that carries out every command.
-/

namespace CowboyPoker.GameServer

open CowboyPoker.Found
open CowboyPoker.ServerCore
open RedisState

/-! ## The abstract account -/

/-- What a user owns. -/
structure Account where
  /-- The money. -/
  balance : ℕ
  /-- The type of the weapon, zero for none. -/
  weapon : Int32
  /-- The rounds left. -/
  ammo : ℕ

/-- A purchase: the price is paid, and the weapon comes with five magazines. -/
def Account.buy (a : Account) (weaponType : Int32) : Option Account :=
  match findWeapon weaponType with
  | none => none
  | some weapon =>
      if weapon.price.toInt ≤ a.balance then
        some ⟨a.balance - weapon.price.toInt.toNat, weaponType, (5 * weapon.magazineSize.toInt).toNat⟩
      else none

/-- A shot: it takes a weapon and a round. -/
def Account.fire (a : Account) : Option Account :=
  if a.weapon = 0 ∨ a.ammo = 0 then none else some { a with ammo := a.ammo - 1 }

/-- What a user did, and whether it was granted. -/
inductive Trade
  /-- A purchase that was answered. -/
  | purchase (user : Bytes) (weaponType : Int32) (success : Bool)
  /-- A shot. -/
  | shot (user : Bytes) (success : Bool)
  deriving DecidableEq

/-- Who did it. -/
def Trade.user : Trade → Bytes
  | purchase user _ _ => user
  | shot user _ => user

/-- Whether it was granted. -/
def Trade.success : Trade → Bool
  | purchase _ _ success => success
  | shot _ success => success

/-- The effect of a step, in which at most one action happened, on the account of `u`. -/
inductive Account.Step (u : Bytes) : Account → Option Trade → Account → Prop
  /-- A purchase of the user was granted. -/
  | bought {a a' : Account} {weaponType : Int32} (h : a.buy weaponType = some a') :
      Step u a (some (.purchase u weaponType true)) a'
  /-- A shot of the user was granted. -/
  | fired {a a' : Account} (h : a.fire = some a') : Step u a (some (.shot u true)) a'
  /-- Nothing of the user was granted. -/
  | same {a : Account} {o : Option Trade} (h : ∀ act ∈ o, act.user = u → act.success = false) :
      Step u a o a

/-! ## The account as a function of the history -/

/-- The weapon that an action brought to `u`. -/
def boughtBy (u : Bytes) : Trade → Option (Int32 × WeaponInfo)
  | .purchase user weaponType true =>
      if user = u then (findWeapon weaponType).map fun weapon => (weaponType, weapon) else none
  | _ => none

/-- The weapons that `u` bought, oldest first. -/
def purchasesOf (u : Bytes) (acts : List Trade) : List (Int32 × WeaponInfo) :=
  acts.filterMap (boughtBy u)

/-- What `u` paid. -/
def spent (u : Bytes) (acts : List Trade) : ℤ :=
  ((purchasesOf u acts).map fun p => p.2.price.toInt).sum

/-- The shots of `u` since the last weapon was bought. -/
def shotsSince (u : Bytes) (acts : List Trade) : ℕ :=
  (acts.reverse.takeWhile fun act => (boughtBy u act).isNone).count (.shot u true)

/-- The account `a` of `u` after `acts`, if it was `a₀` before. -/
structure Law (u : Bytes) (a₀ : Account) (acts : List Trade) (a : Account) : Prop where
  /-- The balance is the initial one without the prices. -/
  balance : (a.balance : ℤ) = a₀.balance - spent u acts
  /-- The weapon is the last one bought. -/
  weapon : a.weapon = ((purchasesOf u acts).getLast?.map Prod.fst).getD a₀.weapon
  /-- The rounds are five magazines of it, without the shots. -/
  ammo : (a.ammo : ℤ) = ((purchasesOf u acts).getLast?.map fun p =>
    5 * p.2.magazineSize.toInt).getD (a₀.ammo : ℤ) - shotsSince u acts

/-- Before any action the account is the initial one. -/
theorem law_nil (u : Bytes) (a : Account) : Law u a [] a where
  balance := by simp [spent, purchasesOf]
  weapon := by simp [purchasesOf]
  ammo := by simp [purchasesOf, shotsSince]

section history

variable {u : Bytes} {acts : List Trade} {act : Trade}

/-- One more action brings at most one more weapon. -/
@[simp] theorem purchasesOf_append_singleton :
    purchasesOf u (acts ++ [act]) = purchasesOf u acts ++ (boughtBy u act).toList := by
  rw [purchasesOf, List.filterMap_append, ← purchasesOf]
  cases hbought : boughtBy u act <;> simp [hbought]

/-- One more action costs the price of the weapon that it brought. -/
theorem spent_append_singleton : spent u (acts ++ [act]) =
    spent u acts + ((boughtBy u act).map fun p => p.2.price.toInt).getD 0 := by
  unfold spent
  rw [purchasesOf_append_singleton, List.map_append, List.sum_append]
  cases boughtBy u act <;> simp

/-- A purchase starts the count of shots anew, and a shot adds one to it. -/
theorem shotsSince_append_singleton : shotsSince u (acts ++ [act]) =
    if (boughtBy u act).isNone then shotsSince u acts + (if act = .shot u true then 1 else 0)
    else 0 := by
  unfold shotsSince
  rw [List.reverse_append, List.reverse_singleton, List.singleton_append, List.takeWhile_cons]
  by_cases hnone : (boughtBy u act).isNone
  · rw [if_pos hnone, if_pos hnone, List.count_cons]
    simp only [beq_iff_eq]
  · rw [if_neg hnone, if_neg hnone, List.count_nil]

/-- An action that brings nothing to a user and is not a shot of theirs leaves their account alone. -/
theorem Law.of_not_granted {a₀ a : Account} (h : Law u a₀ acts a)
    (hact : act.user = u → act.success = false) : Law u a₀ (acts ++ [act]) a := by
  have hbought : boughtBy u act = none := by
    cases act with
    | purchase user weaponType success =>
        cases success with
        | false => rfl
        | true =>
            have hne : user ≠ u := fun heq => absurd (hact heq) Bool.noConfusion
            simp only [boughtBy, if_neg hne]
    | shot => rfl
  have hshot : act ≠ .shot u true := by
    rintro rfl
    exact absurd (hact rfl) Bool.noConfusion
  refine ⟨?_, ?_, ?_⟩
  · rw [spent_append_singleton, hbought]
    simpa using h.balance
  · rw [purchasesOf_append_singleton, hbought]
    simpa using h.weapon
  · rw [purchasesOf_append_singleton, shotsSince_append_singleton, hbought]
    simpa [hshot] using h.ammo

/-- **The law is kept by every step.** -/
theorem Law.step {a₀ a a' : Account} {o : Option Trade} (h : Law u a₀ acts a)
    (hstep : Account.Step u a o a') : Law u a₀ (acts ++ o.toList) a' := by
  cases hstep with
  | @bought _ weaponType hbuy =>
      unfold Account.buy at hbuy
      rcases hweapon : findWeapon weaponType with _ | weapon
      · rw [hweapon] at hbuy
        cases hbuy
      rw [hweapon] at hbuy
      obtain ⟨hprice, hbuy⟩ := Option.ite_none_right_eq_some.mp hbuy
      cases hbuy
      have hbought : boughtBy u (.purchase u weaponType true) = some (weaponType, weapon) := by
        simp [boughtBy, hweapon]
      have hpos := (findWeapon_price_pos hweapon).1
      have hsize := findWeapon_magazineSize_pos hweapon
      refine ⟨?_, ?_, ?_⟩
      · rw [Option.toList_some, spent_append_singleton, hbought]
        have := h.balance
        simp only [Option.map_some, Option.getD_some]
        omega
      · rw [Option.toList_some, purchasesOf_append_singleton, hbought]
        simp
      · rw [Option.toList_some, purchasesOf_append_singleton, shotsSince_append_singleton, hbought]
        simp only [Option.toList_some, List.getLast?_concat, Option.map_some, Option.getD_some,
          Option.isNone_some, Bool.false_eq_true, if_false]
        omega
  | fired hfire =>
      unfold Account.fire at hfire
      obtain ⟨hloaded, hfire⟩ := Option.ite_none_left_eq_some.mp hfire
      cases hfire
      have hbought : boughtBy u (.shot u true) = none := rfl
      refine ⟨?_, ?_, ?_⟩
      · rw [Option.toList_some, spent_append_singleton, hbought]
        simpa using h.balance
      · rw [Option.toList_some, purchasesOf_append_singleton, hbought]
        simpa using h.weapon
      · rw [Option.toList_some, purchasesOf_append_singleton, shotsSince_append_singleton, hbought]
        have := h.ammo
        simp only [Option.toList_none, List.append_nil, Option.isNone_none, if_true]
        omega
  | same hsame =>
      cases o with
      | none => simpa using h
      | some act => exact h.of_not_granted (hsame act rfl)

end history

/-! ## Reading a hash -/

variable {ρ : Type} (B : Backend ρ)

/-- An `int32` field of a hash, zero if the field is missing. -/
def storedInt32 (record : Record) (field : Bytes) : Int32 :=
  match record.lookup field with
  | some value => (stoi (cstr value)).toOption.getD 0
  | none => 0

/-- `GetPlayerInfo` can convert every field of the hash, and reads no other field as the weapon or the
ammunition. -/
structure Readable (record : Record) : Prop where
  /-- No conversion throws. -/
  converts : ∀ field value, record.lookup field = some value →
    ∀ info : PlayerRedisInfo, ∃ info', info.setField B (cstr field) (cstr value) = .ok info'
  /-- A field whose C string names the weapon or the ammunition is that field. -/
  unambiguous : ∀ field ∈ record, ∀ name ∈ [ascii "weapon", ascii "ammo"],
    cstr field = name → field = name

/-- The empty hash is readable. -/
theorem readable_empty : Readable B ∅ where
  converts _ _ h := by simp at h
  unambiguous _ h := absurd h (AList.notMem_empty _)

/-- The member `π` is the one that the field `name` assigns. -/
structure Assigns (name : Bytes) (π : PlayerRedisInfo → Int32) : Prop where
  /-- The field assigns it. -/
  set : ∀ (info info' : PlayerRedisInfo) (value : Bytes),
    info.setField B name value = .ok info' → (stoi value).toOption.getD 0 = π info'
  /-- No other field does. -/
  keep : ∀ (info info' : PlayerRedisInfo) (field value : Bytes), field ≠ name →
    info.setField B field value = .ok info' → π info' = π info

/-- A conversion that succeeds has the value `c` in the member `π`. -/
def Keeps (π : PlayerRedisInfo → Int32) (c : Int32) (e : Except Fault PlayerRedisInfo) : Prop :=
  ∀ info, e = .ok info → π info = c

section keeps

variable {π : PlayerRedisInfo → Int32} {c : Int32}

/-- A conversion that assigns another member keeps `π`. -/
theorem keeps_ok {info : PlayerRedisInfo} (h : π info = c) : Keeps π c (.ok info) := by
  intro info' heq
  cases heq
  exact h

/-- So does one that may throw first. -/
theorem keeps_map {α : Type} {e : Except Fault α} {f : α → PlayerRedisInfo}
    (h : ∀ v, π (f v) = c) : Keeps π c (e.map f) := by
  intro info heq
  cases e with
  | error e => cases heq
  | ok v =>
      cases heq
      exact h v

/-- A conversion of a field with a name keeps `π` if it does under that name and under the names
tried after it. -/
theorem keeps_ite {p : Prop} [Decidable p] {a b : Except Fault PlayerRedisInfo}
    (ha : p → Keeps π c a) (hb : Keeps π c b) : Keeps π c (if p then a else b) := by
  by_cases hp : p
  · rw [if_pos hp]
    exact ha hp
  · rwa [if_neg hp]

end keeps

/-- What a conversion assigns. -/
theorem toOption_getD_of_map {π : PlayerRedisInfo → Int32} {e : Except Fault Int32}
    {f : Int32 → PlayerRedisInfo} (hf : ∀ v, π (f v) = v) {info : PlayerRedisInfo}
    (h : e.map f = .ok info) : e.toOption.getD 0 = π info := by
  cases e with
  | error e => cases h
  | ok v =>
      cases h
      exact (hf v).symm

/-- The member `weapon` is the one that the field of that name assigns. -/
theorem assigns_weapon : Assigns B (ascii "weapon") PlayerRedisInfo.weapon where
  set info info' value h :=
    toOption_getD_of_map (f := fun v => { info with weapon := v }) (fun _ => rfl) h
  keep info info' field value hne := by
    unfold PlayerRedisInfo.setField
    refine (?_ : Keeps PlayerRedisInfo.weapon info.weapon _) info'
    repeat' apply keeps_ite
    all_goals first
      | exact fun _ => keeps_ok rfl
      | exact fun _ => keeps_map fun _ => rfl
      | exact fun heq => absurd heq hne
      | exact keeps_ok rfl

/-- The member `ammo` is the one that the field of that name assigns. -/
theorem assigns_ammo : Assigns B (ascii "ammo") PlayerRedisInfo.ammo where
  set info info' value h :=
    toOption_getD_of_map (f := fun v => { info with ammo := v }) (fun _ => rfl) h
  keep info info' field value hne := by
    unfold PlayerRedisInfo.setField
    refine (?_ : Keeps PlayerRedisInfo.ammo info.ammo _) info'
    repeat' apply keeps_ite
    all_goals first
      | exact fun _ => keeps_ok rfl
      | exact fun _ => keeps_map fun _ => rfl
      | exact fun heq => absurd heq hne
      | exact keeps_ok rfl

/-- The loop of `GetPlayerInfo` ends if no conversion throws. -/
theorem exists_readFields {entries : List (Sigma fun _ : Bytes => Bytes)}
    (hread : ∀ kv ∈ entries, ∀ info : PlayerRedisInfo,
      ∃ info', info.setField B (cstr kv.1) (cstr kv.2) = .ok info') (info : PlayerRedisInfo) :
    ∃ info', info.readFields B (entries.flatMap fun kv => [some kv.1, some kv.2]) = .ok info' := by
  induction entries generalizing info with
  | nil => exact ⟨info, rfl⟩
  | cons kv entries ih =>
      rw [List.forall_mem_cons] at hread
      obtain ⟨info₁, hinfo₁⟩ := hread.1 info
      obtain ⟨info', hinfo'⟩ := ih hread.2 info₁
      refine ⟨info', ?_⟩
      simp only [List.flatMap_cons, List.cons_append, List.nil_append, PlayerRedisInfo.readFields,
        hinfo₁, hinfo']

/-- What the loop leaves in a member that one field assigns. -/
theorem Assigns.readFields {name : Bytes} {π : PlayerRedisInfo → Int32} (h : Assigns B name π)
    (hname : cstr name = name) {entries : List (Sigma fun _ : Bytes => Bytes)}
    (hnodup : entries.NodupKeys) (hentries : ∀ kv ∈ entries, cstr kv.1 = name → kv.1 = name)
    {info info' : PlayerRedisInfo}
    (hread : info.readFields B (entries.flatMap fun kv => [some kv.1, some kv.2]) = .ok info') :
    π info' = match entries.dlookup name with
      | some value => (stoi (cstr value)).toOption.getD 0
      | none => π info := by
  induction entries generalizing info with
  | nil =>
      cases hread
      rfl
  | cons kv entries ih =>
      obtain ⟨field, value⟩ := kv
      rw [List.forall_mem_cons] at hentries
      rw [List.nodupKeys_cons] at hnodup
      simp only [List.flatMap_cons, List.cons_append, List.nil_append,
        PlayerRedisInfo.readFields] at hread
      rcases hset : info.setField B (cstr field) (cstr value) with e | info₁
      · rw [hset] at hread
        cases hread
      rw [hset] at hread
      have hrest := ih hnodup.2 hentries.2 hread
      by_cases heq : field = name
      · subst heq
        rw [List.dlookup_eq_none.mpr hnodup.1] at hrest
        rw [List.dlookup_cons_eq, hrest]
        rw [hname] at hset
        exact (h.set _ _ _ hset).symm
      · rw [List.dlookup_cons_ne _ _ (Ne.symm heq), hrest,
          h.keep _ _ _ _ (fun hcstr => heq (hentries.1 hcstr)) hset]

/-- What `GetPlayerInfo` makes of a hash. -/
theorem Readable.readFields {record : Record} (h : Readable B record) (user : Bytes) :
    ∃ info, PlayerRedisInfo.readFields B { userId := user }
        (record.entries.flatMap fun kv => [some kv.1, some kv.2]) = .ok info ∧
      info.weapon = storedInt32 record (ascii "weapon") ∧
      info.ammo = storedInt32 record (ascii "ammo") := by
  have hconverts : ∀ kv ∈ record.entries, ∀ info : PlayerRedisInfo,
      ∃ info', info.setField B (cstr kv.1) (cstr kv.2) = .ok info' := fun kv hkv =>
    h.converts kv.1 kv.2 (AList.mem_lookup_iff.mpr hkv)
  have hentries : ∀ name ∈ [ascii "weapon", ascii "ammo"], ∀ kv ∈ record.entries,
      cstr kv.1 = name → kv.1 = name := fun name hname kv hkv =>
    h.unambiguous kv.1 (AList.mem_keys.mpr (List.mem_keys_of_mem hkv)) name hname
  obtain ⟨info, hinfo⟩ := exists_readFields B hconverts { userId := user }
  refine ⟨info, hinfo, ?_, ?_⟩
  · exact (assigns_weapon B).readFields B rfl record.nodupKeys (hentries _ (by simp)) hinfo
  · exact (assigns_ammo B).readFields B rfl record.nodupKeys (hentries _ (by simp)) hinfo

/-! ## The account in a hash -/

/-- The hash stores the account: the balance as its numeral, the rest in any form that
`GetPlayerInfo` can convert. -/
structure Holds (record : Record) (a : Account) : Prop where
  /-- The hash can be read. -/
  readable : Readable B record
  /-- The balance is a canonical numeral. -/
  balance : record.lookup (ascii "balance") = some (decimal a.balance)
  /-- The balance is an `int64`. -/
  balance_lt : a.balance < 2 ^ 63
  /-- The weapon. -/
  weapon : storedInt32 record (ascii "weapon") = a.weapon
  /-- The rounds. -/
  ammo : (storedInt32 record (ascii "ammo")).toInt = a.ammo

section record

variable {B} {record : Record} {a : Account}

/-- A field that holds the numeral of an `int32`. -/
theorem storedInt32_of_lookup {field : Bytes} {v : Int32}
    (h : record.lookup field = some (toStringInt32 v)) : storedInt32 record field = v := by
  simp [storedInt32, h, Except.toOption]

/-- A stored balance can be converted. -/
theorem converts_balance (v : Int64) (info : PlayerRedisInfo) :
    ∃ info', info.setField B (ascii "balance") (cstr (toStringInt64 v)) = .ok info' := by
  refine ⟨{ info with balance := v }, ?_⟩
  show (stoll (cstr (toStringInt64 v))).map (fun v => { info with balance := v }) = _
  rw [cstr_toStringInt64, stoll_toStringInt64]
  rfl

/-- A numeral of an `int32` can be converted, under the name of a field read with `stoi`. -/
theorem converts_int32 {field : Bytes} {f : PlayerRedisInfo → Int32 → PlayerRedisInfo}
    (hset : ∀ info value, info.setField B field value = (stoi value).map (f info)) (v : Int32)
    (info : PlayerRedisInfo) :
    ∃ info', info.setField B field (cstr (toStringInt32 v)) = .ok info' := by
  refine ⟨f info v, ?_⟩
  rw [hset, cstr_toStringInt32, stoi_toStringInt32]
  rfl

/-- A stored weapon can be converted. -/
theorem converts_weapon (v : Int32) (info : PlayerRedisInfo) :
    ∃ info', info.setField B (ascii "weapon") (cstr (toStringInt32 v)) = .ok info' :=
  converts_int32 (f := fun info v => { info with weapon := v }) (fun _ _ => rfl) v info

/-- A stored kind of ammunition can be converted. -/
theorem converts_ammoType (v : Int32) (info : PlayerRedisInfo) :
    ∃ info', info.setField B (ascii "ammo_type") (cstr (toStringInt32 v)) = .ok info' :=
  converts_int32 (f := fun info v => { info with ammoType := v }) (fun _ _ => rfl) v info

/-- A stored number of rounds can be converted. -/
theorem converts_ammo (v : Int32) (info : PlayerRedisInfo) :
    ∃ info', info.setField B (ascii "ammo") (cstr (toStringInt32 v)) = .ok info' :=
  converts_int32 (f := fun info v => { info with ammo := v }) (fun _ _ => rfl) v info

/-- `GetBalance` on an account. -/
theorem Holds.stoll_balance (h : Holds B record a) :
    stoll (cstr (decimal a.balance)) = .ok (Int64.ofInt a.balance) := by
  have hcstr : cstr (decimal a.balance) = decimal a.balance := cstr_decimalInt (.ofNat a.balance)
  have hparse : parseInt (decimal a.balance) = some (a.balance : ℤ) :=
    parseInt_decimalInt (.ofNat a.balance)
  have hlt := h.balance_lt
  rw [hcstr, stoll, hparse]
  exact if_pos ⟨by omega, by exact_mod_cast hlt⟩

/-- The balance of an account fits an `int64`. -/
theorem Holds.toInt_balance (h : Holds B record a) : (Int64.ofInt a.balance).toInt = a.balance := by
  have hlt := h.balance_lt
  rw [Int64.toInt_ofInt_of_le] <;> omega

variable [RedisState ρ]

/-- Storing another field keeps an `int32` field. -/
theorem storedInt32_put_of_ne {field field' value : Bytes} (h : field ≠ field') :
    storedInt32 (put ρ record field' value) field = storedInt32 record field := by
  simp only [storedInt32, lookup_put_of_ne record value h]

/-- A hash stays readable when a field that can be converted is stored. -/
theorem Readable.put (h : Readable B record) {field value : Bytes} (hfield : cstr field = field)
    (hconverts : ∀ info : PlayerRedisInfo, ∃ info', info.setField B field (cstr value) = .ok info') :
    Readable B (RedisState.put ρ record field value) where
  converts field' value' hlook := by
    rw [RedisState.puts] at hlook
    rcases lookup_insert_eq_some_iff.mp hlook with ⟨rfl, rfl⟩ | ⟨-, hold⟩
    · rwa [hfield]
    · exact h.converts field' value' hold
  unambiguous field' hmem name hname hcstr := by
    rcases mem_put record hmem with rfl | hold
    · rw [← hcstr, hfield]
    · exact h.unambiguous field' hold name hname hcstr

/-- **The writes of a purchase.** -/
theorem Holds.purchase (h : Holds B record a) {weaponType : Int32} {weapon : WeaponInfo}
    (hweapon : findWeapon weaponType = some weapon)
    (hprice : ¬ Int64.ofInt a.balance < weapon.price) :
    ∃ a', a.buy weaponType = some a' ∧
      Holds B (RedisState.putAll ρ record (RedisClient.purchaseFields
        (Int64.ofInt a.balance - weapon.price) weaponType (weapon.magazineSize * 5) 0)) a' := by
  have hpos := (findWeapon_price_pos hweapon).1
  obtain ⟨hsize, hfive⟩ := findWeapon_magazineSize_pos hweapon
  have hlt := h.balance_lt
  have hle : weapon.price.toInt ≤ a.balance := by
    rw [Int64.not_lt, Int64.le_iff_toInt_le, h.toInt_balance] at hprice
    exact hprice
  have hnew : (Int64.ofInt a.balance - weapon.price).toInt =
      ((a.balance - weapon.price.toInt.toNat : ℕ) : ℤ) := by
    rw [Int64.toInt_sub, h.toInt_balance, Int.bmod_eq_of_le] <;> omega
  refine ⟨⟨a.balance - weapon.price.toInt.toNat, weaponType,
    (5 * weapon.magazineSize.toInt).toNat⟩, ?_, ?_⟩
  · simp only [Account.buy, hweapon, if_pos hle]
  simp only [putAll, RedisClient.purchaseFields, List.foldl_cons, List.foldl_nil]
  constructor
  · refine (((h.readable.put rfl (converts_balance _)).put rfl (converts_weapon _)).put rfl
      (converts_ammoType _)).put rfl (converts_ammo _)
  · rw [lookup_put_of_ne _ _ (by decide), lookup_put_of_ne _ _ (by decide),
      lookup_put_of_ne _ _ (by decide), lookup_put_self, toStringInt64, hnew]
    rfl
  · show a.balance - weapon.price.toInt.toNat < 2 ^ 63
    omega
  · rw [storedInt32_put_of_ne (by decide), storedInt32_put_of_ne (by decide)]
    exact storedInt32_of_lookup (lookup_put_self _ _ _)
  · rw [storedInt32_of_lookup (lookup_put_self _ _ _), hfive]
    show 5 * weapon.magazineSize.toInt = ((5 * weapon.magazineSize.toInt).toNat : ℤ)
    omega

/-- **The write of a shot.** -/
theorem Holds.shot (h : Holds B record a) (hweapon : storedInt32 record (ascii "weapon") ≠ 0)
    (hammo : ¬ storedInt32 record (ascii "ammo") ≤ 0) :
    ∃ a', a.fire = some a' ∧ Holds B (put ρ record (ascii "ammo")
      (toStringInt32 (storedInt32 record (ascii "ammo") - 1))) a' := by
  have hstored := h.ammo
  have hpos : 0 < a.ammo := by
    have hzero : (0 : Int32).toInt = 0 := rfl
    rw [Int32.not_le, Int32.lt_iff_toInt_lt, hstored, hzero] at hammo
    exact_mod_cast hammo
  have hlt := (storedInt32 record (ascii "ammo")).toInt_lt
  have hnew : (storedInt32 record (ascii "ammo") - 1).toInt = ((a.ammo - 1 : ℕ) : ℤ) := by
    have hone : (1 : Int32).toInt = 1 := rfl
    rw [Int32.toInt_sub, hstored, hone, Int.bmod_eq_of_le] <;> omega
  refine ⟨{ a with ammo := a.ammo - 1 }, ?_, ?_⟩
  · unfold Account.fire
    refine if_neg (not_or.mpr ⟨?_, hpos.ne'⟩)
    rwa [← h.weapon]
  constructor
  · exact h.readable.put rfl (converts_ammo _)
  · rw [lookup_put_of_ne _ _ (by decide)]
    exact h.balance
  · exact h.balance_lt
  · rw [storedInt32_put_of_ne (by decide)]
    exact h.weapon
  · rw [storedInt32_of_lookup (lookup_put_self _ _ _)]
    exact hnew

omit [RedisState ρ] in
/-- The balance of an account can be converted. -/
theorem Holds.converts_balance (h : Holds B record a) {value : Bytes}
    (hlook : record.lookup (ascii "balance") = some value) : ∃ b, stoll (cstr value) = .ok b := by
  rw [h.balance] at hlook
  cases hlook
  exact ⟨_, h.stoll_balance⟩

end record

/-! ## The handlers on a healthy server -/

variable [RedisState ρ]

/-- The user has a weapon and a round, as `ConsumeLobbyAmmo` sees it. -/
def Loaded (rc : RedisClient ρ) (user : Bytes) : Prop :=
  storedInt32 (rc.record user) (ascii "weapon") ≠ 0 ∧
    ¬ storedInt32 (rc.record user) (ascii "ammo") ≤ 0

section handlers

variable {B} [RedisLaws B] {rc : RedisClient ρ} {user : Bytes}

/-- A shot without a weapon or a round is refused. -/
theorem consumeLobbyAmmo_of_not_loaded (h : rc.Healthy)
    (hread : Readable B (rc.record user)) (hloaded : ¬ Loaded rc user) :
    (rc.consumeLobbyAmmo B user).1 = .ok (false, 0) ∧
      (rc.consumeLobbyAmmo B user).2.Leaves rc.store := by
  obtain ⟨info, hinfo, hweapon, hammo⟩ := hread.readFields B user
  obtain ⟨hreturn, hleaves⟩ := rc.getPlayerInfo_healthy B h user
  rw [hinfo] at hreturn
  unfold RedisClient.consumeLobbyAmmo
  rw [if_neg (not_not.mpr h.connected)]
  generalize rc.getPlayerInfo B user = out at hreturn hleaves
  obtain ⟨e, rc'⟩ := out
  obtain rfl : e = .ok (true, info) := hreturn
  unfold Loaded at hloaded
  rw [← hweapon, ← hammo, not_and_or, not_not, not_not] at hloaded
  dsimp only
  by_cases hzero : info.weapon = 0
  · rw [if_pos hzero]
    exact ⟨rfl, hleaves⟩
  · rw [if_neg hzero, if_pos (hloaded.resolve_left hzero)]
    exact ⟨rfl, hleaves⟩

/-- A shot takes one round. -/
theorem consumeLobbyAmmo_of_loaded (h : rc.Healthy)
    (hread : Readable B (rc.record user)) (hloaded : Loaded rc user) :
    (rc.consumeLobbyAmmo B user).1 =
        .ok (true, storedInt32 (rc.record user) (ascii "ammo") - 1) ∧
      (rc.consumeLobbyAmmo B user).2.Leaves
        (Function.update rc.store (userKey user) (put ρ (rc.record user) (ascii "ammo")
          (toStringInt32 (storedInt32 (rc.record user) (ascii "ammo") - 1)))) := by
  obtain ⟨info, hinfo, hweapon, hammo⟩ := hread.readFields B user
  obtain ⟨hreturn, hleaves⟩ := rc.getPlayerInfo_healthy B h user
  rw [hinfo] at hreturn
  unfold RedisClient.consumeLobbyAmmo
  rw [if_neg (not_not.mpr h.connected)]
  generalize rc.getPlayerInfo B user = out at hreturn hleaves
  obtain ⟨e, rc'⟩ := out
  obtain rfl : e = .ok (true, info) := hreturn
  obtain ⟨hset, hwritten⟩ := RedisClient.setAmmo_healthy B hleaves.healthy user (info.ammo - 1)
  unfold Loaded at hloaded
  rw [← hweapon, ← hammo] at hloaded
  dsimp only
  rw [if_neg hloaded.1, if_neg hloaded.2, ← hammo]
  generalize rc'.setAmmo B user (info.ammo - 1) = out at hset hwritten
  obtain ⟨stored, rc''⟩ := out
  obtain rfl : stored = true := hset
  rw [RedisClient.record, hleaves.store_eq] at hwritten
  exact ⟨rfl, hwritten⟩

/-- **A purchase on a healthy server.** It is refused and changes nothing, or is granted and stored. -/
theorem buyWeapon_healthy (h : rc.Healthy) (ctx : UdpClientContext) (weaponType : Int32)
    (reads : List Span)
    (hconverts : ∀ value, (rc.record user).lookup (ascii "balance") = some value →
      ∃ b, stoll (cstr value) = .ok b) :
    let out := buyWeapon B ctx rc user weaponType reads
    ((∀ weapon balance, ¬ ReachesStore rc user weaponType weapon balance) ∧
      (∃ b, purchaseAnswers out.requests = [(false, b)]) ∧ out.redis.Leaves rc.store) ∨
    ∃ weapon balance, ReachesStore rc user weaponType weapon balance ∧
      (∃ b, purchaseAnswers out.requests = [(true, b)]) ∧
      out.redis.Leaves (Function.update rc.store (userKey user)
        (RedisState.putAll ρ (rc.record user) (RedisClient.purchaseFields
          (balance - weapon.price) weaponType (weapon.magazineSize * 5) 0))) := by
  obtain ⟨hreturn, hleaves⟩ := RedisClient.getBalance_healthy B h user
  have hread := RedisClient.getBalance_eq_ok_iff B rc user
  dsimp only
  unfold buyWeapon
  dsimp only
  rcases hweapon : findWeapon weaponType with _ | weapon
  · left
    refine ⟨fun weapon balance hreach => ?_, ⟨0, rfl⟩, h, rfl⟩
    cases hweapon.symm.trans hreach.weapon_eq
  dsimp only
  generalize rc.getBalance B user = out at hreturn hleaves hread
  obtain ⟨e, rc₁⟩ := out
  obtain rfl : e = _ := hreturn
  rcases hlook : (rc.record user).lookup (ascii "balance") with _ | value
  · left
    simp only [hlook] at hread ⊢
    refine ⟨fun weapon balance hreach => ?_, ⟨0, rfl⟩, hleaves⟩
    cases (hread balance).mpr hreach.balance_eq
  obtain ⟨balance, hbalance⟩ := hconverts value hlook
  simp only [hlook, hbalance, Except.map] at hread ⊢
  have hrd : BalanceRead rc user balance := (hread balance).mp rfl
  by_cases hprice : balance < weapon.price
  · left
    rw [if_pos hprice]
    refine ⟨fun weapon' balance' hreach => ?_, ⟨balance, rfl⟩, hleaves⟩
    cases hweapon.symm.trans hreach.weapon_eq
    cases (hread balance').mpr hreach.balance_eq
    exact hreach.price_le hprice
  right
  refine ⟨weapon, balance, ⟨hweapon, hrd, hprice⟩, ?_⟩
  rw [if_neg hprice]
  obtain ⟨hok, hwritten⟩ := RedisClient.purchaseWeapon_healthy B hleaves.healthy user
    (balance - weapon.price) weaponType (weapon.magazineSize * 5)
  generalize rc₁.purchaseWeapon B user (balance - weapon.price) weaponType
    (weapon.magazineSize * 5) = out at hok hwritten
  obtain ⟨stored, rc₂⟩ := out
  obtain rfl : stored = true := hok
  have hstore : rc₁.store = rc.store := hleaves.store_eq
  have hrecord : rc₁.record user = rc.record user := congrFun hstore _
  dsimp only at hwritten
  rw [hrecord, hstore] at hwritten
  obtain ⟨-, hinfo⟩ := RedisClient.getPlayerInfo_healthy B hwritten.healthy user
  rw [hwritten.store_eq] at hinfo
  dsimp only
  generalize rc₂.getPlayerInfo B user = out at hinfo
  obtain ⟨e | ⟨found, info⟩, rc₃⟩ := out
  · exact ⟨⟨_, rfl⟩, hinfo⟩
  · cases found <;> exact ⟨⟨_, rfl⟩, hinfo⟩

end handlers

end CowboyPoker.GameServer
