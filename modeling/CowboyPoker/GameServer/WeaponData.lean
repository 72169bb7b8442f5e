import Mathlib.Data.List.Basic

/-!
# The weapon table

* `getWeaponTable` — the fixed list of weapons for sale; of a `WeaponInfo` the server reads the
  price and the magazine size.
* `findWeapon` — the lookup by weapon type; `findWeapon_price_pos` bounds every price.
-/

namespace CowboyPoker.GameServer

/-- What the server reads of a weapon.
Source: `GameServer/WeaponData.h`, `WeaponInfo` -/
structure WeaponInfo where
  /-- `price`. -/
  price : Int64
  /-- `magazineSize`. -/
  magazineSize : Int32
  deriving DecidableEq, Repr

/-- Weapon type to weapon.
Source: `GameServer/WeaponData.h`, `GetWeaponTable` -/
def getWeaponTable : List (Int32 × WeaponInfo) :=
  [(4, ⟨500, 6⟩), (5, ⟨5000, 6⟩), (1, ⟨10000, 8⟩), (2, ⟨300, 2⟩), (3, ⟨3000, 2⟩)]

/-- The weapon of a type, if there is one.
Source: `GameServer/WeaponData.h`, `FindWeapon` -/
def findWeapon (weaponType : Int32) : Option WeaponInfo := getWeaponTable.lookup weaponType

/-- A lookup that succeeds found an entry of the table. -/
theorem mem_getWeaponTable_of_findWeapon {weaponType : Int32} {weapon : WeaponInfo}
    (h : findWeapon weaponType = some weapon) : (weaponType, weapon) ∈ getWeaponTable := by
  obtain ⟨pre, post, htable, -⟩ := List.lookup_eq_some_iff.mp h
  rw [htable]
  exact List.mem_append_right _ List.mem_cons_self

/-- Every weapon costs something, and no more than the dearest. -/
theorem findWeapon_price_pos {weaponType : Int32} {weapon : WeaponInfo}
    (h : findWeapon weaponType = some weapon) :
    0 < weapon.price.toInt ∧ weapon.price.toInt ≤ 10000 := by
  have hall : ∀ e ∈ getWeaponTable, 0 < e.2.price.toInt ∧ e.2.price.toInt ≤ 10000 := by decide
  exact hall _ (mem_getWeaponTable_of_findWeapon h)

/-- Every weapon has a magazine, and five of them fit an `int32`. -/
theorem findWeapon_magazineSize_pos {weaponType : Int32} {weapon : WeaponInfo}
    (h : findWeapon weaponType = some weapon) :
    0 < weapon.magazineSize.toInt ∧
      (weapon.magazineSize * 5).toInt = 5 * weapon.magazineSize.toInt := by
  have hall : ∀ e ∈ getWeaponTable, 0 < e.2.magazineSize.toInt ∧
      (e.2.magazineSize * 5).toInt = 5 * e.2.magazineSize.toInt := by decide
  exact hall _ (mem_getWeaponTable_of_findWeapon h)

end CowboyPoker.GameServer
