import Aixinwu.Lib.Table
import Mathlib.Data.Finset.Union
import Mathlib.Data.Fintype.Defs

/-!
# Users, groups and permissions

A user has the permissions given to him directly and those of the groups he is in; a superuser has
all of them. `effective_permissions` says which these are, `has_perm` and `get_all_permissions` ask
in addition that the user is active. Groups also decide on channels: one whose access is restricted
gives its own channels, any other gives all.

A user row has the ids of his groups. The permissions are those of `PERMISSIONS_ENUMS`; rows of other
permissions, which no mutation can hand out, are left out, and so are the permissions that a token may
carry in place of its user's.

## Main definitions

* `Db`, `effectivePermissions`, `hasPerm`, `getAllPermissions`
* `accessibleChannelsOfGroup`, `accessibleChannels`
-/

namespace Aixinwu

namespace Permissions

/-- The members of the permission enumerations. -/
inductive Permission where
  | manageUsers | manageStaff | impersonateUser | readUsers
  | manageApps | manageObservability
  | manageCheckouts | handleCheckouts | handleTaxes | manageTaxes
  | manageChannels
  | manageDiscounts
  | manageGiftCard
  | manageMenus
  | manageOrders | manageOrdersImport
  | managePages | managePageTypesAndAttributes
  | handlePayments
  | managePlugins
  | manageProducts | manageProductTypesAndAttributes
  | manageShipping
  | manageSettings | manageTranslations
  | addDonations | manageDonations
  | manageBarcode
deriving DecidableEq, Repr

/-- `PERMISSIONS_ENUMS`. -/
def permissionsEnums : Finset Permission :=
  {.manageUsers, .manageStaff, .impersonateUser, .readUsers, .manageApps, .manageObservability,
    .manageCheckouts, .handleCheckouts, .handleTaxes, .manageTaxes, .manageChannels,
    .manageDiscounts, .manageGiftCard, .manageMenus, .manageOrders, .manageOrdersImport,
    .managePages, .managePageTypesAndAttributes, .handlePayments, .managePlugins, .manageProducts,
    .manageProductTypesAndAttributes, .manageShipping, .manageSettings, .manageTranslations,
    .addDonations, .manageDonations, .manageBarcode}

instance : Fintype Permission := ⟨permissionsEnums, fun perm => by cases perm <;> decide⟩

/-- A user. -/
structure User where
  id : ℕ
  isActive : Bool := true
  isStaff : Bool := false
  isSuperuser : Bool := false
  userPermissions : Finset Permission := ∅
  groups : Finset ℕ := ∅
deriving DecidableEq

/-- A permission group. -/
structure Group where
  id : ℕ
  permissions : Finset Permission := ∅
  restrictedAccessToChannels : Bool := false
  channels : Finset ℕ := ∅
deriving DecidableEq

instance : HasPk User ℕ := ⟨User.id⟩

instance : HasPk Group ℕ := ⟨Group.id⟩

/-- The tables: users, groups, and the ids of the channels. -/
structure Db where
  users : Table User
  groups : Table Group
  channels : Finset ℕ

/-- A permission that a user has through a group. -/
def GroupPermission (db : Db) (user : User) (perm : Permission) : Prop :=
  ∃ group ∈ db.groups.rows, group.id ∈ user.groups ∧ perm ∈ group.permissions

instance (db : Db) (user : User) (perm : Permission) : Decidable (GroupPermission db user perm) :=
  inferInstanceAs (Decidable (∃ _ ∈ _, _))

/-- `User.effective_permissions`. -/
def effectivePermissions (db : Db) (user : User) : Finset Permission :=
  Finset.univ.filter fun perm =>
    user.isSuperuser ∨ perm ∈ user.userPermissions ∨ GroupPermission db user perm

/-- `User.has_perm`. -/
def hasPerm (db : Db) (user : User) (perm : Permission) : Bool :=
  user.isActive && decide (perm ∈ effectivePermissions db user)

/-- `User.get_all_permissions`. -/
def getAllPermissions (db : Db) (user : User) : Finset Permission :=
  if user.isActive then effectivePermissions db user else ∅

/-- `User.has_perms`. -/
def hasPerms (db : Db) (user : User) (perms : Finset Permission) : Bool :=
  decide (∀ perm ∈ perms, hasPerm db user perm = true)

/-- `AccessibleChannelsByGroupIdLoader`; the channels of a group are looked up among all. -/
def accessibleChannelsOfGroup (db : Db) (group : Group) : Finset ℕ :=
  if group.restrictedAccessToChannels then group.channels ∩ db.channels else db.channels

/-- `AccessibleChannelsByUserIdLoader`. -/
def accessibleChannels (db : Db) (user : User) : Finset ℕ :=
  db.groups.rows.toFinset.biUnion fun group =>
    if group.id ∈ user.groups then accessibleChannelsOfGroup db group else ∅

variable {db : Db} {user : User} {perm : Permission}

theorem mem_effectivePermissions : perm ∈ effectivePermissions db user ↔
    user.isSuperuser = true ∨ perm ∈ user.userPermissions ∨ GroupPermission db user perm := by
  simp [effectivePermissions]

theorem hasPerm_iff :
    hasPerm db user perm = true ↔ user.isActive = true ∧ perm ∈ effectivePermissions db user := by
  simp [hasPerm]

theorem mem_getAllPermissions :
    perm ∈ getAllPermissions db user ↔ hasPerm db user perm = true := by
  rw [getAllPermissions, hasPerm_iff]
  split <;> simp [*]

theorem hasPerms_iff {perms : Finset Permission} :
    hasPerms db user perms = true ↔ ∀ perm ∈ perms, hasPerm db user perm = true := by
  simp [hasPerms]

theorem mem_accessibleChannels {channel : ℕ} : channel ∈ accessibleChannels db user ↔
    ∃ group ∈ db.groups.rows, group.id ∈ user.groups ∧
      channel ∈ accessibleChannelsOfGroup db group := by
  rw [accessibleChannels, Finset.mem_biUnion]
  constructor
  · rintro ⟨group, hgroup, hchannel⟩
    split at hchannel
    · rename_i hmember
      exact ⟨group, List.mem_toFinset.mp hgroup, hmember, hchannel⟩
    · cases hchannel
  · rintro ⟨group, hgroup, hmember, hchannel⟩
    refine ⟨group, List.mem_toFinset.mpr hgroup, ?_⟩
    rw [if_pos hmember]
    exact hchannel

end Permissions

end Aixinwu
