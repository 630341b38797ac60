import Aixinwu.Lib.Runs
import Aixinwu.Permission.Models
import Mathlib.Data.Finset.Image
import Mathlib.Data.Finset.Union

/-!
# Tokens for apps

A user can have a token made that an app then uses in his place. The token names the permissions
that both of them have; when a request comes with it, these take the place of the user's own
(`effective_permissions` is assigned), and every later check reads them, through two caches.

The check has a shortcut for superusers, and it is taken when nothing has been assigned *or what was
assigned is empty*. So a token of a superuser for an app with no permissions permits everything.
**`delegated_iff`**: a token permits only what both had when it was made unless it is that token.

The caches never disagree with the permissions they are made from, and do not matter.

## What is deliberately absent

Signing and expiry: a token is its payload. Permissions of the database are those of the
enumerations; an enumeration member's value is `app_label.codename`, and `split(".")[1]` is its
codename.

## Main definitions

* `UserInstance`, `UserInstance.hasPerm` — an instance with its caches, and the check
* `createAccessTokenForApp`, `createAccessTokenForAppExtension`, `loadUserFromRequest`
* `Check`, `afterChecks` — what a request asks of its user

## Main results

* `hasPerm_afterChecks`
* `delegated_iff`
-/

namespace Aixinwu

namespace Permissions

/-! ### `permission/enums.py` -/

/-- The name of an enumeration member. -/
def Permission.name : Permission → String
  | .manageUsers => "MANAGE_USERS"
  | .manageStaff => "MANAGE_STAFF"
  | .impersonateUser => "IMPERSONATE_USER"
  | .readUsers => "READ_USERS"
  | .manageApps => "MANAGE_APPS"
  | .manageObservability => "MANAGE_OBSERVABILITY"
  | .manageCheckouts => "MANAGE_CHECKOUTS"
  | .handleCheckouts => "HANDLE_CHECKOUTS"
  | .handleTaxes => "HANDLE_TAXES"
  | .manageTaxes => "MANAGE_TAXES"
  | .manageChannels => "MANAGE_CHANNELS"
  | .manageDiscounts => "MANAGE_DISCOUNTS"
  | .manageGiftCard => "MANAGE_GIFT_CARD"
  | .manageMenus => "MANAGE_MENUS"
  | .manageOrders => "MANAGE_ORDERS"
  | .manageOrdersImport => "MANAGE_ORDERS_IMPORT"
  | .managePages => "MANAGE_PAGES"
  | .managePageTypesAndAttributes => "MANAGE_PAGE_TYPES_AND_ATTRIBUTES"
  | .handlePayments => "HANDLE_PAYMENTS"
  | .managePlugins => "MANAGE_PLUGINS"
  | .manageProducts => "MANAGE_PRODUCTS"
  | .manageProductTypesAndAttributes => "MANAGE_PRODUCT_TYPES_AND_ATTRIBUTES"
  | .manageShipping => "MANAGE_SHIPPING"
  | .manageSettings => "MANAGE_SETTINGS"
  | .manageTranslations => "MANAGE_TRANSLATIONS"
  | .addDonations => "ADD_DONATIONS"
  | .manageDonations => "MANAGE_DONATIONS"
  | .manageBarcode => "MANAGE_BARCODE"

/-- The app label and the codename, the two halves of a member's value. -/
def Permission.parts : Permission → String × String
  | .manageUsers => ("account", "manage_users")
  | .manageStaff => ("account", "manage_staff")
  | .impersonateUser => ("account", "impersonate_user")
  | .readUsers => ("account", "read_users")
  | .manageApps => ("app", "manage_apps")
  | .manageObservability => ("app", "manage_observability")
  | .manageCheckouts => ("checkout", "manage_checkouts")
  | .handleCheckouts => ("checkout", "handle_checkouts")
  | .handleTaxes => ("checkout", "handle_taxes")
  | .manageTaxes => ("checkout", "manage_taxes")
  | .manageChannels => ("channel", "manage_channels")
  | .manageDiscounts => ("discount", "manage_discounts")
  | .manageGiftCard => ("giftcard", "manage_gift_card")
  | .manageMenus => ("menu", "manage_menus")
  | .manageOrders => ("order", "manage_orders")
  | .manageOrdersImport => ("order", "manage_orders_import")
  | .managePages => ("page", "manage_pages")
  | .managePageTypesAndAttributes => ("page", "manage_page_types_and_attributes")
  | .handlePayments => ("payment", "handle_payments")
  | .managePlugins => ("plugins", "manage_plugins")
  | .manageProducts => ("product", "manage_products")
  | .manageProductTypesAndAttributes => ("product", "manage_product_types_and_attributes")
  | .manageShipping => ("shipping", "manage_shipping")
  | .manageSettings => ("site", "manage_settings")
  | .manageTranslations => ("site", "manage_translations")
  | .addDonations => ("donation", "add_donations")
  | .manageDonations => ("donation", "manage_donations")
  | .manageBarcode => ("barcode", "manage_barcodes")

/-- `perm.codename`. -/
def Permission.codename (perm : Permission) : String := perm.parts.2

/-- `f"{app_label}.{codename}"`, the value of the member. -/
def Permission.value (perm : Permission) : String := perm.parts.1 ++ "." ++ perm.parts.2

/-- `get_permissions_from_codenames`. -/
def getPermissionsFromCodenames (codenames : Finset String) : Finset Permission :=
  Finset.univ.filter (·.codename ∈ codenames)

/-- `get_permissions_from_names`; a name that no member has raises `KeyError`. -/
def getPermissionsFromNames (names : Finset String) : Option (Finset Permission) :=
  if ∀ name ∈ names, name ∈ Finset.univ.image Permission.name then
    some (getPermissionsFromCodenames
      ((permissionsEnums.filter (·.name ∈ names)).image Permission.codename))
  else none

/-- `get_permission_names`. -/
def getPermissionNames (permissions : Finset Permission) : Finset String :=
  permissions.biUnion fun perm =>
    (permissionsEnums.filter fun enum => perm.codename = enum.codename).image Permission.name

theorem codename_injective : Function.Injective Permission.codename := by
  decide

theorem name_injective : Function.Injective Permission.name := by
  decide

/-- Names stand for permissions, one for one. -/
theorem mem_getPermissionNames {permissions : Finset Permission} {name : String} :
    name ∈ getPermissionNames permissions ↔ ∃ perm ∈ permissions, perm.name = name := by
  simp only [getPermissionNames, Finset.mem_biUnion, Finset.mem_image, Finset.mem_filter]
  constructor
  · rintro ⟨perm, hperm, enum, ⟨-, hcodename⟩, rfl⟩
    rw [← codename_injective hcodename]
    exact ⟨perm, hperm, rfl⟩
  · rintro ⟨perm, hperm, rfl⟩
    exact ⟨perm, hperm, perm, ⟨Finset.mem_univ perm, rfl⟩, rfl⟩

/-- Reading names back gives the permissions that both sides had. -/
theorem getPermissionsFromNames_inter (s t : Finset Permission) :
    getPermissionsFromNames (getPermissionNames s ∩ getPermissionNames t) = some (s ∩ t) := by
  have hinter : getPermissionNames s ∩ getPermissionNames t = (s ∩ t).image Permission.name := by
    ext name
    simp only [Finset.mem_inter, mem_getPermissionNames, Finset.mem_image]
    constructor
    · rintro ⟨⟨perm, hs, rfl⟩, perm', ht, hname⟩
      rw [name_injective hname] at ht
      exact ⟨perm, ⟨hs, ht⟩, rfl⟩
    · rintro ⟨perm, ⟨hs, ht⟩, rfl⟩
      exact ⟨⟨perm, hs, rfl⟩, perm, ht, rfl⟩
  rw [hinter, getPermissionsFromNames, if_pos]
  · congr 1
    ext perm
    simp only [getPermissionsFromCodenames, Finset.mem_filter, Finset.mem_univ, true_and,
      Finset.mem_image]
    constructor
    · rintro ⟨perm', ⟨-, perm'', hmem, hname⟩, hcodename⟩
      rw [← codename_injective hcodename, ← name_injective hname]
      exact hmem
    · intro hmem
      exact ⟨perm, ⟨Finset.mem_univ perm, perm, hmem, rfl⟩, rfl⟩
  · intro name hname
    exact Finset.image_subset_image (Finset.subset_univ _) hname

/-! ### The user of a request -/

/-- The columns of a user that only authentication reads, by user id. -/
structure AuthDb extends Db where
  email : ℕ → String
  jwtTokenKey : ℕ → String

/-- A `User` instance: the row it was read from, `is_staff` as it has been assigned, and the three
attributes `_effective_permissions`, `_effective_permissions_cache` and `_perm_cache`. -/
structure UserInstance where
  user : User
  isStaff : Bool
  effectivePermissions : Option (Finset Permission) := none
  effectivePermissionsCache : Option (Finset String) := none
  permCache : Option (Finset String) := none

/-- The instance that reading a row gives. -/
def UserInstance.ofRow (user : User) : UserInstance := { user, isStaff := user.isStaff }

/-- `user.effective_permissions`. -/
def UserInstance.getEffectivePermissions (db : Db) (u : UserInstance) :
    Finset Permission × UserInstance :=
  match u.effectivePermissions with
  | some permissions => (permissions, u)
  | none =>
    let permissions := Permissions.effectivePermissions db u.user
    (permissions, { u with effectivePermissions := some permissions })

/-- `user.effective_permissions = permissions`. -/
def UserInstance.setEffectivePermissions (u : UserInstance) (permissions : Finset Permission) :
    UserInstance :=
  { u with effectivePermissions := some permissions, effectivePermissionsCache := none }

/-- The values of permissions, `f"{ct}.{name}"`. -/
def values (permissions : Finset Permission) : Finset String := permissions.image Permission.value

/-- `JSONWebTokenBackend._get_permissions`, from users and from groups alike. -/
def UserInstance.backendGetPermissions (db : Db) (u : UserInstance) : Finset String × UserInstance :=
  if u.user.isActive then
    if u.effectivePermissionsCache.getD ∅ = ∅ then
      let (permissions, u) := u.getEffectivePermissions db
      (values permissions, { u with effectivePermissionsCache := some (values permissions) })
    else (u.effectivePermissionsCache.getD ∅, u)
  else (∅, u)

/-- `JSONWebTokenBackend.get_all_permissions`. -/
def UserInstance.backendGetAllPermissions (db : Db) (u : UserInstance) :
    Finset String × UserInstance :=
  if u.user.isActive then
    match u.permCache with
    | some permissions => (permissions, u)
    | none =>
      let (ofUser, u) := u.backendGetPermissions db
      let (ofGroups, u) := u.backendGetPermissions db
      (ofUser ∪ ofGroups, { u with permCache := some (ofUser ∪ ofGroups) })
  else (∅, u)

/-- `JSONWebTokenBackend.has_perm`. -/
def UserInstance.backendHasPerm (db : Db) (u : UserInstance) (perm : String) : Bool × UserInstance :=
  if u.user.isActive then
    let (permissions, u) := u.backendGetAllPermissions db
    (decide (perm ∈ permissions), u)
  else (false, u)

/-- `User.has_perm`. There are two backends; the second inherits the check of the first. -/
def UserInstance.hasPerm (db : Db) (u : UserInstance) (perm : String) : Bool × UserInstance :=
  if u.user.isActive ∧ u.user.isSuperuser ∧ u.effectivePermissions.getD ∅ = ∅ then (true, u)
  else
    let (first, u) := u.backendHasPerm db perm
    if first then (true, u) else u.backendHasPerm db perm

/-- What a request asks of its user. -/
inductive Check where
  | hasPerm (perm : String)
  | getUserPermissions
  | getGroupPermissions
  | getAllPermissions
  | effectivePermissions
deriving DecidableEq, Repr

/-- The instance after it has been asked. -/
def check (db : Db) (u : UserInstance) : Check → UserInstance
  | .hasPerm perm => (u.hasPerm db perm).2
  | .getUserPermissions => (u.backendGetPermissions db).2
  | .getGroupPermissions => (u.backendGetPermissions db).2
  | .getAllPermissions => (u.backendGetAllPermissions db).2
  | .effectivePermissions => (u.getEffectivePermissions db).2

/-- The instance after some checks. -/
def afterChecks (db : Db) (u : UserInstance) (checks : List Check) : UserInstance :=
  Runs.run (check db) u checks

/-! ### `core/jwt.py` and `core/auth_backend.py` -/

/-- `JWT_ACCESS_TYPE`, `JWT_REFRESH_TYPE`, `JWT_THIRDPARTY_ACCESS_TYPE`. -/
inductive TokenType where
  | access
  | refresh
  | thirdparty
deriving DecidableEq, Repr

/-- The payload of a token. `permissions` is a list in no particular order, and may be missing. -/
structure Payload where
  owner : String
  type : TokenType
  token : String
  email : String
  userId : ℕ
  isStaff : Bool
  permissions : Option (Finset String) := none
  userPermissions : Option (Finset String) := none
  app : Option ℕ := none
  appExtension : Option ℕ := none
  aud : Option String := none

/-- An app. -/
structure App where
  id : ℕ
  permissions : Finset Permission
  audience : Option String := none

/-- An app extension. -/
structure AppExtension where
  id : ℕ
  permissions : Finset Permission

/-- `jwt_user_payload`, without additional fields. -/
def jwtUserPayload (db : AuthDb) (u : UserInstance) (type : TokenType) : Payload where
  owner := "saleor"
  type := type
  token := db.jwtTokenKey u.user.id
  email := db.email u.user.id
  userId := u.user.id
  isStaff := u.isStaff

/-- `create_access_token`, without an additional payload. -/
def createAccessToken (db : AuthDb) (u : UserInstance) : Payload := jwtUserPayload db u .access

/-- `_create_access_token_for_third_party_actions`. -/
def createAccessTokenForThirdPartyActions (db : AuthDb) (permissions : Finset Permission)
    (u : UserInstance) (app : App) (appExtension : Option ℕ) : Payload :=
  let appPermissionEnums := getPermissionNames permissions
  let userPermissionEnums := getPermissionNames (u.getEffectivePermissions db.toDb).1
  { jwtUserPayload db u .thirdparty with
    permissions := some (appPermissionEnums ∩ userPermissionEnums)
    userPermissions := some userPermissionEnums
    app := some app.id
    appExtension
    aud := app.audience }

/-- `create_access_token_for_app`. -/
def createAccessTokenForApp (db : AuthDb) (app : App) (u : UserInstance) : Payload :=
  createAccessTokenForThirdPartyActions db app.permissions u app none

/-- `create_access_token_for_app_extension`. -/
def createAccessTokenForAppExtension (db : AuthDb) (extension : AppExtension)
    (permissions : Finset Permission) (u : UserInstance) (app : App) : Payload :=
  createAccessTokenForThirdPartyActions db permissions u app (some extension.id)

/-- Why a token is refused. -/
inductive TokenError where
  | invalidToken (message : String)
  | keyError
deriving DecidableEq, Repr

/-- `UserByEmailLoader`. -/
def userByEmail (db : AuthDb) (email : String) : Option User :=
  db.users.rows.find? fun user => user.isActive && db.email user.id == email

/-- `load_user_from_request`, of a request with a token; `none` if it is another owner's. -/
def loadUserFromRequest (db : AuthDb) (payload : Payload) : Except TokenError (Option UserInstance) :=
  if payload.owner ≠ "saleor" then .ok none
  else if payload.type ≠ .access ∧ payload.type ≠ .thirdparty then
    .error (.invalidToken "Invalid token. Create new one by using tokenCreate mutation.")
  else if payload.token = "" then
    .error (.invalidToken "Invalid token. Create new one by using tokenCreate mutation.")
  else match userByEmail db payload.email with
    | none => .error (.invalidToken "Invalid token. User does not exist or is inactive.")
    | some user =>
      if db.jwtTokenKey user.id ≠ payload.token then
        .error (.invalidToken "Invalid token. Create new one by using tokenCreate mutation.")
      else
        let u := UserInstance.ofRow user
        match payload.permissions with
        | none => .ok (some { u with isStaff := u.isStaff || payload.isStaff })
        | some names => match getPermissionsFromNames names with
          | none => .error .keyError
          | some permissions =>
            let effective := getPermissionsFromCodenames (permissions.image Permission.codename)
            let u := u.setEffectivePermissions effective
            .ok (some { u with isStaff := decide (effective ≠ ∅) || payload.isStaff })

/-! ### The caches -/

/-- The instance answers from the permissions `T`: they have been assigned, or are what the row has;
the caches hold their values. -/
structure Answers (db : Db) (user : User) (assigned : Bool) (T : Finset Permission)
    (u : UserInstance) : Prop where
  user_eq : u.user = user
  effective : u.effectivePermissions = some T ∨
    assigned = false ∧ u.effectivePermissions = none ∧ effectivePermissions db user = T
  cache : ∀ c, u.effectivePermissionsCache = some c → c = values T
  permCache : ∀ c, u.permCache = some c → c = values T

variable {assigned : Bool} {T : Finset Permission} {u : UserInstance}

theorem Answers.getEffectivePermissions (h : Answers db user assigned T u) :
    (u.getEffectivePermissions db).1 = T ∧
      Answers db user assigned T (u.getEffectivePermissions db).2 := by
  rw [UserInstance.getEffectivePermissions]
  rcases h.effective with heff | ⟨-, heff, hrow⟩
  · rw [heff]
    exact ⟨rfl, h⟩
  · rw [heff]
    have hT : Permissions.effectivePermissions db u.user = T := h.user_eq ▸ hrow
    exact ⟨hT, h.user_eq, Or.inl (congrArg some hT), h.cache, h.permCache⟩

theorem Answers.backendGetPermissions (h : Answers db user assigned T u) :
    (u.backendGetPermissions db).1 = (if user.isActive then values T else ∅) ∧
      Answers db user assigned T (u.backendGetPermissions db).2 := by
  rw [UserInstance.backendGetPermissions, h.user_eq]
  split
  · split
    · obtain ⟨hT, hu⟩ := h.getEffectivePermissions
      refine ⟨congrArg values hT, hu.user_eq, hu.effective, ?_, hu.permCache⟩
      rintro c hc
      rw [← Option.some.inj hc, hT]
    · rename_i hcache
      cases hc : u.effectivePermissionsCache with
      | none => simp [hc] at hcache
      | some c => exact ⟨h.cache c hc, h⟩
  · exact ⟨rfl, h⟩

theorem Answers.backendGetAllPermissions (h : Answers db user assigned T u) :
    (u.backendGetAllPermissions db).1 = (if user.isActive then values T else ∅) ∧
      Answers db user assigned T (u.backendGetAllPermissions db).2 := by
  rw [UserInstance.backendGetAllPermissions, h.user_eq]
  split
  · rename_i hactive
    split
    · rename_i c hc
      exact ⟨h.permCache c hc, h⟩
    · obtain ⟨hfirst, hu⟩ := h.backendGetPermissions
      obtain ⟨hsecond, hu'⟩ := hu.backendGetPermissions
      rw [if_pos hactive] at hfirst hsecond
      have hunion : (u.backendGetPermissions db).1 ∪
          ((u.backendGetPermissions db).2.backendGetPermissions db).1 = values T := by
        rw [hfirst, hsecond, Finset.union_self]
      refine ⟨hunion, hu'.user_eq, hu'.effective, hu'.cache, ?_⟩
      rintro c hc
      rw [← Option.some.inj hc]
      exact hunion
  · exact ⟨rfl, h⟩

theorem Answers.backendHasPerm (h : Answers db user assigned T u) (p : String) :
    (u.backendHasPerm db p).1 = decide (user.isActive ∧ p ∈ values T) ∧
      Answers db user assigned T (u.backendHasPerm db p).2 := by
  rw [UserInstance.backendHasPerm, h.user_eq]
  split
  · rename_i hactive
    obtain ⟨hall, hu⟩ := h.backendGetAllPermissions
    rw [if_pos hactive] at hall
    refine ⟨?_, hu⟩
    show decide (p ∈ (u.backendGetAllPermissions db).1) = _
    rw [hall]
    simp [hactive]
  · rename_i hactive
    exact ⟨by simp [hactive], h⟩

/-- **One check.** The shortcut, or membership. -/
theorem Answers.hasPerm (h : Answers db user assigned T u) (p : String) :
    ((u.hasPerm db p).1 = true ↔ user.isActive ∧
      (user.isSuperuser ∧ u.effectivePermissions.getD ∅ = ∅ ∨ p ∈ values T)) ∧
      Answers db user assigned T (u.hasPerm db p).2 := by
  rw [UserInstance.hasPerm, h.user_eq]
  split
  · rename_i hshort
    exact ⟨iff_of_true rfl ⟨hshort.1, Or.inl hshort.2⟩, h⟩
  · rename_i hshort
    obtain ⟨hfirst, hu⟩ := h.backendHasPerm p
    obtain ⟨hsecond, hu'⟩ := hu.backendHasPerm p
    have hiff : (user.isActive ∧ p ∈ values T) ↔ (user.isActive ∧
        (user.isSuperuser ∧ u.effectivePermissions.getD ∅ = ∅ ∨ p ∈ values T)) := by
      constructor
      · exact fun hp => ⟨hp.1, Or.inr hp.2⟩
      · rintro ⟨hactive, hsuper | hp⟩
        · exact absurd ⟨hactive, hsuper⟩ hshort
        · exact ⟨hactive, hp⟩
    dsimp only
    split
    · rename_i htrue
      rw [hfirst, decide_eq_true_eq] at htrue
      exact ⟨iff_of_true rfl (hiff.mp htrue), hu⟩
    · rw [hsecond, decide_eq_true_eq]
      exact ⟨hiff, hu'⟩

theorem Answers.check (h : Answers db user assigned T u) (c : Check) :
    Answers db user assigned T (check db u c) := by
  cases c with
  | hasPerm p => exact (h.hasPerm p).2
  | getUserPermissions => exact h.backendGetPermissions.2
  | getGroupPermissions => exact h.backendGetPermissions.2
  | getAllPermissions => exact h.backendGetAllPermissions.2
  | effectivePermissions => exact h.getEffectivePermissions.2

theorem Answers.afterChecks (h : Answers db user assigned T u) (checks : List Check) :
    Answers db user assigned T (afterChecks db u checks) := by
  have hstep : ∀ s c, Answers db user assigned T s → True →
      Answers db user assigned T (Permissions.check db s c) := fun s c hs _ => hs.check c
  exact Runs.EachStep.inv hstep (Runs.eachStep_true u checks) h

theorem value_injective : Function.Injective Permission.value := by
  decide

/-- The instance of a row answers as the row does, whatever it has been asked before. -/
theorem hasPerm_afterChecks_ofRow (db : Db) (user : User) (isStaff : Bool) (checks : List Check)
    (perm : Permission) :
    ((afterChecks db { UserInstance.ofRow user with isStaff } checks).hasPerm db perm.value).1
      = hasPerm db user perm := by
  have hrow : Answers db user false (effectivePermissions db user)
      { UserInstance.ofRow user with isStaff } := by
    refine ⟨rfl, Or.inr ⟨rfl, rfl, rfl⟩, ?_, ?_⟩
    · rintro c ⟨⟩
    · rintro c ⟨⟩
  rw [Bool.eq_iff_iff, ((hrow.afterChecks checks).hasPerm _).1, hasPerm_iff, values,
    Finset.mem_image]
  refine and_congr_right fun _ => ?_
  constructor
  · rintro (⟨hsuper, -⟩ | ⟨perm', hmem, hvalue⟩)
    · exact mem_effectivePermissions.mpr (Or.inl hsuper)
    · exact value_injective hvalue ▸ hmem
  · exact fun hmem => Or.inr ⟨perm, hmem, rfl⟩

/-! ### Tokens -/

/-- `payload` is a token made for an app or an app extension, which has the permissions `given`. -/
inductive Delegated (db : AuthDb) (u : UserInstance) : Finset Permission → Payload → Prop
  | app (app : App) : Delegated db u app.permissions (createAccessTokenForApp db app u)
  | extension (extension : AppExtension) (app : App) :
    Delegated db u extension.permissions
      (createAccessTokenForAppExtension db extension extension.permissions u app)

variable {madeIn db : AuthDb} {maker : UserInstance} {given : Finset Permission} {payload : Payload}

theorem Delegated.permissions_eq (h : Delegated madeIn maker given payload) :
    payload.permissions = some (getPermissionNames given ∩
      getPermissionNames (maker.getEffectivePermissions madeIn.toDb).1) := by
  cases h <;> rfl

theorem isActive_of_userByEmail {email : String} {user : User}
    (h : userByEmail db email = some user) : user.isActive = true := by
  have := List.find?_some h
  simp only [Bool.and_eq_true] at this
  exact this.1

/-- The instance that a token leads to: the row of an active user, with the permissions of the
token. -/
theorem loadUserFromRequest_eq_ok (h : loadUserFromRequest db payload = .ok (some u)) :
    ∃ user, user.isActive = true ∧ ((payload.permissions = none ∧
        ∃ isStaff, u = { UserInstance.ofRow user with isStaff }) ∨
      ∃ names permissions, payload.permissions = some names ∧
        getPermissionsFromNames names = some permissions ∧
        ∃ isStaff, u = { (UserInstance.ofRow user).setEffectivePermissions permissions with
          isStaff }) := by
  rw [loadUserFromRequest.eq_def] at h
  split at h
  · cases h
  split at h
  · cases h
  split at h
  · cases h
  split at h
  · cases h
  rename_i user huser
  refine ⟨user, isActive_of_userByEmail huser, ?_⟩
  split at h
  · cases h
  dsimp only at h
  split at h
  · rename_i hnone
    cases h
    exact Or.inl ⟨hnone, _, rfl⟩
  rename_i names hnames
  split at h
  · cases h
  rename_i permissions hpermissions
  have hagain : getPermissionsFromCodenames (permissions.image Permission.codename)
      = permissions := by
    ext perm
    simp [getPermissionsFromCodenames, codename_injective.eq_iff]
  rw [hagain] at h
  cases h
  exact Or.inr ⟨names, permissions, hnames, hpermissions, _, rfl⟩

/-- No permission has an empty value. -/
theorem empty_notMem_values (permissions : Finset Permission) : "" ∉ values permissions := by
  intro h
  obtain ⟨perm, -, hvalue⟩ := Finset.mem_image.mp h
  exact absurd hvalue (by revert perm; decide)

/-- **Delegated tokens.** With a token made for an app or an app extension a user is permitted only
what both had when it was made, in whatever order one asks, exactly if the user is no superuser or
the two had a permission in common. A token without permissions leaves the user's own. -/
theorem delegated_iff (hmade : Delegated madeIn maker given payload)
    (hload : loadUserFromRequest db payload = .ok (some u)) :
    ((∀ checks p, ((afterChecks db.toDb u checks).hasPerm db.toDb p).1 = true →
        p ∈ values (maker.getEffectivePermissions madeIn.toDb).1 ∧ p ∈ values given) ↔
      ¬ (u.user.isSuperuser ∧ given ∩ (maker.getEffectivePermissions madeIn.toDb).1 = ∅)) ∧
    ∀ plain u', plain.permissions = none → loadUserFromRequest db plain = .ok (some u') →
      ∀ checks perm, ((afterChecks db.toDb u' checks).hasPerm db.toDb perm.value).1
        = hasPerm db.toDb u'.user perm := by
  constructor
  · obtain ⟨user, hactive, ⟨hnone, -⟩ | ⟨names, permissions, hnames, hpermissions, isStaff, rfl⟩⟩ :=
      loadUserFromRequest_eq_ok hload
    · rw [hmade.permissions_eq] at hnone
      cases hnone
    rw [hmade.permissions_eq, Option.some.injEq] at hnames
    rw [← hnames, getPermissionsFromNames_inter, Option.some.injEq] at hpermissions
    rw [hpermissions]
    -- what has been assigned stays, so the shortcut is open always or never
    have htoken : Answers db.toDb user true permissions
        { (UserInstance.ofRow user).setEffectivePermissions permissions with isStaff } := by
      refine ⟨rfl, Or.inl rfl, ?_, ?_⟩
      · rintro c ⟨⟩
      · rintro c ⟨⟩
    have hperm : ∀ checks p, (((afterChecks db.toDb { (UserInstance.ofRow user).setEffectivePermissions
        permissions with isStaff } checks).hasPerm db.toDb p).1 = true ↔
          user.isSuperuser ∧ permissions = ∅ ∨ p ∈ values permissions) := by
      intro checks p
      have hafter := htoken.afterChecks checks
      have heff : (afterChecks db.toDb { (UserInstance.ofRow user).setEffectivePermissions
          permissions with isStaff } checks).effectivePermissions = some permissions := by
        rcases hafter.effective with heff | ⟨hfalse, -⟩
        · exact heff
        · cases hfalse
      rw [(hafter.hasPerm p).1, heff, Option.getD_some]
      exact and_iff_right hactive
    constructor
    · rintro h ⟨hsuper, hempty⟩
      have hall := h [] "" ((hperm [] "").mpr (Or.inl ⟨hsuper, hempty⟩))
      exact empty_notMem_values _ hall.1
    · intro h checks p hp
      rcases (hperm checks p).mp hp with hshort | hmem
      · exact absurd hshort h
      · obtain ⟨perm, hboth, rfl⟩ := Finset.mem_image.mp hmem
        rw [← hpermissions, Finset.mem_inter] at hboth
        exact ⟨Finset.mem_image_of_mem _ hboth.2, Finset.mem_image_of_mem _ hboth.1⟩
  · intro plain u' hplain hload' checks perm
    obtain ⟨user, -, ⟨-, isStaff, rfl⟩ | ⟨names, permissions, hnames, -⟩⟩ :=
      loadUserFromRequest_eq_ok hload'
    · exact hasPerm_afterChecks_ofRow db.toDb user isStaff checks perm
    · rw [hplain] at hnames
      cases hnames

/-- A superuser. -/
def admin : User := { id := 1, isStaff := true, isSuperuser := true }

/-- A database with this user. -/
def adminDb : AuthDb where
  users := Table.singleton admin
  groups := Table.empty
  channels := ∅
  email := fun _ => "admin@example.com"
  jwtTokenKey := fun _ => "x7Fq"

/-- The instance that a request with a token of the superuser gets, if the token names these
permissions. -/
def adminWith (permissions : Finset Permission) : UserInstance :=
  { UserInstance.ofRow admin with effectivePermissions := some permissions }

/-- A token for an app that manages orders. -/
theorem delegated_iff_orders :
    ((∀ checks p, ((afterChecks adminDb.toDb (adminWith {.manageOrders}) checks).hasPerm
          adminDb.toDb p).1 = true →
        p ∈ values ((UserInstance.ofRow admin).getEffectivePermissions adminDb.toDb).1 ∧
          p ∈ values {.manageOrders}) ↔
      ¬ (admin.isSuperuser ∧ {.manageOrders} ∩
        ((UserInstance.ofRow admin).getEffectivePermissions adminDb.toDb).1 = ∅)) ∧
    ∀ plain u', plain.permissions = none → loadUserFromRequest adminDb plain = .ok (some u') →
      ∀ checks perm, ((afterChecks adminDb.toDb u' checks).hasPerm adminDb.toDb perm.value).1
        = hasPerm adminDb.toDb u'.user perm :=
  delegated_iff (u := adminWith {.manageOrders})
    (Delegated.app ⟨5, {.manageOrders}, none⟩ :
      Delegated adminDb (UserInstance.ofRow admin) {.manageOrders} _) (by rfl)

/-- A token of a superuser for an app without permissions permits to manage staff. -/
theorem delegated_empty :
    ∃ payload u, Delegated adminDb (UserInstance.ofRow admin) ∅ payload ∧
      loadUserFromRequest adminDb payload = .ok (some u) ∧
      (u.hasPerm adminDb.toDb "account.manage_staff").1 = true :=
  ⟨_, adminWith ∅, Delegated.app ⟨5, ∅, none⟩, by rfl, by rfl⟩

end Permissions

end Aixinwu
