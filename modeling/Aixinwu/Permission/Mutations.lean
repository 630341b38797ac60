import Aixinwu.Lib.Runs
import Aixinwu.Permission.Utils

/-!
# The mutations of permission groups and staff

`PermissionGroupCreate`, `PermissionGroupUpdate`, `PermissionGroupDelete`, `StaffCreate` and
`StaffUpdate`: their `clean_…` methods with the errors they collect or raise, and what is saved if
there are none. All ask for `MANAGE_STAFF`.

Ids of an input are looked up first; an unknown id is an error. A field that an input may leave out
or set to `null` is an option of an option. A field of a model that is not nullable takes its default
where the input has `null`, which for `restricted_access_to_channels` is `False`, so that a group is
opened to all channels without the check that `False` itself undergoes.

Names of groups and the personal data of users are left out. `StaffCreate` takes over a user who is
not staff and has the e-mail address given; the input says whom, if there is one.

## Main definitions

* `PermissionGroupCreate.performMutation`, `PermissionGroupUpdate.performMutation`,
  `PermissionGroupDelete.performMutation`, `StaffCreate.performMutation`,
  `StaffUpdate.performMutation`
* `Request`, `perform`, `step` — a requestor's requests
-/

namespace Aixinwu

namespace Permissions

/-! ### Errors -/

/-- The parameters of an error. -/
inductive Params where
  | none
  | permissions (codes : Finset Permission)
  | users (ids : List ℕ)
  | groups (ids : List ℕ)
  | channels (ids : List ℕ)

/-- A `ValidationError`, under its field. -/
structure Error where
  field : Option String
  message : String
  code : String
  params : Params := .none

/-- Why a request is not served. -/
inductive Failure where
  | permissionDenied
  | notFound (field : String)
  | errors (errors : List Error)
  | integrityError

/-- `get_nodes_or_error`: the objects with these ids, each once. -/
def getNodesOrError {ρ : Type} [HasPk ρ ℕ] (t : Table ρ) (ids : List ℕ) (field : String) :
    Except Failure (List ρ) :=
  match ids.dedup.mapM t.find? with
  | some nodes => .ok nodes
  | none => .error (.notFound field)

/-- `get_nodes_or_error`, of channels. -/
def getChannelsOrError (db : Db) (ids : List ℕ) (field : String) : Except Failure (List ℕ) :=
  if ∀ id ∈ ids, id ∈ db.channels then .ok ids.dedup else .error (.notFound field)

/-- Errors that were collected are raised. -/
def raiseErrors (errors : List Error) : Except Failure Unit :=
  if errors.isEmpty then .ok () else .error (.errors errors)

/-- `check_permissions`, of an authenticated user. -/
def checkPermissions (db : Db) (requestor : User) : Except Failure Unit :=
  if hasPerm db requestor .manageStaff then .ok () else .error .permissionDenied

/-- The value of a field that is not nullable: as it was, the default, or the one given. -/
def fieldValue {α : Type} (default current : α) : Option (Option α) → α
  | none => current
  | some none => default
  | some (some value) => value

/-! ### `PermissionGroupCreate` -/

/-- `PermissionGroupCreateInput`; `restricted_access_to_channels` has the default `False`. -/
structure PermissionGroupCreateInput where
  addPermissions : List Permission := []
  addUsers : List ℕ := []
  addChannels : List ℕ := []
  restrictedAccessToChannels : Option Bool := some false

namespace PermissionGroupCreate

/-- `ensure_can_manage_channels`. -/
def ensureCanManageChannels (user : User) (userAccessibleChannels : Finset ℕ)
    (channels : List ℕ) : List Error :=
  if user.isSuperuser then []
  else
    let invalidChannelIds := channels.filter fun id => decide (id ∉ userAccessibleChannels)
    if invalidChannelIds = [] then []
    else
      [{ field := some "add_channels"
         message := "You can't add channel that you don't have access to."
         code := "out_of_scope_channel"
         params := .channels invalidChannelIds }]

/-- `clean_channels`: the errors and the channels to add. -/
def cleanChannels (db : Db) (user : User) (userAccessibleChannels : Finset ℕ)
    (restrictedAccessToChannels : Option Bool) (addChannels : List ℕ) :
    Except Failure (List Error × List ℕ) :=
  if restrictedAccessToChannels = some false then
    if user.isSuperuser = false ∧ db.channels \ userAccessibleChannels ≠ ∅ then
      .error (.errors
        [{ field := some "restricted_access_to_channels"
           message := "You can't manage group with channels out of your scope."
           code := "out_of_scope_channel" }])
    else .ok ([], [])
  else .ok (ensureCanManageChannels user userAccessibleChannels addChannels, addChannels)

/-- `ensure_can_manage_permissions`. -/
def ensureCanManagePermissions (db : Db) (requestor : User) (field : String)
    (permissionItems : List Permission) : List Error :=
  let missingPermissions := getOutOfScopePermissions db requestor permissionItems
  if missingPermissions = [] then []
  else
    [{ field := some field
       message := "You can't add permission that you don't have."
       code := "out_of_scope_permission"
       params := .permissions missingPermissions.toFinset }]

/-- `clean_permissions`. -/
def cleanPermissions (db : Db) (requestor : User) (addPermissions : List Permission) :
    List Error :=
  if requestor.isSuperuser then []
  else ensureCanManagePermissions db requestor "add_permissions" addPermissions

/-- `clean_users`, which is `ensure_users_are_staff`. -/
def cleanUsers (users : List User) : List Error :=
  let nonStaffUsers := users.filter fun user => !user.isStaff
  if nonStaffUsers = [] then []
  else
    [{ field := some "add_users"
       message := "User must be staff member."
       code := "assign_non_staff_member"
       params := .users (nonStaffUsers.map (·.id)) }]

/-- `_save_m2m`, on the group. -/
def saveM2m (addPermissions : List Permission) (addChannels : List ℕ)
    (restrictedAccessToChannels : Option Bool) (group : Group) : Group :=
  { group with
    permissions := group.permissions ∪ addPermissions.toFinset
    channels :=
      (if restrictedAccessToChannels = some false then ∅ else group.channels)
        ∪ addChannels.toFinset }

/-- The groups of some users change. -/
def changeGroups (table : Table User) (users : List User) (change : Finset ℕ → Finset ℕ) :
    Table User :=
  table.map
    (fun user =>
      { user with
        groups := if user.id ∈ users.map (·.id) then change user.groups else user.groups })
    fun _ => rfl

/-- `instance.user_set.add(*users)`. -/
def addUsers (table : Table User) (groupId : ℕ) (users : List User) : Table User :=
  changeGroups table users (insert groupId)

/-- `PermissionGroupCreate`; `newId` is the id of the new row. -/
def performMutation (db : Db) (requestor : User) (newId : ℕ)
    (input : PermissionGroupCreateInput) : Except Failure Db := do
  let addUsers' ← getNodesOrError db.users input.addUsers "add_users"
  let addChannels ← getChannelsOrError db input.addChannels "add_channels"
  let userAccessibleChannels := accessibleChannels db requestor
  let (channelErrors, addChannels) ← cleanChannels db requestor userAccessibleChannels
    input.restrictedAccessToChannels addChannels
  raiseErrors (channelErrors ++ cleanPermissions db requestor input.addPermissions
    ++ cleanUsers addUsers')
  let group := saveM2m input.addPermissions addChannels input.restrictedAccessToChannels
    { id := newId
      restrictedAccessToChannels := input.restrictedAccessToChannels.getD false }
  match db.groups.insert group with
  | none => .error .integrityError
  | some groups =>
    .ok { db with users := addUsers db.users newId addUsers', groups := groups }

end PermissionGroupCreate

/-! ### `PermissionGroupUpdate` -/

/-- `PermissionGroupUpdateInput`. -/
structure PermissionGroupUpdateInput where
  addPermissions : List Permission := []
  removePermissions : List Permission := []
  addUsers : List ℕ := []
  removeUsers : List ℕ := []
  addChannels : List ℕ := []
  removeChannels : List ℕ := []
  restrictedAccessToChannels : Option (Option Bool) := none

namespace PermissionGroupUpdate

open PermissionGroupCreate

/-- `ensure_requestor_can_manage_group`. -/
def ensureRequestorCanManageGroup (db : Db) (requestor : User) (group : Group) :
    Except Failure Unit :=
  if requestor.isSuperuser then .ok ()
  else if canUserManageGroupPermissions db requestor group = false then
    .error (.errors
      [{ field := none
         message := "You can't manage group with permissions out of your scope."
         code := "out_of_scope_permission" }])
  else if canUserManageGroupChannels db requestor group = false then
    .error (.errors
      [{ field := none
         message := "You can't manage group with channels out of your scope."
         code := "out_of_scope_channel" }])
  else .ok ()

/-- `check_duplicates`. -/
def checkDuplicates {α : Type} [DecidableEq α] (addItems removeItems : List α)
    (field : Option String) (params : List α → Params) : List Error :=
  let duplicatedItems := addItems.filter fun item => decide (item ∈ removeItems)
  if duplicatedItems = [] then []
  else
    [{ field := field
       message := "The same object cannot be in both list for adding and removing items."
       code := "duplicated_input_item"
       params := params duplicatedItems }]

/-- `clean_channels`: the errors, and the channels to add and to remove. -/
def cleanChannels (db : Db) (user : User) (group : Group) (userAccessibleChannels : Finset ℕ)
    (restrictedAccess : Option Bool) (addChannels removeChannels : List ℕ) :
    Except Failure (List Error × List ℕ × List ℕ) := do
  let (errors, addChannels) ←
    PermissionGroupCreate.cleanChannels db user userAccessibleChannels restrictedAccess addChannels
  let errors := errors ++ ensureCanManageChannels user userAccessibleChannels removeChannels
  if restrictedAccess = some false ∨
      (restrictedAccess = none ∧ group.restrictedAccessToChannels = false) then
    .ok (errors, [], [])
  else .ok (errors, addChannels, removeChannels)

/-- `clean_permissions`; `ensure_permissions_can_be_removed` is its last part. -/
def cleanPermissions (db : Db) (requestor : User) (group : Group)
    (addPermissions removePermissions : List Permission) : List Error :=
  PermissionGroupCreate.cleanPermissions db requestor addPermissions ++
    if removePermissions = [] ∨ requestor.isSuperuser then []
    else
      ensureCanManagePermissions db requestor "remove_permissions" removePermissions ++
        if getNotManageablePermissionsAfterRemovingPermsFromGroup db group removePermissions = ∅
        then []
        else
          [{ field := some "remove_permissions"
             message := "Permissions cannot be removed, some of permissions will not be manageable."
             code := "left_not_manageable_permission"
             params := .permissions removePermissions.toFinset }]

/-- `ensure_can_manage_users`. -/
def ensureCanManageUsers (db : Db) (requestor : User) (field : String) (users : List User) :
    List Error :=
  if requestor.isSuperuser then []
  else
    let outOfScopeUsers := getOutOfScopeUsers db requestor users
    if outOfScopeUsers = [] then []
    else
      [{ field := some field
         message := "You can't manage these users."
         code := "out_of_scope_user"
         params := .users (outOfScopeUsers.map (·.id)) }]

/-- `check_if_removing_user_last_group`. -/
def checkIfRemovingUserLastGroup (db : Db) (requestor : User) (removeUsers : List User) :
    List Error :=
  if requestor ∈ removeUsers ∧
      (db.groups.rows.filter fun group =>
        decide (group.id ∈ requestor.groups)).length = 1 then
    [{ field := some "remove_users"
       message := "You cannot remove yourself from your last group."
       code := "cannot_remove_from_last_group"
       params := .users [requestor.id] }]
  else []

/-- `check_if_users_can_be_removed`. -/
def checkIfUsersCanBeRemoved (db : Db) (requestor : User) (group : Group)
    (addUsers removeUsers : List User) : List Error :=
  if requestor.isSuperuser then []
  else if addUsers.any (hasPerm db · .manageStaff) then []
  else
    let permissions := getNotManageablePermissionsAfterRemovingUsersFromGroup db group removeUsers
    if permissions = ∅ then []
    else
      [{ field := some "remove_users"
         message := "Users cannot be removed, some of permissions will not be manageable."
         code := "left_not_manageable_permission"
         params := .permissions permissions }]

/-- `clean_users`; `clean_remove_users` is its last part. -/
def cleanUsers (db : Db) (requestor : User) (group : Group) (addUsers removeUsers : List User) :
    List Error :=
  PermissionGroupCreate.cleanUsers addUsers ++
    if removeUsers = [] then []
    else
      ensureCanManageUsers db requestor "remove_users" removeUsers ++
        checkIfRemovingUserLastGroup db requestor removeUsers ++
        checkIfUsersCanBeRemoved db requestor group addUsers removeUsers

/-- `_save_m2m`, on the group. -/
def saveM2m (addPermissions removePermissions : List Permission)
    (addChannels removeChannels : List ℕ) (restrictedAccessToChannels : Option Bool)
    (group : Group) : Group :=
  let group :=
    PermissionGroupCreate.saveM2m addPermissions addChannels restrictedAccessToChannels group
  { group with
    permissions := group.permissions \ removePermissions.toFinset
    channels := group.channels \ removeChannels.toFinset }

/-- `instance.user_set.remove(*users)`. -/
def removeUsers (table : Table User) (groupId : ℕ) (users : List User) : Table User :=
  changeGroups table users (·.erase groupId)

/-- `PermissionGroupUpdate`. -/
def performMutation (db : Db) (requestor : User) (id : ℕ)
    (input : PermissionGroupUpdateInput) : Except Failure Db := do
  match db.groups.find? id with
  | none => .error (.notFound "id")
  | some group =>
    ensureRequestorCanManageGroup db requestor group
    raiseErrors (
      checkDuplicates input.addPermissions input.removePermissions (some "permissions")
          (fun items => .permissions items.toFinset)
        ++ checkDuplicates input.addUsers input.removeUsers (some "users") .users
        ++ checkDuplicates input.addChannels input.removeChannels (some "channels") .channels)
    let addUsers' ← getNodesOrError db.users input.addUsers "add_users"
    let removeUsers' ← getNodesOrError db.users input.removeUsers "remove_users"
    let addChannels ← getChannelsOrError db input.addChannels "add_channels"
    let removeChannels ← getChannelsOrError db input.removeChannels "remove_channels"
    let restrictedAccess := input.restrictedAccessToChannels.getD none
    let (channelErrors, addChannels, removeChannels) ← cleanChannels db requestor group
      (accessibleChannels db requestor) restrictedAccess addChannels removeChannels
    raiseErrors (channelErrors
      ++ cleanPermissions db requestor group input.addPermissions input.removePermissions
      ++ cleanUsers db requestor group addUsers' removeUsers')
    let group := saveM2m input.addPermissions input.removePermissions addChannels removeChannels
      restrictedAccess
      { group with
        restrictedAccessToChannels := fieldValue false group.restrictedAccessToChannels
          input.restrictedAccessToChannels }
    .ok { db with
      users := removeUsers (addUsers db.users id addUsers') id removeUsers'
      groups := db.groups.save group }

end PermissionGroupUpdate

/-! ### `PermissionGroupDelete` -/

namespace PermissionGroupDelete

/-- `ensure_deleting_not_left_not_manageable_permissions`. -/
def ensureDeletingNotLeftNotManageablePermissions (db : Db) (group : Group) :
    Except Failure Unit :=
  let permissions := getNotManageablePermissionsAfterGroupDeleting db group
  if permissions = ∅ then .ok ()
  else
    .error (.errors
      [{ field := some "id"
         message := "Group cannot be removed, some of permissions will not be manageable."
         code := "left_not_manageable_permission"
         params := .permissions permissions }])

/-- `ensure_not_removing_requestor_last_group`. -/
def ensureNotRemovingRequestorLastGroup (db : Db) (group : Group) (requestor : User) :
    Except Failure Unit :=
  if requestor ∈ userSet db group ∧
      (db.groups.rows.filter fun group =>
        decide (group.id ∈ requestor.groups)).length = 1 then
    .error (.errors
      [{ field := some "id"
         message := "You cannot delete your last group."
         code := "cannot_remove_from_last_group" }])
  else .ok ()

/-- `clean_instance`; the scope checks are those of an update. -/
def cleanInstance (db : Db) (requestor : User) (group : Group) : Except Failure Unit := do
  PermissionGroupUpdate.ensureRequestorCanManageGroup db requestor group
  if requestor.isSuperuser then .ok ()
  else
    ensureDeletingNotLeftNotManageablePermissions db group
    ensureNotRemovingRequestorLastGroup db group requestor

/-- `PermissionGroupDelete`; the memberships go with the group. -/
def performMutation (db : Db) (requestor : User) (id : ℕ) : Except Failure Db := do
  match db.groups.find? id with
  | none => .error (.notFound "id")
  | some group =>
    cleanInstance db requestor group
    .ok { db with
      users := db.users.map (fun user => { user with groups := user.groups.erase id }) fun _ => rfl
      groups := db.groups.delete fun group => decide (group.id = id) }

end PermissionGroupDelete

/-! ### `StaffCreate` -/

/-- `StaffCreateInput`; `user` is who has the e-mail address of the input and is not staff. -/
structure StaffCreateInput where
  user : Option ℕ := none
  isActive : Option (Option Bool) := none
  addGroups : List ℕ := []

namespace StaffCreate

/-- `ensure_requestor_can_manage_groups`. -/
def ensureRequestorCanManageGroups (db : Db) (requestor : User) (field : String)
    (groups : List Group) : List Error :=
  if requestor.isSuperuser then []
  else
    let userEditableGroups := getGroupsWhichUserCanManage db requestor
    let outOfScopeGroups := groups.filter fun group => decide (group ∉ userEditableGroups)
    if outOfScopeGroups = [] then []
    else
      [{ field := some field
         message := "You can't manage these groups."
         code := "out_of_scope_group"
         params := .groups (outOfScopeGroups.map (·.id)) }]

/-- `instance.groups.add(*groups)`. -/
def addGroups (userGroups : Finset ℕ) (groups : List Group) : Finset ℕ :=
  userGroups ∪ (groups.map (·.id)).toFinset

/-- `get_instance`: the user to take over, or a new row. -/
def getInstance (db : Db) (newId : ℕ) (user : Option ℕ) : Except Failure (Table User × User) :=
  match user with
  | some id =>
    match db.users.find? id with
    | some instance' =>
      if instance'.isStaff then .error .integrityError else .ok (db.users, instance')
    | none => .error (.notFound "email")
  | none =>
    match db.users.insert { id := newId } with
    | some users => .ok (users, { id := newId })
    | none => .error .integrityError

/-- `StaffCreate`; `newId` is the id of a new row. -/
def performMutation (db : Db) (requestor : User) (newId : ℕ) (input : StaffCreateInput) :
    Except Failure Db := do
  let (users, instance') ← getInstance db newId input.user
  let groups ← getNodesOrError db.groups input.addGroups "add_groups"
  raiseErrors (ensureRequestorCanManageGroups db requestor "add_groups" groups)
  .ok { db with
    users := users.save
      { instance' with
        isStaff := true
        isActive := fieldValue true instance'.isActive input.isActive
        groups := addGroups instance'.groups groups } }

end StaffCreate

/-! ### `StaffUpdate` -/

/-- `StaffUpdateInput`. -/
structure StaffUpdateInput where
  isActive : Option (Option Bool) := none
  addGroups : List ℕ := []
  removeGroups : List ℕ := []

namespace StaffUpdate

open StaffCreate

/-- `clean_is_active`. -/
def cleanIsActive (db : Db) (requestor instance' : User) (isActive : Option Bool) : List Error :=
  if isActive = some false then
    (if requestor = instance' then
      [{ field := some "is_active"
         message := "Cannot deactivate your own account."
         code := "deactivate_own_account" }]
    else if instance'.isSuperuser then
      [{ field := some "is_active"
         message := "Cannot deactivate superuser's account."
         code := "deactivate_superuser_account" }]
    else []) ++
      if requestor.isSuperuser then []
      else
        let permissions := getNotManageablePermissionsWhenDeactivateOrRemoveUsers db [instance']
        if permissions = ∅ then []
        else
          [{ field := some "is_active"
             message :=
               "Users cannot be deactivated, some of permissions will not be manageable."
             code := "left_not_manageable_permission"
             params := .permissions permissions }]
  else []

/-- `instance.groups.remove(*groups)`. -/
def removeGroups (userGroups : Finset ℕ) (groups : List Group) : Finset ℕ :=
  userGroups \ (groups.map (·.id)).toFinset

/-- `StaffUpdate`. -/
def performMutation (db : Db) (requestor : User) (id : ℕ) (input : StaffUpdateInput) :
    Except Failure Db := do
  match db.users.find? id with
  | none => .error (.notFound "id")
  | some instance' =>
    if requestor.isSuperuser = false ∧ getOutOfScopeUsers db requestor [instance'] ≠ [] then
      .error (.errors
        [{ field := some "id"
           message := "You can't manage this user."
           code := "out_of_scope_user" }])
    else
      raiseErrors (PermissionGroupUpdate.checkDuplicates input.addGroups input.removeGroups none
        .groups)
      let groups ← getNodesOrError db.groups input.addGroups "add_groups"
      let groups' ← getNodesOrError db.groups input.removeGroups "remove_groups"
      raiseErrors (ensureRequestorCanManageGroups db requestor "add_groups" groups
        ++ ensureRequestorCanManageGroups db requestor "remove_groups" groups'
        ++ cleanIsActive db requestor instance' (input.isActive.getD none))
      .ok { db with
        users := db.users.save
          { instance' with
            isStaff := true
            isActive := fieldValue true instance'.isActive input.isActive
            groups := removeGroups (addGroups instance'.groups groups) groups' } }

end StaffUpdate

/-! ### Requests -/

/-- A request. -/
inductive Request where
  | permissionGroupCreate (newId : ℕ) (input : PermissionGroupCreateInput)
  | permissionGroupUpdate (id : ℕ) (input : PermissionGroupUpdateInput)
  | permissionGroupDelete (id : ℕ)
  | staffCreate (newId : ℕ) (input : StaffCreateInput)
  | staffUpdate (id : ℕ) (input : StaffUpdateInput)

/-- A request of a user. -/
def perform (db : Db) (requestorId : ℕ) (request : Request) : Except Failure Db :=
  match db.users.find? requestorId with
  | none => .error .permissionDenied
  | some requestor => do
    checkPermissions db requestor
    match request with
    | .permissionGroupCreate newId input =>
      PermissionGroupCreate.performMutation db requestor newId input
    | .permissionGroupUpdate id input => PermissionGroupUpdate.performMutation db requestor id input
    | .permissionGroupDelete id => PermissionGroupDelete.performMutation db requestor id
    | .staffCreate newId input => StaffCreate.performMutation db requestor newId input
    | .staffUpdate id input => StaffUpdate.performMutation db requestor id input

/-- One request after another; one that is not accepted changes nothing. -/
def step (requestorId : ℕ) (db : Db) (request : Request) : Db :=
  match perform db requestorId request with
  | .ok db' => db'
  | .error _ => db

end Permissions

end Aixinwu
