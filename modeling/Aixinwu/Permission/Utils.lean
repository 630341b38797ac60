import Aixinwu.Permission.Models

/-!
# Scopes, and what stays manageable

The checks of `saleor/graphql/account/utils.py`. A requestor may only handle permissions, users and
groups within his own scope. And a permission is manageable as long as there is an active user with
both `MANAGE_STAFF` and that permission: the functions `get_not_manageable_permissions_…` compute,
from the groups alone, what would no longer be manageable after a change.

They look for managers in two rounds. The first goes through the groups that have `MANAGE_STAFF` and
an active user, collects their users and ticks off the permissions of these groups; the second goes
through all groups of these users.

## Main definitions

* `getOutOfScopePermissions`, `getOutOfScopeUsers`, `canUserManageGroupPermissions`,
  `canUserManageGroupChannels`, `getGroupsWhichUserCanManage`
* `getNotManageablePermissions` and the four functions that use it or its two rounds
-/

namespace Aixinwu

namespace Permissions

/-! ### Scopes -/

/-- `get_out_of_scope_permissions`. -/
def getOutOfScopePermissions (db : Db) (requestor : User) (permissions : List Permission) :
    List Permission :=
  permissions.filter fun perm => !hasPerm db requestor perm

/-- `get_out_of_scope_users`. -/
def getOutOfScopeUsers (db : Db) (rootUser : User) (users : List User) : List User :=
  users.filter fun user => !hasPerms db rootUser (getAllPermissions db user)

/-- `can_user_manage_group_permissions`. -/
def canUserManageGroupPermissions (db : Db) (user : User) (group : Group) : Bool :=
  hasPerms db user group.permissions

/-- `can_user_manage_group_channels`. -/
def canUserManageGroupChannels (db : Db) (user : User) (group : Group) : Bool :=
  user.isSuperuser ||
    decide (accessibleChannelsOfGroup db group \ accessibleChannels db user = ∅)

/-- `get_groups_which_user_can_manage`. -/
def getGroupsWhichUserCanManage (db : Db) (user : User) : List Group :=
  if user.isStaff then
    db.groups.rows.filter fun group =>
      decide (group.permissions \ effectivePermissions db user = ∅)
  else []

/-! ### What stays manageable -/

/-- `group.user_set.all()`. -/
def userSet (db : Db) (group : Group) : List User :=
  db.users.rows.filter fun user => decide (group.id ∈ user.groups)

/-- An entry of the mapping. -/
structure GroupData where
  pk : ℕ
  permissions : Finset Permission
  users : Finset ℕ

/-- `get_group_to_permissions_and_users_mapping`; the users are the active ones. -/
def getGroupToPermissionsAndUsersMapping (db : Db) : List GroupData :=
  db.groups.rows.map fun group =>
    { pk := group.id
      permissions := group.permissions
      users := (((userSet db group).filter (·.isActive)).map (·.id)).toFinset }

/-- A group in the loop of `get_users_and_look_for_permissions_in_groups_with_manage_staff`: the users
so far, and what has not been found. -/
def lookInGroup (found : Finset ℕ × Finset Permission) (data : GroupData) :
    Finset ℕ × Finset Permission :=
  if data.users ≠ ∅ ∧ Permission.manageStaff ∈ data.permissions then
    (found.1 ∪ data.users, found.2 \ (found.2 ∩ data.permissions))
  else found

/-- `get_users_and_look_for_permissions_in_groups_with_manage_staff`: the users, and what of the
permissions has not been found. -/
def getUsersAndLookForPermissionsInGroupsWithManageStaff (groupsData : List GroupData)
    (permissionsToFind : Finset Permission) : Finset ℕ × Finset Permission :=
  groupsData.foldl lookInGroup (∅, permissionsToFind)

/-- `look_for_permission_in_users_with_manage_staff`: what has not been found. -/
def lookForPermissionInUsersWithManageStaff (groupsData : List GroupData) (usersToCheck : Finset ℕ)
    (permissionsToFind : Finset Permission) : Finset Permission :=
  groupsData.foldl
    (fun permissionsToFind data =>
      if usersToCheck ∩ data.users ≠ ∅ then
        permissionsToFind \ (permissionsToFind ∩ data.permissions)
      else permissionsToFind)
    permissionsToFind

/-- `get_not_manageable_permissions`. -/
def getNotManageablePermissions (groupsData : List GroupData)
    (notManageablePermissions : Finset Permission) : Finset Permission :=
  let (manageStaffUsers, notManageablePermissions) :=
    getUsersAndLookForPermissionsInGroupsWithManageStaff groupsData notManageablePermissions
  if notManageablePermissions = ∅ then ∅
  else if manageStaffUsers = ∅ then notManageablePermissions
  else
    lookForPermissionInUsersWithManageStaff groupsData manageStaffUsers notManageablePermissions

/-- `groups_data` without a group. -/
def otherGroups (db : Db) (group : Group) : List GroupData :=
  (getGroupToPermissionsAndUsersMapping db).filter fun data => decide (data.pk ≠ group.id)

/-- `get_not_manageable_permissions_after_removing_perms_from_group`. -/
def getNotManageablePermissionsAfterRemovingPermsFromGroup (db : Db) (group : Group)
    (permissions : List Permission) : Finset Permission :=
  getNotManageablePermissions (otherGroups db group) permissions.toFinset

/-- `get_not_manageable_permissions_after_group_deleting`. -/
def getNotManageablePermissionsAfterGroupDeleting (db : Db) (group : Group) : Finset Permission :=
  getNotManageablePermissions (otherGroups db group) group.permissions

/-- `get_not_manageable_permissions_after_removing_users_from_group`. -/
def getNotManageablePermissionsAfterRemovingUsersFromGroup (db : Db) (group : Group)
    (users : List User) : Finset Permission :=
  let groupUsers := userSet db group
  if users.length < groupUsers.length ∧ Permission.manageStaff ∈ group.permissions then ∅
  else
    let groupRemainingUsers := groupUsers.filter fun user => decide (user ∉ users)
    if groupRemainingUsers.any (hasPerm db · .manageStaff) then ∅
    else getNotManageablePermissionsAfterGroupDeleting db group

/-- `get_not_manageable_permissions_when_deactivate_or_remove_users`. -/
def getNotManageablePermissionsWhenDeactivateOrRemoveUsers (db : Db) (users : List User) :
    Finset Permission :=
  let usersToCheck := users.filter (hasPerm db · .manageStaff)
  if usersToCheck = [] then ∅
  else
    let userPks := (usersToCheck.map (·.id)).toFinset
    let notManageablePermissions := usersToCheck.toFinset.biUnion (getAllPermissions db)
    let groupsData := getGroupToPermissionsAndUsersMapping db
    let (manageStaffUsers, _) :=
      getUsersAndLookForPermissionsInGroupsWithManageStaff groupsData ∅
    if manageStaffUsers = ∅ then notManageablePermissions
    else
      lookForPermissionInUsersWithManageStaff groupsData (manageStaffUsers \ userPks)
        notManageablePermissions

end Permissions

end Aixinwu
