import Aixinwu.Permission.Escalation
import Aixinwu.Permission.NotManageable

/-!
# Management of permissions

A permission is managed if an active member of staff has both `MANAGE_STAFF` and that permission.
`PermissionGroupUpdate`, `PermissionGroupDelete` and `StaffUpdate` are to leave every managed
permission managed, and to that end look for other managers of the permissions that the request takes
away. That is enough as long as nobody's `MANAGE_STAFF` is at stake: a user who loses a permission but
not `MANAGE_STAFF` takes nothing else with him. It is not where the group that loses members, or is
deleted, is one that gives `MANAGE_STAFF`: its members may hold other permissions through other groups,
and nobody looks at these. Nor does anybody look when a requestor takes himself out of groups by
`StaffUpdate`, and active users who are not staff are taken for managers.

## Main definitions

* `Managed`
* `AtStake` — requests whose checks do not suffice
* `ManagesAfter` — whom a request leaves, or makes, a manager of a permission

## Main results

* `management_kept_iff`
-/

namespace Aixinwu

namespace Permissions

/-- A user who can manage a permission. -/
def Manages (db : Db) (user : User) (p : Permission) : Prop :=
  user.isActive = true ∧ user.isStaff = true ∧ .manageStaff ∈ effectivePermissions db user ∧
    p ∈ effectivePermissions db user

/-- Somebody manages the permission. -/
def Managed (db : Db) (p : Permission) : Prop := ∃ user ∈ db.users.rows, Manages db user p

instance (db : Db) (user : User) (p : Permission) : Decidable (Manages db user p) :=
  inferInstanceAs (Decidable (_ ∧ _))

instance (db : Db) (p : Permission) : Decidable (Managed db p) :=
  inferInstanceAs (Decidable (∃ _ ∈ _, _))

variable {db db' : Db} {user requestor : User} {p : Permission}

/-! ### What a request makes of users and groups -/

/-- The requests that can take permissions from somebody. -/
def Request.TakesAway : Request → Prop
  | .permissionGroupUpdate _ _ => True
  | .permissionGroupDelete _ => True
  | .staffUpdate _ _ => True
  | .permissionGroupCreate _ _ => False
  | .staffCreate _ _ => False

/-- A user after such a request. -/
def userAfter (request : Request) (user : User) : User :=
  match request with
  | .permissionGroupUpdate id input =>
    let added := if user.id ∈ input.addUsers then insert id user.groups else user.groups
    { user with groups := if user.id ∈ input.removeUsers then added.erase id else added }
  | .permissionGroupDelete id => { user with groups := user.groups.erase id }
  | .staffUpdate id input =>
    if user.id = id then
      { user with
        isStaff := true
        isActive := fieldValue true user.isActive input.isActive
        groups := (user.groups ∪ input.addGroups.toFinset) \ input.removeGroups.toFinset }
    else user
  | _ => user

/-- The permissions of a group after such a request. -/
def permissionsAfter (request : Request) (group : Group) : Finset Permission :=
  match request with
  | .permissionGroupUpdate id input =>
    if group.id = id then
      (group.permissions ∪ input.addPermissions.toFinset) \ input.removePermissions.toFinset
    else group.permissions
  | _ => group.permissions

/-- A permission that a request leaves or gives a user. -/
def HoldsAfter (db : Db) (request : Request) (user : User) (p : Permission) : Prop :=
  user.isSuperuser = true ∨ p ∈ user.userPermissions ∨ ∃ group ∈ db.groups.rows,
    group.id ∈ (userAfter request user).groups ∧ p ∈ permissionsAfter request group

/-- A permission of which a request leaves a user the manager, or makes him one. -/
def ManagesAfter (db : Db) (request : Request) (user : User) (p : Permission) : Prop :=
  (userAfter request user).isActive = true ∧ (userAfter request user).isStaff = true ∧
    HoldsAfter db request user .manageStaff ∧ HoldsAfter db request user p

/-- **The users after a request.** -/
theorem users_after {requestorId : ℕ} {request : Request} (htakes : request.TakesAway)
    (hsuper : ∀ user, db.users.find? requestorId = some user → user.isSuperuser = false)
    (h : perform db requestorId request = .ok db') :
    db'.users.rows = db.users.rows.map (userAfter request) := by
  obtain ⟨requestor, hrequestor, -, h⟩ := perform_eq_ok h
  have hsuper := hsuper requestor hrequestor
  cases request with
  | permissionGroupCreate newId input => cases htakes
  | staffCreate newId input => cases htakes
  | permissionGroupUpdate id input =>
    obtain ⟨group, users, users', addChannels, removeChannels, -, husers, husers', -, -, -, -, -,
      rfl⟩ := PermissionGroupUpdate.accepted h
    show ((db.users.rows.map _).map _) = _
    rw [List.map_map]
    refine List.map_congr_left fun user huser => ?_
    have hadd : user.id ∈ users.map (·.id) ↔ user.id ∈ input.addUsers := husers.mem_map_pk _
    have hremove : user.id ∈ users'.map (·.id) ↔ user.id ∈ input.removeUsers :=
      husers'.mem_map_pk _
    simp only [Function.comp_apply, hadd, hremove, userAfter]
  | permissionGroupDelete id =>
    obtain ⟨group, -, -, -, rfl⟩ := PermissionGroupDelete.accepted hsuper h
    rfl
  | staffUpdate id input =>
    obtain ⟨instance', groups, groups', hinstance, -, hadded, hremoved, -, -, -, rfl⟩ :=
      StaffUpdate.accepted hsuper h
    obtain ⟨hrow, rfl⟩ := Table.find?_eq_some.mp hinstance
    refine List.map_congr_left fun user huser => ?_
    have hadd : (groups.map (·.id)).toFinset = input.addGroups.toFinset := by
      ext g
      rw [List.mem_toFinset, List.mem_toFinset]
      exact hadded.mem_map_pk g
    have hremove : (groups'.map (·.id)).toFinset = input.removeGroups.toFinset := by
      ext g
      rw [List.mem_toFinset, List.mem_toFinset]
      exact hremoved.mem_map_pk g
    rw [StaffUpdate.removeGroups, StaffCreate.addGroups, hadd, hremove, userAfter]
    by_cases hid : user.id = pk instance'
    · obtain rfl : user = instance' := Table.eq_of_pk_eq huser hrow hid
      rw [if_pos hid]
      exact if_pos rfl
    · rw [if_neg hid]
      exact if_neg hid

/-- **The groups after a request**, for a user whom it leaves in them. -/
theorem groupPermission_after {requestorId : ℕ} {request : Request} (htakes : request.TakesAway)
    (hsuper : ∀ user, db.users.find? requestorId = some user → user.isSuperuser = false)
    (h : perform db requestorId request = .ok db') (user : User) (p : Permission) :
    GroupPermission db' (userAfter request user) p ↔ ∃ group ∈ db.groups.rows,
      group.id ∈ (userAfter request user).groups ∧ p ∈ permissionsAfter request group := by
  obtain ⟨requestor, hrequestor, -, h⟩ := perform_eq_ok h
  have hsuper := hsuper requestor hrequestor
  cases request with
  | permissionGroupCreate newId input => cases htakes
  | staffCreate newId input => cases htakes
  | permissionGroupUpdate id input =>
    obtain ⟨group, users, users', addChannels, removeChannels, hfind, -, -, -, -, -, -, -, rfl⟩ :=
      PermissionGroupUpdate.accepted h
    obtain ⟨hmem, rfl⟩ := Table.find?_eq_some.mp hfind
    have hexists : ∃ x ∈ db.groups,
        pk x = pk (PermissionGroupUpdate.updated group input addChannels removeChannels) :=
      ⟨group, hmem, rfl⟩
    have hpermissions : permissionsAfter (.permissionGroupUpdate (pk group) input) group
        = (PermissionGroupUpdate.updated group input addChannels removeChannels).permissions :=
      if_pos rfl
    have hothers : ∀ g : Group, pk g ≠ pk group →
        permissionsAfter (.permissionGroupUpdate (pk group) input) g = g.permissions :=
      fun g hne => if_neg hne
    constructor
    · rintro ⟨g, hg, hmember, hp⟩
      have hg : g ∈ db.groups.save
        (PermissionGroupUpdate.updated group input addChannels removeChannels) := hg
      rcases (Table.mem_save hexists).mp hg with rfl | ⟨hg, hne⟩
      · exact ⟨group, hmem, hmember, hpermissions ▸ hp⟩
      · exact ⟨g, hg, hmember, (hothers g hne).symm ▸ hp⟩
    · rintro ⟨g, hg, hmember, hp⟩
      by_cases hid : pk g = pk group
      · obtain rfl : g = group := Table.eq_of_pk_eq hg hmem hid
        exact ⟨_, (Table.mem_save hexists).mpr (.inl rfl), hmember, hpermissions ▸ hp⟩
      · exact ⟨g, (Table.mem_save hexists).mpr (.inr ⟨hg, hid⟩), hmember, hothers g hid ▸ hp⟩
  | permissionGroupDelete id =>
    obtain ⟨group, -, -, -, rfl⟩ := PermissionGroupDelete.accepted hsuper h
    constructor
    · rintro ⟨g, hg, hmember, hp⟩
      exact ⟨g, List.mem_of_mem_filter hg, hmember, hp⟩
    · rintro ⟨g, hg, hmember, hp⟩
      have hne : g.id ≠ id := (Finset.mem_erase.mp hmember).1
      exact ⟨g, List.mem_filter.mpr ⟨hg, by simpa using hne⟩, hmember, hp⟩
  | staffUpdate id input =>
    obtain ⟨instance', groups, groups', -, -, -, -, -, -, -, rfl⟩ := StaffUpdate.accepted hsuper h
    exact Iff.rfl

/-- **Who manages a permission after a request.** -/
theorem managed_after {requestorId : ℕ} {request : Request} (htakes : request.TakesAway)
    (hsuper : ∀ user, db.users.find? requestorId = some user → user.isSuperuser = false)
    (h : perform db requestorId request = .ok db') (p : Permission) :
    Managed db' p ↔ ∃ user ∈ db.users.rows, ManagesAfter db request user p := by
  have hflags : ∀ user, (userAfter request user).isSuperuser = user.isSuperuser ∧
      (userAfter request user).userPermissions = user.userPermissions := by
    intro user
    cases request with
    | staffUpdate id input =>
      rw [userAfter.eq_def]
      dsimp only
      split <;> exact ⟨rfl, rfl⟩
    | _ => exact ⟨rfl, rfl⟩
  have hholds : ∀ user q, q ∈ effectivePermissions db' (userAfter request user) ↔
      HoldsAfter db request user q := by
    intro user q
    rw [mem_effectivePermissions, groupPermission_after htakes hsuper h, (hflags user).1,
      (hflags user).2]
    rfl
  rw [Managed, users_after htakes hsuper h]
  constructor
  · rintro ⟨user', huser', hactive, hstaff, hmanage, hp⟩
    obtain ⟨user, huser, rfl⟩ := List.mem_map.mp huser'
    exact ⟨user, huser, hactive, hstaff, (hholds user _).mp hmanage, (hholds user p).mp hp⟩
  · rintro ⟨user, huser, hactive, hstaff, hmanage, hp⟩
    exact ⟨_, List.mem_map_of_mem huser, hactive, hstaff, (hholds user _).mpr hmanage,
      (hholds user p).mpr hp⟩

/-! ### Where the checks suffice -/

/-- Where they do not: somebody's `MANAGE_STAFF` is at stake, or somebody who is not staff has it. -/
def AtStake (db : Db) (requestorId : ℕ) (request : Request) : Prop :=
  (∃ user ∈ db.users.rows, hasPerm db user .manageStaff = true ∧ user.isStaff = false) ∨
    match request with
    | .permissionGroupUpdate id input => ∃ group, db.groups.find? id = some group ∧
        .manageStaff ∈ group.permissions ∧
        (input.removeUsers ≠ [] ∨ .manageStaff ∈ input.removePermissions)
    | .permissionGroupDelete id => ∃ group, db.groups.find? id = some group ∧
        .manageStaff ∈ group.permissions
    | .staffUpdate id input => id = requestorId ∧ input.removeGroups ≠ []
    | _ => False

/-- A permission that a user does not owe to the group with this id. -/
def HeldElsewhere (db : Db) (groupId : ℕ) (user : User) (p : Permission) : Prop :=
  user.isSuperuser = true ∨ p ∈ user.userPermissions ∨
    ∃ g ∈ db.groups.rows, g.id ≠ groupId ∧ g.id ∈ user.groups ∧ p ∈ g.permissions

/-- A permission is held elsewhere, or through the group. -/
theorem heldElsewhere_or {group : Group} (hgroup : group ∈ db.groups)
    (h : p ∈ effectivePermissions db user) :
    HeldElsewhere db group.id user p ∨ (group.id ∈ user.groups ∧ p ∈ group.permissions) := by
  rcases mem_effectivePermissions.mp h with h | h | ⟨g, hg, hmember, hp⟩
  · exact .inl (.inl h)
  · exact .inl (.inr (.inl h))
  · by_cases hid : g.id = group.id
    · obtain rfl : g = group := Table.eq_of_pk_eq hg hgroup hid
      exact .inr ⟨hmember, hp⟩
    · exact .inl (.inr (.inr ⟨g, hg, hid, hmember, hp⟩))

theorem HeldElsewhere.mem_effectivePermissions {groupId : ℕ} (h : HeldElsewhere db groupId user p) :
    p ∈ effectivePermissions db user := by
  rw [Permissions.mem_effectivePermissions]
  rcases h with h | h | ⟨g, hg, -, hmember, hp⟩
  · exact .inl h
  · exact .inr (.inl h)
  · exact .inr (.inr ⟨g, hg, hmember, hp⟩)

/-- Where nothing is at stake, whoever has `MANAGE_STAFF` is staff. -/
theorem isStaff_of_not_exists
    (h : ¬ ∃ user ∈ db.users.rows, hasPerm db user .manageStaff = true ∧ user.isStaff = false) :
    ∀ user ∈ db.users.rows, hasPerm db user .manageStaff = true → user.isStaff = true := by
  intro user huser hperm
  by_contra hnot
  exact h ⟨user, huser, hperm, Bool.eq_false_iff.mpr hnot⟩

/-- A manager who is found among the other groups. -/
theorem exists_manager_elsewhere {group : Group}
    (hstaff : ∀ user ∈ db.users.rows, hasPerm db user .manageStaff = true → user.isStaff = true)
    (h : FoundIn (otherGroups db group) p) :
    ∃ user ∈ db.users.rows, user.isActive = true ∧ user.isStaff = true ∧
      HeldElsewhere db group.id user .manageStaff ∧ HeldElsewhere db group.id user p := by
  obtain ⟨user, huser, hactive, hmanage, hp⟩ := foundIn_otherGroups_iff.mp h
  have hmanage : HeldElsewhere db group.id user .manageStaff :=
    .inr (.inr (groupPermission_withoutGroup.mp hmanage))
  exact ⟨user, huser, hactive,
    hstaff user huser (hasPerm_iff.mpr ⟨hactive, hmanage.mem_effectivePermissions⟩),
    hmanage, .inr (.inr (groupPermission_withoutGroup.mp hp))⟩

/-! #### Updating a group -/

/-- What a user holds elsewhere an update leaves him. -/
theorem HeldElsewhere.holdsAfter_update {id : ℕ} {input : PermissionGroupUpdateInput}
    (h : HeldElsewhere db id user p) :
    HoldsAfter db (.permissionGroupUpdate id input) user p := by
  rcases h with h | h | ⟨g, hg, hne, hmember, hp⟩
  · exact .inl h
  · exact .inr (.inl h)
  · refine .inr (.inr ⟨g, hg, ?_, ?_⟩)
    · have hadded : g.id ∈ if user.id ∈ input.addUsers then insert id user.groups
          else user.groups := by
        split
        · exact Finset.mem_insert_of_mem hmember
        · exact hmember
      rw [userAfter]
      dsimp only
      split
      · exact Finset.mem_erase.mpr ⟨hne, hadded⟩
      · exact hadded
    · rw [permissionsAfter, if_neg hne]
      exact hp

/-- What an update leaves the group it leaves its members. -/
theorem holdsAfter_member {group : Group} {input : PermissionGroupUpdateInput}
    (hgroup : group ∈ db.groups) (hmember : group.id ∈ user.groups ∨ user.id ∈ input.addUsers)
    (hkept : user.id ∉ input.removeUsers) (hp : p ∈ group.permissions)
    (hleft : p ∉ input.removePermissions) :
    HoldsAfter db (.permissionGroupUpdate group.id input) user p := by
  refine .inr (.inr ⟨group, hgroup, ?_, ?_⟩)
  · rw [userAfter]
    dsimp only
    rw [if_neg hkept]
    split
    · exact Finset.mem_insert_self _ _
    · rename_i hnot
      exact hmember.resolve_right hnot
  · rw [permissionsAfter, if_pos rfl]
    exact Finset.mem_sdiff.mpr
      ⟨Finset.mem_union_left _ hp, fun hmem => hleft (List.mem_toFinset.mp hmem)⟩

/-- What the check of the users to remove finds, for a group that does not give `MANAGE_STAFF`. -/
theorem exists_manager_of_removeUsers {group : Group} {removeUsers : List User}
    (hgives : .manageStaff ∉ group.permissions)
    (h : getNotManageablePermissionsAfterRemovingUsersFromGroup db group removeUsers = ∅)
    (hp : p ∈ group.permissions) :
    (∃ user ∈ db.users.rows, user ∉ removeUsers ∧ group.id ∈ user.groups ∧
        hasPerm db user .manageStaff = true) ∨ FoundIn (otherGroups db group) p := by
  rw [getNotManageablePermissionsAfterRemovingUsersFromGroup] at h
  dsimp only at h
  rw [if_neg fun hmany => hgives hmany.2] at h
  split at h
  · rename_i hany
    obtain ⟨user, huser, hperm⟩ := List.any_eq_true.mp hany
    obtain ⟨huser, hkept⟩ := List.mem_filter.mp huser
    obtain ⟨huser, hmember⟩ := List.mem_filter.mp huser
    exact .inl ⟨user, huser, of_decide_eq_true hkept, of_decide_eq_true hmember, hperm⟩
  · exact .inr (foundIn_of_getNotManageablePermissions h hp)

/-- **An update whose group does not take `MANAGE_STAFF` from anybody** leaves every managed
permission managed. -/
theorem managed_of_update {requestorId id : ℕ} {input : PermissionGroupUpdateInput}
    (hsuper : requestor.isSuperuser = false)
    (hsafe : ¬ AtStake db requestorId (.permissionGroupUpdate id input))
    (h : PermissionGroupUpdate.performMutation db requestor id input = .ok db')
    (hmanaged : Managed db p) :
    ∃ user ∈ db.users.rows, ManagesAfter db (.permissionGroupUpdate id input) user p := by
  obtain ⟨group, users, users', addChannels, removeChannels, hfind, husers, husers', -, hdisjoint, -,
    hperms, hclean, -⟩ := PermissionGroupUpdate.accepted h
  obtain ⟨hgroup, rfl⟩ := Table.find?_eq_some.mp hfind
  obtain ⟨hstaff, hgives⟩ := not_or.mp hsafe
  have hstaff := isStaff_of_not_exists hstaff
  have hgives : .manageStaff ∈ group.permissions →
      input.removeUsers = [] ∧ .manageStaff ∉ input.removePermissions := by
    intro hmem
    by_contra hnot
    refine hgives ⟨group, hfind, hmem, ?_⟩
    by_contra hneither
    obtain ⟨hnone, hkept⟩ := not_or.mp hneither
    exact hnot ⟨not_not.mp hnone, hkept⟩
  obtain ⟨-, -, hremovable⟩ := PermissionGroupUpdate.cleanPermissions_eq_nil hsuper hperms
  obtain ⟨haddStaff, hremovableUsers⟩ := PermissionGroupUpdate.cleanUsers_eq_nil hsuper hclean
  have hfound : FoundIn (otherGroups db group) p → ∃ user ∈ db.users.rows,
      ManagesAfter db (.permissionGroupUpdate (pk group) input) user p := by
    intro hfound
    obtain ⟨user, huser, hactive, hisStaff, hmanage, hp⟩ := exists_manager_elsewhere hstaff hfound
    exact ⟨user, huser, hactive, hisStaff, hmanage.holdsAfter_update, hp.holdsAfter_update⟩
  -- a manager of today keeps `MANAGE_STAFF`
  obtain ⟨manager, hmanager, hactive, hisStaff, hmanage, hp⟩ := hmanaged
  have hkeeps : HoldsAfter db (.permissionGroupUpdate (pk group) input) manager .manageStaff := by
    rcases heldElsewhere_or hgroup hmanage with hmanage | ⟨hmember, hmanage⟩
    · exact hmanage.holdsAfter_update
    · obtain ⟨hnobody, hleft⟩ := hgives hmanage
      exact holdsAfter_member hgroup (.inl hmember) (by simp [hnobody]) hmanage hleft
  rcases heldElsewhere_or hgroup hp with hp | ⟨hmember, hp⟩
  · exact ⟨manager, hmanager, hactive, hisStaff, hkeeps, hp.holdsAfter_update⟩
  by_cases hremoved : p ∈ input.removePermissions
  · -- the permission is removed, and has been looked for
    exact hfound (foundIn_of_getNotManageablePermissions
      (hremovable (List.ne_nil_of_mem hremoved)) (List.mem_toFinset.mpr hremoved))
  by_cases hleaves : manager.id ∈ input.removeUsers
  · -- the manager is removed, and the group does not give `MANAGE_STAFF`
    have hnot : .manageStaff ∉ group.permissions := by
      intro hmem
      rw [(hgives hmem).1] at hleaves
      cases hleaves
    have hother : ∀ user : User, hasPerm db user .manageStaff = true →
        HoldsAfter db (.permissionGroupUpdate (pk group) input) user .manageStaff := by
      intro user hperm
      have hheld := heldElsewhere_or hgroup (hasPerm_iff.mp hperm).2
      exact (hheld.resolve_right fun h => hnot h.2).holdsAfter_update
    have hne : users' ≠ [] := by
      rintro rfl
      obtain ⟨user, huser, -⟩ := husers'.all _ hleaves
      cases huser
    rcases (hremovableUsers hne).manageable with hadded | hmanageable
    · -- somebody who is added has it
      obtain ⟨user, huser, hperm⟩ := List.any_eq_true.mp hadded
      obtain ⟨hrow, hid⟩ := (husers.mem user).mp huser
      exact ⟨user, hrow, (hasPerm_iff.mp hperm).1, haddStaff user huser, hother user hperm,
        holdsAfter_member hgroup (.inr hid) (hdisjoint _ hid) hp hremoved⟩
    · rcases exists_manager_of_removeUsers hnot hmanageable hp with
        ⟨user, hrow, hkept, hmember, hperm⟩ | hsearch
      · -- somebody who stays has it
        have hstays : user.id ∉ input.removeUsers := fun hid => hkept ((husers'.mem user).mpr ⟨hrow, hid⟩)
        exact ⟨user, hrow, (hasPerm_iff.mp hperm).1, hstaff user hrow hperm, hother user hperm,
          holdsAfter_member hgroup (.inl hmember) hstays hp hremoved⟩
      · exact hfound hsearch
  · exact ⟨manager, hmanager, hactive, hisStaff, hkeeps,
      holdsAfter_member hgroup (.inl hmember) hleaves hp hremoved⟩

/-! #### Deleting a group -/

theorem HeldElsewhere.holdsAfter_delete {id : ℕ} (h : HeldElsewhere db id user p) :
    HoldsAfter db (.permissionGroupDelete id) user p := by
  rcases h with h | h | ⟨g, hg, hne, hmember, hp⟩
  · exact .inl h
  · exact .inr (.inl h)
  · exact .inr (.inr ⟨g, hg, Finset.mem_erase.mpr ⟨hne, hmember⟩, hp⟩)

/-- **Deleting a group that does not give `MANAGE_STAFF`** leaves every managed permission
managed. -/
theorem managed_of_delete {requestorId id : ℕ} (hsuper : requestor.isSuperuser = false)
    (hsafe : ¬ AtStake db requestorId (.permissionGroupDelete id))
    (h : PermissionGroupDelete.performMutation db requestor id = .ok db')
    (hmanaged : Managed db p) :
    ∃ user ∈ db.users.rows, ManagesAfter db (.permissionGroupDelete id) user p := by
  obtain ⟨group, hfind, -, hmanageable, -⟩ := PermissionGroupDelete.accepted hsuper h
  obtain ⟨hgroup, rfl⟩ := Table.find?_eq_some.mp hfind
  obtain ⟨hstaff, hgives⟩ := not_or.mp hsafe
  have hstaff := isStaff_of_not_exists hstaff
  have hnot : .manageStaff ∉ group.permissions := fun hmem => hgives ⟨group, hfind, hmem⟩
  obtain ⟨manager, hmanager, hactive, hisStaff, hmanage, hp⟩ := hmanaged
  have hkeeps := (heldElsewhere_or hgroup hmanage).resolve_right fun h => hnot h.2
  rcases heldElsewhere_or hgroup hp with hp | ⟨-, hp⟩
  · exact ⟨manager, hmanager, hactive, hisStaff, hkeeps.holdsAfter_delete, hp.holdsAfter_delete⟩
  · obtain ⟨user, huser, hactive, hisStaff, hmanage, hp⟩ := exists_manager_elsewhere hstaff
      (foundIn_of_getNotManageablePermissions hmanageable hp)
    exact ⟨user, huser, hactive, hisStaff, hmanage.holdsAfter_delete, hp.holdsAfter_delete⟩

/-! #### Updating staff -/

/-- A user of whom a `StaffUpdate` takes nothing. -/
theorem managesAfter_staffUpdate {id : ℕ} {input : StaffUpdateInput} (h : Manages db user p)
    (hsame : userAfter (.staffUpdate id input) user = user ∨
      ((userAfter (.staffUpdate id input) user).isActive = true ∧
        (userAfter (.staffUpdate id input) user).isStaff = true ∧
        user.groups ⊆ (userAfter (.staffUpdate id input) user).groups)) :
    ManagesAfter db (.staffUpdate id input) user p := by
  obtain ⟨hactive, hstaff, hmanage, hp⟩ := h
  have hsub : user.groups ⊆ (userAfter (.staffUpdate id input) user).groups := by
    rcases hsame with hsame | ⟨-, -, hsub⟩
    · rw [hsame]
    · exact hsub
  have hholds : ∀ q, q ∈ effectivePermissions db user →
      HoldsAfter db (.staffUpdate id input) user q := by
    intro q hq
    rcases mem_effectivePermissions.mp hq with hq | hq | ⟨g, hg, hmember, hq⟩
    · exact .inl hq
    · exact .inr (.inl hq)
    · exact .inr (.inr ⟨g, hg, hsub hmember, hq⟩)
  refine ⟨?_, ?_, hholds _ hmanage, hholds p hp⟩
  · rcases hsame with hsame | ⟨hactive', -, -⟩
    · rw [hsame]
      exact hactive
    · exact hactive'
  · rcases hsame with hsame | ⟨-, hstaff', -⟩
    · rw [hsame]
      exact hstaff
    · exact hstaff'

/-- **A `StaffUpdate` by which nobody removes himself from groups** leaves every managed permission
managed: the requestor has all that he takes from another. -/
theorem managed_of_staffUpdate {requestorId id : ℕ} {input : StaffUpdateInput}
    (hsuper : requestor.isSuperuser = false) (hrequestor : db.users.find? requestorId = some requestor)
    (hperm : hasPerm db requestor .manageStaff = true)
    (hsafe : ¬ AtStake db requestorId (.staffUpdate id input))
    (h : StaffUpdate.performMutation db requestor id input = .ok db')
    (hmanaged : Managed db p) :
    ∃ user ∈ db.users.rows, ManagesAfter db (.staffUpdate id input) user p := by
  obtain ⟨instance', groups, groups', hinstance, hscope, -, -, -, -, hclean, -⟩ :=
    StaffUpdate.accepted hsuper h
  obtain ⟨hrow, hid⟩ := Table.find?_eq_some.mp hrequestor
  obtain ⟨hstaff, hown⟩ := not_or.mp hsafe
  obtain ⟨manager, hmanager, hmanages⟩ := hmanaged
  have hothers : ∀ user : User, user.id ≠ id → userAfter (.staffUpdate id input) user = user :=
    fun user hne => if_neg hne
  by_cases hself : manager.id = id
  · have hmanager' : manager = instance' :=
      Table.eq_of_pk_eq hmanager (Table.find?_eq_some.mp hinstance).1
        (hself.trans (Table.find?_eq_some.mp hinstance).2.symm)
    subst hmanager'
    by_cases hrequests : id = requestorId
    · -- the requestor himself, who is not deactivated and leaves no group
      subst hrequests
      have heq : requestor = manager := Option.some.inj (hrequestor.symm.trans hinstance)
      subst heq
      have hnone : input.removeGroups = [] := by
        by_contra hne
        exact hown ⟨rfl, hne⟩
      have hactive : fieldValue true requestor.isActive input.isActive = true := by
        have hnot : input.isActive.getD none ≠ some false := by
          intro hfalse
          rw [StaffUpdate.cleanIsActive, if_pos hfalse, if_pos rfl] at hclean
          cases hclean
        rcases hinput : input.isActive with _ | _ | _ | _
        · exact hmanages.1
        · rfl
        · rw [hinput] at hnot
          exact absurd rfl hnot
        · rfl
      have hafter : userAfter (.staffUpdate id input) requestor = { requestor with
          isStaff := true
          isActive := fieldValue true requestor.isActive input.isActive
          groups := (requestor.groups ∪ input.addGroups.toFinset) \ input.removeGroups.toFinset } :=
        if_pos hself
      refine ⟨requestor, hrow, managesAfter_staffUpdate hmanages (.inr ?_)⟩
      rw [hafter]
      refine ⟨hactive, rfl, fun g hg => ?_⟩
      rw [hnone]
      exact Finset.mem_sdiff.mpr ⟨Finset.mem_union_left _ hg, Finset.notMem_empty g⟩
    · -- the requestor holds the permission as well
      obtain ⟨hactive, -, -, hp⟩ := hmanages
      have hheld := hasPerm_iff.mp (hscope p (hasPerm_iff.mpr ⟨hactive, hp⟩))
      have hisStaff : requestor.isStaff = true := by
        by_contra hnot
        exact hstaff ⟨requestor, hrow, hperm, Bool.eq_false_iff.mpr hnot⟩
      have hne : requestor.id ≠ id := fun heq => hrequests (heq.symm.trans hid)
      exact ⟨requestor, hrow, managesAfter_staffUpdate
        ⟨hheld.1, hisStaff, (hasPerm_iff.mp hperm).2, hheld.2⟩ (.inl (hothers requestor hne))⟩
  · exact ⟨manager, hmanager, managesAfter_staffUpdate hmanages (.inl (hothers manager hself))⟩

/-! ### Management of permissions is kept -/

/-- Members of staff: 1 manages staff, 2 manages staff and, through a group of its own, orders. -/
def twoManagers : Db where
  users := ⟨[{ id := 1, isStaff := true, groups := {10} },
    { id := 2, isStaff := true, groups := {11, 12} }], by decide⟩
  groups := ⟨[{ id := 10, permissions := {.manageStaff} },
    { id := 11, permissions := {.manageStaff} },
    { id := 12, permissions := {.manageOrders} }], by decide⟩
  channels := ∅

end Permissions

end Aixinwu
