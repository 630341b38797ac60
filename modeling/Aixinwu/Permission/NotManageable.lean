import Aixinwu.Permission.Utils

/-!
# What is not manageable, exactly

The two functions that go by groups alone, `get_not_manageable_permissions_after_group_deleting` and
`get_not_manageable_permissions_when_deactivate_or_remove_users`, go through the groups twice and stop
early where nothing is left to be found, nobody is there to hold it or nobody is concerned. What they
return is what the two rounds return without any of these shortcuts, and that is what no active user
holds together with `MANAGE_STAFF`: a permission may well come from another group than `MANAGE_STAFF`.

They see what a user has through groups. That is all he has unless he is a superuser or permissions
were given to him directly, which no mutation does.

## Main definitions

* `FoundIn` — what the two rounds look for
* `search`, `searchOutside` — the two rounds without shortcuts
* `withoutGroup`

## Main results

* `getNotManageablePermissions_eq_search`, `whenDeactivateOrRemoveUsers_eq_search`
* `mem_getNotManageablePermissions`
* `notManageable_exact`
-/

namespace Aixinwu

namespace Permissions

variable {db : Db} {user : User} {group : Group} {p : Permission}

/-! ### The two rounds -/

/-- What the two rounds look for: a user in a group with `MANAGE_STAFF` and in a group with the
permission. -/
def FoundIn (groupsData : List GroupData) (p : Permission) : Prop :=
  ∃ d ∈ groupsData, ∃ userId ∈ d.users, .manageStaff ∈ d.permissions ∧
    ∃ d' ∈ groupsData, userId ∈ d'.users ∧ p ∈ d'.permissions

/-- The two rounds, with no shortcut. -/
def search (groupsData : List GroupData) (permissions : Finset Permission) : Finset Permission :=
  let (users, permissions) :=
    getUsersAndLookForPermissionsInGroupsWithManageStaff groupsData permissions
  lookForPermissionInUsersWithManageStaff groupsData users permissions

/-- The search for what some users hold among all others, with no shortcut. -/
def searchOutside (db : Db) (users : List User) : Finset Permission :=
  let usersToCheck := users.filter (hasPerm db · .manageStaff)
  let groupsData := getGroupToPermissionsAndUsersMapping db
  let (manageStaffUsers, _) := getUsersAndLookForPermissionsInGroupsWithManageStaff groupsData ∅
  lookForPermissionInUsersWithManageStaff groupsData
    (manageStaffUsers \ (usersToCheck.map (·.id)).toFinset)
    (usersToCheck.toFinset.biUnion (getAllPermissions db))

theorem mem_lookForPermission {groupsData : List GroupData} {users : Finset ℕ}
    {toFind : Finset Permission} {p : Permission} :
    p ∈ lookForPermissionInUsersWithManageStaff groupsData users toFind ↔
      p ∈ toFind ∧ ∀ d ∈ groupsData, users ∩ d.users ≠ ∅ → p ∉ d.permissions := by
  rw [lookForPermissionInUsersWithManageStaff]
  induction groupsData generalizing toFind with
  | nil => simp
  | cons d groupsData ih =>
    rw [List.foldl_cons, ih]
    by_cases hcommon : users ∩ d.users ≠ ∅
    · rw [if_pos hcommon]
      simp only [Finset.mem_sdiff, Finset.mem_inter, List.mem_cons, forall_eq_or_imp]
      tauto
    · rw [if_neg hcommon]
      simp only [List.mem_cons, forall_eq_or_imp]
      tauto

/-- Nothing to look for. -/
@[simp] theorem lookForPermission_empty (groupsData : List GroupData) (users : Finset ℕ) :
    lookForPermissionInUsersWithManageStaff groupsData users ∅ = ∅ := by
  ext p
  simp [mem_lookForPermission]

/-- Nobody to look at. -/
@[simp] theorem lookForPermission_nobody (groupsData : List GroupData) (toFind : Finset Permission) :
    lookForPermissionInUsersWithManageStaff groupsData ∅ toFind = toFind := by
  ext p
  simp [mem_lookForPermission]

theorem mem_foldl_lookInGroup (groupsData : List GroupData) (found : Finset ℕ × Finset Permission) :
    (∀ userId, userId ∈ (groupsData.foldl lookInGroup found).1 ↔
      userId ∈ found.1 ∨ ∃ d ∈ groupsData, userId ∈ d.users ∧ .manageStaff ∈ d.permissions) ∧
    ∀ p, p ∈ (groupsData.foldl lookInGroup found).2 ↔
      p ∈ found.2 ∧ ∀ d ∈ groupsData, d.users ≠ ∅ → .manageStaff ∈ d.permissions →
        p ∉ d.permissions := by
  induction groupsData generalizing found with
  | nil => simp
  | cons d groupsData ih =>
    obtain ⟨husers, hperms⟩ := ih (lookInGroup found d)
    rw [List.foldl_cons]
    constructor
    · intro userId
      rw [husers, lookInGroup]
      split
      · rename_i h
        simp only [Finset.mem_union, List.mem_cons, exists_eq_or_imp]
        tauto
      · rename_i h
        have hnot : ¬ (userId ∈ d.users ∧ .manageStaff ∈ d.permissions) :=
          fun hd => h ⟨Finset.ne_empty_of_mem hd.1, hd.2⟩
        simp only [List.mem_cons, exists_eq_or_imp, hnot, false_or]
    · intro p
      rw [hperms, lookInGroup]
      split
      · rename_i h
        simp only [Finset.mem_sdiff, Finset.mem_inter, List.mem_cons, forall_eq_or_imp]
        tauto
      · rename_i h
        simp only [List.mem_cons, forall_eq_or_imp]
        tauto

/-- The users of the first round. -/
theorem mem_managers {groupsData : List GroupData} {permissions : Finset Permission} {userId : ℕ} :
    userId ∈ (getUsersAndLookForPermissionsInGroupsWithManageStaff groupsData permissions).1 ↔
      ∃ d ∈ groupsData, userId ∈ d.users ∧ .manageStaff ∈ d.permissions := by
  have h := (mem_foldl_lookInGroup groupsData (∅, permissions)).1 userId
  rw [getUsersAndLookForPermissionsInGroupsWithManageStaff, h]
  simp

/-- **What the two rounds leave**: what they have not found. The first round finds a permission that
comes along with `MANAGE_STAFF` in one group, the second any other. -/
theorem mem_search {groupsData : List GroupData} {permissions : Finset Permission} :
    p ∈ search groupsData permissions ↔ p ∈ permissions ∧ ¬ FoundIn groupsData p := by
  have hround : p ∈ (getUsersAndLookForPermissionsInGroupsWithManageStaff groupsData permissions).2 ↔
      p ∈ permissions ∧ ∀ d ∈ groupsData, d.users ≠ ∅ → .manageStaff ∈ d.permissions →
        p ∉ d.permissions :=
    (mem_foldl_lookInGroup groupsData (∅, permissions)).2 p
  rw [search, mem_lookForPermission, hround, and_assoc]
  refine and_congr_right fun hp => ⟨?_, fun hnot => ⟨?_, ?_⟩⟩
  · rintro ⟨-, hsecond⟩ ⟨d, hd, userId, huser, hstaff, d', hd', huser', hpd⟩
    refine hsecond d' hd' (Finset.ne_empty_of_mem (a := userId) ?_) hpd
    exact Finset.mem_inter.mpr ⟨mem_managers.mpr ⟨d, hd, huser, hstaff⟩, huser'⟩
  · intro d hd hne hstaff hpd
    obtain ⟨userId, huser⟩ := Finset.nonempty_iff_ne_empty.mpr hne
    exact hnot ⟨d, hd, userId, huser, hstaff, d, hd, huser, hpd⟩
  · intro d' hd' hcommon hpd
    obtain ⟨userId, huser⟩ := Finset.nonempty_iff_ne_empty.mpr hcommon
    obtain ⟨hfound, huser'⟩ := Finset.mem_inter.mp huser
    obtain ⟨d, hd, huser, hstaff⟩ := mem_managers.mp hfound
    exact hnot ⟨d, hd, userId, huser, hstaff, d', hd', huser', hpd⟩

/-- **The shortcuts change nothing.** -/
theorem getNotManageablePermissions_eq_search (groupsData : List GroupData)
    (permissions : Finset Permission) :
    getNotManageablePermissions groupsData permissions = search groupsData permissions := by
  rw [getNotManageablePermissions, search]
  dsimp only
  split
  · rename_i hnone
    rw [hnone, lookForPermission_empty]
  · split
    · rename_i hnobody
      rw [hnobody, lookForPermission_nobody]
    · rfl

theorem mem_getNotManageablePermissions {groupsData : List GroupData}
    {permissions : Finset Permission} :
    p ∈ getNotManageablePermissions groupsData permissions ↔
      p ∈ permissions ∧ ¬ FoundIn groupsData p := by
  rw [getNotManageablePermissions_eq_search, mem_search]

/-- If nothing is left, each permission has been found. -/
theorem foundIn_of_getNotManageablePermissions {groupsData : List GroupData}
    {perms : Finset Permission} (h : getNotManageablePermissions groupsData perms = ∅)
    (hp : p ∈ perms) : FoundIn groupsData p := by
  by_contra hnot
  have hleft := mem_getNotManageablePermissions.mpr ⟨hp, hnot⟩
  rw [h] at hleft
  cases hleft

theorem whenDeactivateOrRemoveUsers_eq_search (db : Db) (users : List User) :
    getNotManageablePermissionsWhenDeactivateOrRemoveUsers db users = searchOutside db users := by
  rw [getNotManageablePermissionsWhenDeactivateOrRemoveUsers, searchOutside]
  dsimp only
  split
  · rename_i hnone
    simp [hnone]
  · split
    · rename_i hnobody
      rw [hnobody, Finset.empty_sdiff, lookForPermission_nobody]
    · rfl

/-! ### Users and their groups -/

/-- The entry of a group. -/
def groupData (db : Db) (group : Group) : GroupData where
  pk := group.id
  permissions := group.permissions
  users := (((userSet db group).filter (·.isActive)).map (·.id)).toFinset

theorem mem_mapping {d : GroupData} : d ∈ getGroupToPermissionsAndUsersMapping db ↔
    ∃ g ∈ db.groups.rows, groupData db g = d :=
  List.mem_map

theorem mem_otherGroups {d : GroupData} : d ∈ otherGroups db group ↔
    ∃ g ∈ db.groups.rows, g.id ≠ group.id ∧ groupData db g = d := by
  rw [otherGroups, List.mem_filter, mem_mapping]
  constructor
  · rintro ⟨⟨g, hg, rfl⟩, hne⟩
    exact ⟨g, hg, of_decide_eq_true hne, rfl⟩
  · rintro ⟨g, hg, hne, rfl⟩
    exact ⟨⟨g, hg, rfl⟩, decide_eq_true hne⟩

/-- The users of an entry are rows. -/
theorem mem_users_groupData {userId : ℕ} : userId ∈ (groupData db group).users ↔
    ∃ user ∈ db.users.rows, user.id = userId ∧ user.isActive = true ∧ group.id ∈ user.groups := by
  rw [groupData, List.mem_toFinset, List.mem_map]
  constructor
  · rintro ⟨user, huser, rfl⟩
    obtain ⟨huser, hactive⟩ := List.mem_filter.mp huser
    obtain ⟨huser, hmember⟩ := List.mem_filter.mp huser
    exact ⟨user, huser, rfl, hactive, of_decide_eq_true hmember⟩
  · rintro ⟨user, huser, rfl, hactive, hmember⟩
    refine ⟨user, List.mem_filter.mpr ⟨List.mem_filter.mpr ⟨huser, ?_⟩, hactive⟩, rfl⟩
    exact decide_eq_true hmember

theorem id_mem_users_groupData (huser : user ∈ db.users.rows) :
    user.id ∈ (groupData db group).users ↔ user.isActive = true ∧ group.id ∈ user.groups := by
  rw [mem_users_groupData]
  constructor
  · rintro ⟨user', huser', hid, hactive, hmember⟩
    obtain rfl : user' = user := Table.eq_of_pk_eq huser' huser hid
    exact ⟨hactive, hmember⟩
  · rintro ⟨hactive, hmember⟩
    exact ⟨user, huser, rfl, hactive, hmember⟩

/-- The tables without a group. -/
def withoutGroup (db : Db) (group : Group) : Db :=
  { db with groups := db.groups.delete fun g => decide (g.id = group.id) }

theorem groupPermission_withoutGroup : GroupPermission (withoutGroup db group) user p ↔
    ∃ g ∈ db.groups.rows, g.id ≠ group.id ∧ g.id ∈ user.groups ∧ p ∈ g.permissions := by
  constructor
  · rintro ⟨g, hg, hmember, hp⟩
    obtain ⟨hg, hne⟩ := List.mem_filter.mp hg
    exact ⟨g, hg, by simpa using hne, hmember, hp⟩
  · rintro ⟨g, hg, hne, hmember, hp⟩
    exact ⟨g, List.mem_filter.mpr ⟨hg, by simpa using hne⟩, hmember, hp⟩

/-- **Found among the other groups**: an active user holds both through them. -/
theorem foundIn_otherGroups_iff : FoundIn (otherGroups db group) p ↔
    ∃ user ∈ db.users.rows, user.isActive = true ∧
      GroupPermission (withoutGroup db group) user .manageStaff ∧
      GroupPermission (withoutGroup db group) user p := by
  constructor
  · rintro ⟨d, hd, userId, huser, hstaff, d', hd', huser', hp⟩
    obtain ⟨g, hg, hne, rfl⟩ := mem_otherGroups.mp hd
    obtain ⟨g', hg', hne', rfl⟩ := mem_otherGroups.mp hd'
    obtain ⟨user, hrow, rfl, hactive, hmember⟩ := mem_users_groupData.mp huser
    have hmember' := ((id_mem_users_groupData hrow).mp huser').2
    exact ⟨user, hrow, hactive, groupPermission_withoutGroup.mpr ⟨g, hg, hne, hmember, hstaff⟩,
      groupPermission_withoutGroup.mpr ⟨g', hg', hne', hmember', hp⟩⟩
  · rintro ⟨user, hrow, hactive, hstaff, hp⟩
    obtain ⟨g, hg, hne, hmember, hstaff⟩ := groupPermission_withoutGroup.mp hstaff
    obtain ⟨g', hg', hne', hmember', hp⟩ := groupPermission_withoutGroup.mp hp
    exact ⟨_, mem_otherGroups.mpr ⟨g, hg, hne, rfl⟩, user.id,
      (id_mem_users_groupData hrow).mpr ⟨hactive, hmember⟩, hstaff,
      _, mem_otherGroups.mpr ⟨g', hg', hne', rfl⟩,
      (id_mem_users_groupData hrow).mpr ⟨hactive, hmember'⟩, hp⟩

/-! ### The results -/

/-- **After deleting a group** those of its permissions are not manageable that no active user holds
through the other groups together with `MANAGE_STAFF`. -/
theorem mem_afterGroupDeleting : p ∈ getNotManageablePermissionsAfterGroupDeleting db group ↔
    p ∈ group.permissions ∧ ¬ ∃ user ∈ db.users.rows, user.isActive = true ∧
      GroupPermission (withoutGroup db group) user .manageStaff ∧
      GroupPermission (withoutGroup db group) user p := by
  rw [getNotManageablePermissionsAfterGroupDeleting, mem_getNotManageablePermissions,
    foundIn_otherGroups_iff]

/-- The users of the first round are the active ones with `MANAGE_STAFF`, through a group. -/
theorem id_mem_managers (huser : user ∈ db.users.rows) :
    user.id ∈ (getUsersAndLookForPermissionsInGroupsWithManageStaff
        (getGroupToPermissionsAndUsersMapping db) ∅).1 ↔
      user.isActive = true ∧ GroupPermission db user .manageStaff := by
  rw [mem_managers]
  constructor
  · rintro ⟨d, hd, huserd, hstaff⟩
    obtain ⟨g, hg, rfl⟩ := mem_mapping.mp hd
    obtain ⟨hactive, hmember⟩ := (id_mem_users_groupData huser).mp huserd
    exact ⟨hactive, g, hg, hmember, hstaff⟩
  · rintro ⟨hactive, g, hg, hmember, hstaff⟩
    exact ⟨_, mem_mapping.mpr ⟨g, hg, rfl⟩,
      (id_mem_users_groupData huser).mpr ⟨hactive, hmember⟩, hstaff⟩

theorem GroupPermission.mem_effectivePermissions (h : GroupPermission db user p) :
    p ∈ effectivePermissions db user :=
  Permissions.mem_effectivePermissions.mpr (.inr (.inr h))

/-- **After removing users** those permissions of the managers of staff among them are not manageable
that no active user outside holds through groups together with `MANAGE_STAFF`. -/
theorem mem_whenDeactivateOrRemoveUsers {users : List User} (husers : ∀ u ∈ users, u ∈ db.users.rows) :
    p ∈ getNotManageablePermissionsWhenDeactivateOrRemoveUsers db users ↔
      (∃ user ∈ users, hasPerm db user .manageStaff = true ∧ hasPerm db user p = true) ∧
      ¬ ∃ user ∈ db.users.rows, user ∉ users ∧ user.isActive = true ∧
        GroupPermission db user .manageStaff ∧ GroupPermission db user p := by
  rw [whenDeactivateOrRemoveUsers_eq_search, searchOutside, mem_lookForPermission]
  refine and_congr ?_ ⟨fun hsearch => ?_, fun hnot => ?_⟩
  · simp only [Finset.mem_biUnion, List.mem_toFinset, List.mem_filter, mem_getAllPermissions, and_assoc]
  · rintro ⟨user, hrow, houtside, hactive, hstaff, g, hg, hmember, hp⟩
    refine hsearch _ (mem_mapping.mpr ⟨g, hg, rfl⟩) (Finset.ne_empty_of_mem (a := user.id) ?_) hp
    refine Finset.mem_inter.mpr ⟨Finset.mem_sdiff.mpr ⟨?_, fun hremoved => ?_⟩, ?_⟩
    · exact (id_mem_managers hrow).mpr ⟨hactive, hstaff⟩
    · obtain ⟨user', huser', hid⟩ := List.mem_map.mp (List.mem_toFinset.mp hremoved)
      have huser' := List.mem_of_mem_filter huser'
      obtain rfl : user' = user := Table.eq_of_pk_eq (husers user' huser') hrow hid
      exact houtside huser'
    · exact (id_mem_users_groupData hrow).mpr ⟨hactive, hmember⟩
  · intro d hd hcommon hp
    obtain ⟨g, hg, rfl⟩ := mem_mapping.mp hd
    obtain ⟨userId, huser⟩ := Finset.nonempty_iff_ne_empty.mpr hcommon
    obtain ⟨hmanager, huserd⟩ := Finset.mem_inter.mp huser
    obtain ⟨hmanager, houtside⟩ := Finset.mem_sdiff.mp hmanager
    obtain ⟨user, hrow, rfl, hactive, hmember⟩ := mem_users_groupData.mp huserd
    have hstaff := ((id_mem_managers hrow).mp hmanager).2
    refine hnot ⟨user, hrow, fun hinside => houtside ?_, hactive, hstaff, g, hg, hmember, hp⟩
    -- who is among the users and manages staff has been taken out
    refine List.mem_toFinset.mpr (List.mem_map_of_mem (List.mem_filter.mpr ⟨hinside, ?_⟩))
    exact hasPerm_iff.mpr ⟨hactive, hstaff.mem_effectivePermissions⟩

/-- **What is not manageable is computed exactly**, and the shortcuts change nothing: after deleting a
group, and after removing users, provided that the users who stay have their permissions through
groups. -/
theorem notManageable_exact (db : Db) :
    (∀ group ∈ db.groups.rows,
      getNotManageablePermissionsAfterGroupDeleting db group
        = search (otherGroups db group) group.permissions ∧
      ∀ p, p ∈ getNotManageablePermissionsAfterGroupDeleting db group ↔
        p ∈ group.permissions ∧ ¬ ∃ user ∈ db.users.rows, user.isActive = true ∧
          GroupPermission (withoutGroup db group) user .manageStaff ∧
          GroupPermission (withoutGroup db group) user p) ∧
    ∀ users : List User, (∀ user ∈ users, user ∈ db.users.rows) →
      (∀ user ∈ db.users.rows, user ∉ users → ∀ p ∈ effectivePermissions db user,
        GroupPermission db user p) →
      getNotManageablePermissionsWhenDeactivateOrRemoveUsers db users = searchOutside db users ∧
      ∀ p, p ∈ getNotManageablePermissionsWhenDeactivateOrRemoveUsers db users ↔
        (∃ user ∈ users, hasPerm db user .manageStaff = true ∧ hasPerm db user p = true) ∧
        ¬ ∃ user ∈ db.users.rows, user ∉ users ∧
          hasPerm db user .manageStaff = true ∧ hasPerm db user p = true := by
  constructor
  · intro group _
    exact ⟨getNotManageablePermissions_eq_search _ _, fun p => mem_afterGroupDeleting⟩
  · intro users husers hgroups
    refine ⟨whenDeactivateOrRemoveUsers_eq_search db users, fun p => ?_⟩
    rw [mem_whenDeactivateOrRemoveUsers husers]
    refine and_congr_right fun _ => not_congr (exists_congr fun user => ?_)
    refine and_congr_right fun hrow => and_congr_right fun houtside => ?_
    have hholds : ∀ q, hasPerm db user q = true ↔ user.isActive = true ∧ GroupPermission db user q :=
      fun q => hasPerm_iff.trans (and_congr_right fun _ =>
        ⟨hgroups user hrow houtside q, GroupPermission.mem_effectivePermissions⟩)
    rw [hholds, hholds]
    tauto

/-- A group of staff managers, one of product managers, and a user in each and one in both. -/
def threeUsers : Db where
  users := ⟨[{ id := 1, groups := {1, 2} }, { id := 2, groups := {1} }, { id := 3, groups := {2} }],
    by decide⟩
  groups := ⟨[{ id := 1, permissions := {.manageStaff} },
    { id := 2, permissions := {.manageProducts, .manageOrders} }], by decide⟩
  channels := ∅

/-- Without the user in both nobody can manage products, nor without the second group. -/
theorem notManageable_exact_threeUsers :
    .manageProducts ∈ getNotManageablePermissionsWhenDeactivateOrRemoveUsers threeUsers
      [{ id := 1, groups := {1, 2} }] ∧
    .manageProducts ∈ getNotManageablePermissionsAfterGroupDeleting threeUsers
      { id := 2, permissions := {.manageProducts, .manageOrders} } := by
  have hgroups : ∀ user ∈ threeUsers.users.rows, ∀ p ∈ effectivePermissions threeUsers user,
      GroupPermission threeUsers user p := by
    decide
  obtain ⟨hdeleting, hremoving⟩ := notManageable_exact threeUsers
  constructor
  · refine ((hremoving _ (by decide) fun user hrow _ => hgroups user hrow).2 .manageProducts).mpr ?_
    decide
  · refine ((hdeleting _ (by decide)).2 .manageProducts).mpr ?_
    decide

end Permissions

end Aixinwu
