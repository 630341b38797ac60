import Aixinwu.Permission.Accepted

/-!
# No escalation of permissions

Whatever a staff user requests, nobody comes to hold a permission that he did not hold before and the
requestor did not hold either. One request can hand out permissions in four ways: a group with
permissions is made, a group gets more of them, users are put into a group, and a user is put into
groups. Each has a check of its own, and all come to the same bound (`Within`): whatever a user has
through a group afterwards, he had before or the requestor has.

What counts is `effective_permissions`, which does not ask whether a user is active.

## Main definitions

* `permissionsOf` — the effective permissions of the user with an id
* `Within` — what one request may have made of a user

## Main results

* `within_of_accepted` — the step
* `no_escalation` — the run
-/

namespace Aixinwu

namespace Permissions

/-- The effective permissions of the user with this id; who does not exist has none. -/
def permissionsOf (db : Db) (userId : ℕ) : Finset Permission :=
  match db.users.find? userId with
  | some user => effectivePermissions db user
  | none => ∅

/-- What has become of a user: he is as much a superuser as before and has the same permissions of
his own, and what he has through groups he had before, or it is within the bound. A new user starts
with nothing. -/
structure Within (db db' : Db) (bound : Finset Permission) (old user : User) : Prop where
  isSuperuser : user.isSuperuser = old.isSuperuser
  userPermissions : user.userPermissions = old.userPermissions
  groups : ∀ p, GroupPermission db' user p → GroupPermission db old p ∨ p ∈ bound

variable {db db' : Db} {requestor user : User}

theorem mem_permissionsOf {userId : ℕ} {p : Permission} : p ∈ permissionsOf db userId ↔
    ∃ user, db.users.find? userId = some user ∧ p ∈ effectivePermissions db user := by
  rw [permissionsOf]
  cases db.users.find? userId <;> simp

/-! ### Rows that change -/

/-- A row of the users after the groups of some have changed. -/
theorem find?_changeGroups {table : Table User} {users : List User}
    {change : Finset ℕ → Finset ℕ} {userId : ℕ}
    (h : (PermissionGroupCreate.changeGroups table users change).find? userId = some user) :
    ∃ old, table.find? userId = some old ∧
      user = { old with
        groups := if old.id ∈ users.map (·.id) then change old.groups else old.groups } := by
  rw [PermissionGroupCreate.changeGroups, Table.find?_map] at h
  obtain ⟨old, hold, rfl⟩ := Option.map_eq_some_iff.mp h
  exact ⟨old, hold, rfl⟩

/-- Users who are put into a group. -/
theorem find?_addUsers {table : Table User} {users : List User} {groupId userId : ℕ}
    (h : (PermissionGroupCreate.addUsers table groupId users).find? userId = some user) :
    ∃ old, table.find? userId = some old ∧ user = { old with groups := user.groups } ∧
      ∀ g, g ∈ user.groups ↔ g ∈ old.groups ∨ (g = groupId ∧ userId ∈ users.map (·.id)) := by
  obtain ⟨old, hold, rfl⟩ := find?_changeGroups h
  obtain rfl : old.id = userId := (Table.find?_eq_some.mp hold).2
  refine ⟨old, hold, rfl, fun g => ?_⟩
  dsimp only
  split
  · rename_i hmem
    rw [Finset.mem_insert, or_comm]
    simp only [hmem, and_true]
  · rename_i hmem
    simp only [hmem, and_false, or_false]

/-- Users who are taken out of a group. -/
theorem find?_removeUsers {table : Table User} {users : List User} {groupId userId : ℕ}
    (h : (PermissionGroupUpdate.removeUsers table groupId users).find? userId = some user) :
    ∃ old, table.find? userId = some old ∧ user = { old with groups := user.groups } ∧
      ∀ g, g ∈ user.groups ↔ g ∈ old.groups ∧ ¬ (g = groupId ∧ userId ∈ users.map (·.id)) := by
  obtain ⟨old, hold, rfl⟩ := find?_changeGroups h
  obtain rfl : old.id = userId := (Table.find?_eq_some.mp hold).2
  refine ⟨old, hold, rfl, fun g => ?_⟩
  dsimp only
  split
  · rename_i hmem
    rw [Finset.mem_erase, and_comm]
    simp only [hmem, and_true, ne_eq]
  · rename_i hmem
    simp only [hmem, and_false, not_false_eq_true, and_true]

/-- What has become of a user whom an update adds to its group or removes from it. -/
theorem find?_updateUsers {table : Table User} {users users' : List User} {groupId userId : ℕ}
    (h : (PermissionGroupUpdate.removeUsers (PermissionGroupCreate.addUsers table groupId users)
      groupId users').find? userId = some user) :
    ∃ old, table.find? userId = some old ∧ user = { old with groups := user.groups } ∧
      ∀ g, g ∈ user.groups ↔ (g ∈ old.groups ∨ (g = groupId ∧ userId ∈ users.map (·.id))) ∧
        ¬ (g = groupId ∧ userId ∈ users'.map (·.id)) := by
  obtain ⟨added, hadded, hsame, hgroups⟩ := find?_removeUsers h
  obtain ⟨old, hold, hsame', hgroups'⟩ := find?_addUsers hadded
  refine ⟨old, hold, ?_, fun g => ?_⟩
  · rw [hsame, hsame']
  · rw [hgroups, hgroups']

/-- A row that is saved over a row of the table. -/
theorem find?_save_row {users : Table User} {row : User} {userId : ℕ}
    (h : (users.save row).find? userId = some user) :
    (userId = row.id ∧ user = row) ∨ users.find? userId = some user := by
  rw [Table.find?_save] at h
  split at h
  · rename_i heq
    obtain ⟨_, _, rfl⟩ := Option.map_eq_some_iff.mp h
    exact .inl ⟨heq, rfl⟩
  · exact .inr h

/-- A user who is put into groups that the requestor can manage. -/
theorem within_of_addGroups {bound : Finset Permission} {old : User} {groups : List Group}
    (hmanage : ∀ group ∈ groups, group ∈ getGroupsWhichUserCanManage db requestor)
    (hbound : effectivePermissions db requestor ⊆ bound) (hgroups : db'.groups = db.groups)
    (hsuper : user.isSuperuser = old.isSuperuser)
    (hdirect : user.userPermissions = old.userPermissions)
    (hsub : user.groups ⊆ StaffCreate.addGroups old.groups groups) :
    Within db db' bound old user := by
  refine ⟨hsuper, hdirect, ?_⟩
  rintro p ⟨group, hgroup, hmember, hp⟩
  rw [hgroups] at hgroup
  rcases Finset.mem_union.mp (hsub hmember) with hmember | hmember
  · exact .inl ⟨group, hgroup, hmember, hp⟩
  · right
    obtain ⟨group', hgroup', heq⟩ := List.mem_map.mp (List.mem_toFinset.mp hmember)
    obtain ⟨-, hmem, hperms⟩ :=
      StaffCreate.mem_getGroupsWhichUserCanManage.mp (hmanage group' hgroup')
    obtain rfl : group' = group := Table.eq_of_pk_eq hmem hgroup heq
    exact hbound (hperms hp)

theorem within_self {bound : Finset Permission} (hgroups : db'.groups = db.groups) :
    Within db db' bound user user := by
  refine ⟨rfl, rfl, ?_⟩
  rintro p ⟨group, hgroup, hmember, hp⟩
  rw [hgroups] at hgroup
  exact .inl ⟨group, hgroup, hmember, hp⟩

/-! ### One request -/

/-- **What an accepted request makes of a user**, whom it finds or creates. -/
theorem within_of_accepted {requestorId : ℕ} {request : Request}
    (hsuper : ∀ user, db.users.find? requestorId = some user → user.isSuperuser = false)
    (h : perform db requestorId request = .ok db') (userId : ℕ)
    (huser : db'.users.find? userId = some user) :
    ∃ old : User, (db.users.find? userId = some old ∨
        (db.users.find? userId = none ∧ old = { id := userId })) ∧
      Within db db' (permissionsOf db requestorId) old user := by
  obtain ⟨requestor, hrequestor, -, h⟩ := perform_eq_ok h
  have hsuper := hsuper requestor hrequestor
  have hbound : permissionsOf db requestorId = effectivePermissions db requestor := by
    rw [permissionsOf, hrequestor]
  have hheld : ∀ p, hasPerm db requestor p = true → p ∈ effectivePermissions db requestor :=
    fun p hp => (hasPerm_iff.mp hp).2
  rw [hbound]
  cases request with
  | permissionGroupCreate newId input =>
    obtain ⟨users, addChannels, groups, -, -, hadd, -, -, hinsert, rfl⟩ :=
      PermissionGroupCreate.accepted hsuper h
    obtain ⟨hrows, hfresh⟩ := Table.insert_eq_some hinsert
    obtain ⟨old, hold, hsame, hgroups⟩ := find?_addUsers huser
    refine ⟨old, .inl hold, by rw [hsame], by rw [hsame], ?_⟩
    rintro p ⟨group, hgroup, hmember, hp⟩
    rw [hrows] at hgroup
    rcases List.mem_append.mp hgroup with hgroup | hgroup
    · have hold := ((hgroups group.id).mp hmember).resolve_right fun h => hfresh group hgroup h.1
      exact .inl ⟨group, hgroup, hold, hp⟩
    · -- the new group
      right
      obtain rfl := List.mem_singleton.mp hgroup
      rcases Finset.mem_union.mp hp with hp | hp
      · cases hp
      · exact hheld p (hadd p (List.mem_toFinset.mp hp))
  | permissionGroupUpdate id input =>
    obtain ⟨group, users, users', addChannels, removeChannels, hfind, -, -, hensure, -, -, hperms,
      -, rfl⟩ := PermissionGroupUpdate.accepted h
    obtain ⟨hmem, hid⟩ := Table.find?_eq_some.mp hfind
    obtain ⟨hscope, -⟩ := PermissionGroupUpdate.ensureRequestorCanManageGroup_eq_ok hsuper hensure
    obtain ⟨hadd, -, -⟩ := PermissionGroupUpdate.cleanPermissions_eq_nil hsuper hperms
    obtain ⟨old, hold, hsame, hgroups⟩ := find?_updateUsers huser
    refine ⟨old, .inl hold, by rw [hsame], by rw [hsame], ?_⟩
    rintro p ⟨group', hgroup', hmember, hp⟩
    have hsave : group' ∈ db.groups.save
        (PermissionGroupUpdate.updated group input addChannels removeChannels) := hgroup'
    have hexists : ∃ x ∈ db.groups,
        pk x = pk (PermissionGroupUpdate.updated group input addChannels removeChannels) :=
      ⟨group, hmem, rfl⟩
    rcases (Table.mem_save hexists).mp hsave with rfl | ⟨hgroup', hne⟩
    · -- the group that is updated
      right
      rcases Finset.mem_union.mp (Finset.mem_sdiff.mp hp).1 with hp | hp
      · exact hheld p (hscope p hp)
      · exact hheld p (hadd p (List.mem_toFinset.mp hp))
    · have hold := ((hgroups group'.id).mp hmember).1.resolve_right
        fun h => hne (h.1.trans hid.symm)
      exact .inl ⟨group', hgroup', hold, hp⟩
  | permissionGroupDelete id =>
    obtain ⟨group, -, -, -, rfl⟩ := PermissionGroupDelete.accepted hsuper h
    rw [Table.find?_map] at huser
    obtain ⟨old, hold, rfl⟩ := Option.map_eq_some_iff.mp huser
    refine ⟨old, .inl hold, rfl, rfl, ?_⟩
    rintro p ⟨group', hgroup', hmember, hp⟩
    exact .inl ⟨group', List.mem_of_mem_filter hgroup', Finset.mem_of_mem_erase hmember, hp⟩
  | staffCreate newId input =>
    obtain ⟨users, instance', groups, hinstance, hmanage, rfl⟩ := StaffCreate.accepted hsuper h
    rcases hinstance with ⟨rfl, hmem, -⟩ | ⟨hinsert, rfl⟩
    · rcases find?_save_row huser with ⟨rfl, rfl⟩ | huser
      · exact ⟨instance', .inl (Table.mem_iff_find?.mp hmem), within_of_addGroups hmanage
          (Finset.Subset.refl _) rfl rfl rfl (Finset.Subset.refl _)⟩
      · exact ⟨user, .inl huser, within_self rfl⟩
    · have hmem : ({ id := newId } : User) ∈ users := by
        rw [Table.mem_def, (Table.insert_eq_some hinsert).1]
        exact List.mem_append_right _ (List.mem_singleton_self _)
      rcases find?_save_row huser with ⟨rfl, rfl⟩ | huser
      · refine ⟨{ id := userId }, .inr ⟨Table.find?_eq_none.mpr (Table.insert_eq_some hinsert).2, rfl⟩,
          within_of_addGroups hmanage (Finset.Subset.refl _) rfl rfl rfl (Finset.Subset.refl _)⟩
      · rw [Table.find?_insert hinsert] at huser
        split at huser
        · rename_i hid
          obtain rfl := Option.some.inj huser
          refine ⟨{ id := userId }, .inr ⟨Table.find?_eq_none.mpr fun row hrow heq => ?_, rfl⟩, ?_⟩
          · exact (Table.insert_eq_some hinsert).2 row hrow (heq.trans hid)
          · obtain rfl : userId = newId := hid
            exact within_self rfl
        · exact ⟨user, .inl huser, within_self rfl⟩
  | staffUpdate id input =>
    obtain ⟨instance', groups, groups', hinstance, -, -, -, hmanage, -, -, rfl⟩ :=
      StaffUpdate.accepted hsuper h
    obtain ⟨hmem, rfl⟩ := Table.find?_eq_some.mp hinstance
    rcases find?_save_row huser with ⟨rfl, rfl⟩ | huser
    · exact ⟨instance', .inl hinstance, within_of_addGroups hmanage
        (Finset.Subset.refl _) rfl rfl rfl Finset.sdiff_subset⟩
    · exact ⟨user, .inl huser, within_self rfl⟩

/-- What a user holds after being within the bound. -/
theorem Within.effectivePermissions_subset {bound : Finset Permission} {old : User}
    (h : Within db db' bound old user) :
    effectivePermissions db' user ⊆ effectivePermissions db old ∪ bound := by
  intro p hp
  rw [Finset.mem_union, mem_effectivePermissions]
  rw [mem_effectivePermissions, h.isSuperuser, h.userPermissions] at hp
  rcases hp with hp | hp | hp
  · exact .inl (.inl hp)
  · exact .inl (.inr (.inl hp))
  · rcases h.groups p hp with hp | hp
    · exact .inl (.inr (.inr hp))
    · exact .inr hp

/-- **The step**: what a user holds after a request he held before, or the requestor does. -/
theorem permissionsOf_step {requestorId : ℕ}
    (hsuper : ∀ user, db.users.find? requestorId = some user → user.isSuperuser = false)
    (request : Request) (userId : ℕ) :
    permissionsOf (step requestorId db request) userId
      ⊆ permissionsOf db userId ∪ permissionsOf db requestorId := by
  rw [step]
  split
  · rename_i db' hperform
    intro p hp
    obtain ⟨user, huser, hp⟩ := mem_permissionsOf.mp hp
    obtain ⟨old, hold, hwithin⟩ := within_of_accepted hsuper hperform userId huser
    rcases Finset.mem_union.mp (hwithin.effectivePermissions_subset hp) with hp | hp
    · refine Finset.mem_union_left _ ?_
      rcases hold with hold | ⟨-, rfl⟩
      · exact mem_permissionsOf.mpr ⟨old, hold, hp⟩
      · -- a new user held nothing
        rw [mem_effectivePermissions] at hp
        rcases hp with hp | hp | ⟨_, _, hp, _⟩
        · cases hp
        · cases hp
        · cases hp
    · exact Finset.mem_union_right _ hp
  · exact Finset.subset_union_left

theorem not_superuser_step {requestorId : ℕ}
    (hsuper : ∀ user, db.users.find? requestorId = some user → user.isSuperuser = false)
    (request : Request) :
    ∀ user, (step requestorId db request).users.find? requestorId = some user →
      user.isSuperuser = false := by
  rw [step]
  split
  · rename_i db' hperform
    intro user huser
    obtain ⟨old, hold, hwithin⟩ := within_of_accepted hsuper hperform requestorId huser
    rw [hwithin.isSuperuser]
    rcases hold with hold | ⟨-, rfl⟩
    · exact hsuper old hold
    · rfl
  · exact hsuper

/-! ### A run -/

/-- **No escalation**: after any requests of a user who is no superuser, he holds nothing that he did
not hold before, and whatever another user has gained he held himself. -/
theorem no_escalation (db : Db) (requestorId : ℕ)
    (hsuper : ∀ user, db.users.find? requestorId = some user → user.isSuperuser = false)
    (requests : List Request) :
    permissionsOf (Runs.run (step requestorId) db requests) requestorId
        ⊆ permissionsOf db requestorId ∧
      ∀ userId, permissionsOf (Runs.run (step requestorId) db requests) userId
        \ permissionsOf db userId ⊆ permissionsOf db requestorId := by
  have hrun : ∀ userId, permissionsOf (Runs.run (step requestorId) db requests) userId
      ⊆ permissionsOf db userId ∪ permissionsOf db requestorId := by
    induction requests generalizing db with
    | nil => exact fun userId => Finset.subset_union_left
    | cons request requests ih =>
      intro userId p hp
      have hstep := permissionsOf_step hsuper request
      have hlater := ih (step requestorId db request) (not_superuser_step hsuper request) userId hp
      rcases Finset.mem_union.mp hlater with hp | hp
      · exact hstep userId hp
      · exact Finset.mem_union_right _ (by simpa using hstep requestorId hp)
  constructor
  · intro p hp
    simpa using hrun requestorId hp
  · intro userId p hp
    obtain ⟨hafter, hbefore⟩ := Finset.mem_sdiff.mp hp
    exact (Finset.mem_union.mp (hrun userId hafter)).resolve_left hbefore

/-- A shop with one member of staff. -/
def oneManager : Db where
  users := Table.singleton { id := 1, isStaff := true, groups := {10} }
  groups := Table.singleton { id := 10, permissions := {.manageStaff, .manageOrders} }
  channels := {100}

/-- He hires a second one, who gets what he has himself. -/
theorem no_escalation_hiring :
    permissionsOf (Runs.run (step 1) oneManager [.staffCreate 2 { addGroups := [10] }]) 2
        = {.manageStaff, .manageOrders} ∧
      permissionsOf (Runs.run (step 1) oneManager [.staffCreate 2 { addGroups := [10] }]) 2
        \ permissionsOf oneManager 2 ⊆ permissionsOf oneManager 1 :=
  ⟨by decide +kernel, (no_escalation oneManager 1
    (fun user huser => by obtain rfl := Option.some.inj huser; rfl) _).2 2⟩

end Permissions

end Aixinwu
