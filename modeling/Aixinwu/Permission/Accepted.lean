import Aixinwu.Lib.Aggregates
import Aixinwu.Permission.Mutations

/-!
# What an accepted request does

Each mutation is turned around once: from its being accepted for a requestor who is no superuser,
the objects it was about, what its checks have established, and the tables afterwards. What is proved
about requests is proved from that.

## Main results

* `PermissionGroupCreate.accepted`, `PermissionGroupUpdate.accepted`,
  `PermissionGroupDelete.accepted`, `StaffCreate.accepted`, `StaffUpdate.accepted`
* `perform_eq_ok` — a request was accepted by its mutation
-/

namespace Aixinwu

namespace Permissions

/-! ### Raising -/

theorem bind_eq_ok {α β : Type} {x : Except Failure α} {f : α → Except Failure β} {b : β} :
    (x >>= f) = .ok b ↔ ∃ a, x = .ok a ∧ f a = .ok b := by
  cases x with
  | error e => exact ⟨nofun, fun ⟨_, h, _⟩ => nomatch h⟩
  | ok a =>
    constructor
    · intro h
      exact ⟨a, rfl, h⟩
    · rintro ⟨a', h, hf⟩
      cases h
      exact hf

theorem raiseErrors_eq_ok {errors : List Error} {u : Unit} :
    raiseErrors errors = .ok u ↔ errors = [] := by
  rw [raiseErrors]
  cases errors <;> simp

/-- The objects with some ids, all of which exist. -/
structure Found {ρ : Type} [HasPk ρ ℕ] (t : Table ρ) (ids : List ℕ) (nodes : List ρ) : Prop where
  mem : ∀ node, node ∈ nodes ↔ node ∈ t ∧ pk node ∈ ids
  all : ∀ id ∈ ids, ∃ node ∈ nodes, pk node = id

theorem found_of_getNodesOrError {ρ : Type} [HasPk ρ ℕ] {t : Table ρ} {ids : List ℕ}
    {field : String} {nodes : List ρ} (h : getNodesOrError t ids field = .ok nodes) :
    Found t ids nodes := by
  rw [getNodesOrError] at h
  split at h
  · rename_i found hfound
    obtain rfl := Except.ok.inj h
    have hlists := forall₂_of_mapM hfound
    have hall : ∀ id ∈ ids, ∃ node ∈ found, t.find? id = some node :=
      fun id hid => exists_of_forall₂ hlists (List.mem_dedup.mpr hid)
    constructor
    · intro node
      constructor
      · intro hnode
        obtain ⟨id, hid, hfind⟩ := exists_of_forall₂ hlists.flip hnode
        obtain ⟨hmem, rfl⟩ := Table.find?_eq_some.mp hfind
        exact ⟨hmem, List.mem_dedup.mp hid⟩
      · rintro ⟨hmem, hid⟩
        obtain ⟨node', hnode', hfind⟩ := hall (pk node) hid
        rw [Table.mem_iff_find?.mp hmem] at hfind
        rwa [Option.some.inj hfind]
    · intro id hid
      obtain ⟨node, hnode, hfind⟩ := hall id hid
      exact ⟨node, hnode, (Table.find?_eq_some.mp hfind).2⟩
  · cases h

theorem Found.mem_map_pk {ρ : Type} [HasPk ρ ℕ] {t : Table ρ} {ids : List ℕ} {nodes : List ρ}
    (h : Found t ids nodes) (id : ℕ) : id ∈ nodes.map pk ↔ id ∈ ids := by
  constructor
  · intro hid
    obtain ⟨node, hnode, rfl⟩ := List.mem_map.mp hid
    exact ((h.mem node).mp hnode).2
  · intro hid
    obtain ⟨node, hnode, rfl⟩ := h.all id hid
    exact List.mem_map_of_mem hnode

theorem getChannelsOrError_eq_ok {db : Db} {ids channels : List ℕ} {field : String}
    (h : getChannelsOrError db ids field = .ok channels) : channels = ids.dedup := by
  rw [getChannelsOrError] at h
  split at h
  · exact (Except.ok.inj h).symm
  · cases h

variable {db db' : Db} {requestor : User}

theorem filter_not_eq_nil {α : Type} {p : α → Bool} {l : List α} :
    (l.filter fun x => !p x) = [] ↔ ∀ x ∈ l, p x = true := by
  simp [List.filter_eq_nil_iff]

theorem perform_eq_ok {requestorId : ℕ} {request : Request}
    (h : perform db requestorId request = .ok db') :
    ∃ requestor, db.users.find? requestorId = some requestor ∧
      hasPerm db requestor .manageStaff = true ∧
      (match request with
        | .permissionGroupCreate newId input =>
          PermissionGroupCreate.performMutation db requestor newId input
        | .permissionGroupUpdate id input =>
          PermissionGroupUpdate.performMutation db requestor id input
        | .permissionGroupDelete id => PermissionGroupDelete.performMutation db requestor id
        | .staffCreate newId input => StaffCreate.performMutation db requestor newId input
        | .staffUpdate id input => StaffUpdate.performMutation db requestor id input) = .ok db' := by
  rw [perform] at h
  split at h
  · cases h
  · rename_i requestor hrequestor
    obtain ⟨_, hcheck, hmutation⟩ := bind_eq_ok.mp h
    rw [checkPermissions] at hcheck
    split at hcheck
    · rename_i hperm
      exact ⟨requestor, hrequestor, hperm, hmutation⟩
    · cases hcheck

/-! ### `PermissionGroupCreate` -/

namespace PermissionGroupCreate

theorem ensureCanManageChannels_eq_nil (hsuper : requestor.isSuperuser = false)
    {accessible : Finset ℕ} {channels : List ℕ} :
    ensureCanManageChannels requestor accessible channels = [] ↔ ∀ c ∈ channels, c ∈ accessible := by
  rw [ensureCanManageChannels, hsuper]
  simp [List.filter_eq_nil_iff]

theorem ensureCanManagePermissions_eq_nil {field : String} {perms : List Permission} :
    ensureCanManagePermissions db requestor field perms = [] ↔
      ∀ p ∈ perms, hasPerm db requestor p = true := by
  rw [ensureCanManagePermissions, getOutOfScopePermissions]
  simp only [filter_not_eq_nil, ite_eq_left_iff, reduceCtorEq, imp_false, not_not]

theorem cleanPermissions_eq_nil (hsuper : requestor.isSuperuser = false)
    {addPermissions : List Permission} : cleanPermissions db requestor addPermissions = [] ↔
      ∀ p ∈ addPermissions, hasPerm db requestor p = true := by
  rw [cleanPermissions, hsuper]
  exact ensureCanManagePermissions_eq_nil

theorem cleanUsers_eq_nil {users : List User} :
    cleanUsers users = [] ↔ ∀ user ∈ users, user.isStaff = true := by
  rw [cleanUsers]
  simp only [filter_not_eq_nil, ite_eq_left_iff, reduceCtorEq, imp_false, not_not]

/-- What the channels have been checked for. -/
theorem cleanChannels_eq_ok (hsuper : requestor.isSuperuser = false) {accessible : Finset ℕ}
    {restricted : Option Bool} {channels channels' : List ℕ}
    (h : cleanChannels db requestor accessible restricted channels = .ok ([], channels')) :
    (restricted = some false → db.channels ⊆ accessible) ∧
      (∀ c ∈ channels', c ∈ accessible ∧ c ∈ channels) := by
  rw [cleanChannels] at h
  split at h
  · rename_i hrestricted
    split at h
    · cases h
    · rename_i hall
      cases h
      refine ⟨fun _ => ?_, nofun⟩
      by_contra hsub
      exact hall ⟨hsuper, fun hempty => hsub (Finset.sdiff_eq_empty_iff_subset.mp hempty)⟩
  · rename_i hrestricted
    obtain ⟨herrors, rfl⟩ := Prod.mk.inj (Except.ok.inj h)
    refine ⟨fun h => absurd h hrestricted, fun c hc => ⟨?_, hc⟩⟩
    exact (ensureCanManageChannels_eq_nil hsuper).mp herrors c hc

/-- **An accepted `PermissionGroupCreate`.** -/
theorem accepted (hsuper : requestor.isSuperuser = false) {newId : ℕ}
    {input : PermissionGroupCreateInput}
    (h : performMutation db requestor newId input = .ok db') :
    ∃ users addChannels groups,
      Found db.users input.addUsers users ∧
      (∀ user ∈ users, user.isStaff = true) ∧
      (∀ p ∈ input.addPermissions, hasPerm db requestor p = true) ∧
      (input.restrictedAccessToChannels = some false →
        db.channels ⊆ accessibleChannels db requestor) ∧
      (∀ c ∈ addChannels, c ∈ accessibleChannels db requestor) ∧
      db.groups.insert (saveM2m input.addPermissions addChannels input.restrictedAccessToChannels
        { id := newId
          restrictedAccessToChannels := input.restrictedAccessToChannels.getD false })
        = some groups ∧
      db' = { db with users := addUsers db.users newId users, groups := groups } := by
  obtain ⟨users, husers, h₁⟩ := bind_eq_ok.mp h
  obtain ⟨channels, _, h₂⟩ := bind_eq_ok.mp h₁
  obtain ⟨⟨channelErrors, addChannels⟩, hchannels, h₃⟩ := bind_eq_ok.mp h₂
  dsimp only at h₃
  obtain ⟨_, hraise, h₄⟩ := bind_eq_ok.mp h₃
  rw [raiseErrors_eq_ok, List.append_eq_nil_iff, List.append_eq_nil_iff] at hraise
  obtain ⟨⟨rfl, hperms⟩, hstaff⟩ := hraise
  obtain ⟨hall, hadd⟩ := cleanChannels_eq_ok hsuper hchannels
  split at h₄
  · cases h₄
  · rename_i groups hgroups
    exact ⟨users, addChannels, groups, found_of_getNodesOrError husers, cleanUsers_eq_nil.mp hstaff,
      (cleanPermissions_eq_nil hsuper).mp hperms, hall, fun c hc => (hadd c hc).1, hgroups,
      (Except.ok.inj h₄).symm⟩

end PermissionGroupCreate

/-! ### `PermissionGroupUpdate` -/

namespace PermissionGroupUpdate

open PermissionGroupCreate

theorem ensureRequestorCanManageGroup_eq_ok (hsuper : requestor.isSuperuser = false)
    {group : Group} {u : Unit} (h : ensureRequestorCanManageGroup db requestor group = .ok u) :
    (∀ p ∈ group.permissions, hasPerm db requestor p = true) ∧
      accessibleChannelsOfGroup db group ⊆ accessibleChannels db requestor := by
  rw [ensureRequestorCanManageGroup, hsuper] at h
  split at h
  · rename_i hfalse
    cases hfalse
  · split at h
    · cases h
    · rename_i hperms
      split at h
      · cases h
      · rename_i hchannels
        rw [Bool.not_eq_false] at hperms hchannels
        rw [canUserManageGroupChannels, hsuper, Bool.false_or, decide_eq_true_eq] at hchannels
        exact ⟨hasPerms_iff.mp hperms, Finset.sdiff_eq_empty_iff_subset.mp hchannels⟩

theorem checkDuplicates_eq_nil {α : Type} [DecidableEq α] {addItems removeItems : List α}
    {field : Option String} {params : List α → Params} :
    checkDuplicates addItems removeItems field params = [] ↔ ∀ x ∈ addItems, x ∉ removeItems := by
  rw [checkDuplicates]
  simp [List.filter_eq_nil_iff]

/-- What the channels have been checked for; a group without restrictions gets and loses none. -/
theorem cleanChannels_eq_ok (hsuper : requestor.isSuperuser = false) {group : Group}
    {accessible : Finset ℕ} {restricted : Option Bool}
    {channels channels' removeChannels removeChannels' : List ℕ}
    (h : cleanChannels db requestor group accessible restricted channels removeChannels
      = .ok ([], channels', removeChannels')) :
    (restricted = some false → db.channels ⊆ accessible) ∧ ∀ c ∈ channels', c ∈ accessible := by
  obtain ⟨⟨errors, added⟩, hcreate, h₁⟩ := bind_eq_ok.mp h
  dsimp only at h₁
  split at h₁
  · obtain ⟨herrors, hrest⟩ := Prod.mk.inj (Except.ok.inj h₁)
    obtain ⟨rfl, -⟩ := List.append_eq_nil_iff.mp herrors
    obtain ⟨rfl, -⟩ := Prod.mk.inj hrest
    exact ⟨(PermissionGroupCreate.cleanChannels_eq_ok hsuper hcreate).1, nofun⟩
  · obtain ⟨herrors, hrest⟩ := Prod.mk.inj (Except.ok.inj h₁)
    obtain ⟨rfl, -⟩ := List.append_eq_nil_iff.mp herrors
    obtain ⟨rfl, -⟩ := Prod.mk.inj hrest
    obtain ⟨hall, hadded⟩ := PermissionGroupCreate.cleanChannels_eq_ok hsuper hcreate
    exact ⟨hall, fun c hc => (hadded c hc).1⟩

theorem cleanPermissions_eq_nil (hsuper : requestor.isSuperuser = false) {group : Group}
    {addPermissions removePermissions : List Permission}
    (h : cleanPermissions db requestor group addPermissions removePermissions = []) :
    (∀ p ∈ addPermissions, hasPerm db requestor p = true) ∧
      (∀ p ∈ removePermissions, hasPerm db requestor p = true) ∧
      (removePermissions ≠ [] →
        getNotManageablePermissionsAfterRemovingPermsFromGroup db group removePermissions = ∅) := by
  obtain ⟨hadd, hremove⟩ := List.append_eq_nil_iff.mp h
  refine ⟨(PermissionGroupCreate.cleanPermissions_eq_nil hsuper).mp hadd, ?_⟩
  rcases removePermissions with _ | ⟨p, removePermissions⟩
  · exact ⟨nofun, fun hne => absurd rfl hne⟩
  · simp only [hsuper, reduceCtorEq, Bool.false_eq_true, or_self, if_false,
      List.append_eq_nil_iff] at hremove
    refine ⟨ensureCanManagePermissions_eq_nil.mp hremove.1, fun _ => ?_⟩
    by_contra hne
    rw [if_neg hne] at hremove
    exact absurd hremove.2 (List.cons_ne_nil _ _)

theorem ensureCanManageUsers_eq_nil (hsuper : requestor.isSuperuser = false) {field : String}
    {users : List User} (h : ensureCanManageUsers db requestor field users = []) :
    ∀ user ∈ users, ∀ p, hasPerm db user p = true → hasPerm db requestor p = true := by
  rw [ensureCanManageUsers, hsuper, getOutOfScopeUsers] at h
  simp only [filter_not_eq_nil, Bool.false_eq_true, if_false, ite_eq_left_iff, reduceCtorEq,
    imp_false, not_not] at h
  intro user huser p hp
  exact hasPerms_iff.mp (h user huser) p (mem_getAllPermissions.mpr hp)

/-- What the users to remove have been checked for. -/
structure UsersCanBeRemoved (db : Db) (requestor : User) (group : Group)
    (addUsers removeUsers : List User) : Prop where
  scope : ∀ user ∈ removeUsers, ∀ p, hasPerm db user p = true → hasPerm db requestor p = true
  manageable : addUsers.any (hasPerm db · .manageStaff) = true ∨
    getNotManageablePermissionsAfterRemovingUsersFromGroup db group removeUsers = ∅

theorem cleanUsers_eq_nil (hsuper : requestor.isSuperuser = false) {group : Group}
    {addUsers removeUsers : List User}
    (h : cleanUsers db requestor group addUsers removeUsers = []) :
    (∀ user ∈ addUsers, user.isStaff = true) ∧
      (removeUsers ≠ [] → UsersCanBeRemoved db requestor group addUsers removeUsers) := by
  obtain ⟨hadd, hremove⟩ := List.append_eq_nil_iff.mp h
  refine ⟨PermissionGroupCreate.cleanUsers_eq_nil.mp hadd, fun hne => ?_⟩
  rw [if_neg hne, List.append_eq_nil_iff, List.append_eq_nil_iff] at hremove
  obtain ⟨⟨hscope, -⟩, hmanageable⟩ := hremove
  refine ⟨ensureCanManageUsers_eq_nil hsuper hscope, ?_⟩
  rw [checkIfUsersCanBeRemoved, hsuper] at hmanageable
  by_contra hnot
  obtain ⟨hany, hne⟩ := not_or.mp hnot
  simp only [Bool.false_eq_true, if_false, hany, hne] at hmanageable
  exact absurd hmanageable (List.cons_ne_nil _ _)

/-- The group after an update. -/
def updated (group : Group) (input : PermissionGroupUpdateInput) (addChannels removeChannels : List ℕ) :
    Group :=
  saveM2m input.addPermissions input.removePermissions addChannels removeChannels
    (input.restrictedAccessToChannels.getD none)
    { group with
      restrictedAccessToChannels := fieldValue false group.restrictedAccessToChannels
        input.restrictedAccessToChannels }

/-- **An accepted `PermissionGroupUpdate`.** -/
theorem accepted {id : ℕ} {input : PermissionGroupUpdateInput}
    (h : performMutation db requestor id input = .ok db') :
    ∃ group users users' addChannels removeChannels,
      db.groups.find? id = some group ∧
      Found db.users input.addUsers users ∧
      Found db.users input.removeUsers users' ∧
      ensureRequestorCanManageGroup db requestor group = .ok () ∧
      (∀ x ∈ input.addUsers, x ∉ input.removeUsers) ∧
      cleanChannels db requestor group (accessibleChannels db requestor)
        (input.restrictedAccessToChannels.getD none) input.addChannels.dedup
        input.removeChannels.dedup = .ok ([], addChannels, removeChannels) ∧
      cleanPermissions db requestor group input.addPermissions input.removePermissions = [] ∧
      cleanUsers db requestor group users users' = [] ∧
      db' = { db with
        users := removeUsers (addUsers db.users id users) id users'
        groups := db.groups.save (updated group input addChannels removeChannels) } := by
  rw [performMutation] at h
  split at h
  · cases h
  · rename_i group hgroup
    obtain ⟨_, hensure, h₁⟩ := bind_eq_ok.mp h
    obtain ⟨_, hduplicates, h₂⟩ := bind_eq_ok.mp h₁
    obtain ⟨users, husers, h₃⟩ := bind_eq_ok.mp h₂
    obtain ⟨users', husers', h₄⟩ := bind_eq_ok.mp h₃
    obtain ⟨channels, hchannels, h₅⟩ := bind_eq_ok.mp h₄
    obtain ⟨channels', hchannels', h₆⟩ := bind_eq_ok.mp h₅
    obtain ⟨⟨errors, addChannels, removeChannels⟩, hclean, h₇⟩ := bind_eq_ok.mp h₆
    dsimp only at h₇
    obtain ⟨_, hraise, h₈⟩ := bind_eq_ok.mp h₇
    rw [raiseErrors_eq_ok, List.append_eq_nil_iff, List.append_eq_nil_iff] at hraise
    obtain ⟨⟨rfl, hperms⟩, hcleanUsers⟩ := hraise
    rw [raiseErrors_eq_ok, List.append_eq_nil_iff, List.append_eq_nil_iff] at hduplicates
    obtain ⟨⟨-, hdisjoint⟩, -⟩ := hduplicates
    obtain rfl := getChannelsOrError_eq_ok hchannels
    obtain rfl := getChannelsOrError_eq_ok hchannels'
    exact ⟨group, users, users', addChannels, removeChannels, hgroup, found_of_getNodesOrError husers,
      found_of_getNodesOrError husers', hensure, checkDuplicates_eq_nil.mp hdisjoint, hclean, hperms,
      hcleanUsers, (Except.ok.inj h₈).symm⟩

end PermissionGroupUpdate

/-! ### `PermissionGroupDelete` -/

namespace PermissionGroupDelete

/-- **An accepted `PermissionGroupDelete`.** -/
theorem accepted (hsuper : requestor.isSuperuser = false) {id : ℕ}
    (h : performMutation db requestor id = .ok db') :
    ∃ group, db.groups.find? id = some group ∧
      PermissionGroupUpdate.ensureRequestorCanManageGroup db requestor group = .ok () ∧
      getNotManageablePermissionsAfterGroupDeleting db group = ∅ ∧
      db' = { db with
        users := db.users.map (fun user => { user with groups := user.groups.erase id }) fun _ => rfl
        groups := db.groups.delete fun group => decide (group.id = id) } := by
  rw [performMutation] at h
  split at h
  · cases h
  · rename_i group hgroup
    obtain ⟨_, hclean, h₁⟩ := bind_eq_ok.mp h
    obtain ⟨_, hensure, h₂⟩ := bind_eq_ok.mp hclean
    rw [hsuper, if_neg Bool.false_ne_true] at h₂
    obtain ⟨_, hleft, -⟩ := bind_eq_ok.mp h₂
    refine ⟨group, hgroup, hensure, ?_, (Except.ok.inj h₁).symm⟩
    rw [ensureDeletingNotLeftNotManageablePermissions] at hleft
    by_contra hne
    rw [if_neg hne] at hleft
    cases hleft

end PermissionGroupDelete

/-! ### `StaffCreate` -/

namespace StaffCreate

/-- Groups that the requestor can manage give nothing that he does not have. -/
theorem ensureRequestorCanManageGroups_eq_nil (hsuper : requestor.isSuperuser = false)
    {field : String} {groups : List Group} :
    ensureRequestorCanManageGroups db requestor field groups = [] ↔
      ∀ group ∈ groups, group ∈ getGroupsWhichUserCanManage db requestor := by
  rw [ensureRequestorCanManageGroups, hsuper]
  simp [List.filter_eq_nil_iff]

theorem mem_getGroupsWhichUserCanManage {group : Group} :
    group ∈ getGroupsWhichUserCanManage db requestor ↔ requestor.isStaff = true ∧
      group ∈ db.groups ∧ group.permissions ⊆ effectivePermissions db requestor := by
  rw [getGroupsWhichUserCanManage]
  split
  · rename_i hstaff
    simp [hstaff, List.mem_filter, Table.mem_def, Finset.sdiff_eq_empty_iff_subset]
  · rename_i hstaff
    simp [hstaff]

/-- Whom a `StaffCreate` is about. -/
theorem getInstance_eq_ok {newId : ℕ} {user : Option ℕ} {users : Table User} {instance' : User}
    (h : getInstance db newId user = .ok (users, instance')) :
    (users = db.users ∧ instance' ∈ db.users ∧ instance'.isStaff = false) ∨
      (db.users.insert { id := newId } = some users ∧ instance' = { id := newId }) := by
  rw [getInstance.eq_def] at h
  split at h
  · split at h
    · rename_i found hfound
      split at h
      · cases h
      · rename_i hstaff
        obtain ⟨rfl, rfl⟩ := Prod.mk.inj (Except.ok.inj h)
        exact .inl ⟨rfl, (Table.find?_eq_some.mp hfound).1, Bool.not_eq_true _ ▸ hstaff⟩
    · cases h
  · split at h
    · rename_i users' hinsert
      obtain ⟨rfl, rfl⟩ := Prod.mk.inj (Except.ok.inj h)
      exact .inr ⟨hinsert, rfl⟩
    · cases h

/-- **An accepted `StaffCreate`.** -/
theorem accepted (hsuper : requestor.isSuperuser = false) {newId : ℕ} {input : StaffCreateInput}
    (h : performMutation db requestor newId input = .ok db') :
    ∃ users instance' groups,
      ((users = db.users ∧ instance' ∈ db.users ∧ instance'.isStaff = false) ∨
        (db.users.insert { id := newId } = some users ∧ instance' = { id := newId })) ∧
      (∀ group ∈ groups, group ∈ getGroupsWhichUserCanManage db requestor) ∧
      db' = { db with
        users := users.save
          { instance' with
            isStaff := true
            isActive := fieldValue true instance'.isActive input.isActive
            groups := addGroups instance'.groups groups } } := by
  obtain ⟨⟨users, instance'⟩, hinstance, h₁⟩ := bind_eq_ok.mp h
  dsimp only at h₁
  obtain ⟨groups, hgroups, h₂⟩ := bind_eq_ok.mp h₁
  obtain ⟨_, hraise, h₃⟩ := bind_eq_ok.mp h₂
  rw [raiseErrors_eq_ok] at hraise
  exact ⟨users, instance', groups, getInstance_eq_ok hinstance,
    (ensureRequestorCanManageGroups_eq_nil hsuper).mp hraise, (Except.ok.inj h₃).symm⟩

end StaffCreate

/-! ### `StaffUpdate` -/

namespace StaffUpdate

open StaffCreate

/-- **An accepted `StaffUpdate`.** -/
theorem accepted (hsuper : requestor.isSuperuser = false) {id : ℕ} {input : StaffUpdateInput}
    (h : performMutation db requestor id input = .ok db') :
    ∃ instance' groups groups',
      db.users.find? id = some instance' ∧
      (∀ p, hasPerm db instance' p = true → hasPerm db requestor p = true) ∧
      Found db.groups input.addGroups groups ∧
      Found db.groups input.removeGroups groups' ∧
      (∀ group ∈ groups, group ∈ getGroupsWhichUserCanManage db requestor) ∧
      (∀ group ∈ groups', group ∈ getGroupsWhichUserCanManage db requestor) ∧
      cleanIsActive db requestor instance' (input.isActive.getD none) = [] ∧
      db' = { db with
        users := db.users.save
          { instance' with
            isStaff := true
            isActive := fieldValue true instance'.isActive input.isActive
            groups := removeGroups (addGroups instance'.groups groups) groups' } } := by
  rw [performMutation] at h
  split at h
  · cases h
  · rename_i instance' hinstance
    split at h
    · cases h
    · rename_i hscope
      have hscope : getOutOfScopeUsers db requestor [instance'] = [] := by
        by_contra hne
        exact hscope ⟨hsuper, hne⟩
      rw [getOutOfScopeUsers, filter_not_eq_nil] at hscope
      obtain ⟨_, _, h₁⟩ := bind_eq_ok.mp h
      obtain ⟨groups, hgroups, h₂⟩ := bind_eq_ok.mp h₁
      obtain ⟨groups', hgroups', h₃⟩ := bind_eq_ok.mp h₂
      obtain ⟨_, hraise, h₄⟩ := bind_eq_ok.mp h₃
      rw [raiseErrors_eq_ok, List.append_eq_nil_iff, List.append_eq_nil_iff] at hraise
      obtain ⟨⟨hadd, hremove⟩, hactive⟩ := hraise
      refine ⟨instance', groups, groups', hinstance, fun p hp => ?_, found_of_getNodesOrError hgroups,
        found_of_getNodesOrError hgroups', (ensureRequestorCanManageGroups_eq_nil hsuper).mp hadd,
        (ensureRequestorCanManageGroups_eq_nil hsuper).mp hremove, hactive,
        (Except.ok.inj h₄).symm⟩
      exact hasPerms_iff.mp (hscope instance' (List.mem_singleton_self _)) p
        (mem_getAllPermissions.mpr hp)

end StaffUpdate

end Permissions

end Aixinwu
