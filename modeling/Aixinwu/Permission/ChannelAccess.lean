import Aixinwu.Permission.Escalation
import Mathlib

/-!
# Access to channels

What a user can do is limited to the channels of his groups. A requestor may only handle groups whose
channels he has access to, and only hand out such channels, so that he should never gain one. Two
requests slip through. `StaffUpdate` compares the permissions of the groups that a user is put into
with the requestor's and not their channels, and the user may be the requestor himself. And `null` for
`restricted_access_to_channels` is checked as if the field were left out but stored as `False`, which
opens the group to all channels.

## Main definitions

* `channelsOf` — the channels that the user with an id has access to
* `KeepsToChannels` — a request takes neither way

## Main results

* `channelsOf_step`, `channels_never_gained`
-/

namespace Aixinwu

namespace Permissions

/-- The channels that the user with this id has access to. -/
def channelsOf (db : Db) (userId : ℕ) : Finset ℕ :=
  match db.users.find? userId with
  | some user => accessibleChannels db user
  | none => ∅

/-- A requestor does not put himself into a group with a channel that he has no access to, and does not
open a group that he is in to all channels by `null` unless he has access to all. -/
def KeepsToChannels (requestorId : ℕ) (db : Db) : Request → Prop
  | .permissionGroupCreate newId input =>
    ∀ requestor, db.users.find? requestorId = some requestor →
      input.restrictedAccessToChannels = none →
      (requestorId ∈ input.addUsers ∨ newId ∈ requestor.groups) →
      db.channels ⊆ accessibleChannels db requestor
  | .permissionGroupUpdate id input =>
    ∀ requestor, db.users.find? requestorId = some requestor →
      input.restrictedAccessToChannels = some none →
      (requestorId ∈ input.addUsers ∨ id ∈ requestor.groups) → requestorId ∉ input.removeUsers →
      db.channels ⊆ accessibleChannels db requestor
  | .staffUpdate id input =>
    id = requestorId → ∀ requestor, db.users.find? requestorId = some requestor →
      ∀ group ∈ db.groups, group.id ∈ input.addGroups →
        accessibleChannelsOfGroup db group ⊆ accessibleChannels db requestor
  | .permissionGroupDelete _ => True
  | .staffCreate _ _ => True

variable {db db' : Db} {requestor user : User}

theorem mem_channelsOf {userId c : ℕ} : c ∈ channelsOf db userId ↔
    ∃ user, db.users.find? userId = some user ∧ c ∈ accessibleChannels db user := by
  rw [channelsOf]
  cases db.users.find? userId <;> simp

/-- The same groups give the same channels. -/
theorem accessibleChannels_mono (hgroups : ∀ group ∈ db'.groups.rows, group.id ∈ user.groups →
      (group ∈ db.groups.rows ∧ group.id ∈ requestor.groups) ∨
        accessibleChannelsOfGroup db' group ⊆ accessibleChannels db requestor)
    (hchannels : db'.channels = db.channels) :
    accessibleChannels db' user ⊆ accessibleChannels db requestor := by
  intro c hc
  obtain ⟨group, hgroup, hmember, hc⟩ := mem_accessibleChannels.mp hc
  rcases hgroups group hgroup hmember with ⟨hgroup, hmember⟩ | hsub
  · rw [accessibleChannelsOfGroup, hchannels] at hc
    exact mem_accessibleChannels.mpr ⟨group, hgroup, hmember, hc⟩
  · exact hsub hc

/-! ### A group that is updated -/

/-- After an update a group gives the requestor, if he is in it, only channels that he had access
to. -/
theorem updated_subset {group : Group} {input : PermissionGroupUpdateInput} {accessible : Finset ℕ}
    {addChannels removeChannels : List ℕ} {db' : Db} (hchannels : db'.channels = db.channels)
    (hgroup : accessibleChannelsOfGroup db group ⊆ accessible)
    (hall : input.restrictedAccessToChannels.getD none = some false → db.channels ⊆ accessible)
    (hadd : ∀ c ∈ addChannels, c ∈ accessible)
    (hnull : input.restrictedAccessToChannels = some none → db.channels ⊆ accessible) :
    accessibleChannelsOfGroup db'
      (PermissionGroupUpdate.updated group input addChannels removeChannels) ⊆ accessible := by
  -- a group with restrictions has its own channels, which the requestor has, and those added
  have hown : group.channels ∩ db.channels ⊆ accessible := by
    intro c hc
    refine hgroup ?_
    rw [accessibleChannelsOfGroup]
    split
    · exact hc
    · exact Finset.mem_of_mem_inter_right hc
  have hrestricted : (PermissionGroupUpdate.updated group input addChannels removeChannels).channels
      ∩ db'.channels ⊆ accessible := by
    intro c hc
    obtain ⟨hc, hchannel⟩ := Finset.mem_inter.mp hc
    rcases Finset.mem_union.mp (Finset.mem_sdiff.mp hc).1 with hc | hc
    · split at hc
      · cases hc
      · exact hown (Finset.mem_inter.mpr ⟨hc, hchannels ▸ hchannel⟩)
    · exact hadd c (List.mem_toFinset.mp hc)
  have hflag : (PermissionGroupUpdate.updated group input addChannels
      removeChannels).restrictedAccessToChannels
      = fieldValue false group.restrictedAccessToChannels input.restrictedAccessToChannels := rfl
  rw [accessibleChannelsOfGroup, hflag]
  split
  · exact hrestricted
  · rename_i hopen
    rw [hchannels]
    rcases hinput : input.restrictedAccessToChannels with _ | _ | _ | _
    · -- the field is left out, and the group was open before
      have hopen : ¬ group.restrictedAccessToChannels = true := by
        rw [hinput] at hopen
        exact hopen
      rw [accessibleChannelsOfGroup, if_neg hopen] at hgroup
      exact hgroup
    · exact hnull hinput
    · exact hall (by rw [hinput]; rfl)
    · rw [hinput] at hopen
      exact absurd rfl hopen

/-- A new group is like an update of one without channels. -/
theorem created_subset {input : PermissionGroupCreateInput} {newId : ℕ} {accessible : Finset ℕ}
    {addChannels : List ℕ} {db' : Db} (hchannels : db'.channels = db.channels)
    (hall : input.restrictedAccessToChannels = some false → db.channels ⊆ accessible)
    (hadd : ∀ c ∈ addChannels, c ∈ accessible)
    (hnull : input.restrictedAccessToChannels = none → db.channels ⊆ accessible) :
    accessibleChannelsOfGroup db' (PermissionGroupCreate.saveM2m input.addPermissions addChannels
      input.restrictedAccessToChannels
      { id := newId
        restrictedAccessToChannels := input.restrictedAccessToChannels.getD false })
      ⊆ accessible := by
  rw [accessibleChannelsOfGroup]
  split
  · intro c hc
    rcases Finset.mem_union.mp (Finset.mem_inter.mp hc).1 with hc | hc
    · split at hc
      · cases hc
      · cases hc
    · exact hadd c (List.mem_toFinset.mp hc)
  · rename_i hopen
    rw [hchannels]
    rcases hinput : input.restrictedAccessToChannels with _ | _ | _
    · exact hnull hinput
    · exact hall hinput
    · refine absurd ?_ hopen
      show input.restrictedAccessToChannels.getD false = true
      rw [hinput]
      rfl

/-! ### One request -/

/-- **What an accepted request makes of its requestor**: he has access to no channel that he had none
to before. -/
theorem channelsOf_of_accepted {requestorId : ℕ} {request : Request}
    (hsuper : ∀ user, db.users.find? requestorId = some user → user.isSuperuser = false)
    (hkeeps : KeepsToChannels requestorId db request)
    (h : perform db requestorId request = .ok db') :
    channelsOf db' requestorId ⊆ channelsOf db requestorId := by
  obtain ⟨requestor, hrequestor, -, h⟩ := perform_eq_ok h
  have hsuper := hsuper requestor hrequestor
  have hbefore : channelsOf db requestorId = accessibleChannels db requestor := by
    rw [channelsOf, hrequestor]
  rw [hbefore]
  intro c hc
  obtain ⟨user, huser, hc⟩ := mem_channelsOf.mp hc
  suffices hsub : accessibleChannels db' user ⊆ accessibleChannels db requestor from hsub hc
  cases request with
  | permissionGroupCreate newId input =>
    obtain ⟨users, addChannels, groups, husers, -, -, hall, hadd, hinsert, rfl⟩ :=
      PermissionGroupCreate.accepted hsuper h
    obtain ⟨hrows, hfresh⟩ := Table.insert_eq_some hinsert
    obtain ⟨old, hold, -, hgroups⟩ := find?_addUsers huser
    obtain rfl := Option.some.inj (hrequestor.symm.trans hold)
    refine accessibleChannels_mono (fun group hgroup hmember => ?_) rfl
    rw [hrows] at hgroup
    rcases List.mem_append.mp hgroup with hgroup | hgroup
    · exact .inl ⟨hgroup, ((hgroups group.id).mp hmember).resolve_right
        fun h => hfresh group hgroup h.1⟩
    · right
      obtain rfl := List.mem_singleton.mp hgroup
      refine created_subset rfl hall hadd fun hnull => hkeeps requestor hrequestor hnull ?_
      rcases (hgroups newId).mp hmember with hmember | ⟨-, hadded⟩
      · exact .inr hmember
      · exact .inl ((husers.mem_map_pk _).mp hadded)
  | permissionGroupUpdate id input =>
    obtain ⟨group, users, users', addChannels, removeChannels, hfind, husers, husers', hensure, -,
      hchannels, -, -, rfl⟩ := PermissionGroupUpdate.accepted h
    obtain ⟨hmem, rfl⟩ := Table.find?_eq_some.mp hfind
    obtain ⟨-, hscope⟩ := PermissionGroupUpdate.ensureRequestorCanManageGroup_eq_ok hsuper hensure
    obtain ⟨hall, hadd⟩ := PermissionGroupUpdate.cleanChannels_eq_ok hsuper hchannels
    obtain ⟨old, hold, -, hgroups⟩ := find?_updateUsers huser
    obtain rfl := Option.some.inj (hrequestor.symm.trans hold)
    refine accessibleChannels_mono (fun group' hgroup' hmember => ?_) rfl
    have hsave : group' ∈ db.groups.save
        (PermissionGroupUpdate.updated group input addChannels removeChannels) := hgroup'
    have hexists : ∃ x ∈ db.groups,
        pk x = pk (PermissionGroupUpdate.updated group input addChannels removeChannels) :=
      ⟨group, hmem, rfl⟩
    obtain ⟨hbefore, hkept⟩ := (hgroups group'.id).mp hmember
    rcases (Table.mem_save hexists).mp hsave with rfl | ⟨hgroup', hne⟩
    · right
      refine updated_subset rfl hscope hall hadd fun hnull => hkeeps requestor hrequestor hnull ?_ ?_
      · rcases hbefore with hmember | ⟨-, hadded⟩
        · exact .inr hmember
        · exact .inl ((husers.mem_map_pk _).mp hadded)
      · exact fun hremoved => hkept ⟨rfl, (husers'.mem_map_pk _).mpr hremoved⟩
    · exact .inl ⟨hgroup', hbefore.resolve_right fun h => hne h.1⟩
  | permissionGroupDelete id =>
    obtain ⟨group, -, -, -, rfl⟩ := PermissionGroupDelete.accepted hsuper h
    rw [Table.find?_map, hrequestor] at huser
    obtain rfl := Option.some.inj huser
    refine accessibleChannels_mono (fun group' hgroup' hmember => .inl ⟨?_, ?_⟩) rfl
    · exact List.mem_of_mem_filter hgroup'
    · exact Finset.mem_of_mem_erase hmember
  | staffCreate newId input =>
    obtain ⟨users, instance', groups, hinstance, hmanage, rfl⟩ := StaffCreate.accepted hsuper h
    have hsame : user = requestor ∨ (user.groups = requestor.groups) := by
      rcases hinstance with ⟨rfl, hmem, hstaff⟩ | ⟨hinsert, rfl⟩
      · rcases find?_save_row huser with ⟨hid, rfl⟩ | huser
        · -- the requestor himself, who is not staff and so can manage no group
          right
          have hinstance : db.users.find? requestorId = some instance' := by
            rw [hid]
            exact Table.mem_iff_find?.mp hmem
          obtain rfl := Option.some.inj (hrequestor.symm.trans hinstance)
          have hnil : groups = [] := by
            refine List.eq_nil_iff_forall_not_mem.mpr fun group hgroup => ?_
            have hmanage := StaffCreate.mem_getGroupsWhichUserCanManage.mp (hmanage group hgroup)
            rw [hstaff] at hmanage
            exact Bool.false_ne_true hmanage.1
          rw [hnil]
          exact Finset.union_empty _
        · exact .inl (Option.some.inj (hrequestor.symm.trans huser)).symm
      · obtain ⟨hrow, hid⟩ := Table.find?_eq_some.mp hrequestor
        have hne : requestorId ≠ pk ({ id := newId } : User) := fun heq =>
          (Table.insert_eq_some hinsert).2 requestor hrow (hid.trans heq)
        rcases find?_save_row huser with ⟨heq, -⟩ | huser
        · exact absurd heq hne
        · rw [Table.find?_insert hinsert, if_neg hne] at huser
          exact .inl (Option.some.inj (hrequestor.symm.trans huser)).symm
    refine accessibleChannels_mono (fun group hgroup hmember => .inl ⟨hgroup, ?_⟩) rfl
    rcases hsame with rfl | hsame
    · exact hmember
    · exact hsame ▸ hmember
  | staffUpdate id input =>
    obtain ⟨instance', groups, groups', hinstance, -, hadded, -, -, -, -, rfl⟩ :=
      StaffUpdate.accepted hsuper h
    rcases find?_save_row huser with ⟨rfl, rfl⟩ | huser
    · obtain ⟨hrow, hid⟩ := Table.find?_eq_some.mp hinstance
      obtain rfl : id = instance'.id := hid.symm
      obtain rfl := Option.some.inj (hrequestor.symm.trans hinstance)
      refine accessibleChannels_mono (fun group hgroup hmember => ?_) rfl
      rcases Finset.mem_union.mp (Finset.mem_sdiff.mp hmember).1 with hmember | hmember
      · exact .inl ⟨hgroup, hmember⟩
      · right
        obtain ⟨group', hgroup', heq⟩ := List.mem_map.mp (List.mem_toFinset.mp hmember)
        obtain ⟨hmem, hid⟩ := (hadded.mem group').mp hgroup'
        obtain rfl : group' = group := Table.eq_of_pk_eq hmem hgroup heq
        exact hkeeps rfl requestor hrequestor group' hmem hid
    · obtain rfl := Option.some.inj (hrequestor.symm.trans huser)
      exact accessibleChannels_mono (fun group hgroup hmember => .inl ⟨hgroup, hmember⟩) rfl

/-- **The step**: a request that keeps to the requestor's channels, or is not accepted, gains him
none. -/
theorem channelsOf_step {requestorId : ℕ}
    (hsuper : ∀ user, db.users.find? requestorId = some user → user.isSuperuser = false)
    (request : Request)
    (hkeeps : ∀ db', perform db requestorId request = .ok db' → KeepsToChannels requestorId db request) :
    channelsOf (step requestorId db request) requestorId ⊆ channelsOf db requestorId := by
  rw [step]
  split
  · rename_i db' hperform
    exact channelsOf_of_accepted hsuper (hkeeps db' hperform) hperform
  · exact Finset.Subset.refl _

/-! ### A run -/

/-- The invariant of a run that began with `db`. -/
structure NoneGained (db : Db) (requestorId : ℕ) (db' : Db) : Prop where
  notSuperuser : ∀ user, db'.users.find? requestorId = some user → user.isSuperuser = false
  channels : channelsOf db' requestorId ⊆ channelsOf db requestorId

theorem NoneGained.step {requestorId : ℕ} {request : Request} (h : NoneGained db requestorId db')
    (hkeeps : ∀ db'', perform db' requestorId request = .ok db'' →
      KeepsToChannels requestorId db' request) :
    NoneGained db requestorId (step requestorId db' request) :=
  ⟨not_superuser_step h.notSuperuser request,
    (channelsOf_step h.notSuperuser request hkeeps).trans h.channels⟩

/-- **Channels are never gained** in a run of requests of a user who is no superuser, as long as the
accepted ones keep to his channels. -/
theorem channels_never_gained (db : Db) (requestorId : ℕ)
    (hsuper : ∀ user, db.users.find? requestorId = some user → user.isSuperuser = false)
    (requests : List Request)
    (hkeeps : Runs.EachStep (step requestorId) (fun db request => ∀ db',
      perform db requestorId request = .ok db' → KeepsToChannels requestorId db request)
      db requests) :
    ∀ db', Runs.Reached (step requestorId) db requests db' →
      channelsOf db' requestorId ⊆ channelsOf db requestorId := by
  intro db' hreached
  have hstart : NoneGained db requestorId db := ⟨hsuper, Finset.Subset.refl _⟩
  exact (hkeeps.inv_reached (fun _ _ h hok => h.step hok) hstart hreached).channels

/-- A shop with two channels, and a member of staff who has access to one. -/
def twoChannels : Db where
  users := Table.singleton { id := 1, isStaff := true, groups := {10} }
  groups := ⟨[{ id := 10
                permissions := {.manageStaff}
                restrictedAccessToChannels := true
                channels := {100} },
              { id := 11
                restrictedAccessToChannels := true
                channels := {200} }], by decide⟩
  channels := {100, 200}

/-- He makes a group for his own channel and joins it. -/
theorem channels_never_gained_own_group :
    channelsOf (Runs.run (step 1) twoChannels [.permissionGroupCreate 12
        { addUsers := [1], addChannels := [100], restrictedAccessToChannels := some true }]) 1
      ⊆ channelsOf twoChannels 1 := by
  refine channels_never_gained twoChannels 1 ?_ [.permissionGroupCreate 12
      { addUsers := [1], addChannels := [100], restrictedAccessToChannels := some true }] ?_ _
    (Runs.reached_run _ _)
  · intro user huser
    obtain rfl := Option.some.inj huser
    rfl
  · refine ⟨fun _ _ requestor _ hnull => ?_, trivial⟩
    cases hnull

/-- He puts himself into the group of the other channel. -/
theorem channel_gained_by_staff_update :
    ¬ channelsOf (Runs.run (step 1) twoChannels [.staffUpdate 1 { addGroups := [11] }]) 1
      ⊆ channelsOf twoChannels 1 := by
  decide +kernel

end Permissions

end Aixinwu
