import Aixinwu.Account.OidcLogin
import Aixinwu.Lib.Runs

/-!
# Rewards of the first login

What `get_or_create_user_from_payload` pays to a new user (two balance events, the user statistic,
the owner of the invitation) is paid in the branch of a user who is *not found*. There the user is
looked up by e-mail or created, and which of the two it was is dropped. So the branch pays again
whenever a user with that e-mail exists: an account made in another way, or a second provider with
the same e-mail domain. The other way round, with several users for one subject a user may be
created in a branch that pays nothing.

`LoginRequest.Recorded` excludes both, and **`paidOnce_iff`** shows that nothing else goes wrong: in
every history of logins, with the cache holding an entry or not, everything is paid in the login
that creates the user and only there, exactly if every login that succeeds meets it.

## Main definitions

* `LoginState`, `loginStep` — the tables, the statistic and the cache, over a history of logins
* `PaidOnce` — what a login has paid, against the users it has created

## Main results

* `paidOnce_loginStep_iff` — one login
* `paidOnce_iff` — every history
-/

namespace Aixinwu

namespace Account

open Runs

/-- What a history of logins works on: the tables, `SiteStatistics.users` and the cache of user
ids. -/
structure LoginState where
  db : Db
  statistic : ℕ
  cache : List (String × ℕ) := []

/-- A login, and whether the cache still has what was put there. -/
structure OidcLogin where
  request : LoginRequest
  cacheKept : Bool

/-- `cache_key`. -/
def LoginRequest.cacheKey (r : LoginRequest) (account : String) : String :=
  r.oidcMetadataKey ++ ":" ++ account

/-- The request with what `cache.get` returns; an id `0` counts as none. -/
def withCache (s : LoginState) (l : OidcLogin) : LoginRequest :=
  { l.request with
    cachedId := (l.request.sub.bind fun account =>
      if l.cacheKept then s.cache.lookup (l.request.cacheKey account) else none).filter (· ≠ 0) }

/-- `SiteStatistics.users` after the `try` statement: counted up in the branch of a user who is not
found. -/
def statisticAfter (r : LoginRequest) (account : String) (s : LoginState) : ℕ :=
  if r.getUser s.db.users account = .error .doesNotExist then s.statistic + 1 else s.statistic

/-- The state after a login; one that raises has been rolled back. -/
def loginStep (date : Time → ℤ) (s : LoginState) (l : OidcLogin) : LoginState :=
  let r := withCache s l
  match r.sub with
  | none => s
  | some account =>
    match getOrCreateUserFromPayload date r s.db, findUser r account s.db with
    | .ok db, .ok (_, user) =>
      { db, statistic := statisticAfter r account s
        cache := (r.cacheKey account, user.pk) :: s.cache }
    | _, _ => s

/-- The login succeeds. -/
def Succeeds (date : Time → ℤ) (s : LoginState) (l : OidcLogin) : Prop :=
  ∃ db, getOrCreateUserFromPayload date (withCache s l) s.db = .ok db

/-! ### What is wanted -/

/-- The keys of the users that are new. -/
def createdPks (users users' : Table User) : List ℕ :=
  (users'.rows.map (·.pk)).filter (· ∉ users.rows.map (·.pk))

/-- The owner of the invitation. -/
def inviterOf (r : LoginRequest) (db : Db) : Option ℕ :=
  (r.invitationCode.filter (· ≠ "")).bind fun code =>
    (db.invitations.get (·.code = some code)).toOption.bind (·.user)

/-- The events that are due when the user `k` is created. -/
def rewardsOf (r : LoginRequest) (db : Db) (k : ℕ) : List BalanceEvent :=
  [firstLoginBalanceEvent r.now k,
    { date := r.now, type := .consecutiveLogin, user := k, balance := defaultBalance,
      delta := CONTINUOUS_BALANCE_ADD.head! }] ++
    (inviterOf r db).toList.map (acceptInvitationBalanceEvent r.now)

/-- The daily reward of a login, if any. -/
def IsDaily (events : List BalanceEvent) : Prop :=
  events.length ≤ 1 ∧ ∀ e ∈ events, e.type = .consecutiveLogin

/-- **What is wanted of a login.** Besides the daily reward exactly the rewards of the users it has
created are paid, and nobody's `invited_by` is overwritten. -/
structure PaidOnce (r : LoginRequest) (s s' : LoginState) : Prop where
  rewards : ∃ daily, IsDaily daily ∧
    s'.db.balanceEvents = s.db.balanceEvents
      ++ (createdPks s.db.users s'.db.users).flatMap (rewardsOf r s.db) ++ daily ∧
    ∀ u ∈ s.db.users, balanceOf s'.db.users u.pk = some (u.balance
      + (if inviterOf r s.db = some u.pk
          then 25000 * ((createdPks s.db.users s'.db.users).length : ℤ) else 0)
      + deltaSum u.pk daily)
  statistic : s'.statistic = s.statistic + (createdPks s.db.users s'.db.users).length
  invitedBy : ∀ u ∈ s.db.users, ∃ u' ∈ s'.db.users, u'.pk = u.pk ∧
    (u.invitedBy ≠ "" → u'.invitedBy = u.invitedBy)

/-! ### What the parts of a login write -/

section Parts

variable {date : Time → ℤ} {r : LoginRequest} {account : String} {db db' : Db} {user : User}

/-- `invited_by` of the user with key `k`. -/
def invitedByOf (users : Table User) (k : ℕ) : Option String := (users.find? k).map (·.invitedBy)

theorem invitedByOf_saveUser (db : Db) (fields : List UserField) (mem : User) (k : ℕ) :
    invitedByOf (db.saveUser fields mem).users k = (invitedByOf db.users k).map fun s =>
      if k = mem.pk ∧ .invitedBy ∈ fields then mem.invitedBy else s := by
  rw [Db.saveUser, invitedByOf, Table.find?_modify, invitedByOf]
  by_cases h : k = mem.pk <;> simp [h, Function.comp_def, User.saveFields]

theorem pks_saveUser (db : Db) (fields : List UserField) (mem : User) :
    (db.saveUser fields mem).users.rows.map (·.pk) = db.users.rows.map (·.pk) :=
  Table.map_rows_modify db.users mem.pk _ (User.hasPk_saveFields fields mem) fun _ => rfl

/-- The fields that a step of `_update_user_details` adds never name `invited_by`. -/
theorem invitedBy_notMem_updateIdentity {u : User} {fields : List UserField}
    (h : updateIdentity r account db user = some (u, fields)) : .invitedBy ∉ fields := by
  have hsubject : .invitedBy ∉ (updateSubject r account user).2 := by
    rw [updateSubject]
    split <;> simp
  rw [updateIdentity] at h
  split at h
  rename_i v fields' hupdate
  rw [hupdate] at hsubject
  split at h
  · split at h
    · cases h
    · cases h
      simpa using hsubject
  · cases h
    exact hsubject

theorem updateContinuousDays_fields {table : List Amount} {now loginTime : Time}
    {fields fields' : List UserField} {user' : User} {events : List BalanceEvent}
    (h : updateContinuousDays table date now user loginTime fields = some (user', events, fields')) :
    (.invitedBy ∈ fields' → .invitedBy ∈ fields) ∧ IsDaily events := by
  rw [updateContinuousDays] at h
  by_cases hlater : date loginTime - date user.lastLogin ≥ 1
  · simp only [hlater, if_true] at h
    obtain ⟨δ, -, h⟩ := Option.bind_eq_some_iff.mp h
    simp only [Option.some.injEq, Prod.mk.injEq] at h
    obtain ⟨-, rfl, rfl⟩ := h
    exact ⟨by simp, by simp, by simp [consecutiveLoginBalanceEvent]⟩
  · simp only [hlater, if_false, Option.some.injEq, Prod.mk.injEq] at h
    obtain ⟨-, rfl, rfl⟩ := h
    exact ⟨by simp, by simp, by simp⟩

theorem updateNames_fields (r : LoginRequest) (user : User) (fields : List UserField) :
    .invitedBy ∈ (updateNames r user fields).2 → .invitedBy ∈ fields := by
  rw [updateNames]
  by_cases hfirst : user.firstName ≠ r.name.getD "" <;>
    by_cases hlast : user.lastName ≠ r.familyName.getD "" <;>
      by_cases hcode : r.code ≠ "" ∧ user.code ≠ r.code <;>
        by_cases htype : user.userType ≠ r.type.getD "student" <;>
          simp [hfirst, hlast, hcode, htype]

/-- `_update_user_details` writes a daily reward, and neither keys nor `invited_by`. -/
theorem updateUserDetails_writes (h : updateUserDetails date r account db user = .ok db') :
    (∃ daily, IsDaily daily ∧ db'.balanceEvents = db.balanceEvents ++ daily) ∧
      db'.users.rows.map (·.pk) = db.users.rows.map (·.pk) ∧
      ∀ k, invitedByOf db'.users k = invitedByOf db.users k := by
  rw [updateUserDetails] at h
  rcases hidentity : updateIdentity r account db user with _ | ⟨u, fields⟩
  · simp only [hidentity] at h
    cases h
    exact ⟨⟨[], ⟨by simp, by simp⟩, by simp⟩, rfl, fun _ => rfl⟩
  rcases hdays : updateContinuousDays CONTINUOUS_BALANCE_ADD date r.now u r.loginTime fields
    with _ | ⟨u', events, fields'⟩
  · simp only [hidentity, hdays] at h
    cases h
  obtain ⟨hfields, hdaily⟩ := updateContinuousDays_fields hdays
  have hnone : .invitedBy ∉ (updateNames r u' fields').2 := fun hmem =>
    invitedBy_notMem_updateIdentity hidentity (hfields (updateNames_fields r u' fields' hmem))
  simp only [hidentity, hdays] at h
  cases h
  refine ⟨⟨events, hdaily, rfl⟩, pks_saveUser _ _ _, fun k => ?_⟩
  refine (invitedByOf_saveUser _ _ _ k).trans ?_
  simp [hnone]

/-- What the branch of a new user does with the invitation. -/
theorem acceptInvitation_writes {u : User} (h : acceptInvitation r db user = .ok (db', u)) :
    db'.balanceEvents = db.balanceEvents
        ++ (inviterOf r db).toList.map (acceptInvitationBalanceEvent r.now) ∧
      db'.users.rows.map (·.pk) = db.users.rows.map (·.pk) ∧
      ∀ k, k ≠ user.pk → invitedByOf db'.users k = invitedByOf db.users k := by
  rw [acceptInvitation] at h
  rcases hcode : r.invitationCode with _ | code
  · rw [hcode] at h
    cases h
    exact ⟨by simp [inviterOf, hcode], rfl, fun _ _ => rfl⟩
  simp only [hcode] at h
  split at h
  · rename_i hempty
    cases h
    exact ⟨by simp [inviterOf, hcode, hempty], rfl, fun _ _ => rfl⟩
  rename_i hne
  split at h
  · cases h
  · cases h
  rename_i invitation hget
  split at h
  · cases h
  rename_i inviter hinviter
  obtain ⟨k, hk, hfind⟩ := Option.bind_eq_some_iff.mp hinviter
  obtain ⟨-, rfl⟩ := Table.find?_eq_some.mp hfind
  have howner : inviterOf r db = some inviter.pk := by
    rw [inviterOf, hcode, Option.filter_some, if_pos (decide_eq_true hne), Option.bind_some, hget]
    exact hk
  cases h
  refine ⟨by rw [howner]; rfl, (pks_saveUser _ _ _).trans (pks_saveUser db [.balance] _), ?_⟩
  intro j hj
  refine (invitedByOf_saveUser _ _ _ j).trans ?_
  simp only [hj, false_and, if_false, Option.map_id']
  refine (invitedByOf_saveUser db [.balance] _ j).trans ?_
  simp

/-- The three ways through the `try` statement: found, not found, several. -/
theorem findUser_cases (h : findUser r account db = .ok (db', user)) :
    ((∃ u, r.getUser db.users account = .ok u) ∧ db' = db ∨
      r.getUser db.users account = .error .doesNotExist ∧
        (∃ db₁ u, getOrCreateByEmail r account db = .ok (db₁, u) ∧
          acceptInvitation r { db₁ with balanceEvents := db₁.balanceEvents ++ firstEvents r u } u
            = .ok (db', user)) ∨
      r.getUser db.users account = .error .multipleObjectsReturned ∧
        getOrCreateByEmail r account db = .ok (db', user)) := by
  rw [findUser] at h
  rcases hget : r.getUser db.users account with (_ | _) | u
  · simp only [hget] at h
    rw [firstLogin] at h
    rcases hcreate : getOrCreateByEmail r account db with e | ⟨db₁, u⟩
    · rw [hcreate] at h
      cases h
    · rw [hcreate] at h
      exact Or.inr (Or.inl ⟨rfl, db₁, u, rfl, h⟩)
  · simp only [hget] at h
    exact Or.inr (Or.inr ⟨rfl, h⟩)
  · simp only [hget] at h
    cases h
    exact Or.inl ⟨⟨_, rfl⟩, rfl⟩

/-- A login that succeeds: who is found, and then his details. -/
theorem getOrCreateUserFromPayload_eq_ok
    (h : getOrCreateUserFromPayload date r db = .ok db') :
    ∃ account db₁ user, r.sub = some account ∧ findUser r account db = .ok (db₁, user) ∧
      updateUserDetails date r account db₁ user = .ok db' := by
  rw [getOrCreateUserFromPayload] at h
  rcases hsub : r.sub with _ | account
  · simp only [hsub] at h
    cases h
  rcases hfind : findUser r account db with e | ⟨db₁, user⟩
  · simp only [hsub, hfind] at h
    cases h
  simp only [hsub, hfind] at h
  split at h
  · cases h
  · exact ⟨account, db₁, user, rfl, hfind, h⟩

end Parts

/-! ### Who is new -/

section Created

variable {users users' : Table User} {k : ℕ}

theorem createdPks_of_eq (h : users'.rows.map (·.pk) = users.rows.map (·.pk)) :
    createdPks users users' = [] := by
  rw [createdPks, h]
  exact List.filter_eq_nil_iff.mpr fun k hk => by simpa using hk

theorem createdPks_of_append (h : users'.rows.map (·.pk) = users.rows.map (·.pk) ++ [k])
    (hk : k ∉ users.rows.map (·.pk)) : createdPks users users' = [k] := by
  rw [createdPks, h, List.filter_append,
    List.filter_eq_nil_iff.mpr fun j hj => by simpa using hj, List.nil_append,
    List.filter_cons_of_pos (by simpa using hk), List.filter_nil]

/-- A user is inserted, and after that nobody. -/
theorem createdPks_of_insert {u : User} {inserted : Table User}
    (hins : users.insert u = some inserted)
    (hpks : users'.rows.map (·.pk) = inserted.rows.map (·.pk)) :
    users'.rows.map (·.pk) = users.rows.map (·.pk) ++ [u.pk] ∧ createdPks users users' = [u.pk] := by
  obtain ⟨hrows, hfresh⟩ := Table.insert_eq_some hins
  have happend : users'.rows.map (·.pk) = users.rows.map (·.pk) ++ [u.pk] := by
    rw [hpks, hrows, List.map_append, List.map_singleton]
  have hnew : u.pk ∉ users.rows.map (·.pk) := by
    intro hmem
    obtain ⟨v, hv, hpk⟩ := List.mem_map.mp hmem
    exact hfresh v hv hpk
  exact ⟨happend, createdPks_of_append happend hnew⟩

theorem notMem_createdPks {u : User} (hu : u ∈ users) : u.pk ∉ createdPks users users' := by
  intro h
  have := (List.mem_filter.mp h).2
  simp only [decide_eq_true_eq] at this
  exact this (List.mem_map_of_mem hu)

/-- What the rewards of new users are to somebody else: the invitation he owns. -/
theorem deltaSum_rewardsOf (r : LoginRequest) (db : Db) {j : ℕ} {ks : List ℕ} (hj : j ∉ ks) :
    deltaSum j (ks.flatMap (rewardsOf r db))
      = if inviterOf r db = some j then 25000 * (ks.length : ℤ) else 0 := by
  induction ks with
  | nil => simp
  | cons k ks ih =>
    rw [List.mem_cons, not_or] at hj
    have hfirst : deltaSum j (rewardsOf r db k) = if inviterOf r db = some j then 25000 else 0 := by
      rw [rewardsOf, deltaSum_append]
      cases howner : inviterOf r db with
      | none => simp [deltaSum_cons, firstLoginBalanceEvent, Ne.symm hj.1]
      | some i =>
        simp [deltaSum_cons, firstLoginBalanceEvent, acceptInvitationBalanceEvent, Ne.symm hj.1]
    rw [List.flatMap_cons, deltaSum_append, hfirst, ih hj.2, List.length_cons]
    split
    · push_cast
      ring
    · rfl

end Created

/-! ### One login -/

section Step

variable {date : Time → ℤ} {r : LoginRequest} {account : String} {db db' : Db} {user : User}
  {s : LoginState} {l : OidcLogin}

theorem isDaily_not_firstEvents {daily pre suffix : List BalanceEvent} {k : ℕ}
    (h : IsDaily daily) : daily ≠ pre ++ firstLoginBalanceEvent r.now k :: suffix := by
  rintro rfl
  have htype := h.2 (firstLoginBalanceEvent r.now k) (by simp)
  cases htype

/-- What a login that finds, or properly creates, its user has done to keys, events and
`invited_by`. -/
structure Clean (r : LoginRequest) (account : String) (db db' : Db) : Prop where
  pks : ∃ new, db'.users.rows.map (·.pk) = db.users.rows.map (·.pk) ++ new ∧
    createdPks db.users db'.users = new ∧
    new.length = if r.getUser db.users account = .error .doesNotExist then 1 else 0
  events : ∃ daily, IsDaily daily ∧ db'.balanceEvents = db.balanceEvents
    ++ (createdPks db.users db'.users).flatMap (rewardsOf r db) ++ daily
  invitedBy : ∀ u ∈ db.users, invitedByOf db'.users u.pk = some u.invitedBy

theorem invitedByOf_of_mem {users : Table User} {u : User} (hu : u ∈ users) :
    invitedByOf users u.pk = some u.invitedBy := by
  rw [invitedByOf, show users.find? u.pk = some u from Table.mem_iff_find?.mp hu]
  rfl

/-- **A recorded login is clean.** -/
theorem clean_of_recorded (hsub : r.sub = some account) (hrecorded : r.Recorded db)
    {db₁ : Db} (hfind : findUser r account db = .ok (db₁, user))
    (hupdate : updateUserDetails date r account db₁ user = .ok db') : Clean r account db db' := by
  obtain ⟨⟨daily, hdaily, hevents⟩, hpks, hinvited⟩ := updateUserDetails_writes hupdate
  have hr := hrecorded account hsub
  rcases findUser_cases hfind with ⟨⟨u, hget⟩, rfl⟩ | ⟨hget, db₂, u, hcreate, haccept⟩ |
    ⟨hget, hcreate⟩
  · -- found
    have hnone := createdPks_of_eq hpks
    refine ⟨⟨[], by simpa using hpks, hnone, by simp [hget]⟩, ⟨daily, hdaily, ?_⟩, ?_⟩
    · rw [hnone, hevents]
      simp
    · exact fun u hu => (hinvited u.pk).trans (invitedByOf_of_mem hu)
  · -- not found, so created
    rw [hget] at hr
    rcases getOrCreateByEmail_eq_ok hcreate with ⟨-, hu, hemail⟩ | ⟨-, rfl, -, users, hins, rfl⟩
    · exact absurd hemail (hr u hu)
    obtain ⟨hevents₁, hpks₁, hinvited₁⟩ := acceptInvitation_writes haccept
    obtain ⟨hpks', hone⟩ : db'.users.rows.map (·.pk) = db.users.rows.map (·.pk) ++ [r.newPk] ∧
        createdPks db.users db'.users = [r.newPk] := createdPks_of_insert hins (hpks.trans hpks₁)
    refine ⟨⟨[r.newPk], hpks', hone, by simp [hget]⟩, ⟨daily, hdaily, ?_⟩, ?_⟩
    · rw [hone, hevents, hevents₁]
      simp [rewardsOf, firstEvents, consecutiveLoginBalanceEvent, LoginRequest.newUser, inviterOf]
    · intro v hv
      have hne : v.pk ≠ HasPk.pk (r.newUser account) := (Table.insert_eq_some hins).2 v hv
      rw [hinvited, hinvited₁ v.pk hne, invitedByOf, Table.find?_insert hins, if_neg hne,
        ← invitedByOf]
      exact invitedByOf_of_mem hv
  · -- several, and one has the e-mail
    rw [hget] at hr
    obtain ⟨v, hv, hemail⟩ := hr
    rcases getOrCreateByEmail_eq_ok hcreate with ⟨rfl, -, -⟩ | ⟨hnone, -⟩
    · have hnone := createdPks_of_eq hpks
      refine ⟨⟨[], by simpa using hpks, hnone, by simp [hget]⟩, ⟨daily, hdaily, ?_⟩, ?_⟩
      · rw [hnone, hevents]
        simp
      · exact fun u hu => (hinvited u.pk).trans (invitedByOf_of_mem hu)
    · exact absurd hemail (hnone v hv)

theorem loginStep_of_eq_ok {db₁ : Db} (hsub : (withCache s l).sub = some account)
    (hfind : findUser (withCache s l) account s.db = .ok (db₁, user))
    (h : getOrCreateUserFromPayload date (withCache s l) s.db = .ok db') :
    loginStep date s l = ⟨db', statisticAfter (withCache s l) account s,
      ((withCache s l).cacheKey account, user.pk) :: s.cache⟩ := by
  rw [loginStep]
  simp only [hsub, h, hfind]

theorem loginStep_of_not_succeeds (h : ¬ Succeeds date s l) : loginStep date s l = s := by
  rw [loginStep]
  split
  · rfl
  · split
    · rename_i db' _ _ hok _
      exact absurd ⟨db', hok⟩ h
    · rfl

/-- Nothing happens, and nothing is paid. -/
theorem paidOnce_refl (r : LoginRequest) (s : LoginState) : PaidOnce r s s := by
  have hnone : createdPks s.db.users s.db.users = [] := createdPks_of_eq rfl
  refine ⟨⟨[], ⟨by simp, by simp⟩, by simp [hnone], fun u hu => ?_⟩, by simp [hnone],
    fun u hu => ⟨u, hu, rfl, fun _ => rfl⟩⟩
  rw [hnone, show balanceOf s.db.users u.pk = some u.balance from fresh_of_mem hu]
  simp

/-- **A recorded login pays once.** -/
theorem paidOnce_of_recorded {db₁ : Db} (hsub : (withCache s l).sub = some account)
    (hrecorded : (withCache s l).Recorded s.db)
    (hfind : findUser (withCache s l) account s.db = .ok (db₁, user))
    (hupdate : updateUserDetails date (withCache s l) account db₁ user = .ok db')
    (h : getOrCreateUserFromPayload date (withCache s l) s.db = .ok db') :
    PaidOnce (withCache s l) s (loginStep date s l) := by
  obtain ⟨⟨new, hpks, hnew, hlength⟩, ⟨daily, hdaily, hevents⟩, hinvited⟩ :=
    clean_of_recorded hsub hrecorded hfind hupdate
  rw [loginStep_of_eq_ok hsub hfind h]
  refine ⟨⟨daily, hdaily, hevents, fun u hu => ?_⟩, ?_, fun u hu => ?_⟩
  · -- the balance is where the events have moved it
    have hgap : gap db' u.pk = gap s.db u.pk := by
      have hlogin : gap (login date (withCache s l) s.db) = gap s.db := gap_login hrecorded
      rw [login, h] at hlogin
      exact congrFun hlogin u.pk
    obtain ⟨u', hu', hpk⟩ : ∃ u' ∈ db'.users.rows, u'.pk = u.pk := by
      refine List.mem_map.mp ?_
      rw [hpks]
      exact List.mem_append_left _ (List.mem_map_of_mem hu)
    have hbalance' : balanceOf db'.users u.pk = some u'.balance := hpk ▸ fresh_of_mem hu'
    have hbalance : balanceOf s.db.users u.pk = some u.balance := fresh_of_mem hu
    rw [gap, gap, balanceIn, balanceIn, hbalance', hbalance, hevents, deltaSum_append,
      deltaSum_append, deltaSum_rewardsOf _ _ (notMem_createdPks hu)] at hgap
    simp only [Option.getD_some] at hgap
    rw [hbalance', Option.some.injEq]
    show u'.balance = u.balance + (if inviterOf (withCache s l) s.db = some u.pk
      then 25000 * ((createdPks s.db.users db'.users).length : ℤ) else 0) + deltaSum u.pk daily
    linarith
  · show statisticAfter (withCache s l) account s = _
    rw [statisticAfter, hnew, hlength]
    split <;> rfl
  · obtain ⟨u', hu', hpk⟩ : ∃ u' ∈ db'.users.rows, u'.pk = u.pk := by
      refine List.mem_map.mp ?_
      rw [hpks]
      exact List.mem_append_left _ (List.mem_map_of_mem hu)
    refine ⟨u', hu', hpk, fun _ => ?_⟩
    have hkept := hinvited u hu
    rw [← hpk, invitedByOf_of_mem hu', Option.some.injEq] at hkept
    exact hkept

/-- A login that is not recorded pays somebody who was there, or creates somebody unpaid. -/
theorem recorded_of_paidOnce (h : Succeeds date s l)
    (hpaid : PaidOnce (withCache s l) s (loginStep date s l)) :
    (withCache s l).Recorded s.db := by
  obtain ⟨db', h⟩ := h
  obtain ⟨account, db₁, user, hsub, hfind, hupdate⟩ := getOrCreateUserFromPayload_eq_ok h
  obtain ⟨⟨daily, hdaily, hevents⟩, hpks, -⟩ := updateUserDetails_writes hupdate
  rw [loginStep_of_eq_ok hsub hfind h] at hpaid
  obtain ⟨paid, hpaidDaily, hpaidEvents, -⟩ := hpaid.rewards
  intro account' hsub'
  obtain rfl : account = account' := Option.some.inj (hsub.symm.trans hsub')
  rcases findUser_cases hfind with ⟨⟨u, hget⟩, -⟩ | ⟨hget, db₂, u, hcreate, haccept⟩ |
    ⟨hget, hcreate⟩
  · rw [hget]
    trivial
  · rw [hget]
    rcases getOrCreateByEmail_eq_ok hcreate with ⟨rfl, -, -⟩ | ⟨hnone, -⟩
    · -- the rewards of somebody who was there stand where only a daily reward may
      obtain ⟨hevents₁, hpks₁, -⟩ := acceptInvitation_writes haccept
      have hnone := createdPks_of_eq (hpks.trans hpks₁)
      have hsame : paid = [] ++ firstLoginBalanceEvent (withCache s l).now u.pk ::
          (consecutiveLoginBalanceEvent (withCache s l).now u CONTINUOUS_BALANCE_ADD.head! ::
            (inviterOf (withCache s l)
              { s.db with balanceEvents := s.db.balanceEvents ++ firstEvents (withCache s l) u }).toList.map
              (acceptInvitationBalanceEvent (withCache s l).now) ++ daily) := by
        refine (List.append_right_inj s.db.balanceEvents).mp ?_
        rw [hnone, List.flatMap_nil, List.append_nil] at hpaidEvents
        rw [← hpaidEvents]
        show db'.balanceEvents = _
        rw [hevents, hevents₁]
        simp [firstEvents]
      exact absurd hsame (isDaily_not_firstEvents hpaidDaily)
    · exact hnone
  · rw [hget]
    rcases getOrCreateByEmail_eq_ok hcreate with ⟨rfl, hu, hemail⟩ | ⟨-, rfl, -, users, hins, rfl⟩
    · exact ⟨user, hu, hemail⟩
    · -- somebody is created, and only a daily reward is paid
      have hone : createdPks s.db.users db'.users = [(withCache s l).newPk] :=
        (createdPks_of_insert hins hpks).2
      have hsame : daily = [] ++ firstLoginBalanceEvent (withCache s l).now (withCache s l).newPk ::
          ((rewardsOf (withCache s l) s.db (withCache s l).newPk).tail ++ paid) := by
        refine (List.append_right_inj s.db.balanceEvents).mp ?_
        rw [hone] at hpaidEvents
        have hleft : s.db.balanceEvents ++ daily = db'.balanceEvents := hevents.symm
        rw [hleft]
        refine hpaidEvents.trans ?_
        simp [rewardsOf]
      exact absurd hsame (isDaily_not_firstEvents hdaily)

/-- **One login.** -/
theorem paidOnce_loginStep_iff (date : Time → ℤ) (s : LoginState) (l : OidcLogin) :
    PaidOnce (withCache s l) s (loginStep date s l) ↔
      (Succeeds date s l → (withCache s l).Recorded s.db) := by
  constructor
  · exact fun hpaid h => recorded_of_paidOnce h hpaid
  · intro hrecorded
    by_cases h : Succeeds date s l
    · obtain ⟨db', hok⟩ := h
      obtain ⟨account, db₁, user, hsub, hfind, hupdate⟩ := getOrCreateUserFromPayload_eq_ok hok
      exact paidOnce_of_recorded hsub (hrecorded ⟨db', hok⟩) hfind hupdate hok
    · rw [loginStep_of_not_succeeds h]
      exact paidOnce_refl _ s

end Step

/-- **First-login rewards.** In every history of logins, each pays the rewards of a first login
exactly for the users it creates, exactly if each that succeeds finds its user by the cache or the
subject, or finds nobody and nobody has the e-mail, or finds several and somebody has it. -/
theorem paidOnce_iff (date : Time → ℤ) (s : LoginState) (logins : List OidcLogin) :
    EachStep (loginStep date) (fun t l => PaidOnce (withCache t l) t (loginStep date t l)) s logins ↔
      EachStep (loginStep date)
        (fun t l => Succeeds date t l → (withCache t l).Recorded t.db) s logins := by
  constructor
  · exact EachStep.mono fun t l => (paidOnce_loginStep_iff date t l).mp
  · exact EachStep.mono fun t l => (paidOnce_loginStep_iff date t l).mpr

/-- A user who was made in another way, with the e-mail his subject leads to. -/
def zhang : User := { pk := 1, email := "zhang@sjtu.edu.cn", balance := 500, lastLogin := 0 }

/-- He has logged in before in another way, and now does through a provider. -/
theorem paidOnce_existing_user :
    let s : LoginState := { db := { users := Table.singleton zhang }, statistic := 1 }
    let l : OidcLogin :=
      { request := { sub := some "zhang", code := "", emailDomain := "@sjtu.edu.cn",
                     oauthUrl := "https://jaccount.sjtu.edu.cn", newPk := 2, joined := 0, now := 0,
                     loginTime := 0 }
        cacheKept := false }
    ((loginStep id s l).db.balanceEvents.map fun e => (e.user, e.type))
        = [(1, .firstLogin), (1, .consecutiveLogin)] ∧
      (loginStep id s l).statistic = 2 ∧ ¬ PaidOnce (withCache s l) s (loginStep id s l) := by
  intro s l
  refine ⟨by decide, by decide, fun hpaid => ?_⟩
  have hsuccess : Succeeds id s l := ⟨_, rfl⟩
  exact recorded_of_paidOnce hsuccess hpaid "zhang" rfl zhang List.mem_cons_self rfl

end Account

end Aixinwu
