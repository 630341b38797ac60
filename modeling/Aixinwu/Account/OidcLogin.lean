import Aixinwu.Account.ContinuousDays
import Aixinwu.Database

/-!
# Logging in with OpenID Connect

`get_or_create_user_from_payload` and `_update_user_details` of
`saleor/plugins/openid_connect/utils.py`. The whole of it runs in one transaction, so here it is a
function that either raises, and nothing has happened, or returns the tables it leaves.

A user who is not found by subject is looked up by e-mail and created if there is none. A new user
starts with the first-login and the first daily reward in the default of the balance column; the
events for both are written whether the user was created or found. With several users for one
subject the user is also looked up by e-mail or created, and no events are written.

Statistics, search documents and the matching of earlier orders are left out.

## Main definitions

* `LoginRequest`
* `getOrCreateUserFromPayload`, `login`
* `LoginRequest.Recorded` — when what a login grants is what it records

## Main results

* `gap_login` — such a login leaves every balance as far from its events as it was
-/

namespace Aixinwu

namespace Account

/-- The balance a user starts with: the default of the column. -/
def defaultBalance : Amount := 50000 + CONTINUOUS_BALANCE_ADD.head!

/-- The exceptions that end a login. -/
inductive LoginError where
  | assertionError
  | integrityError
  | doesNotExist
  | multipleObjectsReturned
  | attributeError
  | authenticationError
  | indexError
deriving DecidableEq, Repr

/-- A login: the payload and the arguments of `get_or_create_user_from_payload`, the user id in the
cache, the key a new user would get, and the clock. `confirmationRequired` are the site settings
`can_login` looks at. -/
structure LoginRequest where
  sub : Option String
  code : String
  type : Option String := none
  name : Option String := none
  familyName : Option String := none
  emailDomain : String
  oauthUrl : String
  invitationCode : Option String := none
  cachedId : Option ℕ := none
  newPk : ℕ
  joined : Time
  now : Time
  loginTime : Time
  confirmationRequired : Bool := false
deriving DecidableEq, Repr

namespace LoginRequest

/-- `oidc_metadata_key`. -/
def oidcMetadataKey (r : LoginRequest) : String := "oidc:" ++ r.oauthUrl

/-- `user_email`, of the subject. -/
def userEmail (r : LoginRequest) (account : String) : String := account ++ r.emailDomain

/-- A user made of `defaults_create` and the defaults of the columns. -/
def newUser (r : LoginRequest) (account : String) : User where
  pk := r.newPk
  email := r.userEmail account
  account := account
  balance := defaultBalance
  code := r.code
  userType := r.type.getD "student"
  firstName := r.name.getD ""
  lastName := r.familyName.getD ""
  isActive := true
  isConfirmed := true
  continuous := 1
  lastLogin := r.joined
  privateMetadata := [(r.oidcMetadataKey, account)]

/-- The first lookup: by the id in the cache, else by the subject in the metadata. -/
def getUser (r : LoginRequest) (users : Table User) (account : String) : Except GetError User :=
  match r.cachedId with
  | some id => users.get (·.pk = id)
  | none => users.get fun u => (r.oidcMetadataKey, account) ∈ u.privateMetadata

end LoginRequest

/-- `User.can_login`. -/
def User.canLogin (u : User) (confirmationRequired : Bool) : Bool :=
  u.isActive && (!confirmationRequired || u.isConfirmed)

/-- `User.objects.get_or_create(email=…, defaults=…)`; whether the user was created is not
looked at. -/
def getOrCreateByEmail (r : LoginRequest) (account : String) (db : Db) :
    Except LoginError (Db × User) :=
  match db.users.get (·.email = r.userEmail account) with
  | .ok user => .ok (db, user)
  | .error .multipleObjectsReturned => .error .multipleObjectsReturned
  | .error .doesNotExist =>
    -- a new key is in no row and in no reference
    if db.invitations.rows.any (·.user = some r.newPk) then .error .integrityError
    else
      match db.users.insert (r.newUser account) with
      | some users => .ok ({ db with users }, r.newUser account)
      | none => .error .integrityError

/-- The invitation in the branch of a new user. -/
def acceptInvitation (r : LoginRequest) (db : Db) (user : User) : Except LoginError (Db × User) :=
  match r.invitationCode with
  | none => .ok (db, user)
  | some code =>
    if code = "" then .ok (db, user)
    else
      match db.invitations.get (·.code = some code) with
      | .error .doesNotExist => .error .doesNotExist
      | .error .multipleObjectsReturned => .error .multipleObjectsReturned
      | .ok invitation =>
        match invitation.user.bind db.users.find? with
        | none => .error .attributeError
        | some inviter =>
          let db := db.saveUser [.balance] { inviter with balance := inviter.balance + 25000 }
          let db := { db with
            balanceEvents := db.balanceEvents ++ [acceptInvitationBalanceEvent r.now inviter.pk] }
          let user := { user with invitedBy := inviter.account }
          .ok (db.saveUser [.invitedBy] user, user)

/-- The events of a first login. -/
def firstEvents (r : LoginRequest) (user : User) : List BalanceEvent :=
  [firstLoginBalanceEvent r.now user.pk,
   consecutiveLoginBalanceEvent r.now user CONTINUOUS_BALANCE_ADD.head!]

/-- The branch of a user that is not found. -/
def firstLogin (r : LoginRequest) (account : String) (db : Db) : Except LoginError (Db × User) :=
  match getOrCreateByEmail r account db with
  | .error e => .error e
  | .ok (db, user) =>
    acceptInvitation r { db with balanceEvents := db.balanceEvents ++ firstEvents r user } user

/-- `_update_user_details`, the subject in the metadata: the instance and the fields to save. -/
def updateSubject (r : LoginRequest) (account : String) (user : User) : User × List UserField :=
  if user.privateMetadata.lookup r.oidcMetadataKey ≠ some account then
    ({ user with
        privateMetadata := (r.oidcMetadataKey, account)
          :: user.privateMetadata.filter (·.1 ≠ r.oidcMetadataKey) },
      [.privateMetadata])
  else (user, [])

/-- `_update_user_details` up to the daily reward; `none` when the e-mail is taken and the function
returns early. -/
def updateIdentity (r : LoginRequest) (account : String) (db : Db) (user : User) :
    Option (User × List UserField) :=
  match updateSubject r account user with
  | (user, fields) =>
    if user.email ≠ r.userEmail account then
      if db.users.rows.any (·.email = r.userEmail account) then none
      else some ({ user with email := r.userEmail account }, fields ++ [.email, .searchDocument])
    else some (user, fields)

/-- `_update_user_details` after the daily reward: names, code and type. -/
def updateNames (r : LoginRequest) (user : User) (fields : List UserField) :
    User × List UserField :=
  let (user, fields) :=
    if user.firstName ≠ r.name.getD "" then
      ({ user with firstName := r.name.getD "" }, fields ++ [.firstName, .searchDocument])
    else (user, fields)
  let (user, fields) :=
    if user.lastName ≠ r.familyName.getD "" then
      ({ user with lastName := r.familyName.getD "" }, fields ++ [.lastName, .searchDocument])
    else (user, fields)
  let (user, fields) :=
    if r.code ≠ "" ∧ user.code ≠ r.code then
      ({ user with code := r.code }, fields ++ [.code, .searchDocument])
    else (user, fields)
  if user.userType ≠ r.type.getD "student" then
    ({ user with userType := r.type.getD "student" }, fields ++ [.userType, .searchDocument])
  else (user, fields)

/-- `_update_user_details`. -/
def updateUserDetails (date : Time → ℤ) (r : LoginRequest) (account : String) (db : Db)
    (user : User) : Except LoginError Db :=
  match updateIdentity r account db user with
  | none => .ok db
  | some (user, fields) =>
    match updateContinuousDays CONTINUOUS_BALANCE_ADD date r.now user r.loginTime fields with
    | none => .error .indexError
    | some (user, events, fields) =>
      let db := { db with balanceEvents := db.balanceEvents ++ events }
      let (user, fields) := updateNames r user fields
      .ok (db.saveUser fields user)

/-- The `try` statement of `get_or_create_user_from_payload`. -/
def findUser (r : LoginRequest) (account : String) (db : Db) : Except LoginError (Db × User) :=
  match r.getUser db.users account with
  | .ok user => .ok (db, user)
  | .error .doesNotExist => firstLogin r account db
  | .error .multipleObjectsReturned => getOrCreateByEmail r account db

/-- `get_or_create_user_from_payload`. -/
def getOrCreateUserFromPayload (date : Time → ℤ) (r : LoginRequest) (db : Db) :
    Except LoginError Db :=
  match r.sub with
  | none => .error .assertionError
  | some account =>
    match findUser r account db with
    | .error e => .error e
    | .ok (db, user) =>
      if ¬ user.canLogin r.confirmationRequired then .error .authenticationError
      else updateUserDetails date r account db user

/-- The tables after a login: what an exception leaves is what was there. -/
def login (date : Time → ℤ) (r : LoginRequest) (db : Db) : Db :=
  match getOrCreateUserFromPayload date r db with
  | .ok db' => db'
  | .error _ => db

/-! ### What a login records -/

section Gap

variable {date : Time → ℤ} {r : LoginRequest} {account : String} {db db' : Db} {user : User}

/-- The daily reward is recorded as it is granted. -/
theorem updateContinuousDays_recorded {table : List Amount} {now loginTime : Time}
    {fields fields' : List UserField} {user' : User} {events : List BalanceEvent}
    (h : updateContinuousDays table date now user loginTime fields = some (user', events, fields')) :
    user'.pk = user.pk ∧ (.balance ∈ fields' ∨ user'.balance = user.balance) ∧
      ∀ k, deltaSum k events = if k = user.pk then user'.balance - user.balance else 0 := by
  rw [updateContinuousDays] at h
  by_cases hlater : date loginTime - date user.lastLogin ≥ 1
  · simp only [hlater, if_true] at h
    obtain ⟨δ, -, h⟩ := Option.bind_eq_some_iff.mp h
    simp only [Option.some.injEq, Prod.mk.injEq] at h
    obtain ⟨rfl, rfl, rfl⟩ := h
    refine ⟨?_, Or.inl (by simp), fun k => ?_⟩
    · dsimp only
      split <;> rfl
    · rw [deltaSum_cons, deltaSum_nil, add_zero]
      by_cases hreset : date loginTime - date user.lastLogin > 1 <;>
        simp [hreset, consecutiveLoginBalanceEvent, eq_comm]
  · simp only [hlater, if_false, Option.some.injEq, Prod.mk.injEq] at h
    obtain ⟨rfl, rfl, rfl⟩ := h
    refine ⟨?_, Or.inr ?_, fun k => ?_⟩
    · dsimp only
      split <;> rfl
    · dsimp only
      split <;> rfl
    · by_cases hreset : date loginTime - date user.lastLogin > 1 <;> simp [hreset]

theorem updateSubject_spec (r : LoginRequest) (account : String) (user : User) :
    (updateSubject r account user).1.pk = user.pk ∧
      (updateSubject r account user).1.balance = user.balance := by
  rw [updateSubject]
  split <;> exact ⟨rfl, rfl⟩

theorem updateIdentity_eq_some {u : User} {fields : List UserField}
    (h : updateIdentity r account db user = some (u, fields)) :
    u.pk = user.pk ∧ u.balance = user.balance := by
  obtain ⟨hpk, hbalance⟩ := updateSubject_spec r account user
  rw [updateIdentity] at h
  split at h
  rename_i v fields' hsubject
  rw [hsubject] at hpk hbalance
  split at h
  · split at h
    · cases h
    · cases h
      exact ⟨hpk, hbalance⟩
  · cases h
    exact ⟨hpk, hbalance⟩

theorem updateNames_spec (r : LoginRequest) (user : User) (fields : List UserField) :
    (updateNames r user fields).1.pk = user.pk ∧
      (updateNames r user fields).1.balance = user.balance ∧
        (.balance ∈ (updateNames r user fields).2 ↔ .balance ∈ fields) := by
  rw [updateNames]
  by_cases hfirst : user.firstName ≠ r.name.getD "" <;>
    by_cases hlast : user.lastName ≠ r.familyName.getD "" <;>
      by_cases hcode : r.code ≠ "" ∧ user.code ≠ r.code <;>
        by_cases htype : user.userType ≠ r.type.getD "student" <;>
          simp [hfirst, hlast, hcode, htype]

/-- **Updating a fresh instance** leaves every balance as far from its events as it was. -/
theorem gap_updateUserDetails (hfresh : Fresh db user)
    (h : updateUserDetails date r account db user = .ok db') : gap db' = gap db := by
  rw [updateUserDetails] at h
  rcases hidentity : updateIdentity r account db user with _ | ⟨u, fields⟩
  · simp only [hidentity] at h
    cases h
    rfl
  obtain ⟨hpk, hbalance⟩ := updateIdentity_eq_some hidentity
  rcases hdays : updateContinuousDays CONTINUOUS_BALANCE_ADD date r.now u r.loginTime fields
    with _ | ⟨u', events, fields'⟩
  · simp only [hidentity, hdays] at h
    cases h
  obtain ⟨hpk', hfields, hevents⟩ := updateContinuousDays_recorded hdays
  obtain ⟨hnamespk, hnamesbalance, hnamesfields⟩ := updateNames_spec r u' fields'
  simp only [hidentity, hdays] at h
  cases h
  refine gap_saveUser hfresh (hnamespk.trans (hpk'.trans hpk)) ?_ fun k => ?_
  · rcases hfields with hmem | hsame
    · exact Or.inl (hnamesfields.mpr hmem)
    · exact Or.inr (hnamesbalance.trans (hsame.trans hbalance))
  · rw [hevents, hnamesbalance, hpk, hbalance]

/-- An e-mail leads to a user that has it, or to a new one. -/
theorem getOrCreateByEmail_eq_ok (h : getOrCreateByEmail r account db = .ok (db', user)) :
    (db' = db ∧ user ∈ db.users ∧ user.email = r.userEmail account) ∨
      (∀ u ∈ db.users, u.email ≠ r.userEmail account) ∧ user = r.newUser account ∧
        (∀ i ∈ db.invitations, i.user ≠ some r.newPk) ∧
        ∃ users, db.users.insert (r.newUser account) = some users ∧ db' = { db with users } := by
  rw [getOrCreateByEmail] at h
  rcases hget : db.users.get (·.email = r.userEmail account) with e | u
  · rw [hget] at h
    cases e
    case multipleObjectsReturned => cases h
    case doesNotExist =>
      have hnone : ∀ u ∈ db.users, u.email ≠ r.userEmail account := by
        intro u hu hemail
        have hmem : u ∈ db.users.rows.filter (·.email = r.userEmail account) :=
          List.mem_filter.mpr ⟨hu, by simpa using hemail⟩
        rw [Table.get] at hget
        split at hget
        case h_1 hnil => rw [hnil] at hmem; cases hmem
        case h_2 => cases hget
        case h_3 => cases hget
      simp only at h
      split at h
      · cases h
      · rename_i hinvitations
        split at h
        · rename_i users husers
          cases h
          refine Or.inr ⟨hnone, rfl, fun i hi hpk => hinvitations ?_, users, husers, rfl⟩
          exact List.any_eq_true.mpr ⟨i, hi, by simpa using hpk⟩
        · cases h
  · rw [hget] at h
    cases h
    obtain ⟨hu, hemail, -⟩ := Table.get_eq_ok.mp hget
    exact Or.inl ⟨rfl, hu, by simpa using hemail⟩

/-- An accepted invitation is recorded as it is granted, and does not touch the balance of who
accepts it. -/
theorem acceptInvitation_recorded {u : User}
    (hnone : ∀ i ∈ db.invitations, i.user ≠ some user.pk) (hfresh : Fresh db user)
    (h : acceptInvitation r db user = .ok (db', u)) : gap db' = gap db ∧ Fresh db' u := by
  rw [acceptInvitation] at h
  rcases hcode : r.invitationCode with _ | code
  · rw [hcode] at h
    cases h
    exact ⟨rfl, hfresh⟩
  simp only [hcode] at h
  split at h
  · cases h
    exact ⟨rfl, hfresh⟩
  split at h
  · cases h
  · cases h
  rename_i invitation hget
  split at h
  · cases h
  rename_i inviter hinviter
  obtain ⟨k, hk, hfind⟩ := Option.bind_eq_some_iff.mp hinviter
  obtain ⟨hmem, rfl⟩ := Table.find?_eq_some.mp hfind
  have hne : inviter.pk ≠ user.pk := by
    intro heq
    exact hnone invitation (Table.get_eq_ok.mp hget).1 (hk.trans (congrArg some heq))
  cases h
  have hkeep (db : Db) (mem : User) (k : ℕ) :
      balanceOf (db.saveUser [.invitedBy] mem).users k = balanceOf db.users k := by
    simp [balanceOf_saveUser]
  constructor
  · refine (gap_congr (hkeep _ _) rfl).trans ?_
    refine gap_saveUser (fresh_of_mem hmem) rfl (Or.inl (List.mem_singleton_self _)) fun k => ?_
    rw [deltaSum_cons, deltaSum_nil, add_zero, add_sub_cancel_left]
    exact if_congr eq_comm rfl rfl
  · refine (hkeep _ _ user.pk).trans ((balanceOf_saveUser db [.balance] _ user.pk).trans ?_)
    rw [Fresh] at hfresh
    rw [hfresh]
    simp [hne.symm]

theorem deltaSum_firstEvents (r : LoginRequest) (user : User) (k : ℕ) :
    deltaSum k (firstEvents r user) = if k = user.pk then defaultBalance else 0 := by
  rw [firstEvents, deltaSum_cons, deltaSum_cons, deltaSum_nil, add_zero]
  by_cases hk : k = user.pk
  · subst hk
    simp [firstLoginBalanceEvent, consecutiveLoginBalanceEvent, defaultBalance]
  · simp [firstLoginBalanceEvent, consecutiveLoginBalanceEvent, hk, Ne.symm hk]

/-- A new user starts with what the first events record. -/
theorem gap_newUser {users : Table User} (hinsert : db.users.insert (r.newUser account) = some users) :
    gap { db with users, balanceEvents := db.balanceEvents ++ firstEvents r (r.newUser account) }
      = gap db := by
  obtain ⟨-, hfresh⟩ := Table.insert_eq_some hinsert
  funext k
  have hpk : HasPk.pk (r.newUser account) = r.newPk := rfl
  rw [gap, gap, balanceIn, balanceIn, balanceOf, balanceOf, Table.find?_insert hinsert,
    deltaSum_append, deltaSum_firstEvents, ← pk_user, hpk]
  by_cases hk : k = r.newPk
  · have hnone : db.users.find? k = none := Table.find?_eq_none.mpr fun u hu => hk ▸ hfresh u hu
    rw [if_pos hk, if_pos hk, hnone]
    simp [LoginRequest.newUser]
  · rw [if_neg hk, if_neg hk, add_zero]

/-- The user is found, or is new when nobody is found for the subject, or is there when several
are. -/
def LoginRequest.Recorded (r : LoginRequest) (db : Db) : Prop :=
  ∀ account, r.sub = some account →
    match r.getUser db.users account with
    | .ok _ => True
    | .error .doesNotExist => ∀ u ∈ db.users, u.email ≠ r.userEmail account
    | .error .multipleObjectsReturned => ∃ u ∈ db.users, u.email = r.userEmail account

theorem findUser_recorded (hsub : r.sub = some account) (hrecorded : r.Recorded db)
    (h : findUser r account db = .ok (db', user)) : gap db' = gap db ∧ Fresh db' user := by
  have hr := hrecorded account hsub
  rw [findUser] at h
  rcases hget : r.getUser db.users account with (_ | _) | u
  · -- nobody: a new user
    simp only [hget] at h hr
    rw [firstLogin] at h
    rcases hcreate : getOrCreateByEmail r account db with e | ⟨db₁, u⟩
    · rw [hcreate] at h
      cases h
    rcases getOrCreateByEmail_eq_ok hcreate with ⟨-, hu, hemail⟩ | ⟨-, rfl, hnone, users, hins, rfl⟩
    · exact absurd hemail (hr u hu)
    simp only [hcreate] at h
    have hfresh : Fresh
        { db with users, balanceEvents := db.balanceEvents ++ firstEvents r (r.newUser account) }
        (r.newUser account) := by
      refine fresh_of_mem (Table.mem_iff_find?.mpr ?_)
      exact (Table.find?_insert hins _).trans (if_pos rfl)
    obtain ⟨hgap, hfresh'⟩ := acceptInvitation_recorded hnone hfresh h
    exact ⟨hgap.trans (gap_newUser hins), hfresh'⟩
  · -- several: one that is there
    simp only [hget] at h hr
    obtain ⟨v, hv, hemail⟩ := hr
    rcases getOrCreateByEmail_eq_ok h with ⟨rfl, hu, -⟩ | ⟨hnone, -⟩
    · exact ⟨rfl, fresh_of_mem hu⟩
    · exact absurd hemail (hnone v hv)
  · simp only [hget] at h
    cases h
    have hu : user ∈ db.users := by
      rw [LoginRequest.getUser] at hget
      split at hget
      · exact (Table.get_eq_ok.mp hget).1
      · exact (Table.get_eq_ok.mp hget).1
    exact ⟨rfl, fresh_of_mem hu⟩

/-- **A recorded login** leaves every balance as far from its events as it was. -/
theorem gap_login (hrecorded : r.Recorded db) : gap (login date r db) = gap db := by
  rw [login]
  split
  · rename_i db' h
    rw [getOrCreateUserFromPayload] at h
    rcases hsub : r.sub with _ | account
    · simp only [hsub] at h
      cases h
    rcases hfind : findUser r account db with e | ⟨db₁, user⟩
    · simp only [hsub, hfind] at h
      cases h
    simp only [hsub, hfind] at h
    obtain ⟨hgap, hfresh⟩ := findUser_recorded hsub hrecorded hfind
    split at h
    · cases h
    · exact (gap_updateUserDetails hfresh h).trans hgap
  · rfl

end Gap

end Account

end Aixinwu
