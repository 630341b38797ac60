import Aixinwu.Account.OidcLogin
import Aixinwu.Lib.Aggregates
import Aixinwu.Lib.Runs
import Mathlib

/-!
# Tokens, links and what they are good for

Users log in with a password and get two JSON web tokens: one to make requests with and one to get
new ones of the first kind. A token names its user by email and by a random key that is drawn when
the user is created; drawing another one is what makes all tokens useless. Links that are sent by
email carry a hash of some columns of the user instead, so that they are useless as soon as one of
these changes.

Each request is a function that says what is raised or what it leaves; what a request leaves is
seen by the next one, whoever makes it.

## What is not ours

Signing (`JWTManager`), hashing of passwords and of links, and the mapping of cases are parameters,
and so are the types of tokens and of hashes, which are texts.
That nobody else can sign, and that random strings do not repeat, are conditions on the requests.

## What is deliberately absent

The permissions a token may name, apart from what they say about `is_staff`; `iat` and `iss`, which
nobody reads; the requests that make staff and customers; that a hash of an old kind is replaced
when the password is checked; addresses, metadata, search documents, gift cards, webhooks and the
events of accounts. Whether a URL or a channel is valid is an answer.

## Main definitions

* `Payload`, `JWTManager`, `LinkValue`, `Env`
* `State` — the users, and what has been given out
* `loadUserFromRequest` — who makes a request
* `tokenCreate`, `tokenRefresh`, … — the mutations
* `Served`, `exec`, `step` — requests as they come
-/

namespace Aixinwu

namespace Sessions

open Account (updateContinuousDays CONTINUOUS_BALANCE_ADD defaultBalance)

/-! ### Users -/

/-- What authentication reads of `account.models.User`. -/
structure User extends Account.User where
  isStaff : Bool := false
  isSuperuser : Bool := false
  password : String
  jwtTokenKey : String
  lastPasswordResetRequest : Option Time := none
  lastConfirmEmailRequest : Option Time := none
deriving DecidableEq, Repr

instance : HasPk User ℕ := ⟨fun u => u.pk⟩

@[simp] theorem pk_user (u : User) : HasPk.pk u = u.pk := rfl

/-- What a user is let in by, and as what. -/
structure Credentials where
  email : String
  password : String
  jwtTokenKey : String
  isActive : Bool
  isConfirmed : Bool
  isStaff : Bool
  isSuperuser : Bool
deriving DecidableEq, Repr

/-- The credentials in a row. -/
def User.credentials (u : User) : Credentials where
  email := u.email
  password := u.password
  jwtTokenKey := u.jwtTokenKey
  isActive := u.isActive
  isConfirmed := u.isConfirmed
  isStaff := u.isStaff
  isSuperuser := u.isSuperuser

/-! ### What can go wrong -/

/-- `AccountErrorCode` and `SendConfirmationEmailErrorCode`, as far as they are used. -/
inductive AccountErrorCode where
  | invalidCredentials
  | accountNotConfirmed
  | accountConfirmed
  | confirmationAlreadyRequested
  | deleteOwnAccount
  | deleteStaffAccount
  | deleteSuperuserAccount
  | inactive
  | invalid
  | jwtDecodeError
  | jwtInvalidCsrfToken
  | jwtInvalidToken
  | jwtMissingToken
  | jwtSignatureExpired
  | notFound
  | passwordEntirelyNumeric
  | passwordResetAlreadyRequested
  | passwordTooCommon
  | passwordTooShort
  | passwordTooSimilar
  | required
  | unique
deriving DecidableEq, Repr

/-- How a request fails: a `ValidationError` of a field, if it is of one, a missing permission, or
any other exception. -/
inductive Failure where
  | invalid (field : Option String) (message : String) (code : AccountErrorCode)
  | denied
  | raised (exception : String)
deriving DecidableEq, Repr

/-- What is said of a URL or a channel by what checks it. -/
abbrev Answer := Except Failure Unit

/-- Go on if it is so. -/
def ensure (b : Bool) (e : Failure) : Except Failure Unit := if b then .ok () else .error e

/-- Go on with what there is. -/
def demand {α : Type*} (a : Option α) (e : Failure) : Except Failure α :=
  match a with
  | some a => .ok a
  | none => .error e

/-- `payload[name]`, where there is none. -/
def keyError : Failure := .raised "KeyError"

/-- `jwt.InvalidTokenError`. -/
def invalidTokenError : Failure := .raised "InvalidTokenError"

/-! ### Tokens and links -/

/-- `JWT_SALEOR_OWNER_NAME`. -/
def JWT_SALEOR_OWNER_NAME : String := "saleor"

/-- The values of `type`. -/
inductive TokenType where
  | access
  | refresh
  | thirdparty
deriving DecidableEq, Repr

/-- The payload of a token; `exp` is in seconds, as it is written. -/
structure Payload where
  owner : String := JWT_SALEOR_OWNER_NAME
  exp : Option ℤ := none
  token : Option String := none
  email : Option String := none
  type : Option TokenType := none
  userId : Option ℕ := none
  isStaff : Bool := false
  csrfToken : Option String := none
  aud : Option String := none
  permissions : Option (List String) := none
  oldEmail : Option String := none
  newEmail : Option String := none
  userPk : Option ℕ := none
deriving DecidableEq, Repr

/-- What signs tokens: the token for a payload, what a token says, and whether the signature is
ours. -/
structure JWTManager (τ : Type) where
  encode : Payload → τ
  payload : τ → Option Payload
  signed : τ → Bool
  payload_encode : ∀ p, payload (encode p) = some p
  signed_encode : ∀ p, signed (encode p) = true

/-- What the hash in a link is made of. A link for the deletion of an account leaves the time of the
last login out. -/
structure LinkValue where
  pk : ℕ
  password : String
  lastLogin : Option ℤ
  timestamp : ℤ
  email : String
deriving DecidableEq, Repr

/-- The token in a link: when it was made, and the hash. -/
structure LinkToken (η : Type) where
  timestamp : ℤ
  hash : η

/-- What is not ours, and the settings; times in microseconds. -/
structure Env (τ η : Type) where
  jwt : JWTManager τ
  linkHash : LinkValue → η
  linkHash_injective : Function.Injective linkHash
  checkPassword : String → String → Bool
  makePassword : String → String → String
  validatePassword : String → Option (String × AccountErrorCode)
  doesTokenMatch : String → String → Bool
  lower : String → String
  upper : String → String
  date : Time → ℤ
  ttlAccess : Time
  ttlAppAccess : Time
  ttlRefresh : Time
  ttlRefresh_nonneg : 0 ≤ ttlRefresh
  ttlRequestEmailChange : Time
  passwordResetTimeout : ℤ
  resetPasswordLockTime : Time
  confirmationEmailLockTime : Time
  enableAccountConfirmationByEmail : Bool
  allowLoginWithoutConfirmation : Bool

/-- The second of an instant. -/
def seconds (t : Time) : ℤ := t / 1000000

/-! ### The state -/

/-- The users, the clock, and what has been given out so far: every token that was signed, every
link and every random key and password there ever was. `current` are the tokens for a user since
the key of the user was drawn, `logins` the logins since then. -/
structure State (τ : Type) where
  users : Table User
  nextPk : ℕ
  now : Time
  made : List τ := []
  links : List LinkValue := []
  keys : List String := []
  passwords : List String := []
  current : ℕ → List τ := fun _ => []
  logins : ℕ → List Time := fun _ => []

namespace State

variable {τ : Type} (s : State τ)

/-- `user.save(update_fields=…)`, of a user that is in the table. -/
def modify (k : ℕ) (f : User → User) (hf : ∀ u, (f u).pk = u.pk) : State τ :=
  { s with users := s.users.modify k f hf }

/-- A token for a user is given out. -/
def issue (k : ℕ) (token : τ) : State τ :=
  { s with
    made := s.made ++ [token]
    current := Function.update s.current k (s.current k ++ [token]) }

/-- A token that is for nobody's requests. -/
def issueOther (token : τ) : State τ := { s with made := s.made ++ [token] }

/-- A user logs in. -/
def login (k : ℕ) : State τ :=
  { s with logins := Function.update s.logins k (s.logins k ++ [s.now]) }

/-- A user gets another key. -/
def rekey (k : ℕ) (key : String) : State τ :=
  { s.modify k (fun row => { row with jwtTokenKey := key }) fun _ => rfl with
    keys := s.keys ++ [key]
    current := Function.update s.current k []
    logins := Function.update s.logins k [] }

/-- A user gets another password, hashed. -/
def setPassword (k : ℕ) (password : String) : State τ :=
  { s.modify k (fun row => { row with password }) fun _ => rfl with
    passwords := s.passwords ++ [password] }

/-- There is another user. -/
def insertUser (u : User) (users : Table User) : State τ :=
  { s with
    users
    nextPk := s.nextPk + 1
    keys := s.keys ++ [u.jwtTokenKey]
    passwords := s.passwords ++ [u.password] }

/-- A user is gone. -/
def deleteUser (k : ℕ) : State τ :=
  { s with users := s.users.delete fun u => decide (u.pk = k) }

/-- A link is sent. -/
def send (v : LinkValue) : State τ := { s with links := s.links ++ [v] }

/-- `User.objects.filter(email=email).exists()`. -/
def emailExists (email : String) : Bool := s.users.rows.any fun u => decide (u.email = email)

/-- `User.objects.get(email=email)`. -/
def getByEmail (email : String) : Option User :=
  s.users.rows.find? fun u => decide (u.email = email)

end State

section Env

variable {τ η : Type} [DecidableEq η] (env : Env τ η)

/-! ### `core/jwt.py` -/

/-- `jwt_base_payload`, the time it expires. -/
def expiry (now ttl : Time) : ℤ := seconds (now + ttl)

/-- `jwt_user_payload`. -/
def jwtUserPayload (u : User) (type : TokenType) (now ttl : Time) : Payload where
  exp := some (expiry now ttl)
  token := some u.jwtTokenKey
  email := some u.email
  type := some type
  userId := some u.pk
  isStaff := u.isStaff

/-- The exceptions of PyJWT that are told apart. -/
inductive JwtError where
  | expiredSignature
  | decode
deriving DecidableEq, Repr

/-- `jwt_decode`. -/
def jwtDecode (now : Time) (token : τ) : Except JwtError Payload :=
  match env.jwt.payload token with
  | none => .error .decode
  | some p =>
    if !env.jwt.signed token then .error .decode
    else if p.exp.any fun exp => decide (exp ≤ seconds now) then .error .expiredSignature
    else .ok p

/-- `is_saleor_token`. -/
def isSaleorToken (token : τ) : Bool :=
  (env.jwt.payload token).any fun p => decide (p.owner = JWT_SALEOR_OWNER_NAME)

/-- `get_user_from_payload`, whose exceptions are all caught. -/
def getUserFromPayload (s : State τ) (p : Payload) : Option User :=
  match p.email, p.token with
  | some email, some key =>
    if key = "" then none
    else (s.users.rows.find? fun u => decide (u.email = email) && u.isActive).filter fun u =>
      decide (u.jwtTokenKey = key)
  | _, _ => none

/-- The user in memory, with what the token says about `is_staff`. -/
def User.delegated (u : User) (p : Payload) : User :=
  { u with isStaff := p.isStaff || match p.permissions with
      | none => u.isStaff
      | some names => !names.isEmpty }

/-- `load_user_from_request`; `none` is an anonymous request, and an empty token is none. -/
def loadUserFromRequest (s : State τ) (token : Option τ) : Except Failure (Option User) :=
  match token with
  | none => .ok none
  | some token =>
    if !isSaleorToken env token then .ok none
    else match jwtDecode env s.now token with
      | .error .expiredSignature => .error (.raised "ExpiredSignatureError")
      | .error .decode => .error (.raised "DecodeError")
      | .ok p => do
        ensure (p.type = some .access || p.type = some .thirdparty) invalidTokenError
        let email ← demand p.email keyError
        let key ← demand (p.token.filter (· ≠ "")) invalidTokenError
        let u ← demand (s.users.rows.find? fun u => decide (u.email = email) && u.isActive)
          invalidTokenError
        ensure (u.jwtTokenKey = key) invalidTokenError
        .ok (some (u.delegated p))

/-- The user of a request that only `AUTHENTICATED_USER` may make. -/
def requestor (s : State τ) (token : Option τ) : Except Failure User := do
  let user ← loadUserFromRequest env s token
  let u ← demand user .denied
  ensure u.isActive .denied
  .ok u

/-! ### `PasswordResetTokenGenerator` -/

/-- `default_token_generator._make_hash_value`. -/
def linkValue (u : User) (timestamp : ℤ) : LinkValue where
  pk := u.pk
  password := u.password
  lastLogin := some (seconds u.lastLogin)
  timestamp
  email := u.email

/-- `AccountDeleteTokenGenerator._make_hash_value`. -/
def deleteLinkValue (u : User) (timestamp : ℤ) : LinkValue :=
  { linkValue u timestamp with lastLogin := none }

/-- `check_token`. -/
def checkToken (value : User → ℤ → LinkValue) (now : Time) (u : User) (token : LinkToken η) :
    Bool :=
  decide (env.linkHash (value u token.timestamp) = token.hash)
    && decide (seconds now - token.timestamp ≤ env.passwordResetTimeout)

/-! ### Logging in -/

/-- `retrieve_user_by_email`. -/
def retrieveUserByEmail (s : State τ) (email : String) : Option User :=
  let users := s.users.rows.filter fun u => decide (env.upper u.email = env.upper email)
  if 1 < users.length then
    (users.find? fun u => decide (u.email = email)).or
      (users.find? fun u => decide (u.email = env.lower email))
  else users.head?

/-- `CreateToken.get_user`. -/
def getUser (s : State τ) (email password : String) : Except Failure User := do
  let credentials := Failure.invalid (some "email") "Please, enter valid credentials"
    .invalidCredentials
  let u ← demand (retrieveUserByEmail env s email) credentials
  ensure (env.checkPassword password u.password) credentials
  ensure (u.isConfirmed || env.allowLoginWithoutConfirmation
      || !env.enableAccountConfirmationByEmail)
    (.invalid (some "email") "Account needs to be confirmed via email." .accountNotConfirmed)
  ensure u.isActive (.invalid (some "email") "Account inactive." .inactive)
  .ok u

/-- The audience, if it is not empty. -/
def customAudience (audience : Option String) : Option String :=
  (audience.filter (· ≠ "")).map ("custom:" ++ ·)

/-- The two tokens of a login, and its time. -/
def loggedIn (s : State τ) (u : User) (audience : Option String) (csrf : String) : State τ :=
  let access := { jwtUserPayload u .access s.now env.ttlAccess with aud := customAudience audience }
  let refresh := { jwtUserPayload u .refresh s.now env.ttlRefresh with
    csrfToken := some csrf
    aud := customAudience audience }
  let s' := ((s.login u.pk).issue u.pk (env.jwt.encode access)).issue u.pk (env.jwt.encode refresh)
  s'.modify u.pk (fun row => { row with lastLogin := s.now }) fun _ => rfl

/-- `CreateToken`. -/
def tokenCreate (s : State τ) (email password : String) (audience : Option String) (csrf : String) :
    Except Failure (State τ) := do
  let u ← getUser env s email password
  .ok (loggedIn env s u audience csrf)

/-- `get_payload`. -/
def getPayload (s : State τ) (token : τ) : Except Failure Payload :=
  match jwtDecode env s.now token with
  | .error .expiredSignature =>
    .error (.invalid (some "refreshToken") "Signature has expired" .jwtSignatureExpired)
  | .error .decode =>
    .error (.invalid (some "refreshToken") "Error decoding signature" .jwtDecodeError)
  | .ok p => .ok p

/-- `user.save(update_fields=fields)` of what `update_continuous_days` has changed. -/
def User.saveDays (mem : Account.User) (fields : List Account.UserField) (row : User) : User :=
  { row with toUser := Account.User.saveFields fields mem row.toUser }

/-- `clean_csrf_token`. -/
def cleanCsrfToken (csrfToken : Option String) (p : Payload) : Except Failure Unit := do
  let csrf ← demand (csrfToken.filter (· ≠ "")) (.invalid (some "csrf_token")
    "CSRF token is required when refreshToken is provided by the cookie" .required)
  let given ← demand p.csrfToken keyError
  ensure (env.doesTokenMatch csrf given)
    (.invalid (some "csrf_token") "Invalid csrf token" .jwtInvalidCsrfToken)

/-- `RefreshToken`; a token that is given may be empty. -/
def tokenRefresh (s : State τ) (refreshToken : Option (Option τ)) (cookie : Option τ)
    (csrfToken : Option String) :
    Except Failure (State τ) := do
  let token ← demand (refreshToken.join.or cookie)
    (.invalid (some "refresh_token") "Missing refreshToken" .jwtMissingToken)
  let p ← getPayload env s token
  let type ← demand p.type keyError
  ensure (type = .refresh)
    (.invalid (some "refresh_token") "Incorrect refreshToken" .jwtInvalidToken)
  -- an empty token is replaced by the cookie as well, without this check
  (if refreshToken.isNone then cleanCsrfToken env csrfToken p else .ok ())
  let u ← demand (getUserFromPayload s p) (.invalid none "Invalid token" .jwtInvalidToken)
  let access := { jwtUserPayload u .access s.now env.ttlAccess with
    aud := p.aud.filter (· ≠ "") }
  let (mem, _, fields) ← demand
    (updateContinuousDays CONTINUOUS_BALANCE_ADD env.date s.now u.toUser s.now [])
    (.raised "IndexError")
  .ok ((s.issue u.pk (env.jwt.encode access)).modify u.pk (User.saveDays mem fields) fun _ => rfl)

/-- `DeactivateAllUserTokens`, with the key that is drawn. -/
def tokensDeactivateAll (s : State τ) (auth : Option τ) (key : String) :
    Except Failure (State τ) := do
  let u ← requestor env s auth
  .ok (s.rekey u.pk key)

/-- `resolve_access_token_for_app`, for an app of third parties; the permissions are those that it
and the user both have. An anonymous request gets nothing. -/
def appAccessToken (s : State τ) (auth : Option τ) (permissions : List String)
    (audience : Option String) : Except Failure (State τ) := do
  let user ← loadUserFromRequest env s auth
  match user with
  | none => .ok s
  | some u =>
    if !u.isStaff then .ok s
    else
      let payload := { jwtUserPayload u .thirdparty s.now env.ttlAppAccess with
        permissions := some permissions
        aud := audience }
      .ok (s.issue u.pk (env.jwt.encode payload))

/-! ### Passwords -/

/-- `User.can_login`. -/
def User.canLogin (u : User) : Bool :=
  u.isActive && (env.allowLoginWithoutConfirmation || !env.enableAccountConfirmationByEmail
    || u.isConfirmed)

/-- Whether something is asked for again too early. -/
def tooEarly (last : Option Time) (now lock : Time) : Bool :=
  last.any fun t => decide (now - t < lock)

/-- `RequestPasswordReset`. -/
def requestPasswordReset (s : State τ) (email : String) (url channel : Answer) :
    Except Failure (State τ) := do
  url
  let u ← demand (retrieveUserByEmail env s email)
    (.invalid (some "email") "User with this email doesn't exist" .notFound)
  ensure (u.canLogin env) (.invalid (some "email") "User with this email is inactive" .inactive)
  ensure (!tooEarly u.lastPasswordResetRequest s.now env.resetPasswordLockTime)
    (.invalid (some "email") "Password reset already requested" .passwordResetAlreadyRequested)
  channel
  .ok ((s.send (linkValue u (seconds s.now))).modify u.pk
    (fun row => { row with lastPasswordResetRequest := some s.now }) fun _ => rfl)

/-- `validate_password`, with the field its error is put under. -/
def validPassword (field raw : String) : Except Failure Unit :=
  match env.validatePassword raw with
  | none => .ok ()
  | some (message, code) => .error (.invalid (some field) message code)

/-- `SetPassword._set_password_for_user`. -/
def setPasswordForUser (s : State τ) (email password : String) (token : LinkToken η)
    (salt : String) : Except Failure (State τ) := do
  let u ← demand (s.getByEmail email) (.invalid (some "email") "User doesn't exist" .notFound)
  ensure (checkToken env linkValue s.now u token)
    (.invalid (some "token") "Invalid or expired token." .invalid)
  validPassword env "password" password
  .ok (s.setPassword u.pk (env.makePassword password salt))

/-- Whether the old password is right; one that cannot be used starts with an exclamation mark. -/
def oldPasswordValid (oldPassword : Option String) (u : User) : Bool :=
  match oldPassword with
  | none => u.password.startsWith "!"
  | some raw => env.checkPassword raw u.password

/-- `PasswordChange`. -/
def passwordChange (s : State τ) (auth : Option τ) (oldPassword : Option String)
    (newPassword salt : String) : Except Failure (State τ) := do
  let u ← requestor env s auth
  ensure (oldPasswordValid env oldPassword u)
    (.invalid (some "old_password") "Old password isn't valid." .invalidCredentials)
  validPassword env "new_password" newPassword
  .ok (s.setPassword u.pk (env.makePassword newPassword salt))

/-! ### Email addresses -/

/-- `RequestEmailChange`. -/
def requestEmailChange (s : State τ) (auth : Option τ) (password newEmail : String)
    (url channel : Answer) : Except Failure (State τ) := do
  let u ← requestor env s auth
  let newEmail := env.lower newEmail
  ensure (env.checkPassword password u.password)
    (.invalid (some "password") "Password isn't valid." .invalidCredentials)
  ensure (!s.emailExists newEmail)
    (.invalid (some "new_email") "Email is used by other user." .unique)
  url
  channel
  .ok (s.issueOther (env.jwt.encode {
    exp := some (expiry s.now env.ttlRequestEmailChange)
    oldEmail := some u.email
    newEmail := some newEmail
    userPk := some u.pk }))

/-- `ConfirmEmailChange`, up to the look-up of the channel; that comes after the address is saved.
Whom the token was made for is not looked at. -/
def confirmEmailChange (s : State τ) (auth : Option τ) (token : τ) :
    Except Failure (State τ) := do
  let u ← requestor env s auth
  let invalid := Failure.invalid (some "token") "Invalid or expired token." .jwtInvalidToken
  let p ← demand (jwtDecode env s.now token).toOption invalid
  let newEmail ← demand p.newEmail keyError
  let _ ← demand p.oldEmail keyError
  ensure (!s.emailExists (env.lower newEmail))
    (.invalid (some "new_email") "Email is used by other user." .unique)
  .ok (s.modify u.pk (fun row => { row with email := env.lower newEmail }) fun _ => rfl)

/-! ### Accounts -/

/-- The arguments of `AccountRegister`, with what is said of the URL, if there is one, and of the
channel, which has a default. -/
structure AccountRegisterInput where
  email : String
  password : String
  redirectUrl : Option Answer := none
  channelGiven : Bool := false
  channel : Answer := .ok ()

/-- `AccountRegister.clean_input`, where accounts are to be confirmed. -/
def cleanRegistration (input : AccountRegisterInput) : Except Failure Unit := do
  let url ← demand input.redirectUrl
    (.invalid (some "redirect_url") "This field is required." .required)
  url
  input.channel
  validPassword env "password" input.password

/-- `AccountRegister`. Where accounts need not be confirmed the input is not looked at, and the
channel is read where there may be none. -/
def accountRegister (s : State τ) (input : AccountRegisterInput) (salt key : String) :
    Except Failure (State τ) := do
  (if env.enableAccountConfirmationByEmail then cleanRegistration env input else .ok ())
  let email := if env.enableAccountConfirmationByEmail then env.lower input.email else input.email
  ensure (!s.emailExists email)
    (.invalid (some "email") "User with this Email already exists." .unique)
  ensure (env.enableAccountConfirmationByEmail || input.channelGiven) keyError
  let u : User := {
    pk := s.nextPk, email, balance := defaultBalance, lastLogin := s.now, isConfirmed := false
    password := env.makePassword input.password salt, jwtTokenKey := key }
  let users ← demand (s.users.insert u) (.raised "IntegrityError")
  let s' := s.insertUser u users
  .ok (if input.redirectUrl.isSome then s'.send (linkValue u (seconds s.now)) else s')

/-- `ConfirmAccount`. -/
def confirmAccount (s : State τ) (email : String) (token : LinkToken η) :
    Except Failure (State τ) := do
  let u ← demand (s.getByEmail email)
    (.invalid (some "email") "User with this email doesn't exist" .notFound)
  ensure (checkToken env linkValue s.now u token)
    (.invalid (some "token") "Invalid or expired token." .invalid)
  .ok (s.modify u.pk (fun row => { row with isActive := true, isConfirmed := true }) fun _ => rfl)

/-- `SendConfirmationEmail`. -/
def sendConfirmationEmail (s : State τ) (auth : Option τ) (url channel : Answer) :
    Except Failure (State τ) := do
  let u ← requestor env s auth
  ensure (!u.isConfirmed && env.enableAccountConfirmationByEmail)
    (.invalid none "User is already confirmed" .accountConfirmed)
  ensure (!tooEarly u.lastConfirmEmailRequest s.now env.confirmationEmailLockTime)
    (.invalid none "Confirmation email already requested" .confirmationAlreadyRequested)
  url
  channel
  .ok ((s.send (linkValue u (seconds s.now))).modify u.pk
    (fun row => { row with lastConfirmEmailRequest := some s.now }) fun _ => rfl)

/-- `AccountRequestDeletion`. -/
def accountRequestDeletion (s : State τ) (auth : Option τ) (url channel : Answer) :
    Except Failure (State τ) := do
  let u ← requestor env s auth
  url
  channel
  .ok (s.send (deleteLinkValue u (seconds s.now)))

/-- `AccountDelete`. -/
def accountDelete (s : State τ) (auth : Option τ) (token : LinkToken η) :
    Except Failure (State τ) := do
  let u ← requestor env s auth
  ensure (!u.isStaff) (.invalid none "Cannot delete a staff account." .deleteStaffAccount)
  ensure (checkToken env deleteLinkValue s.now u token)
    (.invalid (some "token") "Invalid or expired token." .invalid)
  .ok (s.deleteUser u.pk)

/-! ### What the staff does -/

/-- `CustomerUpdate`, as far as it is about credentials; `granted` says whether the permission
`MANAGE_USERS` is there. -/
def customerUpdate (s : State τ) (granted : Bool) (k : ℕ) (email : Option String)
    (isActive isConfirmed : Option Bool) : Except Failure (State τ) := do
  ensure granted .denied
  let u ← demand (s.users.find? k)
    (.invalid (some "id") ("Couldn't resolve to a node: " ++ toGlobalId "User" k) .notFound)
  let email := (email.map fun e => if e = "" then e else env.lower e).getD u.email
  ensure (email ≠ "") (.invalid (some "email") "This field cannot be blank." .required)
  ensure (email = u.email || !s.emailExists email)
    (.invalid (some "email") "User with this Email already exists." .unique)
  .ok (s.modify k (fun row => { row with
    email := email
    isActive := isActive.getD row.isActive
    isConfirmed := isConfirmed.getD row.isConfirmed }) fun _ => rfl)

/-- `CustomerDelete`; `own` is the user who asks, if it is one. -/
def customerDelete (s : State τ) (granted : Bool) (own : Option ℕ) (k : ℕ) :
    Except Failure (State τ) := do
  ensure granted .denied
  let u ← demand (s.users.find? k)
    (.invalid (some "id") ("Couldn't resolve to a node: " ++ toGlobalId "User" k) .notFound)
  ensure (own ≠ some k)
    (.invalid (some "id") "You cannot delete your own account." .deleteOwnAccount)
  ensure (!u.isSuperuser)
    (.invalid (some "id") "Cannot delete this account." .deleteSuperuserAccount)
  ensure (!u.isStaff) (.invalid (some "id") "Cannot delete a staff account." .deleteStaffAccount)
  .ok (s.deleteUser k)

/-! ### Requests -/

/-- A request; `auth` is the token in its header. -/
inductive Request (τ η : Type) where
  | tokenCreate (email password : String) (audience : Option String)
  | tokenRefresh (refreshToken : Option (Option τ)) (cookie : Option τ) (csrfToken : Option String)
  | tokensDeactivateAll (auth : Option τ)
  | appAccessToken (auth : Option τ) (permissions : List String) (audience : Option String)
  | requestPasswordReset (email : String) (url channel : Answer)
  | setPassword (email password : String) (token : LinkToken η)
  | passwordChange (auth : Option τ) (oldPassword : Option String) (newPassword : String)
  | requestEmailChange (auth : Option τ) (password newEmail : String) (url channel : Answer)
  | confirmEmailChange (auth : Option τ) (token : τ)
  | accountRegister (input : AccountRegisterInput)
  | confirmAccount (email : String) (token : LinkToken η)
  | sendConfirmationEmail (auth : Option τ) (url channel : Answer)
  | accountRequestDeletion (auth : Option τ) (url channel : Answer)
  | accountDelete (auth : Option τ) (token : LinkToken η)
  | customerUpdate (granted : Bool) (k : ℕ) (email : Option String)
    (isActive isConfirmed : Option Bool)
  | customerDelete (granted : Bool) (own : Option ℕ) (k : ℕ)

/-- A request as it is served: when, and what is drawn meanwhile. -/
structure Served (τ η : Type) where
  request : Request τ η
  now : Time
  key : String
  salt : String
  csrf : String

/-- What a request leaves, if nothing is raised before. `SetPassword` goes on as `CreateToken`, and
the password stays set if that fails. -/
def exec (s : State τ) (e : Served τ η) : Except Failure (State τ) :=
  match e.request with
  | .tokenCreate email password audience => tokenCreate env s email password audience e.csrf
  | .tokenRefresh refreshToken cookie csrfToken => tokenRefresh env s refreshToken cookie csrfToken
  | .tokensDeactivateAll auth => tokensDeactivateAll env s auth e.key
  | .appAccessToken auth permissions audience => appAccessToken env s auth permissions audience
  | .requestPasswordReset email url channel => requestPasswordReset env s email url channel
  | .setPassword email password token =>
    (setPasswordForUser env s email password token e.salt).map fun s' =>
      match tokenCreate env s' email password none e.csrf with
      | .ok s'' => s''
      | .error _ => s'
  | .passwordChange auth oldPassword newPassword =>
    passwordChange env s auth oldPassword newPassword e.salt
  | .requestEmailChange auth password newEmail url channel =>
    requestEmailChange env s auth password newEmail url channel
  | .confirmEmailChange auth token => confirmEmailChange env s auth token
  | .accountRegister input => accountRegister env s input e.salt e.key
  | .confirmAccount email token => confirmAccount env s email token
  | .sendConfirmationEmail auth url channel => sendConfirmationEmail env s auth url channel
  | .accountRequestDeletion auth url channel => accountRequestDeletion env s auth url channel
  | .accountDelete auth token => accountDelete env s auth token
  | .customerUpdate granted k email isActive isConfirmed =>
    customerUpdate env s granted k email isActive isConfirmed
  | .customerDelete granted own k => customerDelete s granted own k

/-- One step: a request that fails leaves everything as it is, but for the clock. -/
def step (s : State τ) (e : Served τ η) : State τ :=
  match exec env { s with now := e.now } e with
  | .ok s' => s'
  | .error _ => { s with now := e.now }

end Env

end Sessions

end Aixinwu
