import Aixinwu.Lib.Decimals
import Aixinwu.Lib.Table

/-!
# Users and balance events

The rows `saleor/account` keeps about a user's credits: the `User` row with its running balance,
and the `BalanceEvent` rows that are the audit trail of every change of it.

## Amounts

`User.balance` and the two amounts of a balance event are `DecimalField(max_digits=12,
decimal_places=3)`. An amount column is counted in thousandths, so it is an integer; a decimal
that is still in memory is a rational in the same unit, and `toColumn` is what the database makes
of it. The twelve-digit bound is not modelled: a value outside it is refused by the database.

## What is deliberately absent

Of the columns of a user only those that some modelled function reads or writes are kept. The
running number of a balance event (`get_balance_event_number`) is left out, nothing here reads it.

## Main definitions

* `User`, `BalanceEvent`, `BalanceEventType`
* `User.saveFields` — `user.save(update_fields=…)`
* `consecutiveLoginBalanceEvent` and its siblings — `saleor/account/events.py`
-/

namespace Aixinwu

/-- A value of a `DecimalField(max_digits=12, decimal_places=3)`, in thousandths. -/
abbrev Amount := ℤ

/-- An instant. -/
abbrev Time := ℤ

/-- What an amount column stores when a decimal (in thousandths) is written to it: `numeric(12, 3)`
rounds half away from zero. -/
def toColumn (q : ℚ) : Amount := Decimals.roundHalfAway q

@[simp] theorem toColumn_intCast (n : ℤ) : toColumn n = n := Decimals.roundHalfAway_intCast n

namespace Account

/-- `settings.CONTINUOUS_BALANCE_ADD`. -/
def CONTINUOUS_BALANCE_ADD : List Amount := [500, 1000, 2000]

/-- `account.BalanceEvents`, the types that some operation writes. -/
inductive BalanceEventType where
  | donationGranted
  | donationRejected
  | manuallyUpdated
  | firstLogin
  | consecutiveLogin
  | consumed
  | refunded
  | invitationAccepted
deriving DecidableEq, Repr

/-- `account.models.User`. -/
structure User where
  pk : ℕ
  email : String
  account : String := ""
  invitedBy : String := ""
  balance : Amount
  code : String := ""
  userType : String := ""
  firstName : String := ""
  lastName : String := ""
  isActive : Bool := true
  isConfirmed : Bool := true
  continuous : ℤ := 1
  lastLogin : Time
  privateMetadata : List (String × String) := []
deriving DecidableEq, Repr

instance : HasPk User ℕ := ⟨User.pk⟩

@[simp] theorem pk_user (u : User) : HasPk.pk u = u.pk := rfl

/-- The columns named in an `update_fields`. -/
inductive UserField where
  | privateMetadata
  | email
  | searchDocument
  | balance
  | continuous
  | lastLogin
  | firstName
  | lastName
  | code
  | userType
  | invitedBy
deriving DecidableEq, Repr

/-- `user.save(update_fields=fields)`: the named columns of the instance in memory go over those
of the row. -/
def User.saveFields (fields : List UserField) (mem row : User) : User :=
  { row with
    privateMetadata := if .privateMetadata ∈ fields then mem.privateMetadata else row.privateMetadata
    email := if .email ∈ fields then mem.email else row.email
    balance := if .balance ∈ fields then mem.balance else row.balance
    continuous := if .continuous ∈ fields then mem.continuous else row.continuous
    lastLogin := if .lastLogin ∈ fields then mem.lastLogin else row.lastLogin
    firstName := if .firstName ∈ fields then mem.firstName else row.firstName
    lastName := if .lastName ∈ fields then mem.lastName else row.lastName
    code := if .code ∈ fields then mem.code else row.code
    userType := if .userType ∈ fields then mem.userType else row.userType
    invitedBy := if .invitedBy ∈ fields then mem.invitedBy else row.invitedBy }

@[simp] theorem User.saveFields_pk (fields : List UserField) (mem row : User) :
    (User.saveFields fields mem row).pk = row.pk := rfl

theorem User.hasPk_saveFields (fields : List UserField) (mem row : User) :
    HasPk.pk (User.saveFields fields mem row) = HasPk.pk row := rfl

@[simp] theorem User.saveFields_balance (fields : List UserField) (mem row : User) :
    (User.saveFields fields mem row).balance
      = if .balance ∈ fields then mem.balance else row.balance := rfl

/-- `account.models.BalanceEvent`. -/
structure BalanceEvent where
  date : Time
  type : BalanceEventType
  user : ℕ
  balance : Amount
  delta : Amount
deriving DecidableEq, Repr

/-! ### `saleor/account/events.py` -/

/-- `first_login_balance_event`. -/
def firstLoginBalanceEvent (now : Time) (user : ℕ) : BalanceEvent :=
  { date := now, type := .firstLogin, user, balance := 0, delta := 50000 }

/-- `accept_invitation_balance_event`. -/
def acceptInvitationBalanceEvent (now : Time) (user : ℕ) : BalanceEvent :=
  { date := now, type := .invitationAccepted, user, balance := 0, delta := 25000 }

/-- `consecutive_login_balance_event`; `user` is the instance in memory. -/
def consecutiveLoginBalanceEvent (now : Time) (user : User) (delta : Amount) : BalanceEvent :=
  { date := now, type := .consecutiveLogin, user := user.pk, balance := user.balance, delta }

/-- `change_balance_event`. The decimals are those of the instance in memory and of the input;
the difference is taken here, from the balance the instance has at the time of the call. -/
def changeBalanceEvent (now : Time) (user : ℕ) (userBalance balance : ℚ) : BalanceEvent :=
  { date := now, type := .manuallyUpdated, user, balance := toColumn balance,
    delta := toColumn (balance - userBalance) }

/-- `donation_granted_balance_event`. -/
def donationGrantedBalanceEvent (now : Time) (user : User) (priceAmount : Amount) :
    BalanceEvent :=
  { date := now, type := .donationGranted, user := user.pk, balance := user.balance,
    delta := priceAmount }

/-- `donation_rejected_balance_event`; a missing price counts as `0`. -/
def donationRejectedBalanceEvent (now : Time) (user : User) (priceAmount : Option Amount) :
    BalanceEvent :=
  { date := now, type := .donationRejected, user := user.pk, balance := user.balance,
    delta := -(priceAmount.getD 0) }

/-- `consumption_balance_event`. -/
def consumptionBalanceEvent (now : Time) (user : User) (totalNetAmount : Amount) : BalanceEvent :=
  { date := now, type := .consumed, user := user.pk, balance := user.balance,
    delta := -totalNetAmount }

/-- `refunded_balance_event`; the amount may have more places than the column. -/
def refundedBalanceEvent (now : Time) (user : ℕ) (userBalance amount : ℚ) : BalanceEvent :=
  { date := now, type := .refunded, user, balance := toColumn userBalance,
    delta := toColumn amount }

/-- The deltas of a user's events, added up. -/
def deltaSum (user : ℕ) (events : List BalanceEvent) : Amount :=
  ((events.filter (·.user = user)).map (·.delta)).sum

@[simp] theorem deltaSum_nil (user : ℕ) : deltaSum user [] = 0 := rfl

@[simp] theorem deltaSum_append (user : ℕ) (xs ys : List BalanceEvent) :
    deltaSum user (xs ++ ys) = deltaSum user xs + deltaSum user ys := by
  simp [deltaSum]

theorem deltaSum_cons (user : ℕ) (e : BalanceEvent) (es : List BalanceEvent) :
    deltaSum user (e :: es) = (if e.user = user then e.delta else 0) + deltaSum user es := by
  by_cases h : e.user = user <;> simp [deltaSum, h]

end Account

end Aixinwu
