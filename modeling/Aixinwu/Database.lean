import Aixinwu.Donation.Models
import Aixinwu.Order.Models
import Mathlib.Tactic.Abel

/-!
# The rows behind a user's credits

One state for everything that moves a balance: the users and the audit trail of their balances,
the donations that grant credits, the orders and payments that spend and return them, and the
invitations. A request is a function from this state to this state.

Every operation reads a user, changes the balance of the instance and saves it. Where the instance
is still what the row says, that is `credit`: add an amount to one row. It is the shape all the
bookkeeping lemmas are stated in.

## Main definitions

* `Db`, `Db.saveUser`
* `credit` — add an amount to the balance of one user
* `balanceOf`

## Main results

* `saveUser_eq_credit` — saving a fresh instance is a credit
* `balanceOf_credit`, `get_credit`
-/

namespace Aixinwu

open Account

/-- `account.models.Invitation`; `user` is the key of the inviting user. -/
structure Invitation where
  pk : ℕ
  user : Option ℕ
  code : Option String
deriving DecidableEq, Repr

instance : HasPk Invitation ℕ := ⟨Invitation.pk⟩

/-- The tables. -/
structure Db where
  users : Table User
  balanceEvents : List BalanceEvent := []
  donations : Table Donation := Table.empty
  orders : Table Order := Table.empty
  payments : Table Payment := Table.empty
  invitations : Table Invitation := Table.empty

/-- `user.save(update_fields=fields)`. -/
def Db.saveUser (db : Db) (fields : List UserField) (mem : User) : Db :=
  { db with
    users := db.users.modify mem.pk (User.saveFields fields mem)
      (User.hasPk_saveFields fields mem) }

/-- The balance of the user with key `k`. -/
def balanceOf (users : Table User) (k : ℕ) : Option Amount := (users.find? k).map (·.balance)

/-- Saving an instance sets the balance of its row, if the balance is among the columns. -/
theorem balanceOf_saveUser (db : Db) (fields : List UserField) (mem : User) (k : ℕ) :
    balanceOf (db.saveUser fields mem).users k
      = (balanceOf db.users k).map fun b =>
          if k = mem.pk ∧ .balance ∈ fields then mem.balance else b := by
  rw [Db.saveUser, balanceOf, Table.find?_modify, balanceOf]
  by_cases h : k = mem.pk <;> simp [h, Function.comp_def]

/-! ### Credits -/

/-- Add `δ` to the balance of the user with key `k`. -/
def credit (users : Table User) (k : ℕ) (δ : Amount) : Table User :=
  users.modify k (fun u => { u with balance := u.balance + δ }) fun _ => rfl

variable {users : Table User} {k j : ℕ} {δ : Amount}

theorem balanceOf_credit (users : Table User) (k j : ℕ) (δ : Amount) :
    balanceOf (credit users k δ) j
      = (balanceOf users j).map fun b => b + if j = k then δ else 0 := by
  rw [balanceOf, credit, Table.find?_modify, balanceOf]
  by_cases h : j = k <;> simp [h, Function.comp_def]

theorem mem_credit {u : User} : u ∈ credit users k δ ↔
    ∃ v ∈ users, u = { v with balance := v.balance + if v.pk = k then δ else 0 } := by
  rw [Table.mem_def, credit, Table.modify, Table.rows_map, List.mem_map]
  refine exists_congr fun v => and_congr_right fun _ => ?_
  rw [eq_comm]
  by_cases h : v.pk = k <;> simp [h]

@[simp] theorem credit_zero (users : Table User) (k : ℕ) : credit users k 0 = users := by
  ext1
  simp [credit, Table.modify]

/-- Credits change no code. -/
@[simp] theorem map_code_credit (users : Table User) (k : ℕ) (δ : Amount) :
    (credit users k δ).rows.map (·.code) = users.rows.map (·.code) :=
  Table.map_rows_modify _ _ _ _ fun _ => rfl

/-- A lookup that does not look at balances finds the same users. -/
theorem get_credit {p : User → Bool} (hp : ∀ u b, p { u with balance := b } = p u) :
    (credit users k δ).get p
      = (users.get p).map fun u => if u.pk = k then { u with balance := u.balance + δ } else u := by
  rw [credit, Table.modify]
  refine Table.get_map fun u => ?_
  split
  · exact hp u _
  · rfl

/-- Saving the balance of an instance that was read from the row is a credit. -/
theorem saveUser_eq_credit {db : Db} {user : User} (h : user ∈ db.users) (δ : Amount) :
    db.saveUser [.balance] { user with balance := user.balance + δ }
      = { db with users := credit db.users user.pk δ } := by
  rw [Db.saveUser, credit]
  congr 1
  ext1
  refine List.map_congr_left fun u hu => ?_
  by_cases hk : u.pk = user.pk
  · have : u = user := Table.eq_of_pk_eq hu h hk
    subst this
    simp [User.saveFields]
  · simp [hk]

/-- Saving all columns of it as well. -/
theorem save_eq_credit {user : User} (h : user ∈ users) (δ : Amount) :
    users.save { user with balance := user.balance + δ } = credit users user.pk δ := by
  ext1
  refine List.map_congr_left fun u hu => ?_
  by_cases hk : u.pk = user.pk
  · have : u = user := Table.eq_of_pk_eq hu h hk
    subst this
    simp
  · simp [hk]

/-! ### The audit trail -/

/-- The balance of the user with key `k`; who is not there has none. -/
def balanceIn (db : Db) (k : ℕ) : Amount := (balanceOf db.users k).getD 0

/-- How far a balance is ahead of the events recorded for it. -/
def gap (db : Db) (k : ℕ) : Amount := balanceIn db k - deltaSum k db.balanceEvents

/-- The instance in memory has the balance of its row. -/
def Fresh (db : Db) (user : User) : Prop := balanceOf db.users user.pk = some user.balance

instance (db : Db) (user : User) : Decidable (Fresh db user) :=
  inferInstanceAs (Decidable (_ = _))

theorem fresh_of_mem {db : Db} {user : User} (h : user ∈ db.users) : Fresh db user := by
  have hfind : db.users.find? user.pk = some user := Table.mem_iff_find?.mp h
  rw [Fresh, balanceOf, hfind]
  rfl

theorem gap_congr {db db' : Db} (husers : ∀ k, balanceOf db'.users k = balanceOf db.users k)
    (hevents : db'.balanceEvents = db.balanceEvents) : gap db' = gap db := by
  funext k
  rw [gap, gap, balanceIn, balanceIn, husers, hevents]

/-- Saving a fresh instance with another balance, and recording the difference. -/
theorem gap_saveUser {db : Db} {user mem : User} {fields : List UserField}
    {events : List BalanceEvent} (hfresh : Fresh db user) (hpk : mem.pk = user.pk)
    (hfields : .balance ∈ fields ∨ mem.balance = user.balance)
    (hevents : ∀ k, deltaSum k events = if k = user.pk then mem.balance - user.balance else 0) :
    gap ({ db with balanceEvents := db.balanceEvents ++ events }.saveUser fields mem) = gap db := by
  funext k
  have hbalance : balanceOf ({ db with balanceEvents := db.balanceEvents ++ events }.saveUser
      fields mem).users k = _ := balanceOf_saveUser _ fields mem k
  have hsum : deltaSum k ({ db with balanceEvents := db.balanceEvents ++ events }.saveUser
      fields mem).balanceEvents = deltaSum k db.balanceEvents + deltaSum k events :=
    deltaSum_append ..
  rw [gap, balanceIn, hbalance, hsum, hevents, gap, balanceIn, hpk]
  by_cases hk : k = user.pk
  · subst hk
    rw [Fresh] at hfresh
    rw [hfresh]
    rcases hfields with hfields | hsame
    · simp only [true_and, hfields, if_true, Option.map_some, Option.getD_some]
      abel
    · simp [hsame]
  · simp [hk]

/-- Writing a balance over a row that is as it was read. -/
theorem balanceIn_of_write {db db' : Db} {user : User} {v : Amount} (hfresh : Fresh db user)
    (h : ∀ k, balanceOf db'.users k
      = (balanceOf db.users k).map fun b => if k = user.pk then v else b) (k : ℕ) :
    balanceIn db' k = balanceIn db k + if k = user.pk then v - user.balance else 0 := by
  rw [balanceIn, balanceIn, h]
  by_cases hk : k = user.pk
  · subst hk
    rw [Fresh] at hfresh
    rw [hfresh]
    simp
  · simp [hk]

end Aixinwu
