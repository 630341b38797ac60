import Aixinwu.Core.Mutations
import Aixinwu.Database

/-!
# Setting a balance by hand

`BalanceUpdate` of `saleor/graphql/account/mutations/account/account_balance_update.py`. The
balance is put on the instance and saved before `post_save_action` writes the event, and the event
takes its difference from that instance: it is always zero.

## Main definitions

* `balanceUpdate`

## Main results

* `balanceUpdate_cases`
-/

namespace Aixinwu

namespace Account

/-- `BalanceUpdate`; `balance` is the decimal the `Float` argument becomes. -/
def balanceUpdate (now : Time) (requestor : Option Requestor) (userId : ℕ) (balance : ℚ)
    (db : Db) : Db × Outcome :=
  if ¬ hasOneOfPermissions requestor [.manageUsers] then (db, .denied)
  else
    match db.users.find? userId with
    | none =>
      (db, .errors [⟨"user_id", "Couldn't resolve to a node: " ++ toGlobalId "User" userId,
        .notFound⟩])
    | some user =>
      let db := db.saveUser [.balance] { user with balance := toColumn balance }
      -- the instance has the new balance already
      ({ db with
          balanceEvents := db.balanceEvents ++ [changeBalanceEvent now user.pk balance balance] },
        .success)

/-- It sets one balance and records no change, or does nothing. -/
theorem balanceUpdate_cases (now : Time) (requestor : Option Requestor) (userId : ℕ) (balance : ℚ)
    (db : Db) :
    (balanceUpdate now requestor userId balance db).1 = db ∨
      ∃ user ∈ db.users, user.pk = userId ∧
        (balanceUpdate now requestor userId balance db).1
          = { db with
              users := credit db.users userId (toColumn balance - user.balance)
              balanceEvents := db.balanceEvents
                ++ [changeBalanceEvent now userId balance balance] } := by
  rw [balanceUpdate]
  by_cases hperm : hasOneOfPermissions requestor [.manageUsers]
  swap
  · rw [if_pos hperm]
    exact Or.inl rfl
  rw [if_neg (not_not.mpr hperm)]
  rcases hfind : db.users.find? userId with _ | user
  · exact Or.inl rfl
  · obtain ⟨huser, rfl⟩ := Table.find?_eq_some.mp hfind
    have hcredit := saveUser_eq_credit huser (toColumn balance - user.balance)
    rw [add_sub_cancel] at hcredit
    refine Or.inr ⟨user, huser, rfl, ?_⟩
    simp only [hcredit]
    rfl

/-- The event of a change by hand never has a difference. -/
theorem changeBalanceEvent_delta (now : Time) (user : ℕ) (balance : ℚ) :
    (changeBalanceEvent now user balance balance).delta = 0 := by
  rw [changeBalanceEvent, sub_self]
  exact toColumn_intCast 0

end Account

end Aixinwu
