import Aixinwu.Database

/-!
# The donation mutations

`DonationCreate`, `DonationUpdate` and `DonationComplete` of `saleor/graphql/donation/mutations`,
with the validations of `utils.py`. All three go through `ModelMutation.perform_mutation`: fetch
the instance, clean the input, put it on the instance, `full_clean`, save, and then the action
after saving. Nothing wraps the last two in a transaction, so what happened before an exception
stays.

The input field `name` is left out, no column receives it.

## Main definitions

* `donationCreate`, `donationUpdate`, `donationComplete`
* `DonationComplete.postSaveAction` — granting and revoking

## Main results

* `donationCreate_users`, `donationUpdate_users` — neither touches a user
* `donationUpdate_completed` — a completed donation cannot be updated
* `donationComplete_eq` — what completing a donation does to the state
-/

namespace Aixinwu

namespace Donation

open Account

/-- `MoneyInput`. -/
structure MoneyInput where
  currency : String
  amount : Decimal
deriving DecidableEq, Repr

/-! ### `utils.py` -/

/-- `validate_donation_price`. -/
def validateDonationPrice (price : MoneyInput) : Except (List ValidationError) Unit :=
  if price.amount.unscaled ≤ 0 then
    .error [⟨"price", "Price must be greater than 0.", .invalid⟩]
  else .ok ()

/-- `validate_donation_quantity`. -/
def validateDonationQuantity (quantity : ℤ) : Except (List ValidationError) Unit :=
  if quantity ≤ 0 then
    .error [⟨"quantity", "Quantity must be greater than 0.", .invalid⟩]
  else .ok ()

/-- `validate_donation_barcode`; `pk` is the instance that may keep its own. -/
def validateDonationBarcode (db : Db) (pk : ℕ) (barcode : String) :
    Except (List ValidationError) Unit :=
  if db.donations.rows.any fun d => d.pk ≠ pk ∧ d.barcode = some barcode then
    .error [⟨"barcode", "Barcode should not be duplicated for donation", .invalid⟩]
  else .ok ()

/-- `validate_donator`. -/
def validateDonator (db : Db) (donator : String) : Except (List ValidationError) Unit :=
  if db.users.rows.any fun u => u.code = donator then .ok ()
  else .error [⟨"donator", "Donator does not exist", .invalid⟩]

def requestorError : List ValidationError :=
  [⟨"requestor", "Requestor did not have the permission", .permissionDenied⟩]

/-- `validate_create_permission`. -/
def validateCreatePermission (requestor : Option Requestor) :
    Except (List ValidationError) Unit :=
  if requestor.isNone ∨ ¬ hasOneOfPermissions requestor [.manageDonations, .addDonations] then
    .error requestorError
  else .ok ()

/-- `validate_update_permission`: who asks, then whether the donation is still open, then what the
one who asks may do. -/
def validateUpdatePermission (requestor : Option Requestor) (status : Option DonationStatus) :
    Except (List ValidationError) Unit :=
  if requestor.isNone then .error requestorError
  else if status = some .completed then
    .error [⟨"donation", "This donation is completed thus constant.", .invalid⟩]
  else if status ≠ some .completed ∧ ¬ hasOneOfPermissions requestor [.addDonations] then
    .error requestorError
  else .ok ()

/-- `validate_complete_permission`. -/
def validateCompletePermission (requestor : Option Requestor) :
    Except (List ValidationError) Unit :=
  if requestor.isNone ∨ ¬ hasOneOfPermissions requestor [.manageDonations] then
    .error requestorError
  else .ok ()

/-! ### `donation_create.py` -/

/-- `DonationCreateInput`. -/
structure DonationCreateInput where
  title : String
  description : String
  quantity : ℤ
  price : MoneyInput
  donator : String
  barcode : String
deriving DecidableEq, Repr

/-- `DonationCreate.validate_creation_input`. -/
def validateCreationInput (db : Db) (requestor : Option Requestor) (pk : ℕ)
    (input : DonationCreateInput) : Except (List ValidationError) Unit := do
  validateDonationPrice input.price
  validateDonationQuantity input.quantity
  validateDonationBarcode db pk input.barcode
  validateDonator db input.donator
  validateCreatePermission requestor

/-- `DonationCreate`; `pk` is the fresh id of the instance. -/
def donationCreate (db : Db) (requestor : Option Requestor) (pk : ℕ)
    (input : DonationCreateInput) : Db × Outcome :=
  match validateCreationInput db requestor pk input with
  | .error es => (db, .errors es)
  | .ok () =>
    let inst : DonationInstance :=
      { pk, donator := some input.donator, barcode := some input.barcode,
        title := some input.title, description := some input.description,
        currency := some input.price.currency, priceAmount := some input.price.amount,
        status := some .unreviewed, quantity := input.quantity }
    match inst.fullClean with
    | .error es => (db, .errors es)
    | .ok row =>
      match db.donations.insert row with
      | some donations => ({ db with donations }, .success)
      | none => (db, .errors [⟨"id", "Donation with this Id already exists.", .unique⟩])

/-! ### `donation_update.py` -/

/-- `DonationUpdateInput`. -/
structure DonationUpdateInput where
  title : Arg String := .absent
  description : Arg String := .absent
  quantity : Arg ℤ := .absent
  price : Arg MoneyInput := .absent
  barcode : Arg String := .absent
  donator : Arg String := .absent
deriving DecidableEq, Repr

/-- `DonationUpdate.validate_donation_input`. A field that is missing, `null`, zero or empty is
not looked at. -/
def validateDonationInput (db : Db) (requestor : Option Requestor) (d : Donation)
    (input : DonationUpdateInput) : Except (List ValidationError) Unit := do
  if let some price := input.price.get then
    validateDonationPrice price
  if let some quantity := input.quantity.get then
    if quantity ≠ 0 then
      validateDonationQuantity quantity
  if let some barcode := input.barcode.get then
    if barcode ≠ "" then
      validateDonationBarcode db d.pk barcode
  if let some donator := input.donator.get then
    if donator ≠ "" then
      validateDonator db donator
  validateUpdatePermission requestor d.status

/-- What `DonationUpdate` puts on the instance. -/
def DonationUpdateInput.construct (input : DonationUpdateInput) (i : DonationInstance) :
    DonationInstance :=
  { i with
    title := input.title.construct i.title
    description := input.description.construct i.description
    quantity := input.quantity.constructOr 1 i.quantity
    currency := (input.price.get.map (·.currency)).or i.currency
    priceAmount := (input.price.get.map (·.amount)).or i.priceAmount
    barcode := input.barcode.construct i.barcode
    donator := input.donator.construct i.donator
    status := some .unreviewed }

/-- `DonationUpdate`. -/
def donationUpdate (db : Db) (requestor : Option Requestor) (id : ℕ)
    (input : DonationUpdateInput) : Db × Outcome :=
  match getNodeOrError "Donation" id (db.donations.find? id) with
  | .error es => (db, .errors es)
  | .ok d =>
    match validateDonationInput db requestor d input with
    | .error es => (db, .errors es)
    | .ok () =>
      match (input.construct d.toInstance).fullClean with
      | .error es => (db, .errors es)
      | .ok row => ({ db with donations := db.donations.save row }, .success)

/-! ### `donation_complete.py` -/

/-- The `try` block of `DonationComplete.post_save_action`: add `delta` of the price to the one user
with the donor's code and write the event. A donor that is not found, or found twice, is passed
over; a missing price is the `TypeError` of the addition. -/
def DonationComplete.changeBalance (db : Db) (donator : String) (priceAmount : Option Amount)
    (delta : Amount → Amount) (event : User → Amount → BalanceEvent) : Db × Outcome :=
  match db.users.get (·.code = donator) with
  | .error _ => (db, .success)
  | .ok user =>
    match priceAmount with
    | none => (db, .raised "TypeError")
    | some price =>
      let user := { user with balance := user.balance + delta price }
      let db := db.saveUser [.balance] user
      ({ db with balanceEvents := db.balanceEvents ++ [event user price] }, .success)

/-- `DonationComplete.post_save_action`: grant the price when a donation becomes completed, take it
back when a completed one is rejected. -/
def DonationComplete.postSaveAction (db : Db) (now : Time) (d : Donation)
    (previous : Option DonationStatus) : Db × Outcome :=
  if previous ≠ some .completed ∧ d.status = some .completed ∧ d.donator.getD "" ≠ "" then
    changeBalance db (d.donator.getD "") d.priceAmount (fun price => price)
      fun user price => donationGrantedBalanceEvent now user price
  else if previous = some .completed ∧ d.status = some .rejected ∧ d.donator.getD "" ≠ "" then
    changeBalance db (d.donator.getD "") d.priceAmount (fun price => -price)
      fun user price => donationRejectedBalanceEvent now user (some price)
  else (db, .success)

/-- The status a completion writes. -/
def completedStatus (accepted : Bool) : DonationStatus := if accepted then .completed else .rejected

/-- `DonationComplete`. -/
def donationComplete (db : Db) (requestor : Option Requestor) (now : Time) (id : ℕ)
    (accepted : Bool) : Db × Outcome :=
  match getNodeOrError "Donation" id (db.donations.find? id) with
  | .error es => (db, .errors es)
  | .ok d =>
    match validateCompletePermission requestor with
    | .error es => (db, .errors es)
    | .ok () =>
      match { d.toInstance with status := some (completedStatus accepted) }.fullClean with
      | .error es => (db, .errors es)
      | .ok row =>
        DonationComplete.postSaveAction { db with donations := db.donations.save row } now row
          d.status

/-! ### What the mutations do to the state -/

section Specs

variable {db : Db} {requestor : Option Requestor} {pk id : ℕ} {d : Donation}

/-- Creating a donation adds one that is not completed, or does nothing. -/
theorem donationCreate_cases (input : DonationCreateInput) :
    (donationCreate db requestor pk input).1 = db ∨
      ∃ row donations, row.status = some .unreviewed ∧ db.donations.insert row = some donations ∧
        (donationCreate db requestor pk input).1 = { db with donations } := by
  rw [donationCreate]
  cases validateCreationInput db requestor pk input with
  | error es => exact Or.inl rfl
  | ok u =>
    simp only
    split
    · exact Or.inl rfl
    · rename_i row hrow
      have hstatus := (DonationInstance.fullClean_eq_ok hrow).2.2.2.1
      split
      · rename_i donations hins
        exact Or.inr ⟨row, donations, hstatus, hins, rfl⟩
      · exact Or.inl rfl

/-- The input of an update is only let through for a donation that is not completed. -/
theorem validateDonationInput_completed (input : DonationUpdateInput)
    (h : d.status = some .completed) :
    ∃ es, validateDonationInput db requestor d input = .error es := by
  have hlast : ∃ es, validateUpdatePermission requestor d.status = .error es := by
    rw [validateUpdatePermission, h]
    cases requestor <;> simp
  obtain ⟨es, hes⟩ := hlast
  rcases hr : validateDonationInput db requestor d input with es' | u
  · exact ⟨es', rfl⟩
  · -- whatever passed before it, the permission check comes last
    rw [validateDonationInput] at hr
    simp only [hes, bind, Except.bind] at hr
    repeat' split at hr
    all_goals cases hr

/-- Updating rewrites a donation that was not completed, and leaves it not completed, or does
nothing. -/
theorem donationUpdate_cases (input : DonationUpdateInput) :
    (donationUpdate db requestor id input).1 = db ∨
      ∃ d row, d ∈ db.donations ∧ row.pk = d.pk ∧ d.status ≠ some .completed ∧
        row.status = some .unreviewed ∧
        (donationUpdate db requestor id input).1
          = { db with donations := db.donations.save row } := by
  rw [donationUpdate]
  cases hd : db.donations.find? id with
  | none => exact Or.inl rfl
  | some d =>
    simp only [getNodeOrError]
    cases hv : validateDonationInput db requestor d input with
    | error es => exact Or.inl rfl
    | ok u =>
      simp only
      split
      · exact Or.inl rfl
      · rename_i row hrow
        obtain ⟨hpk, -, -, hstatus, -⟩ := DonationInstance.fullClean_eq_ok hrow
        refine Or.inr ⟨d, row, (Table.find?_eq_some.mp hd).1, hpk, fun hc => ?_, hstatus, rfl⟩
        obtain ⟨es, hes⟩ := validateDonationInput_completed input hc
        rw [hv] at hes
        cases hes

/-- The user a donation is credited to: the one user with its donor's code, if there is one and
the code is not empty. -/
def donorOf (users : Table User) (d : Donation) : Option User :=
  if d.donator.getD "" ≠ "" then (users.get (·.code = d.donator.getD "")).toOption else none

theorem donorOf_mem {users : Table User} {u : User} (h : donorOf users d = some u) :
    u ∈ users ∧ u.code = d.donator.getD "" := by
  rw [donorOf] at h
  split at h
  · cases hg : users.get (·.code = d.donator.getD "") with
    | error e => simp [hg, Except.toOption] at h
    | ok v =>
      have hv := Table.get_eq_ok.mp hg
      simp only [hg, Except.toOption, Option.some.injEq] at h
      subst h
      exact ⟨hv.1, by simpa using hv.2.1⟩
  · cases h

/-- What completing a donation is worth to its donor: the price when it becomes completed, minus
the price when it was and is rejected. -/
def grant (d : Donation) (accepted : Bool) : Amount :=
  if d.status ≠ some .completed ∧ accepted then d.priceAmount.getD 0
  else if d.status = some .completed ∧ ¬ accepted then -(d.priceAmount.getD 0)
  else 0

/-- Credit `δ` to a donor, if there is one. -/
def creditDonor (users : Table User) (donor : Option User) (δ : Amount) : Table User :=
  match donor with
  | some u => credit users u.pk δ
  | none => users

/-- A request to complete a donation that is not there, or without the permission, does nothing. -/
theorem donationComplete_error
    (h : db.donations.find? id = none ∨ ∃ es, validateCompletePermission requestor = .error es)
    (now : Time) (accepted : Bool) :
    (donationComplete db requestor now id accepted).1 = db := by
  rw [donationComplete]
  rcases hd : db.donations.find? id with _ | d
  · rfl
  · rcases h with h | ⟨es, hes⟩
    · rw [hd] at h
      cases h
    · simp only [getNodeOrError, hes]

/-- What the donor's events add up to. -/
def creditedTo (donor : Option User) (δ : Amount) (k : ℕ) : Amount :=
  match donor with
  | some u => if u.pk = k then δ else 0
  | none => 0

@[simp] theorem creditDonor_zero (users : Table User) (donor : Option User) :
    creditDonor users donor 0 = users := by
  cases donor <;> simp [creditDonor]

@[simp] theorem creditedTo_zero (donor : Option User) (k : ℕ) : creditedTo donor 0 k = 0 := by
  cases donor <;> simp [creditedTo]

theorem changeBalance_spec (db : Db) (donator : String) (priceAmount : Option Amount)
    (delta : Amount → Amount) (event : User → Amount → BalanceEvent)
    (hevent : ∀ u p, (event u p).user = u.pk ∧ (event u p).delta = delta p) :
    ∃ users balanceEvents,
      (DonationComplete.changeBalance db donator priceAmount delta event).1
        = { db with users, balanceEvents } ∧
      users = creditDonor db.users (db.users.get (·.code = donator)).toOption
        ((priceAmount.map delta).getD 0) ∧
      ∀ k, deltaSum k balanceEvents = deltaSum k db.balanceEvents
        + creditedTo (db.users.get (·.code = donator)).toOption ((priceAmount.map delta).getD 0)
          k := by
  rw [DonationComplete.changeBalance]
  cases hg : db.users.get (·.code = donator) with
  | error e => exact ⟨db.users, db.balanceEvents, rfl, rfl, fun k => by
      simp [Except.toOption, creditedTo]⟩
  | ok u =>
    cases priceAmount with
    | none => exact ⟨db.users, db.balanceEvents, rfl, by simp, by simp⟩
    | some price =>
      have hu : u ∈ db.users := (Table.get_eq_ok.mp hg).1
      simp only [saveUser_eq_credit hu]
      refine ⟨_, _, rfl, rfl, fun k => ?_⟩
      obtain ⟨huser, hdelta⟩ := hevent { u with balance := u.balance + delta price } price
      rw [deltaSum_append, deltaSum_cons, huser, hdelta]
      simp [Except.toOption, creditedTo]

/-- The action after saving credits the grant, and writes events that add up to it. -/
theorem postSaveAction_spec (db : Db) (now : Time) (d : Donation) (accepted : Bool) :
    ∃ users balanceEvents,
      (DonationComplete.postSaveAction db now (d.setStatus (completedStatus accepted))
        d.status).1 = { db with users, balanceEvents } ∧
      users = creditDonor db.users (donorOf db.users d) (grant d accepted) ∧
      ∀ k, deltaSum k balanceEvents = deltaSum k db.balanceEvents
        + creditedTo (donorOf db.users d) (grant d accepted) k := by
  rw [DonationComplete.postSaveAction, grant, donorOf]
  by_cases hc : d.donator.getD "" = ""
  · exact ⟨db.users, db.balanceEvents, by simp [hc], by simp [hc, creditDonor],
      fun k => by simp [hc, creditedTo]⟩
  have hnone : ∃ users balanceEvents, (db, Outcome.success).1 = { db with users, balanceEvents } ∧
      users = creditDonor db.users (db.users.get (·.code = d.donator.getD "")).toOption 0 ∧
      ∀ k, deltaSum k balanceEvents = deltaSum k db.balanceEvents
        + creditedTo (db.users.get (·.code = d.donator.getD "")).toOption 0 k :=
    ⟨db.users, db.balanceEvents, rfl, by simp, by simp⟩
  cases accepted <;> by_cases hs : d.status = some .completed
  · -- a completed donation is rejected
    have h := changeBalance_spec db (d.donator.getD "") d.priceAmount (fun price => -price)
      (fun user price => donationRejectedBalanceEvent now user (some price))
      fun _ _ => ⟨rfl, rfl⟩
    have hneg : (d.priceAmount.map fun price => -price).getD 0 = -(d.priceAmount.getD 0) := by
      rcases d.priceAmount with _ | p <;> rfl
    rw [hneg] at h
    simpa [completedStatus, hc, hs] using h
  · simpa [completedStatus, hc, hs] using hnone
  · simpa [completedStatus, hc, hs] using hnone
  · -- a donation becomes completed
    have h := changeBalance_spec db (d.donator.getD "") d.priceAmount (fun price => price)
      (fun user price => donationGrantedBalanceEvent now user price)
      fun _ _ => ⟨rfl, rfl⟩
    simpa [completedStatus, hc, hs] using h

/-- **Completing a donation** writes its status and credits its grant to the donor. -/
theorem donationComplete_eq (hd : db.donations.find? id = some d)
    (hperm : validateCompletePermission requestor = .ok ()) (now : Time) (accepted : Bool) :
    ∃ users balanceEvents,
      (donationComplete db requestor now id accepted).1
        = { db with
            donations := db.donations.save (d.setStatus (completedStatus accepted))
            users, balanceEvents } ∧
      users = creditDonor db.users (donorOf db.users d) (grant d accepted) ∧
      ∀ k, deltaSum k balanceEvents = deltaSum k db.balanceEvents
        + creditedTo (donorOf db.users d) (grant d accepted) k := by
  have hclean : { d.toInstance with status := some (completedStatus accepted) }.fullClean
      = .ok (d.setStatus (completedStatus accepted)) :=
    fullClean_toInstance (d.setStatus (completedStatus accepted))
  rw [donationComplete, hd]
  simp only [getNodeOrError, hperm, hclean]
  exact postSaveAction_spec { db with
    donations := db.donations.save (d.setStatus (completedStatus accepted)) } now d accepted

end Specs

end Donation

end Aixinwu
