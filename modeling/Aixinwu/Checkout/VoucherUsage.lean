import Aixinwu.Checkout.Models
import Aixinwu.Lib.Transactions

/-!
# Recording and releasing the use of a voucher

`saleor/discount/utils.py`, and the lookup of the voucher in `saleor/checkout/utils.py`. A use is
recorded in up to three places: the counter of the code if the voucher is limited, a
`VoucherCustomer` row if it may be used once per customer, the flag of the code if it may be used
once. Recording raises when the customer has used the code before.

## Main definitions

* `getVoucherForCheckout`, `increaseVoucherUsage`, `releaseVoucherCodeUsage`
* `CheckoutDb.recordUsage` — what a recorded use is
* `Refuses`

## Main results

* `getVoucherForCheckout_eq_some` — what the lookup finds
* `exec_increaseVoucherUsage`
-/

namespace Aixinwu

namespace Checkout

open Aixinwu.Action

/-- The exceptions that matter to the caller, and all others. -/
inductive CheckoutError where
  | insufficientStock
  | giftCardNotApplicable
  | notApplicable
  | integrityError
  | multipleObjectsReturned
  | other
deriving DecidableEq, Repr

/-- Code over the tables of this component. -/
abbrev CheckoutAction := Action CheckoutDb CheckoutError

/-! ### The functions of `discount/utils.py` -/

/-- `increase_voucher_code_usage_value`. -/
def increaseVoucherCodeUsageValue (code : VoucherCode) : CheckoutAction Unit :=
  modify fun db => db.updateCode code.id (· + 1) id

/-- `decrease_voucher_code_usage_value`; the column is a `PositiveIntegerField`. -/
def decreaseVoucherCodeUsageValue (code : VoucherCode) : CheckoutAction Unit := do
  let db ← get
  if db.codes.rows.any fun c => c.id = code.id && c.used = 0 then
    throw .integrityError
  else
    modify fun db => db.updateCode code.id (· - 1) id

/-- `deactivate_voucher_code`. -/
def deactivateVoucherCode (code : VoucherCode) : CheckoutAction Unit :=
  modify fun db => db.updateCode code.id id fun _ => false

/-- `activate_voucher_code`. -/
def activateVoucherCode (code : VoucherCode) : CheckoutAction Unit :=
  modify fun db => db.updateCode code.id id fun _ => true

/-- `add_voucher_usage_by_customer`; a row without an e-mail cannot be created. -/
def addVoucherUsageByCustomer (code : VoucherCode) (customerEmail : Option String) :
    CheckoutAction Unit := do
  let db ← get
  match customerEmail with
  | none => throw .integrityError
  | some email =>
    if ⟨code.id, email⟩ ∈ db.customers then
      throw .notApplicable
    else
      modify fun db => { db with customers := db.customers ++ [⟨code.id, email⟩] }

/-- `remove_voucher_usage_by_customer`. -/
def removeVoucherUsageByCustomer (code : VoucherCode) (customerEmail : String) :
    CheckoutAction Unit :=
  modify fun db => { db with customers := db.customers.filter (· ≠ ⟨code.id, customerEmail⟩) }

/-- `increase_voucher_usage`. -/
def increaseVoucherUsage (voucher : Voucher) (code : VoucherCode)
    (customerEmail : Option String) : CheckoutAction Unit := do
  if voucher.limited then
    increaseVoucherCodeUsageValue code
  if voucher.applyOncePerCustomer then
    addVoucherUsageByCustomer code customerEmail
  if voucher.singleUse then
    deactivateVoucherCode code

/-- `release_voucher_code_usage`. -/
def releaseVoucherCodeUsage (code : Option VoucherCode) (voucher : Option Voucher)
    (userEmail : Option String) : CheckoutAction Unit := do
  match code with
  | none => pure ()
  | some code =>
    if voucher.any (·.limited) then
      decreaseVoucherCodeUsageValue code
    if voucher.any (·.singleUse) then
      activateVoucherCode code
    match userEmail with
    | none => pure ()
    | some email => if email ≠ "" then removeVoucherUsageByCustomer code email

/-- `get_voucher_for_checkout`, with the lock: a limited voucher's code is read again. -/
def getVoucherForCheckout (db : CheckoutDb) (checkout : CheckoutRow) (channelSlug : String)
    (now : Time) : Except CheckoutError (Option (Voucher × VoucherCode)) :=
  match checkout.voucherCode with
  | none => .ok none
  | some voucherCode =>
    match db.codes.get fun c => c.code = voucherCode && c.isActive with
    | .error .doesNotExist => .ok none
    | .error .multipleObjectsReturned => .error .multipleObjectsReturned
    | .ok code =>
      match db.vouchers.rows.find? fun v =>
          db.voucherActiveInChannel now channelSlug v && v.pk = code.voucher with
      | none => .ok none
      | some voucher =>
        if voucher.usageLimit.isSome then
          match db.codes.get fun c => c.code = voucherCode with
          | .ok code => .ok (some (voucher, code))
          | .error _ => .error .multipleObjectsReturned
        else .ok (some (voucher, code))

/-- `_increase_voucher_code_usage_value`. -/
def increaseVoucherCodeUsage (info : CheckoutInfo) (now : Time) :
    CheckoutAction (Option VoucherCode) := do
  let db ← get
  match getVoucherForCheckout db info.checkout info.channelSlug now with
  | .error e => throw e
  | .ok none => pure none
  | .ok (some (voucher, code)) =>
    increaseVoucherUsage voucher code info.getCustomerEmail
    pure (some code)

/-! ### What a use is -/

/-- The `VoucherCustomer` rows after a use of the code by a customer. -/
def recordCustomer (customers : List VoucherCustomer) (voucher : Voucher) (code : VoucherCode)
    (customerEmail : Option String) : List VoucherCustomer :=
  match customerEmail with
  | none => customers
  | some email =>
    if voucher.applyOncePerCustomer ∧ ⟨code.id, email⟩ ∉ customers then
      customers ++ [⟨code.id, email⟩]
    else customers

/-- A use of the code, recorded wherever the voucher asks for it. -/
def CheckoutDb.recordUsage (db : CheckoutDb) (voucher : Voucher) (code : VoucherCode)
    (customerEmail : Option String) : CheckoutDb :=
  { db.updateCode code.id (if voucher.limited then (· + 1) else id)
      (if voucher.singleUse then fun _ => false else id) with
    customers := recordCustomer db.customers voucher code customerEmail }

/-- The voucher is for one use per customer and the customer has used it, or is not known. -/
def Refuses (db : CheckoutDb) (voucher : Voucher) (code : VoucherCode)
    (customerEmail : Option String) : Prop :=
  voucher.applyOncePerCustomer ∧
    match customerEmail with
    | none => True
    | some email => ⟨code.id, email⟩ ∈ db.customers

section Record

variable {db : CheckoutDb} {voucher : Voucher} {code : VoucherCode}

theorem updateCode_updateCode (db : CheckoutDb) (id : ℕ) (u u' : ℕ → ℕ) (a a' : Bool → Bool) :
    (db.updateCode id u a).updateCode id u' a' = db.updateCode id (u' ∘ u) (a' ∘ a) := by
  have hcodes : ((db.updateCode id u a).updateCode id u' a').codes
      = (db.updateCode id (u' ∘ u) (a' ∘ a)).codes := by
    ext1
    simp only [CheckoutDb.updateCode, Table.modify, Table.rows_map, List.map_map]
    refine List.map_congr_left fun c _ => ?_
    by_cases h : c.id = id <;> simp [h, VoucherCode.update]
  simp only [CheckoutDb.updateCode] at hcodes ⊢
  simp only [hcodes]

@[simp] theorem updateCode_id (db : CheckoutDb) (i : ℕ) : db.updateCode i id id = db := by
  have hcodes : (db.updateCode i id id).codes = db.codes := by
    ext1
    simp only [CheckoutDb.updateCode, Table.modify, Table.rows_map]
    refine (List.map_congr_left fun c _ => ?_).trans (List.map_id _)
    exact ite_self c
  obtain ⟨_, _, _, _, _, _, _, _⟩ := db
  simp only [CheckoutDb.updateCode] at hcodes ⊢
  simp only [hcodes]

/-- The step of the counter, whatever follows. -/
theorem exec_limited (k : CheckoutAction Unit) (db : CheckoutDb) :
    (if voucher.limited then do increaseVoucherCodeUsageValue code; k else k).exec db
      = k.exec (db.updateCode code.id (if voucher.limited then (· + 1) else id) id) := by
  cases voucher.limited
  · simp
  · simp only [if_true, exec_bind, increaseVoucherCodeUsageValue, exec_modify]

/-- The step of the flag, which comes last. -/
theorem exec_singleUse (db : CheckoutDb) :
    (if voucher.singleUse then deactivateVoucherCode code else pure ()).exec db
      = (.ok (), db.updateCode code.id id (if voucher.singleUse then fun _ => false else id)) := by
  cases voucher.singleUse
  · simp
  · simp only [if_true, deactivateVoucherCode, exec_modify]

/-- The step of the customer. -/
theorem exec_customer_of_refuses {customerEmail : Option String}
    (h : Refuses db voucher code customerEmail) (k : CheckoutAction Unit) :
    ∃ e, (if voucher.applyOncePerCustomer then do addVoucherUsageByCustomer code customerEmail; k
      else k).exec db = (.error e, db) := by
  obtain ⟨honce, hcustomer⟩ := h
  rcases customerEmail with _ | email
  · refine ⟨.integrityError, ?_⟩
    simp only [honce, if_true, exec_bind, addVoucherUsageByCustomer, exec_get, exec_throw]
  · refine ⟨.notApplicable, ?_⟩
    simp only [honce, if_true, exec_bind, addVoucherUsageByCustomer, exec_get, if_pos hcustomer,
      exec_throw]

theorem exec_customer_of_not_refuses {customerEmail : Option String}
    (h : ¬ Refuses db voucher code customerEmail) (k : CheckoutAction Unit) :
    (if voucher.applyOncePerCustomer then do addVoucherUsageByCustomer code customerEmail; k
      else k).exec db
      = k.exec { db with customers := recordCustomer db.customers voucher code customerEmail } := by
  by_cases honce : voucher.applyOncePerCustomer
  · rcases customerEmail with _ | email
    · exact absurd ⟨honce, trivial⟩ h
    · have hnew : ⟨code.id, email⟩ ∉ db.customers := fun hmem => h ⟨honce, hmem⟩
      simp only [honce, if_true, exec_bind, addVoucherUsageByCustomer, exec_get, recordCustomer,
        true_and, hnew, if_false, not_false_eq_true, exec_modify]
  · have hsame : recordCustomer db.customers voucher code customerEmail = db.customers := by
      cases customerEmail <;> simp [recordCustomer, honce]
    rw [if_neg honce, hsame]

/-- **Recording a use** that is refused raises. -/
theorem exec_increaseVoucherUsage_of_refuses {customerEmail : Option String}
    (h : Refuses db voucher code customerEmail) :
    ∃ e db', (increaseVoucherUsage voucher code customerEmail).exec db = (.error e, db') := by
  have h' : Refuses (db.updateCode code.id (if voucher.limited then (· + 1) else id) id) voucher
      code customerEmail := h
  rw [increaseVoucherUsage, exec_limited]
  obtain ⟨e, he⟩ := exec_customer_of_refuses h' _
  exact ⟨e, _, he⟩

/-- **Recording a use** that is not refused records it. -/
theorem exec_increaseVoucherUsage_of_not_refuses {customerEmail : Option String}
    (h : ¬ Refuses db voucher code customerEmail) :
    (increaseVoucherUsage voucher code customerEmail).exec db
      = (.ok (), db.recordUsage voucher code customerEmail) := by
  have h' : ¬ Refuses (db.updateCode code.id (if voucher.limited then (· + 1) else id) id) voucher
      code customerEmail := h
  rw [increaseVoucherUsage, exec_limited, exec_customer_of_not_refuses h', exec_singleUse]
  refine congrArg (Prod.mk _) ?_
  have hupdate := updateCode_updateCode db code.id (if voucher.limited then (· + 1) else id) id id
    (if voucher.singleUse then fun _ => false else id)
  rw [Function.id_comp, Function.comp_id] at hupdate
  rw [CheckoutDb.recordUsage, ← hupdate]
  rfl

theorem recordCustomer_eq_self_iff {customerEmail : Option String} :
    recordCustomer db.customers voucher code customerEmail = db.customers
      ↔ ¬ (voucher.applyOncePerCustomer ∧ ¬ Refuses db voucher code customerEmail) := by
  rcases customerEmail with _ | email
  · simp [recordCustomer, Refuses]
  · by_cases honce : voucher.applyOncePerCustomer <;>
      by_cases hmem : ⟨code.id, email⟩ ∈ db.customers <;>
        simp [recordCustomer, Refuses, honce, hmem]

/-- When recording a use changes a row. -/
theorem usage_recordUsage_eq_iff (hcode : code ∈ db.codes) {customerEmail : Option String} :
    (db.recordUsage voucher code customerEmail).usage = db.usage
      ↔ ¬ (voucher.limited ∨ (voucher.singleUse ∧ code.isActive) ∨
        voucher.applyOncePerCustomer ∧ ¬ Refuses db voucher code customerEmail) := by
  have hcodes : (db.recordUsage voucher code customerEmail).codes = db.codes
      ↔ ¬ voucher.limited ∧ ¬ (voucher.singleUse ∧ code.isActive) := by
    refine (Table.modify_eq_self_iff hcode _ (VoucherCode.pk_update _ _)).trans ?_
    obtain ⟨id, s, used, isActive, v⟩ := code
    cases voucher.limited <;> cases voucher.singleUse <;> cases isActive <;>
      simp [VoucherCode.update]
  rw [CheckoutDb.usage, CheckoutDb.usage, Prod.mk.injEq, hcodes]
  exact (and_congr_right fun _ => recordCustomer_eq_self_iff).trans (by tauto)

end Record

/-! ### What the lookup finds -/

/-- Codes are unique, so a lookup by code finds one or none. -/
theorem code_eq_of_code_eq {db : CheckoutDb} {c c' : VoucherCode} (hc : c ∈ db.codes)
    (hc' : c' ∈ db.codes) (h : c.code = c'.code) : c = c' :=
  List.inj_on_of_nodup_map db.codes_unique hc hc' h

theorem get_code_cases (db : CheckoutDb) (s : String) (p : VoucherCode → Bool) :
    (∃ c ∈ db.codes, c.code = s ∧ p c ∧ db.codes.get (fun c => c.code = s && p c) = .ok c) ∨
      db.codes.get (fun c => c.code = s && p c) = .error .doesNotExist := by
  by_cases h : ∃ c ∈ db.codes, c.code = s ∧ p c
  · obtain ⟨c, hc, hcode, hp⟩ := h
    refine Or.inl ⟨c, hc, hcode, hp, Table.get_eq_ok.mpr ⟨hc, by simp [hcode, hp], ?_⟩⟩
    intro c' hc' hp'
    have hcode' : c'.code = s := by simpa using (Bool.and_eq_true_iff.mp hp').1
    exact code_eq_of_code_eq hc' hc (hcode'.trans hcode.symm)
  · refine Or.inr ?_
    have hnil : db.codes.rows.filter (fun c => c.code = s && p c) = [] := by
      refine List.filter_eq_nil_iff.mpr fun c hc hpc => h ⟨c, hc, ?_⟩
      simpa using hpc
    rw [Table.get, hnil]

/-- **The lookup** never fails, and what it finds is the active code on the checkout and its
voucher. -/
theorem getVoucherForCheckout_ok (db : CheckoutDb) (checkout : CheckoutRow) (channelSlug : String)
    (now : Time) :
    ∃ r, getVoucherForCheckout db checkout channelSlug now = .ok r ∧
      ∀ v c, r = some (v, c) → c ∈ db.codes ∧ checkout.voucherCode = some c.code ∧ c.isActive ∧
        v ∈ db.vouchers ∧ v.pk = c.voucher := by
  rcases hcode : checkout.voucherCode with _ | s
  · refine ⟨none, by simp only [getVoucherForCheckout, hcode], fun v c h => ?_⟩
    cases h
  rcases get_code_cases db s (·.isActive) with ⟨c, hc, hs, hactive, hget⟩ | hget
  swap
  · refine ⟨none, by simp only [getVoucherForCheckout, hcode, hget], fun v c h => ?_⟩
    cases h
  rcases hfind : db.vouchers.rows.find? fun v =>
      db.voucherActiveInChannel now channelSlug v && v.pk = c.voucher with _ | v
  · refine ⟨none, by simp only [getVoucherForCheckout, hcode, hget, hfind], fun v c h => ?_⟩
    cases h
  have hv : v ∈ db.vouchers := List.mem_of_find?_eq_some hfind
  have hpk : v.pk = c.voucher := by
    have hp := List.find?_some hfind
    simpa using (Bool.and_eq_true_iff.mp hp).2
  have hagain : db.codes.get (fun c => c.code = s) = .ok c := by
    refine Table.get_eq_ok.mpr ⟨hc, by simp [hs], fun c' hc' hs' => ?_⟩
    exact code_eq_of_code_eq hc' hc ((by simpa using hs' : c'.code = s).trans hs.symm)
  refine ⟨some (v, c), ?_, ?_⟩
  · simp only [getVoucherForCheckout, hcode, hget, hfind, hagain, ite_self]
  · rintro v' c' ⟨⟩
    exact ⟨hc, by rw [hs], hactive, hv, hpk⟩

end Checkout

end Aixinwu
