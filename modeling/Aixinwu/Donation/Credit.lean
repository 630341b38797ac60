import Aixinwu.Donation.Mutations
import Aixinwu.Lib.Runs

/-!
# What a donation is worth to its donor

Creating, updating, accepting and rejecting donations, in any order and any number of times, leaves
every balance at what it was plus the prices of the donations that now stand accepted for the user
(**`donations_credited`**). The invariant is an equation between two sums, and only completing a
donation changes either side of it. Creating adds a donation that is not completed; updating is
refused for a completed one, which is what keeps a price from changing while it is credited.

The donor is found by code, and a donation whose donor is the empty string is credited to nobody,
although the validation accepts that donor when some user has no code. So the statement asks every
donation for a donor with a code; `donations_credited_emptyCode` shows that it has to.

## Main definitions

* `DonationRequest`, `serve` — the requests, one after another
* `creditedAmount`, `Credited` — the invariant
* `DonorsKnown`

## Main results

* `credited_serve` — one request
* `donations_credited` — every sequence of requests
-/

namespace Aixinwu

namespace Donation

open Account Runs

/-- A request, with what it reads from its surroundings: who asks, the fresh id, the clock. -/
inductive DonationRequest where
  | create (requestor : Option Requestor) (pk : ℕ) (input : DonationCreateInput)
  | update (requestor : Option Requestor) (id : ℕ) (input : DonationUpdateInput)
  | complete (requestor : Option Requestor) (now : Time) (id : ℕ) (accepted : Bool)
deriving DecidableEq, Repr

/-- The state after a request. -/
def serve (db : Db) : DonationRequest → Db
  | .create requestor pk input => (donationCreate db requestor pk input).1
  | .update requestor id input => (donationUpdate db requestor id input).1
  | .complete requestor now id accepted => (donationComplete db requestor now id accepted).1

/-- What a donation contributes to the user with code `code`: its price, while it is completed. -/
def creditedAmount (code : String) (d : Donation) : Amount :=
  if d.status = some .completed ∧ d.donator = some code then d.priceAmount.getD 0 else 0

/-- The prices of the donations that are completed and have this donor. -/
def creditedSum (donations : Table Donation) (code : String) : Amount :=
  (donations.rows.map (creditedAmount code)).sum

/-- Every balance is what it would be without donations, plus the credited prices. -/
def Credited (base : ℕ → Amount) (db : Db) : Prop :=
  ∀ u ∈ db.users.rows, u.balance = base u.pk + creditedSum db.donations u.code

instance (base : ℕ → Amount) (db : Db) : Decidable (Credited base db) :=
  inferInstanceAs (Decidable (∀ _ ∈ _, _))

/-- No two users have the same code. -/
def CodesUnique (db : Db) : Prop := (db.users.rows.map (·.code)).Nodup

instance (db : Db) : Decidable (CodesUnique db) := inferInstanceAs (Decidable (List.Nodup _))

/-- Every donation has a donor with a code. -/
def DonorsKnown (db : Db) : Prop :=
  ∀ d ∈ db.donations.rows, ∃ u ∈ db.users.rows, d.donator = some u.code ∧ u.code ≠ ""

instance (db : Db) : Decidable (DonorsKnown db) := inferInstanceAs (Decidable (∀ _ ∈ _, _))

variable {base : ℕ → Amount} {db : Db}

/-! ### The sum of the credited prices -/

theorem creditedAmount_of_ne {code : String} {d : Donation} (h : d.status ≠ some .completed) :
    creditedAmount code d = 0 := by
  rw [creditedAmount, if_neg fun hd => h hd.1]

theorem creditedSum_insert {donations donations' : Table Donation} {row : Donation}
    (h : donations.insert row = some donations') (code : String) :
    creditedSum donations' code = creditedSum donations code + creditedAmount code row := by
  rw [creditedSum, (Table.insert_eq_some h).1]
  simp [creditedSum]

theorem creditedSum_save {donations : Table Donation} {d row : Donation} (hd : d ∈ donations)
    (h : row.pk = d.pk) (code : String) :
    creditedSum (donations.save row) code
      = creditedSum donations code + (creditedAmount code row - creditedAmount code d) :=
  Table.sum_save donations hd h.symm _

/-- Completing a donation moves the sum of its donor by the grant, and no other. -/
theorem creditedAmount_complete (d : Donation) (accepted : Bool) (code : String) :
    creditedAmount code (d.setStatus (completedStatus accepted))
        - creditedAmount code d
      = if d.donator = some code then grant d accepted else 0 := by
  rw [creditedAmount, creditedAmount, grant]
  by_cases hc : d.donator = some code
  · cases accepted <;> by_cases hs : d.status = some .completed <;>
      simp [hc, hs, completedStatus]
  · simp [hc]

/-! ### One request -/

/-- With unique codes the lookup finds the donor. -/
theorem donorOf_eq_some (hcodes : CodesUnique db) {d : Donation} {u : User}
    (hu : u ∈ db.users.rows) (hd : d.donator = some u.code) (hne : u.code ≠ "") :
    donorOf db.users d = some u := by
  have hget : db.users.get (·.code = u.code) = .ok u := by
    refine Table.get_eq_ok.mpr ⟨hu, by simp, fun v hv hcode => ?_⟩
    exact List.inj_on_of_nodup_map hcodes hv hu (by simpa using hcode)
  rw [donorOf, hd]
  simp [hne, hget, Except.toOption]

/-- Requests change no code. -/
theorem map_code_serve (db : Db) (req : DonationRequest) :
    (serve db req).users.rows.map (·.code) = db.users.rows.map (·.code) := by
  cases req with
  | create requestor pk input =>
    rcases donationCreate_cases input with h | ⟨row, donations, -, -, h⟩ <;> rw [serve, h]
  | update requestor id input =>
    rcases donationUpdate_cases input with h | ⟨d, row, -, -, -, -, h⟩ <;> rw [serve, h]
  | complete requestor now id accepted =>
    rw [serve]
    rcases hd : db.donations.find? id with _ | d
    · rw [donationComplete_error (Or.inl hd)]
    rcases hperm : validateCompletePermission requestor with es | u
    · rw [donationComplete_error (Or.inr ⟨es, hperm⟩)]
    obtain ⟨users, events, h, husers, -⟩ := donationComplete_eq hd hperm now accepted
    rw [h, husers]
    cases donorOf db.users d <;> simp [creditDonor]

theorem CodesUnique.serve (h : CodesUnique db) (req : DonationRequest) :
    CodesUnique (serve db req) := by
  rw [CodesUnique, map_code_serve]
  exact h

/-- A completion credits exactly what the donation is then worth. -/
theorem credited_complete {requestor : Option Requestor} {now : Time} {id : ℕ} {accepted : Bool}
    (hcodes : CodesUnique db) (hdonors : DonorsKnown db) (h : Credited base db) :
    Credited base (donationComplete db requestor now id accepted).1 := by
  rcases hd : db.donations.find? id with _ | d
  · rwa [donationComplete_error (Or.inl hd)]
  rcases hperm : validateCompletePermission requestor with es | _
  · rwa [donationComplete_error (Or.inr ⟨es, hperm⟩)]
  obtain ⟨users, events, heq, husers, -⟩ := donationComplete_eq hd hperm now accepted
  have hmem := (Table.find?_eq_some.mp hd).1
  obtain ⟨donor, hdonor, hcode, hne⟩ := hdonors d hmem
  rw [donorOf_eq_some hcodes hdonor hcode hne, creditDonor] at husers
  rw [heq, husers]
  intro u hu
  obtain ⟨v, hv, rfl⟩ := mem_credit.mp hu
  have hsum := creditedSum_save hmem
    (show Donation.pk (d.setStatus (completedStatus accepted)) = d.pk from rfl) v.code
  rw [creditedAmount_complete] at hsum
  change v.balance + _ = base v.pk + creditedSum _ v.code
  rw [hsum, h v hv, add_assoc]
  congr 2
  -- the donor is the one user whose code is the donator
  refine if_congr ?_ rfl rfl
  constructor
  · intro hpk
    rw [hcode, Table.eq_of_pk_eq hv hdonor hpk]
  · intro hcode'
    have : v.code = donor.code := by simpa [hcode] using hcode'.symm
    rw [List.inj_on_of_nodup_map hcodes hv hdonor this]

/-- **One request** keeps every balance at what the donations say. -/
theorem credited_serve (hcodes : CodesUnique db) (hdonors : DonorsKnown db)
    (h : Credited base db) (req : DonationRequest) : Credited base (serve db req) := by
  cases req with
  | create requestor pk input =>
    rcases donationCreate_cases input with heq | ⟨row, donations, hstatus, hins, heq⟩
    · rwa [serve, heq]
    · rw [serve, heq]
      intro u hu
      rw [creditedSum_insert hins, creditedAmount_of_ne (by simp [hstatus]), add_zero]
      exact h u hu
  | update requestor id input =>
    rcases donationUpdate_cases input with heq | ⟨d, row, hd, hpk, hne, hstatus, heq⟩
    · rwa [serve, heq]
    · rw [serve, heq]
      intro u hu
      rw [creditedSum_save hd hpk, creditedAmount_of_ne (by simp [hstatus]),
        creditedAmount_of_ne hne, sub_zero, add_zero]
      exact h u hu
  | complete requestor now id accepted => exact credited_complete hcodes hdonors h

/-- A request leaves the price and the donor of a completed donation alone. -/
theorem serve_completed (req : DonationRequest) {d : Donation} (hd : d ∈ db.donations)
    (hs : d.status = some .completed) :
    ∃ d' ∈ (serve db req).donations,
      d'.pk = d.pk ∧ d'.priceAmount = d.priceAmount ∧ d'.donator = d.donator := by
  cases req with
  | create requestor pk input =>
    rw [serve]
    rcases donationCreate_cases input with heq | ⟨row, donations, -, hins, heq⟩
    · exact ⟨d, by rwa [heq], rfl, rfl, rfl⟩
    · refine ⟨d, ?_, rfl, rfl, rfl⟩
      rw [heq, Table.mem_def, (Table.insert_eq_some hins).1]
      exact List.mem_append_left _ hd
  | update requestor id input =>
    rw [serve]
    rcases donationUpdate_cases input with heq | ⟨e, row, he, hpk, hne, -, heq⟩
    · exact ⟨d, by rwa [heq], rfl, rfl, rfl⟩
    · refine ⟨d, ?_, rfl, rfl, rfl⟩
      rw [heq, Table.mem_save ⟨e, he, hpk.symm⟩]
      refine Or.inr ⟨hd, fun hdk => hne ?_⟩
      rwa [← Table.eq_of_pk_eq hd he (hdk.trans hpk)]
  | complete requestor now id accepted =>
    rw [serve]
    rcases hf : db.donations.find? id with _ | e
    · exact ⟨d, by rwa [donationComplete_error (Or.inl hf)], rfl, rfl, rfl⟩
    rcases hperm : validateCompletePermission requestor with es | _
    · exact ⟨d, by rwa [donationComplete_error (Or.inr ⟨es, hperm⟩)], rfl, rfl, rfl⟩
    obtain ⟨users, events, heq, -, -⟩ := donationComplete_eq hf hperm now accepted
    have he := (Table.find?_eq_some.mp hf).1
    rw [heq]
    by_cases hpk : d.pk = e.pk
    · obtain rfl := Table.eq_of_pk_eq hd he hpk
      exact ⟨_, Table.mem_save_self hd rfl, rfl, rfl, rfl⟩
    · exact ⟨d, Table.mem_save_of_ne he rfl hd hpk, rfl, rfl, rfl⟩

/-! ### Every sequence of requests -/

/-- **Every sequence of requests.** While every donation has a donor with a code and the codes are
unique, every balance the run passes through is its base plus the prices of the donations that are
completed for the user; and in none of these states can a request change the price or the donor of
a completed donation. -/
theorem donations_credited (hcodes : CodesUnique db) (h : Credited base db)
    {reqs : List DonationRequest} (hrun : EachStep serve (fun db _ => DonorsKnown db) db reqs) :
    ∀ t, Reached serve db reqs t → Credited base t ∧
      ∀ req, ∀ d ∈ t.donations, d.status = some .completed → ∃ d' ∈ (serve t req).donations,
        d'.pk = d.pk ∧ d'.priceAmount = d.priceAmount ∧ d'.donator = d.donator := by
  intro t ht
  have hstep : ∀ s req, CodesUnique s ∧ Credited base s → DonorsKnown s →
      CodesUnique (serve s req) ∧ Credited base (serve s req) := by
    rintro s req ⟨hcodes, h⟩ hdonors
    exact ⟨hcodes.serve req, credited_serve hcodes hdonors h req⟩
  have hinv : CodesUnique t ∧ Credited base t := EachStep.inv_reached hstep hrun ⟨hcodes, h⟩ ht
  exact ⟨hinv.2, fun req d hd hs => serve_completed req hd hs⟩

/-- One user, and one donation that is created for it and accepted twice. -/
theorem donations_credited_acceptedTwice :
    let donor : User :=
      { pk := 1, email := "a@sjtu.edu.cn", balance := 500, code := "517", lastLogin := 0 }
    let db : Db := { users := Table.singleton donor }
    let staff : Option Requestor := some ⟨[.manageDonations, .addDonations]⟩
    let reqs : List DonationRequest :=
      [.create staff 9 ⟨"lamp", "", 1, ⟨"AXB", ⟨2, 0⟩⟩, "517", "690"⟩, .complete staff 5 9 true,
        .complete staff 6 9 true]
    ∀ t, Reached serve db reqs t → Credited (fun _ => 500) t ∧
      ∀ req, ∀ d ∈ t.donations, d.status = some .completed → ∃ d' ∈ (serve t req).donations,
        d'.pk = d.pk ∧ d'.priceAmount = d.priceAmount ∧ d'.donator = d.donator :=
  donations_credited (by decide) (by decide) ⟨by decide, by decide, by decide, trivial⟩

/-- A user without a code is never credited, although a donation may name the empty code as its
donor: `validate_donator` finds the user, the lookup is never made. -/
theorem donations_credited_emptyCode :
    ¬ ∀ (base : ℕ → Amount) (db : Db) (reqs : List DonationRequest),
      CodesUnique db → Credited base db →
      EachStep serve (fun db _ => ∀ d ∈ db.donations.rows, d.priceAmount.isSome ∧
        ∃ u ∈ db.users.rows, d.donator = some u.code) db reqs →
      ∀ t, Reached serve db reqs t → Credited base t := by
  intro h
  let donor : User := { pk := 1, email := "a@sjtu.edu.cn", balance := 0, lastLogin := 0 }
  let db : Db := { users := Table.singleton donor }
  let staff : Option Requestor := some ⟨[.manageDonations, .addDonations]⟩
  let reqs : List DonationRequest :=
    [.create staff 9 ⟨"lamp", "", 1, ⟨"AXB", ⟨2, 0⟩⟩, "", "690"⟩, .complete staff 5 9 true]
  have := h (fun _ => 0) db reqs (by decide) (by decide) ⟨by decide, by decide, trivial⟩
    (run serve db reqs) (reached_run db reqs)
  exact absurd this (by decide)

end Donation

end Aixinwu
