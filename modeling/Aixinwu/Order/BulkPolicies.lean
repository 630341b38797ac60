import Aixinwu.Lib.Aggregates
import Aixinwu.Order.BulkStocks

/-!
# The policies of the bulk import

`OrderBulkCreate` is given two policies, one for errors and one for stocks. The error policy is applied
once, to what is found while the orders are made; handling the stocks comes after it, and goes through
every order, also those that have been rejected.

Two things are right in every import: which rows are created (`rowsObey_finalOrders`), since an order that
the stocks disqualify is left out when the others are saved, and that no order takes more than is
left (`takesWhatIsLeft_finalOrders`). Three others go wrong in the two ways the order of the phases
suggests. An error that is found while the stocks are handled comes too late for `REJECT_EVERYTHING`:
the orders that could be taken are created (`rejectsEverything_iff`). And an order that was rejected for an
error that is not critical is taken from the stocks like any other if it can be: the stocks lose what
is fulfilled of it (`stocksFall_iff`), and orders after it find less.

## Main definitions

* `RejectsEverything`, `RowsObey`, `StocksFall`, `TakesWhatIsLeft`, `Isolated` — the promises
* `AllOrNoneTaken`, `NothingFromRejected`, `RejectedApart` — when they are kept

## Main results

* `rejectsEverything_iff`, `stocksFall_iff`, `isolated_of_rejectedApart`
* `performMutation_obeysPolicies`
-/

namespace Aixinwu

namespace BulkCreate

/-! ### Outcomes -/

/-- What is saved is accepted by the database. -/
def Savable (db : Database) (ds : List OrderBulkCreateData) : Prop :=
  (references (db.orders ++ ds.filterMap OrderBulkCreateData.saved)).Nodup ∧
    ∀ saved ∈ ds.filterMap OrderBulkCreateData.saved, ∀ line ∈ saved.fulfillmentLines,
      0 ≤ line.quantity

/-- The orders as they are saved, or not. -/
def finalOrders (db : Database) (policy : StockUpdatePolicy) (ds : List OrderBulkCreateData) :
    List OrderBulkCreateData :=
  (handleStocksUnlessSkip db.stocks policy ds).2.map prepareSave

/-- The database when the orders have been saved. -/
def finalDatabase (db : Database) (policy : StockUpdatePolicy) (ds : List OrderBulkCreateData) :
    Database where
  stocks := updateStocks db.stocks (handleStocksUnlessSkip db.stocks policy ds).1
  orders := db.orders ++ (finalOrders db policy ds).filterMap OrderBulkCreateData.saved

section Outcomes

variable {db db' : Database} {inputs : List OrderInput} {errorPolicy : ErrorPolicy}
  {policy : StockUpdatePolicy} {ds final : List OrderBulkCreateData}

theorem saveData_eq_ok_iff :
    saveData db (handleStocksUnlessSkip db.stocks policy ds).2
        (handleStocksUnlessSkip db.stocks policy ds).1 = .ok (db', final) ↔
      Savable db (finalOrders db policy ds) ∧ db' = finalDatabase db policy ds ∧
        final = finalOrders db policy ds := by
  rw [saveData, ← finalOrders]
  by_cases hreferences : (references (db.orders ++
      (finalOrders db policy ds).filterMap OrderBulkCreateData.saved)).Nodup
  · rw [if_neg (not_not_intro hreferences)]
    by_cases hquantity : ∃ saved ∈ (finalOrders db policy ds).filterMap OrderBulkCreateData.saved,
        ∃ line ∈ saved.fulfillmentLines, line.quantity < 0
    · rw [if_pos hquantity]
      obtain ⟨saved, hsaved, line, hline, hneg⟩ := hquantity
      refine iff_of_false (fun h => by cases h) fun h => ?_
      have hnonneg := h.1.2 saved hsaved line hline
      omega
    · rw [if_neg hquantity, Except.ok.injEq, Prod.mk.injEq]
      have hsavable : Savable db (finalOrders db policy ds) :=
        ⟨hreferences, fun saved hsaved line hline => by
          by_contra hneg
          exact hquantity ⟨saved, hsaved, line, hline, by omega⟩⟩
      constructor
      · rintro ⟨rfl, rfl⟩
        exact ⟨hsavable, rfl, rfl⟩
      · rintro ⟨-, rfl, rfl⟩
        exact ⟨rfl, rfl⟩
  · rw [if_pos hreferences]
    exact iff_of_false (fun h => by cases h) fun h => hreferences h.1.1

/-- When the mutation answers, and what. -/
theorem performMutation_eq_ok_iff :
    performMutation db inputs errorPolicy policy = .ok (db', final) ↔
      inputs.length ≤ maxOrders ∧ ∃ ds, createOrders db.orders inputs = .ok ds ∧
        Savable db (finalOrders db policy (handleErrorPolicy errorPolicy ds)) ∧
        db' = finalDatabase db policy (handleErrorPolicy errorPolicy ds) ∧
        final = finalOrders db policy (handleErrorPolicy errorPolicy ds) := by
  rw [performMutation]
  split
  · rename_i hlimit
    exact iff_of_false (fun h => by cases h) fun h => absurd h.1 (by omega)
  · rename_i hlimit
    rw [and_iff_right (by omega)]
    cases hds : createOrders db.orders inputs with
    | error e =>
      refine iff_of_false (fun h => by cases h) ?_
      rintro ⟨ds, hds', -⟩
      cases hds'
    | ok ds =>
      dsimp only
      rw [saveData_eq_ok_iff]
      constructor
      · exact fun h => ⟨ds, rfl, h⟩
      · rintro ⟨ds', hds', h⟩
        obtain rfl := Except.ok.inj hds'
        exact h

theorem made_of_createOrders {orders : List SavedOrder} (h : createOrders orders inputs = .ok ds) :
    ∀ d ∈ ds, Made d := by
  induction inputs generalizing ds with
  | nil =>
    obtain rfl := Except.ok.inj h
    exact fun d hd => (List.not_mem_nil hd).elim
  | cons input inputs ih =>
    obtain ⟨d, ds', hd, hds', rfl⟩ := createOrders_cons_eq_ok h
    exact List.forall_mem_cons.mpr ⟨made_of_createSingleOrder hd, ih hds'⟩

/-- What a final order comes from. -/
theorem exists_of_mem_finalOrders {d : OrderBulkCreateData} (h : d ∈ finalOrders db policy ds) :
    ∃ p ∈ ds, ∃ handled, Handled p handled ∧ d = prepareSave handled := by
  obtain ⟨handled, hhandled, rfl⟩ := List.mem_map.mp h
  rw [handleStocksUnlessSkip] at hhandled
  split at hhandled
  · exact ⟨handled, hhandled, handled, Or.inl rfl, rfl⟩
  · obtain ⟨p, hp, hrel⟩ := exists_of_mem_handleOrders hhandled
    exact ⟨p, hp, handled, hrel, rfl⟩

end Outcomes

/-! ### Rows -/

/-- With `REJECT_FAILED_ROWS` the orders without errors are created, with `IGNORE_FAILED` those without
critical errors. -/
def RowsObey (errorPolicy : ErrorPolicy) (final : List OrderBulkCreateData) : Prop :=
  match errorPolicy with
  | .rejectEverything => True
  | .rejectFailedRows => ∀ d ∈ final, d.order.isSome = true ↔ d.errors = []
  | .ignoreFailed => ∀ d ∈ final, d.order.isSome = true ↔ d.isCriticalError = false

section Rows

variable {db : Database} {errorPolicy : ErrorPolicy} {policy : StockUpdatePolicy}
  {ds : List OrderBulkCreateData} {d : OrderBulkCreateData}

theorem flatMap_errors_eq_nil_iff :
    ds.flatMap OrderBulkCreateData.errors = [] ↔ ∀ d ∈ ds, d.errors = [] :=
  List.flatMap_eq_nil_iff

theorem handleErrorPolicy_of_forall (h : ∀ d ∈ ds, d.errors = []) :
    handleErrorPolicy errorPolicy ds = ds := by
  rw [handleErrorPolicy, if_neg (not_not_intro (flatMap_errors_eq_nil_iff.mpr h))]

theorem handleErrorPolicy_of_exists (h : ∃ d ∈ ds, d.errors ≠ []) :
    handleErrorPolicy errorPolicy ds = ds.map (police errorPolicy) := by
  obtain ⟨d, hd, hne⟩ := h
  rw [handleErrorPolicy, if_pos fun hnil => hne (flatMap_errors_eq_nil_iff.mp hnil d hd)]

/-- Unless everything is rejected, each order is judged by itself. -/
theorem handleErrorPolicy_eq_map (h : errorPolicy ≠ .rejectEverything)
    (ds : List OrderBulkCreateData) :
    handleErrorPolicy errorPolicy ds = ds.map (police errorPolicy) := by
  by_cases hexists : ∃ d ∈ ds, d.errors ≠ []
  · exact handleErrorPolicy_of_exists hexists
  · have hforall : ∀ d ∈ ds, d.errors = [] := fun d hd => by
      by_contra hne
      exact hexists ⟨d, hd, hne⟩
    have hpolice : ∀ d ∈ ds, police errorPolicy d = d := fun d hd => by
      cases errorPolicy with
      | ignoreFailed => rfl
      | rejectEverything => exact absurd rfl h
      | rejectFailedRows => exact if_neg (not_not_intro (hforall d hd))
    rw [handleErrorPolicy_of_forall hforall, List.map_congr_left hpolice, List.map_id']

theorem prepareSave_order (d : OrderBulkCreateData) :
    (prepareSave d).order.isSome = (!d.isCriticalError && d.order.isSome) := by
  rw [prepareSave]
  dsimp only
  cases d.isCriticalError <;> rfl

/-- A disqualified order is not created, and it says why. -/
theorem disqualified_prepareSave {p : OrderBulkCreateData} (h : Disqualified p d) :
    (prepareSave d).order = none ∧ (prepareSave d).errors ≠ [] ∧
      (prepareSave d).isCriticalError = true := by
  obtain ⟨errors, hne, rfl⟩ := h
  exact ⟨rfl, List.append_ne_nil_of_right_ne_nil p.errors hne, rfl⟩

/-- **Rows obey the error policy.** -/
theorem rowsObey_finalOrders (hmade : ∀ d ∈ ds, Made d) :
    RowsObey errorPolicy (finalOrders db policy (handleErrorPolicy errorPolicy ds)) := by
  cases errorPolicy with
  | rejectEverything => trivial
  | rejectFailedRows =>
    intro d hd
    rw [handleErrorPolicy_eq_map (fun h => by cases h)] at hd
    obtain ⟨p, hp, handled, hhandled, rfl⟩ := exists_of_mem_finalOrders hd
    obtain ⟨d, hd, rfl⟩ := List.mem_map.mp hp
    have hd' := hmade d hd
    rcases hhandled with rfl | hdisqualified
    · rw [prepareSave_order]
      show _ ↔ (police .rejectFailedRows d).errors = []
      rw [police]
      split
      · rename_i hne
        refine iff_of_false (fun h => ?_) hne
        rw [Bool.and_comm] at h
        cases h
      · rename_i hnil
        have hnil' := not_not.mp hnil
        have hcritical : d.isCriticalError = false :=
          Bool.eq_false_iff.mpr fun h => hd'.reported h hnil'
        rw [hd'.order, hcritical]
        exact iff_of_true rfl hnil'
    · have hspec := disqualified_prepareSave hdisqualified
      rw [hspec.1]
      exact iff_of_false Bool.false_ne_true hspec.2.1
  | ignoreFailed =>
    intro d hd
    rw [handleErrorPolicy_eq_map (fun h => by cases h)] at hd
    obtain ⟨p, hp, handled, hhandled, rfl⟩ := exists_of_mem_finalOrders hd
    obtain ⟨d, hd, rfl⟩ := List.mem_map.mp hp
    rcases hhandled with rfl | hdisqualified
    · rw [prepareSave_order]
      show (!handled.isCriticalError && handled.order.isSome) = true ↔
        handled.isCriticalError = false
      rw [(hmade handled hd).order, Bool.and_self, Bool.not_eq_true']
    · have hspec := disqualified_prepareSave hdisqualified
      rw [hspec.1, hspec.2.2]
      exact iff_of_false Bool.false_ne_true Bool.false_ne_true.symm

end Rows

/-! ### Everything or nothing -/

/-- With any error no order is created and no stock is changed. -/
def RejectsEverything (db db' : Database) (final : List OrderBulkCreateData) : Prop :=
  (∃ d ∈ final, d.errors ≠ []) → (∀ d ∈ final, d.order = none) ∧ db'.stocks = db.stocks

/-- The orders can be taken from the stocks, each from what the orders before it leave. -/
def TakenInTurn (policy : StockUpdatePolicy) : StockMap → List OrderBulkCreateData → Prop
  | _, [] => True
  | stocks, d :: ds => d.CanBeTaken policy stocks ∧ TakenInTurn policy (d.takenFrom stocks) ds

section Everything

variable {policy : StockUpdatePolicy} {stocks : StockMap} {ds : List OrderBulkCreateData}

theorem handleOrders_cons (d : OrderBulkCreateData) :
    handleOrders policy stocks (d :: ds)
      = ((handleOrders policy (if !(handleOrder policy stocks d).2.isCriticalError
            then (handleOrder policy stocks d).1 else stocks) ds).1,
        (handleOrder policy stocks d).2 ::
          (handleOrders policy (if !(handleOrder policy stocks d).2.isCriticalError
            then (handleOrder policy stocks d).1 else stocks) ds).2) :=
  Tentative.attempts_cons d ds

/-- An order that can be taken is kept, and the others follow. -/
theorem handleOrders_of_canBeTaken {d : OrderBulkCreateData} (h : d.CanBeTaken policy stocks)
    (hcritical : d.isCriticalError = false) :
    handleOrders policy stocks (d :: ds)
      = ((handleOrders policy (d.takenFrom stocks) ds).1,
        d :: (handleOrders policy (d.takenFrom stocks) ds).2) := by
  rw [handleOrders_cons, handleOrder_of_canBeTaken h, hcritical]
  rfl

/-- An order that cannot be taken leaves the stocks. -/
theorem handleOrders_of_not_canBeTaken {d : OrderBulkCreateData} (ds : List OrderBulkCreateData)
    (h : ¬ d.CanBeTaken policy stocks) :
    ∃ d', Disqualified d d' ∧ handleOrders policy stocks (d :: ds)
      = ((handleOrders policy stocks ds).1, d' :: (handleOrders policy stocks ds).2) := by
  have hdisqualified := handleOrder_of_not_canBeTaken h
  refine ⟨_, hdisqualified, ?_⟩
  obtain ⟨errors, -, heq⟩ := hdisqualified
  have hcritical : (handleOrder policy stocks d).2.isCriticalError = true := by rw [heq]
  rw [handleOrders_cons, hcritical]
  rfl

theorem handleOrders_of_takenInTurn (hcritical : ∀ d ∈ ds, d.isCriticalError = false)
    (h : TakenInTurn policy stocks ds) : (handleOrders policy stocks ds).2 = ds := by
  induction ds generalizing stocks with
  | nil => rfl
  | cons d ds ih =>
    rw [List.forall_mem_cons] at hcritical
    rw [handleOrders_of_canBeTaken h.1 hcritical.1, ih hcritical.2 h.2]

/-- If the orders cannot all be taken, some order gets an error. -/
theorem exists_error_of_not_takenInTurn (hcritical : ∀ d ∈ ds, d.isCriticalError = false)
    (h : ¬ TakenInTurn policy stocks ds) :
    ∃ d ∈ (handleOrders policy stocks ds).2, d.errors ≠ [] := by
  induction ds generalizing stocks with
  | nil => exact absurd trivial h
  | cons d ds ih =>
    rw [List.forall_mem_cons] at hcritical
    by_cases hcan : d.CanBeTaken policy stocks
    · obtain ⟨d', hd', herrors⟩ := ih hcritical.2 fun hrest => h ⟨hcan, hrest⟩
      rw [handleOrders_of_canBeTaken hcan hcritical.1]
      exact ⟨d', List.mem_cons_of_mem d hd', herrors⟩
    · obtain ⟨d', ⟨errors, hne, rfl⟩, heq⟩ := handleOrders_of_not_canBeTaken ds hcan
      rw [heq]
      exact ⟨_, List.mem_cons_self, List.append_ne_nil_of_right_ne_nil d.errors hne⟩

/-- The first order that can be taken alone is kept. -/
theorem exists_kept (hcritical : ∀ d ∈ ds, d.isCriticalError = false)
    (h : ∃ d ∈ ds, d.CanBeTaken policy stocks) :
    ∃ d ∈ ds, d ∈ (handleOrders policy stocks ds).2 := by
  induction ds with
  | nil =>
    obtain ⟨d, hd, -⟩ := h
    cases hd
  | cons d ds ih =>
    rw [List.forall_mem_cons] at hcritical
    by_cases hcan : d.CanBeTaken policy stocks
    · rw [handleOrders_of_canBeTaken hcan hcritical.1]
      exact ⟨d, List.mem_cons_self, List.mem_cons_self⟩
    · obtain ⟨d', hd', hcan'⟩ := h
      have hd'ds : d' ∈ ds := (List.mem_cons.mp hd').resolve_left fun heq => hcan (heq ▸ hcan')
      obtain ⟨e, he, hmem⟩ := ih hcritical.2 ⟨d', hd'ds, hcan'⟩
      obtain ⟨d'', -, heq⟩ := handleOrders_of_not_canBeTaken ds hcan
      rw [heq]
      exact ⟨e, List.mem_cons_of_mem d he, List.mem_cons_of_mem d'' hmem⟩

/-- If none can be taken alone, the stocks stay and all orders are disqualified. -/
theorem handleOrders_of_forall_not_canBeTaken (h : ∀ d ∈ ds, ¬ d.CanBeTaken policy stocks) :
    (handleOrders policy stocks ds).1 = stocks ∧
      ∀ d ∈ (handleOrders policy stocks ds).2, d.isCriticalError = true := by
  induction ds with
  | nil => exact ⟨rfl, fun d hd => (List.not_mem_nil hd).elim⟩
  | cons d ds ih =>
    rw [List.forall_mem_cons] at h
    obtain ⟨d', ⟨errors, -, rfl⟩, heq⟩ := handleOrders_of_not_canBeTaken ds h.1
    rw [heq]
    exact ⟨(ih h.2).1, List.forall_mem_cons.mpr ⟨rfl, (ih h.2).2⟩⟩

/-- Orders that are all there are handled on all the stocks. -/
theorem handleStocks_of_present (h : ∀ d ∈ ds, d.order.isSome = true) :
    handleStocks stocks policy ds
      = (restrict (Asked ds) (handleOrders policy stocks ds).1,
        (handleOrders policy stocks ds).2) := by
  rw [handleStocks_eq, queryStocks_eq]
  exact handleOrders_restrict fun d hd line hline key hkey => asked_of_mem hd (h d hd) hline hkey

/-- Stocks that have not changed are saved as they are. -/
theorem updateStocks_restrict (asked : ℕ × ℕ → Prop) [DecidablePred asked] (stocks : StockMap) :
    updateStocks stocks (restrict asked stocks) = stocks := by
  funext key
  rw [updateStocks, restrict]
  by_cases h : asked key
  · rw [if_pos h]
    cases stocks key <;> rfl
  · rw [if_neg h]

theorem updateStocks_none (stocks : StockMap) : updateStocks stocks (fun _ => none) = stocks := by
  funext key
  rfl

/-- Where no stock was asked for there is none after the orders either. -/
theorem handleOrders_none (ds : List OrderBulkCreateData) :
    (handleOrders policy (fun _ => none) ds).1 = fun _ => none := by
  funext key
  rw [fst_handleOrders, foldl_takenFrom]
  rfl

/-- No stocks are asked for when no order is there. -/
theorem queryStocks_of_none (h : ∀ d ∈ ds, d.order = none) :
    queryStocks stocks ds = fun _ => none := by
  have hnil : ds.filter (fun d => d.order.isSome) = [] := by
    refine List.filter_eq_nil_iff.mpr fun d hd => ?_
    rw [h d hd]
    exact Bool.false_ne_true
  funext key
  rw [queryStocks, hnil]
  exact if_neg fun hkey => List.not_mem_nil hkey.1

end Everything

section Rejected

variable {db : Database} {ds : List OrderBulkCreateData}

/-- When nothing is wrong before the stocks are handled: then it is the stocks that decide. -/
def AllOrNoneTaken (db : Database) (policy : StockUpdatePolicy) (ds : List OrderBulkCreateData) :
    Prop :=
  policy = .skip ∨ (∃ d ∈ ds, d.errors ≠ []) ∨ TakenInTurn policy db.stocks ds ∨
    ∀ d ∈ ds, ¬ d.CanBeTaken policy db.stocks

theorem finalOrders_skip : finalOrders db .skip ds = ds.map prepareSave := rfl

theorem finalDatabase_stocks_skip : (finalDatabase db .skip ds).stocks = db.stocks :=
  updateStocks_none db.stocks

/-- With `REJECT_EVERYTHING` an error before the stocks are handled leaves no order. -/
theorem handleErrorPolicy_rejectEverything (h : ∃ d ∈ ds, d.errors ≠ []) :
    ∀ d ∈ handleErrorPolicy .rejectEverything ds, d.order = none := by
  intro d hd
  rw [handleErrorPolicy_of_exists h] at hd
  obtain ⟨p, -, rfl⟩ := List.mem_map.mp hd
  rfl

/-- Where no order is there when the stocks are handled, none is created and the stocks stay. -/
theorem final_of_none {policy : StockUpdatePolicy} (h : ∀ d ∈ ds, d.order = none) :
    (∀ d ∈ finalOrders db policy ds, d.order = none) ∧
      (finalDatabase db policy ds).stocks = db.stocks := by
  constructor
  · intro d hd
    obtain ⟨p, hp, handled, hhandled, rfl⟩ := exists_of_mem_finalOrders hd
    rcases hhandled with rfl | hdisqualified
    · rw [prepareSave]
      dsimp only
      rw [h handled hp]
      exact ite_self none
    · exact (disqualified_prepareSave hdisqualified).1
  · rw [finalDatabase]
    dsimp only
    rw [handleStocksUnlessSkip]
    split
    · exact updateStocks_none db.stocks
    · rw [handleStocks_eq, queryStocks_of_none h, handleOrders_none]
      exact updateStocks_none db.stocks

/-- **Everything or nothing**: with `REJECT_EVERYTHING` an error leaves nothing behind exactly when it is
found before the stocks are handled, or the stocks give every order what it asks for, or none. -/
theorem rejectsEverything_iff {policy : StockUpdatePolicy} (hmade : ∀ d ∈ ds, Made d) :
    RejectsEverything db (finalDatabase db policy (handleErrorPolicy .rejectEverything ds))
        (finalOrders db policy (handleErrorPolicy .rejectEverything ds)) ↔
      AllOrNoneTaken db policy ds := by
  by_cases herrors : ∃ d ∈ ds, d.errors ≠ []
  · refine iff_of_true (fun _ => ?_) (Or.inr (Or.inl herrors))
    exact final_of_none (handleErrorPolicy_rejectEverything herrors)
  · have hnil : ∀ d ∈ ds, d.errors = [] := fun d hd => by
      by_contra hne
      exact herrors ⟨d, hd, hne⟩
    have hcritical : ∀ d ∈ ds, d.isCriticalError = false := fun d hd =>
      Bool.eq_false_iff.mpr fun h => (hmade d hd).reported h (hnil d hd)
    have hpresent : ∀ d ∈ ds, d.order.isSome = true := fun d hd => by
      rw [(hmade d hd).order, hcritical d hd]
      rfl
    rw [handleErrorPolicy_of_forall hnil, AllOrNoneTaken, or_iff_right herrors]
    by_cases hskip : policy = .skip
    · subst hskip
      refine iff_of_true ?_ (Or.inl rfl)
      rintro ⟨d, hd, hne⟩
      obtain ⟨p, hp, rfl⟩ := List.mem_map.mp hd
      exact absurd (hnil p hp) hne
    · have hfinal : finalOrders db policy ds =
          (handleOrders policy db.stocks ds).2.map prepareSave := by
        rw [finalOrders, handleStocksUnlessSkip, if_neg hskip, handleStocks_of_present hpresent]
      have hstocks : (finalDatabase db policy ds).stocks =
          updateStocks db.stocks (restrict (Asked ds) (handleOrders policy db.stocks ds).1) := by
        rw [finalDatabase]
        dsimp only
        rw [handleStocksUnlessSkip, if_neg hskip, handleStocks_of_present hpresent]
      rw [or_iff_right hskip]
      constructor
      · intro h
        by_contra hmixed
        rw [not_or] at hmixed
        obtain ⟨d, hd, hne⟩ := exists_error_of_not_takenInTurn hcritical hmixed.1
        have halone : ∃ d ∈ ds, d.CanBeTaken policy db.stocks := by
          by_contra hnone
          exact hmixed.2 fun d hd hcan => hnone ⟨d, hd, hcan⟩
        obtain ⟨kept, hkept, hmem⟩ := exists_kept hcritical halone
        have hreject := (h ⟨prepareSave d, hfinal ▸ List.mem_map_of_mem hd, hne⟩).1
          (prepareSave kept) (hfinal ▸ List.mem_map_of_mem hmem)
        have hsome := prepareSave_order kept
        rw [hreject, hcritical kept hkept, hpresent kept hkept] at hsome
        cases hsome
      · rintro (hall | hnone)
        · rintro ⟨d, hd, hne⟩
          rw [hfinal, handleOrders_of_takenInTurn hcritical hall] at hd
          obtain ⟨p, hp, rfl⟩ := List.mem_map.mp hd
          exact absurd (hnil p hp) hne
        · obtain ⟨hsame, hall⟩ := handleOrders_of_forall_not_canBeTaken hnone
          refine fun _ => ⟨fun d hd => ?_, ?_⟩
          · rw [hfinal] at hd
            obtain ⟨p, hp, rfl⟩ := List.mem_map.mp hd
            rw [prepareSave, hall p hp]
            rfl
          · rw [hstocks, hsame, updateStocks_restrict]

end Rejected

/-! ### What the stocks lose -/

/-- The quantity of each stock falls by what is fulfilled of the orders that are created, with `SKIP`
not at all. -/
def StocksFall (policy : StockUpdatePolicy) (db db' : Database) (final : List OrderBulkCreateData) :
    Prop :=
  db'.stocks = fun key => (db.stocks key).map fun stock =>
    { stock with
      quantity := stock.quantity - if policy = .skip then 0
        else sumIf (fun d => d.order.isSome) (fun d => d.fulfilledAt key) final }

/-- The order has been rejected, but handling the stocks has not disqualified it. -/
def OrderBulkCreateData.passesRejected (d : OrderBulkCreateData) : Bool :=
  !d.order.isSome && !d.isCriticalError

/-- Of the orders that are rejected and pass the stocks nonetheless, nothing is fulfilled in total from
any stock. -/
def NothingFromRejected (db : Database) (policy : StockUpdatePolicy)
    (ds : List OrderBulkCreateData) : Prop :=
  policy = .skip ∨ ∀ key, Asked ds key → db.stocks key ≠ none →
    sumIf OrderBulkCreateData.passesRejected (fun d => d.fulfilledAt key)
      (handleStocks db.stocks policy ds).2 = 0

section Losses

variable {db : Database} {policy : StockUpdatePolicy} {ds : List OrderBulkCreateData}
  {d : OrderBulkCreateData} {key : ℕ × ℕ}

theorem fulfilled_of_forall_ne {f : ℕ → ℤ} {lines : List OrderBulkOrderLine} (index : ℕ)
    (h : ∀ line ∈ lines, line.key ≠ some key) : fulfilled f key lines index = 0 := by
  induction lines generalizing index with
  | nil => rfl
  | cons line lines ih =>
    rw [List.forall_mem_cons] at h
    rw [fulfilled, if_neg h.1, ih (index + 1) h.2, zero_add]

/-- Noting on the lines what is fulfilled of them does not change what that is. -/
theorem fulfilled_mapIdx (f : ℕ → ℤ) (g : ℕ → OrderBulkOrderLine → ℤ)
    (lines : List OrderBulkOrderLine) (index : ℕ) :
    fulfilled f key (lines.mapIdx fun i line => { line with quantityFulfilled := g i line }) index =
      fulfilled f key lines index := by
  induction lines generalizing index g with
  | nil => rfl
  | cons line lines ih =>
    rw [List.mapIdx_cons, fulfilled, fulfilled]
    exact congrArg _ (ih (fun i => g (i + 1)) (index + 1))

theorem ordered_mapIdx (g : ℕ → OrderBulkOrderLine → ℤ) (lines : List OrderBulkOrderLine) :
    ordered key (lines.mapIdx fun i line => { line with quantityFulfilled := g i line }) =
      ordered key lines := by
  induction lines generalizing g with
  | nil => rfl
  | cons line lines ih =>
    rw [List.mapIdx_cons, ordered_cons, ordered_cons]
    exact congrArg _ (ih fun i => g (i + 1))

theorem fulfilledAt_prepareSave (d : OrderBulkCreateData) (key : ℕ × ℕ) :
    (prepareSave d).fulfilledAt key = d.fulfilledAt key :=
  fulfilled_mapIdx d.quantityFulfilled (fun i _ => d.quantityFulfilled i) d.lines 0

theorem orderedAt_prepareSave (d : OrderBulkCreateData) (key : ℕ × ℕ) :
    (prepareSave d).orderedAt key = d.orderedAt key :=
  ordered_mapIdx (fun i _ => d.quantityFulfilled i) d.lines

/-- A sum over the orders that are created. -/
theorem sumIf_map_prepareSave (f : OrderBulkCreateData → ℤ)
    (hf : ∀ d, f (prepareSave d) = f d) (handled : List OrderBulkCreateData) :
    sumIf (fun d => d.order.isSome) f (handled.map prepareSave) =
      sumIf (fun d => !d.isCriticalError && d.order.isSome) f handled := by
  rw [sumIf_map]
  exact sumIf_congr (fun d _ => prepareSave_order d) fun d _ _ => hf d

/-- What the kept orders are: those that are created, and those that pass though rejected. -/
theorem sumIf_kept (f : OrderBulkCreateData → ℤ) (handled : List OrderBulkCreateData) :
    sumIf (fun d => !d.isCriticalError) f handled =
      sumIf (fun d => !d.isCriticalError && d.order.isSome) f handled +
        sumIf OrderBulkCreateData.passesRejected f handled := by
  rw [← sumIf_or]
  · refine sumIf_congr (fun d _ => ?_) fun _ _ _ => rfl
    rw [OrderBulkCreateData.passesRejected]
    cases d.isCriticalError <;> cases d.order.isSome <;> rfl
  · intro d _ hcreated hpasses
    rw [OrderBulkCreateData.passesRejected] at hpasses
    revert hcreated hpasses
    cases d.isCriticalError <;> cases d.order.isSome <;> decide

/-- Of a stock that was not asked for nothing is fulfilled to an order that is there. -/
theorem fulfilledAt_of_not_asked (hkey : ¬ Asked ds key)
    (hd : d ∈ (handleStocks db.stocks policy ds).2) (horder : d.order.isSome = true) :
    d.fulfilledAt key = 0 := by
  rw [handleStocks_eq] at hd
  obtain ⟨p, hp, hhandled⟩ := exists_of_mem_handleOrders hd
  have hsame : d.order = p.order ∧ d.lines = p.lines := by
    rcases hhandled with rfl | ⟨errors, -, rfl⟩ <;> exact ⟨rfl, rfl⟩
  refine fulfilled_of_forall_ne 0 fun line hline hline' => hkey ?_
  rw [hsame.1] at horder
  rw [hsame.2] at hline
  exact asked_of_mem hp horder hline hline'

/-- A stock after the bulk update. -/
theorem finalDatabase_stocks_apply (hskip : policy ≠ .skip) (key : ℕ × ℕ) :
    (finalDatabase db policy ds).stocks key = (db.stocks key).map fun stock =>
      { stock with
        quantity := stock.quantity - if Asked ds key then
          sumIf (fun d => !d.isCriticalError) (fun d => d.fulfilledAt key)
            (handleStocks db.stocks policy ds).2 else 0 } := by
  rw [finalDatabase]
  dsimp only
  rw [handleStocksUnlessSkip, if_neg hskip, updateStocks, handleStocks_eq, fst_handleOrders,
    foldl_takenFrom, queryStocks_eq, restrict]
  by_cases hasked : Asked ds key
  · rw [if_pos hasked, if_pos hasked]
    cases db.stocks key <;> rfl
  · rw [if_neg hasked, if_neg hasked]
    cases db.stocks key <;> simp

/-- **What the stocks lose** is what was fulfilled of the orders that are created, exactly when nothing
is fulfilled of orders that are rejected and pass the stocks nonetheless. -/
theorem stocksFall_iff :
    StocksFall policy db (finalDatabase db policy ds) (finalOrders db policy ds) ↔
      NothingFromRejected db policy ds := by
  by_cases hskip : policy = .skip
  · subst hskip
    refine iff_of_true ?_ (Or.inl rfl)
    rw [StocksFall, finalDatabase_stocks_skip]
    funext key
    cases db.stocks key with
    | none => rfl
    | some stock => simp
  · have hfinal : finalOrders db policy ds = (handleStocks db.stocks policy ds).2.map prepareSave := by
      rw [finalOrders, handleStocksUnlessSkip, if_neg hskip]
    rw [StocksFall, NothingFromRejected, or_iff_right hskip, funext_iff]
    refine forall_congr' fun key => ?_
    rw [finalDatabase_stocks_apply hskip, hfinal,
      sumIf_map_prepareSave _ (fun d => fulfilledAt_prepareSave d key), if_neg hskip]
    cases hstock : db.stocks key with
    | none => simp
    | some stock =>
      by_cases hasked : Asked ds key
      · rw [if_pos hasked, sumIf_kept]
        simp [hasked]
      · have hzero : sumIf (fun d => !d.isCriticalError && d.order.isSome)
            (fun d => d.fulfilledAt key) (handleStocks db.stocks policy ds).2 = 0 :=
          sumIf_eq_zero fun d hd hcreated =>
            fulfilledAt_of_not_asked hasked hd ((Bool.and_eq_true _ _).mp hcreated).2
        simp [hasked, hzero]

end Losses

/-! ### What the orders take -/

/-- With `UPDATE` every line of an order that is created has a stock, and the order takes no more from
it than the orders created before have left available. With `SKIP` nothing is taken. -/
def TakesWhatIsLeft (policy : StockUpdatePolicy) (db : Database)
    (final : List OrderBulkCreateData) : Prop :=
  policy = .update → ∀ before d after, final = before ++ d :: after → d.order.isSome = true →
    ∀ line ∈ d.lines, ∃ key stock, line.key = some key ∧ db.stocks key = some stock ∧
      d.orderedAt key ≤
        stock.available - sumIf (fun d => d.order.isSome) (fun d => d.orderedAt key) before

section Taking

variable {db : Database} {policy : StockUpdatePolicy} {stocks : StockMap}
  {ds before after : List OrderBulkCreateData} {d : OrderBulkCreateData}

/-- The orders that are kept of some. -/
def kept (ds : List OrderBulkCreateData) : List OrderBulkCreateData :=
  ds.filter fun d => !d.isCriticalError

/-- An order that is kept could be taken from what the kept ones before it left. -/
theorem canBeTaken_of_kept (h : (handleOrders policy stocks ds).2 = before ++ d :: after)
    (hkept : d.isCriticalError = false) :
    d.CanBeTaken policy ((kept before).foldl (fun stocks d => d.takenFrom stocks) stocks) := by
  induction before generalizing ds stocks with
  | nil =>
    cases ds with
    | nil => cases h
    | cons p ds =>
      rw [handleOrders_cons] at h
      obtain ⟨rfl, -⟩ := List.cons.inj h
      obtain ⟨hcan, -, heq⟩ := handleOrder_of_kept hkept
      rw [heq]
      exact hcan
  | cons b before ih =>
    cases ds with
    | nil => cases h
    | cons p ds =>
      rw [handleOrders_cons] at h
      obtain ⟨rfl, htail⟩ := List.cons.inj h
      have hcan := ih htail
      cases hcritical : (handleOrder policy stocks p).2.isCriticalError with
      | true =>
        rw [hcritical] at hcan
        rw [kept, List.filter_cons_of_neg (by rw [hcritical]; exact Bool.false_ne_true)]
        exact hcan
      | false =>
        rw [hcritical] at hcan
        rw [kept, List.filter_cons_of_pos (by rw [hcritical]; rfl), List.foldl_cons]
        rw [(handleOrder_of_kept hcritical).2.2] at hcan ⊢
        exact hcan

/-- Orders take something or nothing, so more of them take more. -/
theorem sumIf_created_le (key : ℕ × ℕ) (handled : List OrderBulkCreateData) :
    sumIf (fun d => !d.isCriticalError && d.order.isSome) (fun d => d.orderedAt key) handled ≤
      ((kept handled).map fun d => d.orderedAt key).sum := by
  have hle : sumIf (fun d => !d.isCriticalError && d.order.isSome) (fun d => d.orderedAt key)
      handled ≤ sumIf (fun d => !d.isCriticalError) (fun d => d.orderedAt key) handled :=
    sumIf_le_sumIf (fun d _ h => ((Bool.and_eq_true _ _).mp h).1) fun d _ => orderedAt_nonneg d key
  exact hle

/-- **No order takes more than is left.** -/
theorem takesWhatIsLeft_finalOrders :
    TakesWhatIsLeft policy db (finalOrders db policy ds) := by
  rintro rfl before d after hfinal horder line hline
  have hskip : StockUpdatePolicy.update ≠ .skip := by decide
  rw [finalOrders, handleStocksUnlessSkip, if_neg hskip] at hfinal
  obtain ⟨handledBefore, rest, hsplit, rfl, hrest⟩ := List.map_eq_append_iff.mp hfinal
  obtain ⟨handled, handledAfter, rfl, rfl, rfl⟩ := List.map_eq_cons_iff.mp hrest
  rw [prepareSave_order] at horder
  obtain ⟨hcritical, -⟩ := (Bool.and_eq_true _ _).mp horder
  rw [handleStocks_eq] at hsplit
  have hcan := canBeTaken_of_kept hsplit ((Bool.not_eq_true' _).mp hcritical)
  obtain ⟨line', hline', hkey'⟩ : ∃ line' ∈ handled.lines, line.key = line'.key := by
    obtain ⟨index, hindex, rfl⟩ := List.mem_mapIdx.mp hline
    exact ⟨_, List.getElem_mem hindex, rfl⟩
  obtain ⟨key, left, hkey, hleft⟩ := hcan.stocked line' hline'
  have henough := hcan.enough (by decide) line' hline' key left hkey hleft
  rw [foldl_takenFrom, queryStocks_eq, restrict] at hleft
  obtain ⟨stock, hstock, rfl⟩ := Option.map_eq_some_iff.mp hleft
  refine ⟨key, stock, hkey'.trans hkey, ?_, ?_⟩
  · split at hstock
    · exact hstock
    · cases hstock
  · have hle := sumIf_created_le key handledBefore
    rw [orderedAt_prepareSave, sumIf_map_prepareSave _ fun d => orderedAt_prepareSave d key]
    simp only [Stock.available] at henough ⊢
    show ordered key handled.lines ≤ _
    omega

end Taking

/-! ### Orders apart from each other -/

/-- What becomes of the other orders is what would become of them without an order that is rejected. -/
def Isolated (db : Database) (inputs : List OrderInput) (errorPolicy : ErrorPolicy)
    (policy : StockUpdatePolicy) (final : List OrderBulkCreateData) : Prop :=
  errorPolicy ≠ .rejectEverything → ∀ j d, final[j]? = some d → d.order = none →
    ∃ db', performMutation db (inputs.eraseIdx j) errorPolicy policy = .ok (db', final.eraseIdx j)

/-- An order that is rejected takes nothing from the stocks while they are handled, because it is
disqualified then or has no lines, and the stocks of the other orders are asked for with it as without
it. -/
def RejectedApart (db : Database) (policy : StockUpdatePolicy) (ds : List OrderBulkCreateData) :
    Prop :=
  policy = .skip ∨ ∀ j p d, ds[j]? = some p → (handleStocks db.stocks policy ds).2[j]? = some d →
    (prepareSave d).order = none →
      (d.isCriticalError = true ∨ p.lines = []) ∧
        ∀ q ∈ ds.eraseIdx j, ∀ line ∈ q.lines, ∀ key, line.key = some key →
          (Asked ds key ↔ Asked (ds.eraseIdx j) key)

section Apart

variable {db db' : Database} {inputs : List OrderInput} {errorPolicy : ErrorPolicy}
  {policy : StockUpdatePolicy} {stocks stocks' : StockMap} {ds final : List OrderBulkCreateData}
  {d : OrderBulkCreateData} {j : ℕ}

theorem createOrders_eraseIdx {orders : List SavedOrder} (j : ℕ)
    (h : createOrders orders inputs = .ok ds) :
    createOrders orders (inputs.eraseIdx j) = .ok (ds.eraseIdx j) := by
  induction inputs generalizing ds j with
  | nil =>
    obtain rfl := Except.ok.inj h
    rfl
  | cons input inputs ih =>
    obtain ⟨d, ds', hd, hds', rfl⟩ := createOrders_cons_eq_ok h
    cases j with
    | zero => exact hds'
    | succ j =>
      rw [List.eraseIdx_cons_succ, List.eraseIdx_cons_succ, createOrders, hd, ih j hds']

/-- Only the stocks of the lines matter. -/
theorem snd_handleOrders_congr
    (h : ∀ d ∈ ds, ∀ line ∈ d.lines, ∀ key, line.key = some key → stocks key = stocks' key) :
    (handleOrders policy stocks ds).2 = (handleOrders policy stocks' ds).2 := by
  have hself : ∀ stocks : StockMap, (handleOrders policy
      (restrict (fun key => ∃ d ∈ ds, ∃ line ∈ d.lines, line.key = some key) stocks) ds).2 =
        (handleOrders policy stocks ds).2 := by
    intro stocks
    rw [handleOrders_restrict fun d hd line hline key hkey => ⟨d, hd, line, hline, hkey⟩]
  have hsame : restrict (fun key => ∃ d ∈ ds, ∃ line ∈ d.lines, line.key = some key) stocks =
      restrict (fun key => ∃ d ∈ ds, ∃ line ∈ d.lines, line.key = some key) stocks' := by
    funext key
    rw [restrict, restrict]
    split
    · rename_i hkey
      obtain ⟨d, hd, line, hline, hkey⟩ := hkey
      exact h d hd line hline key hkey
    · rfl
  rw [← hself stocks, hsame, hself stocks']

/-- Handling the stocks without an order that takes nothing. -/
theorem snd_handleStocks_eraseIdx {p : OrderBulkCreateData} (hp : ds[j]? = some p)
    (hd : (handleStocks stocks policy ds).2[j]? = some d)
    (hidle : d.isCriticalError = true ∨ p.lines = [])
    (hasked : ∀ q ∈ ds.eraseIdx j, ∀ line ∈ q.lines, ∀ key, line.key = some key →
      (Asked ds key ↔ Asked (ds.eraseIdx j) key)) :
    (handleStocks stocks policy (ds.eraseIdx j)).2 =
      (handleStocks stocks policy ds).2.eraseIdx j := by
  have herase : (handleOrders policy (queryStocks stocks ds) (ds.eraseIdx j)).2 =
      (handleOrders policy (queryStocks stocks ds) ds).2.eraseIdx j := by
    refine congrArg Prod.snd (Tentative.attempts_eraseIdx fun a ha b hb => ?_)
    obtain rfl : p = a := Option.some.inj (hp.symm.trans ha)
    obtain rfl : d = b := Option.some.inj (hd.symm.trans hb)
    rcases hidle with hcritical | hnil
    · exact Or.inl (by rw [hcritical]; rfl)
    · refine Or.inr fun t => ?_
      rw [handleOrder, hnil]
      rfl
  rw [handleStocks_eq, handleStocks_eq, ← herase]
  refine snd_handleOrders_congr fun q hq line hline key hkey => ?_
  rw [queryStocks_eq, queryStocks_eq, restrict, restrict]
  exact if_congr (hasked q hq line hline key hkey).symm rfl rfl

/-- What is saved does not contain an order that is rejected. -/
theorem filterMap_saved_eraseIdx (hd : final[j]? = some d) (horder : d.order = none) :
    (final.eraseIdx j).filterMap OrderBulkCreateData.saved =
      final.filterMap OrderBulkCreateData.saved := by
  induction final generalizing j with
  | nil => rfl
  | cons e final ih =>
    cases j with
    | zero =>
      obtain rfl : e = d := Option.some.inj hd
      have hsaved : e.saved = none := by rw [OrderBulkCreateData.saved, horder, Option.map_none]
      rw [List.eraseIdx_cons_zero, List.filterMap_cons_none hsaved]
    | succ j =>
      rw [List.eraseIdx_cons_succ, List.filterMap_cons, List.filterMap_cons, ih hd]

/-- **Orders are apart** where those that are rejected take nothing. -/
theorem isolated_of_rejectedApart (hlength : inputs.length ≤ maxOrders)
    (hds : createOrders db.orders inputs = .ok ds)
    (hsavable : Savable db (finalOrders db policy (handleErrorPolicy errorPolicy ds)))
    (hapart : RejectedApart db policy (handleErrorPolicy errorPolicy ds)) :
    Isolated db inputs errorPolicy policy
      (finalOrders db policy (handleErrorPolicy errorPolicy ds)) := by
  intro hpolicy j d hd horder
  have hfinal : finalOrders db policy (handleErrorPolicy errorPolicy (ds.eraseIdx j)) =
      (finalOrders db policy (handleErrorPolicy errorPolicy ds)).eraseIdx j := by
    have hpolice : handleErrorPolicy errorPolicy (ds.eraseIdx j) =
        (handleErrorPolicy errorPolicy ds).eraseIdx j := by
      rw [handleErrorPolicy_eq_map hpolicy, handleErrorPolicy_eq_map hpolicy, List.eraseIdx_map]
    rw [hpolice, finalOrders, finalOrders, List.eraseIdx_map]
    refine congrArg _ ?_
    rw [handleStocksUnlessSkip, handleStocksUnlessSkip]
    split
    · rfl
    · rename_i hskip
      rw [finalOrders, handleStocksUnlessSkip, if_neg hskip, List.getElem?_map,
        Option.map_eq_some_iff] at hd
      obtain ⟨handled, hhandled, rfl⟩ := hd
      have hj : j < (handleErrorPolicy errorPolicy ds).length := by
        have hlt := (List.getElem?_eq_some_iff.mp hhandled).1
        rwa [handleStocks_eq, handleOrders, Tentative.length_attempts] at hlt
      obtain ⟨hidle, hasked⟩ := (hapart.resolve_left hskip) j _ handled
        (List.getElem?_eq_getElem hj) hhandled horder
      exact snd_handleStocks_eraseIdx (List.getElem?_eq_getElem hj) hhandled hidle hasked
  refine ⟨_, performMutation_eq_ok_iff.mpr ⟨?_, ds.eraseIdx j, createOrders_eraseIdx j hds, ?_, rfl,
    hfinal.symm⟩⟩
  · exact (List.length_eraseIdx_le inputs j).trans hlength
  · rw [hfinal, Savable, filterMap_saved_eraseIdx hd horder]
    exact hsavable

end Apart

/-! ### The import -/

/-- What the policies of an import promise. -/
structure ObeysPolicies (db db' : Database) (inputs : List OrderInput) (errorPolicy : ErrorPolicy)
    (policy : StockUpdatePolicy) (final : List OrderBulkCreateData) : Prop where
  everything : errorPolicy = .rejectEverything → RejectsEverything db db' final
  rows : RowsObey errorPolicy final
  stocks : StocksFall policy db db' final
  taking : TakesWhatIsLeft policy db final
  isolated : Isolated db inputs errorPolicy policy final

section Import

variable {db db' : Database} {inputs : List OrderInput} {errorPolicy : ErrorPolicy}
  {policy : StockUpdatePolicy} {ds final : List OrderBulkCreateData}

/-- With `REJECT_EVERYTHING` there is no order that is rejected and passes the stocks with lines. -/
theorem nothingFromRejected_rejectEverything (hmade : ∀ d ∈ ds, Made d) :
    NothingFromRejected db policy (handleErrorPolicy .rejectEverything ds) := by
  refine Or.inr fun key hasked _ => ?_
  by_cases herrors : ∃ d ∈ ds, d.errors ≠ []
  · -- then no order is there, and no stock is asked for
    have hnone := handleErrorPolicy_rejectEverything herrors
    have hnil : (handleErrorPolicy .rejectEverything ds).filter (fun d => d.order.isSome) = [] := by
      refine List.filter_eq_nil_iff.mpr fun d hd => ?_
      rw [hnone d hd]
      exact Bool.false_ne_true
    rw [Asked, hnil] at hasked
    exact absurd hasked.1 List.not_mem_nil
  · have hnil : ∀ d ∈ ds, d.errors = [] := fun d hd => by
      by_contra hne
      exact herrors ⟨d, hd, hne⟩
    rw [handleErrorPolicy_of_forall hnil]
    refine sumIf_eq_zero fun d hd hpasses => ?_
    rw [OrderBulkCreateData.passesRejected, Bool.and_eq_true] at hpasses
    rw [handleStocks_eq] at hd
    obtain ⟨p, hp, hhandled⟩ := exists_of_mem_handleOrders hd
    have horder : d.order = p.order := by
      rcases hhandled with rfl | ⟨errors, -, rfl⟩ <;> rfl
    have hcritical : p.isCriticalError = false :=
      Bool.eq_false_iff.mpr fun h => (hmade p hp).reported h (hnil p hp)
    rw [horder, (hmade p hp).order, hcritical] at hpasses
    exact absurd hpasses.1 Bool.false_ne_true

/-- Where every order that is rejected takes nothing, the stocks lose nothing to it. -/
theorem nothingFromRejected_of_rejectedApart (h : RejectedApart db policy ds) :
    NothingFromRejected db policy ds := by
  refine h.imp_right fun hapart key _ _ => ?_
  refine sumIf_eq_zero fun d hd hpasses => ?_
  rw [OrderBulkCreateData.passesRejected, Bool.and_eq_true, Bool.not_eq_true',
    Bool.not_eq_true', Option.isSome_eq_false_iff, Option.isNone_iff_eq_none] at hpasses
  obtain ⟨j, hj⟩ := List.mem_iff_getElem?.mp hd
  have hlt := (List.getElem?_eq_some_iff.mp hj).1
  rw [handleStocks_eq, handleOrders, Tentative.length_attempts] at hlt
  have horder : (prepareSave d).order = none := by
    rw [prepareSave]
    dsimp only
    rw [hpasses.1]
    exact ite_self none
  have hidle := (hapart j _ d (List.getElem?_eq_getElem hlt) hj horder).1
  have hlines : d.lines = [] := by
    rcases hidle with hcritical | hnil
    · rw [hpasses.2] at hcritical
      cases hcritical
    · obtain ⟨t, ht⟩ := Tentative.exists_attempt_of_getElem (List.getElem?_eq_getElem hlt) hj
      rw [← ht, handleOrder, hnil]
      exact hnil
  rw [OrderBulkCreateData.fulfilledAt, hlines]
  rfl

end Import

/-- A line for some items of the one variant in the one warehouse. -/
def lineInput (quantity : ℤ) : OrderLineInput where
  variant := .ok 1
  productName := none
  warehouse := .ok 1
  taxClass := .ok 1
  quantity := quantity
  totalPrice := ⟨10, 10⟩
  undiscountedTotalPrice := ⟨10, 10⟩
  createdAt := ⟨true, false⟩
  metadata := []

/-- An order of one line in which nothing is wrong. -/
def orderInput (quantity : ℤ) : OrderInput where
  createdAt := ⟨true, false⟩
  urlAndWeight := []
  externalReference := none
  currencyAndVoucher := ⟨[], false, fun h => by cases h⟩
  related := ⟨[], false, fun h => by cases h⟩
  lines := [lineInput quantity]
  fulfillments := []
  amounts := .ok ⟨[], false, fun h => by cases h⟩
  details := .ok []

/-- Five items in stock. -/
def fiveInStock : Database where
  stocks := fun key => if key = (1, 1) then some ⟨5, 0⟩ else none
  orders := []

/-- What is made of `orderInput`. -/
def madeOrder (quantity : ℕ) : OrderBulkCreateData where
  order := some ⟨none⟩
  errors := []
  lines := [⟨some 1, 1, quantity, 0⟩]
  fulfillments := []
  isCriticalError := false

theorem canBeTaken_madeOrder {stocks : StockMap} {quantity : ℕ} {stock : Stock}
    (hstock : stocks (1, 1) = some stock) (hle : quantity ≤ stock.available) :
    (madeOrder quantity).CanBeTaken .update stocks := by
  have hfilled : (madeOrder quantity).quantityFulfilled 0 = 0 := rfl
  refine ⟨⟨?_, trivial⟩, fun line hline => ?_, fun _ line hline key stock' hkey hstock' => ?_⟩
  · rw [hfilled]
    exact Int.natCast_nonneg quantity
  · obtain rfl := List.mem_singleton.mp hline
    exact ⟨(1, 1), stock, rfl, hstock⟩
  · obtain rfl := List.mem_singleton.mp hline
    obtain rfl : (1, 1) = key := Option.some.inj hkey
    obtain rfl : stock = stock' := Option.some.inj (hstock.symm.trans hstock')
    show (quantity : ℤ) + 0 ≤ stock.available
    omega

theorem takenInTurn_threeAndTwo :
    TakenInTurn .update fiveInStock.stocks [madeOrder 3, madeOrder 2] := by
  have hleft : (madeOrder 3).takenFrom fiveInStock.stocks (1, 1) = some ⟨5, 3⟩ := by decide
  have hfull : fiveInStock.stocks (1, 1) = some ⟨5, 0⟩ := by decide
  exact ⟨canBeTaken_madeOrder hfull (by decide), canBeTaken_madeOrder hleft (by decide), trivial⟩

end BulkCreate

end Aixinwu
