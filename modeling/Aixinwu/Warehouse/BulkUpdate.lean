import Aixinwu.Core.Nodes
import Aixinwu.Order.BulkCreate
import Aixinwu.Warehouse.Models

/-!
# Setting many stocks

`StockBulkUpdate` sets the quantities of stocks, each row names one by its variant and its warehouse.
The rows are checked one by one, then all together are looked up: what the first row is named by decides
whether all are looked up by ids or by external references, the stocks are read in one query, and put
under the texts of both, joined by an underscore. A row is what it finds under its own two texts. The
error policy is applied at the end.

Three things go wrong on the way. The first row is asked for what it is named by even if it was
rejected. An id that denotes nothing fails the query for all rows. And two pairs of references may be
joined to the same text, so that a row finds the stock of another.

## Main definitions

* `cleanStock`, `getSelectors`, `getStocks`, `updateLoop`, `performMutation`
* `validStock` — the stock that a valid row names
* `HonoursPolicy` — what is promised
* `Applicable` — when the promise is kept

## Main results

* `performMutation_eq` — what is answered, in terms of the stocks that the rows find
* `honoursPolicy_iff`
-/

namespace Aixinwu

namespace StockBulkUpdate

open BulkCreate (ErrorPolicy)
open Nodes (Texts)
open Stocks (Stock)

/-! ### Checking the rows -/

/-- A field of an input, which may be missing, and may be null. -/
abbrev Field : Type := Option (Option String)

/-- `stock_input.get(…)`, if it is true. -/
def truthy (field : Field) : Option String := field.join.filter (· ≠ "")

/-- `StockBulkUpdateInput`. -/
structure StockBulkUpdateInput where
  variantId : Field := none
  variantExternalReference : Field := none
  warehouseId : Field := none
  warehouseExternalReference : Field := none
  quantity : ℤ
deriving DecidableEq, Repr

/-- `StockBulkUpdateErrorCode`, as far as it is used. -/
inductive StockBulkUpdateErrorCode where
  | invalid
  | notFound
deriving DecidableEq, Repr

/-- `StockBulkUpdateError`. -/
structure StockBulkUpdateError where
  field : Option String := none
  message : String
  code : StockBulkUpdateErrorCode
deriving DecidableEq, Repr

/-- `validate_one_of_args_is_in_mutation`, for two arguments. -/
def validateOneOfArgsIsInMutation (firstArg secondArg : String) (first second : Option String) :
    List StockBulkUpdateError :=
  match first, second with
  | some _, some _ =>
    [{ message := "Argument '" ++ firstArg ++ "' cannot be combined with '" ++ secondArg ++ "'"
       code := .invalid }]
  | none, none =>
    [{ message :=
         "At least one of arguments is required: '" ++ firstArg ++ "', '" ++ secondArg ++ "'."
       code := .invalid }]
  | _, _ => []

/-- What `validate_variant` and `validate_warehouse` have in common: the errors, and the id in the
database. -/
def validateNode (texts : Texts) (idArg referenceArg typeName message : String)
    (globalId reference : Option String) : List StockBulkUpdateError × Option String :=
  let errors := validateOneOfArgsIsInMutation idArg referenceArg globalId reference
  let invalid : StockBulkUpdateError := { field := some idArg, message := message, code := .invalid }
  match globalId with
  | none => (errors, none)
  | some globalId =>
    match texts.fromGlobalId globalId with
    | none => (errors ++ [invalid], none)
    | some (type, dbId) =>
      if type ≠ typeName then (errors ++ [invalid], none) else (errors, some dbId)

/-- `validate_variant`. -/
def validateVariant (texts : Texts) (input : StockBulkUpdateInput) :
    List StockBulkUpdateError × Option String :=
  validateNode texts "variantId" "variantExternalReference" "ProductVariant" "Invalid variantId."
    (truthy input.variantId) (truthy input.variantExternalReference)

/-- `validate_warehouse`. -/
def validateWarehouse (texts : Texts) (input : StockBulkUpdateInput) :
    List StockBulkUpdateError × Option String :=
  validateNode texts "warehouseId" "warehouseExternalReference" "Warehouse" "Invalid warehouseId."
    (truthy input.warehouseId) (truthy input.warehouseExternalReference)

/-- An input that passed, with `product_variant_id` and the id that replaced `warehouse_id`. -/
structure CleanedInput where
  input : StockBulkUpdateInput
  productVariantId : Option String
  warehouseDbId : Option String
deriving DecidableEq, Repr

/-- A round of `clean_stocks`: the errors of a row, and the row if there are none. -/
def cleanStock (texts : Texts) (input : StockBulkUpdateInput) :
    List StockBulkUpdateError × Option CleanedInput :=
  let variant := validateVariant texts input
  let warehouse := validateWarehouse texts input
  let errors := variant.1 ++ warehouse.1 ++
    if input.quantity < 0 then
      [{ field := some "quantity", message := "Quantity should not be less than 0."
         code := .invalid }]
    else []
  (errors, if errors = [] then some ⟨input, variant.2, warehouse.2⟩ else none)

/-- A row passes if it has no errors. -/
theorem errors_eq_nil_iff {texts : Texts} {input : StockBulkUpdateInput} :
    (cleanStock texts input).1 = [] ↔ (cleanStock texts input).2.isSome := by
  have hpasses : ∀ {β : Type} (errors : List StockBulkUpdateError) (c : β),
      errors = [] ↔ (if errors = [] then some c else none).isSome := by
    intro β errors c
    split_ifs with h
    · exact iff_of_true h rfl
    · exact iff_of_false h Bool.false_ne_true
  exact hpasses _ _

/-! ### Looking the stocks up -/

/-- What variants, or warehouses, are looked up by. -/
inductive Selector where
  | id
  | externalReference
deriving DecidableEq, Repr

/-- `warehouse_selector` and `variant_selector`. -/
structure Selectors where
  warehouse : Selector
  variant : Selector
deriving DecidableEq, Repr

/-- `stock_input[variant_selector]`, if it is there. -/
def CleanedInput.variantValue (c : CleanedInput) : Selector → Field
  | .id => c.productVariantId.map some
  | .externalReference => c.input.variantExternalReference

/-- `stock_input[warehouse_selector]`, if it is there. -/
def CleanedInput.warehouseValue (c : CleanedInput) : Selector → Field
  | .id => c.warehouseDbId.elim c.input.warehouseId fun id => some (some id)
  | .externalReference => c.input.warehouseExternalReference

/-- The selectors that are taken from the first row. -/
def CleanedInput.selectors (c : CleanedInput) : Selectors where
  warehouse := if (truthy (c.warehouseValue .id)).isSome then .id else .externalReference
  variant := if (truthy c.input.variantId).isSome then .id else .externalReference

/-- The row has values for the selectors. -/
def CleanedInput.Has (c : CleanedInput) (sel : Selectors) : Prop :=
  (c.warehouseValue sel.warehouse).isSome ∧ (c.variantValue sel.variant).isSome

instance (c : CleanedInput) (sel : Selectors) : Decidable (c.Has sel) :=
  inferInstanceAs (Decidable (_ ∧ _))

/-- How the request can fail as a whole. -/
inductive Failure where
  | attributeError
  | differentSelectors
  | lookup
deriving DecidableEq, Repr

/-- `get_selectors`. -/
def getSelectors (cleaned : List (Option CleanedInput)) : Except Failure Selectors :=
  if cleaned.all Option.isNone then .ok ⟨.id, .id⟩
  else
    match cleaned.head? with
    | some (some first) =>
      if ∀ c ∈ cleaned.filterMap id, c.Has first.selectors then .ok first.selectors
      else .error .differentSelectors
    | _ => .error .attributeError

/-- The stocks, and the external references of variants and warehouses. -/
structure Store where
  stocks : Table Stock
  variantReference : ℕ → Option String
  warehouseReference : ℕ → Option String

section Lookup

variable (texts : Texts) (store : Store)

/-- A value of `product_variant_id__in` or `product_variant__external_reference__in`, nothing where it
raises. The database takes no text with a zero character. -/
def variantLookup (selector : Selector) (value : String) : Option (Stock → Bool) :=
  match selector with
  | .id => (texts.int value).map fun n s => decide ((s.productVariant : ℤ) = n)
  | .externalReference =>
    if Char.ofNat 0 ∈ value.toList then none
    else some fun s => decide (store.variantReference s.productVariant = some value)

/-- A value of `warehouse_id__in` or `warehouse__external_reference__in`. -/
def warehouseLookup (selector : Selector) (value : String) : Option (Stock → Bool) :=
  match selector with
  | .id => (texts.uuid value).map fun u s => decide (s.warehouse = u)
  | .externalReference =>
    if Char.ofNat 0 ∈ value.toList then none
    else some fun s => decide (store.warehouseReference s.warehouse = some value)

/-- The query of `get_stocks`; null is not looked up. -/
def getStocks (sel : Selectors) (cleaned : List CleanedInput) : Except Failure (List Stock) :=
  let warehouses := cleaned.filterMap fun c => (c.warehouseValue sel.warehouse).join
  let variants := cleaned.filterMap fun c => (c.variantValue sel.variant).join
  match warehouses.mapM (warehouseLookup texts store sel.warehouse),
      variants.mapM (variantLookup texts store sel.variant) with
  | some inWarehouses, some ofVariants =>
    .ok (store.stocks.rows.filter fun s => inWarehouses.any (· s) && ofVariants.any (· s))
  | _, _ => .error .lookup

/-- The text of `None`. -/
def noneText : String := "None"

/-- The key of a stock in `selectors_stock_map`. -/
def stockKey (sel : Selectors) (s : Stock) : String :=
  (match sel.variant with
    | .id => toString s.productVariant
    | .externalReference => (store.variantReference s.productVariant).getD noneText)
  ++ "_" ++
  match sel.warehouse with
    | .id => texts.str s.warehouse
    | .externalReference => (store.warehouseReference s.warehouse).getD noneText

/-- The key that a row is looked up with. -/
def CleanedInput.key (sel : Selectors) (c : CleanedInput) : String :=
  (c.variantValue sel.variant).join.getD noneText ++ "_"
    ++ (c.warehouseValue sel.warehouse).join.getD noneText

/-- `selectors_stock_map.get(…)`: of the stocks with one key the last is in the map. -/
def found (sel : Selectors) (stocks : List Stock) (c : CleanedInput) : Option Stock :=
  (stocks.filter fun s => stockKey texts store sel s = c.key sel).getLast?

end Lookup

/-! ### The mutation -/

/-- `quantity = …`. -/
def setQuantity (s : Stock) (quantity : ℤ) : Stock := { s with quantity := quantity }

theorem pk_setQuantity (m s : Stock) : HasPk.pk (setQuantity s m.quantity) = HasPk.pk s := rfl

/-- An entry of `instances_data_and_errors_list`. -/
structure InstanceData where
  inst : Option Stock
  errors : List StockBulkUpdateError

/-- `StockBulkResult`. -/
structure StockBulkResult where
  stock : Option Stock
  errors : List StockBulkUpdateError
deriving DecidableEq, Repr

/-- What the mutation leaves and returns. -/
structure Outcome where
  stocks : Table Stock
  count : ℕ
  results : List StockBulkResult

section Mutation

variable (texts : Texts) (store : Store)

/-- `"Stock was not found."` -/
def stockWasNotFound : StockBulkUpdateError :=
  { message := "Stock was not found.", code := .notFound }

/-- The stock that a row finds, if it passed. -/
def foundFor (sel : Selectors) (stocks : List Stock) (input : StockBulkUpdateInput) :
    Option Stock :=
  (cleanStock texts input).2.bind (found texts store sel stocks)

/-- A round of `update_stocks`: the entry of a row. -/
def instanceData (sel : Selectors) (stocks : List Stock) (input : StockBulkUpdateInput) :
    InstanceData :=
  match (cleanStock texts input).2 with
  | none => ⟨none, (cleanStock texts input).1⟩
  | some c =>
    match found texts store sel stocks c with
    | some s => ⟨some s, (cleanStock texts input).1⟩
    | none => ⟨none, (cleanStock texts input).1 ++ [stockWasNotFound]⟩

/-- The quantities that are set on the instances, by their keys; rows that find the same stock share
its instance. -/
def updateLoop (sel : Selectors) (stocks : List Stock) :
    List StockBulkUpdateInput → (ℕ → Option ℤ) → ℕ → Option ℤ
  | [], quantities => quantities
  | input :: inputs, quantities =>
    match foundFor texts store sel stocks input with
    | none => updateLoop sel stocks inputs quantities
    | some s =>
      updateLoop sel stocks inputs (Function.update quantities s.pk (some input.quantity))

/-- An instance, with the quantity that was set on it. -/
def withQuantity (quantities : ℕ → Option ℤ) (s : Stock) : Stock :=
  setQuantity s ((quantities s.pk).getD s.quantity)

/-- The end of `perform_mutation`, from the error policy on. -/
def finish (policy : ErrorPolicy) (quantities : ℕ → Option ℤ) (data : List InstanceData) : Outcome :=
  let anyErrors := data.any fun d => d.errors ≠ []
  if anyErrors ∧ policy = .rejectEverything then
    ⟨store.stocks, 0, data.map fun d => ⟨none, d.errors⟩⟩
  else
    let data :=
      if anyErrors ∧ policy = .rejectFailedRows then
        data.map fun d => if d.errors ≠ [] ∧ d.inst.isSome then { d with inst := none } else d
      else data
    let stocksToUpdate := (data.filterMap (·.inst)).map (withQuantity quantities)
    { stocks := store.stocks.bulkUpdate stocksToUpdate (fun m s => setQuantity s m.quantity)
        pk_setQuantity
      count := stocksToUpdate.length
      results := data.map fun d => ⟨d.inst.map (withQuantity quantities), d.errors⟩ }

/-- `perform_mutation`. -/
def performMutation (inputs : List StockBulkUpdateInput) (policy : ErrorPolicy) :
    Except Failure Outcome :=
  let cleaned := inputs.map fun input => (cleanStock texts input).2
  match getSelectors cleaned with
  | .error e => .error e
  | .ok sel =>
    match getStocks texts store sel (cleaned.filterMap id) with
    | .error e => .error e
    | .ok stocks =>
      .ok (finish store policy (updateLoop texts store sel stocks inputs fun _ => none)
        (inputs.map (instanceData texts store sel stocks)))

end Mutation

/-! ### What is promised -/

section Promise

variable (texts : Texts) (store : Store)

/-- The row names the stock: by the texts of the ids, or by the references. -/
def CleanedInput.names (c : CleanedInput) (s : Stock) : Bool :=
  (match truthy c.input.variantId with
    | some _ => decide (c.productVariantId = some (toString s.productVariant))
    | none => (truthy c.input.variantExternalReference).any fun reference =>
        store.variantReference s.productVariant = some reference) &&
  match truthy c.input.warehouseId with
    | some _ => decide (c.warehouseDbId = some (texts.str s.warehouse))
    | none => (truthy c.input.warehouseExternalReference).any fun reference =>
        store.warehouseReference s.warehouse = some reference

/-- The stock that a row names, nothing if the row is invalid. A pair of a warehouse and a variant is
unique, and so are references, so there is one at most. -/
def validStock (input : StockBulkUpdateInput) : Option Stock :=
  (cleanStock texts input).2.bind fun c => store.stocks.rows.find? (c.names texts store)

/-- The quantity of the last valid row that names the stock. -/
def lastQuantity (inputs : List StockBulkUpdateInput) (s : Stock) : Option ℤ :=
  ((inputs.filter fun input => validStock texts store input = some s).getLast?).map (·.quantity)

/-- The stock as the rows ask for it. -/
def asked (inputs : List StockBulkUpdateInput) (s : Stock) : Stock :=
  setQuantity s ((lastQuantity texts store inputs s).getD s.quantity)

/-- A valid row is answered with its stock, an invalid one with an error. -/
def ResultOf (inputs : List StockBulkUpdateInput) (input : StockBulkUpdateInput)
    (result : StockBulkResult) : Prop :=
  match validStock texts store input with
  | some s => result = ⟨some (asked texts store inputs s), []⟩
  | none => result.stock = none ∧ result.errors ≠ []

/-- **The policy is honoured**: there is a result for each row; nothing is written if a row is invalid
and everything is to be rejected; and else the stocks that the valid rows name are set, and no others. -/
structure HonoursPolicy (inputs : List StockBulkUpdateInput) (policy : ErrorPolicy) (o : Outcome) :
    Prop where
  length : o.results.length = inputs.length
  rejected : policy = .rejectEverything → (∃ input ∈ inputs, validStock texts store input = none) →
    o.stocks = store.stocks ∧ o.count = 0
  stocks : (policy = .rejectEverything → ∀ input ∈ inputs, validStock texts store input ≠ none) →
    o.stocks.rows = store.stocks.rows.map (asked texts store inputs)
  results : (policy = .rejectEverything → ∀ input ∈ inputs, validStock texts store input ≠ none) →
    List.Forall₂ (ResultOf texts store inputs) inputs o.results

/-- The rows that pass the checks. -/
def passed (inputs : List StockBulkUpdateInput) : List CleanedInput :=
  (inputs.map fun input => (cleanStock texts input).2).filterMap id

/-- The values of a row can be looked up. -/
def CleanedInput.Denotes (c : CleanedInput) (sel : Selectors) : Prop :=
  (∀ value ∈ (c.warehouseValue sel.warehouse).join,
      (warehouseLookup texts store sel.warehouse value).isSome) ∧
    ∀ value ∈ (c.variantValue sel.variant).join,
      (variantLookup texts store sel.variant value).isSome

/-- The stocks whose warehouse is asked for by one row, and whose variant is by one. -/
def requested (sel : Selectors) (cleaned : List CleanedInput) : List Stock :=
  store.stocks.rows.filter fun s =>
    ((cleaned.filterMap fun c => (c.warehouseValue sel.warehouse).join).any fun value =>
      (warehouseLookup texts store sel.warehouse value).any (· s)) &&
    (cleaned.filterMap fun c => (c.variantValue sel.variant).join).any fun value =>
      (variantLookup texts store sel.variant value).any (· s)

/-- The requested stocks whose texts are joined to the key of the row. -/
def joinedAlike (sel : Selectors) (cleaned : List CleanedInput) (c : CleanedInput) : List Stock :=
  (requested texts store sel cleaned).filter fun s => stockKey texts store sel s = c.key sel

/-- The rows are looked up right: of the stocks that are joined alike the last is the one that the row
names; or everything is rejected, for a row that does not pass, or that no stock is joined alike
with. -/
def LookedUpRight (sel : Selectors) (inputs : List StockBulkUpdateInput) (policy : ErrorPolicy) :
    Prop :=
  (∀ c ∈ passed texts inputs, (joinedAlike texts store sel (passed texts inputs) c).getLast?
      = store.stocks.rows.find? (c.names texts store)) ∨
    policy = .rejectEverything ∧ (∃ input ∈ inputs, validStock texts store input = none) ∧
      ((∃ input ∈ inputs, (cleanStock texts input).2 = none) ∨
        ∃ c ∈ passed texts inputs, joinedAlike texts store sel (passed texts inputs) c = [])

/-- **The condition**: no row passes; or the first does, all that pass have values for its selectors, and
these can be looked up, and the rows are looked up right. -/
def Applicable (inputs : List StockBulkUpdateInput) (policy : ErrorPolicy) : Prop :=
  passed texts inputs = [] ∨
    ∃ first, (inputs.map fun input => (cleanStock texts input).2).head? = some (some first) ∧
      (∀ c ∈ passed texts inputs, c.Has first.selectors ∧ c.Denotes texts store first.selectors) ∧
      LookedUpRight texts store first.selectors inputs policy

end Promise

/-! ### The rows, one by one -/

section Rows

variable {texts : Texts} {store : Store} {sel : Selectors} {stocks : List Stock}
  {inputs : List StockBulkUpdateInput} {policy : ErrorPolicy}

theorem inst_instanceData (input : StockBulkUpdateInput) :
    (instanceData texts store sel stocks input).inst = foundFor texts store sel stocks input := by
  rw [instanceData, foundFor]
  rcases (cleanStock texts input).2 with - | c
  · rfl
  · rw [Option.bind_some]
    dsimp only
    rcases found texts store sel stocks c with - | s <;> rfl

/-- A row has no error if it finds a stock. -/
theorem errors_instanceData_eq_nil_iff (input : StockBulkUpdateInput) :
    (instanceData texts store sel stocks input).errors = [] ↔
      foundFor texts store sel stocks input ≠ none := by
  have hpasses := @errors_eq_nil_iff texts input
  rw [instanceData, foundFor]
  rcases hcleaned : (cleanStock texts input).2 with - | c
  · rw [hcleaned] at hpasses
    simpa using hpasses
  · rw [hcleaned] at hpasses
    have hnil := hpasses.mpr rfl
    rw [Option.bind_some, hnil]
    dsimp only
    rcases found texts store sel stocks c with - | s
    · exact iff_of_false (List.cons_ne_nil _ _) (not_not_intro rfl)
    · exact iff_of_true rfl (Option.some_ne_none s)

theorem any_errors_iff :
    (inputs.map (instanceData texts store sel stocks)).any (fun d => d.errors ≠ []) = true ↔
      ∃ input ∈ inputs, foundFor texts store sel stocks input = none := by
  simp only [List.any_map, List.any_eq_true, Function.comp_apply, decide_eq_true_eq, Ne,
    errors_instanceData_eq_nil_iff, not_not]

/-- Every key has the quantity of the last row that found it. -/
theorem updateLoop_eq (quantities : ℕ → Option ℤ) (k : ℕ) :
    updateLoop texts store sel stocks inputs quantities k
      = (((inputs.filter fun input =>
          (foundFor texts store sel stocks input).map (·.pk) = some k).getLast?).map
            fun input => some input.quantity).getD (quantities k) := by
  induction inputs generalizing quantities with
  | nil => rfl
  | cons input inputs ih =>
    rw [updateLoop]
    rcases hfound : foundFor texts store sel stocks input with - | s
    · dsimp only
      rw [ih, List.filter_cons_of_neg (by simp [hfound])]
    · dsimp only
      rw [ih]
      by_cases hk : s.pk = k
      · subst hk
        rw [List.filter_cons_of_pos (by simp [hfound]), List.getLast?_cons,
          Function.update_self]
        rcases (inputs.filter fun input =>
          (foundFor texts store sel stocks input).map (·.pk) = some s.pk).getLast? with - | last
        · rfl
        · rfl
      · rw [List.filter_cons_of_neg (by simp [hfound, hk]), Function.update_of_ne (Ne.symm hk)]

/-- What is left and returned where the policy does not reject everything. -/
def saved (texts : Texts) (store : Store) (sel : Selectors) (stocks : List Stock)
    (inputs : List StockBulkUpdateInput) : Outcome :=
  let quantities := updateLoop texts store sel stocks inputs fun _ => none
  { stocks := store.stocks.bulkUpdate
      ((inputs.filterMap (foundFor texts store sel stocks)).map (withQuantity quantities))
      (fun m s => setQuantity s m.quantity) pk_setQuantity
    count := (inputs.filterMap (foundFor texts store sel stocks)).length
    results := inputs.map fun input =>
      ⟨(foundFor texts store sel stocks input).map (withQuantity quantities),
        (instanceData texts store sel stocks input).errors⟩ }

theorem finish_of_rejected
    (h : ∃ input ∈ inputs, foundFor texts store sel stocks input = none)
    (quantities : ℕ → Option ℤ) :
    finish store .rejectEverything quantities (inputs.map (instanceData texts store sel stocks))
      = ⟨store.stocks, 0, inputs.map fun input =>
          ⟨none, (instanceData texts store sel stocks input).errors⟩⟩ := by
  rw [finish, if_pos ⟨any_errors_iff.mpr h, rfl⟩, List.map_map]
  rfl

/-- Rows with errors have no stock, so none is taken from them. -/
theorem finish_of_saved
    (h : policy = .rejectEverything →
      ∀ input ∈ inputs, foundFor texts store sel stocks input ≠ none) :
    finish store policy (updateLoop texts store sel stocks inputs fun _ => none)
        (inputs.map (instanceData texts store sel stocks))
      = saved texts store sel stocks inputs := by
  have hreject : ¬ ((inputs.map (instanceData texts store sel stocks)).any
      (fun d => d.errors ≠ []) = true ∧ policy = .rejectEverything) := by
    rintro ⟨herrors, hpolicy⟩
    obtain ⟨input, hinput, hnone⟩ := any_errors_iff.mp herrors
    exact h hpolicy input hinput hnone
  have hkept : (inputs.map (instanceData texts store sel stocks)).map
        (fun d => if d.errors ≠ [] ∧ d.inst.isSome then { d with inst := none } else d)
      = inputs.map (instanceData texts store sel stocks) := by
    rw [List.map_map]
    refine List.map_congr_left fun input _ => if_neg ?_
    rintro ⟨herrors, hinst⟩
    rw [inst_instanceData] at hinst
    exact herrors ((errors_instanceData_eq_nil_iff input).mpr (Option.isSome_iff_ne_none.mp hinst))
  have hinsts : (inputs.map (instanceData texts store sel stocks)).filterMap (·.inst)
      = inputs.filterMap (foundFor texts store sel stocks) := by
    rw [List.filterMap_map]
    exact List.filterMap_congr fun input _ => inst_instanceData input
  rw [finish, if_neg hreject, hkept, ite_self, saved]
  simp only [hinsts, List.length_map, List.map_map]
  refine congrArg (Outcome.mk _ _) (List.map_congr_left fun input _ => ?_)
  rw [Function.comp_apply, inst_instanceData]

end Rows

/-! ### Whether the policy is honoured -/

section Honoured

variable {texts : Texts} {store : Store} {sel : Selectors} {stocks : List Stock}
  {inputs : List StockBulkUpdateInput} {policy : ErrorPolicy} {input : StockBulkUpdateInput}
  {s : Stock}

theorem mem_of_validStock (h : validStock texts store input = some s) : s ∈ store.stocks := by
  obtain ⟨c, -, hfind⟩ := Option.bind_eq_some_iff.mp h
  exact List.mem_of_find?_eq_some hfind

/-- Where the rows find what they name, an instance has the last quantity that was asked for. -/
theorem withQuantity_eq_asked
    (hagree : ∀ input ∈ inputs,
      foundFor texts store sel stocks input = validStock texts store input) (hs : s ∈ store.stocks) :
    withQuantity (updateLoop texts store sel stocks inputs fun _ => none) s
      = asked texts store inputs s := by
  have hfilter : (inputs.filter fun input =>
        (foundFor texts store sel stocks input).map (·.pk) = some s.pk)
      = inputs.filter fun input => validStock texts store input = some s := by
    refine List.filter_congr fun input hinput => ?_
    rw [hagree input hinput, decide_eq_decide, Option.map_eq_some_iff]
    constructor
    · rintro ⟨t, ht, hpk⟩
      rw [ht, Table.eq_of_pk_eq (mem_of_validStock ht) hs hpk]
    · exact fun h => ⟨s, h, rfl⟩
  rw [withQuantity, asked, updateLoop_eq, hfilter, lastQuantity]
  rcases (inputs.filter fun input => validStock texts store input = some s).getLast? with - | last
  · rfl
  · rfl

/-- Where the rows find what they name, the stocks are set as they ask. -/
theorem rows_saved
    (hagree : ∀ input ∈ inputs,
      foundFor texts store sel stocks input = validStock texts store input) :
    (saved texts store sel stocks inputs).stocks.rows
      = store.stocks.rows.map (asked texts store inputs) := by
  rw [saved]
  dsimp only
  rw [Table.bulkUpdate, Table.rows_map]
  refine List.map_congr_left fun s hs => ?_
  rcases hfind : ((inputs.filterMap (foundFor texts store sel stocks)).map (withQuantity
      (updateLoop texts store sel stocks inputs fun _ => none))).find?
        fun m => HasPk.pk m = HasPk.pk s with - | m
  · have hnone : ∀ input ∈ inputs, validStock texts store input ≠ some s := by
      intro input hinput hvalid
      have hmem := List.mem_map_of_mem (f := withQuantity
        (updateLoop texts store sel stocks inputs fun _ => none))
        (List.mem_filterMap.mpr ⟨input, hinput, (hagree input hinput).trans hvalid⟩)
      exact List.find?_eq_none.mp hfind _ hmem (decide_eq_true rfl)
    have hlast : lastQuantity texts store inputs s = none := by
      rw [lastQuantity, List.filter_eq_nil_iff.mpr fun input hinput => by
        simpa using hnone input hinput]
      rfl
    dsimp only
    rw [asked, hlast]
    rfl
  · have hpk := List.find?_some hfind
    rw [decide_eq_true_iff] at hpk
    obtain ⟨t, ht, rfl⟩ := List.mem_map.mp (List.mem_of_find?_eq_some hfind)
    obtain ⟨input, hinput, hfound⟩ := List.mem_filterMap.mp ht
    obtain rfl : t = s := Table.eq_of_pk_eq
      (mem_of_validStock ((hagree input hinput).symm.trans hfound)) hs hpk
    dsimp only
    rw [withQuantity_eq_asked hagree hs]
    rfl

/-- A row that finds what it names is answered right. -/
theorem resultOf_saved
    (hagree : ∀ input ∈ inputs,
      foundFor texts store sel stocks input = validStock texts store input) :
    List.Forall₂ (ResultOf texts store inputs) inputs
      (saved texts store sel stocks inputs).results := by
  rw [saved, List.forall₂_map_right_iff, List.forall₂_same]
  intro input hinput
  have herrors := @errors_instanceData_eq_nil_iff texts store sel stocks input
  rw [hagree input hinput] at herrors ⊢
  rw [ResultOf]
  rcases hvalid : validStock texts store input with - | s
  · rw [hvalid] at herrors
    exact ⟨rfl, fun hnil => herrors.mp hnil rfl⟩
  · rw [hvalid] at herrors
    dsimp only
    rw [herrors.mpr (Option.some_ne_none s), Option.map_some,
      withQuantity_eq_asked hagree (mem_of_validStock hvalid)]

/-- What a row is answered with says which stock it names. -/
theorem eq_of_resultOf {quantities : ℕ → Option ℤ} {errors : List StockBulkUpdateError}
    (hmem : ∀ s, foundFor texts store sel stocks input = some s → s ∈ store.stocks)
    (h : ResultOf texts store inputs input
      ⟨(foundFor texts store sel stocks input).map (withQuantity quantities), errors⟩) :
    foundFor texts store sel stocks input = validStock texts store input := by
  rw [ResultOf] at h
  rcases hvalid : validStock texts store input with - | s
  · rw [hvalid] at h
    exact Option.map_eq_none_iff.mp h.1
  · rw [hvalid] at h
    obtain ⟨t, ht, heq⟩ := Option.map_eq_some_iff.mp (congrArg StockBulkResult.stock h)
    have hpk : t.pk = s.pk := (congrArg Stock.pk heq :)
    rw [ht, Table.eq_of_pk_eq (hmem t ht) (mem_of_validStock hvalid) hpk]

/-- **The policy is honoured** if every row finds the stock that it names, or everything is rejected,
and rightly so. -/
theorem honoursPolicy_finish_iff
    (hmem : ∀ input ∈ inputs, ∀ s, foundFor texts store sel stocks input = some s →
      s ∈ store.stocks) :
    HonoursPolicy texts store inputs policy
        (finish store policy (updateLoop texts store sel stocks inputs fun _ => none)
          (inputs.map (instanceData texts store sel stocks))) ↔
      (∀ input ∈ inputs, foundFor texts store sel stocks input = validStock texts store input) ∨
        policy = .rejectEverything ∧ (∃ input ∈ inputs, validStock texts store input = none) ∧
          ∃ input ∈ inputs, foundFor texts store sel stocks input = none := by
  by_cases hreject : policy = .rejectEverything ∧
      ∃ input ∈ inputs, foundFor texts store sel stocks input = none
  · obtain ⟨rfl, hnone⟩ := hreject
    rw [finish_of_rejected hnone]
    constructor
    · intro h
      by_cases hinvalid : ∃ input ∈ inputs, validStock texts store input = none
      · exact .inr ⟨rfl, hinvalid, hnone⟩
      · have hvalid : ∀ input ∈ inputs, validStock texts store input ≠ none := by
          simpa using hinvalid
        obtain ⟨input, hinput, -⟩ := hnone
        have hresults := h.results fun _ => hvalid
        rw [List.forall₂_map_right_iff, List.forall₂_same] at hresults
        have hresult := hresults input hinput
        obtain ⟨s, hs⟩ := Option.ne_none_iff_exists'.mp (hvalid input hinput)
        rw [ResultOf, hs] at hresult
        cases hresult
    · intro h
      have hinvalid : ∃ input ∈ inputs, validStock texts store input = none := by
        rcases h with hagree | ⟨-, hinvalid, -⟩
        · obtain ⟨input, hinput, hnone⟩ := hnone
          exact ⟨input, hinput, (hagree input hinput).symm.trans hnone⟩
        · exact hinvalid
      obtain ⟨input, hinput, hvalid⟩ := hinvalid
      exact ⟨List.length_map _, fun _ _ => ⟨rfl, rfl⟩,
        fun hall => absurd hvalid (hall rfl input hinput),
        fun hall => absurd hvalid (hall rfl input hinput)⟩
  · have hsaved : policy = .rejectEverything →
        ∀ input ∈ inputs, foundFor texts store sel stocks input ≠ none :=
      fun hpolicy input hinput hnone => hreject ⟨hpolicy, input, hinput, hnone⟩
    rw [finish_of_saved hsaved]
    constructor
    · intro h
      refine .inl fun input hinput => ?_
      have hvalid : policy = .rejectEverything →
          ∀ input ∈ inputs, validStock texts store input ≠ none := by
        intro hpolicy input hinput hnone
        have hcount := (h.rejected hpolicy ⟨input, hinput, hnone⟩).2
        obtain ⟨s, hs⟩ := Option.ne_none_iff_exists'.mp (hsaved hpolicy input hinput)
        have hnil := List.length_eq_zero_iff.mp hcount
        exact List.not_mem_nil (hnil ▸ List.mem_filterMap.mpr ⟨input, hinput, hs⟩)
      have hresults := h.results hvalid
      rw [saved, List.forall₂_map_right_iff, List.forall₂_same] at hresults
      exact eq_of_resultOf (hmem input hinput) (hresults input hinput)
    · intro h
      rcases h with hagree | ⟨hpolicy, -, input, hinput, hnone⟩
      · refine ⟨List.length_map _, fun hpolicy ⟨input, hinput, hnone⟩ => ?_,
          fun _ => rows_saved hagree, fun _ => resultOf_saved hagree⟩
        exact absurd ((hagree input hinput).trans hnone) (hsaved hpolicy input hinput)
      · exact absurd hnone (hsaved hpolicy input hinput)

end Honoured

/-! ### The request -/

section Request

variable {texts : Texts} {store : Store} {sel : Selectors} {cleaned : List (Option CleanedInput)}
  {inputs : List StockBulkUpdateInput} {policy : ErrorPolicy}

theorem all_isNone_iff : cleaned.all Option.isNone = true ↔ cleaned.filterMap id = [] := by
  rw [List.all_eq_true, List.filterMap_eq_nil_iff]
  exact forall₂_congr fun c _ => Option.isNone_iff_eq_none

/-- The selectors are those of the first row, if all rows have values for them. -/
theorem getSelectors_eq_ok_iff :
    getSelectors cleaned = .ok sel ↔ (cleaned.filterMap id = [] ∧ sel = ⟨.id, .id⟩) ∨
      ∃ first, cleaned.head? = some (some first) ∧ sel = first.selectors ∧
        ∀ c ∈ cleaned.filterMap id, c.Has sel := by
  rw [getSelectors]
  by_cases hnone : cleaned.filterMap id = []
  · rw [if_pos (all_isNone_iff.mpr hnone), Except.ok.injEq]
    constructor
    · rintro rfl
      exact .inl ⟨hnone, rfl⟩
    · rintro (⟨-, rfl⟩ | ⟨first, hfirst, -⟩)
      · rfl
      · have hmem : first ∈ cleaned.filterMap id :=
          List.mem_filterMap.mpr ⟨some first, List.mem_of_head? hfirst, rfl⟩
        exact absurd (hnone ▸ hmem) List.not_mem_nil
  · rw [if_neg fun hall => hnone (all_isNone_iff.mp hall), or_iff_right fun h => hnone h.1]
    rcases hhead : cleaned.head? with - | - | first
    · exact iff_of_false (fun h => by cases h) fun ⟨_, h, _⟩ => by cases h
    · exact iff_of_false (fun h => by cases h) fun ⟨_, h, _⟩ => by cases h
    · dsimp only
      split_ifs with hhas
      · rw [Except.ok.injEq]
        constructor
        · rintro rfl
          exact ⟨first, rfl, rfl, hhas⟩
        · rintro ⟨first', hfirst, rfl, -⟩
          cases hfirst
          rfl
      · refine iff_of_false (fun h => by cases h) ?_
        rintro ⟨first', hfirst, rfl, hall⟩
        cases hfirst
        exact hhas hall

/-- A list of lookups is what each of them is, if none of them raises. -/
theorem any_of_mapM {lookup : String → Option (Stock → Bool)} {values : List String}
    {lookups : List (Stock → Bool)} (h : values.mapM lookup = some lookups) (s : Stock) :
    lookups.any (· s) = values.any fun value => (lookup value).any (· s) := by
  have hall := forall₂_of_mapM h
  clear h
  induction hall with
  | nil => rfl
  | cons hfirst _ ih => rw [List.any_cons, List.any_cons, ih, hfirst, Option.any_some]

theorem exists_mapM_iff {α β : Type} {f : α → Option β} {l : List α} :
    (∃ l', l.mapM f = some l') ↔ ∀ a ∈ l, (f a).isSome := by
  constructor
  · rintro ⟨l', hl'⟩ a ha
    exact isSome_of_mapM hl' ha
  · intro h
    induction l with
    | nil => exact ⟨[], rfl⟩
    | cons a l ih =>
      obtain ⟨ha, hl⟩ := List.forall_mem_cons.mp h
      obtain ⟨b, hb⟩ := Option.isSome_iff_exists.mp ha
      obtain ⟨l', hl'⟩ := ih hl
      exact ⟨b :: l', by rw [List.mapM_cons, hb, hl']; rfl⟩

/-- The values that are looked up are those of the rows. -/
theorem forall_denotes_iff {cs : List CleanedInput} :
    (∀ c ∈ cs, c.Denotes texts store sel) ↔
      (∀ value ∈ cs.filterMap fun c => (c.warehouseValue sel.warehouse).join,
        (warehouseLookup texts store sel.warehouse value).isSome) ∧
      ∀ value ∈ cs.filterMap fun c => (c.variantValue sel.variant).join,
        (variantLookup texts store sel.variant value).isSome := by
  simp only [List.mem_filterMap, CleanedInput.Denotes, Option.mem_def]
  constructor
  · intro h
    exact ⟨fun value ⟨c, hc, hvalue⟩ => (h c hc).1 value hvalue,
      fun value ⟨c, hc, hvalue⟩ => (h c hc).2 value hvalue⟩
  · rintro ⟨hwarehouses, hvariants⟩ c hc
    exact ⟨fun value hvalue => hwarehouses value ⟨c, hc, hvalue⟩,
      fun value hvalue => hvariants value ⟨c, hc, hvalue⟩⟩

/-- The query is answered if every value can be looked up. -/
theorem getStocks_eq_ok_iff {cs : List CleanedInput} {stocks : List Stock} :
    getStocks texts store sel cs = .ok stocks ↔
      (∀ c ∈ cs, c.Denotes texts store sel) ∧ stocks = requested texts store sel cs := by
  rw [forall_denotes_iff, ← exists_mapM_iff, ← exists_mapM_iff]
  simp only [getStocks]
  rcases hwarehouses : (cs.filterMap fun c => (c.warehouseValue sel.warehouse).join).mapM
    (warehouseLookup texts store sel.warehouse) with - | inWarehouses
  · simp only [hwarehouses, reduceCtorEq, exists_false, false_and]
  · rcases hvariants : (cs.filterMap fun c => (c.variantValue sel.variant).join).mapM
      (variantLookup texts store sel.variant) with - | ofVariants
    · simp only [hwarehouses, hvariants, reduceCtorEq, exists_false, and_false, false_and]
    · have hquery : store.stocks.rows.filter (fun s =>
          inWarehouses.any (· s) && ofVariants.any (· s)) = requested texts store sel cs :=
        List.filter_congr fun s _ => by rw [any_of_mapM hwarehouses, any_of_mapM hvariants]
      simp only [hwarehouses, hvariants, hquery, Except.ok.injEq]
      rw [and_iff_right ⟨⟨_, rfl⟩, ⟨_, rfl⟩⟩]
      exact eq_comm

/-- When the mutation answers, and what. -/
theorem performMutation_eq_ok_iff {o : Outcome} :
    performMutation texts store inputs policy = .ok o ↔
      ∃ sel, getSelectors (inputs.map fun input => (cleanStock texts input).2) = .ok sel ∧
        (∀ c ∈ passed texts inputs, c.Denotes texts store sel) ∧
        o = finish store policy
          (updateLoop texts store sel (requested texts store sel (passed texts inputs)) inputs
            fun _ => none)
          (inputs.map (instanceData texts store sel
            (requested texts store sel (passed texts inputs)))) := by
  rw [performMutation, ← passed]
  rcases hselectors : getSelectors (inputs.map fun input => (cleanStock texts input).2) with e | sel
  · exact iff_of_false (fun h => by cases h) fun ⟨_, h, _⟩ => by cases h
  · rcases hstocks : getStocks texts store sel (passed texts inputs) with e | stocks
    · refine iff_of_false (fun h => by simp [hstocks] at h) ?_
      rintro ⟨sel', hsel, hdenotes, -⟩
      cases hsel
      rw [getStocks_eq_ok_iff.mpr ⟨hdenotes, rfl⟩] at hstocks
      cases hstocks
    · obtain ⟨hdenotes, rfl⟩ := getStocks_eq_ok_iff.mp hstocks
      simp only [hstocks, Except.ok.injEq]
      constructor
      · rintro rfl
        exact ⟨sel, rfl, hdenotes, rfl⟩
      · rintro ⟨sel', rfl, -, rfl⟩
        rfl

theorem mem_passed_iff {c : CleanedInput} :
    c ∈ passed texts inputs ↔ ∃ input ∈ inputs, (cleanStock texts input).2 = some c := by
  rw [passed, List.mem_filterMap]
  simp

/-- The rows find what they name, if those that pass do. -/
theorem forall_foundFor_iff :
    (∀ input ∈ inputs,
        foundFor texts store sel (requested texts store sel (passed texts inputs)) input
          = validStock texts store input) ↔
      ∀ c ∈ passed texts inputs, (joinedAlike texts store sel (passed texts inputs) c).getLast?
        = store.stocks.rows.find? (c.names texts store) := by
  constructor
  · intro h c hc
    obtain ⟨input, hinput, hcleaned⟩ := mem_passed_iff.mp hc
    have heq := h input hinput
    rw [foundFor, validStock, hcleaned] at heq
    exact heq
  · intro h input hinput
    rw [foundFor, validStock]
    rcases hcleaned : (cleanStock texts input).2 with - | c
    · rfl
    · exact h c (mem_passed_iff.mpr ⟨input, hinput, hcleaned⟩)

/-- A row finds nothing, if it does not pass or no stock is joined alike. -/
theorem exists_foundFor_iff :
    (∃ input ∈ inputs,
        foundFor texts store sel (requested texts store sel (passed texts inputs)) input = none) ↔
      (∃ input ∈ inputs, (cleanStock texts input).2 = none) ∨
        ∃ c ∈ passed texts inputs, joinedAlike texts store sel (passed texts inputs) c = [] := by
  constructor
  · rintro ⟨input, hinput, hnone⟩
    rw [foundFor] at hnone
    rcases hcleaned : (cleanStock texts input).2 with - | c
    · exact .inl ⟨input, hinput, hcleaned⟩
    · rw [hcleaned] at hnone
      exact .inr ⟨c, mem_passed_iff.mpr ⟨input, hinput, hcleaned⟩, List.getLast?_eq_none_iff.mp hnone⟩
  · rintro (⟨input, hinput, hcleaned⟩ | ⟨c, hc, hnil⟩)
    · exact ⟨input, hinput, by rw [foundFor, hcleaned]; rfl⟩
    · obtain ⟨input, hinput, hcleaned⟩ := mem_passed_iff.mp hc
      refine ⟨input, hinput, ?_⟩
      rw [foundFor, hcleaned]
      exact List.getLast?_eq_none_iff.mpr hnil

/-- Where the request is answered, the policy is honoured if the rows are looked up right. -/
theorem honoursPolicy_answer_iff :
    HonoursPolicy texts store inputs policy
        (finish store policy
          (updateLoop texts store sel (requested texts store sel (passed texts inputs)) inputs
            fun _ => none)
          (inputs.map (instanceData texts store sel
            (requested texts store sel (passed texts inputs))))) ↔
      LookedUpRight texts store sel inputs policy := by
  have hmem : ∀ input ∈ inputs, ∀ s,
      foundFor texts store sel (requested texts store sel (passed texts inputs)) input = some s →
        s ∈ store.stocks := by
    intro input _ s hfound
    obtain ⟨c, -, hfound⟩ := Option.bind_eq_some_iff.mp hfound
    exact List.mem_of_mem_filter (List.mem_of_mem_filter (List.mem_of_getLast? hfound))
  rw [honoursPolicy_finish_iff hmem, forall_foundFor_iff, exists_foundFor_iff, LookedUpRight]

/-- **The error policy is honoured** exactly under the condition. -/
theorem honoursPolicy_iff (texts : Texts) (store : Store) (inputs : List StockBulkUpdateInput)
    (policy : ErrorPolicy) :
    (∃ o, performMutation texts store inputs policy = .ok o ∧
        HonoursPolicy texts store inputs policy o) ↔
      Applicable texts store inputs policy := by
  simp only [performMutation_eq_ok_iff]
  constructor
  · rintro ⟨_, ⟨sel, hselectors, hdenotes, rfl⟩, hhonours⟩
    rw [honoursPolicy_answer_iff] at hhonours
    rcases getSelectors_eq_ok_iff.mp hselectors with ⟨hnone, -⟩ | ⟨first, hfirst, rfl, hhas⟩
    · exact .inl hnone
    · exact .inr ⟨first, hfirst, fun c hc => ⟨hhas c hc, hdenotes c hc⟩, hhonours⟩
  · rintro (hnone | ⟨first, hfirst, hall, hright⟩)
    · refine ⟨_, ⟨⟨.id, .id⟩, getSelectors_eq_ok_iff.mpr (.inl ⟨hnone, rfl⟩), ?_, rfl⟩,
        honoursPolicy_answer_iff.mpr (.inl ?_)⟩
      · exact fun c hc => absurd (hnone ▸ hc) List.not_mem_nil
      · exact fun c hc => absurd (hnone ▸ hc) List.not_mem_nil
    · refine ⟨_, ⟨first.selectors, getSelectors_eq_ok_iff.mpr (.inr ⟨first, hfirst, rfl, ?_⟩), ?_,
        rfl⟩, honoursPolicy_answer_iff.mpr hright⟩
      · exact fun c hc => (hall c hc).1
      · exact fun c hc => (hall c hc).2

/-- A shop with seven shirts in its hall. -/
def shop : Store where
  stocks := ⟨[{ pk := 1, warehouse := 1, productVariant := 1, quantity := 7 }], by decide⟩
  variantReference v := if v = 1 then some "shirt" else none
  warehouseReference w := if w = 1 then some "hall" else none

/-- A row about these shirts. -/
def shirts (quantity : ℤ) : StockBulkUpdateInput where
  variantExternalReference := some (some "shirt")
  warehouseExternalReference := some (some "hall")
  quantity := quantity

theorem noId_empty : (fun _ : String => (none : Option (String × String))) "" = none := rfl

/-- No global id denotes anything. -/
def noIds : Texts := Texts.small (fun _ => none) noId_empty

/-- A row that is rejected may stand second, but not first. -/
theorem honoursPolicy_not_always :
    performMutation noIds shop [shirts (-1), shirts 5] .ignoreFailed = .error .attributeError ∧
      (performMutation noIds shop [shirts 5, shirts (-1)] .ignoreFailed).toOption.map
        (fun o => o.stocks.rows.map (·.quantity)) = some [5] ∧
      ¬ ∃ o, performMutation noIds shop [shirts (-1), shirts 5] .ignoreFailed = .ok o ∧
        HonoursPolicy noIds shop [shirts (-1), shirts 5] .ignoreFailed o := by
  have hselectors : getSelectors ([shirts (-1), shirts 5].map fun input =>
      (cleanStock noIds input).2) = .error .attributeError := by decide +kernel
  have herror : performMutation noIds shop [shirts (-1), shirts 5] .ignoreFailed
      = .error .attributeError := by
    rw [performMutation, hselectors]
  refine ⟨herror, by decide +kernel, ?_⟩
  rintro ⟨o, ho, -⟩
  rw [herror] at ho
  cases ho

end Request

end StockBulkUpdate

end Aixinwu
