import Aixinwu.Lib.Aggregates
import Aixinwu.Lib.Runs
import Aixinwu.Product.PredicateMeaning
import Aixinwu.Product.Promotions

/-!
# Updating a promotion rule

A rule with a fixed reward is in one currency: it has channels, all of the same currency, and its
value has no more places than the currency. `PromotionRuleUpdate` takes a rule through any number of
changes to its channels, its value and the type of its reward, and `clean_reward` is to keep that.

It works out which currencies the rule will have without working out its channels: those of the
channels it has and gets, without those of the channels that are listed for removal. Where a removed
channel shares its currency with one that stays, the currency is struck off all the same; one
currency that is left may then stand for two, and none that is left for one. And all of this is
asked only if the request names a value or a type. A request that only changes channels is not
checked at all.

## The value that is checked

`or` looks for another value than zero and `None`, so the value and the type that are checked are
those of the request only if there is something in them. A value of zero fits every currency, and a
rule whose value or type is unset has nothing to check.

## What is deliberately absent

Names and descriptions, the limits of the decimal column, and what happens after the rule is saved.
An id stands for one object.

## Main definitions

* `Channel`, `PromotionRule`, `PromotionRuleUpdateInput`
* `cleanReward`, `cleanInput`, `performMutation`
* `Valid`, `RefusedForChannels`, `ChangesInOneCurrency`

## Main results

* `channelCurrencies_subset`, `channelCurrencies_eq` — the currencies of a request
* `valid_of_performMutation`, `not_refusedForChannels` — one request
* `valid_of_run` — every sequence of requests
-/

namespace Aixinwu

namespace RuleUpdates

open Promotions (RewardValueType)
open RuleTargets (Predicate PredicateError cleanPredicate)

/-- `channel.models.Channel`; the currency of a channel does not change. -/
structure Channel where
  pk : ℕ
  currencyCode : String
deriving DecidableEq, Repr

instance : HasPk Channel ℕ := ⟨Channel.pk⟩

/-- `discount.models.PromotionRule`, with its channels. -/
structure PromotionRule (δ : Type*) where
  channels : Finset Channel := ∅
  rewardValueType : Option RewardValueType := none
  rewardValue : Option ℚ := none
  cataloguePredicate : Predicate δ

/-- `PromotionRuleUpdateInput`. A value, a type and a predicate may be missing, `null` or there. -/
structure PromotionRuleUpdateInput (δ : Type*) where
  addChannels : List ℕ := []
  removeChannels : List ℕ := []
  rewardValue : Option (Option ℚ) := none
  rewardValueType : Option (Option RewardValueType) := none
  cataloguePredicate : Option (Predicate δ) := none

/-- `PromotionRuleUpdateErrorCode`, as far as it is used here. -/
inductive PromotionRuleUpdateErrorCode where
  | duplicatedInputItem
  | graphqlError
  | missingChannels
  | multipleCurrenciesNotAllowed
  | invalidPrecision
  | invalid
deriving DecidableEq, Repr

/-- How a request can fail. -/
inductive Failure where
  | validation (fields : List String) (message : String) (code : PromotionRuleUpdateErrorCode)
  | assertionError
  | typeError
deriving DecidableEq, Repr

variable {δ : Type*}

section Update

variable (channels : Table Channel) (currencyFraction : String → ℕ)
  (cleanCondition : δ → Except PredicateError δ)

/-- `get_nodes_or_error`: the channels with these ids, in their order, each once. -/
def getNodesOrError (ids : List ℕ) (field : String) : Except Failure (List Channel) :=
  let nodes := ids.eraseDups.filterMap channels.find?
  if ids = [] then .ok []
  else if nodes = [] then
    .error (.validation [field] "Could not resolve to a node with the global id list" .graphqlError)
  else if ids.any fun id => (channels.find? id).isNone then .error .assertionError
  else .ok nodes

/-- `clean_fixed_discount_value`. -/
def cleanFixedDiscountValue (rewardValue : Option ℚ) (currencyCode : String) : Except Failure Unit :=
  match rewardValue with
  | none => .ok ()
  | some value =>
    if (value * 10 ^ currencyFraction currencyCode).den = 1 then .ok ()
    else .error (.validation ["reward_value"] "Invalid amount precision." .invalidPrecision)

/-- `clean_percentage_discount_value`; `None` cannot be compared. -/
def cleanPercentageDiscountValue (rewardValue : Option ℚ) : Except Failure Unit :=
  match rewardValue with
  | none => .error .typeError
  | some value =>
    if 100 < value then .error (.validation ["reward_value"] "Invalid percentage value." .invalid)
    else .ok ()

/-- `channel_currencies`, for these channels to add and to remove. -/
def channelCurrencies (rule : PromotionRule δ) (addChannels removeChannels : List Channel) :
    Finset String :=
  (rule.channels.image (·.currencyCode) ∪ (addChannels.map (·.currencyCode)).toFinset)
    \ (removeChannels.map (·.currencyCode)).toFinset

/-- `cleaned_input.get("reward_value") or instance.reward_value`. -/
def checkedValue (rule : PromotionRule δ) (input : PromotionRuleUpdateInput δ) : Option ℚ :=
  match input.rewardValue with
  | some (some value) => if value = 0 then rule.rewardValue else some value
  | _ => rule.rewardValue

/-- `cleaned_input.get("reward_value_type") or instance.reward_value_type`. -/
def checkedType (rule : PromotionRule δ) (input : PromotionRuleUpdateInput δ) :
    Option RewardValueType :=
  match input.rewardValueType with
  | some (some type) => some type
  | _ => rule.rewardValueType

/-- `clean_reward`. -/
def cleanReward (rule : PromotionRule δ) (input : PromotionRuleUpdateInput δ)
    (addChannels removeChannels : List Channel) : Except Failure Unit :=
  let currencies := channelCurrencies rule addChannels removeChannels
  if input.rewardValue.isSome || input.rewardValueType.isSome then
    match checkedType rule input with
    | some .fixed =>
      match currencies.sort (· ≤ ·) with
      | [] =>
        .error (.validation
          [if input.rewardValueType.isSome then "reward_value_type" else "remove_channels"]
          "Channels must be specified for FIXED rewardValueType." .missingChannels)
      | [currency] => cleanFixedDiscountValue currencyFraction (checkedValue rule input) currency
      | _ =>
        .error (.validation
          [if input.rewardValueType.isSome then "reward_value_type" else "add_channels"]
          "Channels must have the same currency code for FIXED rewardValueType."
          .multipleCurrenciesNotAllowed)
    | some .percentage => cleanPercentageDiscountValue (checkedValue rule input)
    | none => .ok ()
  else .ok ()

/-- The predicate of a request, cleaned if there is something in it. -/
def cleanCataloguePredicate (predicate : Option (Predicate δ)) :
    Except Failure (Option (Predicate δ)) :=
  match predicate with
  | none => .ok none
  | some p =>
    if p.isEmpty then .ok (some p)
    else
      match cleanPredicate cleanCondition none p with
      | .ok p => .ok (some p)
      | .error e => .error (.validation ["catalogue_predicate"] e.message .invalid)

/-- `clean_input`: the channels to add and to remove, and the predicate. -/
def cleanInput (rule : PromotionRule δ) (input : PromotionRuleUpdateInput δ) :
    Except Failure (List Channel × List Channel × Option (Predicate δ)) :=
  if input.addChannels.any fun id => id ∈ input.removeChannels then
    .error (.validation ["addChannels", "removeChannels"]
      "The same object cannot be in both list for adding and removing items." .duplicatedInputItem)
  else
    (getNodesOrError channels input.addChannels "add_channels").bind fun addChannels =>
    (getNodesOrError channels input.removeChannels "remove_channels").bind fun removeChannels =>
    (cleanReward currencyFraction rule input addChannels removeChannels).bind fun _ =>
    (cleanCataloguePredicate cleanCondition input.cataloguePredicate).map fun predicate =>
      (addChannels, removeChannels, predicate)

/-- `construct_instance` and `_save_m2m`. -/
def save (rule : PromotionRule δ) (input : PromotionRuleUpdateInput δ)
    (addChannels removeChannels : List Channel) (predicate : Option (Predicate δ)) :
    PromotionRule δ where
  channels := (rule.channels \ removeChannels.toFinset) ∪ addChannels.toFinset
  rewardValueType := input.rewardValueType.getD rule.rewardValueType
  rewardValue := input.rewardValue.getD rule.rewardValue
  cataloguePredicate := predicate.getD rule.cataloguePredicate

/-- `PromotionRuleUpdate.perform_mutation`. -/
def performMutation (rule : PromotionRule δ) (input : PromotionRuleUpdateInput δ) :
    Except Failure (PromotionRule δ) :=
  (cleanInput channels currencyFraction cleanCondition rule input).map fun cleaned =>
    save rule input cleaned.1 cleaned.2.1 cleaned.2.2

/-- The rule after a request; a request that fails leaves it alone. -/
def step (rule : PromotionRule δ) (input : PromotionRuleUpdateInput δ) : PromotionRule δ :=
  match performMutation channels currencyFraction cleanCondition rule input with
  | .ok rule => rule
  | .error _ => rule

/-! ### What is to be kept -/

/-- A fixed reward is in one currency, a percentage at most all. -/
structure Valid (rule : PromotionRule δ) : Prop where
  fixed : rule.rewardValueType = some .fixed → ∃ currency, rule.channels.Nonempty ∧
    (∀ channel ∈ rule.channels, channel.currencyCode = currency) ∧
    ∀ value, rule.rewardValue = some value → (value * 10 ^ currencyFraction currency).den = 1
  percentage : rule.rewardValueType = some .percentage → ∀ value, rule.rewardValue = some value →
    value ≤ 100

/-- The channels that a request names. -/
def named (ids : List ℕ) : List Channel := ids.filterMap channels.find?

/-- The request is refused for its channels or their currencies. -/
def RefusedForChannels (rule : PromotionRule δ) (input : PromotionRuleUpdateInput δ) : Prop :=
  ∃ fields message code,
    performMutation channels currencyFraction cleanCondition rule input
      = .error (.validation fields message code) ∧
    (code = .missingChannels ∨ code = .multipleCurrenciesNotAllowed)

/-- The rule that a request asks for. -/
def asked (rule : PromotionRule δ) (input : PromotionRuleUpdateInput δ) : PromotionRule δ :=
  save rule input (named channels input.addChannels) (named channels input.removeChannels)
    input.cataloguePredicate

/-- No channel listed for removal shares its currency with one that the rule keeps or gets. -/
def StrikesOffWhatGoes (rule : PromotionRule δ) (input : PromotionRuleUpdateInput δ) : Prop :=
  ∀ removed ∈ named channels input.removeChannels, ∀ channel ∈ (asked channels rule input).channels,
    channel.currencyCode ≠ removed.currencyCode

/-- A fixed reward changes its channels within its currency, or together with its value or type. In
the first case some channel is left, in the second no channel listed for removal shares its currency
with one that is left, and the type is not unset. -/
def ChangesInOneCurrency (rule : PromotionRule δ) (input : PromotionRuleUpdateInput δ) : Prop :=
  if input.rewardValue.isSome || input.rewardValueType.isSome then
    checkedType rule input = some .fixed →
      input.rewardValueType ≠ some none ∧ StrikesOffWhatGoes channels rule input
  else
    rule.rewardValueType = some .fixed →
      (asked channels rule input).channels.Nonempty ∧
      ∀ added ∈ named channels input.addChannels, ∀ channel ∈ rule.channels,
        added.currencyCode = channel.currencyCode

end Update

/-! ### One request -/

variable {channels : Table Channel} {currencyFraction : String → ℕ}
  {cleanCondition : δ → Except PredicateError δ} {rule rule' : PromotionRule δ}
  {input : PromotionRuleUpdateInput δ}

/-- What goes wrong in a computation, or in the one that goes on with its result. -/
theorem exists_of_bind_eq_error {ε α β : Type*} {x : Except ε α} {f : α → Except ε β} {e : ε}
    (h : x.bind f = .error e) : x = .error e ∨ ∃ a, x = .ok a ∧ f a = .error e := by
  cases x with
  | error e' => exact Or.inl (congrArg Except.error (Except.error.inj h))
  | ok a => exact Or.inr ⟨a, rfl, h⟩

theorem mem_of_getNodesOrError {ids : List ℕ} {field : String} {nodes : List Channel}
    (h : getNodesOrError channels ids field = .ok nodes) (channel : Channel) :
    channel ∈ nodes ↔ channel ∈ named channels ids := by
  rw [getNodesOrError] at h
  split at h
  · rename_i hnil
    obtain rfl := Except.ok.inj h
    rw [hnil]
    rfl
  · split at h
    · cases h
    · split at h
      · cases h
      · obtain rfl := Except.ok.inj h
        simp only [named, List.mem_filterMap, List.mem_eraseDups]

/-- No request for channels is refused in finding them for want of channels or currencies. -/
theorem code_of_getNodesOrError {ids : List ℕ} {field message : String} {fields : List String}
    {code : PromotionRuleUpdateErrorCode}
    (h : getNodesOrError channels ids field = .error (.validation fields message code)) :
    code = .graphqlError := by
  rw [getNodesOrError] at h
  split at h
  · cases h
  · split at h
    · cases h
      rfl
    · split at h <;> cases h

/-- **A request that is accepted**: what it names was found and its reward was checked. -/
theorem of_performMutation_eq_ok
    (h : performMutation channels currencyFraction cleanCondition rule input = .ok rule') :
    ∃ addChannels removeChannels predicate,
      (∀ channel, channel ∈ addChannels ↔ channel ∈ named channels input.addChannels) ∧
      (∀ channel, channel ∈ removeChannels ↔ channel ∈ named channels input.removeChannels) ∧
      cleanReward currencyFraction rule input addChannels removeChannels = .ok () ∧
      rule' = save rule input addChannels removeChannels predicate := by
  obtain ⟨cleaned, hcleaned, rfl⟩ := exists_of_map_eq_ok h
  rw [cleanInput] at hcleaned
  split at hcleaned
  · cases hcleaned
  · obtain ⟨addChannels, hadd, hcleaned⟩ := exists_of_bind_eq_ok hcleaned
    obtain ⟨removeChannels, hremove, hcleaned⟩ := exists_of_bind_eq_ok hcleaned
    obtain ⟨u, hreward, hcleaned⟩ := exists_of_bind_eq_ok hcleaned
    obtain ⟨predicate, -, rfl⟩ := exists_of_map_eq_ok hcleaned
    exact ⟨addChannels, removeChannels, predicate, mem_of_getNodesOrError hadd,
      mem_of_getNodesOrError hremove, hreward, rfl⟩

/-- A request that is refused for its channels was refused by `clean_reward`. -/
theorem of_refusedForChannels
    (h : RefusedForChannels channels currencyFraction cleanCondition rule input) :
    ∃ addChannels removeChannels fields message code,
      (∀ channel, channel ∈ addChannels ↔ channel ∈ named channels input.addChannels) ∧
      (∀ channel, channel ∈ removeChannels ↔ channel ∈ named channels input.removeChannels) ∧
      cleanReward currencyFraction rule input addChannels removeChannels
        = .error (.validation fields message code) ∧
      (code = .missingChannels ∨ code = .multipleCurrenciesNotAllowed) := by
  obtain ⟨fields, message, code, hperform, hcode⟩ := h
  have hinput : cleanInput channels currencyFraction cleanCondition rule input
      = .error (.validation fields message code) := by
    rw [performMutation] at hperform
    cases hc : cleanInput channels currencyFraction cleanCondition rule input with
    | ok cleaned => rw [hc] at hperform; cases hperform
    | error e => rw [hc] at hperform; exact congrArg Except.error (Except.error.inj hperform)
  have hother : ∀ {code'}, code = code' → code' ≠ .missingChannels →
      code' ≠ .multipleCurrenciesNotAllowed → False := by
    rintro code' rfl hmissing hmultiple
    exact hcode.elim hmissing hmultiple
  rw [cleanInput] at hinput
  split at hinput
  · cases hinput
    exact (hother rfl (by decide) (by decide)).elim
  · rcases exists_of_bind_eq_error hinput with hadd | ⟨addChannels, hadd, hinput⟩
    · exact (hother (code_of_getNodesOrError hadd) (by decide) (by decide)).elim
    rcases exists_of_bind_eq_error hinput with hremove | ⟨removeChannels, hremove, hinput⟩
    · exact (hother (code_of_getNodesOrError hremove) (by decide) (by decide)).elim
    rcases exists_of_bind_eq_error hinput with hreward | ⟨u, hreward, hinput⟩
    · exact ⟨addChannels, removeChannels, fields, message, code, mem_of_getNodesOrError hadd,
        mem_of_getNodesOrError hremove, hreward, hcode⟩
    · have hinvalid : code = .invalid := by
        cases hp : input.cataloguePredicate with
        | none => rw [hp] at hinput; cases hinput
        | some p =>
          rw [hp, cleanCataloguePredicate] at hinput
          split at hinput
          · cases hinput
          · split at hinput
            · cases hinput
            · cases hinput
              rfl
      exact (hother hinvalid (by decide) (by decide)).elim

/-! ### The currencies of a request -/

section Currencies

variable {addChannels removeChannels : List Channel}

/-- The channels of the rule afterwards. -/
theorem channels_save (predicate : Option (Predicate δ))
    (hadd : ∀ channel, channel ∈ addChannels ↔ channel ∈ named channels input.addChannels)
    (hremove : ∀ channel, channel ∈ removeChannels ↔ channel ∈ named channels input.removeChannels) :
    (save rule input addChannels removeChannels predicate).channels
      = (asked channels rule input).channels := by
  ext channel
  simp only [save, asked, Finset.mem_union, Finset.mem_sdiff, List.mem_toFinset, hadd, hremove]

/-- The currencies that are checked are among those of the rule afterwards. -/
theorem channelCurrencies_subset
    (hadd : ∀ channel, channel ∈ addChannels ↔ channel ∈ named channels input.addChannels)
    (hremove : ∀ channel, channel ∈ removeChannels ↔ channel ∈ named channels input.removeChannels) :
    channelCurrencies rule addChannels removeChannels
      ⊆ (asked channels rule input).channels.image (·.currencyCode) := by
  intro currency h
  rw [channelCurrencies, Finset.mem_sdiff, Finset.mem_union] at h
  obtain ⟨hhas, hnot⟩ := h
  rw [Finset.mem_image]
  rcases hhas with hrule | hnew
  · obtain ⟨channel, hchannel, rfl⟩ := Finset.mem_image.mp hrule
    refine ⟨channel, Finset.mem_union_left _ (Finset.mem_sdiff.mpr ⟨hchannel, fun hgone => hnot ?_⟩),
      rfl⟩
    exact List.mem_toFinset.mpr (List.mem_map_of_mem ((hremove channel).mpr
      (List.mem_toFinset.mp hgone)))
  · obtain ⟨channel, hchannel, rfl⟩ := List.mem_map.mp (List.mem_toFinset.mp hnew)
    exact ⟨channel, Finset.mem_union_right _ (List.mem_toFinset.mpr ((hadd channel).mp hchannel)), rfl⟩

/-- **They are those currencies**, unless a channel listed for removal shares its currency with one
that is left. -/
theorem channelCurrencies_eq
    (hadd : ∀ channel, channel ∈ addChannels ↔ channel ∈ named channels input.addChannels)
    (hremove : ∀ channel, channel ∈ removeChannels ↔ channel ∈ named channels input.removeChannels)
    (h : StrikesOffWhatGoes channels rule input) :
    channelCurrencies rule addChannels removeChannels
      = (asked channels rule input).channels.image (·.currencyCode) := by
  refine Finset.Subset.antisymm (channelCurrencies_subset hadd hremove) fun currency hcurrency => ?_
  obtain ⟨channel, hchannel, rfl⟩ := Finset.mem_image.mp hcurrency
  rw [channelCurrencies, Finset.mem_sdiff, Finset.mem_union]
  refine ⟨?_, fun hgone => ?_⟩
  · rcases Finset.mem_union.mp hchannel with hkept | hnew
    · exact Or.inl (Finset.mem_image_of_mem _ (Finset.mem_sdiff.mp hkept).1)
    · exact Or.inr (List.mem_toFinset.mpr (List.mem_map_of_mem ((hadd channel).mpr
        (List.mem_toFinset.mp hnew))))
  · obtain ⟨removed, hremoved, heq⟩ := List.mem_map.mp (List.mem_toFinset.mp hgone)
    exact h removed ((hremove removed).mp hremoved) channel hchannel heq.symm

end Currencies

/-! ### What is checked -/

/-- The type that is checked is the one that is saved, unless it is unset. -/
theorem checkedType_eq (h : input.rewardValueType ≠ some none) :
    checkedType rule input = input.rewardValueType.getD rule.rewardValueType := by
  rw [checkedType]
  rcases hgiven : input.rewardValueType with _ | _ | type
  · rfl
  · exact absurd hgiven h
  · rfl

/-- A value that is saved is the one that was checked, or zero. -/
theorem eq_checkedValue_or_zero {value : ℚ}
    (h : input.rewardValue.getD rule.rewardValue = some value) :
    checkedValue rule input = some value ∨ value = 0 := by
  rw [checkedValue]
  rcases hgiven : input.rewardValue with _ | _ | given
  · rw [hgiven] at h
    exact Or.inl h
  · rw [hgiven] at h
    cases h
  · rw [hgiven] at h
    obtain rfl := Option.some.inj h
    by_cases hzero : given = 0
    · exact Or.inr hzero
    · exact Or.inl (if_neg hzero)

variable {addChannels removeChannels : List Channel}

/-- **What an accepted check says** of a fixed reward. -/
theorem of_cleanReward_fixed (hgiven : (input.rewardValue.isSome || input.rewardValueType.isSome) = true)
    (htype : checkedType rule input = some .fixed)
    (h : cleanReward currencyFraction rule input addChannels removeChannels = .ok ()) :
    ∃ currency, channelCurrencies rule addChannels removeChannels = {currency} ∧
      ∀ value, checkedValue rule input = some value →
        (value * 10 ^ currencyFraction currency).den = 1 := by
  rw [cleanReward, htype, if_pos hgiven] at h
  dsimp only at h
  split at h
  · cases h
  · rename_i currency hsort
    refine ⟨currency, ?_, fun value hvalue => ?_⟩
    · rw [← Finset.sort_toFinset (channelCurrencies rule addChannels removeChannels) (· ≤ ·), hsort]
      rfl
    · rw [hvalue, cleanFixedDiscountValue] at h
      split at h
      · assumption
      · cases h
  · cases h

/-- What it says of a percentage. -/
theorem of_cleanReward_percentage
    (hgiven : (input.rewardValue.isSome || input.rewardValueType.isSome) = true)
    (htype : checkedType rule input = some .percentage)
    (h : cleanReward currencyFraction rule input addChannels removeChannels = .ok ()) :
    ∀ value, checkedValue rule input = some value → value ≤ 100 := by
  intro value hvalue
  rw [cleanReward, htype, if_pos hgiven] at h
  dsimp only at h
  rw [hvalue, cleanPercentageDiscountValue] at h
  split at h
  · cases h
  · rename_i hle
    exact not_lt.mp hle

/-- What a refusal for channels says: the reward is fixed, and the currencies are not one. -/
theorem of_cleanReward_refused {fields : List String} {message : String}
    {code : PromotionRuleUpdateErrorCode}
    (hcode : code = .missingChannels ∨ code = .multipleCurrenciesNotAllowed)
    (h : cleanReward currencyFraction rule input addChannels removeChannels
      = .error (.validation fields message code)) :
    (input.rewardValue.isSome || input.rewardValueType.isSome) = true ∧
      checkedType rule input = some .fixed ∧
      ∀ currency, channelCurrencies rule addChannels removeChannels ≠ {currency} := by
  have hother : ∀ {code'}, code = code' → code' ≠ .missingChannels →
      code' ≠ .multipleCurrenciesNotAllowed → False := by
    rintro code' rfl hmissing hmultiple
    exact hcode.elim hmissing hmultiple
  rw [cleanReward] at h
  split at h
  · rename_i hgiven
    split at h
    · rename_i htype
      refine ⟨hgiven, htype, fun currency hsingle => ?_⟩
      have hsort : (channelCurrencies rule addChannels removeChannels).sort (· ≤ ·) = [currency] := by
        rw [hsingle, Finset.sort_singleton]
      rw [hsort] at h
      dsimp only at h
      rw [cleanFixedDiscountValue.eq_def] at h
      split at h
      · cases h
      · split at h
        · cases h
        · cases h
          exact hother rfl (by decide) (by decide)
    · rw [cleanPercentageDiscountValue.eq_def] at h
      split at h
      · cases h
      · split at h
        · cases h
          exact (hother rfl (by decide) (by decide)).elim
        · cases h
    · cases h
  · cases h

/-- **An accepted request keeps the rule valid**, if it changes channels in one currency. -/
theorem valid_of_performMutation (hvalid : Valid currencyFraction rule)
    (hchanges : ChangesInOneCurrency channels rule input)
    (h : performMutation channels currencyFraction cleanCondition rule input = .ok rule') :
    Valid currencyFraction rule' := by
  obtain ⟨addChannels, removeChannels, predicate, hadd, hremove, hreward, rfl⟩ :=
    of_performMutation_eq_ok h
  have hchannels := @channels_save δ channels rule input _ _ predicate hadd hremove
  rw [ChangesInOneCurrency] at hchanges
  by_cases hgiven : (input.rewardValue.isSome || input.rewardValueType.isSome) = true
  · rw [if_pos hgiven] at hchanges
    refine ⟨fun htype => ?_, fun htype value hvalue => ?_⟩
    · have hset : input.rewardValueType ≠ some none := by
        intro hunset
        rw [save, hunset] at htype
        cases htype
      have hchecked : checkedType rule input = some .fixed := (checkedType_eq hset).trans htype
      obtain ⟨currency, hcurrency, hvalue⟩ := of_cleanReward_fixed hgiven hchecked hreward
      rw [channelCurrencies_eq hadd hremove (hchanges hchecked).2] at hcurrency
      refine ⟨currency, ?_, fun channel hchannel => ?_, fun value hsaved => ?_⟩
      · rw [hchannels]
        refine (Finset.image_nonempty (f := Channel.currencyCode)).mp ?_
        rw [hcurrency]
        exact Finset.singleton_nonempty currency
      · rw [hchannels] at hchannel
        have hmem := Finset.mem_image_of_mem (·.currencyCode) hchannel
        rw [hcurrency] at hmem
        exact Finset.mem_singleton.mp hmem
      · rcases eq_checkedValue_or_zero hsaved with hchecked | rfl
        · exact hvalue value hchecked
        · rw [zero_mul]
          rfl
    · have hset : input.rewardValueType ≠ some none := by
        intro hunset
        rw [save, hunset] at htype
        cases htype
      have hchecked : checkedType rule input = some .percentage := (checkedType_eq hset).trans htype
      rcases eq_checkedValue_or_zero hvalue with hsaved | rfl
      · exact of_cleanReward_percentage hgiven hchecked hreward value hsaved
      · norm_num
  · rw [if_neg hgiven] at hchanges
    rw [Bool.not_eq_true, Bool.or_eq_false_iff, Option.isSome_eq_false_iff,
      Option.isSome_eq_false_iff, Option.isNone_iff_eq_none, Option.isNone_iff_eq_none] at hgiven
    have htype : (save rule input addChannels removeChannels predicate).rewardValueType
        = rule.rewardValueType := by
      rw [save, hgiven.2]
      rfl
    have hvalue : (save rule input addChannels removeChannels predicate).rewardValue
        = rule.rewardValue := by
      rw [save, hgiven.1]
      rfl
    refine ⟨fun hfixed => ?_, fun hpercentage => ?_⟩
    · rw [htype] at hfixed
      obtain ⟨currency, ⟨first, hfirst⟩, hcurrency, hfits⟩ := hvalid.fixed hfixed
      obtain ⟨hleft, hsame⟩ := hchanges hfixed
      refine ⟨currency, hchannels ▸ hleft, fun channel hchannel => ?_, hvalue ▸ hfits⟩
      rw [hchannels] at hchannel
      rcases Finset.mem_union.mp hchannel with hkept | hnew
      · exact hcurrency channel (Finset.mem_sdiff.mp hkept).1
      · exact (hsame channel (List.mem_toFinset.mp hnew) first hfirst).trans (hcurrency first hfirst)
    · rw [hvalue]
      exact hvalid.percentage (htype ▸ hpercentage)

/-- **No request for a valid rule is refused for its channels**, if it changes channels in one
currency. -/
theorem not_refusedForChannels (hchanges : ChangesInOneCurrency channels rule input)
    (hasked : Valid currencyFraction (asked channels rule input)) :
    ¬ RefusedForChannels channels currencyFraction cleanCondition rule input := by
  intro hrefused
  obtain ⟨addChannels, removeChannels, fields, message, code, hadd, hremove, hreward, hcode⟩ :=
    of_refusedForChannels hrefused
  obtain ⟨hgiven, htype, hnot⟩ := of_cleanReward_refused hcode hreward
  rw [ChangesInOneCurrency, if_pos hgiven] at hchanges
  obtain ⟨hset, hstrikes⟩ := hchanges htype
  have hfixed : (asked channels rule input).rewardValueType = some .fixed :=
    (checkedType_eq hset).symm.trans htype
  obtain ⟨currency, hnonempty, hcurrency, -⟩ := hasked.fixed hfixed
  refine hnot currency ?_
  rw [channelCurrencies_eq hadd hremove hstrikes]
  refine Finset.eq_singleton_iff_nonempty_unique_mem.mpr ⟨hnonempty.image _, fun c hc => ?_⟩
  obtain ⟨channel, hchannel, rfl⟩ := Finset.mem_image.mp hc
  exact hcurrency channel hchannel

/-! ### Every sequence of requests -/

open Runs

/-- **A fixed rule stays in one currency** in every run of requests that change channels in one
currency, and none of them is refused for its channels if it asks for a valid rule. -/
theorem valid_of_run (cleanCondition : δ → Except PredicateError δ)
    (hvalid : Valid currencyFraction rule) {requests : List (PromotionRuleUpdateInput δ)}
    (h : EachStep (step channels currencyFraction cleanCondition) (ChangesInOneCurrency channels)
      rule requests) :
    (∀ reached, Reached (step channels currencyFraction cleanCondition) rule requests reached →
      Valid currencyFraction reached) ∧
    EachStep (step channels currencyFraction cleanCondition)
      (fun rule input => Valid currencyFraction (asked channels rule input) →
        ¬ RefusedForChannels channels currencyFraction cleanCondition rule input)
      rule requests := by
  refine ⟨fun reached hreached => EachStep.inv_reached ?_ h hvalid hreached,
    h.mono fun rule input hchanges => not_refusedForChannels hchanges⟩
  intro rule input hrule hchanges
  rw [step]
  split
  · rename_i rule' hperform
    exact valid_of_performMutation hrule hchanges hperform
  · exact hrule

/-! ### Two dollar channels and a złoty channel -/

def usChannel : Channel where
  pk := 1
  currencyCode := "USD"

def outletChannel : Channel where
  pk := 2
  currencyCode := "USD"

def plChannel : Channel where
  pk := 3
  currencyCode := "PLN"

def shopChannels : Table Channel where
  rows := [usChannel, outletChannel, plChannel]
  nodup := by decide

/-- Five dollars off. -/
def fiveDollarsOff : PromotionRule Unit where
  channels := {usChannel}
  rewardValueType := some .fixed
  rewardValue := some 5
  cataloguePredicate := .mk none none false fun _ => none

/-- Seven dollars off, in the outlet as well. -/
def sevenInTheOutlet : PromotionRuleUpdateInput Unit where
  addChannels := [2]
  rewardValue := some (some 7)

/-- A request for the złoty channel, and nothing else. -/
def inPolandToo : PromotionRuleUpdateInput Unit where
  addChannels := [3]

theorem valid_fiveDollarsOff : Valid (fun _ => 2) fiveDollarsOff := by
  refine ⟨fun _ => ⟨"USD", Finset.singleton_nonempty usChannel, ?_, ?_⟩, fun h => by cases h⟩
  · intro channel h
    rw [Finset.mem_singleton.mp h]
    rfl
  · intro value h
    obtain rfl := Option.some.inj h
    norm_num

/-- Both halves of the result, for a request with a value and a channel. -/
theorem valid_of_run_sevenInTheOutlet :
    Valid (fun _ => 2) fiveDollarsOff ∧
    EachStep (step shopChannels (fun _ => 2) .ok) (ChangesInOneCurrency shopChannels) fiveDollarsOff
      [sevenInTheOutlet] ∧
    (∀ reached, Reached (step shopChannels (fun _ => 2) .ok) fiveDollarsOff [sevenInTheOutlet] reached →
      Valid (fun _ => 2) reached) ∧
    EachStep (step shopChannels (fun _ => 2) .ok)
      (fun rule input => Valid (fun _ => 2) (asked shopChannels rule input) →
        ¬ RefusedForChannels shopChannels (fun _ => 2) .ok rule input)
      fiveDollarsOff [sevenInTheOutlet] := by
  have hchanges : EachStep (step shopChannels (fun _ => 2) .ok) (ChangesInOneCurrency shopChannels)
      fiveDollarsOff [sevenInTheOutlet] := by
    refine ⟨?_, trivial⟩
    have hgiven : (sevenInTheOutlet.rewardValue.isSome || sevenInTheOutlet.rewardValueType.isSome) = true :=
      rfl
    rw [ChangesInOneCurrency, if_pos hgiven]
    refine fun _ => ⟨fun h => (by cases h), fun removed hremoved => ?_⟩
    cases hremoved
  exact ⟨valid_fiveDollarsOff, hchanges, valid_of_run .ok valid_fiveDollarsOff hchanges⟩

/-- The request for the złoty channel is accepted, and the rule is in two currencies. -/
theorem not_valid_inPolandToo :
    ¬ ∀ (channels : Table Channel) (rule : PromotionRule Unit)
      (requests : List (PromotionRuleUpdateInput Unit)), Valid (fun _ => 2) rule →
      (∀ reached, Reached (step channels (fun _ => 2) .ok) rule requests reached →
        Valid (fun _ => 2) reached) ∧
      EachStep (step channels (fun _ => 2) .ok)
        (fun rule input => Valid (fun _ => 2) (asked channels rule input) →
          ¬ RefusedForChannels channels (fun _ => 2) .ok rule input)
        rule requests := by
  intro h
  have hvalid := (h shopChannels fiveDollarsOff [inPolandToo] valid_fiveDollarsOff).1 _
    (reached_run _ _)
  obtain ⟨currency, -, hcurrency, -⟩ := hvalid.fixed rfl
  have hus : "USD" = currency := hcurrency usChannel (by decide)
  have hpl : "PLN" = currency := hcurrency plChannel (by decide)
  exact absurd (hus.trans hpl.symm) (by decide)

end RuleUpdates

end Aixinwu
