import Aixinwu.Core.Nodes
import Aixinwu.Lib.Aggregates
import Aixinwu.Lib.Dictionaries
import Aixinwu.Lib.Table
import Aixinwu.Order.BulkCreate

/-!
# The instances of a bulk import

`OrderBulkCreate` reads all objects that its inputs name in a few queries and puts them in one
dictionary, under texts made of a model, a field and a value. Later each input looks its own objects
up, by a text made in the same way. Such a text is read in one way only, so users, variants and the
rest never get in each other's way; what is left to go wrong is inside one model and one field.

## The key of a sku

A variant's sku is stored under the field `id` and looked up under the field `sku`. So no sku is ever
found; and a sku that looks like an id stands where the variant with that id is looked for. Which of
the two is found there is a matter of which comes last in the query, and whether the other is in it
at all, of what else is named: here or, as `ModelIdentifiers` is made of default values that all its
objects share, in an earlier request.

## What is a parameter

How a global id is taken apart, and what the texts are that denote a number or a UUID. Its own text
denotes it, but so may others.

## Main definitions

* `ModelIdentifiers`, `getAllInstances`
* `getInstance`, `getInstanceWithErrors`
* `Right` — the object that is named is found, and an error reported exactly if there is none

## Main results

* `getAllInstances_eq`, `storage_apply` — what is under a key
* `getInstance_of_given` — an input that names one object looks up one key
* `right_iff_keyIsItsOwn` — for every variant and every user that a request names
-/

namespace Aixinwu

namespace BulkInstances

open BulkCreate (OrderBulkError OrderBulkCreateErrorCode)
open Nodes (Texts mapM_read eq_of_int_eq)

/-! ### Data -/

/-- `ProductVariant`. -/
structure ProductVariant where
  id : ℕ
  sku : Option String
  externalReference : Option String
deriving DecidableEq, Repr

instance : HasPk ProductVariant ℕ := ⟨ProductVariant.id⟩

/-- `User`. -/
structure User where
  id : ℕ
  email : String
  externalReference : Option String
deriving DecidableEq, Repr

instance : HasPk User ℕ := ⟨User.id⟩

/-- `App`. -/
structure App where
  id : ℕ
  removed : Bool
deriving DecidableEq, Repr

/-- The database, each table in the order a query returns it. Skus, e-mails and external references
are unique; of other objects the only field that is read is kept. -/
structure Database where
  users : Table User
  variants : Table ProductVariant
  channels : List String
  voucherCodes : List String
  giftCards : List String
  orders : List String
  warehouses : List ℕ
  shippingMethods : List ℕ
  taxClasses : List ℕ
  apps : List App
  users_email : ∀ u ∈ users, ∀ u' ∈ users, u.email = u'.email → u = u'
  users_externalReference : ∀ u ∈ users, ∀ u' ∈ users, ∀ r, u.externalReference = some r →
    u'.externalReference = some r → u = u'
  variants_sku : ∀ v ∈ variants, ∀ v' ∈ variants, ∀ s, v.sku = some s → v'.sku = some s → v = v'
  variants_externalReference : ∀ v ∈ variants, ∀ v' ∈ variants, ∀ r, v.externalReference = some r →
    v'.externalReference = some r → v = v'

/-- An instance in the dictionary. -/
inductive Instance where
  | user (u : User)
  | productVariant (v : ProductVariant)
  | channel (slug : String)
  | voucherCode (code : String)
  | giftCard (code : String)
  | order (externalReference : String)
  | warehouse (id : ℕ)
  | shippingMethod (id : ℕ)
  | taxClass (id : ℕ)
  | app (id : ℕ)
deriving DecidableEq, Repr

/-! ### The inputs -/

/-- How a line names its variant. -/
structure VariantInput where
  variantId : Option String := none
  variantSku : Option String := none
  variantExternalReference : Option String := none
deriving DecidableEq, Repr

/-- How an order or a note names its user. -/
structure UserInput where
  id : Option String := none
  email : Option String := none
  externalReference : Option String := none
deriving DecidableEq, Repr

/-- `OrderBulkCreateDeliveryMethodInput`. -/
structure DeliveryMethodInput where
  warehouseId : Option String
  shippingMethodId : Option String
  shippingTaxClassId : Option String
deriving DecidableEq, Repr

/-- `OrderBulkCreateNoteInput`. -/
structure NoteInput where
  user : UserInput
  appId : Option String
deriving DecidableEq, Repr

/-- `OrderBulkCreateOrderLineInput`. -/
structure OrderLineInput where
  variant : VariantInput
  warehouse : Option String := none
  taxClassId : Option String := none
deriving DecidableEq, Repr

/-- `OrderBulkCreateFulfillmentLineInput`. -/
structure FulfillmentLineInput where
  variant : VariantInput
  warehouse : Option String := none
deriving DecidableEq, Repr

/-- `OrderBulkCreateInput`. -/
structure OrderBulkCreateInput where
  externalReference : Option String := none
  channel : Option String := none
  user : UserInput := {}
  deliveryMethod : Option DeliveryMethodInput := none
  voucherCode : Option String := none
  giftCards : List String := []
  notes : List NoteInput := []
  lines : List OrderLineInput := []
  fulfillments : List (List FulfillmentLineInput) := []
deriving DecidableEq, Repr

/-! ### `get_all_instances` -/

/-- The fields of `ModelIdentifiers`. -/
inductive IdentifierField where
  | userIds
  | userEmails
  | userExternalReferences
  | channelSlugs
  | voucherCodes
  | warehouseIds
  | shippingMethodIds
  | taxClassIds
  | orderExternalReferences
  | variantIds
  | variantSkus
  | variantExternalReferences
  | giftCardCodes
  | appIds
deriving DecidableEq, Repr

/-- The model of a field whose keys are global ids. -/
def IdentifierField.idModel : IdentifierField → Option String
  | userIds => some "User"
  | warehouseIds => some "Warehouse"
  | shippingMethodIds => some "ShippingMethod"
  | taxClassIds => some "TaxClass"
  | variantIds => some "ProductVariant"
  | appIds => some "App"
  | _ => none

/-- `ModelIdentifiers`: the keys of each field. -/
abbrev ModelIdentifiers := IdentifierField → List String

/-- The users that an order names, for itself and in its notes. -/
def OrderBulkCreateInput.userInputs (order : OrderBulkCreateInput) : List UserInput :=
  order.user :: order.notes.map (·.user)

/-- The variants that an order names, in its lines and in those of its fulfillments. -/
def OrderBulkCreateInput.variantInputs (order : OrderBulkCreateInput) : List VariantInput :=
  order.lines.map (·.variant) ++ order.fulfillments.flatten.map (·.variant)

/-- The keys that are collected from an order. -/
def OrderBulkCreateInput.keys (order : OrderBulkCreateInput) : IdentifierField → List (Option String)
  | .userIds => order.userInputs.map (·.id)
  | .userEmails => order.userInputs.map (·.email)
  | .userExternalReferences => order.userInputs.map (·.externalReference)
  | .channelSlugs => [order.channel]
  | .voucherCodes => [order.voucherCode]
  | .warehouseIds =>
    order.deliveryMethod.toList.map (·.warehouseId) ++ order.lines.map (·.warehouse)
      ++ order.fulfillments.flatten.map (·.warehouse)
  | .shippingMethodIds => order.deliveryMethod.toList.map (·.shippingMethodId)
  | .taxClassIds =>
    order.deliveryMethod.toList.map (·.shippingTaxClassId) ++ order.lines.map (·.taxClassId)
  | .orderExternalReferences => [order.externalReference]
  | .variantIds => order.variantInputs.map (·.variantId)
  | .variantSkus => order.variantInputs.map (·.variantSku)
  | .variantExternalReferences => order.variantInputs.map (·.variantExternalReference)
  | .giftCardCodes => order.giftCards.map some
  | .appIds => order.notes.map (·.appId)

/-- What ends the mutation as a whole. -/
inductive Failure where
  | valueError
  | validationError
deriving DecidableEq, Repr

section Resolve

variable (texts : Texts)

/-- `from_global_id_or_error` with a type and `raise_error`; the error is its message. -/
def fromGlobalIdOrError (globalId onlyType : String) : Except String String :=
  let invalid := "Invalid ID: " ++ globalId ++ ". Expected: " ++ onlyType ++ "."
  match texts.fromGlobalId globalId with
  | none => .error invalid
  | some (type, id) =>
    let id := if type = "app" then globalId else id
    if type ≠ "app" ∧ texts.int id = none ∧ texts.uuid id = none then .error invalid
    else if type ≠ onlyType then
      .error ("Invalid ID: " ++ globalId ++ ". Expected: " ++ onlyType ++ ", received: " ++ type ++ ".")
    else .ok id

/-- The keys of all orders, after those that are left from earlier requests, without `None`; global
ids are converted, or dropped. -/
def collect (identifiers : ModelIdentifiers) (orders : List OrderBulkCreateInput) :
    ModelIdentifiers := fun field =>
  let keys := identifiers field ++ (orders.flatMap (·.keys field)).reduceOption
  match field.idModel with
  | some model => keys.filterMap fun globalId => (fromGlobalIdOrError texts globalId model).toOption
  | none => keys

/-- The keys of a query on a column, which reads them its way. -/
def prepare {α : Type} (read : String → Option α) (failure : Failure) (keys : List String) :
    Except Failure (List α) :=
  match keys.mapM read with
  | some keys => .ok keys
  | none => .error failure

/-- The primary keys of the queries. -/
structure PrimaryKeys where
  users : List ℤ
  variants : List ℤ
  warehouses : List ℕ
  shippingMethods : List ℤ
  taxClasses : List ℤ
  apps : List ℤ
deriving DecidableEq, Repr

/-- The queries are made in this order. -/
def preparePrimaryKeys (keys : ModelIdentifiers) : Except Failure PrimaryKeys :=
  (prepare texts.int .valueError (keys .userIds)).bind fun users =>
  (prepare texts.int .valueError (keys .variantIds)).bind fun variants =>
  (prepare texts.uuid .validationError (keys .warehouseIds)).bind fun warehouses =>
  (prepare texts.int .valueError (keys .shippingMethodIds)).bind fun shippingMethods =>
  (prepare texts.int .valueError (keys .taxClassIds)).bind fun taxClasses =>
  (prepare texts.int .valueError (keys .appIds)).map fun apps =>
    { users, variants, warehouses, shippingMethods, taxClasses, apps }

/-- A value that is stored: not `None`, and not empty. -/
def truthy (value : Option String) : List String :=
  value.toList.filter (· ≠ "")

/-- The keys of a user. -/
def userKeys (user : User) : List String :=
  [dotted "User" "id" (toString user.id), dotted "User" "email" user.email]
    ++ (truthy user.externalReference).map (dotted "User" "external_reference")

/-- The keys of a variant. -/
def variantKeys (variant : ProductVariant) : List String :=
  [dotted "ProductVariant" "id" (toString variant.id)]
    ++ (truthy variant.sku).map (dotted "ProductVariant" "id")
    ++ (truthy variant.externalReference).map (dotted "ProductVariant" "external_reference")

/-- A user is in the query. -/
def inUserQuery (keys : ModelIdentifiers) (ids : List ℤ) (u : User) : Bool :=
  (u.id : ℤ) ∈ ids || u.email ∈ keys .userEmails
    || u.externalReference.any (· ∈ keys .userExternalReferences)

/-- A variant is in the query. -/
def inVariantQuery (keys : ModelIdentifiers) (ids : List ℤ) (v : ProductVariant) : Bool :=
  (v.id : ℤ) ∈ ids || v.sku.any (· ∈ keys .variantSkus)
    || v.externalReference.any (· ∈ keys .variantExternalReferences)

/-- The dictionary. -/
def fill (db : Database) (keys : ModelIdentifiers) (ids : PrimaryKeys) : Dict String Instance :=
  let under {α : Type} (model field : String) (value : α → String) (a : α) : List String :=
    [dotted model field (value a)]
  (Dict.empty : Dict String Instance)
    |>.store userKeys .user (db.users.rows.filter (inUserQuery keys ids.users))
    |>.store variantKeys .productVariant (db.variants.rows.filter (inVariantQuery keys ids.variants))
    |>.store (under "Channel" "slug" id) .channel (db.channels.filter (· ∈ keys .channelSlugs))
    |>.store (under "VoucherCode" "code" id) .voucherCode
      (db.voucherCodes.filter (· ∈ keys .voucherCodes))
    |>.store (under "GiftCard" "code" id) .giftCard (db.giftCards.filter (· ∈ keys .giftCardCodes))
    |>.store (under "Order" "external_reference" id) .order
      (db.orders.filter (· ∈ keys .orderExternalReferences))
    |>.store (under "Warehouse" "id" texts.str) .warehouse (db.warehouses.filter (· ∈ ids.warehouses))
    |>.store (under "ShippingMethod" "id" toString) .shippingMethod
      (db.shippingMethods.filter fun n => (n : ℤ) ∈ ids.shippingMethods)
    |>.store (under "TaxClass" "id" toString) .taxClass
      (db.taxClasses.filter fun n => (n : ℤ) ∈ ids.taxClasses)
    |>.store (under "App" "id" toString) .app
      ((db.apps.filter fun app => (app.id : ℤ) ∈ ids.apps ∧ app.removed = false).map (·.id))

/-- `get_all_instances`. -/
def getAllInstances (db : Database) (identifiers : ModelIdentifiers)
    (orders : List OrderBulkCreateInput) : Except Failure (Dict String Instance) :=
  let keys := collect texts identifiers orders
  (preparePrimaryKeys texts keys).map (fill texts db keys)

/-! ### `get_instance` -/

variable (input : String → Option String) (model : String) (storage : Dict String Instance)
  (path : String)

/-- The path of a data key. -/
def pathOf (dataKey : String) : String := if path ≠ "" then path ++ "." ++ dataKey else dataKey

/-- The value of a data key, not empty, is looked up under a database key. -/
def lookUp (dataKey dbKey value : String) : Except OrderBulkError Instance :=
  let find (value : String) : Except OrderBulkError Instance :=
    match storage (dotted model dbKey value) with
    | some instance_ => .ok instance_
    | none =>
      .error
        { message := model ++ " instance with " ++ dbKey ++ "=" ++ value ++ " doesn't exist."
          path := some (pathOf path dataKey)
          code := .notFound }
  if dbKey = "id" then
    match fromGlobalIdOrError texts value model with
    | .ok id => find id
    | .error message =>
      .error { message, path := some (pathOf path dataKey), code := .invalid }
  else find value

/-- The first data key with a value that is not empty is looked up. -/
def lookUpFirst : List (String × String) → Except OrderBulkError Instance
  | [] =>
    .error
      { message := "Can't return " ++ model ++ " instance.", path := some path, code := .notFound }
  | (dataKey, dbKey) :: keyMap =>
    match truthy (input dataKey) with
    | value :: _ => lookUp texts model storage path dataKey dbKey value
    | [] => lookUpFirst keyMap

/-- `get_instance`. -/
def getInstance (keyMap : List (String × String)) : Except OrderBulkError Instance :=
  let given := keyMap.filter fun keys => (input keys.1).isSome
  let args := ", ".intercalate (keyMap.map (·.1))
  if 1 < keyMap.length ∧ 1 < given.length then
    .error
      { message := "Only one of [" ++ args ++ "] arguments can be provided to resolve " ++ model
          ++ " instance."
        path := some path
        code := .tooManyIdentifiers }
  else if 1 < keyMap.length ∧ given = [] then
    .error
      { message := "One of [" ++ args ++ "] arguments must be provided to resolve " ++ model
          ++ " instance."
        path := some path
        code := .required }
  else lookUpFirst texts input model storage path keyMap

/-- `get_instance_with_errors`: the instance, and the errors that are reported. -/
def getInstanceWithErrors (keyMap : List (String × String)) : Option Instance × List OrderBulkError :=
  match getInstance texts input model storage path keyMap with
  | .ok instance_ => (some instance_, [])
  | .error e => (none, [e])

end Resolve

/-! ### Who is found -/

/-- A data key of a line. -/
def VariantInput.get (input : VariantInput) : String → Option String
  | "variant_id" => input.variantId
  | "variant_external_reference" => input.variantExternalReference
  | "variant_sku" => input.variantSku
  | _ => none

/-- A data key of the user of an order. -/
def UserInput.get (input : UserInput) : String → Option String
  | "id" => input.id
  | "email" => input.email
  | "external_reference" => input.externalReference
  | _ => none

/-- A data key of a note. -/
def NoteInput.get (input : NoteInput) : String → Option String
  | "user_id" => input.user.id
  | "user_email" => input.user.email
  | "user_external_reference" => input.user.externalReference
  | "app_id" => input.appId
  | _ => none

/-- The `key_map` of a line. -/
def variantKeyMap : List (String × String) :=
  [("variant_id", "id"), ("variant_external_reference", "external_reference"), ("variant_sku", "sku")]

/-- The `key_map` of the user of an order. -/
def userKeyMap : List (String × String) :=
  [("id", "id"), ("email", "email"), ("external_reference", "external_reference")]

/-- The `key_map` of the user of a note. -/
def noteKeyMap : List (String × String) :=
  [("user_id", "id"), ("user_email", "email"), ("user_external_reference", "external_reference")]

/-- What is found, and the errors that are reported, unless the mutation fails as a whole. -/
abbrev Found := Except Failure (Option Instance × List OrderBulkError)

section Find

variable (texts : Texts) (db : Database) (identifiers : ModelIdentifiers)
  (orders : List OrderBulkCreateInput)

/-- The variant of a line, in `create_single_order_line` and `create_single_fulfillment`. -/
def variantOf (input : VariantInput) (path : String) : Found :=
  (getAllInstances texts db identifiers orders).map fun storage =>
    getInstanceWithErrors texts input.get "ProductVariant" storage path variantKeyMap

/-- The user of an order, in `get_instances_related_to_order`. -/
def userOf (input : UserInput) : Found :=
  (getAllInstances texts db identifiers orders).map fun storage =>
    getInstanceWithErrors texts input.get "User" storage "user" userKeyMap

/-- The user of a note, in `create_single_note`: looked for if some value is not empty. -/
def noteUserOf (input : NoteInput) (index : ℕ) : Found :=
  (getAllInstances texts db identifiers orders).map fun storage =>
    if noteKeyMap.any fun keys => truthy (input.get keys.1) ≠ [] then
      getInstanceWithErrors texts input.get "User" storage ("notes." ++ toString index) noteKeyMap
    else (none, [])

/-! ### What is to be found -/

/-- One way of naming a variant is used. -/
def VariantInput.OneGiven (input : VariantInput) : Prop :=
  input.variantId.isSome.toNat + input.variantSku.isSome.toNat
    + input.variantExternalReference.isSome.toNat = 1

/-- One way of naming a user is used. -/
def UserInput.OneGiven (input : UserInput) : Prop :=
  input.id.isSome.toNat + input.email.isSome.toNat + input.externalReference.isSome.toNat = 1

/-- The text of a global id denotes the number. -/
def Denotes (model globalId : String) (id : ℕ) : Prop :=
  ∃ t, fromGlobalIdOrError texts globalId model = .ok t ∧ texts.int t = some (id : ℤ)

/-- The variant has the id, the sku or the external reference that is given. -/
def VariantInput.Names (input : VariantInput) (v : ProductVariant) : Prop :=
  (∃ g, input.variantId = some g ∧ Denotes texts "ProductVariant" g v.id) ∨
  (∃ s, input.variantSku = some s ∧ v.sku = some s) ∨
  ∃ r, input.variantExternalReference = some r ∧ v.externalReference = some r

/-- The user has the id, the e-mail or the external reference that is given. -/
def UserInput.Names (input : UserInput) (u : User) : Prop :=
  (∃ g, input.id = some g ∧ Denotes texts "User" g u.id) ∨ input.email = some u.email ∨
  ∃ r, input.externalReference = some r ∧ u.externalReference = some r

/-- The instance that is named is found without an error; if none is, none is found and an error is
reported. -/
def Right (named : Instance → Prop) (found : Found) : Prop :=
  (∀ instance_, named instance_ → found = .ok (some instance_, [])) ∧
  ((∀ instance_, ¬ named instance_) → ∀ result, found = .ok result → result.1 = none ∧ result.2 ≠ [])

/-- The variant that a line names, as an instance. -/
def VariantInput.Named (input : VariantInput) (instance_ : Instance) : Prop :=
  ∃ v ∈ db.variants, input.Names texts v ∧ instance_ = .productVariant v

/-- The user that an order or a note names, as an instance. -/
def UserInput.Named (input : UserInput) (instance_ : Instance) : Prop :=
  ∃ u ∈ db.users, input.Names texts u ∧ instance_ = .user u

/-! ### When it is -/

/-- The ids of the request are of the kind that the columns hold. -/
def IdsFit (keys : ModelIdentifiers) : Prop :=
  (∀ field ∈ [IdentifierField.userIds, .variantIds, .shippingMethodIds, .taxClassIds, .appIds],
    ∀ t ∈ keys field, (texts.int t).isSome) ∧
  ∀ t ∈ keys .warehouseIds, (texts.uuid t).isSome

/-- The variant is in the query. -/
def Queried (keys : ModelIdentifiers) (v : ProductVariant) : Prop :=
  (∃ t ∈ keys .variantIds, texts.int t = some (v.id : ℤ)) ∨
  (∃ s ∈ keys .variantSkus, v.sku = some s) ∨
  ∃ r ∈ keys .variantExternalReferences, v.externalReference = some r

/-- A variant is named by an external reference that is not empty; or by the text of its id, or by
a text that is its sku as well, and no variant that comes after it in the query has that text as its
sku. A text that denotes no variant is no queried variant's sku. -/
def VariantInput.KeyIsItsOwn (input : VariantInput) : Prop :=
  let keys := collect texts identifiers orders
  (∀ v ∈ db.variants, input.Names texts v →
    IdsFit texts keys ∧ input.variantSku = none ∧ input.variantExternalReference ≠ some "" ∧
    ∀ g t, input.variantId = some g → fromGlobalIdOrError texts g "ProductVariant" = .ok t →
      (t = toString v.id ∨ v.sku = some t) ∧
      ∀ w, ComesAfter db.variants.rows v w → Queried texts keys w → w.sku ≠ some t) ∧
  ((∀ v ∈ db.variants, ¬ input.Names texts v) → IdsFit texts keys →
    ∀ g t, input.variantId = some g → fromGlobalIdOrError texts g "ProductVariant" = .ok t →
      ∀ w ∈ db.variants, Queried texts keys w → w.sku ≠ some t)

/-- A user is named by an e-mail or an external reference that is not empty, or by the text of its
id. -/
def UserInput.KeyIsItsOwn (input : UserInput) : Prop :=
  ∀ u ∈ db.users, input.Names texts u →
    IdsFit texts (collect texts identifiers orders) ∧
    input.email ≠ some "" ∧ input.externalReference ≠ some "" ∧
    ∀ g t, input.id = some g → fromGlobalIdOrError texts g "User" = .ok t → t = toString u.id

/-- The same, and a text that names no user is not empty. -/
def NoteInput.KeyIsItsOwn (input : NoteInput) : Prop :=
  input.user.KeyIsItsOwn texts db identifiers orders ∧
  ((∀ u ∈ db.users, ¬ input.user.Names texts u) →
    IdsFit texts (collect texts identifiers orders) →
    some "" ∉ [input.user.id, input.user.email, input.user.externalReference])

end Find

/-! ### The queries -/

section Queries

variable {texts : Texts} {db : Database} {identifiers : ModelIdentifiers}
  {orders : List OrderBulkCreateInput} {keys : ModelIdentifiers}

theorem prepare_eq {α : Type} {read : String → Option α} {failure : Failure} {ts : List String}
    (h : ∀ t ∈ ts, (read t).isSome) : prepare read failure ts = .ok (ts.filterMap read) := by
  rw [prepare, mapM_read, if_pos h]

theorem isSome_of_prepare {α : Type} {read : String → Option α} {failure : Failure}
    {ts : List String} {as : List α} (h : prepare read failure ts = .ok as) :
    ∀ t ∈ ts, (read t).isSome := by
  rw [prepare, mapM_read] at h
  by_contra hnot
  rw [if_neg hnot] at h
  cases h

/-- The primary keys that the texts denote. -/
def primaryKeys (texts : Texts) (keys : ModelIdentifiers) : PrimaryKeys where
  users := (keys .userIds).filterMap texts.int
  variants := (keys .variantIds).filterMap texts.int
  warehouses := (keys .warehouseIds).filterMap texts.uuid
  shippingMethods := (keys .shippingMethodIds).filterMap texts.int
  taxClasses := (keys .taxClassIds).filterMap texts.int
  apps := (keys .appIds).filterMap texts.int

/-- The queries can be made if the ids fit. -/
theorem preparePrimaryKeys_eq (h : IdsFit texts keys) :
    preparePrimaryKeys texts keys = .ok (primaryKeys texts keys) := by
  have hint : ∀ field ∈ [IdentifierField.userIds, .variantIds, .shippingMethodIds, .taxClassIds,
      .appIds], prepare texts.int .valueError (keys field) = .ok ((keys field).filterMap texts.int) :=
    fun field hfield => prepare_eq (h.1 field hfield)
  rw [preparePrimaryKeys, hint .userIds (by decide), hint .variantIds (by decide), prepare_eq h.2,
    hint .shippingMethodIds (by decide), hint .taxClassIds (by decide), hint .appIds (by decide)]
  rfl

/-- They cannot if not. -/
theorem idsFit_of_preparePrimaryKeys {ids : PrimaryKeys}
    (h : preparePrimaryKeys texts keys = .ok ids) : IdsFit texts keys := by
  obtain ⟨users, husers, h⟩ := exists_of_bind_eq_ok h
  obtain ⟨variants, hvariants, h⟩ := exists_of_bind_eq_ok h
  obtain ⟨warehouses, hwarehouses, h⟩ := exists_of_bind_eq_ok h
  obtain ⟨methods, hmethods, h⟩ := exists_of_bind_eq_ok h
  obtain ⟨classes, hclasses, h⟩ := exists_of_bind_eq_ok h
  obtain ⟨apps, happs, -⟩ := exists_of_map_eq_ok h
  refine ⟨?_, isSome_of_prepare hwarehouses⟩
  rw [List.forall_mem_cons, List.forall_mem_cons, List.forall_mem_cons, List.forall_mem_cons,
    List.forall_mem_singleton]
  exact ⟨isSome_of_prepare husers, isSome_of_prepare hvariants, isSome_of_prepare hmethods,
    isSome_of_prepare hclasses, isSome_of_prepare happs⟩

/-- The dictionary of a request whose ids fit. -/
theorem getAllInstances_eq (h : IdsFit texts (collect texts identifiers orders)) :
    getAllInstances texts db identifiers orders
      = .ok (fill texts db (collect texts identifiers orders)
          (primaryKeys texts (collect texts identifiers orders))) := by
  rw [getAllInstances, preparePrimaryKeys_eq h]
  rfl

/-- If they do not, the request fails. -/
theorem getAllInstances_eq_error (h : ¬ IdsFit texts (collect texts identifiers orders)) :
    ∃ failure, getAllInstances texts db identifiers orders = .error failure := by
  rw [getAllInstances]
  cases hprepare : preparePrimaryKeys texts (collect texts identifiers orders) with
  | ok ids => exact absurd (idsFit_of_preparePrimaryKeys hprepare) h
  | error failure => exact ⟨failure, rfl⟩

/-- The key of an order's input is in the queries, in the form they read. -/
theorem mem_collect {field : IdentifierField} {order : OrderBulkCreateInput} {key : String}
    (horder : order ∈ orders) (hkey : some key ∈ order.keys field) (hfield : field.idModel = none) :
    key ∈ collect texts identifiers orders field := by
  rw [collect, hfield]
  exact List.mem_append_right _ (List.reduceOption_mem_iff.mpr
    (List.mem_flatMap.mpr ⟨order, horder, hkey⟩))

theorem mem_collect_id {field : IdentifierField} {order : OrderBulkCreateInput}
    {globalId model t : String} (horder : order ∈ orders) (hkey : some globalId ∈ order.keys field)
    (hfield : field.idModel = some model) (ht : fromGlobalIdOrError texts globalId model = .ok t) :
    t ∈ collect texts identifiers orders field := by
  rw [collect, hfield]
  refine List.mem_filterMap.mpr ⟨globalId, ?_, by rw [ht]; rfl⟩
  exact List.mem_append_right _ (List.reduceOption_mem_iff.mpr
    (List.mem_flatMap.mpr ⟨order, horder, hkey⟩))

theorem mem_primaryKeys {ts : List String} {n : ℤ} :
    n ∈ ts.filterMap texts.int ↔ ∃ t ∈ ts, texts.int t = some n :=
  List.mem_filterMap

/-- Which variants are in the query. -/
theorem inVariantQuery_iff {v : ProductVariant} :
    inVariantQuery keys (primaryKeys texts keys).variants v = true ↔ Queried texts keys v := by
  rw [inVariantQuery, Queried, primaryKeys, Bool.or_eq_true, Bool.or_eq_true, decide_eq_true_eq,
    mem_primaryKeys, or_assoc, Option.any_eq_true, Option.any_eq_true]
  simp only [decide_eq_true_eq, and_comm]

end Queries

/-! ### What is under a key -/

section Storage

variable {texts : Texts} {db : Database} {keys : ModelIdentifiers} {ids : PrimaryKeys}
  {field t : String}

theorem mem_truthy {value : Option String} {t : String} :
    t ∈ truthy value ↔ value = some t ∧ t ≠ "" := by
  rw [truthy, List.mem_filter, Option.mem_toList, decide_eq_true_eq]

theorem mem_variantKeys_iff {v : ProductVariant} (hf : '.' ∉ field.toList) :
    dotted "ProductVariant" field t ∈ variantKeys v ↔
      field = "id" ∧ (t = toString v.id ∨ v.sku = some t ∧ t ≠ "") ∨
      field = "external_reference" ∧ v.externalReference = some t ∧ t ≠ "" := by
  have hm : '.' ∉ "ProductVariant".toList := by decide
  rw [variantKeys, List.mem_append, List.mem_append, List.mem_singleton,
    dotted_inj_right hm hf (by decide), mem_map_dotted hm hf (by decide),
    mem_map_dotted hm hf (by decide), mem_truthy, mem_truthy, and_or_left]

theorem mem_userKeys_iff {u : User} (hf : '.' ∉ field.toList) :
    dotted "User" field t ∈ userKeys u ↔
      field = "id" ∧ t = toString u.id ∨ field = "email" ∧ t = u.email ∨
      field = "external_reference" ∧ u.externalReference = some t ∧ t ≠ "" := by
  have hm : '.' ∉ "User".toList := by decide
  rw [userKeys, List.mem_append, List.mem_cons, List.mem_singleton, dotted_inj_right hm hf (by decide),
    dotted_inj_right hm hf (by decide), mem_map_dotted hm hf (by decide), mem_truthy, or_assoc]

/-- The keys of a model come from its own rows: those of the other kinds are left out. -/
theorem fill_apply {model : String} (hm : '.' ∉ model.toList)
    (h : model ∉ ["Channel", "VoucherCode", "GiftCard", "Order", "Warehouse", "ShippingMethod",
      "TaxClass", "App"]) :
    fill texts db keys ids (dotted model field t)
      = ((Dict.empty.store userKeys Instance.user (db.users.rows.filter (inUserQuery keys ids.users))).store variantKeys
          .productVariant (db.variants.rows.filter (inVariantQuery keys ids.variants))) (dotted model field t) := by
  simp only [List.mem_cons, List.not_mem_nil, or_false, not_or] at h
  obtain ⟨hchannel, hvoucher, hgift, horder, hwarehouse, hmethod, hclass, happ⟩ := h
  rw [fill, Dict.store_dotted_apply _ _ _ _ (by decide) hm happ,
    Dict.store_dotted_apply _ _ _ _ (by decide) hm hclass,
    Dict.store_dotted_apply _ _ _ _ (by decide) hm hmethod,
    Dict.store_dotted_apply _ _ _ _ (by decide) hm hwarehouse,
    Dict.store_dotted_apply _ _ _ _ (by decide) hm horder,
    Dict.store_dotted_apply _ _ _ _ (by decide) hm hgift,
    Dict.store_dotted_apply _ _ _ _ (by decide) hm hvoucher,
    Dict.store_dotted_apply _ _ _ _ (by decide) hm hchannel]

/-- No key of a user is one of a variant. -/
theorem not_mem_userKeys_of_model_ne {model : String} (hm : '.' ∉ model.toList) (h : model ≠ "User")
    (u : User) : dotted model field t ∉ userKeys u := by
  rw [userKeys, List.mem_append, List.mem_cons, List.mem_singleton, List.mem_map]
  rintro ((heq | heq) | ⟨r, -, heq⟩)
  · exact dotted_ne_of_model_ne hm (by decide) h heq
  · exact dotted_ne_of_model_ne hm (by decide) h heq
  · exact dotted_ne_of_model_ne hm (by decide) h heq.symm

theorem not_mem_variantKeys_of_model_ne {model : String} (hm : '.' ∉ model.toList)
    (h : model ≠ "ProductVariant") (v : ProductVariant) : dotted model field t ∉ variantKeys v := by
  rw [variantKeys, List.mem_append, List.mem_append, List.mem_singleton, List.mem_map, List.mem_map]
  rintro ((heq | ⟨s, -, heq⟩) | ⟨r, -, heq⟩)
  · exact dotted_ne_of_model_ne hm (by decide) h heq
  · exact dotted_ne_of_model_ne hm (by decide) h heq.symm
  · exact dotted_ne_of_model_ne hm (by decide) h heq.symm

/-- **Under a key of a variant** is the last variant of the query that has it. -/
theorem fill_variant :
    fill texts db keys ids (dotted "ProductVariant" field t)
      = (db.variants.rows.reverse.find? fun v => inVariantQuery keys ids.variants v ∧
          dotted "ProductVariant" field t ∈ variantKeys v).map .productVariant := by
  have hother : ∀ u ∈ db.users.rows.filter (inUserQuery keys ids.users),
      dotted "ProductVariant" field t ∉ userKeys u :=
    fun u _ => not_mem_userKeys_of_model_ne (by decide) (by decide) u
  rw [fill_apply (by decide) (by decide), Dict.store_apply,
    Dict.store_apply_of_not_mem _ _ _ _ hother, Dict.empty_apply, Option.or_none,
    ← List.filter_reverse, List.find?_filter]
  simp only [decide_eq_true_eq]

/-- The same for a user. -/
theorem fill_user :
    fill texts db keys ids (dotted "User" field t)
      = (db.users.rows.reverse.find? fun u => inUserQuery keys ids.users u ∧
          dotted "User" field t ∈ userKeys u).map .user := by
  have hother : ∀ v ∈ db.variants.rows.filter (inVariantQuery keys ids.variants),
      dotted "User" field t ∉ variantKeys v :=
    fun v _ => not_mem_variantKeys_of_model_ne (by decide) (by decide) v
  rw [fill_apply (by decide) (by decide), Dict.store_apply_of_not_mem _ _ _ _ hother,
    Dict.store_apply, Dict.empty_apply, Option.or_none, ← List.filter_reverse, List.find?_filter]
  simp only [decide_eq_true_eq]

end Storage

/-! ### What an input looks up -/

section LookUp

variable {texts : Texts} {input : String → Option String} {model path : String}
  {storage : Dict String Instance}

/-- Data keys without a value are passed over. -/
theorem lookUpFirst_append {pre post : List (String × String)}
    (hpre : ∀ keys ∈ pre, input keys.1 = none) :
    lookUpFirst texts input model storage path (pre ++ post)
      = lookUpFirst texts input model storage path post := by
  induction pre with
  | nil => rfl
  | cons keys pre ih =>
    have hnone : truthy (input keys.1) = [] := by
      rw [hpre keys List.mem_cons_self]
      rfl
    rw [List.cons_append, lookUpFirst, hnone]
    exact ih fun keys' hkeys' => hpre keys' (List.mem_cons_of_mem _ hkeys')

/-- **An input that names one object** looks up that object, unless the text is empty. -/
theorem getInstance_of_given {pre post : List (String × String)} {dataKey dbKey value : String}
    (hpre : ∀ keys ∈ pre, input keys.1 = none) (hpost : ∀ keys ∈ post, input keys.1 = none)
    (hgiven : input dataKey = some value) (instance_ : Instance) :
    getInstance texts input model storage path (pre ++ (dataKey, dbKey) :: post) = .ok instance_ ↔
      value ≠ "" ∧ lookUp texts model storage path dataKey dbKey value = .ok instance_ := by
  have hnone : ∀ l : List (String × String), (∀ keys ∈ l, input keys.1 = none) →
      l.filter (fun keys => (input keys.1).isSome) = [] := by
    intro l hl
    rw [List.filter_eq_nil_iff]
    intro keys hkeys
    rw [hl keys hkeys]
    exact Bool.false_ne_true
  have hone : (pre ++ (dataKey, dbKey) :: post).filter (fun keys => (input keys.1).isSome)
      = [(dataKey, dbKey)] := by
    rw [List.filter_append, hnone pre hpre, List.filter_cons_of_pos (by rw [hgiven]; rfl),
      hnone post hpost]
    rfl
  rw [getInstance, hone, if_neg (fun h => Nat.lt_irrefl 1 h.2),
    if_neg (fun h => absurd h.2 (by simp)), lookUpFirst_append hpre, lookUpFirst, hgiven]
  by_cases hempty : value = ""
  · have hskip : truthy (some value) = [] := by rw [hempty]; rfl
    have hend := @lookUpFirst_append texts input model path storage post [] hpost
    rw [List.append_nil] at hend
    rw [hskip]
    dsimp only
    rw [hend]
    exact ⟨fun h => (by cases h), fun h => absurd hempty h.1⟩
  · have hvalue : truthy (some value) = [value] := by
      rw [truthy, Option.toList_some, List.filter_singleton, decide_eq_true hempty]
      rfl
    rw [hvalue]
    exact (and_iff_right hempty).symm

/-- What a look-up under an id finds. -/
theorem lookUp_id_eq_ok_iff {dataKey value : String} {instance_ : Instance} :
    lookUp texts model storage path dataKey "id" value = .ok instance_ ↔
      ∃ t, fromGlobalIdOrError texts value model = .ok t ∧
        storage (dotted model "id" t) = some instance_ := by
  rw [lookUp, if_pos rfl]
  cases fromGlobalIdOrError texts value model with
  | error message => exact ⟨fun h => (by cases h), fun ⟨t, h, _⟩ => (by cases h)⟩
  | ok t =>
    dsimp only
    cases hfound : storage (dotted model "id" t) with
    | none =>
      refine ⟨fun h => (by cases h), fun ⟨t', ht', h⟩ => ?_⟩
      rw [← Except.ok.inj ht', hfound] at h
      cases h
    | some found =>
      refine ⟨fun h => ⟨t, rfl, by rw [hfound, Except.ok.inj h]⟩, fun ⟨t', ht', h⟩ => ?_⟩
      rw [← Except.ok.inj ht', hfound] at h
      rw [Option.some.inj h]

/-- What a look-up under another field finds. -/
theorem lookUp_eq_ok_iff {dataKey dbKey value : String} {instance_ : Instance} (h : dbKey ≠ "id") :
    lookUp texts model storage path dataKey dbKey value = .ok instance_ ↔
      storage (dotted model dbKey value) = some instance_ := by
  rw [lookUp, if_neg h]
  dsimp only
  cases storage (dotted model dbKey value) with
  | none => exact ⟨fun h => (by cases h), fun h => (by cases h)⟩
  | some found => exact ⟨fun h => by rw [Except.ok.inj h], fun h => by rw [Option.some.inj h]⟩

/-- **Right**: the instances that are named are those that are found. -/
theorem right_ok_iff {named : Instance → Prop} {keyMap : List (String × String)} :
    Right named (.ok (getInstanceWithErrors texts input model storage path keyMap)) ↔
      ∀ instance_, named instance_ ↔
        getInstance texts input model storage path keyMap = .ok instance_ := by
  rw [Right, getInstanceWithErrors]
  cases getInstance texts input model storage path keyMap with
  | ok found =>
    refine ⟨fun h instance_ => ⟨fun hnamed => ?_, fun heq => ?_⟩, fun h => ⟨fun instance_ hnamed => ?_,
      fun hnone => absurd ((h found).mpr rfl) (hnone found)⟩⟩
    · rw [Option.some.inj (Prod.mk.inj (Except.ok.inj (h.1 instance_ hnamed))).1]
    · obtain rfl := Except.ok.inj heq
      by_contra hnot
      by_cases hsome : ∃ other, named other
      · obtain ⟨other, hother⟩ := hsome
        rw [Option.some.inj (Prod.mk.inj (Except.ok.inj (h.1 other hother))).1] at hnot
        exact hnot hother
      · have hnone := (h.2 (not_exists.mp hsome) _ rfl).1
        cases hnone
    · rw [Except.ok.inj ((h instance_).mp hnamed)]
  | error e =>
    refine ⟨fun h instance_ => ⟨fun hnamed => ?_, fun heq => by cases heq⟩,
      fun h => ⟨fun instance_ hnamed => ?_, fun _ result hresult => ?_⟩⟩
    · have heq := h.1 instance_ hnamed
      cases heq
    · have heq := (h instance_).mp hnamed
      cases heq
    · rw [← Except.ok.inj hresult]
      exact ⟨rfl, List.cons_ne_nil _ _⟩

/-- A request that fails as a whole finds nothing. -/
theorem right_error_iff {named : Instance → Prop} {failure : Failure} :
    Right named (.error failure) ↔ ∀ instance_, ¬ named instance_ := by
  refine ⟨fun h instance_ hnamed => ?_, fun h => ⟨fun instance_ hnamed => absurd hnamed (h instance_),
    fun _ result hresult => by cases hresult⟩⟩
  have heq := h.1 instance_ hnamed
  cases heq

end LookUp

/-! ### One input -/

section One

variable {texts : Texts} {db : Database} {identifiers : ModelIdentifiers}
  {orders : List OrderBulkCreateInput} {order : OrderBulkCreateInput}

theorem VariantInput.OneGiven.cases {input : VariantInput} (h : input.OneGiven) :
    (∃ g, input = { variantId := some g }) ∨ (∃ s, input = { variantSku := some s }) ∨
      ∃ r, input = { variantExternalReference := some r } := by
  obtain ⟨g, s, r⟩ := input
  cases g <;> cases s <;> cases r <;> first
    | exact Or.inl ⟨_, rfl⟩
    | exact Or.inr (Or.inl ⟨_, rfl⟩)
    | exact Or.inr (Or.inr ⟨_, rfl⟩)
    | cases h

theorem UserInput.OneGiven.cases {input : UserInput} (h : input.OneGiven) :
    (∃ g, input = { id := some g }) ∨ (∃ e, input = { email := some e }) ∨
      ∃ r, input = { externalReference := some r } := by
  obtain ⟨g, e, r⟩ := input
  cases g <;> cases e <;> cases r <;> first
    | exact Or.inl ⟨_, rfl⟩
    | exact Or.inr (Or.inl ⟨_, rfl⟩)
    | exact Or.inr (Or.inr ⟨_, rfl⟩)
    | cases h

/-- A global id that is taken apart is not empty, and neither is its id. -/
theorem ne_empty_of_fromGlobalIdOrError {globalId model t : String} (hmodel : model ≠ "app")
    (h : fromGlobalIdOrError texts globalId model = .ok t) : globalId ≠ "" ∧ t ≠ "" := by
  refine ⟨?_, ?_⟩
  · rintro rfl
    rw [fromGlobalIdOrError, texts.fromGlobalId_empty] at h
    cases h
  · rintro rfl
    rw [fromGlobalIdOrError] at h
    cases hparts : texts.fromGlobalId globalId with
    | none => rw [hparts] at h; cases h
    | some parts =>
      rw [hparts] at h
      dsimp only at h
      by_cases happ : parts.1 = "app"
      · rw [if_neg (fun h => h.1 happ), if_pos (fun heq => hmodel (heq.symm.trans happ))] at h
        cases h
      · rw [if_neg happ] at h
        split at h
        · cases h
        · rename_i hvalid
          split at h
          · cases h
          · have hempty := Except.ok.inj h
            rw [hempty] at hvalid
            exact hvalid ⟨happ, texts.int_empty, texts.uuid_empty⟩

/-- Instances of one kind, found and named. -/
theorem forall_instance_iff {ρ : Type} {mk : ρ → Instance} (hmk : Function.Injective mk)
    {rows : List ρ} {named : ρ → Prop} {found : Option ρ} :
    (∀ instance_, (∃ row ∈ rows, named row ∧ instance_ = mk row) ↔ found.map mk = some instance_) ↔
      ∀ row, row ∈ rows ∧ named row ↔ found = some row := by
  have hfound : ∀ row, found.map mk = some (mk row) ↔ found = some row := by
    intro row
    rw [Option.map_eq_some_iff]
    refine ⟨fun ⟨row', hrow', heq⟩ => by rw [hrow', hmk heq], fun h => ⟨row, h, rfl⟩⟩
  constructor
  · intro h row
    rw [← hfound row, ← h (mk row)]
    refine ⟨fun hrow => ⟨row, hrow.1, hrow.2, rfl⟩, fun ⟨row', hrow', hnamed, heq⟩ => ?_⟩
    obtain rfl := hmk heq
    exact ⟨hrow', hnamed⟩
  · intro h instance_
    refine ⟨fun ⟨row, hrow, hnamed, heq⟩ => ?_, fun heq => ?_⟩
    · rw [heq, hfound]
      exact (h row).mp ⟨hrow, hnamed⟩
    · obtain ⟨row, hrow, rfl⟩ := Option.map_eq_some_iff.mp heq
      obtain ⟨hmem, hnamed⟩ := (h row).mpr hrow
      exact ⟨row, hmem, hnamed, rfl⟩

/-- A variant that has the text under its id is denoted by it. -/
theorem int_eq_of_eq_toString {t : String} {n : ℕ} (h : t = toString n) :
    texts.int t = some (n : ℤ) := by
  rw [h]
  exact texts.int_toString n

theorem variants_eq_of_id {v w : ProductVariant} (hv : v ∈ db.variants) (hw : w ∈ db.variants)
    (h : v.id = w.id) : v = w :=
  List.inj_on_of_nodup_map db.variants.nodup hv hw h

theorem users_eq_of_id {u w : User} (hu : u ∈ db.users) (hw : w ∈ db.users) (h : u.id = w.id) :
    u = w :=
  List.inj_on_of_nodup_map db.users.nodup hu hw h

/-- What an input finds is what it names, row for row. -/
theorem right_iff_rows {ρ : Type} {mk : ρ → Instance} (hmk : Function.Injective mk) {rows : List ρ}
    {named : ρ → Prop} {found : Option ρ} {input : String → Option String} {model path : String}
    {storage : Dict String Instance} {keyMap : List (String × String)}
    (hfound : ∀ instance_, getInstance texts input model storage path keyMap = .ok instance_ ↔
      found.map mk = some instance_) :
    Right (fun instance_ => ∃ row ∈ rows, named row ∧ instance_ = mk row)
        (.ok (getInstanceWithErrors texts input model storage path keyMap)) ↔
      ∀ row, row ∈ rows ∧ named row ↔ found = some row := by
  rw [right_ok_iff, ← forall_instance_iff hmk]
  exact forall_congr' fun instance_ => iff_congr Iff.rfl (hfound instance_)

/-! ### Variants -/

/-- An id is looked up by its text. -/
theorem getInstance_variantId {globalId path : String} {storage : Dict String Instance}
    {instance_ : Instance} :
    getInstance texts (VariantInput.get { variantId := some globalId }) "ProductVariant" storage path
        variantKeyMap = .ok instance_ ↔
      ∃ t, fromGlobalIdOrError texts globalId "ProductVariant" = .ok t ∧
        storage (dotted "ProductVariant" "id" t) = some instance_ := by
  have hpost : ∀ keys ∈ [("variant_external_reference", "external_reference"), ("variant_sku", "sku")],
      VariantInput.get { variantId := some globalId } keys.1 = none :=
    List.forall_mem_cons.mpr ⟨rfl, List.forall_mem_singleton.mpr rfl⟩
  have hgiven := @getInstance_of_given texts _ "ProductVariant" path storage [] _ "variant_id" "id"
    globalId (fun keys h => by cases h) hpost rfl instance_
  rw [lookUp_id_eq_ok_iff] at hgiven
  refine hgiven.trans (and_iff_right_of_imp fun ⟨t, ht, _⟩ => ?_)
  exact (ne_empty_of_fromGlobalIdOrError (by decide) ht).1

/-- A sku is looked up under its own field. -/
theorem getInstance_variantSku {sku path : String} {storage : Dict String Instance}
    {instance_ : Instance} :
    getInstance texts (VariantInput.get { variantSku := some sku }) "ProductVariant" storage path
        variantKeyMap = .ok instance_ ↔
      sku ≠ "" ∧ storage (dotted "ProductVariant" "sku" sku) = some instance_ := by
  have hpre : ∀ keys ∈ [("variant_id", "id"), ("variant_external_reference", "external_reference")],
      VariantInput.get { variantSku := some sku } keys.1 = none :=
    List.forall_mem_cons.mpr ⟨rfl, List.forall_mem_singleton.mpr rfl⟩
  rw [← @lookUp_eq_ok_iff texts "ProductVariant" path storage "variant_sku" "sku" sku instance_
    (by decide)]
  exact @getInstance_of_given texts _ "ProductVariant" path storage _ [] "variant_sku" "sku" sku hpre
    (fun keys h => by cases h) rfl instance_

/-- So is an external reference. -/
theorem getInstance_variantExternalReference {reference path : String}
    {storage : Dict String Instance} {instance_ : Instance} :
    getInstance texts (VariantInput.get { variantExternalReference := some reference })
        "ProductVariant" storage path variantKeyMap = .ok instance_ ↔
      reference ≠ "" ∧
        storage (dotted "ProductVariant" "external_reference" reference) = some instance_ := by
  have hpre : ∀ keys ∈ [("variant_id", "id")],
      VariantInput.get { variantExternalReference := some reference } keys.1 = none :=
    List.forall_mem_singleton.mpr rfl
  have hpost : ∀ keys ∈ [("variant_sku", "sku")],
      VariantInput.get { variantExternalReference := some reference } keys.1 = none :=
    List.forall_mem_singleton.mpr rfl
  rw [← @lookUp_eq_ok_iff texts "ProductVariant" path storage "variant_external_reference"
    "external_reference" reference instance_ (by decide)]
  exact @getInstance_of_given texts _ "ProductVariant" path storage _ _ "variant_external_reference"
    "external_reference" reference hpre hpost rfl instance_

/-- A variant named by its id is the last one in the query with the text of the id. -/
theorem right_variantId_iff {globalId : String} (horder : order ∈ orders)
    (hinput : ({ variantId := some globalId } : VariantInput) ∈ order.variantInputs)
    (hfit : IdsFit texts (collect texts identifiers orders)) (path : String) :
    Right (({ variantId := some globalId } : VariantInput).Named texts db)
        (variantOf texts db identifiers orders { variantId := some globalId } path) ↔
      VariantInput.KeyIsItsOwn texts db identifiers orders { variantId := some globalId } := by
  have hnames : ∀ v, VariantInput.Names texts { variantId := some globalId } v ↔
      Denotes texts "ProductVariant" globalId v.id := by
    intro v
    refine ⟨?_, fun h => Or.inl ⟨globalId, rfl, h⟩⟩
    rintro (⟨g, hg, h⟩ | ⟨s, hs, -⟩ | ⟨r, hr, -⟩)
    · exact Option.some.inj hg ▸ h
    · cases hs
    · cases hr
  rw [variantOf, getAllInstances_eq hfit]
  cases hid : fromGlobalIdOrError texts globalId "ProductVariant" with
  | error message =>
    have hno : ∀ v : ProductVariant, ¬ VariantInput.Names texts { variantId := some globalId } v := by
      intro v h
      obtain ⟨t, ht, -⟩ := (hnames v).mp h
      rw [hid] at ht
      cases ht
    refine iff_of_true (right_ok_iff.mpr fun instance_ => ?_) ⟨fun v _ h => absurd h (hno v), ?_⟩
    · rw [getInstance_variantId, hid]
      refine iff_of_false ?_ ?_
      · rintro ⟨v, -, h, -⟩
        exact hno v h
      · rintro ⟨t, ht, -⟩
        cases ht
    · intro _ _ g t hg ht
      rw [← Option.some.inj hg, hid] at ht
      cases ht
  | ok t =>
    have ht := (ne_empty_of_fromGlobalIdOrError (by decide) hid).2
    have hdenotes : ∀ v : ProductVariant, VariantInput.Names texts { variantId := some globalId } v ↔
        texts.int t = some (v.id : ℤ) := by
      intro v
      rw [hnames v]
      refine ⟨fun ⟨t', ht', h⟩ => ?_, fun h => ⟨t, hid, h⟩⟩
      rw [hid] at ht'
      exact Except.ok.inj ht' ▸ h
    have hqueried : ∀ v : ProductVariant, VariantInput.Names texts { variantId := some globalId } v →
        Queried texts (collect texts identifiers orders) v := fun v h =>
      Or.inl ⟨t, mem_collect_id horder (List.mem_map_of_mem (f := VariantInput.variantId) hinput)
        rfl hid, (hdenotes v).mp h⟩
    have hreads : ∀ v, decide (inVariantQuery (collect texts identifiers orders)
          (primaryKeys texts (collect texts identifiers orders)).variants v ∧
          dotted "ProductVariant" "id" t ∈ variantKeys v) = true ↔
        Queried texts (collect texts identifiers orders) v ∧ (t = toString v.id ∨ v.sku = some t) := by
      intro v
      rw [decide_eq_true_eq, inVariantQuery_iff, mem_variantKeys_iff (by decide)]
      simp [ht]
    have hfound : ∀ instance_, getInstance texts (VariantInput.get { variantId := some globalId })
          "ProductVariant" (fill texts db (collect texts identifiers orders)
            (primaryKeys texts (collect texts identifiers orders))) path variantKeyMap
          = .ok instance_ ↔
        Option.map .productVariant (db.variants.rows.reverse.find? fun v =>
          inVariantQuery (collect texts identifiers orders)
            (primaryKeys texts (collect texts identifiers orders)).variants v ∧
          dotted "ProductVariant" "id" t ∈ variantKeys v) = some instance_ := by
      intro instance_
      rw [getInstance_variantId, hid]
      refine ⟨fun ⟨t', ht', h⟩ => ?_, fun h => ⟨t, rfl, by rw [fill_variant]; exact h⟩⟩
      rw [← Except.ok.inj ht', fill_variant] at h
      exact h
    refine (right_iff_rows (fun v w h => Instance.productVariant.inj h) hfound).trans ?_
    rw [named_iff_find?_reverse db.variants.nodup.of_map]
    refine and_congr (forall₃_congr fun v hv hnamed => ⟨?_, ?_⟩) (forall_congr' fun hnone => ⟨?_, ?_⟩)
    · rintro ⟨hp, hlater⟩
      refine ⟨hfit, rfl, Option.some_ne_none "" |>.symm, fun g t' hg ht' => ?_⟩
      obtain rfl := Option.some.inj hg
      obtain rfl := Except.ok.inj (hid.symm.trans ht')
      refine ⟨((hreads v).mp hp).2, fun w hw hqueried hsku => ?_⟩
      have hnot := hlater w hw
      rw [(hreads w).mpr ⟨hqueried, Or.inr hsku⟩] at hnot
      cases hnot
    · rintro ⟨-, -, -, h⟩
      obtain ⟨hkey, hlater⟩ := h globalId t rfl hid
      refine ⟨(hreads v).mpr ⟨hqueried v hnamed, hkey⟩, fun w hw => ?_⟩
      rw [← Bool.not_eq_true]
      intro hp
      -- a variant with the text of the id is the variant itself, which does not come after itself
      obtain ⟨hqueried, hid | hsku⟩ := (hreads w).mp hp
      · obtain rfl := variants_eq_of_id hv hw.mem
          (eq_of_int_eq ((hdenotes v).mp hnamed) (int_eq_of_eq_toString hid))
        exact not_comesAfter_self db.variants.nodup.of_map v hw
      · exact hlater w hw hqueried hsku
    · intro h _ g t' hg ht' w hw hqueried hsku
      obtain rfl := Option.some.inj hg
      obtain rfl := Except.ok.inj (hid.symm.trans ht')
      have hnot := h w hw
      rw [(hreads w).mpr ⟨hqueried, Or.inr hsku⟩] at hnot
      cases hnot
    · intro h w hw
      rw [← Bool.not_eq_true]
      intro hp
      obtain ⟨hqueried, heq | hsku⟩ := (hreads w).mp hp
      · exact hnone w hw ((hdenotes w).mpr (int_eq_of_eq_toString heq))
      · exact h hfit globalId t rfl hid w hw hqueried hsku

/-- No variant is found by its sku. -/
theorem right_variantSku_iff {sku : String}
    (hfit : IdsFit texts (collect texts identifiers orders)) (path : String) :
    Right (({ variantSku := some sku } : VariantInput).Named texts db)
        (variantOf texts db identifiers orders { variantSku := some sku } path) ↔
      VariantInput.KeyIsItsOwn texts db identifiers orders { variantSku := some sku } := by
  have hfound : ∀ instance_, getInstance texts (VariantInput.get { variantSku := some sku })
        "ProductVariant" (fill texts db (collect texts identifiers orders)
          (primaryKeys texts (collect texts identifiers orders))) path variantKeyMap
        ≠ .ok instance_ := by
    intro instance_
    rw [ne_eq, getInstance_variantSku, fill_variant, Option.map_eq_some_iff]
    rintro ⟨-, v, hv, -⟩
    have hkey := List.find?_some hv
    rw [decide_eq_true_eq, mem_variantKeys_iff (by decide)] at hkey
    obtain ⟨-, ⟨hfield, -⟩ | ⟨hfield, -⟩⟩ := hkey
    · exact absurd hfield (by decide)
    · exact absurd hfield (by decide)
  rw [variantOf, getAllInstances_eq hfit]
  refine right_ok_iff.trans ⟨fun h => ⟨fun v hv hnames => ?_, fun _ _ g t hg => by cases hg⟩,
    fun h instance_ => ⟨?_, fun heq => absurd heq (hfound instance_)⟩⟩
  · exact absurd ((h (.productVariant v)).mp ⟨v, hv, hnames, rfl⟩) (hfound _)
  · rintro ⟨v, hv, hnames, -⟩
    obtain ⟨-, hsku, -⟩ := h.1 v hv hnames
    cases hsku

/-- A variant named by its external reference is found, unless that is empty. -/
theorem right_variantExternalReference_iff {reference : String} (horder : order ∈ orders)
    (hinput : ({ variantExternalReference := some reference } : VariantInput) ∈ order.variantInputs)
    (hfit : IdsFit texts (collect texts identifiers orders)) (path : String) :
    Right (({ variantExternalReference := some reference } : VariantInput).Named texts db)
        (variantOf texts db identifiers orders { variantExternalReference := some reference } path) ↔
      VariantInput.KeyIsItsOwn texts db identifiers orders
        { variantExternalReference := some reference } := by
  have hnames : ∀ v, VariantInput.Names texts { variantExternalReference := some reference } v ↔
      v.externalReference = some reference := by
    intro v
    refine ⟨?_, fun h => Or.inr (Or.inr ⟨reference, rfl, h⟩)⟩
    rintro (⟨g, hg, -⟩ | ⟨s, hs, -⟩ | ⟨r, hr, h⟩)
    · cases hg
    · cases hs
    · rw [Option.some.inj hr]
      exact h
  have hqueried : ∀ v : ProductVariant, v.externalReference = some reference →
      Queried texts (collect texts identifiers orders) v := fun v h =>
    Or.inr (Or.inr ⟨reference, mem_collect horder
      (List.mem_map_of_mem (f := VariantInput.variantExternalReference) hinput) rfl, h⟩)
  rw [variantOf, getAllInstances_eq hfit]
  by_cases hempty : reference = ""
  · refine right_ok_iff.trans ⟨fun h => ⟨fun v hv hnamed => ?_, fun _ _ g t hg => by cases hg⟩,
      fun h instance_ => ⟨?_, fun heq => ?_⟩⟩
    · have heq := (h (.productVariant v)).mp ⟨v, hv, hnamed, rfl⟩
      exact absurd hempty (getInstance_variantExternalReference.mp heq).1
    · rintro ⟨v, hv, hnamed, -⟩
      obtain ⟨-, -, hne, -⟩ := h.1 v hv hnamed
      exact absurd (congrArg some hempty) hne
    · exact absurd hempty (getInstance_variantExternalReference.mp heq).1
  · have hreads : ∀ v, decide (inVariantQuery (collect texts identifiers orders)
          (primaryKeys texts (collect texts identifiers orders)).variants v ∧
          dotted "ProductVariant" "external_reference" reference ∈ variantKeys v) = true ↔
        Queried texts (collect texts identifiers orders) v ∧
          v.externalReference = some reference := by
      intro v
      rw [decide_eq_true_eq, inVariantQuery_iff, mem_variantKeys_iff (by decide)]
      simp [hempty]
    have hfound := fun instance_ => (@getInstance_variantExternalReference texts reference path
      (fill texts db (collect texts identifiers orders)
        (primaryKeys texts (collect texts identifiers orders))) instance_).trans
      (and_iff_right hempty)
    rw [fill_variant] at hfound
    refine (right_iff_rows (fun v w h => Instance.productVariant.inj h) hfound).trans ?_
    rw [named_iff_find?_reverse_of_unique db.variants.nodup.of_map
      (fun v _ hp => (hnames v).mpr ((hreads v).mp hp).2)
      (fun v hv w hw hnamed hnamed' => db.variants_externalReference v hv w hw reference
        ((hnames v).mp hnamed) ((hnames w).mp hnamed'))]
    refine iff_of_true (fun v _ hnamed => ?_) ⟨fun v _ _ => ?_, fun _ _ g t hg => by cases hg⟩
    · exact (hreads v).mpr ⟨hqueried v ((hnames v).mp hnamed), (hnames v).mp hnamed⟩
    · exact ⟨hfit, rfl, fun h => hempty (Option.some.inj h), fun g t hg => by cases hg⟩

/-- **A variant that a line names** is found exactly if its key is its own. -/
theorem right_variantOf_iff {input : VariantInput} (horder : order ∈ orders)
    (hinput : input ∈ order.variantInputs) (hgiven : input.OneGiven) (path : String) :
    Right (input.Named texts db) (variantOf texts db identifiers orders input path) ↔
      input.KeyIsItsOwn texts db identifiers orders := by
  by_cases hfit : IdsFit texts (collect texts identifiers orders)
  · rcases hgiven.cases with ⟨g, rfl⟩ | ⟨s, rfl⟩ | ⟨r, rfl⟩
    · exact right_variantId_iff horder hinput hfit path
    · exact right_variantSku_iff hfit path
    · exact right_variantExternalReference_iff horder hinput hfit path
  · obtain ⟨failure, hfailure⟩ := @getAllInstances_eq_error texts db identifiers orders hfit
    rw [variantOf, hfailure]
    refine right_error_iff.trans ⟨fun h => ⟨fun v hv hnamed => ?_, fun _ h => absurd h hfit⟩,
      fun h instance_ => ?_⟩
    · exact absurd ⟨v, hv, hnamed, rfl⟩ (h (.productVariant v))
    · rintro ⟨v, hv, hnamed, -⟩
      exact hfit (h.1 v hv hnamed).1

/-! ### Users -/

theorem inUserQuery_iff {keys : ModelIdentifiers} {u : User} :
    inUserQuery keys (primaryKeys texts keys).users u = true ↔
      (∃ t ∈ keys .userIds, texts.int t = some (u.id : ℤ)) ∨ u.email ∈ keys .userEmails ∨
      ∃ r ∈ keys .userExternalReferences, u.externalReference = some r := by
  rw [inUserQuery, primaryKeys, Bool.or_eq_true, Bool.or_eq_true, decide_eq_true_eq,
    decide_eq_true_eq, mem_primaryKeys, or_assoc, Option.any_eq_true]
  simp only [decide_eq_true_eq, and_comm]

/-- The value is given under one data key, which stands for the database key; no other is given. -/
def LooksUp (input : String → Option String) (keyMap : List (String × String))
    (dbKey value : String) : Prop :=
  ∃ pre post dataKey, keyMap = pre ++ (dataKey, dbKey) :: post ∧
    (∀ keys ∈ pre, input keys.1 = none) ∧ (∀ keys ∈ post, input keys.1 = none) ∧
    input dataKey = some value

section User

variable {input : String → Option String} {keyMap : List (String × String)} {path : String}
  {storage : Dict String Instance} {instance_ : Instance}

theorem getInstance_userId {globalId : String} (h : LooksUp input keyMap "id" globalId) :
    getInstance texts input "User" storage path keyMap = .ok instance_ ↔
      ∃ t, fromGlobalIdOrError texts globalId "User" = .ok t ∧
        storage (dotted "User" "id" t) = some instance_ := by
  obtain ⟨pre, post, dataKey, rfl, hpre, hpost, hvalue⟩ := h
  rw [getInstance_of_given hpre hpost hvalue, lookUp_id_eq_ok_iff]
  refine and_iff_right_of_imp fun ⟨t, ht, _⟩ => ?_
  exact (ne_empty_of_fromGlobalIdOrError (by decide) ht).1

theorem getInstance_userText {dbKey value : String} (h : LooksUp input keyMap dbKey value)
    (hkey : dbKey ≠ "id") :
    getInstance texts input "User" storage path keyMap = .ok instance_ ↔
      value ≠ "" ∧ storage (dotted "User" dbKey value) = some instance_ := by
  obtain ⟨pre, post, dataKey, rfl, hpre, hpost, hvalue⟩ := h
  rw [getInstance_of_given hpre hpost hvalue, lookUp_eq_ok_iff hkey]

/-- A user named by an id is found by the text of the id. -/
theorem right_userId_iff {globalId : String} (h : LooksUp input keyMap "id" globalId)
    (horder : order ∈ orders) (huser : ({ id := some globalId } : UserInput) ∈ order.userInputs)
    (hfit : IdsFit texts (collect texts identifiers orders)) :
    Right (({ id := some globalId } : UserInput).Named texts db)
        (.ok (getInstanceWithErrors texts input "User"
          (fill texts db (collect texts identifiers orders)
            (primaryKeys texts (collect texts identifiers orders))) path keyMap)) ↔
      UserInput.KeyIsItsOwn texts db identifiers orders { id := some globalId } := by
  have hnames : ∀ u, UserInput.Names texts { id := some globalId } u ↔
      Denotes texts "User" globalId u.id := by
    intro u
    refine ⟨?_, fun h => Or.inl ⟨globalId, rfl, h⟩⟩
    rintro (⟨g, hg, h⟩ | hemail | ⟨r, hr, -⟩)
    · exact Option.some.inj hg ▸ h
    · cases hemail
    · cases hr
  cases hid : fromGlobalIdOrError texts globalId "User" with
  | error message =>
    have hno : ∀ u : User, ¬ UserInput.Names texts { id := some globalId } u := by
      intro u hnamed
      obtain ⟨t, ht, -⟩ := (hnames u).mp hnamed
      rw [hid] at ht
      cases ht
    refine iff_of_true (right_ok_iff.mpr fun instance_ => ?_) fun u _ hnamed => absurd hnamed (hno u)
    rw [getInstance_userId h, hid]
    refine iff_of_false ?_ ?_
    · rintro ⟨u, -, hnamed, -⟩
      exact hno u hnamed
    · rintro ⟨t, ht, -⟩
      cases ht
  | ok t =>
    have hdenotes : ∀ u : User, UserInput.Names texts { id := some globalId } u ↔
        texts.int t = some (u.id : ℤ) := by
      intro u
      rw [hnames u]
      refine ⟨fun ⟨t', ht', h⟩ => ?_, fun h => ⟨t, hid, h⟩⟩
      rw [hid] at ht'
      exact Except.ok.inj ht' ▸ h
    have hqueried : ∀ u : User, UserInput.Names texts { id := some globalId } u →
        inUserQuery (collect texts identifiers orders)
          (primaryKeys texts (collect texts identifiers orders)).users u = true := fun u hnamed =>
      inUserQuery_iff.mpr (Or.inl ⟨t, mem_collect_id horder
        (List.mem_map_of_mem (f := UserInput.id) huser) rfl hid, (hdenotes u).mp hnamed⟩)
    have hreads : ∀ u, decide (inUserQuery (collect texts identifiers orders)
          (primaryKeys texts (collect texts identifiers orders)).users u ∧
          dotted "User" "id" t ∈ userKeys u) = true ↔
        inUserQuery (collect texts identifiers orders)
          (primaryKeys texts (collect texts identifiers orders)).users u = true ∧
          t = toString u.id := by
      intro u
      rw [decide_eq_true_eq, mem_userKeys_iff (by decide)]
      simp
    have hfound : ∀ instance_, getInstance texts input "User"
          (fill texts db (collect texts identifiers orders)
            (primaryKeys texts (collect texts identifiers orders))) path keyMap = .ok instance_ ↔
        Option.map .user (db.users.rows.reverse.find? fun u =>
          inUserQuery (collect texts identifiers orders)
            (primaryKeys texts (collect texts identifiers orders)).users u ∧
          dotted "User" "id" t ∈ userKeys u) = some instance_ := by
      intro instance_
      rw [getInstance_userId h, hid]
      refine ⟨fun ⟨t', ht', h⟩ => ?_, fun h => ⟨t, rfl, by rw [fill_user]; exact h⟩⟩
      rw [← Except.ok.inj ht', fill_user] at h
      exact h
    refine (right_iff_rows (fun u w h => Instance.user.inj h) hfound).trans ?_
    rw [named_iff_find?_reverse_of_unique db.users.nodup.of_map
      (fun u _ hp => (hdenotes u).mpr (int_eq_of_eq_toString ((hreads u).mp hp).2))
      (fun u hu w hw hnamed hnamed' => users_eq_of_id hu hw
        (eq_of_int_eq ((hdenotes u).mp hnamed) ((hdenotes w).mp hnamed')))]
    refine forall₃_congr fun u _ hnamed => ⟨fun hp => ?_, fun hown => ?_⟩
    · refine ⟨hfit, Option.some_ne_none "" |>.symm, Option.some_ne_none "" |>.symm,
        fun g t' hg ht' => ?_⟩
      obtain rfl := Option.some.inj hg
      obtain rfl := Except.ok.inj (hid.symm.trans ht')
      exact ((hreads u).mp hp).2
    · exact (hreads u).mpr ⟨hqueried u hnamed, hown.2.2.2 globalId t rfl hid⟩

/-- A user named by an e-mail or an external reference is found, unless that is empty. -/
theorem right_userText_iff {user : UserInput} {dbKey value : String}
    (h : LooksUp input keyMap dbKey value)
    (hfit : IdsFit texts (collect texts identifiers orders)) (hkey : dbKey ≠ "id")
    (hid : user.id = none)
    (hempty : value = "" → user.email = some "" ∨ user.externalReference = some "")
    (hnonempty : value ≠ "" → user.email ≠ some "" ∧ user.externalReference ≠ some "")
    (hunique : ∀ u ∈ db.users, ∀ w ∈ db.users, user.Names texts u → user.Names texts w → u = w)
    (hreads : ∀ u, value ≠ "" → (user.Names texts u ↔
      inUserQuery (collect texts identifiers orders)
        (primaryKeys texts (collect texts identifiers orders)).users u ∧
      dotted "User" dbKey value ∈ userKeys u)) :
    Right (user.Named texts db)
        (.ok (getInstanceWithErrors texts input "User"
          (fill texts db (collect texts identifiers orders)
            (primaryKeys texts (collect texts identifiers orders))) path keyMap)) ↔
      user.KeyIsItsOwn texts db identifiers orders := by
  by_cases hvalue : value = ""
  · refine right_ok_iff.trans ⟨fun h' u hu hnamed => ?_, fun hown instance_ => ⟨?_, fun heq => ?_⟩⟩
    · have heq := (h' (.user u)).mp ⟨u, hu, hnamed, rfl⟩
      exact absurd hvalue ((getInstance_userText h hkey).mp heq).1
    · rintro ⟨u, hu, hnamed, -⟩
      obtain ⟨-, hemail, hreference, -⟩ := hown u hu hnamed
      exact ((hempty hvalue).elim hemail hreference).elim
    · exact absurd hvalue ((getInstance_userText h hkey).mp heq).1
  · have hfound := fun instance_ => (@getInstance_userText texts input keyMap path
      (fill texts db (collect texts identifiers orders)
        (primaryKeys texts (collect texts identifiers orders))) instance_ _ _ h hkey).trans
      (and_iff_right hvalue)
    rw [fill_user] at hfound
    refine (right_iff_rows (fun u w h => Instance.user.inj h) hfound).trans ?_
    rw [named_iff_find?_reverse_of_unique db.users.nodup.of_map
      (fun u _ hp => (hreads u hvalue).mpr (of_decide_eq_true hp)) hunique]
    refine iff_of_true (fun u _ hnamed => decide_eq_true ((hreads u hvalue).mp hnamed))
      fun u _ _ => ⟨hfit, (hnonempty hvalue).1, (hnonempty hvalue).2, fun g t hg => ?_⟩
    rw [hid] at hg
    cases hg

/-- **A user that an order or a note names**, by a value that is looked up, is found exactly if its
key is its own. -/
theorem right_user_iff {user : UserInput} (horder : order ∈ orders)
    (huser : user ∈ order.userInputs) (hgiven : user.OneGiven)
    (hid : ∀ g, user = { id := some g } → LooksUp input keyMap "id" g)
    (hemail : ∀ e, user = { email := some e } → LooksUp input keyMap "email" e)
    (hreference : ∀ r, user = { externalReference := some r } →
      LooksUp input keyMap "external_reference" r)
    (hfit : IdsFit texts (collect texts identifiers orders)) :
    Right (user.Named texts db)
        (.ok (getInstanceWithErrors texts input "User"
          (fill texts db (collect texts identifiers orders)
            (primaryKeys texts (collect texts identifiers orders))) path keyMap)) ↔
      user.KeyIsItsOwn texts db identifiers orders := by
  rcases hgiven.cases with ⟨g, rfl⟩ | ⟨e, rfl⟩ | ⟨r, rfl⟩
  · exact right_userId_iff (hid g rfl) horder huser hfit
  · have hnames : ∀ u, UserInput.Names texts { email := some e } u ↔ u.email = e := by
      intro u
      refine ⟨?_, fun h => Or.inr (Or.inl (congrArg some h.symm))⟩
      rintro (⟨g, hg, -⟩ | hemail | ⟨r, hr, -⟩)
      · cases hg
      · exact (Option.some.inj hemail).symm
      · cases hr
    refine right_userText_iff (hemail e rfl) hfit (by decide) rfl
      (fun h => Or.inl (congrArg some h))
      (fun h => ⟨fun heq => h (Option.some.inj heq), fun heq => (by cases heq)⟩) ?_ ?_
    · intro u hu w hw hnamed hnamed'
      exact db.users_email u hu w hw (((hnames u).mp hnamed).trans ((hnames w).mp hnamed').symm)
    · intro u hvalue
      rw [hnames, inUserQuery_iff, mem_userKeys_iff (by decide)]
      refine ⟨fun h => ⟨Or.inr (Or.inl ?_), Or.inr (Or.inl ⟨rfl, h.symm⟩)⟩, fun h => ?_⟩
      · rw [h]
        exact mem_collect horder (List.mem_map_of_mem (f := UserInput.email) huser) rfl
      · rcases h.2 with ⟨hfield, -⟩ | ⟨-, h⟩ | ⟨hfield, -⟩
        · exact absurd hfield (by decide)
        · exact h.symm
        · exact absurd hfield (by decide)
  · have hnames : ∀ u, UserInput.Names texts { externalReference := some r } u ↔
        u.externalReference = some r := by
      intro u
      refine ⟨?_, fun h => Or.inr (Or.inr ⟨r, rfl, h⟩)⟩
      rintro (⟨g, hg, -⟩ | hemail | ⟨r', hr, h⟩)
      · cases hg
      · cases hemail
      · rw [Option.some.inj hr]
        exact h
    refine right_userText_iff (hreference r rfl) hfit (by decide) rfl
      (fun h => Or.inr (congrArg some h))
      (fun h => ⟨fun heq => (by cases heq), fun heq => h (Option.some.inj heq)⟩) ?_ ?_
    · intro u hu w hw hnamed hnamed'
      exact db.users_externalReference u hu w hw r ((hnames u).mp hnamed) ((hnames w).mp hnamed')
    · intro u hvalue
      rw [hnames, inUserQuery_iff, mem_userKeys_iff (by decide)]
      refine ⟨fun h => ⟨Or.inr (Or.inr ⟨r, ?_, h⟩), Or.inr (Or.inr ⟨rfl, h, hvalue⟩)⟩, fun h => ?_⟩
      · exact mem_collect horder (List.mem_map_of_mem (f := UserInput.externalReference) huser) rfl
      · rcases h.2 with ⟨hfield, -⟩ | ⟨hfield, -⟩ | ⟨-, h, -⟩
        · exact absurd hfield (by decide)
        · exact absurd hfield (by decide)
        · exact h

/-- A request that fails as a whole names no user that is there. -/
theorem right_user_error_iff {user : UserInput} {failure : Failure}
    (hfit : ¬ IdsFit texts (collect texts identifiers orders)) :
    Right (user.Named texts db) (.error failure) ↔
      user.KeyIsItsOwn texts db identifiers orders := by
  refine right_error_iff.trans ⟨fun h u hu hnamed => ?_, fun h instance_ => ?_⟩
  · exact absurd ⟨u, hu, hnamed, rfl⟩ (h (.user u))
  · rintro ⟨u, hu, hnamed, -⟩
    exact hfit (h u hu hnamed).1

theorem forall_mem_pair_none {input : String → Option String} {a b : String × String}
    (ha : input a.1 = none) (hb : input b.1 = none) : ∀ keys ∈ [a, b], input keys.1 = none :=
  List.forall_mem_cons.mpr ⟨ha, List.forall_mem_singleton.mpr hb⟩

/-- The user of an order is found exactly if its key is its own. -/
theorem right_userOf_iff {user : UserInput} (horder : order ∈ orders)
    (huser : user ∈ order.userInputs) (hgiven : user.OneGiven) :
    Right (user.Named texts db) (userOf texts db identifiers orders user) ↔
      user.KeyIsItsOwn texts db identifiers orders := by
  by_cases hfit : IdsFit texts (collect texts identifiers orders)
  · rw [userOf, getAllInstances_eq hfit]
    refine right_user_iff horder huser hgiven ?_ ?_ ?_ hfit
    · rintro g rfl
      exact ⟨[], _, "id", rfl, List.forall_mem_nil _, forall_mem_pair_none rfl rfl, rfl⟩
    · rintro e rfl
      exact ⟨[_], [_], "email", rfl, List.forall_mem_singleton.mpr rfl,
        List.forall_mem_singleton.mpr rfl, rfl⟩
    · rintro r rfl
      exact ⟨[_, _], [], "external_reference", rfl, forall_mem_pair_none rfl rfl,
        List.forall_mem_nil _, rfl⟩
  · obtain ⟨failure, hfailure⟩ := @getAllInstances_eq_error texts db identifiers orders hfit
    rw [userOf, hfailure]
    exact right_user_error_iff hfit

/-- The user of a note is looked for if its value is not empty. -/
theorem looksForUser_iff {note : NoteInput} (hgiven : note.user.OneGiven) :
    (noteKeyMap.any fun keys => truthy (note.get keys.1) ≠ []) = true ↔
      some "" ∉ [note.user.id, note.user.email, note.user.externalReference] := by
  obtain ⟨user, app⟩ := note
  rcases hgiven.cases with ⟨g, hg⟩ | ⟨e, he⟩ | ⟨r, hr⟩
  all_goals
    dsimp only at *
    subst user
    simp [noteKeyMap, NoteInput.get, truthy]

/-- An empty id names no user. -/
theorem not_names_empty_id {user : UserInput} {u : User} (hgiven : user.OneGiven)
    (hempty : some "" ∈ [user.id, user.email, user.externalReference]) (hemail : user.email ≠ some "")
    (hreference : user.externalReference ≠ some "") : ¬ user.Names texts u := by
  simp only [List.mem_cons, List.not_mem_nil, or_false] at hempty
  rcases hempty with hid | he | hr
  · rintro (⟨g, hg, t, ht, -⟩ | he | ⟨r, hr, -⟩)
    · rw [← Option.some.inj (hid.trans hg)] at ht
      exact (ne_empty_of_fromGlobalIdOrError (by decide) ht).1 rfl
    · rw [UserInput.OneGiven, ← hid, he, Option.isSome_some, Option.isSome_some, Bool.toNat_true]
        at hgiven
      omega
    · rw [UserInput.OneGiven, ← hid, hr, Option.isSome_some, Option.isSome_some, Bool.toNat_true]
        at hgiven
      omega
  · exact absurd he.symm hemail
  · exact absurd hr.symm hreference

/-- So is that of a note, but an empty value is no error there. -/
theorem right_noteUserOf_iff {note : NoteInput} (horder : order ∈ orders)
    (hnote : note ∈ order.notes) (hgiven : note.user.OneGiven) (index : ℕ) :
    Right (note.user.Named texts db) (noteUserOf texts db identifiers orders note index) ↔
      note.KeyIsItsOwn texts db identifiers orders := by
  have huser : note.user ∈ order.userInputs :=
    List.mem_cons_of_mem _ (List.mem_map_of_mem (f := NoteInput.user) hnote)
  by_cases hfit : IdsFit texts (collect texts identifiers orders)
  · rw [noteUserOf, getAllInstances_eq hfit, NoteInput.KeyIsItsOwn]
    by_cases hempty : some "" ∈ [note.user.id, note.user.email, note.user.externalReference]
    · have hnot : ¬ (noteKeyMap.any fun keys => truthy (note.get keys.1) ≠ []) = true :=
        fun h => (looksForUser_iff hgiven).mp h hempty
      -- nothing is found, and no error reported
      refine iff_of_false (fun h => ?_) fun h => ?_
      · rw [Except.map, if_neg hnot] at h
        by_cases hnamed : ∃ instance_, note.user.Named texts db instance_
        · obtain ⟨instance_, hinstance⟩ := hnamed
          have heq := h.1 instance_ hinstance
          cases heq
        · exact (h.2 (not_exists.mp hnamed) _ rfl).2 rfl
      · by_cases hnamed : ∃ u ∈ db.users, note.user.Names texts u
        · obtain ⟨u, hu, hname⟩ := hnamed
          exact not_names_empty_id hgiven hempty (h.1 u hu hname).2.1 (h.1 u hu hname).2.2.1 hname
        · exact h.2 (fun u hu hname => hnamed ⟨u, hu, hname⟩) hfit hempty
    · have hlooks := (looksForUser_iff hgiven).mpr hempty
      rw [Except.map, if_pos hlooks, and_iff_left fun _ _ => hempty]
      refine right_user_iff horder huser hgiven ?_ ?_ ?_ hfit
      · intro g hg
        refine ⟨[], _, "user_id", rfl, List.forall_mem_nil _, forall_mem_pair_none ?_ ?_, ?_⟩
        · exact congrArg UserInput.email hg
        · exact congrArg UserInput.externalReference hg
        · exact congrArg UserInput.id hg
      · intro e he
        refine ⟨[_], [_], "user_email", rfl, List.forall_mem_singleton.mpr ?_,
          List.forall_mem_singleton.mpr ?_, ?_⟩
        · exact congrArg UserInput.id he
        · exact congrArg UserInput.externalReference he
        · exact congrArg UserInput.email he
      · intro r hr
        refine ⟨[_, _], [], "user_external_reference", rfl, forall_mem_pair_none ?_ ?_,
          List.forall_mem_nil _, ?_⟩
        · exact congrArg UserInput.id hr
        · exact congrArg UserInput.email hr
        · exact congrArg UserInput.externalReference hr
  · obtain ⟨failure, hfailure⟩ := @getAllInstances_eq_error texts db identifiers orders hfit
    rw [noteUserOf, hfailure]
    exact (right_user_error_iff hfit).trans (and_iff_left fun _ h => absurd h hfit).symm

end User

end One

/-- **What a request names**: each variant of a line and each user of an order or a note is found, and
an error reported exactly if there is none, if and only if its key is its own. -/
theorem right_iff_keyIsItsOwn (texts : Texts) (db : Database) (identifiers : ModelIdentifiers)
    (orders : List OrderBulkCreateInput) {order : OrderBulkCreateInput} (horder : order ∈ orders) :
    (∀ input ∈ order.variantInputs, input.OneGiven → ∀ path,
      (Right (input.Named texts db) (variantOf texts db identifiers orders input path) ↔
        input.KeyIsItsOwn texts db identifiers orders)) ∧
    (order.user.OneGiven →
      (Right (order.user.Named texts db) (userOf texts db identifiers orders order.user) ↔
        order.user.KeyIsItsOwn texts db identifiers orders)) ∧
    ∀ note ∈ order.notes, note.user.OneGiven → ∀ index,
      (Right (note.user.Named texts db) (noteUserOf texts db identifiers orders note index) ↔
        note.KeyIsItsOwn texts db identifiers orders) :=
  ⟨fun _ hinput hgiven path => right_variantOf_iff horder hinput hgiven path,
    fun hgiven => right_userOf_iff horder List.mem_cons_self hgiven,
    fun _ hnote hgiven index => right_noteUserOf_iff horder hnote hgiven index⟩

/-! ### A mug whose sku is another variant's id -/

/-- The global ids of shirt, mug and buyer. -/
def globalIds : String → Option (String × String)
  | "UHJvZHVjdFZhcmlhbnQ6MQ==" => some ("ProductVariant", "1")
  | "UHJvZHVjdFZhcmlhbnQ6Mg==" => some ("ProductVariant", "2")
  | "VXNlcjox" => some ("User", "1")
  | _ => none

/-- Texts with these global ids. -/
def shopTexts : Texts := .small globalIds rfl

def mug : ProductVariant where
  id := 2
  sku := some "1"
  externalReference := some "mug"

def shirt : ProductVariant where
  id := 1
  sku := some "SHIRT"
  externalReference := none

def buyer : User where
  id := 1
  email := "buyer@example.com"
  externalReference := none

def shop : Database where
  users := Table.singleton buyer
  variants := ⟨[shirt, mug], by decide⟩
  channels := []
  voucherCodes := []
  giftCards := []
  orders := []
  warehouses := []
  shippingMethods := []
  taxClasses := []
  apps := []
  users_email := by decide
  users_externalReference := by decide
  variants_sku := by decide
  variants_externalReference := by decide

/-- An order of a mug by its sku and a shirt by its id, with a note of the buyer. -/
def mugAndShirt : OrderBulkCreateInput where
  user := { email := some "buyer@example.com" }
  notes := [{ user := { id := some "VXNlcjox" }, appId := none }]
  lines := [{ variant := { variantSku := some "1" } },
    { variant := { variantId := some "UHJvZHVjdFZhcmlhbnQ6MQ==" } }]

/-- The result for the shirt, the buyer and the note. -/
theorem right_iff_mugAndShirt :
    (Right (VariantInput.Named shopTexts shop { variantId := some "UHJvZHVjdFZhcmlhbnQ6MQ==" })
        (variantOf shopTexts shop (fun _ => []) [mugAndShirt]
          { variantId := some "UHJvZHVjdFZhcmlhbnQ6MQ==" } "lines.1") ↔
      VariantInput.KeyIsItsOwn shopTexts shop (fun _ => []) [mugAndShirt]
        { variantId := some "UHJvZHVjdFZhcmlhbnQ6MQ==" }) ∧
    (Right (mugAndShirt.user.Named shopTexts shop)
        (userOf shopTexts shop (fun _ => []) [mugAndShirt] mugAndShirt.user) ↔
      mugAndShirt.user.KeyIsItsOwn shopTexts shop (fun _ => []) [mugAndShirt]) ∧
    (Right (UserInput.Named shopTexts shop { id := some "VXNlcjox" })
        (noteUserOf shopTexts shop (fun _ => []) [mugAndShirt]
          { user := { id := some "VXNlcjox" }, appId := none } 0) ↔
      NoteInput.KeyIsItsOwn shopTexts shop (fun _ => []) [mugAndShirt]
        { user := { id := some "VXNlcjox" }, appId := none }) := by
  have h := right_iff_keyIsItsOwn shopTexts shop (fun _ => []) [mugAndShirt] (List.mem_singleton_self mugAndShirt)
  exact ⟨h.1 { variantId := some "UHJvZHVjdFZhcmlhbnQ6MQ==" } (by decide) rfl "lines.1", h.2.1 rfl,
    h.2.2 { user := { id := some "VXNlcjox" }, appId := none } (by decide) rfl 0⟩

/-- The mug is there, and its sku finds nothing. -/
theorem not_right_mugAndShirt :
    ¬ ∀ (texts : Texts) (db : Database) (orders : List OrderBulkCreateInput), ∀ order ∈ orders,
      ∀ input ∈ order.variantInputs, input.OneGiven → ∀ path,
      Right (input.Named texts db) (variantOf texts db (fun _ => []) orders input path) := by
  intro h
  have horder := List.mem_singleton_self mugAndShirt
  have hinput : ({ variantSku := some "1" } : VariantInput) ∈ mugAndShirt.variantInputs := by decide
  have hright := h shopTexts shop [mugAndShirt] mugAndShirt horder _ hinput rfl "lines.0"
  have hmug : mug ∈ shop.variants := List.mem_cons_of_mem _ (List.mem_singleton_self mug)
  have hown := (right_variantOf_iff horder hinput rfl "lines.0").mp hright
  obtain ⟨-, hsku, -⟩ := hown.1 mug hmug (Or.inr (Or.inl ⟨"1", rfl, rfl⟩))
  cases hsku

end BulkInstances

end Aixinwu
