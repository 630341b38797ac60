import Mathlib.Data.List.Basic

/-!
# Mutations

What the mutations of `saleor/graphql` have in common: who asks, how an argument can be given, and
how a request can end. A validation error names the field it is about, carries the text of the
source and a code of the mutation's own error enumeration. Any other exception is only recorded as
one, with what it is.

## Main definitions

* `Arg` — a GraphQL argument that may be missing, `null` or given
* `ValidationError`, `getNodeOrError`, `Outcome`
* `hasOneOfPermissions`
-/

namespace Aixinwu

/-! ### Arguments -/

/-- An optional GraphQL argument: it may be missing, it may be `null`, it may have a value. -/
inductive Arg (α : Type*) where
  | absent
  | null
  | value (a : α)
deriving DecidableEq, Repr

namespace Arg

variable {α β : Type*}

/-- `input.get(name, None)`. -/
def get : Arg α → Option α
  | absent => none
  | null => none
  | value a => some a

/-- What `construct_instance` leaves in a nullable column: an argument that is present replaces
what is there, `null` included. -/
def construct (arg : Arg α) (column : Option α) : Option α :=
  match arg with
  | absent => column
  | null => none
  | value a => some a

/-- What `construct_instance` leaves in a column that is not nullable: `null` means its default. -/
def constructOr (arg : Arg α) (default column : α) : α :=
  match arg with
  | absent => column
  | null => default
  | value a => a

@[simp] theorem construct_absent (column : Option α) : (absent : Arg α).construct column = column :=
  rfl

end Arg

/-! ### Errors -/

/-- The codes of the error enumerations the modelled mutations use. -/
inductive ErrorCode where
  | invalid
  | notFound
  | unique
  | permissionDenied
  | zeroQuantity
  | paymentMissing
  | paymentError
  | cannotRefund
  | balanceCheckError
  | graphqlError
deriving DecidableEq, Repr

/-- The global id of a row, before its base64 encoding. -/
def toGlobalId (type : String) (pk : ℕ) : String := type ++ ":" ++ toString pk

/-- One entry of a `ValidationError`: its field, its text, its code. -/
structure ValidationError where
  field : String
  message : String
  code : ErrorCode
deriving DecidableEq, Repr

/-- `get_node_or_error`, of the row it looked for. -/
def getNodeOrError {ρ : Type*} (type : String) (pk : ℕ) (row : Option ρ) :
    Except (List ValidationError) ρ :=
  match row with
  | some r => .ok r
  | none =>
    .error [⟨"id", "Couldn't resolve to a node: " ++ toGlobalId type pk, .notFound⟩]

/-- How a request ends. -/
inductive Outcome where
  /-- The success response. -/
  | success
  /-- A `ValidationError`, turned into a response with errors. -/
  | errors (es : List ValidationError)
  /-- `PermissionDenied`, raised before the mutation is performed. -/
  | denied
  /-- Any other exception, by its class. -/
  | raised (exception : String)
deriving DecidableEq, Repr

/-! ### Permissions -/

/-- The permissions that the modelled mutations ask for. -/
inductive Permission where
  | manageDonations
  | addDonations
  | manageUsers
  | manageOrders
deriving DecidableEq, Repr

/-- The user or app behind a request, by the permissions it has. -/
structure Requestor where
  permissions : List Permission
deriving DecidableEq, Repr

/-- `has_one_of_permissions`; `none` is an anonymous request. -/
def hasOneOfPermissions (requestor : Option Requestor) (permissions : List Permission) : Bool :=
  permissions.isEmpty || requestor.any fun r => permissions.any (· ∈ r.permissions)

end Aixinwu
