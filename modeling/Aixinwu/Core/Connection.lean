import Aixinwu.Lib.OrderBy
import Aixinwu.Lib.Paging
import Mathlib.Algebra.Order.Ring.Rat
import Mathlib.Data.List.Sort
import Mathlib.Data.Sum.Order

/-!
# Connections

The pages of a list of objects, `saleor/graphql/utils/sorting.py` and
`saleor/graphql/core/connection.py`. The rows are sorted by some fields, `NULL`s last in an ascending
sort and first in a descending one as PostgreSQL has it, and a cursor is the values of the fields of a
row. The rows behind a cursor are selected field by field: equal in the fields before, and greater
or `NULL` in an ascending sort, less or not `NULL` in a descending one. Asking for the last rows turns
the sort around.

Two things set it off from a comparison of rows. All fields are compared in the direction of the
first, also where a default ordering mixes directions. And the fields `search_rank` and `id` have a
filter of their own, which takes ranks that are close for equal and compares the ids the other way.

A row is anything that has values for field names. Values are numbers or come from some other
linear order, and cursors are the values themselves: their conversion to text and back is not
modelled, nor are custom sort methods, which only add fields, and sorting by an attribute.

## Main definitions

* `Value`, `precedes`, `sortRows`
* `sortQuerysetForConnection`, `prepareFilter`, `connectionFromQuerysetSlice`
* `createConnectionSlice`
-/

namespace Aixinwu

namespace Connections

/-! ### Values and sorting -/

/-- The value of a field: a number, or something else that can be compared. -/
inductive Value (V : Type) where
  | number (q : ℚ)
  | other (v : V)
deriving DecidableEq, Repr

variable {V ρ : Type}

/-- Numbers come before everything else; a column has values of one kind. -/
def Value.toSum : Value V → ℚ ⊕ₗ V
  | .number q => Sum.inlₗ q
  | .other v => Sum.inrₗ v

theorem Value.toSum_injective : Function.Injective (Value.toSum (V := V))
  | .number _, .number _, h => congrArg Value.number (Sum.inl_injective h)
  | .other _, .other _, h => congrArg Value.other (Sum.inr_injective h)

instance [LinearOrder V] : LinearOrder (Value V) := LinearOrder.lift' Value.toSum
  Value.toSum_injective

variable [LinearOrder V] (field : ρ → String → Option (Value V))

/-- `ORDER BY`, field by field with its direction, whether it is descending: `a` comes before `b`. -/
def precedes : List (String × Bool) → ρ → ρ → Bool
  | [], _, _ => false
  | (name, descending) :: order, a, b =>
    let x := field a name
    let y := field b name
    if x = y then precedes order a b
    else if descending then decide (nullsLast y < nullsLast x)
    else decide (nullsLast x < nullsLast y)

/-- `queryset.order_by(*order)`; rows that the order does not tell apart stay as they stand. -/
def sortRows (order : List (String × Bool)) (rows : List ρ) : List ρ :=
  rows.insertionSort fun a b => precedes field order b a = false

/-! ### `sorting.py` -/

/-- `sort_by`: the fields and `direction == "-"`. -/
structure SortBy where
  fields : List String
  descending : Bool := false
deriving DecidableEq, Repr

/-- The values of a row's sorting fields. -/
abbrev Cursor (V : Type) := List (Option (Value V))

/-- The arguments of a connection. -/
structure Args (V : Type) where
  sortBy : Option SortBy := none
  first : Option ℤ := none
  last : Option ℤ := none
  after : Option (Cursor V) := none
  before : Option (Cursor V) := none

/-- `sort_queryset`: all fields in one direction. -/
def sortQueryset (sortBy : SortBy) (reversed : Bool) : List (String × Bool) :=
  sortBy.fields.map fun name => (name, sortBy.descending != reversed)

/-- `sort_queryset_by_default`, for a model with this `Meta.ordering`. -/
def sortQuerysetByDefault (modelOrdering : List (String × Bool)) (reversed : Bool) :
    List (String × Bool) × SortBy :=
  let defaultOrdering := if modelOrdering = [] then [("pk", false)] else modelOrdering
  let orderingFields := defaultOrdering.map (·.1)
  let descending := (defaultOrdering.head?.map (·.2)).getD false
  (if reversed then orderingFields.map fun name => (name, !descending) else defaultOrdering,
    { fields := orderingFields, descending := descending })

/-- `sort_queryset_for_connection`: what is sorted by, and what the connection takes it for. -/
def sortQuerysetForConnection (modelOrdering : List (String × Bool)) (args : Args V) :
    List (String × Bool) × SortBy :=
  let reversed := args.last.isSome && args.first.isNone
  match args.sortBy with
  | some sortBy => (sortQueryset sortBy reversed, sortBy)
  | none => sortQuerysetByDefault modelOrdering reversed

/-! ### `connection.py` -/

/-- `EPSILON`. -/
def epsilon : ℚ := 1 / 1000000

/-- `x > v`, which `NULL`s are not part of. -/
def isGreater : Option (Value V) → Option (Value V) → Bool
  | some x, some v => decide (v < x)
  | _, _ => false

/-- The number in a field. -/
def numberIn : Option (Value V) → Option ℚ
  | some (.number q) => some q
  | _ => none

/-- `_prepare_filter_by_rank_expression`; a cursor that is not a number and an id is an error. -/
def prepareFilterByRankExpression (cursor : Cursor V) (descending : Bool) : Option (ρ → Bool) :=
  match cursor with
  | [rank, some id] =>
    (numberIn rank).map fun rank x =>
      (numberIn (field x "search_rank")).any fun searchRank =>
        let close := decide (rank - epsilon ≤ searchRank ∧ searchRank ≤ rank + epsilon)
        if descending then
          (close && isGreater (field x "id") (some id)) || decide (searchRank < rank - epsilon)
        else (close && isGreater (some id) (field x "id")) || decide (rank + epsilon < searchRank)
  | _ => none

/-- `_prepare_filter_expression`, at the fields before, which are to be equal, and a field. -/
def prepareFilterExpression (before : List (String × Option (Value V))) (name : String)
    (value : Option (Value V)) (descending : Bool) (x : ρ) : Bool :=
  let previous := before.all fun e => field x e.1 = e.2
  if descending then
    match value with
    | some v => previous && isGreater (some v) (field x name)
    | none => previous && (field x name).isSome
  else previous && (isGreater (field x name) value || (field x name).isNone)

/-- The expressions of `_prepare_filter`, one for each field; in an ascending sort nothing comes after
a `NULL`. -/
def filterTerms (descending : Bool) :
    List (String × Option (Value V)) → List (String × Option (Value V)) → List (ρ → Bool)
  | _, [] => []
  | before, (name, value) :: rest =>
    let later := filterTerms descending (before ++ [(name, value)]) rest
    if value.isNone && !descending then later
    else prepareFilterExpression field before name value descending :: later

/-- `_prepare_filter`; no expressions are no condition. -/
def prepareFilter (sortingFields : List String) (descending : Bool) (cursor : Cursor V) :
    Option (ρ → Bool) :=
  if sortingFields = ["search_rank", "id"] then
    prepareFilterByRankExpression field cursor descending
  else
    let terms := filterTerms field descending [] (sortingFields.zip cursor)
    some fun x => terms.isEmpty || terms.any (· x)

/-- An edge. -/
structure Edge (ρ V : Type) where
  node : ρ
  cursor : Cursor V

/-- A connection: the edges and `page_info`. -/
structure Connection (ρ V : Type) where
  edges : List (Edge ρ V)
  hasPreviousPage : Bool := false
  hasNextPage : Bool := false
  startCursor : Option (Cursor V) := none
  endCursor : Option (Cursor V) := none

/-- `bool(n)` of an argument. -/
def truthy (n : Option ℤ) : Bool := n.any (· ≠ 0)

/-- `_validate_connection_args`. -/
def validateConnectionArgs (args : Args V) : Except String Unit :=
  if args.first.any (· < 0) then .error "Argument `first` must be a non-negative integer."
  else if args.last.any (· < 0) then .error "Argument `last` must be a non-negative integer."
  else if truthy args.first && args.before.isSome then
    .error "Argument `first` cannot be combined with `before`."
  else if truthy args.last && args.after.isSome then
    .error "Argument `last` cannot be combined with `after`."
  else .ok ()

/-- `l[start:stop]`. -/
def slice (l : List ρ) (start : ℤ) (stop : Option ℕ) : List ρ :=
  let start := if start < 0 then max (l.length + start) 0 else start
  ((stop.map l.take).getD l).drop start.toNat

/-- The values of a row's fields, as in `edge.cursor`. -/
def cursorOf (sortingFields : List String) (x : ρ) : Cursor V := sortingFields.map (field x)

/-- `_get_edges_for_connection`, of the rows found. -/
def getEdgesForConnection (rows : List ρ) (args : Args V) (sortingFields : List String) :
    Connection ρ V :=
  let cursor := args.after.isSome || args.before.isSome
  let edgesOf := fun (records : List ρ) =>
    records.map fun x => (⟨x, cursorOf field sortingFields x⟩ : Edge ρ V)
  match truthy args.first, truthy args.last with
  | false, false => { edges := [] }
  | true, backward =>
    let requestedCount := (args.first.getD 0).toNat
    let start := if backward then (requestedCount : ℤ) - args.last.getD 0 else 0
    let edges := edgesOf (slice rows start (some requestedCount))
    { edges := edges
      hasPreviousPage := cursor
      hasNextPage := decide (requestedCount < rows.length)
      startCursor := edges.head?.map (·.cursor)
      endCursor := edges.getLast?.map (·.cursor) }
  | false, true =>
    let requestedCount := (args.last.getD 0).toNat
    let start := if rows.length ≤ requestedCount then 0 else 1
    let edges := edgesOf (slice rows.reverse start none)
    { edges := edges
      hasPreviousPage := decide (requestedCount < rows.length)
      hasNextPage := cursor
      startCursor := edges.head?.map (·.cursor)
      endCursor := edges.getLast?.map (·.cursor) }

/-- `connection_from_queryset_slice`, of the sorted rows. -/
def connectionFromQuerysetSlice (rows : List ρ) (args : Args V) (sortBy : SortBy) :
    Except String (Connection ρ V) :=
  match validateConnectionArgs args with
  | .error e => .error e
  | .ok () =>
    let requestedCount := if truthy args.first then args.first else
      if truthy args.last then args.last else none
    let descending := sortBy.descending != (truthy args.last && !truthy args.first)
    let upTo := fun (rows : List ρ) =>
      match requestedCount with
      | some n => rows.take (n.toNat + 1)
      | none => rows
    match args.after.or args.before with
    | none => .ok (getEdgesForConnection field (upTo rows) args sortBy.fields)
    | some cursor =>
      if cursor.length ≠ sortBy.fields.length then .error "Received cursor is invalid."
      else
        match prepareFilter field sortBy.fields descending cursor with
        | none => .error "Received cursor is invalid."
        | some passes =>
          .ok (getEdgesForConnection field (upTo (rows.filter passes)) args sortBy.fields)

/-- `create_connection_slice`, of a table. -/
def createConnectionSlice (modelOrdering : List (String × Bool)) (table : List ρ) (args : Args V) :
    Except String (Connection ρ V) :=
  let (order, sortBy) := sortQuerysetForConnection modelOrdering args
  connectionFromQuerysetSlice field (sortRows field order table) args sortBy

end Connections

end Aixinwu
