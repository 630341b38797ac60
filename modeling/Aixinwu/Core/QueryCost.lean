import Aixinwu.Lib.Graphql

/-!
# The cost of a query

`CostValidator.compute_node_cost` adds up what the fields of a document cost, before the document is
validated. A cost map gives each field its complexity and names the arguments that it is multiplied
by; what the fields above have been multiplied by is handed down, in a list that the walk keeps in
an attribute of the validator.

## What is deliberately absent

Errors that are only reported. Accessors are lists of keys, already split at their dots; an entry
of the cost map has no keys but the three that `compute_cost` takes.

## Main definitions

* `Value`, `CostArgs`, `CostValidator`
* `CostValidator.getMultipliersFromString`, `CostValidator.computeCost`
* `CostValidator.computeNodeCost`
-/

namespace Aixinwu

namespace QueryCost

open Graphql

/-! ### Values of arguments -/

/-- What `get_argument_values` can give an argument. A finite float is told by its integral part,
which is all that `int` takes of it; `float none` is an infinite one. -/
inductive Value where
  | none
  | bool (b : Bool)
  | int (n : ℤ)
  | float (integralPart : Option ℤ)
  | nan
  | str (text : String)
  | list (values : List Value)
  | dict (items : List (String × Value))

/-- The exceptions that get through. -/
inductive Exception where
  | recursionError
  | attributeError
  | overflowError
deriving DecidableEq, Repr

/-- The argument of `compute_cost` in an entry of the cost map, each there or not. -/
structure CostArgs where
  complexity : Option ℤ := none
  multipliers : Option (List (List String)) := none
  useMultipliers : Option Bool := none
deriving DecidableEq, Repr

/-- `not cost_args`. -/
def CostArgs.isEmpty (args : CostArgs) : Bool :=
  args.complexity.isNone && args.multipliers.isNone && args.useMultipliers.isNone

/-- The validator with its context. `get_argument_values` is of another package and may raise; it
finds the arguments of a field in the variables. `intOfText` is `int` of a text. -/
structure CostValidator (α β ω : Type*) where
  schema : Schema α
  fragments : List (FragmentDefinition β)
  costMap : List (String × List (String × CostArgs))
  variableValues : ω
  getArgumentValues : α → β → ω → Option (List (String × Value))
  intOfText : String → Option ℤ

/-- `CostValidator.default_cost`. -/
def defaultCost : ℤ := 0

/-- `CostValidator.default_complexity`. -/
def defaultComplexity : ℤ := 1

/-- `val = val.get(key)` for each key. -/
def getVal : Value → List String → Except Exception Value
  | val, [] => .ok val
  | .dict items, key :: accessor => getVal ((items.lookup key).getD .none) accessor
  | _, _ :: _ => .error .attributeError

namespace CostValidator

variable {α β ω : Type*} (v : CostValidator α β ω)

/-- `int(val)`: nothing where it raises an exception that is caught. -/
def int : Value → Except Exception (Option ℤ)
  | .bool b => .ok (some (if b then 1 else 0))
  | .int n => .ok (some n)
  | .float none => .error .overflowError
  | .float (some integralPart) => .ok (some integralPart)
  | .str text => .ok (v.intOfText text)
  | _ => .ok none

/-- The loop of `get_multipliers_from_string`. -/
def multipliersOf (fieldArgs : List (String × Value)) : List (List String) → Except Exception (List ℤ)
  | [] => .ok []
  | accessor :: accessors => match getVal (.dict fieldArgs) accessor with
    | .error e => .error e
    | .ok val => match v.int val with
      | .error e => .error e
      | .ok n => match multipliersOf fieldArgs accessors with
        | .error e => .error e
        | .ok multipliers => .ok (n.toList ++ multipliers)

/-- `get_multipliers_from_string`. What `int` has returned is no list, so that none is replaced by
its length. -/
def getMultipliersFromString (multipliers : List (List String))
    (fieldArgs : List (String × Value)) : Except Exception (List ℤ) :=
  match v.multipliersOf fieldArgs multipliers with
  | .error e => .error e
  | .ok multipliers => .ok (multipliers.filter (0 < ·))

/-- The entry of a field in the cost map, unless it is empty. -/
def costArgs (parentType name : String) : Option CostArgs :=
  ((v.costMap.lookup parentType).bind (·.lookup name)).filter (!·.isEmpty)

/-- `get_args_from_cost_map`: the entry, and the multipliers if it has any. -/
def getArgsFromCostMap (name parentType : String) (fieldArgs : List (String × Value)) :
    Except Exception (Option (CostArgs × Option (List ℤ))) :=
  match v.costArgs parentType name with
  | none => .ok none
  | some costArgs => match costArgs.multipliers with
    | none => .ok (some (costArgs, none))
    | some multipliers => match v.getMultipliersFromString multipliers fieldArgs with
      | .error e => .error e
      | .ok multipliers => .ok (some (costArgs, some multipliers))

/-- `operation_multipliers` with the sum of the multipliers at the end, if there are any. -/
def withMultipliers (operationMultipliers : List ℤ) : Option (List ℤ) → List ℤ
  | none => operationMultipliers
  | some [] => operationMultipliers
  | some (m :: ms) => operationMultipliers ++ [(m :: ms).foldl (· + ·) 0]

/-- `compute_cost`: the cost, and `operation_multipliers` after it. -/
def computeCost (costArgs : CostArgs) (multipliers : Option (List ℤ)) (operationMultipliers : List ℤ) :
    ℤ × List ℤ :=
  let complexity := costArgs.complexity.getD defaultComplexity
  if costArgs.useMultipliers.getD true then
    ((withMultipliers operationMultipliers multipliers).foldl (· * ·) complexity,
      withMultipliers operationMultipliers multipliers)
  else (complexity, operationMultipliers)

/-- The cost of a field by itself. -/
def ownCost (costMapArgs : Option (CostArgs × Option (List ℤ))) (operationMultipliers : List ℤ) :
    ℤ × List ℤ :=
  match costMapArgs with
  | none => (defaultCost, operationMultipliers)
  | some (costArgs, multipliers) => computeCost costArgs multipliers operationMultipliers

/-- `field_args`: nothing where an exception is caught. -/
def fieldArgs (field : FieldDefinition α) (info : β) : List (String × Value) :=
  (v.getArgumentValues field.args info v.variableValues).getD []

/-- A call of `compute_node_cost`: a type and a selection set, `parent_multipliers` and
`operation_multipliers` before it. The cost, and `operation_multipliers` after it. -/
abbrev NodeCost (α β : Type*) : Type _ :=
  Option (NamedType α) × List (Selection β) → List ℤ → List ℤ → Except Exception (ℤ × List ℤ)

/-- The branch of a field that the type has. -/
def fieldCost (computeNodeCost : NodeCost α β) (type : NamedType α) (field : FieldDefinition α)
    (name : String) (info : β) (selectionSet : List (Selection β)) (operationMultipliers : List ℤ) :
    Except Exception (ℤ × List ℤ) :=
  match v.getArgsFromCostMap name type.name (v.fieldArgs field info) with
  | .error e => .error e
  | .ok costMapArgs =>
    let own := ownCost costMapArgs operationMultipliers
    match computeNodeCost (v.schema.getType field.type.namedType, selectionSet) own.2 own.2 with
    | .error e => .error e
    | .ok (childCost, operationMultipliers) => .ok (own.1 + childCost, operationMultipliers)

/-- The loop of `compute_node_cost`. -/
def selectionsCost (computeNodeCost : NodeCost α β) (type : Option (NamedType α))
    (parentMultipliers : List ℤ) :
    List (Selection β) → ℤ → List ℤ → Except Exception (ℤ × List ℤ)
  | [], total, operationMultipliers => .ok (total, operationMultipliers)
  | .field _ name info selectionSet :: selections, total, _ =>
    match fieldOf type name with
    | none =>
      selectionsCost computeNodeCost type parentMultipliers selections total parentMultipliers
    | some (type', field) =>
      if v.costMap.isEmpty then .ok (0, parentMultipliers)
      else match v.fieldCost computeNodeCost type' field name info selectionSet parentMultipliers with
        | .error e => .error e
        | .ok (nodeCost, operationMultipliers) =>
          selectionsCost computeNodeCost type parentMultipliers selections (total + nodeCost)
            operationMultipliers
  | .fragmentSpread name _ :: selections, total, _ => match getFragment v.fragments name with
    | none => selectionsCost computeNodeCost type parentMultipliers selections (total + defaultCost)
        parentMultipliers
    | some fragment =>
      match computeNodeCost (v.schema.getType fragment.typeCondition, fragment.selectionSet)
          parentMultipliers parentMultipliers with
      | .error e => .error e
      | .ok (nodeCost, operationMultipliers) =>
        selectionsCost computeNodeCost type parentMultipliers selections (total + nodeCost)
          operationMultipliers
  | .inlineFragment typeCondition _ selectionSet :: selections, total, _ =>
    match computeNodeCost (v.schema.inlineFragmentType type typeCondition, selectionSet)
        parentMultipliers parentMultipliers with
    | .error e => .error e
    | .ok (nodeCost, operationMultipliers) =>
      selectionsCost computeNodeCost type parentMultipliers selections (total + nodeCost)
        operationMultipliers

/-- `compute_node_cost`, where the stack has room for `d` calls. -/
def computeNodeCost : ℕ → NodeCost α β
  | 0, _, _, _ => .error .recursionError
  | d + 1, c, parentMultipliers, operationMultipliers =>
    v.selectionsCost (computeNodeCost d) c.1 parentMultipliers c.2 0 operationMultipliers

end CostValidator

end QueryCost

end Aixinwu
