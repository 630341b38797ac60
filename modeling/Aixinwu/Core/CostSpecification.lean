import Aixinwu.Core.QueryCost
import Mathlib.Algebra.BigOperators.Group.List.Basic
import Mathlib.Algebra.Order.BigOperators.Group.List
import Mathlib.Tactic.Linarith

/-!
# What a query is to cost

The specification takes the document with its fragments put in (`Inlines`) and adds up the
complexity of each field occurrence times the multiplier sums on the path to it.

The code falls short of it in three ways. It goes round a cycle of fragments until the stack is
full. An accessor with dots that comes to an argument that is not there raises, as does an infinite
number. And a list, which is meant to count as its length, never gets as far: `int` of it raises a
`TypeError`, and it counts as nothing. **`meetsSpecification_of`**: that is all.

## Main definitions

* `Occurrence`, `CostValidator.occurrences`, `CostValidator.specification`
* `CostValidator.MeetsSpecification`, `CostValidator.CostCondition`

## Main results

* `exists_computeNodeCost_iff` — when there is a result
* `computeNodeCost_eq` — what it is
* `meetsSpecification_of`
-/

namespace Aixinwu

namespace QueryCost

open Graphql

namespace CostValidator

variable {α β ω : Type*} (v : CostValidator α β ω)

/-- The number that a scalar counts as. -/
def scalar (val : Value) : Option ℤ := (v.int val).toOption.join

/-- The number that a multiplier argument counts as: its integer value or, if it is a list, its
length. -/
def count : Value → Option ℤ
  | .list values => some values.length
  | val => v.scalar val

/-- The value that an accessor comes to. -/
def valueAt (fieldArgs : List (String × Value)) (accessor : List String) : Value :=
  (getVal (.dict fieldArgs) accessor).toOption.getD .none

end CostValidator

/-- The multiplier sum of some arguments: of those that count as a positive number, if there are
any.
-/
def multiplierSum (count : Value → Option ℤ) (values : List Value) : ℤ :=
  match (values.filterMap count).filter (0 < ·) with
  | [] => 1
  | m :: ms => (m :: ms).sum

/-- A field occurrence: its complexity, and the multiplier arguments of the fields on the path from
the root to it and including it. -/
structure Occurrence where
  complexity : ℤ
  path : List (List Value)

/-- The complexity times the multiplier sums along the path. -/
def Occurrence.cost (count : Value → Option ℤ) (o : Occurrence) : ℤ :=
  o.complexity * (o.path.map (multiplierSum count)).prod

namespace CostValidator

variable {α β ω : Type*} (v : CostValidator α β ω)

/-- The multiplier arguments of an entry. -/
def multiplierValues (costArgs : CostArgs) (fieldArgs : List (String × Value)) : List Value :=
  (costArgs.multipliers.getD []).map (valueAt fieldArgs)

/-- The occurrence of a field, and the path for the fields below. An entry that does not use
multipliers stands for itself. -/
def occurrence (path : List (List Value)) (type : NamedType α) (field : FieldDefinition α)
    (name : String) (info : β) : Occurrence × List (List Value) :=
  match v.costArgs type.name name with
  | none => (⟨defaultCost, path⟩, path)
  | some costArgs =>
    if costArgs.useMultipliers.getD true then
      let path := path ++ [multiplierValues costArgs (v.fieldArgs field info)]
      (⟨costArgs.complexity.getD defaultComplexity, path⟩, path)
    else (⟨costArgs.complexity.getD defaultComplexity, []⟩, path)

mutual

/-- The field occurrences in a selection of a document without spreads. -/
def occurrencesIn (path : List (List Value)) (type : Option (NamedType α)) :
    Selection β → List Occurrence
  | .field _ name info selectionSet => match fieldOf type name with
    | none => []
    | some (type, field) =>
      (v.occurrence path type field name info).1 ::
        occurrences (v.occurrence path type field name info).2
          (v.schema.getType field.type.namedType) selectionSet
  | .fragmentSpread _ _ => []
  | .inlineFragment typeCondition _ selectionSet =>
    occurrences path (v.schema.inlineFragmentType type typeCondition) selectionSet

/-- The field occurrences in a selection set of a document without spreads. -/
def occurrences (path : List (List Value)) (type : Option (NamedType α)) :
    List (Selection β) → List Occurrence
  | [] => []
  | selection :: selections => occurrencesIn path type selection ++ occurrences path type selections

end

/-- The cost of a document without spreads, if arguments count as `count`. -/
def costOf (count : Value → Option ℤ) (type : Option (NamedType α))
    (selections : List (Selection β)) : ℤ :=
  ((v.occurrences [] type selections).map (Occurrence.cost count)).sum

/-- **What a document without spreads costs.** -/
def specification (type : Option (NamedType α)) (selections : List (Selection β)) : ℤ :=
  v.costOf v.count type selections

/-- The type has the field. -/
def hasField (type : Option (NamedType α)) : Selection β → Bool
  | .field _ name _ _ => (fieldOf type name).isSome
  | .fragmentSpread _ _ => false
  | .inlineFragment _ _ _ => false

/-- The walk of `compute_node_cost`: without a cost map it returns at the first field. -/
def walk : Walk β (Option (NamedType α)) :=
  typedWalk β v.schema fun type selection => !(v.costMap.isEmpty && hasField type selection)

/-- The accessors of the field's entry come to values, and none to an infinite number. -/
def Reads (type : Option (NamedType α)) : Selection β → Prop
  | .field _ name info _ => ∀ type' field costArgs, fieldOf type name = some (type', field) →
    v.costArgs type'.name name = some costArgs → ∀ accessor ∈ costArgs.multipliers.getD [],
      ∃ val, getVal (.dict (v.fieldArgs field info)) accessor = .ok val ∧ val ≠ .float none
  | .fragmentSpread _ _ => True
  | .inlineFragment _ _ _ => True

variable {v}

/-! ### Multipliers -/

theorem exists_int_iff (val : Value) : (∃ n, v.int val = .ok n) ↔ val ≠ .float none := by
  cases val with
  | float integralPart =>
    cases integralPart with
    | none => simp [int]
    | some n => simp [int]
  | _ => simp [int]

/-- The loop gets through when each accessor comes to a value that `int` gets through. -/
theorem exists_multipliersOf_iff {fieldArgs : List (String × Value)} :
    ∀ {accessors : List (List String)}, (∃ ms, v.multipliersOf fieldArgs accessors = .ok ms) ↔
      ∀ accessor ∈ accessors, ∃ val, getVal (.dict fieldArgs) accessor = .ok val ∧ val ≠ .float none
  | [] => by simp [multipliersOf]
  | accessor :: accessors => by
    have ih : (∃ ms, v.multipliersOf fieldArgs accessors = .ok ms) ↔ _ := exists_multipliersOf_iff
    rw [List.forall_mem_cons, ← ih, multipliersOf]
    rcases hval : getVal (.dict fieldArgs) accessor with e | val
    · simp
    · simp only [Except.ok.injEq, exists_eq_left', ← exists_int_iff (v := v) val]
      rcases v.int val with e | n
      · simp
      · rcases v.multipliersOf fieldArgs accessors with e | ms
        · simp
        · simp

theorem multipliersOf_eq {fieldArgs : List (String × Value)} :
    ∀ {accessors : List (List String)} {ms : List ℤ}, v.multipliersOf fieldArgs accessors = .ok ms →
      ms = (accessors.map (valueAt fieldArgs)).filterMap v.scalar
  | [], ms, h => by
    rw [multipliersOf, Except.ok.injEq] at h
    exact h.symm
  | accessor :: accessors, ms, h => by
    rw [multipliersOf] at h
    rcases hval : getVal (.dict fieldArgs) accessor with e | val
    · simp [hval] at h
    rcases hn : v.int val with e | n
    · simp [hval, hn] at h
    rcases hms : v.multipliersOf fieldArgs accessors with e | rest
    · simp [hval, hn, hms] at h
    simp only [hval, hn, hms, Except.ok.injEq] at h
    have hvalue : v.scalar (valueAt fieldArgs accessor) = n := by
      rw [valueAt, hval, scalar]
      show (v.int val).toOption.join = n
      rw [hn]
      rfl
    rw [List.map_cons, List.filterMap_cons, hvalue, ← multipliersOf_eq hms, ← h]
    cases n <;> rfl

/-- `get_args_from_cost_map` gets through when the accessors of the entry are read. -/
theorem exists_getArgsFromCostMap_iff {name parentType : String}
    {fieldArgs : List (String × Value)} :
    (∃ r, v.getArgsFromCostMap name parentType fieldArgs = .ok r) ↔
      ∀ costArgs, v.costArgs parentType name = some costArgs →
        ∀ accessor ∈ costArgs.multipliers.getD [],
          ∃ val, getVal (.dict fieldArgs) accessor = .ok val ∧ val ≠ .float none := by
  rw [getArgsFromCostMap]
  rcases v.costArgs parentType name with _ | costArgs
  · simp
  · simp only [Option.some.injEq, forall_eq']
    rcases costArgs.multipliers with _ | accessors
    · simp
    · rw [Option.getD_some, ← exists_multipliersOf_iff (v := v)]
      simp only [getMultipliersFromString]
      rcases v.multipliersOf fieldArgs accessors with e | ms
      · simp
      · simp

theorem foldl_mul (complexity : ℤ) (ms : List ℤ) :
    ms.foldl (· * ·) complexity = complexity * ms.prod := by
  induction ms generalizing complexity with
  | nil => simp
  | cons m ms ih => rw [List.foldl_cons, ih, List.prod_cons, mul_assoc]

/-- What the positive multipliers of an entry add to the list that is handed down. -/
theorem prod_withMultipliers (parent : List ℤ) (values : List Value) :
    (withMultipliers parent (some ((values.filterMap v.scalar).filter (0 < ·)))).prod
      = parent.prod * multiplierSum v.scalar values := by
  rw [multiplierSum]
  generalize (values.filterMap v.scalar).filter (0 < ·) = positive
  cases positive with
  | nil => simp [withMultipliers]
  | cons m ms => rw [withMultipliers, ← List.sum_eq_foldl, List.prod_append, List.prod_singleton]

theorem multiplierSum_nil (count : Value → Option ℤ) : multiplierSum count [] = 1 := rfl

/-- The multipliers that are found are those of the entry's arguments. -/
theorem getArgsFromCostMap_eq {name parentType : String} {fieldArgs : List (String × Value)}
    {costArgs : CostArgs} (hargs : v.costArgs parentType name = some costArgs)
    {costMapArgs : Option (CostArgs × Option (List ℤ))}
    (h : v.getArgsFromCostMap name parentType fieldArgs = .ok costMapArgs) :
    ∃ multipliers, costMapArgs = some (costArgs, multipliers) ∧ ∀ parent : List ℤ,
      (withMultipliers parent multipliers).prod
        = parent.prod * multiplierSum v.scalar (multiplierValues costArgs fieldArgs) := by
  rw [getArgsFromCostMap] at h
  rcases hmultipliers : costArgs.multipliers with _ | accessors
  · simp only [hargs, hmultipliers, Except.ok.injEq] at h
    refine ⟨none, h.symm, fun parent => ?_⟩
    rw [multiplierValues, hmultipliers, Option.getD_none, List.map_nil, multiplierSum_nil, mul_one]
    rfl
  · rcases hms : v.multipliersOf fieldArgs accessors with e | ms
    · simp [hargs, hmultipliers, getMultipliersFromString, hms] at h
    · simp only [hargs, hmultipliers, getMultipliersFromString, hms, Except.ok.injEq] at h
      refine ⟨_, h.symm, fun parent => ?_⟩
      rw [multipliersOf_eq hms, multiplierValues, hmultipliers, Option.getD_some]
      exact prod_withMultipliers parent _

/-- **One field.** What it costs by itself, and what is handed down to the fields below. -/
theorem computeCost_eq {type : NamedType α} {field : FieldDefinition α} {name : String} {info : β}
    {path : List (List Value)} {parent : List ℤ}
    (hparent : parent.prod = (path.map (multiplierSum v.scalar)).prod)
    {costMapArgs : Option (CostArgs × Option (List ℤ))}
    (h : v.getArgsFromCostMap name type.name (v.fieldArgs field info) = .ok costMapArgs) :
    let own := ownCost costMapArgs parent
    own.1 = (v.occurrence path type field name info).1.cost v.scalar ∧
      own.2.prod = ((v.occurrence path type field name info).2.map (multiplierSum v.scalar)).prod := by
  intro own
  rcases hargs : v.costArgs type.name name with _ | costArgs
  · have hnone : costMapArgs = none := by
      simp only [getArgsFromCostMap, hargs, Except.ok.injEq] at h
      exact h.symm
    subst hnone
    simp only [occurrence, hargs]
    exact ⟨by simp [own, ownCost, Occurrence.cost, defaultCost], hparent⟩
  · obtain ⟨multipliers, rfl, hprod⟩ := getArgsFromCostMap_eq hargs h
    show (computeCost costArgs multipliers parent).1 = _ ∧
      (computeCost costArgs multipliers parent).2.prod = _
    have hpath : (withMultipliers parent multipliers).prod
        = ((path ++ [multiplierValues costArgs (v.fieldArgs field info)]).map
            (multiplierSum v.scalar)).prod := by
      rw [hprod, hparent, List.map_append, List.prod_append, List.map_singleton, List.prod_singleton]
    by_cases huse : costArgs.useMultipliers.getD true = true
    · simp only [occurrence, hargs, computeCost, if_pos huse]
      exact ⟨by rw [foldl_mul, Occurrence.cost, hpath], hpath⟩
    · simp only [occurrence, hargs, computeCost, if_neg huse]
      exact ⟨by simp [Occurrence.cost], hparent⟩

/-! ### When there is a result -/

section Result

variable {computeNodeCost' : NodeCost α β} {P : Option (NamedType α) × List (Selection β) → Prop}

theorem exists_fieldCost_iff
    (hcall : ∀ c parent om, (∃ r, computeNodeCost' c parent om = .ok r) ↔ P c) {type : NamedType α}
    {field : FieldDefinition α} {name : String} {info : β} {selectionSet : List (Selection β)}
    {om : List ℤ} :
    (∃ r, v.fieldCost computeNodeCost' type field name info selectionSet om = .ok r) ↔
      (∃ r, v.getArgsFromCostMap name type.name (v.fieldArgs field info) = .ok r) ∧
        P (v.schema.getType field.type.namedType, selectionSet) := by
  rw [fieldCost]
  rcases v.getArgsFromCostMap name type.name (v.fieldArgs field info) with e | costMapArgs
  · simp
  · simp only [Except.ok.injEq, exists_eq', true_and]
    rw [← hcall _ (ownCost costMapArgs om).2 (ownCost costMapArgs om).2]
    rcases computeNodeCost' _ (ownCost costMapArgs om).2 (ownCost costMapArgs om).2 with e | r
    · simp
    · simp

theorem reads_field_iff {type : Option (NamedType α)} {type' : NamedType α}
    {field : FieldDefinition α} {name : String} {info : β}
    (hfield : fieldOf type name = some (type', field)) (responseName : Option String)
    (selectionSet : List (Selection β)) :
    v.Reads type (.field responseName name info selectionSet) ↔
      ∃ r, v.getArgsFromCostMap name type'.name (v.fieldArgs field info) = .ok r := by
  rw [exists_getArgsFromCostMap_iff, Reads]
  constructor
  · exact fun h costArgs => h type' field costArgs hfield
  · rintro h type'' field' costArgs hfield'
    obtain ⟨rfl, rfl⟩ := Prod.mk.inj (Option.some.inj (hfield.symm.trans hfield'))
    exact h costArgs

/-! What the walk does at each kind of selection. -/

theorem goOn_spread (type : Option (NamedType α)) (name : String) (info : β) :
    v.walk.goOn type (.fragmentSpread name info) = true := by
  simp [walk, typedWalk, hasField]

theorem goOn_inline (type : Option (NamedType α)) (typeCondition : Option String) (info : β)
    (selectionSet : List (Selection β)) :
    v.walk.goOn type (.inlineFragment typeCondition info selectionSet) = true := by
  simp [walk, typedWalk, hasField]

theorem goOn_field (type : Option (NamedType α)) (responseName : Option String) (name : String)
    (info : β) (selectionSet : List (Selection β)) :
    v.walk.goOn type (.field responseName name info selectionSet)
      = !(v.costMap.isEmpty && (fieldOf type name).isSome) := rfl

theorem call_field (type : Option (NamedType α)) (responseName : Option String) (name : String)
    (info : β) (selectionSet : List (Selection β)) :
    v.walk.call v.fragments type (.field responseName name info selectionSet)
      = (fieldOf type name).map fun field =>
          (v.schema.getType field.2.type.namedType, selectionSet) := by
  rw [Walk.call]
  show ((fieldOf type name).map _).map _ = _
  rw [Option.map_map]
  rfl

/-- The loop returns when what it looks at is read, and the calls it makes return. -/
theorem exists_selectionsCost_iff
    (hcall : ∀ c parent om, (∃ r, computeNodeCost' c parent om = .ok r) ↔ P c)
    (type : Option (NamedType α)) (parent : List ℤ) :
    ∀ (selections : List (Selection β)) (total : ℤ) (om : List ℤ),
      (∃ r, v.selectionsCost computeNodeCost' type parent selections total om = .ok r) ↔
        ∀ s ∈ selections.takeWhile (v.walk.goOn type), v.Reads type s ∧
          ∀ c, v.walk.call v.fragments type s = some c → P c
  | [], total, om => by simp [selectionsCost]
  | .field responseName name info selectionSet :: selections, total, om => by
    have hgo := goOn_field (v := v) type responseName name info selectionSet
    rw [selectionsCost]
    rcases hfield : fieldOf type name with _ | ⟨type', field⟩
    · rw [hfield, Option.isSome_none, Bool.and_false, Bool.not_false] at hgo
      have hreads : v.Reads type (.field responseName name info selectionSet) := by
        rintro type' field costArgs hfield'
        rw [hfield] at hfield'
        cases hfield'
      rw [List.takeWhile_cons_of_pos hgo, List.forall_mem_cons, call_field, hfield]
      dsimp only
      rw [exists_selectionsCost_iff hcall type parent selections]
      exact (and_iff_right ⟨hreads, fun c hc => by cases hc⟩).symm
    · rw [hfield, Option.isSome_some, Bool.and_true] at hgo
      dsimp only
      by_cases hempty : v.costMap.isEmpty = true
      · rw [hempty, Bool.not_true] at hgo
        rw [if_pos hempty, List.takeWhile_cons_of_neg (by rw [hgo]; exact Bool.false_ne_true)]
        simp
      · rw [if_neg hempty, List.takeWhile_cons_of_pos (by rw [hgo]; simpa using hempty),
          List.forall_mem_cons, reads_field_iff hfield, call_field, hfield]
        simp only [Option.map_some, Option.some.injEq, forall_eq']
        rw [← exists_fieldCost_iff hcall]
        rcases v.fieldCost computeNodeCost' type' field name info selectionSet parent with e | r
        · simp
        · simp only [Except.ok.injEq, exists_eq', true_and]
          exact exists_selectionsCost_iff hcall type parent selections (total + r.1) r.2
  | .fragmentSpread name info :: selections, total, om => by
    rw [selectionsCost, List.takeWhile_cons_of_pos (goOn_spread type name info),
      List.forall_mem_cons, Walk.call]
    have hreads : v.Reads type (.fragmentSpread name info) := trivial
    rcases getFragment v.fragments name with _ | fragment
    · dsimp only
      rw [exists_selectionsCost_iff hcall type parent selections]
      exact (and_iff_right ⟨hreads, fun c hc => by cases hc⟩).symm
    · have hspread := hcall (v.walk.fragmentCall fragment) parent parent
      have hcallEq : v.walk.fragmentCall fragment =
          (v.schema.getType fragment.typeCondition, fragment.selectionSet) := rfl
      simp only [Option.map_some, Option.some.injEq, forall_eq', ← hspread, hreads, true_and]
      rw [hcallEq]
      rcases computeNodeCost' (v.schema.getType fragment.typeCondition, fragment.selectionSet) parent
        parent with e | r
      · simp
      · simp only [Except.ok.injEq, exists_eq', true_and]
        exact exists_selectionsCost_iff hcall type parent selections (total + r.1) r.2
  | .inlineFragment typeCondition info selectionSet :: selections, total, om => by
    rw [selectionsCost, List.takeWhile_cons_of_pos (goOn_inline type typeCondition info selectionSet),
      List.forall_mem_cons, Walk.call]
    have hreads : v.Reads type (.inlineFragment typeCondition info selectionSet) := trivial
    have hinline := hcall (v.schema.inlineFragmentType type typeCondition, selectionSet) parent parent
    simp only [hreads, true_and, Option.some.injEq, forall_eq']
    show _ ↔ P (v.schema.inlineFragmentType type typeCondition, selectionSet) ∧ _
    rw [← hinline]
    rcases computeNodeCost' (v.schema.inlineFragmentType type typeCondition, selectionSet) parent
      parent with e | r
    · simp
    · simp only [Except.ok.injEq, exists_eq', true_and]
      exact exists_selectionsCost_iff hcall type parent selections (total + r.1) r.2

/-- The accessors are read wherever the walk comes. -/
def ReadsAll (v : CostValidator α β ω) (c : Option (NamedType α) × List (Selection β)) : Prop :=
  ∀ c', Relation.ReflTransGen (fun a b => b ∈ v.walk.calls v.fragments a) c c' →
    ∀ s ∈ v.walk.walked c', v.Reads c'.1 s

theorem readsAll_iff (c : Option (NamedType α) × List (Selection β)) :
    ReadsAll v c ↔ (∀ s ∈ v.walk.walked c, v.Reads c.1 s) ∧
      ∀ c' ∈ v.walk.calls v.fragments c, ReadsAll v c' := by
  constructor
  · exact fun h => ⟨h c .refl, fun c' hc' c'' hreach => h c'' (hreach.head hc')⟩
  · rintro ⟨hhere, hbelow⟩ c' hreach
    rcases Relation.ReflTransGen.cases_head hreach with rfl | ⟨c₁, hc₁, hrest⟩
    · exact hhere
    · exact hbelow c₁ hc₁ c' hrest

/-- **When there is a result.** The stack has room for the walk, and the accessors are read. -/
theorem exists_computeNodeCost_iff : ∀ (d : ℕ) (c : Option (NamedType α) × List (Selection β))
    (parent om : List ℤ), (∃ r, v.computeNodeCost d c parent om = .ok r) ↔
      v.walk.Within v.fragments d c ∧ ReadsAll v c
  | 0, c, parent, om => by simp [CostValidator.computeNodeCost, Walk.Within]
  | d + 1, c, parent, om => by
    rw [CostValidator.computeNodeCost,
      exists_selectionsCost_iff (exists_computeNodeCost_iff d) c.1 parent c.2 0 om, readsAll_iff]
    constructor
    · intro h
      refine ⟨fun c' hc' => ?_, fun s hs => (h s hs).1, fun c' hc' => ?_⟩
      · obtain ⟨s, hs, hcall⟩ := Walk.mem_calls.mp hc'
        exact ((h s hs).2 c' hcall).1
      · obtain ⟨s, hs, hcall⟩ := Walk.mem_calls.mp hc'
        exact ((h s hs).2 c' hcall).2
    · rintro ⟨hwithin, hhere, hbelow⟩ s hs
      refine ⟨hhere s hs, fun c' hcall => ?_⟩
      have hc' := Walk.mem_calls.mpr ⟨s, hs, hcall⟩
      exact ⟨hwithin c' hc', hbelow c' hc'⟩

end Result

/-! ### What the result is -/

/-- What `occurrences` cost, with arguments that count as the code counts them. -/
def codeCost (v : CostValidator α β ω) (path : List (List Value)) (type : Option (NamedType α))
    (selections : List (Selection β)) : ℤ :=
  ((v.occurrences path type selections).map (Occurrence.cost v.scalar)).sum

theorem codeCost_cons (path : List (List Value)) (type : Option (NamedType α))
    (selection : Selection β) (selections : List (Selection β)) :
    codeCost v path type (selection :: selections)
      = ((v.occurrencesIn path type selection).map (Occurrence.cost v.scalar)).sum +
        codeCost v path type selections := by
  rw [codeCost, occurrences, List.map_append, List.sum_append]
  rfl

section Cost

variable {computeNodeCost' : NodeCost α β}

/-- The result of a call is what the inlined selections cost on a path that the parents' multipliers
stand for. -/
def Computes (v : CostValidator α β ω) (computeNodeCost' : NodeCost α β) : Prop :=
  ∀ type selections selections' parent om path r, Inlines v.fragments selections selections' →
    parent.prod = (path.map (multiplierSum v.scalar)).prod →
    computeNodeCost' (type, selections) parent om = .ok r → r.1 = codeCost v path type selections'

theorem fieldCost_eq (hcall : Computes v computeNodeCost') {type : NamedType α}
    {field : FieldDefinition α} {name : String} {info : β} {selectionSet selectionSet' : List (Selection β)}
    {parent : List ℤ} {path : List (List Value)} {r : ℤ × List ℤ}
    (hin : Inlines v.fragments selectionSet selectionSet')
    (hparent : parent.prod = (path.map (multiplierSum v.scalar)).prod)
    (h : v.fieldCost computeNodeCost' type field name info selectionSet parent = .ok r) :
    r.1 = (v.occurrence path type field name info).1.cost v.scalar +
      codeCost v (v.occurrence path type field name info).2
        (v.schema.getType field.type.namedType) selectionSet' := by
  rw [fieldCost] at h
  rcases hargs : v.getArgsFromCostMap name type.name (v.fieldArgs field info) with e | costMapArgs
  · simp [hargs] at h
  simp only [hargs] at h
  obtain ⟨hown, hprod⟩ := computeCost_eq hparent hargs
  rcases hchild : computeNodeCost' (v.schema.getType field.type.namedType, selectionSet)
    (ownCost costMapArgs parent).2 (ownCost costMapArgs parent).2 with e | child
  · simp [hchild] at h
  simp only [hchild, Except.ok.injEq] at h
  rw [← h, hown, hcall _ _ _ _ _ _ _ hin hprod hchild]

/-- The loop adds what the selections cost to the total, whatever the siblings have left in
`operation_multipliers`. -/
theorem selectionsCost_eq (hcall : Computes v computeNodeCost') (hmap : v.costMap.isEmpty = false)
    {type : Option (NamedType α)} {parent : List ℤ} {path : List (List Value)}
    (hparent : parent.prod = (path.map (multiplierSum v.scalar)).prod)
    {selections selections' : List (Selection β)} (hin : Inlines v.fragments selections selections') :
    ∀ {total : ℤ} {om : List ℤ} {r : ℤ × List ℤ},
      v.selectionsCost computeNodeCost' type parent selections total om = .ok r →
        r.1 = total + codeCost v path type selections' := by
  induction hin with
  | nil =>
    intro total om r h
    rw [selectionsCost, Except.ok.injEq] at h
    rw [← h]
    simp [codeCost, occurrences]
  | @field responseName name info selectionSet selectionSet' rest rest' hsub _ _ ih =>
    intro total om r h
    rw [selectionsCost] at h
    rw [codeCost_cons, occurrencesIn]
    rcases hfield : fieldOf type name with _ | ⟨type', field⟩
    · simp only [hfield] at h
      rw [ih h]
      simp
    · simp only [hfield, hmap, Bool.false_eq_true, if_false] at h
      rcases hcost : v.fieldCost computeNodeCost' type' field name info selectionSet parent with e | cost
      · simp [hcost] at h
      · simp only [hcost] at h
        rw [ih h, fieldCost_eq hcall hsub hparent hcost, List.map_cons, List.sum_cons]
        simp only [codeCost]
        omega
  | @inline typeCondition info selectionSet selectionSet' rest rest' hsub _ _ ih =>
    intro total om r h
    rw [selectionsCost] at h
    rw [codeCost_cons, occurrencesIn]
    rcases hcost : computeNodeCost' (v.schema.inlineFragmentType type typeCondition, selectionSet)
      parent parent with e | cost
    · simp [hcost] at h
    · simp only [hcost] at h
      rw [ih h, hcall _ _ _ _ _ _ _ hsub hparent hcost]
      simp only [codeCost]
      omega
  | @spread name info fragment selectionSet' rest rest' hfragment hsub _ _ ih =>
    intro total om r h
    rw [selectionsCost] at h
    rw [codeCost_cons, occurrencesIn]
    simp only [hfragment] at h
    rcases hcost : computeNodeCost' (v.schema.getType fragment.typeCondition, fragment.selectionSet)
      parent parent with e | cost
    · simp [hcost] at h
    · simp only [hcost] at h
      rw [ih h, hcall _ _ _ _ _ _ _ hsub hparent hcost]
      simp only [codeCost, Schema.inlineFragmentType]
      omega
  | @unknown name info rest rest' hfragment _ ih =>
    intro total om r h
    rw [selectionsCost] at h
    simp only [hfragment] at h
    rw [ih h, defaultCost, add_zero]

/-! Without a cost map everything is free. -/

theorem selectionsCost_of_isEmpty (hmap : v.costMap.isEmpty = true)
    (hcall : ∀ c parent om r, computeNodeCost' c parent om = .ok r → r.1 = 0)
    {type : Option (NamedType α)} {parent : List ℤ} :
    ∀ {selections : List (Selection β)} {om : List ℤ} {r : ℤ × List ℤ},
      v.selectionsCost computeNodeCost' type parent selections 0 om = .ok r → r.1 = 0
  | [], om, r, h => by
    rw [selectionsCost, Except.ok.injEq] at h
    rw [← h]
  | .field responseName name info selectionSet :: selections, om, r, h => by
    rw [selectionsCost] at h
    rcases hfield : fieldOf type name with _ | ⟨type', field⟩
    · simp only [hfield] at h
      exact selectionsCost_of_isEmpty hmap hcall h
    · simp only [hfield, hmap, if_true, Except.ok.injEq] at h
      rw [← h]
  | .fragmentSpread name info :: selections, om, r, h => by
    rw [selectionsCost] at h
    rcases hfragment : getFragment v.fragments name with _ | fragment
    · simp only [hfragment] at h
      exact selectionsCost_of_isEmpty hmap hcall h
    · simp only [hfragment] at h
      rcases hcost : computeNodeCost' (v.schema.getType fragment.typeCondition, fragment.selectionSet)
        parent parent with e | cost
      · simp [hcost] at h
      · simp only [hcost, hcall _ _ _ _ hcost] at h
        exact selectionsCost_of_isEmpty hmap hcall h
  | .inlineFragment typeCondition info selectionSet :: selections, om, r, h => by
    rw [selectionsCost] at h
    rcases hcost : computeNodeCost' (v.schema.inlineFragmentType type typeCondition, selectionSet)
      parent parent with e | cost
    · simp [hcost] at h
    · simp only [hcost, hcall _ _ _ _ hcost] at h
      exact selectionsCost_of_isEmpty hmap hcall h

theorem computeNodeCost_of_isEmpty (hmap : v.costMap.isEmpty = true) :
    ∀ (d : ℕ) (c : Option (NamedType α) × List (Selection β)) (parent om : List ℤ) (r : ℤ × List ℤ),
      v.computeNodeCost d c parent om = .ok r → r.1 = 0
  | d + 1, _, _, _, _, h =>
    selectionsCost_of_isEmpty hmap (computeNodeCost_of_isEmpty hmap d) h

theorem occurrence_of_isEmpty (hmap : v.costMap.isEmpty = true) (path : List (List Value))
    (type : NamedType α) (field : FieldDefinition α) (name : String) (info : β) :
    v.occurrence path type field name info = (⟨0, path⟩, path) := by
  rw [occurrence, costArgs, List.isEmpty_iff.mp hmap]
  rfl

mutual

theorem complexity_in_of_isEmpty (hmap : v.costMap.isEmpty = true) (path : List (List Value))
    (type : Option (NamedType α)) : ∀ (selection : Selection β),
      ∀ o ∈ v.occurrencesIn path type selection, o.complexity = 0
  | .field _ name info selectionSet => by
    rw [occurrencesIn]
    rcases fieldOf type name with _ | ⟨type', field⟩
    · exact fun o ho => absurd ho List.not_mem_nil
    · dsimp only
      rw [occurrence_of_isEmpty hmap, List.forall_mem_cons]
      exact ⟨rfl, complexity_of_isEmpty hmap path _ selectionSet⟩
  | .fragmentSpread _ _ => by
    rw [occurrencesIn]
    exact fun o ho => absurd ho List.not_mem_nil
  | .inlineFragment typeCondition _ selectionSet => by
    rw [occurrencesIn]
    exact complexity_of_isEmpty hmap path _ selectionSet

theorem complexity_of_isEmpty (hmap : v.costMap.isEmpty = true) (path : List (List Value))
    (type : Option (NamedType α)) : ∀ (selections : List (Selection β)),
      ∀ o ∈ v.occurrences path type selections, o.complexity = 0
  | [] => by
    rw [occurrences]
    exact fun o ho => absurd ho List.not_mem_nil
  | selection :: selections => by
    rw [occurrences, List.forall_mem_append]
    exact ⟨complexity_in_of_isEmpty hmap path type selection,
      complexity_of_isEmpty hmap path type selections⟩

end

theorem codeCost_of_isEmpty (hmap : v.costMap.isEmpty = true) (path : List (List Value))
    (type : Option (NamedType α)) (selections : List (Selection β)) :
    codeCost v path type selections = 0 := by
  refine List.sum_eq_zero fun cost hcost => ?_
  obtain ⟨o, ho, rfl⟩ := List.mem_map.mp hcost
  rw [Occurrence.cost, complexity_of_isEmpty hmap path type selections o ho, zero_mul]

/-- **What the result is**: the occurrences of the inlined document, with arguments that count as
`int` has them. -/
theorem computeNodeCost_eq : ∀ d, Computes v (v.computeNodeCost d)
  | 0 => by
    rintro type selections selections' parent om path r - - h
    cases h
  | d + 1 => by
    rintro type selections selections' parent om path r hin hparent h
    cases hmap : v.costMap.isEmpty with
    | true => rw [codeCost_of_isEmpty hmap, computeNodeCost_of_isEmpty hmap (d + 1) _ _ _ _ h]
    | false => rw [selectionsCost_eq (computeNodeCost_eq d) hmap hparent hin h, zero_add]

end Cost

/-! ### What lists are missing -/

/-- How much a list counts as. -/
def listLength : Value → ℤ
  | .list values => values.length
  | _ => 0

/-- No multiplier argument is a list with members, or the only positive multiplier is one member in
one list. -/
def Harmless (v : CostValidator α β ω) (values : List Value) : Prop :=
  (values.map listLength).sum = 0 ∨
    (values.map listLength).sum = 1 ∧ ∀ val ∈ values, ∀ n, v.scalar val = some n → n ≤ 0

theorem multiplierSum_eq (count : Value → Option ℤ) (values : List Value) :
    multiplierSum count values =
      let sum := ((values.filterMap count).filter (0 < ·)).sum
      if sum = 0 then 1 else sum := by
  rw [multiplierSum]
  have hpos : ∀ m ∈ (values.filterMap count).filter (0 < ·), 0 < m := fun m hm => by
    simpa using (List.mem_filter.mp hm).2
  generalize (values.filterMap count).filter (0 < ·) = positive at hpos
  cases positive with
  | nil => rfl
  | cons m ms =>
    have hm : 0 < m := hpos m List.mem_cons_self
    have hms : 0 ≤ ms.sum := List.sum_nonneg fun n hn => (hpos n (List.mem_cons_of_mem m hn)).le
    have hne : (m :: ms).sum ≠ 0 := by
      rw [List.sum_cons]
      omega
    exact (if_neg hne).symm

theorem sum_filter_nonneg (ms : List ℤ) : 0 ≤ (ms.filter (0 < ·)).sum :=
  List.sum_nonneg fun m hm => le_of_lt (by simpa using (List.mem_filter.mp hm).2)

/-- The positive multipliers that are meant are those that the code finds and the members of lists.
-/
theorem sum_count (values : List Value) :
    ((values.filterMap v.count).filter (0 < ·)).sum
      = ((values.filterMap v.scalar).filter (0 < ·)).sum + (values.map listLength).sum := by
  induction values with
  | nil => rfl
  | cons val values ih =>
    rw [List.map_cons, List.sum_cons]
    cases val with
    | list members =>
      have hscalar : v.scalar (.list members) = none := rfl
      have hcount : v.count (.list members) = some (members.length : ℤ) := rfl
      rw [List.filterMap_cons_none hscalar, List.filterMap_cons_some hcount, List.filter_cons]
      show _ = _ + ((members.length : ℤ) + _)
      split
      · rw [List.sum_cons, ih]
        omega
      · rename_i hzero
        have hzero' : ¬ (0 : ℤ) < members.length := by simpa using hzero
        rw [ih]
        omega
    | _ =>
      have hsame : ∀ val' : Value, v.count val' = v.scalar val' → listLength val' = 0 →
          (((val' :: values).filterMap v.count).filter (0 < ·)).sum
            = (((val' :: values).filterMap v.scalar).filter (0 < ·)).sum +
              (listLength val' + (values.map listLength).sum) := by
        intro val' hcount hlength
        rw [List.filterMap_cons, List.filterMap_cons, hcount, hlength]
        cases v.scalar val' with
        | none => simpa using ih
        | some n =>
          dsimp only
          rw [List.filter_cons, List.filter_cons]
          split
          · rw [List.sum_cons, List.sum_cons, ih]
            omega
          · rw [ih]
            omega
      exact hsame _ rfl rfl

theorem sum_scalar_eq_zero_iff (values : List Value) :
    ((values.filterMap v.scalar).filter (0 < ·)).sum = 0 ↔
      ∀ val ∈ values, ∀ n, v.scalar val = some n → n ≤ 0 := by
  constructor
  · intro hsum val hval n hn
    by_contra hpos
    have hmem : n ∈ (values.filterMap v.scalar).filter (0 < ·) :=
      List.mem_filter.mpr ⟨List.mem_filterMap.mpr ⟨val, hval, hn⟩, by simpa using hpos⟩
    have hle : n ≤ ((values.filterMap v.scalar).filter (0 < ·)).sum :=
      List.single_le_sum (fun m hm => le_of_lt (by simpa using (List.mem_filter.mp hm).2)) n hmem
    omega
  · intro h
    refine List.sum_eq_zero fun n hn => ?_
    obtain ⟨hn, hpos⟩ := List.mem_filter.mp hn
    obtain ⟨val, hval, hscalar⟩ := List.mem_filterMap.mp hn
    have hle := h val hval n hscalar
    have hpos' : 0 < n := by simpa using hpos
    omega

theorem sum_listLength_nonneg (values : List Value) : 0 ≤ (values.map listLength).sum := by
  refine List.sum_nonneg fun m hm => ?_
  obtain ⟨val, -, rfl⟩ := List.mem_map.mp hm
  cases val <;> simp [listLength]

theorem one_le_multiplierSum (count : Value → Option ℤ) (values : List Value) :
    1 ≤ multiplierSum count values := by
  have hnonneg := sum_filter_nonneg (values.filterMap count)
  rw [multiplierSum_eq]
  dsimp only
  split <;> omega

theorem multiplierSum_le (values : List Value) :
    multiplierSum v.scalar values ≤ multiplierSum v.count values := by
  have hnonneg := sum_filter_nonneg (values.filterMap v.scalar)
  have hlists := sum_listLength_nonneg values
  rw [multiplierSum_eq, multiplierSum_eq, sum_count]
  dsimp only
  split <;> split <;> omega

/-- **One field's arguments**: the code finds the multiplier sum that is meant. -/
theorem multiplierSum_eq_iff (values : List Value) :
    multiplierSum v.scalar values = multiplierSum v.count values ↔ Harmless v values := by
  have hnonneg := sum_filter_nonneg (values.filterMap v.scalar)
  have hlists := sum_listLength_nonneg values
  rw [Harmless, ← sum_scalar_eq_zero_iff, multiplierSum_eq, multiplierSum_eq, sum_count]
  dsimp only
  split <;> split <;> omega

/-- **One occurrence.** -/
theorem prod_eq_iff : ∀ (path : List (List Value)),
    1 ≤ (path.map (multiplierSum v.scalar)).prod ∧
    (path.map (multiplierSum v.scalar)).prod ≤ (path.map (multiplierSum v.count)).prod ∧
    ((path.map (multiplierSum v.scalar)).prod = (path.map (multiplierSum v.count)).prod ↔
      ∀ values ∈ path, Harmless v values)
  | [] => by simp
  | values :: path => by
    obtain ⟨hone, hle, hiff⟩ := prod_eq_iff path
    have hone' := one_le_multiplierSum v.scalar values
    have hle' := multiplierSum_le (v := v) values
    rw [List.map_cons, List.map_cons, List.prod_cons, List.prod_cons, List.forall_mem_cons, ← hiff,
      ← multiplierSum_eq_iff]
    generalize multiplierSum v.scalar values = a at *
    generalize multiplierSum v.count values = b at *
    generalize (path.map (multiplierSum v.scalar)).prod = c at *
    generalize (path.map (multiplierSum v.count)).prod = e at *
    have hprod : a * c ≤ b * e := mul_le_mul hle' hle (by omega) (by omega)
    refine ⟨?_, hprod, ?_, ?_⟩
    · nlinarith
    · intro heq
      constructor
      · by_contra hne
        have hlt : a + 1 ≤ b := by omega
        nlinarith
      · by_contra hne
        have hlt : c + 1 ≤ e := by omega
        nlinarith
    · rintro ⟨rfl, rfl⟩
      rfl

theorem cost_eq_of_harmless {o : Occurrence}
    (h : o.complexity ≠ 0 → ∀ values ∈ o.path, Harmless v values) :
    o.cost v.scalar = o.cost v.count := by
  rw [Occurrence.cost, Occurrence.cost]
  by_cases hzero : o.complexity = 0
  · rw [hzero, zero_mul, zero_mul]
  · rw [(prod_eq_iff o.path).2.2.mpr (h hzero)]

theorem cost_le {o : Occurrence} (h : 0 ≤ o.complexity) : o.cost v.scalar ≤ o.cost v.count :=
  mul_le_mul_of_nonneg_left (prod_eq_iff o.path).2.1 h

theorem harmless_of_cost_eq {o : Occurrence} (h : o.cost v.scalar = o.cost v.count)
    (hne : o.complexity ≠ 0) : ∀ values ∈ o.path, Harmless v values :=
  (prod_eq_iff o.path).2.2.mp (mul_left_cancel₀ hne h)

theorem sum_cost_le : ∀ {os : List Occurrence}, (∀ o ∈ os, 0 ≤ o.complexity) →
    (os.map (Occurrence.cost v.scalar)).sum ≤ (os.map (Occurrence.cost v.count)).sum :=
  fun h => List.sum_le_sum fun o ho => cost_le (h o ho)

/-- No two shortfalls cancel. -/
theorem cost_eq_of_sum_eq : ∀ {os : List Occurrence}, (∀ o ∈ os, 0 ≤ o.complexity) →
    (os.map (Occurrence.cost v.scalar)).sum = (os.map (Occurrence.cost v.count)).sum →
      ∀ o ∈ os, o.cost v.scalar = o.cost v.count
  | [], _, _ => fun _ ho => absurd ho List.not_mem_nil
  | o :: os, hnonneg, h => by
    rw [List.forall_mem_cons] at hnonneg
    have hle := cost_le (v := v) hnonneg.1
    have hrest := sum_cost_le (v := v) hnonneg.2
    simp only [List.map_cons, List.sum_cons] at h
    refine List.forall_mem_cons.mpr ⟨by omega, cost_eq_of_sum_eq hnonneg.2 (by omega)⟩

/-- The complexities of the cost map are not negative. -/
def Nonnegative (v : CostValidator α β ω) : Prop :=
  ∀ parentType name costArgs, v.costArgs parentType name = some costArgs →
    0 ≤ costArgs.complexity.getD defaultComplexity

theorem Nonnegative.occurrence (h : Nonnegative v) (path : List (List Value)) (type : NamedType α)
    (field : FieldDefinition α) (name : String) (info : β) :
    0 ≤ (v.occurrence path type field name info).1.complexity := by
  rw [CostValidator.occurrence]
  rcases hargs : v.costArgs type.name name with _ | costArgs
  · exact le_refl _
  · dsimp only
    split
    · exact h _ _ _ hargs
    · exact h _ _ _ hargs

mutual

theorem Nonnegative.occurrencesIn (h : Nonnegative v) (path : List (List Value))
    (type : Option (NamedType α)) : ∀ (selection : Selection β),
      ∀ o ∈ v.occurrencesIn path type selection, 0 ≤ o.complexity
  | .field _ name info selectionSet => by
    rw [CostValidator.occurrencesIn]
    rcases fieldOf type name with _ | ⟨type', field⟩
    · exact fun o ho => absurd ho List.not_mem_nil
    · exact List.forall_mem_cons.mpr ⟨h.occurrence path type' field name info,
        Nonnegative.occurrences h _ _ selectionSet⟩
  | .fragmentSpread _ _ => by
    rw [CostValidator.occurrencesIn]
    exact fun o ho => absurd ho List.not_mem_nil
  | .inlineFragment typeCondition _ selectionSet => by
    rw [CostValidator.occurrencesIn]
    exact Nonnegative.occurrences h path _ selectionSet

theorem Nonnegative.occurrences (h : Nonnegative v) (path : List (List Value))
    (type : Option (NamedType α)) : ∀ (selections : List (Selection β)),
      ∀ o ∈ v.occurrences path type selections, 0 ≤ o.complexity
  | [] => by
    rw [CostValidator.occurrences]
    exact fun o ho => absurd ho List.not_mem_nil
  | selection :: selections => by
    rw [CostValidator.occurrences, List.forall_mem_append]
    exact ⟨Nonnegative.occurrencesIn h path type selection,
      Nonnegative.occurrences h path type selections⟩

end

/-! ### The order of the selections -/

theorem occurrences_reordered {selections selections' : List (Selection β)}
    (h : Reordered selections selections') : ∀ (path : List (List Value)) (type : Option (NamedType α)),
      (v.occurrences path type selections).Perm (v.occurrences path type selections') := by
  induction h with
  | nil => exact fun path type => List.Perm.refl _
  | @field responseName name info selectionSet selectionSet' rest rest' _ _ ih ihrest =>
    intro path type
    rw [occurrences, occurrences, occurrencesIn, occurrencesIn]
    refine List.Perm.append ?_ (ihrest path type)
    rcases fieldOf type name with _ | ⟨type', field⟩
    · exact List.Perm.refl _
    · exact (ih _ _).cons _
  | inline _ _ ih ihrest =>
    intro path type
    rw [occurrences, occurrences, occurrencesIn, occurrencesIn]
    exact List.Perm.append (ih path _) (ihrest path type)
  | spread _ ihrest =>
    intro path type
    rw [occurrences, occurrences]
    exact (ihrest path type).append_left _
  | swap s t rest =>
    intro path type
    simp only [occurrences, ← List.append_assoc]
    exact List.perm_append_comm.append_right _
  | trans _ _ ih ih' => exact fun path type => (ih path type).trans (ih' path type)

theorem specification_reordered {selections selections' : List (Selection β)}
    (h : Reordered selections selections') (type : Option (NamedType α)) :
    v.specification type selections = v.specification type selections' :=
  ((occurrences_reordered h [] type).map _).sum_eq

/-! ### The specification met -/

/-- **What is wanted of the cost of a node.** `compute_node_cost` comes to a result and, where the
document has no fragment cycles, it is what the inlined document costs, with its selections in any
order. -/
structure MeetsSpecification (v : CostValidator α β ω) (c : Option (NamedType α) × List (Selection β)) :
    Prop where
  returns : ∃ d r, v.computeNodeCost d c [] [] = .ok r
  cost : Acyclic v.fragments → ∃ inlined, Inlines v.fragments c.2 inlined ∧
    ∀ selections, Reordered inlined selections → ∃ d, ∀ d' ≥ d, ∀ om,
      ∃ r, v.computeNodeCost d' c [] om = .ok r ∧ r.1 = v.specification c.1 selections

/-- When the code does that: no fragment that the walk meets leads back to itself, every accessor
that it meets comes to a value and to no infinite number, and no list is missed by an occurrence
with a complexity. -/
structure CostCondition (v : CostValidator α β ω) (c : Option (NamedType α) × List (Selection β)) :
    Prop where
  free : ¬ v.walk.Entangled v.fragments c
  reads : ReadsAll v c
  lists : Acyclic v.fragments → ∀ inlined, Inlines v.fragments c.2 inlined →
    ∀ o ∈ v.occurrences [] c.1 inlined, o.complexity ≠ 0 → ∀ values ∈ o.path, Harmless v values

variable {c : Option (NamedType α) × List (Selection β)}

theorem CostCondition.meets (h : CostCondition v c) : MeetsSpecification v c := by
  obtain ⟨d, hd⟩ := (Walk.exists_within_iff c).mpr h.free
  have hreturns : ∀ d' ≥ d, ∀ om, ∃ r, v.computeNodeCost d' c [] om = .ok r := fun d' hle om =>
    (exists_computeNodeCost_iff d' c [] om).mpr ⟨hd.mono hle, h.reads⟩
  refine ⟨⟨d, hreturns d (le_refl d) []⟩, fun hacyclic => ?_⟩
  obtain ⟨inlined, hin⟩ := Inlines.exists_of_acyclic hacyclic c.2
  refine ⟨inlined, hin, fun selections hreordered => ⟨d, fun d' hle om => ?_⟩⟩
  obtain ⟨r, hr⟩ := hreturns d' hle om
  refine ⟨r, hr, ?_⟩
  rw [computeNodeCost_eq d' c.1 c.2 inlined [] om [] r hin rfl hr, codeCost,
    ← specification_reordered hreordered c.1, specification, costOf]
  refine congrArg List.sum (List.map_congr_left fun o ho => ?_)
  exact cost_eq_of_harmless (h.lists hacyclic inlined hin o ho)

theorem MeetsSpecification.condition (hnonneg : Nonnegative v) (h : MeetsSpecification v c) :
    CostCondition v c := by
  obtain ⟨d, r, hr⟩ := h.returns
  obtain ⟨hwithin, hreads⟩ := (exists_computeNodeCost_iff d c [] []).mp ⟨r, hr⟩
  refine ⟨hwithin.not_entangled, hreads, fun hacyclic inlined' hin' o ho hne => ?_⟩
  obtain ⟨inlined, hin, hcost⟩ := h.cost hacyclic
  obtain rfl := hin.unique hin'
  obtain ⟨d', hd'⟩ := hcost inlined hin.reordered_refl
  obtain ⟨r', hr', hspec⟩ := hd' d' (le_refl d') []
  rw [computeNodeCost_eq d' c.1 c.2 inlined [] [] [] r' hin rfl hr', codeCost, specification,
    costOf] at hspec
  exact harmless_of_cost_eq (cost_eq_of_sum_eq (hnonneg.occurrences [] c.1 inlined) hspec o ho) hne

/-- **Query cost.** Under the condition `compute_node_cost` meets its specification, whatever the
schema, cost map, document and variables; and unless negative complexities make up for it, only
then. -/
theorem meetsSpecification_of (v : CostValidator α β ω)
    (c : Option (NamedType α) × List (Selection β)) :
    (CostCondition v c → MeetsSpecification v c) ∧
      (Nonnegative v → (MeetsSpecification v c ↔ CostCondition v c)) :=
  ⟨CostCondition.meets, fun hnonneg => ⟨MeetsSpecification.condition hnonneg, CostCondition.meets⟩⟩

end CostValidator

/-- A cost map in which the identifiers that are asked for multiply the cost of product variants. -/
def idsValidator : CostValidator Unit (List (String × Value)) Unit where
  schema :=
    { getType := fun name => if name = "Query" then
        some (.object "Query" fun name =>
          if name = "productVariants" then some ⟨.named "Int", ()⟩ else none)
        else none
      isPossibleType := fun _ _ => false
      queryType := "Query"
      mutationType := none
      subscriptionType := none }
  fragments := []
  costMap := [("Query", [("productVariants", { complexity := some 1, multipliers := some [["ids"]] })])]
  variableValues := ()
  getArgumentValues _ info _ := some info
  intOfText _ := none

/-- `{ productVariants(ids: ["a", "b", "c"]) }` -/
def idsSelection : List (Selection (List (String × Value))) :=
  [.field none "productVariants" [("ids", .list [.str "a", .str "b", .str "c"])] []]

/-- Three product variants cost 1. -/
theorem ids_counted_once :
    ¬ idsValidator.MeetsSpecification (idsValidator.schema.rootType .query, idsSelection) := by
  intro h
  have hin : Inlines idsValidator.fragments idsSelection idsSelection := .field .nil .nil
  obtain ⟨inlined, hin', hcost⟩ := h.cost acyclic_nil
  obtain rfl := hin.unique hin'
  obtain ⟨d, hd⟩ := hcost idsSelection hin.reordered_refl
  obtain ⟨r, hr, hspec⟩ := hd (d + 2) (by omega) []
  have hr' : idsValidator.computeNodeCost (d + 2) (idsValidator.schema.rootType .query, idsSelection)
      [] [] = .ok (1, []) := rfl
  have hthree : idsValidator.specification (idsValidator.schema.rootType .query) idsSelection = 3 := rfl
  rw [hr'] at hr
  rw [← Except.ok.inj hr, hthree] at hspec
  cases hspec

end QueryCost

end Aixinwu
