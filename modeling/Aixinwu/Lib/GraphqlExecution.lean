import Aixinwu.Lib.Graphql

/-!
# GraphQL execution

Execution of an operation as the specification of GraphQL has it: the fields of a selection set are
collected for the object type at hand, those with one response key are merged, each is resolved by
the data source, and its value is completed by the type of the field. A document is executed only if
it is valid; of the rules, two matter here: a field is selected on types that have it, and fields
that are merged are the same field.

**`execute_congr`**: two data sources that agree on the fields that a valid document selects give
the same data. What is selected is found by a walk over static types; a static type may be an
interface or a union, and the object type at hand is then one of its possible types.

## Main definitions

* `FieldValue`, `Data`, `Execution`, `Execution.execute`
* `Schema.WellFormed` — what building a schema has checked
* `Unfolds`, `Overlap`, `Rules` — the two rules
* `Safe` — a data source may be read at the field of an object type

## Main results

* `execute_congr`
-/

namespace Aixinwu

namespace Graphql

variable {α β ω : Type*}

/-! ### Execution -/

/-- What a data source gives for a field: an object is told by its type. -/
inductive FieldValue (ω : Type*) where
  | null
  | leaf (text : String)
  | list (values : List (FieldValue ω))
  | object (type : String) (obj : ω)
  | error

/-- The data of a response. -/
inductive Data where
  | null
  | leaf (text : String)
  | list (values : List Data)
  | object (entries : List (String × Data))

/-- A field of a selection set. -/
structure FieldNode (β : Type*) where
  responseName : Option String
  name : String
  info : β
  selectionSet : List (Selection β)

/-- The node as a selection. -/
def FieldNode.selection (node : FieldNode β) : Selection β :=
  .field node.responseName node.name node.info node.selectionSet

/-- The key of the field in the response. -/
def FieldNode.responseKey (node : FieldNode β) : String := node.responseName.getD node.name

/-- The fields that every type has, and that no data source is asked for. -/
def metaFields : List String := ["__typename", "__schema", "__type"]

/-- The object type is the named type or a possible type of it. -/
def NamedType.admits (schema : Schema α) (type : NamedType α) (object : String) : Bool :=
  type.name = object || !type.isObject && schema.isPossibleType type.name object

/-- A fragment with the condition is for objects of the type. -/
def conditionMatches (schema : Schema α) (object : String) : Option String → Bool
  | none => true
  | some name => (schema.getType name).any fun type => type.admits schema object

/-- An execution: the schema, the fragments, what the directives of a node come to, and the answers
that the schema gives about itself. -/
structure Execution (α β : Type*) where
  schema : Schema α
  fragments : List (FragmentDefinition β)
  included : β → Bool
  introspection : String → List (FieldNode β) → Option (Option Data)

/-- A data source: the value of the field of an object, given its type. -/
abbrev Source (β ω : Type*) : Type _ := ω → String → String → β → FieldValue ω

/-- An error where there may be null is null. -/
def catching : TypeRef → Option Data → Option Data
  | .nonNull _, data => data
  | .named _, data => some (data.getD .null)
  | .list _, data => some (data.getD .null)

/-- The completed value of a field of this type, `none` for an error. `execute` is for objects. -/
def completeValue (schema : Schema α) (execute : String → ω → Option Data) :
    TypeRef → FieldValue ω → Option Data
  | .nonNull ofType, value => match completeValue schema execute ofType value with
    | some .null => none
    | data => data
  | .list ofType, value => match value with
    | .null => some .null
    | .list values =>
      (values.mapM fun value => catching ofType (completeValue schema execute ofType value)).map .list
    | _ => none
  | .named name, value => match value with
    | .null => some .null
    | .leaf text => some (.leaf text)
    | .object type obj =>
      if (schema.getType name).any fun named => named.admits schema type then execute type obj
      else none
    | _ => none

namespace Execution

variable (x : Execution α β)

/-- The loop of `collectFields`, with the names of the fragments that have been spread. -/
def collectLoop (collect : List (Selection β) → List String → Option (List (FieldNode β) × List String))
    (object : String) :
    List (Selection β) → List String → Option (List (FieldNode β) × List String)
  | [], visited => some ([], visited)
  | .field responseName name info selectionSet :: rest, visited =>
    (collectLoop collect object rest visited).map fun r =>
      (if x.included info then ⟨responseName, name, info, selectionSet⟩ :: r.1 else r.1, r.2)
  | .inlineFragment typeCondition info selectionSet :: rest, visited =>
    if x.included info && conditionMatches x.schema object typeCondition then
      (collect selectionSet visited).bind fun r =>
        (collectLoop collect object rest r.2).map fun r' => (r.1 ++ r'.1, r'.2)
    else collectLoop collect object rest visited
  | .fragmentSpread name info :: rest, visited =>
    if name ∈ visited || !x.included info then collectLoop collect object rest visited
    else match getFragment x.fragments name with
      | none => collectLoop collect object rest (name :: visited)
      | some fragment =>
        if conditionMatches x.schema object (some fragment.typeCondition) then
          (collect fragment.selectionSet (name :: visited)).bind fun r =>
            (collectLoop collect object rest r.2).map fun r' => (r.1 ++ r'.1, r'.2)
        else collectLoop collect object rest (name :: visited)

/-- The fields of a selection set that are for objects of the type, nested less than `d` deep. -/
def collectFields (object : String) :
    ℕ → List (Selection β) → List String → Option (List (FieldNode β) × List String)
  | 0, _, _ => none
  | d + 1, selections, visited => x.collectLoop (collectFields object d) object selections visited

/-- The fields of several selection sets. -/
def collectSets (d : ℕ) (object : String) :
    List (List (Selection β)) → List String → Option (List (FieldNode β))
  | [], _ => some []
  | selections :: sets, visited => (x.collectFields object d selections visited).bind fun r =>
    (collectSets d object sets r.2).map (r.1 ++ ·)

/-- The value of merged fields: `some none` where the type has no such field. -/
def executeGroup (source : Source β ω) (execute : List (List (Selection β)) → String → ω → Option Data)
    (object : String) (obj : ω) : List (FieldNode β) → Option (Option Data)
  | [] => some none
  | node :: nodes =>
    if node.name = "__typename" then some (some (.leaf object))
    else if node.name ∈ metaFields then x.introspection object (node :: nodes)
    else match fieldOf (x.schema.getType object) node.name with
      | none => some none
      | some (_, field) =>
        (catching field.type (completeValue x.schema
          (execute ((node :: nodes).map (·.selectionSet))) field.type
          (source obj object node.name node.info))).map some

/-- The entries of an object, unless one is an error. -/
def entries (value : String → Option (Option Data)) : List String → Option (List (String × Data))
  | [] => some []
  | key :: keys => match value key with
    | none => none
    | some data => (entries value keys).map fun rest => (data.map (key, ·)).toList ++ rest

/-- Executes the selection sets, merged, on an object of the type. -/
def execute (source : Source β ω) : ℕ → List (List (Selection β)) → String → ω → Option Data
  | 0, _, _, _ => none
  | d + 1, sets, object, obj => (x.collectSets d object sets []).bind fun nodes =>
    (entries (fun key => x.executeGroup source (execute source d) object obj
      (nodes.filter (·.responseKey = key))) (nodes.map (·.responseKey)).eraseDups).map .object

end Execution

/-! ### Well-formed schemas and valid documents -/

/-- What building a schema has checked: types are filed under their names, and an object type has
the fields of its interfaces, with types that admit no more. -/
structure Schema.WellFormed (schema : Schema α) : Prop where
  named : ∀ name type, schema.getType name = some type → type.name = name
  implements : ∀ interface fields object name field,
    schema.getType interface = some (.interface interface fields) →
    schema.isPossibleType interface object = true → fields name = some field →
    ∃ type field', schema.getType object = some type ∧ type.isObject = true ∧
      type.fields name = some field' ∧ ∀ object',
        ((schema.getType field'.type.namedType).any fun type => type.admits schema object') = true →
        ((schema.getType field.type.namedType).any fun type => type.admits schema object') = true

/-- The walk over static types that leaves nothing out. -/
abbrev fullWalk (β : Type*) (schema : Schema α) : Walk β (Option (NamedType α)) :=
  typedWalk β schema fun _ _ => true

/-- Reached by the walk from a type and selection set. -/
abbrev Reaches (schema : Schema α) (fragments : List (FragmentDefinition β)) :
    Option (NamedType α) × List (Selection β) → Option (NamedType α) × List (Selection β) → Prop :=
  Relation.ReflTransGen fun c c' => c' ∈ (fullWalk β schema).calls fragments c

/-- Reached through inline fragments and spreads only: part of the same selection set. -/
inductive Unfolds (schema : Schema α) (fragments : List (FragmentDefinition β)) :
    Option (NamedType α) × List (Selection β) → Option (NamedType α) × List (Selection β) → Prop
  | refl (c : Option (NamedType α) × List (Selection β)) : Unfolds schema fragments c c
  | inline {type : Option (NamedType α)} {selections : List (Selection β)}
      {typeCondition : Option String} {info : β} {selectionSet : List (Selection β)}
      {c : Option (NamedType α) × List (Selection β)}
      (hmem : .inlineFragment typeCondition info selectionSet ∈ selections)
      (h : Unfolds schema fragments (schema.inlineFragmentType type typeCondition, selectionSet) c) :
      Unfolds schema fragments (type, selections) c
  | spread {type : Option (NamedType α)} {selections : List (Selection β)} {name : String} {info : β}
      {fragment : FragmentDefinition β} {c : Option (NamedType α) × List (Selection β)}
      (hmem : .fragmentSpread name info ∈ selections)
      (hfragment : getFragment fragments name = some fragment)
      (h : Unfolds schema fragments
        (schema.getType fragment.typeCondition, fragment.selectionSet) c) :
      Unfolds schema fragments (type, selections) c

/-- The parents of two fields can be of one object type. -/
def Compatible (type type' : Option (NamedType α)) : Prop :=
  type = type' ∨ (∃ t, type = some t ∧ t.isObject = false) ∨ ∃ t, type' = some t ∧ t.isObject = false

/-- Two fields, with their parent types, that come under one response key below the root. -/
inductive Overlap (schema : Schema α) (fragments : List (FragmentDefinition β))
    (root : Option (NamedType α) × List (Selection β)) :
    Option (NamedType α) × FieldNode β → Option (NamedType α) × FieldNode β → Prop
  | root {c c' : Option (NamedType α) × List (Selection β)} {node node' : FieldNode β}
      (h : Unfolds schema fragments root c) (h' : Unfolds schema fragments root c')
      (hmem : node.selection ∈ c.2) (hmem' : node'.selection ∈ c'.2)
      (hkey : node.responseKey = node'.responseKey) :
      Overlap schema fragments root (c.1, node) (c'.1, node')
  | nested {parent parent' : Option (NamedType α)} {above above' : FieldNode β}
      {type type' : NamedType α} {field field' : FieldDefinition α}
      {c c' : Option (NamedType α) × List (Selection β)} {node node' : FieldNode β}
      (habove : Overlap schema fragments root (parent, above) (parent', above'))
      (hcompatible : Compatible parent parent')
      (hfield : fieldOf parent above.name = some (type, field))
      (hfield' : fieldOf parent' above'.name = some (type', field'))
      (h : Unfolds schema fragments
        (schema.getType field.type.namedType, above.selectionSet) c)
      (h' : Unfolds schema fragments
        (schema.getType field'.type.namedType, above'.selectionSet) c')
      (hmem : node.selection ∈ c.2) (hmem' : node'.selection ∈ c'.2)
      (hkey : node.responseKey = node'.responseKey) :
      Overlap schema fragments root (c.1, node) (c'.1, node')

/-- The two rules for an operation: fields are on types that have them, and fields that can be
merged are the same. -/
structure Rules (schema : Schema α) (fragments : List (FragmentDefinition β))
    (root : Option (NamedType α) × List (Selection β)) : Prop where
  fieldsOnCorrectType : ∀ c, Reaches schema fragments root c → ∀ node : FieldNode β,
    node.selection ∈ c.2 → (fieldOf c.1 node.name).isSome ∨ node.name ∈ metaFields
  overlappingFieldsCanBeMerged : ∀ parent parent' node node',
    Overlap schema fragments root (parent, node) (parent', node') → Compatible parent parent' →
    node.name = node'.name

/-! ### Static types -/

section Static

variable {schema : Schema α} {fragments : List (FragmentDefinition β)}
  {root : Option (NamedType α) × List (Selection β)}

/-- The static type is there, and the object type is one of its own. -/
def Admitted (schema : Schema α) (type : Option (NamedType α)) (object : String) : Prop :=
  ∃ t, type = some t ∧ t.admits schema object = true ∧ schema.getType t.name = some t

theorem admitted_getType (hschema : schema.WellFormed) {name object : String}
    (h : ((schema.getType name).any fun type => type.admits schema object) = true) :
    Admitted schema (schema.getType name) object := by
  cases ht : schema.getType name with
  | none =>
    rw [ht] at h
    cases h
  | some t =>
    rw [ht] at h
    exact ⟨t, rfl, h, by rw [hschema.named name t ht, ht]⟩

/-- Static types of one object are never two object types. -/
theorem compatible_of_admitted {type type' : Option (NamedType α)} {object : String}
    (h : Admitted schema type object) (h' : Admitted schema type' object) :
    Compatible type type' := by
  obtain ⟨t, rfl, hadmits, hget⟩ := h
  obtain ⟨t', rfl, hadmits', hget'⟩ := h'
  cases hobject : t.isObject with
  | false => exact Or.inr (Or.inl ⟨t, rfl, hobject⟩)
  | true =>
    cases hobject' : t'.isObject with
    | false => exact Or.inr (Or.inr ⟨t', rfl, hobject'⟩)
    | true =>
      have hname : t.name = object := by simpa [NamedType.admits, hobject] using hadmits
      have hname' : t'.name = object := by simpa [NamedType.admits, hobject'] using hadmits'
      rw [hname] at hget
      rw [hname'] at hget'
      exact Or.inl (hget.symm.trans hget')

/-- A field of a static type is a field of the object, and of a type that admits no more. -/
theorem fieldOf_object (hschema : schema.WellFormed) {type : Option (NamedType α)} {object name : String}
    {t : NamedType α} {field : FieldDefinition α} (h : Admitted schema type object)
    (hfield : fieldOf type name = some (t, field)) :
    ∃ t' field', fieldOf (schema.getType object) name = some (t', field') ∧ ∀ object',
      ((schema.getType field'.type.namedType).any fun type => type.admits schema object') = true →
      ((schema.getType field.type.namedType).any fun type => type.admits schema object') = true := by
  obtain ⟨t₁, rfl, hadmits, hget⟩ := h
  obtain ⟨ht, hfield⟩ := fieldOf_eq_some.mp hfield
  obtain rfl := Option.some.inj ht
  by_cases hname : t₁.name = object
  · rw [hname] at hget
    exact ⟨t₁, field, fieldOf_eq_some.mpr ⟨hget, hfield⟩, fun _ h => h⟩
  · have hpossible : t₁.isObject = false ∧ schema.isPossibleType t₁.name object = true := by
      simpa [NamedType.admits, hname] using hadmits
    cases t₁ with
    | object => exact absurd hpossible.1 (by simp [NamedType.isObject])
    | other =>
      rw [NamedType.fields] at hfield
      cases hfield
    | interface interface fields =>
      obtain ⟨t', field', hget', -, hfield', hless⟩ :=
        hschema.implements interface fields object name field hget hpossible.2 hfield
      exact ⟨t', field', fieldOf_eq_some.mpr ⟨hget', hfield'⟩, hless⟩

theorem mem_calls_fullWalk {c c' : Option (NamedType α) × List (Selection β)} :
    c' ∈ (fullWalk β schema).calls fragments c ↔
      ∃ s ∈ c.2, (fullWalk β schema).call fragments c.1 s = some c' := by
  have hwalked : (fullWalk β schema).walked c = c.2 := List.takeWhile_eq_self_iff.mpr fun _ _ => rfl
  rw [Walk.mem_calls, hwalked]

/-- The selection set of a field is reached from where the field is. -/
theorem mem_calls_of_field {c : Option (NamedType α) × List (Selection β)} {node : FieldNode β}
    {t : NamedType α} {field : FieldDefinition α} (hmem : node.selection ∈ c.2)
    (hfield : fieldOf c.1 node.name = some (t, field)) :
    (schema.getType field.type.namedType, node.selectionSet) ∈
      (fullWalk β schema).calls fragments c := by
  refine mem_calls_fullWalk.mpr ⟨_, hmem, ?_⟩
  show ((fieldOf c.1 node.name).map _).map _ = _
  rw [hfield]
  rfl

theorem Unfolds.reaches {c c' : Option (NamedType α) × List (Selection β)}
    (h : Unfolds schema fragments c c') : Reaches schema fragments c c' := by
  induction h with
  | refl c => exact .refl
  | inline hmem _ ih => exact ih.head (mem_calls_fullWalk.mpr ⟨_, hmem, rfl⟩)
  | spread hmem hfragment _ ih =>
    refine ih.head (mem_calls_fullWalk.mpr ⟨_, hmem, ?_⟩)
    rw [Walk.call, hfragment]
    rfl

end Static

/-! ### Collected fields -/

section Collect

variable {x : Execution α β} {object : String}

/-- A field of the selection set, where its parent type is a static type of the object. -/
def Collected (x : Execution α β) (object : String)
    (c : Option (NamedType α) × List (Selection β)) (node : FieldNode β) : Prop :=
  ∃ c', Unfolds x.schema x.fragments c c' ∧ node.selection ∈ c'.2 ∧ Admitted x.schema c'.1 object

theorem Collected.inline {type : Option (NamedType α)} {selections selectionSet : List (Selection β)}
    {typeCondition : Option String} {info : β} {node : FieldNode β}
    (hmem : .inlineFragment typeCondition info selectionSet ∈ selections)
    (h : Collected x object (x.schema.inlineFragmentType type typeCondition, selectionSet) node) :
    Collected x object (type, selections) node := by
  obtain ⟨c', hunfolds, hrest⟩ := h
  exact ⟨c', .inline hmem hunfolds, hrest⟩

theorem Collected.spread {type : Option (NamedType α)} {selections : List (Selection β)}
    {name : String} {info : β} {fragment : FragmentDefinition β} {node : FieldNode β}
    (hmem : .fragmentSpread name info ∈ selections)
    (hfragment : getFragment x.fragments name = some fragment)
    (h : Collected x object
      (x.schema.getType fragment.typeCondition, fragment.selectionSet) node) :
    Collected x object (type, selections) node := by
  obtain ⟨c', hunfolds, hrest⟩ := h
  exact ⟨c', .spread hmem hfragment hunfolds, hrest⟩

variable (hschema : x.schema.WellFormed)

include hschema in
/-- The loop collects fields of the selection set, if the calls it makes do. -/
theorem collected_of_collectLoop
    {collect : List (Selection β) → List String → Option (List (FieldNode β) × List String)}
    (hcollect : ∀ type selections visited r, Admitted x.schema type object →
      collect selections visited = some r → ∀ node ∈ r.1, Collected x object (type, selections) node)
    {type : Option (NamedType α)} (htype : Admitted x.schema type object)
    {selections : List (Selection β)} :
    ∀ {rest : List (Selection β)} {visited : List String} {r : List (FieldNode β) × List String},
      rest ⊆ selections → x.collectLoop collect object rest visited = some r →
      ∀ node ∈ r.1, Collected x object (type, selections) node
  | [], visited, r, _, h => by
    rw [Execution.collectLoop, Option.some.injEq] at h
    rw [← h]
    exact fun node hnode => absurd hnode List.not_mem_nil
  | .field responseName name info selectionSet :: rest, visited, r, hsub, h => by
    obtain ⟨hmem, hrest⟩ := List.cons_subset.mp hsub
    rw [Execution.collectLoop] at h
    obtain ⟨r', hr', rfl⟩ := Option.map_eq_some_iff.mp h
    have ih := collected_of_collectLoop hcollect htype hrest hr'
    intro node hnode
    dsimp only at hnode
    split at hnode
    · rcases List.mem_cons.mp hnode with rfl | hnode
      · exact ⟨(type, selections), .refl _, hmem, htype⟩
      · exact ih node hnode
    · exact ih node hnode
  | .inlineFragment typeCondition info selectionSet :: rest, visited, r, hsub, h => by
    obtain ⟨hmem, hrest⟩ := List.cons_subset.mp hsub
    rw [Execution.collectLoop] at h
    split at h
    · rename_i hgo
      obtain ⟨r₁, hr₁, h⟩ := Option.bind_eq_some_iff.mp h
      obtain ⟨r₂, hr₂, rfl⟩ := Option.map_eq_some_iff.mp h
      have htype' : Admitted x.schema (x.schema.inlineFragmentType type typeCondition) object := by
        cases typeCondition with
        | none => exact htype
        | some name => exact admitted_getType hschema (Bool.and_eq_true_iff.mp hgo).2
      intro node hnode
      rcases List.mem_append.mp hnode with hnode | hnode
      · exact Collected.inline hmem (hcollect _ _ _ _ htype' hr₁ node hnode)
      · exact collected_of_collectLoop hcollect htype hrest hr₂ node hnode
    · exact collected_of_collectLoop hcollect htype hrest h
  | .fragmentSpread name info :: rest, visited, r, hsub, h => by
    obtain ⟨hmem, hrest⟩ := List.cons_subset.mp hsub
    rw [Execution.collectLoop] at h
    split at h
    · exact collected_of_collectLoop hcollect htype hrest h
    · split at h
      · exact collected_of_collectLoop hcollect htype hrest h
      · rename_i fragment hfragment
        split at h
        · rename_i hmatches
          obtain ⟨r₁, hr₁, h⟩ := Option.bind_eq_some_iff.mp h
          obtain ⟨r₂, hr₂, rfl⟩ := Option.map_eq_some_iff.mp h
          intro node hnode
          rcases List.mem_append.mp hnode with hnode | hnode
          · exact Collected.spread hmem hfragment
              (hcollect _ _ _ _ (admitted_getType hschema hmatches) hr₁ node hnode)
          · exact collected_of_collectLoop hcollect htype hrest hr₂ node hnode
        · exact collected_of_collectLoop hcollect htype hrest h

include hschema in
theorem collected_of_collectFields : ∀ (d : ℕ) (type : Option (NamedType α))
    (selections : List (Selection β)) (visited : List String) (r : List (FieldNode β) × List String),
    Admitted x.schema type object → x.collectFields object d selections visited = some r →
      ∀ node ∈ r.1, Collected x object (type, selections) node
  | 0, _, _, _, _, _, h => by cases h
  | d + 1, _, _, _, _, htype, h =>
    collected_of_collectLoop hschema (collected_of_collectFields d) htype (List.Subset.refl _) h

include hschema in
/-- What is collected for an object is a field of one of the sets, on a static type of the object.
-/
theorem collected_of_collectSets {d : ℕ} :
    ∀ {statics : List (Option (NamedType α) × List (Selection β))} {visited : List String}
      {nodes : List (FieldNode β)}, (∀ c ∈ statics, Admitted x.schema c.1 object) →
      x.collectSets d object (statics.map (·.2)) visited = some nodes →
      ∀ node ∈ nodes, ∃ c ∈ statics, Collected x object c node
  | [], visited, nodes, _, h => by
    obtain rfl : [] = nodes := Option.some.inj h
    exact fun node hnode => absurd hnode List.not_mem_nil
  | c :: statics, visited, nodes, hadmitted, h => by
    rw [List.map_cons, Execution.collectSets] at h
    obtain ⟨r, hr, h⟩ := Option.bind_eq_some_iff.mp h
    obtain ⟨nodes', hnodes', rfl⟩ := Option.map_eq_some_iff.mp h
    intro node hnode
    rcases List.mem_append.mp hnode with hnode | hnode
    · exact ⟨c, List.mem_cons_self, collected_of_collectFields hschema d c.1 c.2 _ _
        (hadmitted c List.mem_cons_self) hr node hnode⟩
    · obtain ⟨c', hc', hcollected⟩ := collected_of_collectSets
        (fun c' hc' => hadmitted c' (List.mem_cons_of_mem c hc')) hnodes' node hnode
      exact ⟨c', List.mem_cons_of_mem c hc', hcollected⟩

end Collect

/-! ### Two data sources -/

section Congr

variable {x : Execution α β} {root : Option (NamedType α) × List (Selection β)}
  {source source' : Source β ω}

/-- Objects that the type does not admit are not executed on. -/
theorem completeValue_congr {schema : Schema α} {execute execute' : String → ω → Option Data} :
    ∀ (type : TypeRef) (value : FieldValue ω),
      (∀ object obj, ((schema.getType type.namedType).any fun t => t.admits schema object) = true →
        execute object obj = execute' object obj) →
      completeValue schema execute type value = completeValue schema execute' type value
  | .nonNull ofType, value, h => by
    rw [completeValue, completeValue, completeValue_congr ofType value h]
  | .list ofType, value, h => by
    have hitem : (fun value => catching ofType (completeValue schema execute ofType value))
        = fun value => catching ofType (completeValue schema execute' ofType value) := by
      funext value
      rw [completeValue_congr ofType value h]
    cases value with
    | list values => rw [completeValue, completeValue, hitem]
    | _ => simp only [completeValue]
  | .named name, value, h => by
    cases value with
    | object object obj =>
      simp only [completeValue]
      split
      · rename_i hadmits
        exact h object obj hadmits
      · rfl
    | _ => simp only [completeValue]

theorem entries_congr {value value' : String → Option (Option Data)} :
    ∀ {keys : List String}, (∀ key ∈ keys, value key = value' key) →
      Execution.entries value keys = Execution.entries value' keys
  | [], _ => rfl
  | key :: keys, h => by
    rw [List.forall_mem_cons] at h
    rw [Execution.entries, Execution.entries, h.1, entries_congr h.2]

theorem exists_list_of_forall {γ δ ε : Type*} (P : γ → δ → Prop) (f : δ → ε) (g : γ → ε) :
    ∀ (cs : List γ), (∀ c ∈ cs, ∃ e, P c e ∧ f e = g c) →
      ∃ es : List δ, es.map f = cs.map g ∧ ∀ e ∈ es, ∃ c ∈ cs, P c e
  | [], _ => ⟨[], rfl, fun _ h => absurd h List.not_mem_nil⟩
  | c :: cs, h => by
    rw [List.forall_mem_cons] at h
    obtain ⟨⟨e, hP, hf⟩, hcs⟩ := h
    obtain ⟨es, hmap, hes⟩ := exists_list_of_forall P f g cs hcs
    refine ⟨e :: es, by rw [List.map_cons, List.map_cons, hf, hmap], fun e' he' => ?_⟩
    rcases List.mem_cons.mp he' with rfl | he'
    · exact ⟨c, List.mem_cons_self, hP⟩
    · obtain ⟨c', hc', hP'⟩ := hes e' he'
      exact ⟨c', List.mem_cons_of_mem c hc', hP'⟩

/-- Where selection sets that are merged for an object come from: static types of the object, below
the root, and fields under one key overlap. -/
structure Statics (x : Execution α β) (root : Option (NamedType α) × List (Selection β))
    (object : String) (statics : List (Option (NamedType α) × List (Selection β))) : Prop where
  admitted : ∀ c ∈ statics, Admitted x.schema c.1 object
  reached : ∀ c ∈ statics, Reaches x.schema x.fragments root c
  overlap : ∀ c₁ ∈ statics, ∀ c₂ ∈ statics, ∀ c c' (node node' : FieldNode β),
    Unfolds x.schema x.fragments c₁ c → Unfolds x.schema x.fragments c₂ c' →
    node.selection ∈ c.2 → node'.selection ∈ c'.2 → node.responseKey = node'.responseKey →
    Overlap x.schema x.fragments root (c.1, node) (c'.1, node')

/-- The root selection set, executed on an object of the root type. -/
theorem statics_root {object : String} (h : Admitted x.schema root.1 object) :
    Statics x root object [root] := by
  refine ⟨?_, ?_, ?_⟩
  · exact fun c hc => List.mem_singleton.mp hc ▸ h
  · exact fun c hc => List.mem_singleton.mp hc ▸ .refl
  · intro c₁ h₁ c₂ h₂ c c' node node' hc hc' hmem hmem' hkey
    obtain rfl := List.mem_singleton.mp h₁
    obtain rfl := List.mem_singleton.mp h₂
    exact Overlap.root hc hc' hmem hmem' hkey

/-- A field that is collected from the sets, with its static parent. -/
def From (x : Execution α β) (object : String)
    (statics : List (Option (NamedType α) × List (Selection β))) (node : FieldNode β)
    (c : Option (NamedType α) × List (Selection β)) : Prop :=
  ∃ c₀ ∈ statics, Unfolds x.schema x.fragments c₀ c ∧ node.selection ∈ c.2 ∧
    Admitted x.schema c.1 object

/-- The set below a collected field, with the static type of the field. -/
def Below (x : Execution α β) (object : String)
    (statics : List (Option (NamedType α) × List (Selection β))) (node : FieldNode β)
    (c : Option (NamedType α) × List (Selection β)) : Prop :=
  ∃ parent type field, From x object statics node parent ∧
    fieldOf parent.1 node.name = some (type, field) ∧
    c = (x.schema.getType field.type.namedType, node.selectionSet)

variable {object : String} {statics : List (Option (NamedType α) × List (Selection β))}

theorem From.reaches (h : Statics x root object statics) {node : FieldNode β}
    {c : Option (NamedType α) × List (Selection β)} (hfrom : From x object statics node c) :
    Reaches x.schema x.fragments root c := by
  obtain ⟨c₀, hc₀, hunfolds, -, -⟩ := hfrom
  exact (h.reached c₀ hc₀).trans hunfolds.reaches

/-- Fields that are merged for an object are the same field. -/
theorem Statics.name_eq (h : Statics x root object statics) (hrules : Rules x.schema x.fragments root)
    {node node' : FieldNode β} {c c' : Option (NamedType α) × List (Selection β)}
    (hfrom : From x object statics node c) (hfrom' : From x object statics node' c')
    (hkey : node.responseKey = node'.responseKey) : node.name = node'.name := by
  obtain ⟨c₁, h₁, hunfolds, hmem, hadmitted⟩ := hfrom
  obtain ⟨c₂, h₂, hunfolds', hmem', hadmitted'⟩ := hfrom'
  exact hrules.overlappingFieldsCanBeMerged c.1 c'.1 node node'
    (h.overlap c₁ h₁ c₂ h₂ c c' node node' hunfolds hunfolds' hmem hmem' hkey)
    (compatible_of_admitted hadmitted hadmitted')

/-- **One level down.** The sets of merged fields, for an object that their types admit. -/
theorem Statics.below (h : Statics x root object statics) (hschema : x.schema.WellFormed)
    (key : String) {object' : String}
    {statics' : List (Option (NamedType α) × List (Selection β))}
    (hbelow : ∀ c ∈ statics', ∃ node : FieldNode β, node.responseKey = key ∧
      Below x object statics node c)
    (hadmits : ∀ c ∈ statics', ∀ node parent type field, From x object statics node parent →
      fieldOf parent.1 node.name = some (type, field) → node.responseKey = key →
      ((x.schema.getType field.type.namedType).any fun t => t.admits x.schema object') = true) :
    Statics x root object' statics' := by
  refine ⟨fun c hc => ?_, fun c hc => ?_, ?_⟩
  · obtain ⟨node, hkey, parent, type, field, hfrom, hfield, rfl⟩ := hbelow c hc
    exact admitted_getType hschema (hadmits _ hc node parent type field hfrom hfield hkey)
  · obtain ⟨node, -, parent, type, field, hfrom, hfield, rfl⟩ := hbelow c hc
    have hreaches := hfrom.reaches h
    obtain ⟨c₀, -, -, hmem, -⟩ := hfrom
    exact hreaches.tail (mem_calls_of_field hmem hfield)
  · intro c₁ h₁ c₂ h₂ c c' node node' hc hc' hmem hmem' hkey
    obtain ⟨above, habove, parent, type, field, ⟨p₁, hp₁, hu₁, hm₁, ha₁⟩, hfield, rfl⟩ := hbelow c₁ h₁
    obtain ⟨above', habove', parent', type', field', ⟨p₂, hp₂, hu₂, hm₂, ha₂⟩, hfield', rfl⟩ :=
      hbelow c₂ h₂
    have hoverlap := h.overlap p₁ hp₁ p₂ hp₂ parent parent' above above' hu₁ hu₂ hm₁ hm₂
      (habove.trans habove'.symm)
    exact Overlap.nested hoverlap (compatible_of_admitted ha₁ ha₂) hfield hfield' hc hc' hmem hmem' hkey

/-- The two sources agree on the fields that are selected, for every type of object. -/
def AgreeOn (x : Execution α β) (root : Option (NamedType α) × List (Selection β))
    (source source' : Source β ω) : Prop :=
  ∀ c, Reaches x.schema x.fragments root c → ∀ node : FieldNode β, node.selection ∈ c.2 →
    ∀ object, Admitted x.schema c.1 object → ∀ t field, fieldOf c.1 node.name = some (t, field) →
      ∀ obj info, source obj object node.name info = source' obj object node.name info

/-- **One group of merged fields.** -/
theorem executeGroup_congr (hschema : x.schema.WellFormed) (hrules : Rules x.schema x.fragments root)
    (hagree : AgreeOn x root source source') (h : Statics x root object statics) {d : ℕ} (key : String)
    {group : List (FieldNode β)} (hgroup : ∀ node ∈ group, node.responseKey = key ∧
      ∃ c, From x object statics node c) (obj : ω)
    (ih : ∀ {object' : String} {statics' : List (Option (NamedType α) × List (Selection β))} (obj' : ω),
      Statics x root object' statics' →
      x.execute source d (statics'.map (·.2)) object' obj'
        = x.execute source' d (statics'.map (·.2)) object' obj') :
    x.executeGroup source (x.execute source d) object obj group
      = x.executeGroup source' (x.execute source' d) object obj group := by
  cases group with
  | nil => rfl
  | cons node nodes =>
    obtain ⟨hkey, c, hfrom⟩ := hgroup node List.mem_cons_self
    by_cases hmeta : node.name ∈ metaFields
    · simp only [Execution.executeGroup, hmeta, if_true]
    have hne : node.name ≠ "__typename" := fun heq => hmeta (heq ▸ List.mem_cons_self)
    simp only [Execution.executeGroup, hmeta, hne, if_false]
    rcases hfield : fieldOf (x.schema.getType object) node.name with _ | ⟨type, field⟩
    · rfl
    -- every node of the group has the field on its static parent
    have hstatic : ∀ node' ∈ node :: nodes, ∀ c', From x object statics node' c' →
        node'.name = node.name ∧ ∃ t f, fieldOf c'.1 node'.name = some (t, f) := by
      intro node' hnode' c' hfrom'
      have hname := h.name_eq hrules hfrom' hfrom ((hgroup node' hnode').1.trans hkey.symm)
      have hreaches := hfrom'.reaches h
      obtain ⟨-, -, -, hmem, -⟩ := hfrom'
      rcases hrules.fieldsOnCorrectType c' hreaches node' hmem with hsome | hmeta'
      · obtain ⟨⟨t, f⟩, hf⟩ := Option.isSome_iff_exists.mp hsome
        exact ⟨hname, t, f, hf⟩
      · exact absurd (hname ▸ hmeta') hmeta
    have hsource : source obj object node.name node.info = source' obj object node.name node.info := by
      obtain ⟨-, t, f, hf⟩ := hstatic node List.mem_cons_self c hfrom
      have hreaches := hfrom.reaches h
      obtain ⟨-, -, -, hmem, hadmitted⟩ := hfrom
      exact hagree c hreaches node hmem object hadmitted t f hf obj node.info
    have hexecute : completeValue x.schema
        (x.execute source d ((node :: nodes).map (·.selectionSet))) field.type
        (source' obj object node.name node.info)
        = completeValue x.schema (x.execute source' d ((node :: nodes).map (·.selectionSet))) field.type
          (source' obj object node.name node.info) := by
      refine completeValue_congr field.type _ fun object' obj' hadmits => ?_
      obtain ⟨statics', hmap, hbelow⟩ := exists_list_of_forall (Below x object statics)
        (fun c => c.2) (fun node => node.selectionSet) (node :: nodes) fun node' hnode' => by
          obtain ⟨c', hfrom'⟩ := (hgroup node' hnode').2
          obtain ⟨-, t, f, hf⟩ := hstatic node' hnode' c' hfrom'
          exact ⟨_, ⟨c', t, f, hfrom', hf, rfl⟩, rfl⟩
      rw [← hmap]
      refine ih obj' (h.below hschema key (fun c' hc' => ?_) fun c' hc' => ?_)
      · obtain ⟨node', hnode', hb⟩ := hbelow c' hc'
        exact ⟨node', (hgroup node' hnode').1, hb⟩
      · intro node' parent t f hfrom' hf hkey'
        have hname := h.name_eq hrules hfrom' hfrom (hkey'.trans hkey.symm)
        obtain ⟨-, -, -, -, hadmitted⟩ := hfrom'
        obtain ⟨t', f', hf', hless⟩ := fieldOf_object hschema hadmitted hf
        rw [hname, hfield] at hf'
        obtain ⟨rfl, rfl⟩ := Prod.mk.inj (Option.some.inj hf')
        exact hless object' hadmits
    rw [hsource]
    dsimp only
    rw [hexecute]

/-- **Two data sources that agree on what a valid document selects** give the same data. -/
theorem execute_congr (hschema : x.schema.WellFormed) (hrules : Rules x.schema x.fragments root)
    (hagree : AgreeOn x root source source') : ∀ (d : ℕ) {object : String}
      {statics : List (Option (NamedType α) × List (Selection β))} (obj : ω),
      Statics x root object statics →
      x.execute source d (statics.map (·.2)) object obj
        = x.execute source' d (statics.map (·.2)) object obj
  | 0, _, _, _, _ => rfl
  | d + 1, object, statics, obj, h => by
    rw [Execution.execute, Execution.execute]
    refine Option.bind_congr fun nodes hnodes => ?_
    have hcollected := collected_of_collectSets hschema h.admitted hnodes
    refine congrArg (Option.map Data.object) (entries_congr fun key _ => ?_)
    refine executeGroup_congr hschema hrules hagree h key (fun node hnode => ?_) obj
      fun obj' h' => execute_congr hschema hrules hagree d obj' h'
    obtain ⟨hmem, hkey⟩ := List.mem_filter.mp hnode
    obtain ⟨c₀, hc₀, c, hc⟩ := hcollected node hmem
    exact ⟨by simpa using hkey, c, c₀, hc₀, hc⟩

end Congr

end Graphql

end Aixinwu
