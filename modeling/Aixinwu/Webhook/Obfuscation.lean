import Aixinwu.Lib.GraphqlExecution

/-!
# Sensitive fields in observability payloads

Before the result of a GraphQL operation is reported, `anonymize_gql_operation_response` looks
through the document for fields that are sensitive, and if there is one masks the data as a whole.
The look through is a walk over static types; it leaves out fields that the type it is at does not
have, and a field is looked up under the type it is at and not under those that implement it.

**`data_left_same`**: what is left does not depend on sensitive values. The walk finds every field
that execution can ask the data source for: execution resolves the field of the object type at hand,
and the static type is that type, or an interface of it, which declares no sensitive field.

## What is deliberately absent

The names, variables and errors of operations. How a document is validated is a parameter; what
counts is that a document that is executed has kept the two `Rules`.

## Main definitions

* `containSensitiveField`, `validateSensitiveFieldsMap`, `anonymizeGqlOperationResponse`
* `Service.respond` — the response to a document, given a data source
* `SelectsSensitive`

## Main results

* `containSensitiveField_outcome`
* `data_left_same`
-/

namespace Aixinwu

namespace Observability

open Graphql

variable {α β ω : Type*}

/-- `SensitiveFieldsMap`. -/
abbrev SensitiveFieldsMap : Type := List (String × List String)

/-- The exceptions of the walk. -/
inductive ObfuscationError where
  | sensitiveField (message : String)
  | graphQL (message : String)
  | recursion
deriving DecidableEq, Repr

/-- An operation of a document. -/
structure OperationDefinition (β : Type*) where
  name : Option String
  operation : OperationType
  selectionSet : List (Selection β)

/-- A parsed document. -/
structure Document (β : Type*) where
  operations : List (OperationDefinition β)
  fragments : List (FragmentDefinition β)

/-- One call after another: an exception ends both. -/
def andThen {γ δ : Type*} (r : Except ObfuscationError γ) (r' : Except ObfuscationError δ) :
    Except ObfuscationError δ :=
  match r with
  | .error e => .error e
  | .ok _ => r'

/-! ### The walk -/

/-- `is_sensitive_field`, which raises if it is. -/
def isSensitiveField (sensitiveFields : SensitiveFieldsMap) (nodeName parentType : String) :
    Except ObfuscationError Unit :=
  match sensitiveFields.lookup parentType with
  | none => .ok ()
  | some fields =>
    if nodeName ∈ fields then
      .error (.sensitiveField
        ("The query contains sensitive field " ++ nodeName ++ " of type " ++ parentType ++ "."))
    else .ok ()

section Walk

variable (schema : Schema α) (fragments : List (FragmentDefinition β))
  (sensitiveFields : SensitiveFieldsMap)

/-- The loop of `contain_sensitive_field`. -/
def containLoop (contain : Option (NamedType α) × List (Selection β) → Except ObfuscationError Bool)
    (type : Option (NamedType α)) : List (Selection β) → Except ObfuscationError Bool
  | [] => .ok false
  | .field _ name _ selectionSet :: selections => match fieldOf type name with
    | none => containLoop contain type selections
    | some (type', field) => andThen (isSensitiveField sensitiveFields name type'.name)
        (andThen (contain (schema.getType field.type.namedType, selectionSet))
          (containLoop contain type selections))
  | .fragmentSpread name _ :: selections => match getFragment fragments name with
    | none => containLoop contain type selections
    | some fragment =>
      andThen (contain (schema.getType fragment.typeCondition, fragment.selectionSet))
        (containLoop contain type selections)
  | .inlineFragment typeCondition _ selectionSet :: selections =>
    andThen (contain (schema.inlineFragmentType type typeCondition, selectionSet))
      (containLoop contain type selections)

/-- `contain_sensitive_field`, where the stack has room for `d` calls. -/
def containSensitiveField :
    ℕ → Option (NamedType α) × List (Selection β) → Except ObfuscationError Bool
  | 0, _ => .error .recursion
  | d + 1, c => containLoop schema fragments sensitiveFields (containSensitiveField d) c.1 c.2

end Walk

/-- The inner loop of `validate_sensitive_fields_map`. -/
def validateTypeFields (typeName : String) (type : NamedType α) :
    List String → Except ObfuscationError Unit
  | [] => .ok ()
  | fieldName :: typeFields => match type.fields fieldName with
    | none => .error (.graphQL ("The query anonymization could not be performed because a field " ++
        fieldName ++ " specified as sensitive is not defined by the " ++ typeName ++ " type."))
    | some _ => validateTypeFields typeName type typeFields

/-- `validate_sensitive_fields_map`. -/
def validateSensitiveFieldsMap (schema : Schema α) :
    SensitiveFieldsMap → Except ObfuscationError Unit
  | [] => .ok ()
  | (typeName, typeFields) :: sensitiveFields => match schema.getType typeName with
    | none => .error (.graphQL ("The query anonymization could not be performed because a type " ++
        typeName ++ " that is not defined is specified as sensitive."))
    | some type =>
      if type.isObject then
        andThen (validateTypeFields typeName type typeFields)
          (validateSensitiveFieldsMap schema sensitiveFields)
      else .error (.graphQL ("The query anonymization could not be performed because a type " ++
        typeName ++ " specified as sensitive is not an object type."))

section Anonymize

variable (schema : Schema α) (sensitiveFields : SensitiveFieldsMap)

/-- `enter_operation_definition`. -/
def enterOperationDefinition (d : ℕ) (fragments : List (FragmentDefinition β))
    (node : OperationDefinition β) : Except ObfuscationError Bool :=
  andThen (validateSensitiveFieldsMap schema sensitiveFields)
    (containSensitiveField schema fragments sensitiveFields d
      (schema.rootType node.operation, node.selectionSet))

/-- The visit of the operations of a document. -/
def visitOperations (d : ℕ) (fragments : List (FragmentDefinition β)) :
    List (OperationDefinition β) → Except ObfuscationError Bool
  | [] => .ok false
  | node :: operations => andThen (enterOperationDefinition schema sensitiveFields d fragments node)
      (visitOperations d fragments operations)

/-- `_contain_sensitive_field`. -/
def documentContainsSensitiveField (d : ℕ) (document : Document β) : Except ObfuscationError Bool :=
  match visitOperations schema sensitiveFields d document.fragments document.operations with
  | .ok _ => .ok false
  | .error (.sensitiveField _) => .ok true
  | .error e => .error e

/-- `MASK`. -/
def MASK : String := "***"

/-- The result of an operation: a dictionary with `data`, or `errors`, or both. -/
structure Response where
  data : Option Data
  errors : List String

/-- `GraphQLOperationResponse`. -/
structure GraphQLOperationResponse (β : Type*) where
  query : Option (Document β)
  result : Option Response

/-- `anonymize_gql_operation_response`. -/
def anonymizeGqlOperationResponse (d : ℕ) (operation : GraphQLOperationResponse β) :
    Except ObfuscationError (GraphQLOperationResponse β) :=
  match operation.query, operation.result with
  | some query, some result =>
    if result.data.isNone && result.errors.isEmpty then .ok operation
    else match documentContainsSensitiveField schema sensitiveFields d query with
      | .error e => .error e
      | .ok false => .ok operation
      | .ok true => .ok { operation with result := some { result with data := some (.leaf MASK) } }
  | _, _ => .ok operation

end Anonymize

/-! ### The response to a document -/

/-- What executes documents: the schema, the validation, directives and introspection. -/
structure Service (α β : Type*) where
  schema : Schema α
  validate : Document β → Bool
  included : β → Bool
  introspection : String → List (FieldNode β) → Option (Option Data)

/-- The operation of a name or, without one, the only one. -/
def getOperation (document : Document β) : Option String → Option (OperationDefinition β)
  | some name => document.operations.find? (·.name = some name)
  | none => match document.operations with
    | [operation] => some operation
    | _ => none

/-- The execution of a document's operations. -/
def Service.execution (service : Service α β) (document : Document β) : Execution α β where
  schema := service.schema
  fragments := document.fragments
  included := service.included
  introspection := service.introspection

/-- The response, with the errors that come up in execution. -/
def Service.respond (service : Service α β) (source : Source β ω) (rootValue : ω) (e : ℕ)
    (document : Document β) (operationName : Option String) (errors : List String) : Response :=
  if service.validate document then
    match getOperation document operationName with
    | none => ⟨none, ["Must provide an operation."]⟩
    | some operation => match service.schema.rootType operation.operation with
      | none => ⟨none, ["Schema is not configured for the operation."]⟩
      | some type => ⟨some (((service.execution document).execute source e [operation.selectionSet]
          type.name rootValue).getD .null), errors⟩
  else ⟨none, ["The document is not valid."]⟩

/-! ### What the walk finds -/

/-- The field of the type is in the map. -/
def Sensitive (sensitiveFields : SensitiveFieldsMap) (type field : String) : Prop :=
  ∃ fields, sensitiveFields.lookup type = some fields ∧ field ∈ fields

/-- The selection is a sensitive field of the type. -/
def SensitiveSelection (sensitiveFields : SensitiveFieldsMap) (type : Option (NamedType α)) :
    Selection β → Prop
  | .field _ name _ _ =>
    ∃ type' field, fieldOf type name = some (type', field) ∧ Sensitive sensitiveFields type'.name name
  | .fragmentSpread _ _ => False
  | .inlineFragment _ _ _ => False

/-- A sensitive field is selected in the set or below. -/
def SelectsFrom (schema : Schema α) (fragments : List (FragmentDefinition β))
    (sensitiveFields : SensitiveFieldsMap) (c : Option (NamedType α) × List (Selection β)) : Prop :=
  ∃ c', Reaches schema fragments c c' ∧ ∃ s ∈ c'.2, SensitiveSelection sensitiveFields c'.1 s

/-- An operation of the document selects a sensitive field. -/
def SelectsSensitive (schema : Schema α) (sensitiveFields : SensitiveFieldsMap)
    (document : Document β) : Prop :=
  ∃ operation ∈ document.operations, SelectsFrom schema document.fragments sensitiveFields
    (schema.rootType operation.operation, operation.selectionSet)

/-- The walk has come to its end, or has been broken off by a sensitive field that is there. -/
def Outcome (r : Except ObfuscationError Bool) (found : Prop) : Prop :=
  r = .ok false ∧ ¬ found ∨ (∃ message, r = .error (.sensitiveField message)) ∧ found

section Found

variable {schema : Schema α} {fragments : List (FragmentDefinition β)}
  {sensitiveFields : SensitiveFieldsMap}

theorem Outcome.congr {r : Except ObfuscationError Bool} {found found' : Prop}
    (h : Outcome r found) (hiff : found ↔ found') : Outcome r found' := by
  rwa [Outcome, ← hiff]

/-- One after the other. -/
theorem Outcome.then {r r' : Except ObfuscationError Bool} {found found' : Prop}
    (h : Outcome r found) (h' : Outcome r' found') : Outcome (andThen r r') (found ∨ found') := by
  rcases h with ⟨rfl, hnot⟩ | ⟨⟨message, rfl⟩, hfound⟩
  · exact h'.congr (or_iff_right hnot).symm
  · exact Or.inr ⟨⟨message, rfl⟩, Or.inl hfound⟩

theorem isSensitiveField_outcome (sensitiveFields : SensitiveFieldsMap) (name type : String) :
    isSensitiveField sensitiveFields name type = .ok () ∧ ¬ Sensitive sensitiveFields type name ∨
      (∃ message, isSensitiveField sensitiveFields name type = .error (.sensitiveField message)) ∧
        Sensitive sensitiveFields type name := by
  rw [isSensitiveField, Sensitive]
  rcases sensitiveFields.lookup type with _ | fields
  · simp
  · dsimp only
    split
    · rename_i hmem
      exact Or.inr ⟨⟨_, rfl⟩, fields, rfl, hmem⟩
    · rename_i hmem
      refine Or.inl ⟨rfl, ?_⟩
      rintro ⟨fields', hfields, hmem'⟩
      obtain rfl := Option.some.inj hfields
      exact hmem hmem'

theorem exists_call_iff {P : Option (NamedType α) × List (Selection β) → Prop}
    {type : Option (NamedType α)} {s : Selection β} {c : Option (NamedType α) × List (Selection β)}
    (hcall : (fullWalk β schema).call fragments type s = some c) :
    (∃ c', (fullWalk β schema).call fragments type s = some c' ∧ P c') ↔ P c := by
  rw [hcall]
  constructor
  · rintro ⟨c', hc', h⟩
    rwa [Option.some.inj hc']
  · exact fun h => ⟨c, rfl, h⟩

theorem not_exists_call {P : Option (NamedType α) × List (Selection β) → Prop}
    {type : Option (NamedType α)} {s : Selection β}
    (hcall : (fullWalk β schema).call fragments type s = none) :
    ¬ ∃ c', (fullWalk β schema).call fragments type s = some c' ∧ P c' := by
  rintro ⟨c', hc', -⟩
  rw [hcall] at hc'
  cases hc'

/-- The loop finds what is in the selections and what the calls find. -/
theorem containLoop_outcome
    {contain : Option (NamedType α) × List (Selection β) → Except ObfuscationError Bool}
    {P : Option (NamedType α) × List (Selection β) → Prop} {type : Option (NamedType α)} :
    ∀ {selections : List (Selection β)},
      (∀ s ∈ selections, ∀ c, (fullWalk β schema).call fragments type s = some c →
        Outcome (contain c) (P c)) →
      Outcome (containLoop schema fragments sensitiveFields contain type selections)
        (∃ s ∈ selections, SensitiveSelection sensitiveFields type s ∨
          ∃ c, (fullWalk β schema).call fragments type s = some c ∧ P c)
  | [], _ => Or.inl ⟨rfl, by simp⟩
  | s :: selections, h => by
    rw [List.forall_mem_cons] at h
    have ih := containLoop_outcome h.2
    refine Outcome.congr ?_ (List.exists_mem_cons_iff ..).symm
    cases s with
    | field responseName name info selectionSet =>
      have hcall : (fullWalk β schema).call fragments type
          (.field responseName name info selectionSet)
          = (fieldOf type name).map fun field =>
              (schema.getType field.2.type.namedType, selectionSet) := by
        rw [Walk.call]
        show ((fieldOf type name).map _).map _ = _
        rw [Option.map_map]
        rfl
      rcases hfield : fieldOf type name with _ | ⟨type', field⟩
      · rw [hfield] at hcall
        simp only [containLoop, hfield]
        refine ih.congr (or_iff_right ?_).symm
        rintro (⟨t, f, hf, -⟩ | hfound)
        · rw [hfield] at hf
          cases hf
        · exact not_exists_call hcall hfound
      · rw [hfield] at hcall
        simp only [containLoop, hfield]
        rcases isSensitiveField_outcome sensitiveFields name type'.name with
          ⟨hok, hnot⟩ | ⟨⟨message, herror⟩, hsensitive⟩
        · rw [hok]
          refine ((h.1 _ hcall).then ih).congr (or_congr_left ?_)
          rw [exists_call_iff hcall]
          refine (or_iff_right ?_).symm
          rintro ⟨t, f, hf, hsensitive⟩
          obtain ⟨rfl, rfl⟩ := Prod.mk.inj (Option.some.inj (hfield.symm.trans hf))
          exact hnot hsensitive
        · rw [herror]
          exact Or.inr ⟨⟨message, rfl⟩, Or.inl (Or.inl ⟨type', field, hfield, hsensitive⟩)⟩
    | fragmentSpread name info =>
      rcases hfragment : getFragment fragments name with _ | fragment
      · have hcall : (fullWalk β schema).call fragments type (.fragmentSpread name info) = none := by
          rw [Walk.call, hfragment, Option.map_none]
        simp only [containLoop, hfragment]
        refine ih.congr (or_iff_right ?_).symm
        rintro (hfalse | hfound)
        · exact hfalse
        · exact not_exists_call hcall hfound
      · have hcall : (fullWalk β schema).call fragments type (.fragmentSpread name info)
            = some (schema.getType fragment.typeCondition, fragment.selectionSet) := by
          rw [Walk.call, hfragment]
          rfl
        simp only [containLoop, hfragment]
        refine ((h.1 _ hcall).then ih).congr (or_congr_left ?_)
        rw [exists_call_iff hcall]
        exact (or_iff_right fun hfalse => hfalse).symm
    | inlineFragment typeCondition info selectionSet =>
      have hcall : (fullWalk β schema).call fragments type
          (.inlineFragment typeCondition info selectionSet)
          = some (schema.inlineFragmentType type typeCondition, selectionSet) := rfl
      refine ((h.1 _ hcall).then ih).congr (or_congr_left ?_)
      rw [exists_call_iff hcall]
      exact (or_iff_right fun hfalse => hfalse).symm

theorem selectsFrom_iff (c : Option (NamedType α) × List (Selection β)) :
    SelectsFrom schema fragments sensitiveFields c ↔
      ∃ s ∈ c.2, SensitiveSelection sensitiveFields c.1 s ∨
        ∃ c', (fullWalk β schema).call fragments c.1 s = some c' ∧
          SelectsFrom schema fragments sensitiveFields c' := by
  constructor
  · rintro ⟨c', hreach, hfound⟩
    rcases Relation.ReflTransGen.cases_head hreach with rfl | ⟨c₁, hcall, hrest⟩
    · obtain ⟨s, hs, hsensitive⟩ := hfound
      exact ⟨s, hs, Or.inl hsensitive⟩
    · obtain ⟨s, hs, hcall⟩ := mem_calls_fullWalk.mp hcall
      exact ⟨s, hs, Or.inr ⟨c₁, hcall, c', hrest, hfound⟩⟩
  · rintro ⟨s, hs, hsensitive | ⟨c₁, hcall, c', hrest, hfound⟩⟩
    · exact ⟨c, .refl, s, hs, hsensitive⟩
    · exact ⟨c', hrest.head (mem_calls_fullWalk.mpr ⟨s, hs, hcall⟩), hfound⟩

/-- **The walk finds exactly the sensitive fields that are selected**, given room for it. -/
theorem containSensitiveField_outcome : ∀ {d : ℕ} {c : Option (NamedType α) × List (Selection β)},
    (fullWalk β schema).Within fragments d c →
      Outcome (containSensitiveField schema fragments sensitiveFields d c)
        (SelectsFrom schema fragments sensitiveFields c)
  | d + 1, c, h => by
    rw [containSensitiveField]
    refine Outcome.congr (containLoop_outcome fun s hs c' hcall => ?_) (selectsFrom_iff c).symm
    exact containSensitiveField_outcome (h c' (mem_calls_fullWalk.mpr ⟨s, hs, hcall⟩))

theorem visitOperations_outcome {d : ℕ}
    (hmap : validateSensitiveFieldsMap schema sensitiveFields = .ok ()) :
    ∀ {operations : List (OperationDefinition β)}, (∀ operation ∈ operations,
        (fullWalk β schema).Within fragments d
          (schema.rootType operation.operation, operation.selectionSet)) →
      Outcome (visitOperations schema sensitiveFields d fragments operations)
        (∃ operation ∈ operations, SelectsFrom schema fragments sensitiveFields
          (schema.rootType operation.operation, operation.selectionSet))
  | [], _ => Or.inl ⟨rfl, by simp⟩
  | operation :: operations, h => by
    rw [List.forall_mem_cons] at h
    rw [visitOperations, enterOperationDefinition, hmap]
    rw [List.exists_mem_cons_iff]
    exact (containSensitiveField_outcome h.1).then (visitOperations_outcome hmap h.2)

theorem documentContainsSensitiveField_of_outcome {d : ℕ} {document : Document β} {found : Prop}
    (h : Outcome (visitOperations schema sensitiveFields d document.fragments document.operations)
      found) :
    documentContainsSensitiveField schema sensitiveFields d document = .ok false ∧ ¬ found ∨
      documentContainsSensitiveField schema sensitiveFields d document = .ok true ∧ found := by
  rw [documentContainsSensitiveField]
  rcases h with ⟨hok, hnot⟩ | ⟨⟨message, herror⟩, hfound⟩
  · rw [hok]
    exact Or.inl ⟨rfl, hnot⟩
  · rw [herror]
    exact Or.inr ⟨rfl, hfound⟩

/-- A depth at which the stack has room for all operations. -/
theorem exists_depth (schema : Schema α) (w : Walk β (Option (NamedType α))) (hacyclic : Acyclic fragments)
    (operations : List (OperationDefinition β)) : ∃ depth, ∀ d ≥ depth, ∀ operation ∈ operations,
      w.Within fragments d (schema.rootType operation.operation, operation.selectionSet) := by
  obtain ⟨depth, h⟩ := Walk.exists_within_calls (operations.map fun operation =>
    (schema.rootType operation.operation, operation.selectionSet)) fun c _ => hacyclic.exists_within w c
  exact ⟨depth, fun d hd operation hmem => (h _ (List.mem_map_of_mem hmem)).mono hd⟩

end Found

/-! ### What is left in the result -/

section Left

variable {service : Service α β} {sensitiveFields : SensitiveFieldsMap} {document : Document β}

/-- No interface declares a field that is sensitive on a type that implements it. -/
def InterfacesDeclareNoSensitive (schema : Schema α) (sensitiveFields : SensitiveFieldsMap) : Prop :=
  ∀ interface fields object name, schema.getType interface = some (.interface interface fields) →
    schema.isPossibleType interface object = true → (fields name).isSome →
    ¬ Sensitive sensitiveFields object name

/-- The data sources differ in sensitive values only. -/
def AgreeExcept (sensitiveFields : SensitiveFieldsMap) (source source' : Source β ω) : Prop :=
  ∀ obj type field info, ¬ Sensitive sensitiveFields type field →
    source obj type field info = source' obj type field info

/-- Where nothing sensitive is found, the data source is asked for nothing that is. -/
theorem agreeOn_of_not_selects (hinterfaces : InterfacesDeclareNoSensitive service.schema sensitiveFields)
    {source source' : Source β ω} (hagree : AgreeExcept sensitiveFields source source')
    {c : Option (NamedType α) × List (Selection β)}
    (hnot : ¬ SelectsFrom service.schema document.fragments sensitiveFields c) :
    AgreeOn (service.execution document) c source source' := by
  rintro c' hreach node hmem object ⟨t, htype, hadmits, hget⟩ t' field hfield obj info
  refine hagree obj object node.name info fun hsensitive => ?_
  obtain ⟨htype', hfields⟩ := fieldOf_eq_some.mp hfield
  obtain rfl : t = t' := Option.some.inj (htype.symm.trans htype')
  by_cases hname : t.name = object
  · -- the static type is the type of the object
    exact hnot ⟨c', hreach, node.selection, hmem, t, field, hfield, hname ▸ hsensitive⟩
  · -- it is an interface of it
    have hpossible : t.isObject = false ∧
        (service.execution document).schema.isPossibleType t.name object = true := by
      simpa [NamedType.admits, hname] using hadmits
    cases t with
    | object => exact absurd hpossible.1 (by simp [NamedType.isObject])
    | other => cases hfields
    | interface interface fields =>
      exact hinterfaces interface fields object node.name hget hpossible.2
        (Option.isSome_iff_exists.mpr ⟨field, hfields⟩) hsensitive

theorem mem_of_getOperation {operationName : Option String} {operation : OperationDefinition β}
    (h : getOperation document operationName = some operation) : operation ∈ document.operations := by
  cases operationName with
  | some name => exact List.mem_of_find?_eq_some h
  | none =>
    rw [getOperation] at h
    split at h
    · rename_i operation' hone
      rw [hone, Option.some.inj h]
      exact List.mem_cons_self
    · cases h

/-- The response is the same where nothing sensitive is selected, errors apart. -/
theorem respond_data_eq (hschema : service.schema.WellFormed)
    (hinterfaces : InterfacesDeclareNoSensitive service.schema sensitiveFields)
    (hvalidate : service.validate document = true → ∀ operation ∈ document.operations,
      Rules service.schema document.fragments
        (service.schema.rootType operation.operation, operation.selectionSet))
    {source source' : Source β ω} (hagree : AgreeExcept sensitiveFields source source')
    (hnot : ¬ SelectsSensitive service.schema sensitiveFields document) (rootValue : ω) (e : ℕ)
    (operationName : Option String) (errors errors' : List String) :
    (service.respond source rootValue e document operationName errors).data
      = (service.respond source' rootValue e document operationName errors').data := by
  rw [Service.respond, Service.respond]
  split
  · rename_i hvalid
    rcases hoperation : getOperation document operationName with _ | operation
    · rfl
    have hmem := mem_of_getOperation hoperation
    dsimp only
    rcases htype : service.schema.rootType operation.operation with _ | type
    · rfl
    have hrules := hvalidate hvalid operation hmem
    have hfrom : ¬ SelectsFrom service.schema document.fragments sensitiveFields
        (service.schema.rootType operation.operation, operation.selectionSet) :=
      fun hfound => hnot ⟨operation, hmem, hfound⟩
    have hget : service.schema.getType type.name = some type := by
      have hroot : ∃ name, service.schema.getType name = some type := by
        cases hkind : operation.operation with
        | query => exact ⟨_, by rw [hkind] at htype; exact htype⟩
        | mutation =>
          rw [hkind] at htype
          obtain ⟨name, -, hname⟩ := Option.bind_eq_some_iff.mp htype
          exact ⟨name, hname⟩
        | subscription =>
          rw [hkind] at htype
          obtain ⟨name, -, hname⟩ := Option.bind_eq_some_iff.mp htype
          exact ⟨name, hname⟩
      obtain ⟨name, hname⟩ := hroot
      rw [hschema.named name type hname, hname]
    have hstatics : Statics (service.execution document)
        (service.schema.rootType operation.operation, operation.selectionSet) type.name
        [(service.schema.rootType operation.operation, operation.selectionSet)] :=
      statics_root ⟨type, htype, by simp [NamedType.admits], hget⟩
    have hsame := execute_congr (x := service.execution document) hschema hrules
      (agreeOn_of_not_selects hinterfaces hagree hfrom) e rootValue hstatics
    dsimp only
    rw [show [operation.selectionSet] = [(service.schema.rootType operation.operation,
      operation.selectionSet)].map (·.2) from rfl, hsame]
  · rfl

/-- The data that is left. -/
def GraphQLOperationResponse.data (operation : GraphQLOperationResponse β) : Option Data :=
  operation.result.bind (·.data)

/-- A response is never empty. -/
theorem respond_not_empty (source : Source β ω) (rootValue : ω) (e : ℕ)
    (operationName : Option String) (errors : List String) :
    ((service.respond source rootValue e document operationName errors).data.isNone &&
      (service.respond source rootValue e document operationName errors).errors.isEmpty) = false := by
  rw [Service.respond]
  split
  · split
    · rfl
    · split
      · rfl
      · rfl
  · rfl

/-- What becomes of a response. -/
theorem anonymize_respond {d : ℕ} {found : Prop} (source : Source β ω) (rootValue : ω) (e : ℕ)
    (operationName : Option String) (errors : List String)
    (h : documentContainsSensitiveField service.schema sensitiveFields d document = .ok false ∧
        ¬ found ∨
      documentContainsSensitiveField service.schema sensitiveFields d document = .ok true ∧ found) :
    let response := service.respond source rootValue e document operationName errors
    ∃ left, anonymizeGqlOperationResponse service.schema sensitiveFields d ⟨some document, some response⟩
        = .ok left ∧
      (¬ found ∧ left.result = some response ∨ found ∧ left.data = some (.leaf MASK)) := by
  intro response
  have hempty : (response.data.isNone && response.errors.isEmpty) = false :=
    respond_not_empty source rootValue e operationName errors
  simp only [anonymizeGqlOperationResponse, hempty, Bool.false_eq_true, if_false]
  rcases h with ⟨hok, hnot⟩ | ⟨hok, hfound⟩
  · rw [hok]
    exact ⟨_, rfl, Or.inl ⟨hnot, rfl⟩⟩
  · rw [hok]
    exact ⟨_, rfl, Or.inr ⟨hfound, rfl⟩⟩

/-- **Sensitive fields never reach the payload.** For every schema, map that is accepted, document
without fragment cycles and two data sources that differ in sensitive values only, the data that is
left is the same, whatever operation is executed; and the result is touched only if the document
selects a sensitive field. -/
theorem data_left_same (hschema : service.schema.WellFormed)
    (hmap : validateSensitiveFieldsMap service.schema sensitiveFields = .ok ())
    (hinterfaces : InterfacesDeclareNoSensitive service.schema sensitiveFields)
    (hvalidate : service.validate document = true → ∀ operation ∈ document.operations,
      Rules service.schema document.fragments
        (service.schema.rootType operation.operation, operation.selectionSet))
    (hacyclic : Acyclic document.fragments) {source source' : Source β ω}
    (hagree : AgreeExcept sensitiveFields source source') :
    ∃ depth, ∀ d ≥ depth, ∀ rootValue e operationName errors errors',
      let response := service.respond source rootValue e document operationName errors
      let response' := service.respond source' rootValue e document operationName errors'
      ∃ left left', anonymizeGqlOperationResponse service.schema sensitiveFields d
          ⟨some document, some response⟩ = .ok left ∧
        anonymizeGqlOperationResponse service.schema sensitiveFields d
          ⟨some document, some response'⟩ = .ok left' ∧
        left.data = left'.data ∧
        (left.result ≠ some response →
          SelectsSensitive service.schema sensitiveFields document) := by
  obtain ⟨depth, hdepth⟩ := exists_depth service.schema (fullWalk β service.schema) hacyclic
    document.operations
  refine ⟨depth, fun d hd rootValue e operationName errors errors' => ?_⟩
  have hcontains := documentContainsSensitiveField_of_outcome
    (visitOperations_outcome hmap (hdepth d hd))
  obtain ⟨left, hleft, hcase⟩ := anonymize_respond source rootValue e operationName errors hcontains
  obtain ⟨left', hleft', hcase'⟩ :=
    anonymize_respond source' rootValue e operationName errors' hcontains
  refine ⟨left, left', hleft, hleft', ?_, ?_⟩
  · rcases hcase with ⟨hnot, hresult⟩ | ⟨hfound, hmask⟩
    · rcases hcase' with ⟨-, hresult'⟩ | ⟨hfound', -⟩
      · rw [GraphQLOperationResponse.data, GraphQLOperationResponse.data, hresult, hresult']
        exact respond_data_eq hschema hinterfaces hvalidate hagree hnot rootValue e operationName errors
          errors'
      · exact absurd hfound' hnot
    · rcases hcase' with ⟨hnot', -⟩ | ⟨-, hmask'⟩
      · exact absurd hfound hnot'
      · rw [hmask, hmask']
  · intro hne
    rcases hcase with ⟨-, hresult⟩ | ⟨hfound, -⟩
    · exact absurd hresult hne
    · exact hfound

end Left

/-- A schema with orders, which have a sensitive field. -/
def orderSchema : Schema Unit where
  getType name :=
    if name = "Query" then some (.object "Query" fun name =>
      if name = "shopName" then some ⟨.named "String", ()⟩ else none)
    else if name = "Order" then some (.object "Order" fun name =>
      if name = "userEmail" then some ⟨.named "String", ()⟩ else none)
    else none
  isPossibleType _ _ := false
  queryType := "Query"
  mutationType := none
  subscriptionType := none

theorem orderSchema_wellFormed : orderSchema.WellFormed where
  named name type h := by
    simp only [orderSchema] at h
    split at h
    · rename_i hname
      obtain rfl := Option.some.inj h
      exact hname.symm
    · split at h
      · rename_i hname
        obtain rfl := Option.some.inj h
        exact hname.symm
      · cases h
  implements interface fields object name field h hpossible := by cases hpossible

/-- A service that takes documents without fragments. -/
def orderService : Service Unit Unit where
  schema := orderSchema
  validate document := document.fragments.isEmpty
  included _ := true
  introspection _ _ := none

/-- `{ shopName }` -/
def shopNameDocument : Document Unit where
  operations := [⟨none, .query, [.field none "shopName" () []]⟩]
  fragments := []

theorem shopName_overlap {fragments : List (FragmentDefinition Unit)} {type : Option (NamedType Unit)}
    {p p' : Option (NamedType Unit) × FieldNode Unit}
    (h : Overlap orderSchema fragments (type, [.field none "shopName" () []]) p p') :
    (p.2.name = "shopName" ∧ p.2.selectionSet = []) ∧
      p'.2.name = "shopName" ∧ p'.2.selectionSet = [] := by
  have hroot : ∀ {c : Option (NamedType Unit) × List (Selection Unit)} {node : FieldNode Unit},
      Unfolds orderSchema fragments (type, [.field none "shopName" () []]) c →
        node.selection ∈ c.2 → node.name = "shopName" ∧ node.selectionSet = [] := by
    intro c node hunfolds hmem
    cases hunfolds with
    | refl =>
      simp only [FieldNode.selection, List.mem_singleton, Selection.field.injEq] at hmem
      exact ⟨hmem.2.1, hmem.2.2.2⟩
    | inline hmem' => simp at hmem'
    | spread hmem' => simp at hmem'
  induction h with
  | root h h' hmem hmem' _ => exact ⟨hroot h hmem, hroot h' hmem'⟩
  | nested _ _ _ _ h _ hmem _ _ ih =>
    -- there is nothing below
    rw [ih.1.2] at h
    cases h with
    | refl => cases hmem
    | inline hmem' => cases hmem'
    | spread hmem' => cases hmem'

theorem shopName_rules : Rules orderSchema [] (orderSchema.rootType .query,
    [Selection.field none "shopName" () []]) where
  fieldsOnCorrectType c hreach node hmem := by
    rcases Relation.ReflTransGen.cases_head hreach with rfl | ⟨c', hcall, hrest⟩
    · simp only [FieldNode.selection, List.mem_singleton, Selection.field.injEq] at hmem
      rw [hmem.2.1]
      exact Or.inl rfl
    · obtain ⟨s, hs, hcall⟩ := mem_calls_fullWalk.mp hcall
      obtain rfl := List.mem_singleton.mp hs
      obtain rfl := Option.some.inj hcall
      rcases Relation.ReflTransGen.cases_head hrest with rfl | ⟨c'', hcall', -⟩
      · cases hmem
      · cases hcall'
  overlappingFieldsCanBeMerged parent parent' node node' h _ := by
    obtain ⟨hname, hname'⟩ := shopName_overlap h
    exact hname.1.trans hname'.1.symm

/-- A data source in which orders have this e-mail address. -/
def emailSource (userEmail : String) : Source Unit Unit := fun _ type field _ =>
  if type = "Order" ∧ field = "userEmail" then .leaf userEmail else .leaf "Aixinwu"

theorem data_left_same_shopName :
    ∃ depth, ∀ d ≥ depth, ∀ rootValue e operationName errors errors',
      let response := orderService.respond (emailSource "li@sjtu.edu.cn") rootValue e shopNameDocument
        operationName errors
      let response' := orderService.respond (emailSource "wu@sjtu.edu.cn") rootValue e shopNameDocument
        operationName errors'
      ∃ left left', anonymizeGqlOperationResponse orderService.schema [("Order", ["userEmail"])] d
          ⟨some shopNameDocument, some response⟩ = .ok left ∧
        anonymizeGqlOperationResponse orderService.schema [("Order", ["userEmail"])] d
          ⟨some shopNameDocument, some response'⟩ = .ok left' ∧
        left.data = left'.data ∧
        (left.result ≠ some response →
          SelectsSensitive orderService.schema [("Order", ["userEmail"])] shopNameDocument) := by
  refine data_left_same orderSchema_wellFormed (by rfl) ?_ ?_ acyclic_nil ?_
  · rintro interface fields object name - hpossible
    cases hpossible
  · rintro - operation hmem
    obtain rfl := List.mem_singleton.mp hmem
    exact shopName_rules
  · intro obj type field info hnot
    have hother : ¬ (type = "Order" ∧ field = "userEmail") := by
      rintro ⟨rfl, rfl⟩
      exact hnot ⟨["userEmail"], rfl, List.mem_cons_self⟩
    simp only [emailSource, if_neg hother]

end Observability

end Aixinwu
