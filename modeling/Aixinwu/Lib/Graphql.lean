import Mathlib.Data.Fintype.Card
import Mathlib.Data.List.TakeWhile
import Mathlib.Data.Set.Finite.List
import Mathlib.Logic.Relation

/-!
# GraphQL documents

Schemas as far as names of types and fields go, documents with fragments, and walks over them.

A walk takes the selections of a set in turn and goes into the selection sets of fields, inline
fragments and the fragments that are spread, with a context (the type it is at, for one). It may
stop at a selection, and leave out the rest of the set. Nothing keeps a fragment from spreading
itself, so a walk need not come to an end; `Within` says that one nests only so deep.

**`exists_within_iff`**: a walk comes to an end exactly when no fragment it meets leads back to
itself. The definitions of fragments are finitely many, so this is the only way in which a walk can
go on for ever.

## Main definitions

* `Selection`, `FragmentDefinition`, `NamedType`, `Schema`
* `Walk`, `Walk.calls`, `Walk.Within`, `Walk.Meets`, `Walk.Leads`
* `Acyclic` — a document without fragment cycles
* `Inlines` — the document with all its spreads put in

## Main results

* `Walk.exists_within_iff`
* `Inlines.exists_of_acyclic`
-/

namespace Aixinwu

namespace Graphql

/-! ### Documents -/

/-- A selection. `info` is what else the node has: arguments and directives. -/
inductive Selection (β : Type*) where
  | field (responseName : Option String) (name : String) (info : β) (selectionSet : List (Selection β))
  | fragmentSpread (name : String) (info : β)
  | inlineFragment (typeCondition : Option String) (info : β) (selectionSet : List (Selection β))

/-- A fragment that can be spread. -/
structure FragmentDefinition (β : Type*) where
  name : String
  typeCondition : String
  selectionSet : List (Selection β)

/-- The fragment of a name: of several, the last. -/
def getFragment {β : Type*} (fragments : List (FragmentDefinition β)) (name : String) :
    Option (FragmentDefinition β) :=
  fragments.reverse.find? (·.name = name)

/-! ### Schemas -/

/-- The type of a field: a named type, and what is around it. -/
inductive TypeRef where
  | named (name : String)
  | list (ofType : TypeRef)
  | nonNull (ofType : TypeRef)
deriving DecidableEq, Repr

/-- `get_named_type`. -/
def TypeRef.namedType : TypeRef → String
  | named name => name
  | list ofType => ofType.namedType
  | nonNull ofType => ofType.namedType

/-- The definition of a field. `args` are the definitions of its arguments. -/
structure FieldDefinition (α : Type*) where
  type : TypeRef
  args : α

/-- A type of a schema. Unions, scalars, enumerations and inputs have no fields to select. -/
inductive NamedType (α : Type*) where
  | object (name : String) (fields : String → Option (FieldDefinition α))
  | interface (name : String) (fields : String → Option (FieldDefinition α))
  | other (name : String)

namespace NamedType

variable {α : Type*}

def name : NamedType α → String
  | object name _ => name
  | interface name _ => name
  | other name => name

def fields : NamedType α → String → Option (FieldDefinition α)
  | object _ fields => fields
  | interface _ fields => fields
  | other _ => fun _ => none

/-- `isinstance(type_def, GraphQLObjectType)`. -/
def isObject : NamedType α → Bool
  | object _ _ => true
  | interface _ _ => false
  | other _ => false

end NamedType

/-- The types of a schema by name, the object types of interfaces and unions, and the root types. -/
structure Schema (α : Type*) where
  getType : String → Option (NamedType α)
  isPossibleType : String → String → Bool
  queryType : String
  mutationType : Option String
  subscriptionType : Option String

/-- The kinds of operations. -/
inductive OperationType where
  | query
  | mutation
  | subscription
deriving DecidableEq, Repr

/-- The type that an operation starts at. -/
def Schema.rootType {α : Type*} (schema : Schema α) : OperationType → Option (NamedType α)
  | .query => schema.getType schema.queryType
  | .mutation => schema.mutationType.bind schema.getType
  | .subscription => schema.subscriptionType.bind schema.getType

/-- The field of a name, with the type that has it. -/
def fieldOf {α : Type*} (type : Option (NamedType α)) (name : String) :
    Option (NamedType α × FieldDefinition α) :=
  type.bind fun type => (type.fields name).map (type, ·)

theorem fieldOf_eq_some {α : Type*} {type : Option (NamedType α)} {name : String}
    {type' : NamedType α} {field : FieldDefinition α} :
    fieldOf type name = some (type', field) ↔ type = some type' ∧ type'.fields name = some field := by
  cases type with
  | none => simp [fieldOf]
  | some type =>
    simp only [fieldOf, Option.bind_some, Option.map_eq_some_iff, Prod.mk.injEq, Option.some.injEq]
    constructor
    · rintro ⟨field', hfield, rfl, rfl⟩
      exact ⟨rfl, hfield⟩
    · rintro ⟨rfl, hfield⟩
      exact ⟨field, hfield, rfl, rfl⟩

/-- The type that an inline fragment is at: that of its condition or, without one, that around it.
-/
def Schema.inlineFragmentType {α : Type*} (schema : Schema α) (type : Option (NamedType α)) :
    Option String → Option (NamedType α)
  | none => type
  | some name => schema.getType name

/-! ### Walks -/

/-- A walk with contexts `τ`: where it stops, and the context it goes on with. -/
structure Walk (β τ : Type*) where
  goOn : τ → Selection β → Bool
  enterField : τ → String → Option τ
  enterInline : τ → Option String → τ
  enterFragment : String → τ

/-- The walk over the types of a schema: it goes into the fields that the type has. -/
def typedWalk {α : Type*} (β : Type*) (schema : Schema α)
    (goOn : Option (NamedType α) → Selection β → Bool) : Walk β (Option (NamedType α)) where
  goOn
  enterField type name := (fieldOf type name).map fun field =>
    schema.getType field.2.type.namedType
  enterInline := schema.inlineFragmentType
  enterFragment name := schema.getType name

/-- The walk that looks at everything. -/
def plainWalk (β : Type*) : Walk β Unit where
  goOn _ _ := true
  enterField _ _ := some ()
  enterInline _ _ := ()
  enterFragment _ := ()

namespace Walk

variable {β τ : Type*} (w : Walk β τ) (fragments : List (FragmentDefinition β))

/-- The selections of a set that the walk looks at. -/
def walked (c : τ × List (Selection β)) : List (Selection β) := c.2.takeWhile (w.goOn c.1)

/-- Where the walk goes in with a fragment. -/
def fragmentCall (fragment : FragmentDefinition β) : τ × List (Selection β) :=
  (w.enterFragment fragment.typeCondition, fragment.selectionSet)

/-- Where the walk goes in at a selection. -/
def call (type : τ) : Selection β → Option (τ × List (Selection β))
  | .field _ name _ selectionSet => (w.enterField type name).map (·, selectionSet)
  | .fragmentSpread name _ => (getFragment fragments name).map w.fragmentCall
  | .inlineFragment typeCondition _ selectionSet =>
    some (w.enterInline type typeCondition, selectionSet)

/-- Where the walk goes in from a set. -/
def calls (c : τ × List (Selection β)) : List (τ × List (Selection β)) :=
  (w.walked c).filterMap (w.call fragments c.1)

/-- The walk nests less than `d` deep. -/
def Within : ℕ → τ × List (Selection β) → Prop
  | 0, _ => False
  | d + 1, c => ∀ c' ∈ w.calls fragments c, Within d c'

/-- The walk meets a spread of the fragment, before it goes into any. -/
inductive Meets : τ × List (Selection β) → String → Prop
  | spread {c : τ × List (Selection β)} {name : String} {info : β}
      {fragment : FragmentDefinition β} (hmem : .fragmentSpread name info ∈ w.walked c)
      (hfragment : getFragment fragments name = some fragment) : Meets c name
  | field {c : τ × List (Selection β)} {responseName : Option String} {name f : String} {info : β}
      {selectionSet : List (Selection β)} {type : τ}
      (hmem : .field responseName name info selectionSet ∈ w.walked c)
      (henter : w.enterField c.1 name = some type) (h : Meets (type, selectionSet) f) : Meets c f
  | inline {c : τ × List (Selection β)} {typeCondition : Option String} {f : String} {info : β}
      {selectionSet : List (Selection β)}
      (hmem : .inlineFragment typeCondition info selectionSet ∈ w.walked c)
      (h : Meets (w.enterInline c.1 typeCondition, selectionSet) f) : Meets c f

/-- The walk of a fragment meets another. -/
def Leads (f g : String) : Prop :=
  ∃ fragment, getFragment fragments f = some fragment ∧
    w.Meets fragments (w.fragmentCall fragment) g

/-- A fragment that the walk meets, now or later, leads back to itself. -/
def Entangled (c : τ × List (Selection β)) : Prop :=
  ∃ f g, w.Meets fragments c f ∧ Relation.ReflTransGen (w.Leads fragments) f g ∧
    Relation.TransGen (w.Leads fragments) g g

variable {w fragments} {c c' : τ × List (Selection β)} {d : ℕ}

theorem mem_calls :
    c' ∈ w.calls fragments c ↔ ∃ s ∈ w.walked c, w.call fragments c.1 s = some c' :=
  List.mem_filterMap

theorem mem_of_mem_walked {s : Selection β} (h : s ∈ w.walked c) : s ∈ c.2 :=
  (List.takeWhile_prefix _).subset h

theorem Within.succ : ∀ {d : ℕ} {c : τ × List (Selection β)}, w.Within fragments d c →
    w.Within fragments (d + 1) c
  | _ + 1, _, h => fun c' hc' => (h c' hc').succ

theorem Within.mono {d' : ℕ} (h : w.Within fragments d c) (hle : d ≤ d') :
    w.Within fragments d' c := by
  induction hle with
  | refl => exact h
  | step _ ih => exact ih.succ

/-! ### A walk that comes to an end -/

/-- A fragment that is met is walked less deep. -/
theorem Within.of_meets {f : String} (h : w.Meets fragments c f) :
    ∀ {d : ℕ}, w.Within fragments d c → ∃ fragment, getFragment fragments f = some fragment ∧
      ∃ d' < d, w.Within fragments d' (w.fragmentCall fragment) := by
  induction h with
  | @spread c name info fragment hmem hfragment =>
    rintro (_ | d) hwithin
    · cases hwithin
    · refine ⟨fragment, hfragment, d, d.lt_succ_self, hwithin _ (mem_calls.mpr ⟨_, hmem, ?_⟩)⟩
      rw [call, hfragment, Option.map_some]
  | @field c responseName name f info selectionSet type hmem henter _ ih =>
    rintro (_ | d) hwithin
    · cases hwithin
    · obtain ⟨fragment, hfragment, d', hlt, hd'⟩ := ih (d := d) (hwithin _ (mem_calls.mpr
        ⟨_, hmem, by rw [call, henter, Option.map_some]⟩))
      exact ⟨fragment, hfragment, d', by omega, hd'⟩
  | @inline c typeCondition f info selectionSet hmem _ ih =>
    rintro (_ | d) hwithin
    · cases hwithin
    · obtain ⟨fragment, hfragment, d', hlt, hd'⟩ := ih (d := d) (hwithin _ (mem_calls.mpr
        ⟨_, hmem, rfl⟩))
      exact ⟨fragment, hfragment, d', by omega, hd'⟩

/-- What a fragment leads to is walked less deep than the fragment. -/
theorem Within.of_leads {f g : String} (h : Relation.TransGen (w.Leads fragments) f g) :
    ∀ {fragment : FragmentDefinition β} {d : ℕ}, getFragment fragments f = some fragment →
      w.Within fragments d (w.fragmentCall fragment) →
      ∃ fragment', getFragment fragments g = some fragment' ∧
        ∃ d' < d, w.Within fragments d' (w.fragmentCall fragment') := by
  induction h with
  | single hleads =>
    rintro fragment d hfragment hwithin
    obtain ⟨fragment', hfragment', hmeets⟩ := hleads
    obtain rfl : fragment = fragment' := Option.some.inj (hfragment.symm.trans hfragment')
    exact hwithin.of_meets hmeets
  | tail _ hleads ih =>
    rintro fragment d hfragment hwithin
    obtain ⟨middle, hmiddle, d', hlt, hd'⟩ := ih hfragment hwithin
    obtain ⟨middle', hmiddle', hmeets⟩ := hleads
    obtain rfl : middle = middle' := Option.some.inj (hmiddle.symm.trans hmiddle')
    obtain ⟨fragment', hfragment', d'', hlt', hd''⟩ := hd'.of_meets hmeets
    exact ⟨fragment', hfragment', d'', hlt'.trans hlt, hd''⟩

/-- A fragment that is walked to its end does not lead to itself. -/
theorem Within.not_leads_self : ∀ {d : ℕ} {f : String} {fragment : FragmentDefinition β},
    getFragment fragments f = some fragment → w.Within fragments d (w.fragmentCall fragment) →
      ¬ Relation.TransGen (w.Leads fragments) f f := by
  intro d
  induction d using Nat.strong_induction_on with
  | _ d ih =>
    rintro f fragment hfragment hwithin hleads
    obtain ⟨fragment', hfragment', d', hlt, hd'⟩ := hwithin.of_leads hleads hfragment
    exact ih d' hlt hfragment' hd' hleads

theorem Within.not_entangled (h : w.Within fragments d c) : ¬ w.Entangled fragments c := by
  rintro ⟨f, g, hmeets, hreach, hcycle⟩
  obtain ⟨fragment, hfragment, d', -, hd'⟩ := h.of_meets hmeets
  rcases Relation.reflTransGen_iff_eq_or_transGen.mp hreach with rfl | hreach
  · exact hd'.not_leads_self hfragment hcycle
  · obtain ⟨fragment', hfragment', d'', -, hd''⟩ := hd'.of_leads hreach hfragment
    exact hd''.not_leads_self hfragment' hcycle

/-! ### A walk without a way back -/

theorem exists_within_calls : ∀ cs : List (τ × List (Selection β)),
    (∀ c' ∈ cs, ∃ d, w.Within fragments d c') → ∃ d, ∀ c' ∈ cs, w.Within fragments d c'
  | [], _ => ⟨0, fun _ h => absurd h List.not_mem_nil⟩
  | c :: cs, h => by
    obtain ⟨d, hd⟩ := h c List.mem_cons_self
    obtain ⟨d', hd'⟩ := exists_within_calls cs fun c' hc' => h c' (List.mem_cons_of_mem c hc')
    refine ⟨max d d', fun c' hc' => ?_⟩
    rcases List.mem_cons.mp hc' with rfl | hc'
    · exact hd.mono (le_max_left d d')
    · exact (hd' c' hc').mono (le_max_right d d')

/-- Between spreads a walk goes into ever smaller sets, so it comes to an end if those of the
fragments it meets do. -/
theorem exists_within_of_meets : ∀ (n : ℕ) (c : τ × List (Selection β)), sizeOf c.2 < n →
    (∀ f fragment, w.Meets fragments c f → getFragment fragments f = some fragment →
      ∃ d, w.Within fragments d (w.fragmentCall fragment)) → ∃ d, w.Within fragments d c
  | 0, c, hlt, _ => absurd hlt (Nat.not_lt_zero _)
  | n + 1, c, hlt, h => by
    have hcalls : ∀ c' ∈ w.calls fragments c, ∃ d, w.Within fragments d c' := by
      intro c' hc'
      obtain ⟨s, hs, hcall⟩ := mem_calls.mp hc'
      have hsize : sizeOf s < sizeOf c.2 := List.sizeOf_lt_of_mem (mem_of_mem_walked hs)
      cases s with
      | field responseName name info selectionSet =>
        obtain ⟨type, henter, rfl⟩ := Option.map_eq_some_iff.mp hcall
        rw [Selection.field.sizeOf_spec] at hsize
        refine exists_within_of_meets n (type, selectionSet) (by dsimp only; omega)
          fun f fragment hmeets => ?_
        exact h f fragment (Meets.field hs henter hmeets)
      | fragmentSpread name info =>
        obtain ⟨fragment, hfragment, rfl⟩ := Option.map_eq_some_iff.mp hcall
        exact h name fragment (Meets.spread hs hfragment) hfragment
      | inlineFragment typeCondition info selectionSet =>
        obtain rfl := Option.some.inj hcall
        rw [Selection.inlineFragment.sizeOf_spec] at hsize
        refine exists_within_of_meets n (_, selectionSet) (by dsimp only; omega)
          fun f fragment hmeets => ?_
        exact h f fragment (Meets.inline hs hmeets)
    obtain ⟨d, hd⟩ := exists_within_calls _ hcalls
    exact ⟨d + 1, hd⟩

theorem mem_of_getFragment {f : String} {fragment : FragmentDefinition β}
    (h : getFragment fragments f = some fragment) : f ∈ fragments.map (·.name) := by
  have hmem := List.mem_of_find?_eq_some h
  have hname : fragment.name = f := by simpa using List.find?_some h
  exact List.mem_map.mpr ⟨fragment, List.mem_reverse.mp hmem, hname⟩

/-- **A walk comes to an end** exactly when no fragment that it meets leads back to itself. -/
theorem exists_within_iff (c : τ × List (Selection β)) :
    (∃ d, w.Within fragments d c) ↔ ¬ w.Entangled fragments c := by
  refine ⟨fun ⟨d, hd⟩ => hd.not_entangled, fun hfree => ?_⟩
  -- the fragments met, of which there are finitely many; what one leads to is below it
  let Met : String → Prop := fun f => f ∈ fragments.map (·.name) ∧
    ∃ f₀, w.Meets fragments c f₀ ∧ Relation.ReflTransGen (w.Leads fragments) f₀ f
  let below : {f // Met f} → {f // Met f} → Prop := fun g f =>
    Relation.TransGen (w.Leads fragments) f.1 g.1
  have hfinite : Finite {f // Met f} := by
    have hnames : {f | f ∈ fragments.map (·.name)}.Finite := List.finite_toSet _
    exact hnames.subset fun f hf => hf.1
  have htrans : IsTrans {f // Met f} below := ⟨fun _ _ _ hab hbc => hbc.trans hab⟩
  have hirrefl : Std.Irrefl below :=
    ⟨fun f hf => hfree ⟨_, f.1, f.2.2.choose_spec.1, f.2.2.choose_spec.2, hf⟩⟩
  have hwf : WellFounded below := Finite.wellFounded_of_trans_of_irrefl below
  have hmet : ∀ f : {f // Met f}, ∀ fragment, getFragment fragments f.1 = some fragment →
      ∃ d, w.Within fragments d (w.fragmentCall fragment) := by
    intro f
    induction f using hwf.induction with
    | _ f ih =>
      intro fragment hfragment
      refine exists_within_of_meets _ _ (Nat.lt_succ_self _) fun g fragment' hmeets hfragment' => ?_
      obtain ⟨-, f₀, hmeets₀, hreach⟩ := f.2
      have hleads : w.Leads fragments f.1 g := ⟨fragment, hfragment, hmeets⟩
      exact ih ⟨g, mem_of_getFragment hfragment', f₀, hmeets₀, hreach.tail hleads⟩
        (Relation.TransGen.single hleads) fragment' hfragment'
  refine exists_within_of_meets _ c (Nat.lt_succ_self _) fun f fragment hmeets hfragment => ?_
  exact hmet ⟨f, mem_of_getFragment hfragment, f, hmeets, .refl⟩ fragment hfragment

end Walk

/-! ### Documents without fragment cycles -/

section Acyclic

variable {β τ : Type*} {w : Walk β τ} {fragments : List (FragmentDefinition β)}

/-- No fragment contains a spread of itself, at any remove. -/
def Acyclic (fragments : List (FragmentDefinition β)) : Prop :=
  ∀ f, ¬ Relation.TransGen ((plainWalk β).Leads fragments) f f

theorem walked_plainWalk (c : Unit × List (Selection β)) : (plainWalk β).walked c = c.2 :=
  List.takeWhile_eq_self_iff.mpr fun _ _ => rfl

theorem acyclic_nil : Acyclic ([] : List (FragmentDefinition β)) := by
  intro f h
  obtain ⟨g, ⟨fragment, hfragment, -⟩, -⟩ := Relation.TransGen.head'_iff.mp h
  cases hfragment

/-- What any walk meets is there. -/
theorem meets_plainWalk {c : τ × List (Selection β)} {f : String} (h : w.Meets fragments c f) :
    (plainWalk β).Meets fragments ((), c.2) f := by
  have hall : ∀ {c : τ × List (Selection β)} {s : Selection β}, s ∈ w.walked c →
      s ∈ (plainWalk β).walked ((), c.2) := by
    intro c s hs
    have hmem : s ∈ c.2 := Walk.mem_of_mem_walked hs
    rwa [walked_plainWalk]
  induction h with
  | spread hmem hfragment => exact Walk.Meets.spread (hall hmem) hfragment
  | field hmem _ _ ih => exact Walk.Meets.field (hall hmem) rfl ih
  | inline hmem _ ih => exact Walk.Meets.inline (hall hmem) ih

theorem leads_plainWalk {f g : String} (h : w.Leads fragments f g) :
    (plainWalk β).Leads fragments f g := by
  obtain ⟨fragment, hfragment, hmeets⟩ := h
  exact ⟨fragment, hfragment, meets_plainWalk hmeets⟩

/-- In a document without fragment cycles every walk comes to an end. -/
theorem Acyclic.exists_within (h : Acyclic fragments) (w : Walk β τ)
    (c : τ × List (Selection β)) : ∃ d, w.Within fragments d c := by
  refine (Walk.exists_within_iff c).mpr ?_
  rintro ⟨f, g, -, -, hcycle⟩
  exact h g (Relation.TransGen.lift id (fun _ _ => leads_plainWalk) _ _ hcycle)

/-! ### Inlining -/

/-- The selections with an inline fragment in the place of each spread. A spread of a fragment that
there is not is left out. -/
inductive Inlines (fragments : List (FragmentDefinition β)) :
    List (Selection β) → List (Selection β) → Prop
  | nil : Inlines fragments [] []
  | field {responseName : Option String} {name : String} {info : β}
      {selectionSet selectionSet' rest rest' : List (Selection β)}
      (h : Inlines fragments selectionSet selectionSet') (hrest : Inlines fragments rest rest') :
      Inlines fragments (.field responseName name info selectionSet :: rest)
        (.field responseName name info selectionSet' :: rest')
  | inline {typeCondition : Option String} {info : β}
      {selectionSet selectionSet' rest rest' : List (Selection β)}
      (h : Inlines fragments selectionSet selectionSet') (hrest : Inlines fragments rest rest') :
      Inlines fragments (.inlineFragment typeCondition info selectionSet :: rest)
        (.inlineFragment typeCondition info selectionSet' :: rest')
  | spread {name : String} {info : β} {fragment : FragmentDefinition β}
      {selectionSet' rest rest' : List (Selection β)}
      (hfragment : getFragment fragments name = some fragment)
      (h : Inlines fragments fragment.selectionSet selectionSet')
      (hrest : Inlines fragments rest rest') :
      Inlines fragments (.fragmentSpread name info :: rest)
        (.inlineFragment (some fragment.typeCondition) info selectionSet' :: rest')
  | unknown {name : String} {info : β} {rest rest' : List (Selection β)}
      (hfragment : getFragment fragments name = none) (hrest : Inlines fragments rest rest') :
      Inlines fragments (.fragmentSpread name info :: rest) rest'

/-- A document nested less than `d` deep can be inlined. -/
theorem Inlines.exists_of_within : ∀ {d : ℕ} {selections : List (Selection β)},
    (plainWalk β).Within fragments d ((), selections) →
      ∃ selections', Inlines fragments selections selections'
  | d + 1, selections, h => by
    have hcall : ∀ s ∈ selections, ∀ c, (plainWalk β).call fragments () s = some c →
        (plainWalk β).Within fragments d c := by
      intro s hs c hc
      refine h c (Walk.mem_calls.mpr ⟨s, ?_, hc⟩)
      rw [walked_plainWalk]
      exact hs
    clear h
    induction selections with
    | nil => exact ⟨[], .nil⟩
    | cons s rest ih =>
      obtain ⟨rest', hrest⟩ := ih fun s' hs' => hcall s' (List.mem_cons_of_mem s hs')
      have hs := hcall s List.mem_cons_self
      cases s with
      | field responseName name info selectionSet =>
        obtain ⟨selectionSet', h⟩ := Inlines.exists_of_within (hs ((), selectionSet) rfl)
        exact ⟨_, .field h hrest⟩
      | inlineFragment typeCondition info selectionSet =>
        obtain ⟨selectionSet', h⟩ := Inlines.exists_of_within (hs ((), selectionSet) rfl)
        exact ⟨_, .inline h hrest⟩
      | fragmentSpread name info =>
        rcases hfragment : getFragment fragments name with _ | fragment
        · exact ⟨_, .unknown hfragment hrest⟩
        · obtain ⟨selectionSet', h⟩ := Inlines.exists_of_within (hs ((), fragment.selectionSet)
            (by rw [Walk.call, hfragment]; rfl))
          exact ⟨_, .spread hfragment h hrest⟩

/-- There is one way to put the fragments in. -/
theorem Inlines.unique {selections inlined inlined' : List (Selection β)}
    (h : Inlines fragments selections inlined) (h' : Inlines fragments selections inlined') :
    inlined = inlined' := by
  induction h generalizing inlined' with
  | nil =>
    cases h'
    rfl
  | field _ _ ih ihrest =>
    cases h' with
    | field h hrest => rw [ih h, ihrest hrest]
  | inline _ _ ih ihrest =>
    cases h' with
    | inline h hrest => rw [ih h, ihrest hrest]
  | spread hfragment _ _ ih ihrest =>
    cases h' with
    | spread hfragment' h hrest =>
      obtain rfl := Option.some.inj (hfragment.symm.trans hfragment')
      rw [ih h, ihrest hrest]
    | unknown hfragment' _ =>
      rw [hfragment] at hfragment'
      cases hfragment'
  | unknown hfragment _ ihrest =>
    cases h' with
    | spread hfragment' _ _ =>
      rw [hfragment] at hfragment'
      cases hfragment'
    | unknown _ hrest => exact ihrest hrest

/-- **A document without fragment cycles can be inlined.** -/
theorem Inlines.exists_of_acyclic (h : Acyclic fragments) (selections : List (Selection β)) :
    ∃ selections', Inlines fragments selections selections' := by
  obtain ⟨d, hd⟩ := h.exists_within (plainWalk β) ((), selections)
  exact Inlines.exists_of_within hd

/-- The same selections in another order, at any depth. -/
inductive Reordered : List (Selection β) → List (Selection β) → Prop
  | nil : Reordered [] []
  | field {responseName : Option String} {name : String} {info : β}
      {selectionSet selectionSet' rest rest' : List (Selection β)}
      (h : Reordered selectionSet selectionSet') (hrest : Reordered rest rest') :
      Reordered (.field responseName name info selectionSet :: rest)
        (.field responseName name info selectionSet' :: rest')
  | inline {typeCondition : Option String} {info : β}
      {selectionSet selectionSet' rest rest' : List (Selection β)}
      (h : Reordered selectionSet selectionSet') (hrest : Reordered rest rest') :
      Reordered (.inlineFragment typeCondition info selectionSet :: rest)
        (.inlineFragment typeCondition info selectionSet' :: rest')
  | spread {name : String} {info : β} {rest rest' : List (Selection β)}
      (hrest : Reordered rest rest') :
      Reordered (.fragmentSpread name info :: rest) (.fragmentSpread name info :: rest')
  | swap (s t : Selection β) (rest : List (Selection β)) :
      Reordered (s :: t :: rest) (t :: s :: rest)
  | trans {selections selections' selections'' : List (Selection β)}
      (h : Reordered selections selections') (h' : Reordered selections' selections'') :
      Reordered selections selections''

theorem Inlines.reordered_refl {selections inlined : List (Selection β)}
    (h : Inlines fragments selections inlined) : Reordered inlined inlined := by
  induction h with
  | nil => exact .nil
  | field _ _ ih ihrest => exact .field ih ihrest
  | inline _ _ ih ihrest => exact .inline ih ihrest
  | spread _ _ _ ih ihrest => exact .inline ih ihrest
  | unknown _ _ ihrest => exact ihrest

end Acyclic

end Graphql

end Aixinwu
