import Aixinwu.Lib.Aggregates
import Aixinwu.Lib.Table
import Mathlib.Data.List.Basic
import Mathlib.Data.List.Dedup
import Mathlib.Data.List.Nodup
import Mathlib.Data.List.Perm.Subperm
import Mathlib.Data.List.Sort
import Mathlib.Tactic.Ring

/-!
# Nodes for global ids

`get_nodes` reads the objects that a list of global ids names. What it returns is a list of nodes, not
an answer for each id: every node comes once, in the order of the first position of its text among
the texts of the ids. So a caller that pairs the nodes with what it has for the ids gets what it
wants if the ids name different nodes, and comes out short if they do not
(`Returned.map_zip_perm_iff`).

## Two ids

Some models were moved from numbers to UUIDs, and keep the number as an old id. Their nodes can be
named by either. Such a node is looked for by its UUID if that is among the texts, else by its old id.

## What is a parameter

How a global id is taken apart, and which texts denote a number or a UUID. The text that `str` makes
of a number or a UUID denotes it again, but so may other texts; where one of these is used, the node
is found in the database and not among the texts, and the request fails.

## Main definitions

* `Texts`, `fromGlobalIdOrError`, `resolveGlobalIdsToPrimaryKeys`
* `getNodes`, `getNodesForTypesWithDoubleId`
* `denoted`, `denotedDouble` — the node that an id names
* `Returned` — what is returned for a list of ids

## Main results

* `sortByPosition_eq` — different nodes come in the order of their texts
* `returned_getNodes`, `returned_getNodesForTypesWithDoubleId`
* `Returned.map_zip_perm_iff` — pairing the nodes with the entries of a request
-/

namespace Aixinwu

namespace Nodes

/-! ### Texts -/

/-- What denotes what: `graphene.Node.from_global_id`, `int`, `UUID` and `str` of a UUID, `none` where
they raise. Old ids are below `2 ^ 31`. -/
structure Texts where
  fromGlobalId : String → Option (String × String)
  int : String → Option ℤ
  uuid : String → Option ℕ
  str : ℕ → String
  fromGlobalId_empty : fromGlobalId "" = none
  int_empty : int "" = none
  uuid_empty : uuid "" = none
  int_toString : ∀ n : ℕ, int (toString n) = some (n : ℤ)
  uuid_str : ∀ u, uuid (str u) = some u
  int_str : ∀ u, int (str u) = none
  uuid_toString : ∀ n < 2 ^ 31, uuid (toString n) = none

/-- The number that digits denote. -/
def numberOf (cs : List Char) : Option ℕ :=
  if cs ≠ [] ∧ cs.all Char.isDigit then some (Nat.ofDigitChars 10 cs 0) else none

@[simp] theorem numberOf_toString (n : ℕ) : numberOf (toString n).toList = some n := by
  have hdigits : (toString n).toList = Nat.toDigits 10 n := Nat.toList_repr
  have hne : Nat.toDigits 10 n ≠ [] := fun h => Nat.repr_ne_empty
    (String.toList_inj.mp (Nat.toList_repr.trans h))
  have hall : (Nat.toDigits 10 n).all Char.isDigit = true :=
    List.all_eq_true.mpr fun c hc => Nat.isDigit_of_mem_toDigits (by decide) (by decide) hc
  rw [hdigits, numberOf, if_pos ⟨hne, hall⟩, Nat.ofDigitChars_ten_toDigits]

/-- The canonical text of a UUID below ten starts with this. -/
def uuidPrefix : List Char := "00000000-0000-0000-0000-00000000000".toList

/-- Texts with these global ids, where numbers are their digits and the UUIDs are small. -/
def Texts.small (fromGlobalId : String → Option (String × String)) (h : fromGlobalId "" = none) :
    Texts where
  fromGlobalId := fromGlobalId
  int t := (numberOf t.toList).map fun n => (n : ℤ)
  uuid t := if uuidPrefix <+: t.toList then numberOf (t.toList.drop uuidPrefix.length) else none
  str u := String.ofList uuidPrefix ++ toString u
  fromGlobalId_empty := h
  int_empty := rfl
  uuid_empty := by decide
  int_toString n := by rw [numberOf_toString]; rfl
  uuid_str u := by
    rw [String.toList_append, String.toList_ofList, if_pos (List.prefix_append _ _),
      List.drop_left, numberOf_toString]
  int_str u := by
    have hdash : '-' ∈ (String.ofList uuidPrefix ++ toString u).toList := by
      rw [String.toList_append, String.toList_ofList]
      exact List.mem_append_left _ (by decide)
    have hnot : ¬ (String.ofList uuidPrefix ++ toString u).toList.all Char.isDigit = true :=
      fun h => absurd (List.all_eq_true.mp h '-' hdash) (by decide)
    rw [numberOf, if_neg fun h => hnot h.2]
    rfl
  uuid_toString n _ := by
    refine if_neg fun hprefix => ?_
    have hdash : '-' ∈ Nat.toDigits 10 n := by
      rw [← Nat.toList_repr]
      exact hprefix.subset (by decide)
    exact absurd (Nat.isDigit_of_mem_toDigits (by decide) (by decide) hdash) (by decide)

/-- How reading nodes can fail. -/
inductive Failure where
  | invalidId (globalId : String)
  | couldNotResolve (ids : List String)
  | mustReceive (type globalId : String)
  | valueError
  | assertionError
deriving DecidableEq, Repr

variable (texts : Texts)

/-- `from_global_id_or_error` without a type: the type, and the id, which is an int or a UUID. -/
def fromGlobalIdOrError (globalId : String) : Option (String × String) :=
  match texts.fromGlobalId globalId with
  | none => none
  | some (type, id) =>
    if type = "app" then some (type, globalId)
    else if texts.int id = none ∧ texts.uuid id = none then none
    else some (type, id)

/-- The loop of `resolve_global_ids_to_primary_keys`: the texts of the ids, and the invalid ids. -/
def resolveLoop (type : String) : List String → Except Failure (List String × List String)
  | [] => .ok ([], [])
  | globalId :: ids =>
    if globalId = "" then (resolveLoop type ids).map fun r => (r.1, globalId :: r.2)
    else
      match fromGlobalIdOrError texts globalId with
      | none => (resolveLoop type ids).map fun r => (r.1, globalId :: r.2)
      | some (nodeType, id) =>
        if nodeType ≠ type then .error (.mustReceive type globalId)
        else (resolveLoop type ids).map fun r => (id :: r.1, r.2)

/-- `resolve_global_ids_to_primary_keys`. -/
def resolveGlobalIdsToPrimaryKeys (type : String) (ids : List String) : Except Failure (List String) :=
  (resolveLoop texts type ids).bind fun r =>
    if r.2 ≠ [] then .error (.couldNotResolve r.2) else .ok r.1

/-- The text of an id of the type. -/
def pkText (type globalId : String) : Option String :=
  match fromGlobalIdOrError texts globalId with
  | none => none
  | some (nodeType, id) => if globalId = "" ∨ nodeType ≠ type then none else some id

/-- **The texts of a request** are those of its ids, and every id has one. -/
theorem resolveGlobalIdsToPrimaryKeys_eq_ok {texts : Texts} {type : String} {ids pks : List String}
    (h : resolveGlobalIdsToPrimaryKeys texts type ids = .ok pks) :
    ids.map (pkText texts type) = pks.map some := by
  have hloop : ∀ (ids : List String) {r : List String × List String},
      resolveLoop texts type ids = .ok r → r.2 = [] → ids.map (pkText texts type) = r.1.map some := by
    intro ids
    induction ids with
    | nil =>
      intro r hr _
      rw [← Except.ok.inj hr]
      rfl
    | cons globalId ids ih =>
      intro r hr hvalid
      rw [resolveLoop] at hr
      by_cases hempty : globalId = ""
      · rw [if_pos hempty] at hr
        cases hrest : resolveLoop texts type ids with
        | error e => rw [hrest] at hr; cases hr
        | ok rest =>
          rw [hrest] at hr
          rw [← Except.ok.inj hr] at hvalid
          cases hvalid
      · rw [if_neg hempty] at hr
        cases hid : fromGlobalIdOrError texts globalId with
        | none =>
          rw [hid] at hr
          cases hrest : resolveLoop texts type ids with
          | error e => rw [hrest] at hr; cases hr
          | ok rest =>
            rw [hrest] at hr
            rw [← Except.ok.inj hr] at hvalid
            cases hvalid
        | some parts =>
          rw [hid] at hr
          dsimp only at hr
          by_cases htype : parts.1 ≠ type
          · rw [if_pos htype] at hr
            cases hr
          · rw [if_neg htype] at hr
            cases hrest : resolveLoop texts type ids with
            | error e => rw [hrest] at hr; cases hr
            | ok rest =>
              rw [hrest] at hr
              obtain rfl := Except.ok.inj hr
              have hfirst : pkText texts type globalId = some parts.2 := by
                rw [pkText, hid]
                exact if_neg (not_or.mpr ⟨hempty, htype⟩)
              rw [List.map_cons, hfirst, ih hrest hvalid]
              rfl
  rw [resolveGlobalIdsToPrimaryKeys] at h
  cases hr : resolveLoop texts type ids with
  | error e => rw [hr] at h; cases h
  | ok r =>
    rw [hr, Except.bind] at h
    by_cases hinvalid : r.2 ≠ []
    · rw [if_pos hinvalid] at h
      cases h
    · rw [if_neg hinvalid] at h
      rw [← Except.ok.inj h]
      exact hloop ids hr (not_ne_iff.mp hinvalid)

/-! ### In the order of the texts -/

section Positions

variable {ρ : Type*}

/-- `nodes.sort(key=lambda e: pks.index(key(e)))`. -/
def sortByPosition (pks : List String) (key : ρ → String) (nodes : List ρ) :
    Except Failure (List ρ) :=
  if ∀ node ∈ nodes, key node ∈ pks then
    .ok (nodes.insertionSort fun a b => pks.idxOf (key a) ≤ pks.idxOf (key b))
  else .error .valueError

variable {pks : List String} {key : ρ → String} {nodes sorted ds : List ρ}

theorem perm_of_sortByPosition (h : sortByPosition pks key nodes = .ok sorted) :
    sorted.Perm nodes := by
  rw [sortByPosition] at h
  split at h
  · rw [← Except.ok.inj h]
    exact List.perm_insertionSort _ nodes
  · cases h

theorem pairwise_of_sortByPosition (h : sortByPosition pks key nodes = .ok sorted) :
    sorted.Pairwise fun a b => pks.idxOf (key a) ≤ pks.idxOf (key b) := by
  rw [sortByPosition] at h
  split at h
  · rw [← Except.ok.inj h]
    have : Std.Total fun a b : ρ => pks.idxOf (key a) ≤ pks.idxOf (key b) :=
      ⟨fun a b => le_total _ _⟩
    have : IsTrans ρ fun a b => pks.idxOf (key a) ≤ pks.idxOf (key b) :=
      ⟨fun a b c => le_trans⟩
    exact List.pairwise_insertionSort _ nodes
  · cases h

/-- **Different nodes come in the order of their texts.** -/
theorem sortByPosition_eq (h : sortByPosition pks key nodes = .ok sorted) (hnodes : nodes.Nodup)
    (hpks : pks.Nodup) (hkey : ds.map key = pks) (hmem : ∀ node, node ∈ nodes ↔ node ∈ ds) :
    sorted = ds := by
  have hds : ds.Nodup := List.Nodup.of_map key (hkey ▸ hpks)
  have hperm : sorted.Perm ds :=
    (perm_of_sortByPosition h).trans ((List.perm_ext_iff_of_nodup hnodes hds).mpr hmem)
  have hpairwise : ds.Pairwise fun a b => pks.idxOf (key a) ≤ pks.idxOf (key b) := by
    rw [List.pairwise_iff_getElem]
    intro i j hi hj hij
    have hidx : ∀ k (hk : k < ds.length), pks.idxOf (key ds[k]) = k := by
      intro k hk
      subst hkey
      have hidx := hpks.idxOf_getElem k (by rwa [List.length_map])
      rwa [List.getElem_map] at hidx
    rw [hidx i hi, hidx j hj]
    exact hij.le
  refine hperm.eq_of_pairwise (fun a b ha hb hab hba => ?_) (pairwise_of_sortByPosition h) hpairwise
  have ha' : a ∈ ds := hperm.mem_iff.mp ha
  have hin : ∀ c ∈ ds, key c ∈ pks := fun c hc => hkey ▸ List.mem_map_of_mem hc
  have heq := (List.idxOf_inj (hin a ha')).mp (le_antisymm hab hba)
  exact List.inj_on_of_nodup_map (hkey ▸ hpks) ha' hb heq

end Positions

/-! ### Numbers -/

section Number

variable {ρ : Type} [HasPk ρ ℕ] (type : String) (rows : Table ρ) (ids : List String)

/-- `get_nodes` for a model whose primary keys are numbers. -/
def getNodes : Except Failure (List ρ) :=
  (resolveGlobalIdsToPrimaryKeys texts type ids).bind fun pks =>
    match pks.mapM texts.int with
    | none => .error .valueError
    | some ints =>
      (sortByPosition pks (fun e => toString (pk e))
          (rows.rows.filter fun e => ((pk e : ℕ) : ℤ) ∈ ints)).bind fun nodes =>
        if nodes.isEmpty then .error (.couldNotResolve ids)
        else if ∀ t ∈ pks, t ∈ nodes.map fun e => toString (pk e) then .ok nodes
        else .error .assertionError

/-- The node that an id names. -/
def denoted (globalId : String) : Option ρ :=
  (pkText texts type globalId).bind fun t =>
    rows.rows.find? fun e => texts.int t = some ((pk e : ℕ) : ℤ)

end Number

/-! ### UUIDs and old ids -/

/-- A model whose old ids are unique and below `2 ^ 31`. -/
structure DoubleTable (ρ : Type) [HasPk ρ ℕ] (oldId : ρ → Option ℕ) extends Table ρ where
  oldId_unique : ∀ a ∈ rows, ∀ b ∈ rows, ∀ n, oldId a = some n → oldId b = some n → a = b
  oldId_lt : ∀ a ∈ rows, ∀ n, oldId a = some n → n < 2 ^ 31

section Double

variable {ρ : Type} [HasPk ρ ℕ] {oldId : ρ → Option ℕ} (type : String) (rows : DoubleTable ρ oldId)
  (ids : List String)

/-- `str(node.pk) if node.pk in uuid_pks else str(node.old_id)`. -/
def doubleKey (oldId : ρ → Option ℕ) (uuids : List ℕ) (node : ρ) : String :=
  if pk node ∈ uuids then texts.str (pk node)
  else
    match oldId node with
    | some n => toString n
    | none => "None"

/-- `get_nodes` for a model with two ids, with `_get_node_for_types_with_double_id`. A text is an int
or a UUID, so that a node without an old id is none of `"None"`. -/
def getNodesForTypesWithDoubleId : Except Failure (List ρ) :=
  (resolveGlobalIdsToPrimaryKeys texts type ids).bind fun pks =>
    let uuids := pks.filterMap texts.uuid
    match (pks.filter fun t => texts.uuid t = none).mapM texts.int with
    | none => .error .valueError
    | some olds =>
      (sortByPosition pks (doubleKey texts oldId uuids)
          (rows.rows.filter fun e => pk e ∈ uuids ∨ (oldId e).any fun n : ℕ => (n : ℤ) ∈ olds)).bind
        fun nodes =>
          if nodes.isEmpty then .error (.couldNotResolve ids)
          else if ∀ t ∈ pks, t ∈ nodes.map (fun e => texts.str (pk e)) ++
              nodes.filterMap fun e => (oldId e).map toString then .ok nodes
          else .error .assertionError

/-- The node that an id names: by its UUID, or by its old id. -/
def denotedDouble (globalId : String) : Option ρ :=
  (pkText texts type globalId).bind fun t =>
    match texts.uuid t with
    | some u => rows.rows.find? fun e => pk e = u
    | none => rows.rows.find? fun e => (oldId e).any fun n : ℕ => texts.int t = some (n : ℤ)

end Double

/-! ### What is returned -/

section Returned

variable {texts : Texts} {ρ : Type} {type : String} {ids : List String} {nodes : List ρ}

/-- What a list of ids names, against the nodes that are returned: the same, each once; and in their
order, if none is named twice. -/
structure Returned (named : String → Option ρ) (ids : List String) (nodes : List ρ) : Prop where
  nodup : nodes.Nodup
  exists_named : ∃ ds, ids.map named = ds.map some ∧ (∀ node, node ∈ nodes ↔ node ∈ ds) ∧
    (ds.Nodup → nodes = ds)

/-- The one row that something is true of is found. -/
theorem find?_eq_some_of_unique {rows : List ρ} {p : ρ → Bool} {row : ρ} (hrow : row ∈ rows)
    (hp : p row = true) (hunique : ∀ other ∈ rows, p other = true → other = row) :
    rows.find? p = some row := by
  cases hfind : rows.find? p with
  | none => exact absurd hp (List.find?_eq_none.mp hfind row hrow)
  | some found =>
    rw [hunique found (List.mem_of_find?_eq_some hfind) (List.find?_some hfind)]

/-- Rows for the members of a list, one for each. -/
theorem exists_forall₂ {α : Type} {R : α → ρ → Prop} {l : List α} (h : ∀ a ∈ l, ∃ b, R a b) :
    ∃ bs, List.Forall₂ R l bs := by
  induction l with
  | nil => exact ⟨[], .nil⟩
  | cons a l ih =>
    obtain ⟨b, hb⟩ := h a List.mem_cons_self
    obtain ⟨bs, hbs⟩ := ih fun a' ha' => h a' (List.mem_cons_of_mem _ ha')
    exact ⟨b :: bs, .cons hb hbs⟩

theorem exists_mem_left {α : Type} {R : α → ρ → Prop} {l : List α} {bs : List ρ}
    (h : List.Forall₂ R l bs) {b : ρ} (hb : b ∈ bs) : ∃ a ∈ l, R a b := by
  induction h with
  | nil => cases hb
  | cons hab _ ih =>
    rcases List.mem_cons.mp hb with rfl | hb
    · exact ⟨_, List.mem_cons_self, hab⟩
    · obtain ⟨a, ha, hab'⟩ := ih hb
      exact ⟨a, List.mem_cons_of_mem _ ha, hab'⟩

theorem exists_mem_right {α : Type} {R : α → ρ → Prop} {l : List α} {bs : List ρ}
    (h : List.Forall₂ R l bs) {a : α} (ha : a ∈ l) : ∃ b ∈ bs, R a b :=
  exists_mem_left h.flip ha

theorem map_eq_map_some {α : Type} {f : α → Option ρ} {l : List α} {bs : List ρ}
    (h : List.Forall₂ (fun a b => f a = some b) l bs) : l.map f = bs.map some := by
  induction h with
  | nil => rfl
  | cons hab _ ih => rw [List.map_cons, List.map_cons, hab, ih]

theorem map_key_eq {key : ρ → String} {pks : List String} {ds : List ρ}
    (h : List.Forall₂ (fun t d => key d = t) pks ds) : ds.map key = pks := by
  induction h with
  | nil => rfl
  | cons hab _ ih => rw [List.map_cons, hab, ih]

/-- What the ids of a request name, by their texts. -/
theorem map_named {named : String → Option ρ} {f : String → Option ρ} {pks : List String}
    {ds : List ρ} (hids : ids.map (pkText texts type) = pks.map some)
    (hnamed : ∀ globalId, named globalId = (pkText texts type globalId).bind f)
    (h : List.Forall₂ (fun t d => f t = some d) pks ds) : ids.map named = ds.map some := by
  calc ids.map named = (ids.map (pkText texts type)).map fun t => t.bind f := by
        rw [List.map_map]
        exact List.map_congr_left fun globalId _ => hnamed globalId
    _ = pks.map f := by
        rw [hids, List.map_map]
        exact List.map_congr_left fun t _ => Option.bind_some t f
    _ = ds.map some := map_eq_map_some h

theorem exists_mem_zip {α : Type} {as : List α} {bs : List ρ} (hlength : as.length = bs.length)
    {a : α} (ha : a ∈ as) : ∃ b, (a, b) ∈ as.zip bs := by
  obtain ⟨i, hi, rfl⟩ := List.getElem_of_mem ha
  refine ⟨bs[i], List.mem_iff_getElem.mpr ⟨i, ?_, List.getElem_zip⟩⟩
  rw [List.length_zip, ← hlength, min_self]
  exact hi

/-- A member that stands once is paired once. -/
theorem fst_eq_of_mem_zip {α : Type} {as : List α} {bs : List ρ} (hbs : bs.Nodup) {a a' : α} {b : ρ}
    (h : (a, b) ∈ as.zip bs) (h' : (a', b) ∈ as.zip bs) : a = a' := by
  obtain ⟨i, hi, hab⟩ := List.getElem_of_mem h
  obtain ⟨j, hj, hab'⟩ := List.getElem_of_mem h'
  rw [List.getElem_zip, Prod.mk.injEq] at hab hab'
  obtain rfl := (hbs.getElem_inj_iff).mp (hab.2.trans hab'.2.symm)
  exact hab.1.symm.trans hab'.1

/-- Nodes paired with data. -/
theorem map_zip_eq {ε δ : Type} {named : ε → Option ρ} (data : ε → δ) :
    ∀ {entries : List ε} {ds : List ρ}, entries.map named = ds.map some →
      (ds.zip entries).map (fun p => (some p.1, data p.2)) = entries.map fun e => (named e, data e)
  | [], [], _ => rfl
  | [], _ :: _, h => by cases h
  | _ :: _, [], h => by cases h
  | e :: entries, d :: ds, h => by
    rw [List.map_cons, List.map_cons, List.cons.injEq] at h
    rw [List.zip_cons_cons, List.map_cons, List.map_cons, map_zip_eq data h.2, h.1]

/-- **Pairing the nodes with what there is for the ids** is right if and only if no node is named
twice. -/
theorem Returned.map_zip_perm_iff {ε δ : Type} {named : String → Option ρ} {id : ε → String}
    {entries : List ε} (data : ε → δ) (h : Returned named (entries.map id) nodes) :
    ((nodes.zip entries).map fun p => (some p.1, data p.2)).Perm
        (entries.map fun e => (named (id e), data e)) ↔
      (entries.map fun e => named (id e)).Nodup := by
  obtain ⟨hnodup, ds, hds, hmem, heq⟩ := h
  rw [List.map_map] at hds
  have hdsnodup : (entries.map fun e => named (id e)).Nodup ↔ ds.Nodup := by
    have hmap : (entries.map fun e => named (id e)) = ds.map some := hds
    rw [hmap, List.nodup_map_iff (Option.some_injective ρ)]
  rw [hdsnodup]
  refine ⟨fun hperm => ?_, fun hd => ?_⟩
  · by_contra hrepeated
    have hsub := List.subperm_of_subset hnodup fun node hnode => (hmem node).mp hnode
    have hlt : nodes.length < ds.length := lt_of_le_of_ne hsub.length_le fun hlen =>
      hrepeated ((hsub.perm_of_length_le hlen.ge).nodup_iff.mp hnodup)
    have hentries : entries.length = ds.length := by
      have hlen := congrArg List.length hds
      rwa [List.length_map, List.length_map] at hlen
    have hlen := hperm.length_eq
    rw [List.length_map, List.length_map, List.length_zip, hentries] at hlen
    omega
  · rw [heq hd]
    exact List.Perm.of_eq (map_zip_eq data hds)

/-- The keys of a query that can all be read are those that are read. -/
theorem mapM_read {α : Type} (read : String → Option α) (ts : List String) :
    ts.mapM read = if ∀ t ∈ ts, (read t).isSome then some (ts.filterMap read) else none := by
  induction ts with
  | nil => rfl
  | cons t ts ih =>
    rw [List.mapM_cons, ih]
    cases hread : read t with
    | none =>
      have hnot : ¬ ∀ t' ∈ t :: ts, (read t').isSome := by
        intro h
        have hfirst := h t List.mem_cons_self
        rw [hread] at hfirst
        cases hfirst
      rw [if_neg hnot]
      rfl
    | some a =>
      by_cases hrest : ∀ t ∈ ts, (read t).isSome
      · rw [if_pos hrest, if_pos (List.forall_mem_cons.mpr ⟨by rw [hread]; rfl, hrest⟩),
          List.filterMap_cons_some hread]
        rfl
      · rw [if_neg hrest, if_neg fun h => hrest (List.forall_mem_cons.mp h).2]
        rfl

theorem filterMap_of_mapM {α : Type} {read : String → Option α} {ts : List String} {as : List α}
    (h : ts.mapM read = some as) : as = ts.filterMap read := by
  rw [mapM_read] at h
  split at h
  · exact (Option.some.inj h).symm
  · cases h

/-- An id names what is returned. -/
theorem Returned.exists_node {named : String → Option ρ} (h : Returned named ids nodes)
    {globalId : String} (hid : globalId ∈ ids) : ∃ node ∈ nodes, named globalId = some node := by
  obtain ⟨-, ds, hds, hmem, -⟩ := h
  have hsome : named globalId ∈ ds.map some := hds ▸ List.mem_map_of_mem hid
  obtain ⟨d, hd, heq⟩ := List.mem_map.mp hsome
  exact ⟨d, (hmem d).mpr hd, heq.symm⟩

/-- What is returned is named by an id. -/
theorem Returned.exists_id {named : String → Option ρ} (h : Returned named ids nodes) {node : ρ}
    (hnode : node ∈ nodes) : ∃ globalId ∈ ids, named globalId = some node := by
  obtain ⟨-, ds, hds, hmem, -⟩ := h
  have hsome : some node ∈ ids.map named := hds ▸ List.mem_map_of_mem ((hmem node).mp hnode)
  exact List.mem_map.mp hsome

variable [HasPk ρ ℕ]

theorem eq_of_int_eq {t : String} {n m : ℕ} (hn : texts.int t = some (n : ℤ))
    (hm : texts.int t = some (m : ℤ)) : n = m :=
  Nat.cast_inj.mp (Option.some.inj (hn.symm.trans hm))

/-- **Reading nodes whose primary keys are numbers.** -/
theorem returned_getNodes {rows : Table ρ} (h : getNodes texts type rows ids = .ok nodes) :
    Returned (denoted texts type rows) ids nodes ∧ ∀ node ∈ nodes, node ∈ rows := by
  obtain ⟨pks, hpks, h⟩ := exists_of_bind_eq_ok h
  have hids := resolveGlobalIdsToPrimaryKeys_eq_ok hpks
  cases hints : pks.mapM texts.int with
  | none => rw [hints] at h; cases h
  | some ints =>
    rw [hints] at h
    obtain ⟨nodes', hsort, h⟩ := exists_of_bind_eq_ok h
    split at h
    · cases h
    split at h
    · rename_i hall
      obtain rfl := Except.ok.inj h
      have hperm := perm_of_sortByPosition hsort
      have hfilter := rows.nodup.of_map.filter fun e => ((pk e : ℕ) : ℤ) ∈ ints
      have hrows : ∀ node ∈ nodes', node ∈ rows.rows := fun node hnode =>
        List.mem_of_mem_filter (hperm.mem_iff.mp hnode)
      have hread : ∀ t ∈ pks, ∃ d, d ∈ nodes' ∧ toString (pk d) = t := fun t ht => by
        obtain ⟨d, hd, heq⟩ := List.mem_map.mp (hall t ht)
        exact ⟨d, hd, heq⟩
      obtain ⟨ds, hds⟩ := exists_forall₂ hread
      have hkey := map_key_eq (hds.imp fun _ _ h => h.2)
      have hint : ∀ t d, d ∈ nodes' ∧ toString (pk d) = t → texts.int t = some ((pk d : ℕ) : ℤ) :=
        fun t d h => h.2 ▸ texts.int_toString (pk d)
      have hmem : ∀ node, node ∈ nodes' ↔ node ∈ ds := by
        intro node
        refine ⟨fun hnode => ?_, fun hnode => ?_⟩
        · have hin := (List.mem_filter.mp (hperm.mem_iff.mp hnode)).2
          rw [decide_eq_true_eq, filterMap_of_mapM hints] at hin
          obtain ⟨t, ht, hpk⟩ := List.mem_filterMap.mp hin
          obtain ⟨d, hd, hR⟩ := exists_mem_right hds ht
          rw [Table.eq_of_pk_eq (hrows node hnode) (hrows d hR.1) (eq_of_int_eq hpk (hint t d hR))]
          exact hd
        · obtain ⟨t, -, hR⟩ := exists_mem_left hds hnode
          exact hR.1
      refine ⟨⟨hperm.nodup_iff.mpr hfilter, ds, ?_, hmem, fun hnodup => ?_⟩, hrows⟩
      · refine map_named hids (fun _ => rfl) (hds.imp fun t d hR => ?_)
        refine find?_eq_some_of_unique (hrows d hR.1) (decide_eq_true (hint t d hR)) ?_
        intro other hother hp
        exact Table.eq_of_pk_eq hother (hrows d hR.1)
          (eq_of_int_eq (of_decide_eq_true hp) (hint t d hR))
      · refine sortByPosition_eq hsort hfilter (hkey ▸ ?_) hkey fun node => ?_
        · refine hnodup.map_on fun a ha b hb heq => ?_
          refine Table.eq_of_pk_eq (hrows a ((hmem a).mpr ha)) (hrows b ((hmem b).mpr hb)) ?_
          exact eq_of_int_eq (texts.int_toString (pk a)) (heq ▸ texts.int_toString (pk b))
        · rw [← hperm.mem_iff]
          exact hmem node
    · cases h

/-- The text of an id is that of a primary key: another text of the number is not accepted. -/
theorem exists_node_of_getNodes {rows : Table ρ} (h : getNodes texts type rows ids = .ok nodes)
    {globalId : String} (hid : globalId ∈ ids) :
    ∃ node ∈ nodes, pkText texts type globalId = some (toString (pk node)) := by
  obtain ⟨pks, hpks, h⟩ := exists_of_bind_eq_ok h
  have hids := resolveGlobalIdsToPrimaryKeys_eq_ok hpks
  cases hints : pks.mapM texts.int with
  | none => rw [hints] at h; cases h
  | some ints =>
    rw [hints] at h
    obtain ⟨nodes', -, h⟩ := exists_of_bind_eq_ok h
    split at h
    · cases h
    split at h
    · rename_i hall
      obtain rfl := Except.ok.inj h
      have hmem : pkText texts type globalId ∈ pks.map some := hids ▸ List.mem_map_of_mem hid
      obtain ⟨t, ht, hpk⟩ := List.mem_map.mp hmem
      obtain ⟨node, hnode, rfl⟩ := List.mem_map.mp (hall t ht)
      exact ⟨node, hnode, hpk.symm⟩
    · cases h

/-- A node that is returned has an id with the text of its primary key. -/
theorem exists_id_of_getNodes {rows : Table ρ} (h : getNodes texts type rows ids = .ok nodes)
    {node : ρ} (hnode : node ∈ nodes) :
    ∃ globalId ∈ ids, pkText texts type globalId = some (toString (pk node)) := by
  obtain ⟨globalId, hid, hnamed⟩ := (returned_getNodes h).1.exists_id hnode
  obtain ⟨other, -, hpk⟩ := exists_node_of_getNodes h hid
  refine ⟨globalId, hid, ?_⟩
  rw [denoted, hpk, Option.bind_some] at hnamed
  have hint : texts.int (toString (pk other)) = some ((pk node : ℕ) : ℤ) := by
    simpa only [decide_eq_true_eq] using List.find?_some hnamed
  rw [hpk, eq_of_int_eq (texts.int_toString (pk other)) hint]

/-- The text that an accepted id has. -/
def IsTextOf (texts : Texts) (oldId : ρ → Option ℕ) (t : String) (node : ρ) : Prop :=
  t = texts.str (pk node) ∨ ∃ n, oldId node = some n ∧ t = toString n

section Double

variable {oldId : ρ → Option ℕ} {rows : DoubleTable ρ oldId}

theorem uuid_of_isTextOf {t : String} {node : ρ} {u : ℕ} (hnode : node ∈ rows.rows)
    (h : IsTextOf texts oldId t node) (hu : texts.uuid t = some u) :
    u = pk node ∧ t = texts.str (pk node) := by
  rcases h with rfl | ⟨n, hn, rfl⟩
  · rw [texts.uuid_str] at hu
    exact ⟨(Option.some.inj hu).symm, rfl⟩
  · rw [texts.uuid_toString n (rows.oldId_lt node hnode n hn)] at hu
    cases hu

theorem old_of_isTextOf {t : String} {node : ρ} (h : IsTextOf texts oldId t node)
    (hu : texts.uuid t = none) : ∃ n, oldId node = some n ∧ t = toString n := by
  rcases h with rfl | hold
  · rw [texts.uuid_str] at hu
    cases hu
  · exact hold

/-- The node that such a text names. -/
theorem find?_of_isTextOf {t : String} {node : ρ} (hnode : node ∈ rows.rows)
    (h : IsTextOf texts oldId t node) :
    (match texts.uuid t with
      | some u => rows.rows.find? fun e => pk e = u
      | none => rows.rows.find? fun e => (oldId e).any fun n : ℕ => texts.int t = some (n : ℤ))
      = some node := by
  cases hu : texts.uuid t with
  | some u =>
    refine find?_eq_some_of_unique hnode (decide_eq_true (uuid_of_isTextOf hnode h hu).1.symm) ?_
    intro other hother hp
    exact Table.eq_of_pk_eq hother hnode ((of_decide_eq_true hp).trans (uuid_of_isTextOf hnode h hu).1)
  | none =>
    obtain ⟨n, hn, rfl⟩ := old_of_isTextOf h hu
    refine find?_eq_some_of_unique hnode ?_ fun other hother hp => ?_
    · rw [hn]
      exact decide_eq_true (texts.int_toString n)
    · obtain ⟨m, hm, hint⟩ := (Option.any_eq_true _ _).mp hp
      refine rows.oldId_unique other hother node hnode n ?_ hn
      rw [hm, eq_of_int_eq (of_decide_eq_true hint) (texts.int_toString n)]

/-- **Reading nodes that have two ids.** -/
theorem returned_getNodesForTypesWithDoubleId
    (h : getNodesForTypesWithDoubleId texts type rows ids = .ok nodes) :
    Returned (denotedDouble texts type rows) ids nodes ∧ ∀ node ∈ nodes, node ∈ rows.toTable := by
  obtain ⟨pks, hpks, h⟩ := exists_of_bind_eq_ok h
  have hids := resolveGlobalIdsToPrimaryKeys_eq_ok hpks
  dsimp only at h
  cases holds : (pks.filter fun t => texts.uuid t = none).mapM texts.int with
  | none => rw [holds] at h; cases h
  | some olds =>
    rw [holds] at h
    obtain ⟨nodes', hsort, h⟩ := exists_of_bind_eq_ok h
    split at h
    · cases h
    split at h
    · rename_i hall
      obtain rfl := Except.ok.inj h
      have hperm := perm_of_sortByPosition hsort
      have hfilter := rows.nodup.of_map.filter fun e =>
        pk e ∈ pks.filterMap texts.uuid ∨ (oldId e).any fun n : ℕ => (n : ℤ) ∈ olds
      have hrows : ∀ node ∈ nodes', node ∈ rows.rows := fun node hnode =>
        List.mem_of_mem_filter (hperm.mem_iff.mp hnode)
      have hread : ∀ t ∈ pks, ∃ d, d ∈ nodes' ∧ IsTextOf texts oldId t d := by
        intro t ht
        rcases List.mem_append.mp (hall t ht) with hstr | hold
        · obtain ⟨d, hd, heq⟩ := List.mem_map.mp hstr
          exact ⟨d, hd, Or.inl heq.symm⟩
        · obtain ⟨d, hd, heq⟩ := List.mem_filterMap.mp hold
          obtain ⟨n, hn, rfl⟩ := Option.map_eq_some_iff.mp heq
          exact ⟨d, hd, Or.inr ⟨n, hn, rfl⟩⟩
      obtain ⟨ds, hds⟩ := exists_forall₂ hread
      have hmem : ∀ node, node ∈ nodes' ↔ node ∈ ds := by
        intro node
        refine ⟨fun hnode => ?_, fun hnode => ?_⟩
        · have hin := (List.mem_filter.mp (hperm.mem_iff.mp hnode)).2
          rw [decide_eq_true_eq, filterMap_of_mapM holds] at hin
          rcases hin with huuid | hold
          · obtain ⟨t, ht, hu⟩ := List.mem_filterMap.mp huuid
            obtain ⟨d, hd, hR⟩ := exists_mem_right hds ht
            rw [Table.eq_of_pk_eq (hrows node hnode) (hrows d hR.1)
              (uuid_of_isTextOf (hrows d hR.1) hR.2 hu).1]
            exact hd
          · obtain ⟨n, hn, hmem⟩ := (Option.any_eq_true _ _).mp hold
            obtain ⟨t, ht, hint⟩ := List.mem_filterMap.mp (of_decide_eq_true hmem)
            obtain ⟨htpks, hu⟩ := List.mem_filter.mp ht
            obtain ⟨d, hd, hR⟩ := exists_mem_right hds htpks
            obtain ⟨m, hm, rfl⟩ := old_of_isTextOf hR.2 (of_decide_eq_true hu)
            rw [← eq_of_int_eq hint (texts.int_toString m)] at hm
            rw [rows.oldId_unique node (hrows node hnode) d (hrows d hR.1) n hn hm]
            exact hd
        · obtain ⟨t, -, hR⟩ := exists_mem_left hds hnode
          exact hR.1
      refine ⟨⟨hperm.nodup_iff.mpr hfilter, ds, ?_, hmem, fun hnodup => ?_⟩, hrows⟩
      · refine map_named hids (fun _ => rfl) (hds.imp fun t d hR => ?_)
        exact find?_of_isTextOf (hrows d hR.1) hR.2
      · -- a node that is named once has the key that it is named by
        obtain ⟨hlength, hzip⟩ := List.forall₂_iff_zip.mp hds
        have hkeys : List.Forall₂ (fun t d => (d ∈ nodes' ∧ IsTextOf texts oldId t d) ∧
            doubleKey texts oldId (pks.filterMap texts.uuid) d = t) pks ds := by
          refine List.forall₂_iff_zip.mpr ⟨hlength, fun {t d} hpair => ⟨hzip hpair, ?_⟩⟩
          have hR := hzip hpair
          rw [doubleKey]
          split
          · rename_i huuid
            obtain ⟨t', ht', hu⟩ := List.mem_filterMap.mp huuid
            obtain ⟨d', hpair'⟩ := exists_mem_zip hlength ht'
            have hR' := hzip hpair'
            obtain ⟨hpk, ht'⟩ := uuid_of_isTextOf (hrows d' hR'.1) hR'.2 hu
            obtain rfl := Table.eq_of_pk_eq (hrows d hR.1) (hrows d' hR'.1) hpk
            rw [fst_eq_of_mem_zip hnodup hpair hpair', ht']
          · rename_i huuid
            have hnone : texts.uuid t = none := by
              cases hu : texts.uuid t with
              | none => rfl
              | some u =>
                refine absurd (List.mem_filterMap.mpr ⟨t, (List.of_mem_zip hpair).1, ?_⟩) huuid
                rw [hu, (uuid_of_isTextOf (hrows d hR.1) hR.2 hu).1]
            obtain ⟨n, hn, ht⟩ := old_of_isTextOf hR.2 hnone
            rw [hn, ht]
        have hkey := map_key_eq (hkeys.imp fun _ _ h => h.2)
        refine sortByPosition_eq hsort hfilter (hkey ▸ ?_) hkey fun node => ?_
        · refine hnodup.map_on fun a ha b hb heq => ?_
          obtain ⟨t, -, ⟨hanodes, hatext⟩, hakey⟩ := exists_mem_left hkeys ha
          obtain ⟨t', -, ⟨hbnodes, hbtext⟩, hbkey⟩ := exists_mem_left hkeys hb
          obtain rfl : t = t' := hakey.symm.trans (heq.trans hbkey)
          exact Option.some.inj ((find?_of_isTextOf (hrows a hanodes) hatext).symm.trans
            (find?_of_isTextOf (hrows b hbnodes) hbtext))
        · rw [← hperm.mem_iff]
          exact hmem node
    · cases h

end Double

end Returned

end Nodes

end Aixinwu
