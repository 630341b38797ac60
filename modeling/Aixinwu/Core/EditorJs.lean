import Aixinwu.Lib.JsonFields

/-!
# EditorJS documents

`clean_editor_js` goes through the blocks of a document and cleans their texts in place, or collects
them for a plain text. Each type of block has a function of its own for the texts it has.

What cleans a text is any function that does nothing the second time.

A list and an embed are left at the first empty text: what comes behind it is neither cleaned nor in
the plain text. The cleaned URL of an image goes to the key `"ulr"`, and the URL itself stays as it
is.

## Main definitions

* `cleanEditorJs`, `plainText`
* `IsEditorJs` — the documents
* `texts`, `fields` — the texts of a document, by what is gone through together, and the non-empty
  ones
* `replaceFields` — a document with its texts cleaned
* `Sanitizes` — the texts are cleaned, and nothing else is changed
* `NoGap` — no text behind an empty one

## Main results

* `cleanFields_plain`, `cleanFields_of_noGap`, `cleanFields_of_replaced`
* `cleanItems_plain`, `cleanItems_of_noGap`, `cleanItems_of_replaced`
-/

namespace Aixinwu

namespace EditorJs

open Json

/-- A text is a list of code points. -/
abbrev Text := List ℕ

/-- The exceptions. -/
inductive Raised where
  | typeError
  | keyError
  | attributeError
  | runtimeError
deriving DecidableEq, Repr

/-- A number that is zero, as it is written. -/
def isZero (number : String) : Bool :=
  (number.toList.takeWhile (· ∉ ['e', 'E'])).all (· ∈ ['-', '0', '.'])

/-- Whether a value is taken for true. -/
def isTrue : Json → Bool
  | .null => false
  | .bool b => b
  | .number text => !isZero text
  | .str text => text ≠ []
  | .list values => !values.isEmpty
  | .dict items => !items.isEmpty

/-! ### Cleaning -/

section Cleaning

variable (clean stripTags : Text → Text) (toString : Bool)

/-- The cleaned text of a value; `none` where there is none. -/
def cleanText (value : Option Json) : Except Raised (Option Text) :=
  match value with
  | none => .ok none
  | some value =>
    if isTrue value then match value with
      | .str text => .ok (some (clean text))
      | _ => .error .typeError
    else .ok none

/-- What is cleaned, and the plain text so far. -/
abbrev State := Json × List Text

/-- A cleaned text goes to the plain text, or into the document. -/
def put (text : Text) (write : Json → Json) (s : State) : State :=
  if toString then (s.1, s.2 ++ [stripTags text]) else (write s.1, s.2)

/-- Some fields one after the other, up to the first without a text. -/
def cleanFields : List Text → State → Except Raised State
  | [], s => .ok s
  | field :: fields, s =>
    (cleanText clean (s.1.get? field)).bind fun
      | none => .ok s
      | some text =>
        cleanFields fields (put stripTags toString text (fun data => data.set field (.str text)) s)

/-- `clean_other_items`. -/
def cleanOtherItems : State → Except Raised State :=
  cleanFields clean stripTags toString [codes "text"]

/-- `clean_embed_item`. -/
def cleanEmbedItem : State → Except Raised State :=
  cleanFields clean stripTags toString [codes "source", codes "embed", codes "caption"]

/-- `clean_image_item`. The URL is written under another key than it is read from. -/
def cleanImageItem (s : State) : Except Raised State :=
  match (s.1.get? (codes "file")).getD (.dict []) with
  | .dict file =>
    (cleanText clean (Json.get? (.dict file) (codes "url"))).bind fun url =>
      cleanFields clean stripTags toString [codes "caption"] <|
        match url with
        | none => s
        | some text => put stripTags toString text (fun data =>
            data.set (codes "file") (Json.set (.dict file) (codes "ulr") (.str text))) s
  | _ => .error .attributeError

/-- The items of a list, up to the first that is empty. -/
def cleanItems : List Json → List Text → Except Raised (List Json × List Text)
  | [], plain => .ok ([], plain)
  | item :: items, plain =>
    (cleanText clean (some item)).bind fun
      | none => .ok (item :: items, plain)
      | some text =>
        if toString then
          (cleanItems items (plain ++ [stripTags text])).map fun p => (item :: p.1, p.2)
        else (cleanItems items plain).map fun p => (.str text :: p.1, p.2)

/-- `clean_list_item`. Characters and keys can be gone through as well, and cannot be assigned to.
-/
def cleanListItem (s : State) : Except Raised State :=
  match s.1.get? (codes "items") with
  | none => .error .keyError
  | some (.list items) =>
    (cleanItems clean stripTags toString items s.2).map fun p =>
      (if toString then s.1 else s.1.set (codes "items") (.list p.1), p.2)
  | some (.str text) =>
    if toString then
      (cleanItems clean stripTags toString (text.map fun c => .str [c]) s.2).map fun p => (s.1, p.2)
    else if text = [] then .ok s
    else .error .typeError
  | some (.dict items) =>
    if toString then
      (cleanItems clean stripTags toString (items.map fun item => .str item.1) s.2).map fun p =>
        (s.1, p.2)
    else if (items.head?.map Prod.fst).getD [] = [] then .ok s
    else .error .runtimeError
  | some _ => .error .typeError

/-- `ITEM_TYPE_TO_CLEAN_FUNC_MAP`, or the other items. -/
def cleanFunc (blockType : Json) (s : State) : Except Raised State :=
  match blockType with
  | .str text =>
    if text = codes "list" then cleanListItem clean stripTags toString s
    else if text = codes "image" then cleanImageItem clean stripTags toString s
    else if text = codes "embed" then cleanEmbedItem clean stripTags toString s
    else cleanOtherItems clean stripTags toString s
  | .list _ | .dict _ => .error .typeError
  | _ => cleanOtherItems clean stripTags toString s

/-- A block. -/
def cleanBlock (s : State) : Except Raised State :=
  match s.1 with
  | .dict items =>
    match Json.get? (.dict items) (codes "type") with
    | none => .error .keyError
    | some blockType =>
      match Json.get? (.dict items) (codes "data") with
      | some (.dict (item :: data)) =>
        (cleanFunc clean stripTags toString blockType (.dict (item :: data), s.2)).map fun s' =>
          (s.1.set (codes "data") s'.1, s'.2)
      | _ => .ok s
  | _ => .error .typeError

/-- All blocks. -/
def cleanBlocks : List Json → List Text → Except Raised (List Json × List Text)
  | [], plain => .ok ([], plain)
  | block :: blocks, plain =>
    (cleanBlock clean stripTags toString (block, plain)).bind fun s =>
      (cleanBlocks blocks s.2).map fun p => (s.1 :: p.1, p.2)

/-- `clean_editor_js`: the document, and the texts that are joined to the plain text. -/
def cleanEditorJs (definitions : Json) : Except Raised State :=
  match definitions with
  | .null => .ok (definitions, [])
  | .dict _ =>
    match definitions.get? (codes "blocks") with
    | some (.list (block :: blocks)) =>
      (cleanBlocks clean stripTags toString (block :: blocks) []).map fun p =>
        (definitions.set (codes "blocks") (.list p.1), p.2)
    | _ => .ok (definitions, [])
  | _ => .error .attributeError

end Cleaning

/-- The plain text. -/
def plainText (clean stripTags : Text → Text) (definitions : Json) : Except Raised Text :=
  (cleanEditorJs clean stripTags true definitions).map fun s => [32].intercalate s.2

/-! ### Documents and their texts -/

/-- The text that a value is, if it is one. -/
def textOf : Option Json → Text
  | some (.str text) => text
  | _ => []

/-- A text, or nothing. -/
def IsText (value : Option Json) : Prop := ∀ v, value = some v → v = .null ∨ ∃ text, v = .str text

/-- The file of an image. -/
def fileOf (data : Json) : Json := (data.get? (codes "file")).getD (.dict [])

/-- The fields of a block with texts that stand in it directly. -/
def textFields (blockType : Text) : List Text :=
  if blockType = codes "list" then []
  else if blockType = codes "image" then [codes "caption"]
  else if blockType = codes "embed" then [codes "source", codes "embed", codes "caption"]
  else [codes "text"]

/-- The texts of some fields. -/
def fieldTexts (data : Json) (fields : List Text) : List Text :=
  fields.map fun field => textOf (data.get? field)

/-- The items of a list. -/
def itemTexts (data : Json) : List Text :=
  match data.get? (codes "items") with
  | some (.list items) => items.map fun item => textOf (some item)
  | _ => []

/-- The texts of a block, by what is gone through together. -/
def dataTexts (blockType : Text) (data : Json) : List (List Text) :=
  if blockType = codes "list" then [itemTexts data]
  else if blockType = codes "image" then
    [[textOf ((fileOf data).get? (codes "url"))], fieldTexts data (textFields blockType)]
  else [fieldTexts data (textFields blockType)]

/-- A block's type. -/
def typeOf (block : Json) : Text := textOf (block.get? (codes "type"))

/-- A block's data, if there are any. -/
def dataOf (block : Json) : Option Json :=
  match block.get? (codes "data") with
  | some (.dict (item :: items)) => some (.dict (item :: items))
  | _ => none

/-- The texts of a block. -/
def blockTexts (block : Json) : List (List Text) :=
  match dataOf block with
  | some data => dataTexts (typeOf block) data
  | none => []

/-- The blocks of a document. -/
def blocksOf (definitions : Json) : List Json :=
  match definitions.get? (codes "blocks") with
  | some (.list blocks) => blocks
  | _ => []

/-- All texts of a document. -/
def texts (definitions : Json) : List (List Text) := (blocksOf definitions).flatMap blockTexts

/-- The texts that are not empty. -/
def nonEmpty (run : List Text) : List Text := run.filter (· ≠ [])

/-- The same of several runs. -/
def filled (runs : List (List Text)) : List Text := nonEmpty runs.flatten

/-- The non-empty texts of a document. -/
def fields (definitions : Json) : List Text := filled (texts definitions)

/-- Items that are texts. -/
def textItems (items : List Text) : List Json := items.map .str

/-- The data of a block: the items of a list are texts, and the other fields are there and texts, or
not there. -/
structure IsData (blockType : Text) (data : Json) : Prop where
  items : blockType = codes "list" →
    ∃ items : List Text, data.get? (codes "items") = some (.list (textItems items))
  file : blockType = codes "image" → (∃ items, fileOf data = .dict items) ∧
    IsText ((fileOf data).get? (codes "url"))
  fields : ∀ field ∈ textFields blockType, IsText (data.get? field)

/-- A block has a type, and data that go with it. -/
structure IsBlock (block : Json) : Prop where
  type : ∃ blockType, block.get? (codes "type") = some (.str blockType)
  data : ∀ data, dataOf block = some data → IsData (typeOf block) data

/-- A document: nothing, or an object with blocks. -/
def IsEditorJs (definitions : Json) : Prop :=
  definitions = .null ∨
    (∃ items, definitions = .dict items) ∧ ∀ block ∈ blocksOf definitions, IsBlock block

/-! ### A document with its texts cleaned -/

section Replaced

variable (clean : Text → Text)

/-- A text, cleaned if it is not empty. -/
def replaced (text : Text) : Text := if text = [] then [] else clean text

/-- The same of a value. -/
def replaceText : Json → Json
  | .str text => .str (replaced clean text)
  | value => value

/-- Some fields with their texts cleaned. -/
def replaceAt (data : Json) (fields : List Text) : Json :=
  fields.foldl (fun data field => data.update field (replaceText clean)) data

/-- The items of a list with their texts cleaned. -/
def replaceItems : Json → Json
  | .list items => .list (items.map (replaceText clean))
  | value => value

/-- The data of a block with the texts cleaned. -/
def replaceData (blockType : Text) (data : Json) : Json :=
  if blockType = codes "list" then data.update (codes "items") (replaceItems clean)
  else if blockType = codes "image" then
    replaceAt clean (data.update (codes "file") fun file =>
      file.update (codes "url") (replaceText clean)) (textFields blockType)
  else replaceAt clean data (textFields blockType)

/-- A block with its texts cleaned. -/
def replaceBlock (block : Json) : Json :=
  block.update (codes "data") fun
    | .dict (item :: items) => replaceData clean (typeOf block) (.dict (item :: items))
    | value => value

/-- **A document with its texts cleaned** and nothing else changed. -/
def replaceFields (definitions : Json) : Json :=
  definitions.update (codes "blocks") fun
    | .list blocks => .list (blocks.map (replaceBlock clean))
    | value => value

end Replaced

/-- **A document is sanitised**: its texts are cleaned and nothing else is changed, another time
changes nothing, what holds of all cleaned texts holds of its texts, and the plain text has each of
them once, in order. -/
structure Sanitizes (clean stripTags : Text → Text) (definitions : Json) : Prop where
  document : cleanEditorJs clean stripTags false definitions
    = .ok (replaceFields clean definitions, [])
  again : cleanEditorJs clean stripTags false (replaceFields clean definitions)
    = .ok (replaceFields clean definitions, [])
  safe : ∀ Safe : Text → Prop, (∀ text, Safe (clean text)) →
    ∀ text ∈ fields (replaceFields clean definitions), Safe text
  plain : cleanEditorJs clean stripTags true definitions
    = .ok (definitions, (fields definitions).map fun text => stripTags (clean text))
  joined : plainText clean stripTags definitions
    = .ok ([32].intercalate ((fields definitions).map fun text => stripTags (clean text)))

/-! ### Texts -/

section Texts

variable {clean stripTags : Text → Text} {value : Option Json} {data : Json} {plain : List Text}

theorem cleanText_of_isText (h : IsText value) : cleanText clean value
    = .ok (if textOf value = [] then none else some (clean (textOf value))) := by
  cases value with
  | none => rfl
  | some v =>
    obtain rfl | ⟨text, rfl⟩ := h v rfl
    · rfl
    · rw [cleanText, textOf]
      by_cases htext : text = []
      · subst htext
        rfl
      · rw [if_pos (by simpa [isTrue] using htext), if_neg htext]

/-- The texts up to the first that is empty. -/
def visited (run : List Text) : List Text := run.takeWhile (· ≠ [])

theorem cleanFields_plain {fields : List Text} (h : ∀ field ∈ fields, IsText (data.get? field)) :
    cleanFields clean stripTags true fields (data, plain)
      = .ok (data, plain ++ (visited (fieldTexts data fields)).map fun text =>
          stripTags (clean text)) := by
  induction fields generalizing plain with
  | nil => simp [cleanFields, fieldTexts, visited]
  | cons field fields ih =>
    rw [List.forall_mem_cons] at h
    rw [cleanFields, cleanText_of_isText h.1]
    by_cases htext : textOf (data.get? field) = []
    · simp [htext, fieldTexts, visited, Except.bind]
    · simp only [htext, if_false, Except.bind, put, if_true]
      rw [ih h.2]
      simp [fieldTexts, visited, htext]

theorem eq_some_of_textOf_ne (h : textOf value ≠ []) : value = some (.str (textOf value)) := by
  rcases value with - | v
  · exact absurd rfl h
  · cases v with
    | str text => rfl
    | null | bool | number | list | dict => exact absurd rfl h

/-- No text behind an empty one. -/
def NoGap (run : List Text) : Prop := run.Pairwise fun text next => text = [] → next = []

theorem textOf_map_replaceText :
    textOf (value.map (replaceText clean)) = replaced clean (textOf value) := by
  rcases value with - | v
  · rfl
  · cases v with
    | str text => rfl
    | null | bool | number | list | dict => rfl

theorem IsText.map_replaceText (h : IsText value) : IsText (value.map (replaceText clean)) := by
  rintro w hw
  obtain ⟨v, hv, rfl⟩ := Option.map_eq_some_iff.mp hw
  obtain rfl | ⟨text, rfl⟩ := h v hv
  · exact .inl rfl
  · exact .inr ⟨_, rfl⟩

theorem replaceText_of_replaced {v : Json}
    (h : replaced clean (textOf (some v)) = textOf (some v)) : replaceText clean v = v := by
  cases v with
  | str text => exact congrArg Json.str h
  | null | bool | number | list | dict => rfl

theorem update_replaceText_eq_self {field : Text}
    (h : replaced clean (textOf (data.get? field)) = textOf (data.get? field)) :
    data.update field (replaceText clean) = data := by
  refine update_eq_self fun v hv => replaceText_of_replaced ?_
  rwa [hv] at h

theorem replaceAt_eq_self {fields : List Text}
    (h : ∀ field ∈ fields, replaced clean (textOf (data.get? field)) = textOf (data.get? field)) :
    replaceAt clean data fields = data := by
  induction fields with
  | nil => rfl
  | cons field fields ih =>
    rw [List.forall_mem_cons] at h
    rw [replaceAt, List.foldl_cons, update_replaceText_eq_self h.1]
    exact ih h.2

theorem get?_replaceAt_of_notMem {fields : List Text} {field : Text} (h : field ∉ fields) :
    (replaceAt clean data fields).get? field = data.get? field := by
  induction fields generalizing data with
  | nil => rfl
  | cons field' fields ih =>
    rw [List.mem_cons, not_or] at h
    rw [replaceAt, List.foldl_cons]
    exact (ih h.2).trans (get?_update_of_ne h.1)

theorem get?_replaceAt_of_mem {fields : List Text} {field : Text} (hnodup : fields.Nodup)
    (h : field ∈ fields) : (replaceAt clean data fields).get? field
      = (data.get? field).map (replaceText clean) := by
  induction fields generalizing data with
  | nil => cases h
  | cons field' fields ih =>
    rw [List.nodup_cons] at hnodup
    rw [replaceAt, List.foldl_cons]
    obtain rfl | hmem := List.mem_cons.mp h
    · exact (get?_replaceAt_of_notMem hnodup.1).trans get?_update_self
    · refine (ih hnodup.2 hmem).trans ?_
      rw [get?_update_of_ne]
      rintro rfl
      exact hnodup.1 hmem

/-- **Without gaps** the texts are cleaned, and nothing else is changed. -/
theorem cleanFields_of_noGap {fields : List Text} (hnodup : fields.Nodup)
    (h : ∀ field ∈ fields, IsText (data.get? field)) (hgap : NoGap (fieldTexts data fields)) :
    cleanFields clean stripTags false fields (data, plain)
      = .ok (replaceAt clean data fields, plain) := by
  induction fields generalizing data with
  | nil => rfl
  | cons field fields ih =>
    rw [List.nodup_cons] at hnodup
    rw [List.forall_mem_cons] at h
    rw [cleanFields, cleanText_of_isText h.1]
    have hne : ∀ field' ∈ fields, field' ≠ field := by
      rintro field' hmem rfl
      exact hnodup.1 hmem
    have hgap' := List.pairwise_cons.mp hgap
    by_cases htext : textOf (data.get? field) = []
    · rw [if_pos htext, replaceAt_eq_self]
      · rfl
      · intro field' hmem
        obtain rfl | hmem := List.mem_cons.mp hmem
        · rw [htext]
          rfl
        · rw [hgap'.1 _ (List.mem_map_of_mem hmem) htext]
          rfl
    · have hset : data.set field (.str (clean (textOf (data.get? field))))
          = data.update field (replaceText clean) := by
        rw [update_of_get? (eq_some_of_textOf_ne htext), replaceText, replaced, if_neg htext]
      have hsame : ∀ field' ∈ fields, (data.update field (replaceText clean)).get? field'
          = data.get? field' := fun field' hmem => get?_update_of_ne (hne field' hmem)
      rw [if_neg htext]
      change cleanFields clean stripTags false fields
        (data.set field (.str (clean (textOf (data.get? field)))), plain) = _
      rw [hset, ih hnodup.2]
      · rfl
      · intro field' hmem
        rw [hsame field' hmem]
        exact h.2 field' hmem
      · have hmap : fieldTexts (data.update field (replaceText clean)) fields
            = fieldTexts data fields :=
          List.map_congr_left fun field' hmem => by rw [hsame field' hmem]
        rw [hmap]
        exact hgap'.2

/-- Where cleaning leaves all texts alone, nothing changes. -/
theorem cleanFields_of_replaced {fields : List Text}
    (h : ∀ field ∈ fields, IsText (data.get? field) ∧
      replaced clean (textOf (data.get? field)) = textOf (data.get? field)) :
    cleanFields clean stripTags false fields (data, plain) = .ok (data, plain) := by
  induction fields with
  | nil => rfl
  | cons field fields ih =>
    rw [List.forall_mem_cons] at h
    obtain ⟨⟨htyped, hsame⟩, hrest⟩ := h
    rw [cleanFields, cleanText_of_isText htyped]
    by_cases htext : textOf (data.get? field) = []
    · rw [if_pos htext]
      rfl
    · rw [if_neg htext]
      rw [replaced, if_neg htext] at hsame
      have hset : data.set field (.str (clean (textOf (data.get? field)))) = data := by
        refine set_eq_self ?_
        rw [hsame]
        exact eq_some_of_textOf_ne htext
      change cleanFields clean stripTags false fields
        (data.set field (.str (clean (textOf (data.get? field)))), plain) = _
      rw [hset]
      exact ih hrest

/-! ### Items -/

theorem cleanItems_plain {items : List Text} :
    cleanItems clean stripTags true (textItems items) plain
      = .ok (textItems items, plain ++ (visited items).map fun text =>
          stripTags (clean text)) := by
  induction items generalizing plain with
  | nil => simp [cleanItems, textItems, visited]
  | cons item items ih =>
    rw [textItems, List.map_cons, cleanItems, cleanText_of_isText (fun _ h =>
      .inr ⟨item, (Option.some.inj h).symm⟩)]
    by_cases htext : item = []
    · simp [textOf, htext, visited, Except.bind]
    · rw [textItems] at ih
      simp only [textOf, htext, if_false, Except.bind, if_true]
      rw [ih]
      simp [Except.map, visited, htext]

theorem cleanItems_of_noGap {items : List Text} (hgap : NoGap items) :
    cleanItems clean stripTags false (textItems items) plain
      = .ok (textItems (items.map (replaced clean)), plain) := by
  induction items with
  | nil => rfl
  | cons item items ih =>
    have hgap' := List.pairwise_cons.mp hgap
    rw [textItems, List.map_cons, cleanItems, cleanText_of_isText (fun _ h =>
      .inr ⟨item, (Option.some.inj h).symm⟩)]
    by_cases htext : item = []
    · have hall : items.map (replaced clean) = items := by
        refine (List.map_congr_left fun next hnext => ?_).trans (List.map_id _)
        rw [hgap'.1 next hnext htext]
        rfl
      rw [textOf, if_pos htext, List.map_cons, hall, htext]
      rfl
    · rw [textOf, if_neg htext, List.map_cons]
      change (cleanItems clean stripTags false (textItems items) plain).map _ = _
      rw [ih hgap'.2, replaced, if_neg htext]
      rfl

theorem cleanItems_of_replaced {items : List Text}
    (h : ∀ item ∈ items, replaced clean item = item) :
    cleanItems clean stripTags false (textItems items) plain = .ok (textItems items, plain) := by
  induction items with
  | nil => rfl
  | cons item items ih =>
    rw [List.forall_mem_cons] at h
    rw [textItems, List.map_cons, cleanItems, cleanText_of_isText (fun _ h =>
      .inr ⟨item, (Option.some.inj h).symm⟩)]
    by_cases htext : item = []
    · rw [textOf, if_pos htext]
      rfl
    · rw [textOf, if_neg htext]
      change (cleanItems clean stripTags false (textItems items) plain).map _ = _
      have hsame : clean item = item := by
        have hreplaced := h.1
        rwa [replaced, if_neg htext] at hreplaced
      rw [ih h.2, hsame]
      rfl

end Texts

end EditorJs

end Aixinwu
