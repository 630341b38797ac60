import Aixinwu.Core.EditorJs

/-!
# When EditorJS documents are sanitised

What the source makes of the data of a block, of a block and of a document, once for the plain text
and twice for the document: without gaps, and where there is nothing left to clean.

The URL of an image is the one text that is written to another place than it is read from. So a
document is sanitised exactly if it has no gaps and every such URL has nothing to clean and stands
in the other place already: **`sanitizes_iff`**.

## Main definitions

* `writtenData`, `writtenBlock` — what the source makes of data and of a block without gaps
* `UrlKept`, `KeepsUrl`

## Main results

* `plain_iff`, `document_iff`
* `cleanEditorJs_replaceFields` — another time changes nothing
* `sanitizes_iff`
-/

namespace Aixinwu

namespace EditorJs

open Json

/-! ### Data -/

/-- The URL of an image. -/
def urlOf (data : Json) : Text := textOf ((fileOf data).get? (codes "url"))

/-- The cleaned URL where the source puts it. -/
def withUlr (clean : Text → Text) (data : Json) : Json :=
  data.update (codes "file") fun file =>
    let url := textOf (file.get? (codes "url"))
    if url = [] then file else file.set (codes "ulr") (.str (clean url))

/-- What the source makes of data without gaps. -/
def writtenData (clean : Text → Text) (blockType : Text) (data : Json) : Json :=
  if blockType = codes "image" then replaceAt clean (withUlr clean data) (textFields blockType)
  else replaceData clean blockType data

/-- The URL of an image has nothing to clean and stands under the other key, too. -/
def UrlKept (clean : Text → Text) (blockType : Text) (data : Json) : Prop :=
  blockType = codes "image" → urlOf data ≠ [] →
    clean (urlOf data) = urlOf data ∧
      (fileOf data).get? (codes "ulr") = some (.str (urlOf data))

section Data

variable {clean stripTags : Text → Text} {data : Json} {plain : List Text} {blockType : Text}
  {toString : Bool}

theorem textFields_image : textFields (codes "image") = [codes "caption"] := by
  simp [textFields, codes_inj]

theorem nodup_textFields : (textFields blockType).Nodup := by
  rw [textFields]
  split
  · exact List.nodup_nil
  · split
    · exact List.nodup_singleton _
    · split
      · simp [codes_inj]
      · exact List.nodup_singleton _

theorem file_notMem_textFields : codes "file" ∉ textFields blockType := by
  rw [textFields]
  split
  · exact List.not_mem_nil
  · split
    · simp [codes_inj]
    · split
      · simp [codes_inj]
      · simp [codes_inj]

theorem cleanFunc_list {s : State} : cleanFunc clean stripTags toString (.str (codes "list")) s
    = cleanListItem clean stripTags toString s := by
  rw [cleanFunc, if_pos rfl]

theorem cleanFunc_image {s : State} : cleanFunc clean stripTags toString (.str (codes "image")) s
    = cleanImageItem clean stripTags toString s := by
  rw [cleanFunc, if_neg (by simp [codes_inj]), if_pos rfl]

/-- An image whose file is an object: its URL, if it is not empty, and then the caption. -/
theorem cleanFunc_image_of_file {items : List (Text × Json)} (hfile : fileOf data = .dict items)
    (hurl : IsText (Json.get? (.dict items) (codes "url"))) :
    cleanFunc clean stripTags toString (.str (codes "image")) (data, plain)
      = cleanFields clean stripTags toString [codes "caption"]
          (if textOf (Json.get? (.dict items) (codes "url")) = [] then (data, plain)
          else put stripTags toString (clean (textOf (Json.get? (.dict items) (codes "url"))))
            (fun data => data.set (codes "file") (Json.set (.dict items) (codes "ulr")
              (.str (clean (textOf (Json.get? (.dict items) (codes "url")))))))
            (data, plain)) := by
  have hget : ((data, plain).1.get? (codes "file")).getD (.dict []) = .dict items := hfile
  rw [cleanFunc_image, cleanImageItem, hget]
  simp only [cleanText_of_isText hurl, Except.bind]
  by_cases htext : textOf (Json.get? (.dict items) (codes "url")) = []
  · simp only [htext, if_true]
  · simp only [htext, if_false]

theorem cleanFunc_of_ne {s : State} (hlist : blockType ≠ codes "list")
    (himage : blockType ≠ codes "image") : cleanFunc clean stripTags toString (.str blockType) s
      = cleanFields clean stripTags toString (textFields blockType) s := by
  rw [cleanFunc, if_neg hlist, if_neg himage, textFields, if_neg hlist, if_neg himage]
  split
  · rfl
  · rfl

theorem itemTexts_eq {items : List Text}
    (h : data.get? (codes "items") = some (.list (textItems items))) : itemTexts data = items := by
  rw [itemTexts, h]
  simp [textItems, textOf, Function.comp_def]

/-- The plain text of a block. -/
theorem cleanFunc_plain (h : IsData blockType data) :
    cleanFunc clean stripTags true (.str blockType) (data, plain)
      = .ok (data, plain ++ ((dataTexts blockType data).flatMap visited).map fun text =>
          stripTags (clean text)) := by
  by_cases hlist : blockType = codes "list"
  · subst hlist
    obtain ⟨items, hitems⟩ := h.items rfl
    rw [cleanFunc_list, cleanListItem, hitems, dataTexts, if_pos rfl, itemTexts_eq hitems]
    change (cleanItems clean stripTags true (textItems items) plain).map _ = _
    rw [cleanItems_plain]
    simp [Except.map]
  · by_cases himage : blockType = codes "image"
    · subst himage
      obtain ⟨⟨items, hfile⟩, hurl⟩ := h.file rfl
      have hcaption := h.fields
      rw [textFields_image] at hcaption
      rw [hfile] at hurl
      rw [cleanFunc_image_of_file hfile hurl, dataTexts, if_neg hlist, if_pos rfl, textFields_image,
        hfile]
      by_cases htext : textOf (Json.get? (.dict items) (codes "url")) = []
      · simp only [htext, if_true]
        rw [cleanFields_plain hcaption]
        simp [visited]
      · simp only [htext, if_false, put, if_true]
        rw [cleanFields_plain hcaption]
        simp [visited, htext]
    · rw [cleanFunc_of_ne hlist himage, cleanFields_plain h.fields, dataTexts, if_neg hlist,
        if_neg himage]
      simp

/-- Where there is a URL, there is a file. -/
theorem get?_file {items : List (Text × Json)} (hfile : fileOf data = .dict items)
    (h : textOf (Json.get? (.dict items) (codes "url")) ≠ []) :
    data.get? (codes "file") = some (.dict items) := by
  cases hget : data.get? (codes "file") with
  | none =>
    rw [fileOf, hget, Option.getD_none] at hfile
    rw [← hfile] at h
    exact absurd rfl h
  | some file =>
    rw [fileOf, hget, Option.getD_some] at hfile
    rw [hfile]

theorem fieldTexts_congr {data data' : Json} {fields : List Text}
    (h : ∀ field ∈ fields, data'.get? field = data.get? field) :
    fieldTexts data' fields = fieldTexts data fields :=
  List.map_congr_left fun field hmem => by rw [h field hmem]

/-- What the source makes of the data of a block without gaps. -/
theorem cleanFunc_of_noGap (h : IsData blockType data)
    (hgap : ∀ run ∈ dataTexts blockType data, NoGap run) :
    cleanFunc clean stripTags false (.str blockType) (data, plain)
      = .ok (writtenData clean blockType data, plain) := by
  by_cases hlist : blockType = codes "list"
  · subst hlist
    obtain ⟨items, hitems⟩ := h.items rfl
    rw [dataTexts, if_pos rfl, List.forall_mem_singleton, itemTexts_eq hitems] at hgap
    rw [cleanFunc_list, cleanListItem, hitems, writtenData, if_neg (by simp [codes_inj]), replaceData,
      if_pos rfl]
    change (cleanItems clean stripTags false (textItems items) plain).map _ = _
    rw [cleanItems_of_noGap hgap, update_of_get? hitems]
    simp [Except.map, replaceItems, textItems, replaceText, Function.comp_def]
  · by_cases himage : blockType = codes "image"
    · subst himage
      obtain ⟨⟨items, hfile⟩, hurl⟩ := h.file rfl
      have hfields := h.fields
      rw [dataTexts, if_neg hlist, if_pos rfl, List.forall_mem_cons,
          List.forall_mem_singleton] at hgap
      have hsame : ∀ field ∈ textFields (codes "image"),
          (withUlr clean data).get? field = data.get? field := fun field hmem =>
        get?_update_of_ne fun heq => file_notMem_textFields (heq ▸ hmem)
      have hcaption : cleanFields clean stripTags false (textFields (codes "image"))
          (withUlr clean data, plain) = .ok (writtenData clean (codes "image") data, plain) := by
        rw [writtenData, if_pos rfl]
        refine cleanFields_of_noGap nodup_textFields ?_ ?_
        · intro field hmem
          rw [hsame field hmem]
          exact hfields field hmem
        · rw [fieldTexts_congr hsame]
          exact hgap.2
      rw [textFields_image] at hcaption
      rw [hfile] at hurl
      rw [cleanFunc_image_of_file hfile hurl, ← hcaption]
      by_cases htext : textOf (Json.get? (.dict items) (codes "url")) = []
      · have hulr : withUlr clean data = data := by
          refine update_eq_self fun file hget => ?_
          rw [fileOf, hget, Option.getD_some] at hfile
          subst hfile
          exact if_pos htext
        simp only [htext, if_true, hulr]
      · have hget := get?_file hfile htext
        have hulr : withUlr clean data = data.set (codes "file")
            (Json.set (.dict items) (codes "ulr")
              (.str (clean (textOf (Json.get? (.dict items) (codes "url")))))) := by
          rw [withUlr, update_of_get? hget]
          exact congrArg _ (if_neg htext)
        simp only [htext, if_false, hulr, put, Bool.false_eq_true]
    · rw [dataTexts, if_neg hlist, if_neg himage, List.forall_mem_singleton] at hgap
      rw [cleanFunc_of_ne hlist himage, writtenData, if_neg himage, replaceData, if_neg hlist,
        if_neg himage]
      exact cleanFields_of_noGap nodup_textFields h.fields hgap

/-- Where cleaning leaves all texts alone, and the URL stands under both keys, nothing changes. -/
theorem cleanFunc_of_replaced (h : IsData blockType data)
    (hsame : ∀ run ∈ dataTexts blockType data, ∀ text ∈ run, replaced clean text = text)
    (hkept : UrlKept clean blockType data) :
    cleanFunc clean stripTags false (.str blockType) (data, plain) = .ok (data, plain) := by
  by_cases hlist : blockType = codes "list"
  · subst hlist
    obtain ⟨items, hitems⟩ := h.items rfl
    rw [dataTexts, if_pos rfl, List.forall_mem_singleton, itemTexts_eq hitems] at hsame
    rw [cleanFunc_list, cleanListItem, hitems]
    change (cleanItems clean stripTags false (textItems items) plain).map _ = _
    rw [cleanItems_of_replaced hsame]
    simp only [Except.map, Bool.false_eq_true, if_false, set_eq_self hitems]
  · by_cases himage : blockType = codes "image"
    · subst himage
      obtain ⟨⟨items, hfile⟩, hurl⟩ := h.file rfl
      rw [dataTexts, if_neg hlist, if_pos rfl, List.forall_mem_cons] at hsame
      have hcaption : cleanFields clean stripTags false (textFields (codes "image")) (data, plain)
          = .ok (data, plain) :=
        cleanFields_of_replaced fun field hmem =>
          ⟨h.fields field hmem, hsame.2 _ List.mem_cons_self _ (List.mem_map_of_mem hmem)⟩
      have hkept' := hkept rfl
      rw [urlOf] at hkept'
      rw [textFields_image] at hcaption
      rw [hfile] at hurl hkept'
      rw [cleanFunc_image_of_file hfile hurl]
      by_cases htext : textOf (Json.get? (.dict items) (codes "url")) = []
      · simp only [htext, if_true]
        exact hcaption
      · have hget := get?_file hfile htext
        obtain ⟨hclean, hulr⟩ := hkept' htext
        simp only [htext, if_false, put, Bool.false_eq_true]
        rw [hclean, set_eq_self hulr, set_eq_self hget]
        exact hcaption
    · rw [dataTexts, if_neg hlist, if_neg himage, List.forall_mem_singleton] at hsame
      rw [cleanFunc_of_ne hlist himage]
      exact cleanFields_of_replaced fun field hmem =>
        ⟨h.fields field hmem, hsame _ (List.mem_map_of_mem hmem)⟩

/-! ### The cleaned data -/

/-- The cleaned file of an image. -/
theorem fileOf_replaceData : fileOf (replaceData clean (codes "image") data)
    = (fileOf data).update (codes "url") (replaceText clean) := by
  rw [fileOf, replaceData, if_neg (by simp [codes_inj]), if_pos rfl,
    get?_replaceAt_of_notMem file_notMem_textFields, get?_update_self, fileOf]
  cases data.get? (codes "file") with
  | some file => rfl
  | none => rfl

/-- The fields of the cleaned data. -/
theorem get?_replaceData {field : Text} (h : field ∈ textFields blockType) :
    (replaceData clean blockType data).get? field = (data.get? field).map (replaceText clean) := by
  rw [replaceData]
  split
  · rename_i hlist
    rw [textFields, if_pos hlist] at h
    cases h
  · split
    · rw [get?_replaceAt_of_mem nodup_textFields h, get?_update_of_ne]
      rintro rfl
      exact file_notMem_textFields h
    · exact get?_replaceAt_of_mem nodup_textFields h

theorem items_replaceData {items : List Text}
    (h : data.get? (codes "items") = some (.list (textItems items))) :
    (replaceData clean (codes "list") data).get? (codes "items")
      = some (.list (textItems (items.map (replaced clean)))) := by
  rw [replaceData, if_pos rfl, get?_update_self, h]
  simp [replaceItems, textItems, replaceText, Function.comp_def]

/-- The texts of the cleaned data are the cleaned texts. -/
theorem dataTexts_replaceData (h : IsData blockType data) :
    dataTexts blockType (replaceData clean blockType data)
      = (dataTexts blockType data).map (List.map (replaced clean)) := by
  have hfields : fieldTexts (replaceData clean blockType data) (textFields blockType)
      = (fieldTexts data (textFields blockType)).map (replaced clean) := by
    rw [fieldTexts, fieldTexts, List.map_map]
    refine List.map_congr_left fun field hmem => ?_
    rw [get?_replaceData hmem, textOf_map_replaceText]
    rfl
  by_cases hlist : blockType = codes "list"
  · subst hlist
    obtain ⟨items, hitems⟩ := h.items rfl
    rw [dataTexts, dataTexts, if_pos rfl, if_pos rfl, itemTexts_eq hitems,
      itemTexts_eq (items_replaceData hitems)]
    rfl
  · by_cases himage : blockType = codes "image"
    · subst himage
      rw [dataTexts, dataTexts, if_neg hlist, if_neg hlist, if_pos rfl, if_pos rfl, hfields,
        fileOf_replaceData, get?_update_self, textOf_map_replaceText]
      rfl
    · rw [dataTexts, dataTexts, if_neg hlist, if_neg hlist, if_neg himage, if_neg himage, hfields]
      rfl

theorem isData_replaceData (h : IsData blockType data) :
    IsData blockType (replaceData clean blockType data) := by
  refine ⟨?_, ?_, ?_⟩
  · rintro rfl
    obtain ⟨items, hitems⟩ := h.items rfl
    exact ⟨_, items_replaceData hitems⟩
  · rintro rfl
    obtain ⟨⟨items, hfile⟩, hurl⟩ := h.file rfl
    rw [fileOf_replaceData, get?_update_self]
    refine ⟨?_, hurl.map_replaceText⟩
    rw [hfile, update]
    split
    · exact ⟨_, rfl⟩
    · exact ⟨_, rfl⟩
  · intro field hmem
    rw [get?_replaceData hmem]
    exact (h.fields field hmem).map_replaceText

theorem url_ne_ulr : codes "url" ≠ codes "ulr" := by simp [codes_inj]

/-- **The source cleans the data** exactly if the URL of an image has nothing to clean and stands
under the other key, too. -/
theorem writtenData_eq_iff (h : IsData blockType data) :
    writtenData clean blockType data = replaceData clean blockType data
      ↔ UrlKept clean blockType data := by
  by_cases himage : blockType = codes "image"
  · subst himage
    obtain ⟨⟨items, hfile⟩, -⟩ := h.file rfl
    rw [writtenData, if_pos rfl, replaceData, if_neg (by simp [codes_inj]), if_pos rfl]
    constructor
    · intro heq _ hurl
      rw [urlOf, hfile] at hurl
      have hget := get?_file hfile hurl
      have hfiles := congrArg (fun data => Json.get? data (codes "file")) heq
      simp only [get?_replaceAt_of_notMem file_notMem_textFields, withUlr, get?_update_self, hget,
        Option.map_some, hurl, if_false, Option.some_inj] at hfiles
      have hurls := congrArg (fun file => Json.get? file (codes "url")) hfiles
      have hulrs := congrArg (fun file => Json.get? file (codes "ulr")) hfiles
      simp only [get?_set_of_ne url_ne_ulr, get?_update_self] at hurls
      rw [eq_some_of_textOf_ne hurl, Option.map_some, replaceText, replaced, if_neg hurl] at hurls
      have hclean := Json.str.inj (Option.some.inj hurls)
      simp only [get?_update_of_ne url_ne_ulr.symm] at hulrs
      rw [urlOf, hfile, ← hclean, ← hulrs, ← hclean]
      exact ⟨rfl, lookup_setItem_self⟩
    · intro hkept
      have hkept' := hkept rfl
      rw [urlOf, hfile] at hkept'
      have hurl : ∀ file, data.get? (codes "file") = some file → file = .dict items := by
        intro file hget
        rwa [fileOf, hget, Option.getD_some] at hfile
      have hulr : withUlr clean data = data := by
        refine update_eq_self fun file hget => ?_
        obtain rfl := hurl file hget
        by_cases htext : textOf (Json.get? (.dict items) (codes "url")) = []
        · exact if_pos htext
        · obtain ⟨hclean, hulr⟩ := hkept' htext
          refine (if_neg htext).trans ?_
          rw [hclean, set_eq_self hulr]
      have hsame : (data.update (codes "file") fun file =>
          file.update (codes "url") (replaceText clean)) = data := by
        refine update_eq_self fun file hget => ?_
        obtain rfl := hurl file hget
        refine update_replaceText_eq_self ?_
        by_cases htext : textOf (Json.get? (.dict items) (codes "url")) = []
        · rw [htext]
          rfl
        · rw [replaced, if_neg htext, (hkept' htext).1]
      rw [hulr, hsame]
  · refine iff_of_true ?_ fun h => absurd h himage
    rw [writtenData, if_neg himage]

theorem urlKept_replaceData (h : UrlKept clean blockType data) :
    UrlKept clean blockType (replaceData clean blockType data) := by
  rintro rfl hurl
  rw [urlOf, fileOf_replaceData] at hurl ⊢
  have hne : urlOf data ≠ [] := by
    intro hempty
    refine hurl ?_
    rw [get?_update_self, textOf_map_replaceText]
    exact if_pos hempty
  have hsame : (fileOf data).update (codes "url") (replaceText clean) = fileOf data := by
    refine update_replaceText_eq_self ?_
    exact (if_neg hne).trans (h rfl hne).1
  rw [hsame]
  exact h rfl hne

theorem isObject_replaceAt {fields : List Text} (h : data.IsObject) :
    (replaceAt clean data fields).IsObject := by
  induction fields generalizing data with
  | nil => exact h
  | cons field fields ih => exact ih h.update

theorem isObject_replaceData (h : data.IsObject) : (replaceData clean blockType data).IsObject := by
  rw [replaceData]
  split
  · exact h.update
  · split
    · exact isObject_replaceAt h.update
    · exact isObject_replaceAt h

end Data

/-! ### Blocks -/

/-- What the source makes of a block without gaps. -/
def writtenBlock (clean : Text → Text) (block : Json) : Json :=
  match dataOf block with
  | some data => block.set (codes "data") (writtenData clean (typeOf block) data)
  | none => block

/-- The URL of an image block has nothing to clean and stands under the other key, too. -/
def KeepsUrl (clean : Text → Text) (block : Json) : Prop :=
  ∀ data, dataOf block = some data → UrlKept clean (typeOf block) data

section Blocks

variable {clean stripTags : Text → Text} {toString : Bool} {block data : Json} {plain : List Text}

theorem type_ne_data : codes "type" ≠ codes "data" := by simp [codes_inj]

theorem dataOf_eq_some : dataOf block = some data ↔
    block.get? (codes "data") = some data ∧ data.IsObject := by
  rw [dataOf]
  split
  · rename_i item items hget
    rw [hget]
    refine ⟨fun h => ⟨h, ?_⟩, fun h => h.1⟩
    exact ⟨item, items, (Option.some.inj h).symm⟩
  · rename_i hnot
    refine iff_of_false nofun ?_
    rintro ⟨hget, item, items, rfl⟩
    exact hnot _ _ hget

theorem cleanBlock_eq (h : IsBlock block) : cleanBlock clean stripTags toString (block, plain)
    = match dataOf block with
      | some data => (cleanFunc clean stripTags toString (.str (typeOf block)) (data, plain)).map
          fun s => (block.set (codes "data") s.1, s.2)
      | none => .ok (block, plain) := by
  obtain ⟨blockType, htype⟩ := h.type
  cases block with
  | dict items =>
    simp only [cleanBlock, htype, dataOf, typeOf, textOf]
    split
    · rfl
    · rfl
  | null | bool | number | str | list => cases htype

theorem replaceBlock_of_some (h : dataOf block = some data) :
    replaceBlock clean block
      = block.set (codes "data") (replaceData clean (typeOf block) data) := by
  obtain ⟨hget, item, items, rfl⟩ := dataOf_eq_some.mp h
  rw [replaceBlock, update_of_get? hget]

theorem replaceBlock_of_none (h : dataOf block = none) : replaceBlock clean block = block := by
  refine update_eq_self fun v hget => ?_
  split
  · rename_i item items
    cases h.symm.trans (dataOf_eq_some.mpr ⟨hget, item, items, rfl⟩)
  · rfl

theorem dataOf_replaceBlock (h : dataOf block = some data) :
    dataOf (replaceBlock clean block) = some (replaceData clean (typeOf block) data) := by
  obtain ⟨hget, hobject⟩ := dataOf_eq_some.mp h
  rw [replaceBlock_of_some h]
  exact dataOf_eq_some.mpr ⟨get?_set_self hget, isObject_replaceData hobject⟩

theorem typeOf_replaceBlock : typeOf (replaceBlock clean block) = typeOf block := by
  rw [typeOf, replaceBlock, get?_update_of_ne type_ne_data]
  rfl

theorem cleanBlock_plain (h : IsBlock block) : cleanBlock clean stripTags true (block, plain)
    = .ok (block, plain ++ ((blockTexts block).flatMap visited).map fun text =>
        stripTags (clean text)) := by
  rw [cleanBlock_eq h, blockTexts]
  cases hdata : dataOf block with
  | none => simp
  | some data =>
    change (cleanFunc _ _ _ _ _).map _ = _
    rw [cleanFunc_plain (h.data data hdata)]
    simp only [Except.map, set_eq_self (dataOf_eq_some.mp hdata).1]

theorem cleanBlock_of_noGap (h : IsBlock block) (hgap : ∀ run ∈ blockTexts block, NoGap run) :
    cleanBlock clean stripTags false (block, plain) = .ok (writtenBlock clean block, plain) := by
  rw [cleanBlock_eq h, writtenBlock]
  rw [blockTexts] at hgap
  cases hdata : dataOf block with
  | none => rfl
  | some data =>
    rw [hdata] at hgap
    change (cleanFunc _ _ _ _ _).map _ = _
    rw [cleanFunc_of_noGap (h.data data hdata) hgap]
    rfl

theorem cleanBlock_of_replaced (h : IsBlock block)
    (hsame : ∀ run ∈ blockTexts block, ∀ text ∈ run, replaced clean text = text)
    (hkept : KeepsUrl clean block) :
    cleanBlock clean stripTags false (block, plain) = .ok (block, plain) := by
  rw [cleanBlock_eq h]
  rw [blockTexts] at hsame
  cases hdata : dataOf block with
  | none => rfl
  | some data =>
    rw [hdata] at hsame
    change (cleanFunc _ _ _ _ _).map _ = _
    rw [cleanFunc_of_replaced (h.data data hdata) hsame (hkept data hdata)]
    simp only [Except.map, set_eq_self (dataOf_eq_some.mp hdata).1]

theorem blockTexts_replaceBlock (h : IsBlock block) :
    blockTexts (replaceBlock clean block) = (blockTexts block).map (List.map (replaced clean)) := by
  rw [blockTexts, blockTexts, typeOf_replaceBlock]
  cases hdata : dataOf block with
  | none =>
    rw [replaceBlock_of_none hdata, hdata]
    rfl
  | some data =>
    rw [dataOf_replaceBlock hdata]
    exact dataTexts_replaceData (h.data data hdata)

theorem isBlock_replaceBlock (h : IsBlock block) : IsBlock (replaceBlock clean block) := by
  refine ⟨?_, fun data' hdata' => ?_⟩
  · rw [replaceBlock, get?_update_of_ne type_ne_data]
    exact h.type
  · rw [typeOf_replaceBlock]
    cases hdata : dataOf block with
    | none =>
      rw [replaceBlock_of_none hdata, hdata] at hdata'
      cases hdata'
    | some data =>
      rw [dataOf_replaceBlock hdata] at hdata'
      obtain rfl := Option.some.inj hdata'
      exact isData_replaceData (h.data data hdata)

theorem keepsUrl_replaceBlock (h : KeepsUrl clean block) :
    KeepsUrl clean (replaceBlock clean block) := by
  intro data' hdata'
  rw [typeOf_replaceBlock]
  cases hdata : dataOf block with
  | none =>
    rw [replaceBlock_of_none hdata, hdata] at hdata'
    cases hdata'
  | some data =>
    rw [dataOf_replaceBlock hdata] at hdata'
    obtain rfl := Option.some.inj hdata'
    exact urlKept_replaceData (h data hdata)

theorem writtenBlock_eq_iff (h : IsBlock block) :
    writtenBlock clean block = replaceBlock clean block ↔ KeepsUrl clean block := by
  rw [writtenBlock, KeepsUrl]
  cases hdata : dataOf block with
  | none => simp [replaceBlock_of_none hdata]
  | some data =>
    have hget := (dataOf_eq_some.mp hdata).1
    have hdatas : block.set (codes "data") (writtenData clean (typeOf block) data)
        = block.set (codes "data") (replaceData clean (typeOf block) data) ↔
        writtenData clean (typeOf block) data = replaceData clean (typeOf block) data := by
      refine ⟨fun heq => ?_, fun heq => by rw [heq]⟩
      have hgets := congrArg (fun block => Json.get? block (codes "data")) heq
      simp only [get?_set_self hget] at hgets
      exact Option.some.inj hgets
    rw [replaceBlock_of_some hdata]
    refine (hdatas.trans (writtenData_eq_iff (h.data data hdata))).trans ?_
    simp

end Blocks

/-! ### The whole document -/

/-- A document with other blocks. -/
def withBlocks (definitions : Json) (blocks : List Json) : Json :=
  definitions.update (codes "blocks") fun
    | .list _ => .list blocks
    | value => value

section Documents

variable {clean stripTags : Text → Text} {toString : Bool} {definitions : Json}
  {blocks : List Json} {plain : List Text}

theorem blocksOf_eq_nil_or (definitions : Json) : blocksOf definitions = [] ∨
    definitions.get? (codes "blocks") = some (.list (blocksOf definitions)) := by
  rw [blocksOf]
  split
  · rename_i hget
    exact .inr hget
  · exact .inl rfl

theorem withBlocks_of_nil (h : blocksOf definitions = []) :
    withBlocks definitions [] = definitions := by
  refine update_eq_self fun v hget => ?_
  rw [blocksOf, hget] at h
  cases v with
  | list blocks =>
    obtain rfl : blocks = [] := h
    rfl
  | null | bool | number | str | dict => rfl

theorem withBlocks_blocksOf : withBlocks definitions (blocksOf definitions) = definitions := by
  refine update_eq_self fun v hget => ?_
  rw [blocksOf, hget]
  split
  · rfl
  · rfl

theorem blocksOf_withBlocks (h : blocks.length = (blocksOf definitions).length) :
    blocksOf (withBlocks definitions blocks) = blocks := by
  rw [blocksOf, withBlocks, get?_update_self]
  obtain hnil | hget := blocksOf_eq_nil_or definitions
  · rw [hnil] at h
    obtain rfl := List.length_eq_zero_iff.mp h
    rw [blocksOf] at hnil
    split
    · rename_i values hvalues
      obtain ⟨v, hv, hlist⟩ := Option.map_eq_some_iff.mp hvalues
      split at hlist
      · exact (Json.list.inj hlist).symm
      · rename_i hnot
        exact absurd hlist (hnot values)
    · rfl
  · rw [hget]
    rfl

theorem replaceFields_eq : replaceFields clean definitions
    = withBlocks definitions ((blocksOf definitions).map (replaceBlock clean)) := by
  obtain hnil | hget := blocksOf_eq_nil_or definitions
  · rw [hnil, List.map_nil, withBlocks_of_nil hnil]
    refine update_eq_self fun v hget => ?_
    rw [blocksOf, hget] at hnil
    cases v with
    | list blocks =>
      obtain rfl : blocks = [] := hnil
      rfl
    | null | bool | number | str | dict => rfl
  · rw [replaceFields, withBlocks, update_of_get? hget, update_of_get? hget]

theorem cleanEditorJs_eq (h : IsEditorJs definitions) :
    cleanEditorJs clean stripTags toString definitions
      = (cleanBlocks clean stripTags toString (blocksOf definitions) []).map fun p =>
          (withBlocks definitions p.1, p.2) := by
  obtain rfl | ⟨⟨items, rfl⟩, -⟩ := h
  · rfl
  · rw [cleanEditorJs]
    split
    · rename_i block blocks hget
      have hblocks : blocksOf (.dict items) = block :: blocks := by rw [blocksOf, hget]
      rw [hblocks]
      refine congrArg₂ Except.map (funext fun p => ?_) rfl
      rw [withBlocks, update_of_get? hget]
    · rename_i hnot
      have hblocks : blocksOf (.dict items) = [] := by
        obtain hnil | hget := blocksOf_eq_nil_or (.dict items)
        · exact hnil
        · cases hcases : blocksOf (.dict items) with
          | nil => rfl
          | cons block blocks =>
            rw [hcases] at hget
            exact absurd hget (hnot _ _)
      rw [hblocks]
      change _ = Except.ok (withBlocks (.dict items) [], [])
      rw [withBlocks_of_nil hblocks]

theorem cleanBlocks_plain (h : ∀ block ∈ blocks, IsBlock block) :
    cleanBlocks clean stripTags true blocks plain
      = .ok (blocks, plain ++ ((blocks.flatMap blockTexts).flatMap visited).map fun text =>
          stripTags (clean text)) := by
  induction blocks generalizing plain with
  | nil => simp [cleanBlocks]
  | cons block blocks ih =>
    rw [List.forall_mem_cons] at h
    rw [cleanBlocks, cleanBlock_plain h.1]
    change (cleanBlocks _ _ _ _ _).map _ = _
    rw [ih h.2]
    simp [Except.map]

theorem cleanBlocks_of_noGap (h : ∀ block ∈ blocks, IsBlock block)
    (hgap : ∀ block ∈ blocks, ∀ run ∈ blockTexts block, NoGap run) :
    cleanBlocks clean stripTags false blocks plain
      = .ok (blocks.map (writtenBlock clean), plain) := by
  induction blocks with
  | nil => rfl
  | cons block blocks ih =>
    rw [List.forall_mem_cons] at h hgap
    rw [cleanBlocks, cleanBlock_of_noGap h.1 hgap.1]
    change (cleanBlocks _ _ _ _ _).map _ = _
    rw [ih h.2 hgap.2]
    rfl

theorem cleanBlocks_of_replaced (h : ∀ block ∈ blocks, IsBlock block)
    (hsame : ∀ block ∈ blocks, ∀ run ∈ blockTexts block, ∀ text ∈ run, replaced clean text = text)
    (hkept : ∀ block ∈ blocks, KeepsUrl clean block) :
    cleanBlocks clean stripTags false blocks plain = .ok (blocks, plain) := by
  induction blocks with
  | nil => rfl
  | cons block blocks ih =>
    rw [List.forall_mem_cons] at h hsame hkept
    rw [cleanBlocks, cleanBlock_of_replaced h.1 hsame.1 hkept.1]
    change (cleanBlocks _ _ _ _ _).map _ = _
    rw [ih h.2 hsame.2 hkept.2]
    rfl

theorem isBlock_of_isEditorJs (h : IsEditorJs definitions) :
    ∀ block ∈ blocksOf definitions, IsBlock block := by
  obtain rfl | ⟨-, hblocks⟩ := h
  · exact List.forall_mem_nil _
  · exact hblocks

theorem blocksOf_replaceFields : blocksOf (replaceFields clean definitions)
    = (blocksOf definitions).map (replaceBlock clean) := by
  rw [replaceFields_eq, blocksOf_withBlocks (List.length_map _)]

theorem isEditorJs_replaceFields (clean : Text → Text) (h : IsEditorJs definitions) :
    IsEditorJs (replaceFields clean definitions) := by
  have hblocks : ∀ block ∈ blocksOf (replaceFields clean definitions), IsBlock block := by
    rw [blocksOf_replaceFields, List.forall_mem_map]
    exact fun block hmem => isBlock_replaceBlock (isBlock_of_isEditorJs h block hmem)
  obtain rfl | ⟨⟨items, rfl⟩, -⟩ := h
  · exact .inl rfl
  · refine .inr ⟨?_, hblocks⟩
    rw [replaceFields, update]
    split
    · exact ⟨_, rfl⟩
    · exact ⟨_, rfl⟩

/-- The texts of the cleaned document are the cleaned texts. -/
theorem texts_replaceFields (h : IsEditorJs definitions) : texts (replaceFields clean definitions)
    = (texts definitions).map (List.map (replaced clean)) := by
  rw [texts, blocksOf_replaceFields, List.flatMap_map, texts, List.map_flatMap]
  exact List.flatMap_congr fun block hmem =>
    blockTexts_replaceBlock (isBlock_of_isEditorJs h block hmem)

end Documents

/-! ### When a document is sanitised -/

section Sanitizes

variable {clean stripTags : Text → Text} {definitions : Json}

theorem replaced_replaced (hclean : ∀ text, clean (clean text) = clean text) (text : Text) :
    replaced clean (replaced clean text) = replaced clean text := by
  by_cases htext : text = []
  · rw [htext]
    rfl
  · rw [replaced, replaced, if_neg htext]
    split
    · rename_i hempty
      exact hempty.symm
    · exact hclean text

theorem visited_sublist (run : List Text) : (visited run).Sublist (nonEmpty run) := by
  have hfilter : nonEmpty (visited run) = visited run :=
    List.filter_eq_self.mpr fun text hmem => by simpa using List.mem_takeWhile_imp hmem
  rw [← hfilter]
  exact (List.takeWhile_sublist _).filter _

/-- All texts are visited exactly if there is no gap. -/
theorem length_visited_eq_iff {run : List Text} :
    (visited run).length = (nonEmpty run).length ↔ NoGap run := by
  induction run with
  | nil => exact iff_of_true rfl List.Pairwise.nil
  | cons text run ih =>
    rw [NoGap, List.pairwise_cons]
    by_cases htext : text = []
    · subst htext
      have hvisited : visited ([] :: run) = [] := by simp [visited]
      have hfilter : nonEmpty ([] :: run) = nonEmpty run := by simp [nonEmpty]
      rw [hvisited, hfilter, List.length_nil, eq_comm, List.length_eq_zero_iff, nonEmpty,
        List.filter_eq_nil_iff]
      constructor
      · intro hall
        have hempty : ∀ next ∈ run, next = [] := fun next hmem => by simpa using hall next hmem
        refine ⟨fun next hmem _ => hempty next hmem, ?_⟩
        exact List.pairwise_of_forall_mem_list fun _ _ next hmem _ => hempty next hmem
      · rintro ⟨hempty, -⟩ next hmem
        simpa using hempty next hmem rfl
    · have hvisited : visited (text :: run) = text :: visited run := by simp [visited, htext]
      have hfilter : nonEmpty (text :: run) = text :: nonEmpty run := by simp [nonEmpty, htext]
      rw [hvisited, hfilter, List.length_cons, List.length_cons, Nat.add_right_cancel_iff, ih,
        NoGap]
      simp [htext]

theorem visited_of_noGap {run : List Text} (h : NoGap run) : visited run = nonEmpty run :=
  (visited_sublist run).eq_of_length (length_visited_eq_iff.mpr h)

theorem filled_cons {run : List Text} {runs : List (List Text)} :
    filled (run :: runs) = nonEmpty run ++ filled runs := by
  rw [filled, nonEmpty, List.flatten_cons, List.filter_append]
  rfl

theorem length_flatMap_visited_le (runs : List (List Text)) :
    (runs.flatMap visited).length ≤ (filled runs).length := by
  induction runs with
  | nil => exact le_rfl
  | cons run runs ih =>
    rw [List.flatMap_cons, filled_cons, List.length_append, List.length_append]
    exact Nat.add_le_add (visited_sublist run).length_le ih

/-- The plain text has all texts exactly if there is no gap. -/
theorem visited_eq_filled_iff {runs : List (List Text)} :
    (runs.flatMap visited).map (fun text => stripTags (clean text))
      = (filled runs).map (fun text => stripTags (clean text)) ↔ ∀ run ∈ runs, NoGap run := by
  induction runs with
  | nil => exact iff_of_true rfl (List.forall_mem_nil _)
  | cons run runs ih =>
    rw [List.flatMap_cons, filled_cons, List.map_append, List.map_append, List.forall_mem_cons,
      ← ih]
    constructor
    · intro heq
      have hlength := congrArg List.length heq
      have hrun := (visited_sublist run).length_le
      have hruns := length_flatMap_visited_le runs
      simp only [List.length_append, List.length_map] at hlength
      have hgap : NoGap run := length_visited_eq_iff.mp (by omega)
      rw [visited_of_noGap hgap] at heq
      exact ⟨hgap, List.append_cancel_left heq⟩
    · rintro ⟨hgap, heq⟩
      rw [visited_of_noGap hgap, heq]

/-- **The plain text** has all texts, once each, exactly if there are no gaps. -/
theorem plain_iff (h : IsEditorJs definitions) :
    cleanEditorJs clean stripTags true definitions = .ok (definitions,
      (fields definitions).map fun text => stripTags (clean text)) ↔
      ∀ block ∈ blocksOf definitions, ∀ run ∈ blockTexts block, NoGap run := by
  rw [cleanEditorJs_eq h, cleanBlocks_plain (isBlock_of_isEditorJs h)]
  simp only [Except.map, withBlocks_blocksOf, List.nil_append, Except.ok.injEq, Prod.mk.injEq,
    true_and]
  rw [fields, texts, visited_eq_filled_iff, List.forall_mem_flatMap]

/-- **The document** without gaps has its texts cleaned exactly if the URLs of images stay. -/
theorem document_iff (h : IsEditorJs definitions)
    (hgap : ∀ block ∈ blocksOf definitions, ∀ run ∈ blockTexts block, NoGap run) :
    cleanEditorJs clean stripTags false definitions = .ok (replaceFields clean definitions, []) ↔
      ∀ block ∈ blocksOf definitions, KeepsUrl clean block := by
  have hblocks := isBlock_of_isEditorJs h
  have hlists : withBlocks definitions ((blocksOf definitions).map (writtenBlock clean))
      = withBlocks definitions ((blocksOf definitions).map (replaceBlock clean)) ↔
      (blocksOf definitions).map (writtenBlock clean)
        = (blocksOf definitions).map (replaceBlock clean) := by
    refine ⟨fun heq => ?_, fun heq => by rw [heq]⟩
    have hof := congrArg blocksOf heq
    rwa [blocksOf_withBlocks (List.length_map _), blocksOf_withBlocks (List.length_map _)] at hof
  rw [cleanEditorJs_eq h, cleanBlocks_of_noGap hblocks hgap, replaceFields_eq]
  simp only [Except.map, Except.ok.injEq, Prod.mk.injEq, and_true]
  rw [hlists, List.map_inj_left]
  exact forall₂_congr fun block hmem => writtenBlock_eq_iff (hblocks block hmem)

/-- **Another time** changes nothing. -/
theorem cleanEditorJs_replaceFields (hclean : ∀ text, clean (clean text) = clean text)
    (h : IsEditorJs definitions) (hkept : ∀ block ∈ blocksOf definitions, KeepsUrl clean block) :
    cleanEditorJs clean stripTags false (replaceFields clean definitions)
      = .ok (replaceFields clean definitions, []) := by
  have h' := isEditorJs_replaceFields clean h
  rw [cleanEditorJs_eq h', cleanBlocks_of_replaced (isBlock_of_isEditorJs h')]
  · simp only [Except.map, withBlocks_blocksOf]
  · intro block hmem run hrun text htext
    have hmem' : run ∈ texts (replaceFields clean definitions) :=
      List.mem_flatMap.mpr ⟨block, hmem, hrun⟩
    rw [texts_replaceFields h] at hmem'
    obtain ⟨run', -, rfl⟩ := List.mem_map.mp hmem'
    obtain ⟨text', -, rfl⟩ := List.mem_map.mp htext
    exact replaced_replaced hclean text'
  · rw [blocksOf_replaceFields, List.forall_mem_map]
    exact fun block hmem => keepsUrl_replaceBlock (hkept block hmem)

/-- The texts of the cleaned document are cleaned texts. -/
theorem exists_of_mem_fields (h : IsEditorJs definitions) {text : Text}
    (htext : text ∈ fields (replaceFields clean definitions)) : ∃ text', text = clean text' := by
  rw [fields, filled, nonEmpty, texts_replaceFields h, List.mem_filter, List.mem_flatten] at htext
  obtain ⟨⟨run, hrun, hmem⟩, hne⟩ := htext
  obtain ⟨run', -, rfl⟩ := List.mem_map.mp hrun
  obtain ⟨text', -, rfl⟩ := List.mem_map.mp hmem
  rw [replaced] at hne ⊢
  split
  · rename_i hempty
    simp [hempty] at hne
  · exact ⟨text', rfl⟩

/-- **A document is sanitised** exactly if no list and no embed has a text behind an empty one, and
every URL of an image has nothing to clean and stands under the other key, too. -/
theorem sanitizes_iff (hclean : ∀ text, clean (clean text) = clean text)
    (h : IsEditorJs definitions) : Sanitizes clean stripTags definitions ↔
      ∀ block ∈ blocksOf definitions,
        (∀ run ∈ blockTexts block, NoGap run) ∧ KeepsUrl clean block := by
  constructor
  · intro hsanitizes
    have hgap := (plain_iff h).mp hsanitizes.plain
    have hkept := (document_iff h hgap).mp hsanitizes.document
    exact fun block hmem => ⟨hgap block hmem, hkept block hmem⟩
  · intro hcond
    have hgap := fun block hmem => (hcond block hmem).1
    have hkept := fun block hmem => (hcond block hmem).2
    have hplain : cleanEditorJs clean stripTags true definitions = .ok (definitions,
        (fields definitions).map fun text => stripTags (clean text)) := (plain_iff h).mpr hgap
    refine ⟨(document_iff h hgap).mpr hkept, cleanEditorJs_replaceFields hclean h hkept, ?_, hplain,
      ?_⟩
    · intro Safe hsafe text htext
      obtain ⟨text', rfl⟩ := exists_of_mem_fields h htext
      exact hsafe text'
    · rw [plainText, hplain]
      rfl


/-- A link that is not allowed. -/
def badLink : Text := codes "<a href=\"javascript://alert\">"

/-- What cleaning makes of it. -/
def goodLink : Text := codes "<a href=\"#invalid\">"

/-- Cleaning, of these two. -/
def cleanLink (text : Text) : Text := if text = badLink then goodLink else text

/-- What is left of them without tags. -/
def stripLink (text : Text) : Text := if text = badLink ∨ text = goodLink then [] else text

/-- A document with one block. -/
def oneBlock (blockType : String) (data : List (Text × Json)) : Json :=
  .dict [(codes "blocks", .list [.dict [(codes "type", .str (codes blockType)),
    (codes "data", .dict data)]])]

/-- A list. -/
def listOf (items : List Text) : Json := oneBlock "list" [(codes "items", .list (textItems items))]

/-- An image. -/
def imageOf (url : Text) : Json :=
  oneBlock "image" [(codes "file", .dict [(codes "url", .str url)])]

theorem cleanLink_cleanLink (text : Text) : cleanLink (cleanLink text) = cleanLink text := by
  by_cases hbad : text = badLink
  · rw [hbad]
    simp [cleanLink, badLink, goodLink, codes_inj]
  · rw [cleanLink, cleanLink, if_neg hbad, if_neg hbad]

theorem isEditorJs_listOf (items : List Text) : IsEditorJs (listOf items) := by
  refine .inr ⟨⟨_, rfl⟩, List.forall_mem_singleton.mpr ⟨⟨codes "list", rfl⟩, ?_⟩⟩
  intro data hdata
  obtain rfl : Json.dict [(codes "items", .list (textItems items))] = data := Option.some.inj hdata
  have hne : codes "list" ≠ codes "image" := by simp [codes_inj]
  exact ⟨fun _ => ⟨items, rfl⟩, fun h => absurd h hne, List.forall_mem_nil _⟩

theorem sanitizes_iff_links : Sanitizes cleanLink stripLink (listOf [badLink, codes "tea", []]) ↔
    ∀ block ∈ blocksOf (listOf [badLink, codes "tea", []]),
      (∀ run ∈ blockTexts block, NoGap run) ∧ KeepsUrl cleanLink block :=
  sanitizes_iff cleanLink_cleanLink (isEditorJs_listOf _)

/-- An empty item before a link keeps it from being cleaned, and the URL of an image is never
cleaned. -/
theorem not_sanitizes_emptyFirst :
    cleanEditorJs cleanLink stripLink false (listOf [[], badLink])
      = .ok (listOf [[], badLink], []) ∧
    ¬ Sanitizes cleanLink stripLink (listOf [[], badLink]) ∧
    ¬ Sanitizes cleanLink stripLink (imageOf badLink) := by
  refine ⟨rfl, fun h => ?_, fun h => ?_⟩
  · exact absurd (congrArg (Except.map fun s => texts s.1) h.document) (by decide +kernel)
  · exact absurd (congrArg (Except.map fun s => texts s.1) h.document) (by decide +kernel)

end Sanitizes

end EditorJs

end Aixinwu
