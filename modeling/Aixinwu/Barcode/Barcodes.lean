import Aixinwu.Lib.Runs
import Aixinwu.Lib.Serial
import Mathlib.Algebra.Order.Ring.Int

/-!
# Barcodes

A barcode is shown as one number, the month `yymm` followed by five digits for `sub`. Two mutations
make barcodes. `BarcodeBatchCreate` counts on from the largest `sub` of the month,
`BarcodeDefaultCreate` splits a scanned number and takes or makes the barcode with these two parts.

Neither the column nor the code bounds `sub` by five digits. Splitting always gives a `sub` below
`100000`, so it is the batches that can leave the range: a month that has used its last `sub`
(by counting, or because somebody scanned a number that ends in `99999`) goes on with `100000`, and
that barcode shows a number of the *next* month. As long as no batch does this, the two paths
agree (**`uniqueAndDecodable_iff`**).

The table has no constraint beyond the primary key; that pairs are unique is due to the lookup on
the one path and to the maximum on the other.

## What is deliberately absent

`created_at`, which no function here reads. A request is served within one month.

## Main definitions

* `Barcode`, `Db`
* `barcodeBatchCreate`, `barcodeDefaultCreate`, `step`
* `UniqueAndDecodable`
* `FiveDigits` — the batch leaves every `sub` with five digits

## Main results

* `uniqueAndDecodable_iff`
-/

namespace Aixinwu

namespace Barcodes

open Runs

/-- `barcode.models.Barcode`. -/
structure Barcode where
  id : ℕ
  yearMonth : ℤ
  used : Bool := false
  sub : ℤ
deriving DecidableEq, Repr

instance : HasPk Barcode ℕ := ⟨Barcode.id⟩

@[simp] theorem pk_barcode (b : Barcode) : pk b = b.id := rfl

/-- The table of barcodes, with the sequence behind its `AutoField`. -/
abbrev Db := Serial Barcode

/-- A month of a century. -/
structure Month where
  year : ℕ
  month : ℕ
  year_lt : year < 100
  month_pos : 1 ≤ month
  month_le : month ≤ 12

/-- Why a request fails. -/
inductive Failure where
  | multipleObjectsReturned
  | dataError
deriving DecidableEq, Repr

/-- What an `IntegerField` can hold. -/
def FitsIntegerField (n : ℤ) : Prop := -2147483648 ≤ n ∧ n ≤ 2147483647

instance (n : ℤ) : Decidable (FitsIntegerField n) := inferInstanceAs (Decidable (_ ∧ _))

/-! ### `barcode/models.py` -/

/-- `current_year_month`, `int(now.strftime("%y%m"))`. -/
def currentYearMonth (now : Month) : ℤ := now.year * 100 + now.month

/-- `sub__max or 0` of the barcodes of the current month. -/
def maxSub (db : Db) (now : Month) : ℤ :=
  ((db.rows.filter (·.yearMonth = currentYearMonth now)).map (·.sub)).max?.getD 0

/-- `get_sub`. -/
def getSub (db : Db) (now : Month) : ℤ := maxSub db now + 1

/-- `Barcode.objects.create(year_month=…, sub=…)`. -/
def createBarcode (db : Db) (yearMonth sub : ℤ) : Except Failure (Db × Barcode) :=
  if FitsIntegerField yearMonth ∧ FitsIntegerField sub then
    .ok (db.create (fun id => ⟨id, yearMonth, false, sub⟩) fun _ => rfl,
      ⟨db.next, yearMonth, false, sub⟩)
  else .error .dataError

/-- `get_or_create(year_month=…, sub=…)`. -/
def getOrCreate (db : Db) (yearMonth sub : ℤ) : Except Failure (Db × Barcode × Bool) :=
  match db.toTable.get fun b => b.yearMonth = yearMonth ∧ b.sub = sub with
  | .ok barcode => .ok (db, barcode, false)
  | .error .doesNotExist => (createBarcode db yearMonth sub).map fun (db, barcode) => (db, barcode, true)
  | .error .multipleObjectsReturned => .error .multipleObjectsReturned

/-! ### The mutations -/

/-- `Barcode.resolve_number`. -/
def resolveNumber (b : Barcode) : ℤ := b.yearMonth * 100000 + b.sub

/-- How `BarcodeDefaultCreate` takes a number apart, `number // 100000` and `number % 100000`. -/
def splitNumber (number : ℤ) : ℤ × ℤ := (number.fdiv 100000, number.fmod 100000)

/-- The barcodes that `[Barcode.objects.create() for _ in range(count)]` makes. Each `create`
evaluates the defaults again. -/
def createBarcodes (now : Month) : ℕ → Db → Except Failure (Db × List Barcode)
  | 0, db => .ok (db, [])
  | count + 1, db => do
    let (db, barcode) ← createBarcode db (currentYearMonth now) (getSub db now)
    let (db, barcodes) ← createBarcodes now count db
    return (db, barcode :: barcodes)

/-- `BarcodeBatchCreate.perform_mutation`; `range` of a negative count is empty. -/
def barcodeBatchCreate (db : Db) (now : Month) (count : ℤ) :
    Except Failure (Db × List Barcode) :=
  createBarcodes now count.toNat db

/-- `BarcodeDefaultCreate.perform_mutation`: the state, the barcode, `created` and
`used_before`. -/
def barcodeDefaultCreate (db : Db) (number : ℤ) : Except Failure (Db × Barcode × Bool × Bool) := do
  let (yearMonth, sub) := splitNumber number
  let (db, barcode, created) ← getOrCreate db yearMonth sub
  let usedBefore := barcode.used
  if ¬ barcode.used then
    let barcode := { barcode with used := true }
    return (db.save barcode, barcode, created, usedBefore)
  else
    return (db, barcode, created, usedBefore)

/-- A request to one of the two mutations. -/
inductive Request where
  | batch (now : Month) (count : ℤ)
  | default (number : ℤ)

/-- The state after a request; one that fails has been rolled back. -/
def step (db : Db) : Request → Db
  | .batch now count => match barcodeBatchCreate db now count with
    | .ok (db', _) => db'
    | .error _ => db
  | .default number => match barcodeDefaultCreate db number with
    | .ok (db', _) => db'
    | .error _ => db

/-! ### What is wanted of the barcodes -/

/-- No two barcodes share month and `sub`. -/
def PairsUnique (db : Db) : Prop :=
  ∀ b ∈ db, ∀ c ∈ db, b.yearMonth = c.yearMonth → b.sub = c.sub → b = c

/-- No two barcodes show the same number. -/
def NumbersUnique (db : Db) : Prop :=
  ∀ b ∈ db, ∀ c ∈ db, resolveNumber b = resolveNumber c → b = c

/-- Scanning a barcode leads back to it. -/
def Decodable (db : Db) : Prop :=
  ∀ b ∈ db, splitNumber (resolveNumber b) = (b.yearMonth, b.sub)

/-- Barcodes are told apart by their parts and by their numbers, and numbers are read back. -/
structure UniqueAndDecodable (db : Db) : Prop where
  pairs : PairsUnique db
  numbers : NumbersUnique db
  decodable : Decodable db

/-- The request keeps `sub` to five digits: it scans a number, or asks for a batch that is empty,
that ends by `99999` or that the database refuses as a whole. -/
def FiveDigits (db : Db) : Request → Prop
  | .batch now count =>
    count ≤ 0 ∨ maxSub db now + count ≤ 99999 ∨ 2147483647 < maxSub db now + count
  | .default _ => True

/-- The invariant. -/
structure Sound (db : Db) : Prop where
  pairs : PairsUnique db
  sub_nonneg : ∀ b ∈ db, 0 ≤ b.sub
  sub_lt : ∀ b ∈ db, b.sub < 100000

/-! ### The positional code -/

theorem splitNumber_resolveNumber {b : Barcode} (hnonneg : 0 ≤ b.sub) (hlt : b.sub < 100000) :
    splitNumber (resolveNumber b) = (b.yearMonth, b.sub) := by
  rw [splitNumber, resolveNumber, Int.fdiv_eq_ediv_of_nonneg _ (by omega),
    Int.fmod_eq_emod_of_nonneg _ (by omega), Prod.mk.injEq]
  omega

/-- What splitting yields has five digits. -/
theorem splitNumber_snd (number : ℤ) :
    0 ≤ (splitNumber number).2 ∧ (splitNumber number).2 < 100000 := by
  rw [splitNumber, Int.fmod_eq_emod_of_nonneg _ (by omega)]
  omega

theorem Sound.uniqueAndDecodable {db : Db} (h : Sound db) : UniqueAndDecodable db := by
  have hdecodable : Decodable db := fun b hb =>
    splitNumber_resolveNumber (h.sub_nonneg b hb) (h.sub_lt b hb)
  refine ⟨h.pairs, fun b hb c hc hnumber => ?_, hdecodable⟩
  -- a number that is read back tells the pair, and the pair tells the barcode
  have hpair : (b.yearMonth, b.sub) = (c.yearMonth, c.sub) := by
    rw [← hdecodable b hb, ← hdecodable c hc, hnumber]
  exact h.pairs b hb c hc (congrArg Prod.fst hpair) (congrArg Prod.snd hpair)

/-- A sixth digit is lost when a number is read back. -/
theorem not_decodable {db : Db} {b : Barcode} (hb : b ∈ db) (hsub : 100000 ≤ b.sub) :
    ¬ Decodable db := by
  intro h
  have hsnd := splitNumber_snd (resolveNumber b)
  rw [h b hb] at hsnd
  exact absurd hsnd.2 (by simpa using hsub)

/-! ### Creating a barcode -/

theorem create_eq_ok {db db' : Db} {yearMonth sub : ℤ} {b : Barcode}
    (h : createBarcode db yearMonth sub = .ok (db', b)) :
    FitsIntegerField sub ∧ b = ⟨db.next, yearMonth, false, sub⟩ ∧
      db'.rows = db.rows ++ [b] := by
  rw [createBarcode] at h
  split at h
  · rename_i hfits
    cases h
    exact ⟨hfits.2, rfl, rfl⟩
  · cases h

/-- `get_sub` is above every `sub` of the month. -/
theorem sub_lt_getSub {db : Db} {now : Month} {b : Barcode} (hb : b ∈ db)
    (hmonth : b.yearMonth = currentYearMonth now) : b.sub < getSub db now := by
  have hmem : b.sub ∈ (db.rows.filter (·.yearMonth = currentYearMonth now)).map (·.sub) :=
    List.mem_map_of_mem (List.mem_filter.mpr ⟨hb, by simpa using hmonth⟩)
  rw [getSub, maxSub]
  cases hmax : ((db.rows.filter (·.yearMonth = currentYearMonth now)).map (·.sub)).max? with
  | none => rw [List.max?_eq_none_iff.mp hmax] at hmem; cases hmem
  | some m =>
    have hle : b.sub ≤ m := (List.max?_eq_some_iff.mp hmax).2 _ hmem
    exact Int.lt_add_one_of_le hle

theorem maxSub_nonneg {db : Db} (h : Sound db) (now : Month) : 0 ≤ maxSub db now := by
  rw [maxSub]
  cases hmax : ((db.rows.filter (·.yearMonth = currentYearMonth now)).map (·.sub)).max? with
  | none => exact le_rfl
  | some m =>
    obtain ⟨b, hb, rfl⟩ := List.mem_map.mp (List.max?_eq_some_iff.mp hmax).1
    exact h.sub_nonneg b (List.mem_filter.mp hb).1

/-- Each barcode that the default `sub` is used for moves the maximum by one. -/
theorem maxSub_create {db db' : Db} {now : Month} {b : Barcode}
    (h : createBarcode db (currentYearMonth now) (getSub db now) = .ok (db', b)) :
    maxSub db' now = maxSub db now + 1 := by
  obtain ⟨-, rfl, hrows⟩ := create_eq_ok h
  have hsubs : (db'.rows.filter (·.yearMonth = currentYearMonth now)).map (·.sub)
      = (db.rows.filter (·.yearMonth = currentYearMonth now)).map (·.sub)
        ++ [getSub db now] := by
    rw [hrows, List.filter_append, List.map_append]
    simp
  have hmax : ((db'.rows.filter (·.yearMonth = currentYearMonth now)).map (·.sub)).max?
      = some (getSub db now) := by
    rw [hsubs]
    refine List.max?_eq_some_iff.mpr ⟨by simp, fun s hs => ?_⟩
    rcases List.mem_append.mp hs with hs | hs
    · obtain ⟨c, hc, rfl⟩ := List.mem_map.mp hs
      obtain ⟨hc, hmonth⟩ := List.mem_filter.mp hc
      exact (sub_lt_getSub hc (by simpa using hmonth)).le
    · exact (List.mem_singleton.mp hs).le
  rw [maxSub, hmax]
  rfl

/-- A new pair that is not yet taken keeps the invariant. -/
theorem sound_create {db db' : Db} {yearMonth sub : ℤ} {b : Barcode} (hdb : Sound db)
    (h : createBarcode db yearMonth sub = .ok (db', b)) (hnonneg : 0 ≤ sub) (hlt : sub < 100000)
    (hnew : ∀ c ∈ db, ¬ (c.yearMonth = yearMonth ∧ c.sub = sub)) : Sound db' := by
  obtain ⟨-, rfl, hrows⟩ := create_eq_ok h
  have hmem : ∀ c, c ∈ db' ↔ c ∈ db ∨ c = ⟨db.next, yearMonth, false, sub⟩ := by
    intro c
    rw [Serial.mem_def, hrows, List.mem_append, List.mem_singleton, Serial.mem_def]
  refine ⟨?_, ?_, ?_⟩
  · intro c hc d hd hmonth hsub
    rcases (hmem c).mp hc with hc | rfl <;> rcases (hmem d).mp hd with hd | rfl
    · exact hdb.pairs c hc d hd hmonth hsub
    · exact absurd ⟨hmonth, hsub⟩ (hnew c hc)
    · exact absurd ⟨hmonth.symm, hsub.symm⟩ (hnew d hd)
    · rfl
  · intro c hc
    rcases (hmem c).mp hc with hc | rfl
    · exact hdb.sub_nonneg c hc
    · exact hnonneg
  · intro c hc
    rcases (hmem c).mp hc with hc | rfl
    · exact hdb.sub_lt c hc
    · exact hlt

/-! ### A batch -/

theorem createBarcodes_succ {now : Month} {count : ℕ} {db db' : Db} {bs : List Barcode} :
    createBarcodes now (count + 1) db = .ok (db', bs) ↔
      ∃ db₁ b rest, createBarcode db (currentYearMonth now) (getSub db now) = .ok (db₁, b) ∧
        createBarcodes now count db₁ = .ok (db', rest) ∧ bs = b :: rest := by
  rw [createBarcodes]
  cases hcreate : createBarcode db (currentYearMonth now) (getSub db now) with
  | error e => simp [bind, Except.bind]
  | ok r =>
    obtain ⟨db₁, b⟩ := r
    cases hrest : createBarcodes now count db₁ with
    | error e => simp [bind, Except.bind, hrest]
    | ok r =>
      obtain ⟨db₂, rest⟩ := r
      simp [bind, Except.bind, pure, Except.pure, hrest, eq_comm]

/-- A batch that ends within five digits keeps the invariant. -/
theorem sound_createBarcodes {now : Month} {count : ℕ} {db db' : Db} {bs : List Barcode}
    (hdb : Sound db) (hlast : maxSub db now + count ≤ 99999)
    (h : createBarcodes now count db = .ok (db', bs)) : Sound db' := by
  induction count generalizing db bs with
  | zero =>
    cases h
    exact hdb
  | succ count ih =>
    obtain ⟨db₁, b, rest, hcreate, hrest, rfl⟩ := createBarcodes_succ.mp h
    push_cast at hlast
    have hnonneg := maxSub_nonneg hdb now
    have hdb₁ : Sound db₁ := by
      refine sound_create hdb hcreate ?_ ?_ fun c hc hpair => ?_
      · rw [getSub]; omega
      · rw [getSub]; omega
      · exact (sub_lt_getSub hc hpair.1).ne hpair.2
    refine ih hdb₁ ?_ hrest
    rw [maxSub_create hcreate]
    omega

/-- A batch of at least one ends with the maximum plus its size, so this fits the column. -/
theorem createBarcodes_last {now : Month} {count : ℕ} {db db' : Db} {bs : List Barcode}
    (h : createBarcodes now (count + 1) db = .ok (db', bs)) :
    maxSub db now + (count + 1) ≤ 2147483647 ∧
      ∃ b ∈ db', b.sub = maxSub db now + (count + 1) := by
  induction count generalizing db bs with
  | zero =>
    obtain ⟨db₁, b, rest, hcreate, hrest, rfl⟩ := createBarcodes_succ.mp h
    cases hrest
    obtain ⟨hfits, rfl, hrows⟩ := create_eq_ok hcreate
    refine ⟨by simpa [getSub] using hfits.2, ⟨db.next, currentYearMonth now, false, getSub db now⟩, ?_, ?_⟩
    · rw [Serial.mem_def, hrows]
      exact List.mem_append_right _ (List.mem_singleton_self _)
    · simp [getSub]
  | succ count ih =>
    obtain ⟨db₁, b, rest, hcreate, hrest, rfl⟩ := createBarcodes_succ.mp h
    have hlast := ih hrest
    rw [maxSub_create hcreate, show maxSub db now + 1 + ((count : ℤ) + 1)
      = maxSub db now + (((count + 1 : ℕ) : ℤ) + 1) by push_cast; omega] at hlast
    exact hlast

theorem fitsIntegerField_currentYearMonth (now : Month) :
    FitsIntegerField (currentYearMonth now) := by
  have := now.year_lt
  have := now.month_le
  rw [FitsIntegerField, currentYearMonth]
  omega

/-- A batch whose last `sub` fits the column is made. -/
theorem exists_createBarcodes {now : Month} {count : ℕ} {db : Db} (hnonneg : 0 ≤ maxSub db now)
    (hfits : maxSub db now + count ≤ 2147483647) :
    ∃ db' bs, createBarcodes now count db = .ok (db', bs) := by
  induction count generalizing db with
  | zero => exact ⟨db, [], rfl⟩
  | succ count ih =>
    push_cast at hfits
    have hsub : FitsIntegerField (getSub db now) := by
      rw [FitsIntegerField, getSub]
      omega
    obtain ⟨r, hcreate⟩ : ∃ r, createBarcode db (currentYearMonth now) (getSub db now) = .ok r := by
      rw [createBarcode, if_pos ⟨fitsIntegerField_currentYearMonth now, hsub⟩]
      exact ⟨_, rfl⟩
    have hmax : maxSub r.1 now = maxSub db now + 1 := maxSub_create hcreate
    obtain ⟨db', rest, hrest⟩ := @ih r.1 (by omega) (by omega)
    exact ⟨db', r.2 :: rest, createBarcodes_succ.mpr ⟨r.1, r.2, rest, hcreate, hrest, rfl⟩⟩

/-! ### A scanned number -/

theorem sound_save {db : Db} {b b' : Barcode} (hdb : Sound db) (hb : b ∈ db)
    (hid : b'.id = b.id) (hmonth : b'.yearMonth = b.yearMonth) (hsub : b'.sub = b.sub) :
    Sound (db.save b') := by
  -- every row is still there with its parts, under the same id
  have hback : ∀ c ∈ db.save b',
      ∃ d ∈ db, d.id = c.id ∧ d.yearMonth = c.yearMonth ∧ d.sub = c.sub := by
    intro c hc
    rcases (Serial.mem_save ⟨b, hb, hid.symm⟩).mp hc with rfl | ⟨hc, -⟩
    · exact ⟨b, hb, hid.symm, hmonth.symm, hsub.symm⟩
    · exact ⟨c, hc, rfl, rfl, rfl⟩
  refine ⟨fun c hc d hd hcd hcd' => ?_, fun c hc => ?_, fun c hc => ?_⟩
  · obtain ⟨c', hc', hcid, hcm, hcs⟩ := hback c hc
    obtain ⟨d', hd', hdid, hdm, hds⟩ := hback d hd
    have hsame : c' = d' := hdb.pairs c' hc' d' hd' (by rw [hcm, hdm, hcd]) (by rw [hcs, hds, hcd'])
    exact Serial.eq_of_pk_eq hc hd (by rw [pk_barcode, pk_barcode, ← hcid, ← hdid, hsame])
  · obtain ⟨d, hd, -, -, hs⟩ := hback c hc
    exact hs ▸ hdb.sub_nonneg d hd
  · obtain ⟨d, hd, -, -, hs⟩ := hback c hc
    exact hs ▸ hdb.sub_lt d hd

theorem sound_getOrCreate {db db' : Db} {yearMonth sub : ℤ} {b : Barcode} {created : Bool}
    (hdb : Sound db) (hnonneg : 0 ≤ sub) (hlt : sub < 100000)
    (h : getOrCreate db yearMonth sub = .ok (db', b, created)) :
    Sound db' ∧ b ∈ db' := by
  rw [getOrCreate] at h
  split at h
  · rename_i found hget
    cases h
    exact ⟨hdb, (Table.get_eq_ok.mp hget).1⟩
  · rename_i hget
    cases hcreate : createBarcode db yearMonth sub with
    | error e => rw [hcreate] at h; cases h
    | ok r =>
      rw [hcreate] at h
      cases h
      have hnew := Table.get_eq_doesNotExist.mp hget
      refine ⟨sound_create hdb hcreate hnonneg hlt fun c hc hpair => hnew c hc (by simpa using hpair),
        Serial.mem_def.mpr ?_⟩
      rw [(create_eq_ok hcreate).2.2]
      exact List.mem_append_right _ (List.mem_singleton_self _)
  · cases h

theorem sound_barcodeDefaultCreate {db db' : Db} {number : ℤ} {r : Barcode × Bool × Bool}
    (hdb : Sound db) (h : barcodeDefaultCreate db number = .ok (db', r)) : Sound db' := by
  obtain ⟨hnonneg, hlt⟩ := splitNumber_snd number
  rw [barcodeDefaultCreate] at h
  cases hget : getOrCreate db (splitNumber number).1 (splitNumber number).2 with
  | error e => simp [bind, Except.bind, hget] at h
  | ok r' =>
    obtain ⟨db₁, b, created⟩ := r'
    obtain ⟨hdb₁, hb⟩ := sound_getOrCreate hdb hnonneg hlt hget
    simp only [bind, Except.bind, hget] at h
    split at h
    · cases h
      exact sound_save hdb₁ hb rfl rfl rfl
    · cases h
      exact hdb₁

/-! ### Runs of requests -/

theorem sound_empty : Sound Serial.empty :=
  ⟨fun _ hb => absurd hb (Serial.not_mem_empty _), fun _ hb => absurd hb (Serial.not_mem_empty _),
    fun _ hb => absurd hb (Serial.not_mem_empty _)⟩

theorem sound_step (db : Db) (request : Request) (hdb : Sound db) (h : FiveDigits db request) :
    Sound (step db request) := by
  cases request with
  | batch now count =>
    rw [step]
    split
    · rename_i db' bs hbatch
      rw [barcodeBatchCreate] at hbatch
      have hnonneg := maxSub_nonneg hdb now
      rcases h with hnone | hlast | hover
      · rw [Int.toNat_of_nonpos hnone] at hbatch
        cases hbatch
        exact hdb
      · by_cases hnone : count ≤ 0
        · rw [Int.toNat_of_nonpos hnone] at hbatch
          cases hbatch
          exact hdb
        · exact sound_createBarcodes hdb (by omega) hbatch
      · by_cases hnone : count ≤ 0
        · rw [Int.toNat_of_nonpos hnone] at hbatch
          cases hbatch
          exact hdb
        · -- a batch that was made has kept to the column
          obtain ⟨n, hn⟩ : ∃ n, count.toNat = n + 1 := ⟨count.toNat - 1, by omega⟩
          rw [hn] at hbatch
          have := (createBarcodes_last hbatch).1
          omega
    · exact hdb
  | default number =>
    rw [step]
    split
    · rename_i db' r hdefault
      exact sound_barcodeDefaultCreate hdb hdefault
    · exact hdb

/-- A batch that leaves the five digits leaves a barcode that is not read back. -/
theorem fiveDigits_of_decodable {db : Db} {request : Request} (hdb : Sound db)
    (h : Decodable (step db request)) : FiveDigits db request := by
  cases request with
  | default number => trivial
  | batch now count =>
    by_contra hnot
    rw [FiveDigits, not_or, not_or] at hnot
    obtain ⟨hpos, hlast, hfits⟩ := hnot
    obtain ⟨n, hn⟩ : ∃ n, count.toNat = n + 1 := ⟨count.toNat - 1, by omega⟩
    obtain ⟨db', bs, hbatch⟩ := @exists_createBarcodes now (n + 1) db (maxSub_nonneg hdb now)
      (by push_cast; omega)
    rw [step, barcodeBatchCreate, hn, hbatch] at h
    obtain ⟨-, b, hb, hsub⟩ := createBarcodes_last hbatch
    exact not_decodable hb (by omega) h

/-- **Barcodes are unique and decodable throughout a run exactly when every batch of it keeps to
five digits.** -/
theorem uniqueAndDecodable_iff (requests : List Request) :
    (∀ db, Reached step Serial.empty requests db → UniqueAndDecodable db) ↔
      EachStep step FiveDigits Serial.empty requests := by
  refine eachStep_iff_reached sound_step (fun db => Sound.uniqueAndDecodable) ?_ sound_empty
  intro db request hdb h
  exact fiveDigits_of_decodable hdb h.decodable

/-- January 2024. -/
def january : Month := ⟨24, 1, by decide, by decide, by decide⟩

/-- A scanned number ends in `99999`, a batch of one follows in that month, and then somebody scans
the first number of February. -/
theorem rows_after_scan :
    (run step Serial.empty
      [.default 240199999, .batch january 1, .default 240200000]).rows
      = [⟨1, 2401, true, 99999⟩, ⟨2, 2401, false, 100000⟩, ⟨3, 2402, true, 0⟩] := by
  decide

theorem numbers_collide_after_scan :
    ∃ db, Reached step Serial.empty
        [.default 240199999, .batch january 1, .default 240200000] db ∧
      PairsUnique db ∧ ¬ NumbersUnique db ∧ ¬ Decodable db := by
  refine ⟨_, reached_run _ _, ?_, ?_, ?_⟩
  · rw [PairsUnique]
    simp only [Serial.mem_def, rows_after_scan]
    decide
  · rw [NumbersUnique]
    simp only [Serial.mem_def, rows_after_scan]
    decide
  · rw [Decodable]
    simp only [Serial.mem_def, rows_after_scan]
    decide

end Barcodes

end Aixinwu
