import Aixinwu.Core.Nodes
import Aixinwu.Order.Fulfillments

/-!
# The lines of a refund or a return

`FulfillmentRefundProducts` and `FulfillmentReturnProducts` take entries: the id of a line, a quantity,
and whether to replace. The lines are read once for all entries and then paired with them by
position. A list of nodes has no repetitions, so the pairing is right only if no line is named twice;
if one is, every later entry is given to another line, and as many entries as there are repetitions
are dropped at the end. Two spellings of one line, its UUID and its old id, name it twice as well.

Nor does anybody ask whether a line belongs to the order that is refunded: `OrderFulfill`, which
goes through lines in the same way, rejects lines that are named twice, and the grants of refunds
look for lines among those of the order.

## Main definitions

* `Db` — the tables, with the old ids of order lines
* `cleanLines`, `cleanFulfillmentLines`, `cleanInput`
* `Reaches`, `NamesOwnLines`

## Main results

* `perm_cleanLines_iff`, `perm_cleanFulfillmentLines_iff` — the entries of one kind
* `reaches_iff`, `refund_and_return_reach_iff` — a request
-/

namespace Aixinwu

namespace ReturnLines

open Fulfillments (FulfillmentLine FulfillmentStatus OrderLineInfo FulfillmentLineData
  PaymentAnswers)
open Nodes (Texts)

/-- The tables, with the column `old_id` of order lines. -/
structure Db extends Fulfillments.Db where
  oldId : Fulfillments.OrderLine → Option ℕ
  oldId_unique : ∀ a ∈ orderLines.rows, ∀ b ∈ orderLines.rows, ∀ n, oldId a = some n →
    oldId b = some n → a = b
  oldId_lt : ∀ a ∈ orderLines.rows, ∀ n, oldId a = some n → n < 2 ^ 31

/-- `Fulfillments.OrderLine.objects`. -/
def Db.orderLineObjects (db : Db) : Nodes.DoubleTable Fulfillments.OrderLine db.oldId where
  toTable := db.orderLines.toTable
  oldId_unique := db.oldId_unique
  oldId_lt := db.oldId_lt

/-- A line of `OrderRefundProductsInput` or `OrderReturnProductsInput`. -/
structure Entry where
  id : String
  quantity : ℤ
  replace : Bool := false
deriving DecidableEq, Repr

/-- The two inputs. -/
structure ProductsInput where
  orderLines : List Entry := []
  fulfillmentLines : List Entry := []
  refund : Bool := false
deriving DecidableEq, Repr

/-- How a request can be rejected. -/
inductive Failure where
  | nodes (field : String) (e : Nodes.Failure)
  | request (e : Fulfillments.Failure)
deriving DecidableEq, Repr

/-- What was rejected while reading nodes. -/
def ofNodes {α : Type} (field : String) (r : Except Nodes.Failure α) : Except Failure α :=
  r.mapError (Failure.nodes field)

/-- What was rejected otherwise. -/
def ofRequest {α : Type} (r : Except Fulfillments.Failure α) : Except Failure α :=
  r.mapError Failure.request

section Clean

variable (texts : Texts) (db : Db)

/-- `clean_lines`; without lines it is not called. -/
def cleanLines (linesData : List Entry) : Except Failure (List OrderLineInfo) :=
  if linesData = [] then .ok []
  else
    (ofNodes "order_lines" (Nodes.getNodesForTypesWithDoubleId texts "OrderLine" db.orderLineObjects
      (linesData.map (·.id)))).bind fun orderLines =>
        ofRequest ((orderLines.zip linesData).mapM fun line =>
          Fulfillments.cleanLine line.1
            { id := line.1.pk, quantity := line.2.quantity, replace := line.2.replace })

/-- `clean_fulfillment_lines`; without lines it is not called. -/
def cleanFulfillmentLines (whitelistedStatuses : List FulfillmentStatus)
    (fulfillmentLinesData : List Entry) : Except Failure (List FulfillmentLineData) :=
  if fulfillmentLinesData = [] then .ok []
  else
    (ofNodes "fulfillment_lines" (Nodes.getNodes texts "FulfillmentLine"
      db.fulfillmentLines.toSerial.toTable (fulfillmentLinesData.map (·.id)))).bind
        fun fulfillmentLines =>
          ofRequest ((fulfillmentLines.zip fulfillmentLinesData).mapM fun line =>
            Fulfillments.cleanFulfillmentLine db.toDb whitelistedStatuses line.1
              { id := line.1.pk, quantity := line.2.quantity, replace := line.2.replace })

/-- `clean_input`: the order, the payment, and the lines. -/
def cleanInput (whitelistedStatuses : List FulfillmentStatus) (checks : Except Fulfillments.Failure Unit)
    (order : ℕ) (input : ProductsInput) :
    Except Failure (List OrderLineInfo × List FulfillmentLineData) :=
  (ofRequest (Fulfillments.getNodeOrError db.orders order (some "order"))).bind fun _ =>
  (ofRequest checks).bind fun _ =>
  (cleanLines texts db input.orderLines).bind fun orderLines =>
  (cleanFulfillmentLines texts db whitelistedStatuses input.fulfillmentLines).map
    fun fulfillmentLines => (orderLines, fulfillmentLines)

/-- `FulfillmentRefundProducts.clean_input`. -/
def refundCleanInput (answers : PaymentAnswers) (order : ℕ) (input : ProductsInput) :=
  cleanInput texts db [.fulfilled, .returned, .waitingForApproval] answers.checks order input

/-- `FulfillmentReturnProducts.clean_input`. -/
def returnCleanInput (answers : PaymentAnswers) (order : ℕ) (input : ProductsInput) :=
  cleanInput texts db [.fulfilled, .refunded, .waitingForApproval]
    (if input.refund then answers.checks else .ok ()) order input

/-! ### What is to be reached -/

/-- The order line that an entry names. -/
def orderLineOf (entry : Entry) : Option Fulfillments.OrderLine :=
  Nodes.denotedDouble texts "OrderLine" db.orderLineObjects entry.id

/-- The fulfillment line that an entry names. -/
def fulfillmentLineOf (entry : Entry) : Option FulfillmentLine :=
  Nodes.denoted texts "FulfillmentLine" db.fulfillmentLines.toSerial.toTable entry.id

/-- The fulfillment of the line is one of the order. -/
def InOrder (order : ℕ) (line : FulfillmentLine) : Prop :=
  ∃ fulfillment ∈ db.fulfillments, fulfillment.pk = line.fulfillment ∧ fulfillment.order = order

/-- The cleaned data are those of the entries, each for the line that it names, and all lines are
those of the order. -/
structure Reaches (order : ℕ) (input : ProductsInput)
    (cleaned : List OrderLineInfo × List FulfillmentLineData) : Prop where
  orderLines : (cleaned.1.map fun c => (some c.line, c.quantity, c.replace)).Perm
    (input.orderLines.map fun e => (orderLineOf texts db e, e.quantity, e.replace))
  fulfillmentLines : (cleaned.2.map fun c => (some c.line, c.quantity, c.replace)).Perm
    (input.fulfillmentLines.map fun e => (fulfillmentLineOf texts db e, e.quantity, e.replace))
  orderLines_own : ∀ c ∈ cleaned.1, c.line.order = order
  fulfillmentLines_own : ∀ c ∈ cleaned.2, InOrder db order c.line

/-- No two entries name one line, and the lines are those of the order. -/
structure NamesOwnLines (order : ℕ) (input : ProductsInput) : Prop where
  orderLines : (input.orderLines.map (orderLineOf texts db)).Nodup
  fulfillmentLines : (input.fulfillmentLines.map (fulfillmentLineOf texts db)).Nodup
  orderLines_own : ∀ e ∈ input.orderLines, ∀ line, orderLineOf texts db e = some line →
    line.order = order
  fulfillmentLines_own : ∀ e ∈ input.fulfillmentLines, ∀ line,
    fulfillmentLineOf texts db e = some line → InOrder db order line

end Clean

/-! ### The entries of one kind -/

variable {texts : Texts} {db : Db}

theorem eq_ok_of_mapError {ε ε' α : Type} {f : ε → ε'} {x : Except ε α} {a : α}
    (h : x.mapError f = .ok a) : x = .ok a := by
  cases x with
  | error e => cases h
  | ok a' => rw [Except.ok.inj h]

/-- What every step of a loop keeps, the loop keeps. -/
theorem map_of_mapM_eq_ok {ε α β γ : Type} {f : α → Except ε β} {g : β → γ} {k : α → γ}
    (hf : ∀ a b, f a = .ok b → g b = k a) :
    ∀ {as : List α} {bs : List β}, as.mapM f = .ok bs → bs.map g = as.map k
  | [], bs, h => by
    rw [List.mapM_nil] at h
    rw [← Except.ok.inj h]
    rfl
  | a :: as, bs, h => by
    rw [List.mapM_cons] at h
    obtain ⟨b, hb, h⟩ := exists_of_bind_eq_ok h
    obtain ⟨bs', hbs, h⟩ := exists_of_bind_eq_ok h
    rw [← Except.ok.inj h, List.map_cons, List.map_cons, hf a b hb, map_of_mapM_eq_ok hf hbs]

theorem of_cleanLine {line : Fulfillments.OrderLine} {data : Fulfillments.LineInput} {info : OrderLineInfo}
    (h : Fulfillments.cleanLine line data = .ok info) :
    info = { line := line, quantity := data.quantity, replace := data.replace } := by
  obtain ⟨_, _, h⟩ := exists_of_bind_eq_ok h
  obtain ⟨_, _, h⟩ := exists_of_bind_eq_ok h
  obtain ⟨_, _, h⟩ := exists_of_bind_eq_ok h
  obtain ⟨_, _, h⟩ := exists_of_bind_eq_ok h
  exact (Except.ok.inj h).symm

theorem of_cleanFulfillmentLine {db : Fulfillments.Db} {statuses : List FulfillmentStatus}
    {line : FulfillmentLine} {data : Fulfillments.LineInput} {info : FulfillmentLineData}
    (h : Fulfillments.cleanFulfillmentLine db statuses line data = .ok info) :
    info = { line := line, quantity := data.quantity, replace := data.replace } := by
  obtain ⟨_, _, h⟩ := exists_of_bind_eq_ok h
  obtain ⟨_, _, h⟩ := exists_of_bind_eq_ok h
  obtain ⟨_, _, h⟩ := exists_of_bind_eq_ok h
  obtain ⟨_, _, h⟩ := exists_of_bind_eq_ok h
  obtain ⟨_, _, h⟩ := exists_of_bind_eq_ok h
  obtain ⟨_, _, h⟩ := exists_of_bind_eq_ok h
  exact (Except.ok.inj h).symm

/-- No node is named twice in a list of none. -/
theorem returned_nil {ρ : Type} (named : String → Option ρ) : Nodes.Returned named [] [] :=
  ⟨List.nodup_nil, [], rfl, fun _ => Iff.rfl, fun _ => rfl⟩

/-- The cleaned data of order lines are those that the nodes are paired with. -/
theorem map_cleanLines {linesData : List Entry} {cleaned : List OrderLineInfo}
    (h : cleanLines texts db linesData = .ok cleaned) :
    ∃ nodes, Nodes.Returned (Nodes.denotedDouble texts "OrderLine" db.orderLineObjects)
        (linesData.map (·.id)) nodes ∧
      (cleaned.map fun c => (some c.line, c.quantity, c.replace))
        = (nodes.zip linesData).map fun p => (some p.1, p.2.quantity, p.2.replace) := by
  rw [cleanLines] at h
  split at h
  · rename_i hnil
    rw [← Except.ok.inj h, hnil]
    exact ⟨[], returned_nil _, rfl⟩
  · obtain ⟨nodes, hnodes, h⟩ := exists_of_bind_eq_ok h
    refine ⟨nodes, (Nodes.returned_getNodesForTypesWithDoubleId (eq_ok_of_mapError hnodes)).1, ?_⟩
    refine map_of_mapM_eq_ok (fun line info hinfo => ?_) (eq_ok_of_mapError h)
    rw [of_cleanLine hinfo]

theorem map_cleanFulfillmentLines {statuses : List FulfillmentStatus} {linesData : List Entry}
    {cleaned : List FulfillmentLineData}
    (h : cleanFulfillmentLines texts db statuses linesData = .ok cleaned) :
    ∃ nodes, Nodes.Returned (Nodes.denoted texts "FulfillmentLine"
        db.fulfillmentLines.toSerial.toTable) (linesData.map (·.id)) nodes ∧
      (cleaned.map fun c => (some c.line, c.quantity, c.replace))
        = (nodes.zip linesData).map fun p => (some p.1, p.2.quantity, p.2.replace) := by
  rw [cleanFulfillmentLines] at h
  split at h
  · rename_i hnil
    rw [← Except.ok.inj h, hnil]
    exact ⟨[], returned_nil _, rfl⟩
  · obtain ⟨nodes, hnodes, h⟩ := exists_of_bind_eq_ok h
    refine ⟨nodes, (Nodes.returned_getNodes (eq_ok_of_mapError hnodes)).1, ?_⟩
    refine map_of_mapM_eq_ok (fun line info hinfo => ?_) (eq_ok_of_mapError h)
    rw [of_cleanFulfillmentLine hinfo]

/-- **The entries of order lines** reach them exactly if no line is named twice. -/
theorem perm_cleanLines_iff {linesData : List Entry} {cleaned : List OrderLineInfo}
    (h : cleanLines texts db linesData = .ok cleaned) :
    (cleaned.map fun c => (some c.line, c.quantity, c.replace)).Perm
        (linesData.map fun e => (orderLineOf texts db e, e.quantity, e.replace)) ↔
      (linesData.map (orderLineOf texts db)).Nodup := by
  obtain ⟨nodes, hnodes, hmap⟩ := map_cleanLines h
  rw [hmap]
  exact hnodes.map_zip_perm_iff fun e : Entry => (e.quantity, e.replace)

/-- So do those of fulfillment lines. -/
theorem perm_cleanFulfillmentLines_iff {statuses : List FulfillmentStatus} {linesData : List Entry}
    {cleaned : List FulfillmentLineData}
    (h : cleanFulfillmentLines texts db statuses linesData = .ok cleaned) :
    (cleaned.map fun c => (some c.line, c.quantity, c.replace)).Perm
        (linesData.map fun e => (fulfillmentLineOf texts db e, e.quantity, e.replace)) ↔
      (linesData.map (fulfillmentLineOf texts db)).Nodup := by
  obtain ⟨nodes, hnodes, hmap⟩ := map_cleanFulfillmentLines h
  rw [hmap]
  exact hnodes.map_zip_perm_iff fun e : Entry => (e.quantity, e.replace)

/-- If the entries reach their lines, then the lines that are reached are those that are named. -/
theorem own_iff_of_perm {ρ γ : Type} {line : γ → ρ} {named : Entry → Option ρ} {data : γ → ℤ × Bool}
    {cleaned : List γ} {entries : List Entry} (own : ρ → Prop)
    (h : (cleaned.map fun c => (some (line c), data c)).Perm
      (entries.map fun e => (named e, e.quantity, e.replace))) :
    (∀ c ∈ cleaned, own (line c)) ↔ ∀ e ∈ entries, ∀ l, named e = some l → own l := by
  constructor
  · intro hown e he l hl
    have hmem := h.mem_iff.mpr (List.mem_map_of_mem he)
    obtain ⟨c, hc, heq⟩ := List.mem_map.mp hmem
    have hline : some (line c) = some l := (Prod.mk.inj heq).1.trans hl
    exact Option.some.inj hline ▸ hown c hc
  · intro hown c hc
    have hmem := h.mem_iff.mp (List.mem_map_of_mem hc)
    obtain ⟨e, he, heq⟩ := List.mem_map.mp hmem
    exact hown e he (line c) (Prod.mk.inj heq).1

/-- **A request that is accepted** reaches the lines that its entries name, and these are the
order's, exactly if no two entries name one line and the lines they name are the order's. -/
theorem reaches_iff {statuses : List FulfillmentStatus} {checks : Except Fulfillments.Failure Unit}
    {order : ℕ} {input : ProductsInput} {cleaned : List OrderLineInfo × List FulfillmentLineData}
    (h : cleanInput texts db statuses checks order input = .ok cleaned) :
    Reaches texts db order input cleaned ↔ NamesOwnLines texts db order input := by
  obtain ⟨_, _, h⟩ := exists_of_bind_eq_ok h
  obtain ⟨_, _, h⟩ := exists_of_bind_eq_ok h
  obtain ⟨orderLines, horderLines, h⟩ := exists_of_bind_eq_ok h
  obtain ⟨fulfillmentLines, hfulfillmentLines, rfl⟩ := exists_of_map_eq_ok h
  have horder := perm_cleanLines_iff horderLines
  have hfulfillment := perm_cleanFulfillmentLines_iff hfulfillmentLines
  constructor
  · rintro ⟨hreach, hfreach, hown, hfown⟩
    exact ⟨horder.mp hreach, hfulfillment.mp hfreach,
      (own_iff_of_perm (fun line : Fulfillments.OrderLine => line.order = order) hreach).mp hown,
      (own_iff_of_perm (InOrder db order) hfreach).mp hfown⟩
  · rintro ⟨hnodup, hfnodup, hown, hfown⟩
    exact ⟨horder.mpr hnodup, hfulfillment.mpr hfnodup,
      (own_iff_of_perm (fun line : Fulfillments.OrderLine => line.order = order) (horder.mpr hnodup)).mpr hown,
      (own_iff_of_perm (InOrder db order) (hfulfillment.mpr hfnodup)).mpr hfown⟩

/-- **Both mutations**: a request that is accepted reaches the lines that it names, and they are the
order's, exactly if no two of its entries name one line and the lines they name are the order's. -/
theorem refund_and_return_reach_iff (texts : Texts) (db : Db) (answers : PaymentAnswers) (order : ℕ)
    (input : ProductsInput) :
    (∀ cleaned, refundCleanInput texts db answers order input = .ok cleaned →
      (Reaches texts db order input cleaned ↔ NamesOwnLines texts db order input)) ∧
    ∀ cleaned, returnCleanInput texts db answers order input = .ok cleaned →
      (Reaches texts db order input cleaned ↔ NamesOwnLines texts db order input) :=
  ⟨fun _ h => reaches_iff h, fun _ h => reaches_iff h⟩

/-! ### Two lines of five items -/

/-- The global ids of the two lines, the second one also by its old id. -/
def globalIds : String → Option (String × String)
  | "T3JkZXJMaW5lOjAwMDAwMDAwLTAwMDAtMDAwMC0wMDAwLTAwMDAwMDAwMDAwMQ==" =>
    some ("OrderLine", "00000000-0000-0000-0000-000000000001")
  | "T3JkZXJMaW5lOjAwMDAwMDAwLTAwMDAtMDAwMC0wMDAwLTAwMDAwMDAwMDAwMg==" =>
    some ("OrderLine", "00000000-0000-0000-0000-000000000002")
  | "T3JkZXJMaW5lOjc=" => some ("OrderLine", "7")
  | _ => none

def lineTexts : Texts := .small globalIds rfl

def firstLine : Fulfillments.OrderLine where
  pk := 1
  order := 1
  quantity := 5

def secondLine : Fulfillments.OrderLine where
  pk := 2
  order := 1
  quantity := 5

/-- An order with the two lines. -/
def twoLines : Db where
  orders := ⟨⟨[{ pk := 1 }], by decide⟩, 2, by decide⟩
  orderLines := ⟨⟨[firstLine, secondLine], by decide⟩, 3, by decide⟩
  oldId line := if line.pk = 2 then some 7 else none
  oldId_unique := by decide
  oldId_lt := by
    intro a _ n h
    split at h
    · obtain rfl := Option.some.inj h
      decide
    · cases h

/-- Two items of the second line, by its old id, and one of the first. -/
def oneOfEach : ProductsInput where
  orderLines := [⟨"T3JkZXJMaW5lOjc=", 2, false⟩,
    ⟨"T3JkZXJMaW5lOjAwMDAwMDAwLTAwMDAtMDAwMC0wMDAwLTAwMDAwMDAwMDAwMQ==", 1, false⟩]

/-- One and two items of the first line, and three of the second. -/
def firstTwice : ProductsInput where
  orderLines := [⟨"T3JkZXJMaW5lOjAwMDAwMDAwLTAwMDAtMDAwMC0wMDAwLTAwMDAwMDAwMDAwMQ==", 1, false⟩,
    ⟨"T3JkZXJMaW5lOjAwMDAwMDAwLTAwMDAtMDAwMC0wMDAwLTAwMDAwMDAwMDAwMQ==", 2, false⟩,
    ⟨"T3JkZXJMaW5lOjAwMDAwMDAwLTAwMDAtMDAwMC0wMDAwLTAwMDAwMDAwMDAwMg==", 3, false⟩]

/-- The result for a line by its UUID and one by its old id. -/
theorem refund_and_return_reach_oneOfEach :
    (Reaches lineTexts twoLines 1 oneOfEach
        ([{ line := secondLine, quantity := 2 }, { line := firstLine, quantity := 1 }], []) ↔
      NamesOwnLines lineTexts twoLines 1 oneOfEach) ∧
    (Reaches lineTexts twoLines 1 oneOfEach
        ([{ line := secondLine, quantity := 2 }, { line := firstLine, quantity := 1 }], []) ↔
      NamesOwnLines lineTexts twoLines 1 oneOfEach) :=
  have h := refund_and_return_reach_iff lineTexts twoLines {} 1 oneOfEach
  ⟨h.1 _ rfl, h.2 _ rfl⟩

/-- The second line gets two items, and the three that were asked for it are dropped. -/
theorem not_reaches_firstTwice :
    ¬ ∀ (texts : Texts) (db : Db) (order : ℕ) (input : ProductsInput) cleaned,
      refundCleanInput texts db {} order input = .ok cleaned →
      Reaches texts db order input cleaned := by
  intro h
  have hreaches := h lineTexts twoLines 1 firstTwice
    ([{ line := firstLine, quantity := 1 }, { line := secondLine, quantity := 2 }], []) rfl
  have hlength : 2 = 3 := hreaches.orderLines.length_eq
  omega

end ReturnLines

end Aixinwu
