import Aixinwu.Lib.Base64
import Aixinwu.Lib.Literals
import Aixinwu.Lib.Table

/-!
# Ids in the scope of an app

Payment gateways and shipping methods of an app have ids that name the app: a prefix, the identifier
of the app or, if it has none, its key, and the id that the app gave, put together with colons. Ids
of shipping methods are base64, and used to have the key in any case.

Nothing keeps a colon, or a number, out of an identifier, nor a colon out of an id. So the identifier
may be read back as something shorter, or as a key, and the ids of two apps may coincide.

## Main definitions

* `toPaymentAppId`, `fromPaymentAppId`
* `toShippingAppId`, `oldShippingAppId`, `convertToAppIdWithIdentifier`
* `App.Readable`, `App.ApartFrom`, `App.ReadAsAnother`

## Main results

* `fromPaymentAppId_iff`, `toPaymentAppId_inj_iff`, `convert_oldShippingAppId_iff`,
  `misrouted_iff`
* `namesOwner_iff`
-/

namespace Aixinwu

namespace AppIds

open Literals

/-! ### The code -/

/-- `App`, as far as ids are concerned. -/
structure App where
  id : ℕ
  identifier : Option String := none
deriving DecidableEq, Repr

instance : HasPk App ℕ := ⟨App.id⟩

/-- The identifier of an app that has one. -/
def App.ownIdentifier (app : App) : Option String := app.identifier.filter (· ≠ "")

/-- `app.identifier or app.id`, as a text. -/
def App.appIdentifier (app : App) : String := app.ownIdentifier.getD (toString app.id)

/-- `APP_ID_PREFIX`. -/
def appIdPrefix : String := "app"

/-- `PaymentAppData`. -/
structure PaymentAppData where
  appPk : Option ℤ
  appIdentifier : Option String
  name : String
deriving DecidableEq, Repr

/-- `text.split(sep, maxsplit=n)`. -/
def split (sep : Char) : ℕ → List Char → List (List Char)
  | 0, text => [text]
  | n + 1, text =>
    match text.dropWhile (· ≠ sep) with
    | [] => [text]
    | _ :: rest => text.takeWhile (· ≠ sep) :: split sep n rest

/-- The text that an id is made of. -/
def joined (identifier id : String) : String := appIdPrefix ++ ":" ++ identifier ++ ":" ++ id

/-- `to_payment_app_id`. -/
def toPaymentAppId (app : App) (externalId : String) : String := joined app.appIdentifier externalId

/-- `from_payment_app_id`. -/
def fromPaymentAppId (appGatewayId : String) : Option PaymentAppData :=
  match split ':' 2 appGatewayId.toList with
  | [first, second, third] =>
    if first = appIdPrefix.toList ∧ first ≠ [] ∧ second ≠ [] ∧ third ≠ [] then
      match readInt second with
      | none => some ⟨none, some (String.ofList second), String.ofList third⟩
      | some appPk => some ⟨some appPk, none, String.ofList third⟩
    else none
  | _ => none

/-- `base64.b64encode(str.encode(text)).decode("utf-8")`. -/
def b64encode (text : String) : String := String.ofList (Base64.encode (Base64.ofText text))

/-- `base64.b64decode(text).decode()`; `none` is a `ValueError`. -/
def b64decode (text : String) : Option String :=
  if text.toList.all (·.toNat < 128) then (Base64.decode text.toList).bind Base64.toText else none

/-- `to_shipping_app_id`. -/
def toShippingAppId (app : App) (shippingMethodId : String) : String :=
  b64encode (joined app.appIdentifier shippingMethodId)

/-- The id that a shipping method had before the format was changed. -/
def oldShippingAppId (app : App) (shippingMethodId : String) : String :=
  b64encode (joined (toString app.id) shippingMethodId)

/-- `convert_to_app_id_with_identifier`; the outer `none` is a `ValueError`, and a number that no key
can be names no app. -/
def convertToAppIdWithIdentifier (apps : Table App) (shippingAppId : String) :
    Option (Option String) :=
  (b64decode shippingAppId).map fun decodedId =>
    match decodedId.toList.splitOn ':' with
    | [_, key, methodId] =>
      match readInt key with
      | none => none
      | some appId =>
        (apps.rows.find? fun app => (app.id : ℤ) = appId).map
          (toShippingAppId · (String.ofList methodId))
    | _ => none

/-! ### Splitting -/

theorem split_append_cons {sep : Char} {front back : List Char} (h : sep ∉ front) (n : ℕ) :
    split sep (n + 1) (front ++ sep :: back) = front :: split sep n back := by
  have hfront : ∀ c ∈ front, (decide (c ≠ sep)) = true := fun c hc =>
    decide_eq_true fun heq => h (heq ▸ hc)
  have hdrop : (front ++ sep :: back).dropWhile (· ≠ sep) = sep :: back := by
    rw [List.dropWhile_append_of_pos hfront, List.dropWhile_cons_of_neg (by simp)]
  have htake : (front ++ sep :: back).takeWhile (· ≠ sep) = front := by
    rw [List.takeWhile_append_of_pos hfront, List.takeWhile_cons_of_neg (by simp), List.append_nil]
  rw [split, hdrop]
  dsimp only
  rw [htake]

theorem toList_joined (identifier id : String) : (joined identifier id).toList =
    "app".toList ++ ':' :: (identifier.toList ++ ':' :: id.toList) := by
  simp [joined, appIdPrefix]

theorem colon_not_mem_toString (n : ℕ) : ':' ∉ (toString n).toList := by
  rw [show (toString n).toList = Nat.toDigits 10 n from Nat.toList_repr]
  exact fun h => absurd (Nat.isDigit_of_mem_toDigits (by decide) (by decide) h) (by decide)

theorem ne_empty_of_ownIdentifier {app : App} {identifier : String}
    (h : app.ownIdentifier = some identifier) : identifier ≠ "" := by
  rw [App.ownIdentifier, Option.filter_eq_some_iff] at h
  exact of_decide_eq_true h.2

theorem appIdentifier_ne_empty (app : App) : app.appIdentifier.toList ≠ [] := by
  rw [App.appIdentifier]
  cases h : app.ownIdentifier with
  | none =>
    rw [Option.getD_none, show (toString app.id).toList = Nat.toDigits 10 app.id from Nat.toList_repr]
    exact fun h => Nat.repr_ne_empty (String.toList_inj.mp (Nat.toList_repr.trans h))
  | some identifier =>
    rw [Option.getD_some]
    exact fun hnil => ne_empty_of_ownIdentifier h (String.toList_eq_nil_iff.mp hnil)

/-! ### Payment ids -/

/-- The app and the external id, as they should be read back. -/
def App.named (app : App) (externalId : String) : PaymentAppData :=
  match app.ownIdentifier with
  | some identifier => ⟨none, some identifier, externalId⟩
  | none => ⟨some app.id, none, externalId⟩

/-- The identifier, if there is one, has no colon and is no number. -/
def App.Readable (app : App) : Prop :=
  ∀ identifier, app.ownIdentifier = some identifier →
    ':' ∉ identifier.toList ∧ readInt identifier.toList = none

/-- Without a colon in the identifier the id is split where it was put together. -/
theorem fromPaymentAppId_of_not_mem {app : App} {externalId : String} (hne : externalId ≠ "")
    (hcolon : ':' ∉ app.appIdentifier.toList) :
    fromPaymentAppId (toPaymentAppId app externalId) =
      match readInt app.appIdentifier.toList with
      | none => some ⟨none, some app.appIdentifier, externalId⟩
      | some appPk => some ⟨some appPk, none, externalId⟩ := by
  have hid : externalId.toList ≠ [] := fun h => hne (String.toList_eq_nil_iff.mp h)
  rw [fromPaymentAppId, toPaymentAppId, toList_joined, split_append_cons (by decide),
    split_append_cons hcolon, split]
  simp only [appIdPrefix, ne_eq, appIdentifier_ne_empty, hid, not_false_eq_true, and_true,
    String.ofList_toList, true_and]
  rw [if_pos (by decide)]

/-- A colon in the identifier ends it, and what comes behind goes to the external id. -/
theorem fromPaymentAppId_of_mem {app : App} {externalId : String} {data : PaymentAppData}
    (hcolon : ':' ∈ app.appIdentifier.toList)
    (h : fromPaymentAppId (toPaymentAppId app externalId) = some data) : data.name ≠ externalId := by
  obtain ⟨front, back, hsplit, hfront⟩ := List.eq_append_cons_of_mem hcolon
  rw [fromPaymentAppId, toPaymentAppId, toList_joined, split_append_cons (by decide), hsplit,
    List.append_assoc, List.cons_append, split_append_cons hfront, split] at h
  have hname : data.name = String.ofList (back ++ ':' :: externalId.toList) := by
    dsimp only at h
    split at h
    · split at h <;> (obtain rfl := Option.some.inj h; rfl)
    · cases h
  intro heq
  have hlength := congrArg (·.toList.length) (hname.symm.trans heq)
  rw [String.toList_ofList, List.length_append, List.length_cons] at hlength
  omega

/-- **Reading a payment id back** gives the app and the external id if the identifier is readable. -/
theorem fromPaymentAppId_iff (app : App) {externalId : String} (hne : externalId ≠ "") :
    fromPaymentAppId (toPaymentAppId app externalId) = some (app.named externalId) ↔ app.Readable := by
  cases hown : app.ownIdentifier with
  | none =>
    have hidentifier : app.appIdentifier = toString app.id := by
      rw [App.appIdentifier, hown, Option.getD_none]
    rw [fromPaymentAppId_of_not_mem hne (hidentifier ▸ colon_not_mem_toString app.id), hidentifier,
      readInt_toString, App.named, hown, App.Readable, hown]
    simp
  | some identifier =>
    have hidentifier : app.appIdentifier = identifier := by
      rw [App.appIdentifier, hown, Option.getD_some]
    have hreadable : app.Readable ↔ ':' ∉ identifier.toList ∧ readInt identifier.toList = none := by
      rw [App.Readable, hown]
      simp
    rw [hreadable, App.named, hown]
    by_cases hcolon : ':' ∈ identifier.toList
    · refine iff_of_false (fun h => ?_) fun h => h.1 hcolon
      exact fromPaymentAppId_of_mem (hidentifier ▸ hcolon) h rfl
    · rw [fromPaymentAppId_of_not_mem hne (hidentifier ▸ hcolon), hidentifier]
      cases hread : readInt identifier.toList with
      | none => simp [hcolon]
      | some appPk => simp

/-- Neither identifier, with the colon behind it, is the beginning of the other. -/
def App.ApartFrom (a b : App) : Prop :=
  ¬ a.appIdentifier.toList ++ [':'] <+: b.appIdentifier.toList ++ [':'] ∧
    ¬ b.appIdentifier.toList ++ [':'] <+: a.appIdentifier.toList ++ [':']

/-- Ids of two apps are different, as are two ids of one app. -/
def NeverCoincide (a b : App) : Prop :=
  ∀ x y : String, x ≠ "" → y ≠ "" → toPaymentAppId a x = toPaymentAppId b y → a = b ∧ x = y

theorem joined_eq_iff {identifier identifier' x y : String} :
    joined identifier x = joined identifier' y ↔
      identifier.toList ++ [':'] ++ x.toList = identifier'.toList ++ [':'] ++ y.toList := by
  rw [← String.toList_inj, toList_joined, toList_joined, List.append_cancel_left_eq, List.cons.injEq]
  simp

/-- If one identifier begins the other, an external id makes up for the rest. -/
theorem exists_coincide {a b : App}
    (h : a.appIdentifier.toList ++ [':'] <+: b.appIdentifier.toList ++ [':']) :
    ∃ x y : String, x ≠ "" ∧ y ≠ "" ∧ toPaymentAppId a x = toPaymentAppId b y := by
  obtain ⟨back, hback⟩ := h
  refine ⟨String.ofList (back ++ ['x']), "x", ?_, by decide, joined_eq_iff.mpr ?_⟩
  · intro hempty
    have hnil := congrArg String.toList hempty
    rw [String.toList_ofList] at hnil
    simp at hnil
  · rw [String.toList_ofList, ← List.append_assoc, hback]
    rfl

/-- **Payment ids of two apps are different** if neither identifier begins the other. -/
theorem toPaymentAppId_inj_iff (a b : App) : NeverCoincide a b ↔ a = b ∨ a.ApartFrom b := by
  constructor
  · intro hnever
    by_contra hnot
    obtain ⟨hne, hapart⟩ := not_or.mp hnot
    rcases not_and_or.mp hapart with hbegins | hbegins
    · obtain ⟨x, y, hx, hy, heq⟩ := exists_coincide (not_not.mp hbegins)
      exact hne (hnever x y hx hy heq).1
    · obtain ⟨y, x, hy, hx, heq⟩ := exists_coincide (not_not.mp hbegins)
      exact hne (hnever x y hx hy heq.symm).1
  · rintro (rfl | hapart) x y hx hy heq
    · exact ⟨rfl, String.toList_inj.mp (List.append_cancel_left (joined_eq_iff.mp heq))⟩
    · have heq := joined_eq_iff.mp heq
      have hleft : a.appIdentifier.toList ++ [':'] <+: _ := ⟨_, heq⟩
      rcases List.prefix_or_prefix_of_prefix hleft (List.prefix_append _ _) with h | h
      · exact absurd h hapart.1
      · exact absurd h hapart.2

/-! ### Ids of shipping methods -/

theorem b64decode_b64encode (text : String) : b64decode (b64encode text) = some text := by
  have hascii : (Base64.encode (Base64.ofText text)).all (·.toNat < 128) = true :=
    List.all_eq_true.mpr fun c hc => decide_eq_true (Base64.toNat_lt_of_mem_encode hc)
  rw [b64decode, b64encode, String.toList_ofList, if_pos hascii, Base64.decode_encode,
    Option.bind_some, Base64.toText_ofText]

theorem b64encode_inj {text text' : String} : b64encode text = b64encode text' ↔ text = text' := by
  refine ⟨fun h => Option.some.inj ?_, congrArg b64encode⟩
  rw [← b64decode_b64encode, h, b64decode_b64encode]

/-- A text with a separator has more than one part. -/
theorem exists_splitOn_of_mem {sep : Char} {text : List Char} (h : sep ∈ text) :
    ∃ first second parts, text.splitOn sep = first :: second :: parts := by
  obtain ⟨front, back, rfl, hfront⟩ := List.eq_append_cons_of_mem h
  obtain ⟨second, parts, hparts⟩ := List.exists_cons_of_ne_nil (List.splitOn_ne_nil sep back)
  exact ⟨front, second, parts, by rw [List.splitOn_append_cons_self_of_not_mem hfront, hparts]⟩

variable {apps : Table App}

/-- **Converting an id** that has been put together. -/
theorem convert_b64encode (apps : Table App) (identifier methodId : String) :
    convertToAppIdWithIdentifier apps (b64encode (joined identifier methodId)) = some (
      if ':' ∈ identifier.toList ∨ ':' ∈ methodId.toList then none
      else (readInt identifier.toList).bind fun appId =>
        (apps.rows.find? fun app => (app.id : ℤ) = appId).map (toShippingAppId · methodId)) := by
  rw [convertToAppIdWithIdentifier, b64decode_b64encode, Option.map_some, toList_joined,
    List.splitOn_append_cons_self_of_not_mem (by decide), List.splitOn_append_cons_self]
  congr 1
  by_cases hidentifier : ':' ∈ identifier.toList
  · obtain ⟨first, second, parts, hparts⟩ := exists_splitOn_of_mem hidentifier
    obtain ⟨method, methods, hmethods⟩ :=
      List.exists_cons_of_ne_nil (List.splitOn_ne_nil ':' methodId.toList)
    rw [if_pos (.inl hidentifier), hparts, hmethods]
    cases parts <;> rfl
  · rw [List.splitOn_eq_singleton hidentifier]
    by_cases hmethod : ':' ∈ methodId.toList
    · obtain ⟨first, second, parts, hparts⟩ := exists_splitOn_of_mem hmethod
      rw [if_pos (.inr hmethod), hparts]
      rfl
    · rw [if_neg (not_or.mpr ⟨hidentifier, hmethod⟩), List.splitOn_eq_singleton hmethod]
      simp only [List.singleton_append, String.ofList_toList]
      cases readInt identifier.toList <;> rfl

theorem find?_id {app : App} (happ : app ∈ apps.rows) :
    (apps.rows.find? fun a => (a.id : ℤ) = (app.id : ℤ)) = some app := by
  have hsome : (apps.rows.find? fun a => (a.id : ℤ) = (app.id : ℤ)).isSome = true :=
    List.find?_isSome.mpr ⟨app, happ, decide_eq_true rfl⟩
  obtain ⟨found, hfound⟩ := Option.isSome_iff_exists.mp hsome
  have hid := List.find?_some hfound
  rw [decide_eq_true_eq, Int.natCast_inj] at hid
  rw [hfound, Table.eq_of_pk_eq (List.mem_of_find?_eq_some hfound) happ hid]

/-- **An id in the old format** is converted if there is no colon in the id of the method. -/
theorem convert_oldShippingAppId_iff {app : App} (happ : app ∈ apps.rows) (methodId : String) :
    convertToAppIdWithIdentifier apps (oldShippingAppId app methodId)
        = some (some (toShippingAppId app methodId)) ↔ ':' ∉ methodId.toList := by
  rw [oldShippingAppId, convert_b64encode]
  by_cases hmethod : ':' ∈ methodId.toList
  · simp [hmethod]
  · rw [if_neg (not_or.mpr ⟨colon_not_mem_toString app.id, hmethod⟩), readInt_toString,
      Option.bind_some, find?_id happ]
    simp [hmethod]

/-- An id that has been built for an app is taken for one in the old format and becomes an id of
another app. -/
def Misrouted (apps : Table App) (app : App) (methodId : String) : Prop :=
  ∃ other ∈ apps.rows, other ≠ app ∧ ∃ methodId',
    convertToAppIdWithIdentifier apps (toShippingAppId app methodId)
      = some (some (toShippingAppId other methodId'))

/-- The identifier reads as the key of another app, or of this one and another has the same. -/
def App.ReadAsAnother (apps : Table App) (app : App) : Prop :=
  ∃ found ∈ apps.rows, readInt app.appIdentifier.toList = some (found.id : ℤ) ∧
    (found ≠ app ∨ ∃ other ∈ apps.rows, other ≠ app ∧ other.appIdentifier = app.appIdentifier)

/-- Without colons an id is of one identifier only. -/
theorem toShippingAppId_eq {a b : App} {x y : String} (hidentifier : ':' ∉ a.appIdentifier.toList)
    (hid : ':' ∉ x.toList) (h : toShippingAppId a x = toShippingAppId b y) :
    b.appIdentifier = a.appIdentifier := by
  have heq := joined_eq_iff.mp (b64encode_inj.mp h)
  have hb : ':' ∉ b.appIdentifier.toList := by
    intro hmem
    have hcount := congrArg (List.count ':') heq
    have hpos := List.count_pos_iff.mpr hmem
    simp only [List.count_append, List.count_eq_zero.mpr hidentifier, List.count_eq_zero.mpr hid]
      at hcount
    omega
  rw [List.append_assoc, List.append_assoc] at heq
  have hparts := congrArg (List.splitOn ':') heq
  rw [List.singleton_append, List.singleton_append,
    List.splitOn_append_cons_self_of_not_mem hidentifier,
    List.splitOn_append_cons_self_of_not_mem hb] at hparts
  exact (String.toList_inj.mp (List.cons.inj hparts).1).symm

/-- **An id in the new format becomes an id of another app** exactly if there are no colons in it but
those that were put in, and the identifier reads as the key of another app (or of this one, where
another has the same). -/
theorem misrouted_iff {app : App} (happ : app ∈ apps.rows) (methodId : String) :
    Misrouted apps app methodId ↔ ':' ∉ app.appIdentifier.toList ∧ ':' ∉ methodId.toList ∧
      app.ReadAsAnother apps := by
  rw [Misrouted, toShippingAppId, convert_b64encode]
  by_cases hcolons : ':' ∈ app.appIdentifier.toList ∨ ':' ∈ methodId.toList
  · rw [if_pos hcolons]
    refine iff_of_false (by simp) fun ⟨hidentifier, hmethod, _⟩ => ?_
    exact hcolons.elim hidentifier hmethod
  rw [if_neg hcolons]
  obtain ⟨hidentifier, hmethod⟩ := not_or.mp hcolons
  simp only [hidentifier, hmethod, not_false_eq_true, true_and, Option.some_inj]
  constructor
  · rintro ⟨other, hother, hne, methodId', hconverted⟩
    obtain ⟨appId, hread, hmapped⟩ := Option.bind_eq_some_iff.mp hconverted
    obtain ⟨found, hfound, hbuilt⟩ := Option.map_eq_some_iff.mp hmapped
    have hid := List.find?_some hfound
    rw [decide_eq_true_eq] at hid
    refine ⟨found, List.mem_of_find?_eq_some hfound, hid ▸ hread, ?_⟩
    by_cases hsame : found = app
    · subst hsame
      exact .inr ⟨other, hother, hne, toShippingAppId_eq hidentifier hmethod hbuilt⟩
    · exact .inl hsame
  · rintro ⟨found, hfound, hread, hother⟩
    rw [hread, Option.bind_some, find?_id hfound, Option.map_some]
    by_cases hsame : found = app
    · subst hsame
      obtain ⟨other, hother, hne, heq⟩ := hother.resolve_left (not_not.mpr rfl)
      exact ⟨other, hother, hne, methodId, by rw [toShippingAppId, toShippingAppId, heq]⟩
    · exact ⟨found, hfound, hsame, methodId, rfl⟩

/-! ### All ids -/

/-- **Ids name their apps**: exactly if the identifiers are readable, none begins another, there is no
colon in the id of a method, and no identifier reads as the key of another app, ids of apps are read
back, do not coincide, are converted from the old format and stay with their app. -/
theorem namesOwner_iff (apps : Table App) :
    (∀ app ∈ apps.rows, ∀ externalId : String, externalId ≠ "" →
      (fromPaymentAppId (toPaymentAppId app externalId) = some (app.named externalId) ↔
        app.Readable)) ∧
    (∀ a ∈ apps.rows, ∀ b ∈ apps.rows, NeverCoincide a b ↔ a = b ∨ a.ApartFrom b) ∧
    ∀ app ∈ apps.rows, ∀ methodId : String,
      (convertToAppIdWithIdentifier apps (oldShippingAppId app methodId)
          = some (some (toShippingAppId app methodId)) ↔ ':' ∉ methodId.toList) ∧
      (¬ Misrouted apps app methodId ↔ ¬ (':' ∉ app.appIdentifier.toList ∧
        ':' ∉ methodId.toList ∧ app.ReadAsAnother apps)) :=
  ⟨fun app _ _ hne => fromPaymentAppId_iff app hne, fun a _ b _ => toPaymentAppId_inj_iff a b,
    fun _ happ methodId => ⟨convert_oldShippingAppId_iff happ methodId,
      not_congr (misrouted_iff happ methodId)⟩⟩

/-- An app with an identifier and one without. -/
def twoApps : Table App := ⟨[⟨1, some "saleor.app.payment"⟩, ⟨2, none⟩], by decide⟩

/-- Their ids are read back. -/
theorem namesOwner_iff_twoApps :
    (∀ app ∈ twoApps.rows, fromPaymentAppId (toPaymentAppId app "a:b") = some (app.named "a:b")) ∧
    ∀ app ∈ twoApps.rows, convertToAppIdWithIdentifier twoApps (oldShippingAppId app "7")
      = some (some (toShippingAppId app "7")) := by
  obtain ⟨hpayment, -, hshipping⟩ := namesOwner_iff twoApps
  refine ⟨fun app happ => (hpayment app happ "a:b" (by decide)).mpr ?_, fun app happ =>
    (hshipping app happ "7").1.mpr (by decide)⟩
  intro identifier hidentifier
  rcases List.mem_cons.mp happ with rfl | happ
  · obtain rfl := Option.some.inj (hidentifier.symm.trans (by decide :
      App.ownIdentifier ⟨1, some "saleor.app.payment"⟩ = some "saleor.app.payment"))
    decide
  · obtain rfl := List.mem_singleton.mp happ
    cases hidentifier

/-- The identifier is a number, so it is read back as a key. -/
theorem not_namesOwner_number :
    ¬ ∀ (app : App) (externalId : String), externalId ≠ "" →
      fromPaymentAppId (toPaymentAppId app externalId) = some (app.named externalId) := by
  intro h
  have hread := (fromPaymentAppId_iff ⟨1, some "2"⟩ (by decide : ("x" : String) ≠ "")).mp
    (h ⟨1, some "2"⟩ "x" (by decide))
  exact absurd (hread "2" (by decide)).2 (by decide)

end AppIds

end Aixinwu
