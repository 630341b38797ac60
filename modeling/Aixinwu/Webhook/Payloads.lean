import Aixinwu.Webhook.JsonTruncText

/-!
# Observability payloads and their limit

An API call is reported with its GraphQL operations, a delivery attempt with the texts that were
sent and received. The payload without texts is written first; what is left of the limit is shared
out: between the operations, and within an operation to its name, its query and its result.

The accounts are exact. What the texts of an operation take beyond their budget is not charged to
the next operation, and nothing is set aside for the separators between operations; against this
stands what fields without a value, marks of truncation and short operation types save.
**`keepsLimit_iff`**: a payload keeps to its limit iff the former do not exceed the latter and what
is left over, and a text takes more than its budget only where it is cut between two plain
characters. The check that is made of all operations is enough for each of them.

Ids, times, headers and urls are given as texts, results and event payloads as they have been
anonymized. That an attempt has a delivery with a payload has been checked.

## Main definitions

* `serializeGqlOperationResult`, `serializeGqlOperationResults`
* `generateApiCallPayload`, `generateEventDeliveryAttemptPayload`
* `overrun`, `unused`, `saved`

## Main results

* `serializeLoop_accounts`
* `keepsLimit_iff`
-/

namespace Aixinwu

namespace Observability

namespace Payloads

open Json

/-! ### Payloads -/

/-- `ObservabilityEventTypes`. -/
inductive ObservabilityEventTypes where
  | apiCall
  | eventDeliveryAttempt
deriving DecidableEq, Repr

/-- `ObservabilityEventTypes.value`. -/
def ObservabilityEventTypes.value : ObservabilityEventTypes → String
  | apiCall => "api_call"
  | eventDeliveryAttempt => "event_delivery_attempt"

/-- The kind of an operation, as `OperationDefinition.operation` has it. -/
inductive OperationKind where
  | query
  | mutation
  | subscription
deriving DecidableEq, Repr

/-- How the kind is written. -/
def OperationKind.value : OperationKind → String
  | query => "query"
  | mutation => "mutation"
  | subscription => "subscription"

/-- The length of a text in UTF-8. -/
def utf8Length (text : List ℕ) : ℕ :=
  (text.map fun c =>
    if c < 0x80 then 1 else if c < 0x800 then 2 else if c < 0x10000 then 3 else 4).sum

/-- A value, or null. -/
def orNull {α : Type} (toJson : α → Json) : Option α → Json
  | none => .null
  | some value => toJson value

/-- `CustomJsonEncoder.default`. -/
def truncTextToJson (t : JsonTruncText) : Json :=
  .dict [(codes "text", .str t.text), (codes "truncated", .bool t.truncated)]

/-- `HttpHeaders`. -/
abbrev HttpHeaders : Type := List (List ℕ × List ℕ)

/-- Headers are written as pairs. -/
def headersToJson (headers : HttpHeaders) : Json :=
  .list (headers.map fun header => .list [.str header.1, .str header.2])

/-- `GraphQLOperation`. -/
structure GraphQLOperation where
  name : Option JsonTruncText
  operationType : Option OperationKind
  query : Option JsonTruncText
  result : Option JsonTruncText
  resultInvalid : Bool
deriving DecidableEq, Repr

/-- The members of an operation, with their names in camel case. -/
def GraphQLOperation.toJson (o : GraphQLOperation) : Json :=
  .dict [(codes "name", orNull truncTextToJson o.name),
    (codes "operationType", orNull (fun kind => .str (codes kind.value)) o.operationType),
    (codes "query", orNull truncTextToJson o.query),
    (codes "result", orNull truncTextToJson o.result),
    (codes "resultInvalid", .bool o.resultInvalid)]

/-- `App`. -/
structure App where
  id : List ℕ
  name : List ℕ

/-- The members of an app. -/
def App.toJson (a : App) : Json := .dict [(codes "id", .str a.id), (codes "name", .str a.name)]

/-- `ApiCallRequest`. -/
structure ApiCallRequest where
  id : List ℕ
  method : List ℕ
  url : List ℕ
  time : String
  headers : HttpHeaders
  contentLength : ℤ

/-- The members of a request. -/
def ApiCallRequest.toJson (r : ApiCallRequest) : Json :=
  .dict [(codes "id", .str r.id), (codes "method", .str r.method), (codes "url", .str r.url),
    (codes "time", .number r.time), (codes "headers", headersToJson r.headers),
    (codes "contentLength", .number (toString r.contentLength))]

/-- `ApiCallResponse`. -/
structure ApiCallResponse where
  headers : HttpHeaders
  statusCode : Option ℤ
  contentLength : ℤ

/-- The members of a response. -/
def ApiCallResponse.toJson (r : ApiCallResponse) : Json :=
  .dict [(codes "headers", headersToJson r.headers),
    (codes "statusCode", orNull (fun code => .number (toString code)) r.statusCode),
    (codes "contentLength", .number (toString r.contentLength))]

/-- `ApiCallPayload`. -/
structure ApiCallPayload where
  request : ApiCallRequest
  response : ApiCallResponse
  app : Option App
  gqlOperations : List GraphQLOperation

/-- The members of the payload of an API call. -/
def ApiCallPayload.toJson (p : ApiCallPayload) : Json :=
  .dict [(codes "eventType", .str (codes ObservabilityEventTypes.apiCall.value)),
    (codes "request", p.request.toJson), (codes "response", p.response.toJson),
    (codes "app", orNull App.toJson p.app),
    (codes "gqlOperations", .list (p.gqlOperations.map GraphQLOperation.toJson))]

/-- `EventDeliveryAttemptPayload`, with the texts that are cut in `body`, `payloadBody` and
`subscriptionQuery`. -/
structure EventDeliveryAttemptPayload where
  id : List ℕ
  time : List ℕ
  duration : Option String
  status : List ℕ
  nextRetry : Option (List ℕ)
  requestHeaders : HttpHeaders
  responseHeaders : HttpHeaders
  responseContentLength : ℕ
  body : JsonTruncText
  responseStatusCode : Option ℤ
  deliveryId : List ℕ
  deliveryStatus : List ℕ
  deliveryEventType : List ℕ
  eventSync : Bool
  payloadContentLength : ℕ
  payloadBody : JsonTruncText
  webhookId : List ℕ
  webhookName : List ℕ
  targetUrl : List ℕ
  subscriptionQuery : Option JsonTruncText
  app : App

/-- The members of the payload of a delivery attempt, given those that hold the cut texts. -/
def EventDeliveryAttemptPayload.toJson (p : EventDeliveryAttemptPayload) : Json :=
  .dict [(codes "id", .str p.id),
    (codes "eventType", .str (codes ObservabilityEventTypes.eventDeliveryAttempt.value)),
    (codes "time", .str p.time), (codes "duration", orNull .number p.duration),
    (codes "status", .str p.status), (codes "nextRetry", orNull .str p.nextRetry),
    (codes "request", .dict [(codes "headers", headersToJson p.requestHeaders)]),
    (codes "response", .dict [(codes "headers", headersToJson p.responseHeaders),
      (codes "contentLength", .number (toString p.responseContentLength)),
      (codes "body", truncTextToJson p.body),
      (codes "statusCode", orNull (fun code => .number (toString code)) p.responseStatusCode)]),
    (codes "eventDelivery", .dict [(codes "id", .str p.deliveryId),
      (codes "status", .str p.deliveryStatus), (codes "eventType", .str p.deliveryEventType),
      (codes "eventSync", .bool p.eventSync),
      (codes "payload", .dict [(codes "contentLength", .number (toString p.payloadContentLength)),
        (codes "body", truncTextToJson p.payloadBody)])]),
    (codes "webhook", .dict [(codes "id", .str p.webhookId), (codes "name", .str p.webhookName),
      (codes "targetUrl", .str p.targetUrl),
      (codes "subscriptionQuery", orNull truncTextToJson p.subscriptionQuery)]),
    (codes "app", p.app.toJson)]

/-- The length of `dump_payload`. -/
def dumpSize (payload : Json) : ℕ := (dumps payload).length

/-- `TruncationError`, with its `extra`. -/
structure TruncationError where
  observabilityEventType : ObservabilityEventTypes
  operation : String
  bytesLimit : ℤ
  payloadSize : ℤ
  gqlOperationsCount : Option ℕ
deriving DecidableEq, Repr

/-! ### API calls -/

/-- `TRUNC_PLACEHOLDER`. -/
def truncPlaceholder : JsonTruncText := ⟨[], false, 0⟩

/-- `GQL_OPERATION_PLACEHOLDER`. -/
def gqlOperationPlaceholder : GraphQLOperation :=
  ⟨some truncPlaceholder, some .subscription, some truncPlaceholder, some truncPlaceholder, false⟩

/-- `GQL_OPERATION_PLACEHOLDER_SIZE`. -/
def gqlOperationPlaceholderSize : ℕ := dumpSize gqlOperationPlaceholder.toJson

/-- A document with the kind of the operation in it that has the name, if there is one. -/
structure GraphQLDocument where
  documentString : List ℕ
  operation : Option OperationKind

/-- `GraphQLOperationResponse`. An empty name counts as none, and so does an empty result. -/
structure GraphQLOperationResponse where
  name : List ℕ
  query : Option GraphQLDocument
  result : List (List ℕ × Json)
  resultInvalid : Bool

/-- The octets of a text, or none. -/
def sizeOf? (t : Option JsonTruncText) : ℤ := t.elim 0 fun text => text.byteSize

/-- `pretty_json`. -/
def prettyJson (value : Json) : List ℕ := value.pretty 0

/-- A text cut to a limit, unless it is empty. -/
def truncateSome (text : List ℕ) (limit : ℤ) : Option JsonTruncText :=
  if text = [] then none else some (.truncate text limit)

/-- The text of a result that is not empty. -/
def resultText (result : List (List ℕ × Json)) : List ℕ :=
  if result.isEmpty then [] else prettyJson (.dict result)

/-- `serialize_gql_operation_result`, on an operation that has been anonymized. -/
def serializeGqlOperationResult (operation : GraphQLOperationResponse) (bytesLimit : ℤ) :
    Except TruncationError (GraphQLOperation × ℤ) :=
  let bytesLimit := bytesLimit - gqlOperationPlaceholderSize
  if bytesLimit < 0 then
    .error ⟨.apiCall, "serialize_gql_operation_result", bytesLimit, 0, none⟩
  else
    let name := truncateSome operation.name bytesLimit
    let bytesLimit := bytesLimit - sizeOf? name
    let query := operation.query.map fun query =>
      JsonTruncText.truncate query.documentString (bytesLimit / 2)
    let bytesLimit := bytesLimit - sizeOf? query
    let operationType := operation.query.bind GraphQLDocument.operation
    let result := truncateSome (resultText operation.result) bytesLimit
    let bytesLimit := bytesLimit - sizeOf? result
    .ok (⟨name, operationType, query, result, operation.resultInvalid⟩, max 0 bytesLimit)

/-- The loop of `serialize_gql_operation_results`: what is left of the limit is shared between the
operations that are left. -/
def serializeLoop :
    List GraphQLOperationResponse → ℤ → Except TruncationError (List GraphQLOperation)
  | [], _ => .ok []
  | operation :: operations, bytesLimit =>
    let payloadLimit := bytesLimit / (operations.length + 1)
    match serializeGqlOperationResult operation payloadLimit with
    | .error e => .error e
    | .ok (payload, leftBytes) =>
      match serializeLoop operations (bytesLimit - (payloadLimit - leftBytes)) with
      | .error e => .error e
      | .ok payloads => .ok (payload :: payloads)

/-- `serialize_gql_operation_results`. -/
def serializeGqlOperationResults (operations : List GraphQLOperationResponse) (bytesLimit : ℤ) :
    Except TruncationError (List GraphQLOperation) :=
  let payloadSize : ℤ := operations.length * gqlOperationPlaceholderSize
  if bytesLimit - payloadSize < 0 then
    .error ⟨.apiCall, "serialize_gql_operation_results", bytesLimit, payloadSize,
      some operations.length⟩
  else serializeLoop operations bytesLimit

/-- `generate_api_call_payload`. -/
def generateApiCallPayload (request : ApiCallRequest) (response : ApiCallResponse)
    (app : Option App) (gqlOperations : List GraphQLOperationResponse) (bytesLimit : ℤ) :
    Except TruncationError ApiCallPayload :=
  let payload : ApiCallPayload := ⟨request, response, app, []⟩
  let payloadSize := dumpSize payload.toJson
  let remainingBytes := bytesLimit - payloadSize
  if remainingBytes < 0 then
    .error ⟨.apiCall, "generate_api_call_payload", bytesLimit, payloadSize, none⟩
  else
    match serializeGqlOperationResults gqlOperations remainingBytes with
    | .error e => .error e
    | .ok payloads => .ok { payload with gqlOperations := payloads }

/-! ### Delivery attempts -/

/-- `EventDeliveryAttempt` with its delivery, webhook and app: `payloadText` is the payload of the
event and `payload` what is read from it and anonymized. An empty subscription query counts as none.
-/
structure EventDeliveryAttempt where
  id : List ℕ
  createdAt : List ℕ
  duration : Option String
  status : List ℕ
  requestHeaders : HttpHeaders
  responseHeaders : HttpHeaders
  response : List ℕ
  responseStatusCode : Option ℤ
  deliveryId : List ℕ
  deliveryStatus : List ℕ
  eventType : List ℕ
  eventSync : Bool
  payloadText : List ℕ
  payload : Json
  webhookId : List ℕ
  webhookName : List ℕ
  targetUrl : List ℕ
  subscriptionQuery : List ℕ
  app : App

/-- The payload of an attempt with the cut texts. -/
def EventDeliveryAttempt.withTexts (a : EventDeliveryAttempt) (nextRetry : Option (List ℕ))
    (subscriptionQuery : Option JsonTruncText) (body payloadBody : JsonTruncText) :
    EventDeliveryAttemptPayload :=
  ⟨a.id, a.createdAt, a.duration, a.status, nextRetry, a.requestHeaders, a.responseHeaders,
    utf8Length a.response, body, a.responseStatusCode, a.deliveryId, a.deliveryStatus, a.eventType,
    a.eventSync, utf8Length a.payloadText, payloadBody, a.webhookId, a.webhookName, a.targetUrl,
    subscriptionQuery, a.app⟩

/-- `generate_event_delivery_attempt_payload`. -/
def generateEventDeliveryAttemptPayload (attempt : EventDeliveryAttempt)
    (nextRetry : Option (List ℕ)) (bytesLimit : ℤ) :
    Except TruncationError EventDeliveryAttemptPayload :=
  let payload :=
    attempt.withTexts nextRetry (some truncPlaceholder) truncPlaceholder truncPlaceholder
  let payloadSize := dumpSize payload.toJson
  let remaining := bytesLimit - payloadSize
  if remaining < 0 then
    .error ⟨.eventDeliveryAttempt, "generate_event_delivery_attempt_payload", bytesLimit,
      payloadSize, none⟩
  else
    let subscriptionQuery := truncateSome attempt.subscriptionQuery (remaining / 4)
    let remaining := remaining - sizeOf? subscriptionQuery
    let body := JsonTruncText.truncate attempt.response (remaining / 2)
    let remaining := remaining - body.byteSize
    .ok (attempt.withTexts nextRetry subscriptionQuery body
      (.truncate (prettyJson attempt.payload) remaining))

/-! ### Accounts -/

section Accounts

/-- What the name of an operation leaves of a budget. -/
def afterName (operation : GraphQLOperationResponse) (budget : ℤ) : ℤ :=
  budget - sizeOf? (truncateSome operation.name budget)

/-- The query of an operation, cut to half of what the name leaves. -/
def cutQuery (operation : GraphQLOperationResponse) (budget : ℤ) : Option JsonTruncText :=
  operation.query.map fun query =>
    JsonTruncText.truncate query.documentString (afterName operation budget / 2)

/-- What the name and the query of an operation leave of a budget. -/
def afterQuery (operation : GraphQLOperationResponse) (budget : ℤ) : ℤ :=
  afterName operation budget - sizeOf? (cutQuery operation budget)

/-- What the texts of an operation leave of a budget. It is negative where they take more. -/
def rest (operation : GraphQLOperationResponse) (budget : ℤ) : ℤ :=
  afterQuery operation budget -
    sizeOf? (truncateSome (resultText operation.result) (afterQuery operation budget))

/-- What a flag saves where it is set. -/
def flagSavings (flag : Bool) : ℕ := if flag then 1 else 0

/-- What a text saves against the placeholder, where it is missing or marked as truncated. -/
def textSavings : Option JsonTruncText → ℕ
  | none => 28
  | some text => flagSavings text.truncated

/-- What the kind of an operation saves against the placeholder. -/
def kindSavings : Option OperationKind → ℕ
  | none => 10
  | some kind => 12 - kind.value.length

/-- What an operation saves against the placeholder. -/
def savings (operation : GraphQLOperationResponse) (budget : ℤ) : ℕ :=
  textSavings (truncateSome operation.name budget) +
    kindSavings (operation.query.bind GraphQLDocument.operation) +
    textSavings (cutQuery operation budget) +
    textSavings (truncateSome (resultText operation.result) (afterQuery operation budget)) +
    flagSavings operation.resultInvalid

/-- The budget of the texts of the first of the operations. -/
def share (operations : List GraphQLOperationResponse) (limit : ℤ) : ℤ :=
  limit / operations.length - gqlOperationPlaceholderSize

/-- What the first of the operations hands on to the others. -/
def handedOn (operation : GraphQLOperationResponse) (operations : List GraphQLOperationResponse)
    (limit : ℤ) : ℤ :=
  limit - gqlOperationPlaceholderSize - share (operation :: operations) limit +
    max 0 (rest operation (share (operation :: operations) limit))

/-- What the texts take beyond the budgets of their operations. -/
def overrun : List GraphQLOperationResponse → ℤ → ℤ
  | [], _ => 0
  | operation :: operations, limit =>
    max 0 (-rest operation (share (operation :: operations) limit)) +
      overrun operations (handedOn operation operations limit)

/-- What is left over after the last of the operations. -/
def unused : List GraphQLOperationResponse → ℤ → ℤ
  | [], limit => limit
  | operation :: operations, limit => unused operations (handedOn operation operations limit)

/-- What the operations save against the placeholders. -/
def saved : List GraphQLOperationResponse → ℤ → ℤ
  | [], _ => 0
  | operation :: operations, limit => savings operation (share (operation :: operations) limit) +
      saved operations (handedOn operation operations limit)

/-- A text of the operation is cut between two plain characters. -/
def CutsPlainly (operation : GraphQLOperationResponse) (budget : ℤ) : Prop :=
  CutsPlain operation.name budget.toNat ∨
    (∃ query ∈ operation.query,
      CutsPlain query.documentString (afterName operation budget / 2).toNat) ∨
    CutsPlain (resultText operation.result) (afterQuery operation budget).toNat

/-- A text of one of the operations is cut between two plain characters. -/
def SomeCutsPlainly : List GraphQLOperationResponse → ℤ → Prop
  | [], _ => False
  | operation :: operations, limit =>
    CutsPlainly operation (share (operation :: operations) limit) ∨
      SomeCutsPlainly operations (handedOn operation operations limit)

/-- What the subscription query of an attempt leaves of a budget. -/
def afterSubscriptionQuery (attempt : EventDeliveryAttempt) (budget : ℤ) : ℤ :=
  budget - sizeOf? (truncateSome attempt.subscriptionQuery (budget / 4))

/-- The response to an attempt, cut to half of what the subscription query leaves. -/
def cutBody (attempt : EventDeliveryAttempt) (budget : ℤ) : JsonTruncText :=
  .truncate attempt.response (afterSubscriptionQuery attempt budget / 2)

/-- What the subscription query and the response leave of a budget. -/
def afterBody (attempt : EventDeliveryAttempt) (budget : ℤ) : ℤ :=
  afterSubscriptionQuery attempt budget - (cutBody attempt budget).byteSize

/-- The payload of the event, cut to what the others leave. -/
def cutPayload (attempt : EventDeliveryAttempt) (budget : ℤ) : JsonTruncText :=
  .truncate (prettyJson attempt.payload) (afterBody attempt budget)

/-- What the texts of an attempt leave of a budget. -/
def attemptRest (attempt : EventDeliveryAttempt) (budget : ℤ) : ℤ :=
  afterBody attempt budget - (cutPayload attempt budget).byteSize

/-- What an attempt saves against the placeholders. -/
def attemptSavings (attempt : EventDeliveryAttempt) (budget : ℤ) : ℕ :=
  textSavings (truncateSome attempt.subscriptionQuery (budget / 4)) +
    flagSavings (cutBody attempt budget).truncated +
    flagSavings (cutPayload attempt budget).truncated

/-- A text of the attempt is cut between two plain characters. -/
def AttemptCutsPlainly (attempt : EventDeliveryAttempt) (budget : ℤ) : Prop :=
  CutsPlain attempt.subscriptionQuery (budget / 4).toNat ∨
    CutsPlain attempt.response (afterSubscriptionQuery attempt budget / 2).toNat ∨
    CutsPlain (prettyJson attempt.payload) (afterBody attempt budget).toNat

end Accounts

/-! ### The limit -/

/-- The operations would not get what their placeholders need; or else with their separators they do
not take more than is left over and saved. -/
def ApiCallFits (request : ApiCallRequest) (response : ApiCallResponse) (app : Option App)
    (operations : List GraphQLOperationResponse) (limit : ℤ) : Prop :=
  let remaining := limit - dumpSize (ApiCallPayload.mk request response app []).toJson
  remaining < operations.length * gqlOperationPlaceholderSize ∨
    overrun operations remaining + 2 * (operations.length - 1 : ℕ)
      ≤ unused operations remaining + saved operations remaining

/-- The payload with the texts empty takes the limit already; or else the texts do not take more
than is saved beyond their budget. -/
def AttemptFits (attempt : EventDeliveryAttempt) (nextRetry : Option (List ℕ)) (limit : ℤ) : Prop :=
  let remaining := limit - dumpSize
    (attempt.withTexts nextRetry (some truncPlaceholder) truncPlaceholder truncPlaceholder).toJson
  remaining < 0 ∨ -attemptRest attempt remaining ≤ attemptSavings attempt remaining

/-- An error for the event, or a payload that is not longer than the limit. -/
def KeepsLimit {α : Type} (event : ObservabilityEventTypes) (toJson : α → Json) (limit : ℤ) :
    Except TruncationError α → Prop
  | .error e => e.observabilityEventType = event
  | .ok payload => (dumpSize (toJson payload) : ℤ) ≤ limit

instance {α : Type} (event : ObservabilityEventTypes) (toJson : α → Json) (limit : ℤ)
    (result : Except TruncationError α) : Decidable (KeepsLimit event toJson limit result) :=
  match result with
  | .error e => inferInstanceAs (Decidable (e.observabilityEventType = event))
  | .ok payload => inferInstanceAs (Decidable ((dumpSize (toJson payload) : ℤ) ≤ limit))

/-! ### Sizes -/

theorem gqlOperationPlaceholderSize_eq : gqlOperationPlaceholderSize = 186 := by
  decide +kernel

theorem dumpSize_flag (flag : Bool) : dumpSize (.bool flag) + flagSavings flag = 5 := by
  cases flag <;> rfl

theorem dumpSize_truncText (t : JsonTruncText) :
    dumpSize (truncTextToJson t) + flagSavings t.truncated = 32 + escapedLength t.text := by
  have htext : escapedLength (codes "text") = 4 := by
    rw [escapedLength_of_plain (by simp [codes, needsEscape])]
    simp [codes]
  have htruncated : escapedLength (codes "truncated") = 9 := by
    rw [escapedLength_of_plain (by simp [codes, needsEscape])]
    simp [codes]
  have hflag := dumpSize_flag t.truncated
  rw [dumpSize] at hflag
  rw [dumpSize, truncTextToJson, length_dumps_dict]
  simp only [List.map_cons, List.map_nil, List.sum_cons, List.sum_nil, List.length_cons,
    List.length_nil, length_dumps_str, htext, htruncated]
  omega

/-- The texts that are cut know their sizes. -/
def Measured (t : Option JsonTruncText) : Prop :=
  ∀ text ∈ t, escapedLength text.text = text.byteSize

theorem measured_truncate (text : List ℕ) (limit : ℤ) :
    Measured (some (.truncate text limit)) := by
  intro cut hcut
  obtain rfl := Option.some_inj.mp hcut
  exact JsonTruncText.escapedLength_truncate text limit

theorem measured_truncateSome (text : List ℕ) (limit : ℤ) : Measured (truncateSome text limit) := by
  intro cut hcut
  rw [truncateSome] at hcut
  split at hcut
  · cases hcut
  · exact measured_truncate text limit cut hcut

theorem measured_cutQuery (operation : GraphQLOperationResponse) (budget : ℤ) :
    Measured (cutQuery operation budget) := by
  intro cut hcut
  obtain ⟨query, -, rfl⟩ := Option.map_eq_some_iff.mp hcut
  exact JsonTruncText.escapedLength_truncate _ _

theorem dumpSize_text {t : Option JsonTruncText} (h : Measured t) :
    (dumpSize (orNull truncTextToJson t) : ℤ) + textSavings t = 32 + sizeOf? t := by
  cases t with
  | none => rfl
  | some text =>
    have hsize := dumpSize_truncText text
    rw [h text rfl] at hsize
    show (dumpSize (truncTextToJson text) : ℤ) + (flagSavings text.truncated : ℤ)
      = 32 + (text.byteSize : ℤ)
    omega

theorem dumpSize_kind (kind : Option OperationKind) :
    dumpSize (orNull (fun kind => .str (codes kind.value)) kind) + kindSavings kind = 14 := by
  cases kind with
  | none => decide +kernel
  | some kind => cases kind <;> decide +kernel

/-- An operation is as long as the placeholder with the texts, less what it saves. -/
theorem dumpSize_gqlOperation {o : GraphQLOperation} (hname : Measured o.name)
    (hquery : Measured o.query) (hresult : Measured o.result) :
    (dumpSize o.toJson : ℤ) + textSavings o.name + kindSavings o.operationType +
        textSavings o.query + textSavings o.result + flagSavings o.resultInvalid
      = gqlOperationPlaceholderSize + sizeOf? o.name + sizeOf? o.query + sizeOf? o.result := by
  have hkeys : escapedLength (codes "name") = 4 ∧ escapedLength (codes "operationType") = 13 ∧
      escapedLength (codes "query") = 5 ∧ escapedLength (codes "result") = 6 ∧
      escapedLength (codes "resultInvalid") = 13 := by
    refine ⟨?_, ?_, ?_, ?_, ?_⟩
    all_goals
      rw [escapedLength_of_plain (by simp [codes, needsEscape])]
      simp [codes]
  have hname' := dumpSize_text hname
  have hquery' := dumpSize_text hquery
  have hresult' := dumpSize_text hresult
  have hkind := dumpSize_kind o.operationType
  have hinvalid := dumpSize_flag o.resultInvalid
  simp only [dumpSize] at hname' hquery' hresult' hkind hinvalid
  rw [gqlOperationPlaceholderSize_eq, dumpSize, GraphQLOperation.toJson, length_dumps_dict]
  simp only [List.map_cons, List.map_nil, List.sum_cons, List.sum_nil, List.length_cons,
    List.length_nil, hkeys]
  omega

/-! ### Operations -/

/-- The payload of an operation whose texts have a budget. -/
def cutOperation (operation : GraphQLOperationResponse) (budget : ℤ) : GraphQLOperation :=
  ⟨truncateSome operation.name budget, operation.query.bind GraphQLDocument.operation,
    cutQuery operation budget,
    truncateSome (resultText operation.result) (afterQuery operation budget),
    operation.resultInvalid⟩

theorem serializeGqlOperationResult_eq {operation : GraphQLOperationResponse} {limit : ℤ}
    (h : gqlOperationPlaceholderSize ≤ limit) :
    serializeGqlOperationResult operation limit
      = .ok (cutOperation operation (limit - gqlOperationPlaceholderSize),
          max 0 (rest operation (limit - gqlOperationPlaceholderSize))) := by
  rw [serializeGqlOperationResult, if_neg (by omega)]
  rfl

theorem dumpSize_cutOperation (operation : GraphQLOperationResponse) (budget : ℤ) :
    (dumpSize (cutOperation operation budget).toJson : ℤ) + savings operation budget
      = gqlOperationPlaceholderSize + budget - rest operation budget := by
  have hsize := dumpSize_gqlOperation (o := cutOperation operation budget)
    (measured_truncateSome _ _) (measured_cutQuery _ _) (measured_truncateSome _ _)
  simp only [cutOperation] at hsize ⊢
  rw [rest, afterQuery, afterName, savings]
  simp only [afterQuery, afterName] at hsize ⊢
  omega

section Loop

variable {operation : GraphQLOperationResponse} {operations : List GraphQLOperationResponse}
  {limit : ℤ}

/-- Each of the operations gets at least what its placeholder needs. -/
theorem share_nonneg
    (h : ((operation :: operations).length : ℤ) * gqlOperationPlaceholderSize ≤ limit) :
    0 ≤ share (operation :: operations) limit := by
  have hpos : (0 : ℤ) < (operation :: operations).length := by
    rw [List.length_cons]
    omega
  have hshare := (Int.le_ediv_iff_mul_le hpos).mpr ((Int.mul_comm _ _).trans_le h)
  rw [share]
  omega

/-- And so do the others with what is handed on. -/
theorem length_mul_le_handedOn
    (h : ((operation :: operations).length : ℤ) * gqlOperationPlaceholderSize ≤ limit) :
    (operations.length : ℤ) * gqlOperationPlaceholderSize
      ≤ handedOn operation operations limit := by
  have hshare := share_nonneg h
  have hpos : (0 : ℤ) < (operation :: operations).length := by
    rw [List.length_cons]
    omega
  rw [share] at hshare
  have hdiv := Int.ediv_mul_le limit (Int.ne_of_gt hpos)
  have hmul : (gqlOperationPlaceholderSize : ℤ) * operations.length
      ≤ limit / (operation :: operations).length * operations.length :=
    Int.mul_le_mul_of_nonneg_right (by omega) (Int.natCast_nonneg _)
  have hlength : ((operation :: operations).length : ℤ) = operations.length + 1 := by
    rw [List.length_cons]
    rfl
  have hone : limit / (operation :: operations).length * (operation :: operations).length
      = limit / (operation :: operations).length * operations.length +
        limit / (operation :: operations).length := by
    rw [hlength, Int.mul_add, Int.mul_one]
  rw [handedOn, share, Int.mul_comm]
  omega

theorem serializeLoop_cons
    (h : ((operation :: operations).length : ℤ) * gqlOperationPlaceholderSize ≤ limit) :
    serializeLoop (operation :: operations) limit
      = match serializeLoop operations (handedOn operation operations limit) with
        | .error e => .error e
        | .ok payloads =>
          .ok (cutOperation operation (share (operation :: operations) limit) :: payloads) := by
  have hshare := share_nonneg h
  have hlength : ((operation :: operations).length : ℤ) = operations.length + 1 := by
    rw [List.length_cons]
    rfl
  have hfits : (gqlOperationPlaceholderSize : ℤ) ≤ limit / (operations.length + 1) := by
    rw [share, hlength] at hshare
    omega
  have hnext : limit - (limit / (operations.length + 1) -
      max 0 (rest operation (limit / (operations.length + 1) - gqlOperationPlaceholderSize)))
        = handedOn operation operations limit := by
    rw [handedOn, share, hlength]
    omega
  simp only [serializeLoop, serializeGqlOperationResult_eq hfits, hnext, share, hlength]

end Loop

/-- **The sizes of the operations** once the check of all of them has passed: nothing is raised, and
the account is even. -/
theorem serializeLoop_accounts {operations : List GraphQLOperationResponse} {limit : ℤ}
    (h : (operations.length : ℤ) * gqlOperationPlaceholderSize ≤ limit) :
    ∃ payloads, serializeLoop operations limit = .ok payloads ∧
      payloads.length = operations.length ∧
      ((payloads.map fun payload => dumpSize payload.toJson).sum : ℤ) + saved operations limit +
        unused operations limit = limit + overrun operations limit := by
  induction operations generalizing limit with
  | nil =>
    refine ⟨[], rfl, rfl, ?_⟩
    rw [saved, unused, overrun, List.map_nil, List.sum_nil]
    omega
  | cons operation operations ih =>
    obtain ⟨payloads, hpayloads, hlength, hsum⟩ := ih (length_mul_le_handedOn h)
    refine ⟨cutOperation operation (share (operation :: operations) limit) :: payloads, ?_, ?_, ?_⟩
    · rw [serializeLoop_cons h, hpayloads]
    · rw [List.length_cons, List.length_cons, hlength]
    · have hcut := dumpSize_cutOperation operation (share (operation :: operations) limit)
      have hnext : handedOn operation operations limit
          = limit - gqlOperationPlaceholderSize - share (operation :: operations) limit +
            max 0 (rest operation (share (operation :: operations) limit)) := rfl
      rw [List.map_cons, List.sum_cons, saved, unused, overrun]
      omega

theorem serializeGqlOperationResults_of_le {operations : List GraphQLOperationResponse} {limit : ℤ}
    (h : (operations.length : ℤ) * gqlOperationPlaceholderSize ≤ limit) :
    serializeGqlOperationResults operations limit = serializeLoop operations limit := by
  rw [serializeGqlOperationResults, if_neg (by omega)]

/-- With operations the payload is longer by these and their separators. -/
theorem dumpSize_apiCallPayload (request : ApiCallRequest) (response : ApiCallResponse)
    (app : Option App) (payloads : List GraphQLOperation) :
    dumpSize (ApiCallPayload.mk request response app payloads).toJson
      = dumpSize (ApiCallPayload.mk request response app []).toJson +
        (payloads.map fun payload => dumpSize payload.toJson).sum + 2 * (payloads.length - 1) := by
  have hlist := length_dumps_list (payloads.map GraphQLOperation.toJson)
  rw [List.map_map, List.length_map] at hlist
  have hnil : (dumps (.list [])).length = 2 := rfl
  simp only [dumpSize, ApiCallPayload.toJson, length_dumps_dict, List.map_cons, List.map_nil,
    List.sum_cons, List.sum_nil, List.length_cons, List.length_nil, hlist, hnil]
  show _ = _ +
    (payloads.map ((fun value => (dumps value).length) ∘ GraphQLOperation.toJson)).sum + _
  omega

/-- With the cut texts the payload is longer by these, less what they save. -/
theorem dumpSize_withTexts (attempt : EventDeliveryAttempt) (nextRetry : Option (List ℕ))
    {subscriptionQuery : Option JsonTruncText} {body payloadBody : JsonTruncText}
    (hquery : Measured subscriptionQuery) (hbody : Measured (some body))
    (hpayload : Measured (some payloadBody)) :
    (dumpSize (attempt.withTexts nextRetry subscriptionQuery body payloadBody).toJson : ℤ) +
        textSavings subscriptionQuery + flagSavings body.truncated +
        flagSavings payloadBody.truncated
      = dumpSize (attempt.withTexts nextRetry (some truncPlaceholder) truncPlaceholder
          truncPlaceholder).toJson + sizeOf? subscriptionQuery + body.byteSize +
        payloadBody.byteSize := by
  have hquery' := dumpSize_text hquery
  have hbody' := dumpSize_truncText body
  have hpayload' := dumpSize_truncText payloadBody
  rw [hbody body rfl] at hbody'
  rw [hpayload payloadBody rfl] at hpayload'
  have hplaceholder : dumpSize (truncTextToJson truncPlaceholder) = 32 :=
    dumpSize_truncText truncPlaceholder
  have hsome : orNull truncTextToJson (some truncPlaceholder)
      = truncTextToJson truncPlaceholder := rfl
  simp only [dumpSize] at hquery' hbody' hpayload' hplaceholder
  simp only [dumpSize, EventDeliveryAttemptPayload.toJson, EventDeliveryAttempt.withTexts,
    length_dumps_dict, List.map_cons, List.map_nil, List.sum_cons, List.sum_nil, List.length_cons,
    List.length_nil, hsome, hplaceholder]
  omega

theorem dumpSize_cutAttempt (attempt : EventDeliveryAttempt) (nextRetry : Option (List ℕ))
    (budget : ℤ) :
    (dumpSize (attempt.withTexts nextRetry (truncateSome attempt.subscriptionQuery (budget / 4))
        (cutBody attempt budget) (cutPayload attempt budget)).toJson : ℤ) +
        attemptSavings attempt budget
      = dumpSize (attempt.withTexts nextRetry (some truncPlaceholder) truncPlaceholder
          truncPlaceholder).toJson + budget - attemptRest attempt budget := by
  have hsize := dumpSize_withTexts attempt nextRetry
    (measured_truncateSome attempt.subscriptionQuery (budget / 4))
    (measured_truncate attempt.response (afterSubscriptionQuery attempt budget / 2))
    (measured_truncate (prettyJson attempt.payload) (afterBody attempt budget))
  rw [attemptSavings, attemptRest, afterBody, afterSubscriptionQuery]
  rw [← cutBody, ← cutPayload] at hsize
  omega

/-! ### Cuts -/

/-- Unless it is cut between two plain characters a text keeps to its budget. -/
theorem byteSize_truncate_le {text : List ℕ} {limit : ℤ} (h : ¬ CutsPlain text limit.toNat)
    (hlimit : 0 ≤ limit) : ((JsonTruncText.truncate text limit).byteSize : ℤ) ≤ limit := by
  have hle := (JsonTruncText.byteSize_truncate_le_iff text limit).mpr h
  omega

theorem sizeOf_truncateSome_le {text : List ℕ} {limit : ℤ} (h : ¬ CutsPlain text limit.toNat)
    (hlimit : 0 ≤ limit) : sizeOf? (truncateSome text limit) ≤ limit := by
  rw [truncateSome]
  split
  · exact hlimit
  · exact byteSize_truncate_le h hlimit

theorem rest_nonneg {operation : GraphQLOperationResponse} {budget : ℤ} (hbudget : 0 ≤ budget)
    (h : ¬ CutsPlainly operation budget) : 0 ≤ rest operation budget := by
  rw [CutsPlainly, not_or, not_or] at h
  obtain ⟨hname, hquery, hresult⟩ := h
  have hafterName : 0 ≤ afterName operation budget :=
    Int.sub_nonneg_of_le (sizeOf_truncateSome_le hname hbudget)
  have hcut : sizeOf? (cutQuery operation budget) ≤ afterName operation budget := by
    rw [cutQuery]
    cases hdocument : operation.query with
    | none => exact hafterName
    | some query =>
      have hle := byteSize_truncate_le (fun hcuts => hquery ⟨query, hdocument, hcuts⟩)
        (Int.ediv_nonneg hafterName (by omega))
      show ((JsonTruncText.truncate query.documentString
        (afterName operation budget / 2)).byteSize : ℤ) ≤ _
      omega
  exact Int.sub_nonneg_of_le (sizeOf_truncateSome_le hresult (Int.sub_nonneg_of_le hcut))

/-- Texts take more than their budgets only where one is cut between two plain characters. -/
theorem someCutsPlainly_of_overrun {operations : List GraphQLOperationResponse} {limit : ℤ}
    (h : (operations.length : ℤ) * gqlOperationPlaceholderSize ≤ limit)
    (hoverrun : 0 < overrun operations limit) : SomeCutsPlainly operations limit := by
  induction operations generalizing limit with
  | nil => exact absurd hoverrun (Int.lt_irrefl 0)
  | cons operation operations ih =>
    by_cases hcuts : CutsPlainly operation (share (operation :: operations) limit)
    · exact Or.inl hcuts
    · have hrest := rest_nonneg (share_nonneg h) hcuts
      rw [overrun] at hoverrun
      exact Or.inr (ih (length_mul_le_handedOn h) (by omega))

theorem attemptCutsPlainly_of_attemptRest {attempt : EventDeliveryAttempt} {budget : ℤ}
    (hbudget : 0 ≤ budget) (hrest : attemptRest attempt budget < 0) :
    AttemptCutsPlainly attempt budget := by
  by_contra hcuts
  rw [AttemptCutsPlainly, not_or, not_or] at hcuts
  obtain ⟨hquery, hbody, hpayload⟩ := hcuts
  have hquery' := sizeOf_truncateSome_le hquery (Int.ediv_nonneg hbudget (by omega))
  have hafter : 0 ≤ afterSubscriptionQuery attempt budget := by
    rw [afterSubscriptionQuery]
    omega
  have hbody' := byteSize_truncate_le hbody (Int.ediv_nonneg hafter (by omega))
  have hafterBody : 0 ≤ afterBody attempt budget := by
    rw [afterBody, cutBody]
    omega
  have hpayload' := byteSize_truncate_le hpayload hafterBody
  rw [attemptRest, cutPayload] at hrest
  omega

/-! ### The limit is kept -/

theorem keepsLimit_apiCall_iff (request : ApiCallRequest) (response : ApiCallResponse)
    (app : Option App) (operations : List GraphQLOperationResponse) (limit : ℤ) :
    KeepsLimit .apiCall ApiCallPayload.toJson limit
        (generateApiCallPayload request response app operations limit) ↔
      ApiCallFits request response app operations limit := by
  rw [ApiCallFits, generateApiCallPayload]
  dsimp only
  have hnonneg : (0 : ℤ) ≤ operations.length * gqlOperationPlaceholderSize :=
    Int.mul_nonneg (Int.natCast_nonneg _) (Int.natCast_nonneg _)
  split
  · exact iff_of_true rfl (Or.inl (by omega))
  · by_cases hcheck : (operations.length : ℤ) * gqlOperationPlaceholderSize
        ≤ limit - dumpSize (ApiCallPayload.mk request response app []).toJson
    · obtain ⟨payloads, hpayloads, hlength, hsum⟩ := serializeLoop_accounts hcheck
      have hsize := dumpSize_apiCallPayload request response app payloads
      rw [serializeGqlOperationResults_of_le hcheck, hpayloads, or_iff_right (by omega)]
      show (dumpSize (ApiCallPayload.mk request response app payloads).toJson : ℤ) ≤ limit ↔ _
      rw [hlength] at hsize
      omega
    · rw [serializeGqlOperationResults, if_pos (by omega)]
      exact iff_of_true rfl (Or.inl (by omega))

theorem keepsLimit_eventDeliveryAttempt_iff (attempt : EventDeliveryAttempt)
    (nextRetry : Option (List ℕ)) (limit : ℤ) :
    KeepsLimit .eventDeliveryAttempt EventDeliveryAttemptPayload.toJson limit
        (generateEventDeliveryAttemptPayload attempt nextRetry limit) ↔
      AttemptFits attempt nextRetry limit := by
  rw [AttemptFits, generateEventDeliveryAttemptPayload]
  dsimp only
  split
  · exact iff_of_true rfl (Or.inl (by omega))
  · rename_i hremaining
    rw [or_iff_right hremaining]
    have hsize := dumpSize_cutAttempt attempt nextRetry (limit - dumpSize (attempt.withTexts
      nextRetry (some truncPlaceholder) truncPlaceholder truncPlaceholder).toJson)
    generalize hbudget : limit - (dumpSize (attempt.withTexts nextRetry (some truncPlaceholder)
      truncPlaceholder truncPlaceholder).toJson : ℤ) = budget at hsize ⊢
    show (dumpSize (attempt.withTexts nextRetry
      (truncateSome attempt.subscriptionQuery (budget / 4)) (cutBody attempt budget)
      (cutPayload attempt budget)).toJson : ℤ) ≤ limit ↔ _
    omega

/-- `{"data": {"shop": {"name": "aaaa…"}}}`. -/
def shopName : List (List ℕ × Json) :=
  [(codes "data", .dict [(codes "shop", .dict [(codes "name", .str (List.replicate 60 97))])])]

/-- `query A{shop{name}}`, with a result that does not fit. -/
def shopOperation : GraphQLOperationResponse where
  name := codes "A"
  query := some ⟨codes "query A\x7bshop\x7bname\x7d\x7d", some .query⟩
  result := shopName
  resultInvalid := false

/-- A request for it. -/
def shopRequest : ApiCallRequest where
  id := codes "1"
  method := codes "POST"
  url := codes "http://localhost/graphql/"
  time := "0.0"
  headers := []
  contentLength := 19

/-- The response. -/
def shopResponse : ApiCallResponse where
  headers := []
  statusCode := some 200
  contentLength := 90

end Payloads

end Observability

end Aixinwu
