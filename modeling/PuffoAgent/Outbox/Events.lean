import PuffoAgent.Text.Canonical
import PuffoAgent.Text.Python

/-! Runtime events: their validation, their canonical text, and the sanitizer that an opening
outbox puts its rows through. -/
namespace PuffoAgent.Outbox
open Text

inductive EventError where
  | value (message : String)
  | unhashable
  deriving DecidableEq, Repr

def runtimeEventTypes : List String :=
  ["turn.started", "activity.updated", "tool.updated", "permission.updated", "turn.finished"]

def toolStates : List String := ["running", "succeeded", "failed"]

def permissionStates : List String := ["pending", "approved", "denied", "expired"]

def turnOutcomes : List String := ["succeeded", "failed", "cancelled", "abandoned"]

/-- `_SAFE_MESSAGES`. -/
def safeMessages : List (String × String) :=
  [("provider_unavailable", "The Agent runtime became unavailable."),
    ("runtime_exited", "The Agent runtime stopped before completing the turn."),
    ("protocol_error", "The Agent runtime returned an invalid response."),
    ("permission_denied", "The requested operation was not permitted."),
    ("cancel_failed", "The Agent runtime could not cancel the turn."),
    ("unknown", "The Agent runtime could not complete the turn.")]

/-- `runtime_event_failure_code`; the codes left out have the default one. -/
def runtimeEventFailureCode (errorCode : String) : String :=
  if errorCode ∈ ["authentication", "permission_denied", "not_entitled"] then "permission_denied"
  else if errorCode ∈ ["budget_exceeded", "plan_drained", "extra_usage_required", "quota_exhausted", "rate_limit",
      "provider_unavailable"] then "provider_unavailable"
  else if errorCode ∈ ["runtime_exited", "resume_unconfirmed"] then "runtime_exited"
  else if errorCode = "protocol_error" then "protocol_error"
  else if errorCode = "cancel_failed" then "cancel_failed"
  else "unknown"

def safeMessage (code : String) : String := (safeMessages.lookup code).getD ""

/-- `safe_error`. -/
def safeError (code : String) (retryable : Bool) : Json :=
  .obj [("code", .str (runtimeEventFailureCode code)),
    ("message", .str (safeMessage (runtimeEventFailureCode code))), ("retryable", .bool retryable)]

section Values

/-- `value in texts` for a set of texts. -/
def oneOf (texts : List String) : Json → Except EventError Bool
  | .str s => .ok (s ∈ texts)
  | .arr _ => .error .unhashable
  | .obj _ => .error .unhashable
  | _ => .ok false

def isText (s : String) : Json → Bool
  | .str t => t = s
  | _ => false

def isNull : Json → Bool
  | .null => true
  | _ => false

def isBool : Json → Bool
  | .bool _ => true
  | _ => false

/-- The message is the one of a safe code. -/
def hasMessage : Json → Json → Bool
  | .str code, message => isText (safeMessage code) message
  | _, _ => false

/-- `type(value) is int` and at least `least`. -/
def isCount (least : Int) : Json → Bool
  | .int n => least ≤ n
  | _ => false

/-- `value == 1`. -/
def isOne : Json → Bool
  | .int n => n = 1
  | .bool b => b
  | .float f => f.text = "1.0"
  | _ => false

/-- `d.get(key)`. -/
def field (key : String) (members : List (String × Json)) : Json := ((Json.obj members).member key).getD .null

def has (key : String) (members : List (String × Json)) : Bool := ((Json.obj members).member key).isSome

/-- The keys are among these. -/
def keysWithin (keys : List String) (members : List (String × Json)) : Bool := members.all (·.1 ∈ keys)

/-- The keys are exactly these. -/
def keysAre (keys : List String) (members : List (String × Json)) : Bool :=
  keysWithin keys members ∧ keys.all fun key => has key members

/-- `{"input": n, "output": m}` with counts. -/
def isTokens : Json → Bool
  | .obj tokens => keysAre ["input", "output"] tokens ∧ isCount 0 (field "input" tokens) ∧ isCount 0 (field "output" tokens)
  | _ => false

end Values

/-- The fields of a runtime event; its scope is always the operator's. -/
structure EventFields where
  version : Json := .int 1
  eventId : String
  agentId : String
  sessionRef : String
  turnRef : String
  type : String
  occurredAt : String
  payload : List (String × Json)

section Validation

def demand (ok : Bool) (message : String) : Except EventError Unit :=
  if ok then .ok () else .error (.value message)

/-- A text among `texts`. -/
def demandOneOf (texts : List String) (v : Json) (message : String) : Except EventError Unit := do
  demand (← oneOf texts v) message

def validateError : Json → Except EventError Unit
  | .obj error => do
    demand (keysAre ["code", "message", "retryable"] error) "turn.finished error is invalid"
    demandOneOf (safeMessages.map (·.1)) (field "code" error) "turn.finished error code is invalid"
    demand (hasMessage (field "code" error) (field "message" error)) "turn.finished error message is invalid"
    demand (isBool (field "retryable" error)) "turn.finished error retryable is invalid"
  | _ => .error (.value "turn.finished error is invalid")

def validateFinished (payload : List (String × Json)) : Except EventError Unit := do
  demand (keysWithin ["outcome", "error", "tokens", "current_context"] payload) "turn.finished has unsupported fields"
  demandOneOf turnOutcomes (field "outcome" payload) "invalid turn outcome"
  let tokens := field "tokens" payload
  let currentContext := field "current_context" payload
  demand (isNull tokens ∨ isTokens tokens) "turn.finished tokens are invalid"
  demand (isNull currentContext ∨ isCount 1 currentContext) "turn.finished current_context is invalid"
  demand (isText "succeeded" (field "outcome" payload) ∨ (isNull tokens ∧ isNull currentContext))
    "turn.finished usage requires succeeded outcome"
  demand (isText "failed" (field "outcome" payload) ∨ ¬ has "error" payload)
    "turn.finished error requires failed outcome"
  if isText "failed" (field "outcome" payload) ∧ has "error" payload then validateError (field "error" payload)

/-- The checks on the payload of one type of event. -/
def validatePayload (type : String) (payload : List (String × Json)) : Except EventError Unit :=
  if type = "turn.started" then demand payload.isEmpty "turn.started payload must be empty"
  else if type = "activity.updated" then do
    demand (keysAre ["text"] payload) "activity.updated requires only text"
    let safe ← oneOf ["Working"] (field "text" payload)
    demand (isNull (field "text" payload) ∨ safe) "activity text must use the fixed metadata vocabulary"
  else if type = "tool.updated" then do
    demand (keysAre ["tool_call_ref", "label", "state"] payload) "tool.updated missing required fields"
    demand (isText "Tool" (field "label" payload)) "tool label must use the fixed metadata vocabulary"
    demandOneOf toolStates (field "state" payload) "invalid tool state"
  else if type = "permission.updated" then do
    demand (has "permission_ref" payload ∧ has "state" payload ∧
      keysWithin ["permission_ref", "state", "title"] payload) "permission.updated missing required fields"
    demand (¬ has "title" payload ∨ isText "Permission required" (field "title" payload))
      "permission title must use the fixed metadata vocabulary"
    demandOneOf permissionStates (field "state" payload) "invalid permission state"
  else validateFinished payload

/-- `validate_runtime_event`. -/
def validateRuntimeEvent (e : EventFields) : Except EventError Unit := do
  demand (isOne e.version) "runtime event version must be 1"
  demand (e.type ∈ runtimeEventTypes) ("unsupported runtime event type: " ++ e.type)
  demand (e.eventId ≠ "" ∧ e.agentId ≠ "" ∧ e.sessionRef ≠ "" ∧ e.turnRef ≠ "")
    "runtime event references must be non-empty"
  validatePayload e.type e.payload

end Validation

/-- An event exists only validated. -/
structure RuntimeEvent extends EventFields where
  valid : validateRuntimeEvent toEventFields = .ok ()

/-- `RuntimeEvent(...)`, where `none` is a `TypeError` or a `ValueError`. -/
def EventFields.make? (e : EventFields) : Option RuntimeEvent :=
  match h : validateRuntimeEvent e with
  | .ok () => some ⟨e, h⟩
  | .error _ => none

/-- `as_dict`. -/
def dictMembers (e : EventFields) : List (String × Json) :=
  [("version", e.version), ("event_id", .str e.eventId), ("agent_id", .str e.agentId),
    ("session_ref", .str e.sessionRef), ("turn_ref", .str e.turnRef), ("scope", .obj [("kind", .str "operator")]),
    ("type", .str e.type), ("occurred_at", .str e.occurredAt), ("payload", .obj e.payload)]

def EventFields.asDict (e : EventFields) : Json := .obj (dictMembers e)

/-- The text of `canonical_bytes`. -/
def EventFields.canonicalText (e : EventFields) : String := e.asDict.dumpsSorted

mutual
/-- What `allow_nan=False` lets through. -/
def isFinite : Json → Bool
  | .float f => ¬ (f.text = "NaN" ∨ f.text = "Infinity" ∨ f.text = "-Infinity")
  | .arr items => allFinite items
  | .obj members => membersFinite members
  | _ => true

def allFinite : List Json → Bool
  | [] => true
  | v :: vs => isFinite v && allFinite vs

def membersFinite : List (String × Json) → Bool
  | [] => true
  | (_, v) :: ms => isFinite v && membersFinite ms
end

/-- `canonical_bytes`; `none` is its `ValueError`. -/
def EventFields.canonicalBytes? (e : EventFields) : Option String :=
  if isFinite e.asDict then some e.canonicalText else none

section Migration
variable (str : Json → String)

/-- `bool(value)`. -/
def isTrue : Json → Bool
  | .null => false
  | .bool b => b
  | .int n => n ≠ 0
  | .float f => ¬ (f.text = "0.0" ∨ f.text = "-0.0")
  | .str s => s ≠ ""
  | .arr items => ¬ items.isEmpty
  | .obj members => ¬ members.isEmpty

/-- `str(error.get("code") or "unknown")`. -/
def errorCode (error : List (String × Json)) : String :=
  match field "code" error with
  | .str code => if code = "" then "unknown" else code
  | v => if isTrue v then str v else "unknown"

/-- `value is True`. -/
def isLiteralTrue : Json → Bool
  | .bool b => b
  | _ => false

def errorEntry (outcome : String) : Json → List (String × Json)
  | .obj error =>
    if outcome = "failed" then [("error", safeError (errorCode str error) (isLiteralTrue (field "retryable" error)))]
    else []
  | _ => []

def finishedPayload (payload : List (String × Json)) : Option (List (String × Json)) :=
  match field "outcome" payload with
  | .str outcome =>
    if outcome ∉ turnOutcomes then none
    else
      let tokens := field "tokens" payload
      let currentContext := field "current_context" payload
      some ([("outcome", .str outcome)] ++
        (if outcome = "succeeded" ∧ isTokens tokens then [("tokens", tokens)] else []) ++
        (if outcome = "succeeded" ∧ isCount 1 currentContext then [("current_context", currentContext)] else []) ++
        errorEntry str outcome (field "error" payload))
  | _ => none

/-- The payload without content. -/
def metadataPayload (type : String) (payload : List (String × Json)) : Option (List (String × Json)) :=
  if type = "turn.started" then some []
  else if type = "activity.updated" then
    some [("text", if isNull (field "text" payload) then .null else .str "Working")]
  else if type = "tool.updated" then
    match field "tool_call_ref" payload with
    | .str ref => some [("tool_call_ref", .str ref), ("label", .str "Tool"), ("state", field "state" payload)]
    | _ => none
  else if type = "permission.updated" then
    match field "permission_ref" payload with
    | .str ref => some ([("permission_ref", .str ref), ("state", field "state" payload)] ++
        if isNull (field "title" payload) then [] else [("title", .str "Permission required")])
    | _ => none
  else if type = "turn.finished" then finishedPayload str payload
  else none

def isOperatorScope : Json → Bool
  | .obj scope => keysAre ["kind"] scope ∧ isText "operator" (field "kind" scope)
  | _ => false

/-- A non-empty text field. -/
def textField (key : String) (members : List (String × Json)) : Option String :=
  match field key members with
  | .str s => if s = "" then none else some s
  | _ => none

/-- `_metadata_only_event`. -/
def metadataOnlyEvent (value : Json) : Option RuntimeEvent :=
  match value with
  | .obj event =>
    if ¬ isOne (field "version" event) ∨ ¬ isOperatorScope (field "scope" event) then none
    else do
      let eventId ← textField "event_id" event
      let agentId ← textField "agent_id" event
      let sessionRef ← textField "session_ref" event
      let turnRef ← textField "turn_ref" event
      let occurredAt ← textField "occurred_at" event
      match field "type" event, field "payload" event with
      | .str type, .obj payload =>
        let payload ← metadataPayload str type payload
        EventFields.make? ⟨field "version" event, eventId, agentId, sessionRef, turnRef, type, occurredAt, payload⟩
      | _, _ => none
  | _ => none

end Migration
end PuffoAgent.Outbox
