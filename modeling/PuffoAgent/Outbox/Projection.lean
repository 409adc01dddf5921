import PuffoAgent.Outbox.Fifo

/-! What the runtime's own events show outside: the allow-listed projection onto runtime events. -/
namespace PuffoAgent.Outbox
open Text

/-- `HarnessEvent`; the native fields and the diagnostic are what the provider said. -/
structure HarnessEvent where
  type : String
  driver : String
  sessionRef : String
  turnRef : Option String
  nativeSessionId : String := ""
  nativeTurnId : String := ""
  occurredAt : String
  data : List (String × Json) := []
  native : Option Json := none

structure RuntimeEventProjector where
  agentId : String
  sessionRef : String
  toolRefs : List ((String × String) × String) := []

/-- The random hexadecimal names drawn for one harness event. -/
structure Draw where
  event : String
  companion : String
  tool : String

/-- `provider_failure_retryable`. -/
def providerFailureRetryable (errorCode : String) (explicitlyRetryable : Bool) : Bool :=
  if errorCode ∈ ["rate_limit", "provider_unavailable", "runtime_exited", "resume_unconfirmed"] then true
  else if errorCode ∈ ["authentication", "permission_denied", "codex_upgrade_required", "model_not_found",
      "not_entitled", "budget_exceeded", "plan_drained", "extra_usage_required", "quota_exhausted", "provider_error",
      "protocol_error", "cancel_failed", "unknown"] then false
  else explicitlyRetryable

section Project
variable (str : Json → String)

/-- `str(value or fallback)`. -/
def textOr (fallback : String) : Json → String
  | .str s => if s = "" then fallback else s
  | v => if isTrue v then str v else fallback

/-- `_token_count`. -/
def tokenCount : Json → Int
  | .int n => if 0 ≤ n then n else 0
  | _ => 0

def currentContext : Json → List (String × Json)
  | .int n => if 0 < n then [("current_context", .int n)] else []
  | _ => []

/-- The outcome of a completed or an abandoned turn. -/
def turnOutcome (kind : String) (data : List (String × Json)) : String :=
  let outcome :=
    if kind = "turn.abandoned" ∧ isTrue (field "error_code" data) then "failed"
    else if kind = "turn.abandoned" then "abandoned"
    else textOr str "succeeded" (field "outcome" data)
  if outcome ∈ turnOutcomes then outcome else "failed"

def usageEntries (kind outcome : String) (data : List (String × Json)) : List (String × Json) :=
  if kind = "turn.completed" ∧ outcome = "succeeded" then
    ("tokens", .obj [("input", .int (tokenCount (field "input_tokens" data))),
      ("output", .int (tokenCount (field "output_tokens" data)))]) :: currentContext (field "context_tokens" data)
  else []

def failureEntries (outcome : String) (data : List (String × Json)) : List (String × Json) :=
  if outcome = "failed" then
    let errorCode := textOr str "unknown" (field "error_code" data)
    [("error", safeError errorCode (providerFailureRetryable errorCode (isTrue (field "retryable" data))))]
  else []

/-- The payload that ends a turn. -/
def terminalPayload (kind : String) (data : List (String × Json)) : List (String × Json) :=
  let outcome := turnOutcome str kind data
  ("outcome", .str outcome) :: (usageEntries kind outcome data ++ failureEntries str outcome data)

/-- What names the tool call of an event. -/
def toolKey (event : HarnessEvent) : String × String :=
  (event.turnRef.getD "None", textOr str "" (field "tool_call_ref" event.data))

namespace RuntimeEventProjector

/-- The public name of a tool call, which the first event about it draws. -/
def toolRef (p : RuntimeEventProjector) (key : String × String) (draw : Draw) : String :=
  (p.toolRefs.lookup key).getD ("tool_" ++ draw.tool)

/-- `self._tool_refs.setdefault(key, ...)`. -/
def named (p : RuntimeEventProjector) (key : String × String) (draw : Draw) : RuntimeEventProjector :=
  if (p.toolRefs.lookup key).isSome then p
  else { p with toolRefs := p.toolRefs ++ [(key, "tool_" ++ draw.tool)] }

/-- `_tool`, up to the event it makes. -/
def tool (p : RuntimeEventProjector) (event : HarnessEvent) (state : String) (draw : Draw) :
    (String × List (String × Json)) × RuntimeEventProjector :=
  (("tool.updated", [("tool_call_ref", .str (p.toolRef (toolKey str event) draw)), ("label", .str "Tool"),
    ("state", .str state)]), p.named (toolKey str event) draw)

/-- What `project` makes of an event: the type and the payload of the public one, if any. -/
def planned (p : RuntimeEventProjector) (event : HarnessEvent) (draw : Draw) :
    Except EventError (Option (String × List (String × Json)) × RuntimeEventProjector) :=
  if event.type = "turn.started" then .ok (some ("turn.started", []), p)
  else if event.type = "turn.tool_started" then
    let (made, p) := p.tool str event "running" draw
    .ok (some made, p)
  else if event.type = "turn.tool_completed" then do
    let outcome := ((Json.obj event.data).member "outcome").getD (.str "succeeded")
    if ← oneOf ["succeeded", "failed"] outcome then
      let (made, p) := p.tool str event (textOr str "" outcome) draw
      return (some made, p)
    else return (none, p)
  else if event.type = "turn.permission_requested" ∨ event.type = "turn.permission_updated" then
    let state := textOr str "pending" (field "state" event.data)
    if state ∉ permissionStates then .ok (none, p)
    else .ok (some ("permission.updated", [("permission_ref", .str (textOr str "" (field "permission_ref" event.data))),
      ("state", .str state), ("title", .str "Permission required")]), p)
  else if event.type = "turn.completed" ∨ event.type = "turn.abandoned" then
    .ok (some ("turn.finished", terminalPayload str event.type event.data), p)
  -- native frames, reasoning, provider diagnostics and tool payloads
  else .ok (none, p)

/-- `RuntimeEvent(...)`. -/
def validated (e : EventFields) : Except EventError RuntimeEvent :=
  match h : validateRuntimeEvent e with
  | .ok () => .ok ⟨e, h⟩
  | .error err => .error err

/-- `_make`. -/
def make (p : RuntimeEventProjector) (event : HarnessEvent) (type : String) (payload : List (String × Json))
    (draw : Draw) : Except EventError (Option RuntimeEvent) :=
  match event.turnRef with
  | none => .ok none
  | some turnRef => do
    return some (← validated ⟨.int 1, "evt_" ++ draw.event, p.agentId, p.sessionRef, turnRef, type, event.occurredAt, payload⟩)

/-- `project`. -/
def project (p : RuntimeEventProjector) (event : HarnessEvent) (draw : Draw) :
    Except EventError (Option RuntimeEvent) × RuntimeEventProjector :=
  match p.planned str event draw with
  | .error err => (.error err, p)
  | .ok (none, p) => (.ok none, p)
  | .ok (some (type, payload), p) => (p.make event type payload draw, p)

/-- `_prune_turn`. -/
def pruneTurn (p : RuntimeEventProjector) (turnRef : String) : RuntimeEventProjector :=
  { p with toolRefs := p.toolRefs.filter (·.1.1 ≠ turnRef) }

/-- The event that accompanies the start of a turn. -/
def activity (projected : RuntimeEvent) (draw : Draw) : EventFields :=
  { projected.toEventFields with
    eventId := "evt_" ++ draw.companion, type := "activity.updated", payload := [("text", .str "Working")] }

/-- `project_all`. -/
def projectAll (p : RuntimeEventProjector) (event : HarnessEvent) (draw : Draw) :
    Except EventError (List RuntimeEvent) × RuntimeEventProjector :=
  match p.project str event draw with
  | (.error err, p) => (.error err, p)
  | (.ok none, p) => (.ok [], p)
  | (.ok (some projected), p) =>
    if event.type = "turn.started" then
      ((validated (activity projected draw)).map fun activity => [projected, activity], p)
    else if event.type = "turn.completed" ∨ event.type = "turn.abandoned" then
      (.ok [projected], p.pruneTurn projected.turnRef)
    else (.ok [projected], p)

end RuntimeEventProjector
end Project

section Public
variable (str : Json → String)

/-- What may leave: a valid payload in the metadata-only form. -/
structure Public (type : String) (P : List (String × Json)) : Prop where
  known : type ∈ runtimeEventTypes
  valid : validatePayload type P = .ok ()
  metadata : MetadataOnly type P

theorem public_started : Public "turn.started" [] := ⟨by decide, rfl, nofun, nofun, nofun⟩

theorem public_activity : Public "activity.updated" [("text", .str "Working")] :=
  ⟨by decide, rfl, nofun, nofun, nofun⟩

theorem public_tool (ref : String) {state : String} (h : state ∈ toolStates) :
    Public "tool.updated" [("tool_call_ref", .str ref), ("label", .str "Tool"), ("state", .str state)] := by
  refine ⟨by decide, ?_, fun _ => ⟨ref, rfl⟩, nofun, nofun⟩
  simp only [toolStates, List.mem_cons, List.not_mem_nil, or_false] at h
  rcases h with rfl | rfl | rfl <;> rfl

theorem public_permission (ref : String) {state : String} (h : state ∈ permissionStates) :
    Public "permission.updated" [("permission_ref", .str ref), ("state", .str state),
      ("title", .str "Permission required")] := by
  refine ⟨by decide, ?_, nofun, fun _ => ⟨ref, rfl⟩, nofun⟩
  simp only [permissionStates, List.mem_cons, List.not_mem_nil, or_false] at h
  rcases h with rfl | rfl | rfl | rfl <;> rfl

theorem turnOutcome_mem (kind : String) (data : List (String × Json)) : turnOutcome str kind data ∈ turnOutcomes := by
  have h : ∀ outcome, (if outcome ∈ turnOutcomes then outcome else "failed") ∈ turnOutcomes := by
    intro outcome
    split
    · assumption
    · decide
  exact h _

theorem tokenCount_nonneg (v : Json) : 0 ≤ tokenCount v := by
  unfold tokenCount
  split
  · split <;> omega
  · omega

theorem currentContext_cases (v : Json) :
    currentContext v = [] ∨ ∃ n, 0 < n ∧ currentContext v = [("current_context", .int n)] := by
  unfold currentContext
  split
  · split
    · exact .inr ⟨_, ‹_›, rfl⟩
    · exact .inl rfl
  · exact .inl rfl

theorem usageEntries_cases (kind outcome : String) (data : List (String × Json)) :
    usageEntries kind outcome data = [] ∨ (outcome = "succeeded" ∧ ∃ a b context, 0 ≤ a ∧ 0 ≤ b ∧
      (context = [] ∨ ∃ n, 0 < n ∧ context = [("current_context", .int n)]) ∧
      usageEntries kind outcome data = ("tokens", .obj [("input", .int a), ("output", .int b)]) :: context) := by
  unfold usageEntries
  split
  · exact .inr ⟨‹_ ∧ _›.2, _, _, _, tokenCount_nonneg _, tokenCount_nonneg _, currentContext_cases _, rfl⟩
  · exact .inl rfl

theorem failureEntries_cases (outcome : String) (data : List (String × Json)) :
    failureEntries str outcome data = [] ∨ (outcome = "failed" ∧ ∃ code retryable,
      failureEntries str outcome data = [("error", safeError code retryable)]) := by
  unfold failureEntries
  split
  · exact .inr ⟨‹_›, _, _, rfl⟩
  · exact .inl rfl

theorem runtimeEventFailureCode_mem (code : String) : runtimeEventFailureCode code ∈ safeMessages.map (·.1) := by
  unfold runtimeEventFailureCode
  repeat' split
  all_goals decide

theorem validateError_safe (code : String) (retryable : Bool) : validateError (safeError code retryable) = .ok () := by
  unfold safeError
  have h := runtimeEventFailureCode_mem code
  generalize runtimeEventFailureCode code = safe at h
  simp only [safeMessages, List.map_cons, List.map_nil, List.mem_cons, List.not_mem_nil, or_false] at h
  rcases h with rfl | rfl | rfl | rfl | rfl | rfl <;> rfl

theorem public_outcome {outcome : String} (h : outcome ∈ turnOutcomes) : Public "turn.finished" [("outcome", .str outcome)] := by
  refine ⟨by decide, ?_, nofun, nofun, fun _ key hkey hhas => ?_⟩
  · simp only [turnOutcomes, List.mem_cons, List.not_mem_nil, or_false] at h
    rcases h with rfl | rfl | rfl | rfl <;> rfl
  · simp only [List.mem_cons, List.not_mem_nil, or_false] at hkey
    rcases hkey with rfl | rfl <;> simp [has, Json.member] at hhas

theorem public_failure (code : String) (retryable : Bool) :
    Public "turn.finished" [("outcome", .str "failed"), ("error", safeError code retryable)] := by
  refine ⟨by decide, validateError_safe code retryable, nofun, nofun, fun _ key hkey hhas => ?_⟩
  simp only [List.mem_cons, List.not_mem_nil, or_false] at hkey
  rcases hkey with rfl | rfl <;> simp [has, Json.member] at hhas

theorem public_usage {a b : Int} (ha : 0 ≤ a) (hb : 0 ≤ b) {context : List (String × Json)}
    (hcontext : context = [] ∨ ∃ n, 0 < n ∧ context = [("current_context", .int n)]) :
    Public "turn.finished" (("outcome", .str "succeeded") ::
      ("tokens", .obj [("input", .int a), ("output", .int b)]) :: context) := by
  have htokens : isTokens (.obj [("input", .int a), ("output", .int b)]) = true := by
    simp [isTokens, keysAre, keysWithin, has, field, Json.member, isCount, ha, hb]
  refine ⟨by decide, ?_, fun h => absurd h (by decide), fun h => absurd h (by decide), fun _ key hkey hhas => ?_⟩
  · simp only [validatePayload, String.reduceEq, if_false, validateFinished, seq_ok_iff, demand_ok_iff,
      demandOneOf_ok_iff]
    have hcount : ∀ n : Int, 0 < n → isCount 1 (.int n) = true := fun n hn => decide_eq_true (by omega)
    rcases hcontext with rfl | ⟨n, hn, rfl⟩
    · refine ⟨rfl, ⟨"succeeded", by decide, rfl⟩, decide_eq_true (.inr htokens), rfl, rfl, rfl, rfl⟩
    · refine ⟨rfl, ⟨"succeeded", by decide, rfl⟩, decide_eq_true (.inr htokens), decide_eq_true (.inr (hcount n hn)),
        rfl, rfl, rfl⟩
  · simp only [List.mem_cons, List.not_mem_nil, or_false] at hkey
    rcases hcontext with rfl | ⟨n, hn, rfl⟩ <;> rcases hkey with rfl | rfl <;>
      simp_all [has, Json.member, field, isNull]

theorem public_terminal (kind : String) (data : List (String × Json)) :
    Public "turn.finished" (terminalPayload str kind data) := by
  unfold terminalPayload
  have hmem := turnOutcome_mem str kind data
  generalize turnOutcome str kind data = outcome at hmem
  simp only
  rcases usageEntries_cases kind outcome data with hu | ⟨rfl, a, b, context, ha, hb, hcontext, hu⟩
  · rcases failureEntries_cases str outcome data with hf | ⟨rfl, code, retryable, hf⟩
    · rw [hu, hf]
      exact public_outcome hmem
    · rw [hu, hf]
      exact public_failure code retryable
  · rcases failureEntries_cases str "succeeded" data with hf | ⟨hne, -⟩
    · rw [hu, hf, List.append_nil]
      exact public_usage ha hb hcontext
    · exact absurd hne (by decide)

theorem planned_public {p p' : RuntimeEventProjector} {event : HarnessEvent} {draw : Draw}
    {type : String} {P : List (String × Json)} (h : p.planned str event draw = .ok (some (type, P), p')) : Public type P := by
  unfold RuntimeEventProjector.planned RuntimeEventProjector.tool at h
  simp only at h
  split at h
  · cases h
    exact public_started
  split at h
  · cases h
    exact public_tool _ (by decide)
  split at h
  · obtain ⟨isOutcome, hone, h⟩ := except_bind_ok_iff.1 h
    cases isOutcome with
    | false => cases h
    | true =>
      obtain ⟨s, hs, heq⟩ := oneOf_true hone
      cases h
      refine public_tool _ ?_
      rw [heq]
      simp only [List.mem_cons, List.not_mem_nil, or_false] at hs
      rcases hs with rfl | rfl <;> simp [textOr, toolStates]
  split at h
  · split at h
    · cases h
    · cases h
      exact public_permission _ (not_not.1 ‹_›)
  split at h
  · cases h
    exact public_terminal str _ _
  · cases h

end Public

section View
variable (str : Json → String)

/-- The data fields that the projection names. -/
def allowedFields : List String :=
  ["outcome", "state", "permission_ref", "error_code", "retryable", "input_tokens", "output_tokens", "context_tokens",
    "tool_call_ref"]

/-- Events of one kind about one turn that agree on the fields the projection names. -/
structure SameView (e e' : HarnessEvent) : Prop where
  type : e.type = e'.type
  turnRef : e.turnRef = e'.turnRef
  data : ∀ key ∈ allowedFields, (Json.obj e.data).member key = (Json.obj e'.data).member key

variable {str} {e e' : HarnessEvent} {p q : RuntimeEventProjector} {draw draw' : Draw}

theorem SameView.field_eq (h : SameView e e') {key : String} (hkey : key ∈ allowedFields) :
    field key e.data = field key e'.data := by
  rw [field, field, h.data key hkey]

theorem SameView.turnOutcome_eq (h : SameView e e') (kind : String) :
    turnOutcome str kind e.data = turnOutcome str kind e'.data := by
  unfold turnOutcome
  rw [@SameView.field_eq e e' h "error_code" (by decide), @SameView.field_eq e e' h "outcome" (by decide)]

theorem SameView.usageEntries_eq (h : SameView e e') (kind outcome : String) :
    usageEntries kind outcome e.data = usageEntries kind outcome e'.data := by
  unfold usageEntries
  rw [@SameView.field_eq e e' h "input_tokens" (by decide), @SameView.field_eq e e' h "output_tokens" (by decide),
    @SameView.field_eq e e' h "context_tokens" (by decide)]

theorem SameView.failureEntries_eq (h : SameView e e') (outcome : String) :
    failureEntries str outcome e.data = failureEntries str outcome e'.data := by
  unfold failureEntries
  rw [@SameView.field_eq e e' h "error_code" (by decide), @SameView.field_eq e e' h "retryable" (by decide)]

theorem SameView.terminalPayload_eq (h : SameView e e') (kind : String) :
    terminalPayload str kind e.data = terminalPayload str kind e'.data := by
  simp only [terminalPayload, h.turnOutcome_eq, h.usageEntries_eq, h.failureEntries_eq]

def HarnessEvent.isTool (e : HarnessEvent) : Prop := e.type = "turn.tool_started" ∨ e.type = "turn.tool_completed"

theorem SameView.toolKey_eq (h : SameView e e') : toolKey str e = toolKey str e' := by
  rw [toolKey, toolKey, h.turnRef, h.field_eq (by decide)]

theorem tool_view (h : SameView e e') (hname : p.toolRef (toolKey str e) draw = q.toolRef (toolKey str e) draw')
    (state : String) : (p.tool str e state draw).1 = (q.tool str e' state draw').1 := by
  simp only [RuntimeEventProjector.tool, ← h.toolKey_eq, hname]

/-- Nothing else of the event, and of the projector only the name of the tool call, decides what is made. -/
theorem planned_view (h : SameView e e') (htool : e.isTool → (∃ made p', p.planned str e draw = .ok (some made, p')) →
      p.toolRef (toolKey str e) draw = q.toolRef (toolKey str e) draw') :
    (p.planned str e draw).map (·.1) = (q.planned str e' draw').map (·.1) := by
  unfold RuntimeEventProjector.planned HarnessEvent.isTool at *
  rw [← h.type, ← h.data "outcome" (by decide), ← @SameView.field_eq e e' h "state" (by decide),
    ← @SameView.field_eq e e' h "permission_ref" (by decide), ← h.terminalPayload_eq]
  simp only at htool ⊢
  split
  · rfl
  split
  case isTrue hstarted ht =>
    rw [if_neg hstarted, if_pos ht] at htool
    have heq := tool_view h (htool (.inl ht) ⟨_, _, rfl⟩) "running"
    simp [Except.map, heq]
  split
  case isTrue hstarted hrunning ht =>
    rw [if_neg hstarted, if_neg hrunning, if_pos ht] at htool
    cases hone : oneOf ["succeeded", "failed"] (((Json.obj e.data).member "outcome").getD (.str "succeeded")) with
    | error err => rfl
    | ok isOutcome =>
      cases isOutcome with
      | false => rfl
      | true =>
        rw [hone] at htool
        have heq := tool_view h (htool (.inr ht) ⟨_, _, rfl⟩)
        simp [bind, Except.bind, pure, Except.pure, Except.map, heq]
  split
  · split <;> rfl
  split <;> rfl

/-- A value that is no list and no object. -/
def isScalar : Json → Bool
  | .arr _ => false
  | .obj _ => false
  | _ => true

theorem oneOf_scalar {v : Json} (h : isScalar v = true) (texts : List String) : ∃ b, oneOf texts v = .ok b := by
  cases v <;> simp_all [isScalar, oneOf]

theorem member_scalar {data : List (String × Json)} (hs : ∀ m ∈ data, isScalar m.2 = true) {key : String} {v : Json}
    (h : (Json.obj data).member key = some v) : isScalar v = true := by
  obtain ⟨m, hm, rfl⟩ := Option.map_eq_some_iff.1 h
  exact hs m (List.mem_reverse.1 (List.mem_of_find?_eq_some hm))

/-- Scalar data raise nothing; the projector keeps its references and at most names a tool call. -/
theorem planned_total (hs : ∀ m ∈ e.data, isScalar m.2 = true) : ∃ plan p', p.planned str e draw = .ok (plan, p') ∧
    ((p' = p ∧ (e.isTool → plan = none)) ∨ (e.isTool ∧ p' = p.named (toolKey str e) draw)) := by
  unfold RuntimeEventProjector.planned HarnessEvent.isTool
  simp only
  split
  case isTrue ht =>
    refine ⟨_, _, rfl, .inl ⟨rfl, fun htool => ?_⟩⟩
    rcases htool with h | h <;> exact absurd (ht.symm.trans h) (by decide)
  split
  · exact ⟨_, _, rfl, .inr ⟨.inl ‹_›, rfl⟩⟩
  split
  case isTrue ht =>
    have hv : isScalar (((Json.obj e.data).member "outcome").getD (.str "succeeded")) = true := by
      cases hm : (Json.obj e.data).member "outcome" with
      | none => rfl
      | some v => exact member_scalar hs hm
    obtain ⟨isOutcome, hone⟩ := oneOf_scalar hv ["succeeded", "failed"]
    rw [hone]
    cases isOutcome with
    | false => exact ⟨_, _, rfl, .inl ⟨rfl, fun _ => rfl⟩⟩
    | true => exact ⟨_, _, rfl, .inr ⟨.inr ht, rfl⟩⟩
  have hno : ¬ (e.type = "turn.tool_started" ∨ e.type = "turn.tool_completed") := not_or.2 ⟨‹_›, ‹_›⟩
  split
  · split <;> exact ⟨_, _, rfl, .inl ⟨rfl, fun h => absurd h hno⟩⟩
  split <;> exact ⟨_, _, rfl, .inl ⟨rfl, fun h => absurd h hno⟩⟩

/-- The references that a public event needs. -/
def RuntimeEventProjector.Configured (p : RuntimeEventProjector) : Prop := p.agentId ≠ "" ∧ p.sessionRef ≠ ""

theorem evt_ne_empty (s : String) : "evt_" ++ s ≠ "" := by
  intro h
  have hl := congrArg String.length h
  simp at hl

theorem named_configured (hp : p.Configured) (key : String × String) : (p.named key draw).Configured := by
  unfold RuntimeEventProjector.named
  split <;> exact hp

/-- Once named, a tool call keeps its name. -/
theorem toolRef_named (key : String × String) : (p.named key draw).toolRef key draw' = p.toolRef key draw := by
  unfold RuntimeEventProjector.named RuntimeEventProjector.toolRef
  split
  case isTrue h =>
    obtain ⟨name, hname⟩ := Option.isSome_iff_exists.1 h
    rw [hname]
    rfl
  case isFalse h =>
    rw [Option.not_isSome_iff_eq_none] at h
    rw [List.lookup_append, h]
    simp

theorem validated_ok {fields : EventFields} (h : validateRuntimeEvent fields = .ok ()) :
    RuntimeEventProjector.validated fields = .ok ⟨fields, h⟩ := by
  unfold RuntimeEventProjector.validated
  split
  · rfl
  · rename_i err herr
    cases h.symm.trans herr

theorem Public.validate {type : String} {P : List (String × Json)} (h : Public type P) {fields : EventFields}
    (hversion : fields.version = .int 1) (htype : fields.type = type) (hpayload : fields.payload = P)
    (hrefs : fields.eventId ≠ "" ∧ fields.agentId ≠ "" ∧ fields.sessionRef ≠ "" ∧ fields.turnRef ≠ "") :
    validateRuntimeEvent fields = .ok () := by
  simp only [validateRuntimeEvent, seq_ok_iff, demand_ok_iff, decide_eq_true_eq, hversion, htype, hpayload]
  exact ⟨rfl, h.known, hrefs, h.valid⟩

/-- The payloads that go out for what is made of an event. -/
def payloads (e : HarnessEvent) : Option (String × List (String × Json)) → List (List (String × Json))
  | none => []
  | some (_, P) => if e.type = "turn.started" then [P, [("text", .str "Working")]] else [P]

/-- The events go out as planned, each with a public payload. -/
theorem projectAll_spec {turnRef : String} (hturn : e.turnRef = some turnRef) (hne : turnRef ≠ "")
    {plan : Option (String × List (String × Json))} (hplan : p.planned str e draw = .ok (plan, q)) (hq : q.Configured) :
    ∃ es q', p.projectAll str e draw = (.ok es, q') ∧ es.map (·.payload) = payloads e plan ∧
      q'.Configured ∧ (e.isTool → q' = q) := by
  unfold RuntimeEventProjector.projectAll RuntimeEventProjector.project
  rw [hplan]
  cases plan with
  | none => exact ⟨[], q, rfl, rfl, hq, fun _ => rfl⟩
  | some made =>
    obtain ⟨type, P⟩ := made
    have hpublic := planned_public str hplan
    have hvalid : validateRuntimeEvent ⟨.int 1, "evt_" ++ draw.event, q.agentId, q.sessionRef, turnRef, type,
        e.occurredAt, P⟩ = .ok () :=
      hpublic.validate rfl rfl rfl ⟨evt_ne_empty _, hq.1, hq.2, hne⟩
    have hmake : q.make e type P draw = .ok (some ⟨_, hvalid⟩) := by
      simp only [RuntimeEventProjector.make, hturn, validated_ok hvalid]
      rfl
    simp only [hmake, payloads]
    split
    case isTrue hstarted =>
      have hactivity : validateRuntimeEvent (RuntimeEventProjector.activity ⟨_, hvalid⟩ draw) = .ok () :=
        public_activity.validate rfl rfl rfl ⟨evt_ne_empty _, hq.1, hq.2, hne⟩
      rw [validated_ok hactivity]
      exact ⟨_, q, rfl, rfl, hq, fun _ => rfl⟩
    case isFalse hstarted =>
      split
      case isTrue hfinished =>
        refine ⟨_, _, rfl, rfl, hq, fun htool => ?_⟩
        rcases htool with ht | ht <;> rw [ht] at hfinished <;> exact absurd hfinished (by decide)
      case isFalse => exact ⟨_, _, rfl, rfl, hq, fun _ => rfl⟩

theorem fields_of_validated {fields : EventFields} {x : RuntimeEvent}
    (h : RuntimeEventProjector.validated fields = .ok x) : x.toEventFields = fields := by
  unfold RuntimeEventProjector.validated at h
  split at h
  · cases h
    rfl
  · cases h

/-- Whatever goes out has a public payload and the time of its event. -/
theorem projectAll_public {es : List RuntimeEvent} (h : p.projectAll str e draw = (.ok es, q)) {x : RuntimeEvent}
    (hx : x ∈ es) : Public x.type x.payload ∧ x.occurredAt = e.occurredAt := by
  unfold RuntimeEventProjector.projectAll RuntimeEventProjector.project at h
  cases hplan : p.planned str e draw with
  | error err => simp [hplan] at h
  | ok made =>
    obtain ⟨plan, p₁⟩ := made
    cases plan with
    | none =>
      simp only [hplan, Prod.mk.injEq, Except.ok.injEq] at h
      rw [← h.1] at hx
      cases hx
    | some made =>
      obtain ⟨type, P⟩ := made
      have hpublic := planned_public str hplan
      cases hmade : p₁.make e type P draw with
      | error err => simp [hplan, hmade] at h
      | ok projected =>
        cases projected with
        | none =>
          simp only [hplan, hmade, Prod.mk.injEq, Except.ok.injEq] at h
          rw [← h.1] at hx
          cases hx
        | some y =>
          have hy : Public y.type y.payload ∧ y.occurredAt = e.occurredAt := by
            cases hturn : e.turnRef with
            | none => simp [RuntimeEventProjector.make, hturn] at hmade
            | some turnRef =>
              simp only [RuntimeEventProjector.make, hturn] at hmade
              obtain ⟨y', hy', heq⟩ := except_bind_ok_iff.1 hmade
              cases heq
              rw [fields_of_validated hy']
              exact ⟨hpublic, rfl⟩
          simp only [hplan, hmade] at h
          split at h
          case isTrue =>
            obtain ⟨hes, -⟩ := Prod.mk.inj h
            cases hact : RuntimeEventProjector.validated (RuntimeEventProjector.activity y draw) with
            | error err => simp [hact, Except.map] at hes
            | ok z =>
              simp only [hact, Except.map, Except.ok.injEq] at hes
              have hz : Public z.type z.payload ∧ z.occurredAt = e.occurredAt := by
                rw [fields_of_validated hact]
                exact ⟨public_activity, hy.2⟩
              rw [← hes, List.mem_cons, List.mem_singleton] at hx
              rcases hx with rfl | rfl
              · exact hy
              · exact hz
          case isFalse =>
            have hes : [y] = es := by
              split at h <;> exact Except.ok.inj (Prod.mk.inj h).1
            rw [← hes, List.mem_singleton] at hx
            exact hx ▸ hy

theorem planned_configured (hp : p.Configured) {plan : Option (String × List (String × Json))}
    (h : (q = p ∧ (e.isTool → plan = none)) ∨ (e.isTool ∧ q = p.named (toolKey str e) draw)) : q.Configured := by
  rcases h with ⟨rfl, -⟩ | ⟨-, rfl⟩
  · exact hp
  · exact named_configured hp _

/-- An event with the same view is made into the same payloads. -/
theorem projectAll_view (hq : q.Configured) (hv : SameView e e') {turnRef : String} (hturn : e.turnRef = some turnRef)
    (hne : turnRef ≠ "") (hs : ∀ m ∈ e'.data, isScalar m.2 = true) {plan : Option (String × List (String × Json))}
    {p₁ : RuntimeEventProjector} (hplan : p.planned str e draw = .ok (plan, p₁))
    (htool : e.isTool → plan ≠ none → p.toolRef (toolKey str e) draw = q.toolRef (toolKey str e) draw') :
    ∃ es q', q.projectAll str e' draw' = (.ok es, q') ∧ es.map (·.payload) = payloads e plan := by
  obtain ⟨plan', q₁, hplan', hq₁⟩ := @planned_total str e' q draw' hs
  have hsame := @planned_view str e e' p q draw draw' hv fun ht ⟨made, _, hmade⟩ => htool ht fun hnone => by
    rw [hplan, hnone] at hmade
    cases hmade
  rw [hplan, hplan'] at hsame
  obtain rfl : plan = plan' := Except.ok.inj hsame
  obtain ⟨es, q', hes, hpay, -⟩ := projectAll_spec (hv.turnRef ▸ hturn) hne hplan' (planned_configured hq hq₁)
  refine ⟨es, q', hes, hpay.trans ?_⟩
  unfold payloads
  rw [hv.type]

/-- The rows of an outbox come from projected events that carry a time. -/
def Projected (str : Json → String) (r : OutboxRow) : Prop :=
  ∃ (p q : RuntimeEventProjector) (e : HarnessEvent) (draw : Draw) (es : List RuntimeEvent) (x : RuntimeEvent),
    p.projectAll str e draw = (.ok es, q) ∧ e.occurredAt ≠ "" ∧ x ∈ es ∧ r.eventType = x.type ∧ r.eventJson = x.canonicalText

/-- Events of a configured projector about a named turn go out valid; their payloads show nothing
but the named fields; and reopening the outbox changes no row of theirs. -/
theorem projection_safe (str : Json → String) :
    (∀ (p : RuntimeEventProjector) (e e' : HarnessEvent) (draw draw' : Draw), p.Configured →
      (∃ t, e.turnRef = some t ∧ t ≠ "") → (∀ m ∈ e.data, isScalar m.2 = true) → (∀ m ∈ e'.data, isScalar m.2 = true) →
      ∃ es q, p.projectAll str e draw = (.ok es, q) ∧ (∀ x ∈ es, validateRuntimeEvent x.toEventFields = .ok ()) ∧
        (SameView e e' → (∃ es' q', p.projectAll str e' draw = (.ok es', q') ∧ es'.map (·.payload) = es.map (·.payload)) ∧
          ∃ es' q', q.projectAll str e' draw' = (.ok es', q') ∧ es'.map (·.payload) = es.map (·.payload))) ∧
    ∀ o : RuntimeEventOutbox, (∀ r ∈ o.rows, Projected str r) → (o.reopen str).rows = o.rows := by
  constructor
  · intro p e e' draw draw' hp ⟨t, hturn, hne⟩ hs hs'
    obtain ⟨plan, p₁, hplan, hp₁⟩ := @planned_total str e p draw hs
    obtain ⟨es, q, hes, hpay, hq, htool⟩ := projectAll_spec hturn hne hplan (planned_configured hp hp₁)
    refine ⟨es, q, hes, fun x _ => x.valid, fun hv => ?_⟩
    rw [hpay]
    refine ⟨projectAll_view hp hv hturn hne hs' hplan fun _ _ => rfl, ?_⟩
    refine projectAll_view hq hv hturn hne hs' hplan fun ht hsome => ?_
    -- the projector that made the first event has named its tool call
    rcases hp₁ with ⟨-, hnone⟩ | ⟨-, rfl⟩
    · exact absurd (hnone ht) hsome
    · rw [htool ht, toolRef_named]
  · intro o ho
    have hrow : ∀ r ∈ o.rows, RuntimeEventOutbox.migrateRow str r = some r := by
      intro r hr
      obtain ⟨p, q, e, draw, es, x, hes, hocc, hx, htype, hjson⟩ := ho r hr
      obtain ⟨hpublic, htime⟩ := projectAll_public hes hx
      exact plain_migrates (o.sized r hr) ⟨x, htime ▸ hocc, hpublic.metadata, htype, hjson⟩
    calc (o.reopen str).rows = o.rows.filterMap (RuntimeEventOutbox.migrateRow str) := rfl
      _ = o.rows.filterMap some := List.filterMap_congr hrow
      _ = o.rows := List.filterMap_some

/-- The start of a turn without a time. -/
def untimedStart : HarnessEvent :=
  { type := "turn.started", driver := "codex", sessionRef := "s", turnRef := some "t", occurredAt := "" }

/-- A projector without a session raises, and a reopened outbox drops the row of an event without a time. -/
theorem untimed_projection_dropped :
    (RuntimeEventProjector.projectAll (fun _ => "") ⟨"a", "", []⟩ untimedStart ⟨"1", "2", "3"⟩).1.toOption.isNone ∧
      (∃ activity q, RuntimeEventProjector.projectAll (fun _ => "") ⟨"a", "s", []⟩ untimedStart ⟨"1", "2", "3"⟩ =
        (.ok [untimed, activity], q)) ∧
      ((RuntimeEventOutbox.empty.append untimed.eventId untimed.type untimed.canonicalText (by decide)).reopen
        (fun _ => "")).rows = [] :=
  ⟨rfl, ⟨_, _, rfl⟩, by decide +kernel⟩

theorem projection_safe_start : ∃ es q,
    RuntimeEventProjector.projectAll (fun _ => "") ⟨"a", "s", []⟩ untimedStart ⟨"1", "2", "3"⟩ = (.ok es, q) ∧
      ∀ x ∈ es, validateRuntimeEvent x.toEventFields = .ok () := by
  obtain ⟨es, q, hes, hvalid, -⟩ := (projection_safe (fun _ => "")).1 ⟨"a", "s", []⟩ untimedStart untimedStart
    ⟨"1", "2", "3"⟩ ⟨"1", "2", "3"⟩ ⟨by decide, by decide⟩ ⟨"t", rfl, by decide⟩ nofun nofun
  exact ⟨es, q, hes, hvalid⟩

end View
end PuffoAgent.Outbox
