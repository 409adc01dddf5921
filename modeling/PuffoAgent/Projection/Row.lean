import PuffoAgent.Projection.Message

/-! The projected row of a message or of a locally recorded event. -/
namespace PuffoAgent.Projection
open Text Store

structure Mention where
  identity : String
  identityType : String
  self : Bool
  deriving DecidableEq, Repr

def Mention.toJson (mention : Mention) : Json :=
  .obj [("identity", .str mention.identity), ("identity_type", .str mention.identityType),
    ("self", .bool mention.self)]

/-- What a message row says, before it is written out. -/
structure MessageFacts where
  seq : Option Int
  sentAt : String
  messageId : String
  senderIdentity : String
  senderType : String
  self : Bool
  encrypted : Bool
  displayName : String
  ownerSlug : String
  humanVisible : Option Bool
  attachmentPaths : List String
  mentions : List Mention
  replyCount : Option Nat
  uncoveredRedelivery : Bool
  threadRootUnverified : Bool
  text : String
  deriving DecidableEq, Repr

inductive ProjectedRow where
  | event (text : String)
  | message (facts : MessageFacts)

namespace MessageFacts

def seqText (facts : MessageFacts) : String := (facts.seq.map toString).getD "null"

/-- The fields of a message row, in order. -/
def fields (facts : MessageFacts) : List String :=
  [field "context_version" (toString contextVersion), field "seq" facts.seqText,
    field "sent_at" (quoted facts.sentAt), field "message_id" (quoted facts.messageId),
    field "sender_identity" (quoted facts.senderIdentity), field "sender_type" (quoted facts.senderType),
    field "self" (bool facts.self), field "encrypted" (bool facts.encrypted)] ++
  (if facts.displayName ≠ "" then [field "sender_display_name" (quoted facts.displayName)] else []) ++
  (if facts.ownerSlug ≠ "" then [field "sender_owner_identity" (quoted ("@" ++ facts.ownerSlug))] else []) ++
  (match facts.humanVisible with | some visible => [field "human_visible" (bool visible)] | none => []) ++
  (if facts.attachmentPaths ≠ [] then
    [field "attachment_paths" (json (.arr (facts.attachmentPaths.map .str)))] else []) ++
  (if facts.mentions ≠ [] then [field "mentions" (json (.arr (facts.mentions.map Mention.toJson)))] else []) ++
  (match facts.replyCount with | some count => [field "reply_count" (toString count)] | none => []) ++
  (if facts.uncoveredRedelivery then [field "uncovered_redelivery" "true"] else []) ++
  (if facts.threadRootUnverified then [field "thread_root_unverified" "true"] else [])

def render (facts : MessageFacts) : String :=
  "[message " ++ " ".intercalate facts.fields ++ "]\n" ++ contentField facts.text

end MessageFacts

def ProjectedRow.render : ProjectedRow → String
  | .event text => text
  | .message facts => facts.render

section Project
variable (host : Host) (currentAgentAliases : List String)

/-- `value in {"human", "agent", "system"}`. A list or a dict cannot be looked up in a set. -/
def explicitType (value : Json) : Except ProjectionError (Option String) :=
  match value with
  | .arr _ | .obj _ => throw .unhashable
  | .str s => return if s = "human" ∨ s = "agent" ∨ s = "system" then some s else none
  | _ => return none

/-- `content.get("sender_type") or ""`. -/
def statedType (m : StoredMessage) : Json :=
  match m.get "sender_type" with
  | none => .str ""
  | some value => if value.truthy then value else .str ""

/-- The sender type when the content states none. -/
def inferredType (m : StoredMessage) : String :=
  if normalizedSlug host m.row.senderSlug = "system" then "system"
  else if m.flag "sender_is_agent" ∨ m.flag "sender_is_bot" ∨ m.flag "sender_owner_slug" then "agent"
  else if m.row.envelopeKind = "system" ∨ m.row.envelopeKind = "runtime" then "system"
  else if m.flag "is_from_operator" ∨ m.flag "sender_is_human" then "human"
  else if isAlias host currentAgentAliases m.row.senderSlug then "agent"
  else "unknown"

/-- `sender_type`. -/
def senderType (m : StoredMessage) : Except ProjectionError String := do
  let explicit ← explicitType (statedType m)
  return explicit.getD (inferredType host currentAgentAliases m)

/-- The author's slug of `_author`. -/
def author (m : StoredMessage) : String :=
  lstrip '@' (if m.row.senderSlug ≠ "" then m.row.senderSlug else "unknown")

/-- The pieces of `parts` from the first `.puffo/inbox` that no `..` follows. -/
def inboxParts : List String → Option (List String)
  | [] => none
  | part :: parts =>
    if part = ".puffo" ∧ parts.head? = some "inbox" ∧ ".." ∉ part :: parts then some (part :: parts)
    else inboxParts parts

/-- `model_attachment_path`. -/
def modelAttachmentPath (raw : String) : String :=
  let slashed := escapeWith (fun c => if c = '\\' then "/" else c.toString) raw
  match inboxParts (split slashed '/') with
  | some relative => "/".intercalate relative
  | none => raw

/-- `_attachment_paths`. -/
def attachmentPaths (m : StoredMessage) : List String :=
  match (m.get "attachment_paths").or (m.get "attachments") with
  | some (.arr paths) => paths.filterMap fun path => match path with
    | .null | .str "" => none
    | path => some (modelAttachmentPath (host.str path))
  | _ => []

def identityType (marker : Option Json) : String :=
  match marker with
  | some (.bool true) => "agent"
  | some (.bool false) => "human"
  | _ => "unknown"

/-- One entry of `_mentions`. -/
def mention? (item : Json) : Option Mention :=
  match item with
  | .obj _ =>
    let slug := lstrip '@' (if (item.member "username").any Json.truthy
      then host.text (item.member "username") else host.text (item.member "slug"))
    if slug = "" then none
    else some ⟨"@" ++ slug, identityType ((item.member "is_agent").or (item.member "is_bot")),
      (item.member "is_self").any Json.truthy⟩
  | _ => none

/-- `_mentions`. -/
def mentions (m : StoredMessage) : List Mention :=
  match m.get "mentions" with
  | some (.arr items) => items.filterMap (mention? host)
  | _ => []

section Events

def event (fields : List String) (text : String) : String :=
  "[event " ++ " ".intercalate fields ++ "]\n" ++ contentField text

/-- `event[key]` of a scheduled task. -/
def required (m : StoredMessage) (key : String) : Except ProjectionError String :=
  match m.get key with
  | some value => return host.str value
  | none => throw (.keyError key)

/-- The text `_content_field` shows of a value: `None` is shown as nothing. -/
def shownText (value : Json) : String :=
  match value with
  | .null => ""
  | value => host.str value

def formatScheduledTask (m : StoredMessage) : Except ProjectionError String := do
  let runId ← required host m "run_id"
  let scheduleId ← required host m "schedule_id"
  let scheduledAt ← required host m "scheduled_at"
  let name ← required host m "name"
  let fields := [field "context_version" (toString contextVersion),
    field "event_type" "\"scheduled_task\"", field "run_id" (quoted runId),
    field "schedule_id" (quoted scheduleId), field "scheduled_at" (quoted scheduledAt),
    field "name" (quoted name)]
  match m.get "text" with
  | none => throw (.keyError "text")
  | some text => return event fields (shownText host text)

/-- `_reminder_event(message) is not None`. -/
def isReminderEvent (m : StoredMessage) : Bool :=
  match m.get "event_type" with
  | some (.str type) => type = "reminder"
  | _ => false

/-- `format_reminder_event`. -/
def formatReminderEvent (m : StoredMessage) : String :=
  event [field "context_version" (toString contextVersion), field "event_type" "\"reminder\"",
      field "event_id" (quoted m.row.envelopeId), field "reminder_id" (quoted (getText host m "reminder_id" "")),
      field "occurrence_id" (quoted (getText host m "occurrence_id" "")),
      field "target_ref" (quoted (getText host m "target" "")),
      field "intended_at" (quoted (getText host m "intended_at" "")),
      field "actual_fire_at" (quoted (getText host m "actual_fire_at" ""))]
    (shownText host ((m.get "content").getD (.str "")))

/-- One of the fields a membership event has only when its content names it. -/
def membershipField (m : StoredMessage) (label key start : String) : List String :=
  let value := host.text (m.get key)
  if value ≠ "" then [field label (quoted (start ++ lstrip '@' value))] else []

/-- `format_membership_event`. -/
def formatMembershipEvent (m : StoredMessage) : String :=
  event ([field "context_version" (toString contextVersion),
      field "event_type" (quoted (getText host m "event_type" "membership")),
      field "event_id" (quoted m.row.envelopeId), field "occurred_at" (quoted (host.isoTime m.row.sentAt)),
      field "subject_ref" (quoted (getText host m "subject_ref" "")),
      field "actor_identity" (quoted ("@" ++ lstrip '@' (getText host m "actor_slug" "")))] ++
      membershipField host m "actor_display_name" "actor_display_name" "" ++
      membershipField host m "inviter_identity" "inviter_slug" "@" ++
      membershipField host m "initiator_identity" "initiator_slug" "@")
    (messageText host m)

end Events

def humanVisible (m : StoredMessage) : Option Bool :=
  match m.get "is_visible_to_human" with
  | some (.bool visible) => some visible
  | _ => none

/-- The facts of a message row that is no event. -/
def messageFacts (m : StoredMessage) (replyCount : Option Nat) :
    Except ProjectionError MessageFacts := do
  let type ← senderType host currentAgentAliases m
  return {
    seq := m.row.serverSeq
    sentAt := host.isoTime m.row.sentAt
    messageId := m.row.envelopeId
    senderIdentity := "@" ++ author m
    senderType := type
    self := isAlias host currentAgentAliases (author m)
    encrypted := m.row.isEncrypted
    displayName := host.text (m.get "sender_display_name")
    ownerSlug := lstrip '@' (host.text (m.get "sender_owner_slug"))
    humanVisible := humanVisible m
    attachmentPaths := attachmentPaths host m
    mentions := mentions host m
    replyCount := replyCount
    uncoveredRedelivery := m.row.renotified ∧
      (m.row.processingState = some .pending ∨ m.row.processingState = some .inTurn)
    threadRootUnverified := m.row.threadRootUnverified
    text := messageText host m }

/-- The row `format_message_row` writes out. -/
def projectRow (m : StoredMessage) (replyCount : Option Nat) : Except ProjectionError ProjectedRow :=
  if eventType host m = "scheduled_task" ∧ m.row.receiptReason = some "scheduled task" ∧
      m.row.receiptDisposition = some .localRuntime then
    ProjectedRow.event <$> formatScheduledTask host m
  else if isReminderEvent m then return .event (formatReminderEvent host m)
  else if isMembershipType (eventType host m) then return .event (formatMembershipEvent host m)
  else ProjectedRow.message <$> messageFacts host currentAgentAliases m replyCount

/-- `format_message_row`. -/
def formatMessageRow (m : StoredMessage) (replyCount : Option Nat) : Except ProjectionError String :=
  ProjectedRow.render <$> projectRow host currentAgentAliases m replyCount

/-- The lines of `format_message_group`, after the header of the row before. -/
def groupLines (replyCounts : String → Option Nat) (threadRootId : String) :
    Option String → List StoredMessage → Except ProjectionError (List String)
  | _, [] => return []
  | previous, m :: ms => do
    let header := targetLabel host currentAgentAliases m threadRootId
    let row ← formatMessageRow host currentAgentAliases m (replyCounts m.row.envelopeId)
    let rest ← groupLines replyCounts threadRootId (some header) ms
    return (if some header ≠ previous then ["## " ++ header] else []) ++ row :: rest

/-- `format_message_group`, in the order of the rows given. -/
def formatMessageGroup (messages : List StoredMessage) (replyCounts : String → Option Nat)
    (threadRootId : String) : Except ProjectionError String :=
  ("\n".intercalate ·) <$> groupLines host currentAgentAliases replyCounts threadRootId none messages

/-- `format_stored_message`. -/
def formatStoredMessage (m : StoredMessage) : Except ProjectionError String :=
  formatMessageGroup host currentAgentAliases [m] (fun _ => none) ""

end Project

section Facts
variable {host : Host} {aliases : List String} {m : StoredMessage}

/-- Content that states no event type is shown as a message. -/
theorem projectRow_message (h : m.get "event_type" = none) (replyCount : Option Nat) :
    projectRow host aliases m replyCount = ProjectedRow.message <$> messageFacts host aliases m replyCount := by
  have htype : eventType host m = "" := by rw [eventType, h]; rfl
  have hreminder : isReminderEvent m = false := by rw [isReminderEvent, h]
  have hmembership : isMembershipType "" = false := by decide
  have hscheduled : ¬ (("" : String) = "scheduled_task" ∧ m.row.receiptReason = some "scheduled task" ∧
      m.row.receiptDisposition = some .localRuntime) := by simp
  rw [projectRow, htype, if_neg hscheduled, hreminder, hmembership]
  rfl

/-- A sender type that is stated as a text counts when it is one of the three. -/
theorem senderType_stated {type : String} (h : statedType m = .str type) :
    senderType host aliases m = .ok (if type = "human" ∨ type = "agent" ∨ type = "system" then type
      else inferredType host aliases m) := by
  rw [senderType, h]
  change (Except.ok _ : Except ProjectionError String) = _
  split <;> rfl

theorem projectRow_facts {replyCount : Option Nat} {facts : MessageFacts}
    (h : projectRow host aliases m replyCount = .ok (.message facts)) :
    messageFacts host aliases m replyCount = .ok facts := by
  rw [projectRow] at h
  split_ifs at h with hs hr hm
  · cases hf : formatScheduledTask host m with
    | error e => rw [hf] at h; cases h
    | ok text => rw [hf] at h; cases h
  · cases h
  · cases h
  · cases hf : messageFacts host aliases m replyCount with
    | error e => rw [hf] at h; cases h
    | ok facts' => rw [hf] at h; cases h; rfl

end Facts

end PuffoAgent.Projection
