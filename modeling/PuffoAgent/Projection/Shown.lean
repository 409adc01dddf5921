import PuffoAgent.Projection.Fields

/-! What a message shows: the fields of its target, the fields of its row and its content. The
projection writes out nothing else. -/
namespace PuffoAgent.Projection
open Text Store

section Joining
variable {f : Field} {fs gs : List Field}

/-- Fields after others on a line. -/
def led (fs : List Field) : String := String.join (fs.map fun f => " " ++ f.text)

@[simp] theorem led_nil : led [] = "" := rfl

theorem led_cons : led (f :: fs) = " " ++ f.text ++ led fs := by simp [led]

theorem led_append : led (fs ++ gs) = led fs ++ led gs := by simp [led]

theorem fieldsText_cons : fieldsText (f :: fs) = f.text ++ led fs := by
  induction fs generalizing f with
  | nil => simp [fieldsText]
  | cons g gs ih =>
    have hrest := ih (f := g)
    simp only [fieldsText, List.map_cons] at hrest ⊢
    rw [String.intercalate_cons_cons, hrest, led_cons, String.append_assoc, String.append_assoc]

end Joining

/-- The version that every line states. -/
def versionField : Field := ⟨"context_version", .number (some 1), by decide⟩

section Rows

/-- The row of a message. -/
@[ext] structure ShownRow where
  event : Bool
  fields : List Field
  content : String

/-- The line of the fields. -/
def ShownRow.line (r : ShownRow) : String :=
  (if r.event then "[event " else "[message ") ++ fieldsText r.fields ++ "]"

def ShownRow.render (r : ShownRow) : String := r.line ++ "\n" ++ contentField r.content

/-- The fields of a message row. -/
def MessageFacts.shown (facts : MessageFacts) : ShownRow where
  event := false
  fields :=
    [versionField, ⟨"seq", .number facts.seq, by decide⟩, ⟨"sent_at", .quoted facts.sentAt, by decide⟩,
      ⟨"message_id", .quoted facts.messageId, by decide⟩, ⟨"sender_identity", .quoted facts.senderIdentity, by decide⟩,
      ⟨"sender_type", .quoted facts.senderType, by decide⟩, ⟨"self", .flag facts.self, by decide⟩,
      ⟨"encrypted", .flag facts.encrypted, by decide⟩] ++
    (if facts.displayName ≠ "" then [⟨"sender_display_name", .quoted facts.displayName, by decide⟩] else []) ++
    (if facts.ownerSlug ≠ "" then [⟨"sender_owner_identity", .quoted ("@" ++ facts.ownerSlug), by decide⟩] else []) ++
    (match facts.humanVisible with | some visible => [⟨"human_visible", .flag visible, by decide⟩] | none => []) ++
    (if facts.attachmentPaths ≠ [] then
      [⟨"attachment_paths", .items (facts.attachmentPaths.map .str), by decide⟩] else []) ++
    (if facts.mentions ≠ [] then [⟨"mentions", .items (facts.mentions.map Mention.toJson), by decide⟩] else []) ++
    (match facts.replyCount with | some count => [⟨"reply_count", .number (some count), by decide⟩] | none => []) ++
    (if facts.uncoveredRedelivery then [⟨"uncovered_redelivery", .flag true, by decide⟩] else []) ++
    (if facts.threadRootUnverified then [⟨"thread_root_unverified", .flag true, by decide⟩] else [])
  content := facts.text

theorem json_int (n : Int) : json (.int n) = toString n := by
  rw [json_eq]
  rfl

theorem text_seq (facts : MessageFacts) : (Value.number facts.seq).text = facts.seqText := by
  rw [Value.text, MessageFacts.seqText]
  cases facts.seq with
  | none => exact json_eq .null
  | some n => exact json_int n

theorem text_flag (b : Bool) : (Value.flag b).text = bool b := by
  rw [Value.text, json_eq]
  rfl

theorem versionField_text : versionField.text = field "context_version" (toString contextVersion) :=
  congrArg (field "context_version") (json_int 1)

theorem text_quoted (t : String) : (Value.quoted t).text = quoted t := rfl

theorem text_items (values : List Json) : (Value.items values).text = json (.arr values) := rfl

theorem text_count (n : Nat) : (Value.number (some (n : Int))).text = toString n := json_int n

theorem MessageFacts.fields_shown (facts : MessageFacts) : facts.shown.fields.map Field.text = facts.fields := by
  have hversion : field versionField.name versionField.value.text = field "context_version" (toString contextVersion) :=
    versionField_text
  have htrue : bool true = "true" := rfl
  rw [shown, MessageFacts.fields]
  simp only [List.map_append, List.map_cons, List.map_nil, apply_ite (List.map Field.text), Field.text, hversion,
    text_seq, text_quoted, text_items, text_flag, htrue]
  cases facts.humanVisible <;> cases facts.replyCount <;>
    simp only [List.map_cons, List.map_nil, Field.text, text_flag, text_count]

theorem MessageFacts.render_shown (facts : MessageFacts) : facts.shown.render = facts.render := by
  rw [ShownRow.render, ShownRow.line, fieldsText, fields_shown, MessageFacts.render]
  simp [shown, String.append_assoc]

/-- An event's row. -/
def shownEvent (fields : List Field) (text : String) : ShownRow := ⟨true, versionField :: fields, text⟩

section Project
variable (host : Host)

/-- The row of a scheduled task. -/
def shownScheduledTask (m : StoredMessage) : Except ProjectionError ShownRow := do
  let runId ← required host m "run_id"
  let scheduleId ← required host m "schedule_id"
  let scheduledAt ← required host m "scheduled_at"
  let name ← required host m "name"
  match m.get "text" with
  | none => throw (.keyError "text")
  | some text => return shownEvent [⟨"event_type", .quoted "scheduled_task", by decide⟩, ⟨"run_id", .quoted runId, by decide⟩,
      ⟨"schedule_id", .quoted scheduleId, by decide⟩, ⟨"scheduled_at", .quoted scheduledAt, by decide⟩,
      ⟨"name", .quoted name, by decide⟩] (shownText host text)

/-- The row of a reminder event. -/
def shownReminder (m : StoredMessage) : ShownRow :=
  shownEvent [⟨"event_type", .quoted "reminder", by decide⟩, ⟨"event_id", .quoted m.row.envelopeId, by decide⟩,
    ⟨"reminder_id", .quoted (getText host m "reminder_id" ""), by decide⟩,
    ⟨"occurrence_id", .quoted (getText host m "occurrence_id" ""), by decide⟩,
    ⟨"target_ref", .quoted (getText host m "target" ""), by decide⟩,
    ⟨"intended_at", .quoted (getText host m "intended_at" ""), by decide⟩,
    ⟨"actual_fire_at", .quoted (getText host m "actual_fire_at" ""), by decide⟩]
    (shownText host ((m.get "content").getD (.str "")))

/-- A field that is shown of a text that is not empty. -/
def optionalField (f : Field) (value : String) : List Field := if value ≠ "" then [f] else []

/-- The row of a membership event. -/
def shownMembership (m : StoredMessage) : ShownRow :=
  let name := host.text (m.get "actor_display_name")
  let inviter := host.text (m.get "inviter_slug")
  let initiator := host.text (m.get "initiator_slug")
  shownEvent ([⟨"event_type", .quoted (getText host m "event_type" "membership"), by decide⟩,
      ⟨"event_id", .quoted m.row.envelopeId, by decide⟩, ⟨"occurred_at", .quoted (host.isoTime m.row.sentAt), by decide⟩,
      ⟨"subject_ref", .quoted (getText host m "subject_ref" ""), by decide⟩,
      ⟨"actor_identity", .quoted ("@" ++ lstrip '@' (getText host m "actor_slug" "")), by decide⟩] ++
      optionalField ⟨"actor_display_name", .quoted ("" ++ lstrip '@' name), by decide⟩ name ++
      optionalField ⟨"inviter_identity", .quoted ("@" ++ lstrip '@' inviter), by decide⟩ inviter ++
      optionalField ⟨"initiator_identity", .quoted ("@" ++ lstrip '@' initiator), by decide⟩ initiator)
    (messageText host m)

variable {m : StoredMessage}

/-- An event is written as its fields say. -/
theorem shownEvent_render (fields : List Field) (text : String) : (shownEvent fields text).render =
    event (field "context_version" (toString contextVersion) :: fields.map Field.text) text := by
  rw [ShownRow.render, ShownRow.line, shownEvent, fieldsText, List.map_cons, versionField_text, event]
  simp [String.append_assoc]

theorem quoted_type (type : String) (h : type.toList.all isNameChar) : quoted type = "\"" ++ type ++ "\"" := by
  rw [quoted, escapeWith_eq_self]
  intro c hc
  have hname := List.all_eq_true.1 h c hc
  have hno (d : Char) (hd : isNameChar d = false) : c ≠ d := by
    rintro rfl
    rw [hname] at hd
    cases hd
  rw [quotedChar, if_neg (hno '\\' rfl), if_neg (hno '"' rfl), if_neg (hno '\n' rfl), if_neg (hno '&' rfl), if_neg (hno '<' rfl),
    if_neg (hno '>' rfl)]

theorem shownScheduledTask_render : formatScheduledTask host m = ShownRow.render <$> shownScheduledTask host m := by
  have htype : quoted "scheduled_task" = "\"scheduled_task\"" := quoted_type _ (by decide)
  rw [formatScheduledTask, shownScheduledTask]
  cases required host m "run_id" with
  | error e => rfl
  | ok runId =>
    cases required host m "schedule_id" with
    | error e => rfl
    | ok scheduleId =>
      cases required host m "scheduled_at" with
      | error e => rfl
      | ok scheduledAt =>
        cases required host m "name" with
        | error e => rfl
        | ok name =>
          cases m.get "text" with
          | none => rfl
          | some text =>
            refine congrArg Except.ok (Eq.trans ?_ (shownEvent_render _ _).symm)
            simp only [List.map_cons, List.map_nil, Field.text, text_quoted, htype]

theorem shownReminder_render : formatReminderEvent host m = (shownReminder host m).render := by
  have htype : quoted "reminder" = "\"reminder\"" := quoted_type _ (by decide)
  rw [shownReminder, shownEvent_render, formatReminderEvent]
  simp only [List.map_cons, List.map_nil, Field.text, text_quoted, htype]

theorem optionalField_text (label key start : String) (h : label.toList.all isNameChar) :
    (optionalField ⟨label, .quoted (start ++ lstrip '@' (host.text (m.get key))), h⟩ (host.text (m.get key))).map Field.text =
      membershipField host m label key start := by
  rw [optionalField, membershipField]
  split <;> rfl

theorem shownMembership_render : formatMembershipEvent host m = (shownMembership host m).render := by
  rw [shownMembership, shownEvent_render, formatMembershipEvent]
  simp only [List.map_append, optionalField_text, List.map_cons, Field.text, text_quoted, List.cons_append, List.nil_append]

end Project

section Messages
variable (host : Host) (currentAgentAliases : List String)

/-- The row that is shown of a message. -/
def shownRow (m : StoredMessage) (replyCount : Option Nat) : Except ProjectionError ShownRow :=
  if eventType host m = "scheduled_task" ∧ m.row.receiptReason = some "scheduled task" ∧
      m.row.receiptDisposition = some .localRuntime then shownScheduledTask host m
  else if isReminderEvent m then return shownReminder host m
  else if isMembershipType (eventType host m) then return shownMembership host m
  else MessageFacts.shown <$> messageFacts host currentAgentAliases m replyCount

theorem formatMessageRow_eq (m : StoredMessage) (replyCount : Option Nat) :
    formatMessageRow host currentAgentAliases m replyCount =
      ShownRow.render <$> shownRow host currentAgentAliases m replyCount := by
  rw [formatMessageRow, projectRow, shownRow]
  split
  · rw [shownScheduledTask_render]
    cases shownScheduledTask host m <;> rfl
  · split
    · rw [shownReminder_render]
      rfl
    · split
      · rw [shownMembership_render]
        rfl
      · cases messageFacts host currentAgentAliases m replyCount with
        | error e => rfl
        | ok facts => exact congrArg Except.ok facts.render_shown.symm

end Messages

end Rows

section Targets
variable (host : Host) (currentAgentAliases : List String)

/-- The field of an annotation, if its value is shown. -/
def annotationField (name : String) (h : name.toList.all isNameChar) (value : Option Json) : List Field :=
  match value with
  | none | some .null | some (.str "") => []
  | some value => [⟨name, .quoted (host.str value), h⟩]

def channelNameField (m : StoredMessage) : List Field :=
  match m.get "channel_name" with
  | none => []
  | some name =>
    if name.truthy then annotationField host "channel_name" (by decide) (some (.str (lstrip '#' (host.str name)))) else []

/-- The fields of a target's header. -/
def targetFields (m : StoredMessage) (threadRootId : String) : List Field :=
  let root := effectiveThreadRoot host m threadRootId
  let rootField := optionalField ⟨"thread_root_id", .quoted root, by decide⟩ root
  if isDm m then
    let peer := dmPeer host currentAgentAliases m
    [versionField, ⟨"target_type", .quoted "dm", by decide⟩, ⟨"target_ref", .quoted ("dm:" ++ peer), by decide⟩,
      ⟨"peer_identity", .quoted ("@" ++ peer), by decide⟩] ++ rootField
  else
    let spaceId := m.row.spaceId.getD ""
    let channelId := m.row.channelId.getD ""
    let ref := "channel:" ++ spaceId ++ ":" ++ channelId
    [versionField, ⟨"target_type", .quoted (if root ≠ "" then "thread" else "channel"), by decide⟩,
      ⟨"target_ref", .quoted (if root ≠ "" then ref ++ ":thread:" ++ root else ref), by decide⟩,
      ⟨"space_id", .quoted spaceId, by decide⟩] ++
      annotationField host "space_name" (by decide) (m.get "space_name") ++
      [⟨"channel_id", .quoted channelId, by decide⟩] ++ channelNameField host m ++ rootField

variable {host currentAgentAliases} {m : StoredMessage} {threadRootId : String}

theorem led_singleton (f : Field) : led [f] = " " ++ f.text := by simp [led]

theorem led_annotationField (name : String) (h : name.toList.all isNameChar) (value : Option Json) :
    led (annotationField host name h value) = annotationText host name value := by
  match value with
  | none | some .null => rfl
  | some (.bool _) | some (.int _) | some (.float _) | some (.arr _) | some (.obj _) => exact led_singleton _
  | some (.str s) =>
    by_cases hempty : s = ""
    · rw [hempty]
      rfl
    · have hfield : annotationField host name h (some (.str s)) = [⟨name, .quoted (host.str (.str s)), h⟩] := by
        simp [annotationField, hempty]
      have htext : annotationText host name (some (.str s)) = " " ++ field name (quoted (host.str (.str s))) := by
        simp [annotationText, hempty]
      rw [hfield, htext]
      exact led_singleton _

theorem led_channelNameField : led (channelNameField host m) = channelNameText host m := by
  unfold channelNameField channelNameText
  cases m.get "channel_name" with
  | none => rfl
  | some name =>
    dsimp only
    split
    · exact led_annotationField _ _ _
    · rfl

theorem led_rootField (root : String) : led (optionalField ⟨"thread_root_id", .quoted root, by decide⟩ root) =
    if root ≠ "" then " " ++ field "thread_root_id" (quoted root) else "" := by
  rw [optionalField]
  split
  · exact led_singleton _
  · rfl

/-- A line that starts as a header does. -/
theorem contextStart_eq (targetType targetRef : String) (fs : List Field) :
    "context " ++ fieldsText (versionField :: ⟨"target_type", .quoted targetType, by decide⟩ ::
      ⟨"target_ref", .quoted targetRef, by decide⟩ :: fs) = contextStart targetType targetRef ++ led fs := by
  have hstart : "context " ++ field "context_version" (toString contextVersion) =
      "context context_version=" ++ toString contextVersion := by decide +kernel
  unfold contextStart
  rw [fieldsText_cons, led_cons, led_cons, versionField_text, ← hstart]
  simp only [Field.text, text_quoted, String.append_assoc]

/-- The header of a message is the line of its target's fields. -/
theorem targetLabel_eq : targetLabel host currentAgentAliases m threadRootId =
    "context " ++ fieldsText (targetFields host currentAgentAliases m threadRootId) := by
  rw [targetLabel, targetFields]
  dsimp only
  split
  · rw [List.cons_append, List.cons_append, List.cons_append, contextStart_eq, List.cons_append, led_cons, List.nil_append,
      led_rootField]
    simp only [Field.text, text_quoted, String.append_assoc]
  · simp only [List.cons_append, List.nil_append]
    rw [contextStart_eq, led_cons]
    simp only [led_append, led_singleton, led_annotationField, led_channelNameField, led_rootField, Field.text, text_quoted,
      String.append_assoc]

end Targets
end PuffoAgent.Projection
