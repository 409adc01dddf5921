import PuffoAgent.Reminders.Lifecycle
import PuffoAgent.Text.JsonParse

/-! A delivery that finds the event of its occurrence already stored. -/
namespace PuffoAgent.Reminders
open Relational Stmt Sql Store Text

/-- A host whose `json.loads` is the parser of the texts the store writes. -/
def Host.parsing (host : Host) : Host := { host with loads := Json.loads }

/-- The row is the event the store writes for the payload. -/
structure EventOf (payload : Payload) (row : MessageRow) : Prop where
  disposition : row.receiptDisposition = some .localRuntime
  content : row.content = encodeContent payload.content
  envelopeId : row.envelopeId = payload.envelopeId
  envelopeKind : row.envelopeKind = payload.envelopeKind
  senderSlug : row.senderSlug = payload.senderSlug
  recipientSlug : row.recipientSlug = payload.recipientSlug
  channelId : row.channelId = payload.channelId
  spaceId : row.spaceId = payload.spaceId
  contentType : row.contentType = payload.contentType
  sentAt : row.sentAt = payload.sentAt
  threadRootId : row.threadRootId = payload.threadRootId

/-- The row is the event of this occurrence, with the payload the reminder has now. -/
def IsOwnEvent (host : Host) (reminder : ReminderRow) (row : MessageRow) : Prop :=
  ∃ payload, reminderEventPayload host reminder = .ok payload ∧ EventOf payload row

/-- The marker of encoded content is no JSON. -/
theorem loads_encodeContent (value : Json) : Json.loads (encodeContent value) = none := by
  have htext : (encodeContent value).toList =
      '\x1e' :: ("PUFFO_CONTENT_JSON_V1:".toList ++ value.dumps.toList) := by
    rw [encodeContent, String.toList_append]
    rfl
  rw [Json.loads, htext, List.length_cons]
  rfl

theorem not_ownsEvent {host : Host} {reminder : ReminderRow} {row : MessageRow} {payload : Payload}
    (h : EventOf payload row) : ownsEvent host.parsing reminder row = false := by
  have hnone : host.parsing.loads row.content = none := by
    rw [h.content]
    exact loads_encodeContent payload.content
  simp [ownsEvent, hnone]

section Existing
variable {host : Host} {s : Tables} {reminderId : String} {reminder : ReminderRow} {row : MessageRow}
  {nowMs selectNowMs clockMs finalNowMs : Int}

/-- The check of the row that is found. -/
theorem enqueueReminder_existing (hm : s.messages.get? (reminderEventId reminder.occurrenceId) = some row) :
    enqueueReminder host reminder nowMs clockMs s =
      if ownsEvent host reminder row then .ok () s
      else .error (conflict "reminder delivery event identity belongs to another row") s := by
  rw [enqueueReminder, query_bind_run, hm]
  dsimp only
  cases ho : ownsEvent host reminder row <;> simp [raiseIf]

/-- What the delivering transaction does once it has selected the reminder. -/
theorem deliverBody_selected (host : Host) (nowMs clockMs finalNowMs : Int)
    (hr : s.getReminder reminderId = some reminder) (hs : reminder.state = .claimed)
    (hc : reminder.hasCustody selectNowMs) :
    ∃ k : Unit → BodyM (Finish Bool),
      deliverClaimedReminderBody host reminderId nowMs selectNowMs clockMs finalNowMs s =
        EStateM.bind (enqueueReminder host reminder nowMs clockMs) k s ∧ ∀ t, ∃ done t', k () t = .ok done t' := by
  have hrow : ((s.getReminder reminderId).filter fun r => r.state = .claimed ∧ r.hasCustody selectNowMs) = some reminder := by
    rw [hr, Option.filter_some, if_pos (by simp [hs, hc])]
  rw [deliverClaimedReminderBody, query_bind_run, hrow]
  refine ⟨_, rfl, fun t => ?_⟩
  rw [query_bind_run]
  split
  · exact ⟨_, _, rfl⟩
  · exact ⟨_, _, rfl⟩

/-- A row that does not pass the check stops the delivery, and nothing is written. -/
theorem deliver_refused (hr : s.getReminder reminderId = some reminder) (hs : reminder.state = .claimed)
    (hc : reminder.hasCustody selectNowMs) (hm : s.messages.get? (reminderEventId reminder.occurrenceId) = some row)
    (ho : ownsEvent host reminder row = false) :
    deliverClaimedReminder host reminderId nowMs selectNowMs clockMs finalNowMs ⟨s, none⟩ =
      .error (conflict "reminder delivery event identity belongs to another row") ⟨s, none⟩ := by
  obtain ⟨k, hbody, -⟩ := deliverBody_selected host nowMs clockMs finalNowMs hr hs hc
  have henq : enqueueReminder host reminder nowMs clockMs s =
      .error (conflict "reminder delivery event identity belongs to another row") s := by
    rw [enqueueReminder_existing hm, ho]
    rfl
  have hrun := transaction_run (deliverClaimedReminderBody host reminderId nowMs selectNowMs clockMs finalNowMs) s
  rw [hbody, EStateM.bind, henq] at hrun
  change EStateM.bind (transaction _) _ _ = _
  rw [EStateM.bind, hrun]

/-- A row that passes it is taken for the event. -/
theorem deliver_recognised (hr : s.getReminder reminderId = some reminder) (hs : reminder.state = .claimed)
    (hc : reminder.hasCustody selectNowMs) (hm : s.messages.get? (reminderEventId reminder.occurrenceId) = some row)
    (ho : ownsEvent host reminder row = true) :
    ∃ result c, deliverClaimedReminder host reminderId nowMs selectNowMs clockMs finalNowMs ⟨s, none⟩ = .ok result c := by
  obtain ⟨k, hbody, hk⟩ := deliverBody_selected host nowMs clockMs finalNowMs hr hs hc
  have henq : enqueueReminder host reminder nowMs clockMs s = .ok () s := by rw [enqueueReminder_existing hm, ho, if_pos rfl]
  obtain ⟨done, t, hdone⟩ := hk s
  have hrun := transaction_run (deliverClaimedReminderBody host reminderId nowMs selectNowMs clockMs finalNowMs) s
  rw [hbody, EStateM.bind, henq] at hrun
  dsimp only at hrun
  rw [hdone] at hrun
  change ∃ result c, EStateM.bind (transaction _) _ _ = .ok result c
  cases done with
  | commit a => exact ⟨_, _, by rw [EStateM.bind, hrun]; rfl⟩
  | rollback a => exact ⟨_, _, by rw [EStateM.bind, hrun]; rfl⟩

end Existing

/-- The event that the store wrote for an occurrence is never recognised. A row that is not that event is
refused, and nothing is written, unless it has the names of the occurrence as unmarked JSON. -/
theorem reminder_replay_iff (host : Host) (s : Tables) (reminderId : String) (reminder : ReminderRow) (row : MessageRow)
    (nowMs selectNowMs clockMs finalNowMs : Int) (hr : s.getReminder reminderId = some reminder)
    (hs : reminder.state = .claimed) (hc : reminder.hasCustody selectNowMs)
    (hm : s.messages.get? (reminderEventId reminder.occurrenceId) = some row) :
    let run := deliverClaimedReminder host.parsing reminderId nowMs selectNowMs clockMs finalNowMs ⟨s, none⟩
    let Refused := run = .error (conflict "reminder delivery event identity belongs to another row") ⟨s, none⟩
    (IsOwnEvent host.parsing reminder row → Refused) ∧
      (((IsOwnEvent host.parsing reminder row → ∃ result c, run = .ok result c) ∧
          (¬ IsOwnEvent host.parsing reminder row → Refused)) ↔
        ¬ IsOwnEvent host.parsing reminder row ∧ ownsEvent host.parsing reminder row = false) := by
  intro run Refused
  have hown : IsOwnEvent host.parsing reminder row → Refused := by
    rintro ⟨payload, -, he⟩
    exact deliver_refused hr hs hc hm (not_ownsEvent he)
  refine ⟨hown, fun h => ?_, fun h => ⟨fun ho => absurd ho h.1, fun _ => deliver_refused hr hs hc hm h.2⟩⟩
  have hnot : ¬ IsOwnEvent host.parsing reminder row := by
    intro ho
    obtain ⟨result, c, hrun⟩ := h.1 ho
    cases hrun.symm.trans (hown ho)
  refine ⟨hnot, ?_⟩
  cases ho : ownsEvent host.parsing reminder row with
  | false => rfl
  | true =>
    obtain ⟨result, c, hrun⟩ : ∃ result c, run = .ok result c := deliver_recognised hr hs hc hm ho
    cases hrun.symm.trans (h.2 hnot)

section Examples

def sampleHost : Host := ⟨fun _ => some "2026-01-01T00:00:00Z", fun _ => true, fun _ => none⟩

def claimedReminder : ReminderRow where
  reminderId := "r"
  occurrenceId := "o"
  target := "dm:bob"
  content := "stretch"
  intendedAtMs := 5
  state := .claimed
  createdAtMs := 1
  claimedAtMs := some 5
  actualFireAtMs := some 5
  revision := 1
  serverAckRevision := 0

def claimedPayload : Payload := reminderEventRow claimedReminder ⟨"dm", "", "", "bob"⟩
  (reminderEventContent claimedReminder "2026-01-01T00:00:00Z" "2026-01-01T00:00:00Z") 5

/-- A store with the claimed reminder and a message under its event's id. -/
def withEvent (payload : Payload) : Tables :=
  (storeLocalEvent payload "reminder occurrence" none 5 false 5).after
    { Tables.empty with reminderOccurrences := ⟨[claimedReminder], List.nodup_singleton _⟩ }

theorem reminder_replay_iff_own :
    ∃ row, (withEvent claimedPayload).messages.get? (reminderEventId "o") = some row ∧
      deliverClaimedReminder sampleHost.parsing "r" 5 5 5 5 ⟨withEvent claimedPayload, none⟩ =
        .error (conflict "reminder delivery event identity belongs to another row") ⟨withEvent claimedPayload, none⟩ :=
  ⟨_, rfl, (reminder_replay_iff sampleHost (withEvent claimedPayload) "r" claimedReminder _ 5 5 5 5 rfl rfl rfl rfl).1
    ⟨claimedPayload, rfl, rfl, rfl, rfl, rfl, rfl, rfl, rfl, rfl, rfl, rfl, rfl⟩⟩

/-- The store's own event under a claimed reminder, delivered again. -/
theorem own_event_refused :
    reminderEventPayload sampleHost.parsing claimedReminder = .ok claimedPayload ∧
      ∃ row, (withEvent claimedPayload).messages.get? (reminderEventId "o") = some row ∧
        EventOf claimedPayload row ∧
        deliverClaimedReminder sampleHost.parsing "r" 5 5 5 5 ⟨withEvent claimedPayload, none⟩ =
          .error (conflict "reminder delivery event identity belongs to another row") ⟨withEvent claimedPayload, none⟩ := by
  have he : ∃ row, (withEvent claimedPayload).messages.get? (reminderEventId "o") = some row ∧
      EventOf claimedPayload row := ⟨_, rfl, rfl, rfl, rfl, rfl, rfl, rfl, rfl, rfl, rfl, rfl, rfl⟩
  obtain ⟨row, hm, he⟩ := he
  exact ⟨rfl, row, hm, he, deliver_refused rfl rfl rfl hm (not_ownsEvent he)⟩

end Examples
end PuffoAgent.Reminders
