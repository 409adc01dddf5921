import PuffoAgent.Reminders.Store

/-! The transactions on reminder occurrences: creation, claims, delivery, cancellation
and reconciliation with the Server. Every clock reading is an argument. -/
namespace PuffoAgent.Reminders
open Relational Stmt Sql Store Text

structure ReminderMaterializationResult where
  changed : Bool
  conflict : Bool := false
  deriving DecidableEq, Repr

section Creation

/-- The row `create_reminder` and a local replacement insert. -/
def scheduledRow (reminderId occurrenceId target content : String) (intendedAtMs createdAtMs : Int) :
    ReminderRow where
  reminderId := reminderId
  occurrenceId := occurrenceId
  target := target
  content := content
  intendedAtMs := intendedAtMs
  state := .scheduled
  createdAtMs := createdAtMs
  revision := 1
  serverAckRevision := 0

def insertReminder (row : ReminderRow) : BodyM Unit :=
  tryExec (·.insertReminder? row) .integrityError

/-- `create_reminder`, with the identities it was given or generated. -/
def createReminder (content target : String) (intendedAtMs : Int) (reminderId occurrenceId : String)
    (createdAtMs : Int) : StoreM (Option ReminderRow) := do
  raiseIf (content = "") (.valueError "reminder content must be a non-empty string")
  let _ ← raising (parseInboxTarget target)
  raiseIf (maxReminderEnvelopeBytes < reminderPlaintextEnvelopeSize target content)
    (.valueError "reminder content exceeds the remote envelope limit")
  raiseIf (reminderId = "" ∨ occurrenceId = "" ∨ reminderId = occurrenceId)
    (.valueError "reminder and occurrence identities must be distinct")
  let _ ← transaction do
    insertReminder (scheduledRow reminderId occurrenceId target content intendedAtMs createdAtMs)
    return .commit ()
  read (·.getReminder reminderId)

def withEnvelope (payloadFormat : String) (opaquePayload : List UInt8) (r : ReminderRow) : ReminderRow :=
  { r with payloadFormat := some payloadFormat, opaquePayload := some opaquePayload }

def persistReminderEnvelopeBody (occurrenceId payloadFormat : String) (opaquePayload : List UInt8) :
    BodyM (Finish Unit) := do
  let record ← query (·.getOccurrence occurrenceId)
  match record with
  | none => throw (.valueError "unknown reminder occurrence")
  | some record =>
    if record.opaquePayload.isSome then do
      raiseIf (record.payloadFormat ≠ some payloadFormat ∨ record.opaquePayload ≠ some opaquePayload)
        (conflict "reminder envelope is immutable")
      return .rollback ()
    else do
      exec (·.updateReminders (fun r => r.occurrenceId = occurrenceId ∧ r.opaquePayload.isNone)
        (withEnvelope payloadFormat opaquePayload) (fun _ => rfl))
      return .commit ()

def persistReminderEnvelope (occurrenceId payloadFormat : String) (opaquePayload : List UInt8) :
    StoreM (Option ReminderRow) := do
  raiseIf (occurrenceId = "" ∨ ¬ validPayloadFormat payloadFormat ∨ ¬ validOpaquePayload opaquePayload)
    (.valueError "invalid reminder envelope metadata")
  let _ ← transaction (persistReminderEnvelopeBody occurrenceId payloadFormat opaquePayload)
  read (·.getOccurrence occurrenceId)

end Creation

section Sync

def acknowledged (revision : Nat) (r : ReminderRow) : ReminderRow := { r with
  serverAckRevision := revision
  syncRetryAfterMs := none
  syncRetryCount := 0
  syncPermanentRevision := none
  syncPermanentCode := none }

def acknowledgeReminderSyncRevision (occurrenceId : String) (revision : Nat) : StoreM Bool := do
  raiseIf (occurrenceId = "" ∨ revision = 0) (.valueError "invalid reminder acknowledgment")
  transaction do
    let changed ← query (·.countReminders fun r => r.occurrenceId = occurrenceId ∧
      r.revision = revision ∧ r.serverAckRevision < revision)
    exec (·.updateReminders (fun r => r.occurrenceId = occurrenceId ∧ r.revision = revision ∧
      r.serverAckRevision < revision) (acknowledged revision) (fun _ => rfl))
    return .commit (changed = 1)

def retried (retryAfterMs : Int) (r : ReminderRow) : ReminderRow := { r with
  syncRetryAfterMs := some retryAfterMs
  syncRetryCount := min (r.syncRetryCount + 1) 20
  syncPermanentRevision := none
  syncPermanentCode := none }

def scheduleReminderSyncRetry (occurrenceId : String) (revision : Nat) (retryAfterMs : Int) :
    StoreM Bool := do
  raiseIf (occurrenceId = "" ∨ revision = 0) (.valueError "invalid reminder retry state")
  transaction do
    let changed ← query (·.countReminders fun r => r.occurrenceId = occurrenceId ∧
      r.revision = revision)
    exec (·.updateReminders (fun r => r.occurrenceId = occurrenceId ∧ r.revision = revision)
      (retried retryAfterMs) (fun _ => rfl))
    return .commit (changed = 1)

/-- The error codes that are kept as they are. -/
def safeCode (code : String) : String :=
  if 1 ≤ code.length ∧ code.length ≤ 64 ∧ code.toList.all (fun c => c.toNat < 128 ∧
      (c.isLower ∨ c.isDigit ∨ c = '_' ∨ c = '-')) then code
  else "contract_error"

def failedPermanently (revision : Nat) (code : String) (r : ReminderRow) : ReminderRow := { r with
  syncRetryAfterMs := none
  syncPermanentRevision := some revision
  syncPermanentCode := some code }

def recordReminderSyncPermanentFailure (occurrenceId : String) (revision : Nat) (code : String) :
    StoreM Bool := do
  raiseIf (occurrenceId = "" ∨ revision = 0) (.valueError "invalid reminder permanent failure")
  transaction do
    let changed ← query (·.countReminders fun r => r.occurrenceId = occurrenceId ∧
      r.revision = revision)
    exec (·.updateReminders (fun r => r.occurrenceId = occurrenceId ∧ r.revision = revision)
      (failedPermanently revision (safeCode code)) (fun _ => rfl))
    return .commit (changed = 1)

end Sync

section Claims

def withClaimId (claimId : String) (r : ReminderRow) : ReminderRow :=
  { r with deliveryClaimId := some claimId }

def persistReminderDeliveryClaimIdBody (occurrenceId : String) (revision : Nat) (claimId : String) :
    BodyM (Finish Bool) := do
  let record ← query (·.getOccurrence occurrenceId)
  if ¬ record.any (·.revision = revision) then return .rollback false
  else if record.any (·.deliveryClaimId.isSome) then return .rollback true
  else do
    exec (·.updateReminders (fun r => r.occurrenceId = occurrenceId ∧ r.revision = revision ∧
      r.deliveryClaimId.isNone ∧ ¬ r.snapshotConflict) (withClaimId claimId) (fun _ => rfl))
    return .commit true

/-- `persist_reminder_delivery_claim_id`: the record, unless its revision has moved. -/
def persistReminderDeliveryClaimId (host : Host) (occurrenceId : String) (revision : Nat)
    (claimId : String) : StoreM (Option ReminderRow) := do
  raiseIf (occurrenceId = "" ∨ revision = 0 ∨ claimId = "" ∨ ¬ host.isUuid claimId)
    (.valueError "invalid reminder delivery claim")
  let known ← transaction (persistReminderDeliveryClaimIdBody occurrenceId revision claimId)
  read fun s => if known then s.getOccurrence occurrenceId else none

def leased (leaseExpiresAtMs : Int) (r : ReminderRow) : ReminderRow := { r with
  deliveryClaimAcquired := true
  deliveryClaimExpiresAtMs := some leaseExpiresAtMs }

def acquireReminderDeliveryClaim (occurrenceId : String) (revision : Nat) (claimId : String)
    (leaseExpiresAtMs : Int) : StoreM Bool :=
  transaction do
    let changed ← query (·.countReminders fun r => r.occurrenceId = occurrenceId ∧
      r.revision = revision ∧ r.deliveryClaimId = some claimId ∧ r.isOpen ∧ ¬ r.snapshotConflict)
    exec (·.updateReminders (fun r => r.occurrenceId = occurrenceId ∧ r.revision = revision ∧
        r.deliveryClaimId = some claimId ∧ r.isOpen ∧ ¬ r.snapshotConflict)
      (leased leaseExpiresAtMs) (fun _ => rfl))
    return .commit (changed = 1)

def claimed (nowMs : Int) (r : ReminderRow) : ReminderRow := { r with
  state := .claimed
  claimedAtMs := some nowMs
  actualFireAtMs := some nowMs }

/-- `ORDER BY intended_at_ms, occurrence_id`. -/
def reminderOrder (a b : ReminderRow) : Bool :=
  a.intendedAtMs < b.intendedAtMs ∨
    (a.intendedAtMs = b.intendedAtMs ∧ a.occurrenceId ≤ b.occurrenceId)

def Tables.orderedReminders (s : Tables) (p : ReminderRow → Bool) : List ReminderRow :=
  (s.reminderOccurrences.select p).insertionSort (fun a b => reminderOrder a b = true)

/-- One iteration of the claim loop. -/
def claimOne (nowMs : Int) (s : Tables) (reminderId : String) : Tables :=
  s.updateReminders (fun r => r.reminderId = reminderId ∧ r.state = .scheduled ∧
    r.isUnpreparedLocalOnly) (claimed nowMs) (fun _ => rfl)

/-- The occurrences `_claim_due_reminders_unlocked` selects. -/
def dueIds (nowMs : Int) (s : Tables) : List String :=
  (Tables.orderedReminders s fun r => r.state = .scheduled ∧ r.intendedAtMs ≤ nowMs ∧
    r.isUnpreparedLocalOnly).map (·.reminderId)

/-- `claim_due_reminders`. Every selected row is claimed, since nothing runs between. -/
def claimDueReminders (nowMs : Int) : StoreM (List ReminderRow) := do
  let claimedIds ← transaction do
    let ids ← query (dueIds nowMs)
    exec fun s => ids.foldl (claimOne nowMs) s
    return .commit ids
  read fun s => claimedIds.filterMap s.getReminder

/-- `claim_authorized_reminders`. -/
def claimAuthorizedReminders (occurrenceIds : List String) (nowMs claimCustodyNowMs
    selectCustodyNowMs : Int) : StoreM (List ReminderRow) :=
  if occurrenceIds = [] then return []
  else transaction do
    exec (·.updateReminders (fun r => r.occurrenceId ∈ occurrenceIds ∧ r.state = .scheduled ∧
      r.hasCustody claimCustodyNowMs) (claimed nowMs) (fun _ => rfl))
    let rows ← query (Tables.orderedReminders · fun r => r.occurrenceId ∈ occurrenceIds ∧
      r.state = .claimed ∧ r.hasCustody selectCustodyNowMs)
    return .commit rows

end Claims

section Delivery

/-- The Inbox event of an occurrence. -/
def reminderEventId (occurrenceId : String) : String := "reminder-occurrence:" ++ occurrenceId

/-- A rendering that raises leaves the transaction through its error path. -/
def rendered (host : Host) (atMs : Int) : Except StoreError String :=
  match host.rfc3339 atMs with
  | some text => .ok text
  | none => .error (.valueError "timestamp out of range")

/-- The content of `_reminder_event_payload`. -/
def reminderEventContent (reminder : ReminderRow) (intendedAt actualFireAt : String) : Json :=
  .obj [("event_type", .str "reminder"), ("reminder_id", .str reminder.reminderId),
    ("occurrence_id", .str reminder.occurrenceId), ("target", .str reminder.target),
    ("content", .str reminder.content), ("intended_at", .str intendedAt),
    ("actual_fire_at", .str actualFireAt)]

def reminderEventRow (reminder : ReminderRow) (target : InboxTarget) (content : Json)
    (actualFireAtMs : Int) : Payload :=
  if target.kind = "dm" then
    { envelopeId := reminderEventId reminder.occurrenceId
      envelopeKind := "dm"
      senderSlug := target.tail
      recipientSlug := some ""
      contentType := "application/puffo-reminder+json"
      content := content
      sentAt := actualFireAtMs }
  else
    { envelopeId := reminderEventId reminder.occurrenceId
      envelopeKind := "channel"
      senderSlug := "reminder"
      channelId := some target.channelId
      spaceId := some target.spaceId
      contentType := "application/puffo-reminder+json"
      content := content
      sentAt := actualFireAtMs
      threadRootId := if target.tail = "" then none else some target.tail }

/-- `_reminder_event_payload`. -/
def reminderEventPayload (host : Host) (reminder : ReminderRow) : Except StoreError Payload := do
  let target ← parseInboxTarget reminder.target
  match reminder.actualFireAtMs with
  | none => .error (conflict "claimed reminder is missing actual fire time")
  | some actualFireAtMs => do
    let intendedAt ← rendered host reminder.intendedAtMs
    let actualFireAt ← rendered host actualFireAtMs
    return reminderEventRow reminder target (reminderEventContent reminder intendedAt actualFireAt)
      actualFireAtMs

def isText (text : String) : Option Json → Bool
  | some (.str s) => s = text
  | _ => false

/-- The row that already has the event's id is exactly this reminder's event. -/
def ownsEvent (host : Host) (reminder : ReminderRow) (existing : MessageRow) : Bool :=
  existing.receiptDisposition = some .localRuntime ∧ (host.loads existing.content).any fun content =>
    isText "reminder" (content.member "event_type") ∧
      isText reminder.occurrenceId (content.member "occurrence_id")

/-- Insert the event, or accept the one that is there. -/
def enqueueReminder (host : Host) (reminder : ReminderRow) (nowMs clockMs : Int) : BodyM Unit := do
  let existing ← query (·.messages.get? (reminderEventId reminder.occurrenceId))
  match existing with
  | none => do
    let payload ← raising (reminderEventPayload host reminder)
    insertLocalEventInTransaction (payloadValues payload nowMs) "reminder occurrence" clockMs
  | some row =>
    raiseIf (¬ ownsEvent host reminder row)
      (conflict "reminder delivery event identity belongs to another row")

def delivered (eventId : String) (nowMs : Int) (r : ReminderRow) : ReminderRow := { r with
  state := .delivered
  deliveredEventId := some eventId
  deliveredAtMs := some nowMs
  revision := r.revision + 1
  syncRetryAfterMs := none
  syncRetryCount := 0
  syncPermanentRevision := none
  syncPermanentCode := none }

/-- `_deliver_claimed_reminder_unlocked`; the clock is read before the selection, at the
insertion and before the final `UPDATE`. -/
def deliverClaimedReminderBody (host : Host) (reminderId : String) (nowMs selectCustodyNowMs clockMs
    finalCustodyNowMs : Int) : BodyM (Finish Bool) := do
  let row ← query fun s => (s.getReminder reminderId).filter fun r =>
    r.state = .claimed ∧ r.hasCustody selectCustodyNowMs
  match row with
  | none => return .rollback false
  | some reminder => do
    enqueueReminder host reminder nowMs clockMs
    let changed ← query (·.countReminders fun r => r.reminderId = reminderId ∧ r.state = .claimed ∧
      r.hasCustody finalCustodyNowMs)
    exec (·.updateReminders (fun r => r.reminderId = reminderId ∧ r.state = .claimed ∧
        r.hasCustody finalCustodyNowMs)
      (delivered (reminderEventId reminder.occurrenceId) nowMs) (fun _ => rfl))
    if changed ≠ 1 then return .rollback false
    else return .commit true

def deliverClaimedReminder (host : Host) (reminderId : String) (nowMs selectCustodyNowMs clockMs
    finalCustodyNowMs : Int) : StoreM (Option ReminderRow) := do
  let done ← transaction (deliverClaimedReminderBody host reminderId nowMs selectCustodyNowMs clockMs
    finalCustodyNowMs)
  read fun s => if done then s.getReminder reminderId else none

end Delivery
end PuffoAgent.Reminders
