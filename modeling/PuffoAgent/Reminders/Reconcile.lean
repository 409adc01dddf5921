import PuffoAgent.Reminders.Lifecycle

/-! Cancellation, replacement and the snapshots that the Server sends. -/
namespace PuffoAgent.Reminders
open Relational Stmt Sql Store Text

section Local

def cancelled (cancelledAtMs : Int) (r : ReminderRow) : ReminderRow := { r with
  state := .cancelled
  cancelledAtMs := some cancelledAtMs
  claimedAtMs := none
  actualFireAtMs := none
  revision := r.revision + 1
  deliveryClaimId := none
  deliveryClaimAcquired := false
  deliveryClaimExpiresAtMs := none
  syncRetryAfterMs := none
  syncRetryCount := 0
  syncPermanentRevision := none
  syncPermanentCode := none }

def cancelReminderBody (reminderId : String) (cancelledAtMs : Int) : BodyM (Finish Unit) := do
  let reminder ← query (·.getReminder reminderId)
  match reminder with
  | none => throw (.valueError "unknown reminder_id")
  | some record => do
    raiseIf (record.isOpen ∧ ¬ record.isUnpreparedLocalOnly)
      (conflict "reminder cancellation conflicts with claimed or remote work")
    if record.isOpen then do
      let changed ← query (·.countReminders fun r => r.reminderId = reminderId ∧ r.isOpen)
      exec (·.updateReminders (fun r => r.reminderId = reminderId ∧ r.isOpen)
        (cancelled cancelledAtMs) (fun _ => rfl))
      raiseIf (changed ≠ 1) (conflict "reminder cancellation lost ownership")
      return .commit ()
    else return .commit ()

def cancelReminder (reminderId : String) (cancelledAtMs : Int) : StoreM (Option ReminderRow) := do
  raiseIf (reminderId = "") (.valueError "reminder_id must be a non-empty string")
  let _ ← transaction (cancelReminderBody reminderId cancelledAtMs)
  read (·.getReminder reminderId)

/-- `_scheduled_snapshot_matches` and `_replacement_matches`. -/
def snapshotMatches (record : ReminderRow) (reminderId target content : String) (intendedAtMs : Int)
    (payloadFormat : Option String) (opaquePayload : Option (List UInt8)) : Bool :=
  record.reminderId = reminderId ∧ record.target = target ∧ record.content = content ∧
    record.intendedAtMs = intendedAtMs ∧ record.payloadFormat = payloadFormat ∧
    record.opaquePayload = opaquePayload

/-- The row a local replacement leaves behind. -/
def replaced (replacedAtMs : Int) (r : ReminderRow) : ReminderRow := { r with
  state := .cancelled
  cancelledAtMs := some replacedAtMs
  revision := 2
  syncRetryAfterMs := none
  syncRetryCount := 0 }

def replaceLocalReminderBody (reminderId replacementReminderId replacementOccurrenceId content
    target : String) (intendedAtMs replacedAtMs : Int) : BodyM (Finish Unit) := do
  let old ← query (·.getReminder reminderId)
  let existing ← query (·.getOccurrence replacementOccurrenceId)
  match old with
  | none => throw (.valueError "unknown reminder_id")
  | some old =>
    if old.state = .cancelled ∧ existing.isSome then do
      raiseIf (¬ existing.any (snapshotMatches · replacementReminderId target content intendedAtMs
        none none)) (conflict "replacement identity changed")
      return .rollback ()
    else do
      raiseIf existing.isSome (conflict "replacement identity already exists")
      raiseIf (old.state ≠ .scheduled ∨ ¬ old.isUnpreparedLocalOnly)
        (conflict "reminder replacement conflicts with claimed or remote work")
      insertReminder (scheduledRow replacementReminderId replacementOccurrenceId target content
        intendedAtMs replacedAtMs)
      exec (·.updateReminders (fun r => r.reminderId = reminderId ∧ r.state = .scheduled)
        (replaced replacedAtMs) (fun _ => rfl))
      return .commit ()

def replaceLocalReminder (reminderId replacementReminderId replacementOccurrenceId content
    target : String) (intendedAtMs replacedAtMs : Int) :
    StoreM (Option ReminderRow × Option ReminderRow) := do
  let _ ← raising (parseInboxTarget target)
  raiseIf (content = "" ∨ maxReminderEnvelopeBytes < reminderPlaintextEnvelopeSize target content)
    (.valueError "invalid reminder replacement")
  let _ ← transaction (replaceLocalReminderBody reminderId replacementReminderId
    replacementOccurrenceId content target intendedAtMs replacedAtMs)
  read fun s => (s.getReminder reminderId, s.getReminder replacementReminderId)

end Local

section Remote

/-- A reminder as the Server describes it. -/
structure RemoteReminder where
  reminderId : String
  occurrenceId : String
  target : String
  content : String
  intendedAtMs : Int
  lifecycleAtMs : Int
  revision : Nat
  payloadFormat : String
  opaquePayload : List UInt8

/-- `_validate_remote_scheduled_reminder`. -/
def validateRemoteScheduledReminder (remote : RemoteReminder) : StoreM Unit := do
  raiseIf (remote.reminderId = "" ∨ remote.occurrenceId = "" ∨ remote.target = "" ∨
      remote.content = "" ∨ remote.reminderId = remote.occurrenceId ∨ remote.revision = 0 ∨
      ¬ validPayloadFormat remote.payloadFormat ∨ ¬ validOpaquePayload remote.opaquePayload)
    (.valueError "invalid remote reminder metadata")
  let _ ← raising (parseInboxTarget remote.target)
  return ()

def conflicted (r : ReminderRow) : ReminderRow := { r with snapshotConflict := true }

/-- `_mark_occurrence_snapshot_conflict`. -/
def markOccurrenceSnapshotConflict (occurrenceId : String) :
    BodyM (Finish ReminderMaterializationResult) := do
  let changed ← query (·.countReminders fun r => r.occurrenceId = occurrenceId ∧ ¬ r.snapshotConflict)
  exec (·.updateReminders (fun r => r.occurrenceId = occurrenceId ∧ ¬ r.snapshotConflict)
    conflicted (fun _ => rfl))
  return .commit ⟨changed = 1, true⟩

/-- `_mark_reminder_snapshot_conflict`. -/
def markReminderSnapshotConflict (reminderId : String) :
    BodyM (Finish ReminderMaterializationResult) := do
  let changed ← query (·.countReminders fun r => r.reminderId = reminderId ∧ ¬ r.snapshotConflict)
  exec (·.updateReminders (fun r => r.reminderId = reminderId ∧ ¬ r.snapshotConflict)
    conflicted (fun _ => rfl))
  if changed ≠ 0 then return .commit ⟨true, true⟩
  else return .rollback ⟨false, false⟩

/-- The row a remote occurrence that is new here is stored as. -/
def remoteRow (remote : RemoteReminder) (state : ReminderState) (createdAtMs : Int)
    (actualFireAtMs cancelledAtMs deliveredAtMs : Option Int) : ReminderRow where
  reminderId := remote.reminderId
  occurrenceId := remote.occurrenceId
  target := remote.target
  content := remote.content
  intendedAtMs := remote.intendedAtMs
  state := state
  createdAtMs := createdAtMs
  actualFireAtMs := actualFireAtMs
  cancelledAtMs := cancelledAtMs
  deliveredAtMs := deliveredAtMs
  revision := remote.revision
  serverAckRevision := remote.revision
  payloadFormat := some remote.payloadFormat
  opaquePayload := some remote.opaquePayload

/-- A matching snapshot raises the acknowledged revision and lifts the fence. -/
def confirmed (ack : Nat) (r : ReminderRow) : ReminderRow := { r with
  serverAckRevision := max r.serverAckRevision ack
  snapshotConflict := false }

def materializeKnown (remote : RemoteReminder) (record : ReminderRow) :
    BodyM (Finish ReminderMaterializationResult) :=
  if ¬ record.isOpen then return .rollback ⟨false, false⟩
  else if ¬ snapshotMatches record remote.reminderId remote.target remote.content remote.intendedAtMs
      (some remote.payloadFormat) (some remote.opaquePayload) then
    markOccurrenceSnapshotConflict remote.occurrenceId
  else do
    let changed ← query (·.countReminders fun r => r.occurrenceId = remote.occurrenceId ∧
      (r.serverAckRevision < min remote.revision record.revision ∨ r.snapshotConflict))
    exec (·.updateReminders (fun r => r.occurrenceId = remote.occurrenceId ∧
        (r.serverAckRevision < min remote.revision record.revision ∨ r.snapshotConflict))
      (confirmed (min remote.revision record.revision)) (fun _ => rfl))
    return .commit ⟨changed = 1, false⟩

def materializeRemoteScheduledReminderBody (remote : RemoteReminder) :
    BodyM (Finish ReminderMaterializationResult) := do
  let record ← query (·.getOccurrence remote.occurrenceId)
  let sameReminder ← query (·.getReminder remote.reminderId)
  match record with
  | some record => materializeKnown remote record
  | none =>
    if sameReminder.isSome then markReminderSnapshotConflict remote.reminderId
    else do
      insertReminder (remoteRow remote .scheduled remote.lifecycleAtMs none none none)
      return .commit ⟨true, false⟩

def materializeRemoteScheduledReminder (remote : RemoteReminder) :
    StoreM ReminderMaterializationResult := do
  validateRemoteScheduledReminder remote
  transaction (materializeRemoteScheduledReminderBody remote)

/-- The terminal fact the Server reports. -/
structure RemoteTombstone where
  reminderId : String
  occurrenceId : String
  intendedAtMs : Int
  lifecycle : ReminderState
  lifecycleAtMs : Int
  revision : Nat
  payloadFormat : String

/-- The row after the report, as `_merged_remote_terminal_values` has it: a delivery that
was committed here stays visible. -/
def terminated (tombstone : RemoteTombstone) (record : ReminderRow) : ReminderRow := { record with
  state := if record.state = .delivered then .delivered else tombstone.lifecycle
  claimedAtMs := none
  actualFireAtMs := if record.state = .delivered then record.actualFireAtMs
    else if tombstone.lifecycle = .delivered then some tombstone.lifecycleAtMs else none
  cancelledAtMs := if record.state = .delivered ∨ tombstone.lifecycle = .delivered then none
    else some tombstone.lifecycleAtMs
  deliveredAtMs := if record.state = .delivered then record.deliveredAtMs
    else if tombstone.lifecycle = .delivered then some tombstone.lifecycleAtMs else none
  deliveredEventId := if record.state = .delivered then record.deliveredEventId else none
  revision := max record.revision tombstone.revision
  serverAckRevision := max record.serverAckRevision tombstone.revision
  payloadFormat := some (record.payloadFormat.getD tombstone.payloadFormat)
  syncRetryAfterMs := none
  syncRetryCount := 0
  syncPermanentRevision := none
  syncPermanentCode := none
  deliveryClaimId := none
  deliveryClaimAcquired := false
  deliveryClaimExpiresAtMs := none
  snapshotConflict := false }

/-- `_terminal_materialization_changes`: a column that the report writes would change. -/
def terminalMaterializationChanges (tombstone : RemoteTombstone) (record : ReminderRow) : Bool :=
  terminated tombstone record ≠ record

def materializeRemoteTerminalReminderBody (tombstone : RemoteTombstone) :
    BodyM (Finish ReminderMaterializationResult) := do
  let record ← query (·.getOccurrence tombstone.occurrenceId)
  match record with
  | none => markReminderSnapshotConflict tombstone.reminderId
  | some record =>
    if record.reminderId ≠ tombstone.reminderId ∨ record.intendedAtMs ≠ tombstone.intendedAtMs ∨
        record.payloadFormat.any (· ≠ tombstone.payloadFormat) then
      markOccurrenceSnapshotConflict tombstone.occurrenceId
    else if ¬ terminalMaterializationChanges tombstone record then return .rollback ⟨false, false⟩
    else do
      exec (·.updateReminders (fun r => r.occurrenceId = tombstone.occurrenceId)
        (terminated tombstone) (fun _ => rfl))
      return .commit ⟨true, false⟩

def materializeRemoteTerminalReminder (tombstone : RemoteTombstone) :
    StoreM ReminderMaterializationResult := do
  raiseIf (tombstone.reminderId = "" ∨ tombstone.occurrenceId = "" ∨
      tombstone.reminderId = tombstone.occurrenceId ∨
      (tombstone.lifecycle ≠ .cancelled ∧ tombstone.lifecycle ≠ .delivered) ∨
      tombstone.revision = 0 ∨ ¬ validPayloadFormat tombstone.payloadFormat)
    (.valueError "invalid remote reminder tombstone")
  transaction (materializeRemoteTerminalReminderBody tombstone)

/-- `_replacement_terminal_fields`: actual fire, cancellation and delivery times. -/
def replacementTerminalFields (lifecycle : ReminderState) (lifecycleAtMs : Int) :
    Except StoreError (Option Int × Option Int × Option Int) :=
  match lifecycle with
  | .scheduled => .ok (none, none, none)
  | .cancelled => .ok (none, some lifecycleAtMs, none)
  | .delivered => .ok (some lifecycleAtMs, none, some lifecycleAtMs)
  | .claimed => .error (.valueError "invalid replacement lifecycle")

/-- A remote terminal fact about a replacement that is still open here. -/
def settled (remote : RemoteReminder) (lifecycle : ReminderState)
    (fields : Option Int × Option Int × Option Int) (r : ReminderRow) : ReminderRow := { r with
  state := lifecycle
  actualFireAtMs := fields.1
  cancelledAtMs := fields.2.1
  deliveredAtMs := fields.2.2
  revision := remote.revision
  serverAckRevision := remote.revision
  claimedAtMs := none
  deliveryClaimId := none
  deliveryClaimAcquired := false
  deliveryClaimExpiresAtMs := none
  syncRetryAfterMs := none
  syncRetryCount := 0
  syncPermanentRevision := none
  syncPermanentCode := none
  snapshotConflict := false }

/-- `_upsert_remote_replacement_unlocked`. -/
def upsertRemoteReplacement (remote : RemoteReminder) (createdAtMs : Int) (lifecycle : ReminderState)
    (fields : Option Int × Option Int × Option Int) : BodyM Unit := do
  let replacement ← query (·.getOccurrence remote.occurrenceId)
  match replacement with
  | none => insertReminder (remoteRow remote lifecycle createdAtMs fields.1 fields.2.1 fields.2.2)
  | some record => do
    raiseIf (¬ snapshotMatches record remote.reminderId remote.target remote.content
        remote.intendedAtMs (some remote.payloadFormat) (some remote.opaquePayload))
      (conflict "replacement identity changed")
    exec fun s => if record.isOpen ∧ lifecycle ≠ .scheduled then
      s.updateReminders (fun r => r.occurrenceId = remote.occurrenceId ∧ r.isOpen)
        (settled remote lifecycle fields) (fun _ => rfl) else s

/-- The columns `_cancel_replaced_occurrence_unlocked` writes: a delivered row keeps its
facts. -/
def superseded (cancelledAtMs : Int) (r : ReminderRow) : ReminderRow := { r with
  state := if r.state = .delivered then r.state else .cancelled
  claimedAtMs := none
  actualFireAtMs := if r.state = .delivered then r.actualFireAtMs else none
  cancelledAtMs := if r.state = .delivered then r.cancelledAtMs else some cancelledAtMs
  deliveredAtMs := if r.state = .delivered then r.deliveredAtMs else none
  deliveredEventId := if r.state = .delivered then r.deliveredEventId else none
  revision := max r.revision 2
  serverAckRevision := max r.serverAckRevision 2
  deliveryClaimId := none
  deliveryClaimAcquired := false
  deliveryClaimExpiresAtMs := none
  syncRetryAfterMs := none
  syncRetryCount := 0
  syncPermanentRevision := none
  syncPermanentCode := none
  snapshotConflict := false }

def materializeRemoteReplacementBody (reminderId occurrenceId : String) (cancelledAtMs : Int)
    (remote : RemoteReminder) (createdAtMs : Int) (lifecycle : ReminderState)
    (fields : Option Int × Option Int × Option Int) : BodyM (Finish Unit) := do
  let old ← query (·.getOccurrence occurrenceId)
  raiseIf (¬ old.any (·.reminderId = reminderId)) (conflict "reminder replacement identity changed")
  upsertRemoteReplacement remote createdAtMs lifecycle fields
  exec (·.updateReminders (fun r => r.occurrenceId = occurrenceId) (superseded cancelledAtMs)
    (fun _ => rfl))
  return .commit ()

/-- `materialize_remote_replacement`; `remote` describes the replacement. -/
def materializeRemoteReplacement (reminderId occurrenceId : String) (cancelledAtMs : Int)
    (remote : RemoteReminder) (createdAtMs : Int) (lifecycle : ReminderState) :
    StoreM (Option ReminderRow × Option ReminderRow) := do
  validateRemoteScheduledReminder remote
  raiseIf (remote.revision ≠ if lifecycle = .scheduled then 1 else 2)
    (.valueError "invalid replacement lifecycle revision")
  let fields ← raising (replacementTerminalFields lifecycle remote.lifecycleAtMs)
  let _ ← transaction (materializeRemoteReplacementBody reminderId occurrenceId cancelledAtMs remote
    createdAtMs lifecycle fields)
  read fun s => (s.getReminder reminderId, s.getReminder remote.reminderId)

end Remote
end PuffoAgent.Reminders
