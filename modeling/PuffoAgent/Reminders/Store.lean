import PuffoAgent.Store.Receipts
import PuffoAgent.Text.Python

/-! The reminder store: one-shot occurrences, their remote envelopes and the lease
under which a prepared one may be delivered locally. -/
namespace PuffoAgent.Reminders
open Relational Stmt Sql Store Text

/-- What the store takes from the host's libraries: `datetime` rendering, `uuid.UUID`
and `json.loads`, each failing with `none`. -/
structure Host where
  rfc3339 : Int → Option String
  isUuid : String → Bool
  loads : String → Option Json

/-- A target decomposed as `(kind, space_id, channel_id, thread_root_id_or_peer)`. -/
structure InboxTarget where
  kind : String
  spaceId : String
  channelId : String
  tail : String
  deriving DecidableEq, Repr

def validSegment (value : String) : Bool := value ≠ "" ∧ value = strip value

def parseInboxTarget (target : String) : Except StoreError InboxTarget :=
  if target = "" ∨ target ≠ strip target then
    .error (.valueError "target must be a non-empty canonical Inbox target")
  else match split target ':' with
    | ["dm", peer] => if validSegment peer then .ok ⟨"dm", "", "", peer⟩ else .error malformed
    | ["channel", spaceId, channelId] =>
      if validSegment spaceId ∧ validSegment channelId then .ok ⟨"channel", spaceId, channelId, ""⟩
      else .error malformed
    | ["channel", spaceId, channelId, "thread", root] =>
      if validSegment spaceId ∧ validSegment channelId ∧ validSegment root then
        .ok ⟨"channel", spaceId, channelId, root⟩
      else .error malformed
    | _ => .error malformed
where
  malformed : StoreError := .valueError
    "target must be dm:<peer>, channel:<space_id>:<channel_id>, or channel:<space_id>:<channel_id>:thread:<root_id>"

/-- `MAX_REMINDER_ENVELOPE_BYTES`. -/
def maxReminderEnvelopeBytes : Nat := 32768

/-- The unpadded base64 length of a ciphertext. -/
def encodedBytes (ciphertextBytes : Nat) : Nat :=
  (ciphertextBytes + 2) / 3 * 4 - (3 - ciphertextBytes % 3) % 3

/-- The plaintext of the deterministic v1 envelope. -/
def reminderPlaintext (target content : String) : String :=
  (Json.obj [("content", .str content), ("target", .str target)]).dumps

def reminderPlaintextEnvelopeSize (target content : String) : Nat :=
  (Json.obj [("algorithm", .str "chacha20-poly1305"),
    ("ciphertext", .str (String.ofList (List.replicate
      (encodedBytes ((reminderPlaintext target content).utf8ByteSize + 16)) 'A'))),
    ("nonce", .str (String.ofList (List.replicate 16 'A'))), ("version", .int 1)]).dumps.utf8ByteSize

def validPayloadFormat (payloadFormat : String) : Bool :=
  payloadFormat ≠ "" ∧ payloadFormat.length ≤ 64 ∧ payloadFormat.toList.all (·.toNat < 128) ∧
    ¬ payloadFormat.toList.any isSpace

def validOpaquePayload (opaquePayload : List UInt8) : Bool :=
  1 ≤ opaquePayload.length ∧ opaquePayload.length ≤ 32768

end PuffoAgent.Reminders

namespace PuffoAgent.Store

/-- `is_unprepared_local_only`, and `_REMINDER_LOCAL_DELIVERY_SQL`. -/
def ReminderRow.isUnpreparedLocalOnly (r : ReminderRow) : Bool :=
  ¬ r.snapshotConflict ∧ r.serverAckRevision = 0 ∧ r.payloadFormat.isNone ∧ r.opaquePayload.isNone ∧
    r.deliveryClaimId.isNone ∧ ¬ r.deliveryClaimAcquired ∧ r.deliveryClaimExpiresAtMs.isNone

/-- An acquired Server claim whose lease runs past `nowMs`. -/
def ReminderRow.hasLease (r : ReminderRow) (nowMs : Int) : Bool :=
  r.deliveryClaimAcquired ∧ r.deliveryClaimId.isSome ∧ r.deliveryClaimExpiresAtMs.any (nowMs < ·)

/-- `_reminder_delivery_custody_sql`. -/
def ReminderRow.hasCustody (r : ReminderRow) (nowMs : Int) : Bool :=
  ¬ r.snapshotConflict ∧ (r.isUnpreparedLocalOnly ∨ r.hasLease nowMs)

/-- Occurrences that may still fire. -/
def ReminderRow.isOpen (r : ReminderRow) : Bool := r.state = .scheduled ∨ r.state = .claimed

/-- `INSERT INTO reminder_occurrences`, under the primary key and the unique occurrence. -/
def Tables.insertReminder? (s : Tables) (row : ReminderRow) : Option Tables :=
  if ∃ r ∈ s.reminderOccurrences.rows, r.occurrenceId = row.occurrenceId then none
  else (s.reminderOccurrences.insert? row).map fun rows => { s with reminderOccurrences := rows }

/-- `UPDATE reminder_occurrences SET f WHERE p`. -/
def Tables.updateReminders (s : Tables) (p : ReminderRow → Bool) (f : ReminderRow → ReminderRow)
    (hf : ∀ r, (f r).reminderId = r.reminderId) : Tables :=
  { s with reminderOccurrences := s.reminderOccurrences.update p f hf }

def Tables.countReminders (s : Tables) (p : ReminderRow → Bool) : Nat :=
  (s.reminderOccurrences.select p).length

def Tables.getReminder (s : Tables) (reminderId : String) : Option ReminderRow :=
  s.reminderOccurrences.get? reminderId

/-- `_get_reminder_sync_by_occurrence_unlocked`. -/
def Tables.getOccurrence (s : Tables) (occurrenceId : String) : Option ReminderRow :=
  s.reminderOccurrences.rows.find? (·.occurrenceId = occurrenceId)

end PuffoAgent.Store
