import PuffoAgent.Reminders.Transitions
import PuffoAgent.Text.Base64

/-! What the reminder sync client accepts from the Server: snapshot pages, their rows and
the answers to delivery claims. -/
namespace PuffoAgent.Reminders
open Relational Stmt Sql Store Text

/-- A parsed timestamp: `int(timestamp() * 1000)` fails outside the host's range. -/
structure Instant where
  aware : Bool
  microsecond : Nat
  epochMs : Option Int
  deriving DecidableEq, Repr

/-- What the sync client takes from libraries: the digits of the host's patterns,
`datetime.fromisoformat` and the decryption of an envelope into target and content. -/
structure SyncHost extends Host where
  isDecimal : Char → Bool
  fromIsoformat : String → Option Instant
  decryptReminderPayload : (reminderId occurrenceId : String) → Int → List UInt8 → Option (String × String)

inductive SyncError where
  | contract (message : String)
  | envelope (message : String)
  | typeError
  | assertion
  | request (retryable : Bool)
  | cancelled
  | store (e : StoreError)
  deriving DecidableEq, Repr

def invalidMetadata : SyncError := .contract "invalid reminder metadata"

def invalidSnapshot : SyncError := .contract "invalid reminder snapshot"

def invalidClaim : SyncError := .contract "invalid reminder delivery claim"

def invalidEnvelope : SyncError := .envelope "invalid opaque envelope"

/-- `REMINDER_PAYLOAD_FORMAT`. -/
def reminderPayloadFormat : String := "puffo-reminder-aead-v1"

def demand (p : Prop) [Decidable p] (e : SyncError) : Except SyncError Unit := if p then .ok () else .error e

theorem demand_ok_iff {p : Prop} [Decidable p] {e : SyncError} {u : Unit} :
    demand p e = .ok u ↔ p := by
  unfold demand
  split <;> simp_all

theorem demand_bind_ok_iff {α : Type} {p : Prop} [Decidable p] {e : SyncError} {f : Unit → Except SyncError α}
    {a : α} : (demand p e >>= f) = .ok a ↔ p ∧ f () = .ok a := by
  rw [except_bind_ok_iff]
  constructor
  · rintro ⟨u, hp, hf⟩
    exact ⟨demand_ok_iff.mp hp, hf⟩
  · rintro ⟨hp, hf⟩
    exact ⟨(), demand_ok_iff.mpr hp, hf⟩

/-- `[A-Za-z0-9_-]`. -/
def isIdChar (c : Char) : Bool := c.isAlphanum ∨ c = '_' ∨ c = '-'

/-- `_validate_id`. -/
def validateId (value : Option Json) : Except SyncError String :=
  match asText value with
  | some text => do
    demand (1 ≤ text.length ∧ text.length ≤ 128 ∧ text.toList.all isIdChar = true) invalidMetadata
    return text
  | none => .error invalidMetadata

/-- `_validate_snapshot_cursor`. -/
def validateSnapshotCursor (value : Json) : Except SyncError String :=
  match asText (some value) with
  | some text => do
    demand (1 ≤ text.length ∧ text.length ≤ 256 ∧
      text.toList.all (fun c => 0x21 ≤ c.toNat ∧ c.toNat ≤ 0x7e) = true) invalidSnapshot
    return text
  | none => .error invalidSnapshot

section Timestamps
variable (host : SyncHost)

/-- The pattern's fixed part; `d` stands for a digit. -/
def matchesShape (shape text : List Char) : Bool :=
  shape.length = text.length ∧ (shape.zip text).all fun (s, c) => if s = 'd' then host.isDecimal c else s = c

/-- `(?:Z|[+-]\d{2}:\d{2})`. -/
def matchesOffset (text : List Char) : Bool :=
  text = ['Z'] ∨ matchesShape host "+dd:dd".toList text ∨ matchesShape host "-dd:dd".toList text

/-- `_RFC3339_OFFSET_RE.fullmatch`. -/
def matchesRfc3339 (text : String) : Bool :=
  matchesShape host "dddd-dd-ddTdd:dd:dd".toList (text.toList.take 19) &&
    match text.toList.drop 19 with
    | '.' :: rest => rest.takeWhile host.isDecimal ≠ [] ∧ matchesOffset host (rest.dropWhile host.isDecimal)
    | rest => matchesOffset host rest

/-- `_parse_rfc3339_timestamp`. -/
def parseRfc3339Timestamp (value : Option Json) : Except SyncError Instant :=
  match asText value with
  | none => .error invalidMetadata
  | some text => do
    demand (matchesRfc3339 host text = true) invalidMetadata
    match host.fromIsoformat (if endsWith text "Z" then String.ofList text.toList.dropLast ++ "+00:00" else text) with
    | none => .error invalidMetadata
    | some parsed => do
      demand (parsed.aware = true) invalidMetadata
      return parsed

/-- `_parse_rfc3339_ms`. -/
def parseRfc3339Ms (value : Option Json) : Except SyncError Int := do
  let parsed ← parseRfc3339Timestamp host value
  demand (parsed.microsecond % 1000 = 0) invalidMetadata
  match parsed.epochMs with
  | some ms => return ms
  | none => .error invalidMetadata

end Timestamps

/-- `_base64url_decode`. -/
def base64urlDecode (value : Option Json) : Except SyncError (List UInt8) :=
  match asText value with
  | none => .error invalidEnvelope
  | some text => do
    demand (text ≠ "" ∧ text.toList.all isIdChar = true) invalidEnvelope
    match urlsafeB64decode (text.toList ++ List.replicate ((4 - text.toList.length % 4) % 4) '=') with
    | none => .error invalidEnvelope
    | some decoded => do
      demand ((urlsafeB64encode decoded).rdropWhile (· = '=') = text.toList) invalidEnvelope
      return decoded

section Rows
variable (host : SyncHost)

/-- `set(value) == keys`. -/
def hasKeys (keys : List String) : Json → Bool
  | .obj members => (members.map (·.1)).all (· ∈ keys) ∧ keys.all (· ∈ members.map (·.1))
  | _ => false

/-- `_RemoteOccurrence`. -/
structure RemoteOccurrence where
  reminderId : String
  occurrenceId : String
  intendedAtMs : Int
  lifecycleAtMs : Int
  revision : Nat
  lifecycle : ReminderState
  payloadFormat : String
  opaquePayload : Option (List UInt8)
  target : Option String
  content : Option String
  deriving DecidableEq, Repr

/-- `lifecycle in {"scheduled", "cancelled", "delivered"}`. -/
def remoteLifecycle (value : Option Json) : Except SyncError ReminderState :=
  match value with
  | some (.str "scheduled") => .ok .scheduled
  | some (.str "cancelled") => .ok .cancelled
  | some (.str "delivered") => .ok .delivered
  | some (.arr _) | some (.obj _) => .error .typeError
  | _ => .error invalidSnapshot

/-- The envelope of a scheduled row. -/
def openEnvelope (reminderId occurrenceId : String) (intendedAtMs : Int) (value : Option Json) :
    Except SyncError (List UInt8 × String × String) := do
  let opaquePayload ← base64urlDecode value
  demand (1 ≤ opaquePayload.length ∧ opaquePayload.length ≤ maxReminderEnvelopeBytes) invalidSnapshot
  match host.decryptReminderPayload reminderId occurrenceId intendedAtMs opaquePayload with
  | none => .error invalidSnapshot
  | some (target, content) => return (opaquePayload, target, content)

/-- The revision a row of this lifecycle has. -/
def lifecycleRevision (lifecycle : ReminderState) : Nat := if lifecycle = .scheduled then 1 else 2

/-- `_validate_snapshot_row`. -/
def validateSnapshotRow (value : Json) : Except SyncError RemoteOccurrence := do
  let required := ["occurrence_id", "revision", "reminder_id", "due_at", "lifecycle", "lifecycle_at",
    "payload_format"]
  let expected := if (asText (value.member "lifecycle")) = some "scheduled" then
    required ++ ["opaque_payload"] else required
  demand (hasKeys expected value = true) invalidSnapshot
  let lifecycle ← remoteLifecycle (value.member "lifecycle")
  let occurrenceId ← validateId (value.member "occurrence_id")
  let reminderId ← validateId (value.member "reminder_id")
  match value.member "revision" with
  | some (.int revision) => do
    demand (revision = lifecycleRevision lifecycle) invalidSnapshot
    demand (asText (value.member "payload_format") = some reminderPayloadFormat) invalidSnapshot
    let intendedAtMs ← parseRfc3339Ms host (value.member "due_at")
    let lifecycleAtMs ← parseRfc3339Ms host (value.member "lifecycle_at")
    if lifecycle = .scheduled then do
      let (opaquePayload, target, content) ← openEnvelope host reminderId occurrenceId intendedAtMs
        (value.member "opaque_payload")
      return ⟨reminderId, occurrenceId, intendedAtMs, lifecycleAtMs, lifecycleRevision lifecycle, lifecycle,
        reminderPayloadFormat, some opaquePayload, some target, some content⟩
    else
      return ⟨reminderId, occurrenceId, intendedAtMs, lifecycleAtMs, lifecycleRevision lifecycle, lifecycle,
        reminderPayloadFormat, none, none, none⟩
  | _ => .error invalidSnapshot

/-- The store call a row is applied with. -/
def RemoteOccurrence.materialize (remote : RemoteOccurrence) :
    Except SyncError (StoreM ReminderMaterializationResult) :=
  if remote.lifecycle = .scheduled then
    match remote.target, remote.content, remote.opaquePayload with
    | some target, some content, some opaquePayload =>
      .ok (materializeRemoteScheduledReminder ⟨remote.reminderId, remote.occurrenceId, target, content,
        remote.intendedAtMs, remote.lifecycleAtMs, remote.revision, remote.payloadFormat, opaquePayload⟩)
    | _, _, _ => .error .assertion
  else .ok (materializeRemoteTerminalReminder ⟨remote.reminderId, remote.occurrenceId, remote.intendedAtMs,
    remote.lifecycle, remote.lifecycleAtMs, remote.revision, remote.payloadFormat⟩)

end Rows

section Pages
variable (host : SyncHost)

/-- A page of the snapshot, as it is asked for and checked. -/
structure Page where
  rows : List RemoteOccurrence
  nextAfter : Option String
  deriving DecidableEq, Repr

def Page.ids (page : Page) : List String := page.rows.map (·.occurrenceId)

/-- `next_after`, where the page has one. -/
def nextCursor : Option Json → Except SyncError (Option String)
  | some .null | none => .ok none
  | some value => (validateSnapshotCursor value).map some

/-- The checks of one response, up to the first row that is stored. -/
def validatePage (after lastOccurrenceId : Option String) (response : Json) : Except SyncError Page := do
  demand (hasKeys ["occurrences", "next_after"] response = true) invalidSnapshot
  match response.member "occurrences" with
  | some (.arr occurrences) => do
    demand (occurrences.length ≤ 200) invalidSnapshot
    let nextAfter ← nextCursor (response.member "next_after")
    let rows ← occurrences.mapM (validateSnapshotRow host)
    let ids := rows.map (·.occurrenceId)
    demand (¬ (ids ≠ ids.insertionSort (· ≤ ·) ∨ ids.dedup.length ≠ ids.length ∨
      (∃ last ∈ lastOccurrenceId, ∃ first ∈ ids.head?, first ≤ last))) invalidSnapshot
    demand (¬ (after.isSome ∧ ids = [])) invalidSnapshot
    return ⟨rows, nextAfter⟩
  | _ => .error invalidSnapshot

end Pages

section Claims
variable (host : SyncHost)

inductive ClaimStatus where
  | acquired (leaseExpiresAtMs : Int)
  | held
  | terminal
  deriving DecidableEq, Repr

/-- `MIN_DELIVERY_LEASE_REMAINING_MS` and `DELIVERY_CLAIM_RETRY_MS`. -/
def minDeliveryLeaseRemainingMs : Int := 5000

def deliveryClaimRetryMs : Int := 5000

/-- `_validate_delivery_claim_response`; the clock is read for an acquired lease only. -/
def validateDeliveryClaimResponse (response : Json) (record : ReminderRow) (nowMs : Int) :
    Except SyncError ClaimStatus := do
  let required := ["occurrence_id", "revision", "lifecycle", "status"]
  demand (hasKeys required response = true ∨ hasKeys (required ++ ["lease_expires_at"]) response = true) invalidClaim
  demand (asText (response.member "occurrence_id") = some record.occurrenceId) invalidClaim
  match response.member "revision" with
  | some (.int revision) =>
    let scheduled : Except SyncError Unit := demand (revision = 1 ∧ record.revision = 1 ∧
      asText (response.member "lifecycle") = some "scheduled") invalidClaim
    match response.member "status" with
    | some (.str "acquired") => do
      demand ((response.member "lease_expires_at").isSome = true) invalidClaim
      let lease ← parseRfc3339Timestamp host (response.member "lease_expires_at")
      match lease.epochMs with
      | none => .error invalidClaim
      | some leaseExpiresAtMs => do
        demand (minDeliveryLeaseRemainingMs ≤ leaseExpiresAtMs - nowMs) invalidClaim
        scheduled
        return .acquired leaseExpiresAtMs
    | some (.str "held") => do
      demand ((response.member "lease_expires_at").isNone = true) invalidClaim
      scheduled
      return .held
    | some (.str "terminal") => do
      demand ((response.member "lease_expires_at").isNone = true) invalidClaim
      demand (asText (response.member "lifecycle") = some "cancelled" ∨
        asText (response.member "lifecycle") = some "delivered") invalidClaim
      demand (revision = 2) invalidClaim
      return .terminal
    | some (.arr _) | some (.obj _) => .error .typeError
    | _ => .error invalidClaim
  | _ => .error invalidClaim

end Claims
end PuffoAgent.Reminders
