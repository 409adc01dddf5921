import PuffoAgent.Relational.Table
import PuffoAgent.Relational.Transaction
import PuffoAgent.Text.Json

/-! The durable message store: value types, tables and the connection they live on. -/
namespace PuffoAgent.Store
open Relational Text

inductive ReceiptDisposition where
  | eligible | terminal | foreignDmGated | localRuntime
  deriving DecidableEq, Repr

inductive ProcessingState where
  | pending | inTurn | processed
  deriving DecidableEq, Repr

inductive ReceiptWriteStatus where
  | committed | idempotent | conflict
  deriving DecidableEq, Repr

structure ReceiptResult where
  status : ReceiptWriteStatus
  disposition : ReceiptDisposition
  reason : String
  acknowledge : Bool
  deriving DecidableEq, Repr

/-- `turn_runs.state`. -/
inductive TurnState where
  | inTurn | processed | requeued
  deriving DecidableEq, Repr

inductive CoverSource where
  | send | reminder | mark
  deriving DecidableEq, Repr

inductive ReminderState where
  | scheduled | claimed | cancelled | delivered
  deriving DecidableEq, Repr

inductive StoreError where
  | lifecycleConflict (message : String)
  | valueError (message : String)
  | integrityError
  deriving DecidableEq, Repr

structure MessageRow where
  envelopeId : String
  envelopeKind : String
  senderSlug : String
  channelId : Option String
  spaceId : Option String
  recipientSlug : Option String
  contentType : String
  content : String
  sentAt : Int
  receivedAt : Int
  threadRootId : Option String
  replyToId : Option String
  threadRootUnverified : Bool
  isEncrypted : Bool
  serverSeq : Option Int
  receiptDisposition : Option ReceiptDisposition
  receiptReason : Option String
  processingState : Option ProcessingState
  processingTurnId : Option String
  modelVisibleAt : Option Int
  processedAt : Option Int
  localOrdinal : Option Nat
  afterServerSeq : Option Int
  renotified : Bool
  deriving DecidableEq, Repr

structure TurnRunRow where
  turnId : String
  providerSessionId : Option String
  state : TurnState
  startedAt : Int
  completedAt : Option Int
  deriving DecidableEq, Repr

structure TurnRunMessageRow where
  turnId : String
  envelopeId : String
  ordinal : Nat
  deriving DecidableEq, Repr

structure MessageCoverRow where
  coveredEnvelopeId : String
  byEnvelopeId : Option String
  source : CoverSource
  note : Option String
  turnId : Option String
  createdAt : Int
  deriving DecidableEq, Repr

structure InboxNoticeState where
  generation : Nat
  pendingCount : Nat
  firstPendingDeadlineMs : Option Int
  lastDeliveredGeneration : Nat
  lastDeliveredProviderSessionId : Option String
  deriving DecidableEq, Repr

structure NoticeContributionRow where
  envelopeId : String
  providerSessionId : String
  deriving DecidableEq, Repr

structure ChannelContextRow where
  spaceId : String
  channelId : String
  contextBaselineSeq : Int
  updatedAt : Int
  deriving DecidableEq, Repr

structure ChannelIntroRow where
  channelId : String
  promptedAt : Int
  deriving DecidableEq, Repr

structure ReminderRow where
  reminderId : String
  occurrenceId : String
  target : String
  content : String
  intendedAtMs : Int
  state : ReminderState
  createdAtMs : Int
  claimedAtMs : Option Int := none
  actualFireAtMs : Option Int := none
  cancelledAtMs : Option Int := none
  deliveredAtMs : Option Int := none
  deliveredEventId : Option String := none
  revision : Nat
  serverAckRevision : Nat
  payloadFormat : Option String := none
  opaquePayload : Option (List UInt8) := none
  syncRetryAfterMs : Option Int := none
  syncRetryCount : Nat := 0
  syncPermanentRevision : Option Nat := none
  syncPermanentCode : Option String := none
  deliveryClaimId : Option String := none
  deliveryClaimAcquired : Bool := false
  deliveryClaimExpiresAtMs : Option Int := none
  snapshotConflict : Bool := false
  deriving DecidableEq, Repr

def TurnRunMessageRow.key (r : TurnRunMessageRow) : String × String := (r.turnId, r.envelopeId)

/-- `idx_message_covers_unique`. -/
def MessageCoverRow.key (r : MessageCoverRow) : String × String × CoverSource :=
  (r.coveredEnvelopeId, r.byEnvelopeId.getD "", r.source)

def ChannelContextRow.key (r : ChannelContextRow) : String × String := (r.spaceId, r.channelId)

structure Tables where
  messages : Table MessageRow String MessageRow.envelopeId
  turnRuns : Table TurnRunRow String TurnRunRow.turnId
  turnRunMessages : Table TurnRunMessageRow (String × String) TurnRunMessageRow.key
  messageCovers : Table MessageCoverRow (String × String × CoverSource) MessageCoverRow.key
  noticeState : InboxNoticeState
  noticeContributions : Table NoticeContributionRow String NoticeContributionRow.envelopeId
  channelContextState : Table ChannelContextRow (String × String) ChannelContextRow.key
  channelIntroPrompted : Table ChannelIntroRow String ChannelIntroRow.channelId
  nextOrdinal : Nat
  highWater : Int
  reminderOccurrences : Table ReminderRow String ReminderRow.reminderId

/-- The tables the schema script creates. -/
def Tables.empty : Tables where
  messages := .empty
  turnRuns := .empty
  turnRunMessages := .empty
  messageCovers := .empty
  noticeState := ⟨0, 0, none, 0, none⟩
  noticeContributions := .empty
  channelContextState := .empty
  channelIntroPrompted := .empty
  nextOrdinal := 1
  highWater := 0
  reminderOccurrences := .empty

/-- Store operations on the shared connection. -/
abbrev StoreM := Sql StoreError Tables

/-- Statements inside a transaction. -/
abbrev BodyM := Stmt StoreError Tables

def conflict (message : String) : StoreError := .lifecycleConflict message

/-- `_CONTENT_JSON_PREFIX`. -/
def contentJsonPrefix : String := "\x1ePUFFO_CONTENT_JSON_V1:"

def encodeContent (value : Json) : String := contentJsonPrefix ++ value.dumps

/-- `DENIED_DM_PLACEHOLDER`. -/
def deniedDmPlaceholder : String := "[message from a denied sender was discarded]"

/-- The fields of a payload that the store reads. -/
structure Payload where
  envelopeId : String
  envelopeKind : String := "channel"
  senderSlug : String := ""
  channelId : Option String := none
  spaceId : Option String := none
  recipientSlug : Option String := none
  contentType : String := "text/plain"
  content : Json := .str ""
  sentAt : Int
  threadRootId : Option String := none
  replyToId : Option String := none
  threadRootUnverified : Bool := false
  isEncrypted : Bool := true

/-- `_payload_values`, as a row whose Inbox columns are NULL. -/
def payloadValues (payload : Payload) (receivedAt : Int) : MessageRow where
  envelopeId := payload.envelopeId
  envelopeKind := payload.envelopeKind
  senderSlug := payload.senderSlug
  channelId := payload.channelId
  spaceId := payload.spaceId
  recipientSlug := payload.recipientSlug
  contentType := payload.contentType
  content := encodeContent payload.content
  sentAt := payload.sentAt
  receivedAt := receivedAt
  threadRootId := payload.threadRootId
  replyToId := payload.replyToId
  threadRootUnverified := payload.threadRootUnverified
  isEncrypted := payload.isEncrypted
  serverSeq := none
  receiptDisposition := none
  receiptReason := none
  processingState := none
  processingTurnId := none
  modelVisibleAt := none
  processedAt := none
  localOrdinal := none
  afterServerSeq := none
  renotified := false

/-- Rows the model has still to be shown. -/
def MessageRow.isPending (m : MessageRow) : Bool := m.processingState = some .pending

/-- Rows owned by the turn `turnId`. -/
def MessageRow.isInTurn (m : MessageRow) (turnId : String) : Bool :=
  m.processingState = some .inTurn ∧ m.processingTurnId = some turnId

/-- `INSERT INTO messages`, under the primary key and `idx_messages_server_seq_unique`. -/
def Tables.insertMessage? (s : Tables) (row : MessageRow) : Option Tables :=
  if row.serverSeq.isSome ∧ ∃ m ∈ s.messages.rows, m.serverSeq = row.serverSeq then none
  else (s.messages.insert? row).map fun messages => { s with messages }

def insertMessage (row : MessageRow) : BodyM Unit :=
  Stmt.tryExec (·.insertMessage? row) .integrityError

/-- `UPDATE messages SET f WHERE p`. -/
def Tables.updateMessages (s : Tables) (p : MessageRow → Bool) (f : MessageRow → MessageRow)
    (hf : ∀ m, (f m).envelopeId = m.envelopeId) : Tables :=
  { s with messages := s.messages.update p f hf }

/-- `rowcount` of the same statement. -/
def Tables.countMessages (s : Tables) (p : MessageRow → Bool) : Nat := (s.messages.select p).length

end PuffoAgent.Store
