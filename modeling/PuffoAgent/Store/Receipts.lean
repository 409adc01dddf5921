import PuffoAgent.Store.Notice

/-! Receipt persistence: classified receipts, sequence back-fill, gate promotion
and denial, daemon-local events, quarantine and retention. -/
namespace PuffoAgent.Store
open Relational Stmt Sql

/-- `_receipt_ack`. -/
def receiptAck (disposition : ReceiptDisposition) : Bool :=
  disposition = .eligible ∨ disposition = .terminal

/-- `_advance_server_sequence_high_water`. -/
def advanceServerSequenceHighWater (serverSeq : Int) (s : Tables) : Tables :=
  { s with highWater := max s.highWater serverSeq }

/-- The position `_allocate_local_position` hands out. -/
def localPosition (s : Tables) : Nat × Option Int :=
  (s.nextOrdinal, if 0 < s.highWater then some s.highWater else none)

/-- `_allocate_local_position`. -/
def allocateLocalPosition : BodyM (Nat × Option Int) := do
  let position ← query localPosition
  exec fun s => { s with nextOrdinal := position.1 + 1 }
  return position

/-- SQL `=` between nullable texts: NULL equals nothing. -/
def sqlEq (a b : Option String) : Bool := a.isSome ∧ a = b

/-- A Python text that is neither `None` nor empty. -/
def truthy (a : Option String) : Bool := a.any (· ≠ "")

/-- Replies that claim `root` and have not been checked against it. -/
def claims (root : String) (m : MessageRow) : Bool :=
  m.threadRootUnverified ∧ m.threadRootId = some root

/-- Both participants of `m` appear among those of `root`. -/
def sameConversation (root m : MessageRow) : Bool :=
  m.envelopeKind = "dm" ∧ (m.senderSlug = root.senderSlug ∨ some m.senderSlug = root.recipientSlug) ∧
    (m.recipientSlug = some root.senderSlug ∨ sqlEq m.recipientSlug root.recipientSlug)

def withVerifiedRoot (m : MessageRow) : MessageRow := { m with threadRootUnverified := false }

/-- The claimed root is itself a reply: claim its own root instead. -/
def rerooted (values m : MessageRow) : MessageRow := { m with
  threadRootId := values.threadRootId, threadRootUnverified := values.threadRootUnverified }

/-- The first statement of `_settle_unverified_thread_claims`: the replies that
claimed the row that has just arrived and share its conversation. -/
def checkThreadClaims (values : MessageRow) (s : Tables) : Tables :=
  if values.envelopeKind = "channel" ∧ ¬ truthy values.threadRootId then
    s.updateMessages (fun m => claims values.envelopeId m ∧ sqlEq m.channelId values.channelId ∧
      (m.spaceId.isNone ∨ values.spaceId.isNone ∨ m.spaceId = values.spaceId))
      withVerifiedRoot (fun _ => rfl)
  else if values.envelopeKind = "channel" then
    s.updateMessages (fun m => claims values.envelopeId m ∧ sqlEq m.channelId values.channelId)
      (rerooted values) (fun _ => rfl)
  else if values.envelopeKind = "dm" ∧ ¬ truthy values.threadRootId then
    s.updateMessages (fun m => claims values.envelopeId m ∧ sameConversation values m)
      withVerifiedRoot (fun _ => rfl)
  else if values.envelopeKind = "dm" then
    s.updateMessages (fun m => claims values.envelopeId m ∧ sameConversation values m)
      (rerooted values) (fun _ => rfl)
  else s

/-- `_settle_unverified_thread_claims`: the claims that are left are wiped. -/
def settleUnverifiedThreadClaims (values : MessageRow) (s : Tables) : Tables :=
  (checkThreadClaims values s).updateMessages (claims values.envelopeId)
    (fun m => { m with threadRootId := none, threadRootUnverified := false }) (fun _ => rfl)

/-- `_backfill_missing_sequence`. -/
def backfillMissingSequence (envelopeId : String) (serverSeq : Int)
    (disposition : ReceiptDisposition) (reason : String) (byId : MessageRow)
    (bySeq : Option MessageRow) : BodyM (Finish ReceiptResult) :=
  if bySeq.any (·.envelopeId ≠ envelopeId) then
    return .rollback ⟨.conflict, disposition, "server sequence belongs to another envelope", false⟩
  else if byId.receiptDisposition = some .localRuntime ∧ byId.processingState.isSome ∧
      disposition = .eligible then do
    let changed ← query (·.countMessages fun m => m.envelopeId = envelopeId ∧
      m.serverSeq.isNone ∧ m.receiptDisposition = some .localRuntime)
    exec (·.updateMessages (fun m => m.envelopeId = envelopeId ∧ m.serverSeq.isNone ∧
        m.receiptDisposition = some .localRuntime)
      (fun m => { m with
        serverSeq := some serverSeq
        receiptDisposition := some .eligible
        receiptReason := some reason
        localOrdinal := none
        afterServerSeq := none }) (fun _ => rfl))
    raiseIf (changed ≠ 1) (conflict "local receipt promotion lost its association")
    exec (advanceServerSequenceHighWater serverSeq)
    return .commit ⟨.committed, .eligible, reason, true⟩
  else if byId.receiptDisposition = none ∧ byId.processingState = none ∧
      disposition = .foreignDmGated then do
    exec (·.updateMessages (fun m => m.envelopeId = envelopeId ∧ m.serverSeq.isNone ∧
        m.receiptDisposition.isNone ∧ m.processingState.isNone)
      (fun m => { m with
        serverSeq := some serverSeq
        receiptDisposition := some disposition
        receiptReason := some reason }) (fun _ => rfl))
    exec (advanceServerSequenceHighWater serverSeq)
    return .commit ⟨.committed, disposition, reason, false⟩
  else do
    exec (·.updateMessages (fun m => m.envelopeId = envelopeId ∧ m.serverSeq.isNone)
      (fun m => { m with serverSeq := some serverSeq }) (fun _ => rfl))
    exec (advanceServerSequenceHighWater serverSeq)
    return .commit ⟨.committed, disposition,
      "legacy sequence backfilled without Inbox activation", receiptAck disposition⟩

/-- `_persist_existing_receipt`, for an envelope that already has a row. -/
def persistExistingReceipt (envelopeId : String) (serverSeq : Int)
    (disposition : ReceiptDisposition) (reason : String) (byId : MessageRow)
    (bySeq : Option MessageRow) : BodyM (Finish ReceiptResult) :=
  if byId.serverSeq = none then
    backfillMissingSequence envelopeId serverSeq disposition reason byId bySeq
  else if byId.serverSeq ≠ some serverSeq then
    return .rollback ⟨.conflict, disposition, "envelope id belongs to another server sequence", false⟩
  else
    let stored := byId.receiptDisposition.getD disposition
    return .rollback ⟨.idempotent, stored, (byId.receiptReason.filter (· ≠ "")).getD reason,
      receiptAck stored⟩

/-- `_insert_new_receipt`. -/
def insertNewReceipt (values : MessageRow) (serverSeq : Int) (disposition : ReceiptDisposition)
    (reason : String) (now : Int) : BodyM (Finish ReceiptResult) := do
  insertMessage { values with
    serverSeq := some serverSeq
    receiptDisposition := some disposition
    receiptReason := some reason
    processingState := if disposition = .eligible then some .pending else none }
  exec (settleUnverifiedThreadClaims values)
  exec (advanceServerSequenceHighWater serverSeq)
  exec (fun s => if disposition = .eligible then refreshNoticeState now (some values.receivedAt) s
    else s)
  return .commit ⟨.committed, disposition, reason, receiptAck disposition⟩

def storeReceiptBody (payload : Payload) (serverSeq : Int) (disposition : ReceiptDisposition)
    (reason : String) (receivedAt now : Int) : BodyM (Finish ReceiptResult) := do
  let byId ← query (·.messages.get? payload.envelopeId)
  let bySeq ← query fun s => s.messages.rows.find? (·.serverSeq = some serverSeq)
  match byId with
  | some row => persistExistingReceipt payload.envelopeId serverSeq disposition reason row bySeq
  | none =>
    if bySeq.isSome then
      return .rollback ⟨.conflict, disposition, "server sequence belongs to another envelope", false⟩
    else insertNewReceipt (payloadValues payload receivedAt) serverSeq disposition reason now

def storeReceipt (payload : Payload) (serverSeq : Int) (disposition : ReceiptDisposition)
    (reason : String) (receivedAt now : Int) : StoreM ReceiptResult := do
  raiseIf (serverSeq ≤ 0) (.valueError "server_seq must be a positive integer")
  raiseIf (payload.envelopeId = "") (.valueError "payload must contain a non-empty envelope_id")
  transaction (storeReceiptBody payload serverSeq disposition reason receivedAt now)

/-- `_classify_existing_local_row`. -/
def classifyExistingLocalRow (existing : MessageRow) (envelopeId : String)
    (disposition : ReceiptDisposition) (reason : String) : BodyM (Finish ReceiptResult) :=
  if existing.serverSeq.isSome then
    return .rollback ⟨.conflict, disposition, "envelope already owns a server sequence", false⟩
  else match existing.receiptDisposition with
    | none => do
      exec (·.updateMessages (fun m => m.envelopeId = envelopeId ∧ m.serverSeq.isNone ∧
          m.receiptDisposition.isNone)
        (fun m => { m with
          receiptDisposition := some disposition, receiptReason := some reason }) (fun _ => rfl))
      return .commit ⟨.committed, disposition, reason, receiptAck disposition⟩
    | some stored =>
      return .rollback ⟨.idempotent, stored, (existing.receiptReason.filter (· ≠ "")).getD reason,
        receiptAck stored⟩

/-- Terminal receipts take a local position; gated ones get theirs when released. -/
def receiptPosition (disposition : ReceiptDisposition) : BodyM (Option Nat × Option Int) :=
  if disposition = .terminal then do
    let position ← allocateLocalPosition
    return (some position.1, position.2)
  else return (none, none)

def storeLocalReceiptBody (payload : Payload) (disposition : ReceiptDisposition)
    (reason : String) (receivedAt : Int) : BodyM (Finish ReceiptResult) := do
  let existing ← query (·.messages.get? payload.envelopeId)
  match existing with
  | some row => classifyExistingLocalRow row payload.envelopeId disposition reason
  | none => do
    let position ← receiptPosition disposition
    insertMessage { payloadValues payload receivedAt with
      receiptDisposition := some disposition
      receiptReason := some reason
      localOrdinal := position.1
      afterServerSeq := position.2 }
    return .commit ⟨.committed, disposition, reason, receiptAck disposition⟩

def storeLocalReceipt (payload : Payload) (disposition : ReceiptDisposition) (reason : String)
    (receivedAt : Int) : StoreM ReceiptResult := do
  raiseIf (disposition ≠ .terminal ∧ disposition ≠ .foreignDmGated) (.valueError
    "sequence-less receipts carry a terminal or gated disposition; an admitted one is a local event")
  raiseIf (payload.envelopeId = "") (.valueError "payload must contain a non-empty envelope_id")
  transaction (storeLocalReceiptBody payload disposition reason receivedAt)

def associationMismatch : ReceiptResult :=
  ⟨.conflict, .foreignDmGated, "gated receipt association mismatch", false⟩

def notApprovalGated : ReceiptResult :=
  ⟨.conflict, .foreignDmGated, "receipt is not approval-gated", false⟩

/-- A receipt that still waits for the operator. -/
def MessageRow.isGated (m : MessageRow) : Bool :=
  m.receiptDisposition = some .foreignDmGated ∧ m.processingState.isNone

/-- `_promote_local_gated_row`. -/
def promoteLocalGatedRow (row : Option MessageRow) (envelopeId reason : String)
    (replacement : Option (String × String)) (now : Int) : BodyM (Finish ReceiptResult) :=
  match row with
  | none => return .rollback associationMismatch
  | some row =>
    if row.serverSeq.isSome then return .rollback associationMismatch
    else if row.receiptDisposition = some .localRuntime ∧ row.processingState = some .pending then
      return .rollback ⟨.idempotent, .localRuntime, reason, true⟩
    else if ¬ row.isGated then return .rollback notApprovalGated
    else do
      let position ← allocateLocalPosition
      let body := replacement.getD (row.contentType, row.content)
      exec (·.updateMessages (fun m => m.envelopeId = envelopeId ∧ m.serverSeq.isNone ∧ m.isGated)
        (fun m => { m with
          receiptDisposition := some .localRuntime
          receiptReason := some reason
          processingState := some .pending
          localOrdinal := some position.1
          afterServerSeq := position.2
          contentType := body.1
          content := body.2 }) (fun _ => rfl))
      exec (refreshNoticeState now (some row.receivedAt))
      return .commit ⟨.committed, .localRuntime, reason, true⟩

/-- `_promote_gated_receipt_unlocked`, for a row that has a server sequence. -/
def promoteSequencedRow (row : Option MessageRow) (envelopeId : String) (serverSeq : Int)
    (reason : String) (replacement : Option (String × String)) (now : Int) : BodyM (Finish ReceiptResult) :=
  match row with
  | none => return .rollback associationMismatch
  | some row =>
    if row.serverSeq ≠ some serverSeq then return .rollback associationMismatch
    else if row.receiptDisposition = some .eligible ∧ row.processingState = some .pending then
      return .rollback ⟨.idempotent, .eligible, reason, true⟩
    else if ¬ row.isGated then return .rollback notApprovalGated
    else do
      let body := replacement.getD (row.contentType, row.content)
      exec (·.updateMessages (fun m => m.envelopeId = envelopeId ∧ m.serverSeq = some serverSeq ∧
          m.isGated)
        (fun m => { m with
          receiptDisposition := some .eligible
          receiptReason := some reason
          processingState := some .pending
          contentType := body.1
          content := body.2 }) (fun _ => rfl))
      exec (refreshNoticeState now none)
      return .commit ⟨.committed, .eligible, reason, true⟩

def promoteGatedReceiptBody (envelopeId : String) (serverSeq : Option Int) (reason : String)
    (replacement : Option (String × String)) (now : Int) : BodyM (Finish ReceiptResult) := do
  let row ← query (·.messages.get? envelopeId)
  match serverSeq with
  | none => promoteLocalGatedRow row envelopeId reason replacement now
  | some seq => promoteSequencedRow row envelopeId seq reason replacement now

def promoteGatedReceipt (envelopeId : String) (serverSeq : Option Int) (reason : String)
    (approvedPayload : Option Payload) (now : Int) : StoreM ReceiptResult := do
  raiseIf (approvedPayload.any (·.envelopeId ≠ envelopeId))
    (.valueError "approved payload belongs to another envelope")
  transaction (promoteGatedReceiptBody envelopeId serverSeq reason
    (approvedPayload.map fun p => (p.contentType, encodeContent p.content)) now)

/-- `_insert_local_event_in_transaction`. -/
def insertLocalEventInTransaction (values : MessageRow) (reason : String) (now : Int) :
    BodyM Unit := do
  let position ← allocateLocalPosition
  insertMessage { values with
    receiptDisposition := some .localRuntime
    receiptReason := some reason
    processingState := some .pending
    localOrdinal := some position.1
    afterServerSeq := position.2 }
  exec (refreshNoticeState now (some values.receivedAt))

/-- The introduction marker and the insertion of `_store_local_event_unlocked`. -/
def insertIntroducedEvent (values : MessageRow) (reason : String) (introChannelId : Option String)
    (now : Int) : BodyM (Finish Unit) :=
  match introChannelId.filter (· ≠ "") with
  | none => do
    insertLocalEventInTransaction values reason now
    return .commit ()
  | some channelId => do
    let marked ← query (·.channelIntroPrompted.get? channelId)
    exec fun s => { s with
      channelIntroPrompted := s.channelIntroPrompted.insertOrIgnore ⟨channelId, now⟩ }
    if marked.isSome then do
      let existing ← query (·.messages.get? values.envelopeId)
      raiseIf (existing.bind (·.receiptDisposition) ≠ some .localRuntime)
        (conflict "introduction marker already belongs to another local event")
      return .rollback ()
    else do
      insertLocalEventInTransaction values reason now
      return .commit ()

def storeLocalEventBody (values : MessageRow) (reason : String) (introChannelId : Option String)
    (idempotent : Bool) (now : Int) : BodyM (Finish Unit) := do
  let existing ← query (·.messages.get? values.envelopeId)
  if idempotent ∧ existing.isSome then do
    raiseIf (existing.any fun m => m.receiptDisposition ≠ some .localRuntime ∨
      m.receiptReason ≠ some reason ∨ m.content ≠ values.content)
      (conflict "local event id already has different content")
    return .rollback ()
  else insertIntroducedEvent values reason introChannelId now

def storeLocalEvent (payload : Payload) (reason : String) (introChannelId : Option String)
    (receivedAt : Int) (idempotent : Bool) (now : Int) : StoreM (Option MessageRow) := do
  raiseIf (payload.envelopeId = "") (.valueError "payload must contain a non-empty envelope_id")
  let _ ← transaction
    (storeLocalEventBody (payloadValues payload receivedAt) reason introChannelId idempotent now)
  read (·.messages.get? payload.envelopeId)

/-- The tombstone both denials write over a refused body. -/
def denied (m : MessageRow) : MessageRow := { m with
  content := encodeContent (.str deniedDmPlaceholder)
  contentType := "text/plain"
  receiptDisposition := some .terminal
  receiptReason := some "foreign dm denied by operator" }

def tombstoneGatedDmsFrom (senderSlug : String) : StoreM Nat :=
  if senderSlug = "" then return 0
  else transaction do
    let count ← query (·.countMessages fun m => m.envelopeKind = "dm" ∧
      m.senderSlug = senderSlug ∧ m.receiptDisposition = some .foreignDmGated)
    exec (·.updateMessages (fun m => m.envelopeKind = "dm" ∧ m.senderSlug = senderSlug ∧
      m.receiptDisposition = some .foreignDmGated) denied (fun _ => rfl))
    return .commit count

def tombstoneGatedDmBody (envelopeId : String) (serverSeq : Option Int) : BodyM (Finish ReceiptResult) := do
  let row ← query (·.messages.get? envelopeId)
  match row with
  | none => return .rollback associationMismatch
  | some row =>
    if row.serverSeq ≠ serverSeq then return .rollback associationMismatch
    else if row.receiptDisposition = some .terminal ∧
        row.content = encodeContent (.str deniedDmPlaceholder) then
      return .rollback ⟨.idempotent, .terminal, "foreign dm denied by operator", true⟩
    else if ¬ row.isGated then return .rollback notApprovalGated
    else do
      exec (·.updateMessages (fun m => m.envelopeId = envelopeId ∧ m.isGated ∧
        m.serverSeq = serverSeq) denied (fun _ => rfl))
      return .commit ⟨.committed, .terminal, "foreign dm denied by operator", true⟩

def tombstoneGatedDm (envelopeId : String) (serverSeq : Option Int) : StoreM ReceiptResult :=
  transaction (tombstoneGatedDmBody envelopeId serverSeq)

/-- Rows that retention may delete once they are older than `cutoff`. -/
def MessageRow.isExpired (m : MessageRow) (cutoff : Int) : Bool :=
  m.receivedAt < cutoff ∧ (m.processingState.isNone ∨ m.processingState = some .processed) ∧
    m.receiptDisposition ≠ some .foreignDmGated

def cleanup (retentionDays now : Int) : StoreM Nat :=
  transaction do
    let cutoff := now - retentionDays * 86400000
    let count ← query (·.countMessages (·.isExpired cutoff))
    exec fun s => { s with messages := s.messages.delete (·.isExpired cutoff) }
    return .commit count

def quarantinePending (envelopeId reason : String) (now : Int) : StoreM Bool :=
  transaction do
    let changed ← query (·.countMessages fun m => m.envelopeId = envelopeId ∧ m.isPending)
    exec (·.updateMessages (fun m => m.envelopeId = envelopeId ∧ m.isPending)
      (fun m => { m with
        receiptDisposition := some .terminal
        receiptReason := some reason
        processingState := none
        processingTurnId := none
        modelVisibleAt := none }) (fun _ => rfl))
    exec fun s => if changed = 1 then refreshNoticeState now none s else s
    return .commit (changed = 1)

/-- `store`: an unclassified row. The insertion names no `thread_root_unverified`. -/
def store (payload : Payload) (receivedAt : Int) : StoreM Unit :=
  transaction do
    let row := { payloadValues payload receivedAt with threadRootUnverified := false }
    exec fun s => { s with messages := s.messages.insertOrIgnore row }
    return .commit ()

end PuffoAgent.Store
