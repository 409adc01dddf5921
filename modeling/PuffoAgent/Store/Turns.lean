import PuffoAgent.Store.Notice

/-! Turns: admission of pending rows to an active turn, and the ways a turn ends. -/
namespace PuffoAgent.Store
open Relational Stmt Sql

structure TurnRun where
  turnId : String
  providerSessionId : Option String
  state : TurnState
  messageIds : List String
  startedAt : Int
  completedAt : Option Int
  deriving DecidableEq, Repr

/-- `_exact_ids`. -/
def exactIds (messageIds : List String) : StoreM Unit := do
  raiseIf (messageIds = [] ∨ "" ∈ messageIds) (conflict "message ID set must be non-empty")
  raiseIf (¬ messageIds.Nodup) (conflict "message ID set contains duplicates")

/-- The membership rows of one turn. -/
def Tables.members (s : Tables) (turnId : String) : List TurnRunMessageRow :=
  s.turnRunMessages.select (·.turnId = turnId)

/-- `_turn_message_ids`. -/
def turnMessageIds (s : Tables) (turnId : String) : List String :=
  ((s.members turnId).insertionSort (fun a b => a.ordinal ≤ b.ordinal)).map (·.envelopeId)

/-- `_get_turn_run_unlocked`. -/
def getTurnRun (turnId : String) (s : Tables) : Option TurnRun :=
  (s.turnRuns.get? turnId).map fun r =>
    ⟨r.turnId, r.providerSessionId, r.state, turnMessageIds s turnId, r.startedAt, r.completedAt⟩

/-- `INSERT INTO turn_runs` of an active turn. -/
def insertTurnRun (turnId : String) (providerSessionId : Option String) (startedAt : Int) :
    BodyM Unit :=
  tryExec (fun s => (s.turnRuns.insert? ⟨turnId, providerSessionId, .inTurn, startedAt, none⟩).map
    fun turnRuns => { s with turnRuns }) .integrityError

/-- `UPDATE turn_runs SET f WHERE turn_id = ? AND p`, which must change one row. -/
def updateTurnRun (turnId : String) (p : TurnRunRow → Bool) (f : TurnRunRow → TurnRunRow)
    (hf : ∀ r, (f r).turnId = r.turnId) (message : String) : BodyM Unit := do
  let changed ← query fun s => (s.turnRuns.select fun r => r.turnId = turnId ∧ p r).length
  exec fun s => { s with turnRuns := s.turnRuns.update (fun r => r.turnId = turnId ∧ p r) f hf }
  raiseIf (changed ≠ 1) (conflict message)

/-- End an active turn in the given state. -/
def finishTurnRun (turnId : String) (state : TurnState) (completed : Int) (message : String) :
    BodyM Unit :=
  updateTurnRun turnId (·.state = .inTurn)
    (fun r => { r with state := state, completedAt := some completed }) (fun _ => rfl) message

/-- `UPDATE messages SET f WHERE envelope_id IN ids AND p`, with its `rowcount`. -/
def updateRows (ids : List String) (p : MessageRow → Bool) (f : MessageRow → MessageRow)
    (hf : ∀ m, (f m).envelopeId = m.envelopeId) : BodyM Nat := do
  let changed ← query (·.countMessages fun m => m.envelopeId ∈ ids ∧ p m)
  exec (·.updateMessages (fun m => m.envelopeId ∈ ids ∧ p m) f hf)
  return changed

/-- The same statement where every id must name a row that satisfies `p`. -/
def updateExactRows (ids : List String) (p : MessageRow → Bool) (f : MessageRow → MessageRow)
    (hf : ∀ m, (f m).envelopeId = m.envelopeId) (message : String) : BodyM Unit := do
  let changed ← updateRows ids p f hf
  raiseIf (changed ≠ ids.length) (conflict message)

/-- The notice a starting turn claims, when it names one and has a session. -/
def claimNotice (noticeGeneration : Option Int) (providerSessionId : Option String)
    (noticeIds : List String) : BodyM Unit :=
  match noticeGeneration, providerSessionId.filter (· ≠ "") with
  | some generation, some session => do
    let marked ← query fun s => markNoticeDeliveredUnlocked s generation.toNat session noticeIds none
    exec fun _ => marked.2
    raiseIf (¬ marked.1) (conflict "Inbox notice is stale or already claimed")
  | _, _ => return ()

def startTurnBody (turnId : String) (providerSessionId : Option String) (started : Int)
    (noticeGeneration : Option Int) (noticeIds : List String) : BodyM (Finish Unit) := do
  claimNotice noticeGeneration providerSessionId noticeIds
  insertTurnRun turnId providerSessionId started
  return .commit ()

def startTurn (turnId : String) (providerSessionId : Option String) (startedAt : Option Int)
    (noticeGeneration : Option Int) (noticeMessageIds : List String) (now : Int) :
    StoreM (Option TurnRun) := do
  raiseIf (turnId = "") (conflict "turn ID is required")
  raiseIf (noticeGeneration.any fun g => g < 0 ∨ noticeMessageIds = [] ∨ ¬ noticeMessageIds.Nodup)
    (conflict "notice claim requires valid message IDs")
  let _ ← transaction (startTurnBody turnId providerSessionId (startedAt.getD now)
    noticeGeneration noticeMessageIds)
  read (getTurnRun turnId)

def finalizeEmptyTurn (turnId : String) (state : TurnState) (now : Int) :
    StoreM (Option TurnRun) := do
  raiseIf (state = .inTurn) (conflict "invalid terminal Turn state")
  let _ ← transaction do
    let members ← query (·.members turnId)
    updateTurnRun turnId (fun r => r.state = .inTurn ∧ members = [])
      (fun r => { r with state := state, completedAt := some now }) (fun _ => rfl)
      "Turn is not active and empty"
    return .commit ()
  read (getTurnRun turnId)

def transferTurnSession (turnId : String) (fromProviderSessionId : Option String)
    (toProviderSessionId : String) : StoreM (Option TurnRun) := do
  raiseIf (turnId = "") (conflict "turn ID is required")
  raiseIf (toProviderSessionId = "") (conflict "a replacement provider session is required")
  let _ ← transaction do
    updateTurnRun turnId
      (fun r => r.state = .inTurn ∧ r.providerSessionId = fromProviderSessionId)
      (fun r => { r with providerSessionId := some toProviderSessionId }) (fun _ => rfl)
      "turn is not active under the previous provider session"
    return .commit ()
  read (getTurnRun turnId)

/-- `COALESCE(MAX(ordinal), -1) + 1` over the turn's members. -/
def nextMemberOrdinal (s : Tables) (turnId : String) : Nat :=
  (s.members turnId).foldl (fun n r => max n (r.ordinal + 1)) 0

/-- `INSERT INTO turn_run_messages`, under the primary key and `UNIQUE (turn_id, ordinal)`. -/
def Tables.insertMember? (s : Tables) (row : TurnRunMessageRow) : Option Tables :=
  if ∃ r ∈ s.turnRunMessages.rows, r.turnId = row.turnId ∧ r.ordinal = row.ordinal then none
  else (s.turnRunMessages.insert? row).map fun turnRunMessages => { s with turnRunMessages }

/-- The loop over `enumerate(ids)`. -/
def insertMembers (turnId : String) (first : Nat) : List String → BodyM Unit
  | [] => return ()
  | envelopeId :: ids => do
    tryExec (·.insertMember? ⟨turnId, envelopeId, first⟩) .integrityError
    insertMembers turnId (first + 1) ids

/-- The turn an admission joins or opens, and the ordinal of its first new member. -/
def joinTurn (ids : List String) (turnId : String) (providerSessionId : Option String)
    (visibleAt : Int) : BodyM Nat := do
  let existing ← query (·.turnRuns.get? turnId)
  match existing with
  | some run => do
    raiseIf (run.providerSessionId ≠ providerSessionId)
      (conflict "turn belongs to another provider session")
    raiseIf (run.state ≠ .inTurn) (conflict "turn is not active")
    let members ← query (·.members turnId)
    raiseIf (∃ r ∈ members, r.envelopeId ∈ ids)
      (conflict "message ID is already a member of this turn")
    query (nextMemberOrdinal · turnId)
  | none => do
    insertTurnRun turnId providerSessionId visibleAt
    return 0

/-- The row as a turn takes it. -/
def MessageRow.admitted (turnId : String) (visibleAt : Int) (m : MessageRow) : MessageRow := { m with
  processingState := some .inTurn
  processingTurnId := some turnId
  modelVisibleAt := some visibleAt }

@[simp]
theorem MessageRow.admitted_envelopeId (turnId : String) (visibleAt : Int) (m : MessageRow) :
    (m.admitted turnId visibleAt).envelopeId = m.envelopeId := rfl

def admitMessagesBody (ids : List String) (turnId : String) (providerSessionId : Option String)
    (visibleAt now : Int) : BodyM (Finish Unit) := do
  let found ← query fun s => ids.map s.messages.get?
  raiseIf (∃ row ∈ found, ¬ row.any (·.isPending))
    (conflict "every exact message ID must be pending")
  let first ← joinTurn ids turnId providerSessionId visibleAt
  insertMembers turnId first ids
  updateExactRows ids (·.isPending) (MessageRow.admitted turnId visibleAt)
    (MessageRow.admitted_envelopeId turnId visibleAt)
    "admission changed fewer rows than requested"
  exec (refreshNoticeState now none)
  return .commit ()

def admitMessages (messageIds : List String) (turnId : String) (providerSessionId : Option String)
    (modelVisibleAt : Option Int) (now : Int) : StoreM (Option TurnRun) := do
  exactIds messageIds
  raiseIf (turnId = "") (conflict "turn ID is required")
  let _ ← transaction (admitMessagesBody messageIds turnId providerSessionId
    (modelVisibleAt.getD now) now)
  read (getTurnRun turnId)

/-- The row as its turn completes it. -/
def MessageRow.completed (at_ : Int) (m : MessageRow) : MessageRow := { m with
  processingState := some .processed
  processedAt := some at_ }

@[simp]
theorem MessageRow.completed_envelopeId (at_ : Int) (m : MessageRow) : (m.completed at_).envelopeId = m.envelopeId := rfl

/-- The row as its turn sends it back, visible and for the last time. -/
def MessageRow.renoticed (m : MessageRow) : MessageRow := { m with
  processingState := some .pending
  processingTurnId := none
  processedAt := none
  renotified := true }

@[simp]
theorem MessageRow.renoticed_envelopeId (m : MessageRow) : (m.renoticed).envelopeId = m.envelopeId := rfl

/-- The row as a failed turn leaves it when somebody has covered it. -/
def MessageRow.settled (at_ : Int) (m : MessageRow) : MessageRow := { m with
  processingState := some .processed
  processingTurnId := none
  processedAt := some at_ }

@[simp]
theorem MessageRow.settled_envelopeId (at_ : Int) (m : MessageRow) : (m.settled at_).envelopeId = m.envelopeId := rfl

/-- The row as a failed turn leaves it otherwise. -/
def MessageRow.requeued (m : MessageRow) : MessageRow := { m with
  processingState := some .pending
  processingTurnId := none
  modelVisibleAt := none
  processedAt := none }

@[simp]
theorem MessageRow.requeued_envelopeId (m : MessageRow) : (m.requeued).envelopeId = m.envelopeId := rfl

/-- `_renotice_rows_unlocked`. -/
def renoticeRows (renotice : List String) (turnId : String) : BodyM Unit := do
  updateExactRows renotice (·.isInTurn turnId) MessageRow.renoticed
    MessageRow.renoticed_envelopeId
    "renotice changed fewer rows than requested"
  exec fun s => { s with
    noticeContributions := s.noticeContributions.delete (·.envelopeId ∈ renotice) }

/-- `_complete_turn_unlocked`. An empty list of ids writes nothing, so the source
skips its statement. -/
def completeTurnBody (processed renotice : List String) (turnId : String) (completed : Int)
    (providerSessionId : Option String) (now : Int) : BodyM (Finish Unit) := do
  let owner ← query (·.turnRuns.get? turnId)
  raiseIf (providerSessionId.any fun p => owner.bind (·.providerSessionId) ≠ some p)
    (conflict "turn belongs to another provider session")
  let expected ← query (turnMessageIds · turnId)
  raiseIf (expected.length ≠ (processed ++ renotice).toFinset.card ∨
      expected.toFinset ≠ (processed ++ renotice).toFinset)
    (conflict "completion IDs do not exactly match the turn")
  let inTurn ← query (·.countMessages fun m => m.envelopeId ∈ processed ++ renotice ∧
    m.isInTurn turnId)
  raiseIf (inTurn ≠ (processed ++ renotice).length)
    (conflict "every exact message ID must be in this turn")
  updateExactRows processed (·.isInTurn turnId) (MessageRow.completed completed)
    (MessageRow.completed_envelopeId completed)
    "completion changed fewer rows than requested"
  renoticeRows renotice turnId
  finishTurnRun turnId .processed completed "turn is not active"
  exec (refreshNoticeState now none)
  return .commit ()

/-- `_complete_turn_unlocked` as an operation. -/
def completeTurn (processed renotice : List String) (turnId : String) (processedAt : Option Int)
    (providerSessionId : Option String) (now : Int) : StoreM (Option TurnRun) := do
  let _ ← transaction (completeTurnBody processed renotice turnId (processedAt.getD now)
    providerSessionId now)
  read (getTurnRun turnId)

def markProcessed (messageIds : List String) (turnId : String) (processedAt : Option Int)
    (providerSessionId : Option String) (now : Int) : StoreM (Option TurnRun) := do
  exactIds messageIds
  completeTurn messageIds [] turnId processedAt providerSessionId now

def completeTurnWithRenotice (processedIds renoticeIds : List String) (turnId : String)
    (providerSessionId : Option String) (now : Int) : StoreM (Option TurnRun) := do
  if processedIds = [] then pure () else exactIds processedIds
  raiseIf (renoticeIds = []) (.valueError "renotice_ids must be non-empty; use mark_processed")
  exactIds renoticeIds
  raiseIf (∃ e ∈ processedIds, e ∈ renoticeIds) (conflict "processed and renotice ids overlap")
  completeTurn processedIds renoticeIds turnId none providerSessionId now

def completeTurnRenoticeUnrenotified (turnId : String) (providerSessionId : Option String)
    (now : Int) : StoreM (List String) := do
  let memberIds ← read (turnMessageIds · turnId)
  let unrenotified ← read fun s => s.messages.select fun m => m.envelopeId ∈ memberIds ∧ ¬ m.renotified
  let renotice := memberIds.filter (· ∈ unrenotified.map (·.envelopeId))
  let processed := memberIds.filter (· ∉ unrenotified.map (·.envelopeId))
  let _ ← completeTurn processed renotice turnId none providerSessionId now
  return renotice

/-- `_requeue_messages_unlocked`: rows somebody has covered are settled, the others
wait again. -/
def requeueMessagesBody (ids : List String) (turnId : String) (now : Int) :
    BodyM (Finish Unit) := do
  let expected ← query (turnMessageIds · turnId)
  raiseIf (expected.length ≠ ids.length ∨ expected.toFinset ≠ ids.toFinset)
    (conflict "requeue IDs do not exactly match the turn")
  let covered ← query fun s => ids.filter fun e =>
    e ∈ s.messageCovers.rows.map (·.coveredEnvelopeId)
  let settled ← updateRows (ids.filter (· ∈ covered)) (·.isInTurn turnId)
    (MessageRow.settled now) (MessageRow.settled_envelopeId now)
  let requeued ← updateRows (ids.filter (· ∉ covered)) (·.isInTurn turnId)
    MessageRow.requeued MessageRow.requeued_envelopeId
  raiseIf (settled + requeued ≠ ids.length) (conflict "every exact message ID must be in this turn")
  finishTurnRun turnId .requeued now "turn is not active"
  exec (refreshNoticeState now none)
  return .commit ()

def requeueMessages (messageIds : List String) (turnId : String) (now : Int) :
    StoreM (Option TurnRun) := do
  exactIds messageIds
  let _ ← transaction (requeueMessagesBody messageIds turnId now)
  read (getTurnRun turnId)

/-- Covered rows that the model has been shown before: `renotified = 1` or a
member of some turn. -/
def MessageRow.isShownPending (s : Tables) (m : MessageRow) : Bool :=
  m.isPending ∧ (m.renotified ∨ ∃ r ∈ s.turnRunMessages.rows, r.envelopeId = m.envelopeId)

/-- The row as a cover settles it. -/
def MessageRow.covered (now : Int) (m : MessageRow) : MessageRow := { m with
  processingState := some .processed
  processedAt := some now
  processingTurnId := none
  modelVisibleAt := m.modelVisibleAt.or (some now) }

@[simp]
theorem MessageRow.covered_envelopeId (now : Int) (m : MessageRow) : (m.covered now).envelopeId = m.envelopeId := rfl

def addMessageCoversBody (ids : List String) (source : CoverSource) (byEnvelopeId note : Option String)
    (turnId : Option String) (now : Int) : BodyM (Finish (List String × List String)) := do
  let known ← query fun s => s.messages.rows.map (·.envelopeId)
  let recorded := ids.filter (· ∈ known)
  let unknown := ids.filter (· ∉ known)
  if recorded = [] then return .commit (recorded, unknown)
  else do
    let cover (t : Table MessageCoverRow _ MessageCoverRow.key) (e : String) :=
      t.insertOrIgnore ⟨e, byEnvelopeId, source, note, turnId, now⟩
    exec fun s => { s with messageCovers := recorded.foldl cover s.messageCovers }
    exec fun s => s.updateMessages (fun m => m.envelopeId ∈ recorded ∧ m.isShownPending s)
      (MessageRow.covered now) (MessageRow.covered_envelopeId now)
    exec (refreshNoticeState now none)
    return .commit (recorded, unknown)

/-- `add_message_covers`; `CoverSource` holds exactly the sources it accepts. -/
def addMessageCovers (coveredIds : List String) (source : CoverSource)
    (byEnvelopeId note turnId : Option String) (now : Int) : StoreM (List String × List String) :=
  let ids := (coveredIds.filter (· ≠ "")).eraseDups
  if ids = [] then return ([], [])
  else transaction (addMessageCoversBody ids source byEnvelopeId note turnId now)

def setContextBaseline (spaceId channelId : String) (contextBaselineSeq : Int)
    (updatedAt : Option Int) (now : Int) : StoreM Unit := do
  raiseIf (contextBaselineSeq < 0) (.valueError "context baseline must be non-negative")
  let row : ChannelContextRow := ⟨spaceId, channelId, contextBaselineSeq, updatedAt.getD now⟩
  transaction do
    exec fun s => { s with channelContextState :=
      (s.channelContextState.delete (·.key = (spaceId, channelId))).insertOrIgnore row }
    return .commit ()

end PuffoAgent.Store
