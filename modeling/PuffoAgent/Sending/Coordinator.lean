import PuffoAgent.Sending.Request
import PuffoAgent.Relational.Table
import PuffoAgent.Machine.Run

/-! The send coordinator as a machine of concurrent sends. A step runs one send from one
`await` to the next; what the send awaited is part of the step. -/
namespace PuffoAgent.Sending
open Relational Text

/-- `(provider session, turn, space, channel)`. -/
structure HeldKey where
  sessionId : String
  turnId : String
  spaceId : String
  channelId : String
  deriving DecidableEq, Repr

/-- `_HeldEvidence`, without the context that is only shown to the model. -/
structure HeldEvidence where
  key : HeldKey
  latestSeq : Int
  latestEnvelopeId : String
  synchronized : Bool := false
  attemptFingerprint : String
  contentDigest : String
  deriving DecidableEq, Repr

/-- `_HeldRecoveryAttempt`. -/
structure HeldRecoveryAttempt where
  key : HeldKey
  latestSeq : Int
  latestEnvelopeId : String
  attemptFingerprint : String
  deriving DecidableEq, Repr

/-- `_ReconsiderationDecision`, when it is eligible. -/
structure ReconsiderationDecision where
  sessionId : String
  turnId : String
  latestSeq : Int
  latestEnvelopeId : String
  admittedSeq : Int
  deriving DecidableEq, Repr

/-- A row of `query_held_messages`, as far as the recovery reads it. -/
structure RecoveredRow where
  envelopeId : Option String
  serverSeq : Option Int
  latestSeq : Option Int
  latestEnvelopeId : Option String
  providerSessionId : Option String
  deriving DecidableEq, Repr

/-- How far a recovery has come. -/
inductive RecoveryPhase where
  | matching | waiting | rematching | querying | committing
  deriving DecidableEq, Repr

structure Recovery where
  attempt : HeldRecoveryAttempt
  phase : RecoveryPhase
  deriving DecidableEq, Repr

/-- What the transport answered. -/
inductive Response where
  | sent (missingDevices : Bool)
  | held (latestSeq : Option Int) (latestEnvelopeId : Option String)
  | formatMismatch (policyChanged : Bool)
  | failed
  deriving DecidableEq, Repr

/-- Where a send is suspended. -/
inductive Phase where
  | resolving
  | snapshotting (sessionId turnId : String)
  | recovering (sessionId turnId : String) (heldPair : Int × String) (recovery : Recovery)
  | confirming (sessionId turnId : String) (heldPair : Int × String)
  | grading (sessionId turnId : String) (synchronized : Bool) (currentPair heldPair : Int × String)
  | ready (heldKey : HeldKey) (reconsideration : Option ReconsiderationDecision)
      (posted retried : Bool)
  | recording (heldKey : HeldKey) (latestSeq : Option Int) (latestEnvelopeId : Option String)
  | consuming (heldKey : HeldKey) (reconsideration : Option ReconsiderationDecision)
      (missingDevices : Bool)
  | supplementing (heldKey : HeldKey) (reconsideration : Option ReconsiderationDecision)
  | recorded (latestSeq : Option Int) (latestEnvelopeId : Option String)
  | catchingUp (recovery : Recovery)
  | finished
  deriving DecidableEq, Repr

structure Send where
  id : Nat
  request : SemanticSendRequest
  spaceId : String
  keyless : Bool
  heldGeneration : Nat
  materialized : Materialized
  phase : Phase
  deriving DecidableEq, Repr

def Send.channelId (send : Send) : String := send.request.destination

/-- The channel lock covers a send up to its answer. The native lane recovers, and reaches
devices it missed, after it has released the lock. -/
def Send.holdsLock (send : Send) : Bool :=
  match send.phase with
  | .finished => false
  | .supplementing _ _ => false
  | .catchingUp _ => send.keyless
  | _ => true

structure ActiveTurn where
  turnId : String
  providerSessionId : String
  deriving DecidableEq, Repr

structure Coordinator where
  providerSessionId : Option String
  active : Option ActiveTurn
  held : Table HeldEvidence HeldKey HeldEvidence.key
  heldGeneration : Nat
  admitted : String × String → Option Int
  sends : Table Send Nat Send.id

/-- A coordinator that has sent nothing yet. -/
def Coordinator.idle : Coordinator := ⟨none, none, .empty, 0, fun _ => none, .empty⟩

/-- `_MAX_HELD_RECORDS`. -/
def maxHeldRecords : Nat := 8

namespace Coordinator

def configuredSession (c : Coordinator) : String := c.providerSessionId.getD ""

def activeSession (c : Coordinator) : String := (c.active.map (·.providerSessionId)).getD ""

def activeTurnId (c : Coordinator) : String := (c.active.map (·.turnId)).getD ""

/-- `_turn_identity`. -/
def turnIdentity (c : Coordinator) : String × String :=
  if c.configuredSession ≠ "" ∧ c.activeSession ≠ "" ∧ c.configuredSession ≠ c.activeSession then
    ("", c.activeTurnId)
  else (if c.configuredSession ≠ "" then c.configuredSession else c.activeSession, c.activeTurnId)

/-- `_normalize_admitted` of what the boundary source answers. -/
def admittedSeq (c : Coordinator) (spaceId channelId : String) : Option Int :=
  (c.admitted (spaceId, channelId)).filter (0 ≤ ·)

section Evidence

/-- Only the records of the current turn, when there is one. -/
def currentTurnHeld (c : Coordinator) : Table HeldEvidence HeldKey HeldEvidence.key :=
  if c.turnIdentity.1 ≠ "" ∧ c.turnIdentity.2 ≠ "" then
    c.held.delete fun e => (e.key.sessionId, e.key.turnId) ≠ c.turnIdentity
  else c.held

/-- `_prune_stale_held_locked`. -/
def prune (c : Coordinator) : Coordinator :=
  { c with held := c.currentTurnHeld.evict maxHeldRecords }

/-- The newest attempt owns the record. -/
def supersedes (fresh : HeldEvidence) : Option HeldEvidence → Bool
  | none => true
  | some old => fresh.latestSeq > old.latestSeq ∨ (fresh.latestSeq = old.latestSeq ∧
      fresh.latestEnvelopeId ≠ old.latestEnvelopeId) ∨
      fresh.attemptFingerprint ≠ old.attemptFingerprint

/-- `_record_held`. -/
def recordHeld (c : Coordinator) (fresh : HeldEvidence) (heldGeneration : Nat) : Coordinator :=
  if heldGeneration ≠ c.heldGeneration then c
  else prune (if supersedes fresh (c.held.get? fresh.key) then
    { c with held := (c.held.delete (·.key = fresh.key)).insertOrIgnore fresh } else c)

/-- `_consume_held`. -/
def consumeHeld (c : Coordinator) (key : HeldKey) : Coordinator :=
  prune { c with held := c.held.delete (·.key = key) }

/-- `discard_held_evidence`. -/
def discardHeldEvidence (c : Coordinator) : Coordinator :=
  { c with heldGeneration := c.heldGeneration + 1, held := .empty }

/-- `_held_evidence_matches`. -/
def heldEvidenceMatches (c : Coordinator) (attempt : HeldRecoveryAttempt) : Bool :=
  (c.held.get? attempt.key).any fun e => e.latestSeq = attempt.latestSeq ∧
    e.latestEnvelopeId = attempt.latestEnvelopeId ∧
    e.attemptFingerprint = attempt.attemptFingerprint

/-- `_commit_held_recovery`. -/
def commitHeldRecovery (c : Coordinator) (attempt : HeldRecoveryAttempt) : Coordinator :=
  if c.heldEvidenceMatches attempt then
    { c with
      held := c.held.update (fun e => e.key = attempt.key)
        (fun e => { e with synchronized := true }) (fun _ => rfl) }
  else c

end Evidence

section Recovery

/-- `_begin_held_recovery`, up to its first look at the evidence. -/
def beginHeldRecovery (c : Coordinator) (spaceId channelId : String) (latestSeq : Option Int)
    (latestEnvelopeId : Option String) (attemptFingerprint : String) : Option HeldRecoveryAttempt :=
  match latestSeq, latestEnvelopeId with
  | some seq, some envelopeId =>
    if envelopeId = "" ∨ c.turnIdentity.1 = "" ∨ c.turnIdentity.2 = "" then none
    else some ⟨⟨c.turnIdentity.1, c.turnIdentity.2, spaceId, channelId⟩, seq, envelopeId,
      attemptFingerprint⟩
  | _, _ => none

/-- `_held_rows_are_synchronized`. -/
def heldRowsAreSynchronized (rows : List RecoveredRow) (attempt : HeldRecoveryAttempt) : Bool :=
  rows.any fun row => row.envelopeId = some attempt.latestEnvelopeId ∧
    row.serverSeq = some attempt.latestSeq ∧ row.latestSeq = some attempt.latestSeq ∧
    row.latestEnvelopeId = some attempt.latestEnvelopeId ∧
    row.providerSessionId = some attempt.key.sessionId

end Recovery

section Steps

/-- What a suspended send is resumed with. -/
inductive Input where
  | materialized (files : Option Materialized)
  | go
  | waited (delivered : Bool)
  | rows (rows : Option (List RecoveredRow))
  | post
  | response (response : Response)
  deriving DecidableEq, Repr

def setSend (c : Coordinator) (send : Send) : Coordinator :=
  { c with
    sends := c.sends.update (fun t => t.id = send.id) (fun t => { send with id := t.id })
      (fun _ => rfl) }

/-- Where `_recover_held` is suspended next; `none` when it is over. -/
def resumeRecovery (c : Coordinator) (recovery : Recovery) (input : Input) : Option Recovery :=
  match recovery.phase, input with
  | .matching, .go =>
    if c.heldEvidenceMatches recovery.attempt then some { recovery with phase := .waiting } else none
  | .waiting, .waited delivered =>
    if delivered then some { recovery with phase := .rematching } else none
  | .rematching, .go =>
    if c.heldEvidenceMatches recovery.attempt then some { recovery with phase := .querying } else none
  | .querying, .rows rows =>
    if c.providerSessionId.isSome ∧ rows.any (heldRowsAreSynchronized · recovery.attempt) ∧
        c.turnIdentity = (recovery.attempt.key.sessionId, recovery.attempt.key.turnId) then
      some { recovery with phase := .committing } else none
  | .committing, .go => none
  | _, _ => some recovery

/-- A recovery writes the evidence only in its last step. -/
def recoveryWrites (c : Coordinator) (recovery : Recovery) (input : Input) : Coordinator :=
  if recovery.phase = .committing ∧ input = .go then c.commitHeldRecovery recovery.attempt else c

/-- `_held_draft_reason`: the record is not for exactly this draft. -/
def draftMismatch (sha : Sha256) (send : Send) (held : HeldEvidence) : Bool :=
  held.attemptFingerprint ≠ send.request.attemptFingerprint sha ∨
    (held.contentDigest ≠ "" ∧ held.contentDigest ≠ contentDigest sha send.materialized)

/-- The boundary of a send that needs no reconsideration, or could not be resolved. -/
def resolveSend (c : Coordinator) (send : Send) (files : Option Materialized) : Send :=
  match files with
  | none => { send with phase := .finished }
  | some materialized =>
    if materialized.length ≠ send.request.attachmentPaths.length then { send with phase := .finished }
    else if ¬ send.request.sendAnyway then { send with
      materialized := materialized
      phase := .ready ⟨c.turnIdentity.1, c.turnIdentity.2, send.spaceId, send.channelId⟩ none
        false false }
    else if c.turnIdentity.1 = "" ∨ c.turnIdentity.2 = "" then { send with phase := .finished }
    else { send with
      materialized := materialized
      phase := .snapshotting c.turnIdentity.1 c.turnIdentity.2 }

/-- The first snapshot of `_reconsideration_decision`, and the start of its recovery. -/
def snapshotSend (sha : Sha256) (c : Coordinator) (send : Send) (sessionId turnId : String) : Send :=
  match c.held.get? ⟨sessionId, turnId, send.spaceId, send.channelId⟩ with
  | none => { send with phase := .finished }
  | some held =>
    if draftMismatch sha send held then { send with phase := .finished }
    else if held.synchronized then { send with
      phase := .confirming sessionId turnId (held.latestSeq, held.latestEnvelopeId) }
    else match c.beginHeldRecovery send.spaceId send.channelId (some held.latestSeq)
        (some held.latestEnvelopeId) (send.request.attemptFingerprint sha) with
      | none => { send with
          phase := .confirming sessionId turnId (held.latestSeq, held.latestEnvelopeId) }
      | some attempt => { send with
          phase := .recovering sessionId turnId (held.latestSeq, held.latestEnvelopeId)
            ⟨attempt, .matching⟩ }

/-- The second snapshot. -/
def confirmSend (sha : Sha256) (c : Coordinator) (send : Send) (sessionId turnId : String)
    (heldPair : Int × String) : Send :=
  match c.held.get? ⟨sessionId, turnId, send.spaceId, send.channelId⟩ with
  | none => { send with phase := .finished }
  | some held =>
    if draftMismatch sha send held then { send with phase := .finished }
    else { send with
      phase := .grading sessionId turnId held.synchronized (held.latestSeq, held.latestEnvelopeId)
        heldPair }

/-- `_admission_verdict`, and the boundary that an eligible decision gives. -/
def gradeSend (c : Coordinator) (send : Send) (sessionId turnId : String) (synchronized : Bool)
    (currentPair : Int × String) : Send :=
  match c.admittedSeq send.spaceId send.channelId with
  | none => { send with phase := .finished }
  | some admitted =>
    if ¬ synchronized ∨ admitted < currentPair.1 ∨ c.turnIdentity ≠ (sessionId, turnId) then
      { send with phase := .finished }
    else { send with
      phase := .ready ⟨c.turnIdentity.1, c.turnIdentity.2, send.spaceId, send.channelId⟩
        (some ⟨sessionId, turnId, currentPair.1, currentPair.2, admitted⟩) false false }

/-- What the coordinator does with the answer of the transport. -/
def answerSend (send : Send) (heldKey : HeldKey) (reconsideration : Option ReconsiderationDecision)
    (retried : Bool) : Response → Send
  | .sent missingDevices => { send with phase := .consuming heldKey reconsideration missingDevices }
  | .held latestSeq latestEnvelopeId => { send with
      phase := .recording heldKey latestSeq latestEnvelopeId }
  | .formatMismatch policyChanged => if policyChanged ∧ ¬ retried ∧ ¬ send.keyless then
      { send with phase := .ready heldKey reconsideration false true }
    else { send with phase := .finished }
  | .failed => { send with phase := .finished }

/-- The evidence that a held answer leaves. -/
def heldEvidence (sha : Sha256) (send : Send) (heldKey : HeldKey) (latestSeq : Int)
    (latestEnvelopeId : String) : HeldEvidence where
  key := heldKey
  latestSeq := latestSeq
  latestEnvelopeId := latestEnvelopeId
  attemptFingerprint := send.request.attemptFingerprint sha
  contentDigest := contentDigest sha send.materialized

/-- A held answer is recorded when it names the head it was held against. -/
def recordAnswer (sha : Sha256) (c : Coordinator) (send : Send) (heldKey : HeldKey)
    (latestSeq : Option Int) (latestEnvelopeId : Option String) : Coordinator :=
  match latestSeq, latestEnvelopeId with
  | some seq, some envelopeId =>
    if envelopeId = "" then c
    else c.recordHeld (heldEvidence sha send heldKey seq envelopeId) send.heldGeneration
  | _, _ => c

/-- The recovery that follows a held answer. -/
def catchUpSend (sha : Sha256) (c : Coordinator) (send : Send) (latestSeq : Option Int)
    (latestEnvelopeId : Option String) : Send :=
  match c.beginHeldRecovery send.spaceId send.channelId latestSeq latestEnvelopeId
      (send.request.attemptFingerprint sha) with
  | none => { send with phase := .finished }
  | some attempt => { send with phase := .catchingUp ⟨attempt, .matching⟩ }

/-- Where a send is suspended after it was resumed with `input`. -/
def resumed (sha : Sha256) (c : Coordinator) (send : Send) (input : Input) : Send :=
  match send.phase, input with
  | .resolving, .materialized files => c.resolveSend send files
  | .snapshotting sessionId turnId, .go => c.snapshotSend sha send sessionId turnId
  | .recovering sessionId turnId heldPair recovery, input =>
    match c.resumeRecovery recovery input with
    | some recovery' => { send with phase := .recovering sessionId turnId heldPair recovery' }
    | none => { send with phase := .confirming sessionId turnId heldPair }
  | .confirming sessionId turnId heldPair, .go => c.confirmSend sha send sessionId turnId heldPair
  | .grading sessionId turnId synchronized currentPair _, .go =>
    c.gradeSend send sessionId turnId synchronized currentPair
  | .ready heldKey reconsideration _ retried, .post =>
    { send with phase := .ready heldKey reconsideration true retried }
  | .ready heldKey reconsideration true retried, .response response =>
    answerSend send heldKey reconsideration retried response
  | .recording _ latestSeq latestEnvelopeId, .go =>
    { send with phase := .recorded latestSeq latestEnvelopeId }
  | .consuming heldKey reconsideration missingDevices, .go =>
    { send with
      phase := if missingDevices ∧ ¬ send.keyless then .supplementing heldKey reconsideration
        else .finished }
  | .supplementing _ _, .post => { send with phase := .finished }
  | .recorded latestSeq latestEnvelopeId, .go => c.catchUpSend sha send latestSeq latestEnvelopeId
  | .catchingUp recovery, input =>
    match c.resumeRecovery recovery input with
    | some recovery' => { send with phase := .catchingUp recovery' }
    | none => { send with phase := .finished }
  | _, _ => send

/-- What the same stretch of code writes to the evidence. -/
def writes (sha : Sha256) (c : Coordinator) (send : Send) (input : Input) : Coordinator :=
  match send.phase, input with
  | .recovering _ _ _ recovery, input => c.recoveryWrites recovery input
  | .catchingUp recovery, input => c.recoveryWrites recovery input
  | .recording heldKey latestSeq latestEnvelopeId, .go =>
    c.recordAnswer sha send heldKey latestSeq latestEnvelopeId
  | .consuming heldKey _ _, .go => c.consumeHeld heldKey
  | _, _ => c

/-- Run one send from where it is suspended to its next `await`. -/
def resume (sha : Sha256) (c : Coordinator) (send : Send) (input : Input) : Coordinator :=
  (c.writes sha send input).setSend (c.resumed sha send input)

/-- A send takes the lock of its channel and reads the discard generation. -/
def enter (c : Coordinator) (id : Nat) (request : SemanticSendRequest) (spaceId : String)
    (keyless : Bool) : Coordinator :=
  if ∃ t ∈ c.sends.rows, t.spaceId = spaceId ∧ t.channelId = request.destination ∧ t.holdsLock then c
  else { c with
    sends := c.sends.insertOrIgnore
      ⟨id, request, spaceId, keyless, c.heldGeneration, [], .resolving⟩ }

end Steps
end Coordinator

/-- What may happen next: a send enters or resumes, the turn or the session changes, the
model reads a channel further, or the turn is torn down. -/
inductive Op where
  | enter (id : Nat) (request : SemanticSendRequest) (spaceId : String) (keyless : Bool)
  | resume (id : Nat) (input : Coordinator.Input)
  | setActive (active : Option ActiveTurn)
  | setSession (providerSessionId : Option String)
  | admitted (spaceId channelId : String) (throughSeq : Option Int)
  | discard

def step (sha : Sha256) (c : Coordinator) : Op → Coordinator
  | .enter id request spaceId keyless => c.enter id request spaceId keyless
  | .resume id input =>
    match c.sends.get? id with
    | none => c
    | some send => c.resume sha send input
  | .setActive active => { c with active := active }
  | .setSession providerSessionId => { c with providerSessionId := providerSessionId }
  | .admitted spaceId channelId throughSeq => { c with
      admitted := fun channel => if channel = (spaceId, channelId) then throughSeq
        else c.admitted channel }
  | .discard => c.discardHeldEvidence

/-- The boundary under which a send may post: the message itself, or once more to the
devices it missed. -/
def Phase.boundary : Phase → Option (HeldKey × Option ReconsiderationDecision)
  | .ready heldKey reconsideration _ _ => some (heldKey, reconsideration)
  | .supplementing heldKey reconsideration => some (heldKey, reconsideration)
  | _ => none

/-- The send that a step posts; its mode is the request's. -/
def posts (c : Coordinator) : Op → Option Send
  | .resume id .post => (c.sends.get? id).filter (·.phase.boundary.isSome)
  | _ => none

end PuffoAgent.Sending
