import PuffoAgent.Freshness.Boundary
import PuffoAgent.Inbox.Reads

/-! Held sends: the rows of a channel that the recovery source offers as their context, the
evidence it keeps of an offer, and the admission of the offered rows to the turn. -/
namespace PuffoAgent.Freshness
open Store Relational Machine Projection Inbox

/-- The watermark a send is held at, with its channel. -/
structure HeldHead where
  spaceId : String
  channelId : String
  latestSeq : Int
  latestEnvelopeId : String
  deriving DecidableEq, Repr

structure HeldStaging where
  messageIds : List String := []
  latestSeq : Option Int := none
  latestEnvelopeId : Option String := none
  recoveredThroughSeq : Option Int := none
  synchronized : Bool := false
  diagnostic : String := ""
  correlationKey : String := ""
  deriving DecidableEq, Repr

structure HeldAdmissionEvidence where
  activeTurnId : String
  providerSessionId : String
  providerTurnId : String
  head : HeldHead
  displayedIds : List String
  deriving DecidableEq, Repr

/-- What a staged result's callback has closed over. -/
structure StagedAdmission where
  fired : Bool
  correlationKey : String
  activeTurnId : String
  providerSessionId : String
  evidence : HeldAdmissionEvidence
  displayedIds : List String
  spaceId : String
  channelId : String
  latestSeq : Int
  deriving DecidableEq, Repr

structure ProviderAdmissionEvent where
  planningCycleKey : String
  providerSessionId : Option String
  providerTurnId : Option String
  deriving DecidableEq, Repr

/-- A row of an offer: a stored message of the channel, or the mere proof of the watermark. -/
inductive HeldRow where
  | message (head : HeldHead) (providerSessionId : String) (message : StoredMessage)
  | proofOnly (head : HeldHead) (providerSessionId : String)

/-- The row proves the watermark. -/
def HeldRow.proves (head : HeldHead) : HeldRow → Bool
  | .message _ _ m => m.row.envelopeId = head.latestEnvelopeId ∧ m.row.serverSeq = some head.latestSeq
  | .proofOnly .. => true

/-- The runtime with what it keeps for held sends. The offers that were made and the
admissions that were accepted are recorded beside it. -/
structure HeldRuntime extends Runtime where
  providerSessionId : Option String := none
  providerTurnId : Option String := none
  held : String × String → Option HeldStaging := fun _ => none
  evidence : String × String × HeldHead → Option HeldAdmissionEvidence := fun _ => none
  staged : List StagedAdmission := []
  offered : List HeldAdmissionEvidence := []
  accepted : List HeldAdmissionEvidence := []

def HeldRuntime.idle : HeldRuntime := { Runtime.idle with }

section Query
variable (rt : HeldRuntime) (head : HeldHead)

def HeldRuntime.setHeld (staging : HeldStaging) : HeldRuntime :=
  { rt with held := fun channel => if channel = (head.spaceId, head.channelId) then some staging else rt.held channel }

/-- `_reject_query`. -/
def HeldRuntime.rejectQuery (diagnostic : String) : HeldRuntime × List HeldRow :=
  (rt.setHeld head { latestSeq := some head.latestSeq, latestEnvelopeId := some head.latestEnvelopeId,
                     diagnostic := diagnostic }, [])

/-- `_record_admission_evidence`. -/
def HeldRuntime.recordAdmissionEvidence (providerSessionId : String) (rows : List StoredMessage)
    (staging : HeldStaging) : HeldRuntime :=
  let evidence : HeldAdmissionEvidence :=
    ⟨rt.turnId, providerSessionId, rt.providerTurnId.getD "", head, rows.map (·.row.envelopeId)⟩
  let rt := { rt with
    evidence := fun key => if key = (rt.turnId, providerSessionId, head) then some evidence else rt.evidence key
    offered := rt.offered ++ [evidence] }
  rt.setHeld head { staging with messageIds := evidence.displayedIds }

/-- The watermark is the row that is stored under its envelope. -/
def HeldHead.marks (head : HeldHead) (watermark : MessageRow) : Bool :=
  watermark.serverSeq = some head.latestSeq ∧ watermark.spaceId = some head.spaceId ∧
    watermark.channelId = some head.channelId

/-- The end of the prefix that the turn has been shown, as the query reads it. -/
def HeldRuntime.afterSeq : Int :=
  (getModelVisibleThroughSeq rt.tables head.spaceId head.channelId rt.turnId none).getD (-1)

def HeldRuntime.queryHeldMessages (providerSessionId : Option String) : HeldRuntime × List HeldRow :=
  let session := providerSessionId.getD ""
  if rt.turnId = "" ∨ session = "" ∨ rt.providerSessionId ≠ some session then
    rt.rejectQuery head "stateful active provider session unavailable"
  else if ¬ (rt.tables.messages.get? head.latestEnvelopeId).any head.marks then
    rt.rejectQuery head "exact held watermark mismatch"
  else
    let staging : HeldStaging :=
      { latestSeq := some head.latestSeq, latestEnvelopeId := some head.latestEnvelopeId,
        recoveredThroughSeq := some head.latestSeq, synchronized := true }
    let rows := getHeldReconsiderationRows rt.tables head.spaceId head.channelId (rt.afterSeq head) head.latestSeq 51
    if 50 < rows.length then rt.rejectQuery head "held context exceeds the bounded recovery limit"
    else
      let projected := rows.map (HeldRow.message head session)
      (rt.recordAdmissionEvidence head session rows staging,
        if projected.any (·.proves head) then projected else projected ++ [.proofOnly head session])

end Query
section Admission

/-- The row may be admitted with the held send. -/
def heldAdmissible (m : MessageRow) (activeTurnId : String) : Bool :=
  m.isPending ∨ m.isInTurn activeTurnId ∨ m.receiptDisposition = some .terminal

/-- The watermark needs no admission. -/
def heldProof (m : MessageRow) (activeTurnId : String) : Bool :=
  m.receiptDisposition = some .terminal ∨ m.isInTurn activeTurnId ∨ m.modelVisibleAt.isSome

/-- `_load_held_admission_rows`. -/
def loadHeldAdmissionRows (s : Tables) (activeTurnId : String) (displayedIds : List String) (head : HeldHead) :
    Except String (StoredMessage × List StoredMessage) :=
  match (s.messages.get? head.latestEnvelopeId).filter head.marks with
  | none => .error "held freshness proof no longer matches local storage"
  | some watermark =>
    let rows := displayedIds.filterMap s.messages.get?
    if (displayedIds.any fun id => (s.messages.get? id).isNone) ∨ (rows.any fun row =>
        row.spaceId ≠ some head.spaceId ∨ row.channelId ≠ some head.channelId ∨
          ¬ row.serverSeq.any (· ≤ head.latestSeq)) then
      .error "held admission evidence no longer matches local rows"
    else if rows.any fun row => ¬ heldAdmissible row activeTurnId then
      .error "held admission rows crossed another turn boundary"
    else if watermark.envelopeId ∉ displayedIds ∧ ¬ heldProof watermark activeTurnId then
      .error "held freshness proof was not admitted to this turn"
    else .ok (rowToMsg watermark, rows.map rowToMsg)

variable (rt : HeldRuntime)

/-- `stage_held_send_result`, for a result that says its context is ready. -/
def HeldRuntime.stageHeldSendResult (head : HeldHead) (correlationKey : String) : HeldRuntime :=
  let session := rt.providerSessionId.getD ""
  if rt.turnId = "" ∨ session = "" ∨ head.spaceId = "" ∨ head.channelId = "" then rt
  else match rt.evidence (rt.turnId, session, head) with
    | none => rt
    | some evidence =>
      let staged : StagedAdmission := ⟨false, correlationKey, rt.turnId, session, evidence,
        evidence.displayedIds, head.spaceId, head.channelId, head.latestSeq⟩
      let rt := { rt with staged := rt.staged ++ [staged] }
      match rt.held (head.spaceId, head.channelId) with
      | none => rt
      | some staging => rt.setHeld head { staging with correlationKey := correlationKey }

/-- `_validate_held_admission_turn`. -/
def HeldRuntime.isHeldAdmissionTurn (a : StagedAdmission) (event : ProviderAdmissionEvent) : Bool :=
  rt.turnId = a.activeTurnId ∧ rt.providerSessionId = some a.providerSessionId ∧
    rt.providerTurnId = some a.evidence.providerTurnId ∧ event.providerSessionId = some a.providerSessionId ∧
    event.providerTurnId = some a.evidence.providerTurnId

/-- The identity an admission is asked for. -/
def StagedAdmission.request (a : StagedAdmission) : HeldAdmissionEvidence :=
  ⟨a.activeTurnId, a.providerSessionId, a.evidence.providerTurnId,
    ⟨a.spaceId, a.channelId, a.latestSeq, a.evidence.head.latestEnvelopeId⟩, a.displayedIds⟩

/-- `_admit_held_recovery`, where it raises with what it leaves. -/
def HeldRuntime.admitHeldRecovery (i : Nat) (event : ProviderAdmissionEvent) (now : Int) : HeldRuntime :=
  match rt.staged[i]? with
  | none => rt
  | some a =>
    if a.fired ∨ event.planningCycleKey ≠ a.correlationKey ∨ ¬ rt.isHeldAdmissionTurn a event then rt
    else match loadHeldAdmissionRows rt.tables a.activeTurnId a.displayedIds a.request.head with
      | .error _ => rt
      | .ok (_, rows) =>
        let pendingIds := (rows.filter (·.row.isPending)).map (·.row.envelopeId)
        let rt := { rt with
          staged := rt.staged.set i { a with fired := true }
          accepted := rt.accepted ++ [a.request] }
        let admission : Store.Op := .admitMessages pendingIds a.activeTurnId (some a.providerSessionId) none now
        let advanced (rt : HeldRuntime) : HeldRuntime := { rt with
          toRuntime := rt.advanceActiveTurnThroughSeq a.spaceId a.channelId a.latestSeq
          evidence := fun key => if key = (a.activeTurnId, a.providerSessionId, a.request.head) then none
            else rt.evidence key }
        if pendingIds = [] then advanced rt
        else match admission.perform (⟨rt.tables, none⟩ : Connection Tables) with
          | .error _ c => { rt with tables := c.tables }
          | .ok _ c => advanced { rt with tables := c.tables }

/-- `_clear_terminal_turn`. -/
def HeldRuntime.clearTerminalTurn : HeldRuntime := { rt with
  toRuntime := Freshness.step rt.toRuntime .clear
  evidence := fun key => if rt.turnId ≠ "" ∧ key.1 = rt.turnId then none else rt.evidence key
  held := fun _ => none
  providerSessionId := none
  providerTurnId := none }

end Admission

/-- A call of the runtime, at whatever moment. -/
inductive HeldOp where
  | runtime (op : Op)
  | bind (providerSessionId providerTurnId : Option String)
  | query (head : HeldHead) (providerSessionId : Option String)
  | stage (head : HeldHead) (correlationKey : String)
  | admits (i : Nat) (event : ProviderAdmissionEvent) (now : Int)
  | clear

def HeldRuntime.step (rt : HeldRuntime) : HeldOp → HeldRuntime
  | .runtime op => { rt with toRuntime := Freshness.step rt.toRuntime op }
  | .bind providerSessionId providerTurnId =>
    { rt with providerSessionId := providerSessionId, providerTurnId := providerTurnId }
  | .query head providerSessionId => (rt.queryHeldMessages head providerSessionId).1
  | .stage head correlationKey => rt.stageHeldSendResult head correlationKey
  | .admits i event now => rt.admitHeldRecovery i event now
  | .clear => rt.clearTerminalTurn

end PuffoAgent.Freshness
