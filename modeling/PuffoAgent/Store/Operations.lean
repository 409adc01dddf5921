import PuffoAgent.Store.TurnEffects
import PuffoAgent.Machine.Run

/-! The Inbox store as a machine: its operations with their arguments and clock
readings, one transaction each, and what holds of one step. -/
namespace PuffoAgent.Store
open Relational Sql Machine

inductive Op where
  | store (payload : Payload) (receivedAt : Int)
  | storeReceipt (payload : Payload) (serverSeq : Int) (disposition : ReceiptDisposition)
      (reason : String) (receivedAt now : Int)
  | storeLocalReceipt (payload : Payload) (disposition : ReceiptDisposition) (reason : String)
      (receivedAt : Int)
  | storeLocalEvent (payload : Payload) (reason : String) (introChannelId : Option String)
      (receivedAt : Int) (idempotent : Bool) (now : Int)
  | promoteGatedReceipt (envelopeId : String) (serverSeq : Option Int) (reason : String)
      (approvedPayload : Option Payload) (now : Int)
  | tombstoneGatedDm (envelopeId : String) (serverSeq : Option Int)
  | tombstoneGatedDmsFrom (senderSlug : String)
  | quarantinePending (envelopeId reason : String) (now : Int)
  | cleanup (retentionDays now : Int)
  | startTurn (turnId : String) (providerSessionId : Option String) (startedAt : Option Int)
      (noticeGeneration : Option Int) (noticeMessageIds : List String) (now : Int)
  | admitMessages (messageIds : List String) (turnId : String) (providerSessionId : Option String)
      (modelVisibleAt : Option Int) (now : Int)
  | markProcessed (messageIds : List String) (turnId : String) (processedAt : Option Int)
      (providerSessionId : Option String) (now : Int)
  | completeTurnWithRenotice (processedIds renoticeIds : List String) (turnId : String)
      (providerSessionId : Option String) (now : Int)
  | completeTurnRenoticeUnrenotified (turnId : String) (providerSessionId : Option String) (now : Int)
  | requeueMessages (messageIds : List String) (turnId : String) (now : Int)
  | finalizeEmptyTurn (turnId : String) (state : TurnState) (now : Int)
  | transferTurnSession (turnId : String) (fromProviderSessionId : Option String)
      (toProviderSessionId : String)
  | addMessageCovers (coveredIds : List String) (source : CoverSource)
      (byEnvelopeId note turnId : Option String) (now : Int)
  | setContextBaseline (spaceId channelId : String) (contextBaselineSeq : Int)
      (updatedAt : Option Int) (now : Int)
  | markNoticeDelivered (generation : Int) (providerSessionId : Option String)
      (messageIds : Option (List String)) (turnId : Option String)
  | releaseNoticeDelivery (providerSessionId : Option String) (messageIds : Option (List String))

/-- The operation on the connection, without its result. -/
def Op.perform : Op → StoreM Unit
  | .store payload receivedAt => Store.store payload receivedAt
  | .storeReceipt payload serverSeq disposition reason receivedAt now => do
    let _ ← Store.storeReceipt payload serverSeq disposition reason receivedAt now
    return ()
  | .storeLocalReceipt payload disposition reason receivedAt => do
    let _ ← Store.storeLocalReceipt payload disposition reason receivedAt
    return ()
  | .storeLocalEvent payload reason introChannelId receivedAt idempotent now => do
    let _ ← Store.storeLocalEvent payload reason introChannelId receivedAt idempotent now
    return ()
  | .promoteGatedReceipt envelopeId serverSeq reason approvedPayload now => do
    let _ ← Store.promoteGatedReceipt envelopeId serverSeq reason approvedPayload now
    return ()
  | .tombstoneGatedDm envelopeId serverSeq => do
    let _ ← Store.tombstoneGatedDm envelopeId serverSeq
    return ()
  | .tombstoneGatedDmsFrom senderSlug => do
    let _ ← Store.tombstoneGatedDmsFrom senderSlug
    return ()
  | .quarantinePending envelopeId reason now => do
    let _ ← Store.quarantinePending envelopeId reason now
    return ()
  | .cleanup retentionDays now => do
    let _ ← Store.cleanup retentionDays now
    return ()
  | .startTurn turnId session startedAt noticeGeneration ids now => do
    let _ ← Store.startTurn turnId session startedAt noticeGeneration ids now
    return ()
  | .admitMessages ids turnId session modelVisibleAt now => do
    let _ ← Store.admitMessages ids turnId session modelVisibleAt now
    return ()
  | .markProcessed ids turnId processedAt session now => do
    let _ ← Store.markProcessed ids turnId processedAt session now
    return ()
  | .completeTurnWithRenotice processed renotice turnId session now => do
    let _ ← Store.completeTurnWithRenotice processed renotice turnId session now
    return ()
  | .completeTurnRenoticeUnrenotified turnId session now => do
    let _ ← Store.completeTurnRenoticeUnrenotified turnId session now
    return ()
  | .requeueMessages ids turnId now => do
    let _ ← Store.requeueMessages ids turnId now
    return ()
  | .finalizeEmptyTurn turnId state now => do
    let _ ← Store.finalizeEmptyTurn turnId state now
    return ()
  | .transferTurnSession turnId fromSession toSession => do
    let _ ← Store.transferTurnSession turnId fromSession toSession
    return ()
  | .addMessageCovers ids source byEnvelopeId note turnId now => do
    let _ ← Store.addMessageCovers ids source byEnvelopeId note turnId now
    return ()
  | .setContextBaseline spaceId channelId seq updatedAt now =>
    Store.setContextBaseline spaceId channelId seq updatedAt now
  | .markNoticeDelivered generation session ids turnId => do
    let _ ← Store.markNoticeDelivered generation session ids turnId
    return ()
  | .releaseNoticeDelivery session ids => do
    let _ ← Store.releaseNoticeDelivery session ids
    return ()

/-- The tables after an operation, whether it returned or raised. -/
def step (s : Tables) (op : Op) : Tables := op.perform.after s

/-- The one operation that can leave a waiting local row with a sequence it is not
listed under. -/
def Op.strands (s : Tables) : Op → Prop
  | .storeReceipt payload serverSeq disposition _ _ _ => s.strands payload.envelopeId serverSeq disposition
  | _ => False

instance (s : Tables) : (op : Op) → Decidable (op.strands s)
  | .storeReceipt .. => inferInstanceAs (Decidable (s.strands _ _ _))
  | .store .. | .storeLocalReceipt .. | .storeLocalEvent .. | .promoteGatedReceipt .. | .tombstoneGatedDm ..
  | .tombstoneGatedDmsFrom .. | .quarantinePending .. | .cleanup .. | .startTurn .. | .admitMessages ..
  | .markProcessed .. | .completeTurnWithRenotice .. | .completeTurnRenoticeUnrenotified ..
  | .requeueMessages .. | .finalizeEmptyTurn .. | .transferTurnSession .. | .addMessageCovers ..
  | .setContextBaseline .. | .markNoticeDelivered .. | .releaseNoticeDelivery .. => instDecidableFalse

/-- What the operation may do beyond the others. -/
def Op.licence (s : Tables) : Op → Licence
  | .storeReceipt payload serverSeq disposition _ _ _ =>
    receiptLicence payload serverSeq disposition s
  | .requeueMessages messageIds turnId _ => requeueLicence messageIds turnId s
  | .setContextBaseline spaceId channelId contextBaselineSeq _ _ =>
    baselineLicence spaceId channelId contextBaselineSeq
  | _ => {}

theorem Op.licence_strands (s : Tables) (op : Op) : (op.licence s).strands = op.strands s := by
  cases op <;> rfl

theorem Has.discard {α : Type} {licence : Tables → Licence} {x : StoreM α} (h : Has licence x) :
    Has licence (do let _ ← x; return ()) :=
  Does.mono (Does.discard h) fun _ _ _ ⟨_, he⟩ => he

theorem Op.perform_has (op : Op) : Has (fun s => op.licence s) op.perform := by
  cases op with
  | store payload receivedAt => exact store_has payload receivedAt
  | storeReceipt payload serverSeq disposition reason receivedAt now =>
    exact (storeReceipt_has payload serverSeq disposition reason receivedAt now).discard
  | storeLocalReceipt payload disposition reason receivedAt =>
    exact (storeLocalReceipt_has payload disposition reason receivedAt).discard
  | storeLocalEvent payload reason introChannelId receivedAt idempotent now =>
    exact (storeLocalEvent_has payload reason introChannelId receivedAt idempotent now).discard
  | promoteGatedReceipt envelopeId serverSeq reason approvedPayload now =>
    exact (promoteGatedReceipt_has envelopeId serverSeq reason approvedPayload now).discard
  | tombstoneGatedDm envelopeId serverSeq => exact (tombstoneGatedDm_has envelopeId serverSeq).discard
  | tombstoneGatedDmsFrom senderSlug => exact (tombstoneGatedDmsFrom_has senderSlug).discard
  | quarantinePending envelopeId reason now => exact (quarantinePending_has envelopeId reason now).discard
  | cleanup retentionDays now => exact (cleanup_has retentionDays now).discard
  | startTurn turnId session startedAt noticeGeneration ids now =>
    exact (startTurn_has turnId session startedAt noticeGeneration ids now).discard
  | admitMessages ids turnId session modelVisibleAt now =>
    exact (admitMessages_has ids turnId session modelVisibleAt now).discard
  | markProcessed ids turnId processedAt session now =>
    exact (markProcessed_has ids turnId processedAt session now).discard
  | completeTurnWithRenotice processed renotice turnId session now =>
    exact (completeTurnWithRenotice_has processed renotice turnId session now).discard
  | completeTurnRenoticeUnrenotified turnId session now =>
    exact (completeTurnRenoticeUnrenotified_has turnId session now).discard
  | requeueMessages ids turnId now => exact (requeueMessages_has ids turnId now).discard
  | finalizeEmptyTurn turnId state now => exact (finalizeEmptyTurn_has turnId state now).discard
  | transferTurnSession turnId fromSession toSession =>
    exact (transferTurnSession_has turnId fromSession toSession).discard
  | addMessageCovers ids source byEnvelopeId note turnId now =>
    exact (addMessageCovers_has ids source byEnvelopeId note turnId now).discard
  | setContextBaseline spaceId channelId seq updatedAt now =>
    exact setContextBaseline_has spaceId channelId seq updatedAt now
  | markNoticeDelivered generation session ids turnId =>
    exact (markNoticeDelivered_has generation session ids turnId).discard
  | releaseNoticeDelivery session ids => exact (releaseNoticeDelivery_has session ids).discard

/-- Every step has one of the effects. -/
theorem step_effect (s : Tables) (op : Op) : Effect (op.licence s) s (step s op) := by
  rcases op.perform_has.after s with h | ⟨-, -, he⟩
  · rw [step, h]
    exact Effect.refl s
  · exact he

/-- An operation that raises leaves every table exactly as it was. -/
theorem perform_error {op : Op} {s : Tables} {e : StoreError} {c : Connection Tables}
    (h : op.perform ⟨s, none⟩ = .error e c) : c = ⟨s, none⟩ := op.perform_has.error h

end PuffoAgent.Store
