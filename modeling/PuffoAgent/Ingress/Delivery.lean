import PuffoAgent.Store.Receipts
import PuffoAgent.Machine.Run

/-! The receipt path of both transports, down to its store calls. Every call decides
whether the envelope may be acknowledged upstream. -/
namespace PuffoAgent.Ingress
open Relational Stmt Sql Store Text

inductive TransportOutcome where
  | ack | defer | hold
  deriving DecidableEq, Repr

structure GateVerdict where
  gate : String
  disposition : ReceiptDisposition
  reason : String
  content : Option String := none
  deferAck : Bool := false

section Native

/-- The row `_ReceiptCommitter.commit` files. -/
def committedRow (storedPayload : Payload) : Option Json → Payload
  | none => storedPayload
  | some content => { storedPayload with content := content, contentType := "text/plain" }

/-- The receipt `commit` settles on: an eligible delivery first tries to release the
envelope's own gated row. -/
def committedReceipt (row : Payload) (serverSeq : Int) (disposition : ReceiptDisposition)
    (reason : String) (receivedAt now : Int) : StoreM ReceiptResult :=
  if disposition = .eligible then do
    let promoted ← promoteGatedReceipt row.envelopeId (some serverSeq) reason (some row) now
    if promoted.status ≠ .conflict then return promoted
    else storeReceipt row serverSeq disposition reason receivedAt now
  else storeReceipt row serverSeq disposition reason receivedAt now

def transportOutcome (result : ReceiptResult) : TransportOutcome :=
  if result.status = .conflict then .hold
  else if result.acknowledge then .ack
  else if result.disposition = .foreignDmGated then .defer
  else .hold

/-- `_ReceiptCommitter.commit`. -/
def commit (storedPayload : Payload) (serverSeq : Int) (disposition : ReceiptDisposition)
    (reason : String) (content : Option Json) (receivedAt now : Int) : StoreM TransportOutcome := do
  let result ← committedReceipt (committedRow storedPayload content) serverSeq disposition reason
    receivedAt now
  return transportOutcome result

end Native

section Bridge
variable (str : Json → String)

/-- `content_with_visibility`. -/
def contentWithVisibility (content : Json) (isVisibleToHuman : Bool) : Json :=
  match content with
  | .obj members => .obj (Json.setMember "is_visible_to_human" (.bool isVisibleToHuman) members)
  | .null => .obj [("text", .str ""), ("is_visible_to_human", .bool isVisibleToHuman)]
  | other => .obj [("text", .str (str other)), ("is_visible_to_human", .bool isVisibleToHuman)]

/-- The storage row with the body that the verdict lets through. -/
def verdictRow (row : Payload) (content : Json) (isVisibleToHuman : Bool) (verdict : GateVerdict) :
    Payload :=
  if verdict.gate = "self_echo" then { row with
    content := contentWithVisibility str ((verdict.content.map Json.str).getD content) isVisibleToHuman
    contentType := if verdict.content.isSome then "text/plain" else row.contentType }
  else match verdict.content with
    | none => row
    | some text => { row with content := .str text, contentType := "text/plain" }

/-- The store call of `_commit_bridge_verdict`: a frame without a sequence takes the
local lane. -/
def bridgeReceipt (row : Payload) (serverSeq : Option Int) (verdict : GateVerdict)
    (receivedAt now : Int) : StoreM ReceiptResult :=
  match serverSeq with
  | none => storeLocalReceipt row verdict.disposition verdict.reason receivedAt
  | some seq => storeReceipt row seq verdict.disposition verdict.reason receivedAt now

/-- `_commit_bridge_verdict`: whether the envelope may be acked. -/
def commitBridgeVerdict (row : Payload) (content : Json) (isVisibleToHuman : Bool)
    (serverSeq : Option Int) (verdict : GateVerdict) (receivedAt now : Int) : StoreM Bool := do
  let result ← bridgeReceipt (verdictRow str row content isVisibleToHuman verdict) serverSeq verdict
    receivedAt now
  return result.acknowledge ∧ ¬ verdict.deferAck

/-- `_persist_eligible_bridge_payload`. -/
def persistEligibleBridgePayload (row : Payload) (serverSeq : Option Int) (receivedAt now : Int) :
    StoreM Bool :=
  match serverSeq with
  | none => do
    let _ ← storeLocalEvent row "keyless bridge delivery without server sequence" none receivedAt
      false now
    return true
  | some seq => do
    let receipt ← storeReceipt row seq .eligible "keyless bridge sequenced delivery" receivedAt now
    return receipt.status ≠ .conflict

/-- `_redelivery_ack`. -/
def redeliveryAck (stored : MessageRow) : Bool := stored.receiptDisposition ≠ some .foreignDmGated

/-- The answer of `store_bridge_payload` to a sequence-less frame it already holds. A
control reply that still waits for its handler is not acked. -/
def redeliver (envelopeId : String) (controlReply : Bool) : StoreM Bool :=
  Sql.read fun s => (s.messages.get? envelopeId).any fun stored => ¬ controlReply ∧ redeliveryAck stored

end Bridge

/-- One store call of the receipt path, or of the operator's answer to a gated DM. -/
inductive Delivery where
  | promotion (envelopeId : String) (serverSeq : Option Int) (reason : String)
      (approvedPayload : Option Payload) (now : Int)
  | receipt (payload : Payload) (serverSeq : Int) (disposition : ReceiptDisposition)
      (reason : String) (receivedAt now : Int)
  | redelivery (envelopeId : String) (controlReply : Bool)
  | verdict (row : Payload) (content : Json) (isVisibleToHuman : Bool) (serverSeq : Option Int)
      (verdict : GateVerdict) (receivedAt now : Int)
  | eligible (row : Payload) (serverSeq : Option Int) (receivedAt now : Int)
  | denial (envelopeId : String) (serverSeq : Option Int)
  | denialFrom (senderSlug : String)

/-- The call, and whether it decides that the envelope may be acknowledged. -/
def Delivery.perform (str : Json → String) : Delivery → StoreM Bool
  | .promotion envelopeId serverSeq reason approvedPayload now => do
    let result ← promoteGatedReceipt envelopeId serverSeq reason approvedPayload now
    return result.acknowledge
  | .receipt payload serverSeq disposition reason receivedAt now => do
    let result ← storeReceipt payload serverSeq disposition reason receivedAt now
    return result.acknowledge
  | .redelivery envelopeId controlReply => redeliver envelopeId controlReply
  | .verdict row content isVisibleToHuman serverSeq v receivedAt now =>
    commitBridgeVerdict str row content isVisibleToHuman serverSeq v receivedAt now
  | .eligible row serverSeq receivedAt now => persistEligibleBridgePayload row serverSeq receivedAt now
  | .denial envelopeId serverSeq => do
    let result ← tombstoneGatedDm envelopeId serverSeq
    return result.acknowledge
  | .denialFrom senderSlug => do
    let _ ← tombstoneGatedDmsFrom senderSlug
    return false

/-- The envelope a call is about; a denial by sender is about no single one. -/
def Delivery.envelopeId : Delivery → Option String
  | .promotion envelopeId .. => some envelopeId
  | .receipt payload .. => some payload.envelopeId
  | .redelivery envelopeId _ => some envelopeId
  | .verdict row .. => some row.envelopeId
  | .eligible row .. => some row.envelopeId
  | .denial envelopeId _ => some envelopeId
  | .denialFrom _ => none

def deliver (str : Json → String) (s : Tables) (d : Delivery) : Tables := (d.perform str).after s

end PuffoAgent.Ingress
