import PuffoAgent.Relational.Table
import PuffoAgent.Text.Json

/-! The bundle queue of a ws-local agent: messages are grouped by thread root and handed
out one bundle at a time. -/
namespace PuffoAgent.WsLocal
open Relational Text

/-- `order` is the arrival order of the first message. -/
structure Bundle (μ : Type) where
  bundleId : String
  rootId : String
  channelMeta : List (String × Json)
  messages : List μ
  order : Nat
  version : Nat := 2
  turnId : String := ""
  targets : List (List String) := []
  routes : List (List (String × Json)) := []
  notice : List (String × Json) := []

/-- The key of a bundle in `_receiving`. -/
def Bundle.key {μ : Type} (b : Bundle μ) : String := if b.turnId ≠ "" then b.turnId else b.rootId

structure BundleQueue (μ : Type) where
  seq : Nat
  receiving : Table (Bundle μ) String Bundle.key
  inflight : Option (Bundle μ)

namespace BundleQueue
variable {μ : Type}

def empty : BundleQueue μ := ⟨0, .empty, none⟩

section Ingestion
variable (envelopeId : μ → String)

/-- Whether the bundle already has the message. -/
def repeats (b : Bundle μ) (message : μ) : Bool :=
  envelopeId message ≠ "" ∧ envelopeId message ∈ b.messages.map envelopeId

/-- `enqueue`. The id is what `_make_id` gives if it is called. -/
def enqueue (q : BundleQueue μ) (makeId rootId : String) (message : μ) (channelMeta : List (String × Json)) :
    BundleQueue μ :=
  match q.receiving.get? rootId with
  | some b =>
    if repeats envelopeId b message then q
    else { q with receiving := q.receiving.put { b with messages := b.messages ++ [message] } }
  | none => { q with
      seq := q.seq + 1
      receiving := q.receiving.put {
        bundleId := makeId, rootId := rootId, channelMeta := channelMeta, messages := [message], order := q.seq + 1 } }

/-- `enqueue_global`; `none` is its `RuntimeError`. -/
def enqueueGlobal (q : BundleQueue μ) (makeId turnId : String) (messages : List μ) (targets : List (List String))
    (routes : List (List (String × Json))) (notice : List (String × Json)) : Option (BundleQueue μ) :=
  if q.inflight.isSome ∨ q.receiving.rows ≠ [] then none
  else some { q with
    seq := q.seq + 1
    receiving := q.receiving.put {
      bundleId := makeId, rootId := "", channelMeta := [], messages := messages, order := q.seq + 1,
      turnId := turnId, targets := targets, routes := routes, notice := notice } }

end Ingestion

section Delivery

/-- The scan of `next_to_send` for the lowest order. -/
def oldest (candidate : Option (Bundle μ)) : List (Bundle μ) → Option (Bundle μ)
  | [] => candidate
  | b :: bs => oldest (if candidate.all (b.order < ·.order) then some b else candidate) bs

/-- `next_to_send`. -/
def nextToSend (q : BundleQueue μ) : BundleQueue μ × Option (Bundle μ) :=
  if q.inflight.isSome then (q, none)
  else match oldest none q.receiving.rows with
    | none => (q, none)
    | some b => ({ q with receiving := q.receiving.delete (·.key = b.key), inflight := some b }, some b)

/-- `ack`. -/
def ack (q : BundleQueue μ) (bundleId : String) : BundleQueue μ × Option (Bundle μ) :=
  if q.inflight.any (·.bundleId = bundleId) then ({ q with inflight := none }, q.inflight) else (q, none)

/-- The bundle that a rolled back one makes with what arrived meanwhile. -/
def merged (envelopeId : μ → String) (makeId : String) (stale : Bundle μ) (successor : Option (Bundle μ)) : Bundle μ where
  bundleId := makeId
  rootId := stale.rootId
  channelMeta := if stale.channelMeta ≠ [] then stale.channelMeta else (successor.map (·.channelMeta)).getD []
  messages := stale.messages ++ (successor.toList.flatMap (·.messages)).filter fun m =>
    envelopeId m ∉ stale.messages.map envelopeId
  order := stale.order
  version := stale.version
  turnId := stale.turnId
  targets := stale.targets
  routes := stale.routes

/-- `rollback_inflight`. -/
def rollbackInflight (envelopeId : μ → String) (q : BundleQueue μ) (makeId : String) :
    BundleQueue μ × Option (Bundle μ) :=
  match q.inflight with
  | none => (q, none)
  | some stale =>
    let b := merged envelopeId makeId stale (q.receiving.get? stale.key)
    ({ q with receiving := q.receiving.put b, inflight := none }, some b)

end Delivery

end BundleQueue
end PuffoAgent.WsLocal
