import PuffoAgent.Store.Ownership
import PuffoAgent.Projection.Row

/-! The end of a turn: its uncovered rows are found in two reads and its rows are then
settled in one transaction, with any store operation between the awaits. -/
namespace PuffoAgent.Covers
open Relational Store Projection Text

/-- `get_in_turn_messages`. -/
def getInTurnMessages (turnId : String) (providerSessionId : Option String) (s : Tables) :
    List StoredMessage :=
  match providerSessionId, s.turnRuns.get? turnId with
  | some session, some run =>
    if run.providerSessionId ≠ some session ∨ run.state ≠ .inTurn then []
    else (((turnMessageIds s turnId).filterMap s.messages.get?).filter (·.isInTurn turnId)).map rowToMsg
  | _, _ => []

/-- A cover of the row is on record. -/
def Covered (s : Tables) (envelopeId : String) : Prop :=
  ∃ r ∈ s.messageCovers.rows, r.coveredEnvelopeId = envelopeId

instance (s : Tables) (envelopeId : String) : Decidable (Covered s envelopeId) :=
  inferInstanceAs (Decidable (∃ r ∈ s.messageCovers.rows, _))

/-- `get_covered_ids`. -/
def getCoveredIds (messageIds : List String) (s : Tables) : List String :=
  (messageIds.filter (· ≠ "")).filter fun id => Covered s id

/-- The rows of a turn that have never been redelivered and that no agent or system sent. -/
def candidateIds (host : Host) (identityAliases : List String) :
    List StoredMessage → Except ProjectionError (List String)
  | [] => return []
  | m :: rows => do
    if m.row.renotified then candidateIds host identityAliases rows
    else
      let type ← senderType host identityAliases m
      let rest ← candidateIds host identityAliases rows
      return if type = "agent" ∨ type = "system" then rest else m.row.envelopeId :: rest

/-- One call of `_finalize_active_messages`, between two of its awaits. -/
inductive Finalization where
  | idle
  | reconciling (turnId : String)
  | classified (turnId : String) (rows candidates : List String)
  | failed (turnId : String)
  | reconciled (turnId : String) (rows renoticeIds : List String)

structure Runtime where
  tables : Tables
  coversRenoticeEnabled : Bool
  identityAliases : List String
  finalizations : Nat → Finalization

/-- How a store call can fail for a reason of its own. -/
inductive Fault where
  | beforeCommit
  | afterCommit
  deriving DecidableEq, Repr

/-- The operations that only a finalization calls. -/
def redelivering : Op → Bool
  | .completeTurnWithRenotice .. | .completeTurnRenoticeUnrenotified .. => true
  | _ => false

/-- What happens between two awaits. The session and the message ids are those of
`self.active` at that moment. -/
inductive Event where
  | store (op : Op) (other : redelivering op = false)
  | begin (task : Nat) (turnId : String)
  | readRows (task : Nat) (providerSessionId : Option String) (fails : Bool)
  | readCovered (task : Nat) (fails : Bool)
  | fallBack (task : Nat) (providerSessionId : Option String) (fault : Option Fault) (now : Int)
  | complete (task : Nat) (providerSessionId : Option String) (messageIds : List String) (fails : Bool)
      (now : Int)
  | restart (coversRenoticeEnabled : Bool) (identityAliases : List String)

namespace Runtime
variable (host : Host) (rt : Runtime)

def put (task : Nat) (finalization : Finalization) : Runtime :=
  { rt with finalizations := Function.update rt.finalizations task finalization }

/-- The `except` of `_finalize_active_messages`, up to its fallback. -/
def reconciliationFailed (turnId : String) : Finalization :=
  if rt.coversRenoticeEnabled then .failed turnId else .reconciled turnId [] []

/-- `_reconcile_uncovered_messages` up to the classification of the rows. -/
def classify (turnId : String) (providerSessionId : Option String) : Finalization :=
  let rows := getInTurnMessages turnId providerSessionId rt.tables
  let rowsById := rows.map (·.row.envelopeId)
  match candidateIds host rt.identityAliases rows with
  | .error _ => rt.reconciliationFailed turnId
  | .ok [] => .reconciled turnId rowsById []
  | .ok candidates => .classified turnId rowsById candidates

/-- The rest of `_reconcile_uncovered_messages`. -/
def reconcile (turnId : String) (rows candidates : List String) : Finalization :=
  let covered := getCoveredIds candidates rt.tables
  let uncovered := candidates.filter (· ∉ covered)
  .reconciled turnId rows (if rt.coversRenoticeEnabled then uncovered else [])

/-- The completion that `_finalize_active_messages` ends with. -/
def completion (turnId : String) (rows renoticeIds : List String) (providerSessionId : Option String)
    (messageIds : List String) (now : Int) : Op :=
  if renoticeIds = [] ∨ messageIds.toFinset ≠ rows.toFinset then
    .markProcessed messageIds turnId none providerSessionId now
  else
    .completeTurnWithRenotice (messageIds.filter (· ∉ renoticeIds)) renoticeIds turnId providerSessionId now

/-- The fallback, and whether the plain completion is still to be tried. -/
def fallBack (task : Nat) (turnId : String) (providerSessionId : Option String) (fault : Option Fault)
    (now : Int) : Runtime :=
  let op := Op.completeTurnRenoticeUnrenotified turnId providerSessionId now
  let plain := Finalization.reconciled turnId [] []
  match fault with
  | some .beforeCommit => rt.put task plain
  | some .afterCommit => { rt.put task plain with tables := Store.step rt.tables op }
  | none => { rt.put task (match op.perform ⟨rt.tables, none⟩ with
      | .ok _ _ => .idle
      | .error _ _ => plain) with tables := Store.step rt.tables op }

def step (rt : Runtime) : Event → Runtime
  | .store op _ => { rt with tables := Store.step rt.tables op }
  | .begin task turnId =>
    match rt.finalizations task with
    | .idle => rt.put task (.reconciling turnId)
    | _ => rt
  | .readRows task providerSessionId fails =>
    match rt.finalizations task with
    | .reconciling turnId => rt.put task
        (if fails then rt.reconciliationFailed turnId else rt.classify host turnId providerSessionId)
    | _ => rt
  | .readCovered task fails =>
    match rt.finalizations task with
    | .classified turnId rows candidates => rt.put task
        (if fails then rt.reconciliationFailed turnId else rt.reconcile turnId rows candidates)
    | _ => rt
  | .fallBack task providerSessionId fault now =>
    match rt.finalizations task with
    | .failed turnId => rt.fallBack task turnId providerSessionId fault now
    | _ => rt
  | .complete task providerSessionId messageIds fails now =>
    match rt.finalizations task with
    | .reconciled turnId rows renoticeIds =>
      if fails then rt.put task .idle
      else
        let op := completion turnId rows renoticeIds providerSessionId messageIds now
        { rt.put task .idle with tables := Store.step rt.tables op }
    | _ => rt
  | .restart coversRenoticeEnabled identityAliases =>
    ⟨rt.tables, coversRenoticeEnabled, identityAliases, fun _ => .idle⟩

end Runtime

/-- A runtime that has just opened an empty database. -/
def Runtime.initial (coversRenoticeEnabled : Bool) (identityAliases : List String) : Runtime :=
  ⟨Tables.empty, coversRenoticeEnabled, identityAliases, fun _ => .idle⟩

end PuffoAgent.Covers
