import PuffoAgent.Store.Operations

/-! The freshness boundary of the active turn: the prefix of a channel that the store proves
visible, the value cached for it, and the steps that move either. -/
namespace PuffoAgent.Freshness
open Store Relational Machine

section Proof
variable (s : Tables) (spaceId channelId : String)

/-- A row of the channel, direct messages apart. -/
def inChannel (m : MessageRow) : Bool :=
  m.envelopeKind ≠ "dm" ∧ m.spaceId = some spaceId ∧ m.channelId = some channelId

/-- The sequenced rows of the channel, in the order of their sequences. -/
def channelRows : List (Int × MessageRow) :=
  (s.messages.rows.filterMap fun m => if inChannel spaceId channelId m then
    m.serverSeq.map (·, m) else none).insertionSort (fun a b => a.1 ≤ b.1)

/-- `get_context_baseline`. -/
def contextBaseline : Option Int :=
  (s.channelContextState.get? (spaceId, channelId)).map (·.contextBaselineSeq)

/-- A row that does not end the visible prefix of the turn. -/
def admissible (turnId : String) (candidateSeq : Option Int) (row : Int × MessageRow) : Bool :=
  row.2.receiptDisposition = some .terminal ∨ candidateSeq = some row.1 ∨
    (row.2.modelVisibleAt.isSome ∧ (row.2.processingState = some .processed ∨
      (row.2.processingTurnId = some turnId ∧ row.2.processingState = some .inTurn)))

/-- The loop of `get_model_visible_through_seq` over the rows that are left. -/
def safePrefix (turnId : String) (baseline candidateSeq : Option Int) (safe : Option Int) :
    List (Int × MessageRow) → Option Int
  | [] => safe
  | row :: rows =>
    if baseline.any (row.1 ≤ ·) then safePrefix turnId baseline candidateSeq safe rows
    else if candidateSeq.any (· < row.1) then safe
    else if ¬ admissible turnId candidateSeq row then safe
    else safePrefix turnId baseline candidateSeq (some row.1) rows

def getModelVisibleThroughSeq (turnId : String) (candidateSeq : Option Int) : Option Int :=
  safePrefix turnId (contextBaseline s spaceId channelId) candidateSeq none
    (channelRows s spaceId channelId)

def hasKnownChannelRowsAboveBaseline : Bool :=
  (channelRows s spaceId channelId).any fun row =>
    (contextBaseline s spaceId channelId).getD (-1) < row.1

end Proof

/-- The store, and `ActiveExactUnion` as far as the boundary reads it. -/
structure Runtime where
  tables : Tables
  turnId : String
  throughByChannel : String × String → Option Int

def Runtime.idle : Runtime := ⟨.empty, "", fun _ => none⟩

namespace Runtime

def setThrough (rt : Runtime) (spaceId channelId : String) (seq : Int) : Runtime :=
  { rt with
    throughByChannel := fun channel => if channel = (spaceId, channelId) then some seq
      else rt.throughByChannel channel }

/-- `get_active_turn_through_seq`: the greater of what the store proves now and what was
cached. -/
def getActiveTurnThroughSeq (rt : Runtime) (spaceId channelId : String) : Option Int :=
  if rt.turnId = "" then none
  else match getModelVisibleThroughSeq rt.tables spaceId channelId rt.turnId none,
      rt.throughByChannel (spaceId, channelId) with
    | some persisted, some advanced => some (max persisted advanced)
    | some persisted, none => some persisted
    | none, advanced => advanced

def advanceActiveTurnThroughSeq (rt : Runtime) (spaceId channelId : String) (seq : Int) : Runtime :=
  if rt.turnId = "" then rt
  else match getModelVisibleThroughSeq rt.tables spaceId channelId rt.turnId (some seq) with
    | some proven => rt.setThrough spaceId channelId proven
    | none => if hasKnownChannelRowsAboveBaseline rt.tables spaceId channelId then rt
        else rt.setThrough spaceId channelId seq

/-- The write of `_admit_inbox_page` for one channel row of the page. -/
def proveRow (rt : Runtime) (turnId spaceId channelId : String) : Runtime :=
  match getModelVisibleThroughSeq rt.tables spaceId channelId turnId none with
  | some proven => rt.setThrough spaceId channelId proven
  | none => rt

end Runtime

/-- One store call of the runtime, with the write that depends on it. A turn becomes active
with or without `clear` before it. -/
inductive Op where
  | store (op : Store.Op)
  | prove (turnId spaceId channelId : String)
  | advance (spaceId channelId : String) (seq : Int)
  | activate (turnId : String)
  | clear

def step (rt : Runtime) : Op → Runtime
  | .store op => { rt with tables := Store.step rt.tables op }
  | .prove turnId spaceId channelId => rt.proveRow turnId spaceId channelId
  | .advance spaceId channelId seq => rt.advanceActiveTurnThroughSeq spaceId channelId seq
  | .activate turnId => { rt with turnId := turnId }
  | .clear => { rt with turnId := "", throughByChannel := fun _ => none }

/-- `_admit_inbox_page`, when the turn is still the one that asked. -/
def admitInboxPage (selected : List MessageRow) (turnId : String) (providerSessionId : Option String)
    (now : Int) : List Op :=
  .store (.admitMessages (selected.map (·.envelopeId)) turnId providerSessionId none now) ::
    (selected.filter fun item => item.serverSeq.isSome ∧ item.envelopeKind ≠ "dm").map fun item =>
      .prove turnId (item.spaceId.getD "") (item.channelId.getD "")

end PuffoAgent.Freshness
