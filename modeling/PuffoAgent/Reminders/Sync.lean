import PuffoAgent.Reminders.Wire
import PuffoAgent.Machine.Run

/-! The reminder sync client: snapshot reconciliations that wait for their pages, due
deliveries that wait for the Server's claim, and the two flags both of them share. Every
event is what runs between two awaits. -/
namespace PuffoAgent.Reminders
open Relational Stmt Sql Store Text

/-- `MAX_SNAPSHOT_PAGES`. -/
def maxSnapshotPages : Nat := 10000

inductive LoopPhase where
  | fetching
  | applying (rows : List RemoteOccurrence) (page : Page)
  | finished
  | raised (e : SyncError)
  deriving DecidableEq, Repr

/-- A `_reconcile_snapshot` in flight. Where it began, the answers it has had and the ids it
has accepted are recorded beside its own variables. -/
structure Loop where
  begun : Nat
  authorization : Option Nat
  after : Option String := none
  lastOccurrenceId : Option String := none
  pages : Nat := 0
  changed : Nat := 0
  seenAfter : List String := []
  answers : Nat := 0
  accepted : List String := []
  phase : LoopPhase := .fetching
  deriving DecidableEq, Repr

/-- What the page request comes back with. -/
inductive Answer where
  | page (response : Json)
  | failed (retryable : Bool)
  | cancelled

namespace Loop

/-- After the last row of a page: finish, or ask for the next one. -/
def turn (loop : Loop) (page : Page) : Loop :=
  let loop := { loop with lastOccurrenceId := page.ids.getLast?.or loop.lastOccurrenceId }
  match page.nextAfter with
  | none => { loop with phase := .finished }
  | some nextAfter =>
    if nextAfter ∈ loop.seenAfter ∨ loop.after = some nextAfter then
      { loop with phase := .raised invalidSnapshot }
    else
      let loop := { loop with
        seenAfter := nextAfter :: loop.seenAfter
        after := some nextAfter
        pages := loop.pages + 1 }
      if maxSnapshotPages ≤ loop.pages then { loop with phase := .raised invalidSnapshot }
      else { loop with phase := .fetching }

/-- The rows of a page that are still to be stored. -/
def proceed (loop : Loop) (rows : List RemoteOccurrence) (page : Page) : Loop :=
  if rows = [] then loop.turn page else { loop with phase := .applying rows page }

def respond (host : SyncHost) (loop : Loop) (answer : Answer) : Loop :=
  let loop := { loop with answers := loop.answers + 1 }
  match answer with
  | .cancelled => { loop with phase := .raised .cancelled }
  | .failed retryable => { loop with phase := .raised (.request retryable) }
  | .page response =>
    match validatePage host loop.after loop.lastOccurrenceId response with
    | .error e => { loop with phase := .raised e }
    | .ok page => { loop with accepted := loop.accepted ++ page.ids }.proceed page.rows page

/-- Store a row of the page. -/
def apply (loop : Loop) (remote : RemoteOccurrence) (rows : List RemoteOccurrence) (page : Page)
    (s : Tables) : Loop × Tables :=
  match remote.materialize with
  | .error e => ({ loop with phase := .raised e }, s)
  | .ok materialize =>
    match materialize ⟨s, none⟩ with
    | .error e c => ({ loop with phase := .raised (.store e) }, c.tables)
    | .ok result c =>
      ({ loop with changed := if result.changed then loop.changed + 1 else loop.changed }.proceed rows page,
        c.tables)

/-- The error path that still releases work that is only known here. -/
def releases (loop : Loop) : Answer → Bool
  | .failed retryable => loop.after.isNone ∧ retryable
  | _ => false

def ended (loop : Loop) : Bool :=
  match loop.phase with
  | .finished | .raised _ => true
  | _ => false

end Loop

/-- `ReminderDeliveryAuthorization`. -/
structure Authorization where
  occurrenceIds : List String := []
  retryAfterMs : Option Int := none
  deriving DecidableEq, Repr

inductive ClaimPhase where
  | persisting (claimId : String)
  | posting (persisted : ReminderRow) (claimId : String)
  | acquiring (persisted : ReminderRow) (claimId : String) (leaseExpiresAtMs : Int)
  | reconciling
  | done
  deriving DecidableEq, Repr

/-- An `authorize_due_delivery` that has come to its claim. -/
structure Claim where
  begun : Nat
  candidates : List ReminderRow
  candidate : ReminderRow
  others : Bool
  nowMs : Int
  phase : ClaimPhase
  deriving DecidableEq, Repr

def Claim.retryAfterMs (claim : Claim) : Int := claim.nowMs + deliveryClaimRetryMs

inductive ClaimAnswer where
  | response (response : Json) (nowMs : Int)
  | failed
  | cancelled

/-- The client, with the store it shares, the connections it has been told of and the
authorizations it has returned. -/
structure SyncState where
  tables : Tables
  deliveryReady : Bool := false
  localOnlyDeliveryReleasedSinceConnect : Bool := false
  connects : Nat := 0
  loops : List Loop := []
  claims : List Claim := []
  returned : List (List ReminderRow × Authorization) := []

namespace SyncState
variable (s : SyncState)

def begin (authorization : Option Nat) : SyncState :=
  { s with loops := s.loops ++ [{ begun := s.connects, authorization := authorization }] }

/-- An authorization that is over. -/
def deliver (candidates : List ReminderRow) (authorization : Authorization) : SyncState :=
  { s with returned := s.returned ++ [(candidates, authorization)] }

def setClaim (j : Nat) (claim : Claim) (phase : ClaimPhase) : SyncState :=
  { s with claims := s.claims.set j { claim with phase := phase } }

/-- Return from a claim that gave nothing. -/
def retry (j : Nat) (claim : Claim) : SyncState :=
  (s.setClaim j claim .done).deliver claim.candidates ⟨[], some claim.retryAfterMs⟩

/-- The authorization that a terminal claim left waiting for its reconciliation. -/
def resume (j : Nat) : SyncState :=
  match s.claims[j]? with
  | some claim => if claim.phase = .reconciling then s.retry j claim else s
  | none => s

/-- The authorization goes on after its reconciliation, unless that was cancelled. -/
def release (loop : Loop) : SyncState :=
  match loop.authorization with
  | none => s
  | some j => if loop.phase = .raised .cancelled then s else s.resume j

/-- What the caller of a reconciliation does when it is over: `reconcile_snapshot` releases
local work, and the background task closes delivery again after a failure. -/
def conclude (i : Nat) (loop : Loop) : SyncState :=
  let s := { s with loops := s.loops.set i loop }
  match loop.phase with
  | .finished =>
    { s with deliveryReady := true, localOnlyDeliveryReleasedSinceConnect := true }.release loop
  | .raised e =>
    { s with deliveryReady := s.deliveryReady && (loop.authorization.isSome || e = SyncError.cancelled) }.release loop
  | _ => s

end SyncState

section Authorize

/-- The synchronous part of `authorize_due_delivery`: an authorization, or the claim to make. -/
def authorize (s : SyncState) (candidates : List ReminderRow) (nowMs : Int) (newClaimId : String) :
    Authorization ⊕ Claim :=
  let retry : Authorization := ⟨[], some (nowMs + deliveryClaimRetryMs)⟩
  let localOccurrenceIds := (candidates.filter (·.isUnpreparedLocalOnly)).map (·.occurrenceId)
  let remoteCandidates := candidates.filter (¬ ·.isUnpreparedLocalOnly)
  if candidates = [] then .inl {}
  else if ¬ s.localOnlyDeliveryReleasedSinceConnect then .inl retry
  else if localOccurrenceIds ≠ [] then
    .inl ⟨localOccurrenceIds, if remoteCandidates ≠ [] then some nowMs else none⟩
  else match remoteCandidates with
    | [] => .inl {}
    | candidate :: others =>
      if ¬ s.deliveryReady then .inl retry
      else if ¬ candidate.isOpen then .inl retry
      else
        let claimId := if candidate.deliveryClaimId.getD "" = "" then newClaimId
          else candidate.deliveryClaimId.getD ""
        .inr ⟨s.connects, candidates, candidate, others ≠ [], nowMs, .persisting claimId⟩

end Authorize

/-- What happens between two awaits of the client and of the tasks around it. -/
inductive SyncEvent where
  | connected
  | reconcile
  | respond (i : Nat) (answer : Answer)
  | apply (i : Nat)
  | authorize (candidates : List ReminderRow) (nowMs : Int) (newClaimId : String)
  | persist (j : Nat)
  | answer (j : Nat) (answer : ClaimAnswer)
  | acquire (j : Nat)
  | store (op : Op)

section Step
variable (host : SyncHost) (s : SyncState)

/-- `persist_reminder_delivery_claim_id` and what follows it up to the POST. -/
def persistClaim (j : Nat) (claim : Claim) (claimId : String) : SyncState :=
  match persistReminderDeliveryClaimId host.toHost claim.candidate.occurrenceId claim.candidate.revision claimId
      ⟨s.tables, none⟩ with
  | .error _ c => { s with tables := c.tables }.retry j claim
  | .ok persisted c =>
    let s := { s with tables := c.tables }
    match persisted with
    | none => s.retry j claim
    | some row =>
      match row.deliveryClaimId with
      | none => s.retry j claim
      | some claimId => s.setClaim j claim (.posting row claimId)

/-- The answer to the POST. -/
def answerClaim (j : Nat) (claim : Claim) (persisted : ReminderRow) (claimId : String) : ClaimAnswer → SyncState
  | .cancelled => s.setClaim j claim .done
  | .failed => s.retry j claim
  | .response response nowMs =>
    match validateDeliveryClaimResponse host response persisted nowMs with
    | .error _ => s.retry j claim
    | .ok (.acquired leaseExpiresAtMs) => s.setClaim j claim (.acquiring persisted claimId leaseExpiresAtMs)
    | .ok .held => s.retry j claim
    | .ok .terminal => ({ s with deliveryReady := false }.setClaim j claim .reconciling).begin (some j)

/-- `acquire_reminder_delivery_claim`, and the return. -/
def acquireClaim (j : Nat) (claim : Claim) (persisted : ReminderRow) (claimId : String) (leaseExpiresAtMs : Int) :
    SyncState :=
  match acquireReminderDeliveryClaim persisted.occurrenceId persisted.revision claimId leaseExpiresAtMs
      ⟨s.tables, none⟩ with
  | .error _ c => { s with tables := c.tables }.setClaim j claim .done
  | .ok acquired c =>
    let s := { s with tables := c.tables }
    if ¬ acquired then s.retry j claim
    else (s.setClaim j claim .done).deliver claim.candidates
      ⟨[persisted.occurrenceId], if claim.others then some claim.nowMs else none⟩

def SyncState.step (s : SyncState) : SyncEvent → SyncState
  | .connected => { s with
      deliveryReady := false
      localOnlyDeliveryReleasedSinceConnect := false
      connects := s.connects + 1 }
  | .reconcile => s.begin none
  | .respond i answer =>
    match s.loops[i]? with
    | some loop =>
      if loop.phase = .fetching then
        { s with localOnlyDeliveryReleasedSinceConnect :=
            s.localOnlyDeliveryReleasedSinceConnect || loop.releases answer }.conclude i (loop.respond host answer)
      else s
    | none => s
  | .apply i =>
    match s.loops[i]? with
    | some loop =>
      match loop.phase with
      | .applying (remote :: rows) page =>
        let (loop, tables) := loop.apply remote rows page s.tables
        { s with tables := tables }.conclude i loop
      | _ => s
    | none => s
  | .authorize candidates nowMs newClaimId =>
    match authorize s candidates nowMs newClaimId with
    | .inl authorization => s.deliver candidates authorization
    | .inr claim => { s with claims := s.claims ++ [claim] }
  | .persist j =>
    match s.claims[j]? with
    | some claim =>
      match claim.phase with
      | .persisting claimId => persistClaim host s j claim claimId
      | _ => s
    | none => s
  | .answer j answer =>
    match s.claims[j]? with
    | some claim =>
      match claim.phase with
      | .posting persisted claimId => answerClaim host s j claim persisted claimId answer
      | _ => s
    | none => s
  | .acquire j =>
    match s.claims[j]? with
    | some claim =>
      match claim.phase with
      | .acquiring persisted claimId leaseExpiresAtMs => acquireClaim s j claim persisted claimId leaseExpiresAtMs
      | _ => s
    | none => s
  | .store op => { s with tables := Reminders.step host.toHost s.tables op }

end Step
end PuffoAgent.Reminders
