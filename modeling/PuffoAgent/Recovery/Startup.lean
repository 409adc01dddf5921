import PuffoAgent.Covers.Completion
import PuffoAgent.Store.Turnless

/-! Startup recovery: what a restarted runtime does with the recovery record, the crash join in
`current_turn.json` and the turns that the store still lists as active. Every durable write is
one tick, and a fault may strike at any of them. -/
namespace PuffoAgent.Recovery
open Relational Stmt Store Projection Text

/-- `TurnRecovery`. -/
structure TurnRecovery where
  sessionRef : String
  turnRef : String
  providerSessionId : String
  providerTurnId : String
  owner : String
  reason : String
  durableTurnId : String := ""
  stopAttempted : Bool := false
  stopped : Bool := false
  retryRequested : Bool := false
  resolved : Bool := false
  deriving DecidableEq, Repr

/-- What a file of the workspace holds; `invalid` is a text that its reader refuses. -/
inductive Stored (α : Type) where
  | missing
  | invalid
  | holds (value : α)
  deriving Repr

/-- `RuntimeEventOutbox.state()`, as far as the recovery reads it. -/
structure OutboxState where
  sessionRef : Option String
  activeTurnRef : Option String
  nativeSessionId : Option String
  deriving DecidableEq, Repr

/-- `ActiveExactUnion`, as far as the recovery reads it. -/
structure ActiveUnion where
  turnId : String := ""
  messageIds : List String := []
  providerSessionId : Option String := none
  deriving DecidableEq, Repr

/-- The workspace and the runtime in it; `calls` are the store calls that have returned. -/
structure Workspace where
  tables : Tables
  calls : List Op
  record : Stored TurnRecovery
  currentTurn : Stored Json
  outbox : Option OutboxState
  active : ActiveUnion
  ticks : Nat

/-- Why a startup does not return. -/
inductive Failure where
  | crashed
  | cancelled
  | raised (message : String)
  deriving DecidableEq, Repr

/-- What can go wrong with a durable write: the process dies before it, the task is cancelled
or the call raises, before or after the write is committed. -/
inductive Fault where
  | crash
  | cancel (committed : Bool)
  | error (committed : Bool)
  deriving DecidableEq, Repr

abbrev StartupM := Stmt Failure Workspace

/-- A row as `MessageRoute` names its target. -/
structure MessageRoute where
  envelopeId : String
  kind : String
  spaceId : String := ""
  channelId : String := ""
  threadRootId : String := ""
  dmPeer : String := ""
  deriving DecidableEq, Repr

/-- `MessageRoute.target`. -/
def MessageRoute.target (route : MessageRoute) : List String :=
  if route.kind = "dm" then ["dm", route.dmPeer]
  else if route.kind = "thread" then ["thread", route.spaceId, route.channelId, route.threadRootId]
  else ["channel", route.spaceId, route.channelId]

/-- `asdict(route)`. -/
def MessageRoute.asDict (route : MessageRoute) : List (String × String) :=
  [("envelope_id", route.envelopeId), ("kind", route.kind), ("space_id", route.spaceId),
    ("channel_id", route.channelId), ("thread_root_id", route.threadRootId), ("dm_peer", route.dmPeer)]

/-- The parts of `PlannedTurn` that a recovery uses. -/
structure PlannedTurn where
  turnId : String
  messageIds : List String
  routes : List MessageRoute
  targets : List (List String)
  formattedBlocks : List String
  deriving DecidableEq, Repr

/-- What happens while the provider runs a resumed turn again: a page is admitted, the attempt
is bound to a session, or somebody else writes to the store. `joined` is the crash join that
`_write_current_turn` leaves. -/
inductive ResumeEvent where
  | admits (ids : List String) (joined : Json) (now : Int)
  | bind (providerSessionId : Option String) (joined : Json)
  | other (op : Op)

/-- What `_run_recovery_retries` ends with. -/
inductive ResumeResult where
  | succeeded
  | failed
  | cancelled
  deriving DecidableEq, Repr

/-- What a startup meets: the faults at each tick, the adapter, the resumed run and the clock. -/
structure Circumstances where
  faults : Nat → Option Fault
  host : Host
  isTwo : FloatText → Bool
  identityAliases : List String
  coversRenoticeEnabled : Bool
  providerSessionId : Option String
  canRetry : Bool
  resumed : List ResumeEvent
  result : ResumeResult
  reconciliationFails : Bool
  now : Int

section Comparisons

/-- `value == text`, where the text may be `None`. -/
def isText (text : Option String) : Json → Bool
  | .null => text = none
  | .str s => text = some s
  | _ => false

/-- `raw.get(key, text) == text`. -/
def agrees (raw : Json) (key : String) (text : Option String) : Bool := (raw.member key).all (isText text)

/-- `value == [...]`, item by item. -/
def isListOf {α : Type} (matches_ : α → Json → Bool) (expected : List α) : Json → Bool
  | .arr items => items.length = expected.length ∧ (expected.zip items).all fun p => matches_ p.1 p.2
  | _ => false

/-- `value == {...}` of texts. -/
def isDictOf (expected : List (String × String)) (value : Json) : Bool :=
  match value with
  | .obj members => expected.all (fun p => (value.member p.1).any (isText (some p.2))) ∧
      members.all fun p => p.1 ∈ expected.map (·.1)
  | _ => false

/-- A list or a dict cannot be looked up in a set. -/
def isHashable : Json → Bool
  | .arr _ | .obj _ => false
  | _ => true

def isDict : Json → Bool
  | .obj _ => true
  | _ => false

end Comparisons

section Startup
variable (env : Circumstances)

/-- A durable write, at its tick. -/
def durable (write : Workspace → Except Failure Workspace) : StartupM Unit := fun w =>
  let ticked := { w with ticks := w.ticks + 1 }
  let written := (write ticked).toOption.getD ticked
  match env.faults w.ticks with
  | some .crash => .error .crashed ticked
  | some (.cancel committed) => .error .cancelled (if committed then written else ticked)
  | some (.error committed) => .error (.raised "fault") (if committed then written else ticked)
  | none =>
    match write ticked with
    | .ok w' => .ok () w'
    | .error e => .error e ticked

/-- The workspace after a store call that returned. -/
def Workspace.call (w : Workspace) (op : Op) : Except Failure Workspace :=
  match op.perform ⟨w.tables, none⟩ with
  | .ok _ c => .ok { w with tables := c.tables, calls := w.calls ++ [op] }
  | .error _ _ => .error (.raised "the store refused the call")

def call (op : Op) : StartupM Unit := durable env (·.call op)

section Record

/-- `read_recovery`. -/
def readRecovery : StartupM (Option TurnRecovery) := fun w =>
  match w.record with
  | .missing => .ok none w
  | .invalid => .error (.raised "invalid turn recovery") w
  | .holds record => .ok (some record) w

/-- `write_recovery`. -/
def writeRecovery (record : TurnRecovery) : StartupM Unit :=
  durable env fun w => .ok { w with record := .holds record }

/-- `get_active_turn_runs`. -/
def getActiveTurnRuns (s : Tables) : List TurnRun :=
  (((s.turnRuns.select (·.state = .inTurn)).insertionSort
    (fun a b => toLex (a.startedAt, a.turnId) ≤ toLex (b.startedAt, b.turnId))).map
      (·.turnId)).filterMap (getTurnRun · s)

/-- The one active turn of the record's session, when it names no turn itself. -/
def durableCandidate (record : TurnRecovery) (s : Tables) : Option String :=
  match (getActiveTurnRuns s).filter
      (fun run => run.providerSessionId.getD "" = record.providerSessionId) with
  | [run] => some run.turnId
  | _ => none

end Record

/-- `_clear_terminal_turn`; an error of the unlink is passed over. -/
def clearTerminalTurn : StartupM Unit := do
  exec fun w => { w with active := {} }
  tryCatch (durable env fun w => .ok { w with currentTurn := .missing }) fun e =>
    match e with
    | .raised _ => pure ()
    | e => throw e

/-- Put the rows of a run back, or end it when it has none. -/
def requeueRun (turnId : String) (messageIds : List String) : StartupM Unit :=
  if messageIds ≠ [] then call env (.requeueMessages messageIds turnId env.now)
  else call env (.finalizeEmptyTurn turnId .requeued env.now)

def releaseNoticeDelivery (providerSessionId : Option String) : StartupM Unit :=
  call env (.releaseNoticeDelivery providerSessionId none)

section Quarantine

/-- The record with its durable turn, which is written down as soon as it is found. -/
def bindRecord (record : TurnRecovery) : StartupM TurnRecovery :=
  if record.durableTurnId ≠ "" then return record
  else do
    match ← query (durableCandidate record ·.tables) with
    | none => throw (.raised "recovery record has no unique durable Inbox binding")
    | some turnId =>
      writeRecovery env { record with durableTurnId := turnId }
      return { record with durableTurnId := turnId }

/-- Requeue the run, unless an earlier pass has. -/
def requeueOnce (run : TurnRun) : StartupM Unit :=
  if run.state = .inTurn then requeueRun env run.turnId run.messageIds
  else raiseIf (run.state ≠ .requeued) (.raised "recovery turn already settled unexpectedly")

/-- The rest of `_retry_quarantined_turn` for a bound record. -/
def settleQuarantined (record : TurnRecovery) : StartupM Unit := do
  match ← query (getTurnRun record.durableTurnId ·.tables) with
  | none => throw (.raised "recovery Inbox identity mismatch")
  | some run =>
    raiseIf (run.providerSessionId.getD "" ≠ record.providerSessionId)
      (.raised "recovery Inbox identity mismatch")
    requeueOnce env run
    releaseNoticeDelivery env run.providerSessionId
    clearTerminalTurn env
    writeRecovery env { record with resolved := true }

/-- `_retry_quarantined_turn`. -/
def retryQuarantinedTurn : StartupM Unit := do
  match ← readRecovery with
  | none => return ()
  | some record =>
    if record.resolved then return ()
    else
      raiseIf (¬ record.stopped ∨ ¬ record.retryRequested) (.raised "operator retry was not authorized")
      settleQuarantined env (← bindRecord env record)

/-- `resolve_effectless_recovery`. -/
def resolveEffectlessRecovery : StartupM Bool := do
  match ← readRecovery with
  | none => return true
  | some record =>
    if record.resolved then return true
    else if ¬ record.stopped ∨ record.retryRequested then return false
    else
      let candidate ← query (durableCandidate record ·.tables)
      match if record.durableTurnId ≠ "" then some record.durableTurnId else candidate with
      | none => return false
      | some turnId =>
        let run ← query (getTurnRun turnId ·.tables)
        if run.any (·.messageIds ≠ []) then return false
        else
          writeRecovery env { record with resolved := true }
          return true

end Quarantine

section Unwinding

/-- The identities of the outbox that an abandoned turn must agree with. -/
def joinMatches (raw : Json) (run : TurnRun) (outbox : OutboxState) : Bool :=
  let turnRef := outbox.activeTurnRef.getD ""
  let sessionRef := outbox.sessionRef.getD ""
  let nativeSessionId := outbox.nativeSessionId.getD ""
  turnRef ≠ "" ∧ sessionRef ≠ "" ∧ run.providerSessionId = some nativeSessionId ∧
    (¬ isDict raw ∨ ((raw.member "provider_session_id").all (fun v =>
        isText none v ∨ isText run.providerSessionId v) ∧
      agrees raw "native_session_id" (some nativeSessionId) ∧
      agrees raw "logical_session_ref" (some sessionRef) ∧ agrees raw "logical_turn_ref" (some turnRef)))

/-- The comparisons of `_abandon_recovery_event` come to the set lookup. -/
def looksUpSession (raw : Json) (run : TurnRun) (outbox : OutboxState) : Bool :=
  outbox.activeTurnRef.getD "" ≠ "" ∧ outbox.sessionRef.getD "" ≠ "" ∧
    run.providerSessionId = some (outbox.nativeSessionId.getD "") ∧ isDict raw

/-- `_abandon_recovery_event`. -/
def abandonRecoveryEvent (raw : Json) (run : TurnRun) : StartupM Unit := do
  match ← query (·.outbox) with
  | none => return ()
  | some outbox =>
    raiseIf (looksUpSession raw run outbox ∧ ¬ (raw.member "provider_session_id").all isHashable)
      (.raised "unhashable type")
    if joinMatches raw run outbox then
      durable env fun w => .ok w
      durable env fun w => .ok { w with
        outbox := some { outbox with
          activeTurnRef := some ""
          sessionRef := some (outbox.sessionRef.getD "")
          nativeSessionId := some (outbox.nativeSessionId.getD "") } }
    else return ()

/-- The rows an unwound run gives back: its own, or those of the active turn it has become. -/
def requeueIds (run : TurnRun) (durableIds : List String) (activated : Bool) (active : ActiveUnion) :
    List String :=
  if activated ∧ active.turnId = run.turnId then active.messageIds else durableIds

/-- An abandoned run that has rows is reported first. -/
def abandonRun (raw : Json) (run : TurnRun) (ids : List String) : StartupM Unit :=
  if ids ≠ [] then do
    abandonRecoveryEvent env raw run
    requeueRun env run.turnId ids
  else requeueRun env run.turnId ids

/-- `_requeue_recovery_run`. -/
def requeueRecoveryRun (raw : Json) (run : Option TurnRun) (durableIds : List String)
    (activated : Bool) : StartupM Unit :=
  match run with
  | none => return ()
  | some run =>
    if run.state ≠ .inTurn then return ()
    else do
      abandonRun env raw run (← query (requeueIds run durableIds activated ·.active))
      releaseNoticeDelivery env run.providerSessionId

/-- `_unwind_recovery`. -/
def unwindRecovery (raw : Json) (run : Option TurnRun) (durableIds : List String) (activated : Bool) :
    StartupM Unit := do
  requeueRecoveryRun env raw run durableIds activated
  clearTerminalTurn env

end Unwinding

section Plan

/-- `canonical_target_parts` and `route_for`. -/
def routeFor (m : StoredMessage) : MessageRoute :=
  if m.row.envelopeKind = "dm" then { envelopeId := m.row.envelopeId, kind := "dm"
                                      dmPeer := if m.row.senderSlug ≠ "" then m.row.senderSlug
                                        else m.row.recipientSlug.getD "" }
  else
    let rootId := effectiveThreadRoot env.host m ""
    { envelopeId := m.row.envelopeId
      kind := if rootId ≠ "" then "thread" else "channel"
      spaceId := m.row.spaceId.getD ""
      channelId := m.row.channelId.getD ""
      threadRootId := rootId }

/-- `_reconstruct_exact_turn`. -/
def reconstructExactTurn (turnId : String) (rows : List StoredMessage) : Except ProjectionError PlannedTurn := do
  let blocks ← rows.mapM (formatStoredMessage env.host env.identityAliases)
  let routes := rows.map (routeFor env)
  return ⟨turnId, rows.map (·.row.envelopeId), routes, (routes.map (·.target)).eraseDups, blocks⟩

/-- `_recovery_plan`. -/
def recoveryPlan (raw : Json) (turnId : String) (run : TurnRun) (durableIds : List String)
    (s : Tables) : Except ProjectionError (Option PlannedTurn) := do
  let session := run.providerSessionId
  let rows := if session.getD "" ≠ "" then Covers.getInTurnMessages turnId session s else []
  let planned ← reconstructExactTurn env turnId rows
  return if session = none ∨ env.providerSessionId ≠ session then none
    else if rows = [] ∨ planned.messageIds ≠ durableIds then none
    else if ¬ (raw.member "message_ids").any (isListOf (fun id => isText (some id)) durableIds) ∨
        ¬ (raw.member "routes").any (isListOf (fun route => isDictOf route.asDict) planned.routes) ∨
        ¬ (raw.member "targets").any
          (isListOf (fun target => isListOf (fun part => isText (some part)) target) planned.targets) then none
    else some planned

/-- `_recovery_outbox_diagnostic`. -/
def recoveryOutboxDiagnostic (raw : Json) (run : TurnRun) : Option OutboxState → String
  | none => ""
  | some outbox =>
    if outbox.activeTurnRef.getD "" = "" then ""
    else if outbox.nativeSessionId ≠ run.providerSessionId ∨
        ¬ agrees raw "provider_session_id" run.providerSessionId ∨
        ¬ agrees raw "native_session_id" outbox.nativeSessionId ∨
        ¬ agrees raw "logical_session_ref" outbox.sessionRef ∨
        ¬ agrees raw "logical_turn_ref" outbox.activeTurnRef then
      "crash join and Runtime Event identity mismatch"
    else "Driver does not support in-flight turn recovery"

end Plan

section Resumption

/-- `_activate_recovery`. -/
def activateRecovery (planned : PlannedTurn) (durableIds : List String) (session : Option String) :
    StartupM Unit :=
  exec fun w => { w with active := ⟨planned.turnId, durableIds, session⟩ }

/-- A fault that strikes another task leaves the startup running. -/
def elsewhere (x : StartupM Unit) : StartupM Unit :=
  tryCatch x fun e => match e with
    | .crashed => throw .crashed
    | _ => pure ()

/-- `_write_current_turn`. -/
def writeCurrentTurn (joined : Json) : StartupM Unit :=
  durable env fun w => .ok { w with currentTurn := .holds joined }

/-- The admission of a page to the active turn. -/
def admitPage (ids : List String) (joined : Json) (now : Int) : StartupM Unit := do
  let active ← query (·.active)
  call env (.admitMessages ids active.turnId active.providerSessionId none now)
  exec fun w => { w with active := { w.active with messageIds := turnMessageIds w.tables active.turnId } }
  writeCurrentTurn env joined

/-- The session of a retry: the one its event names, or the one before. -/
def retrySession (active : ActiveUnion) (providerSessionId : Option String) : Option String :=
  if providerSessionId.getD "" ≠ "" then providerSessionId else active.providerSessionId

/-- Durable ownership follows a replacement session. -/
def transferTo (active : ActiveUnion) (session : Option String) : StartupM Unit :=
  if session = active.providerSessionId then return ()
  else call env (.transferTurnSession active.turnId active.providerSessionId (session.getD ""))

/-- `_admit_retry_attempt`. -/
def admitRetryAttempt (providerSessionId : Option String) (joined : Json) : StartupM Unit := do
  let active ← query (·.active)
  transferTo env active (retrySession active providerSessionId)
  exec fun w => { w with
    active := { w.active with providerSessionId := retrySession active providerSessionId } }
  writeCurrentTurn env joined

def resumeEvent : ResumeEvent → StartupM Unit
  | .admits ids joined now => elsewhere (admitPage env ids joined now)
  | .bind providerSessionId joined => elsewhere (admitRetryAttempt env providerSessionId joined)
  | .other op => if op.turnless then elsewhere (call env op) else return ()

/-- `_run_recovery_retries`. -/
def runRecoveryRetries : List ResumeEvent → StartupM Unit
  | [] => return ()
  | event :: events => do
    resumeEvent env event
    runRecoveryRetries events

/-- `_reconcile_uncovered_messages` of the active turn, and what is left to do after it. -/
def reconcileActive (turnId : String) (w : Workspace) : Covers.Finalization :=
  let rt : Covers.Runtime := ⟨w.tables, env.coversRenoticeEnabled, env.identityAliases, fun _ => .idle⟩
  if env.reconciliationFails then rt.reconciliationFailed turnId
  else match rt.classify env.host turnId w.active.providerSessionId with
    | .classified turnId rows candidates => rt.reconcile turnId rows candidates
    | found => found

/-- The completion with the rows that go back. -/
def completeActive (turnId : String) (rows renoticeIds : List String) (active : ActiveUnion) : StartupM Unit :=
  call env (Covers.Runtime.completion turnId rows renoticeIds active.providerSessionId active.messageIds
    env.now)

/-- The fallback of a failed reconciliation, and the plain completion behind it. -/
def completeUnreconciled (turnId : String) (active : ActiveUnion) : StartupM Unit :=
  tryCatch (call env (.completeTurnRenoticeUnrenotified turnId active.providerSessionId env.now)) fun e =>
    match e with
    | .raised _ => completeActive env turnId [] [] active
    | e => throw e

/-- `_finalize_active_messages`. -/
def finalizeActiveMessages (turnId : String) : StartupM Unit := do
  let active ← query (·.active)
  match ← query (reconcileActive env turnId) with
  | .reconciled _ rows renoticeIds => completeActive env turnId rows renoticeIds active
  | _ => completeUnreconciled env turnId active

/-- `_complete_recovery`. -/
def completeRecovery (turnId : String) : StartupM Unit := do
  finalizeActiveMessages env turnId
  releaseNoticeDelivery env (← query (·.active.providerSessionId))
  clearTerminalTurn env

/-- `_cancel_recovery`. -/
def cancelRecovery (turnId : String) : StartupM Unit := do
  let active ← query (·.active)
  call env (.requeueMessages active.messageIds turnId env.now)
  releaseNoticeDelivery env active.providerSessionId
  clearTerminalTurn env

/-- `_resume_activated_turn`. -/
def resumeActivatedTurn (turnId : String) (raw : Json) (run : TurnRun) (durableIds : List String) :
    StartupM Unit :=
  if ¬ env.canRetry then unwindRecovery env raw (some run) durableIds true
  else tryCatch (do
      runRecoveryRetries env env.resumed
      match env.result with
      | .succeeded => completeRecovery env turnId
      | .failed => unwindRecovery env raw (some run) durableIds true
      | .cancelled => throw .cancelled)
    fun e => match e with
      | .crashed => throw .crashed
      | .cancelled => do
        cancelRecovery env turnId
        throw .cancelled
      | .raised _ => unwindRecovery env raw (some run) durableIds true

end Resumption

section Run

/-- `recovery_required`. -/
def recoveryRequired : StartupM Bool := do
  return (← readRecovery).any (¬ ·.resolved)

/-- The turn that the crash join names. -/
def joinedTurnId (raw : Json) : Option String :=
  match raw.member "turn_id" with
  | some (.str turnId) => if turnId ≠ "" then some turnId else none
  | _ => none

/-- `raw.get("version") == CURRENT_TURN_VERSION`. -/
def isCurrentVersion (raw : Json) : Bool :=
  match raw.member "version" with
  | some (.int n) => n = 2
  | some (.float f) => env.isTwo f
  | _ => false

/-- The ids that a run still holds. -/
def durableIds (run : TurnRun) : List String := if run.state = .inTurn then run.messageIds else []

/-- A planned recovery runs the turn again; without a plan the run is unwound. -/
def resumePlanned (raw : Json) (run : TurnRun) :
    Except ProjectionError (Option PlannedTurn) → StartupM Unit
  | .error _ => throw (.raised "the formatter raised")
  | .ok none => unwindRecovery env raw (some run) (durableIds run) false
  | .ok (some planned) => do
    activateRecovery planned (durableIds run) run.providerSessionId
    resumeActivatedTurn env run.turnId raw run (durableIds run)

/-- `recover_current_turn`, once the run of its crash join has been found. -/
def recoverRun (raw : Json) (run : TurnRun) : StartupM Unit :=
  if ¬ isDict raw ∨ ¬ isCurrentVersion env raw ∨ run.state ≠ .inTurn ∨ durableIds run = [] then
    unwindRecovery env raw (some run) (durableIds run) false
  else do
    let diagnostic ← query (recoveryOutboxDiagnostic raw run ·.outbox)
    if diagnostic ≠ "" then unwindRecovery env raw (some run) (durableIds run) false
    else resumePlanned env raw run (← query (recoveryPlan env raw run.turnId run (durableIds run) ·.tables))

/-- `recover_current_turn`, once a crash join has been read. -/
def recoverJoin (raw : Json) : StartupM Unit := do
  match ← query (fun w => (joinedTurnId raw).bind (getTurnRun · w.tables)) with
  | none => unwindRecovery env raw none [] false
  | some run => recoverRun env raw run

/-- `recover_current_turn`. -/
def recoverCurrentTurn : StartupM Unit := do
  if ← recoveryRequired then
    match ← readRecovery with
    | some record => if record.retryRequested ∧ record.stopped then retryQuarantinedTurn env else return ()
    | none => return ()
  else match ← query (·.currentTurn) with
    | .missing => return ()
    | .invalid => clearTerminalTurn env
    | .holds raw => recoverJoin env raw

/-- The loop of `recover_orphaned_turns`. -/
def requeueOrphans : List TurnRun → StartupM Unit
  | [] => return ()
  | run :: runs => do
    requeueRun env run.turnId run.messageIds
    releaseNoticeDelivery env run.providerSessionId
    requeueOrphans runs

/-- `recover_orphaned_turns`. -/
def recoverOrphanedTurns : StartupM Unit := do
  if ← resolveEffectlessRecovery env then requeueOrphans env (← query (getActiveTurnRuns ·.tables))
  else return ()

/-- The recovery at the start of `GlobalInboxRuntime.run`. -/
def startup : StartupM Unit := do
  recoverCurrentTurn env
  recoverOrphanedTurns env

end Run
end Startup
end PuffoAgent.Recovery
