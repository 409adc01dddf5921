import PuffoAgent.Relational.Table
import PuffoAgent.Runtime.Admission

/-! The runtime manager: one provider turn at a time, the events of the driver and the
terminals that end a turn. Commands and events hold one lock, so each is one step. -/
namespace PuffoAgent.Runtime
open Relational Text

/-- The driver's own turn references. -/
abbrev TurnRef := String

/-- `HarnessEventType`; other names are passed through. -/
inductive EventKind where
  | runtimeReady
  | runtimeWarning
  | sessionOpened
  | sessionResumed
  | runtimeExited
  | toolStarted
  | toolCompleted
  | permissionRequested
  | turnCompleted
  | turnAbandoned
  | autonomousStarted
  | autonomousCompleted
  | other (name : String)
  deriving DecidableEq, Repr

/-- The kinds that end a turn. -/
def EventKind.isTerminal (k : EventKind) : Bool :=
  k = .turnCompleted ∨ k = .turnAbandoned ∨ k = .autonomousCompleted

/-- The kinds the reader passes on without the lock. -/
def EventKind.isSession (k : EventKind) : Bool :=
  k = .runtimeReady ∨ k = .runtimeWarning ∨ k = .sessionOpened ∨ k = .sessionResumed

/-- An event as the manager publishes it, under its own references. -/
structure HarnessEvent where
  kind : EventKind
  driver : String
  sessionRef : Nat
  turnRef : Option Nat
  nativeSessionId : String
  nativeTurnId : String
  data : Json

/-- An event as the driver reports it. -/
structure DriverEvent where
  kind : EventKind
  driver : String
  turnRef : Option TurnRef
  nativeSessionId : String
  nativeTurnId : String
  data : Json
  nativeDiagnostic : Option ToolFact

/-- A future of `_terminal`. -/
structure Waiter where
  turn : Nat
  outcome : Option (Except String HarnessEvent)

/-- A call of a continuation: `ProviderAdmissionEvent` without its time. -/
structure Firing where
  callback : Callback
  planningCycleKey : String
  providerSessionId : String
  providerTurnId : String
  toolCallId : String

/-- Logical references count up from zero. The last fields record what left the manager. -/
structure Manager where
  closed : Bool
  hasSink : Bool
  opened : Bool
  driverName : String
  sessionRef : Nat
  nativeSessionId : String
  confirmedNativeSessionId : String
  resumeUnconfirmed : Bool
  resumeFailureStreak : Nat
  inputAdmitted : Bool
  activeTurn : Option Nat
  activeDriverTurn : Option TurnRef
  nativeTurnId : String
  turnRefs : Table (TurnRef × Nat) TurnRef Prod.fst
  autonomousTurn : Option Nat
  autonomousTools : List String
  permissionRefs : List String
  continuationAdmissions : List ToolResultAdmission
  terminal : Table Waiter Nat Waiter.turn
  nextRef : Nat
  accepted : List Nat
  persisted : List HarnessEvent
  fanned : List HarnessEvent
  fired : List Firing

def Manager.initial (hasSink : Bool) (driverName nativeSessionId : String) : Manager where
  closed := false
  hasSink := hasSink
  opened := false
  driverName := driverName
  sessionRef := 0
  nativeSessionId := nativeSessionId
  confirmedNativeSessionId := ""
  resumeUnconfirmed := false
  resumeFailureStreak := 0
  inputAdmitted := false
  activeTurn := none
  activeDriverTurn := none
  nativeTurnId := ""
  turnRefs := .empty
  autonomousTurn := none
  autonomousTools := []
  permissionRefs := []
  continuationAdmissions := []
  terminal := .empty
  nextRef := 1
  accepted := []
  persisted := []
  fanned := []
  fired := []

/-- What the event sink did with an event. -/
inductive SinkOutcome where
  | persisted
  | raised
  | cancelled
  deriving DecidableEq, Repr

/-- The sink as the event reader meets it: nothing cancels the reader while it holds the lock. -/
def SinkOutcome.ofReader (persists : Bool) : SinkOutcome := if persists then .persisted else .raised

/-- How a terminal leaves: the sink, and whether a failed announcement of an autonomous
terminal stopped the provider. -/
structure Delivery where
  sink : SinkOutcome
  providerStopped : Bool

namespace Manager
variable (m : Manager)

/-- A `turn.abandoned` event of the manager itself. -/
def abandoned (turn : Nat) (nativeSessionId : String) (data : List (String × Json)) : HarnessEvent :=
  ⟨.turnAbandoned, m.driverName, m.sessionRef, some turn, nativeSessionId, m.nativeTurnId,
    .obj (("outcome", .str "abandoned") :: data)⟩

def failureData (errorCode : String) (retryable : Bool) : List (String × Json) :=
  [("error_code", .str errorCode), ("retryable", .bool retryable)]

def fanoutEvent (e : HarnessEvent) : Manager := { m with fanned := e :: m.fanned }

def persist (e : HarnessEvent) : Manager := { m with persisted := e :: m.persisted }

/-- `_publish_event`. An event the sink did not take is not fanned out. -/
def publishEvent (e : HarnessEvent) (sink : SinkOutcome) : Manager :=
  if ¬ m.hasSink then m.fanoutEvent e
  else match sink with
    | .persisted => (m.persist e).fanoutEvent e
    | .raised | .cancelled => m

/-- Set a pending future. -/
def settle (turn : Nat) (outcome : Except String HarnessEvent) : Manager :=
  let terminal := m.terminal.update (fun w => w.turn = turn ∧ w.outcome.isNone)
    (fun w => { w with outcome := some outcome }) (fun _ => rfl)
  { m with terminal := terminal }

def discardPendingAdmissions : Manager := { m with continuationAdmissions := [] }

/-- `_complete_turn`. -/
def completeTurn (e : HarnessEvent) (turn : Nat) : Manager :=
  let m := m.settle turn (.ok e)
  let refs := match m.activeDriverTurn with
    | some ref => m.turnRefs.delete (·.1 = ref)
    | none => m.turnRefs
  { m with
    turnRefs := refs
    activeTurn := none
    activeDriverTurn := none
    nativeTurnId := ""
    permissionRefs := [] }.discardPendingAdmissions

/-- What the subscribers get: an abandonment when the sink raised. -/
def delivered (e : HarnessEvent) (turn : Nat) (sink : SinkOutcome) : HarnessEvent :=
  if m.hasSink ∧ sink = .raised then
    { e with
      kind := .turnAbandoned
      turnRef := some turn
      data := .obj (("outcome", .str "abandoned") :: failureData "event_persistence_failed" true) }
  else e

/-- `_publish_terminal_locked`. -/
def publishTerminal (e : HarnessEvent) (turn : Nat) (d : Delivery) : Manager :=
  let m := if m.hasSink ∧ d.sink = .persisted then m.persist e else m
  let autonomous := m.autonomousTurn = some turn
  let m := (m.fanoutEvent (m.delivered e turn d.sink)).completeTurn (m.delivered e turn d.sink) turn
  if autonomous then
    { m with autonomousTurn := none, opened := m.opened && !d.providerStopped }
  else m

/-- `_clear_native_session`. -/
def clearNativeSession : Manager :=
  { m with
    nativeSessionId := ""
    inputAdmitted := false
    resumeFailureStreak := 0
    confirmedNativeSessionId :=
      if m.confirmedNativeSessionId = m.nativeSessionId then "" else m.confirmedNativeSessionId }

/-- `_retire_runtime_locked` once no turn is active. -/
def retireRuntimeLocked (preserveSession : Bool) : Manager :=
  if preserveSession then { m with opened := false }
  else { m with opened := false, sessionRef := m.nextRef, nextRef := m.nextRef + 1 }.clearNativeSession

/-- `_discard_failed_start_locked`. -/
def discardFailedStart (turn : Nat) (retire : Bool) : Manager :=
  let m := { m with
    inputAdmitted := false
    activeTurn := none
    activeDriverTurn := none
    nativeTurnId := ""
    terminal := m.terminal.delete (·.turn = turn)
    permissionRefs := [] }.discardPendingAdmissions
  if retire then m.retireRuntimeLocked true else m

end Manager

/-- The recovery record of the workspace. -/
structure Recovery where
  resolved : Bool
  providerSessionId : String

/-- `recovery_required`. -/
def recoveryRequired (record : Option Recovery) : Bool := record.any fun r => ¬ r.resolved

structure Opened where
  nativeSessionId : String
  resumed : Bool

/-- How a failed open is read: `refused` stands for cancellation and failed cleanup. -/
inductive OpenFailure where
  | refused
  | unavailable
  | transient
  | unclassified

/-- What `_open_locked` meets: the recovery record and one or two opens of the driver. -/
structure OpenAttempt where
  record : Option Recovery
  first : Except OpenFailure Opened
  fresh : Option Opened

namespace Manager
variable (m : Manager)

def installOpened (o : Opened) : Manager :=
  { m with
    opened := true
    nativeSessionId := o.nativeSessionId
    resumeFailureStreak := 0
    resumeUnconfirmed := o.resumed && o.nativeSessionId != m.confirmedNativeSessionId }

/-- The open without a saved session. -/
def openFresh (a : OpenAttempt) : Manager × Bool :=
  let m := m.clearNativeSession
  match a.fresh with
  | some o => (m.installOpened o, true)
  | none => (m, false)

/-- `_open_locked`, and whether it returned. -/
def openLocked (resume : Bool) (a : OpenAttempt) : Manager × Bool :=
  if m.closed ∨ recoveryRequired a.record then (m, false)
  else
    let m := if a.record.any (·.providerSessionId = m.nativeSessionId) then m.clearNativeSession else m
    if m.opened then (m, true)
    else match a.first with
      | .ok o => (m.installOpened o, true)
      | .error failure =>
        if ¬ resume ∨ m.nativeSessionId = "" then (m, false)
        else match failure with
          | .refused => (m, false)
          | .unavailable => m.openFresh a
          | .transient => ({ m with resumeFailureStreak := 0 }, false)
          | .unclassified =>
            let m := { m with resumeFailureStreak := m.resumeFailureStreak + 1 }
            if m.resumeFailureStreak < 3 then (m, false) else m.openFresh a

end Manager

inductive StartOutcome where
  | raised
  | unsupported
  | rejected
  | accepted (turnRef : TurnRef) (nativeTurnId : String)

inductive SteerOutcome where
  | raised
  | unsupported
  | accepted
  | rejected
  | ambiguous (delivery : Delivery)

namespace Manager
variable (m : Manager)

/-- A new logical turn with its future; settled futures are released. -/
def beginTurn : Manager :=
  { m with
    activeTurn := some m.nextRef
    terminal := (m.terminal.delete (·.outcome.isSome)).insertOrIgnore ⟨m.nextRef, none⟩
    nextRef := m.nextRef + 1 }

/-- The driver's reference and the provider's id of the turn that has begun. -/
def bindTurn (turn : Nat) (ref : TurnRef) (nativeTurnId : String) : Manager :=
  { m with
    activeDriverTurn := some ref
    turnRefs := m.turnRefs.assign (ref, turn)
    nativeTurnId := nativeTurnId
    accepted := turn :: m.accepted }

/-- `start_turn` from the new logical reference on. -/
def launchTurn (outcome : StartOutcome) : Manager :=
  let turn := m.nextRef
  let m := m.beginTurn
  match outcome with
  | .raised => m.discardFailedStart turn true
  | .unsupported => m.discardFailedStart turn false
  | .rejected => m.discardFailedStart turn true
  | .accepted ref nativeTurnId => { m.bindTurn turn ref nativeTurnId with inputAdmitted := true }

def startTurn (record : Option Recovery) (a : OpenAttempt) (beforeStart : Bool)
    (outcome : StartOutcome) : Manager :=
  if m.closed ∨ recoveryRequired record then m
  else
    let (m, opened) := if m.opened then (m, true) else m.openLocked true a
    if ¬ opened ∨ m.activeTurn.isSome ∨ ¬ beforeStart then m else m.launchTurn outcome

/-- Abandon the turn under the manager's own references. -/
def abandonLocked (turn : Nat) (errorCode : String) (retryable : Bool) (d : Delivery) : Manager :=
  m.publishTerminal (m.abandoned turn m.nativeSessionId (failureData errorCode retryable)) turn d

/-- `_validate_active` and the assertion after it. -/
def steerable (turn : Nat) : Bool := m.activeTurn = some turn ∧ m.activeDriverTurn.isSome

def steerTurn (turn : Nat) (outcome : SteerOutcome) : Manager :=
  if ¬ m.steerable turn then m
  else match outcome with
    | .ambiguous d =>
      (m.abandonLocked turn "input_admission_ambiguous" true d).retireRuntimeLocked false
    | .raised | .unsupported | .accepted | .rejected => m

def resolvePermission (turn : Nat) (permission : String) (accepted : Bool) : Manager :=
  if m.activeTurn = some turn ∧ permission ∈ m.permissionRefs ∧ accepted then
    { m with permissionRefs := m.permissionRefs.filter (· ≠ permission) }
  else m

def abandonTurn (turn : Nat) (reason : String) (retryable : Bool) (d : Delivery) : Manager :=
  if m.activeTurn = some turn then m.abandonLocked turn reason retryable d else m

def timeoutTurn (turn : Nat) (d : Delivery) : Manager :=
  if ¬ m.steerable turn then m
  else (m.abandonLocked turn "turn_timeout" true d).retireRuntimeLocked false

def retireRuntime (preserveSession : Bool) : Manager :=
  if m.activeTurn.isSome then m else m.retireRuntimeLocked preserveSession

def reloadResources (preserveSession cleaned : Bool) (a : OpenAttempt) : Manager :=
  if m.activeTurn.isSome then m
  else
    let m := m.retireRuntimeLocked preserveSession
    if cleaned then (m.openLocked preserveSession a).1 else m

def rolloverNativeSession (cleaned : Bool) (a : OpenAttempt) : Manager :=
  if m.closed ∨ m.activeTurn.isSome then m
  else
    let m := { m with opened := false }.clearNativeSession
    if cleaned then (m.openLocked false a).1 else m

/-- `close`. Pending futures fail, and an autonomous turn still gets its terminal. -/
def close (d : Delivery) : Manager :=
  if m.closed then m
  else
    let m := { m with closed := true, opened := false }
    let m := match m.autonomousTurn with
      | some turn => m.abandonLocked turn "runtime_closed" true d
      | none => m
    { m with terminal := .empty }

/-- `wait_terminal` returning: the future is released. -/
def waitTerminal (turn : Nat) : Manager :=
  { m with terminal := m.terminal.delete fun w => w.turn = turn ∧ w.outcome.isSome }

/-- `register_continuation`. -/
def registerContinuation (platform : Platform) (r : Registration) : Manager :=
  match m.activeTurn with
  | none => m
  | some turn =>
    if m.nativeTurnId = "" then m
    else
      let admission := ToolResultAdmission.build platform ⟨m.nextRef, turn⟩ m.nativeTurnId r
      { m with
        continuationAdmissions := m.continuationAdmissions ++ [admission]
        nextRef := m.nextRef + 1 }

end Manager

/-- What the reader meets while it handles one event: whether recovery is required, whether
the capabilities name a child process per turn, whether the sink takes the event and the
terminal, whether a continuation raises, and whether a failed announcement stopped the provider. -/
structure Reading where
  recoveryRequired : Bool
  perTurnChild : Bool
  observes : Bool
  persists : Bool
  continues : Bool
  providerStopped : Bool

def Reading.delivery (r : Reading) : Delivery := ⟨.ofReader r.persists, r.providerStopped⟩

/-- `{**data, name: value}`. -/
def withMember (name : String) (value : Json) : Json → Json
  | .obj members => .obj (Json.setMember name value members)
  | data => data

namespace Manager
variable (platform : Platform) (m : Manager)

/-- `self.driver_name = native.driver or self.driver_name`. -/
def learnDriver (e : DriverEvent) : Manager :=
  { m with driverName := if e.driver = "" then m.driverName else e.driver }

/-- The logical turn of an event. -/
def logicalTurn (e : DriverEvent) : Option Nat :=
  e.turnRef.bind fun ref => (m.turnRefs.get? ref).map (·.2)

/-- The event under the manager's references. -/
def project (e : DriverEvent) (turn : Option Nat) : HarnessEvent :=
  ⟨e.kind, e.driver, m.sessionRef, turn, e.nativeSessionId, e.nativeTurnId, e.data⟩

/-- `_adopt_driver_turn_locked`: a provider turn that the driver opened on its own. -/
def adoptDriverTurn (e : DriverEvent) (recovering : Bool) : Option Manager :=
  match e.turnRef with
  | none => none
  | some ref =>
    if m.activeTurn.isSome ∨ recovering then none
    else some
      { m.beginTurn.bindTurn m.nextRef ref e.nativeTurnId with
        autonomousTurn := some m.nextRef
        autonomousTools := [] }

/-- `_observe_autonomous_activity`, without its deadline. -/
def observeAutonomousActivity (e : HarnessEvent) : Manager :=
  if m.autonomousTurn.isNone ∨ e.turnRef ≠ m.autonomousTurn then m
  else
    let value := e.data.member "tool_call_ref"
    let tool := if value.any Json.truthy then platform.host.text value else "unknown"
    match e.kind with
    | .toolStarted => { m with autonomousTools := m.autonomousTools.insert tool }
    | .toolCompleted => { m with autonomousTools := m.autonomousTools.filter (· ≠ tool) }
    | _ => m

/-- The admission that the event selects, with its place. -/
def selected (e : DriverEvent) : Option (ToolResultAdmission × Nat) :=
  match e.nativeDiagnostic with
  | none => none
  | some f =>
    if e.kind = .toolCompleted ∧ e.nativeSessionId = m.nativeSessionId ∧
        e.nativeTurnId = m.nativeTurnId ∧ f.isResult then
      selectAdmission platform m.continuationAdmissions e.nativeTurnId f
    else none

/-- `_admit_matching_tool_result`. -/
def admitMatchingToolResult (e : DriverEvent) : Manager :=
  match m.selected platform e with
  | none => m
  | some (a, index) =>
    let firing : Firing := ⟨a.callback, a.planningCycleKey, m.nativeSessionId, e.nativeTurnId,
      (e.nativeDiagnostic.map (·.toolCallId platform)).getD ""⟩
    { m with
      continuationAdmissions := m.continuationAdmissions.eraseIdx index
      fired := firing :: m.fired }

def notePermission (e : HarnessEvent) : Manager :=
  let value := e.data.member "permission_ref"
  if e.kind = .permissionRequested ∧ value.any Json.truthy then
    { m with permissionRefs := m.permissionRefs.insert (platform.host.text value) }
  else m

/-- `_handle_runtime_exit_locked`: the active turn ends with the runtime. -/
def handleRuntimeExit (e : HarnessEvent) (r : Reading) : Manager :=
  let m := m.publishEvent e (.ofReader r.observes)
  let unconfirmed := m.resumeUnconfirmed
  let failedNativeSessionId := m.nativeSessionId
  let m := { m with resumeUnconfirmed := false }
  let m := if unconfirmed then m.clearNativeSession else m
  let m := match m.activeTurn with
    | none => m
    | some turn =>
      let code := platform.host.text (e.data.member "error_code")
      let data := if code ≠ "" then [("error_code", Json.str code)]
        else failureData (if unconfirmed then "resume_unconfirmed" else "runtime_exited") true
      m.publishTerminal (m.abandoned turn failedNativeSessionId data) turn r.delivery
  { m with opened := false }

/-- `_retire_invalid_resume_locked`. -/
def retireInvalidResume (e : HarnessEvent) (turn : Nat) (r : Reading) : Manager :=
  let m := { m with resumeUnconfirmed := false }.clearNativeSession
  let m := m.publishTerminal { e with data := withMember "retryable" (.bool true) e.data } turn r.delivery
  { m with opened := false }

/-- A turn that succeeded confirms its session. -/
def confirmSession : Manager :=
  { m with resumeUnconfirmed := false, confirmedNativeSessionId := m.nativeSessionId }

/-- The end of `_consume_event_locked` for an event of an own turn that ends it. -/
def finishTurn (e : HarnessEvent) (turn : Nat) (r : Reading) : Manager :=
  if e.kind = .turnCompleted then
    let outcome := platform.host.text (e.data.member "outcome")
    if outcome = "" ∨ outcome = "succeeded" then m.confirmSession.publishTerminal e turn r.delivery
    else if asText (e.data.member "error_code") = some "invalid_resume" then m.retireInvalidResume e turn r
    else m.publishTerminal e turn r.delivery
  else m.publishTerminal e turn r.delivery

/-- The end of `_consume_event_locked`: the runtime exits, a turn ends, or the event passes on. -/
def dispatchEvent (e : HarnessEvent) (r : Reading) : Manager :=
  if e.kind = .runtimeExited then m.handleRuntimeExit platform e r
  else match e.turnRef with
    | some turn =>
      if e.kind.isTerminal then m.finishTurn platform e turn r
      else m.publishEvent e (.ofReader r.observes)
    | none => m.publishEvent e (.ofReader r.observes)

/-- The event under its logical turn. A continuation that raises ends it. -/
def routeEvent (native : DriverEvent) (r : Reading) : Manager :=
  let e := m.project native (m.logicalTurn native)
  let fires := (m.selected platform native).isSome
  let m := (m.observeAutonomousActivity platform e).admitMatchingToolResult platform native
  if fires ∧ ¬ r.continues then m else (m.notePermission platform e).dispatchEvent platform e r

/-- `_consume_event_locked`. -/
def consumeEvent (native : DriverEvent) (r : Reading) : Manager :=
  let m := m.learnDriver native
  if native.kind = .autonomousStarted then
    match m.adoptDriverTurn native r.recoveryRequired with
    | none => m
    | some m => m.routeEvent platform native r
  else m.routeEvent platform native r

/-- The session events of `_consume_events`. -/
def consumeSession (native : DriverEvent) (r : Reading) : Manager :=
  let m := m.learnDriver native
  let learns := (native.kind = .sessionOpened ∨ native.kind = .sessionResumed) ∧ r.perTurnChild ∧
    native.nativeSessionId ≠ ""
  let m := if learns then { m with nativeSessionId := native.nativeSessionId } else m
  m.publishEvent (m.project native none) (.ofReader r.observes)

/-- One event of the driver. -/
def readEvent (native : DriverEvent) (r : Reading) : Manager :=
  if native.kind.isSession then m.consumeSession native r else m.consumeEvent platform native r

/-- `_fail_runtime_locked`. -/
def failRuntime (reason : String) (d : Delivery) : Manager :=
  let m := match m.activeTurn with
    | some turn => m.abandonLocked turn reason true d
    | none => m
  { m with opened := false }

/-- The watchdog of an autonomous turn at its deadline. It stops the provider unless a tool
or a permission is waited for. -/
def superviseAutonomous (recovering stopped : Bool) (d : Delivery) : Manager :=
  match m.autonomousTurn with
  | none => m
  | some turn =>
    if recovering ∨ m.autonomousTools ≠ [] ∨ m.permissionRefs ≠ [] ∨ ¬ stopped then m
    else
      let m := { m with opened := false }
      if m.activeTurn = some turn then m.abandonLocked turn "operator_recovery_required" false d else m

end Manager

/-- Commands, events of the driver and what befalls the runtime, in any order. The reader's own
lifetime is not tracked, so events may come at any time. -/
inductive Step where
  | open (resume : Bool) (attempt : OpenAttempt)
  | startTurn (record : Option Recovery) (attempt : OpenAttempt) (beforeStart : Bool) (outcome : StartOutcome)
  | steerTurn (turn : Nat) (outcome : SteerOutcome)
  | cancelTurn (turn : Nat)
  | resolvePermission (turn : Nat) (permission : String) (accepted : Bool)
  | abandonTurn (turn : Nat) (reason : String) (retryable : Bool) (delivery : Delivery)
  | timeoutTurn (turn : Nat) (delivery : Delivery)
  | retireRuntime (preserveSession : Bool)
  | reloadResources (preserveSession cleaned : Bool) (attempt : OpenAttempt)
  | rolloverNativeSession (cleaned : Bool) (attempt : OpenAttempt)
  | close (delivery : Delivery)
  | waitTerminal (turn : Nat)
  | registerContinuation (registration : Registration)
  | clearContinuations
  | readEvent (event : DriverEvent) (reading : Reading)
  | failRuntime (reason : String) (delivery : Delivery)
  | superviseAutonomous (recovering stopped : Bool) (delivery : Delivery)

def step (platform : Platform) (m : Manager) : Step → Manager
  | .open resume a => (m.openLocked resume a).1
  | .startTurn record a beforeStart outcome => m.startTurn record a beforeStart outcome
  | .steerTurn turn outcome => m.steerTurn turn outcome
  | .cancelTurn _ => m
  | .resolvePermission turn permission accepted => m.resolvePermission turn permission accepted
  | .abandonTurn turn reason retryable d => m.abandonTurn turn reason retryable d
  | .timeoutTurn turn d => m.timeoutTurn turn d
  | .retireRuntime preserveSession => m.retireRuntime preserveSession
  | .reloadResources preserveSession cleaned a => m.reloadResources preserveSession cleaned a
  | .rolloverNativeSession cleaned a => m.rolloverNativeSession cleaned a
  | .close d => m.close d
  | .waitTerminal turn => m.waitTerminal turn
  | .registerContinuation r => m.registerContinuation platform r
  | .clearContinuations => m.discardPendingAdmissions
  | .readEvent e r => m.readEvent platform e r
  | .failRuntime reason d => m.failRuntime reason d
  | .superviseAutonomous recovering stopped d => m.superviseAutonomous recovering stopped d

end PuffoAgent.Runtime
