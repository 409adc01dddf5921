import PuffoAgent.Machine.Chronicle
import PuffoAgent.Machine.Run
import PuffoAgent.WsLocal.Frames
import Mathlib.Algebra.Order.Group.Defs

/-! One connected tool of a ws-local agent. Deliveries and the watchdog run to their end, the frame loop stops wherever
it awaits a collaborator, and anything may happen before it goes on. -/
namespace PuffoAgent.WsLocal
open Machine Text

/-- The entry of a batch that `end_turn_batch` reports. -/
structure TurnRun where
  runId : String
  messageId : String
  succeeded : Bool := true

/-- Where the frame loop stands. -/
inductive Wait (μ : Type) where
  | idle
  | recv
  /-- `_on_ack`, at `begin_turn`. -/
  | beginAck (b : Bundle μ)
  /-- `_on_admitted_frame`, at the hook. -/
  | admitting (b : Bundle μ) (correlation : String)
  | beginAdmitted (b : Bundle μ)
  /-- `_on_end`, at the error that refuses it. -/
  | refusing
  | beginEnd (b : Bundle μ)
  | endTurn (b : Bundle μ)
  | acking (b : Bundle μ)
  | handling (commandId tool : String) (params : List (String × Json))
  | showing (commandId : String) (result : Json)
  | stopped

/-- What collaborators and the peer see of the session, with the times at which it hears and dies. -/
inductive Seen (μ T : Type) where
  | heard (now : T) (frame : Except ProtocolError Inbound)
  | sent (frame : Outbound μ)
  | admitted (b : Bundle μ) (correlation : String)
  | beginTurn (b : Bundle μ)
  | began (b : Bundle μ) (runId : String)
  /-- The queue has given the bundle up to the end frame. -/
  | ended (b : Bundle μ)
  | endTurnBatch (b : Bundle μ) (runs : List TurnRun)
  | acked (b : Bundle μ)
  | toolCall (tool : String) (params : List (String × Json))
  | toolResult (tool : String) (params : List (String × Json)) (result : Json)
  | dead (now : T) (reason : String)

/-- A turn that is planned for the tool. -/
structure Planned (μ : Type) where
  turnId : String
  messages : List μ
  targets : List (List String)
  routes : List (List (String × Json))
  notice : List (String × Json)

/-- What a session is given at its start. The `n`-th call of `_make_id` returns `makeId n`. -/
structure Setup (μ T : Type) where
  envelopeId : μ → String
  capabilities : List String
  ackTimeout : T
  tools : List String
  makeId : Nat → String
  makeRunId : Nat → String
  host : Host
  repr : Json → String
  floatIs : FloatText → Int → Bool

structure Session (μ T : Type) where
  queue : BundleQueue μ
  alive : Bool
  deathReason : Option String
  clock : T
  lastRx : T
  inflightRunId : Option String
  inflightAdmitted : Bool
  admissionCorrelations : List String
  wait : Wait μ
  log : List (Seen μ T)
  ids : Nat
  runIds : Nat

inductive Event (μ T : Type) where
  | tick (now : T)
  | deliver (rootId : String) (message : μ) (channelMeta : List (String × Json))
  | deliverBatch (rootId : String) (messages : List μ) (channelMeta : List (String × Json))
  | deliverPlanned (planned : Planned μ)
  | run
  | receive (raw : String)
  /-- `recv` gives nothing. -/
  | close
  /-- The awaited `begin_turn` gives a run id, or any other call returns. -/
  | answer (runId : String)
  | toolAnswer (result : Except String Json)
  /-- What the frame loop awaits raises. -/
  | raise
  | watchdog (sent : Bool)

/-- `V2_CAPABILITIES`. -/
def v2Capabilities : List String := ["multi-target-v2", "explicit-admission-v2"]

namespace Session
variable {μ T : Type}

def start (now : T) : Session μ T where
  queue := .empty
  alive := true
  deathReason := none
  clock := now
  lastRx := now
  inflightRunId := none
  inflightAdmitted := false
  admissionCorrelations := []
  wait := .idle
  log := []
  ids := 0
  runIds := 0

def say (s : Session μ T) (x : Seen μ T) : Session μ T := { s with log := s.log ++ [x] }

section Step
variable (setup : Setup μ T)

def firstId (b : Bundle μ) : String := (b.messages.head?.map setup.envelopeId).getD ""

/-- `enqueue`; only a bundle that it opens takes an id. -/
def enqueue (s : Session μ T) (rootId : String) (message : μ) (channelMeta : List (String × Json)) : Session μ T :=
  { s with
    queue := s.queue.enqueue setup.envelopeId (setup.makeId s.ids) rootId message channelMeta
    ids := if (s.queue.receiving.get? rootId).isSome then s.ids else s.ids + 1 }

/-- `_pump`. -/
def pump (s : Session μ T) : Session μ T :=
  if s.alive = false ∨ s.queue.inflight.isSome then s
  else match s.queue.nextToSend with
    | (queue, some b) => { s with queue := queue }.say (.sent (.sendBundle b))
    | (_, none) => s

/-- `rollback_inflight`. -/
def rollback (s : Session μ T) : Session μ T :=
  { s with
    queue := (s.queue.rollbackInflight setup.envelopeId (setup.makeId s.ids)).1
    ids := if s.queue.inflight.isSome then s.ids + 1 else s.ids }

/-- `_die`. -/
def die (s : Session μ T) (reason : String) : Session μ T :=
  if s.alive = false then s
  else { s.rollback setup with
    alive := false, deathReason := some reason, inflightRunId := none, inflightAdmitted := false }.say (.dead s.clock reason)

/-- The end of `run`. -/
def stop (s : Session μ T) : Session μ T := { s.die setup "connection closed" with wait := .stopped }

/-- A handler has returned. -/
def goOn (s : Session μ T) : Session μ T := if s.alive then { s with wait := .recv } else s.stop setup

/-- `_runs_for`: the runs, where the `n`-th run id is the next one to make, and how many are made then. -/
def runsFrom (first : Option String) (n : Nat) : List String → List TurnRun × Nat
  | [] => ([], n)
  | eid :: eids =>
    if eid = "" then runsFrom none n eids
    else match first with
      | some runId => let rest := runsFrom none n eids; (⟨runId, eid, true⟩ :: rest.1, rest.2)
      | none => let rest := runsFrom none (n + 1) eids; (⟨setup.makeRunId n, eid, true⟩ :: rest.1, rest.2)

def runsFor (s : Session μ T) (b : Bundle μ) : List TurnRun × Nat :=
  runsFrom setup (s.inflightRunId.filter (· ≠ "")) s.runIds (b.messages.map setup.envelopeId)

def onAck (s : Session μ T) (bundleId : String) : Session μ T :=
  match s.queue.inflight with
  | some b =>
    if b.bundleId = bundleId ∧ b.turnId = "" ∧ s.inflightRunId = none ∧ firstId setup b ≠ "" then
      { s with wait := .beginAck b }.say (.beginTurn b)
    else s.goOn setup
  | none => s.goOn setup

/-- `frame.correlation_key or "initial"`. -/
def correlationOf (key : String) : String := if key = "" then "initial" else key

def onAdmittedFrame (s : Session μ T) (bundleId turnId correlationKey : String) : Session μ T :=
  match s.queue.inflight with
  | some b =>
    if b.bundleId = bundleId ∧ b.turnId = turnId ∧ correlationOf correlationKey ∉ s.admissionCorrelations then
      { s with wait := .admitting b (correlationOf correlationKey) }
    else s.goOn setup
  | none => s.goOn setup

/-- `_on_end` from `end_turn_batch` on. -/
def endTurn (s : Session μ T) (b : Bundle μ) : Session μ T :=
  { s with wait := .endTurn b, runIds := (s.runsFor setup b).2 }.say (.endTurnBatch b (s.runsFor setup b).1)

def onEnd (s : Session μ T) (bundleId : String) : Session μ T :=
  match s.queue.inflight with
  | some b =>
    if b.bundleId ≠ bundleId then s.goOn setup
    else if b.turnId ≠ "" ∧ s.inflightAdmitted = false then
      { s with wait := .refusing }.say (.sent (.error "v2 bundle ended before explicit admission"))
    else
      let taken := { s with queue := (s.queue.ack bundleId).1 }.say (.ended b)
      if s.inflightRunId = none ∧ firstId setup b ≠ "" then { taken with wait := .beginEnd b }.say (.beginTurn b)
      else taken.endTurn setup b
  | none => s.goOn setup

def runToolCall (s : Session μ T) (commandId tool : String) (params : List (String × Json)) : Session μ T :=
  if tool ∈ setup.tools then { s with wait := .handling commandId tool params }.say (.toolCall tool params)
  else (s.say (.sent (.toolResult commandId (.error ("unknown tool: " ++ setup.repr (.str tool)))))).goOn setup

/-- `_dispatch`. -/
def dispatch (s : Session μ T) : Inbound → Session μ T
  | .ack bundleId => s.onAck setup bundleId
  | .admitted bundleId turnId correlationKey => s.onAdmittedFrame setup bundleId turnId correlationKey
  | .finish bundleId => s.onEnd setup bundleId
  | .toolCall commandId tool params => s.runToolCall setup commandId tool params
  | .ping => (s.say (.sent .pong)).goOn setup
  | .pong | .connect .. => s.goOn setup

/-- One text from the peer. -/
def receive (s : Session μ T) (raw : String) : Session μ T :=
  let frame := decodeInbound setup.host setup.floatIs raw
  let heard := { s with lastRx := s.clock }.say (.heard s.clock frame)
  match frame with
  | .error _ => heard.goOn setup
  | .ok frame => heard.dispatch setup frame

section Return

/-- `_on_ack` and `_on_admitted_frame` after `begin_turn`. -/
def begun (s : Session μ T) (b : Bundle μ) (runId : String) : Session μ T :=
  ({ s with inflightRunId := some runId }.say (.began b runId)).goOn setup

/-- `_on_admitted_frame` after the hook. -/
def admitted (s : Session μ T) (b : Bundle μ) (correlation : String) : Session μ T :=
  let noted := { s with admissionCorrelations := correlation :: s.admissionCorrelations }.say (.admitted b correlation)
  if s.inflightAdmitted then noted.goOn setup
  else if firstId setup b ≠ "" then { noted with inflightAdmitted := true, wait := .beginAdmitted b }.say (.beginTurn b)
  else { noted with inflightAdmitted := true }.goOn setup

/-- `_on_end` after `begin_turn`. -/
def endBegun (s : Session μ T) (b : Bundle μ) (runId : String) : Session μ T :=
  ({ s with inflightRunId := some runId }.say (.began b runId)).endTurn setup b

/-- `_on_end` after `end_turn_batch`. -/
def turnEnded (s : Session μ T) (b : Bundle μ) : Session μ T := { s with wait := .acking b }.say (.acked b)

/-- `_on_end` after the cursor has moved. -/
def turnClosed (s : Session μ T) : Session μ T :=
  { s with inflightRunId := none, inflightAdmitted := false, admissionCorrelations := [] }.pump.goOn setup

/-- The frame loop goes on with what `begin_turn` gave, or after a call that gives nothing. -/
def answer (s : Session μ T) (runId : String) : Session μ T :=
  match s.wait with
  | .beginAck b | .beginAdmitted b => s.begun setup b runId
  | .admitting b correlation => s.admitted setup b correlation
  | .refusing => (s.die setup "v2 bundle ended before explicit admission").goOn setup
  | .beginEnd b => s.endBegun setup b runId
  | .endTurn b => s.turnEnded b
  | .acking _ => s.turnClosed setup
  | .showing commandId result => (s.say (.sent (.toolResult commandId (.ok result)))).goOn setup
  | _ => s

end Return

def toolAnswer (s : Session μ T) (result : Except String Json) : Session μ T :=
  match s.wait with
  | .handling commandId tool params =>
    match result with
    | .ok value => { s with wait := .showing commandId value }.say (.toolResult tool params value)
    | .error reason => (s.say (.sent (.toolResult commandId (.error reason)))).goOn setup
  | _ => s

/-- `deliver_planned`; without the capabilities, or with a batch pending, it raises. -/
def deliverPlanned (s : Session μ T) (planned : Planned μ) : Session μ T :=
  if v2Capabilities.all (· ∈ setup.capabilities) then
    match s.queue.enqueueGlobal (setup.makeId s.ids) planned.turnId planned.messages planned.targets planned.routes
      planned.notice with
    | some queue => { s with queue := queue, ids := s.ids + 1 }.pump
    | none => s
  else s

variable [AddCommGroup T] [LinearOrder T]

/-- `_watchdog_tick`. -/
def watchdogTick (s : Session μ T) (sent : Bool) : Session μ T :=
  if s.alive = false then s
  else if s.clock - s.lastRx > setup.ackTimeout then s.die setup "liveness timeout"
  else if sent then s.say (.sent .ping)
  else (s.say (.sent .ping)).die setup "send failed"

/-- An event that cannot happen does nothing. -/
def step (s : Session μ T) : Event μ T → Session μ T
  | .tick now => if s.clock ≤ now then { s with clock := now } else s
  | .deliver rootId message channelMeta => (s.enqueue setup rootId message channelMeta).pump
  | .deliverBatch rootId messages channelMeta =>
    (messages.foldl (fun s message => s.enqueue setup rootId message channelMeta) s).pump
  | .deliverPlanned planned => s.deliverPlanned setup planned
  | .run =>
    match s.wait with
    | .idle => { { s with lastRx := s.clock }.pump with wait := .recv }
    | _ => s
  | .receive raw =>
    match s.wait with
    | .recv => s.receive setup raw
    | _ => s
  | .close =>
    match s.wait with
    | .recv => s.stop setup
    | _ => s
  | .answer runId => s.answer setup runId
  | .toolAnswer result => s.toolAnswer setup result
  | .raise =>
    match s.wait with
    | .idle | .stopped => s
    | _ => s.stop setup
  | .watchdog sent =>
    match s.wait with
    | .idle | .stopped => s
    | _ => s.watchdogTick setup sent

end Step
end Session
end PuffoAgent.WsLocal
