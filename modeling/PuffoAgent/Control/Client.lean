import PuffoAgent.Relational.Table
import PuffoAgent.Text.Python

/-! The machine control client: it judges each command frame against its table of nonces,
starts the commands it accepts and stamps their nonces again when they end. -/
namespace PuffoAgent.Control
open Relational Text

/-- `TS_WINDOW_MS`. -/
def tsWindowMs : Nat := 15 * 60 * 1000

/-- What a dictionary tells apart: texts, and numbers by their value. -/
inductive DictKey where
  | text (s : String)
  | number (q : Rat)
  | other (name : String)
  deriving DecidableEq

/-- The parts of the machine that are not the client's own: `str`, the value of a float, the
check of the operator's signature and the opening of the sealed body, with the texts of
their exceptions. -/
structure Platform where
  str : Json → String
  floatKey : FloatText → DictKey
  verify : Json → String → Except String Bool
  openBody : Json → Except String Json

/-- The key of a hashable value. -/
def Platform.hashKey (platform : Platform) : Json → Option DictKey
  | .null => some (.other "None")
  | .bool b => some (.number (if b then 1 else 0))
  | .int n => some (.number n)
  | .float f => some (platform.floatKey f)
  | .str s => some (.text s)
  | .arr _ | .obj _ => none

structure Frame where
  commandId : Json
  operatorSlug : Json
  envelope : Json

structure Command where
  commandId : String
  agentSlug : Option Json
  op : String
  params : Json

/-- `_DuplicateDelivery`, `ControlError` and every other exception. -/
inductive Refusal where
  | duplicate
  | control (message : String)
  | failed

/-- `isinstance(value, int)`. -/
def intValue : Json → Option Int
  | .int n => some n
  | .bool b => some (if b then 1 else 0)
  | _ => none

/-- `isinstance(value, str)`. -/
def textValue : Json → Option String
  | .str s => some s
  | _ => none

section Envelopes
variable (platform : Platform) (envelope : Json)

/-- `envelope.get("nonce")`, when it is truthy. -/
def nonceOf : Option Json := (envelope.member "nonce").filter Json.truthy

/-- `envelope.get("ts")`, when it is an integer. -/
def tsOf : Option Int := (envelope.member "ts").bind intValue

/-- The timestamp test of `decrypt_command`. -/
def inWindow (now : Int) : Bool := (tsOf envelope).any fun ts => ¬ (now - ts).natAbs > tsWindowMs

def field (name : String) : Option String := (envelope.member name).bind textValue

/-- `decrypt_command` on a decoded envelope. -/
def decryptCommand (operatorRootPubkey : String) (now : Int) : Except Refusal Command := do
  if (field envelope "signature").isNone then throw (.control "envelope missing signature")
  match platform.verify envelope operatorRootPubkey with
  | .error e => throw (.control ("envelope signature error: " ++ e))
  | .ok false => throw (.control "envelope signature does not verify")
  | .ok true => pure ()
  if ¬ inWindow envelope now then throw (.control "envelope timestamp outside window")
  match field envelope "command_id", field envelope "hpke_enc", field envelope "ciphertext" with
  | some commandId, some _, some _ =>
    match platform.openBody envelope with
    | .error e => throw (.control ("envelope decrypt error: " ++ e))
    | .ok (.obj members) =>
      let body := Json.obj members
      match (body.member "op").bind textValue with
      | none => throw (.control "command body missing op")
      | some op => return ⟨commandId, envelope.member "agent_slug", op,
          ((body.member "params").filter Json.truthy).getD (.obj [])⟩
    | .ok _ => throw .failed
  | _, _, _ => throw (.control "envelope missing command_id/hpke_enc/ciphertext")

end Envelopes

structure SeenNonce where
  nonce : DictKey
  stamp : Int

structure NonceCommand where
  nonce : DictKey
  command : String

structure CompletedResult where
  command : String
  result : Json

/-- One call of `_execute_and_ack`. -/
structure Execution where
  commandId : Option String
  envelope : Json
  nonce : Option String
  command : Command

structure Client where
  clock : Int
  seenNonces : Table SeenNonce DictKey SeenNonce.nonce
  nonceCommands : Table NonceCommand DictKey NonceCommand.nonce
  inflightCommandIds : List String
  completedResults : Table CompletedResult String CompletedResult.command
  running : List Execution
  started : List Execution

def Client.initial (clock : Int) : Client := ⟨clock, .empty, .empty, [], .empty, [], []⟩

/-- How `_handle` answers a frame. -/
inductive Outcome where
  | reAcked (result : Json)
  | suppressed
  | rejected (errorCode : String)
  | executing (execution : Execution)

namespace Client
variable (platform : Platform) (c : Client)

/-- `self._nonce_commands.get(n) in self._inflight_command_ids`. -/
def protects (n : DictKey) : Bool :=
  (c.nonceCommands.get? n).any (·.command ∈ c.inflightCommandIds)

/-- The nonce is pruned at this cutoff. -/
def forgets (cutoff : Int) (row : SeenNonce) : Bool := row.stamp ≤ cutoff ∧ ¬ c.protects row.nonce

/-- The ids whose results are dropped with their nonces. -/
def expiredCommandIds (cutoff : Int) : List String :=
  (c.seenNonces.select fun row => row.stamp ≤ cutoff).filterMap fun row =>
    ((c.nonceCommands.get? row.nonce).map (·.command)).filter (· ∉ c.inflightCommandIds)

/-- Bound the replay set. -/
def prune (cutoff : Int) : Client :=
  let seen := c.seenNonces.delete (c.forgets cutoff)
  { c with
    seenNonces := seen
    nonceCommands := c.nonceCommands.delete fun row => (seen.get? row.nonce).isNone
    completedResults := c.completedResults.delete fun row => row.command ∈ c.expiredCommandIds cutoff }

/-- `str(command_id)` of a truthy id. -/
def commandKey (frame : Frame) : Option String :=
  if frame.commandId.truthy then some (platform.str frame.commandId) else none

/-- Record the nonce of an accepted command under its own timestamp. -/
def record (n : DictKey) (ts : Int) (command : Option String) : Client :=
  { c with
    seenNonces := c.seenNonces.assign ⟨n, ts⟩
    nonceCommands := match command with
      | some id => c.nonceCommands.assign ⟨n, id⟩
      | none => c.nonceCommands }

/-- `frame.get("envelope") or {}`. -/
def envelopeOf (frame : Frame) : Json := if frame.envelope.truthy then frame.envelope else .obj []

/-- The nonce as the client looks it up. -/
def nonceKey (envelope : Json) : Except Refusal (Option DictKey) :=
  match nonceOf envelope with
  | none => return none
  | some nonce =>
    match platform.hashKey nonce with
    | none => throw .failed
    | some n => if (c.seenNonces.get? n).isSome then throw .duplicate else return some n

/-- The frame up to the decision to execute it. -/
def judge (frame : Frame) (pairing : Option String) (now : Int) :
    Except Refusal (Option DictKey × Command) := do
  match pairing with
  | none => throw (.control ("no pairing for operator " ++ platform.str frame.operatorSlug))
  | some root =>
    let envelope := envelopeOf frame
    match envelope with
    | .obj _ =>
      let nonce ← c.nonceKey platform envelope
      let command ← decryptCommand platform envelope root now
      return (nonce, command)
    | _ => throw .failed

/-- The `except _DuplicateDelivery` of `_handle`. -/
def redelivered (frame : Frame) : Outcome :=
  let id := if frame.commandId.truthy then platform.str frame.commandId else ""
  match c.completedResults.get? id with
  | some row => .reAcked row.result
  | none => if frame.commandId.truthy ∧ id ∈ c.inflightCommandIds then .suppressed
      else .rejected "command_rejected"

/-- Bookkeeping of an accepted frame, with the clock read again for the cutoff. -/
def admitCommand (nonce : Option DictKey) (ts : Int) (command : Option String) (now : Int) : Client :=
  match nonce with
  | some n => (c.prune (now - tsWindowMs)).record n ts command
  | none => c

def execute (execution : Execution) : Client :=
  { c with
    inflightCommandIds := match execution.commandId with
      | some id => id :: c.inflightCommandIds
      | none => c.inflightCommandIds
    running := execution :: c.running
    started := execution :: c.started }

/-- `_handle` up to the start of the execution. The clock is read twice. -/
def handle (frame : Frame) (pairing : Option String) (now later : Int) : Client × Outcome :=
  match c.judge platform frame pairing now with
  | .error .duplicate => (c, c.redelivered platform frame)
  | .error (.control _) => (c, .rejected "command_rejected")
  | .error .failed => (c, .rejected "command_failed")
  | .ok (nonce, command) =>
    let envelope := envelopeOf frame
    let id := commandKey platform frame
    let execution : Execution := ⟨id, envelope, (nonceOf envelope).map platform.str, command⟩
    ((c.admitCommand nonce ((tsOf envelope).getD later) id later).execute execution, .executing execution)

/-- The `finally` of `_execute_and_ack`. -/
def finish (execution : Execution) (result : Json) (now : Int) : Client :=
  { c with
    inflightCommandIds := match execution.commandId with
      | some id => c.inflightCommandIds.filter (· ≠ id)
      | none => c.inflightCommandIds
    completedResults := match execution.commandId with
      | some id => c.completedResults.assign ⟨id, result⟩
      | none => c.completedResults
    seenNonces := match execution.nonce with
      | some nonce => c.seenNonces.assign ⟨.text nonce, now⟩
      | none => c.seenNonces }

end Client

/-- What the client meets, with the time that has passed. -/
inductive Event where
  | frame (frame : Frame) (pairing : Option String) (elapsed later : Nat)
  | finished (index : Nat) (result : Json) (elapsed : Nat)

def step (platform : Platform) (c : Client) : Event → Client
  | .frame frame pairing elapsed later =>
    let now := c.clock + elapsed
    { (c.handle platform frame pairing now (now + later)).1 with clock := now + later }
  | .finished index result elapsed =>
    match c.running[index]? with
    | none => { c with clock := c.clock + elapsed }
    | some execution =>
      { c.finish execution result (c.clock + elapsed) with
        clock := c.clock + elapsed
        running := c.running.eraseIdx index }

end PuffoAgent.Control
