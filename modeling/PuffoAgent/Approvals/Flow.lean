import PuffoAgent.Approvals.Replay
import PuffoAgent.Relational.Mirror
import PuffoAgent.Text.Python

/-! The keyless approval of held DMs: one record per held envelope, one prompt and one
answer per operator and sender. Each entry point holds the lock until its work is done, and
every call it waits for may fail, be cancelled or never return. -/
namespace PuffoAgent.Approvals
open Relational Store Text

/-- `DM_APPROVAL_DECISIONS`. -/
inductive Decision where
  | pending
  | approved
  | denied
  deriving DecidableEq, Repr

/-- `DM_APPROVAL_PHASES`. -/
inductive Phase where
  | pending
  | applied
  deriving DecidableEq, Repr

/-- A record as `parse_keyless_approval` accepts it. -/
structure KeylessDmApproval where
  envelopeId : String
  senderSlug : String
  operatorSlug : String
  serverSeq : Option Int
  promptClientRef : String
  promptEnvelopeId : Option String
  promptThreadId : Option String
  decision : Decision
  phase : Phase
  envelopeId_ne : envelopeId ≠ ""
  senderSlug_ne : senderSlug ≠ ""
  promptClientRef_ne : promptClientRef ≠ ""
  deriving DecidableEq

def Decision.text : Decision → String
  | .pending => "pending"
  | .approved => "approved"
  | .denied => "denied"

def Phase.text : Phase → String
  | .pending => "pending"
  | .applied => "applied"

def Decision.ofText (s : String) : Option Decision :=
  if s = "pending" then some .pending
  else if s = "approved" then some .approved
  else if s = "denied" then some .denied
  else none

def Phase.ofText (s : String) : Option Phase :=
  if s = "pending" then some .pending else if s = "applied" then some .applied else none

/-- An optional sequence: `None`, absent or an integer. -/
def optionalSeq (value : Option Json) : Option (Option Int) :=
  match value with
  | none | some .null => some none
  | some (.int n) => some (some n)
  | _ => none

namespace KeylessDmApproval

/-- `KEYLESS_APPROVAL_KIND`. -/
def kind : String := "keyless_dm_approval"

def toDict (r : KeylessDmApproval) : Json := .obj
  [("kind", .str kind), ("envelope_id", .str r.envelopeId), ("sender_slug", .str r.senderSlug),
    ("operator_slug", .str r.operatorSlug), ("server_seq", r.serverSeq.elim .null .int),
    ("prompt_client_ref", .str r.promptClientRef), ("prompt_envelope_id", textOrNull r.promptEnvelopeId),
    ("prompt_thread_id", textOrNull r.promptThreadId), ("decision", .str r.decision.text),
    ("phase", .str r.phase.text)]

/-- `parse_keyless_approval`. -/
def parse (value : Json) : Option KeylessDmApproval := do
  let k ← asText (value.member "kind")
  guard (k = kind)
  let envelopeId ← asText (value.member "envelope_id")
  let senderSlug ← asText (value.member "sender_slug")
  let operatorSlug ← asText (value.member "operator_slug")
  let serverSeq ← optionalSeq (value.member "server_seq")
  let promptClientRef ← asText (value.member "prompt_client_ref")
  let promptEnvelopeId ← optionalText (value.member "prompt_envelope_id")
  let promptThreadId ← optionalText (value.member "prompt_thread_id")
  let decision ← (asText (value.member "decision")).bind Decision.ofText
  let phase ← (asText (value.member "phase")).bind Phase.ofText
  if h : envelopeId ≠ "" ∧ senderSlug ≠ "" ∧ promptClientRef ≠ "" then
    some ⟨envelopeId, senderSlug, operatorSlug, serverSeq, promptClientRef, promptEnvelopeId, promptThreadId,
      decision, phase, h.1, h.2.1, h.2.2⟩
  else none

theorem parse_toDict (r : KeylessDmApproval) : parse r.toDict = some r := by
  obtain ⟨envelopeId, senderSlug, operatorSlug, serverSeq, promptClientRef, promptEnvelopeId, promptThreadId,
    decision, phase, he, hs, hp⟩ := r
  have hd : Decision.ofText decision.text = some decision := by cases decision <;> rfl
  have hph : Phase.ofText phase.text = some phase := by cases phase <;> rfl
  have hseq : optionalSeq (some (serverSeq.elim .null .int)) = some serverSeq := by cases serverSeq <;> rfl
  simp [parse, toDict, Json.member, asText, hd, hph, hseq, optionalText_textOrNull, he, hs, hp]

/-- The records of one operator and sender. -/
def SameGroup (r r' : KeylessDmApproval) : Prop :=
  r.operatorSlug = r'.operatorSlug ∧ r.senderSlug = r'.senderSlug

end KeylessDmApproval

def codec : Codec KeylessDmApproval KeylessDmApproval.envelopeId :=
  ⟨KeylessDmApproval.toDict, KeylessDmApproval.parse, KeylessDmApproval.parse_toDict⟩

/-- What an entry point still has to do before it gives the lock back. -/
inductive Task where
  | sendPrompt (record : KeylessDmApproval) (operatorSlug : String)
  | finalize (envelopeId : String) (approved : Bool)
  | ack (envelopeId : String)
  | promptMissing

/-- The component with the store it acts on. The last fields record the transitions that the
store reported as applied and the ACKs that were sent and that succeeded. -/
structure Flow where
  operatorSlug : String
  pending : Mirror KeylessDmApproval KeylessDmApproval.envelopeId
  tables : Tables
  tasks : List Task
  applied : List (String × Decision)
  acked : List String
  acknowledged : List String

def Flow.initial (operatorSlug : String) (tables : Tables) : Flow :=
  ⟨operatorSlug, .empty, tables, [], [], [], []⟩

/-- What the calls of one task meet: the ids of the prompt's ACK (empty when there are none or
the send failed), whether the contact was saved, whether the store raised, the clock, whether
the records were written and whether the bridge acknowledged. The bridge server sends the ids as
texts, as the fields of the records are typed. -/
structure Effects where
  promptEnvelope : String
  promptThread : String
  contactSaved : Bool
  raises : Bool
  now : Int
  persists : Bool
  acknowledges : Bool

def decisionOf (approved : Bool) : Decision := if approved then .approved else .denied

def verdictOf (approved : Bool) : Verdict := if approved then .approval approvedReason none else .denial

namespace Flow
variable (m : Flow)

/-- The records in memory. -/
def records : List KeylessDmApproval := m.pending.memory.rows

def record? (envelopeId : String) : Option KeylessDmApproval := m.pending.memory.get? envelopeId

/-- Change the records in memory and on disk, or neither; go on only when that worked. -/
def persistThen (rows : Table KeylessDmApproval String KeylessDmApproval.envelopeId) (persists : Bool)
    (next : Flow → Flow) : Flow :=
  let (pending, written) := m.pending.persistOrRestore codec rows persists
  if written then next { m with pending := pending } else { m with pending := pending }

def withTasks (tasks : List Task) : Flow := { m with tasks := tasks }

/-- The record as `record_gated_dm` files it: it joins the prompt and the answer of its group. -/
def join (r : KeylessDmApproval) : KeylessDmApproval :=
  match m.records.find? fun r' => r'.operatorSlug = r.operatorSlug ∧ r'.senderSlug = r.senderSlug with
  | none => r
  | some base =>
    { r with
      promptClientRef := base.promptClientRef
      promptEnvelopeId := base.promptEnvelopeId
      promptThreadId := base.promptThreadId
      decision := base.decision
      promptClientRef_ne := base.promptClientRef_ne }

/-- The work that a new record starts. -/
def firstTasks (r : KeylessDmApproval) (joined : Bool) : List Task :=
  if joined then
    match r.decision with
    | .approved => [.finalize r.envelopeId true]
    | .denied => [.finalize r.envelopeId false]
    | .pending => []
  else [.sendPrompt r r.operatorSlug]

/-- A held DM as the ingress hands it over, with the reference drawn for its prompt. -/
structure Held where
  envelopeId : String
  senderSlug : String
  serverSeq : Option Int
  promptClientRef : String
  envelopeId_ne : envelopeId ≠ ""
  senderSlug_ne : senderSlug ≠ ""
  promptClientRef_ne : promptClientRef ≠ ""

def newRecord (held : Held) : KeylessDmApproval :=
  ⟨held.envelopeId, held.senderSlug, m.operatorSlug, held.serverSeq, held.promptClientRef, none, none, .pending,
    .pending, held.envelopeId_ne, held.senderSlug_ne, held.promptClientRef_ne⟩

/-- `_record_gated_dm_locked`. -/
def recordGatedDm (held : Held) (persists : Bool) : Flow :=
  if (m.record? held.envelopeId).isSome then m
  else
    let r := m.newRecord held
    if m.operatorSlug = "" then
      m.persistThen (m.pending.memory.insertOrIgnore r) persists id
    else
      let joined := m.records.any fun r' => r'.operatorSlug = r.operatorSlug ∧ r'.senderSlug = r.senderSlug
      let r := m.join r
      m.persistThen (m.pending.memory.insertOrIgnore r) persists fun m => m.withTasks (firstTasks r joined)

/-- The group under its prompt. -/
def promptGroup (operatorSlug senderSlug promptEnvelope promptThread : String) :
    Table KeylessDmApproval String KeylessDmApproval.envelopeId :=
  m.pending.memory.update (fun r => r.operatorSlug = operatorSlug ∧ r.senderSlug = senderSlug)
    (fun r => { r with promptEnvelopeId := some promptEnvelope, promptThreadId := some promptThread })
    (fun _ => rfl)

/-- `_send_prompt`. -/
def sendPrompt (record : KeylessDmApproval) (operatorSlug : String) (e : Effects) : Flow :=
  if e.promptEnvelope = "" then m
  else
    let promptThread := if e.promptThread = "" then e.promptEnvelope else e.promptThread
    m.persistThen (m.promptGroup operatorSlug record.senderSlug e.promptEnvelope promptThread) e.persists id

/-- The answer an exact reply gives. -/
def replyDecision (host : Host) (text : String) : Option Bool :=
  let normalized := host.lower (strip text)
  if normalized = "y" ∨ normalized = "yes" then some true
  else if normalized = "n" ∨ normalized = "no" then some false
  else none

def isPromptOf (threadRootId : String) (r : KeylessDmApproval) : Bool :=
  r.promptEnvelopeId = some threadRootId ∨ r.promptThreadId = some threadRootId

/-- The open records under the prompt, with their answer. -/
def decideMatched (threadRootId : String) (decision : Decision) :
    Table KeylessDmApproval String KeylessDmApproval.envelopeId :=
  m.pending.memory.update (fun r => isPromptOf threadRootId r ∧ r.decision = .pending)
    (fun r => { r with decision := decision }) (fun _ => rfl)

/-- The records under the prompt. -/
def matched (threadRootId : String) : List KeylessDmApproval := m.records.filter (isPromptOf threadRootId)

/-- The answers that these records already have. -/
def terminal (threadRootId : String) : List Decision :=
  ((m.matched threadRootId).map (·.decision)).filter (· ≠ .pending)

/-- `_maybe_handle_operator_reply_locked`, up to the first record it finalizes. -/
def handleReply (host : Host) (threadRootId text : String) (persists : Bool) : Flow :=
  match replyDecision host text with
  | none => m
  | some approved =>
    let decision := decisionOf approved
    let terminal := m.terminal threadRootId
    if m.matched threadRootId = [] ∨ terminal.dedup.length > 1 ∨ (terminal ≠ [] ∧ decision ∉ terminal) then m
    else
      let resolved := terminal.head?.getD decision = .approved
      let tasks := (m.matched threadRootId).map fun r => Task.finalize r.envelopeId resolved
      if (m.matched threadRootId).any (·.decision = .pending) then
        m.persistThen (m.decideMatched threadRootId decision) persists fun m => m.withTasks tasks
      else m.withTasks tasks

/-- The first half of `_resume_pending_approvals_locked`. -/
def resume : Flow :=
  let decided := (m.records.mergeSort fun r r' => r.envelopeId ≤ r'.envelopeId).filterMap fun r =>
    match r.decision with
    | .approved => some (Task.finalize r.envelopeId true)
    | .denied => some (.finalize r.envelopeId false)
    | .pending => none
  m.withTasks (decided ++ [.promptMissing])

/-- The second half: one prompt for every open group of this operator that has none. -/
def missingPrompts : List Task :=
  let waiting := m.records.filter fun r =>
    r.decision = .pending ∧ m.operatorSlug ≠ "" ∧ r.operatorSlug = m.operatorSlug
  let heads := waiting.filter fun r => waiting.find? (·.senderSlug = r.senderSlug) = some r
  (heads.filter fun r => waiting.all fun r' => r'.senderSlug = r.senderSlug → r'.promptEnvelopeId.isNone).map
    fun r => .sendPrompt r m.operatorSlug

/-- `_apply_local_transition`: the store's answer counts when the contact was saved first. -/
def applyLocalTransition (r : KeylessDmApproval) (approved : Bool) (e : Effects) : Flow × Bool :=
  if ¬ e.contactSaved ∨ e.raises then (m, false)
  else
    let transition := localTransition (verdictOf approved) r.envelopeId r.serverSeq e.now
    let m' := { m with tables := transition.after m.tables }
    if (reported transition m.tables).any isApplied then
      ({ m' with applied := (r.envelopeId, decisionOf approved) :: m.applied }, true)
    else (m', false)

/-- `phase=applied` of one record. -/
def markApplied (envelopeId : String) : Table KeylessDmApproval String KeylessDmApproval.envelopeId :=
  m.pending.memory.update (·.envelopeId = envelopeId) (fun r => { r with phase := .applied }) (fun _ => rfl)

/-- `_finalize_record`, up to the ACK. -/
def finalizeRecord (envelopeId : String) (approved : Bool) (e : Effects) : Flow :=
  match m.record? envelopeId with
  | none => m
  | some r =>
    match r.phase with
    | .applied => m.withTasks (.ack envelopeId :: m.tasks)
    | .pending =>
      let (m, applied) := m.applyLocalTransition r approved e
      if applied then
        m.persistThen (m.markApplied envelopeId) e.persists fun m => m.withTasks (.ack envelopeId :: m.tasks)
      else m

/-- The ACK of `_finalize_record`; the record goes only when it succeeded. -/
def sendAck (envelopeId : String) (e : Effects) : Flow :=
  let m := { m with acked := envelopeId :: m.acked }
  if e.acknowledges then
    { m with acknowledged := envelopeId :: m.acknowledged }.persistThen
      (m.pending.memory.delete (·.envelopeId = envelopeId)) e.persists id
  else m

/-- The entry point that holds the lock does its next task. -/
def advance (e : Effects) : Flow :=
  match m.tasks with
  | [] => m
  | .sendPrompt record operatorSlug :: tasks => (m.withTasks tasks).sendPrompt record operatorSlug e
  | .finalize envelopeId approved :: tasks => (m.withTasks tasks).finalizeRecord envelopeId approved e
  | .ack envelopeId :: tasks => (m.withTasks tasks).sendAck envelopeId e
  | .promptMissing :: tasks => m.withTasks (m.missingPrompts ++ tasks)

end Flow

/-- What befalls the component: its entry points once the lock is free, the tasks of the one
that holds it, its end by cancellation or an exception, a restart, and other use of the store. -/
inductive Event where
  | gated (held : Flow.Held) (persists : Bool)
  | reply (threadRootId text : String) (persists : Bool)
  | resume
  | advance (effects : Effects)
  | interrupt
  | restart (operatorSlug : String)
  | store (op : Op)

def step (host : Host) (m : Flow) : Event → Flow
  | .gated held persists => if m.tasks.isEmpty then m.recordGatedDm held persists else m
  | .reply threadRootId text persists =>
    if m.tasks.isEmpty then m.handleReply host threadRootId text persists else m
  | .resume => if m.tasks.isEmpty then m.resume else m
  | .advance effects => m.advance effects
  | .interrupt => m.withTasks []
  | .restart operatorSlug =>
    { m with operatorSlug := operatorSlug, pending := m.pending.restart codec, tasks := [] }
  | .store op => { m with tables := Store.step m.tables op }

end PuffoAgent.Approvals
