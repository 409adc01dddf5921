import PuffoAgent.Machine.Run
import PuffoAgent.Relational.Mirror
import PuffoAgent.Text.Python

/-! The keyless invitations: one record per invitation event, asked about once, answered
once and decided on the server under one reference. Each entry point holds the lock until its
work is done, and every call it waits for may fail, be cancelled or never return. -/
namespace PuffoAgent.Invitations
open Relational Text

/-- `INVITATION_DECISIONS`. -/
inductive Decision where
  | pending
  | accept
  | reject
  deriving DecidableEq, Repr

/-- `INVITATION_PHASES`. -/
inductive Phase where
  | unsent
  | awaitingReply
  | decided
  | terminal
  deriving DecidableEq, Repr

/-- `INVITATION_OUTCOMES`. -/
inductive Outcome where
  | applied
  | alreadyApplied
  | conflict
  | notFound
  deriving DecidableEq, Repr

def Decision.text : Decision → String
  | .pending => "pending"
  | .accept => "accept"
  | .reject => "reject"

def Phase.text : Phase → String
  | .unsent => "unsent"
  | .awaitingReply => "awaiting_reply"
  | .decided => "decided"
  | .terminal => "terminal"

def Outcome.text : Outcome → String
  | .applied => "applied"
  | .alreadyApplied => "already_applied"
  | .conflict => "conflict"
  | .notFound => "not_found"

def Decision.ofText (s : String) : Option Decision := [Decision.pending, .accept, .reject].find? (·.text = s)

def Phase.ofText (s : String) : Option Phase :=
  [Phase.unsent, .awaitingReply, .decided, .terminal].find? (·.text = s)

def Outcome.ofText (s : String) : Option Outcome :=
  [Outcome.applied, .alreadyApplied, .conflict, .notFound].find? (·.text = s)

/-- A required text that is not empty. -/
def nonEmptyText (value : Option Json) : Option String := (asText value).filter (· ≠ "")

/-- The fields that `parse_keyless_invitation` requires of the snapshot of an invite. -/
def isSnapshot (eventId : String) (invite : Json) : Bool :=
  nonEmptyText (invite.member "invitation_event_id") = some eventId ∧
    (asText (invite.member "scope") = some "space" ∨ asText (invite.member "scope") = some "channel") ∧
    (nonEmptyText (invite.member "space_id")).isSome

/-- A record as `parse_keyless_invitation` accepts it. -/
structure KeylessInvitation where
  invitationEventId : String
  invite : Json
  promptClientRef : String
  promptEnvelopeId : Option String
  promptThreadId : Option String
  decision : Decision
  decisionClientRef : Option String
  phase : Phase
  outcome : Option Outcome
  snapshot : isSnapshot invitationEventId invite
  promptClientRef_ne : promptClientRef ≠ ""
  decisionClientRef_ne : decisionClientRef ≠ some ""
  outcome_terminal : outcome.isSome = decide (phase = .terminal)

namespace KeylessInvitation

/-- `KEYLESS_INVITATION_KIND`. -/
def kind : String := "keyless_invitation"

def toDict (r : KeylessInvitation) : Json := .obj
  [("kind", .str kind), ("invitation_event_id", .str r.invitationEventId), ("invite", r.invite),
    ("prompt_client_ref", .str r.promptClientRef), ("prompt_envelope_id", textOrNull r.promptEnvelopeId),
    ("prompt_thread_id", textOrNull r.promptThreadId), ("decision", .str r.decision.text),
    ("decision_client_ref", textOrNull r.decisionClientRef), ("phase", .str r.phase.text),
    ("outcome", textOrNull (r.outcome.map Outcome.text))]

/-- `parse_keyless_invitation`. -/
def parse (value : Json) : Option KeylessInvitation := do
  let k ← asText (value.member "kind")
  guard (k = kind)
  let invitationEventId ← asText (value.member "invitation_event_id")
  let invite ← value.member "invite"
  let promptClientRef ← asText (value.member "prompt_client_ref")
  let promptEnvelopeId ← optionalText (value.member "prompt_envelope_id")
  let promptThreadId ← optionalText (value.member "prompt_thread_id")
  let decision ← (asText (value.member "decision")).bind Decision.ofText
  let decisionClientRef ← optionalText (value.member "decision_client_ref")
  let phase ← (asText (value.member "phase")).bind Phase.ofText
  let outcomeText ← optionalText (value.member "outcome")
  let outcome ← match outcomeText with
    | none => some none
    | some s => (Outcome.ofText s).map some
  if h : isSnapshot invitationEventId invite ∧ promptClientRef ≠ "" ∧ decisionClientRef ≠ some "" ∧
      outcome.isSome = decide (phase = .terminal) then
    some ⟨invitationEventId, invite, promptClientRef, promptEnvelopeId, promptThreadId, decision,
      decisionClientRef, phase, outcome, h.1, h.2.1, h.2.2.1, h.2.2.2⟩
  else none

theorem parse_toDict (r : KeylessInvitation) : parse r.toDict = some r := by
  obtain ⟨invitationEventId, invite, promptClientRef, promptEnvelopeId, promptThreadId, decision,
    decisionClientRef, phase, outcome, hi, hp, hd, ho⟩ := r
  have hdec : Decision.ofText decision.text = some decision := by cases decision <;> rfl
  have hphase : Phase.ofText phase.text = some phase := by cases phase <;> rfl
  cases outcome with
  | none =>
    simp [parse, toDict, Json.member, asText, hdec, hphase, optionalText_textOrNull, hi, hp, hd, ho]
  | some o =>
    have hout : Outcome.ofText o.text = some o := by cases o <;> rfl
    simp [parse, toDict, Json.member, asText, hdec, hphase, optionalText_textOrNull, hout, hi, hp, hd, ho]

end KeylessInvitation

def codec : Codec KeylessInvitation KeylessInvitation.invitationEventId :=
  ⟨KeylessInvitation.toDict, KeylessInvitation.parse, KeylessInvitation.parse_toDict⟩

abbrev Records := Table KeylessInvitation String KeylessInvitation.invitationEventId

/-- An invite of the server's list that `_valid_invites` lets through. -/
structure Invite where
  eventId : String
  value : Json
  snapshot : isSnapshot eventId value

/-- What an entry point still has to do before it gives the lock back. `answer` is the return
of `True` to the reply's caller. -/
inductive Task where
  | adopt (invite : Invite)
  | retire (seen : List String)
  | sendPrompt (eventId : String)
  | sendDecision (eventId : String) (accepted : Bool)
  | transmit (eventId : String) (decision : Decision) (clientRef : String)
  | answer (threadRootId : String)

/-- A frame of the record: its event and what it carries. -/
structure DecisionFrame where
  eventId : String
  decision : Decision
  clientRef : String

structure PromptFrame where
  eventId : String
  clientRef : String

/-- The component. The last fields record the frames sent for the records that stand (those
of a record go with it when it is retired) and the replies that were answered with `True`. -/
structure Flow where
  operatorSlug : String
  autoAcceptSpace : Bool
  pending : Mirror KeylessInvitation KeylessInvitation.invitationEventId
  tasks : List Task
  decisions : List DecisionFrame
  prompts : List PromptFrame
  answered : List String

def Flow.initial (operatorSlug : String) (autoAcceptSpace : Bool) : Flow :=
  ⟨operatorSlug, autoAcceptSpace, .empty, [], [], [], []⟩

/-- What one task meets: fresh references, the ids of the prompt's ACK (empty when there are
none or the send failed), the outcome of the decision (empty when there is none or the send
failed) and whether the records were written. The bridge server sends the ids as texts, as the
fields of the records are typed. -/
structure Effects where
  promptClientRef : String
  decisionClientRef : String
  promptEnvelope : String
  promptThread : String
  outcome : String
  persists : Bool
  promptClientRef_ne : promptClientRef ≠ ""
  decisionClientRef_ne : decisionClientRef ≠ ""

namespace Flow
variable (m : Flow)

def records : List KeylessInvitation := m.pending.memory.rows

def record? (eventId : String) : Option KeylessInvitation := m.pending.memory.get? eventId

def withTasks (tasks : List Task) : Flow := { m with tasks := tasks }

/-- Change the records in memory and on disk, or neither; go on only when that worked. -/
def persistThen (rows : Records) (persists : Bool) (next : Flow → Flow) : Flow :=
  let (pending, written) := m.pending.persistOrRestore codec rows persists
  if written then next { m with pending := pending } else { m with pending := pending }

/-- The list that `reconcile` was given, if it is one. -/
def invitesOf (invites : Json) : Option (List Json) :=
  match invites, invites.member "invites" with
  | .obj _, some (.arr items) => some items
  | .arr items, _ => some items
  | _, _ => none

/-- One invite of the list, if it is well formed. -/
def validInvite (invite : Json) : Option Invite :=
  match nonEmptyText (invite.member "invitation_event_id") with
  | none => none
  | some eventId =>
    if h : isSnapshot eventId invite then
      if asText (invite.member "scope") = some "channel" ∧ (nonEmptyText (invite.member "channel_id")).isNone then
        none
      else some ⟨eventId, invite, h⟩
    else none

/-- The lookup of its scope raises: lists and objects have no hash. -/
def hasUnhashableScope (invite : Json) : Bool :=
  (nonEmptyText (invite.member "invitation_event_id")).isSome &&
    match invite.member "scope" with
    | some (.arr _) | some (.obj _) => true
    | _ => false

/-- `_reconcile_locked`: adopt what is new, one after the other, then retire what is gone. -/
def reconcile (invites : Json) : Flow :=
  match invitesOf invites with
  | none => m
  | some items =>
    if items.any hasUnhashableScope then m
    else
      let valid := items.filterMap validInvite
      m.withTasks (valid.map .adopt ++ [.retire (valid.map (·.eventId))])

/-- `_auto_accept`. -/
def autoAccept (invite : Json) : Bool :=
  asText (invite.member "inviter_slug") = some m.operatorSlug ∨
    (asText (invite.member "scope") = some "space" ∧ m.autoAcceptSpace)

def newRecord (invite : Invite) (e : Effects) : KeylessInvitation :=
  ⟨invite.eventId, invite.value, e.promptClientRef, none, none, .pending, none, .unsent, none, invite.snapshot,
    e.promptClientRef_ne, (by simp), rfl⟩

/-- `_adopt_new_invite`, for an invite that is not known yet. -/
def adopt (invite : Invite) (e : Effects) : Flow :=
  if (m.record? invite.eventId).isSome then m
  else
    let next : List Task :=
      if m.operatorSlug = "" then []
      else if m.autoAccept invite.value then [.sendDecision invite.eventId true]
      else [.sendPrompt invite.eventId]
    m.persistThen (m.pending.memory.insertOrIgnore (newRecord invite e)) e.persists
      fun m => m.withTasks (next ++ m.tasks)

/-- The record is active and the server no longer lists it. -/
def isGone (seen : List String) (r : KeylessInvitation) : Bool :=
  r.phase ≠ .terminal ∧ r.invitationEventId ∉ seen

/-- The end of `_reconcile_locked`. -/
def retire (seen : List String) (e : Effects) : Flow :=
  let rows := m.pending.memory.delete (isGone seen)
  if m.records.any (isGone seen) then
    m.persistThen rows e.persists fun m => { m with
      decisions := m.decisions.filter fun f => (rows.get? f.eventId).isSome
      prompts := m.prompts.filter fun f => (rows.get? f.eventId).isSome }
  else m

/-- Rewrite one record. -/
def rewrite (eventId : String) (f : KeylessInvitation → KeylessInvitation)
    (hf : ∀ r, (f r).invitationEventId = r.invitationEventId) : Records :=
  m.pending.memory.update (·.invitationEventId = eventId) f hf

end Flow

namespace KeylessInvitation

/-- The prompt is known and waits for its reply. -/
def prompted (promptEnvelope promptThread : String) (r : KeylessInvitation) : KeylessInvitation :=
  { r with
    promptEnvelopeId := some promptEnvelope
    promptThreadId := some promptThread
    phase := .awaitingReply
    outcome := none
    outcome_terminal := rfl }

/-- The answer and the reference it is sent under. -/
def decided (decision : Decision) (clientRef : String) (h : clientRef ≠ "") (r : KeylessInvitation) :
    KeylessInvitation :=
  { r with
    decision := decision
    decisionClientRef := some clientRef
    phase := .decided
    outcome := none
    decisionClientRef_ne := (by simpa using h)
    outcome_terminal := rfl }

/-- The server's outcome. -/
def resolved (outcome : Outcome) (r : KeylessInvitation) : KeylessInvitation :=
  { r with phase := .terminal, outcome := some outcome, outcome_terminal := rfl }

end KeylessInvitation

namespace Flow
variable (m : Flow)

/-- `_send_prompt_locked`. -/
def sendPrompt (eventId : String) (e : Effects) : Flow :=
  match m.record? eventId with
  | none => m
  | some record =>
    if record.phase ≠ .unsent then m
    else
      let m := { m with prompts := ⟨eventId, record.promptClientRef⟩ :: m.prompts }
      if e.promptEnvelope = "" then m
      else
        let promptThread := if e.promptThread = "" then e.promptEnvelope else e.promptThread
        m.persistThen (m.rewrite eventId (.prompted e.promptEnvelope promptThread) fun _ => rfl) e.persists id

/-- The answer an exact reply gives. -/
def replyDecision (host : Host) (text : String) : Option Decision :=
  let normalized := host.lower (strip text)
  if normalized = "y" ∨ normalized = "yes" then some .accept
  else if normalized = "n" ∨ normalized = "no" then some .reject
  else none

def isPromptOf (threadRootId : String) (r : KeylessInvitation) : Bool :=
  r.promptEnvelopeId = some threadRootId ∨ r.promptThreadId = some threadRootId

/-- `_matching_record`. -/
def matchingRecord (threadRootId : String) : Option KeylessInvitation :=
  m.records.find? (isPromptOf threadRootId)

/-- `_handle_reply_locked`, up to the decision frame. -/
def handleReply (host : Host) (threadRootId text : String) (e : Effects) : Flow :=
  match replyDecision host text, m.matchingRecord threadRootId with
  | some decision, some record =>
    if record.phase = .terminal ∨ record.decision ≠ .pending then m.withTasks [.answer threadRootId]
    else
      let eventId := record.invitationEventId
      let tasks : List Task := [.sendDecision eventId false, .answer threadRootId]
      match h : record.decisionClientRef with
      | some clientRef =>
        m.persistThen (m.rewrite eventId (.decided decision clientRef (fun he => record.decisionClientRef_ne
          (by rw [h, he]))) fun _ => rfl) e.persists fun m => m.withTasks tasks
      | none =>
        m.persistThen (m.rewrite eventId (.decided decision e.decisionClientRef e.decisionClientRef_ne) fun _ => rfl)
          e.persists fun m => m.withTasks tasks
  | _, _ => m

/-- `_send_decision_locked`, up to the frame. An auto-accepted invite brings its decision. -/
def sendDecision (eventId : String) (accepted : Bool) (e : Effects) : Flow :=
  match m.record? eventId with
  | none => m
  | some record =>
    let resolved := if accepted then .accept else record.decision
    if record.phase = .terminal ∨ resolved = .pending then m
    else match record.decisionClientRef with
      | some clientRef => m.withTasks (.transmit eventId resolved clientRef :: m.tasks)
      | none =>
        m.persistThen (m.rewrite eventId (.decided resolved e.decisionClientRef e.decisionClientRef_ne) fun _ => rfl)
          e.persists fun m => m.withTasks (.transmit eventId resolved e.decisionClientRef :: m.tasks)

/-- The frame of `_send_decision_locked`, and the outcome the server gives it. -/
def transmit (eventId : String) (decision : Decision) (clientRef : String) (e : Effects) : Flow :=
  let m := { m with decisions := ⟨eventId, decision, clientRef⟩ :: m.decisions }
  match Outcome.ofText e.outcome with
  | none => m
  | some outcome => m.persistThen (m.rewrite eventId (.resolved outcome) fun _ => rfl) e.persists id

/-- `_resume_locked`: the prompts that are missing, then the decisions that are open. -/
def resume : Flow :=
  let active := m.records.filter (·.phase ≠ .terminal)
  let unprompted := active.filter fun r => r.phase = .unsent ∨
    (r.phase = .awaitingReply ∧ r.promptEnvelopeId.isNone ∧ r.promptThreadId.isNone)
  let decided := active.filter (·.phase = .decided)
  m.withTasks ((if m.operatorSlug = "" then [] else unprompted.map fun r => .sendPrompt r.invitationEventId) ++
    decided.map fun r => .sendDecision r.invitationEventId false)

/-- The entry point that holds the lock does its next task. -/
def advance (e : Effects) : Flow :=
  match m.tasks with
  | [] => m
  | .adopt invite :: tasks => (m.withTasks tasks).adopt invite e
  | .retire seen :: tasks => (m.withTasks tasks).retire seen e
  | .sendPrompt eventId :: tasks => (m.withTasks tasks).sendPrompt eventId e
  | .sendDecision eventId accepted :: tasks => (m.withTasks tasks).sendDecision eventId accepted e
  | .transmit eventId decision clientRef :: tasks => (m.withTasks tasks).transmit eventId decision clientRef e
  | .answer threadRootId :: tasks =>
    { m.withTasks tasks with answered := threadRootId :: m.answered }

end Flow

/-- What befalls the component: its entry points once the lock is free, the tasks of the one
that holds it, its end by cancellation or an exception, and a restart. -/
inductive Event where
  | reconcile (invites : Json)
  | reply (threadRootId text : String) (effects : Effects)
  | resume
  | advance (effects : Effects)
  | interrupt
  | restart (operatorSlug : String) (autoAcceptSpace : Bool)

def step (host : Host) (m : Flow) : Event → Flow
  | .reconcile invites => if m.tasks.isEmpty then m.reconcile invites else m
  | .reply threadRootId text e => if m.tasks.isEmpty then m.handleReply host threadRootId text e else m
  | .resume => if m.tasks.isEmpty then m.resume else m
  | .advance e => m.advance e
  | .interrupt => m.withTasks []
  | .restart operatorSlug autoAcceptSpace =>
    { m with
      operatorSlug := operatorSlug
      autoAcceptSpace := autoAcceptSpace
      pending := m.pending.restart codec
      tasks := [] }

end PuffoAgent.Invitations
