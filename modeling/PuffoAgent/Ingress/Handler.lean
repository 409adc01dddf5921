import PuffoAgent.Ingress.Attachments
import PuffoAgent.Ingress.Context
import PuffoAgent.Ingress.Delivery

/-! The native receipt handler: the gates a delivery passes and the content an admitted
message is stored with. -/
namespace PuffoAgent.Ingress
open Relational Sql Store Text

/-- A decoded message, as the transport hands it on. -/
structure MessagePayload where
  envelopeId : String
  envelopeKind : String
  senderSlug : String
  sentAt : Int
  contentType : String
  content : Json
  isVisibleToHuman : Bool
  spaceId : Option String := none
  channelId : Option String := none
  recipientSlug : Option String := none
  threadRootId : Option String := none
  replyToId : Option String := none

/-- The client's configuration and what its caches, services and pending prompts answer
while one delivery is handled. `blocklist` is `none` before the first hydration;
`controlReply` gives the reason of the handler that consumes an operator's reply. -/
structure Client where
  slug : String
  operatorSlug : String
  autoAcceptDm : Bool
  signedHttpAvailable : Bool
  maxInlineChars : Nat
  segmentChars : Nat
  catchupStaleMs : Int
  blocklist : Option (List String)
  allowlist : List String
  pendingDmApprovals : List (String × String)
  controlReply : String → String → Option String
  sharesSpaceWith : String → Bool
  fetchDisplayName : String → String
  fetchOwnerSlug : String → String
  resolveSpaceName : String → String
  resolveChannelName : String → String → String
  getSpaceMembers : String → List (String × String)
  attachments : AttachmentService

/-- `DM_GATE_PROMPT_PLACEHOLDER`. -/
def dmGatePromptPlaceholder : String :=
  "[foreign-DM approval prompt — held message withheld from context]"

/-- `BLOCKED_MESSAGE_PLACEHOLDER`. -/
def blockedMessagePlaceholder : String := "[message from a blocked account was dropped]"

section Handle
variable (host : Host) (client : Client)

section Gates

/-- `ContactCache.is_blocked`; `none` is `BlocklistUnavailable`. -/
def isBlocked (slug : String) : Option Bool :=
  if slug = "" then some false else client.blocklist.map (slug ∈ ·)

/-- `blocked_gate`. -/
def blockedGate (payload : MessagePayload) : Option (Option GateVerdict) :=
  if payload.senderSlug = client.slug then some none
  else do
    let blocked ← isBlocked client payload.senderSlug
    return if blocked then some {
      gate := "blocked"
      disposition := .terminal
      reason := if payload.envelopeKind = "dm" then "blocked dm tombstone" else "blocked channel tombstone"
      content := some blockedMessagePlaceholder } else none

/-- `operator_control_gate`. -/
def operatorControlGate (payload : MessagePayload) (threadRootId text : String) : Option GateVerdict :=
  if payload.envelopeKind = "dm" ∧ payload.senderSlug = client.operatorSlug then
    (client.controlReply threadRootId text).map fun reason => {
      gate := "operator_control"
      disposition := .terminal
      reason := reason }
  else none

/-- `invite_link_gate`. -/
def inviteLinkGate (payload : MessagePayload) (text : String) : Option GateVerdict :=
  if payload.envelopeKind = "dm" ∧ (extractInviteShortCode text).isSome ∧ isBareInviteLink text then
    some {
      gate := "invite_link_redeem"
      disposition := .terminal
      reason := "invite link routed to operator approval" }
  else none

/-- `_is_foreign_dm_sender`. -/
def isForeignDmSender (slug : String) : Bool :=
  let owner := client.fetchOwnerSlug slug
  slug ≠ "" ∧ slug ≠ client.operatorSlug ∧ slug ≠ client.slug ∧
    ¬ (owner ≠ "" ∧ owner = client.operatorSlug)

/-- `maybe_gate_foreign_dm`. -/
def maybeGateForeignDm (slug : String) : Bool :=
  client.pendingDmApprovals.any (·.2 = slug) ∨ client.operatorSlug ≠ ""

def foreignDmVerdict (reason : String) : GateVerdict where
  gate := "foreign_dm"
  disposition := .foreignDmGated
  reason := reason

/-- `foreign_dm_gate`. -/
def foreignDmGate (payload : MessagePayload) : Option GateVerdict :=
  let sender := payload.senderSlug
  if payload.envelopeKind ≠ "dm" then none
  else if ¬ isForeignDmSender client sender then none
  else if client.autoAcceptDm ∨ (sender ≠ "" ∧ sender ∈ client.allowlist) ∨
      (client.signedHttpAvailable ∧ client.sharesSpaceWith sender) then none
  else if ¬ client.signedHttpAvailable then
    some (foreignDmVerdict (if client.operatorSlug = ""
      then "foreign dm gated (keyless: no operator configured)"
      else "foreign dm gated (keyless: no operator prompt)"))
  else if maybeGateForeignDm client sender then some (foreignDmVerdict "foreign dm awaiting approval")
  else none

/-- `_is_stale_for_catchup`. -/
def isStaleForCatchup (sentAt nowMs : Int) : Bool :=
  0 < client.catchupStaleMs ∧ sentAt < nowMs - client.catchupStaleMs

end Gates

section Content

def isAttachmentsMessage (payload : MessagePayload) : Bool :=
  payload.contentType = "puffo/message+attachments/v1" ∧ payload.content matches .obj _

/-- `_raw_text`. -/
def rawText (payload : MessagePayload) : String :=
  if isAttachmentsMessage payload then host.text (payload.content.member "text")
  else host.text (some payload.content)

/-- `_save_attachments`. -/
def saveAttachments (payload : MessagePayload) : List String :=
  if isAttachmentsMessage payload then
    match payload.content.member "attachments" with
    | some (.arr metas) => saveInboundAttachments host client.attachments payload.envelopeId metas
    | _ => []
  else []

/-- The slugs `_mentions` finds, each once. -/
def parsedMentions (text : String) : List String :=
  ((mentionSlugs host.isWord true 0 text.toList).map (host.lower ∘ String.ofList)).reverse.dedup.reverse

/-- The entry of one mentioned slug. A slug no member of the space has is left out. -/
def mentionEntry (members : List (String × String)) (slug : String) : Option Json :=
  if slug = host.lower client.slug then
    some (.obj [("username", .str client.slug), ("is_agent", .bool true), ("is_self", .bool true)])
  else if members.isEmpty ∨ (members.lookup slug).isSome then
    some (.obj [("username", .str slug), ("is_agent", .bool (members.lookup slug = some "agent")),
      ("is_self", .bool false)])
  else none

def spaceMembers (payload : MessagePayload) : List (String × String) :=
  if payload.spaceId.getD "" ≠ "" then client.getSpaceMembers (payload.spaceId.getD "") else []

/-- `_mentions`. -/
def mentionEntries (payload : MessagePayload) (text : String) : List Json × Bool :=
  ((parsedMentions host text).filterMap (mentionEntry host client (spaceMembers client payload)),
    host.lower client.slug ∈ parsedMentions host text)

def isFromOperator (payload : MessagePayload) : Bool :=
  client.operatorSlug ≠ "" ∧ payload.senderSlug = client.operatorSlug

/-- `_sender_type`. -/
def rosterType (payload : MessagePayload) : String :=
  if client.fetchOwnerSlug payload.senderSlug ≠ "" then "agent"
  else if isFromOperator client payload then "human"
  else if payload.spaceId.getD "" = "" then ""
  else match (client.getSpaceMembers (payload.spaceId.getD "")).lookup payload.senderSlug with
    | some type => if type = "human" ∨ type = "agent" then type else ""
    | none => ""

def channelName (payload : MessagePayload) : String :=
  if payload.envelopeKind = "dm" then "Direct message"
  else if payload.channelId.getD "" ≠ "" then
    client.resolveChannelName (payload.spaceId.getD "") (payload.channelId.getD "")
  else ""

def spaceName (payload : MessagePayload) : String :=
  if payload.spaceId.getD "" ≠ "" then client.resolveSpaceName (payload.spaceId.getD "") else ""

/-- The text the model is shown: its own mention marked, and bounded. -/
def promptText (payload : MessagePayload) : String :=
  let text := rawText host payload
  let clean := if (mentionEntries host client payload text).2
    then strip (replace text ("@" ++ client.slug) ("@you(" ++ client.slug ++ ")")) else text
  maybeRedactLongText clean payload.envelopeId payload.senderSlug
    (client.fetchDisplayName payload.senderSlug) client.maxInlineChars client.segmentChars

/-- `_prompt_content`. -/
def promptContent (payload : MessagePayload) (attachmentPaths : List String) : Json :=
  let owner := client.fetchOwnerSlug payload.senderSlug
  .obj ([("text", .str (promptText host client payload)),
    ("attachment_paths", .arr (attachmentPaths.map .str)),
    ("mentions", .arr (mentionEntries host client payload (rawText host payload)).1),
    ("sender_display_name", .str (client.fetchDisplayName payload.senderSlug)),
    ("sender_owner_slug", .str owner), ("is_from_operator", .bool (isFromOperator client payload)),
    ("sender_is_agent", .bool (owner ≠ "")), ("is_visible_to_human", .bool payload.isVisibleToHuman),
    ("channel_name", .str (channelName client payload)), ("space_name", .str (spaceName client payload))] ++
    (if rawText host payload ≠ promptText host client payload then
      [("original_content", payload.content)] else []) ++
    (if rosterType client payload ≠ "" then [("sender_type", .str (rosterType client payload))] else []))

end Content

/-- `_build_committer`: the row as the sender's content would be stored. -/
def storedPayload (payload : MessagePayload) (isPlaintext : Bool) (s : Tables) : Payload :=
  let peer := if payload.senderSlug = client.slug then payload.recipientSlug.getD "" else payload.senderSlug
  let expected : Expected := ⟨payload.channelId, payload.spaceId, payload.envelopeKind,
    if payload.envelopeKind = "dm" then peer else "", client.slug⟩
  let root := resolveIncomingThreadRoot s expected payload.threadRootId
  { envelopeId := payload.envelopeId
    envelopeKind := payload.envelopeKind
    senderSlug := payload.senderSlug
    channelId := payload.channelId
    spaceId := payload.spaceId
    recipientSlug := payload.recipientSlug
    contentType := payload.contentType
    content := payload.content
    sentAt := payload.sentAt
    threadRootId := root.1
    replyToId := validateIncomingParentId s expected payload.replyToId
    threadRootUnverified := root.2
    isEncrypted := ¬ isPlaintext }

/-- What the handler does with a delivery. -/
inductive Decision where
  | hold
  | file (row : Payload) (disposition : ReceiptDisposition) (reason : String) (content : Option Json)

/-- `_commit_verdict`. -/
def fileVerdict (stored : Payload) (verdict : GateVerdict) : Decision :=
  .file stored verdict.disposition verdict.reason (verdict.content.map .str)

/-- The row of `_self_echo_outcome`. -/
def selfEchoRow (payload : MessagePayload) (stored : Payload) : Payload :=
  if client.pendingDmApprovals.any (·.1 = payload.envelopeId) then { stored with
    content := contentWithVisibility host.str (.str dmGatePromptPlaceholder) payload.isVisibleToHuman
    contentType := "text/plain" }
  else { stored with
    content := contentWithVisibility host.str payload.content payload.isVisibleToHuman }

/-- The arms of `handle`, in order. -/
def decision (payload : MessagePayload) (nowMs : Int) (stored : Payload) : Decision :=
  match blockedGate client payload with
  | none => .hold
  | some (some verdict) => fileVerdict stored verdict
  | some none =>
    if payload.senderSlug = client.slug then
      .file (selfEchoRow host client payload stored) .terminal "self echo" none
    else match operatorControlGate client payload (stored.threadRootId.getD "")
        (host.text (some payload.content)) with
      | some verdict => fileVerdict stored verdict
      | none => match inviteLinkGate payload (rawText host payload) with
        | some verdict => fileVerdict stored verdict
        | none => match foreignDmGate client payload with
          | some verdict => fileVerdict stored verdict
          | none =>
            if isStaleForCatchup client payload.sentAt nowMs then
              .file stored .terminal "stale catch-up" none
            else .file { stored with
                content := promptContent host client payload (saveAttachments host client payload) }
              .eligible "eligible message" none

/-- `handle`, on a delivery whose payload has been opened. -/
def handle (payload : MessagePayload) (serverSeq : Int) (isPlaintext : Bool) (nowMs : Int) :
    StoreM TransportOutcome := do
  let stored ← Sql.read (storedPayload client payload isPlaintext)
  match decision host client payload nowMs stored with
  | .hold => return .hold
  | .file row disposition reason content =>
    commit row serverSeq disposition reason content nowMs nowMs

end Handle

end PuffoAgent.Ingress
