import PuffoAgent.Inbox.Pages

/-! The reads of the message store that show rows to the model. -/
namespace PuffoAgent.Inbox
open Relational Store Text Projection

/-- `DataNotFound`. -/
structure DataNotFound where
  message : String
  deriving DecidableEq, Repr

section Sql

/-- `_NOT_GATED`. -/
def notGated (m : MessageRow) : Bool := m.receiptDisposition ≠ some .foreignDmGated

/-- `sent_at, envelope_id`. -/
def sentOrder (m : MessageRow) : Int ×ₗ String := toLex (m.sentAt, m.envelopeId)

/-- `server_seq, envelope_id`, of rows that have a sequence. -/
def sequenceOrder (m : MessageRow) : Int ×ₗ String := toLex (m.serverSeq.getD 0, m.envelopeId)

/-- `ORDER BY ... ASC LIMIT ?`; a negative limit is none. -/
def oldest {α : Type} [LinearOrder α] (order : MessageRow → α) (limit : Int) (rows : List MessageRow) : List MessageRow :=
  let rows := rows.insertionSort fun a b => order a ≤ order b
  if limit < 0 then rows else rows.take limit.toNat

/-- `ORDER BY ... DESC LIMIT ?`. -/
def newest {α : Type} [LinearOrder α] (order : MessageRow → α) (limit : Int) (rows : List MessageRow) : List MessageRow :=
  let rows := rows.insertionSort fun a b => order b ≤ order a
  if limit < 0 then rows else rows.take limit.toNat

/-- `content LIKE 'start%'`, which ignores the case of ASCII letters. -/
def likeStart (start content : String) : Bool :=
  (start.toList.map Char.toLower).isPrefixOf (content.toList.map Char.toLower)

/-- `_NOTE_LIKE`. -/
def noteLike (m : MessageRow) : Bool :=
  likeStart (contentJsonPrefix ++ "\"/note ") m.content ∨ likeStart "/note " m.content

end Sql

section History

/-- The optional bounds of a history, its two envelopes resolved. -/
structure Bounds where
  since : Option (Int × String) := none
  before : Option (Int × String) := none
  afterTs : Option Int := none
  beforeTs : Option Int := none
  afterSeq : Option Int := none
  beforeSeq : Option Int := none

/-- The clauses of the bounds. -/
def Bounds.admits (b : Bounds) (m : MessageRow) : Bool :=
  b.since.all (fun p => p.1 < m.sentAt ∨ m.sentAt = p.1 ∧ p.2 < m.envelopeId) ∧
  b.before.all (fun p => m.sentAt < p.1 ∨ m.sentAt = p.1 ∧ m.envelopeId < p.2) ∧
  b.afterTs.all (· < m.sentAt) ∧ b.beforeTs.all (m.sentAt < ·) ∧
  b.afterSeq.all (fun q => m.serverSeq.any (q < ·)) ∧ b.beforeSeq.all (fun q => m.serverSeq.any (· < q))

/-- `_history_order` and the page it selects, oldest first. -/
def Bounds.page (b : Bounds) (limit : Int) (rows : List MessageRow) : List MessageRow :=
  let limit := max 1 (min limit 201)
  if b.afterSeq.isSome then oldest sequenceOrder limit rows
  else if b.beforeSeq.isSome then (newest sequenceOrder limit rows).reverse
  else if b.since.isSome ∧ b.before.isNone then oldest sentOrder limit rows
  else (newest sentOrder limit rows).reverse

variable (s : Tables)

/-- `_resolve_since_sent_at`. -/
def resolveSinceSentAt (envelopeId : Option String) : Option (Int × String) :=
  ((envelopeId.filter (· ≠ "")).bind s.messages.get?).map fun m => (m.sentAt, m.envelopeId)

/-- `channel_exists`. -/
def channelExists (channelId : String) : Bool :=
  channelId ≠ "" ∧ s.messages.rows.any (·.channelId = some channelId)

/-- `has_message`. -/
def hasMessage (envelopeId : String) : Bool := (s.messages.get? envelopeId).isSome

/-- A message and its replies. -/
def inThread (rootId : String) (m : MessageRow) : Bool := m.envelopeId = rootId ∨ m.threadRootId = some rootId

/-- `get_channel_history`. -/
def getChannelHistory (channelId : String) (limit : Int) (before : Option Int) : List StoredMessage :=
  ((newest sentOrder limit (s.messages.select fun m =>
    m.channelId = some channelId ∧ before.all (m.sentAt < ·))).reverse).map rowToMsg

/-- `get_held_reconsideration_rows`. -/
def getHeldReconsiderationRows (spaceId channelId : String) (afterSeq throughSeq limit : Int) : List StoredMessage :=
  (oldest sequenceOrder (max 1 (min limit 200)) (s.messages.select fun m =>
    m.spaceId = some spaceId ∧ m.channelId = some channelId ∧
      m.serverSeq.any fun q => afterSeq < q ∧ q ≤ throughSeq)).map rowToMsg

/-- `get_dm_history`. -/
def getDmHistory (peerSlug : String) (limit : Int) (before : Option Int) (beforeEnvelopeId afterEnvelopeId : Option String) :
    List StoredMessage :=
  let bounds : Bounds := {
    since := resolveSinceSentAt s afterEnvelopeId
    before := resolveSinceSentAt s beforeEnvelopeId
    beforeTs := before }
  (bounds.page limit (s.messages.select fun m => m.envelopeKind = "dm" ∧
    (m.senderSlug = peerSlug ∨ m.recipientSlug = some peerSlug) ∧ notGated m ∧ bounds.admits m)).map rowToMsg

/-- `get_visible_message_by_envelope`. -/
def getVisibleMessageByEnvelope (envelopeId : String) : Option StoredMessage :=
  if envelopeId = "" then none
  else ((s.messages.get? envelopeId).filter notGated).map rowToMsg

/-- `get_thread_batch`. -/
def getThreadBatch (rootId : String) (sinceSentAt : Int) : List StoredMessage :=
  if rootId = "" then []
  else ((s.messages.select fun m => inThread rootId m ∧ sinceSentAt < m.sentAt ∧ notGated m).insertionSort
    fun a b => sentOrder a ≤ sentOrder b).map rowToMsg

/-- The optional arguments that roots and threads share. -/
structure Window where
  limit : Int
  sinceEnvelopeId : Option String := none
  beforeEnvelopeId : Option String := none
  beforeTs : Option Int := none
  afterTs : Option Int := none
  beforeSeq : Option Int := none
  afterSeq : Option Int := none

def Window.bounds (w : Window) : Bounds where
  since := resolveSinceSentAt s w.sinceEnvelopeId
  before := resolveSinceSentAt s w.beforeEnvelopeId
  afterTs := w.afterTs
  beforeTs := w.beforeTs
  afterSeq := w.afterSeq
  beforeSeq := w.beforeSeq

/-- `get_channel_roots`: the roots with the number of their replies. -/
def getChannelRoots (channelId : String) (w : Window) : Except DataNotFound (List (StoredMessage × Nat)) :=
  if ¬ channelExists s channelId then .error ⟨"channel not found: " ++ channelId⟩
  else
    let bounds := w.bounds s
    .ok ((bounds.page w.limit (s.messages.select fun m =>
        m.channelId = some channelId ∧ m.threadRootId = none ∧ bounds.admits m)).map fun m =>
      (rowToMsg m, s.messages.rows.countP (·.threadRootId = some m.envelopeId)))

/-- `get_thread_messages`. -/
def getThreadMessages (rootId : String) (w : Window) : Except DataNotFound (List StoredMessage) :=
  if rootId = "" then .error ⟨"thread root not found: (empty)"⟩
  else if ¬ hasMessage s rootId ∧ ¬ s.messages.rows.any (·.threadRootId = some rootId) then
    .error ⟨"thread root not found: " ++ rootId⟩
  else
    let bounds := w.bounds s
    .ok ((bounds.page w.limit (s.messages.select fun m =>
      inThread rootId m ∧ notGated m ∧ bounds.admits m)).map rowToMsg)

/-- `COALESCE(thread_root_id, envelope_id)`. -/
def noteThread (m : MessageRow) : String := m.threadRootId.getD m.envelopeId

/-- `get_channel_notes`: the newest note of each thread. -/
def getChannelNotes (channelId : String) (limit : Int) : Except DataNotFound (List StoredMessage) :=
  if ¬ channelExists s channelId then .error ⟨"channel not found: " ++ channelId⟩
  else
    let notes := s.messages.select fun m => m.channelId = some channelId ∧ noteLike m
    let first := notes.filter fun m => notes.all fun m' => noteThread m' = noteThread m → sentOrder m' ≤ sentOrder m
    .ok ((newest sentOrder (max 1 (min limit 200)) first).map rowToMsg)

/-- `get_thread_notes`. -/
def getThreadNotes (rootId : String) (limit : Int) : Except DataNotFound (List StoredMessage) :=
  if rootId = "" then .error ⟨"thread root not found: (empty)"⟩
  else if ¬ hasMessage s rootId then .error ⟨"thread root not found: " ++ rootId⟩
  else .ok ((newest sentOrder (max 1 (min limit 200)) (s.messages.select fun m =>
    inThread rootId m ∧ notGated m ∧ noteLike m)).map rowToMsg)

/-- `get_pending`. -/
def getPendingPage (limit : Option Int) : Except PageError (List StoredMessage) :=
  match limit with
  | none => .ok ((pendingRows s).map rowToMsg)
  | some n =>
    if n < 0 then .error (.valueError "limit must be non-negative")
    else .ok (((pendingRows s).take n.toNat).map rowToMsg)

end History

/-- A read that shows rows to the model, with its arguments. -/
inductive Query where
  | pending (limit : Option Int)
  | inboxPage (target cursor : String) (limit : Int)
  | dmHistory (peerSlug : String) (limit : Int) (before : Option Int) (beforeEnvelopeId afterEnvelopeId : Option String)
  | channelHistory (channelId : String) (limit : Int) (before : Option Int)
  | channelRoots (channelId : String) (w : Window)
  | threadMessages (rootId : String) (w : Window)
  | threadBatch (rootId : String) (sinceSentAt : Int)
  | channelNotes (channelId : String) (limit : Int)
  | threadNotes (rootId : String) (limit : Int)
  | heldReconsiderationRows (spaceId channelId : String) (afterSeq throughSeq limit : Int)
  | visibleMessage (envelopeId : String)

/-- The rows that a read returns; one that raises returns none. -/
def Query.rows (text : Text.Host) (floats : Json → Json → Comparison) (s : Tables) : Query → List StoredMessage
  | .pending limit => (getPendingPage s limit).toOption.getD []
  | .inboxPage target cursor limit => ((readInboxPage text floats s target cursor limit).toOption.map (·.items)).getD []
  | .dmHistory peerSlug limit before beforeEnvelopeId afterEnvelopeId =>
    getDmHistory s peerSlug limit before beforeEnvelopeId afterEnvelopeId
  | .channelHistory channelId limit before => getChannelHistory s channelId limit before
  | .channelRoots channelId w => ((getChannelRoots s channelId w).toOption.getD []).map (·.1)
  | .threadMessages rootId w => (getThreadMessages s rootId w).toOption.getD []
  | .threadBatch rootId sinceSentAt => getThreadBatch s rootId sinceSentAt
  | .channelNotes channelId limit => (getChannelNotes s channelId limit).toOption.getD []
  | .threadNotes rootId limit => (getThreadNotes s rootId limit).toOption.getD []
  | .heldReconsiderationRows spaceId channelId afterSeq throughSeq limit =>
    getHeldReconsiderationRows s spaceId channelId afterSeq throughSeq limit
  | .visibleMessage envelopeId => (getVisibleMessageByEnvelope s envelopeId).toList

end PuffoAgent.Inbox
