import PuffoAgent.Inbox.Reads
import PuffoAgent.Reminders.Store
import PuffoAgent.Sequences.Windows

/-! The tool that reads the history of a target window by window. -/
namespace PuffoAgent.History
open Relational Store Text Projection Inbox
open Reminders (InboxTarget parseInboxTarget)

inductive Direction where
  | older
  | newer
  deriving DecidableEq, Repr

def Direction.name : Direction → String
  | .older => "older"
  | .newer => "newer"

inductive ReadError where
  | runtimeError (message : String)
  | typeError
  deriving DecidableEq, Repr

section Cursors

structure HistoryCursor where
  target : String
  direction : Direction
  anchor : String

/-- `_encode_history_cursor`, its keys sorted. -/
def encodeHistoryCursor (c : HistoryCursor) : String :=
  encodeText (Json.obj [("anchor", .str c.anchor), ("direction", .str c.direction.name), ("target", .str c.target),
    ("v", .int 1)]).dumpsAscii

def invalidCursor : ReadError := .runtimeError "invalid history cursor; retry read_history without cursor"

/-- The direction of a cursor; a list or an object cannot be looked up in a set. -/
def decodeDirection : Option Json → Except ReadError Direction
  | some (.str name) =>
    if name = "older" then .ok .older else if name = "newer" then .ok .newer else .error invalidCursor
  | some (.arr _) | some (.obj _) => .error .typeError
  | _ => .error invalidCursor

/-- `_decode_history_cursor`. -/
def decodeHistoryCursor (floats : Json → Json → Comparison) (cursor : String) : Except ReadError HistoryCursor :=
  match (decodeText cursor).bind Json.loads with
  | none => .error invalidCursor
  | some value =>
    match value.member "v", value.member "target" with
    | some v, some (.str target) =>
      if compareItem floats v (.int 1) ≠ .eq then .error invalidCursor
      else match decodeDirection (value.member "direction"), value.member "anchor" with
        | .error e, _ => .error e
        | .ok direction, some (.str anchor) =>
          if target = "" ∨ anchor = "" then .error invalidCursor else .ok ⟨target, direction, anchor⟩
        | .ok _, _ => .error invalidCursor
    | _, _ => .error invalidCursor

/-- `_resolve_history_window`. -/
def resolveHistoryWindow (floats : Json → Json → Comparison) (target cursor beforeMessageId afterMessageId : String) :
    Except ReadError HistoryCursor :=
  if cursor ≠ "" then
    if beforeMessageId ≠ "" ∨ afterMessageId ≠ "" then
      .error (.runtimeError "cursor cannot be combined with before_message_id or after_message_id")
    else match decodeHistoryCursor floats cursor with
      | .error e => .error e
      | .ok decoded =>
        if target ≠ "" ∧ target ≠ decoded.target then
          .error (.runtimeError "history cursor belongs to another target")
        else .ok decoded
  else if target = "" then .error (.runtimeError "target is required when cursor is omitted")
  else if beforeMessageId ≠ "" ∧ afterMessageId ≠ "" then
    .error (.runtimeError "before_message_id and after_message_id are mutually exclusive")
  else if beforeMessageId ≠ "" then .ok ⟨target, .older, beforeMessageId⟩
  else if afterMessageId ≠ "" then .ok ⟨target, .newer, afterMessageId⟩
  else .ok ⟨target, .older, ""⟩

end Cursors

section Windows

/-- `_bounded_window`: the rows of the window, and whether there are older and newer ones. -/
def boundedWindow {α : Type} (rows : List α) (limit : Nat) (direction : Direction) (anchored : Bool) :
    List α × Bool × Bool :=
  let hasMore : Bool := limit < rows.length
  match direction with
  | .newer => (rows.take limit, anchored, hasMore)
  | .older => (rows.rtake limit, hasMore, anchored)

/-- `_history_cursors`. -/
def historyCursors (messages : List StoredMessage) (target : String) (hasOlder hasNewer : Bool) (anchor : String) :
    String × String :=
  let oldestAnchor := (messages.head?.map (·.row.envelopeId)).getD anchor
  let newestAnchor := (messages.getLast?.map (·.row.envelopeId)).getD anchor
  (if hasOlder ∧ oldestAnchor ≠ "" then encodeHistoryCursor ⟨target, .older, oldestAnchor⟩ else "",
    if hasNewer ∧ newestAnchor ≠ "" then encodeHistoryCursor ⟨target, .newer, newestAnchor⟩ else "")

/-- `tail.lstrip("@")`. -/
def peerOf (target : InboxTarget) : String := lstrip '@' target.tail

/-- `_anchor_matches_target`. -/
def anchorMatchesTarget (target : InboxTarget) (m : MessageRow) : Bool :=
  if target.kind = "dm" then
    m.envelopeKind = "dm" ∧ (m.senderSlug = peerOf target ∨ m.recipientSlug = some (peerOf target))
  else
    m.envelopeKind = "channel" ∧ m.spaceId = some target.spaceId ∧ m.channelId = some target.channelId ∧
      (target.tail = "" ∨ inThread target.tail m)

variable (s : Tables)

/-- `_validate_anchor` of an anchor that is given; both data clients look up what is visible. -/
def anchors (target : InboxTarget) (anchor : String) : Bool :=
  (getVisibleMessageByEnvelope s anchor).any fun m => anchorMatchesTarget target m.row

/-- `_read_rows`. -/
def readRows (target : InboxTarget) (anchor : String) (direction : Direction) (limit : Nat) :
    Except DataNotFound (List StoredMessage) :=
  let before := if anchor ≠ "" ∧ direction = .older then some anchor else none
  let after := if anchor ≠ "" ∧ direction = .newer then some anchor else none
  let window : Inbox.Window := { limit := limit + 1, sinceEnvelopeId := after, beforeEnvelopeId := before }
  if target.kind = "dm" then .ok (getDmHistory s (peerOf target) (limit + 1) none before after)
  else if target.tail ≠ "" then getThreadMessages s target.tail window
  else (getChannelRoots s target.channelId window).map fun roots => roots.map (·.1)

structure Window where
  messages : List StoredMessage
  hasOlder : Bool
  hasNewer : Bool
  olderCursor : String
  newerCursor : String

/-- The size of a window. -/
def pageSize (limit : Int) : Nat := (max 1 (min limit 200)).toNat

/-- `no such ... target`. -/
def noSuchTarget (parsed : InboxTarget) (target : String) : ReadError :=
  let label := if parsed.tail ≠ "" ∧ parsed.kind ≠ "dm" then "thread" else parsed.kind
  .runtimeError ("no such " ++ label ++ " target: " ++ target)

def readHistoryMessages (floats : Json → Json → Comparison) (target cursor beforeMessageId afterMessageId : String)
    (limit : Int) : Except ReadError Window :=
  match resolveHistoryWindow floats target cursor beforeMessageId afterMessageId with
  | .error e => .error e
  | .ok c =>
    match parseInboxTarget c.target with
    | .error (.valueError message) => .error (.runtimeError message)
    | .error _ => .error .typeError
    | .ok parsed =>
      if c.anchor ≠ "" ∧ ¬ anchors s parsed c.anchor then
        .error (.runtimeError "history boundary message does not belong to target")
      else match readRows s parsed c.anchor c.direction (pageSize limit) with
        | .error _ => .error (noSuchTarget parsed c.target)
        | .ok rows =>
          let (messages, hasOlder, hasNewer) := boundedWindow rows (pageSize limit) c.direction (c.anchor ≠ "")
          let (olderCursor, newerCursor) := historyCursors messages c.target hasOlder hasNewer c.anchor
          .ok ⟨messages, hasOlder, hasNewer, olderCursor, newerCursor⟩

end Windows
end PuffoAgent.History
