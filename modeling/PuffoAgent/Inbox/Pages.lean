import PuffoAgent.Store.Notice
import PuffoAgent.Projection.Message
import PuffoAgent.Text.Base64

/-! Reading the Inbox page by page: the pending queue, the cursors that name a place in it and the
byte guard of one page. -/
namespace PuffoAgent.Inbox
open Relational Store Text Projection

inductive PageError where
  | valueError (message : String)
  | runtimeError (message : String)
  | typeError
  deriving DecidableEq, Repr

section Queue

/-- `target_projection`. -/
def targetProjection (text : Text.Host) (m : StoredMessage) : String :=
  if m.row.envelopeKind = "dm" then
    "dm:" ++ (if m.row.senderSlug ≠ "" then m.row.senderSlug else m.row.recipientSlug.getD "")
  else
    let base := "channel:" ++ m.row.spaceId.getD "" ++ ":" ++ m.row.channelId.getD ""
    let root := effectiveThreadRoot text m ""
    if root ≠ "" then base ++ ":thread:" ++ root else base

/-- The `ORDER BY` of `_get_pending_unlocked`; NULL comes before every ordinal. -/
def pendingOrder (m : MessageRow) : Int ×ₗ ℕ ×ₗ ℕ ×ₗ String :=
  toLex (m.serverSeq.getD (m.afterServerSeq.getD 0),
    toLex (if m.serverSeq.isSome then 0 else 1, toLex (m.localOrdinal.elim 0 (· + 1), m.envelopeId)))

/-- `_get_pending_unlocked`. -/
def pendingRows (s : Tables) : List MessageRow :=
  (s.messages.select (·.isListed)).insertionSort (fun a b => pendingOrder a ≤ pendingOrder b)

end Queue

section Positions

/-- What comparing two items gives: the first three answer `==` and `<`, two numbers may be
unordered, and anything else raises when it comes to `<`. -/
inductive Comparison where
  | lt | eq | gt | unordered | mismatch
  deriving DecidableEq, Repr

def Comparison.of {α : Type} [LT α] [DecidableLT α] [DecidableEq α] (a b : α) : Comparison :=
  if a = b then .eq else if a < b then .lt else .gt

/-- The integer of a number that is no float. -/
def integer : Json → Option Int
  | .int n => some n
  | .bool b => some (if b then 1 else 0)
  | _ => none

def isNumber : Json → Bool
  | .int _ | .bool _ | .float _ => true
  | _ => false

variable (floats : Json → Json → Comparison)

/-- Items of two tuples, one of which is an integer or a text; the host compares floats. -/
def compareItem (a b : Json) : Comparison :=
  match integer a, integer b with
  | some m, some n => .of m n
  | _, _ => match a, b with
    | .str x, .str y => .of x y
    | _, _ => if isNumber a ∧ isNumber b then floats a b else .mismatch

/-- `a < b` on tuples: the first items that differ decide. -/
def tupleLt : List Json → List Json → Except PageError Bool
  | [], [] => .ok false
  | [], _ :: _ => .ok true
  | _ :: _, [] => .ok false
  | a :: as, b :: bs => match compareItem floats a b with
    | .eq => tupleLt as bs
    | .lt => .ok true
    | .gt | .unordered => .ok false
    | .mismatch => .error .typeError

/-- `a <= b` on tuples. -/
def tupleLe : List Json → List Json → Except PageError Bool
  | [], _ => .ok true
  | _ :: _, [] => .ok false
  | a :: as, b :: bs => match compareItem floats a b with
    | .eq => tupleLe as bs
    | .lt => .ok true
    | .gt | .unordered => .ok false
    | .mismatch => .error .typeError

/-- `list(_inbox_order(item))`. -/
def orderItems (o : Int ×ₗ ℕ ×ₗ ℕ ×ₗ String) : List Json :=
  [.int o.1, .int o.2.1, .int o.2.2.1, .str o.2.2.2]

end Positions

section Cursors

/-- The members of a cursor beside its version. -/
structure InboxCursor where
  target : String
  generation : Int
  ceiling : List Json
  last : List Json

/-- The object of a cursor, its keys sorted. -/
def InboxCursor.json (c : InboxCursor) : Json :=
  .obj [("ceiling", .arr c.ceiling), ("generation", .int c.generation), ("last", .arr c.last),
    ("target", .str c.target), ("v", .int 1)]

/-- `_encode_inbox_cursor`. -/
def encodeInboxCursor (c : InboxCursor) : String := encodeText c.json.dumpsAscii

/-- `_decode_inbox_cursor`. -/
def decodeInboxCursor (floats : Json → Json → Comparison) (cursor : String) : Except PageError InboxCursor :=
  match (decodeText cursor).bind Json.loads with
  | none => .error (.valueError "invalid Inbox cursor")
  | some value =>
    match value.member "v", value.member "target", (value.member "generation").bind integer, value.member "ceiling",
        value.member "last" with
    | some v, some (.str target), some generation, some (.arr ceiling), some (.arr last) =>
      if compareItem floats v (.int 1) = .eq then .ok ⟨target, generation, ceiling, last⟩
      else .error (.valueError "invalid Inbox cursor")
    | _, _, _, _, _ => .error (.valueError "invalid Inbox cursor")

end Cursors

section Pages
variable (text : Text.Host) (floats : Json → Json → Comparison)

structure InboxPage where
  items : List StoredMessage
  nextCursor : String
  hasMore : Bool
  remainingCount : Nat
  snapshotGeneration : Int
  target : String

/-- The cursor a read is given, if any, and that it is for the target it is given. -/
def givenCursor (target cursor : String) : Except PageError (Option InboxCursor) :=
  if cursor = "" then .ok none
  else match decodeInboxCursor floats cursor with
    | .error e => .error e
    | .ok c =>
      if target ≠ "" ∧ c.target ≠ target then .error (.valueError "Inbox cursor belongs to another target")
      else .ok (some c)

/-- The pending rows of a target, all of them for the empty one. -/
def pendingIn (s : Tables) (target : String) : List StoredMessage :=
  ((pendingRows s).map rowToMsg).filter fun m => target = "" ∨ targetProjection text m = target

/-- Where a read begins and ends: at its cursor, or before the first and at the last pending row. -/
def readingFrom (s : Tables) (target : String) (pending : List StoredMessage) : Option InboxCursor → InboxCursor
  | some c => c
  | none => {
      target := target
      generation := s.noticeState.generation
      ceiling := pending.getLast?.elim [.int 0, .int 0, .int 0, .str ""] fun m => orderItems (inboxOrder m.row)
      last := [.int (-1), .int (-1), .int (-1), .str ""] }

/-- `last < self._inbox_order(item) <= ceiling`. -/
def withinCursor (c : InboxCursor) (m : StoredMessage) : Except PageError Bool := do
  if ← tupleLt floats c.last (orderItems (inboxOrder m.row)) then
    tupleLe floats (orderItems (inboxOrder m.row)) c.ceiling
  else return false

/-- The list comprehension with a condition that may raise. -/
def selectM (p : StoredMessage → Except PageError Bool) : List StoredMessage → Except PageError (List StoredMessage)
  | [] => .ok []
  | m :: ms => do
    let keep ← p m
    let rest ← selectM p ms
    return if keep then m :: rest else rest

/-- The page of a snapshot. -/
def pageOf (c : InboxCursor) (snapshot : List StoredMessage) (limit : Nat) : InboxPage :=
  let selected := snapshot.take limit
  { items := selected
    nextCursor := if selected.length < snapshot.length then
        encodeInboxCursor { c with last := selected.getLast?.elim [] fun m => orderItems (inboxOrder m.row) }
      else ""
    hasMore := selected.length < snapshot.length
    remainingCount := snapshot.length - selected.length
    snapshotGeneration := c.generation
    target := c.target }

/-- `read_inbox_page`. -/
def readInboxPage (s : Tables) (target cursor : String) (limit : Int) : Except PageError InboxPage :=
  if ¬ (1 ≤ limit ∧ limit ≤ 50) then .error (.valueError "limit must be between 1 and 50")
  else if strip target ≠ "" ∧ ¬ (startsWith (strip target) "channel:" ∨ startsWith (strip target) "dm:") then
    .error (.valueError "invalid Inbox target")
  else do
    let decoded ← givenCursor floats (strip target) cursor
    let target := decoded.elim (strip target) (·.target)
    let pending := pendingIn text s target
    let c := readingFrom s target pending decoded
    let snapshot ← selectM (withinCursor floats c) pending
    return pageOf c snapshot limit.toNat

/-- `MAX_FORMATTED_BYTES`. -/
def maxFormattedBytes : Nat := 96000

structure InboxPageProjection where
  blocks : List String
  selected : List StoredMessage
  nextCursor : String
  hasMore : Bool
  remainingCount : Nat

variable (formatter : StoredMessage → String)

/-- The loop of `_project_inbox_page`: items until the first one that does not fit. -/
def fitting (byteCount : Nat) : List StoredMessage → List StoredMessage
  | [] => []
  | m :: ms =>
    if maxFormattedBytes < byteCount + (formatter m).utf8ByteSize then []
    else m :: fitting (byteCount + (formatter m).utf8ByteSize) ms

/-- The cursor a truncated page starts from: the store's, or one that ends at its last item. -/
def pageCursor (page : InboxPage) : String :=
  if page.nextCursor ≠ "" then page.nextCursor
  else encodeInboxCursor {
    target := page.target
    generation := page.snapshotGeneration
    ceiling := page.items.getLast?.elim [] fun m => orderItems (inboxOrder m.row)
    last := [.int (-1), .int (-1), .int (-1), .str ""] }

/-- `_project_inbox_page`. -/
def projectInboxPage (page : InboxPage) : Except PageError InboxPageProjection :=
  let selected := fitting formatter 0 page.items
  if selected.length < page.items.length then
    match selected.getLast? with
    | none => .error (.runtimeError "oldest Inbox message exceeds the page byte guard")
    | some m => do
      let decoded ← decodeInboxCursor floats (pageCursor page)
      return {
        blocks := selected.map formatter
        selected := selected
        nextCursor := encodeInboxCursor { decoded with last := orderItems (inboxOrder m.row) }
        hasMore := true
        remainingCount := page.remainingCount + page.items.length - selected.length }
  else .ok {
    blocks := selected.map formatter
    selected := selected
    nextCursor := page.nextCursor
    hasMore := page.hasMore
    remainingCount := page.remainingCount }

/-- The page that `read_inbox` admits and returns. -/
def readInbox (s : Tables) (target cursor : String) (limit : Int) : Except PageError InboxPageProjection := do
  let page ← readInboxPage text floats s target cursor limit
  projectInboxPage floats formatter page

end Pages
end PuffoAgent.Inbox
