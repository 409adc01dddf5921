import PuffoAgent.Store.Schema
import PuffoAgent.Text.Python
import Mathlib.Data.List.Infix

/-! What is read off an inbound message's text and its claimed parents: mentions, invite
links, the bounded prompt text and the canonical thread root. -/
namespace PuffoAgent.Ingress
open Store Text

section Mentions

/-- `[a-z]` under `IGNORECASE`: the ASCII letters and the four that fold to one. -/
def isSlugLetter (c : Char) : Bool :=
  c.isAlpha ∨ c.toNat = 0x130 ∨ c.toNat = 0x131 ∨ c.toNat = 0x17f ∨ c.toNat = 0x212a

def isSlugChar (c : Char) : Bool := isSlugLetter c ∨ c.isDigit ∨ c = '-'

def isHexDigit (c : Char) : Bool := c.isDigit ∨ ('a' ≤ c ∧ c ≤ 'f') ∨ ('A' ≤ c ∧ c ≤ 'F')

/-- `.*-[a-f0-9]{4}`, on the characters from the last to the first. -/
def endsInTag : List Char → Bool
  | d :: c :: b :: a :: '-' :: _ => isHexDigit a ∧ isHexDigit b ∧ isHexDigit c ∧ isHexDigit d
  | _ => false

/-- `[a-z][a-z0-9-]*-[a-f0-9]{4}` at the head of `cs`, as long as it can be. -/
def slugAt : List Char → Option (List Char)
  | [] => none
  | c :: cs =>
    if isSlugLetter c then
      ((cs.takeWhile isSlugChar).inits.reverse.find? (fun run => endsInTag run.reverse)).map (c :: ·)
    else none

def mentionAfter : List Char → Option (List Char)
  | '@' :: cs => slugAt cs
  | _ => none

variable (isWord : Char → Bool)

/-- A match of `MENTION_RE` at the head of `cs`: the slug, and how much it consumes. -/
def mentionAt (atStart : Bool) (cs : List Char) : Option (List Char × Nat) :=
  match if atStart then mentionAfter cs else none with
  | some slug => some (slug, slug.length + 1)
  | none => match cs with
    | [] => none
    | c :: cs => if isWord c then none else (mentionAfter cs).map fun slug => (slug, slug.length + 2)

/-- `MENTION_RE.finditer`, past the `skip` characters of the match before. -/
def mentionSlugs (atStart : Bool) : Nat → List Char → List (List Char)
  | _, [] => []
  | skip + 1, _ :: cs => mentionSlugs false skip cs
  | 0, c :: cs =>
    match mentionAt isWord atStart (c :: cs) with
    | some (slug, width) => slug :: mentionSlugs false (width - 1) cs
    | none => mentionSlugs false 0 cs

end Mentions

section Links

/-- `[A-Za-z0-9_-]`. -/
def isCodeChar (c : Char) : Bool := c.isAlphanum ∨ c = '_' ∨ c = '-'

def shortCodeAt : List Char → Option (List Char)
  | '/' :: 'i' :: '/' :: cs =>
    let code := (cs.takeWhile isCodeChar).take 64
    if 6 ≤ code.length then some code else none
  | _ => none

/-- `extract_invite_short_code`. -/
def extractInviteShortCode (text : String) : Option String :=
  (text.toList.tails.findSome? shortCodeAt).map String.ofList

/-- `text.split()`. -/
def words (cs : List Char) : List (List Char) :=
  (cs.splitBy (fun a b => isSpace a = isSpace b)).filter (fun word => ¬ word.any isSpace)

/-- `is_bare_invite_link`: what is left beside the link is punctuation. -/
def isBareInviteLink (text : String) : Bool :=
  ((words text.toList).filter (fun word => ¬ word.tails.any ("/i/".toList.isPrefixOf ·))).all
    (fun word => word.all (· ∈ " \t\r\n.,!?;:".toList))

end Links

section Prompt

/-- `str.replace(old, new)`, past the `skip` characters of the occurrence before. -/
def replaceChars (old new : List Char) : Nat → List Char → List Char
  | _, [] => []
  | skip + 1, _ :: cs => replaceChars old new skip cs
  | 0, c :: cs =>
    if old.isPrefixOf (c :: cs) then new ++ replaceChars old new (old.length - 1) cs
    else c :: replaceChars old new 0 cs

def replace (s old new : String) : String :=
  String.ofList (replaceChars old.toList new.toList 0 s.toList)

/-- `_LONG_MESSAGE_PREVIEW_CHARS`. -/
def longMessagePreviewChars : Nat := 240

def preview (text : String) : String :=
  strip (replace (String.ofList (text.toList.take longMessagePreviewChars)) "\n" " ") ++
    (if longMessagePreviewChars < text.length then "…" else "")

/-- `maybe_redact_long_text`. -/
def maybeRedactLongText (text envelopeId senderSlug senderDisplayName : String)
    (maxInlineChars segmentChars : Nat) : String :=
  let segmentCount := (text.length + segmentChars - 1) / segmentChars
  let senderLabel := if senderDisplayName ≠ "" then "@" ++ senderDisplayName ++ " (" ++ senderSlug ++ ")"
    else "@" ++ senderSlug
  if text.length ≤ maxInlineChars then text
  else "[puffo-agent system message] inbound message was too long to embed inline and has been " ++
    "redacted from this prompt for context-budget reasons.\n  envelope_id: " ++ envelopeId ++
    "\n  total_chars: " ++ toString text.length ++ "\n  segments: " ++ toString segmentCount ++
    " (0-indexed, up to " ++ toString segmentChars ++ " chars each)\n  sender: " ++ senderLabel ++
    "\n  preview: " ++ preview text ++
    "\nRetrieve the full body one chunk at a time with mcp__puffo__get_post_segment(envelope_id=\"" ++
    envelopeId ++ "\", segment=N, segment_size=" ++ toString segmentChars ++ ") where N runs 0.." ++
    toString ((segmentCount : Int) - 1) ++ ". Fetch only the segments you actually need — the placeholder above " ++
    "already tells you what kind of content it is."

end Prompt

section Threads

/-- What an inbound message says about its own place. -/
structure Expected where
  channelId : Option String
  spaceId : Option String
  envelopeKind : String
  dmPeer : String
  selfSlug : String

inductive Parent where
  | missing
  | mismatched
  | found (row : MessageRow)

def Expected.admits (expected : Expected) (parent : MessageRow) : Bool :=
  let participants := [some parent.senderSlug, parent.recipientSlug]
  (expected.envelopeKind = "" ∨ parent.envelopeKind = expected.envelopeKind) ∧
  (expected.envelopeKind ≠ "dm" ∨ (expected.dmPeer ≠ "" ∧ some expected.dmPeer ∈ participants ∧
    (expected.selfSlug = "" ∨ some expected.selfSlug ∈ participants))) ∧
  (expected.channelId.getD "" = "" ∨ parent.channelId = expected.channelId) ∧
  (expected.spaceId.getD "" = "" ∨ parent.spaceId.getD "" = "" ∨ parent.spaceId = expected.spaceId)

/-- `validated_parent`. -/
def validatedParent (s : Tables) (expected : Expected) (parentId : String) : Parent :=
  match if parentId = "" then none else s.messages.get? parentId with
  | none => .missing
  | some parent => if expected.admits parent then .found parent else .mismatched

/-- `validate_incoming_parent_id`. -/
def validateIncomingParentId (s : Tables) (expected : Expected) (parentId : Option String) :
    Option String :=
  match parentId with
  | none => none
  | some id =>
    if id = "" then some id
    else match validatedParent s expected id with
      | .found _ => some id
      | _ => none

/-- `_INCOMING_ROOT_MAX_DEPTH`. -/
def incomingRootMaxDepth : Nat := 8

/-- The loop of `resolve_incoming_thread_root`. -/
def resolveFrom (s : Tables) (expected : Expected) :
    Nat → List String → String → Option String × Bool
  | 0, _, _ => (none, false)
  | depth + 1, seen, current =>
    if current ∈ seen then (none, false)
    else match validatedParent s expected current with
      | .missing => (some current, true)
      | .mismatched => (none, false)
      | .found parent =>
        let root := parent.threadRootId.getD ""
        if root = "" ∨ root = current then (some current, false)
        else resolveFrom s expected depth (current :: seen) root

/-- `resolve_incoming_thread_root`. -/
def resolveIncomingThreadRoot (s : Tables) (expected : Expected) (parentId : Option String) :
    Option String × Bool :=
  match parentId with
  | none => (none, false)
  | some id => if id = "" then (some id, false) else resolveFrom s expected incomingRootMaxDepth [] id

end Threads

end PuffoAgent.Ingress
