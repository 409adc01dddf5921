import PuffoAgent.Store.Schema
import PuffoAgent.Text.JsonParse
import PuffoAgent.Text.Python

/-! The model's view of a stored row: its decoded content, the header of its target and
the line it is projected to. -/
namespace PuffoAgent.Projection
open Text Store

/-- `StoredMessage`: the columns of a row beside its decoded content. -/
structure StoredMessage where
  row : MessageRow
  content : Json

/-- `json.loads(text)`, or the text itself. -/
def loadsOr (raw text : String) : Json := (Json.loads text).getD (.str raw)

/-- `_decode_content`. -/
def decodeContent (raw contentType : String) (disposition : Option ReceiptDisposition) : Json :=
  if startsWith raw contentJsonPrefix then
    loadsOr raw (String.ofList (raw.toList.drop contentJsonPrefix.length))
  else if endsWith contentType "+json" ∨ contentType = "application/json" ∨
      contentType = "puffo/message+attachments/v1" ∨ disposition = some .eligible ∨
      disposition = some .localRuntime then loadsOr raw raw
  else .str raw

/-- What the store encodes is read back, whatever the row says about it. -/
theorem decodeContent_encodeContent (value : Json) (contentType : String) (disposition : Option ReceiptDisposition) :
    decodeContent (encodeContent value) contentType disposition = value := by
  have hraw : (encodeContent value).toList = contentJsonPrefix.toList ++ value.dumps.toList := by
    rw [encodeContent, String.toList_append]
  have hstart : startsWith (encodeContent value) contentJsonPrefix = true := by
    rw [startsWith, hraw, List.isPrefixOf_iff_prefix]
    exact List.prefix_append _ _
  rw [decodeContent, if_pos hstart, hraw, ← String.length_toList, List.drop_left, String.ofList_toList, loadsOr, Json.loads_dumps,
    Option.getD_some]

/-- `_row_to_msg`. -/
def rowToMsg (row : MessageRow) : StoredMessage :=
  ⟨row, decodeContent row.content row.contentType row.receiptDisposition⟩

inductive ProjectionError where
  | keyError (key : String)
  | unhashable
  deriving DecidableEq, Repr

/-- `CONTEXT_VERSION`. -/
def contextVersion : Nat := 1

section Quoting

/-- The replacements of `_quoted`. They touch different characters, so that one pass makes
them all. -/
def quotedChar (c : Char) : String :=
  if c = '\\' then "\\\\"
  else if c = '"' then "\\\""
  else if c = '\n' then "\\n"
  else if c = '&' then "\\u0026"
  else if c = '<' then "\\u003c"
  else if c = '>' then "\\u003e"
  else c.toString

/-- `_quoted`. -/
def quoted (value : String) : String := "\"" ++ escapeWith quotedChar value ++ "\""

def markupChar (c : Char) : String :=
  if c = '&' then "\\u0026"
  else if c = '<' then "\\u003c"
  else if c = '>' then "\\u003e"
  else c.toString

/-- `_json`. -/
def json (value : Json) : String := escapeWith markupChar value.dumps

/-- `name=value` of the row grammar. -/
def field (name value : String) : String := name ++ "=" ++ value

def bool (value : Bool) : String := if value then "true" else "false"

end Quoting

namespace StoredMessage

/-- `_content(message).get(key)`. -/
def get (m : StoredMessage) (key : String) : Option Json := m.content.member key

/-- `bool(_content(message).get(key))`. -/
def flag (m : StoredMessage) (key : String) : Bool := (m.get key).any Json.truthy

end StoredMessage

section Project
variable (host : Host) (currentAgentAliases : List String)

/-- `_normalized_slug`. -/
def normalizedSlug (value : String) : String := host.lower (lstrip '@' (strip value))

def isAlias (slug : String) : Bool :=
  normalizedSlug host slug ∈ (currentAgentAliases.filter (· ≠ "")).map (normalizedSlug host)

/-- `str(_content(message).get(key, default))`. -/
def getText (m : StoredMessage) (key default : String) : String :=
  ((m.get key).map host.str).getD default

/-- `message_text`. -/
def messageText (m : StoredMessage) : String :=
  match m.content with
  | .obj _ =>
    if m.flag "text" then host.text (m.get "text") else host.text (m.get "caption")
  | content => host.text (some content)

/-- `_content_field`. -/
def contentField (text : String) : String := field "content" (json (.str text))

/-- `_event_type`. -/
def eventType (m : StoredMessage) : String := host.text (m.get "event_type")

def isMembershipType (type : String) : Bool :=
  startsWith type "channel_member_" ∨ startsWith type "space_member_"

section Target

/-- `_dm_peer`. -/
def dmPeer (m : StoredMessage) : String :=
  let sender := m.row.senderSlug
  let recipient := m.row.recipientSlug.getD ""
  if isAlias host currentAgentAliases sender ∧ recipient ≠ "" then lstrip '@' recipient
  else lstrip '@' (if sender ≠ "" then sender else if recipient ≠ "" then recipient else "unknown")

/-- `_effective_thread_root`. -/
def effectiveThreadRoot (m : StoredMessage) (explicit : String) : String :=
  let root := m.row.threadRootId.getD ""
  if explicit ≠ "" then explicit
  else if root ≠ m.row.envelopeId then root
  else if isMembershipType (eventType host m) ∨
      (m.row.senderSlug = "system" ∧ startsWith m.row.envelopeId "intro-prompt-") then ""
  else root

/-- `_annotation` of a parsed value. -/
def annotationText (label : String) (value : Option Json) : String :=
  match value with
  | none | some .null | some (.str "") => ""
  | some value => " " ++ field label (quoted (host.str value))

def channelNameText (m : StoredMessage) : String :=
  match m.get "channel_name" with
  | none => ""
  | some name =>
    if name.truthy then annotationText host "channel_name" (some (.str (lstrip '#' (host.str name)))) else ""

def contextStart (targetType targetRef : String) : String :=
  "context context_version=" ++ toString contextVersion ++ " " ++
    field "target_type" (quoted targetType) ++ " " ++ field "target_ref" (quoted targetRef)

def isDm (m : StoredMessage) : Bool := m.row.channelId.getD "" = "" ∨ m.row.envelopeKind = "dm"

/-- `target_label`. -/
def targetLabel (m : StoredMessage) (threadRootId : String) : String :=
  let root := effectiveThreadRoot host m threadRootId
  let rootField := if root ≠ "" then " " ++ field "thread_root_id" (quoted root) else ""
  if isDm m then
    let peer := dmPeer host currentAgentAliases m
    contextStart "dm" ("dm:" ++ peer) ++ " " ++ field "peer_identity" (quoted ("@" ++ peer)) ++ rootField
  else
    let spaceId := m.row.spaceId.getD ""
    let channelId := m.row.channelId.getD ""
    let ref := "channel:" ++ spaceId ++ ":" ++ channelId
    contextStart (if root ≠ "" then "thread" else "channel")
      (if root ≠ "" then ref ++ ":thread:" ++ root else ref) ++ " " ++
      field "space_id" (quoted spaceId) ++ annotationText host "space_name" (m.get "space_name") ++ " " ++
      field "channel_id" (quoted channelId) ++ channelNameText host m ++ rootField

end Target

end Project

end PuffoAgent.Projection
