import PuffoAgent.Text.JsonParse
import PuffoAgent.Text.Python

/-! The reply an owner's client writes when a credential is filed: a fenced JSON block in a
direct message. -/
namespace PuffoAgent.Credentials
open Text

section Types

def typeChatgpt : String := "PUFFO_CHATGPT_CREDENTIAL_JSON_v1"
def typeClaudeToken : String := "PUFFO_CLAUDE_CODE_TOKEN_v1"
def typeCustomized : String := "CUSTOMIZED"

def requestableTypes : List String := [typeChatgpt, typeClaudeToken, typeCustomized]

def filedFence : String := "puffo-credential-filed"

end Types

section Patterns

/-- A full match of one character class after the other. -/
def matchesAll : List (Char → Bool) → List Char → Bool
  | [], [] => true
  | p :: ps, c :: cs => p c && matchesAll ps cs
  | _, _ => false

def isLowerHex (c : Char) : Bool := ('0' ≤ c ∧ c ≤ '9') ∨ ('a' ≤ c ∧ c ≤ 'f')

/-- The character classes of `_UUID4`. -/
def uuid4Pattern : List (Char → Bool) :=
  let hex (n : Nat) : List (Char → Bool) := List.replicate n isLowerHex
  let one (c : Char) : List (Char → Bool) := [fun d => d = c]
  hex 8 ++ one '-' ++ hex 4 ++ one '-' ++ one '4' ++ hex 3 ++ one '-' ++
    [fun c => "89ab".toList.contains c] ++ hex 3 ++ one '-' ++ hex 12

/-- `_UUID4.fullmatch`. -/
def isUuid4 (text : String) : Bool := matchesAll uuid4Pattern text.toList

/-- `_ALIAS.fullmatch`. -/
def isAlias (text : String) : Bool :=
  match text.toList with
  | [] => false
  | c :: cs => c.isAlpha ∧ cs.length ≤ 63 ∧ cs.all fun d => d.isAlphanum ∨ d = '_'

def isFenceName (c : Char) : Bool := c.isAlphanum ∨ c = '_' ∨ c = '-'

/-- The text up to the first closing fence, and the text after it. -/
def closeFence : List Char → Option (List Char × List Char)
  | [] => none
  | c :: cs =>
    if ['\n', '`', '`', '`'].isPrefixOf (c :: cs) then some ([], cs.drop 3)
    else (closeFence cs).map fun (body, rest) => (c :: body, rest)

/-- One match of `_FENCED` at the start of a text: its name, its body and the text after it. -/
def openFence (cs : List Char) : Option (String × String × List Char) :=
  if ['`', '`', '`'].isPrefixOf cs then
    let name := (cs.drop 3).takeWhile isFenceName
    match ((cs.drop 3).dropWhile isFenceName).dropWhile fun c => c = ' ' ∨ c = '\t' with
    | '\n' :: rest =>
      if name = [] then none
      else (closeFence rest).map fun (body, rest) => (String.ofList name, String.ofList body, rest)
    | _ => none
  else none

/-- `_FENCED.findall`, with a bound on the matches and the characters between them. -/
def fences : Nat → List Char → List (String × String)
  | 0, _ | _, [] => []
  | n + 1, c :: cs =>
    match openFence (c :: cs) with
    | some (name, body, rest) => (name, body) :: fences n rest
    | none => fences n cs

end Patterns

section Reply

structure Filed where
  requestId : String
  type : String
  index : Nat
  version : Nat
  deriving DecidableEq

/-- What a block gives: it is passed over, it is the reply, or the look-up of a type that is no
text raises. -/
inductive Block
  | skipped
  | reply (filed : Filed)
  | raises

def readBlock (body : String) : Block :=
  match Json.loads body with
  | some (.obj data) =>
    match (Json.obj data).member "request_id", ((Json.obj data).member "type").getD .null with
    | some (.str rid), ctype =>
      if isUuid4 rid = false then .skipped
      else match ctype, (Json.obj data).member "index", (Json.obj data).member "version" with
        | .arr _, _, _ | .obj _, _, _ => .raises
        | .str ctype, some (.int index), some (.int version) =>
          if ctype ∉ requestableTypes ∨ index < 0 ∨ version < 1 then .skipped
          else .reply ⟨rid, ctype, index.toNat, version.toNat⟩
        | _, _, _ => .skipped
    | _, _ => .skipped
  | _ => .skipped

def firstReply : List (String × String) → Block
  | [] => .skipped
  | (name, body) :: blocks =>
    if name ≠ filedFence then firstReply blocks
    else match readBlock body with
      | .skipped => firstReply blocks
      | found => found

/-- `parse_filed_reply`. -/
def parseFiledReply (text : String) : Block := firstReply (fences (text.toList.length + 1) text.toList)

/-- `message_text`. -/
def messageText : Json → String
  | .str s => s
  | .obj members =>
    (["text", "content", "body"].findSome? fun key => asText ((Json.obj members).member key)).getD ""
  | _ => ""

end Reply
end PuffoAgent.Credentials
