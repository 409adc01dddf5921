import PuffoAgent.Ingress.Handler
import PuffoAgent.Text.JsonParse
import Mathlib.Algebra.Group.Int.Defs

/-! Opening an encrypted envelope: the fields of its route stand outside, under the
authenticated data, and once more in the payload that its sender has sealed and signed. -/
namespace PuffoAgent.Ingress
open Text

abbrev Bytes := List UInt8

def utf8 (s : String) : Bytes := s.toList.flatMap String.utf8EncodeChar

/-- The primitives, with the texts of their exceptions. The key pair of the device is in
`hpkeOpen`; `ed25519Verify` is given the object whose canonical form is signed. -/
structure Crypto where
  base64urlDecode : String → Except String Bytes
  hpkeOpen : Bytes → Bytes → Bytes → Except String Bytes
  aeadDecrypt : Bytes → Bytes → Bytes → Bytes → Except String String
  ed25519Verify : Bytes → Json → Bytes → Bool

inductive OpenError where
  | keyError (key : String)
  | valueError (message : String)
  | typeError
  | primitive (message : String)
  deriving DecidableEq, Repr

/-- `if p: raise e`. -/
def refuseIf (p : Prop) [Decidable p] (e : OpenError) : Except OpenError Unit :=
  if p then throw e else return ()

/-- `d[key]`. -/
def item (d : Json) (key : String) : Except OpenError Json :=
  match d.member key with
  | some value => return value
  | none => throw (.keyError key)

/-- A value that is used as a text. -/
def asText : Json → Except OpenError String
  | .str s => return s
  | _ => throw .typeError

def textItem (d : Json) (key : String) : Except OpenError String := do
  asText (← item d key)

def lift {α : Type} (x : Except String α) : Except OpenError α :=
  match x with
  | .ok a => return a
  | .error e => throw (.primitive e)

section Aad

/-- The fields that the outer AAD binds, by the kind of the envelope. -/
inductive Route where
  | channel (spaceId channelId : String)
  | dm (recipientSlug : String)
  deriving DecidableEq, Repr

/-- `_non_empty_utf8` of a routing field, which must be a text. -/
def routeText (envelope : Json) (key message : String) : Except OpenError String :=
  match envelope.member key with
  | some (.str s) => if s = "" then throw (.valueError message) else return s
  | some value => if value.truthy then throw .typeError else throw (.valueError message)
  | none => throw (.valueError message)

/-- The routing fields of `compute_outer_aad`. -/
def outerRoute (envelope : Json) : Except OpenError Route :=
  match (envelope.member "envelope_kind").getD (.str "channel") with
  | .str "channel" => do
    let spaceId ← routeText envelope "space_id" "channel envelopes require space_id and channel_id"
    let channelId ← routeText envelope "channel_id" "channel envelopes require space_id and channel_id"
    return .channel spaceId channelId
  | .str "dm" => do
    let recipientSlug ← routeText envelope "recipient_slug" "dm envelopes require recipient_slug"
    return .dm recipientSlug
  | _ => throw (.valueError "unknown envelope_kind")

def bigEndian (width n : Nat) : Bytes :=
  (List.range width).map fun i => UInt8.ofNat (n / 256 ^ (width - 1 - i))

/-- `_len_prefixed_utf8`. -/
def lenPrefixedUtf8 (value : String) : Except OpenError Bytes :=
  if value = "" then throw (.valueError "non_empty_utf8: value is empty")
  else if (utf8 value).length > 0xffff then throw (.valueError "len_prefixed_utf8: value too long")
  else return bigEndian 2 (utf8 value).length ++ utf8 value

/-- `_i64_be_from_u64`. -/
def i64BeFromU64 (value : Int) : Except OpenError Bytes :=
  if value < 0 ∨ value > 2 ^ 63 - 1 then throw (.valueError "push_i64_be_from_u64: value out of i64 range")
  else return bigEndian 8 value.toNat

def Route.tag : Route → UInt8
  | .channel _ _ => 1
  | .dm _ => 2

def Route.bytes : Route → Except OpenError Bytes
  | .channel spaceId channelId => return utf8 spaceId ++ utf8 channelId
  | .dm recipientSlug => lenPrefixedUtf8 recipientSlug

/-- `compute_outer_aad`. -/
def computeOuterAad (envelopeId senderSlug : String) (sentAtMs : Int) (route : Route) :
    Except OpenError Bytes := do
  refuseIf (envelopeId = "") (.valueError "non_empty_utf8: value is empty")
  let sender ← lenPrefixedUtf8 senderSlug
  let sentAt ← i64BeFromU64 sentAtMs
  let routed ← route.bytes
  return utf8 "puffo/message-envelope-outer/v1" ++ utf8 envelopeId ++ [route.tag] ++ sender ++ sentAt ++ routed

/-- `compute_wrap_aad`. -/
def computeWrapAad (envelopeId deviceId : String) : Except OpenError Bytes :=
  if envelopeId = "" ∨ deviceId = "" then throw (.valueError "non_empty_utf8: value is empty")
  else return utf8 "puffo/message-envelope-wrap/v1" ++ utf8 envelopeId ++ utf8 deviceId

end Aad

section Payload

/-- What a `TEXT` column holds of a value: a list or an object cannot be bound. -/
def columnText : Json → Except OpenError (Option String)
  | .null => return none
  | .str s => return some s
  | .bool true => return some "1"
  | .int n => if n = 0 then throw .typeError else return some (toString n)
  | .float f => return some f.text
  | _ => throw .typeError

/-- `d.get(key)` as its column. -/
def column (d : Json) (key : String) : Except OpenError (Option String) :=
  columnText ((d.member key).getD .null)

/-- `d[key]` as a column that is not null. -/
def requiredColumn (d : Json) (key : String) : Except OpenError String := do
  match ← columnText (← item d key) with
  | some s => return s
  | none => throw .typeError

def intItem (d : Json) (key : String) : Except OpenError Int := do
  match ← item d key with
  | .int n => return n
  | _ => throw .typeError

/-- `_message_payload_from_dict`. -/
def messagePayloadFromDict (payloadDict : Json) (envelopeId : String) : Except OpenError MessagePayload := do
  let _ ← item payloadDict "type"
  let _ ← item payloadDict "version"
  let envelopeKind ← requiredColumn payloadDict "envelope_kind"
  let senderSlug ← requiredColumn payloadDict "sender_slug"
  let _ ← item payloadDict "sender_subkey_id"
  let spaceId ← column payloadDict "space_id"
  let channelId ← column payloadDict "channel_id"
  let recipientSlug ← column payloadDict "recipient_slug"
  let sentAt ← intItem payloadDict "sent_at"
  let _ ← item payloadDict "message_nonce"
  let threadRootId ← column payloadDict "thread_root_id"
  let replyToId ← column payloadDict "reply_to_id"
  let contentType ← requiredColumn payloadDict "content_type"
  let content ← item payloadDict "content"
  return {
    envelopeId := envelopeId
    envelopeKind := envelopeKind
    senderSlug := senderSlug
    sentAt := sentAt
    contentType := contentType
    content := content
    isVisibleToHuman := ((payloadDict.member "is_visible_to_human").map Json.truthy).getD true
    spaceId := spaceId
    channelId := channelId
    recipientSlug := recipientSlug
    threadRootId := threadRootId
    replyToId := replyToId }

end Payload

section Open
variable (crypto : Crypto)

/-- The entry of `recipients` for the device. -/
def recipientEntry (envelope : Json) (deviceId : String) : Except OpenError Json := do
  match (envelope.member "recipients").getD (.arr []) with
  | .arr entries =>
    match ← entries.findM? (fun entry => return (← textItem entry "device_id") = deviceId) with
    | some entry => return entry
    | none => throw (.valueError ("no recipient entry for device " ++ deviceId))
  | _ => throw .typeError

/-- `decrypt_message` up to the sealed text. -/
def openSealed (envelope : Json) (deviceId : String) : Except OpenError String := do
  let entry ← recipientEntry envelope deviceId
  let envelopeId ← textItem envelope "envelope_id"
  let enc ← lift (crypto.base64urlDecode (← textItem entry "hpke_enc"))
  let wrappedKey ← lift (crypto.base64urlDecode (← textItem entry "wrapped_content_key"))
  let wrapAad ← computeWrapAad envelopeId deviceId
  let contentKey ← lift (crypto.hpkeOpen enc wrapAad wrappedKey)
  refuseIf (contentKey.length ≠ 32) (.valueError "invalid content key length")
  let nonce ← lift (crypto.base64urlDecode (← textItem envelope "content_nonce"))
  refuseIf (nonce.length ≠ 12) (.valueError "invalid nonce length")
  let ct ← lift (crypto.base64urlDecode (← textItem envelope "content_ciphertext"))
  let outerAad ← computeOuterAad envelopeId (← textItem envelope "sender_slug")
    (← intItem envelope "sent_at") (← outerRoute envelope)
  lift (crypto.aeadDecrypt contentKey nonce ct outerAad)

/-- The signed payload of the sealed text, once its signature and its sender are checked. -/
def openSigned (envelope : Json) (deviceId : String) (senderPublicKey : Bytes) : Except OpenError Json := do
  let plaintext ← openSealed crypto envelope deviceId
  match Json.loads plaintext with
  | none => throw (.valueError "not JSON")
  | some signed =>
    let payloadDict ← item signed "payload"
    let sigBytes ← lift (crypto.base64urlDecode (← textItem signed "signature"))
    refuseIf (¬ crypto.ed25519Verify senderPublicKey payloadDict sigBytes)
      (.valueError "signature verification failed")
    let senderSlug ← textItem envelope "sender_slug"
    let inner := (payloadDict.member "sender_slug").bind fun value => (asText value).toOption
    refuseIf (inner ≠ some senderSlug) (.valueError "sender_slug mismatch")
    return payloadDict

/-- `decrypt_message`. -/
def decryptMessage (envelope : Json) (deviceId : String) (senderPublicKey : Bytes) :
    Except OpenError MessagePayload := do
  let payloadDict ← openSigned crypto envelope deviceId senderPublicKey
  messagePayloadFromDict payloadDict (← textItem envelope "envelope_id")

end Open

end PuffoAgent.Ingress
