import PuffoAgent.Crypto.Aead
import PuffoAgent.Crypto.CredentialKeys
import PuffoAgent.Ingress.Envelope
import PuffoAgent.Text.Base64

/-! Sealing a message for the devices of its recipients: the payload is signed, encrypted once under a content key, and
the key is wrapped for every device. -/
namespace PuffoAgent.Ingress
open Text

/-- `base64url_encode`. -/
def base64urlEncode (data : Bytes) : String := String.ofList ((urlsafeB64encode data).rdropWhile (· = '='))

/-- `base64url_decode`. -/
def base64urlDecode (s : String) : Except String Bytes :=
  match urlsafeB64decode (s.toList ++ List.replicate ((4 - s.toList.length % 4) % 4) '=') with
  | some data => .ok data
  | none => .error "Incorrect padding"

def messageHpkeInfo : Bytes := utf8 "puffo/msg-hpke/v1"

structure RecipientDevice where
  deviceId : String
  kemPublicKey : Bytes

structure EncryptInput where
  envelopeKind : String
  senderSlug : String
  senderSubkeyId : String
  isVisibleToHuman : Bool
  spaceId : Option String := none
  channelId : Option String := none
  recipientSlug : Option String := none
  threadRootId : Option String := none
  replyToId : Option String := none
  contentType : String := "text/plain"
  content : Json := .null
  recipients : List RecipientDevice := []

/-- The signing key of a sender; a payload without a canonical form is not signed. -/
structure SigningKey where
  publicKey : Bytes
  sign : Json → Except String Bytes

/-- What one message draws, and when. -/
structure Draws where
  uuid : String
  messageNonce : Bytes
  contentKey : Bytes
  nonce : Bytes
  ephemeral : Nat → Bytes
  nowMs : Int
  keySized : contentKey.length = 32
  nonceSized : nonce.length = 12

section Seal
variable (inp : EncryptInput) (draws : Draws)

def Draws.envelopeId : String := "msg_" ++ draws.uuid

/-- `to_payload_dict`. -/
def payloadDict : Json := .obj [
  ("type", .str "message_payload"),
  ("version", .int 1),
  ("envelope_kind", .str inp.envelopeKind),
  ("sender_slug", .str inp.senderSlug),
  ("sender_subkey_id", .str inp.senderSubkeyId),
  ("space_id", textOrNull inp.spaceId),
  ("channel_id", textOrNull inp.channelId),
  ("recipient_slug", textOrNull inp.recipientSlug),
  ("sent_at", .int draws.nowMs),
  ("message_nonce", .str (base64urlEncode draws.messageNonce)),
  ("thread_root_id", textOrNull inp.threadRootId),
  ("reply_to_id", textOrNull inp.replyToId),
  ("content_type", .str inp.contentType),
  ("content", inp.content),
  ("is_visible_to_human", .bool inp.isVisibleToHuman)]

/-- `_build_signed_payload`. -/
def buildSignedPayload (key : SigningKey) : Except OpenError Json := do
  let sig ← lift (key.sign (payloadDict inp draws))
  return .obj [("payload", payloadDict inp draws), ("signature", .str (base64urlEncode sig))]

def buildPlaintextMessage (key : SigningKey) : Except OpenError Json := do
  let signed ← buildSignedPayload inp draws key
  return .obj [("type", .str "plaintext_message_envelope"), ("version", .int 1),
    ("envelope_id", .str draws.envelopeId), ("signed_payload", signed)]

/-- A routing field that `compute_outer_aad` is called with. -/
def routeField (value : Option String) (message : String) : Except OpenError String :=
  match value with
  | none => throw (.valueError message)
  | some s => if s = "" then throw (.valueError message) else return s

def EncryptInput.route : Except OpenError Route :=
  if inp.envelopeKind = "channel" then do
    let spaceId ← routeField inp.spaceId "channel envelopes require space_id and channel_id"
    let channelId ← routeField inp.channelId "channel envelopes require space_id and channel_id"
    return .channel spaceId channelId
  else do
    let recipientSlug ← routeField inp.recipientSlug "dm envelopes require recipient_slug"
    return .dm recipientSlug

/-- `compute_outer_aad` of the input; the kind is checked first and the route last. -/
def sealedAad : Except OpenError Bytes := do
  refuseIf (inp.envelopeKind ≠ "channel" ∧ inp.envelopeKind ≠ "dm") (.valueError "unknown envelope_kind")
  let _ ← lenPrefixedUtf8 inp.senderSlug
  let _ ← i64BeFromU64 draws.nowMs
  let route ← inp.route
  computeOuterAad draws.envelopeId inp.senderSlug draws.nowMs route

section Wrap
variable (hpke : PuffoAgent.Crypto.Hpke) (envelopeId : String) (contentKey : Bytes) (ephemeral : Nat → Bytes)

/-- The entry of a device. A public key of another length is refused. -/
def wrapFor (n : Nat) (device : RecipientDevice) : Except OpenError Json := do
  let wrapAad ← computeWrapAad envelopeId device.deviceId
  refuseIf (device.kemPublicKey.length ≠ 32) (.primitive "An X25519 public key is 32 bytes long")
  let out := hpke.sealTo (ephemeral n) device.kemPublicKey messageHpkeInfo wrapAad contentKey
  return .obj [("device_id", .str device.deviceId), ("hpke_enc", .str (base64urlEncode out.1)),
    ("wrapped_content_key", .str (base64urlEncode out.2))]

def wrapAll (n : Nat) : List RecipientDevice → Except OpenError (List Json)
  | [] => return []
  | device :: devices => do
    let entry ← wrapFor hpke envelopeId contentKey ephemeral n device
    let entries ← wrapAll (n + 1) devices
    return entry :: entries

end Wrap

variable (aead : PuffoAgent.Crypto.Aead) (hpke : PuffoAgent.Crypto.Hpke)

def encryptMessageWithContentKey (key : SigningKey) : Except OpenError (Json × Bytes) := do
  refuseIf (inp.recipients.isEmpty = true) (.valueError "no recipients")
  let signed ← buildSignedPayload inp draws key
  let outerAad ← sealedAad inp draws
  let ciphertext := aead.encrypt draws.contentKey draws.nonce (utf8 signed.dumpsAscii) outerAad
  let entries ← wrapAll hpke draws.envelopeId draws.contentKey draws.ephemeral 0 inp.recipients
  return (.obj [
    ("type", .str "message_envelope"),
    ("version", .int 1),
    ("envelope_id", .str draws.envelopeId),
    ("envelope_kind", .str inp.envelopeKind),
    ("sender_slug", .str inp.senderSlug),
    ("sent_at", .int draws.nowMs),
    ("space_id", textOrNull inp.spaceId),
    ("channel_id", textOrNull inp.channelId),
    ("recipient_slug", textOrNull inp.recipientSlug),
    ("content_nonce", .str (base64urlEncode draws.nonce)),
    ("content_ciphertext", .str (base64urlEncode ciphertext)),
    ("recipients", .arr entries)], draws.contentKey)

/-- `build_supplementation_envelope`. -/
def buildSupplementationEnvelope (base : List (String × Json)) (contentKey : Bytes) (devices : List RecipientDevice)
    (ephemeral : Nat → Bytes) : Except OpenError (List (String × Json)) := do
  refuseIf (devices.isEmpty = true) (.valueError "no recipients")
  let envelopeId ← textItem (.obj base) "envelope_id"
  let entries ← wrapAll hpke envelopeId contentKey ephemeral 0 devices
  return Json.setMember "recipients" (.arr entries) base

end Seal

section Open

/-- The primitives of the device with the secret. -/
def deviceCrypto (aead : PuffoAgent.Crypto.Aead) (hpke : PuffoAgent.Crypto.Hpke) (verify : Bytes → Json → Bytes → Bool)
    (secret : Bytes) : Crypto where
  base64urlDecode := base64urlDecode
  hpkeOpen enc aad ciphertext :=
    match hpke.openWith secret enc messageHpkeInfo aad ciphertext with
    | some contentKey => .ok contentKey
    | none => .error "OpenError"
  aeadDecrypt key nonce ciphertext aad :=
    match (aead.decrypt key nonce ciphertext aad).bind decodeStrict with
    | some plaintext => .ok plaintext
    | none => .error "InvalidTag"
  ed25519Verify := verify

/-- `read_plaintext_message`. -/
def readPlaintextMessage (crypto : Crypto) (envelope : Json) (senderPublicKey : Bytes) : Except OpenError MessagePayload := do
  let envelopeId ← textItem envelope "envelope_id"
  let signed ← item envelope "signed_payload"
  let payloadDict ← item signed "payload"
  let sigBytes ← lift (crypto.base64urlDecode (← textItem signed "signature"))
  refuseIf (¬ crypto.ed25519Verify senderPublicKey payloadDict sigBytes) (.valueError "signature verification failed")
  messagePayloadFromDict payloadDict envelopeId

/-- What the recipient has of a message. -/
def EncryptInput.payload (inp : EncryptInput) (draws : Draws) : MessagePayload where
  envelopeId := draws.envelopeId
  envelopeKind := inp.envelopeKind
  senderSlug := inp.senderSlug
  sentAt := draws.nowMs
  contentType := inp.contentType
  content := inp.content
  isVisibleToHuman := inp.isVisibleToHuman
  spaceId := inp.spaceId
  channelId := inp.channelId
  recipientSlug := inp.recipientSlug
  threadRootId := inp.threadRootId
  replyToId := inp.replyToId

end Open

section RoundTrip
variable {inp : EncryptInput} {draws : Draws} {key : SigningKey} {aead : PuffoAgent.Crypto.Aead} {hpke : PuffoAgent.Crypto.Hpke}
  {verify : Bytes → Json → Bytes → Bool} {secret : Bytes} {envelope : Json} {device : String}

/-- Keys whose signatures the check accepts. -/
def SigningKey.Verified (key : SigningKey) (verify : Bytes → Json → Bytes → Bool) : Prop :=
  ∀ payload sig, key.sign payload = .ok sig → verify key.publicKey payload sig = true

theorem base64urlDecode_encode (data : Bytes) : base64urlDecode (base64urlEncode data) = .ok data := by
  rw [base64urlDecode, base64urlEncode, String.toList_ofList, urlsafeB64decode_stripped _ rfl]

theorem decodeStrict_utf8 (s : String) : decodeStrict (utf8 s) = some s := by
  have h := decodeStrict_encodeUtf8 s.toList
  rwa [String.ofList_toList] at h

section Payload

theorem columnText_textOrNull (value : Option String) : columnText (textOrNull value) = .ok value := by
  cases value <;> rfl

/-- The payload that the sender has signed reads back as the message. -/
theorem messagePayload_payloadDict (inp : EncryptInput) (draws : Draws) :
    messagePayloadFromDict (payloadDict inp draws) draws.envelopeId = .ok (inp.payload draws) := by
  simp only [messagePayloadFromDict, except_bind_ok_iff]
  refine ⟨_, rfl, _, rfl, _, rfl, _, rfl, _, rfl, _, columnText_textOrNull inp.spaceId, _,
    columnText_textOrNull inp.channelId, _, columnText_textOrNull inp.recipientSlug, _, rfl, _, rfl, _,
    columnText_textOrNull inp.threadRootId, _, columnText_textOrNull inp.replyToId, _, rfl, _, rfl, rfl⟩

end Payload

section Route

theorem routeField_ok {value : Option String} {message s : String} (h : routeField value message = .ok s) :
    value = some s ∧ s ≠ "" := by
  cases value with
  | none => cases h
  | some t =>
    change (if t = "" then throw _ else return t) = _ at h
    split at h
    · cases h
    · cases h
      exact ⟨rfl, ‹_›⟩

theorem routeText_of_member {key message s : String} (hm : envelope.member key = some (.str s)) (hs : s ≠ "") :
    routeText envelope key message = .ok s := by
  rw [routeText, hm]
  exact if_neg hs

/-- The route outside is the route of the input. -/
theorem outerRoute_of_route {route : Route} (h : inp.route = .ok route)
    (hkind : inp.envelopeKind = "channel" ∨ inp.envelopeKind = "dm")
    (hk : envelope.member "envelope_kind" = some (.str inp.envelopeKind))
    (hspace : envelope.member "space_id" = some (textOrNull inp.spaceId))
    (hchannel : envelope.member "channel_id" = some (textOrNull inp.channelId))
    (hrecipient : envelope.member "recipient_slug" = some (textOrNull inp.recipientSlug)) : outerRoute envelope = .ok route := by
  unfold EncryptInput.route at h
  split at h
  · rename_i hc
    obtain ⟨spaceId, hs, h⟩ := except_bind_ok_iff.1 h
    obtain ⟨channelId, hch, h⟩ := except_bind_ok_iff.1 h
    cases h
    obtain ⟨hs, hsne⟩ := routeField_ok hs
    obtain ⟨hch, hchne⟩ := routeField_ok hch
    rw [hs] at hspace
    rw [hch] at hchannel
    rw [hc] at hk
    rw [outerRoute, hk]
    change (do
      let spaceId ← routeText envelope "space_id" _
      let channelId ← routeText envelope "channel_id" _
      return Route.channel spaceId channelId) = _
    rw [routeText_of_member hspace hsne, routeText_of_member hchannel hchne]
    rfl
  · rename_i hc
    obtain ⟨recipientSlug, hr, h⟩ := except_bind_ok_iff.1 h
    cases h
    obtain ⟨hr, hrne⟩ := routeField_ok hr
    rw [hr] at hrecipient
    rw [hkind.resolve_left hc] at hk
    rw [outerRoute, hk]
    change (do
      let recipientSlug ← routeText envelope "recipient_slug" _
      return Route.dm recipientSlug) = _
    rw [routeText_of_member hrecipient hrne]
    rfl

end Route

section Wraps
variable {envelopeId : String} {contentKey : Bytes} {ephemeral : Nat → Bytes} {entries : List Json}

/-- The entry that is made for a device. -/
theorem wrapFor_ok {n : Nat} {r : RecipientDevice} {entry : Json}
    (h : wrapFor hpke envelopeId contentKey ephemeral n r = .ok entry) : ∃ aad, computeWrapAad envelopeId r.deviceId = .ok aad ∧
      entry.member "device_id" = some (.str r.deviceId) ∧
      entry.member "hpke_enc" =
        some (.str (base64urlEncode (hpke.sealTo (ephemeral n) r.kemPublicKey messageHpkeInfo aad contentKey).1)) ∧
      entry.member "wrapped_content_key" =
        some (.str (base64urlEncode (hpke.sealTo (ephemeral n) r.kemPublicKey messageHpkeInfo aad contentKey).2)) := by
  unfold wrapFor at h
  obtain ⟨aad, haad, h⟩ := except_bind_ok_iff.1 h
  obtain ⟨-, -, h⟩ := except_bind_ok_iff.1 h
  cases h
  exact ⟨aad, haad, rfl, rfl, rfl⟩

theorem textItem_of_member {d : Json} {k s : String} (h : d.member k = some (.str s)) : textItem d k = .ok s := by
  rw [textItem, item, h]
  rfl

/-- A device finds the entry of its first listing. -/
theorem findM_wrapAll {devices : List RecipientDevice} {n : Nat}
    (h : wrapAll hpke envelopeId contentKey ephemeral n devices = .ok entries) {r : RecipientDevice}
    (hr : devices.find? (fun r => decide (r.deviceId = device)) = some r) : ∃ entry m,
      entries.findM? (fun entry => return (← textItem entry "device_id") = device) = (.ok (some entry) : Except OpenError _) ∧
        wrapFor hpke envelopeId contentKey ephemeral m r = .ok entry := by
  induction devices generalizing n entries with
  | nil => cases hr
  | cons d devices ih =>
    unfold wrapAll at h
    obtain ⟨entry, hentry, h⟩ := except_bind_ok_iff.1 h
    obtain ⟨rest, hrest, h⟩ := except_bind_ok_iff.1 h
    cases h
    obtain ⟨-, -, hid, -⟩ := wrapFor_ok hentry
    by_cases hd : d.deviceId = device
    · rw [List.find?_cons_of_pos (by simpa using hd)] at hr
      obtain rfl := Option.some.inj hr
      refine ⟨entry, n, ?_, hentry⟩
      rw [List.findM?, textItem_of_member hid]
      change (match decide (d.deviceId = device) with | true => _ | false => _) = _
      rw [decide_eq_true hd]
      rfl
    · rw [List.find?_cons_of_neg (by simpa using hd)] at hr
      obtain ⟨found, m, hfound, hwrap⟩ := ih hrest hr
      refine ⟨found, m, ?_, hwrap⟩
      rw [List.findM?, textItem_of_member hid]
      change (match decide (d.deviceId = device) with | true => _ | false => _) = _
      rw [decide_eq_false hd]
      exact hfound

/-- A device that is not listed finds no entry. -/
theorem findM_wrapAll_none {devices : List RecipientDevice} {n : Nat}
    (h : wrapAll hpke envelopeId contentKey ephemeral n devices = .ok entries) (hr : ∀ r ∈ devices, r.deviceId ≠ device) :
    entries.findM? (fun entry => return (← textItem entry "device_id") = device) = (.ok none : Except OpenError _) := by
  induction devices generalizing n entries with
  | nil =>
    cases h
    rfl
  | cons d devices ih =>
    unfold wrapAll at h
    obtain ⟨entry, hentry, h⟩ := except_bind_ok_iff.1 h
    obtain ⟨rest, hrest, h⟩ := except_bind_ok_iff.1 h
    cases h
    obtain ⟨-, -, hid, -⟩ := wrapFor_ok hentry
    rw [List.findM?, textItem_of_member hid]
    change (match decide (d.deviceId = device) with | true => _ | false => _) = _
    rw [decide_eq_false (hr d List.mem_cons_self)]
    exact ih hrest fun r hmem => hr r (List.mem_cons_of_mem _ hmem)

end Wraps

section Members
variable {members : List (String × Json)} {k k' : String} {value : Json}

theorem member_setMember_of_ne (h : k' ≠ k) :
    (Json.obj (Json.setMember k value members)).member k' = (Json.obj members).member k' := by
  have hfind : (Json.setMember k value members).reverse.find? (·.1 = k') = members.reverse.find? (·.1 = k') := by
    induction members with
    | nil => simp [Json.setMember, Ne.symm h]
    | cons m members ih =>
      unfold Json.setMember
      split
      · rename_i hm
        simp [List.find?_append, hm, Ne.symm h]
      · simp [List.find?_append, ih]
  rw [Json.member, Json.member, hfind]

theorem mem_keys_setMember : k' ∈ (Json.setMember k value members).map (·.1) ↔ k' = k ∨ k' ∈ members.map (·.1) := by
  induction members with
  | nil => simp [Json.setMember]
  | cons m members ih =>
    unfold Json.setMember
    split
    · rename_i hm
      simp [hm]
    · rename_i hm
      rw [List.map_cons, List.mem_cons, ih, List.map_cons, List.mem_cons]
      tauto

theorem nodup_setMember (h : (members.map (·.1)).Nodup) : ((Json.setMember k value members).map (·.1)).Nodup := by
  induction members with
  | nil => simp [Json.setMember]
  | cons m members ih =>
    obtain ⟨hnot, hrest⟩ := List.nodup_cons.1 h
    unfold Json.setMember
    split
    · exact h
    · rename_i hm
      refine List.nodup_cons.2 ⟨fun hmem => ?_, ih hrest⟩
      rcases mem_keys_setMember.1 hmem with hmem | hmem
      · exact hm hmem
      · exact hnot hmem

theorem member_setMember_self (h : (members.map (·.1)).Nodup) : (Json.obj (Json.setMember k value members)).member k = some value := by
  have hfind : (Json.setMember k value members).reverse.find? (·.1 = k) = some (k, value) := by
    induction members with
    | nil => simp [Json.setMember]
    | cons m members ih =>
      obtain ⟨hnot, hrest⟩ := List.nodup_cons.1 h
      unfold Json.setMember
      split
      · rename_i hm
        have hnone : members.reverse.find? (·.1 = k) = none := by
          rw [List.find?_eq_none]
          intro x hx hk
          rw [decide_eq_true_eq] at hk
          exact hnot (List.mem_map.2 ⟨x, List.mem_reverse.1 hx, hk.trans hm.symm⟩)
        simp [List.find?_append, hnone, hm]
      · simp [List.find?_append, ih hrest]
  rw [Json.member, hfind]
  rfl

end Members

section Main

/-- An object that has everything of a sealed message but the wrapped keys. -/
structure Carries (inp : EncryptInput) (draws : Draws) (key : SigningKey) (aead : PuffoAgent.Crypto.Aead)
    (members : List (String × Json)) : Prop where
  once : (members.map (·.1)).Nodup
  envelopeId : (Json.obj members).member "envelope_id" = some (.str draws.envelopeId)
  kind : (Json.obj members).member "envelope_kind" = some (.str inp.envelopeKind)
  sender : (Json.obj members).member "sender_slug" = some (.str inp.senderSlug)
  sentAt : (Json.obj members).member "sent_at" = some (.int draws.nowMs)
  space : (Json.obj members).member "space_id" = some (textOrNull inp.spaceId)
  channel : (Json.obj members).member "channel_id" = some (textOrNull inp.channelId)
  recipient : (Json.obj members).member "recipient_slug" = some (textOrNull inp.recipientSlug)
  nonce : (Json.obj members).member "content_nonce" = some (.str (base64urlEncode draws.nonce))
  ciphertext : ∃ signed outerAad, buildSignedPayload inp draws key = .ok signed ∧ sealedAad inp draws = .ok outerAad ∧
    (Json.obj members).member "content_ciphertext" = some (.str (base64urlEncode
      (aead.encrypt draws.contentKey draws.nonce (utf8 signed.dumpsAscii) outerAad)))

/-- The keys are wrapped for the devices. -/
def WrappedFor (draws : Draws) (hpke : PuffoAgent.Crypto.Hpke) (devices : List RecipientDevice) (members : List (String × Json)) : Prop :=
  ∃ ephemeral n entries, wrapAll hpke draws.envelopeId draws.contentKey ephemeral n devices = .ok entries ∧
    (Json.obj members).member "recipients" = some (.arr entries)

theorem encrypt_carries {k : Bytes} (h : encryptMessageWithContentKey inp draws aead hpke key = .ok (envelope, k)) :
    k = draws.contentKey ∧ ∃ members, envelope = .obj members ∧ Carries inp draws key aead members ∧
      WrappedFor draws hpke inp.recipients members := by
  unfold encryptMessageWithContentKey at h
  obtain ⟨-, -, h⟩ := except_bind_ok_iff.1 h
  obtain ⟨signed, hsigned, h⟩ := except_bind_ok_iff.1 h
  obtain ⟨outerAad, haad, h⟩ := except_bind_ok_iff.1 h
  obtain ⟨entries, hentries, h⟩ := except_bind_ok_iff.1 h
  cases h
  refine ⟨rfl, _, rfl, ⟨?_, rfl, rfl, rfl, rfl, rfl, rfl, rfl, rfl, signed, outerAad, hsigned, haad, rfl⟩,
    draws.ephemeral, 0, entries, hentries, rfl⟩
  simp only [List.map_cons, List.map_nil]
  decide

theorem Carries.supplement {base supp : List (String × Json)} {devices : List RecipientDevice} {ephemeral : Nat → Bytes}
    (h : Carries inp draws key aead base)
    (hs : buildSupplementationEnvelope hpke base draws.contentKey devices ephemeral = .ok supp) :
    Carries inp draws key aead supp ∧ WrappedFor draws hpke devices supp := by
  unfold buildSupplementationEnvelope at hs
  obtain ⟨-, -, hs⟩ := except_bind_ok_iff.1 hs
  obtain ⟨envelopeId, hid, hs⟩ := except_bind_ok_iff.1 hs
  obtain ⟨entries, hentries, hs⟩ := except_bind_ok_iff.1 hs
  cases hs
  rw [textItem_of_member h.envelopeId] at hid
  cases hid
  have hkeep {k : String} (hk : k ≠ "recipients") :
      (Json.obj (Json.setMember "recipients" (.arr entries) base)).member k = (Json.obj base).member k :=
    member_setMember_of_ne hk
  obtain ⟨signed, outerAad, hsigned, haad, hct⟩ := h.ciphertext
  refine ⟨⟨nodup_setMember h.once, ?_, ?_, ?_, ?_, ?_, ?_, ?_, ?_, signed, outerAad, hsigned, haad, ?_⟩,
    ephemeral, 0, entries, hentries, member_setMember_self h.once⟩
  · exact (hkeep (by decide)).trans h.envelopeId
  · exact (hkeep (by decide)).trans h.kind
  · exact (hkeep (by decide)).trans h.sender
  · exact (hkeep (by decide)).trans h.sentAt
  · exact (hkeep (by decide)).trans h.space
  · exact (hkeep (by decide)).trans h.channel
  · exact (hkeep (by decide)).trans h.recipient
  · exact (hkeep (by decide)).trans h.nonce
  · exact (hkeep (by decide)).trans hct

/-- The outside of the message binds what the inside was sealed under. -/
theorem sealedAad_ok {outerAad : Bytes} (h : sealedAad inp draws = .ok outerAad) : ∃ route, inp.route = .ok route ∧
    (inp.envelopeKind = "channel" ∨ inp.envelopeKind = "dm") ∧
    computeOuterAad draws.envelopeId inp.senderSlug draws.nowMs route = .ok outerAad := by
  unfold sealedAad at h
  obtain ⟨_, hkind, h⟩ := except_bind_ok_iff.1 h
  obtain ⟨-, -, h⟩ := except_bind_ok_iff.1 h
  obtain ⟨-, -, h⟩ := except_bind_ok_iff.1 h
  obtain ⟨route, hroute, h⟩ := except_bind_ok_iff.1 h
  refine ⟨route, hroute, ?_, h⟩
  unfold refuseIf at hkind
  split at hkind
  · cases hkind
  · rename_i hnot
    by_cases hc : inp.envelopeKind = "channel"
    · exact .inl hc
    · exact .inr (not_not.1 fun hd => hnot ⟨hc, hd⟩)

theorem buildSignedPayload_ok {signed : Json} (h : buildSignedPayload inp draws key = .ok signed) :
    ∃ sig, key.sign (payloadDict inp draws) = .ok sig ∧
      signed = .obj [("payload", payloadDict inp draws), ("signature", .str (base64urlEncode sig))] := by
  obtain ⟨sig, hsig, h⟩ := except_bind_ok_iff.1 h
  cases h
  cases hk : key.sign (payloadDict inp draws) with
  | error e =>
    rw [hk] at hsig
    cases hsig
  | ok sig' =>
    rw [hk] at hsig
    cases hsig
    exact ⟨sig, rfl, rfl⟩

theorem lift_decode (data : Bytes) :
    lift ((deviceCrypto aead hpke verify secret).base64urlDecode (base64urlEncode data)) = .ok data := by
  rw [show (deviceCrypto aead hpke verify secret).base64urlDecode = base64urlDecode from rfl, base64urlDecode_encode]
  rfl

theorem recipientEntry_eq {envelope : Json} {entries : List Json} {found : Option Json}
    (hrec : envelope.member "recipients" = some (.arr entries))
    (h : entries.findM? (fun entry => return (← textItem entry "device_id") = device) = (.ok found : Except OpenError _)) :
    recipientEntry envelope device =
      found.elim (.error (.valueError ("no recipient entry for device " ++ device))) .ok := by
  rw [recipientEntry, hrec]
  change (entries.findM? _ >>= _) = _
  rw [h]
  cases found with
  | none => rfl
  | some entry => rfl

theorem Carries.opens {members : List (String × Json)} {devices : List RecipientDevice} (h : Carries inp draws key aead members)
    (hw : WrappedFor draws hpke devices members) (haead : aead.Sound) (hhpke : hpke.Sound) (hver : key.Verified verify)
    {r : RecipientDevice} (hr : devices.find? (fun r => decide (r.deviceId = device)) = some r)
    (hkey : r.kemPublicKey = hpke.publicKey secret) :
    decryptMessage (deviceCrypto aead hpke verify secret) (.obj members) device key.publicKey = .ok (inp.payload draws) := by
  obtain ⟨ephemeral, n, entries, hentries, hrec⟩ := hw
  obtain ⟨signed, outerAad, hsigned, haad, hct⟩ := h.ciphertext
  obtain ⟨route, hroute, hkind, hbound⟩ := sealedAad_ok haad
  obtain ⟨entry, m, hfound, hwrap⟩ := findM_wrapAll hentries hr
  obtain ⟨wrapAad, hwaad, -, henc, hwrapped⟩ := wrapFor_ok hwrap
  obtain rfl : r.deviceId = device := by simpa using List.find?_some hr
  have hentry : recipientEntry (.obj members) r.deviceId = .ok entry := recipientEntry_eq hrec hfound
  have hopened : (deviceCrypto aead hpke verify secret).hpkeOpen
      (hpke.sealTo (ephemeral m) r.kemPublicKey messageHpkeInfo wrapAad draws.contentKey).1 wrapAad
      (hpke.sealTo (ephemeral m) r.kemPublicKey messageHpkeInfo wrapAad draws.contentKey).2 = .ok draws.contentKey := by
    simp only [deviceCrypto]
    rw [hkey, hhpke.opens, if_pos rfl]
  have hdecrypted : (deviceCrypto aead hpke verify secret).aeadDecrypt draws.contentKey draws.nonce
      (aead.encrypt draws.contentKey draws.nonce (utf8 signed.dumpsAscii) outerAad) outerAad = .ok signed.dumpsAscii := by
    simp only [deviceCrypto]
    rw [haead.opens draws.keySized draws.nonceSized, Option.bind_some, decodeStrict_utf8]
  have hsealed : openSealed (deviceCrypto aead hpke verify secret) (.obj members) r.deviceId = .ok signed.dumpsAscii := by
    simp only [openSealed, except_bind_ok_iff]
    refine ⟨entry, hentry, _, textItem_of_member h.envelopeId, _, textItem_of_member henc, _, lift_decode _, _,
      textItem_of_member hwrapped, _, lift_decode _, wrapAad, hwaad, _, congrArg lift hopened, (), ?_, _,
      textItem_of_member h.nonce, draws.nonce, lift_decode _, (), ?_, _, textItem_of_member hct, _, lift_decode _, _,
      textItem_of_member h.sender, draws.nowMs, ?_, route,
      outerRoute_of_route hroute hkind h.kind h.space h.channel h.recipient, outerAad, hbound, congrArg lift hdecrypted⟩
    · exact if_neg fun hne => hne draws.keySized
    · exact if_neg fun hne => hne draws.nonceSized
    · rw [intItem, item, h.sentAt]
      rfl
  obtain ⟨sig, hsign, rfl⟩ := buildSignedPayload_ok hsigned
  rw [decryptMessage, openSigned, hsealed]
  refine except_bind_ok_iff.2 ⟨payloadDict inp draws, ?_, ?_⟩
  · refine except_bind_ok_iff.2 ⟨_, rfl, ?_⟩
    rw [Json.loads_dumpsAscii]
    simp only [except_bind_ok_iff]
    refine ⟨_, rfl, _, rfl, sig, lift_decode _, (), ?_, _, textItem_of_member h.sender, (), ?_, rfl⟩
    · exact if_neg fun hno => hno (hver _ _ hsign)
    · exact if_neg fun hne => hne rfl
  · refine except_bind_ok_iff.2 ⟨_, textItem_of_member h.envelopeId, ?_⟩
    exact messagePayload_payloadDict inp draws

theorem WrappedFor.refuses {members : List (String × Json)} {devices : List RecipientDevice}
    (hw : WrappedFor draws hpke devices members) (hr : ∀ r ∈ devices, r.deviceId ≠ device) (crypto : Crypto) (publicKey : Bytes) :
    decryptMessage crypto (.obj members) device publicKey = .error (.valueError ("no recipient entry for device " ++ device)) := by
  obtain ⟨ephemeral, n, entries, hentries, hrec⟩ := hw
  have hentry : recipientEntry (.obj members) device = .error (.valueError ("no recipient entry for device " ++ device)) :=
    recipientEntry_eq hrec (findM_wrapAll_none hentries hr)
  rw [decryptMessage, openSigned, openSealed, hentry]
  rfl

/-- The messages that a sealed one becomes when its content key is wrapped for other devices, again and again. -/
inductive Supplemented (hpke : PuffoAgent.Crypto.Hpke) (contentKey : Bytes) (base : List (String × Json))
    (first : List RecipientDevice) : List RecipientDevice → List (String × Json) → Prop where
  | sealed : Supplemented hpke contentKey base first first base
  | again {devices devices' : List RecipientDevice} {members supp : List (String × Json)} {ephemeral : Nat → Bytes} :
    Supplemented hpke contentKey base first devices members →
    buildSupplementationEnvelope hpke members contentKey devices' ephemeral = .ok supp →
    Supplemented hpke contentKey base first devices' supp

/-- Whatever a sender seals, every device that it lists opens, and has the message as it was; so has every device that
the key is wrapped for later, however often; and no other device finds a key in it. -/
theorem sealed_opens (inp : EncryptInput) (draws : Draws) (key : SigningKey) (aead : PuffoAgent.Crypto.Aead)
    (hpke : PuffoAgent.Crypto.Hpke) (verify : Bytes → Json → Bytes → Bool) (haead : aead.Sound) (hhpke : hpke.Sound)
    (hver : key.Verified verify) (base members : List (String × Json)) (contentKey : Bytes) (devices : List RecipientDevice)
    (h : encryptMessageWithContentKey inp draws aead hpke key = .ok (.obj base, contentKey))
    (hs : Supplemented hpke contentKey base inp.recipients devices members) (device : String) (secret : Bytes) :
    (∀ r, devices.find? (fun r => decide (r.deviceId = device)) = some r → r.kemPublicKey = hpke.publicKey secret →
      decryptMessage (deviceCrypto aead hpke verify secret) (.obj members) device key.publicKey = .ok (inp.payload draws)) ∧
    ((∀ r ∈ devices, r.deviceId ≠ device) →
      decryptMessage (deviceCrypto aead hpke verify secret) (.obj members) device key.publicKey =
        .error (.valueError ("no recipient entry for device " ++ device))) := by
  obtain ⟨rfl, _, hbase, hcarries, hwrapped⟩ := encrypt_carries h
  cases hbase
  have hall : Carries inp draws key aead members ∧ WrappedFor draws hpke devices members := by
    induction hs with
    | sealed => exact ⟨hcarries, hwrapped⟩
    | again _ hbuild ih => exact ih.1.supplement hbuild
  exact ⟨fun r hr hkey => hall.1.opens hall.2 haead hhpke hver hr hkey, fun hr => hall.2.refuses hr _ _⟩

/-- A message that is signed only is read as it was. -/
theorem plaintext_opens (hver : key.Verified verify) (h : buildPlaintextMessage inp draws key = .ok envelope) :
    readPlaintextMessage (deviceCrypto aead hpke verify secret) envelope key.publicKey = .ok (inp.payload draws) := by
  obtain ⟨signed, hsigned, h⟩ := except_bind_ok_iff.1 h
  obtain ⟨sig, hsign, rfl⟩ := buildSignedPayload_ok hsigned
  cases h
  simp only [readPlaintextMessage, except_bind_ok_iff]
  refine ⟨_, rfl, _, rfl, _, rfl, _, rfl, sig, lift_decode _, (), ?_, messagePayload_payloadDict inp draws⟩
  exact if_neg fun hno => hno (hver _ _ hsign)

/-- A direct message to two devices, of which the first belongs to the recipient. -/
def greeting : EncryptInput where
  envelopeKind := "dm"
  senderSlug := "alice"
  senderSubkeyId := "sk"
  isVisibleToHuman := true
  recipientSlug := some "bob"
  content := .str "hi"
  recipients := [⟨"dev-1", List.replicate 32 1⟩, ⟨"dev-2", List.replicate 32 2⟩]

def plainDraws : Draws where
  uuid := "u"
  messageNonce := List.replicate 16 0
  contentKey := List.replicate 32 7
  nonce := List.replicate 12 9
  ephemeral _ := []
  nowMs := 5
  keySized := rfl
  nonceSized := rfl

/-- A signature that repeats what it signs. -/
def plainKey : SigningKey := ⟨[], fun payload => .ok (utf8 payload.dumps)⟩

theorem sealed_opens_greeting : ∃ members,
    encryptMessageWithContentKey greeting plainDraws PuffoAgent.Crypto.chachaPoly PuffoAgent.Crypto.clearHpke plainKey =
      .ok (.obj members, List.replicate 32 7) ∧
    decryptMessage (deviceCrypto PuffoAgent.Crypto.chachaPoly PuffoAgent.Crypto.clearHpke
      (fun _ payload sig => decide (sig = utf8 payload.dumps)) (List.replicate 32 1)) (.obj members) "dev-1" [] =
      .ok (greeting.payload plainDraws) :=
  ⟨_, rfl, (sealed_opens greeting plainDraws plainKey PuffoAgent.Crypto.chachaPoly PuffoAgent.Crypto.clearHpke _
    PuffoAgent.Crypto.chachaPoly_sound PuffoAgent.Crypto.clearHpke_sound (fun payload sig hsig => by cases hsig; exact decide_eq_true rfl)
    _ _ _ _ rfl .sealed "dev-1" (List.replicate 32 1)).1 ⟨"dev-1", List.replicate 32 1⟩ rfl rfl⟩

end Main

end RoundTrip

end PuffoAgent.Ingress
