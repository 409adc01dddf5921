import PuffoAgent.Ingress.Envelope

/-! The handler decides on the route that the sender has sealed inside. It is the one the
outer envelope authenticates exactly for the payloads that name the same route. -/
namespace PuffoAgent.Ingress
open Text Store

namespace Route

def kind : Route → String
  | .channel _ _ => "channel"
  | .dm _ => "dm"

def spaceId : Route → Option String
  | .channel spaceId _ => some spaceId
  | .dm _ => none

def channelId : Route → Option String
  | .channel _ channelId => some channelId
  | .dm _ => none

def recipientSlug : Route → Option String
  | .channel _ _ => none
  | .dm recipientSlug => some recipientSlug

end Route

/-- The payload on the given route. -/
def MessagePayload.routed (payload : MessagePayload) (route : Route) : MessagePayload := { payload with
  envelopeKind := route.kind
  spaceId := route.spaceId
  channelId := route.channelId
  recipientSlug := route.recipientSlug }

/-- The sealed payload names the route, and nothing of another. -/
structure Names (payloadDict : Json) (route : Route) : Prop where
  kind : column payloadDict "envelope_kind" = .ok (some route.kind)
  spaceId : column payloadDict "space_id" = .ok route.spaceId
  channelId : column payloadDict "channel_id" = .ok route.channelId
  recipientSlug : column payloadDict "recipient_slug" = .ok route.recipientSlug

section Opening
variable {crypto : Crypto} {envelope payloadDict : Json} {deviceId envelopeId : String} {key : Bytes}
  {payload : MessagePayload}

theorem requiredColumn_ok {name text : String} (h : requiredColumn payloadDict name = .ok text) :
    column payloadDict name = .ok (some text) := by
  simp only [requiredColumn, except_bind_ok_iff] at h
  obtain ⟨value, hv, found, hc, h⟩ := h
  unfold item at hv
  cases hm : payloadDict.member name with
  | none => simp [hm, throw, throwThe, MonadExceptOf.throw] at hv
  | some value' =>
    simp only [hm] at hv
    obtain rfl := Except.ok.inj hv
    cases found with
    | none => cases h
    | some text' =>
      obtain rfl := Except.ok.inj h
      simpa [column, hm] using hc

/-- The route of an opened payload is the one that is sealed inside. -/
theorem messagePayloadFromDict_ok (h : messagePayloadFromDict payloadDict envelopeId = .ok payload) :
    column payloadDict "envelope_kind" = .ok (some payload.envelopeKind) ∧
      column payloadDict "space_id" = .ok payload.spaceId ∧
      column payloadDict "channel_id" = .ok payload.channelId ∧
      column payloadDict "recipient_slug" = .ok payload.recipientSlug := by
  simp only [messagePayloadFromDict, except_bind_ok_iff] at h
  obtain ⟨-, -, -, -, kind, hkind, sender, -, -, -, space, hspace, channel, hchannel, recipient, hrecipient,
    sentAt, -, -, -, root, -, reply, -, type, -, content, -, h⟩ := h
  obtain rfl := Except.ok.inj h
  exact ⟨requiredColumn_ok hkind, hspace, hchannel, hrecipient⟩

/-- An envelope that opens has a route under its authenticated data. -/
theorem openSealed_outerRoute {plaintext : String} (h : openSealed crypto envelope deviceId = .ok plaintext) :
    ∃ route, outerRoute envelope = .ok route := by
  simp only [openSealed, except_bind_ok_iff] at h
  obtain ⟨-, -, -, -, -, -, -, -, -, -, -, -, -, -, -, -, -, -, -, -, -, -, -, -, -, -, -, -, -, -, -, -,
    route, hroute, -⟩ := h
  exact ⟨route, hroute⟩

theorem openSigned_outerRoute (h : openSigned crypto envelope deviceId key = .ok payloadDict) :
    ∃ route, outerRoute envelope = .ok route := by
  simp only [openSigned, except_bind_ok_iff] at h
  obtain ⟨plaintext, hp, -⟩ := h
  exact openSealed_outerRoute hp

end Opening

section Routing
variable {host : Host} {client : Client} {payload : MessagePayload} {nowMs : Int} {stored row : Payload}

/-- The row that is filed keeps the route it was built with. -/
theorem decision_route {disposition : ReceiptDisposition} {reason : String} {content : Option Json}
    (h : decision host client payload nowMs stored = .file row disposition reason content) :
    row.envelopeKind = stored.envelopeKind ∧ row.spaceId = stored.spaceId ∧
      row.channelId = stored.channelId ∧ row.recipientSlug = stored.recipientSlug := by
  unfold decision at h
  split at h
  · cases h
  · cases h
    exact ⟨rfl, rfl, rfl, rfl⟩
  · split at h
    · cases h
      unfold selfEchoRow
      split <;> exact ⟨rfl, rfl, rfl, rfl⟩
    · split at h
      · cases h
        exact ⟨rfl, rfl, rfl, rfl⟩
      · split at h
        · cases h
          exact ⟨rfl, rfl, rfl, rfl⟩
        · split at h
          · cases h
            exact ⟨rfl, rfl, rfl, rfl⟩
          · split at h <;>
            · cases h
              exact ⟨rfl, rfl, rfl, rfl⟩

/-- With a hydrated blocklist every delivery is filed. -/
theorem decision_filed (host : Host) (payload : MessagePayload) (nowMs : Int) (stored : Payload)
    {blocked : List String} (h : client.blocklist = some blocked) :
    ∃ row disposition reason content,
      decision host client payload nowMs stored = .file row disposition reason content := by
  obtain ⟨verdict, hv⟩ : ∃ verdict, blockedGate client payload = some verdict := by
    unfold blockedGate isBlocked
    split
    · exact ⟨_, rfl⟩
    · split
      · exact ⟨_, rfl⟩
      · rw [h]
        exact ⟨_, rfl⟩
  cases hd : decision host client payload nowMs stored with
  | file row disposition reason content => exact ⟨row, disposition, reason, content, rfl⟩
  | hold =>
    unfold decision fileVerdict at hd
    rw [hv] at hd
    cases verdict with
    | some verdict => cases hd
    | none =>
      dsimp only at hd
      repeat' split at hd
      all_goals cases hd

end Routing

/-- A client whose caches and services answer with nothing, under the given gate settings. -/
def plainClient (operatorSlug : String) (signedHttpAvailable : Bool) : Client where
  slug := "agent"
  operatorSlug := operatorSlug
  autoAcceptDm := false
  signedHttpAvailable := signedHttpAvailable
  maxInlineChars := 4000
  segmentChars := 2000
  catchupStaleMs := 0
  blocklist := some []
  allowlist := []
  pendingDmApprovals := []
  controlReply _ _ := none
  sharesSpaceWith _ := false
  fetchDisplayName _ := ""
  fetchOwnerSlug _ := ""
  resolveSpaceName _ := ""
  resolveChannelName _ _ := ""
  getSpaceMembers _ := []
  attachments := {
    workspace := ""
    int := fun _ => none
    plaintext := fun _ => none
    writes := fun _ => false
    normalized := fun _ _ => .kept }

/-- What the handler decides on a payload, in any state of the client and the store. -/
def Decides (payload payload' : MessagePayload) : Prop :=
  ∀ host client nowMs s, decision host client payload nowMs (storedPayload client payload false s) =
    decision host client payload' nowMs (storedPayload client payload' false s)

theorem Decides.route {payload payload' : MessagePayload} (h : Decides payload payload') :
    payload.envelopeKind = payload'.envelopeKind ∧ payload.spaceId = payload'.spaceId ∧
      payload.channelId = payload'.channelId ∧ payload.recipientSlug = payload'.recipientSlug := by
  have open_ : (plainClient "op" true).blocklist = some [] := rfl
  obtain ⟨row, disposition, reason, content, hd⟩ := decision_filed asciiHost payload 0
    (storedPayload (plainClient "op" true) payload false Tables.empty) open_
  have hd' := hd
  rw [h asciiHost (plainClient "op" true) 0 Tables.empty] at hd'
  obtain ⟨k, sp, ch, r⟩ := decision_route hd
  obtain ⟨k', sp', ch', r'⟩ := decision_route hd'
  exact ⟨k.symm.trans k', sp.symm.trans sp', ch.symm.trans ch', r.symm.trans r'⟩

/-- The handler decides on an accepted message as on the route that its envelope authenticates,
in every state of the client and the store, exactly when the sealed payload names that route. -/
theorem accepted_route_bound_iff (crypto : Crypto) (envelope payloadDict : Json) (deviceId : String)
    (key : Bytes) (payload : MessagePayload)
    (signed : openSigned crypto envelope deviceId key = .ok payloadDict)
    (accepted : decryptMessage crypto envelope deviceId key = .ok payload) :
    ∃ route, outerRoute envelope = .ok route ∧
      (Decides payload (payload.routed route) ↔ Names payloadDict route) := by
  obtain ⟨route, hroute⟩ := openSigned_outerRoute signed
  simp only [decryptMessage, signed, except_bind_ok_iff, Except.ok.injEq, exists_eq_left'] at accepted
  obtain ⟨envelopeId, -, accepted⟩ := accepted
  obtain ⟨hkind, hspace, hchannel, hrecipient⟩ := messagePayloadFromDict_ok accepted
  refine ⟨route, hroute, fun same => ?_, fun names => ?_⟩
  · obtain ⟨k, sp, ch, r⟩ := same.route
    rw [k] at hkind
    rw [sp] at hspace
    rw [ch] at hchannel
    rw [r] at hrecipient
    exact ⟨hkind, hspace, hchannel, hrecipient⟩
  · have k : route.kind = payload.envelopeKind := by simpa using names.kind.symm.trans hkind
    have sp : route.spaceId = payload.spaceId := by simpa using names.spaceId.symm.trans hspace
    have ch : route.channelId = payload.channelId := by simpa using names.channelId.symm.trans hchannel
    have r : route.recipientSlug = payload.recipientSlug := by
      simpa using names.recipientSlug.symm.trans hrecipient
    have unmoved : payload.routed route = payload := by rw [MessagePayload.routed, k, sp, ch, r]
    intro host client nowMs s
    rw [unmoved]

/-- An envelope from a stranger to the agent, delivered as a direct message. -/
def strangerEnvelope : Json :=
  .obj [("envelope_id", .str "env-1"), ("envelope_kind", .str "dm"), ("sender_slug", .str "mallory"),
    ("sent_at", .int 5), ("recipient_slug", .str "agent"), ("content_nonce", .str "abcdefghijkl"),
    ("content_ciphertext", .str "ct"),
    ("recipients", .arr [.obj [("device_id", .str "dev-1"), ("hpke_enc", .str "enc"),
      ("wrapped_content_key", .str "key")]])]

/-- A payload of the same stranger, on the given route. -/
def strangerPayload (route : List (String × Json)) : Json :=
  .obj ([("type", .str "message_payload"), ("version", .int 1), ("sender_slug", .str "mallory"),
    ("sender_subkey_id", .str "sk"), ("sent_at", .int 5), ("message_nonce", .str "mn"),
    ("content_type", .str "text/plain"), ("content", .str "hi")] ++ route)

/-- Primitives under which the envelope opens to the payload, and to nothing under other
authenticated data. -/
def sealing (payloadDict : Json) : Crypto where
  base64urlDecode s := .ok (utf8 s)
  hpkeOpen _ _ _ := .ok (List.replicate 32 0)
  aeadDecrypt _ _ _ aad :=
    if .ok aad = computeOuterAad "env-1" "mallory" 5 (.dm "agent") then
      .ok (Json.obj [("payload", payloadDict), ("signature", .str "sig")]).dumps
    else .error "tag mismatch"
  ed25519Verify _ _ _ := true

theorem openSealed_sealing (payloadDict : Json) :
    openSealed (sealing payloadDict) strangerEnvelope "dev-1" =
      .ok (Json.obj [("payload", payloadDict), ("signature", .str "sig")]).dumps := by
  obtain ⟨aad, bound⟩ : ∃ aad, computeOuterAad "env-1" "mallory" 5 (.dm "agent") = .ok aad := ⟨_, rfl⟩
  simp only [openSealed, except_bind_ok_iff]
  refine ⟨_, rfl, _, rfl, _, rfl, _, rfl, _, rfl, _, rfl, _, rfl, _, rfl, (), rfl, _, rfl, _, rfl, (), rfl,
    _, rfl, _, rfl, _, rfl, _, rfl, _, rfl, aad, bound, ?_⟩
  have opens : (sealing payloadDict).aeadDecrypt (List.replicate 32 0) (utf8 "abcdefghijkl") (utf8 "ct") aad =
      .ok (Json.obj [("payload", payloadDict), ("signature", .str "sig")]).dumps := if_pos bound.symm
  rw [opens]
  rfl

/-- The stranger's envelope opens to whatever the stranger has sealed. -/
theorem openSigned_sealing {payloadDict : Json} (sender : payloadDict.member "sender_slug" = some (.str "mallory")) :
    openSigned (sealing payloadDict) strangerEnvelope "dev-1" [] = .ok payloadDict := by
  rw [openSigned, openSealed_sealing]
  refine except_bind_ok_iff.2 ⟨_, rfl, ?_⟩
  rw [Json.loads_dumps]
  simp only [except_bind_ok_iff]
  exact ⟨payloadDict, rfl, _, rfl, _, rfl, (), rfl, _, rfl, (), by rw [sender]; rfl, rfl⟩

theorem decryptMessage_sealing {payloadDict : Json}
    (sender : payloadDict.member "sender_slug" = some (.str "mallory")) :
    decryptMessage (sealing payloadDict) strangerEnvelope "dev-1" [] =
      messagePayloadFromDict payloadDict "env-1" := by
  rw [decryptMessage, openSigned_sealing sender]
  rfl

def honestDict : Json := strangerPayload [("envelope_kind", .str "dm"), ("recipient_slug", .str "agent")]

def honest : MessagePayload where
  envelopeId := "env-1"
  envelopeKind := "dm"
  senderSlug := "mallory"
  sentAt := 5
  contentType := "text/plain"
  content := .str "hi"
  isVisibleToHuman := true
  recipientSlug := some "agent"

theorem accepted_route_bound_honest :
    ∃ route, outerRoute strangerEnvelope = .ok route ∧
      (Decides honest (honest.routed route) ↔ Names honestDict route) :=
  accepted_route_bound_iff (sealing honestDict) strangerEnvelope honestDict "dev-1" [] honest
    (openSigned_sealing rfl) (by rw [decryptMessage_sealing rfl]; rfl)

def disguisedDict : Json :=
  strangerPayload [("envelope_kind", .str "channel"), ("space_id", .str "sp-1"), ("channel_id", .str "ch-1")]

def disguised : MessagePayload where
  envelopeId := "env-1"
  envelopeKind := "channel"
  senderSlug := "mallory"
  sentAt := 5
  contentType := "text/plain"
  content := .str "hi"
  isVisibleToHuman := true
  spaceId := some "sp-1"
  channelId := some "ch-1"

/-- A direct message sealed as a channel message passes the gate that would have held it. -/
theorem dm_disguised_as_channel :
    decryptMessage (sealing disguisedDict) strangerEnvelope "dev-1" [] = .ok disguised ∧
      outerRoute strangerEnvelope = .ok (.dm "agent") ∧
      foreignDmGate (plainClient "op" true) disguised = none ∧
      foreignDmGate (plainClient "op" true) (disguised.routed (.dm "agent")) =
        some (foreignDmVerdict "foreign dm awaiting approval") ∧
      ¬ Decides disguised (disguised.routed (.dm "agent")) := by
  refine ⟨?_, rfl, rfl, rfl, fun h => ?_⟩
  · rw [decryptMessage_sealing rfl]
    rfl
  · simpa [disguised, MessagePayload.routed, Route.kind] using h.route.1

end PuffoAgent.Ingress
