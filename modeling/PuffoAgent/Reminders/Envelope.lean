import PuffoAgent.Reminders.Wire
import PuffoAgent.Text.Canonical
import PuffoAgent.Text.Editing
import PuffoAgent.Crypto.Aead

/-! The encrypted envelope of a reminder: what is written is read back, in one spelling only,
and its size is known from the plaintext. -/
namespace PuffoAgent.Reminders
open Relational Stmt Sql Store Text Crypto

section Bytes

def utf8 (text : String) : List UInt8 := text.toUTF8.data.toList

/-- `bytes.decode("utf-8")`. -/
def ofUtf8 (bytes : List UInt8) : Except SyncError String :=
  match String.fromUTF8? ⟨bytes.toArray⟩ with
  | some text => .ok text
  | none => .error invalidEnvelope

/-- `json.loads(bytes.decode("utf-8"))`. -/
def loadsUtf8 (bytes : List UInt8) : Except SyncError Json := do
  let text ← ofUtf8 bytes
  match Json.loads text with
  | some value => return value
  | none => .error invalidEnvelope

/-- `_canonical_json`. -/
def canonicalJson (value : Json) : List UInt8 := utf8 value.dumpsSorted

/-- `_base64url_encode`. -/
def base64urlEncode (bytes : List UInt8) : String :=
  String.ofList ((urlsafeB64encode bytes).rdropWhile (· = '='))

end Bytes

/-- What an envelope is bound to. -/
structure Identity where
  ownerSlug : String
  reminderId : String
  occurrenceId : String
  intendedAtMs : Int

section Envelope
variable (host : Host) (aead : Aead)

/-- `_envelope_aad`. -/
def envelopeAad (id : Identity) : Except SyncError (List UInt8) :=
  match host.rfc3339 id.intendedAtMs with
  | none => .error invalidMetadata
  | some intendedAt => do
    let occurrenceId ← validateId (some (.str id.occurrenceId))
    let ownerSlug ← validateId (some (.str id.ownerSlug))
    let reminderId ← validateId (some (.str id.reminderId))
    return canonicalJson (.obj [("envelope_version", .int 1), ("intended_at", .str intendedAt),
      ("occurrence_id", .str occurrenceId), ("owner_slug", .str ownerSlug), ("reminder_id", .str reminderId)])

def payloadJson (target content : String) : Json := .obj [("content", .str content), ("target", .str target)]

def envelopeJson (ciphertext nonce : String) : Json := .obj [("algorithm", .str "chacha20-poly1305"),
  ("ciphertext", .str ciphertext), ("nonce", .str nonce), ("version", .int 1)]

/-- `parse_reminder_target` in a place where its error becomes another one. -/
def checkTarget (target : String) (e : SyncError) : Except SyncError Unit :=
  match parseInboxTarget target with
  | .ok _ => .ok ()
  | .error _ => .error e

def encryptReminderPayload (dek : List UInt8) (id : Identity) (target content : String) (nonce : Vector UInt8 12) :
    Except SyncError (List UInt8) := do
  demand (dek.length = 32) (.envelope "invalid reminder encryption key")
  demand (target ≠ "" ∧ content ≠ "") (.envelope "invalid reminder plaintext")
  checkTarget target (.envelope "invalid reminder plaintext")
  let aad ← envelopeAad host id
  let ciphertext := aead.encrypt dek nonce.toList (canonicalJson (payloadJson target content)) aad
  let envelope := canonicalJson (envelopeJson (base64urlEncode ciphertext) (base64urlEncode nonce.toList))
  demand (envelope.length ≤ maxReminderEnvelopeBytes) (.envelope "reminder envelope exceeds v1 limit")
  return envelope

/-- `decoded["version"]` is 1 and no bool; of the floats only the text `1.0` is written again as
it was read. -/
def isVersionOne : Option Json → Bool
  | some (.int n) => n = 1
  | some (.float f) => f.text = "1.0"
  | _ => false

/-- The nonce and the ciphertext of an envelope. -/
def readEnvelope (envelope : List UInt8) : Except SyncError (List UInt8 × List UInt8) := do
  demand (1 ≤ envelope.length ∧ envelope.length ≤ maxReminderEnvelopeBytes) invalidEnvelope
  let decoded ← loadsUtf8 envelope
  demand (hasKeys ["algorithm", "ciphertext", "nonce", "version"] decoded = true) invalidEnvelope
  demand (isVersionOne (decoded.member "version") = true) invalidEnvelope
  demand (asText (decoded.member "algorithm") = some "chacha20-poly1305") invalidEnvelope
  demand (envelope = canonicalJson decoded) invalidEnvelope
  let nonce ← base64urlDecode (decoded.member "nonce")
  let ciphertext ← base64urlDecode (decoded.member "ciphertext")
  demand (nonce.length = 12 ∧ 16 ≤ ciphertext.length) invalidEnvelope
  return (nonce, ciphertext)

/-- The target and the content of a plaintext. -/
def readPayload (plaintext : List UInt8) : Except SyncError (String × String) := do
  let payload ← loadsUtf8 plaintext
  demand (hasKeys ["content", "target"] payload = true) invalidEnvelope
  match asText (payload.member "target"), asText (payload.member "content") with
  | some target, some content => do
    demand (target ≠ "" ∧ content ≠ "") invalidEnvelope
    demand (plaintext = canonicalJson payload) invalidEnvelope
    checkTarget target invalidEnvelope
    return (target, content)
  | _, _ => .error invalidEnvelope

def openReminderPayload (dek : List UInt8) (id : Identity) (envelope : List UInt8) :
    Except SyncError (String × String) := do
  demand (dek.length = 32) invalidEnvelope
  let (nonce, ciphertext) ← readEnvelope envelope
  let aad ← envelopeAad host id
  match aead.decrypt dek nonce ciphertext aad with
  | some plaintext => readPayload plaintext
  | none => .error invalidEnvelope

/-- Every failure is the same one. -/
def decryptReminderPayload (dek : List UInt8) (id : Identity) (envelope : List UInt8) :
    Except SyncError (String × String) :=
  (openReminderPayload host aead dek id envelope).mapError fun _ => invalidEnvelope

end Envelope

section Spelling

theorem ofUtf8_ok_iff {bytes : List UInt8} {text : String} : ofUtf8 bytes = .ok text ↔ bytes = utf8 text := by
  unfold ofUtf8 utf8
  constructor
  · intro h
    split at h
    · rename_i text' ht
      cases h
      unfold String.fromUTF8? at ht
      split at ht
      · cases ht
        rfl
      · cases ht
    · cases h
  · rintro rfl
    rw [show String.fromUTF8? ⟨text.toUTF8.data.toList.toArray⟩ = some text from dif_pos text.isValidUTF8]

theorem loadsUtf8_ok_iff {bytes : List UInt8} {value : Json} :
    loadsUtf8 bytes = .ok value ↔ ∃ text, bytes = utf8 text ∧ Json.loads text = some value := by
  unfold loadsUtf8
  rw [except_bind_ok_iff]
  refine exists_congr fun text => and_congr ofUtf8_ok_iff ?_
  cases Json.loads text with
  | none => exact iff_of_false nofun nofun
  | some v =>
    change Except.ok v = Except.ok value ↔ _
    simp

theorem loadsUtf8_canonicalJson (value : Json) : loadsUtf8 (canonicalJson value) = .ok value.sortKeys :=
  loadsUtf8_ok_iff.mpr ⟨_, rfl, Json.loads_dumpsSorted value⟩

theorem checkTarget_ok_iff {target : String} {e : SyncError} :
    checkTarget target e = .ok () ↔ ∃ parsed, parseInboxTarget target = .ok parsed := by
  unfold checkTarget
  cases parseInboxTarget target <;> simp

theorem sortKeys_payloadJson (target content : String) :
    (payloadJson target content).sortKeys = payloadJson target content := by
  rw [payloadJson, Json.sortKeys, Json.sortMembers_of_sorted]
  · exact List.pairwise_pair.mpr (show "content" < "target" by decide)
  · simp [Json.sortKeys]

theorem canonicalJson_payloadJson (target content : String) :
    canonicalJson (payloadJson target content) = utf8 (reminderPlaintext target content) := by
  rw [canonicalJson, Json.dumpsSorted, sortKeys_payloadJson]
  rfl

theorem sortKeys_envelopeJson (ciphertext nonce : String) :
    (envelopeJson ciphertext nonce).sortKeys = envelopeJson ciphertext nonce := by
  rw [envelopeJson, Json.sortKeys, Json.sortMembers_of_sorted]
  · simp only [Entries.Sorted, List.pairwise_cons, List.forall_mem_cons]
    decide
  · simp [Json.sortKeys]

theorem member_of_notMem {members : List (String × Json)} {key : String} (h : key ∉ members.map (·.1)) :
    (Json.obj members).member key = none := by
  rw [Json.member, Option.map_eq_none_iff, List.find?_eq_none]
  intro m hm he
  rw [decide_eq_true_eq] at he
  exact h (List.mem_map.mpr ⟨m, List.mem_reverse.mp hm, he⟩)

theorem asText_some {value : Option Json} {text : String} (h : asText value = some text) : value = some (.str text) := by
  unfold asText at h
  split at h
  · rw [Option.some.inj h]
  · cases h

/-- A value with the members of a payload is that payload, whatever the order. -/
theorem sortKeys_of_members {payload : Json} (hk : hasKeys ["content", "target"] payload = true)
    {target content : String} (ht : asText (payload.member "target") = some target)
    (hc : asText (payload.member "content") = some content) :
    payload.sortKeys = (payloadJson target content).sortKeys := by
  cases payload with
  | obj members =>
    rw [hasKeys, decide_eq_true_eq] at hk
    refine Json.sortKeys_obj_congr fun key => ?_
    by_cases hct : key = "content"
    · rw [hct, asText_some hc]
      rfl
    · by_cases htt : key = "target"
      · rw [htt, asText_some ht]
        rfl
      · rw [member_of_notMem fun hm => ?_, member_of_notMem (by simp [hct, htt])]
        have hkey := List.all_eq_true.mp hk.1 key hm
        simp [hct, htt] at hkey
  | _ => cases hk

/-- The plaintexts that are accepted are the canonical ones of valid payloads. -/
theorem readPayload_ok_iff {plaintext : List UInt8} {target content : String} :
    readPayload plaintext = .ok (target, content) ↔ plaintext = utf8 (reminderPlaintext target content) ∧
      target ≠ "" ∧ content ≠ "" ∧ ∃ parsed, parseInboxTarget target = .ok parsed := by
  constructor
  · intro h
    obtain ⟨payload, -, h⟩ := except_bind_ok_iff.mp h
    obtain ⟨hk, h⟩ := demand_bind_ok_iff.mp h
    split at h
    · rename_i target' content' ht hc
      obtain ⟨hne, h⟩ := demand_bind_ok_iff.mp h
      obtain ⟨hcanon, h⟩ := demand_bind_ok_iff.mp h
      obtain ⟨_, hparse, h⟩ := except_bind_ok_iff.mp h
      cases h
      rw [canonicalJson, Json.dumpsSorted, sortKeys_of_members hk ht hc] at hcanon
      exact ⟨hcanon.trans (canonicalJson_payloadJson target content), hne.1, hne.2, checkTarget_ok_iff.mp hparse⟩
    · cases h
  · rintro ⟨rfl, ht, hc, hparse⟩
    have hload := loadsUtf8_canonicalJson (payloadJson target content)
    rw [sortKeys_payloadJson, canonicalJson_payloadJson] at hload
    refine except_bind_ok_iff.mpr ⟨_, hload, demand_bind_ok_iff.mpr ⟨by simp [hasKeys, payloadJson], ?_⟩⟩
    change (do
      demand (target ≠ "" ∧ content ≠ "") invalidEnvelope
      demand (utf8 (reminderPlaintext target content) = canonicalJson (payloadJson target content)) invalidEnvelope
      checkTarget target invalidEnvelope
      return (target, content)) = Except.ok (target, content)
    exact demand_bind_ok_iff.mpr ⟨⟨ht, hc⟩, demand_bind_ok_iff.mpr ⟨(canonicalJson_payloadJson _ _).symm,
      except_bind_ok_iff.mpr ⟨(), checkTarget_ok_iff.mpr hparse, rfl⟩⟩⟩

end Spelling

section Base64

theorem encode_digits (bytes : List UInt8) : ∃ digits : List Char,
    base64urlEncode bytes = String.ofList digits ∧ digits.length = encodedBytes bytes.length ∧
    (∀ c ∈ digits, c.toNat < 128 ∧ isIdChar c = true) := by
  obtain ⟨digits, hdigits, hlength, he⟩ := encode_split bytes
  refine ⟨digits, ?_, hlength, fun c hc => ⟨(hdigits c hc).2.1, decide_eq_true ?_⟩⟩
  · rw [base64urlEncode, he, rstrip_pads fun c hc => (hdigits c hc).1]
  · rcases (hdigits c hc).2.2 with h | h | h
    · exact .inl h
    · exact .inr (.inr h)
    · exact .inr (.inl h)

theorem encodedBytes_pos {n : Nat} (h : 0 < n) : 0 < encodedBytes n := by
  unfold encodedBytes
  omega

/-- What `_base64url_encode` wrote is decoded again. -/
theorem base64urlDecode_encode {bytes : List UInt8} (h : 0 < bytes.length) :
    base64urlDecode (some (.str (base64urlEncode bytes))) = .ok bytes := by
  obtain ⟨digits, htext, hlength, hdigits⟩ := encode_digits bytes
  have hne : base64urlEncode bytes ≠ "" := by
    rw [htext]
    intro hnil
    have hlen := congrArg String.length hnil
    have hpos := encodedBytes_pos h
    rw [String.length_ofList, hlength] at hlen
    simp only [String.length_empty] at hlen
    omega
  have hstrip : (urlsafeB64encode bytes).rdropWhile (· = '=') = digits := by
    have hinj := String.ofList_injective htext
    exact hinj
  unfold base64urlDecode
  dsimp only [asText]
  refine demand_bind_ok_iff.mpr ⟨⟨hne, ?_⟩, ?_⟩
  · rw [htext, String.toList_ofList]
    exact List.all_eq_true.mpr fun c hc => (hdigits c hc).2
  · rw [htext, String.toList_ofList, urlsafeB64decode_stripped bytes hstrip]
    exact demand_bind_ok_iff.mpr ⟨hstrip, rfl⟩

end Base64

section Sizes

theorem utf8ByteSize_ascii {cs : List Char} (h : ∀ c ∈ cs, c.toNat < 128) : (String.ofList cs).utf8ByteSize = cs.length := by
  induction cs with
  | nil => rfl
  | cons c cs ih =>
    obtain ⟨hc, hcs⟩ := List.forall_mem_cons.mp h
    have hone : c.utf8Size = 1 := Char.utf8Size_eq_one_iff.mpr (by
      rw [UInt32.le_iff_toNat_le]
      exact Nat.le_of_lt_succ hc)
    rw [String.ofList_cons, String.utf8ByteSize_append, String.utf8ByteSize_singleton, hone, ih hcs, List.length_cons,
      Nat.add_comm]

theorem escapeChar_idChar {c : Char} (h : isIdChar c = true) : Json.escapeChar c = c.toString := by
  have hne (d : Char) (hd : isIdChar d = false) : c ≠ d := fun he => by
    rw [he, hd] at h
    cases h
  have hlow : ¬ c.toNat < 0x20 := by
    intro hlt
    have hsmall : ∀ n < 0x20, isIdChar (Char.ofNat n) = false := by decide
    have hc := hsmall c.toNat hlt
    rw [Char.ofNat_toNat, h] at hc
    cases hc
  rw [Json.escapeChar, if_neg (hne _ rfl), if_neg (hne _ rfl), if_neg (hne _ rfl), if_neg (hne _ rfl),
    if_neg (hne _ rfl), if_neg (hne _ rfl), if_neg (hne _ rfl), if_neg hlow]

/-- A text of the alphabet is quoted as it is. -/
theorem quoteWith_digits {digits : List Char} (h : ∀ c ∈ digits, c.toNat < 128 ∧ isIdChar c = true) :
    (Json.quoteWith Json.escapeChar (String.ofList digits)).utf8ByteSize = digits.length + 2 := by
  have hquote : ("\"" : String).utf8ByteSize = 1 := by decide
  rw [Json.quoteWith, escapeWith_eq_self fun c hc => escapeChar_idChar (h c (by simpa using hc)).2,
    String.utf8ByteSize_append, String.utf8ByteSize_append, utf8ByteSize_ascii fun c hc => (h c hc).1, hquote]
  omega

/-- The size of an envelope, by the lengths of its two texts. -/
theorem size_envelopeJson {digits digits' nonce nonce' : List Char}
    (hd : ∀ c ∈ digits, c.toNat < 128 ∧ isIdChar c = true) (hd' : ∀ c ∈ digits', c.toNat < 128 ∧ isIdChar c = true)
    (hn : ∀ c ∈ nonce, c.toNat < 128 ∧ isIdChar c = true) (hn' : ∀ c ∈ nonce', c.toNat < 128 ∧ isIdChar c = true)
    (hl : digits.length = digits'.length) (hl' : nonce.length = nonce'.length) :
    (envelopeJson (String.ofList digits) (String.ofList nonce)).dumps.utf8ByteSize =
      (envelopeJson (String.ofList digits') (String.ofList nonce')).dumps.utf8ByteSize := by
  have h := quoteWith_digits hd
  have h' := quoteWith_digits hd'
  have hq := quoteWith_digits hn
  have hq' := quoteWith_digits hn'
  simp only [envelopeJson, Json.dumps, Json.dumpsWith, Json.dumpsMembers, String.intercalate_cons_cons,
    String.intercalate_singleton, String.utf8ByteSize_append, h, h', hq, hq', hl, hl']

theorem length_utf8 (text : String) : (utf8 text).length = text.utf8ByteSize := rfl

/-- The envelope over a nonce and a ciphertext. -/
def sealedEnvelope (ciphertext nonce : List UInt8) : List UInt8 :=
  canonicalJson (envelopeJson (base64urlEncode ciphertext) (base64urlEncode nonce))

theorem sealedEnvelope_eq (ciphertext nonce : List UInt8) : sealedEnvelope ciphertext nonce =
    utf8 (envelopeJson (base64urlEncode ciphertext) (base64urlEncode nonce)).dumps := by
  rw [sealedEnvelope, canonicalJson, Json.dumpsSorted, sortKeys_envelopeJson]

/-- The predicted size is the size, for a tag of 16 bytes. -/
theorem length_sealedEnvelope {ciphertext nonce : List UInt8} {target content : String} (hn : nonce.length = 12)
    (hc : ciphertext.length = (utf8 (reminderPlaintext target content)).length + 16) :
    (sealedEnvelope ciphertext nonce).length = reminderPlaintextEnvelopeSize target content := by
  obtain ⟨digits, htext, hlength, hdigits⟩ := encode_digits ciphertext
  obtain ⟨digits', htext', hlength', hdigits'⟩ := encode_digits nonce
  have hfill (n : Nat) : ∀ c ∈ List.replicate n 'A', c.toNat < 128 ∧ isIdChar c = true := fun c hc => by
    rw [List.eq_of_mem_replicate hc]
    decide
  rw [sealedEnvelope_eq, length_utf8, htext, htext', reminderPlaintextEnvelopeSize]
  refine size_envelopeJson hdigits (hfill _) hdigits' (hfill _) ?_ ?_
  · rw [hlength, hc, length_utf8, List.length_replicate]
  · rw [hlength', hn, List.length_replicate]
    rfl

end Sizes

section RoundTrip
variable {host : Host} {aead : Aead} {dek : List UInt8} {id : Identity} {target content : String}
  {nonce : Vector UInt8 12} {envelope : List UInt8}

/-- What the encoder accepts, and what it makes of it. -/
structure Encryptable (host : Host) (dek : List UInt8) (id : Identity) (target content : String) (aad : List UInt8) :
    Prop where
  key : dek.length = 32
  hasTarget : target ≠ ""
  hasContent : content ≠ ""
  parsed : ∃ parsed, parseInboxTarget target = .ok parsed
  bound : envelopeAad host id = .ok aad

theorem encrypt_ok_iff : encryptReminderPayload host aead dek id target content nonce = .ok envelope ↔
    ∃ aad, Encryptable host dek id target content aad ∧
      sealedEnvelope (aead.encrypt dek nonce.toList (utf8 (reminderPlaintext target content)) aad) nonce.toList = envelope ∧
      envelope.length ≤ maxReminderEnvelopeBytes := by
  unfold encryptReminderPayload
  simp only [demand_bind_ok_iff, canonicalJson_payloadJson]
  constructor
  · rintro ⟨hkey, ⟨ht, hc⟩, h⟩
    obtain ⟨_, hparse, h⟩ := except_bind_ok_iff.mp h
    obtain ⟨aad, haad, h⟩ := except_bind_ok_iff.mp h
    obtain ⟨hsize, h⟩ := demand_bind_ok_iff.mp h
    cases h
    exact ⟨aad, ⟨hkey, ht, hc, checkTarget_ok_iff.mp hparse, haad⟩, rfl, hsize⟩
  · rintro ⟨aad, h, rfl, hsize⟩
    exact ⟨h.key, ⟨h.hasTarget, h.hasContent⟩, except_bind_ok_iff.mpr ⟨(), checkTarget_ok_iff.mpr h.parsed,
      except_bind_ok_iff.mpr ⟨aad, h.bound, demand_bind_ok_iff.mpr ⟨hsize, rfl⟩⟩⟩⟩

theorem readEnvelope_sealed {ciphertext nonce : List UInt8} (hn : nonce.length = 12) (hc : 16 ≤ ciphertext.length)
    (hsize : (sealedEnvelope ciphertext nonce).length ≤ maxReminderEnvelopeBytes) :
    readEnvelope (sealedEnvelope ciphertext nonce) = .ok (nonce, ciphertext) := by
  have hload : loadsUtf8 (sealedEnvelope ciphertext nonce) =
      .ok (envelopeJson (base64urlEncode ciphertext) (base64urlEncode nonce)) := by
    rw [sealedEnvelope, loadsUtf8_canonicalJson, sortKeys_envelopeJson]
  have hpos : 1 ≤ (sealedEnvelope ciphertext nonce).length := by
    rw [Nat.one_le_iff_ne_zero]
    intro hzero
    rw [List.length_eq_zero_iff.mp hzero] at hload
    cases hload
  refine demand_bind_ok_iff.mpr ⟨⟨hpos, hsize⟩, except_bind_ok_iff.mpr ⟨_, hload, ?_⟩⟩
  refine demand_bind_ok_iff.mpr ⟨by simp [hasKeys, envelopeJson], demand_bind_ok_iff.mpr ⟨rfl, ?_⟩⟩
  refine demand_bind_ok_iff.mpr ⟨rfl, demand_bind_ok_iff.mpr ⟨rfl, ?_⟩⟩
  refine except_bind_ok_iff.mpr ⟨nonce, base64urlDecode_encode (by omega), ?_⟩
  exact except_bind_ok_iff.mpr ⟨ciphertext, base64urlDecode_encode (by omega), demand_bind_ok_iff.mpr ⟨⟨hn, hc⟩, rfl⟩⟩

/-- An envelope is opened again. -/
theorem decrypt_encrypt (hs : aead.Sound)
    (h : encryptReminderPayload host aead dek id target content nonce = .ok envelope) :
    decryptReminderPayload host aead dek id envelope = .ok (target, content) ∧
      envelope.length = reminderPlaintextEnvelopeSize target content := by
  obtain ⟨aad, ha, rfl, hsize⟩ := encrypt_ok_iff.mp h
  have hn : nonce.toList.length = 12 := nonce.length_toList
  have htag := @hs.tagged dek nonce.toList (utf8 (reminderPlaintext target content)) aad ha.key hn
  have hread := readEnvelope_sealed hn (by omega) hsize
  have hopen : openReminderPayload host aead dek id
      (sealedEnvelope (aead.encrypt dek nonce.toList (utf8 (reminderPlaintext target content)) aad) nonce.toList) =
        .ok (target, content) := by
    refine demand_bind_ok_iff.mpr ⟨ha.key, except_bind_ok_iff.mpr ⟨_, hread, except_bind_ok_iff.mpr ⟨aad, ha.bound, ?_⟩⟩⟩
    rw [hs.opens ha.key hn]
    exact readPayload_ok_iff.mpr ⟨rfl, ha.hasTarget, ha.hasContent, ha.parsed⟩
  exact ⟨by rw [decryptReminderPayload, hopen]; rfl, length_sealedEnvelope hn htag⟩

/-- The local check on the size lets through what can be encrypted. -/
theorem encrypt_iff_size (hs : aead.Sound) {aad : List UInt8} (ha : Encryptable host dek id target content aad) :
    (∃ envelope, encryptReminderPayload host aead dek id target content nonce = .ok envelope) ↔
      reminderPlaintextEnvelopeSize target content ≤ maxReminderEnvelopeBytes := by
  have hn : nonce.toList.length = 12 := nonce.length_toList
  have hsize := length_sealedEnvelope hn (@hs.tagged dek nonce.toList (utf8 (reminderPlaintext target content)) aad ha.key hn)
  constructor
  · rintro ⟨envelope, h⟩
    obtain ⟨aad', ha', rfl, hle⟩ := encrypt_ok_iff.mp h
    cases ha.bound.symm.trans ha'.bound
    rwa [hsize] at hle
  · intro hle
    exact ⟨_, encrypt_ok_iff.mpr ⟨aad, ha, rfl, by rwa [hsize]⟩⟩

/-- Only the canonical text of a payload is ever decrypted to it. -/
theorem decrypt_canonical (h : decryptReminderPayload host aead dek id envelope = .ok (target, content)) :
    ∃ nonce ciphertext aad, readEnvelope envelope = .ok (nonce, ciphertext) ∧ envelopeAad host id = .ok aad ∧
      aead.decrypt dek nonce ciphertext aad = some (utf8 (reminderPlaintext target content)) := by
  rw [decryptReminderPayload] at h
  cases ho : openReminderPayload host aead dek id envelope with
  | error e =>
    rw [ho] at h
    cases h
  | ok payload =>
    rw [ho] at h
    cases h
    obtain ⟨-, ho⟩ := demand_bind_ok_iff.mp ho
    obtain ⟨⟨nonce, ciphertext⟩, hread, ho⟩ := except_bind_ok_iff.mp ho
    obtain ⟨aad, haad, ho⟩ := except_bind_ok_iff.mp ho
    split at ho
    · rename_i plaintext hplain
      rw [(readPayload_ok_iff.mp ho).1] at hplain
      exact ⟨nonce, ciphertext, aad, hread, haad, hplain⟩
    · cases ho

end RoundTrip

/-- An envelope that is written is read back and has the predicted size, a plaintext that is
accepted is the canonical one, and the local check on the size accepts what can be encrypted. -/
theorem reminder_payload_round_trip (host : Host) (aead : Aead) (hs : aead.Sound) (dek : List UInt8) (id : Identity)
    (target content : String) :
    (∀ nonce envelope, encryptReminderPayload host aead dek id target content nonce = .ok envelope →
      decryptReminderPayload host aead dek id envelope = .ok (target, content) ∧
        envelope.length = reminderPlaintextEnvelopeSize target content) ∧
    (∀ envelope, decryptReminderPayload host aead dek id envelope = .ok (target, content) →
      ∃ nonce ciphertext aad, readEnvelope envelope = .ok (nonce, ciphertext) ∧ envelopeAad host id = .ok aad ∧
        aead.decrypt dek nonce ciphertext aad = some (canonicalJson (payloadJson target content))) ∧
    (∀ nonce aad, Encryptable host dek id target content aad →
      ((∃ envelope, encryptReminderPayload host aead dek id target content nonce = .ok envelope) ↔
        reminderPlaintextEnvelopeSize target content ≤ maxReminderEnvelopeBytes)) := by
  refine ⟨fun nonce envelope h => decrypt_encrypt hs h, fun envelope h => ?_, fun nonce aad ha => encrypt_iff_size hs ha⟩
  rw [canonicalJson_payloadJson]
  exact decrypt_canonical h

/-- The identity of the example. -/
def waterId : Identity := ⟨"alice", "r1", "o1", 5⟩

def utcHost : Host := ⟨fun _ => some "1970-01-01T00:00:00.005Z", fun _ => true, fun _ => none⟩

/-- With the real cipher. -/
theorem water_reminder_round_trip : ∃ envelope,
    encryptReminderPayload utcHost chachaPoly (List.replicate 32 7) waterId "dm:bob" "water the plants"
      (Vector.replicate 12 1) = .ok envelope ∧
    decryptReminderPayload utcHost chachaPoly (List.replicate 32 7) waterId envelope =
      .ok ("dm:bob", "water the plants") ∧
    envelope.length = reminderPlaintextEnvelopeSize "dm:bob" "water the plants" := by
  obtain ⟨hround, -, hfits⟩ := reminder_payload_round_trip utcHost chachaPoly chachaPoly_sound
    (List.replicate 32 7) waterId "dm:bob" "water the plants"
  have haccepted : Encryptable utcHost (List.replicate 32 7) waterId "dm:bob" "water the plants" _ :=
    ⟨by decide, by decide, by decide, ⟨_, rfl⟩, rfl⟩
  obtain ⟨envelope, he⟩ := (hfits (Vector.replicate 12 1) _ haccepted).mpr (by decide +kernel)
  exact ⟨envelope, he, hround _ envelope he⟩

end PuffoAgent.Reminders
