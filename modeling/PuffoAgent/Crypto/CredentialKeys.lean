import PuffoAgent.Text.ByteCodes
import PuffoAgent.Text.Editing
import Mathlib.Algebra.Group.Int.Defs

/-! The additional data under which a credential is wrapped: it names one credential, version, type,
recipient and key, so that a wrap opens as nothing else. -/
namespace PuffoAgent.Crypto
open Text Text.Codes

section Fields

def credentialWrapAadLabel : List UInt8 := encodeUtf8 "puffo/credential-wrap/v1".toList
def credentialHpkeInfo : List UInt8 := encodeUtf8 "puffo/credential-hpke/v1".toList

/-- `uuid.UUID(text)`, where `int16` is `int(text, 16)`. -/
def uuidOf (int16 : String → Option Int) (text : String) : Except String (Fin (2 ^ 128)) :=
  let hex := replace "uuid:".toList [] (replace "urn:".toList [] text.toList)
  let hex := replace ['-'] [] ((hex.dropWhile (· ∈ ['{', '}'])).rdropWhile (· ∈ ['{', '}']))
  if hex.length ≠ 32 then .error "badly formed hexadecimal UUID string"
  else
    match int16 (String.ofList hex) with
    | none => .error "invalid literal for int() with base 16"
    | some n =>
      if h : n.toNat < 2 ^ 128 ∧ 0 ≤ n then .ok ⟨n.toNat, h.1⟩
      else .error "int is out of range (need a 128-bit value)"

def i64Be (value : Int) : Except String (List UInt8) :=
  if value < 0 ∨ value > 2 ^ 63 - 1 then .error "value out of i64 range" else .ok (bigEndian 8 value.toNat)

def lenPrefixedUtf8 (value : String) : Except String (List UInt8) :=
  let raw := encodeUtf8 value.toList
  if raw = [] ∨ raw.length > 0xFFFF then .error "length-prefixed field must be 1..65535 bytes"
  else .ok (bigEndian 2 raw.length ++ raw)

structure WrapFields where
  credentialId : String
  version : Int
  recipientSlug : String
  credentialType : String
  keyVersion : Int

variable (int16 : String → Option Int)

def computeCredentialWrapAad (f : WrapFields) : Except String (List UInt8) := do
  let id ← uuidOf int16 f.credentialId
  let version ← i64Be f.version
  let recipientSlug ← lenPrefixedUtf8 f.recipientSlug
  let credentialType ← lenPrefixedUtf8 f.credentialType
  let keyVersion ← i64Be f.keyVersion
  return credentialWrapAadLabel ++ bigEndian 16 id ++ version ++ recipientSlug ++ credentialType ++ keyVersion

/-- The two name the same credential, version, recipient, type and key. -/
structure SameWrap (f g : WrapFields) : Prop where
  credentialId : uuidOf int16 f.credentialId = uuidOf int16 g.credentialId
  version : f.version = g.version
  recipientSlug : f.recipientSlug = g.recipientSlug
  credentialType : f.credentialType = g.credentialType
  keyVersion : f.keyVersion = g.keyVersion

end Fields

section Codes

/-- A text of 1 to 65535 bytes. -/
abbrev ShortText := { text : String // encodeUtf8 text.toList ≠ [] ∧ (encodeUtf8 text.toList).length ≤ 0xFFFF }

/-- What is accepted, with its bounds. -/
abbrev WrapCode := Fin (2 ^ 128) × Fin (2 ^ 63) × ShortText × ShortText × Fin (2 ^ 63)

def wrapCode (w : WrapCode) : List UInt8 :=
  bigEndian 16 w.1 ++ (bigEndian 8 w.2.1 ++ (lead w.2.2.1 ++ (lead w.2.2.2.1 ++ bigEndian 8 w.2.2.2.2)))
where
  lead (text : ShortText) : List UInt8 := bigEndian 2 (encodeUtf8 text.1.toList).length ++ encodeUtf8 text.1.toList

theorem delimited_lead : Delimited (fun _ => True) wrapCode.lead := by
  have hsize : Delimited (fun _ => True) fun n : Fin 0x10000 => bigEndian 2 n := delimited_bigEndian (by decide)
  have hinj : Function.Injective fun text : ShortText => encodeUtf8 text.1.toList := fun s t h =>
    Subtype.ext (String.toList_inj.mp (encodeUtf8_injective h))
  exact Delimited.sized hsize hinj fun text => Nat.lt_succ_of_le text.2.2

/-- Equal bytes are the bytes of equal fields. -/
theorem wrapCode_injective : Function.Injective wrapCode := by
  have hid : Delimited (fun _ => True) fun n : Fin (2 ^ 128) => bigEndian 16 n := delimited_bigEndian (by decide)
  have hnumber : Delimited (fun _ => True) fun n : Fin (2 ^ 63) => bigEndian 8 n := delimited_bigEndian (by decide)
  exact (hid.pair (hnumber.pair (delimited_lead.pair (delimited_lead.pair hnumber)))).injective trivial

variable {int16 : String → Option Int} {f g : WrapFields} {w v : WrapCode} {bytes : List UInt8}

theorem i64Be_ok_iff {value : Int} : i64Be value = .ok bytes ↔ ∃ n : Fin (2 ^ 63), value = n ∧ bytes = bigEndian 8 n := by
  unfold i64Be
  constructor
  · intro h
    split at h
    · cases h
    · cases h
      exact ⟨⟨value.toNat, by omega⟩, by simp only; omega, rfl⟩
  · rintro ⟨n, rfl, rfl⟩
    have hn := n.isLt
    rw [if_neg (by omega), Int.toNat_natCast]

theorem lenPrefixedUtf8_ok_iff {value : String} : lenPrefixedUtf8 value = .ok bytes ↔
    ∃ text : ShortText, value = text.1 ∧ bytes = wrapCode.lead text := by
  unfold lenPrefixedUtf8
  dsimp only
  constructor
  · intro h
    split at h
    · cases h
    · rename_i hbounds
      cases h
      rw [not_or] at hbounds
      exact ⟨⟨value, hbounds.1, Nat.le_of_not_gt hbounds.2⟩, rfl, rfl⟩
  · rintro ⟨text, rfl, rfl⟩
    exact if_neg (not_or.mpr ⟨text.2.1, Nat.not_lt.mpr text.2.2⟩)

/-- The fields hold what is coded. -/
structure Reads (int16 : String → Option Int) (f : WrapFields) (w : WrapCode) : Prop where
  credentialId : uuidOf int16 f.credentialId = .ok w.1
  version : f.version = w.2.1
  recipientSlug : f.recipientSlug = w.2.2.1.1
  credentialType : f.credentialType = w.2.2.2.1.1
  keyVersion : f.keyVersion = w.2.2.2.2

theorem compute_ok_iff : computeCredentialWrapAad int16 f = .ok bytes ↔
    ∃ w, Reads int16 f w ∧ bytes = credentialWrapAadLabel ++ wrapCode w := by
  unfold computeCredentialWrapAad
  constructor
  · intro h
    obtain ⟨id, hid, h⟩ := except_bind_ok_iff.mp h
    obtain ⟨_, hfirst, h⟩ := except_bind_ok_iff.mp h
    obtain ⟨_, hsecond, h⟩ := except_bind_ok_iff.mp h
    obtain ⟨_, hthird, h⟩ := except_bind_ok_iff.mp h
    obtain ⟨_, hfourth, h⟩ := except_bind_ok_iff.mp h
    obtain ⟨version, hversion, rfl⟩ := i64Be_ok_iff.mp hfirst
    obtain ⟨slug, hslug, rfl⟩ := lenPrefixedUtf8_ok_iff.mp hsecond
    obtain ⟨credentialType, htype, rfl⟩ := lenPrefixedUtf8_ok_iff.mp hthird
    obtain ⟨key, hkey, rfl⟩ := i64Be_ok_iff.mp hfourth
    cases h
    refine ⟨(id, version, slug, credentialType, key), ⟨hid, hversion, hslug, htype, hkey⟩, ?_⟩
    simp only [wrapCode, List.append_assoc]
  · rintro ⟨w, h, rfl⟩
    refine except_bind_ok_iff.mpr ⟨_, h.credentialId, ?_⟩
    refine except_bind_ok_iff.mpr ⟨_, i64Be_ok_iff.mpr ⟨_, h.version, rfl⟩, ?_⟩
    refine except_bind_ok_iff.mpr ⟨_, lenPrefixedUtf8_ok_iff.mpr ⟨_, h.recipientSlug, rfl⟩, ?_⟩
    refine except_bind_ok_iff.mpr ⟨_, lenPrefixedUtf8_ok_iff.mpr ⟨_, h.credentialType, rfl⟩, ?_⟩
    refine except_bind_ok_iff.mpr ⟨_, i64Be_ok_iff.mpr ⟨_, h.keyVersion, rfl⟩, ?_⟩
    simp only [wrapCode, List.append_assoc]
    rfl

/-- The fields are the same when what they hold is. -/
theorem sameWrap_iff (hf : Reads int16 f w) (hg : Reads int16 g v) : SameWrap int16 f g ↔ w = v := by
  constructor
  · intro h
    refine Prod.ext ?_ (Prod.ext ?_ (Prod.ext ?_ (Prod.ext ?_ ?_)))
    · exact Except.ok.inj (hf.credentialId.symm.trans (h.credentialId.trans hg.credentialId))
    · exact Fin.ext (Int.ofNat.inj (hf.version.symm.trans (h.version.trans hg.version)))
    · exact Subtype.ext (hf.recipientSlug.symm.trans (h.recipientSlug.trans hg.recipientSlug))
    · exact Subtype.ext (hf.credentialType.symm.trans (h.credentialType.trans hg.credentialType))
    · exact Fin.ext (Int.ofNat.inj (hf.keyVersion.symm.trans (h.keyVersion.trans hg.keyVersion)))
  · rintro rfl
    exact ⟨hf.credentialId.trans hg.credentialId.symm, hf.version.trans hg.version.symm,
      hf.recipientSlug.trans hg.recipientSlug.symm, hf.credentialType.trans hg.credentialType.symm,
      hf.keyVersion.trans hg.keyVersion.symm⟩

end Codes

section Sealing

/-- Hybrid public key encryption in one message; the first argument of `seal` is its randomness. -/
structure Hpke where
  publicKey : (secret : List UInt8) → List UInt8
  sealTo : (ephemeral recipient info aad plaintext : List UInt8) → List UInt8 × List UInt8
  openWith : (secret enc info aad ciphertext : List UInt8) → Option (List UInt8)

/-- A ciphertext opens under the additional data that it was sealed under, and under no other. -/
structure Hpke.Sound (hpke : Hpke) : Prop where
  encapsulated : ∀ {ephemeral recipient info aad plaintext},
    (hpke.sealTo ephemeral recipient info aad plaintext).1.length = 32
  tagged : ∀ {ephemeral recipient info aad plaintext}, (hpke.sealTo ephemeral recipient info aad plaintext).2 ≠ []
  opens : ∀ {ephemeral secret info aad aad' plaintext},
    hpke.openWith secret (hpke.sealTo ephemeral (hpke.publicKey secret) info aad plaintext).1 info aad'
      (hpke.sealTo ephemeral (hpke.publicKey secret) info aad plaintext).2 = if aad' = aad then some plaintext else none

variable (hpke : Hpke)

def sealCredential (ephemeral recipientKemPublicKey aad plaintext : List UInt8) : List UInt8 :=
  let out := hpke.sealTo ephemeral recipientKemPublicKey credentialHpkeInfo aad plaintext
  out.1 ++ out.2

def openCredential (recipient aad blob : List UInt8) : Except String (List UInt8) :=
  if blob.length ≤ 32 then .error "wrap is too short to hold a key and a ciphertext"
  else
    match hpke.openWith recipient (blob.take 32) credentialHpkeInfo aad (blob.drop 32) with
    | some plaintext => .ok plaintext
    | none => .error "wrap does not open under this key and AAD"

theorem open_seal (hs : hpke.Sound) {ephemeral recipient aad aad' plaintext opened : List UInt8} :
    openCredential hpke recipient aad' (sealCredential hpke ephemeral (hpke.publicKey recipient) aad plaintext) = .ok opened ↔
      aad' = aad ∧ opened = plaintext := by
  unfold openCredential sealCredential
  have henc := @hs.encapsulated ephemeral (hpke.publicKey recipient) credentialHpkeInfo aad plaintext
  have htag := List.length_pos_iff.mpr (@hs.tagged ephemeral (hpke.publicKey recipient) credentialHpkeInfo aad plaintext)
  rw [if_neg (by rw [List.length_append]; omega), List.take_left' henc, List.drop_left' henc, hs.opens]
  by_cases h : aad' = aad
  · simp [h, eq_comm]
  · simp [h]

end Sealing

/-- Two accepted inputs have the same bytes only if they name the same credential, version, recipient, type and
key; and a wrap that was sealed for one opens for the other only then. -/
theorem credential_wrap_aad_injective (int16 : String → Option Int) (f g : WrapFields) (aad aad' : List UInt8)
    (hf : computeCredentialWrapAad int16 f = .ok aad) (hg : computeCredentialWrapAad int16 g = .ok aad') :
    (aad = aad' ↔ SameWrap int16 f g) ∧
      ∀ hpke : Hpke, hpke.Sound → ∀ ephemeral recipient plaintext opened,
        openCredential hpke recipient aad' (sealCredential hpke ephemeral (hpke.publicKey recipient) aad plaintext) = .ok opened ↔
          SameWrap int16 f g ∧ opened = plaintext := by
  obtain ⟨w, hw, rfl⟩ := compute_ok_iff.mp hf
  obtain ⟨v, hv, rfl⟩ := compute_ok_iff.mp hg
  have hsame : credentialWrapAadLabel ++ wrapCode w = credentialWrapAadLabel ++ wrapCode v ↔ SameWrap int16 f g := by
    rw [List.append_cancel_left_eq, wrapCode_injective.eq_iff, sameWrap_iff hw hv]
  refine ⟨hsame, fun hpke hs ephemeral recipient plaintext opened => ?_⟩
  rw [open_seal hpke hs, eq_comm, hsame]

section Example

/-- `int(text, 16)` of digits and small letters. -/
def hexInt (text : String) : Option Int :=
  text.toList.foldlM (fun n c => (digit c).map fun d => 16 * n + d) 0
where
  digit (c : Char) : Option Int := (("0123456789abcdef".toList.idxOf? c).map Int.ofNat)

/-- The additional data, led by its length. -/
def keptWith (aad : List UInt8) : List UInt8 := List.replicate aad.length 1 ++ 0 :: aad

theorem keptWith_inj {aad aad' r s : List UInt8} (h : keptWith aad ++ r = keptWith aad' ++ s) : aad = aad' ∧ r = s := by
  have hnot (n : Nat) : (0 : UInt8) ∉ List.replicate n (1 : UInt8) := fun h => absurd (List.eq_of_mem_replicate h) (by decide)
  simp only [keptWith, List.append_assoc, List.cons_append] at h
  obtain ⟨hlength, hrest⟩ := append_mark_inj (hnot _) (hnot _) h
  exact List.append_inj hrest (by simpa using congrArg List.length hlength)

/-- A ciphertext in the clear, with the additional data kept in it. -/
def clearHpke : Hpke where
  publicKey secret := secret
  sealTo _ _ _ aad plaintext := (List.replicate 32 0, keptWith aad ++ plaintext)
  openWith _ _ _ aad ciphertext :=
    if (keptWith aad).isPrefixOf ciphertext then some (ciphertext.drop (keptWith aad).length) else none

theorem clearHpke_sound : clearHpke.Sound where
  encapsulated := List.length_replicate
  tagged := by simp [clearHpke, keptWith]
  opens {_ _ _ aad aad' plaintext} := by
    by_cases h : aad' = aad
    · simp [clearHpke, h]
    · have hnot : ¬ (keptWith aad').isPrefixOf (keptWith aad ++ plaintext) = true := by
        rw [List.isPrefixOf_iff_prefix]
        rintro ⟨r, hr⟩
        exact h (keptWith_inj hr).1
      simp only [clearHpke]
      rw [if_neg hnot, if_neg h]

def firstWrap : WrapFields := ⟨"3b0fec1b-f7fa-5cc4-a18d-9d5ce8c401ce", 1, "agt-vector-0001", "CUSTOMIZED", 1⟩

def secondWrap : WrapFields := { firstWrap with version := 2 }

/-- The wrap of one version does not open as another one. -/
theorem wrap_versions_apart : ∃ aad aad', computeCredentialWrapAad hexInt firstWrap = .ok aad ∧
    computeCredentialWrapAad hexInt secondWrap = .ok aad' ∧ aad ≠ aad' ∧ ∀ ephemeral recipient plaintext opened,
      openCredential clearHpke recipient aad'
        (sealCredential clearHpke ephemeral (clearHpke.publicKey recipient) aad plaintext) ≠ .ok opened := by
  obtain ⟨hbytes, hopens⟩ := credential_wrap_aad_injective hexInt firstWrap secondWrap _ _ rfl rfl
  have hdiffer : ¬ SameWrap hexInt firstWrap secondWrap := fun h => absurd h.version (by decide)
  exact ⟨_, _, rfl, rfl, mt hbytes.mp hdiffer, fun ephemeral recipient plaintext opened h =>
    hdiffer ((hopens clearHpke clearHpke_sound ephemeral recipient plaintext opened).mp h).1⟩

end Example
end PuffoAgent.Crypto
