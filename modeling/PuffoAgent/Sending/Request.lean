import PuffoAgent.Text.Json

/-! The model-facing send request and the two digests that identify a draft. -/
namespace PuffoAgent.Sending
open Text

/-- `hashlib.sha256`: the raw digest and its 64 hexadecimal digits. -/
structure Sha256 where
  digest : List UInt8 → List UInt8
  hexdigest : List UInt8 → {s : String // s.length = 64}

/-- Two inputs with one digest. -/
def Sha256.Collision (sha : Sha256) : Prop := ∃ x y, x ≠ y ∧ sha.hexdigest x = sha.hexdigest y

/-- `str.encode("utf-8")`. -/
def encode (s : String) : List UInt8 := s.toUTF8.data.toList

theorem encode_injective : Function.Injective encode := by
  intro s t h
  exact String.toByteArray_inj.mp (ByteArray.ext (Array.toList_inj.mp h))

/-- `SemanticSendRequest`, without the flag that is derived from a target. -/
structure SemanticSendRequest where
  destination : String
  text : String := ""
  attachmentPaths : List String := []
  caption : String := ""
  rootId : String := ""
  visibilityLevel : String := "default"
  sendAnyway : Bool := false
  covers : List String := []
  deriving DecidableEq, Repr

namespace SemanticSendRequest

/-- `to_tool_arguments` without `send_anyway`, in the order of `sort_keys`. -/
def toolArguments (request : SemanticSendRequest) : Json :=
  .obj ((if request.attachmentPaths = [] then [] else [("caption", .str request.caption)]) ++
    [("channel", .str request.destination)] ++
    (if request.covers = [] then [] else [("covers", .arr (request.covers.map .str))]) ++
    (if request.attachmentPaths = [] then []
      else [("paths", .arr (request.attachmentPaths.map .str))]) ++
    (if request.rootId = "" then [] else [("root_id", .str request.rootId)]) ++
    (if request.attachmentPaths = [] then [("text", .str request.text)] else []) ++
    (if request.visibilityLevel = "default" then []
      else [("visibility_level", .str request.visibilityLevel)]))

def attemptFingerprint (sha : Sha256) (request : SemanticSendRequest) : String :=
  sha.hexdigest (encode request.toolArguments.dumpsAscii)

/-- The text of the arguments tells a draft with attachments from one without. -/
theorem dumpsAscii_toolArguments (request : SemanticSendRequest) :
    request.toolArguments.dumpsAscii.toList[3]? =
      some (if request.attachmentPaths = [] then 'h' else 'a') := by
  have hc : Json.quoteWith Json.escapeAscii "channel" = "\"channel\"" := by decide
  have ha : Json.quoteWith Json.escapeAscii "caption" = "\"caption\"" := by decide
  unfold toolArguments Json.dumpsAscii
  split_ifs <;> simp [Json.dumpsWith, Json.dumpsMembers, String.toList_intercalate, hc, ha]

/-- Drafts with one fingerprint both have attachments or both have none, up to a collision. -/
theorem attachmentPaths_of_fingerprint {sha : Sha256} {p q : SemanticSendRequest}
    (h : p.attemptFingerprint sha = q.attemptFingerprint sha) :
    (p.attachmentPaths = [] ↔ q.attachmentPaths = []) ∨ sha.Collision := by
  by_cases ht : p.toolArguments.dumpsAscii = q.toolArguments.dumpsAscii
  · left
    have hp := dumpsAscii_toolArguments p
    rw [ht, dumpsAscii_toolArguments q] at hp
    by_cases hp' : p.attachmentPaths = [] <;> by_cases hq' : q.attachmentPaths = [] <;>
      simp_all
  · exact .inr ⟨_, _, encode_injective.ne ht, Subtype.ext h⟩

end SemanticSendRequest

/-- The attachments of one attempt, each read once: filename and bytes. -/
abbrev Materialized := List (String × List UInt8)

/-- `_content_digest`. -/
def contentDigest (sha : Sha256) (materialized : Materialized) : String :=
  if materialized = [] then ""
  else sha.hexdigest (materialized.flatMap fun (name, payload) =>
    encode name ++ [0] ++ sha.digest payload)

theorem contentDigest_eq_empty {sha : Sha256} {materialized : Materialized} :
    contentDigest sha materialized = "" ↔ materialized = [] := by
  constructor
  · intro h
    by_contra hne
    rw [contentDigest, if_neg hne] at h
    have hl := (sha.hexdigest (materialized.flatMap fun (name, payload) =>
      encode name ++ [0] ++ sha.digest payload)).property
    rw [h] at hl
    cases hl
  · rintro rfl
    rfl

end PuffoAgent.Sending
