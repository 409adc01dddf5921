import PuffoAgent.Text.Python

/-! Saving the attachments of an admitted message under the workspace. -/
namespace PuffoAgent.Ingress
open Text

structure AttachmentMeta where
  blobId : String
  filename : String
  mimeType : String
  size : Int
  key : String
  nonce : String

/-- What `normalize_saved_image` makes of a saved file. A file that is no image is kept. -/
inductive Normalized where
  | rejected | kept | compressed

/-- What the blob service, the file system and the image library answer while attachments
are saved. `plaintext` is the size of an attachment that was fetched, decrypted and
unwrapped, and `int` the number a declared size is read as. -/
structure AttachmentService where
  workspace : String
  int : Json → Option Int
  plaintext : AttachmentMeta → Option Nat
  writes : String → Bool
  normalized : AttachmentMeta → String → Normalized

/-- `MAX_INBOUND_ATTACHMENTS`. -/
def maxInboundAttachments : Nat := 10

/-- `MAX_INBOUND_ATTACHMENT_BYTES`. -/
def maxInboundAttachmentBytes : Int := 8 * 1024 * 1024

/-- `MAX_INBOUND_ATTACHMENT_TOTAL_BYTES`. -/
def maxInboundAttachmentTotalBytes : Int := 32 * 1024 * 1024

section Paths

/-- The components of a path below its root. -/
def components (path : String) : List String := (split path '/').filter fun part => part ≠ "" ∧ part ≠ "."

/-- The parts of `str(Path(path))`. Two leading slashes are a root of their own. -/
def pathParts (path : String) : List String :=
  (if startsWith path "//" ∧ ¬ startsWith path "///" then ["", ""] else if startsWith path "/" then [""] else []) ++
    components path

/-- `Path(path).name`. -/
def pathName (path : String) : String := (components path).getLast?.getD ""

/-- `str(Path(directory) / name / ...)`. -/
def pathJoin (directory : String) (names : List String) : String :=
  "/".intercalate (pathParts directory ++ names)

/-- `(stem, suffix)` of a file name. -/
def stemAndSuffix (name : String) : String × String :=
  let extension := name.toList.reverse.takeWhile (· ≠ '.')
  let rest := name.toList.reverse.dropWhile (· ≠ '.')
  if 2 ≤ rest.length ∧ extension ≠ [] then
    (String.ofList rest.tail.reverse, String.ofList ('.' :: extension.reverse))
  else (name, "")

/-- `is_safe_path_component`. -/
def isSafePathComponent (value : String) : Bool :=
  value ≠ "" ∧ value ≠ "." ∧ value ≠ ".." ∧ '/' ∉ value.toList ∧ '\\' ∉ value.toList ∧
    '\x00' ∉ value.toList ∧ pathName value = value

end Paths

section Save
variable (host : Host) (service : AttachmentService)

/-- `AttachmentMeta.from_dict` of a dict; `none` where it raises. -/
def attachmentMeta? (raw : Json) : Option AttachmentMeta :=
  match raw with
  | .obj _ => do
    let blobId ← raw.member "blob_id"
    let filename ← raw.member "filename"
    let mimeType ← raw.member "mime_type"
    let size ← (raw.member "size").bind service.int
    let key ← raw.member "key"
    let nonce ← raw.member "nonce"
    return ⟨host.str blobId, host.str filename, host.str mimeType, size, host.str key, host.str nonce⟩
  | _ => none

/-- The name of the file an attachment is written to. -/
def savedName (attachment : AttachmentMeta) : String :=
  if pathName attachment.filename ≠ "" then pathName attachment.filename
  else if pathName attachment.blobId ≠ "" then pathName attachment.blobId
  else "attachment"

/-- The path of a file in the inbox directory of a message. -/
def inboxPath (envelopeId name : String) : String :=
  pathJoin service.workspace [".puffo", "inbox", envelopeId, name]

/-- `_save_one_attachment`: the path and the size of the file. -/
def saveOneAttachment (envelopeId : String) (raw : Json) (remainingBytes : Int) : Option (String × Nat) := do
  let attachment ← attachmentMeta? host service raw
  if attachment.size < 0 ∨ maxInboundAttachmentBytes < attachment.size ∨ remainingBytes < attachment.size then none
  else
    let plaintextSize ← service.plaintext attachment
    if maxInboundAttachmentBytes < plaintextSize ∨ remainingBytes < plaintextSize then none
    else
      let name := savedName attachment
      let target := inboxPath service envelopeId name
      if service.writes target then
        match service.normalized attachment target with
        | .rejected => none
        | .kept => some (target, plaintextSize)
        | .compressed =>
          some (inboxPath service envelopeId
            ((stemAndSuffix name).1 ++ ".compressed" ++ (stemAndSuffix name).2), plaintextSize)
      else none

/-- The loop of `save_inbound_attachments`. -/
def saveEach (envelopeId : String) : Int → List Json → List String
  | _, [] => []
  | remainingBytes, raw :: metas =>
    match saveOneAttachment host service envelopeId raw remainingBytes with
    | some (path, size) => path :: saveEach envelopeId (remainingBytes - size) metas
    | none => saveEach envelopeId remainingBytes metas

/-- `save_inbound_attachments`. -/
def saveInboundAttachments (envelopeId : String) (metas : List Json) : List String :=
  if service.workspace = "" ∨ metas = [] ∨ ¬ isSafePathComponent envelopeId then []
  else saveEach host service envelopeId maxInboundAttachmentTotalBytes (metas.take maxInboundAttachments)

variable {host service} {envelopeId : String} {raw : Json} {remainingBytes : Int} {path : String} {size : Nat}

/-- What fits in the bytes that are left fits in more. -/
theorem saveOneAttachment_mono {moreBytes : Int} (h : remainingBytes ≤ moreBytes)
    (hs : saveOneAttachment host service envelopeId raw remainingBytes = some (path, size)) :
    saveOneAttachment host service envelopeId raw moreBytes = some (path, size) := by
  unfold saveOneAttachment at hs ⊢
  simp only [bind, Option.bind_eq_some_iff] at hs ⊢
  obtain ⟨attachment, ha, hs⟩ := hs
  refine ⟨attachment, ha, ?_⟩
  split at hs
  · cases hs
  rename_i hsize
  rw [if_neg (by omega)]
  rw [Option.bind_eq_some_iff] at hs ⊢
  obtain ⟨plaintextSize, hp, hs⟩ := hs
  refine ⟨plaintextSize, hp, ?_⟩
  split at hs
  · cases hs
  rename_i hplain
  rw [if_neg (by omega)]
  exact hs

theorem mem_saveEach {metas : List Json} {moreBytes : Int} (h : remainingBytes ≤ moreBytes)
    (hp : path ∈ saveEach host service envelopeId remainingBytes metas) :
    ∃ raw size, saveOneAttachment host service envelopeId raw moreBytes = some (path, size) := by
  induction metas generalizing remainingBytes with
  | nil => cases hp
  | cons raw metas ih =>
    rw [saveEach] at hp
    split at hp
    · rename_i first size hs
      rcases List.mem_cons.1 hp with rfl | hp
      · exact ⟨raw, size, saveOneAttachment_mono h hs⟩
      · exact ih (by omega) hp
    · exact ih h hp

/-- Every saved file is one that would be saved were it the only attachment. -/
theorem mem_saveInboundAttachments {metas : List Json}
    (hp : path ∈ saveInboundAttachments host service envelopeId metas) :
    service.workspace ≠ "" ∧ isSafePathComponent envelopeId = true ∧
      ∃ raw size, saveOneAttachment host service envelopeId raw maxInboundAttachmentTotalBytes = some (path, size) := by
  unfold saveInboundAttachments at hp
  split at hp
  · cases hp
  · rename_i h
    rw [not_or, not_or, Classical.not_not] at h
    exact ⟨h.1, h.2.2, mem_saveEach (Int.le_refl _) hp⟩

theorem saveInboundAttachments_singleton (hw : service.workspace ≠ "") (hid : isSafePathComponent envelopeId = true)
    (hs : saveOneAttachment host service envelopeId raw maxInboundAttachmentTotalBytes = some (path, size)) :
    saveInboundAttachments host service envelopeId [raw] = [path] := by
  have hno : ¬ (service.workspace = "" ∨ [raw] = [] ∨ ¬ isSafePathComponent envelopeId = true) := by simp [hw, hid]
  rw [saveInboundAttachments, if_neg hno]
  simp [maxInboundAttachments, saveEach, hs]

end Save
end PuffoAgent.Ingress
