import PuffoAgent.Sending.Reconsideration
import PuffoAgent.Text.Canonical
import PuffoAgent.Text.Python

/-! The fingerprint of a draft, compared with the dictionary that carries the draft over the
boundary of the daemon. -/
namespace PuffoAgent.Sending
open Text

section Mappings

/-- `d.pop("send_anyway", None)`. -/
def withoutAnyway (members : List (String × Json)) : List (String × Json) := members.filter (·.1 ≠ "send_anyway")

/-- Two dictionaries say the same. -/
def SameDict (ms ns : List (String × Json)) : Prop := ∀ key, (Json.obj ms).member key = (Json.obj ns).member key

def textItems : List Json → Option (List String)
  | [] => some []
  | .str s :: items => (textItems items).map (s :: ·)
  | _ => none

/-- `value or ()`, as a list of texts. -/
def textList (value : Option Json) (message : String) : Except String (List String) :=
  match value with
  | none => .ok []
  | some v =>
    if ¬ v.truthy then .ok []
    else
      match v with
      | .arr items => (textItems items).elim (.error message) .ok
      | _ => .error message

/-- `str(value or default)`. -/
def textOr (host : Host) (value : Option Json) (default : String) : String :=
  match value with
  | none => default
  | some v => if v.truthy then host.str v else default

end Mappings

namespace SemanticSendRequest

def toToolArguments (request : SemanticSendRequest) : List (String × Json) :=
  [("channel", .str request.destination)] ++
    (if request.attachmentPaths = [] then [("text", .str request.text)]
      else [("caption", .str request.caption), ("paths", .arr (request.attachmentPaths.map .str))]) ++
    (if request.rootId = "" then [] else [("root_id", .str request.rootId)]) ++
    (if request.visibilityLevel = "default" then [] else [("visibility_level", .str request.visibilityLevel)]) ++
    (if request.sendAnyway then [("send_anyway", .bool true)] else []) ++
    (if request.covers = [] then [] else [("covers", .arr (request.covers.map .str))])

def toRpcDict (request : SemanticSendRequest) : List (String × Json) :=
  [("channel", .str request.destination), ("root_id", .str request.rootId),
    ("visibility_level", .str request.visibilityLevel), ("send_anyway", .bool request.sendAnyway)] ++
    (if request.covers = [] then [] else [("covers", .arr (request.covers.map .str))]) ++
    (if request.attachmentPaths = [] then [("text", .str request.text)]
      else [("paths", .arr (request.attachmentPaths.map .str)), ("caption", .str request.caption)])

def allowedFields : List String :=
  ["destination", "channel", "text", "attachment_paths", "paths", "caption", "root_id", "visibility_level",
    "send_anyway", "covers"]

def fromMapping (host : Host) (value : List (String × Json)) : Except String SemanticSendRequest :=
  let unknown := (value.map (·.1)).filter (· ∉ allowedFields)
  let member (key : String) := (Json.obj value).member key
  if unknown ≠ [] then
    .error ("unknown send field(s): " ++ ", ".intercalate (unknown.mergeSort fun a b => a ≤ b))
  else do
    let paths ← textList ((member "attachment_paths").or (member "paths")) "attachment paths must be a list of strings"
    let covers ← textList (member "covers") "covers must be a list of message-id strings"
    return {
      destination := textOr host ((member "destination").or (member "channel")) ""
      text := textOr host (member "text") ""
      attachmentPaths := paths
      caption := textOr host (member "caption") ""
      rootId := textOr host (member "root_id") ""
      visibilityLevel := textOr host (member "visibility_level") "default"
      sendAnyway := match member "send_anyway" with
        | some (.bool b) => b
        | _ => false
      covers := covers }

/-- The request that the daemon makes of a body which its route accepts. -/
def hostRequest (host : Host) (body : List (String × Json)) : SemanticSendRequest :=
  let member (key : String) := (Json.obj body).member key
  let texts (key : String) := (textList (member key) "").toOption.getD []
  { destination := textOr host (member "channel") ""
    text := textOr host (member "text") ""
    attachmentPaths := texts "paths"
    caption := textOr host (member "caption") ""
    rootId := textOr host (member "root_id") ""
    visibilityLevel := textOr host (member "visibility_level") "default"
    sendAnyway := match member "send_anyway" with
      | some (.bool b) => b
      | _ => false
    covers := texts "covers" }

/-- What the fingerprint is taken of. -/
def attemptBytes (request : SemanticSendRequest) : List UInt8 := encode request.toolArguments.dumpsAscii

/-- What one draft has in common with itself when it is sent again: the body that is not sent does not count. -/
structure SameDraft (a b : SemanticSendRequest) : Prop where
  destination : a.destination = b.destination
  attachmentPaths : a.attachmentPaths = b.attachmentPaths
  text : a.attachmentPaths = [] → a.text = b.text
  caption : a.attachmentPaths ≠ [] → a.caption = b.caption
  rootId : a.rootId = b.rootId
  visibilityLevel : a.visibilityLevel = b.visibilityLevel
  covers : a.covers = b.covers

variable {a b : SemanticSendRequest} {sha : Sha256} {host : Host}

theorem SameDraft.toolArguments (h : SameDraft a b) : a.toolArguments = b.toolArguments := by
  unfold SemanticSendRequest.toolArguments
  rw [h.destination, h.rootId, h.visibilityLevel, h.covers, ← h.attachmentPaths]
  by_cases hpaths : a.attachmentPaths = []
  · simp only [hpaths, if_true, h.text hpaths]
  · simp only [hpaths, if_false, h.caption hpaths]

theorem SameDraft.rpc (h : SameDraft a b) : withoutAnyway a.toRpcDict = withoutAnyway b.toRpcDict := by
  unfold toRpcDict withoutAnyway
  rw [h.destination, h.rootId, h.visibilityLevel, h.covers, ← h.attachmentPaths]
  by_cases hpaths : a.attachmentPaths = []
  · simp +decide only [hpaths, if_true, if_false, h.text hpaths, List.cons_append, List.nil_append, List.filter_cons]
  · simp +decide only [hpaths, if_false, h.caption hpaths, List.cons_append, List.nil_append, List.filter_cons]

/-- A list of texts, which is left out when it is empty. -/
def listed (texts : List String) : Option Json := if texts = [] then none else some (.arr (texts.map .str))

theorem listed_injective : Function.Injective listed := by
  intro xs ys h
  unfold listed at h
  by_cases hx : xs = [] <;> by_cases hy : ys = []
  · rw [hx, hy]
  · rw [if_pos hx, if_neg hy] at h
    cases h
  · rw [if_neg hx, if_pos hy] at h
    cases h
  · rw [if_neg hx, if_neg hy, Option.some.injEq, Json.arr.injEq] at h
    exact List.map_injective_iff.mpr (fun s t he => Json.str.inj he) h

/-- What a dictionary says of a draft, where `root` and `level` put the two texts that have a default. -/
structure Says (root level : String → Option Json) (member : String → Option Json) (a : SemanticSendRequest) : Prop where
  channel : member "channel" = some (.str a.destination)
  paths : member "paths" = listed a.attachmentPaths
  text : member "text" = if a.attachmentPaths = [] then some (.str a.text) else none
  caption : member "caption" = if a.attachmentPaths = [] then none else some (.str a.caption)
  rootId : member "root_id" = root a.rootId
  visibilityLevel : member "visibility_level" = level a.visibilityLevel
  covers : member "covers" = listed a.covers

/-- Dictionaries that say the same say it of one draft. -/
theorem Says.same {root level : String → Option Json} {m m' : String → Option Json} (hroot : Function.Injective root)
    (hlevel : Function.Injective level) (ha : Says root level m a) (hb : Says root level m' b)
    (h : ∀ key, m key = m' key) : SameDraft a b := by
  have hpaths : a.attachmentPaths = b.attachmentPaths :=
    listed_injective (ha.paths.symm.trans ((h _).trans hb.paths))
  have htext := ha.text.symm.trans ((h _).trans hb.text)
  have hcaption := ha.caption.symm.trans ((h _).trans hb.caption)
  rw [← hpaths] at htext hcaption
  refine ⟨?_, hpaths, fun he => ?_, fun he => ?_, ?_, ?_, ?_⟩
  · exact Json.str.inj (Option.some.inj (ha.channel.symm.trans ((h _).trans hb.channel)))
  · rw [if_pos he, if_pos he] at htext
    exact Json.str.inj (Option.some.inj htext)
  · rw [if_neg he, if_neg he] at hcaption
    exact Json.str.inj (Option.some.inj hcaption)
  · exact hroot (ha.rootId.symm.trans ((h _).trans hb.rootId))
  · exact hlevel (ha.visibilityLevel.symm.trans ((h _).trans hb.visibilityLevel))
  · exact listed_injective (ha.covers.symm.trans ((h _).trans hb.covers))

/-- A text that is left out when it is the default. -/
def omitting (default text : String) : Option Json := if text = default then none else some (.str text)

theorem omitting_injective (default : String) : Function.Injective (omitting default) := by
  intro s t h
  unfold omitting at h
  split_ifs at h with hs ht ht
  · exact hs.trans ht.symm
  · exact Json.str.inj (Option.some.inj h)

theorem says_toolArguments (a : SemanticSendRequest) :
    Says (omitting "") (omitting "default") (a.toolArguments.member ·) a := by
  constructor <;> simp only [toolArguments, listed, omitting] <;> split_ifs <;> rfl

theorem says_rpc (a : SemanticSendRequest) :
    Says (some ∘ .str) (some ∘ .str) ((Json.obj (withoutAnyway a.toRpcDict)).member ·) a := by
  constructor <;> simp only [toRpcDict, withoutAnyway, listed] <;> split_ifs <;> rfl

theorem says_toRpcDict (a : SemanticSendRequest) :
    Says (some ∘ .str) (some ∘ .str) ((Json.obj a.toRpcDict).member ·) a := by
  constructor <;> simp only [toRpcDict, listed] <;> split_ifs <;> rfl

theorem toolArguments_eq_iff : a.toolArguments = b.toolArguments ↔ SameDraft a b := by
  refine ⟨fun h => ?_, SameDraft.toolArguments⟩
  refine (says_toolArguments a).same (omitting_injective _) (omitting_injective _) (says_toolArguments b) fun key => ?_
  rw [h]

theorem sameDict_iff : SameDict (withoutAnyway a.toRpcDict) (withoutAnyway b.toRpcDict) ↔ SameDraft a b := by
  have hsome : Function.Injective (some ∘ Json.str) := fun s t h => Json.str.inj (Option.some.inj h)
  refine ⟨(says_rpc a).same hsome hsome (says_rpc b), fun h key => ?_⟩
  rw [h.rpc]

theorem attemptBytes_injective (h : a.attemptBytes = b.attemptBytes) : a.toolArguments = b.toolArguments := by
  have htext : a.toolArguments.dumpsAscii = b.toolArguments.dumpsAscii := encode_injective h
  have hread : Json.loads a.toolArguments.dumpsAscii = Json.loads b.toolArguments.dumpsAscii := by rw [htext]
  rw [Json.loads_dumpsAscii, Json.loads_dumpsAscii] at hread
  exact Option.some.inj hread

theorem attemptFingerprint_of_toolArguments (h : a.toolArguments = b.toolArguments) :
    a.attemptFingerprint sha = b.attemptFingerprint sha := by
  unfold attemptFingerprint
  rw [h]

theorem attemptFingerprint_eq_iff
    (hsha : sha.hexdigest a.attemptBytes = sha.hexdigest b.attemptBytes → a.attemptBytes = b.attemptBytes) :
    a.attemptFingerprint sha = b.attemptFingerprint sha ↔ SameDraft a b := by
  rw [← toolArguments_eq_iff]
  exact ⟨fun h => attemptBytes_injective (hsha (Subtype.ext h)), attemptFingerprint_of_toolArguments⟩

section Crossing

/-- The draft as it is on the other side: the body that is not sent is gone, an empty level is the default. -/
def crossed (request : SemanticSendRequest) : SemanticSendRequest :=
  { request with
    text := if request.attachmentPaths = [] then request.text else ""
    caption := if request.attachmentPaths = [] then "" else request.caption
    visibilityLevel := if request.visibilityLevel = "" then "default" else request.visibilityLevel }

theorem textItems_texts (texts : List String) : textItems (texts.map .str) = some texts := by
  induction texts with
  | nil => rfl
  | cons t texts ih => simp only [List.map_cons, textItems, ih, Option.map_some]

theorem textList_listed (texts : List String) (message : String) : textList (listed texts) message = .ok texts := by
  unfold listed
  split
  case isTrue h => rw [h]; rfl
  case isFalse h =>
    have htruthy : (Json.arr (texts.map .str)).truthy = true := by
      cases texts with
      | nil => exact absurd rfl h
      | cons t texts => rfl
    simp only [textList, htruthy, textItems_texts, not_true_eq_false, if_false, Option.elim_some]

theorem textOr_text (text default : String) :
    textOr host (some (.str text)) default = if text = "" then default else text := by
  unfold textOr
  by_cases h : text = ""
  · subst h
    rfl
  · have htruthy : (Json.str text).truthy = true := by simpa [Json.truthy] using h
    simp only [htruthy, if_true, host.str_str, if_neg h]

theorem textOr_text_empty (text : String) : textOr host (some (.str text)) "" = text := by
  rw [textOr_text]
  split
  case isTrue h => exact h.symm
  case isFalse => rfl

theorem unknown_toRpcDict (a : SemanticSendRequest) : (a.toRpcDict.map (·.1)).filter (· ∉ allowedFields) = [] := by
  rw [List.filter_eq_nil_iff]
  intro key hkey
  have hkeys : key ∈ ["channel", "root_id", "visibility_level", "send_anyway", "covers", "text", "paths", "caption"] := by
    unfold toRpcDict at hkey
    split_ifs at hkey <;> simp only [List.map_cons, List.map_nil, List.cons_append, List.nil_append,
      List.append_nil, List.mem_cons, List.not_mem_nil, or_false] at hkey ⊢ <;> tauto
  have hallowed : ∀ k ∈ ["channel", "root_id", "visibility_level", "send_anyway", "covers", "text", "paths", "caption"],
      k ∈ allowedFields := by decide
  simpa using hallowed key hkeys

theorem hostRequest_toRpcDict (host : Host) (a : SemanticSendRequest) : hostRequest host a.toRpcDict = a.crossed := by
  have hs := says_toRpcDict a
  have hanyway : (Json.obj a.toRpcDict).member "send_anyway" = some (.bool a.sendAnyway) := by
    unfold toRpcDict
    split_ifs <;> rfl
  have htext : textOr host ((Json.obj a.toRpcDict).member "text") "" = a.crossed.text := by
    rw [hs.text]
    simp only [crossed]
    by_cases h : a.attachmentPaths = []
    · rw [if_pos h, if_pos h]
      exact textOr_text_empty a.text
    · rw [if_neg h, if_neg h]
      rfl
  have hcaption : textOr host ((Json.obj a.toRpcDict).member "caption") "" = a.crossed.caption := by
    rw [hs.caption]
    simp only [crossed]
    by_cases h : a.attachmentPaths = []
    · rw [if_pos h, if_pos h]
      rfl
    · rw [if_neg h, if_neg h]
      exact textOr_text_empty a.caption
  have hlevel : textOr host ((Json.obj a.toRpcDict).member "visibility_level") "default" = a.crossed.visibilityLevel := by
    rw [hs.visibilityLevel]
    exact textOr_text a.visibilityLevel "default"
  have hroot : textOr host ((Json.obj a.toRpcDict).member "root_id") "" = a.rootId := by
    rw [hs.rootId]
    exact textOr_text_empty a.rootId
  unfold hostRequest
  simp only [hs.channel, hs.paths, hs.covers, textList_listed, textOr_text_empty, htext, hcaption, hlevel, hroot, hanyway,
    Except.toOption, Option.getD_some]
  rfl

theorem fromMapping_toRpcDict (host : Host) (a : SemanticSendRequest) : fromMapping host a.toRpcDict = .ok a.crossed := by
  have hs := says_toRpcDict a
  have hdestination : (Json.obj a.toRpcDict).member "destination" = none := by
    unfold toRpcDict
    split_ifs <;> rfl
  have hpaths : (Json.obj a.toRpcDict).member "attachment_paths" = none := by
    unfold toRpcDict
    split_ifs <;> rfl
  rw [← hostRequest_toRpcDict host a]
  unfold fromMapping hostRequest
  simp only [unknown_toRpcDict, ne_eq, not_true_eq_false, if_false, hdestination, hpaths, Option.none_or,
    hs.paths, hs.covers, textList_listed, Except.toOption, Option.getD_some]
  rfl

theorem sameDraft_crossed (a : SemanticSendRequest) :
    SameDraft a.crossed
      { a with visibilityLevel := if a.visibilityLevel = "" then "default" else a.visibilityLevel } where
  destination := rfl
  attachmentPaths := rfl
  text h := if_pos h
  caption h := if_neg h
  rootId := rfl
  visibilityLevel := rfl
  covers := rfl

end Crossing

/-- The fingerprint tells apart exactly the drafts that the dictionaries tell apart, and is the same on the other
side of the boundary, where an empty level is the default. -/
theorem fingerprint_identifies_attempt (sha : Sha256) (host : Host) (a b : SemanticSendRequest)
    (hsha : sha.hexdigest a.attemptBytes = sha.hexdigest b.attemptBytes → a.attemptBytes = b.attemptBytes) :
    (a.attemptFingerprint sha = b.attemptFingerprint sha ↔
      SameDict (withoutAnyway a.toRpcDict) (withoutAnyway b.toRpcDict)) ∧
    ∃ received, fromMapping host a.toRpcDict = .ok received ∧
      received.attemptFingerprint sha = attemptFingerprint sha
        { a with visibilityLevel := if a.visibilityLevel = "" then "default" else a.visibilityLevel } := by
  refine ⟨(attemptFingerprint_eq_iff hsha).trans sameDict_iff.symm, a.crossed, fromMapping_toRpcDict host a, ?_⟩
  exact attemptFingerprint_of_toolArguments (sameDraft_crossed a).toolArguments

/-- A draft and its retry. -/
def draft : SemanticSendRequest := { destination := "ch", text := "hi", covers := ["m1"] }

theorem fingerprint_identifies_retry :
    (draft.attemptFingerprint parity = attemptFingerprint parity { draft with sendAnyway := true } ↔
      SameDict (withoutAnyway draft.toRpcDict) (withoutAnyway (toRpcDict { draft with sendAnyway := true }))) ∧
    ∃ received, fromMapping asciiHost draft.toRpcDict = .ok received ∧
      received.attemptFingerprint parity = attemptFingerprint parity
        { draft with visibilityLevel := if draft.visibilityLevel = "" then "default" else draft.visibilityLevel } :=
  fingerprint_identifies_attempt parity asciiHost draft { draft with sendAnyway := true } fun _ => rfl

/-- An empty level is fingerprinted on one side of the boundary and is the default on the other. -/
theorem empty_level_changes_fingerprint :
    fromMapping asciiHost (toRpcDict { draft with visibilityLevel := "" }) = .ok draft ∧
    draft.attemptFingerprint parity ≠ attemptFingerprint parity { draft with visibilityLevel := "" } := by
  refine ⟨fromMapping_toRpcDict asciiHost _, ?_⟩
  decide +kernel

end SemanticSendRequest
end PuffoAgent.Sending
