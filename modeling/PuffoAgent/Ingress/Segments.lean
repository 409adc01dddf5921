import PuffoAgent.Inbox.Reads
import PuffoAgent.Ingress.SenderFacts

/-! Reading a redacted message back: what the prompt cites of its segments and what the post tool answers. -/
namespace PuffoAgent.Ingress
open Relational Store Text Projection

section Pages
variable {α : Type}

/-- `(total + size - 1) // size`. -/
def segmentCount (total size : Nat) : Nat := (total + size - 1) / size

def page (size index : Nat) (l : List α) : List α := (l.drop (index * size)).take size

theorem lt_segmentCount_iff {total size index : Nat} (hsize : 0 < size) :
    index < segmentCount total size ↔ index * size < total := by
  rw [segmentCount, ← Nat.succ_le_iff, Nat.le_div_iff_mul_le hsize, Nat.succ_mul]
  omega

theorem flatten_pages (size k : Nat) (l : List α) :
    ((List.range k).map fun i => page size i l).flatten = l.take (k * size) := by
  induction k with
  | zero => simp
  | succ k ih =>
    rw [List.range_succ, List.map_append, List.flatten_append, ih, Nat.succ_mul, List.take_add]
    simp [page]

/-- The pages of a list are the list. -/
theorem flatten_segments {size : Nat} (hsize : 0 < size) (l : List α) :
    ((List.range (segmentCount l.length size)).map fun i => page size i l).flatten = l := by
  rw [flatten_pages, List.take_of_length_le]
  by_contra h
  exact absurd ((lt_segmentCount_iff hsize).2 (not_le.1 h)) (lt_irrefl _)

end Pages

section Reader

/-- `_history_text`. -/
def historyText (content : Json) : String :=
  match content with
  | .obj _ =>
    match content.member "text" with
    | some (.str text) => if text ≠ "" then text else (Text.asText (content.member "caption")).getD ""
    | _ => (Text.asText (content.member "caption")).getD ""
  | .str text => text
  | _ => ""

/-- `_segment_source_text`. -/
def segmentSourceText (content : Json) : String :=
  historyText ((content.member "original_content").getD content)

variable (host : Host) (currentAgentAliases : List String)

/-- `target_ref`. -/
def targetRef (m : StoredMessage) : String :=
  if isDm m then "dm:" ++ dmPeer host currentAgentAliases m
  else
    let root := effectiveThreadRoot host m ""
    let base := "channel:" ++ m.row.spaceId.getD "" ++ ":" ++ m.row.channelId.getD ""
    if root ≠ "" then base ++ ":thread:" ++ root else base

structure SegmentSource where
  targetRef : String
  messageId : String
  senderIdentity : String
  senderType : String
  sentAt : String
  deriving DecidableEq, Repr

structure Segment where
  index : Nat
  count : Nat
  charStart : Nat
  charEndExclusive : Nat
  totalChars : Nat
  text : String
  deriving DecidableEq, Repr

inductive SegmentAnswer where
  | notFound (messageId : String)
  | empty (messageId : String)
  | outOfRange (messageId : String) (requested count size : Nat)
  | ok (source : SegmentSource) (segment : Segment)
  deriving DecidableEq, Repr

inductive SegmentError where
  | runtime (message : String)
  | projection (error : ProjectionError)
  deriving DecidableEq, Repr

def segmentSource (m : StoredMessage) : Except SegmentError SegmentSource :=
  match senderType host currentAgentAliases m with
  | .error e => .error (.projection e)
  | .ok type => .ok {
      targetRef := targetRef host currentAgentAliases m
      messageId := m.row.envelopeId
      senderIdentity := "@" ++ lstrip '@' m.row.senderSlug
      senderType := type
      sentAt := host.isoTime m.row.sentAt }

/-- `_get_post_segment`. -/
def getPostSegment (s : Tables) (envelopeId : String) (segment segmentSize : Int) : Except SegmentError SegmentAnswer :=
  let id := strip envelopeId
  if id = "" then .error (.runtime "envelope_id is required")
  else if segment < 0 then .error (.runtime "segment must be >= 0")
  else if segmentSize ≤ 0 then .error (.runtime "segment_size must be > 0")
  else match Inbox.getVisibleMessageByEnvelope s id with
  | none => .ok (.notFound id)
  | some m =>
    let text := segmentSourceText m.content
    let index := segment.toNat
    let size := segmentSize.toNat
    let total := text.length
    if text = "" then .ok (.empty id)
    else if segmentCount total size ≤ index then .ok (.outOfRange id index (segmentCount total size) size)
    else (segmentSource host currentAgentAliases m).map fun source => .ok source {
      index := index
      count := segmentCount total size
      charStart := index * size
      charEndExclusive := min (index * size + size) total
      totalChars := total
      text := String.ofList (page size index text.toList) }

/-- The text of an answer whose state is `ok`. -/
def okText : Except SegmentError SegmentAnswer → Option String
  | .ok (.ok _ segment) => some segment.text
  | _ => none

end Reader

section Lanes
variable (host : Host) (client : Client)

/-- `_bridge_raw_text`. -/
def bridgeRawText (payload : MessagePayload) : String :=
  match payload.content with
  | .str text => text
  | .obj _ =>
    match payload.content.member "text" with
    | some (.str text) => text
    | _ => (Text.asText (payload.content.member "caption")).getD ""
  | _ => ""

/-- The body with the agent's own mention marked. -/
def cleanText (payload : MessagePayload) (text : String) : String :=
  if (mentionEntries host client payload text).2 then
    strip (replace text ("@" ++ client.slug) ("@you(" ++ client.slug ++ ")"))
  else text

def boundedText (payload : MessagePayload) (text : String) : String :=
  maybeRedactLongText (cleanText host client payload text) payload.envelopeId payload.senderSlug
    (client.fetchDisplayName payload.senderSlug) client.maxInlineChars client.segmentChars

/-- What a bridge frame says of its sender. -/
structure BridgeSender where
  ownerSlug : Option String
  type : Option String

/-- `_bridge_prompt_content`. -/
def bridgePromptContent (payload : MessagePayload) (sender : BridgeSender) (attachmentPaths : List String) : Json :=
  let owner := sender.ownerSlug.getD (client.fetchOwnerSlug payload.senderSlug)
  .obj [("text", .str (boundedText host client payload (bridgeRawText payload))),
    ("original_content", payload.content),
    ("content_type", .str payload.contentType),
    ("attachment_paths", .arr (attachmentPaths.map .str)),
    ("mentions", .arr (mentionEntries host client payload (bridgeRawText payload)).1),
    ("sender_display_name", .str (client.fetchDisplayName payload.senderSlug)),
    ("sender_owner_slug", .str owner), ("is_from_operator", .bool (isFromOperator client payload)),
    ("sender_is_agent", .bool (sender.type = some "agent" ∨ owner ≠ "")), ("sender_type", textOrNull sender.type),
    ("is_visible_to_human", .bool payload.isVisibleToHuman), ("channel_name", .str (channelName client payload)),
    ("space_name", .str (spaceName client payload))]

/-- How a message came in. -/
inductive Lane where
  | native
  | bridge (sender : BridgeSender)

/-- The body of the message as plain text. -/
def Lane.rawText (lane : Lane) (payload : MessagePayload) : String :=
  match lane with
  | native => Ingress.rawText host payload
  | bridge _ => bridgeRawText payload

/-- The content that the message is stored with. -/
def Lane.content (lane : Lane) (payload : MessagePayload) (attachmentPaths : List String) : Json :=
  match lane with
  | native => promptContent host client payload attachmentPaths
  | bridge sender => bridgePromptContent host client payload sender attachmentPaths

end Lanes

section Whole
variable {size n : Nat} {text body : String} {answer : Int → Option String}

/-- The answers to a text that is paged. -/
def Pages (answer : Int → Option String) (text : String) (size : Nat) : Prop :=
  ∀ segment : Int, answer segment =
    if 0 ≤ segment ∧ segment.toNat < segmentCount text.length size then
      some (String.ofList (page size segment.toNat text.toList)) else none

/-- Exactly the first `n` segments are answered, and together they are the body. -/
structure Whole (answer : Int → Option String) (n : Nat) (body : String) : Prop where
  answered : ∀ segment : Int, (answer segment).isSome ↔ 0 ≤ segment ∧ segment < n
  joined : String.join ((List.range n).filterMap fun i : Nat => answer i) = body

theorem toList_join (texts : List String) : (String.join texts).toList = (texts.map String.toList).flatten := by
  have hfold : ∀ start : String, (texts.foldl (· ++ ·) start).toList = start.toList ++ (texts.map String.toList).flatten := by
    induction texts with
    | nil => simp
    | cons t texts ih =>
      intro start
      rw [List.foldl_cons, ih, String.toList_append, List.map_cons, List.flatten_cons, List.append_assoc]
  simpa [String.join] using hfold ""

theorem Pages.joined (h : Pages answer text size) (hsize : 0 < size) :
    String.join ((List.range (segmentCount text.length size)).filterMap fun i : Nat => answer i) = text := by
  have hpages : (List.range (segmentCount text.length size)).filterMap (fun i => answer (i : Nat)) =
      (List.range (segmentCount text.length size)).map fun i => String.ofList (page size i text.toList) := by
    rw [← List.filterMap_eq_map]
    refine List.filterMap_congr fun i hi => ?_
    rw [h i, if_pos ⟨Int.natCast_nonneg i, by simpa using hi⟩]
    rfl
  apply String.toList_inj.1
  rw [hpages, toList_join, List.map_map]
  have hlists : (String.toList ∘ fun i => String.ofList (page size i text.toList)) = fun i => page size i text.toList := by
    funext i
    exact String.toList_ofList
  rw [hlists, ← String.length_toList, flatten_segments hsize]

/-- A paged text is read back whole when it is the body and has as many segments as are cited. -/
theorem Pages.whole_iff (h : Pages answer text size) (hsize : 0 < size) :
    Whole answer n body ↔ text = body ∧ segmentCount text.length size = n := by
  have hanswered : ∀ i : Nat, (answer i).isSome ↔ i < segmentCount text.length size := by
    intro i
    rw [h i]
    by_cases hi : i < segmentCount text.length size <;> simp [hi]
  constructor
  · intro hw
    have hcount : segmentCount text.length size = n := by
      have hlt : ∀ i : Nat, i < segmentCount text.length size ↔ i < n := fun i => by
        rw [← hanswered, hw.answered]
        omega
      exact le_antisymm (not_lt.1 fun hn => lt_irrefl _ ((hlt n).1 hn)) (not_lt.1 fun hn => lt_irrefl _ ((hlt _).2 hn))
    have hjoined := hw.joined
    rw [← hcount, h.joined hsize] at hjoined
    exact ⟨hjoined, hcount⟩
  · rintro ⟨rfl, rfl⟩
    refine ⟨fun segment => ?_, h.joined hsize⟩
    rw [h segment]
    by_cases hs : 0 ≤ segment ∧ segment.toNat < segmentCount text.length size
    · rw [if_pos hs]
      exact ⟨fun _ => by omega, fun _ => rfl⟩
    · rw [if_neg hs]
      exact ⟨nofun, fun hlt => absurd (by omega) hs⟩

end Whole

section Stored
variable {host : Host} {aliases : List String} {client : Client} {lane : Lane} {payload : MessagePayload}
  {saved : List String} {row : MessageRow}

/-- The message is in the store with its content, and not withheld. -/
structure Kept (payload : MessagePayload) (content : Json) (row : MessageRow) : Prop where
  envelopeId : row.envelopeId = payload.envelopeId
  content : row.content = encodeContent content
  visible : Inbox.notGated row = true

theorem Kept.content_eq {content : Json} (h : Kept payload content row) : (rowToMsg row).content = content := by
  rw [rowToMsg, h.content]
  exact decodeContent_encodeContent _ _ _

theorem content_text (lane : Lane) (host : Host) (client : Client) (payload : MessagePayload) (saved : List String) :
    (lane.content host client payload saved).member "text" =
      some (.str (boundedText host client payload (lane.rawText host payload))) := by
  cases lane with
  | native =>
    rw [Lane.content, promptContent]
    split <;> split <;> rfl
  | bridge sender => rfl

theorem historyText_of_bridge (h : bridgeRawText payload ≠ "") : historyText payload.content = bridgeRawText payload := by
  unfold bridgeRawText at h ⊢
  unfold historyText
  cases hc : payload.content with
  | obj members =>
    simp only [hc] at h ⊢
    split
    case h_1 text ht =>
      simp only [ht] at h
      rw [if_pos h]
    case h_2 => rfl
  | _ => rfl

/-- What the post tool pages is the body, unless the prompt keeps another text as the sender's. -/
theorem segmentSourceText_eq_iff (lane : Lane) (host : Host) (client : Client) (payload : MessagePayload)
    (saved : List String) (hraw : lane.rawText host payload ≠ "") :
    segmentSourceText (lane.content host client payload saved) = lane.rawText host payload ↔
      (lane.rawText host payload ≠ boundedText host client payload (lane.rawText host payload) →
        historyText payload.content = lane.rawText host payload) := by
  cases lane with
  | bridge sender =>
    have hsource : segmentSourceText (Lane.content host client (.bridge sender) payload saved) = historyText payload.content :=
      rfl
    rw [hsource]
    exact ⟨fun h _ => h, fun _ => historyText_of_bridge hraw⟩
  | native =>
    have htext := content_text .native host client payload saved
    unfold Lane.content Lane.rawText at *
    by_cases hshown : Ingress.rawText host payload = promptText host client payload
    · have horiginal : (promptContent host client payload saved).member "original_content" = none := by
        rw [promptContent, if_neg (not_not.2 hshown)]
        split <;> rfl
      refine ⟨fun _ hne => absurd hshown hne, fun _ => ?_⟩
      rw [segmentSourceText, horiginal, Option.getD_none]
      have hread : historyText (promptContent host client payload saved) =
          boundedText host client payload (Ingress.rawText host payload) := by
        have hnonempty : boundedText host client payload (Ingress.rawText host payload) ≠ "" :=
          fun he => hraw (hshown.trans he)
        unfold promptContent at htext ⊢
        simp only [historyText, htext, if_pos hnonempty]
      exact hread.trans hshown.symm
    · have horiginal : (promptContent host client payload saved).member "original_content" = some payload.content := by
        rw [promptContent, if_pos hshown]
        split <;> rfl
      rw [segmentSourceText, horiginal, Option.getD_some]
      exact ⟨fun h _ => h, fun h => h hshown⟩

/-- The sender of a stored message has a type. -/
theorem segmentSource_ok (hc : (rowToMsg row).content = lane.content host client payload saved) :
    ∃ source, segmentSource host aliases (rowToMsg row) = .ok source := by
  have htype : ∃ s, statedType (rowToMsg row) = .str s := by
    cases lane with
    | native => exact ⟨_, promptContent_statedType hc⟩
    | bridge sender =>
      have hmember : (rowToMsg row).get "sender_type" = some (textOrNull sender.type) := by
        rw [StoredMessage.get, hc]
        rfl
      rw [statedType, hmember]
      cases sender.type with
      | none => exact ⟨"", rfl⟩
      | some type =>
        by_cases hempty : type = ""
        · exact ⟨"", by simp [textOrNull, Json.truthy, hempty]⟩
        · exact ⟨type, by simp [textOrNull, Json.truthy, hempty]⟩
  obtain ⟨s, hs⟩ := htype
  unfold segmentSource senderType
  rw [hs]
  exact ⟨_, rfl⟩

theorem cleanText_empty (host : Host) (client : Client) (payload : MessagePayload) :
    cleanText host client payload "" = "" := by
  simp [cleanText, mentionEntries, parsedMentions, mentionSlugs]

theorem okText_of_none {s : Tables} {segment size : Int}
    (h : Inbox.getVisibleMessageByEnvelope s (strip payload.envelopeId) = none) :
    okText (getPostSegment host aliases s payload.envelopeId segment size) = none := by
  unfold getPostSegment
  simp only [h]
  split_ifs <;> rfl

/-- A stored message that its id names is answered page by page. -/
theorem paged_of_found {s : Tables} {m : StoredMessage} {source : SegmentSource} {size : Nat}
    (hid : strip payload.envelopeId ≠ "") (hsize : 0 < size)
    (hm : Inbox.getVisibleMessageByEnvelope s (strip payload.envelopeId) = some m)
    (hsource : segmentSource host aliases m = .ok source) :
    Pages (fun segment => okText (getPostSegment host aliases s payload.envelopeId segment size))
      (segmentSourceText m.content) size := by
  intro segment
  have hpositive : ¬ (size : Int) ≤ 0 := by omega
  unfold getPostSegment
  simp only [hm, if_neg hid, if_neg hpositive, Int.toNat_natCast]
  by_cases hneg : segment < 0
  · rw [if_pos hneg, if_neg (by omega)]
    rfl
  · rw [if_neg hneg]
    by_cases hempty : segmentSourceText m.content = ""
    · rw [if_pos hempty, hempty, if_neg]
      · rfl
      · rintro ⟨_, hlt⟩
        rw [lt_segmentCount_iff hsize] at hlt
        exact absurd hlt (Nat.not_lt_zero _)
    · rw [if_neg hempty]
      by_cases hlt : segment.toNat < segmentCount (segmentSourceText m.content).length size
      · rw [if_neg (not_le.2 hlt), if_pos ⟨by omega, hlt⟩, hsource]
        rfl
      · rw [if_pos (not_lt.1 hlt), if_neg fun h => hlt h.2]
        rfl

end Stored

section ReadBack
variable {host : Host} {aliases : List String} {client : Client} {lane : Lane} {payload : MessagePayload}
  {saved : List String} {row : MessageRow}

/-- The text cites `n` segments of the size `size`. -/
def Cites (shown : String) (n size : Nat) : Prop :=
  ∃ before after, shown = before ++ "\n  segments: " ++ toString n ++ " (0-indexed, up to " ++ toString size ++
    " chars each)\n  sender: " ++ after

theorem maybeRedactLongText_cites {text envelopeId senderSlug senderDisplayName : String} {maxInlineChars segmentChars : Nat}
    (h : maxInlineChars < text.length) :
    Cites (maybeRedactLongText text envelopeId senderSlug senderDisplayName maxInlineChars segmentChars)
      (segmentCount text.length segmentChars) segmentChars := by
  unfold maybeRedactLongText
  simp only [if_neg (not_le.2 h)]
  refine ⟨"[puffo-agent system message] inbound message was too long to embed inline and has been " ++
    "redacted from this prompt for context-budget reasons.\n  envelope_id: " ++ envelopeId ++
    "\n  total_chars: " ++ toString text.length, ?_⟩
  apply Exists.intro
  simp only [String.append_assoc]
  rfl

/-- In every store that holds the message, the post tool answers exactly the first `n` segments, and they make up
the body. -/
def ReadsBack (host : Host) (aliases : List String) (payload : MessagePayload) (row : MessageRow) (n size : Nat)
    (body : String) : Prop :=
  ∀ s : Tables, s.messages.get? payload.envelopeId = some row →
    Whole (fun segment => okText (getPostSegment host aliases s payload.envelopeId segment size)) n body

/-- The message is named by its trimmed id, the prompt keeps the body as its source, and marking the agent's own
mention and trimming leave the number of its segments as it is. -/
structure Readable (host : Host) (client : Client) (lane : Lane) (payload : MessagePayload) : Prop where
  named : payload.envelopeId ≠ "" ∧ strip payload.envelopeId = payload.envelopeId
  source : lane.rawText host payload ≠ boundedText host client payload (lane.rawText host payload) →
    historyText payload.content = lane.rawText host payload
  segments : segmentCount (lane.rawText host payload).length client.segmentChars =
    segmentCount (cleanText host client payload (lane.rawText host payload)).length client.segmentChars

theorem rawText_ne_empty (h : client.maxInlineChars < (cleanText host client payload (lane.rawText host payload)).length) :
    lane.rawText host payload ≠ "" := by
  intro hraw
  rw [hraw, cleanText_empty] at h
  exact Nat.not_lt_zero _ h

theorem segmentCount_pos {total size : Nat} (hsize : 0 < size) (htotal : 0 < total) : 0 < segmentCount total size :=
  (lt_segmentCount_iff hsize).2 (by omega)

/-- A store that holds one message. -/
def holding (row : MessageRow) : Tables :=
  { Tables.empty with messages := ⟨[row], List.nodup_singleton _⟩ }

theorem get?_holding (id : String) : (holding row).messages.get? id = if row.envelopeId = id then some row else none := by
  unfold Table.get? holding
  by_cases h : row.envelopeId = id <;> simp [h]

theorem Kept.found {content : Json} (hrow : Kept payload content row) {s : Tables}
    (hs : s.messages.get? payload.envelopeId = some row) (hne : payload.envelopeId ≠ "") :
    Inbox.getVisibleMessageByEnvelope s payload.envelopeId = some (rowToMsg row) := by
  rw [Inbox.getVisibleMessageByEnvelope, if_neg hne, hs, Option.filter_some, if_pos hrow.visible, Option.map_some]

/-- A message that is answered is named by its trimmed id. -/
theorem ReadsBack.named {n size : Nat} {body : String} {content : Json} (hrow : Kept payload content row)
    (h : ReadsBack host aliases payload row n size body) (hn : 0 < n) :
    payload.envelopeId ≠ "" ∧ strip payload.envelopeId = payload.envelopeId := by
  have hheld : (holding row).messages.get? payload.envelopeId = some row := by
    rw [get?_holding, if_pos hrow.envelopeId]
  have hsome := ((h (holding row) hheld).answered 0).2 ⟨le_refl _, by omega⟩
  by_contra hnot
  have hnone : Inbox.getVisibleMessageByEnvelope (holding row) (strip payload.envelopeId) = none := by
    by_cases hempty : strip payload.envelopeId = ""
    · exact if_pos hempty
    · have hother : row.envelopeId ≠ strip payload.envelopeId := by
        intro he
        have hid : strip payload.envelopeId = payload.envelopeId := he.symm.trans hrow.envelopeId
        exact hnot ⟨fun hblank => hempty (hid.trans hblank), hid⟩
      rw [Inbox.getVisibleMessageByEnvelope, if_neg hempty, get?_holding, if_neg hother]
      rfl
  rw [okText_of_none hnone] at hsome
  cases hsome

section Redacted
variable (hsize : 0 < client.segmentChars) (hrow : Kept payload (lane.content host client payload saved) row)
  (hlong : client.maxInlineChars < (cleanText host client payload (lane.rawText host payload)).length)
include hsize hrow

theorem Kept.paged {s : Tables} (hs : s.messages.get? payload.envelopeId = some row) (hne : payload.envelopeId ≠ "")
    (hid : strip payload.envelopeId = payload.envelopeId) :
    Pages (fun segment => okText (getPostSegment host aliases s payload.envelopeId segment client.segmentChars))
      (segmentSourceText (lane.content host client payload saved)) client.segmentChars := by
  have hfound := hrow.found hs hne
  have hsource : ∃ source, segmentSource host aliases (rowToMsg row) = .ok source := segmentSource_ok hrow.content_eq
  obtain ⟨source, hok⟩ := hsource
  rw [← hrow.content_eq]
  exact paged_of_found (hid.symm ▸ hne) hsize (hid.symm ▸ hfound) hok

include hlong

theorem ReadsBack.readable
    (h : ReadsBack host aliases payload row
      (segmentCount (cleanText host client payload (lane.rawText host payload)).length client.segmentChars)
      client.segmentChars (lane.rawText host payload)) : Readable host client lane payload := by
  obtain ⟨hne, hid⟩ := h.named hrow (segmentCount_pos hsize (by omega))
  have hheld : (holding row).messages.get? payload.envelopeId = some row := by
    rw [get?_holding, if_pos hrow.envelopeId]
  obtain ⟨htext, hcount⟩ := ((hrow.paged hsize hheld hne hid).whole_iff hsize).1 (h _ hheld)
  rw [htext] at hcount
  exact ⟨⟨hne, hid⟩, (segmentSourceText_eq_iff lane host client payload saved (rawText_ne_empty hlong)).1 htext, hcount⟩

theorem Readable.readsBack (h : Readable host client lane payload) :
    ReadsBack host aliases payload row
      (segmentCount (cleanText host client payload (lane.rawText host payload)).length client.segmentChars)
      client.segmentChars (lane.rawText host payload) := by
  intro s hs
  have htext := (segmentSourceText_eq_iff lane host client payload saved (rawText_ne_empty hlong)).2 h.source
  refine ((hrow.paged hsize hs h.named.1 h.named.2).whole_iff hsize).2 ⟨htext, ?_⟩
  rw [htext]
  exact h.segments

end Redacted

/-- The placeholder of a redacted message cites its segments, and the message is read back whole exactly when it is
readable. -/
theorem redacted_read_back_iff (host : Host) (aliases : List String) (client : Client) (lane : Lane)
    (payload : MessagePayload) (saved : List String) (row : MessageRow) (hsize : 0 < client.segmentChars)
    (hrow : Kept payload (lane.content host client payload saved) row)
    (hlong : client.maxInlineChars < (cleanText host client payload (lane.rawText host payload)).length) :
    let n := segmentCount (cleanText host client payload (lane.rawText host payload)).length client.segmentChars
    (∃ shown, (rowToMsg row).content.member "text" = some (.str shown) ∧ Cites shown n client.segmentChars) ∧
    (ReadsBack host aliases payload row n client.segmentChars (lane.rawText host payload) ↔
      Readable host client lane payload) := by
  intro n
  have hshown : (rowToMsg row).content.member "text" =
      some (.str (boundedText host client payload (lane.rawText host payload))) := by
    rw [hrow.content_eq]
    exact content_text lane host client payload saved
  refine ⟨⟨_, hshown, maybeRedactLongText_cites hlong⟩, fun h => ?_, fun h => ?_⟩
  · exact h.readable hsize hrow hlong
  · exact h.readsBack hsize hrow hlong

end ReadBack

section Examples

/-- A client that redacts what is longer than 16 characters. -/
def smallClient : Client where
  slug := "bot-1a2b"
  operatorSlug := ""
  autoAcceptDm := false
  signedHttpAvailable := true
  maxInlineChars := 16
  segmentChars := 8
  catchupStaleMs := 0
  blocklist := some []
  allowlist := []
  pendingDmApprovals := []
  controlReply _ _ := none
  sharesSpaceWith _ := false
  fetchDisplayName _ := "Ann"
  fetchOwnerSlug _ := ""
  resolveSpaceName _ := ""
  resolveChannelName _ _ := ""
  getSpaceMembers _ := []
  attachments := ⟨"", fun _ => none, fun _ => none, fun _ => false, fun _ _ => .kept⟩

def saying (text : String) : MessagePayload where
  envelopeId := "e"
  envelopeKind := "channel"
  senderSlug := "ann"
  sentAt := 1
  contentType := "text/plain"
  content := .str text
  isVisibleToHuman := true

def rowOf (payload : MessagePayload) : MessageRow :=
  let content := Lane.content asciiHost smallClient .native payload []
  payloadValues { envelopeId := payload.envelopeId, content := content, sentAt := payload.sentAt } 1

theorem digits_read_back :
    let digits := saying "0123456789abcdefgh"
    let n := segmentCount (cleanText asciiHost smallClient digits (Lane.native.rawText asciiHost digits)).length
      smallClient.segmentChars
    (∃ shown, (rowToMsg (rowOf digits)).content.member "text" = some (.str shown) ∧
      Cites shown n smallClient.segmentChars) ∧
    (ReadsBack asciiHost ["bot-1a2b"] digits (rowOf digits) n smallClient.segmentChars
      (Lane.native.rawText asciiHost digits) ↔ Readable asciiHost smallClient .native digits) :=
  redacted_read_back_iff asciiHost ["bot-1a2b"] smallClient .native (saying "0123456789abcdefgh") []
    (rowOf (saying "0123456789abcdefgh")) (by decide) ⟨rfl, rfl, by decide⟩ (by decide +kernel)

/-- Two segments of text that name the agent are cited as three. -/
theorem mention_cites_missing_segment :
    let mention := saying "@bot-1a2b hello!"
    Lane.native.rawText asciiHost mention = "@bot-1a2b hello!" ∧
    smallClient.maxInlineChars < (cleanText asciiHost smallClient mention "@bot-1a2b hello!").length ∧
    segmentCount (cleanText asciiHost smallClient mention "@bot-1a2b hello!").length smallClient.segmentChars = 3 ∧
    Kept mention (Lane.native.content asciiHost smallClient mention []) (rowOf mention) ∧
    ¬ ReadsBack asciiHost ["bot-1a2b"] mention (rowOf mention) 3 8 "@bot-1a2b hello!" := by
  have hraw : Lane.native.rawText asciiHost (saying "@bot-1a2b hello!") = "@bot-1a2b hello!" := by decide +kernel
  have hlong : smallClient.maxInlineChars <
      (cleanText asciiHost smallClient (saying "@bot-1a2b hello!") "@bot-1a2b hello!").length := by decide +kernel
  have hcited : segmentCount (cleanText asciiHost smallClient (saying "@bot-1a2b hello!") "@bot-1a2b hello!").length
      smallClient.segmentChars = 3 := by decide +kernel
  have hrow : Kept (saying "@bot-1a2b hello!") (Lane.native.content asciiHost smallClient (saying "@bot-1a2b hello!") [])
      (rowOf (saying "@bot-1a2b hello!")) := ⟨rfl, rfl, by decide⟩
  refine ⟨hraw, hlong, hcited, hrow, fun h => ?_⟩
  have hreads : ReadsBack asciiHost ["bot-1a2b"] (saying "@bot-1a2b hello!") (rowOf (saying "@bot-1a2b hello!"))
      (segmentCount (cleanText asciiHost smallClient (saying "@bot-1a2b hello!")
        (Lane.native.rawText asciiHost (saying "@bot-1a2b hello!"))).length smallClient.segmentChars)
      smallClient.segmentChars (Lane.native.rawText asciiHost (saying "@bot-1a2b hello!")) := by
    rw [hraw, hcited]
    exact h
  have hreadable := hreads.readable (by decide) hrow (by rw [hraw]; exact hlong)
  have hsegments := hreadable.segments
  rw [hraw, hcited] at hsegments
  exact absurd hsegments (by decide)

end Examples
end PuffoAgent.Ingress
