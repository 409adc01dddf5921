import PuffoAgent.Ingress.Filing
import PuffoAgent.Ingress.RouteBinding
import PuffoAgent.Ingress.SenderFacts

/-! What a remote sender's content can say in the row the model reads. It decides nothing
but the text exactly where the handler replaces it before it is stored. -/
namespace PuffoAgent.Ingress
open Relational Stmt Sql Store Text Machine Projection

section Handled
variable {host : Host} {client : Client} {aliases : List String} {payload : MessagePayload} {serverSeq : Int}
  {isPlaintext : Bool} {nowMs : Int} {s : Tables} {m : MessageRow}

theorem handle_after (host : Host) (client : Client) (payload : MessagePayload) (serverSeq : Int)
    (isPlaintext : Bool) (nowMs : Int) (s : Tables) :
    (handle host client payload serverSeq isPlaintext nowMs).after s =
      match decision host client payload nowMs (storedPayload client payload isPlaintext s) with
      | .hold => s
      | .file row disposition reason content =>
        (commit row serverSeq disposition reason content nowMs nowMs).after s := by
  rw [Sql.after, handle, Sql.read, query_bind_run]
  cases decision host client payload nowMs (storedPayload client payload isPlaintext s) with
  | hold => rfl
  | file row disposition reason content => rfl

theorem handle_filed (payload : MessagePayload) {row : Payload} {disposition : ReceiptDisposition} {reason : String} {content : Option Json}
    (hid : row.envelopeId = payload.envelopeId) (hu : s.messages.get? payload.envelopeId = none)
    (hd : decision host client payload nowMs (storedPayload client payload isPlaintext s) =
      .file row disposition reason content) (hne : disposition ≠ .foreignDmGated)
    (hl : Later ((handle host client payload serverSeq isPlaintext nowMs).after s) payload.envelopeId m) :
    Stamped (committedRow row content) m := by
  rw [handle_after, hd] at hl
  obtain ⟨m₀, hm₀⟩ := hl.known
  rw [← hid] at hu hm₀ hl
  obtain ⟨hstamp, hdisp⟩ := commit_filed hu hm₀
  exact hstamp.later hm₀ ⟨disposition, hdisp, hne⟩ hl

theorem handle_files (payload : MessagePayload) {row : Payload} {disposition : ReceiptDisposition} {reason : String}
    (hid : row.envelopeId = payload.envelopeId) (hf : Fresh s payload.envelopeId serverSeq)
    (hd : decision host client payload nowMs (storedPayload client payload isPlaintext s) =
      .file row disposition reason none) :
    ∃ m, Later ((handle host client payload serverSeq isPlaintext nowMs).after s) payload.envelopeId m ∧
      Stamped row m := by
  rw [handle_after, hd, ← hid]
  rw [← hid] at hf
  obtain ⟨m, hm, hstamp, -⟩ := commit_files hf disposition reason none nowMs nowMs
  exact ⟨m, .now hm, hstamp⟩

theorem Stamped.content_eq {row : Payload} (h : Stamped row m) : (rowToMsg m).content = row.content := by
  rw [rowToMsg, h.content]
  exact decodeContent_encodeContent _ _ _

theorem decision_envelopeId {stored row : Payload} {disposition : ReceiptDisposition} {reason : String}
    {content : Option Json} (h : decision host client payload nowMs stored = .file row disposition reason content) :
    row.envelopeId = stored.envelopeId := by
  unfold decision fileVerdict selfEchoRow at h
  repeat' split at h
  all_goals cases h
  all_goals rfl

/-- A message that passed the blocklist is filed as it came, or with the handler's own content. -/
theorem decision_cases (host : Host) (payload : MessagePayload)
    (hb : blockedGate client payload = some none) (hs : payload.senderSlug ≠ client.slug)
    (stored : Payload) :
    ∃ row disposition reason, decision host client payload nowMs stored = .file row disposition reason none ∧
      (row = stored ∨
        row = { stored with content := promptContent host client payload (saveAttachments host client payload) }) := by
  unfold decision
  rw [hb]
  dsimp only
  rw [if_neg hs]
  split
  · rename_i verdict hv
    unfold operatorControlGate at hv
    split at hv
    · obtain ⟨reason, -, rfl⟩ := Option.map_eq_some_iff.1 hv
      exact ⟨stored, _, _, rfl, .inl rfl⟩
    · cases hv
  · split
    · rename_i verdict hv
      unfold inviteLinkGate at hv
      split at hv
      · cases hv
        exact ⟨stored, _, _, rfl, .inl rfl⟩
      · cases hv
    · split
      · rename_i verdict hv
        unfold foreignDmGate at hv
        dsimp only at hv
        split_ifs at hv <;> cases hv <;> exact ⟨stored, _, _, rfl, .inl rfl⟩
      · split
        · exact ⟨stored, _, _, rfl, .inl rfl⟩
        · exact ⟨_, _, _, rfl, .inr rfl⟩

/-- A channel message that is neither blocked nor stale is admitted. -/
theorem decision_admitted (host : Host) (payload : MessagePayload)
    (hb : blockedGate client payload = some none) (hs : payload.senderSlug ≠ client.slug)
    (hk : payload.envelopeKind ≠ "dm") (ht : isStaleForCatchup client payload.sentAt nowMs = false)
    (stored : Payload) :
    decision host client payload nowMs stored =
      .file { stored with content := promptContent host client payload (saveAttachments host client payload) }
        .eligible "eligible message" none := by
  unfold decision operatorControlGate inviteLinkGate foreignDmGate
  simp [hb, hs, hk, ht]

/-- A bare invite link is never admitted in a direct message, and nothing is in a stale one. -/
theorem decision_inviteLink (host : Host) (payload : MessagePayload)
    (hb : blockedGate client payload = some none) (hs : payload.senderSlug ≠ client.slug)
    (h : payload.envelopeKind = "dm" ∨ isStaleForCatchup client payload.sentAt nowMs = true)
    (hc : payload.content = .str "/i/abcdef") (stored : Payload) :
    ∃ disposition reason, decision host client payload nowMs stored = .file stored disposition reason none := by
  have htext : rawText host payload = "/i/abcdef" := by
    rw [rawText, isAttachmentsMessage, hc]
    simpa using text_str host "/i/abcdef"
  have hcode : (extractInviteShortCode "/i/abcdef").isSome = true := by decide
  have hbare : isBareInviteLink "/i/abcdef" = true := by decide
  unfold decision
  rw [hb]
  dsimp only
  rw [if_neg hs]
  split
  · rename_i verdict hv
    unfold operatorControlGate at hv
    split at hv
    · obtain ⟨reason, -, rfl⟩ := Option.map_eq_some_iff.1 hv
      exact ⟨_, _, rfl⟩
    · cases hv
  · by_cases hk : payload.envelopeKind = "dm"
    · have hlink : ∃ verdict, inviteLinkGate payload (rawText host payload) = some verdict ∧ verdict.content = none := by
        rw [inviteLinkGate, htext, if_pos ⟨hk, hcode, hbare⟩]
        exact ⟨_, rfl, rfl⟩
      obtain ⟨verdict, hv, hn⟩ := hlink
      rw [hv]
      refine ⟨verdict.disposition, verdict.reason, ?_⟩
      dsimp only
      rw [fileVerdict, hn]
      rfl
    · have hlink : inviteLinkGate payload (rawText host payload) = none := if_neg fun h => hk h.1
      have hforeign : foreignDmGate client payload = none := if_pos hk
      rw [hlink, hforeign, if_pos (h.resolve_left hk)]
      exact ⟨_, _, rfl⟩

end Handled

/-- The path that is shown leads to the saved file, as it stands or from the workspace. -/
def Resolves (workspace shown saved : String) : Prop := shown = saved ∨ pathJoin workspace [shown] = saved

/-- Whatever the content of the delivery, the row it is filed as is shown as a message:
about the same sender, with paths of files that were saved for it and with mentions that
its text makes. -/
def ContentBlind (host : Host) (client : Client) (aliases : List String) (payload : MessagePayload)
    (serverSeq : Int) (isPlaintext : Bool) (nowMs : Int) : Prop :=
  ∃ sender : SenderFacts, ∀ (content : Json) (s : Tables) (m : MessageRow) (replyCount : Option Nat),
    s.messages.get? payload.envelopeId = none →
    Later ((handle host client { payload with content := content } serverSeq isPlaintext nowMs).after s)
      payload.envelopeId m →
    ∃ facts, projectRow host aliases (rowToMsg m) replyCount = .ok (.message facts) ∧ senderFacts facts = sender ∧
      (∀ shown ∈ facts.attachmentPaths, ∃ path ∈ saveAttachments host client { payload with content := content },
        Resolves client.attachments.workspace shown path) ∧
      ∀ mention ∈ facts.mentions, Mentioned host client (rawText host { payload with content := content }) mention

/-- Every file an attachment of the message can be saved as is shown under its own path. -/
def NamesKept (host : Host) (client : Client) (payload : MessagePayload) : Prop :=
  payload.contentType = "puffo/message+attachments/v1" → client.attachments.workspace ≠ "" →
    isSafePathComponent payload.envelopeId = true →
    ∀ raw path size,
      saveOneAttachment host client.attachments payload.envelopeId raw maxInboundAttachmentTotalBytes = some (path, size) →
      Resolves client.attachments.workspace (modelAttachmentPath path) path

section Blind
variable {host : Host} {client : Client} {aliases : List String} {payload : MessagePayload} {serverSeq : Int}
  {isPlaintext : Bool} {nowMs : Int}

theorem contentBlind_held (hb : blockedGate client payload = none) :
    ContentBlind host client aliases payload serverSeq isPlaintext nowMs := by
  refine ⟨envelopeFacts host aliases payload "" "" "" none, fun content s m replyCount hu hl => ?_⟩
  have hb' : blockedGate client { payload with content := content } = none := hb
  rw [handle_after, decision, hb'] at hl
  obtain ⟨m₀, hm₀⟩ := hl.known
  rw [hu] at hm₀
  cases hm₀

theorem contentBlind_unfiled (h : serverSeq ≤ 0 ∨ payload.envelopeId = "") :
    ContentBlind host client aliases payload serverSeq isPlaintext nowMs := by
  refine ⟨envelopeFacts host aliases payload "" "" "" none, fun content s m replyCount hu hl => ?_⟩
  have hnot : ¬ Fresh s payload.envelopeId serverSeq := by
    rintro ⟨-, -, hpos, hnamed⟩
    rcases h with h | h
    · omega
    · exact hnamed h
  obtain ⟨m₀, hm₀⟩ := hl.known
  have hsame : (handle host client { payload with content := content } serverSeq isPlaintext nowMs).after s = s := by
    rw [handle_after]
    split
    · rfl
    · rename_i row disposition reason content' hd
      have hid : row.envelopeId = payload.envelopeId := decision_envelopeId hd
      rw [← hid] at hu hnot
      exact commit_unfiled hu hnot disposition reason content' nowMs nowMs
  rw [hsame, hu] at hm₀
  cases hm₀

theorem contentBlind_blocked {verdict : GateVerdict} (hb : blockedGate client payload = some (some verdict)) :
    ContentBlind host client aliases payload serverSeq isPlaintext nowMs := by
  refine ⟨envelopeFacts host aliases payload "" "" "" none, fun content s m replyCount hu hl => ?_⟩
  have hb' : blockedGate client { payload with content := content } = some (some verdict) := hb
  have hverdict : verdict.disposition = .terminal ∧ verdict.content = some blockedMessagePlaceholder := by
    unfold blockedGate at hb
    split at hb
    · cases hb
    · cases hblocked : isBlocked client payload.senderSlug with
      | none => rw [hblocked] at hb; cases hb
      | some blocked =>
        rw [hblocked] at hb
        cases blocked with
        | false => cases hb
        | true => cases hb; exact ⟨rfl, rfl⟩
  have hd : decision host client { payload with content := content } nowMs
      (storedPayload client { payload with content := content } isPlaintext s) =
      .file (storedPayload client { payload with content := content } isPlaintext s) .terminal verdict.reason
        (some (.str blockedMessagePlaceholder)) := by
    rw [decision, hb']
    simp only [fileVerdict, hverdict.1, hverdict.2, Option.map_some]
  have hstamp := handle_filed { payload with content := content } rfl hu hd (by decide) hl
  obtain ⟨facts, hp, hfacts, hpaths, hmentions⟩ := plainText_projects (m := rowToMsg m) host aliases payload
    hstamp.senderSlug hstamp.envelopeKind hstamp.content_eq replyCount
  exact ⟨facts, hp, hfacts, by simp [hpaths], by simp [hmentions]⟩

theorem contentBlind_admitted (hb : blockedGate client payload = some none) (hs : payload.senderSlug ≠ client.slug)
    (hk : payload.envelopeKind ≠ "dm") (ht : isStaleForCatchup client payload.sentAt nowMs = false)
    (hn : NamesKept host client payload) :
    ContentBlind host client aliases payload serverSeq isPlaintext nowMs := by
  refine ⟨envelopeFacts host aliases payload (rosterType client payload) (client.fetchDisplayName payload.senderSlug)
    (client.fetchOwnerSlug payload.senderSlug) (some payload.isVisibleToHuman), fun content s m replyCount hu hl => ?_⟩
  have hd := decision_admitted host { payload with content := content } hb hs hk ht
    (storedPayload client { payload with content := content } isPlaintext s)
  have hstamp := handle_filed { payload with content := content } rfl hu hd (by decide) hl
  obtain ⟨facts, hp, hfacts, hpaths, hmentions⟩ := promptContent_projects (m := rowToMsg m) host client aliases
    { payload with content := content } hstamp.senderSlug hstamp.envelopeKind hstamp.content_eq replyCount
  obtain ⟨-, -, -, hsaved, hentries, -⟩ := promptContent_member host client { payload with content := content }
    (saveAttachments host client { payload with content := content })
  refine ⟨facts, hp, hfacts, fun shown hshown => ?_, fun mention hmention => ?_⟩
  · rw [hpaths] at hshown
    obtain ⟨path, hpath, rfl⟩ := promptContent_attachmentPaths
      (by rw [StoredMessage.get, hstamp.content_eq]; exact hsaved) hshown
    refine ⟨path, hpath, ?_⟩
    unfold saveAttachments at hpath
    split at hpath
    · rename_i ha
      have htype : payload.contentType = "puffo/message+attachments/v1" := by
        simp only [isAttachmentsMessage, Bool.decide_and, Bool.and_eq_true, decide_eq_true_eq] at ha
        exact ha.1
      split at hpath
      · obtain ⟨hw, hsafe, raw, size, hraw⟩ := mem_saveInboundAttachments hpath
        exact hn htype hw hsafe raw path size hraw
      · cases hpath
    · cases hpath
  · rw [hmentions] at hmention
    exact promptContent_mentioned (by rw [StoredMessage.get, hstamp.content_eq]; exact hentries) hmention

theorem fresh_empty {envelopeId : String} (hpos : 0 < serverSeq) (hid : envelopeId ≠ "") :
    Fresh Tables.empty envelopeId serverSeq :=
  ⟨by simp [Tables.empty], (fun _ hm => by cases hm), hpos, hid⟩

theorem facts_attachmentPaths {m : StoredMessage} {replyCount : Option Nat} {facts : MessageFacts}
    (h : projectRow host aliases m replyCount = .ok (.message facts)) :
    facts.attachmentPaths = attachmentPaths host m := by
  have hf := projectRow_facts h
  rw [messageFacts, except_bind_ok_iff] at hf
  obtain ⟨type, -, hf⟩ := hf
  cases hf
  rfl

theorem senderFacts_humanVisible {m : StoredMessage} {replyCount : Option Nat} {facts : MessageFacts}
    (h : projectRow host aliases m replyCount = .ok (.message facts)) :
    (senderFacts facts).humanVisible = humanVisible m := by
  have hf := projectRow_facts h
  rw [messageFacts, except_bind_ok_iff] at hf
  obtain ⟨type, -, hf⟩ := hf
  cases hf
  rfl

/-- A text that is stored as it came has no say on who sees it, and a dict has. -/
theorem not_contentBlind_verbatim (hpos : 0 < serverSeq) (hid : payload.envelopeId ≠ "")
    (hb : blockedGate client payload = some none) (hs : payload.senderSlug ≠ client.slug)
    (h : payload.envelopeKind = "dm" ∨ isStaleForCatchup client payload.sentAt nowMs = true) :
    ¬ ContentBlind host client aliases payload serverSeq isPlaintext nowMs := by
  rintro ⟨sender, hsender⟩
  have hnone : sender.humanVisible = none := by
    obtain ⟨disposition, reason, hd⟩ := decision_inviteLink host { payload with content := .str "/i/abcdef" } hb hs h rfl
      (storedPayload client { payload with content := .str "/i/abcdef" } isPlaintext Tables.empty)
    obtain ⟨m, hl, hstamp⟩ := handle_files { payload with content := .str "/i/abcdef" } rfl (fresh_empty hpos hid) hd
    obtain ⟨facts, hp, rfl, -⟩ := hsender _ _ m none (fresh_empty hpos hid).unknown hl
    rw [senderFacts_humanVisible hp, humanVisible, StoredMessage.get, hstamp.content_eq]
    rfl
  have hsome : sender.humanVisible.isSome = true := by
    obtain ⟨row, disposition, reason, hd, hrow⟩ := decision_cases host
      { payload with content := .obj [("is_visible_to_human", .bool true)] } hb hs
      (storedPayload client { payload with content := .obj [("is_visible_to_human", .bool true)] } isPlaintext
        Tables.empty)
    have hrid : row.envelopeId = payload.envelopeId := decision_envelopeId hd
    obtain ⟨m, hl, hstamp⟩ := handle_files { payload with content := .obj [("is_visible_to_human", .bool true)] } hrid
      (fresh_empty hpos hid) hd
    obtain ⟨facts, hp, rfl, -⟩ := hsender _ _ m none (fresh_empty hpos hid).unknown hl
    rw [senderFacts_humanVisible hp, humanVisible, StoredMessage.get, hstamp.content_eq]
    rcases hrow with rfl | rfl
    · rfl
    · obtain ⟨-, -, -, -, -, -, -, -, -, hvisible⟩ := promptContent_member host client
        { payload with content := .obj [("is_visible_to_human", .bool true)] }
        (saveAttachments host client { payload with content := .obj [("is_visible_to_human", .bool true)] })
      rw [hvisible]
      rfl
  rw [hnone] at hsome
  cases hsome

/-- A file that is shown under another path than its own is one too many. -/
theorem not_contentBlind_names (hpos : 0 < serverSeq) (hid : payload.envelopeId ≠ "")
    (hb : blockedGate client payload = some none) (hs : payload.senderSlug ≠ client.slug)
    (hk : payload.envelopeKind ≠ "dm") (ht : isStaleForCatchup client payload.sentAt nowMs = false)
    (hn : ¬ NamesKept host client payload) :
    ¬ ContentBlind host client aliases payload serverSeq isPlaintext nowMs := by
  simp only [NamesKept, not_forall] at hn
  obtain ⟨htype, hw, hsafe, raw, path, size, hraw, hpath⟩ := hn
  rintro ⟨sender, hsender⟩
  have hsaved : saveAttachments host client { payload with content := .obj [("attachments", .arr [raw])] } = [path] := by
    have hmember : Json.member "attachments" (.obj [("attachments", .arr [raw])]) = some (.arr [raw]) := rfl
    simp only [saveAttachments, isAttachmentsMessage, htype, hmember]
    exact saveInboundAttachments_singleton hw hsafe hraw
  have hd := decision_admitted host { payload with content := .obj [("attachments", .arr [raw])] } hb hs hk ht
    (storedPayload client { payload with content := .obj [("attachments", .arr [raw])] } isPlaintext Tables.empty)
  obtain ⟨m, hl, hstamp⟩ := handle_files { payload with content := .obj [("attachments", .arr [raw])] } rfl
    (fresh_empty hpos hid) hd
  obtain ⟨facts, hp, -, hshown, -⟩ := hsender _ _ m none (fresh_empty hpos hid).unknown hl
  obtain ⟨-, -, -, hpaths, -⟩ := promptContent_member host client
    { payload with content := .obj [("attachments", .arr [raw])] } [path]
  have hget : (rowToMsg m).get "attachment_paths" = some (.arr [.str path]) := by
    rw [StoredMessage.get, hstamp.content_eq]
    dsimp only
    rw [hsaved]
    exact hpaths
  have hempty : path ≠ "" := by
    rintro rfl
    exact hpath (.inl (by decide))
  have hmem : modelAttachmentPath path ∈ facts.attachmentPaths := by
    rw [facts_attachmentPaths hp, attachmentPaths, hget]
    simp [hempty, host.str_str]
  obtain ⟨path', hpath', hr⟩ := hshown _ hmem
  rw [hsaved, List.mem_singleton] at hpath'
  rw [hpath'] at hr
  exact hpath hr

end Blind

/-- The content decides nothing but the text exactly when no row is filed, the sender is
blocked, or a channel message is admitted while it is new and its files keep their names. -/
theorem content_blind_iff (host : Host) (client : Client) (aliases : List String) (payload : MessagePayload)
    (serverSeq : Int) (isPlaintext : Bool) (nowMs : Int) (remote : payload.senderSlug ≠ client.slug) :
    ContentBlind host client aliases payload serverSeq isPlaintext nowMs ↔
      (serverSeq ≤ 0 ∨ payload.envelopeId = "") ∨ blockedGate client payload ≠ some none ∨
        (payload.envelopeKind ≠ "dm" ∧ isStaleForCatchup client payload.sentAt nowMs = false ∧
          NamesKept host client payload) := by
  constructor
  · intro hblind
    by_contra hno
    simp only [not_or, not_and, Classical.not_not] at hno
    obtain ⟨⟨hpos, hid⟩, hb, hno⟩ := hno
    have hpos : 0 < serverSeq := by omega
    by_cases hk : payload.envelopeKind = "dm"
    · exact not_contentBlind_verbatim hpos hid hb remote (.inl hk) hblind
    cases ht : isStaleForCatchup client payload.sentAt nowMs with
    | true => exact not_contentBlind_verbatim hpos hid hb remote (.inr ht) hblind
    | false => exact not_contentBlind_names hpos hid hb remote hk ht (hno hk ht) hblind
  · rintro (h | hb | ⟨hk, ht, hn⟩)
    · exact contentBlind_unfiled h
    · cases hgate : blockedGate client payload with
      | none => exact contentBlind_held hgate
      | some verdict =>
        cases verdict with
        | some verdict => exact contentBlind_blocked hgate
        | none => exact absurd hgate hb
    · cases hgate : blockedGate client payload with
      | none => exact contentBlind_held hgate
      | some verdict =>
        cases verdict with
        | some verdict => exact contentBlind_blocked hgate
        | none => exact contentBlind_admitted hgate remote hk ht hn

/-- A stranger's channel message. -/
def strangerMessage : MessagePayload where
  envelopeId := "env-1"
  envelopeKind := "channel"
  senderSlug := "mallory"
  sentAt := 0
  contentType := "text/plain"
  content := .str "hello"
  isVisibleToHuman := true
  spaceId := some "space-1"
  channelId := some "channel-1"

theorem content_blind_stranger :
    strangerMessage.senderSlug ≠ (plainClient "" true).slug ∧
      ContentBlind asciiHost (plainClient "" true) ["agent"] strangerMessage 7 false 1000 :=
  ⟨by decide, (content_blind_iff asciiHost (plainClient "" true) ["agent"] strangerMessage 7 false 1000 (by decide)).2
    (.inr (.inr ⟨by decide, by decide, fun h => absurd h (by decide)⟩))⟩

/-- Two days late, a dict that calls itself a reminder is shown as one. -/
theorem stale_content_shown_as_reminder :
    ¬ ContentBlind asciiHost { plainClient "" true with catchupStaleMs := 172800000 } ["agent"] strangerMessage 7 false
      172800001 := by
  rintro ⟨sender, h⟩
  have hd : decision asciiHost { plainClient "" true with catchupStaleMs := 172800000 }
      { strangerMessage with content := .obj [("event_type", .str "reminder")] } 172800001
      (storedPayload { plainClient "" true with catchupStaleMs := 172800000 }
        { strangerMessage with content := .obj [("event_type", .str "reminder")] } false Tables.empty) =
      .file (storedPayload { plainClient "" true with catchupStaleMs := 172800000 }
        { strangerMessage with content := .obj [("event_type", .str "reminder")] } false Tables.empty)
        .terminal "stale catch-up" none := rfl
  obtain ⟨m, hl, hstamp⟩ := handle_files { strangerMessage with content := .obj [("event_type", .str "reminder")] } rfl
    (fresh_empty (by decide : (0 : Int) < 7) (by decide)) hd
  obtain ⟨facts, hp, -⟩ := h _ _ m none (by simp [Tables.empty]) hl
  have hget : (rowToMsg m).get "event_type" = some (.str "reminder") := by
    rw [StoredMessage.get, hstamp.content_eq]
    rfl
  have htype : eventType asciiHost (rowToMsg m) = "reminder" := by rw [eventType, hget]; rfl
  have hreminder : isReminderEvent (rowToMsg m) = true := by rw [isReminderEvent, hget]; rfl
  have hscheduled : ¬ (("reminder" : String) = "scheduled_task" ∧
      (rowToMsg m).row.receiptReason = some "scheduled task" ∧
      (rowToMsg m).row.receiptDisposition = some .localRuntime) := by simp
  rw [projectRow, htype, if_neg hscheduled, if_pos hreminder] at hp
  cases hp

end PuffoAgent.Ingress
