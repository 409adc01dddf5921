import PuffoAgent.Ingress.Handler
import PuffoAgent.Projection.Row

/-! What the projection reads off the content of an admitted message: the sender as it was
looked up, the files that were saved and the mentions of its text. -/
namespace PuffoAgent.Ingress
open Store Text Projection

section Mentions

theorem slugAt_starts {cs slug : List Char} (h : slugAt cs = some slug) : slug <+: cs := by
  cases cs with
  | nil => cases h
  | cons c cs =>
    rw [slugAt] at h
    split at h
    · obtain ⟨run, hr, rfl⟩ := Option.map_eq_some_iff.1 h
      have hrun : run <+: cs.takeWhile isSlugChar :=
        (List.mem_inits _ _).1 (List.mem_reverse.1 (List.mem_of_find?_eq_some hr))
      exact (List.prefix_cons_inj c).2 (hrun.trans (List.takeWhile_prefix _))
    · cases h

theorem mentionAfter_starts {cs slug : List Char} (h : mentionAfter cs = some slug) : '@' :: slug <+: cs := by
  unfold mentionAfter at h
  split at h
  · exact (List.prefix_cons_inj '@').2 (slugAt_starts h)
  · cases h

theorem mentionAt_infix {isWord : Char → Bool} {atStart : Bool} {cs slug : List Char} {width : Nat}
    (h : mentionAt isWord atStart cs = some (slug, width)) : '@' :: slug <:+: cs := by
  unfold mentionAt at h
  split at h
  · rename_i slug' hm
    cases h
    split at hm
    · exact (mentionAfter_starts hm).isInfix
    · cases hm
  · split at h
    · cases h
    · rename_i _ c cs' _
      split at h
      · cases h
      · obtain ⟨slug', hm, he⟩ := Option.map_eq_some_iff.1 h
        cases he
        exact (mentionAfter_starts hm).isInfix.trans (List.suffix_cons c cs').isInfix

/-- Every mention that is found stands in the text. -/
theorem mentionSlugs_infix {isWord : Char → Bool} {slug : List Char} {cs : List Char} {atStart : Bool} {skip : Nat}
    (h : slug ∈ mentionSlugs isWord atStart skip cs) : '@' :: slug <:+: cs := by
  induction cs generalizing atStart skip with
  | nil => cases skip <;> cases h
  | cons c cs ih =>
    have hlater {atStart : Bool} {skip : Nat} (h : slug ∈ mentionSlugs isWord atStart skip cs) : '@' :: slug <:+: c :: cs :=
      (ih h).trans (List.suffix_cons c cs).isInfix
    cases skip with
    | succ skip => exact hlater h
    | zero =>
      rw [mentionSlugs] at h
      split at h
      · rename_i found width hm
        rcases List.mem_cons.1 h with rfl | h
        · exact mentionAt_infix hm
        · exact hlater h
      · exact hlater h

end Mentions

/-- The text mentions the identity: by its slug, or by the client's in another case. -/
def Mentioned (host : Host) (client : Client) (text : String) (mention : Mention) : Prop :=
  ∃ slug, '@' :: slug <:+: text.toList ∧
    (mention.identity = "@" ++ lstrip '@' (host.lower (String.ofList slug)) ∨
      (host.lower (String.ofList slug) = host.lower client.slug ∧ mention.identity = "@" ++ lstrip '@' client.slug))

section Sender
variable (host : Host) (aliases : List String) (payload : MessagePayload)

/-- What a message row says about its sender. -/
structure SenderFacts where
  identity : String
  type : String
  self : Bool
  displayName : String
  ownerSlug : String
  humanVisible : Option Bool

def senderFacts (facts : MessageFacts) : SenderFacts :=
  ⟨facts.senderIdentity, facts.senderType, facts.self, facts.displayName, facts.ownerSlug, facts.humanVisible⟩

/-- What the envelope says about its sender, beside what was looked up of the sender. -/
def envelopeFacts (rosterType displayName ownerSlug : String) (humanVisible : Option Bool) : SenderFacts where
  identity := "@" ++ lstrip '@' (if payload.senderSlug ≠ "" then payload.senderSlug else "unknown")
  type := if rosterType ≠ "" then rosterType
    else if normalizedSlug host payload.senderSlug = "system" then "system"
    else if payload.envelopeKind = "system" ∨ payload.envelopeKind = "runtime" then "system"
    else if isAlias host aliases payload.senderSlug then "agent"
    else "unknown"
  self := isAlias host aliases (lstrip '@' (if payload.senderSlug ≠ "" then payload.senderSlug else "unknown"))
  displayName := displayName
  ownerSlug := lstrip '@' ownerSlug
  humanVisible := humanVisible

end Sender

section Projected
variable {host : Host} {client : Client} {aliases : List String} {payload : MessagePayload} {saved : List String}
  {m : StoredMessage}

theorem member_append_of_ne {key : String} {members others : List (String × Json)} (h : ∀ kv ∈ others, kv.1 ≠ key) :
    Json.member key (.obj (members ++ others)) = Json.member key (.obj members) := by
  have hnone : others.reverse.find? (fun kv => decide (kv.1 = key)) = none :=
    List.find?_eq_none.2 fun kv hkv => by simpa using h kv (List.mem_reverse.1 hkv)
  simp only [Json.member, List.reverse_append, List.find?_append, hnone, Option.none_or]

/-- What the projection finds in the content of an admitted message. -/
theorem promptContent_member (host : Host) (client : Client) (payload : MessagePayload) (saved : List String) :
    let content := promptContent host client payload saved
    content.member "event_type" = none ∧ content.member "sender_is_bot" = none ∧
    content.member "sender_is_human" = none ∧
    content.member "attachment_paths" = some (.arr (saved.map .str)) ∧
    content.member "mentions" = some (.arr (mentionEntries host client payload (rawText host payload)).1) ∧
    content.member "sender_display_name" = some (.str (client.fetchDisplayName payload.senderSlug)) ∧
    content.member "sender_owner_slug" = some (.str (client.fetchOwnerSlug payload.senderSlug)) ∧
    content.member "is_from_operator" = some (.bool (isFromOperator client payload)) ∧
    content.member "sender_is_agent" = some (.bool (client.fetchOwnerSlug payload.senderSlug ≠ "")) ∧
    content.member "is_visible_to_human" = some (.bool payload.isVisibleToHuman) := by
  have hne (key : String) (h : key ≠ "original_content") (h' : key ≠ "sender_type") :
      ∀ kv ∈ (if rawText host payload ≠ promptText host client payload then
        [("original_content", payload.content)] else []) ++
      (if rosterType client payload ≠ "" then [("sender_type", Json.str (rosterType client payload))] else []),
      kv.1 ≠ key := by
    intro kv hkv
    rcases List.mem_append.1 hkv with hkv | hkv
    · split at hkv
      · rw [List.mem_singleton.1 hkv]
        exact h.symm
      · cases hkv
    · split at hkv
      · rw [List.mem_singleton.1 hkv]
        exact h'.symm
      · cases hkv
  simp only [promptContent, List.append_assoc]
  refine ⟨?_, ?_, ?_, ?_, ?_, ?_, ?_, ?_, ?_, ?_⟩ <;>
    (rw [member_append_of_ne (hne _ (by decide) (by decide))]; rfl)

theorem promptContent_statedType (hc : m.content = promptContent host client payload saved) :
    statedType m = .str (rosterType client payload) := by
  have hlast (members : List (String × Json)) (type : String) :
      Json.member "sender_type" (.obj (members ++ [("sender_type", .str type)])) = some (.str type) := by
    simp [Json.member]
  by_cases hr : rosterType client payload = ""
  · have hempty : ¬ rosterType client payload ≠ "" := by simp [hr]
    have hnone : m.get "sender_type" = none := by
      rw [StoredMessage.get, hc, promptContent, if_neg hempty, List.append_nil]
      split <;> rfl
    rw [statedType, hnone, hr]
  · rw [statedType, StoredMessage.get, hc, promptContent, if_pos hr, hlast]
    simp [Json.truthy, hr]

theorem rosterType_cases (client : Client) (payload : MessagePayload) :
    rosterType client payload = "human" ∨ rosterType client payload = "agent" ∨
      (rosterType client payload = "" ∧ client.fetchOwnerSlug payload.senderSlug = "" ∧
        isFromOperator client payload = false) := by
  unfold rosterType
  split_ifs with howner hop hspace
  · exact .inr (.inl rfl)
  · exact .inl rfl
  · exact .inr (.inr ⟨rfl, by simpa using howner, by simpa using hop⟩)
  · split
    · split_ifs with ht
      · rcases ht with rfl | rfl
        · exact .inl rfl
        · exact .inr (.inl rfl)
      · exact .inr (.inr ⟨rfl, by simpa using howner, by simpa using hop⟩)
    · exact .inr (.inr ⟨rfl, by simpa using howner, by simpa using hop⟩)

theorem text_str (host : Host) (s : String) : host.text (some (.str s)) = s := by
  by_cases h : s = ""
  · rw [h]
    rfl
  · simp [Host.text, Json.truthy, h, host.str_str]

theorem promptContent_senderType (hs : m.row.senderSlug = payload.senderSlug)
    (hk : m.row.envelopeKind = payload.envelopeKind) (hc : m.content = promptContent host client payload saved) :
    senderType host aliases m = .ok (envelopeFacts host aliases payload (rosterType client payload) "" "" none).type := by
  rw [senderType_stated (promptContent_statedType hc)]
  rcases rosterType_cases client payload with hr | hr | ⟨hr, howner, hop⟩
  · simp [envelopeFacts, hr]
  · simp [envelopeFacts, hr]
  · obtain ⟨-, hbot, hhuman, -, -, -, hslug, hoperator, hagent, -⟩ := promptContent_member host client payload saved
    simp [envelopeFacts, hr, inferredType, StoredMessage.flag, StoredMessage.get, hc, hs, hk, hbot, hhuman, hslug,
      hoperator, hagent, howner, hop, Json.truthy]

/-- The row of an admitted message says of its sender what was looked up. -/
theorem promptContent_projects (host : Host) (client : Client) (aliases : List String) (payload : MessagePayload)
    (hs : m.row.senderSlug = payload.senderSlug)
    (hk : m.row.envelopeKind = payload.envelopeKind) (hc : m.content = promptContent host client payload saved)
    (replyCount : Option Nat) :
    ∃ facts, projectRow host aliases m replyCount = .ok (.message facts) ∧
      senderFacts facts = envelopeFacts host aliases payload (rosterType client payload)
        (client.fetchDisplayName payload.senderSlug) (client.fetchOwnerSlug payload.senderSlug)
        (some payload.isVisibleToHuman) ∧
      facts.attachmentPaths = attachmentPaths host m ∧ facts.mentions = mentions host m := by
  obtain ⟨hevent, -, -, -, -, hname, hslug, -, -, hvisible⟩ := promptContent_member host client payload saved
  rw [projectRow_message (by rw [StoredMessage.get, hc]; exact hevent), messageFacts,
    promptContent_senderType hs hk hc]
  refine ⟨_, rfl, ?_, rfl, rfl⟩
  simp only [senderFacts, author, hs, humanVisible, StoredMessage.get, hc, hname, hslug, hvisible, text_str]
  rfl

/-- Content that is a bare text says nothing of the sender. -/
theorem plainText_projects (host : Host) (aliases : List String) (payload : MessagePayload) {text : String}
    (hs : m.row.senderSlug = payload.senderSlug)
    (hk : m.row.envelopeKind = payload.envelopeKind) (hc : m.content = .str text) (replyCount : Option Nat) :
    ∃ facts, projectRow host aliases m replyCount = .ok (.message facts) ∧
      senderFacts facts = envelopeFacts host aliases payload "" "" "" none ∧
      facts.attachmentPaths = [] ∧ facts.mentions = [] := by
  have hget (key : String) : m.get key = none := by rw [StoredMessage.get, hc]; rfl
  have hstated : statedType m = .str "" := by rw [statedType, hget]
  have htype : senderType host aliases m = .ok (envelopeFacts host aliases payload "" "" "" none).type := by
    rw [senderType_stated hstated]
    simp [envelopeFacts, inferredType, StoredMessage.flag, hget, hs, hk]
  rw [projectRow_message (hget _), messageFacts, htype]
  refine ⟨_, rfl, ?_, ?_, ?_⟩
  · simp only [senderFacts, author, hs, humanVisible, hget]
    rfl
  · simp [attachmentPaths, hget]
  · simp [mentions, hget]

theorem mention?_identity {username : String} {isAgent isSelf : Bool} {mention : Mention}
    (h : mention? host (.obj [("username", .str username), ("is_agent", .bool isAgent), ("is_self", .bool isSelf)]) =
      some mention) : mention.identity = "@" ++ lstrip '@' username := by
  have huser : Json.member "username" (.obj [("username", .str username), ("is_agent", .bool isAgent),
      ("is_self", .bool isSelf)]) = some (.str username) := rfl
  have hslug : Json.member "slug" (.obj [("username", .str username), ("is_agent", .bool isAgent),
      ("is_self", .bool isSelf)]) = none := rfl
  have hname : (if (some (Json.str username)).any Json.truthy then username else "") = username := by
    by_cases hu : username = ""
    · simp [hu]
    · simp [Json.truthy, hu]
  have hnone : host.text none = "" := rfl
  simp only [mention?, huser, hslug, text_str, hnone, hname] at h
  split at h
  · cases h
  · cases h
    rfl

theorem mentionEntry_username {members : List (String × String)} {slug : String} {entry : Json}
    (h : mentionEntry host client members slug = some entry) :
    ∃ username isAgent isSelf, entry = .obj [("username", .str username), ("is_agent", .bool isAgent),
      ("is_self", .bool isSelf)] ∧ (username = slug ∨ (slug = host.lower client.slug ∧ username = client.slug)) := by
  unfold mentionEntry at h
  split_ifs at h with hself hmember
  · cases h
    exact ⟨client.slug, true, true, rfl, .inr ⟨hself, rfl⟩⟩
  · cases h
    exact ⟨slug, _, false, rfl, .inl rfl⟩

theorem mem_parsedMentions {text slug : String} (h : slug ∈ parsedMentions host text) :
    ∃ found, '@' :: found <:+: text.toList ∧ slug = host.lower (String.ofList found) := by
  rw [parsedMentions, List.mem_reverse, List.mem_dedup, List.mem_reverse, List.mem_map] at h
  obtain ⟨found, hf, rfl⟩ := h
  exact ⟨found, mentionSlugs_infix hf, rfl⟩

/-- The mentions of an admitted message stand in its text. -/
theorem promptContent_mentioned (hm : m.get "mentions" = some (.arr (mentionEntries host client payload (rawText host payload)).1))
    {mention : Mention} (h : mention ∈ mentions host m) : Mentioned host client (rawText host payload) mention := by
  rw [mentions, hm] at h
  obtain ⟨entry, hentry, hmention⟩ := List.mem_filterMap.1 h
  obtain ⟨slug, hslug, he⟩ := List.mem_filterMap.1 hentry
  obtain ⟨username, isAgent, isSelf, rfl, hname⟩ := mentionEntry_username he
  obtain ⟨found, hfound, rfl⟩ := mem_parsedMentions hslug
  have hid := mention?_identity hmention
  rcases hname with rfl | ⟨hself, rfl⟩
  · exact ⟨found, hfound, .inl hid⟩
  · exact ⟨found, hfound, .inr ⟨hself, hid⟩⟩

theorem promptContent_attachmentPaths (hm : m.get "attachment_paths" = some (.arr (saved.map .str))) {shown : String}
    (h : shown ∈ attachmentPaths host m) : ∃ path ∈ saved, shown = modelAttachmentPath path := by
  rw [attachmentPaths, hm, Option.some_or] at h
  obtain ⟨entry, hentry, hshown⟩ := List.mem_filterMap.1 h
  obtain ⟨path, hpath, rfl⟩ := List.mem_map.1 hentry
  refine ⟨path, hpath, ?_⟩
  split at hshown
  · cases hshown
  · cases hshown
  · rw [host.str_str, Option.some.injEq] at hshown
    exact hshown.symm

end Projected
end PuffoAgent.Ingress
