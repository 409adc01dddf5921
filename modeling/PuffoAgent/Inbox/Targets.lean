import Mathlib.Data.Bool.AllAny
import PuffoAgent.Inbox.Planner
import PuffoAgent.Inbox.Walk
import PuffoAgent.Reminders.Store

/-! The targets of messages: the reference that is shown of one, its parse, and the filter of the Inbox. -/
namespace PuffoAgent.Inbox
open Relational Store Text Projection
open Reminders (InboxTarget parseInboxTarget validSegment)

section Pieces
variable {cs rest : List Char} {s : String}

theorem splitChars_of_notMem {sep : Char} (h : sep ∉ cs) : splitChars sep cs = [cs] := by
  induction cs with
  | nil => rfl
  | cons c cs ih =>
    obtain ⟨hc, hcs⟩ := not_or.mp (mt List.mem_cons.mpr h)
    rw [splitChars, if_neg (Ne.symm hc), ih hcs]

theorem splitChars_append {sep : Char} (h : sep ∉ cs) : splitChars sep (cs ++ sep :: rest) = cs :: splitChars sep rest := by
  induction cs with
  | nil => exact if_pos rfl
  | cons c cs ih =>
    obtain ⟨hc, hcs⟩ := not_or.mp (mt List.mem_cons.mpr h)
    rw [List.cons_append, splitChars, if_neg (Ne.symm hc), ih hcs]

theorem dropWhile_isSpace (h : ∀ c ∈ cs, isSpace c = false) : cs.dropWhile isSpace = cs := by
  cases cs with
  | nil => rfl
  | cons c cs => rw [List.dropWhile_cons_of_neg (by rw [h c List.mem_cons_self]; nofun)]

/-- A text without white space has none to trim. -/
theorem strip_of_unspaced (h : ∀ c ∈ s.toList, isSpace c = false) : strip s = s := by
  rw [strip, dropWhile_isSpace h, dropWhile_isSpace (by simpa using h), List.reverse_reverse, String.ofList_toList]

/-- An identifier: no colon and no white space. It may be empty. -/
def IsId (s : String) : Prop := ':' ∉ s.toList ∧ ∀ c ∈ s.toList, isSpace c = false

theorem isId_empty : IsId "" := ⟨List.not_mem_nil, nofun⟩

theorem isId_of_all (h : s.toList.all fun c => c ≠ ':' ∧ isSpace c = false) : IsId s := by
  have hchar := List.all_iff_forall_prop.mp h
  exact ⟨fun hc => (hchar ':' hc).1 rfl, fun c hc => (hchar c hc).2⟩

theorem IsId.lstrip (h : IsId s) (c : Char) : IsId (lstrip c s) := by
  have hsub : ((s.toList.dropWhile (· = c))).Sublist s.toList := List.dropWhile_sublist _
  refine ⟨fun hmem => h.1 ?_, fun d hd => h.2 d ?_⟩
  · rw [Text.lstrip, String.toList_ofList] at hmem
    exact hsub.subset hmem
  · rw [Text.lstrip, String.toList_ofList] at hd
    exact hsub.subset hd

theorem validSegment_iff (h : IsId s) : validSegment s = true ↔ s ≠ "" := by
  rw [validSegment, decide_eq_true_eq, strip_of_unspaced h.2]
  exact and_iff_left rfl

/-- Identifiers that colons join come apart again. -/
theorem split_joined {ids : List String} (hne : ids ≠ []) (h : ∀ id ∈ ids, IsId id) : split (":".intercalate ids) ':' = ids := by
  have hparts : ∀ ids : List String, ids ≠ [] → (∀ id ∈ ids, IsId id) →
      splitChars ':' (":".intercalate ids).toList = ids.map String.toList := by
    intro ids hne h
    induction ids with
    | nil => exact absurd rfl hne
    | cons id ids ih =>
      cases ids with
      | nil =>
        rw [String.intercalate_singleton]
        exact splitChars_of_notMem (h id List.mem_cons_self).1
      | cons next ids =>
        have hrest := ih (List.cons_ne_nil next ids) fun id' hid => h id' (List.mem_cons_of_mem id hid)
        rw [String.intercalate_cons_cons, String.toList_append, String.toList_append]
        rw [List.append_assoc, show (":" : String).toList = [':'] from rfl, List.singleton_append,
          splitChars_append (h id List.mem_cons_self).1, hrest]
        rfl
  have hback : String.ofList ∘ String.toList = id := funext fun _ => String.ofList_toList
  rw [split, hparts ids hne h, List.map_map, hback, List.map_id]

theorem unspaced_joined {ids : List String} (h : ∀ id ∈ ids, IsId id) : ∀ c ∈ (":".intercalate ids).toList, isSpace c = false := by
  induction ids with
  | nil => nofun
  | cons id ids ih =>
    have hid := (h id List.mem_cons_self).2
    cases ids with
    | nil => rwa [String.intercalate_singleton]
    | cons next ids =>
      intro c hc
      rw [String.intercalate_cons_cons, String.toList_append, String.toList_append, List.mem_append, List.mem_append] at hc
      rcases hc with (hc | hc) | hc
      · exact hid c hc
      · rw [show (":" : String).toList = [':'] from rfl, List.mem_singleton] at hc
        rw [hc]
        decide
      · exact ih (fun id' hid' => h id' (List.mem_cons_of_mem id hid')) c hc

end Pieces
section Targets

/-- The targets that `canonical_target_parts` tells apart. -/
inductive Target where
  | dm (peer : String)
  | channel (spaceId channelId : String)
  | thread (spaceId channelId root : String)
  deriving DecidableEq, Repr

namespace Target

/-- The tuple of `canonical_target_parts`. -/
def tuple : Target → List String
  | .dm peer => ["dm", peer]
  | .channel spaceId channelId => ["channel", spaceId, channelId]
  | .thread spaceId channelId root => ["thread", spaceId, channelId, root]

/-- The parts of a reference. -/
def parts : Target → List String
  | .dm peer => ["dm", peer]
  | .channel spaceId channelId => ["channel", spaceId, channelId]
  | .thread spaceId channelId root => ["channel", spaceId, channelId, "thread", root]

/-- The reference of a target. -/
def reference (t : Target) : String := ":".intercalate t.parts

/-- The kind and the identifiers that a parse gives back. -/
def parsed : Target → InboxTarget
  | .dm peer => ⟨"dm", "", "", peer⟩
  | .channel spaceId channelId => ⟨"channel", spaceId, channelId, ""⟩
  | .thread spaceId channelId root => ⟨"channel", spaceId, channelId, root⟩

/-- The identifiers of a target. -/
def ids : Target → List String
  | .dm peer => [peer]
  | .channel spaceId channelId => [spaceId, channelId]
  | .thread spaceId channelId root => [spaceId, channelId, root]

variable {t t' : Target}

theorem isId_parts (h : ∀ id ∈ t.ids, IsId id) : ∀ id ∈ t.parts, IsId id := by
  have hnames : IsId "dm" ∧ IsId "channel" ∧ IsId "thread" := by
    refine ⟨isId_of_all (by decide), isId_of_all (by decide), isId_of_all (by decide)⟩
  cases t <;> simp only [ids, parts, List.forall_mem_cons] at h ⊢
  · exact ⟨hnames.1, h⟩
  · exact ⟨hnames.2.1, h⟩
  · exact ⟨hnames.2.1, h.1, h.2.1, hnames.2.2, h.2.2⟩

theorem parts_ne_nil : t.parts ≠ [] := by
  cases t <;> exact List.cons_ne_nil _ _

theorem tuple_injective : Function.Injective tuple := by
  intro t t' h
  cases t <;> cases t' <;> simp_all [tuple]

theorem parts_injective : Function.Injective parts := by
  intro t t' h
  cases t <;> cases t' <;> simp_all [parts]

/-- References of different targets differ. -/
theorem reference_inj (h : ∀ id ∈ t.ids, IsId id) (h' : ∀ id ∈ t'.ids, IsId id) : t.reference = t'.reference ↔ t = t' := by
  refine ⟨fun he => parts_injective ?_, congrArg reference⟩
  rw [← split_joined parts_ne_nil (isId_parts h), ← split_joined parts_ne_nil (isId_parts h')]
  exact congrArg (split · ':') he

theorem reference_ne_empty : t.reference ≠ "" := by
  intro h
  have hchars := congrArg String.toList h
  cases t <;> simp [reference, parts] at hchars

/-- The parse of a reference gives the target back if it names all that it has to. -/
theorem parse_reference (h : ∀ id ∈ t.ids, IsId id) :
    parseInboxTarget t.reference = if ∀ id ∈ t.ids, id ≠ "" then .ok t.parsed else .error parseInboxTarget.malformed := by
  have hstrip : strip t.reference = t.reference := strip_of_unspaced (unspaced_joined (isId_parts h))
  have hsplit : split t.reference ':' = t.parts := split_joined parts_ne_nil (isId_parts h)
  rw [parseInboxTarget, if_neg (not_or.mpr ⟨reference_ne_empty, not_not_intro hstrip.symm⟩), hsplit]
  cases t with
  | dm peer =>
    rw [ids, List.forall_mem_singleton] at h
    simp [parts, ids, parsed, validSegment_iff h]
  | channel spaceId channelId =>
    simp only [ids, List.forall_mem_cons] at h
    simp [parts, ids, parsed, validSegment_iff h.1, validSegment_iff h.2.1]
  | thread spaceId channelId root =>
    simp only [ids, List.forall_mem_cons] at h
    simp [parts, ids, parsed, validSegment_iff h.1, validSegment_iff h.2.1, validSegment_iff h.2.2.1]

/-- Targets that a parse gives for the same text are the same, as no thread is one of the empty root. -/
theorem eq_of_parsed (h : ∀ id ∈ t.ids, id ≠ "") (h' : ∀ spaceId channelId, t' ≠ .thread spaceId channelId "")
    (he : t.parsed = t'.parsed) : t = t' := by
  cases t <;> cases t' <;> simp_all [parsed, ids]

end Target
end Targets
section Messages
variable (host : Host) (aliases : List String) (m : StoredMessage)

/-- The peer of `canonical_target_parts`. -/
def canonicalPeer : String := if m.row.senderSlug ≠ "" then m.row.senderSlug else m.row.recipientSlug.getD ""

/-- The target of a message. -/
def messageTarget : Target :=
  if m.row.envelopeKind = "dm" then .dm (canonicalPeer m)
  else if effectiveThreadRoot host m "" ≠ "" then
    .thread (m.row.spaceId.getD "") (m.row.channelId.getD "") (effectiveThreadRoot host m "")
  else .channel (m.row.spaceId.getD "") (m.row.channelId.getD "")

/-- `target_ref`. -/
def targetRef (threadRootId : String) : String :=
  if isDm m then "dm:" ++ dmPeer host aliases m
  else
    let base := "channel:" ++ m.row.spaceId.getD "" ++ ":" ++ m.row.channelId.getD ""
    let root := effectiveThreadRoot host m threadRootId
    if root ≠ "" then base ++ ":thread:" ++ root else base

/-- The space, channel, thread and slug identifiers of a message. -/
structure PlainIds : Prop where
  space : IsId (m.row.spaceId.getD "")
  channel : IsId (m.row.channelId.getD "")
  root : IsId (m.row.threadRootId.getD "")
  sender : IsId m.row.senderSlug
  recipient : IsId (m.row.recipientSlug.getD "")

/-- The message says where it belongs: a direct message has a peer, and it is the one that is shown; any other
message has a space and a channel. -/
def Located : Prop :=
  if m.row.envelopeKind = "dm" then canonicalPeer m ≠ "" ∧ dmPeer host aliases m = canonicalPeer m
  else m.row.spaceId.getD "" ≠ "" ∧ m.row.channelId.getD "" ≠ ""

variable {host aliases m}

/-- The reference of a place in a channel. -/
theorem reference_place {spaceId channelId root : String} :
    (if root ≠ "" then "channel:" ++ spaceId ++ ":" ++ channelId ++ ":thread:" ++ root
      else "channel:" ++ spaceId ++ ":" ++ channelId) =
      (if root ≠ "" then Target.thread spaceId channelId root else .channel spaceId channelId).reference := by
  split_ifs <;> simp [Target.reference, Target.parts, String.intercalate_cons_cons, ← String.toList_inj]

theorem reference_dm (peer : String) : "dm:" ++ peer = (Target.dm peer).reference := by
  simp [Target.reference, Target.parts, String.intercalate_cons_cons]

theorem canonicalTargetParts_eq : canonicalTargetParts host m = (messageTarget host m).tuple := by
  unfold canonicalTargetParts messageTarget canonicalPeer
  dsimp only
  split_ifs <;> rfl

/-- `target_projection` is the reference of the message's target. -/
theorem targetProjection_eq : targetProjection host m = (messageTarget host m).reference := by
  unfold targetProjection messageTarget
  by_cases hdm : m.row.envelopeKind = "dm"
  · rw [if_pos hdm, if_pos hdm]
    exact reference_dm _
  · rw [if_neg hdm, if_neg hdm]
    exact reference_place

theorem PlainIds.effectiveRoot (h : PlainIds m) : IsId (effectiveThreadRoot host m "") := by
  unfold effectiveThreadRoot
  rw [if_neg (not_not_intro rfl)]
  split_ifs
  · exact h.root
  · exact isId_empty
  · exact h.root

theorem PlainIds.dmPeer (h : PlainIds m) : IsId (dmPeer host aliases m) := by
  have hunknown : IsId "unknown" := isId_of_all (by decide)
  unfold Projection.dmPeer
  dsimp only
  split_ifs
  · exact h.recipient.lstrip '@'
  · exact h.sender.lstrip '@'
  · exact h.recipient.lstrip '@'
  · exact hunknown.lstrip '@'

theorem PlainIds.targetIds (h : PlainIds m) : ∀ id ∈ (messageTarget host m).ids, IsId id := by
  unfold messageTarget canonicalPeer
  split_ifs <;> simp only [Target.ids, List.forall_mem_cons]
  · exact ⟨h.sender, nofun⟩
  · exact ⟨h.recipient, nofun⟩
  · exact ⟨h.space, h.channel, h.effectiveRoot, nofun⟩
  · exact ⟨h.space, h.channel, nofun⟩

theorem messageTarget_ne_rootless (spaceId channelId : String) : messageTarget host m ≠ .thread spaceId channelId "" := by
  unfold messageTarget
  split_ifs with _ hroot
  · nofun
  · exact fun h => hroot (Target.thread.inj h).2.2
  · nofun

/-- A message that is located is shown under its own target, and no other one is. -/
theorem parse_targetRef_iff (h : PlainIds m) :
    parseInboxTarget (targetRef host aliases m "") = .ok (messageTarget host m).parsed ↔ Located host aliases m := by
  have hshown {t : Target} (ht : ∀ id ∈ t.ids, IsId id) : parseInboxTarget t.reference = .ok (messageTarget host m).parsed ↔
      t = messageTarget host m ∧ ∀ id ∈ t.ids, id ≠ "" := by
    rw [Target.parse_reference ht]
    split_ifs with hids
    · refine ⟨fun he => ⟨Target.eq_of_parsed hids messageTarget_ne_rootless (Except.ok.inj he), hids⟩, fun he => ?_⟩
      rw [he.1]
    · exact iff_of_false nofun fun he => hids he.2
  unfold targetRef Located
  by_cases hdm : m.row.envelopeKind = "dm"
  · rw [if_pos (by rw [isDm, decide_eq_true_eq]; exact .inr hdm), reference_dm,
      hshown (by rw [Target.ids, List.forall_mem_singleton]; exact h.dmPeer), if_pos hdm, messageTarget, if_pos hdm,
      Target.ids, List.forall_mem_singleton, Target.dm.injEq]
    constructor
    · rintro ⟨hpeer, hne⟩
      exact ⟨hpeer ▸ hne, hpeer⟩
    · rintro ⟨hne, hpeer⟩
      exact ⟨hpeer, hpeer ▸ hne⟩
  · rw [if_neg hdm]
    by_cases hchannel : m.row.channelId.getD "" = ""
    · rw [if_pos (by rw [isDm, decide_eq_true_eq]; exact .inl hchannel), reference_dm,
        hshown (by rw [Target.ids, List.forall_mem_singleton]; exact h.dmPeer), messageTarget, if_neg hdm]
      refine iff_of_false (fun he => ?_) fun he => he.2 hchannel
      have hkind := he.1
      split_ifs at hkind
    · have hplace : (if effectiveThreadRoot host m "" ≠ "" then
          Target.thread (m.row.spaceId.getD "") (m.row.channelId.getD "") (effectiveThreadRoot host m "")
          else .channel (m.row.spaceId.getD "") (m.row.channelId.getD "")) = messageTarget host m := by
        rw [messageTarget, if_neg hdm]
      rw [if_neg (by rw [isDm, decide_eq_true_eq]; exact not_or.mpr ⟨hchannel, hdm⟩)]
      dsimp only
      rw [reference_place, hplace, hshown h.targetIds, and_iff_right rfl, ← hplace]
      split_ifs with hroot
      · simp only [Target.ids, List.forall_mem_cons]
        exact ⟨fun he => ⟨he.1, he.2.1⟩, fun he => ⟨he.1, he.2, hroot, nofun⟩⟩
      · simp only [Target.ids, List.forall_mem_cons]
        exact ⟨fun he => ⟨he.1, he.2.1⟩, fun he => ⟨he.1, he.2, nofun⟩⟩

/-- What is shown of a located message is its projection in the store. -/
theorem targetRef_eq (h : Located host aliases m) : targetRef host aliases m "" = targetProjection host m := by
  unfold Located at h
  unfold targetRef targetProjection
  by_cases hdm : m.row.envelopeKind = "dm"
  · rw [if_pos hdm] at h ⊢
    rw [if_pos (by rw [isDm, decide_eq_true_eq]; exact .inr hdm), h.2]
    rfl
  · rw [if_neg hdm] at h ⊢
    rw [if_neg (by rw [isDm, decide_eq_true_eq]; exact not_or.mpr ⟨h.2, hdm⟩)]

theorem mem_pendingIn_iff {s : Tables} {target : String} (hne : target ≠ "") {m : StoredMessage} :
    m ∈ pendingIn host s target ↔ m ∈ (pendingRows s).map rowToMsg ∧ targetProjection host m = target := by
  rw [pendingIn, List.mem_filter, decide_eq_true_eq, or_iff_right hne]

/-- For messages whose identifiers hold no colon and no white space: the reference that is shown of one is parsed
to its own target if and only if the message is located; projections are equal exactly where targets are; and the
filter of the Inbox, given that reference, selects the pending messages with that projection. -/
theorem target_references_round_trip (host : Host) (aliases : List String) (m : StoredMessage) (h : PlainIds m) :
    (parseInboxTarget (targetRef host aliases m "") = .ok (messageTarget host m).parsed ↔ Located host aliases m) ∧
    (∀ m', PlainIds m' →
      (targetProjection host m = targetProjection host m' ↔ canonicalTargetParts host m = canonicalTargetParts host m')) ∧
    (Located host aliases m → ∀ s m', m' ∈ pendingIn host s (targetRef host aliases m "") ↔
      m' ∈ (pendingRows s).map rowToMsg ∧ targetProjection host m' = targetProjection host m) := by
  refine ⟨parse_targetRef_iff h, fun m' h' => ?_, fun hlocated s m' => ?_⟩
  · rw [targetProjection_eq, targetProjection_eq, Target.reference_inj h.targetIds h'.targetIds, canonicalTargetParts_eq,
      canonicalTargetParts_eq]
    exact Target.tuple_injective.eq_iff.symm
  · rw [targetRef_eq hlocated, mem_pendingIn_iff]
    rw [targetProjection_eq]
    exact Target.reference_ne_empty

/-- A post whose row names no space. -/
def spacelessPost : StoredMessage := rowToMsg (payloadValues { envelopeId := "m", senderSlug := "alice", channelId := "ch", sentAt := 0 } 0)

/-- A direct message that the agent sent. -/
def ownMessage : StoredMessage :=
  rowToMsg (payloadValues { envelopeId := "m", envelopeKind := "dm", senderSlug := "bot", recipientSlug := "alice", sentAt := 0 } 0)

theorem plainIds_samples : PlainIds spacelessPost ∧ PlainIds ownMessage := by
  refine ⟨⟨?_, ?_, ?_, ?_, ?_⟩, ⟨?_, ?_, ?_, ?_, ?_⟩⟩ <;> exact isId_of_all (by decide)

/-- The reference of a post without a space is not parsed, and the one of a message that the agent sent names the
other party, whereas the store keeps it under the agent. -/
theorem reference_misses_target :
    (PlainIds spacelessPost ∧ targetRef asciiHost ["bot"] spacelessPost "" = "channel::ch" ∧
      parseInboxTarget (targetRef asciiHost ["bot"] spacelessPost "") ≠ .ok (messageTarget asciiHost spacelessPost).parsed) ∧
    PlainIds ownMessage ∧ targetRef asciiHost ["bot"] ownMessage "" = "dm:alice" ∧
      targetProjection asciiHost ownMessage = "dm:bot" ∧
      parseInboxTarget (targetRef asciiHost ["bot"] ownMessage "") ≠ .ok (messageTarget asciiHost ownMessage).parsed := by
  obtain ⟨hspaceless, hown⟩ := plainIds_samples
  refine ⟨⟨hspaceless, by decide +kernel, ?_⟩, hown, by decide +kernel, by decide +kernel, ?_⟩
  · rw [Ne, parse_targetRef_iff hspaceless]
    exact fun h => h.1 rfl
  · rw [Ne, parse_targetRef_iff hown]
    intro h
    exact absurd h.2 (by decide +kernel)

/-- Seen by another agent, the same message is located. -/
theorem target_references_round_trip_dm :
    parseInboxTarget (targetRef asciiHost [] ownMessage "") = .ok ⟨"dm", "", "", "bot"⟩ := by
  refine (target_references_round_trip asciiHost [] ownMessage plainIds_samples.2).1.mpr ⟨?_, ?_⟩
  · decide +kernel
  · decide +kernel

end Messages
end PuffoAgent.Inbox
