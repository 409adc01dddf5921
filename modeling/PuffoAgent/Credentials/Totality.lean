import PuffoAgent.Credentials.Replies

/-! Where the parsing of filed replies raises, and what that does to the messages that come after. -/
namespace PuffoAgent.Credentials
open Text

section Decoding

/-- What `json.loads` makes of the body of a block; a nesting beyond the limit of the interpreter is no `ValueError`. -/
inductive Decoded where
  | value (data : Json)
  | valueError
  | recursionError

/-- `json.loads` without limits of the interpreter. -/
def unlimited (body : String) : Decoded := (Json.loads body).elim .valueError .value

/-- The checks of `parse_filed_reply` on a decoded block. -/
def checkData (data : Json) : Block :=
  match data.member "request_id" with
  | some (.str rid) =>
    if isUuid4 rid = false then .skipped
    else match data.member "type" with
      | some (.arr _) | some (.obj _) => .raises
      | some (.str ctype) =>
        if ctype ∉ requestableTypes then .skipped
        else match data.member "index", data.member "version" with
          | some (.int index), some (.int version) =>
            if index < 0 ∨ version < 1 then .skipped else .reply ⟨rid, ctype, index.toNat, version.toNat⟩
          | _, _ => .skipped
      | _ => .skipped
  | _ => .skipped

variable (decode : String → Decoded)

def decodeBlock (body : String) : Block :=
  match decode body with
  | .value data => checkData data
  | .valueError => .skipped
  | .recursionError => .raises

/-- The first block that is not passed over. -/
def firstBlock : List String → Block
  | [] => .skipped
  | body :: bodies => match decodeBlock decode body with
    | .skipped => firstBlock bodies
    | found => found

/-- The bodies of the filed blocks of a text. -/
def filedBodies (text : String) : List String :=
  ((fences (text.toList.length + 1) text.toList).filter (·.1 = filedFence)).map (·.2)

/-- `parse_filed_reply`, with what decodes the blocks. -/
def parseReply (text : String) : Block := firstBlock decode (filedBodies text)

end Decoding
section Blocks

/-- A block that is a reply. -/
structure Valid (data : Json) (filed : Filed) : Prop where
  requestId : data.member "request_id" = some (.str filed.requestId)
  uuid4 : isUuid4 filed.requestId = true
  type : data.member "type" = some (.str filed.type)
  requestable : filed.type ∈ requestableTypes
  index : data.member "index" = some (.int filed.index)
  version : data.member "version" = some (.int filed.version)
  positive : 1 ≤ filed.version

/-- A list or a dictionary, which no set can be asked for. -/
def Unhashable : Json → Prop
  | .arr _ | .obj _ => True
  | _ => False

/-- A block whose type cannot be looked up. -/
structure Untypable (data : Json) : Prop where
  uuid4 : ∃ rid, data.member "request_id" = some (.str rid) ∧ isUuid4 rid = true
  type : ∃ ctype, data.member "type" = some ctype ∧ Unhashable ctype

variable (decode : String → Decoded)

def IsReply (body : String) (filed : Filed) : Prop := ∃ data, decode body = .value data ∧ Valid data filed

/-- A block that raises: it nests too deep, or its type is a list or a dictionary under a well-formed request id. -/
def Hostile (body : String) : Prop :=
  decode body = .recursionError ∨ ∃ data, decode body = .value data ∧ Untypable data

/-- Every block that raises comes after a valid one. -/
def Benign (bodies : List String) : Prop :=
  ∀ before body after, bodies = before ++ body :: after → Hostile decode body →
    ∃ b ∈ before, ∃ filed, IsReply decode b filed

/-- What is to come of the filed blocks: nothing where none is valid, or else the reply of the first that is. -/
def FromFirst (bodies : List String) : Block → Prop
  | .skipped => ∀ b ∈ bodies, ∀ filed, ¬ IsReply decode b filed
  | .reply filed => ∃ before body after, bodies = before ++ body :: after ∧ IsReply decode body filed ∧
      ∀ b ∈ before, ∀ filed', ¬ IsReply decode b filed'
  | .raises => False

variable {decode} {data : Json} {filed : Filed} {body : String} {bodies : List String}

theorem checkData_reply_iff : checkData data = .reply filed ↔ Valid data filed := by
  constructor
  · intro h
    rw [checkData] at h
    split at h
    · next rid hrid =>
      split_ifs at h with huuid
      split at h
      · cases h
      · cases h
      · next ctype htype =>
        split_ifs at h with hrequestable
        split at h
        · next index version hindex hversion =>
          split_ifs at h with hbounds
          cases h
          obtain ⟨hnonneg, hpos⟩ := not_or.mp hbounds
          refine ⟨hrid, Bool.eq_true_of_not_eq_false huuid, htype, hrequestable, ?_, ?_, ?_⟩
          · rw [hindex, Int.toNat_of_nonneg (not_lt.mp hnonneg)]
          · rw [hversion, Int.toNat_of_nonneg (by omega)]
          · change 1 ≤ version.toNat
            omega
        · cases h
      · cases h
    · cases h
  · rintro ⟨hrid, huuid, htype, hrequestable, hindex, hversion, hpos⟩
    have hbounds : ¬ ((filed.index : Int) < 0 ∨ (filed.version : Int) < 1) := by omega
    simp only [checkData, hrid, htype, hindex, hversion, huuid, hrequestable, hbounds]
    rfl

theorem checkData_raises_iff : checkData data = .raises ↔ Untypable data := by
  constructor
  · intro h
    rw [checkData] at h
    split at h
    · next rid hrid =>
      split_ifs at h with huuid
      have hid : ∃ rid, data.member "request_id" = some (.str rid) ∧ isUuid4 rid = true :=
        ⟨rid, hrid, Bool.eq_true_of_not_eq_false huuid⟩
      split at h
      · next items htype => exact ⟨hid, .arr items, htype, trivial⟩
      · next members htype => exact ⟨hid, .obj members, htype, trivial⟩
      · split_ifs at h
        split at h
        · split_ifs at h
        · cases h
      · cases h
    · cases h
  · rintro ⟨⟨rid, hrid, huuid⟩, ctype, htype, hctype⟩
    rw [checkData, hrid]
    simp only [huuid, Bool.true_eq_false, if_false]
    cases ctype with
    | arr items => rw [htype]
    | obj members => rw [htype]
    | _ => exact hctype.elim

theorem decodeBlock_reply_iff : decodeBlock decode body = .reply filed ↔ IsReply decode body filed := by
  rw [decodeBlock, IsReply]
  cases hbody : decode body with
  | value data => simp [checkData_reply_iff]
  | valueError => simp
  | recursionError => simp

theorem decodeBlock_raises_iff : decodeBlock decode body = .raises ↔ Hostile decode body := by
  rw [decodeBlock, Hostile]
  cases hbody : decode body with
  | value data => simp [checkData_raises_iff]
  | valueError => simp
  | recursionError => simp

theorem benign_cons (hreply : ∀ filed, ¬ IsReply decode body filed) (hhostile : ¬ Hostile decode body) :
    Benign decode (body :: bodies) ↔ Benign decode bodies := by
  constructor
  · intro h before b after hbodies hb
    obtain ⟨b', hb', filed, hfiled⟩ := h (body :: before) b after (by rw [hbodies]; rfl) hb
    obtain rfl | hb' := List.mem_cons.mp hb'
    · exact absurd hfiled (hreply filed)
    · exact ⟨b', hb', filed, hfiled⟩
  · intro h before b after hbodies hb
    cases before with
    | nil =>
      obtain ⟨rfl, -⟩ := List.cons.inj hbodies
      exact absurd hb hhostile
    | cons b' before =>
      obtain ⟨-, hbodies⟩ := List.cons.inj hbodies
      obtain ⟨b'', hb'', hfiled⟩ := h before b after hbodies hb
      exact ⟨b'', List.mem_cons_of_mem b' hb'', hfiled⟩

theorem fromFirst_cons (hreply : ∀ filed, ¬ IsReply decode body filed) (found : Block) :
    FromFirst decode (body :: bodies) found ↔ FromFirst decode bodies found := by
  cases found with
  | skipped => exact List.forall_mem_cons.trans (and_iff_right hreply)
  | reply filed =>
    constructor
    · rintro ⟨before, b, after, hbodies, hb, hbefore⟩
      cases before with
      | nil =>
        obtain ⟨rfl, -⟩ := List.cons.inj hbodies
        exact absurd hb (hreply filed)
      | cons b' before =>
        obtain ⟨-, hbodies⟩ := List.cons.inj hbodies
        exact ⟨before, b, after, hbodies, hb, fun x hx => hbefore x (List.mem_cons_of_mem b' hx)⟩
    · rintro ⟨before, b, after, hbodies, hb, hbefore⟩
      exact ⟨body :: before, b, after, by rw [hbodies]; rfl, hb, List.forall_mem_cons.mpr ⟨hreply, hbefore⟩⟩
  | raises => exact Iff.rfl

theorem firstBlock_cases (decode : String → Decoded) (bodies : List String) :
    FromFirst decode bodies (firstBlock decode bodies) ∧ Benign decode bodies ∨
      firstBlock decode bodies = .raises ∧ ¬ Benign decode bodies := by
  induction bodies with
  | nil =>
    refine .inl ⟨fun b hb => absurd hb List.not_mem_nil, fun before body after hbodies => ?_⟩
    simp at hbodies
  | cons body bodies ih =>
    rw [firstBlock]
    cases hbody : decodeBlock decode body with
    | skipped =>
      have hreply (filed) : ¬ IsReply decode body filed := by
        rw [← decodeBlock_reply_iff, hbody]
        nofun
      have hhostile : ¬ Hostile decode body := by
        rw [← decodeBlock_raises_iff, hbody]
        nofun
      rw [fromFirst_cons hreply, benign_cons hreply hhostile]
      exact ih
    | reply filed =>
      have hreply := decodeBlock_reply_iff.mp hbody
      refine .inl ⟨⟨[], body, bodies, rfl, hreply, fun b hb => absurd hb List.not_mem_nil⟩, ?_⟩
      intro before b after hbodies hb
      cases before with
      | nil =>
        obtain ⟨rfl, -⟩ := List.cons.inj hbodies
        rw [← decodeBlock_raises_iff, hbody] at hb
        cases hb
      | cons b' before =>
        obtain ⟨rfl, -⟩ := List.cons.inj hbodies
        exact ⟨body, List.mem_cons_self, filed, hreply⟩
    | raises =>
      refine .inr ⟨rfl, fun h => ?_⟩
      obtain ⟨b, hb, -⟩ := h [] body bodies rfl (decodeBlock_raises_iff.mp hbody)
      exact List.not_mem_nil hb

theorem firstBlock_fromFirst_iff : FromFirst decode bodies (firstBlock decode bodies) ↔ Benign decode bodies := by
  obtain ⟨hfirst, hbenign⟩ | ⟨hraises, hbenign⟩ := firstBlock_cases decode bodies
  · exact iff_of_true hfirst hbenign
  · rw [hraises]
    exact iff_of_false id hbenign

theorem firstBlock_raises_iff : firstBlock decode bodies = .raises ↔ ¬ Benign decode bodies := by
  obtain ⟨hfirst, hbenign⟩ | ⟨hraises, hbenign⟩ := firstBlock_cases decode bodies
  · refine iff_of_false (fun hraises => ?_) (not_not.mpr hbenign)
    rw [hraises] at hfirst
    exact hfirst
  · exact iff_of_true hraises hbenign

end Blocks
section Rows

/-- What a pass over stored messages leaves: the state, the replies that it acted on, and whether it raised. -/
structure Handled (σ : Type) where
  state : σ
  replies : List Filed
  raised : Bool

variable {σ : Type} (decode : String → Decoded) (owner : String)

/-- A direct message of the owner. -/
def Row.fromOwner (row : Row) : Bool := row.envelopeKind = "dm" ∧ row.senderSlug = owner

/-- What an item of `handle_filed_replies` holds. -/
def itemReply : Option Row → Block
  | none => .skipped
  | some row => if row.fromOwner owner then parseReply decode (messageText row.content) else .skipped

/-- The loops of `handle_filed_replies`; `act` is what is done with a reply. -/
def handleItems (act : Filed → σ → σ) : List (Option Row) → σ → Handled σ
  | [], s => ⟨s, [], false⟩
  | item :: items, s => match itemReply decode owner item with
    | .skipped => handleItems act items s
    | .raises => ⟨s, [], true⟩
    | .reply filed =>
      let rest := handleItems act items (act filed s)
      { rest with replies := filed :: rest.replies }

/-- `handle_filed_replies`: where nothing is pending, replies are only reported. -/
def handleFiledReplies (pending : σ → Bool) (act : Filed → σ → σ) (items : List (Option Row)) (s : σ) : Handled σ :=
  if pending s then handleItems decode owner act items s else handleItems decode owner (fun _ s => s) items s

/-- The reply of an item. -/
def replyOf (item : Option Row) : Option Filed :=
  match itemReply decode owner item with
  | .reply filed => some filed
  | _ => none

variable {decode owner} {act : Filed → σ → σ} {items : List (Option Row)}

/-- A pass raises where one of its items does, and else comes to the reply of every item. -/
theorem handleItems_iff (items : List (Option Row)) (s : σ) :
    ((handleItems decode owner act items s).raised = false ∧
      (handleItems decode owner act items s).replies = items.filterMap (replyOf decode owner)) ↔
    ∀ item ∈ items, itemReply decode owner item ≠ .raises := by
  induction items generalizing s with
  | nil => exact iff_of_true ⟨rfl, rfl⟩ fun item hitem => absurd hitem List.not_mem_nil
  | cons item items ih =>
    rw [handleItems, List.forall_mem_cons]
    cases hitem : itemReply decode owner item with
    | skipped =>
      have hnone : replyOf decode owner item = none := by rw [replyOf, hitem]
      rw [List.filterMap_cons_none hnone]
      exact (ih s).trans (and_iff_right nofun).symm
    | reply filed =>
      have hsome : replyOf decode owner item = some filed := by rw [replyOf, hitem]
      rw [List.filterMap_cons_some hsome, List.cons_inj_right]
      exact (ih (act filed s)).trans (and_iff_right nofun).symm
    | raises => exact iff_of_false (fun h => by cases h.1) fun h => h.1 rfl

theorem itemReply_raises_iff {item : Option Row} : itemReply decode owner item ≠ .raises ↔
    ∀ row, item = some row → row.fromOwner owner = true → Benign decode (filedBodies (messageText row.content)) := by
  cases item with
  | none => exact iff_of_true nofun nofun
  | some row =>
    rw [itemReply]
    split_ifs with howner
    · rw [Ne, parseReply, firstBlock_raises_iff, not_not]
      constructor
      · intro h row' hrow _
        cases hrow
        exact h
      · exact fun h => h row rfl howner
    · refine iff_of_true nofun fun row' hrow hrow' => ?_
      cases hrow
      exact absurd hrow' howner

end Rows
section Replies
variable {text : String} {owner : String}

theorem decodeBlock_unlimited (body : String) : decodeBlock unlimited body = readBlock body := by
  rw [decodeBlock, unlimited, readBlock]
  cases hbody : Json.loads body with
  | none => rfl
  | some data =>
    cases data with
    | obj members =>
      simp only [Option.elim_some, checkData]
      cases (Json.obj members).member "request_id" with
      | none => rfl
      | some rid =>
        cases rid with
        | str rid =>
          dsimp only
          split_ifs
          · rfl
          · cases (Json.obj members).member "type" with
            | none => rfl
            | some ctype =>
              cases ctype with
              | str ctype =>
                generalize (Json.obj members).member "index" = index
                generalize (Json.obj members).member "version" = version
                by_cases hctype : ctype ∈ requestableTypes
                · rcases index with - | ⟨- | - | index | - | - | - | -⟩ <;>
                    rcases version with - | ⟨- | - | version | - | - | - | -⟩ <;> simp [hctype]
                · rcases index with - | ⟨- | - | index | - | - | - | -⟩ <;>
                    rcases version with - | ⟨- | - | version | - | - | - | -⟩ <;> simp [hctype]
              | _ => rfl
        | _ => rfl
    | _ => rfl

/-- Without limits the parsing is that of the passes over replies. -/
theorem parseReply_unlimited (text : String) : parseReply unlimited text = parseFiledReply text := by
  rw [parseReply, parseFiledReply, filedBodies]
  generalize fences (text.toList.length + 1) text.toList = blocks
  induction blocks with
  | nil => rfl
  | cons block blocks ih =>
    obtain ⟨name, body⟩ := block
    rw [firstReply]
    by_cases hname : name = filedFence
    · rw [List.filter_cons_of_pos (by simpa using hname), List.map_cons, firstBlock, decodeBlock_unlimited,
        if_neg (not_not.mpr hname)]
      cases readBlock body with
      | skipped => exact ih
      | reply filed => rfl
      | raises => rfl
    · rw [List.filter_cons_of_neg (by simpa using hname), if_pos hname]
      exact ih

/-- A pass over stored messages goes by what the item holds. -/
theorem scan_cons (d : Daemon) (k : Nat) (item : Option Row) (items : List (Option Row)) :
    match itemReply unlimited owner item with
    | .skipped => d.scan owner k (item :: items) = d.goto k (.scanning items)
    | .raises => d.scan owner k (item :: items) = d.leave k
    | .reply filed => ∃ row, item = some row ∧ d.scan owner k (item :: items) =
        match d.ledger.claim filed.requestId with
        | (_, false) => d.goto k (.scanning items)
        | (ledger, true) => { d with ledger := ledger }.goto k (.claimed ⟨row, filed⟩ items) := by
  cases item with
  | none => rfl
  | some row =>
    rw [itemReply, parseReply_unlimited, Daemon.scan]
    by_cases howner : row.envelopeKind = "dm" ∧ row.senderSlug = owner
    · rw [if_pos (by simpa [Row.fromOwner] using howner), if_neg (by simpa using howner)]
      cases parseFiledReply (messageText row.content) with
      | skipped => rfl
      | raises => rfl
      | reply filed => exact ⟨row, rfl, rfl⟩
    · rw [if_neg (by simpa [Row.fromOwner] using howner), if_pos (by rwa [not_and_or] at howner)]

/-- The parsing of a text gives nothing, or the reply of the first valid block, if and only if each block that raises
comes after a valid one; and a pass over stored messages ends without raising, and comes to the reply of every one, if
and only if that is so of every direct message of the owner. -/
theorem filed_replies_total_iff (decode : String → Decoded) :
    (∀ text, FromFirst decode (filedBodies text) (parseReply decode text) ↔ Benign decode (filedBodies text)) ∧
    ∀ (σ : Type) owner (pending : σ → Bool) (act : Filed → σ → σ) items s,
      ((handleFiledReplies decode owner pending act items s).raised = false ∧
        (handleFiledReplies decode owner pending act items s).replies = items.filterMap (replyOf decode owner)) ↔
      ∀ row, some row ∈ items → row.fromOwner owner = true → Benign decode (filedBodies (messageText row.content)) := by
  refine ⟨fun text => firstBlock_fromFirst_iff, fun σ owner pending act items s => ?_⟩
  have hitems : (∀ item ∈ items, itemReply decode owner item ≠ .raises) ↔
      ∀ row, some row ∈ items → row.fromOwner owner = true → Benign decode (filedBodies (messageText row.content)) := by
    simp only [itemReply_raises_iff]
    exact ⟨fun h row hrow => h _ hrow row rfl, fun h item hitem row hrow => h row (hrow ▸ hitem)⟩
  rw [← hitems, handleFiledReplies]
  split_ifs
  · exact handleItems_iff items s
  · exact handleItems_iff items s

/-- A filed block whose type is a list. -/
def listTyped : String :=
  "```puffo-credential-filed\n\x7b\"request_id\":\"01234567-89ab-4cde-8f01-23456789abcd\",\"type\":[]\x7d\n```"

/-- A filed block that is a reply. -/
def wellFiled : String :=
  "```puffo-credential-filed\n\x7b\"request_id\":\"01234567-89ab-4cde-8f01-23456789abcd\"," ++
    "\"type\":\"PUFFO_CLAUDE_CODE_TOKEN_v1\",\"index\":0,\"version\":1\x7d\n```"

def ownerRow (text : String) : Option Row := some ⟨"dm", "owner", .str text⟩

def Block.toReply : Block → Option (Option Filed)
  | .skipped => some none
  | .reply filed => some (some filed)
  | .raises => none

/-- The parsing of a list for a type raises, and the reply after it is not come to. -/
theorem list_type_raises :
    (parseFiledReply listTyped).toReply = none ∧
    (parseFiledReply wellFiled).toReply =
      some (some ⟨"01234567-89ab-4cde-8f01-23456789abcd", typeClaudeToken, 0, 1⟩) ∧
    (handleFiledReplies unlimited "owner" (fun _ => true) (fun _ s => s) [ownerRow listTyped, ownerRow wellFiled] ()).raised = true ∧
    (handleFiledReplies unlimited "owner" (fun _ => true) (fun _ s => s) [ownerRow listTyped, ownerRow wellFiled] ()).replies = [] := by
  decide +kernel

end Replies
end PuffoAgent.Credentials
