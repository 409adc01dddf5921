import PuffoAgent.Claims.Confluence
import PuffoAgent.Ingress.Trust

/-! Thread claims of filed messages, as standings under the live and the deferred root
check. -/
namespace PuffoAgent.Ingress
open Relational Stmt Sql Store Text Machine Claims

section Checks

/-- What `_build_committer` expects of the messages that `payload` refers to. -/
def MessagePayload.expected (self : String) (payload : MessagePayload) : Expected :=
  ⟨payload.channelId, payload.spaceId, payload.envelopeKind,
    if payload.envelopeKind = "dm" then
      if payload.senderSlug = self then payload.recipientSlug.getD "" else payload.senderSlug
    else "", self⟩

/-- The columns by which claims on a message are checked. -/
def MessagePayload.columns (payload : MessagePayload) : MessageRow := payloadValues
  { envelopeId := payload.envelopeId
    envelopeKind := payload.envelopeKind
    senderSlug := payload.senderSlug
    channelId := payload.channelId
    spaceId := payload.spaceId
    recipientSlug := payload.recipientSlug
    sentAt := payload.sentAt } 0

/-- The condition of the first statement of `_settle_unverified_thread_claims` on a row
that claims `root`, which has a root of its own or not. -/
def deferredCheck (hasRoot : Bool) (m root : MessageRow) : Bool :=
  if root.envelopeKind = "channel" then
    sqlEq m.channelId root.channelId ∧
      (hasRoot ∨ m.spaceId.isNone ∨ root.spaceId.isNone ∨ m.spaceId = root.spaceId)
  else root.envelopeKind = "dm" ∧ sameConversation root m

theorem deferredCheck_of_root {m root : MessageRow} (h : deferredCheck false m root) : deferredCheck true m root := by
  unfold deferredCheck at h ⊢
  by_cases hk : root.envelopeKind = "channel"
  · simp only [hk, if_true, Bool.decide_and, Bool.and_eq_true, decide_eq_true_eq] at h ⊢
    exact ⟨h.1, .inl trivial⟩
  · simpa [hk] using h

abbrev Messages := Table MessagePayload String (·.envelopeId)

def pairwiseCheck (ms : Messages) (check : MessagePayload → MessagePayload → Bool) (k r : String) : Bool :=
  match ms.get? k, ms.get? r with
  | some m, some root => check m root
  | _, _ => false

/-- The two root checks, on a set of messages. -/
def threadRules (self : String) (ms : Messages) : Rules String where
  claim k := (ms.get? k).bind fun m => m.threadRootId.filter (· ≠ "")
  admits := pairwiseCheck ms fun m root => (m.expected self).admits root.columns
  passes hasRoot := pairwiseCheck ms fun m root => deferredCheck hasRoot m.columns root.columns
  passes_of_root {k v} h := by
    unfold pairwiseCheck at h ⊢
    cases hk : ms.get? k with
    | none => simp [hk] at h
    | some m =>
      cases hv : ms.get? v with
      | none => simp [hk, hv] at h
      | some root =>
        simp only [hk, hv] at h ⊢
        exact deferredCheck_of_root h

end Checks

section Rows
variable {self : String} {ms : Messages} {s : Tables} {shelf : Claims.Shelf String}

/-- `m` is filed under the sender, place and kind of `payload`. -/
structure Placed (payload : MessagePayload) (m : MessageRow) : Prop where
  envelopeKind : m.envelopeKind = payload.envelopeKind
  senderSlug : m.senderSlug = payload.senderSlug
  channelId : m.channelId = payload.channelId
  spaceId : m.spaceId = payload.spaceId
  recipientSlug : m.recipientSlug = payload.recipientSlug

/-- The thread columns of a message with a standing. Only a claim that is the empty text
stays in a row that hangs from nothing. -/
def threadColumns (payload : MessagePayload) : Standing String → Option String × Bool
  | .free => (payload.threadRootId.filter (· = ""), false)
  | .verified r => (some r, false)
  | .unverified r => (some r, true)

structure Hangs (payload : MessagePayload) (st : Standing String) (m : MessageRow) : Prop where
  placed : Placed payload m
  columns : (m.threadRootId, m.threadRootUnverified) = threadColumns payload st
  claims : st ≠ .free → truthy payload.threadRootId
  named : ∀ r, st = .verified r ∨ st = .unverified r → r ≠ ""

/-- Every row is one of the messages and hangs where the shelf says. -/
def Fits (ms : Messages) (s : Tables) (shelf : Claims.Shelf String) : Prop :=
  ∀ k, Option.Rel (fun m st => ∃ payload, ms.get? k = some payload ∧ Hangs payload st m) (s.messages.get? k) (shelf k)

theorem Placed.admits {payload : MessagePayload} {m : MessageRow} (h : Placed payload m) (expected : Expected) :
    expected.admits m = expected.admits payload.columns := by
  unfold Expected.admits
  rw [h.envelopeKind, h.senderSlug, h.channelId, h.spaceId, h.recipientSlug]
  rfl

theorem Placed.deferredCheck {payload root : MessagePayload} {m values : MessageRow} (h : Placed payload m)
    (hv : Placed root values) (hasRoot : Bool) :
    deferredCheck hasRoot m values = deferredCheck hasRoot payload.columns root.columns := by
  unfold Ingress.deferredCheck sameConversation
  rw [h.envelopeKind, h.senderSlug, h.channelId, h.spaceId, h.recipientSlug, hv.envelopeKind, hv.senderSlug,
    hv.channelId, hv.spaceId, hv.recipientSlug]
  rfl

/-- What the root column reads as. -/
@[simp]
def rootColumn : Standing String → String
  | .free => ""
  | .verified r | .unverified r => r

theorem Hangs.root {payload : MessagePayload} {st : Standing String} {m : MessageRow} (h : Hangs payload st m) :
    m.threadRootId.getD "" = rootColumn st := by
  have hc := congrArg Prod.fst h.columns
  dsimp only at hc
  rw [hc]
  cases st with
  | free =>
    change (payload.threadRootId.filter (· = "")).getD "" = ""
    cases hp : payload.threadRootId with
    | none => rfl
    | some r =>
      by_cases hr : r = "" <;> simp [Option.filter, hr]
  | verified r | unverified r => rfl

theorem Hangs.truthy_root {payload : MessagePayload} {st : Standing String} {m : MessageRow} (h : Hangs payload st m) :
    truthy m.threadRootId = st.hasRoot := by
  have hr := h.root
  cases hm : m.threadRootId with
  | none =>
    rw [hm] at hr
    cases st with
    | free => rfl
    | verified r | unverified r => exact absurd hr.symm (h.named r (by simp))
  | some q =>
    rw [hm] at hr
    cases st with
    | free => simpa [truthy] using hr
    | verified r | unverified r =>
      obtain rfl : q = r := hr
      simpa [truthy] using h.named q (by simp)

theorem Hangs.claims_iff {payload : MessagePayload} {st : Standing String} {m : MessageRow} {v : String}
    (h : Hangs payload st m) : Store.claims v m ↔ st = .unverified v := by
  have hc := h.columns
  cases st with
  | free | verified r =>
    have hu : m.threadRootUnverified = false := congrArg Prod.snd hc
    simp [Store.claims, hu]
  | unverified r =>
    have hu : m.threadRootUnverified = true := congrArg Prod.snd hc
    have hr : m.threadRootId = some r := congrArg Prod.fst hc
    simp [Store.claims, hu, hr]

/-- What the arrival of `values` makes of another row. -/
def settledRow (values m : MessageRow) : MessageRow :=
  let m' := if Store.claims values.envelopeId m ∧ Ingress.deferredCheck (truthy values.threadRootId) m values then
    if truthy values.threadRootId then rerooted values m else withVerifiedRoot m
  else m
  if Store.claims values.envelopeId m' then { m' with threadRootId := none, threadRootUnverified := false } else m'

theorem get?_settle (values : MessageRow) (s : Tables) (k : String) :
    (settleUnverifiedThreadClaims values s).messages.get? k = (s.messages.get? k).map (settledRow values) := by
  have hcheck : (checkThreadClaims values s).messages.get? k = (s.messages.get? k).map fun m =>
      if Store.claims values.envelopeId m ∧ Ingress.deferredCheck (truthy values.threadRootId) m values then
        if truthy values.threadRootId then rerooted values m else withVerifiedRoot m
      else m := by
    have hupdate (p : MessageRow → Bool) (f : MessageRow → MessageRow) (hf : ∀ m, (f m).envelopeId = m.envelopeId)
        (g : MessageRow → MessageRow) (hg : ∀ m, (if p m then f m else m) = g m) :
        (s.updateMessages p f hf).messages.get? k = (s.messages.get? k).map g := by
      rw [Tables.updateMessages, Table.get?_update]
      exact congrArg (fun f => Option.map f _) (funext hg)
    unfold checkThreadClaims Ingress.deferredCheck
    by_cases hk : values.envelopeKind = "channel"
    · cases ht : truthy values.threadRootId
      · simp only [hk, Bool.false_eq_true, not_false_eq_true, and_self, if_true]
        exact hupdate _ _ _ _ fun m => by simp
      · simp only [hk, not_true_eq_false, and_false, if_false, if_true]
        exact hupdate _ _ _ _ fun m => by simp
    · by_cases hd : values.envelopeKind = "dm"
      · cases ht : truthy values.threadRootId
        · simp only [hd, Bool.false_eq_true, not_false_eq_true, and_self, if_true]
          exact hupdate _ _ _ _ fun m => by simp
        · simp only [hd, not_true_eq_false, and_false, if_false, if_true]
          exact hupdate _ _ _ _ fun m => by simp
      · simp [hk, hd]
  rw [settleUnverifiedThreadClaims, Tables.updateMessages, Table.get?_update, hcheck, Option.map_map]
  rfl

/-- A checked row takes the root of the arrival, which is wiped if it is the arrival itself. -/
theorem settledRow_passed {values m : MessageRow} (root : Option String) (unverified : Bool)
    (hcl : Store.claims values.envelopeId m) (hd : Ingress.deferredCheck (truthy values.threadRootId) m values)
    (hrow : (if truthy values.threadRootId then rerooted values m else withVerifiedRoot m) =
      { m with threadRootId := root, threadRootUnverified := unverified }) :
    settledRow values m = if unverified ∧ root = some values.envelopeId then
        { m with threadRootId := none, threadRootUnverified := false }
      else { m with threadRootId := root, threadRootUnverified := unverified } := by
  have hc : Store.claims values.envelopeId { m with threadRootId := root, threadRootUnverified := unverified } =
      decide (unverified ∧ root = some values.envelopeId) := rfl
  simp only [settledRow, hcl, hd, and_self, if_true, hrow, hc, decide_eq_true_eq]

theorem Hangs.rewrite {payload : MessagePayload} {st st' : Standing String} {m : MessageRow} {root : Option String}
    {unverified : Bool} (h : Hangs payload st m) (hst : st ≠ .free)
    (hc : (root, unverified) = threadColumns payload st') (hn : ∀ r, st' = .verified r ∨ st' = .unverified r → r ≠ "") :
    Hangs payload st' { m with threadRootId := root, threadRootUnverified := unverified } where
  placed := ⟨h.placed.1, h.placed.2, h.placed.3, h.placed.4, h.placed.5⟩
  columns := hc
  claims _ := h.claims hst
  named := hn

theorem threadColumns_free {payload : MessagePayload} (h : truthy payload.threadRootId) :
    threadColumns payload .free = (none, false) := by
  cases hp : payload.threadRootId with
  | none => simp [hp, truthy] at h
  | some r => simpa [threadColumns, hp, truthy] using h

/-- The deferred check rewrites a row as the rules settle its standing. -/
theorem Hangs.settled {payload root : MessagePayload} {st own : Standing String} {m values : MessageRow} {k v : String}
    (h : Hangs payload st m) (hv : Hangs root own values) (hk : ms.get? k = some payload) (hr : ms.get? v = some root)
    (hid : values.envelopeId = v) (hne : v ≠ "") :
    Hangs payload ((threadRules self ms).settle v own k st) (settledRow values m) := by
  by_cases hst : st = .unverified v
  · subst hst
    have hcl : Store.claims v m := h.claims_iff.2 rfl
    have hpass : (threadRules self ms).passes own.hasRoot k v =
        Ingress.deferredCheck (truthy values.threadRootId) m values := by
      simp only [threadRules, pairwiseCheck, hk, hr]
      rw [hv.truthy_root, h.placed.deferredCheck hv.placed]
    have hfree := threadColumns_free (h.claims nofun)
    rw [(threadRules self ms).settle_unverified, hpass]
    cases hd : Ingress.deferredCheck (truthy values.threadRootId) m values with
    | false =>
      have hrow : settledRow values m = { m with threadRootId := none, threadRootUnverified := false } := by
        simp [settledRow, hid, hd, hcl]
      rw [hrow]
      exact h.rewrite nofun hfree.symm (by rintro r (hr | hr) <;> cases hr)
    | true =>
      rw [if_pos rfl]
      rw [← hid] at hcl
      cases own with
      | free =>
        have ht : truthy values.threadRootId = false := hv.truthy_root
        have hm : m.threadRootId = some v := congrArg Prod.fst h.columns
        rw [settledRow_passed (some v) false hcl hd (by rw [ht, ← hm]; rfl), if_neg (by simp)]
        refine h.rewrite nofun rfl fun r hr => ?_
        rcases hr with hr | hr <;> cases hr
        exact hne
      | verified q =>
        have ht : truthy values.threadRootId = true := hv.truthy_root
        have hq : values.threadRootId = some q := congrArg Prod.fst hv.columns
        have hu : values.threadRootUnverified = false := congrArg Prod.snd hv.columns
        rw [settledRow_passed (some q) false hcl hd (by rw [ht, if_pos rfl, rerooted, hq, hu]), if_neg (by simp)]
        refine h.rewrite nofun rfl fun r hr => ?_
        rcases hr with hr | hr <;> cases hr
        exact hv.named q (.inl rfl)
      | unverified q =>
        have ht : truthy values.threadRootId = true := hv.truthy_root
        have hq : values.threadRootId = some q := congrArg Prod.fst hv.columns
        have hu : values.threadRootUnverified = true := congrArg Prod.snd hv.columns
        rw [settledRow_passed (some q) true hcl hd (by rw [ht, if_pos rfl, rerooted, hq, hu]), hid]
        by_cases hqv : q = v
        · rw [if_pos ⟨rfl, by rw [hqv]⟩, hqv, Standing.handDown_self]
          exact h.rewrite nofun hfree.symm (by rintro r (hr | hr) <;> cases hr)
        · rw [if_neg (by simp [hqv]), Standing.handDown, if_neg hqv]
          refine h.rewrite nofun rfl fun r hr => ?_
          rcases hr with hr | hr <;> cases hr
          exact hv.named q (.inr rfl)
  · have hcl : ¬ Store.claims v m := fun hc => hst (h.claims_iff.1 hc)
    rw [(threadRules self ms).settle_of_ne hst]
    simpa [settledRow, hid, hcl] using h

section Live
variable {payload : MessagePayload} {p v : String}

theorem Fits.missing (h : Fits ms s shelf) (expected : Expected) (hp : shelf p = none) :
    validatedParent s expected p = .missing := by
  have hg : s.messages.get? p = none := by
    have := h p
    rw [hp] at this
    cases hg : s.messages.get? p with
    | none => rfl
    | some m =>
      rw [hg] at this
      cases this
  rw [validatedParent, hg, ite_self]

theorem Fits.found {st : Standing String} (h : Fits ms s shelf) (self : String) (hv : ms.get? v = some payload) (hpe : p ≠ "")
    (hp : shelf p = some st) : ∃ m parent, Hangs parent st m ∧ validatedParent s (payload.expected self) p =
      if (threadRules self ms).admits v p then .found m else .mismatched := by
  have hrel := h p
  rw [hp] at hrel
  obtain ⟨m, hg, parent, hpar, hm⟩ := rel_some_right hrel
  refine ⟨m, parent, hm, ?_⟩
  have hadm : (threadRules self ms).admits v p = (payload.expected self).admits m := by
    simp only [threadRules, pairwiseCheck, hv, hpar]
    exact (hm.placed.admits _).symm
  rw [validatedParent, if_neg hpe, hg, hadm]

/-- The live check of an arriving message agrees with the rules. -/
theorem Fits.resolve (h : Fits ms s shelf) (hs : Rules.Sound shelf) (hv : ms.get? v = some payload) :
    resolveIncomingThreadRoot s (payload.expected self) payload.threadRootId =
      threadColumns payload ((threadRules self ms).resolve shelf v) := by
  have hclaim : (threadRules self ms).claim v = payload.threadRootId.filter (· ≠ "") := by simp [threadRules, hv]
  cases hp : payload.threadRootId with
  | none =>
    have hown : (threadRules self ms).resolve shelf v = .free := by simp [Rules.resolve, hclaim, hp]
    simp [resolveIncomingThreadRoot, hown, threadColumns, hp]
  | some p =>
    by_cases hpe : p = ""
    · subst hpe
      have hown : (threadRules self ms).resolve shelf v = .free := by simp [Rules.resolve, hclaim, hp, Option.filter]
      simp [resolveIncomingThreadRoot, hown, threadColumns, hp, Option.filter]
    · have hclaim : (threadRules self ms).claim v = some p := by simp [hclaim, hp, hpe, Option.filter]
      have hfree : threadColumns payload .free = (none, false) := threadColumns_free (by simp [hp, truthy, hpe])
      rw [resolveIncomingThreadRoot, if_neg hpe, Rules.resolve, hclaim]
      dsimp only
      rw [incomingRootMaxDepth, resolveFrom, if_neg List.not_mem_nil]
      cases hsh : shelf p with
      | none =>
        rw [h.missing _ hsh]
        rfl
      | some st =>
        obtain ⟨m, parent, hm, hval⟩ := h.found self hv hpe hsh
        rw [hval]
        dsimp only
        cases ha : (threadRules self ms).admits v p with
        | false => exact hfree.symm
        | true =>
          simp only [if_true, hm.root]
          cases st with
          | free => rfl
          | verified r =>
            have hr := hs.verified hsh
            have hrn := hm.named r (.inl rfl)
            have hrp : r ≠ p := by
              rintro rfl
              rw [hsh] at hr
              cases hr
            obtain ⟨m', parent', hm', hval'⟩ := h.found self hv hrn hr
            simp only [rootColumn, hrn, hrp, or_self, if_false]
            rw [resolveFrom, if_neg (by simpa using hrp), hval', Rules.adopt, hr]
            dsimp only
            cases ha' : (threadRules self ms).admits v r with
            | false => exact hfree.symm
            | true => simp only [if_true, hm'.root]; rfl
          | unverified r =>
            have hr := hs.unverified hsh
            have hrn := hm.named r (.inr rfl)
            have hrp : r ≠ p := by
              rintro rfl
              rw [hsh] at hr
              cases hr
            simp only [rootColumn, hrn, hrp, or_self, if_false]
            rw [resolveFrom, if_neg (by simpa using hrp), h.missing _ hr, Rules.adopt, hr]
            rfl

end Live

end Rows

section Handled
variable {client : Client} {payload : MessagePayload} {serverSeq : Int} {s : Tables}

/-- Whatever the gates decide, what is filed keeps its place and its thread columns. -/
theorem decision_files (host : Host) (payload : MessagePayload) (nowMs : Int) (hb : blockedGate client payload ≠ none)
    (stored : Payload) : ∃ row disposition reason content,
      decision host client payload nowMs stored = .file row disposition reason content ∧
      ∃ body contentType, committedRow row content = { stored with content := body, contentType := contentType } := by
  have hverdict (verdict : GateVerdict) : ∃ row disposition reason content,
      fileVerdict stored verdict = .file row disposition reason content ∧
      ∃ body contentType, committedRow row content = { stored with content := body, contentType := contentType } := by
    refine ⟨_, _, _, _, rfl, ?_⟩
    cases verdict.content with
    | none => exact ⟨stored.content, stored.contentType, rfl⟩
    | some text => exact ⟨.str text, "text/plain", rfl⟩
  unfold decision
  split
  · exact absurd ‹_› hb
  · exact hverdict _
  · split
    · refine ⟨_, _, _, none, rfl, ?_⟩
      unfold selfEchoRow
      split <;> exact ⟨_, _, rfl⟩
    · split
      · exact hverdict _
      · split
        · exact hverdict _
        · split
          · exact hverdict _
          · split
            · exact ⟨_, _, _, _, rfl, stored.content, stored.contentType, rfl⟩
            · exact ⟨_, _, _, _, rfl, _, stored.contentType, rfl⟩

/-- An unblocked new delivery is inserted under its own columns, and the claims on it are
settled. -/
theorem handle_inserts (host : Host) (isPlaintext : Bool) (nowMs : Int) (hb : blockedGate client payload ≠ none) (hf : Fresh s payload.envelopeId serverSeq) :
    ∃ body contentType disposition reason t,
      let row := { storedPayload client payload isPlaintext s with content := body, contentType := contentType }
      s.insertMessage? (filedRow row serverSeq disposition reason nowMs) = some t ∧
      ((handle host client payload serverSeq isPlaintext nowMs).after s).messages =
        (settleUnverifiedThreadClaims (payloadValues row nowMs) t).messages := by
  obtain ⟨row, disposition, reason, content, hd, body, contentType, hrow⟩ :=
    decision_files host payload nowMs hb (storedPayload client payload isPlaintext s)
  have hid : row.envelopeId = payload.envelopeId := decision_envelopeId hd
  have hf' : Fresh s (committedRow row content).envelopeId serverSeq := by rw [hrow]; exact hf
  obtain ⟨r, s', t, hrun, ht, hm⟩ := storeReceipt_inserts hf' disposition reason nowMs nowMs
  refine ⟨body, contentType, disposition, reason, t, by rw [← hrow]; exact ht, ?_⟩
  rw [handle_after, hd]
  dsimp only
  rw [commit_after (by rw [hid]; exact hf.unknown), Sql.after, hrun, ← hrow]
  exact hm

end Handled

section Runs
variable {self : String} {ms : Messages}

/-- A delivery, with what the client knows when it is handled. -/
structure Arrival where
  client : Client
  payload : MessagePayload
  serverSeq : Int
  isPlaintext : Bool
  nowMs : Int

def Arrival.id (a : Arrival) : String := a.payload.envelopeId

def receive (host : Host) (s : Tables) (a : Arrival) : Tables :=
  (handle host a.client a.payload a.serverSeq a.isPlaintext a.nowMs).after s

/-- Some order of deliveries that stores the messages, none of them held. -/
structure Stores (slug : String) (ms : Messages) (as : List Arrival) : Prop where
  messages : (as.map (·.payload)).Perm ms.rows
  kinds : ∀ m ∈ ms.rows, m.envelopeKind = "channel" ∨ m.envelopeKind = "dm"
  named : ∀ m ∈ ms.rows, m.envelopeId ≠ ""
  own : ∀ a ∈ as, a.client.slug = slug
  open' : ∀ a ∈ as, blockedGate a.client a.payload ≠ none
  positive : ∀ a ∈ as, 0 < a.serverSeq
  seqs : (as.map (·.serverSeq)).Nodup

/-- The store after the deliveries `done`, and the standings they file. -/
structure Filed (ms : Messages) (done : List Arrival) (s : Tables) (shelf : Claims.Shelf String) : Prop where
  fits : Fits ms s shelf
  sound : Rules.Sound shelf
  seqs : ∀ m ∈ s.messages.rows, ∃ a ∈ done, m.serverSeq = some a.serverSeq

theorem settledRow_serverSeq (values m : MessageRow) : (settledRow values m).serverSeq = m.serverSeq := by
  simp only [settledRow]
  split <;> split <;> (try split) <;> rfl

variable {done : List Arrival} {s : Tables} {shelf : Claims.Shelf String} {a : Arrival}

theorem Fits.named (h : Fits ms s shelf) {k r : String}
    (hk : shelf k = some (.verified r) ∨ shelf k = some (.unverified r)) : r ≠ "" := by
  have hrel := h k
  rcases hk with hk | hk <;>
  · rw [hk] at hrel
    obtain ⟨m, -, payload, -, hm⟩ := rel_some_right hrel
    exact hm.named r (by simp)

/-- The row of an arriving message. -/
theorem Filed.hangs (h : Filed ms done s shelf) {payload : MessagePayload} {v : String}
    (hm : ms.get? v = some payload) {row : MessageRow} (hp : Placed payload row)
    (hc : (row.threadRootId, row.threadRootUnverified) =
      resolveIncomingThreadRoot s (payload.expected self) payload.threadRootId) :
    Hangs payload ((threadRules self ms).resolve shelf v) row := by
  have hclaim {p : String} (hp : (threadRules self ms).claim v = some p) : payload.threadRootId = some p ∧ p ≠ "" := by
    simpa [threadRules, hm, Option.filter_eq_some_iff] using hp
  refine ⟨hp, hc.trans (h.fits.resolve h.sound hm), fun hne => ?_, fun r hr => ?_⟩
  · obtain ⟨r, hr⟩ : ∃ r, (threadRules self ms).resolve shelf v = .verified r ∨
        (threadRules self ms).resolve shelf v = .unverified r := by
      cases hown : (threadRules self ms).resolve shelf v with
      | free => exact absurd hown hne
      | verified r => exact ⟨r, .inl rfl⟩
      | unverified r => exact ⟨r, .inr rfl⟩
    obtain ⟨p, hp, -⟩ := (threadRules self ms).resolve_root hr
    obtain ⟨hp, hpe⟩ := hclaim hp
    simp [hp, truthy, hpe]
  · obtain ⟨p, hp, rfl | hs⟩ := (threadRules self ms).resolve_root hr
    · exact (hclaim hp).2
    · exact h.fits.named hs

theorem Filed.receives (host : Host) (h : Filed ms done s shelf) (hm : ms.get? a.id = some a.payload) (hown : a.client.slug = self)
    (hopen : blockedGate a.client a.payload ≠ none) (hne : a.id ≠ "") (hpos : 0 < a.serverSeq)
    (hnew : shelf a.id = none) (hseq : ∀ b ∈ done, b.serverSeq ≠ a.serverSeq) :
    Filed ms (done ++ [a]) (receive host s a) ((threadRules self ms).file shelf a.id) := by
  have hunknown : s.messages.get? a.id = none := by
    have hrel := h.fits a.id
    rw [hnew] at hrel
    cases hg : s.messages.get? a.id with
    | none => rfl
    | some m =>
      rw [hg] at hrel
      cases hrel
  have hfresh : Fresh s a.payload.envelopeId a.serverSeq := by
    refine ⟨hunknown, fun m hmem he => ?_, hpos, hne⟩
    obtain ⟨b, hb, hbs⟩ := h.seqs m hmem
    exact hseq b hb (Option.some.inj (hbs.symm.trans he))
  obtain ⟨body, contentType, disposition, reason, t, ht, hafter⟩ :=
    handle_inserts host a.isPlaintext a.nowMs hopen hfresh
  generalize hrow : ({ storedPayload a.client a.payload a.isPlaintext s with
    content := body, contentType := contentType } : Payload) = row at ht hafter
  obtain ⟨-, hget, -⟩ := Tables.insertMessage?_eq_some ht
  have hcols : (row.threadRootId, row.threadRootUnverified) =
      resolveIncomingThreadRoot s (a.payload.expected self) a.payload.threadRootId := by
    rw [← hrow, ← hown]
    rfl
  have hplaced (m : MessageRow) (he : m.envelopeKind = row.envelopeKind) (hs : m.senderSlug = row.senderSlug)
      (hc : m.channelId = row.channelId) (hsp : m.spaceId = row.spaceId) (hr : m.recipientSlug = row.recipientSlug) :
      Placed a.payload m := by
    subst hrow
    exact ⟨he, hs, hc, hsp, hr⟩
  have hid : row.envelopeId = a.id := by
    rw [← hrow]
    rfl
  have hnewRow : Hangs a.payload ((threadRules self ms).resolve shelf a.id)
      (filedRow row a.serverSeq disposition reason a.nowMs) :=
    h.hangs hm (hplaced _ rfl rfl rfl rfl rfl) hcols
  have hvalues : Hangs a.payload ((threadRules self ms).resolve shelf a.id) (payloadValues row a.nowMs) :=
    h.hangs hm (hplaced _ rfl rfl rfl rfl rfl) hcols
  have hafter (k : String) : (receive host s a).messages.get? k =
      (t.messages.get? k).map (settledRow (payloadValues row a.nowMs)) := by
    rw [receive, hafter, get?_settle]
  have hget (k : String) : t.messages.get? k =
      if a.id = k then some (filedRow row a.serverSeq disposition reason a.nowMs) else s.messages.get? k := by
    rw [hget k, ← hid]
    rfl
  refine ⟨fun k => ?_, h.sound.file hnew, fun m hmem => ?_⟩
  · rw [hafter, hget]
    by_cases hk : a.id = k
    · subst hk
      rw [if_pos rfl, Rules.file_self]
      exact .some ⟨a.payload, hm, hnewRow.settled hvalues hm hm hid hne⟩
    · rw [if_neg hk, Rules.file_of_ne _ (Ne.symm hk)]
      have hrel := h.fits k
      generalize s.messages.get? k = m at hrel
      generalize shelf k = st at hrel
      cases hrel with
      | none => exact .none
      | some hrel =>
        obtain ⟨payload, hp, hh⟩ := hrel
        exact .some ⟨payload, hp, hh.settled hvalues hp hm hid hne⟩
  · have hg := Table.mem_iff_get?.1 hmem
    rw [hafter, hget] at hg
    obtain ⟨m₀, hg, rfl⟩ := Option.map_eq_some_iff.1 hg
    rw [settledRow_serverSeq]
    split at hg
    · obtain rfl := Option.some.inj hg
      exact ⟨a, by simp, rfl⟩
    · obtain ⟨b, hb, hbs⟩ := h.seqs m₀ (Table.mem_of_get? hg)
      exact ⟨b, by simp [hb], hbs⟩

/-- Storing the messages in some order files their ids in that order. -/
theorem Filed.run (host : Host) (h : Filed ms done s shelf) {as : List Arrival} (hms : ∀ a ∈ as, ms.get? a.id = some a.payload)
    (hown : ∀ a ∈ as, a.client.slug = self) (hopen : ∀ a ∈ as, blockedGate a.client a.payload ≠ none)
    (hne : ∀ a ∈ as, a.id ≠ "") (hpos : ∀ a ∈ as, 0 < a.serverSeq) (hids : (as.map Arrival.id).Nodup)
    (hnew : ∀ a ∈ as, shelf a.id = none) (hseqs : ((done ++ as).map (·.serverSeq)).Nodup) :
    Filed ms (done ++ as) (Machine.run (receive host) s as) ((threadRules self ms).fileAll shelf (as.map Arrival.id)) := by
  induction as generalizing done s shelf with
  | nil => simpa [Rules.fileAll] using h
  | cons a as ih =>
    rw [List.map_cons] at hids
    obtain ⟨hid, hids⟩ := List.nodup_cons.1 hids
    have hseq (b : Arrival) (hb : b ∈ done) : b.serverSeq ≠ a.serverSeq := by
      rw [List.map_append] at hseqs
      exact (List.nodup_append.1 hseqs).2.2 _ (List.mem_map_of_mem hb) _ (by simp)
    have hstep := h.receives host (hms a List.mem_cons_self) (hown a List.mem_cons_self)
      (hopen a List.mem_cons_self) (hne a List.mem_cons_self) (hpos a List.mem_cons_self)
      (hnew a List.mem_cons_self) hseq
    have hrest := ih hstep (fun b hb => hms b (List.mem_cons_of_mem _ hb)) (fun b hb => hown b (List.mem_cons_of_mem _ hb))
      (fun b hb => hopen b (List.mem_cons_of_mem _ hb)) (fun b hb => hne b (List.mem_cons_of_mem _ hb))
      (fun b hb => hpos b (List.mem_cons_of_mem _ hb)) hids (fun b hb => ?_) (by simpa using hseqs)
    · simpa [Rules.fileAll] using hrest
    · have hba : b.id ≠ a.id := fun he => hid (he ▸ List.mem_map_of_mem hb)
      rw [Rules.file_of_ne _ hba, hnew b (List.mem_cons_of_mem _ hb)]
      rfl

end Runs

section Confluence
variable {self : String} {ms : Messages}

/-- The thread columns of a stored message. -/
def threadOf (s : Tables) (envelopeId : String) : Option (Option String × Bool) :=
  (s.messages.get? envelopeId).map fun m => (m.threadRootId, m.threadRootUnverified)

/-- The row and the root are of one kind and of one channel and space, as far as both name
a space, or of one DM conversation. -/
structure SamePlace (m root : MessageRow) : Prop where
  kind : m.envelopeKind = root.envelopeKind
  channel : m.envelopeKind = "channel" → m.channelId = root.channelId ∧
    (m.spaceId = none ∨ root.spaceId = none ∨ m.spaceId = root.spaceId)
  conversation : m.envelopeKind = "dm" → sameConversation root m

/-- Any two orders of the deliveries leave the same thread columns, no unverified claim on
a stored message, and only verified roots in the reply's own place. -/
def Confluent (host : Host) (self : String) (ms : Messages) : Prop :=
  ∀ as bs, Stores self ms as → Stores self ms bs →
    let s := run (receive host) Tables.empty as
    (∀ k, threadOf s k = threadOf (run (receive host) Tables.empty bs) k) ∧
    (∀ m ∈ s.messages.rows, ∀ root ∈ s.messages.rows, ¬ Store.claims root.envelopeId m) ∧
    ∀ m ∈ s.messages.rows, ∀ r, m.threadRootId = some r → r ≠ "" → m.threadRootUnverified = false →
      ∃ root ∈ s.messages.rows, root.envelopeId = r ∧ SamePlace m root

theorem Fits.threadOf {s : Tables} {shelf : Claims.Shelf String} (h : Fits ms s shelf) (k : String) :
    threadOf s k = (shelf k).bind fun st => (ms.get? k).map fun payload => threadColumns payload st := by
  have hrel := h k
  unfold Ingress.threadOf
  generalize s.messages.get? k = m at hrel
  generalize shelf k = st at hrel
  cases hrel with
  | none => rfl
  | some hrel =>
    obtain ⟨payload, hp, hh⟩ := hrel
    simp [hp, hh.columns]

theorem Fits.row {s : Tables} {shelf : Claims.Shelf String} (h : Fits ms s shelf) {m : MessageRow} (hm : m ∈ s.messages.rows) :
    ∃ payload st, shelf m.envelopeId = some st ∧ ms.get? m.envelopeId = some payload ∧ Hangs payload st m := by
  have hrel := h m.envelopeId
  rw [Table.get?_of_mem hm] at hrel
  obtain ⟨st, hs, payload, hp, hh⟩ := rel_some_left hrel
  exact ⟨payload, st, hs, hp, hh⟩

theorem Stores.get? {as : List Arrival} (h : Stores self ms as) {a : Arrival} (ha : a ∈ as) :
    ms.get? a.id = some a.payload :=
  Table.get?_of_mem (h.messages.mem_iff.1 (List.mem_map_of_mem ha))

theorem Stores.ids {as : List Arrival} (h : Stores self ms as) :
    (as.map Arrival.id).Perm (ms.rows.map (·.envelopeId)) := by
  have := h.messages.map (·.envelopeId)
  rwa [List.map_map] at this

theorem Stores.filed {as : List Arrival} (h : Stores self ms as) (host : Host) :
    Filed ms as (run (receive host) Tables.empty as)
      ((threadRules self ms).fileAll (fun _ => none) (as.map Arrival.id)) := by
  have hempty : Filed ms [] Tables.empty (fun _ => none) := ⟨fun _ => .none, Rules.sound_empty,
    fun _ hm => absurd hm List.not_mem_nil⟩
  exact hempty.run host (fun a ha => h.get? ha) h.own h.open'
    (fun a ha => h.named _ (h.messages.mem_iff.1 (List.mem_map_of_mem ha))) h.positive (h.ids.nodup_iff.2 ms.nodup)
    (fun _ _ => rfl) h.seqs

theorem pairwiseCheck_iff {check : MessagePayload → MessagePayload → Bool} {k r : String} :
    pairwiseCheck ms check k r ↔ ∃ m root, ms.get? k = some m ∧ ms.get? r = some root ∧ check m root := by
  unfold pairwiseCheck
  cases ms.get? k <;> cases ms.get? r <;> simp

/-- Both checks together put the root in the reply's place. -/
theorem samePlace_of_checks {payload root : MessagePayload} {m values : MessageRow} (hm : Placed payload m)
    (hv : Placed root values) (hk : payload.envelopeKind = "channel" ∨ payload.envelopeKind = "dm")
    (hd : deferredCheck false payload.columns root.columns) (ha : (payload.expected self).admits root.columns) :
    SamePlace m values := by
  have hkind : payload.envelopeKind = root.envelopeKind := by
    simp only [Expected.admits, Bool.decide_and, Bool.and_eq_true, decide_eq_true_eq] at ha
    rcases ha.1 with he | he
    · rw [MessagePayload.expected] at he
      rcases hk with hk | hk <;> simp [hk] at he
    · exact he.symm
  rw [← hm.deferredCheck hv] at hd
  refine ⟨by rw [hm.envelopeKind, hv.envelopeKind, hkind], fun hch => ?_, fun hdm => ?_⟩
  · have hvk : values.envelopeKind = "channel" := by rw [hv.envelopeKind, ← hkind, ← hm.envelopeKind, hch]
    simp only [deferredCheck, hvk, if_true, Bool.false_eq_true, false_or, Bool.decide_and, Bool.and_eq_true,
      decide_eq_true_eq, sqlEq] at hd
    simpa using And.intro hd.1.2 hd.2
  · have hvk : values.envelopeKind = "dm" := by rw [hv.envelopeKind, ← hkind, ← hm.envelopeKind, hdm]
    simpa [deferredCheck, hvk] using hd

/-- Where both checks agree along the claims, and no message claims its way onto a cycle,
the order of the deliveries does not matter. -/
theorem confluent_of_orderly (host : Host) (self : String) (ms : Messages)
    (ho : (threadRules self ms).Orderly {k | k ∈ ms.rows.map (·.envelopeId)}) : Confluent host self ms := by
  intro as bs ha hb s
  have hfa := ha.filed host
  have hfb := hb.filed host
  have hset : {k | k ∈ ms.rows.map (·.envelopeId)} = {k | k ∈ as.map Arrival.id} := by
    ext k
    exact ha.ids.mem_iff.symm
  rw [hset] at ho
  have hn : (as.map Arrival.id).Nodup := ha.ids.nodup_iff.2 ms.nodup
  have hshelf := Rules.fileAll_perm ho hn (ha.ids.trans hb.ids.symm)
  refine ⟨fun k => ?_, fun m hm root hroot hc => ?_, fun m hm r hr hre hu => ?_⟩
  · rw [hfa.fits.threadOf, hfb.fits.threadOf, hshelf]
  · obtain ⟨payload, st, hs, -, hh⟩ := hfa.fits.row hm
    obtain ⟨-, st', hs', -, -⟩ := hfa.fits.row hroot
    obtain rfl := hh.claims_iff.1 hc
    exact absurd ((hfa.sound.unverified hs).symm.trans hs') nofun
  · obtain ⟨payload, st, hs, hp, hh⟩ := hfa.fits.row hm
    have hst : st = .verified r := by
      have hcols := hh.columns
      rw [hr, hu] at hcols
      cases st with
      | free =>
        have hf : payload.threadRootId.filter (· = "") = some r := (congrArg Prod.fst hcols).symm
        simp [Option.filter_eq_some_iff, hre] at hf
      | verified q => rw [Option.some.inj (congrArg Prod.fst hcols)]
      | unverified q => exact absurd (congrArg Prod.snd hcols) nofun
    subst hst
    have href := Rules.reflects_empty.fileAll ho hn (fun _ hk => hk) (Set.empty_subset _) (fun _ _ => Set.notMem_empty _)
    have hS : (∅ ∪ {k | k ∈ as.map Arrival.id} : Set String) ⊆ {k | k ∈ as.map Arrival.id} := by simp
    obtain ⟨-, hpass, hadm⟩ := (href.stands hs).verified_fits ho hS (href.mem_iff.2 (by rw [hs]; rfl))
    obtain ⟨values, hg, root, hroot, hv⟩ := rel_some_right ((hfa.sound.verified hs) ▸ hfa.fits r)
    obtain ⟨p₁, q₁, hp₁, hq₁, hpass⟩ := pairwiseCheck_iff.1 hpass
    obtain ⟨p₂, q₂, hp₂, hq₂, hadm⟩ := pairwiseCheck_iff.1 hadm
    obtain rfl := Option.some.inj (hp.symm.trans hp₁)
    obtain rfl := Option.some.inj (hp.symm.trans hp₂)
    obtain rfl := Option.some.inj (hroot.symm.trans hq₁)
    obtain rfl := Option.some.inj (hroot.symm.trans hq₂)
    exact ⟨values, Table.mem_of_get? hg, Table.get?_key hg,
      samePlace_of_checks hh.placed hv.placed (ha.kinds payload (Table.mem_of_get? hp)) hpass hadm⟩

/-- A channel message of a thread. -/
def threadMessage (envelopeId spaceId channelId : String) (threadRootId : Option String) : MessagePayload where
  envelopeId := envelopeId
  envelopeKind := "channel"
  senderSlug := "mallory"
  sentAt := 0
  contentType := "text/plain"
  content := .str ""
  isVisibleToHuman := true
  spaceId := some spaceId
  channelId := some channelId
  threadRootId := threadRootId

/-- Deliveries with sequences 1, 2, ... -/
def arrivals (payloads : List MessagePayload) : List Arrival :=
  payloads.zipIdx.map fun (payload, i) => ⟨plainClient "" true, payload, i + 1, false, 1000⟩

theorem stores_arrivals {payloads : List MessagePayload} (hp : payloads.Perm ms.rows)
    (hm : ∀ m ∈ ms.rows, m.envelopeKind = "channel" ∧ m.envelopeId ≠ "") : Stores "agent" ms (arrivals payloads) where
  messages := by
    have : (arrivals payloads).map (·.payload) = payloads := by simp [arrivals, Function.comp_def]
    rwa [this]
  kinds m h := .inl (hm m h).1
  named m h := (hm m h).2
  own a ha := by
    obtain ⟨p, -, rfl⟩ := List.mem_map.1 ha
    rfl
  open' a ha := by
    obtain ⟨p, -, rfl⟩ := List.mem_map.1 ha
    simp [blockedGate, isBlocked, plainClient]
  positive a ha := by
    obtain ⟨p, -, rfl⟩ := List.mem_map.1 ha
    dsimp only
    omega
  seqs := by
    have : (arrivals payloads).map (·.serverSeq) =
        (payloads.zipIdx.map Prod.snd).map fun i : Nat => (i : Int) + 1 := by
      rw [arrivals, List.map_map, List.map_map]
      rfl
    rw [this, List.zipIdx_map_snd]
    exact List.Nodup.map (fun i j h => Int.ofNat_inj.1 (by simpa using h)) List.nodup_range'

/-- A root and its reply. -/
def plainThread : Messages := ⟨[threadMessage "x" "s" "c" none, threadMessage "r" "s" "c" (some "x")], by decide⟩

theorem confluent_plainThread : Confluent asciiHost "agent" plainThread := by
  refine confluent_of_orderly asciiHost "agent" plainThread (Rules.orderly_of_flat ?_ ?_)
  all_goals
    rintro k a ⟨hk, ha, hc⟩
    change k ∈ ["x", "r"] at hk
    change a ∈ ["x", "r"] at ha
    simp only [List.mem_cons, List.not_mem_nil, or_false] at hk ha
    rcases hk with rfl | rfl <;> rcases ha with rfl | rfl <;> revert hc <;> decide

/-- A root, a reply to it from another channel, and a reply to that one. -/
def replyElsewhere : Messages := ⟨[threadMessage "x" "s" "c2" none, threadMessage "r" "s" "c1" (some "x"),
  threadMessage "m" "s" "c1" (some "r")], by decide⟩

/-- A reply to a message that claims a root of another channel keeps its thread or loses it,
depending on the order. -/
theorem not_confluent_replyElsewhere : ¬ Confluent asciiHost "agent" replyElsewhere := by
  intro h
  have hall : ∀ m ∈ replyElsewhere.rows, m.envelopeKind = "channel" ∧ m.envelopeId ≠ "" := by decide
  have hback : [threadMessage "r" "s" "c1" (some "x"), threadMessage "m" "s" "c1" (some "r"),
      threadMessage "x" "s" "c2" none].Perm replyElsewhere.rows := (List.perm_append_comm : ([_, _] ++ [_]).Perm ([_] ++ [_, _]))
  obtain ⟨hthread, -⟩ := h _ _ (stores_arrivals (.refl _) hall) (stores_arrivals hback hall)
  exact absurd (hthread "m") (by decide +kernel)

/-- A reply to a message of another space, which is itself a reply. -/
def rootElsewhere : Messages := ⟨[threadMessage "m" "s1" "c" (some "a"), threadMessage "x" "s2" "c" none,
  threadMessage "a" "s2" "c" (some "x")], by decide⟩

/-- The deferred check of a claim on a reply does not look at the space. -/
theorem not_confluent_rootElsewhere : ¬ Confluent asciiHost "agent" rootElsewhere := by
  intro h
  have hall : ∀ m ∈ rootElsewhere.rows, m.envelopeKind = "channel" ∧ m.envelopeId ≠ "" := by decide
  have hstores := stores_arrivals (.refl _) hall
  obtain ⟨-, -, hplace⟩ := h _ _ hstores hstores
  have hm : ((run (receive asciiHost) Tables.empty (arrivals rootElsewhere.rows)).messages.get? "m").map (fun m =>
      (m.threadRootId, m.threadRootUnverified, m.envelopeKind, m.spaceId)) = some (some "x", false, "channel", some "s1") := by
    decide +kernel
  have hx : ((run (receive asciiHost) Tables.empty (arrivals rootElsewhere.rows)).messages.get? "x").map (·.spaceId) =
      some (some "s2") := by
    decide +kernel
  obtain ⟨m, hg, hm⟩ := Option.map_eq_some_iff.1 hm
  obtain ⟨root, hroot, hx⟩ := Option.map_eq_some_iff.1 hx
  simp only [Prod.mk.injEq] at hm
  obtain ⟨root', hmem, hid, hplace⟩ := hplace m (Table.mem_of_get? hg) "x" hm.1 (by decide) hm.2.1
  have hsame : root' = root := by
    have := Table.get?_of_mem hmem
    rw [hid, hroot] at this
    exact (Option.some.inj this).symm
  subst hsame
  have hspace := (hplace.channel hm.2.2.1).2
  simp [hm.2.2.2, hx] at hspace

theorem root_checks_disagree : ¬ Confluent asciiHost "agent" replyElsewhere ∧ ¬ Confluent asciiHost "agent" rootElsewhere :=
  ⟨not_confluent_replyElsewhere, not_confluent_rootElsewhere⟩

end Confluence
end PuffoAgent.Ingress
