import PuffoAgent.Store.Receipts
import PuffoAgent.Store.Turns

/-! What one committed transaction can do to the Inbox tables. Every operation is
shown to have one of these effects, and every invariant is shown of the effects. -/
namespace PuffoAgent.Store
open Relational

/-- Rows with a shape that an insertion gives. -/
structure Arrival (m : MessageRow) : Prop where
  turn : m.processingTurnId = none
  visible : m.modelVisibleAt = none
  once : m.renotified = false
  listed : m.processingState = none ∨ m.isListed

/-- What only some operations may do: write a sequence to a local row that is still
waiting or in a turn, leave the given row under a sequence it did not have, take the given
row back from the model, or write the given context baseline. -/
structure Licence where
  strands : Prop := False
  files : MessageRow → Prop := fun _ => False
  requeues : MessageRow → Prop := fun _ => False
  rebases : ChannelContextRow → Prop := fun _ => False

/-- A local row as a sequenced eligible receipt leaves it. -/
def MessageRow.sequenced (m : MessageRow) (seq : Int) (reason : String) : MessageRow := { m with
  serverSeq := some seq
  receiptDisposition := some .eligible
  receiptReason := some reason
  localOrdinal := none
  afterServerSeq := none }

/-- An unclassified row as a sequenced gated receipt leaves it. -/
def MessageRow.gated (m : MessageRow) (seq : Int) (reason : String) : MessageRow := { m with
  serverSeq := some seq
  receiptDisposition := some .foreignDmGated
  receiptReason := some reason }

/-- The moves of a row that no turn owns before or after, and those that leave the
owner alone. -/
inductive Aside (licence : Licence) : MessageRow → MessageRow → Prop
  | rethreaded (m root unverified) :
    Aside licence m { m with threadRootId := root, threadRootUnverified := unverified }
  | sequenced (m seq reason) (hl : m.receiptDisposition = some .localRuntime)
      (hf : licence.files (m.sequenced seq reason)) : Aside licence m (m.sequenced seq reason)
  | gated (m seq reason) (hd : m.receiptDisposition = none) (hp : m.processingState = none)
      (hf : licence.files (m.gated seq reason)) : Aside licence m (m.gated seq reason)
  | backfilled (m seq) (hs : m.serverSeq = none)
      (hl : m.receiptDisposition = some .localRuntime →
        m.processingState = some .pending ∨ m.processingState = some .inTurn → licence.strands)
      (hf : licence.files { m with serverSeq := some seq }) :
    Aside licence m { m with serverSeq := some seq }
  | classified (m d reason) (hs : m.serverSeq = none) (hd : m.receiptDisposition = none) :
    Aside licence m { m with receiptDisposition := some d, receiptReason := some reason }
  | releasedLocal (m reason ordinal frontier contentType content) (hs : m.serverSeq = none)
      (hg : m.isGated) :
    Aside licence m { m with
      receiptDisposition := some .localRuntime, receiptReason := some reason,
      processingState := some .pending, localOrdinal := some ordinal, afterServerSeq := frontier,
      contentType := contentType, content := content }
  | released (m reason contentType content) (hs : m.serverSeq.isSome) (hg : m.isGated) :
    Aside licence m { m with
      receiptDisposition := some .eligible, receiptReason := some reason,
      processingState := some .pending, contentType := contentType, content := content }
  | denied (m) (hg : m.receiptDisposition = some .foreignDmGated) :
    Aside licence m (denied m)
  | quarantined (m reason) (hp : m.isPending) :
    Aside licence m { m with
      receiptDisposition := some .terminal, receiptReason := some reason,
      processingState := none, processingTurnId := none, modelVisibleAt := none }
  | covered (m now) (hp : m.isPending) : Aside licence m (m.covered now)

/-- How a row leaves the turn that owned it. -/
inductive Ended (licence : Licence) : MessageRow → MessageRow → Prop
  | completed (m at_) : Ended licence m (m.completed at_)
  | renoticed (m) : Ended licence m m.renoticed
  | settled (m at_) : Ended licence m (m.settled at_)
  | requeued (m) (hr : licence.requeues m) : Ended licence m m.requeued

def Tables.isActive (s : Tables) (turnId : String) : Prop :=
  (s.turnRuns.get? turnId).map (·.state) = some .inTurn

def Tables.isMember (s : Tables) (turnId envelopeId : String) : Prop :=
  ∃ r ∈ s.turnRunMessages.rows, r.turnId = turnId ∧ r.envelopeId = envelopeId

/-- Every turn is in the state it was in. -/
def Tables.sameRuns (s s' : Tables) : Prop :=
  ∀ t, (s'.turnRuns.get? t).map (·.state) = (s.turnRuns.get? t).map (·.state)

/-- What a committed transaction does to messages, turns and memberships. -/
inductive Ledger (licence : Licence) (s s' : Tables) : Prop
  | aside (rows : ∀ k, Option.Rel (Aside licence) (s.messages.get? k) (s'.messages.get? k))
      (runs : s.sameRuns s') (members : s'.turnRunMessages = s.turnRunMessages)
  | arrived (m : MessageRow) (shape : Arrival m) (filed : m.serverSeq = none ∨ licence.files m)
      (free : s.messages.get? m.envelopeId = none)
      (stored : s'.messages.get? m.envelopeId = some m)
      (rows : ∀ k, k ≠ m.envelopeId →
        Option.Rel (Aside licence) (s.messages.get? k) (s'.messages.get? k))
      (runs : s.sameRuns s') (members : s'.turnRunMessages = s.turnRunMessages)
  | swept (cutoff : Int) (rows : s'.messages = s.messages.delete (·.isExpired cutoff))
      (runs : s.sameRuns s') (members : s'.turnRunMessages = s.turnRunMessages)
  | opened (turnId : String) (free : s.turnRuns.get? turnId = none) (active : s'.isActive turnId)
      (messages : s'.messages = s.messages)
      (runs : ∀ t, t ≠ turnId → s'.turnRuns.get? t = s.turnRuns.get? t)
      (members : s'.turnRunMessages = s.turnRunMessages)
  | admitted (turnId : String) (ids : List String) (first : Nat) (at_ : Int) (nodup : ids.Nodup)
      (pending : ∀ e ∈ ids, ∃ m, s.messages.get? e = some m ∧ m.isPending)
      (run : (s.turnRuns.get? turnId = none ∧ first = 0) ∨
        (s.isActive turnId ∧ first = nextMemberOrdinal s turnId))
      (active : s'.isActive turnId)
      (runs : ∀ t, t ≠ turnId → s'.turnRuns.get? t = s.turnRuns.get? t)
      (rows : ∀ k, s'.messages.get? k =
        (s.messages.get? k).map (fun m => if k ∈ ids then m.admitted turnId at_ else m))
      (members : s'.turnRunMessages.rows = s.turnRunMessages.rows ++
        ids.mapIdx (fun i e => ⟨turnId, e, first + i⟩))
      (named : "" ∉ ids)
  | ended (turnId : String) (was : s.isActive turnId)
      (known : (s'.turnRuns.get? turnId).isSome) (now : ¬ s'.isActive turnId)
      (runs : ∀ t, t ≠ turnId → s'.turnRuns.get? t = s.turnRuns.get? t)
      (rows : ∀ k, s.isMember turnId k → ∃ m m', s.messages.get? k = some m ∧ m.isInTurn turnId ∧
        Ended licence m m' ∧ s'.messages.get? k = some m')
      (others : ∀ k, ¬ s.isMember turnId k → s'.messages.get? k = s.messages.get? k)
      (members : s'.turnRunMessages = s.turnRunMessages)

/-- What one transaction may do to a row it keeps. -/
inductive Moved (licence : Licence) (m : MessageRow) : MessageRow → Prop
  | aside {m' : MessageRow} (ha : Aside licence m m') : Moved licence m m'
  | admitted (turnId : String) (at_ : Int) (hp : m.isPending = true) :
    Moved licence m (m.admitted turnId at_)
  | ended {m' : MessageRow} (turnId : String) (hp : m.isInTurn turnId = true)
      (he : Ended licence m m') : Moved licence m m'

/-- Every stored row satisfies `P`. -/
def AllRows (P : MessageRow → Prop) (s : Tables) : Prop := ∀ k m, s.messages.get? k = some m → P m

/-- The rule for properties of single rows: every way a row arrives or moves keeps `P`. -/
theorem Ledger.allRows {licence : Licence} {s s' : Tables} {P : MessageRow → Prop}
    (h : Ledger licence s s') (hs : AllRows P s)
    (arrival : ∀ m, Arrival m → P m) (aside : ∀ m m', Aside licence m m' → P m → P m')
    (admitted : ∀ m turnId at_, m.isPending = true → P m → P (m.admitted turnId at_))
    (ended : ∀ m m' turnId, m.isInTurn turnId = true → Ended licence m m' → P m → P m') :
    AllRows P s' := by
  intro k m' hg
  cases h with
  | aside rows =>
    obtain ⟨m, hm, ha⟩ := rel_some_right (hg ▸ rows k)
    exact aside m m' ha (hs k m hm)
  | arrived row shape filed free stored rows =>
    by_cases hk : k = row.envelopeId
    · rw [hk, stored] at hg
      obtain rfl := Option.some.inj hg
      exact arrival row shape
    · obtain ⟨m, hm, ha⟩ := rel_some_right (hg ▸ rows k hk)
      exact aside m m' ha (hs k m hm)
  | swept cutoff rows =>
    rw [rows, Table.get?_delete, Option.filter_eq_some_iff] at hg
    exact hs k m' hg.1
  | opened turnId free active messages => exact hs k m' (messages ▸ hg)
  | admitted turnId ids first at_ nodup pending run active runs rows =>
    rw [rows, Option.map_eq_some_iff] at hg
    obtain ⟨m, hm, rfl⟩ := hg
    split
    · rename_i hk
      obtain ⟨m₁, hm₁, hp⟩ := pending k hk
      obtain rfl := Option.some.inj (hm.symm.trans hm₁)
      exact admitted m turnId at_ hp (hs k m hm)
    · exact hs k m hm
  | ended turnId was known now runs rows others =>
    by_cases hk : s.isMember turnId k
    · obtain ⟨m, m₁, hm, hp, he, hm₁⟩ := rows k hk
      obtain rfl := Option.some.inj (hm₁.symm.trans hg)
      exact ended m m₁ turnId hp he (hs k m hm)
    · exact hs k m' (others k hk ▸ hg)

theorem allRows_empty (P : MessageRow → Prop) : AllRows P Tables.empty := by
  intro k m hg
  simp [Tables.empty] at hg

/-- What a committed transaction does to the notice row and its contributions. -/
inductive Noticed (s s' : Tables) : Prop
  | silent (pending : s'.pendingIds = s.pendingIds) (state : s'.noticeState = s.noticeState)
      (contributions : s'.noticeContributions = s.noticeContributions)
  | refreshed (now : Int) (activatedAt : Option Int) (t : Tables)
      (state : t.noticeState = s.noticeState)
      (contributions : ∀ k, t.noticeContributions.get? k = s.noticeContributions.get? k ∨
        (t.noticeContributions.get? k = none ∧ k ∉ s.pendingIds))
      (pending : s.pendingIds ⊆ t.pendingIds ∨ t.pendingIds ⊆ s.pendingIds)
      (pending' : s'.pendingIds = t.pendingIds)
      (state' : s'.noticeState = (refreshNoticeState now activatedAt t).noticeState)
      (contributions' : s'.noticeContributions =
        (refreshNoticeState now activatedAt t).noticeContributions)
  | marked (generation : Nat) (session : String) (ids : List String) (turnId : Option String)
      (named : session ≠ "") (pending : s'.pendingIds = s.pendingIds)
      (state : s'.noticeState =
        (markNoticeDeliveredUnlocked s generation session ids turnId).2.noticeState)
      (contributions : s'.noticeContributions =
        (markNoticeDeliveredUnlocked s generation session ids turnId).2.noticeContributions)
  | released (session : String) (p : NoticeContributionRow → Bool)
      (named : s.noticeState.lastDeliveredProviderSessionId = some session)
      (pending : s'.pendingIds = s.pendingIds)
      (contributions : s'.noticeContributions = s.noticeContributions.delete p)
      (state : s'.noticeState = if s.noticeContributions.select p = [] then s.noticeState
        else { s.noticeState with lastDeliveredGeneration := s.noticeState.generation - 1 })

structure Effect (licence : Licence) (s s' : Tables) : Prop where
  ledger : Ledger licence s s'
  noticed : Noticed s s'
  context : ∀ c, s'.channelContextState.get? c = s.channelContextState.get? c ∨
    ∃ row, s'.channelContextState.get? c = some row ∧ licence.rebases row

/-- The context baselines are as they were. -/
theorem Licence.context_of_eq (licence : Licence) {s s' : Tables}
    (h : s'.channelContextState = s.channelContextState) (c : String × String) :
    s'.channelContextState.get? c = s.channelContextState.get? c ∨
      ∃ row, s'.channelContextState.get? c = some row ∧ licence.rebases row := by
  rw [h]
  exact .inl rfl

theorem Noticed.of_refresh {s t : Tables} (now : Int) (activatedAt : Option Int)
    (state : t.noticeState = s.noticeState)
    (contributions : ∀ k, t.noticeContributions.get? k = s.noticeContributions.get? k ∨
      (t.noticeContributions.get? k = none ∧ k ∉ s.pendingIds))
    (pending : s.pendingIds ⊆ t.pendingIds ∨ t.pendingIds ⊆ s.pendingIds) :
    Noticed s (refreshNoticeState now activatedAt t) :=
  .refreshed now activatedAt t state contributions pending rfl rfl rfl

/-- The tables beside `messages` that the invariants speak about. -/
structure Tables.SameBooks (s s' : Tables) : Prop where
  turnRuns : s'.turnRuns = s.turnRuns
  turnRunMessages : s'.turnRunMessages = s.turnRunMessages
  noticeState : s'.noticeState = s.noticeState
  noticeContributions : s'.noticeContributions = s.noticeContributions
  channelContextState : s'.channelContextState = s.channelContextState

section Frame
variable (now : Int) (activatedAt : Option Int) (s : Tables)

@[simp]
theorem refreshNoticeState_messages : (refreshNoticeState now activatedAt s).messages = s.messages := rfl

@[simp]
theorem refreshNoticeState_turnRunMessages :
    (refreshNoticeState now activatedAt s).turnRunMessages = s.turnRunMessages := rfl

@[simp]
theorem get?_updateMessages (p : MessageRow → Bool) (f : MessageRow → MessageRow)
    (hf : ∀ m, (f m).envelopeId = m.envelopeId) (k : String) :
    (s.updateMessages p f hf).messages.get? k =
      (s.messages.get? k).map (fun m => if p m then f m else m) := Table.get?_update _ p f hf k

theorem updateMessages_hits {s : Tables} {k : String} {p : MessageRow → Bool} {f : MessageRow → MessageRow}
    (hf : ∀ m, (f m).envelopeId = m.envelopeId) {m : MessageRow} (hg : s.messages.get? k = some m) (hp : p m = true) :
    (s.updateMessages p f hf).messages.get? k = some (f m) := by
  rw [get?_updateMessages, hg, Option.map_some, if_pos hp]

end Frame

section Rows
variable {licence : Licence} {s s' t : Tables}

theorem Aside.refl (m : MessageRow) : Aside licence m m := .rethreaded m _ _

/-- A row is deleted by retention, or it moves. -/
theorem Ledger.moved (h : Ledger licence s s') {k : String} {m : MessageRow}
    (hg : s.messages.get? k = some m) :
    (s'.messages.get? k = none ∧ ∃ cutoff, m.isExpired cutoff = true) ∨
      ∃ m', s'.messages.get? k = some m' ∧ Moved licence m m' := by
  cases h with
  | aside rows =>
    obtain ⟨m', hm', ha⟩ := rel_some_left (hg ▸ rows k)
    exact .inr ⟨m', hm', .aside ha⟩
  | arrived row shape filed free stored rows =>
    have hk : k ≠ row.envelopeId := by
      rintro rfl
      rw [free] at hg
      cases hg
    obtain ⟨m', hm', ha⟩ := rel_some_left (hg ▸ rows k hk)
    exact .inr ⟨m', hm', .aside ha⟩
  | swept cutoff rows =>
    rw [rows, Table.get?_delete, hg]
    by_cases he : m.isExpired cutoff = true
    · exact .inl ⟨by simp [he], cutoff, he⟩
    · exact .inr ⟨m, by simp [he], .aside (Aside.refl m)⟩
  | opened turnId free active messages =>
    exact .inr ⟨m, messages ▸ hg, .aside (Aside.refl m)⟩
  | admitted turnId ids first at_ nodup pending run active runs rows =>
    rw [rows, hg]
    by_cases hk : k ∈ ids
    · obtain ⟨m₁, hm₁, hp⟩ := pending k hk
      obtain rfl := Option.some.inj (hg.symm.trans hm₁)
      exact .inr ⟨_, by simp [hk], .admitted turnId at_ hp⟩
    · exact .inr ⟨m, by simp [hk], .aside (Aside.refl m)⟩
  | ended turnId was known now runs rows others =>
    by_cases hk : s.isMember turnId k
    · obtain ⟨m₁, m', hm₁, hp, he, hm'⟩ := rows k hk
      obtain rfl := Option.some.inj (hg.symm.trans hm₁)
      exact .inr ⟨m', hm', .ended turnId hp he⟩
    · exact .inr ⟨m, by rw [others k hk, hg], .aside (Aside.refl m)⟩

theorem mem_pendingIds {k : String} :
    k ∈ s.pendingIds ↔ ∃ m, s.messages.get? k = some m ∧ m.isPending = true := Table.mem_keysWhere

theorem pendingIds_of_messages (h : s'.messages = s.messages) : s'.pendingIds = s.pendingIds := by
  rw [Tables.pendingIds, h, Tables.pendingIds]

theorem Tables.sameRuns_of_eq (h : s'.turnRuns = s.turnRuns) : s.sameRuns s' := fun t => by rw [h]

theorem Aside.envelopeId {m m' : MessageRow} (h : Aside licence m m') :
    m'.envelopeId = m.envelopeId := by
  cases h <;> rfl

section Update
variable {g : MessageRow → MessageRow} (hm : s'.messages.rows = s.messages.rows.map g)
  (hg : ∀ m ∈ s.messages.rows, (g m).envelopeId = m.envelopeId)
include hm hg

theorem pendingIds_subset_map (h : ∀ m, m.isPending = true → (g m).isPending = true) :
    s.pendingIds ⊆ s'.pendingIds := by
  intro k hk
  obtain ⟨m, hs, hp⟩ := mem_pendingIds.mp hk
  exact mem_pendingIds.mpr ⟨g m, by rw [Table.get?_of_rows_map hm hg, hs]; rfl, h m hp⟩

theorem pendingIds_map_subset (h : ∀ m, (g m).isPending = true → m.isPending = true) :
    s'.pendingIds ⊆ s.pendingIds := by
  intro k hk
  obtain ⟨m', hs, hp⟩ := mem_pendingIds.mp hk
  rw [Table.get?_of_rows_map hm hg, Option.map_eq_some_iff] at hs
  obtain ⟨m, hs, rfl⟩ := hs
  exact mem_pendingIds.mpr ⟨m, hs, h m hp⟩

end Update

section Aside
variable {p : MessageRow → Bool} {f : MessageRow → MessageRow}
  (hm : s'.messages.rows = s.messages.rows.map fun m => if p m = true then f m else m)
  (books : s.SameBooks s') (step : ∀ m ∈ s.messages.rows, p m = true → Aside licence m (f m))
include step

private theorem ite_aside (m : MessageRow) (hmem : m ∈ s.messages.rows) :
    Aside licence m (if p m = true then f m else m) := by
  split
  · rename_i hp
    exact step m hmem hp
  · exact Aside.refl m

include hm

private theorem rows_aside (k : String) :
    Option.Rel (Aside licence) (s.messages.get? k) (s'.messages.get? k) :=
  Table.rel_of_rows_map hm (fun m h => (ite_aside step m h).envelopeId) (ite_aside step) k

include books

/-- An `UPDATE` that moves rows aside and announces nothing. -/
theorem Effect.of_update (still : ∀ m, p m = true → (f m).isPending = m.isPending) :
    Effect licence s s' where
  ledger := .aside (rows_aside hm step) (Tables.sameRuns_of_eq books.turnRuns) books.turnRunMessages
  context := licence.context_of_eq books.channelContextState
  noticed := by
    have hg m h := (ite_aside step m h).envelopeId
    have he (m : MessageRow) : (if p m = true then f m else m).isPending = m.isPending := by
      split
      · rename_i hp
        exact still m hp
      · rfl
    refine .silent ?_ books.noticeState books.noticeContributions
    exact Finset.Subset.antisymm (pendingIds_map_subset hm hg fun m hp => he m ▸ hp)
      (pendingIds_subset_map hm hg fun m hp => (he m).symm ▸ hp)

/-- An `UPDATE` that moves rows aside, all in one direction, and refreshes the notice. -/
theorem Effect.of_update_refresh
    (oneWay : (∀ m, p m = true → m.isPending = true → (f m).isPending = true) ∨
      ∀ m, p m = true → (f m).isPending = true → m.isPending = true)
    (now : Int) (activatedAt : Option Int) :
    Effect licence s (refreshNoticeState now activatedAt s') where
  ledger := .aside (rows_aside hm step) (Tables.sameRuns_of_eq books.turnRuns) books.turnRunMessages
  context := licence.context_of_eq books.channelContextState
  noticed := by
    have hg m h := (ite_aside step m h).envelopeId
    refine .of_refresh now activatedAt books.noticeState (fun k => .inl ?_) ?_
    · rw [books.noticeContributions]
    · refine oneWay.imp (fun h => pendingIds_subset_map hm hg ?_)
        fun h => pendingIds_map_subset hm hg ?_
      · intro m hp
        split
        · rename_i hpm
          exact h m hpm hp
        · exact hp
      · intro m hp
        split at hp
        · rename_i hpm
          exact h m hpm hp
        · exact hp

end Aside

theorem Effect.of_same (hm : s'.messages = s.messages) (books : s.SameBooks s') :
    Effect licence s s' where
  ledger := .aside (fun k => by rw [hm]; cases s.messages.get? k with
      | none => exact .none
      | some m => exact .some (Aside.refl m))
    (Tables.sameRuns_of_eq books.turnRuns) books.turnRunMessages
  noticed := .silent (pendingIds_of_messages hm) books.noticeState books.noticeContributions
  context := licence.context_of_eq books.channelContextState

theorem Effect.refl (s : Tables) : Effect licence s s := .of_same rfl ⟨rfl, rfl, rfl, rfl, rfl⟩

end Rows

section Insertion
variable {licence : Licence} {s s' t : Tables} {row : MessageRow}

theorem Tables.insertMessage?_eq_some (h : s.insertMessage? row = some t) :
    s.messages.get? row.envelopeId = none ∧
      (∀ k, t.messages.get? k = if row.envelopeId = k then some row else s.messages.get? k) ∧
      s.SameBooks t := by
  unfold Tables.insertMessage? at h
  split at h
  · cases h
  · obtain ⟨messages, hi, rfl⟩ := Option.map_eq_some_iff.mp h
    exact ⟨(Table.insert?_eq_some.mp hi).1, Table.get?_insert hi, rfl, rfl, rfl, rfl, rfl⟩

/-- Only the thread claim of the row has changed. -/
def Rethreaded (m m' : MessageRow) : Prop :=
  ∃ root unverified, m' = { m with threadRootId := root, threadRootUnverified := unverified }

theorem Rethreaded.aside {m m' : MessageRow} (h : Rethreaded m m') : Aside licence m m' := by
  obtain ⟨root, unverified, rfl⟩ := h
  exact .rethreaded m root unverified

theorem Rethreaded.envelopeId {m m' : MessageRow} (h : Rethreaded m m') :
    m'.envelopeId = m.envelopeId := by
  obtain ⟨root, unverified, rfl⟩ := h
  rfl

theorem Rethreaded.isPending {m m' : MessageRow} (h : Rethreaded m m') :
    m'.isPending = m.isPending := by
  obtain ⟨root, unverified, rfl⟩ := h
  rfl

theorem Rethreaded.serverSeq {m m' : MessageRow} (h : Rethreaded m m') :
    m'.serverSeq = m.serverSeq := by
  obtain ⟨root, unverified, rfl⟩ := h
  rfl

theorem Rethreaded.arrival {m m' : MessageRow} (h : Rethreaded m m') (ha : Arrival m) :
    Arrival m' := by
  obtain ⟨root, unverified, rfl⟩ := h
  exact ⟨ha.turn, ha.visible, ha.once, ha.listed⟩

theorem Rethreaded.refl (m : MessageRow) : Rethreaded m m := ⟨_, _, rfl⟩

theorem Rethreaded.trans (m m' m'' : MessageRow) (h : Rethreaded m m') (h' : Rethreaded m' m'') :
    Rethreaded m m'' := by
  obtain ⟨root, unverified, rfl⟩ := h
  obtain ⟨root', unverified', rfl⟩ := h'
  exact ⟨root', unverified', rfl⟩

/-- Only thread claims differ between the two tables. -/
structure Rethreading (s s' : Tables) : Prop where
  rows : ∀ k, Option.Rel Rethreaded (s.messages.get? k) (s'.messages.get? k)
  books : s.SameBooks s'

theorem Tables.SameBooks.trans (h : s.SameBooks t) (h' : t.SameBooks s') : s.SameBooks s' :=
  ⟨h'.turnRuns.trans h.turnRuns, h'.turnRunMessages.trans h.turnRunMessages,
    h'.noticeState.trans h.noticeState, h'.noticeContributions.trans h.noticeContributions,
    h'.channelContextState.trans h.channelContextState⟩

theorem Rethreading.trans (h : Rethreading s t) (h' : Rethreading t s') : Rethreading s s' :=
  ⟨fun k => rel_trans Rethreaded.trans (h.rows k) (h'.rows k), h.books.trans h'.books⟩

theorem Rethreading.of_update (s : Tables) (p : MessageRow → Bool) (f : MessageRow → MessageRow)
    (hf : ∀ m, (f m).envelopeId = m.envelopeId) (hr : ∀ m, Rethreaded m (f m)) :
    Rethreading s (s.updateMessages p f hf) := by
  have hg (m : MessageRow) : Rethreaded m (if p m = true then f m else m) := by
    split
    · exact hr m
    · exact Rethreaded.refl m
  exact ⟨Table.rel_of_rows_map rfl (fun m _ => (hg m).envelopeId) fun m _ => hg m, rfl, rfl, rfl, rfl,
    rfl⟩

/-- The deferred thread check writes only thread claims. -/
theorem settleUnverifiedThreadClaims_rethreading (values : MessageRow) (s : Tables) :
    Rethreading s (settleUnverifiedThreadClaims values s) := by
  have hc : Rethreading s (checkThreadClaims values s) := by
    unfold checkThreadClaims
    split_ifs
    · exact .of_update s _ _ _ fun m => ⟨_, _, rfl⟩
    · exact .of_update s _ _ _ fun m => ⟨_, _, rfl⟩
    · exact .of_update s _ _ _ fun m => ⟨_, _, rfl⟩
    · exact .of_update s _ _ _ fun m => ⟨_, _, rfl⟩
    · exact ⟨fun k => rel_refl Rethreaded.refl _, rfl, rfl, rfl, rfl, rfl⟩
  exact hc.trans (.of_update _ _ _ _ fun m => ⟨_, _, rfl⟩)

/-- An insertion after which at most thread claims are rewritten. -/
structure Inserted (row : MessageRow) (s s' : Tables) : Prop where
  free : s.messages.get? row.envelopeId = none
  stored : ∃ m, Rethreaded row m ∧ s'.messages.get? row.envelopeId = some m
  others : ∀ k, k ≠ row.envelopeId → Option.Rel Rethreaded (s.messages.get? k) (s'.messages.get? k)
  books : s.SameBooks s'

theorem Inserted.of_insertMessage? (h : s.insertMessage? row = some t) : Inserted row s t := by
  obtain ⟨free, rows, books⟩ := Tables.insertMessage?_eq_some h
  refine ⟨free, ⟨row, Rethreaded.refl row, by rw [rows, if_pos rfl]⟩, fun k hk => ?_, books⟩
  rw [rows, if_neg (Ne.symm hk)]
  exact rel_refl Rethreaded.refl _

theorem Inserted.rethreaded (h : Inserted row s t) (h' : Rethreading t s') : Inserted row s s' := by
  obtain ⟨m, hm, hg⟩ := h.stored
  refine ⟨h.free, ?_, fun k hk => ?_, h.books.trans h'.books⟩
  · obtain ⟨m', hg', hm'⟩ := rel_some_left (hg ▸ h'.rows row.envelopeId)
    exact ⟨m', hm.trans _ _ _ hm', hg'⟩
  · exact rel_trans Rethreaded.trans (h.others k hk) (h'.rows k)

theorem Inserted.ledger (h : Inserted row s t) (ha : Arrival row)
    (hf : row.serverSeq = none ∨ ∀ m, Rethreaded row m → licence.files m) (hm : s'.messages = t.messages)
    (hr : s'.turnRuns = t.turnRuns) (hx : s'.turnRunMessages = t.turnRunMessages) :
    Ledger licence s s' := by
  obtain ⟨m, ht, hg⟩ := h.stored
  have hid : m.envelopeId = row.envelopeId := Table.get?_key hg
  have hfiled : m.serverSeq = none ∨ licence.files m :=
    hf.imp (fun hs => by rw [ht.serverSeq, hs]) fun hf => hf m ht
  refine .arrived m (ht.arrival ha) hfiled (by rw [hid]; exact h.free) (by rw [hid, hm]; exact hg) ?_
    (Tables.sameRuns_of_eq (hr.trans h.books.turnRuns)) (hx.trans h.books.turnRunMessages)
  intro k hk
  rw [hm]
  exact rel_mono (h.others k (hid ▸ hk)) fun _ _ => Rethreaded.aside

theorem Inserted.pendingIds_subset (h : Inserted row s s') : s.pendingIds ⊆ s'.pendingIds := by
  intro k hk
  obtain ⟨m, hg, hp⟩ := mem_pendingIds.mp hk
  have hne : k ≠ row.envelopeId := by
    rintro rfl
    rw [h.free] at hg
    cases hg
  obtain ⟨m', hg', hr⟩ := rel_some_left (hg ▸ h.others k hne)
  exact mem_pendingIds.mpr ⟨m', hg', hr.isPending ▸ hp⟩

theorem Inserted.pendingIds_eq (h : Inserted row s s') (hn : row.isPending = false) :
    s'.pendingIds = s.pendingIds := by
  refine Finset.Subset.antisymm ?_ h.pendingIds_subset
  intro k hk
  obtain ⟨m', hg, hp⟩ := mem_pendingIds.mp hk
  by_cases hne : k = row.envelopeId
  · subst hne
    obtain ⟨m, hr, hs⟩ := h.stored
    rw [hs] at hg
    cases hg
    rw [hr.isPending, hn] at hp
    cases hp
  · obtain ⟨m, hg', hr⟩ := rel_some_right (hg ▸ h.others k hne)
    exact mem_pendingIds.mpr ⟨m, hg', hr.isPending ▸ hp⟩

/-- A row that nobody has to be told about. -/
theorem Inserted.effect (h : Inserted row s s') (ha : Arrival row)
    (hf : row.serverSeq = none ∨ ∀ m, Rethreaded row m → licence.files m)
    (hn : row.isPending = false) : Effect licence s s' :=
  ⟨h.ledger ha hf rfl rfl rfl,
    .silent (h.pendingIds_eq hn) h.books.noticeState h.books.noticeContributions,
    licence.context_of_eq h.books.channelContextState⟩

/-- A pending row, announced in the same transaction. -/
theorem Inserted.effect_refresh (h : Inserted row s t) (ha : Arrival row)
    (hf : row.serverSeq = none ∨ ∀ m, Rethreaded row m → licence.files m) (now : Int)
    (activatedAt : Option Int) : Effect licence s (refreshNoticeState now activatedAt t) where
  ledger := h.ledger ha hf rfl rfl rfl
  context := licence.context_of_eq h.books.channelContextState
  noticed := .of_refresh now activatedAt h.books.noticeState
    (fun k => .inl (by rw [h.books.noticeContributions])) (.inl h.pendingIds_subset)

end Insertion

end PuffoAgent.Store
