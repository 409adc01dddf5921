import PuffoAgent.Store.Effects

/-! The effects of the operations that file, classify, release and drop messages. -/
namespace PuffoAgent.Store
open Relational Stmt Sql

/-- A receipt that is not eligible brings a sequence that no row owns for a local row which
is still waiting or in a turn. -/
def Tables.strands (s : Tables) (envelopeId : String) (serverSeq : Int) (disposition : ReceiptDisposition) :
    Prop :=
  disposition ≠ .eligible ∧ 0 < serverSeq ∧ (∀ m ∈ s.messages.rows, m.serverSeq ≠ some serverSeq) ∧
    ∃ m ∈ s.messages.get? envelopeId, m.serverSeq = none ∧ m.receiptDisposition = some .localRuntime ∧
      (m.processingState = some .pending ∨ m.processingState = some .inTurn)

instance (s : Tables) (envelopeId : String) (serverSeq : Int) (disposition : ReceiptDisposition) :
    Decidable (s.strands envelopeId serverSeq disposition) := inferInstanceAs (Decidable (_ ∧ _ ∧ _ ∧ ∃ m ∈ _, _))

/-- The rows that a sequenced receipt can leave under a sequence that nobody owned: a new
row for the payload, or the stored row that lacked one. -/
structure Filed (s : Tables) (payload : Payload) (serverSeq : Int) (disposition : ReceiptDisposition)
    (m' : MessageRow) : Prop where
  envelope : m'.envelopeId = payload.envelopeId
  sequence : m'.serverSeq = some serverSeq
  positive : 0 < serverSeq
  free : ∀ m ∈ s.messages.rows, m.serverSeq ≠ some serverSeq
  row : (s.messages.get? payload.envelopeId = none ∧ m'.envelopeKind = payload.envelopeKind ∧
      m'.spaceId = payload.spaceId ∧ m'.channelId = payload.channelId ∧
      m'.receiptDisposition = some disposition) ∨
    ∃ m, s.messages.get? payload.envelopeId = some m ∧ m.serverSeq = none ∧
      m'.envelopeKind = m.envelopeKind ∧ m'.spaceId = m.spaceId ∧ m'.channelId = m.channelId ∧
      m'.modelVisibleAt = m.modelVisibleAt ∧
      (m.receiptDisposition = some .terminal → m'.receiptDisposition = some .terminal)

def receiptLicence (payload : Payload) (serverSeq : Int) (disposition : ReceiptDisposition)
    (s : Tables) : Licence where
  strands := s.strands payload.envelopeId serverSeq disposition
  files := Filed s payload serverSeq disposition

/-- The effect of an operation, whatever it returns. -/
def Has {α : Type} (licence : Tables → Licence) (x : StoreM α) : Prop :=
  Does (fun s _ s' => Effect (licence s) s s') x

theorem has_transaction {α : Type} {licence : Tables → Licence} {body : BodyM (Finish α)}
    (h : ∀ s a s', body s = .ok (.commit a) s' → Effect (licence s) s s') :
    Has licence (transaction body) :=
  does_transaction h fun s _ _ _ => Effect.refl s

theorem allocateLocalPosition_bind_ok_iff {β : Type} {g : Nat × Option Int → BodyM β} {b : β}
    {s s' : Tables} : (allocateLocalPosition >>= g) s = .ok b s' ↔
      g (localPosition s) { s with nextOrdinal := (localPosition s).1 + 1 } = .ok b s' := Iff.rfl

section Receipts
variable {s s' : Tables} {r : ReceiptResult}

theorem insertNewReceipt_effect {payload : Payload} {serverSeq : Int}
    {disposition : ReceiptDisposition} {reason : String} {receivedAt now : Int}
    (hpos : 0 < serverSeq) (hfree : ∀ m ∈ s.messages.rows, m.serverSeq ≠ some serverSeq)
    (h : insertNewReceipt (payloadValues payload receivedAt) serverSeq disposition reason now s =
      .ok (.commit r) s') :
    Effect (receiptLicence payload serverSeq disposition s) s s' := by
  simp only [insertNewReceipt, insertMessage, tryExec_bind_ok_iff, exec_bind_ok_iff, pure_ok_iff] at h
  obtain ⟨t, hi, -, rfl⟩ := h
  have hr := (Inserted.of_insertMessage? hi).rethreaded
    (settleUnverifiedThreadClaims_rethreading (payloadValues payload receivedAt) t)
  have hh : Inserted _ s (advanceServerSequenceHighWater serverSeq
      (settleUnverifiedThreadClaims (payloadValues payload receivedAt) t)) :=
    ⟨hr.free, hr.stored, hr.others, hr.books.turnRuns, hr.books.turnRunMessages,
      hr.books.noticeState, hr.books.noticeContributions, hr.books.channelContextState⟩
  have hfiled (m : MessageRow) (hm : Rethreaded { payloadValues payload receivedAt with
      serverSeq := some serverSeq
      receiptDisposition := some disposition
      receiptReason := some reason
      processingState := if disposition = .eligible then some .pending else none } m) :
      (receiptLicence payload serverSeq disposition s).files m := by
    obtain ⟨root, unverified, rfl⟩ := hm
    exact ⟨rfl, rfl, hpos, hfree, .inl ⟨hr.free, rfl, rfl, rfl, rfl⟩⟩
  by_cases hd : disposition = .eligible
  · rw [if_pos hd]
    refine hh.effect_refresh ⟨rfl, rfl, rfl, .inr ?_⟩ (.inr hfiled) now _
    simp [MessageRow.isListed, MessageRow.isPending, hd]
  · rw [if_neg hd]
    refine hh.effect ⟨rfl, rfl, rfl, .inl ?_⟩ (.inr hfiled) ?_
    · simp [hd]
    · simp [MessageRow.isPending, hd]

theorem backfillMissingSequence_effect {payload : Payload} {serverSeq : Int}
    {disposition : ReceiptDisposition} {reason : String} {byId : MessageRow} (hpos : 0 < serverSeq)
    (hid : s.messages.get? payload.envelopeId = some byId) (hn : byId.serverSeq = none)
    (h : backfillMissingSequence payload.envelopeId serverSeq disposition reason byId
      (s.messages.rows.find? (·.serverSeq = some serverSeq)) s = .ok (.commit r) s') :
    Effect (receiptLicence payload serverSeq disposition s) s s' := by
  have hrow (m : MessageRow) (hmem : m ∈ s.messages.rows) (hk : m.envelopeId = payload.envelopeId) :
      byId = m := by
    have hg := Table.get?_of_mem hmem
    rw [hk, hid] at hg
    exact Option.some.inj hg
  unfold backfillMissingSequence at h
  split_ifs at h with hq hl hg
  · simp [pure_ok_iff] at h
  all_goals
    have hfree : ∀ m ∈ s.messages.rows, m.serverSeq ≠ some serverSeq := by
      intro m hmem hs
      cases hf : s.messages.rows.find? (·.serverSeq = some serverSeq) with
      | none => simpa [hs] using List.find?_eq_none.mp hf m hmem
      | some owner =>
        have ho : owner.serverSeq = some serverSeq := by simpa using List.find?_some hf
        rw [hf] at hq
        rw [← hrow owner (List.mem_of_find?_eq_some hf) (by simpa using hq), hn] at ho
        cases ho
  · simp only [query_bind_ok_iff, exec_bind_ok_iff, raiseIf_bind_ok_iff, pure_ok_iff] at h
    obtain ⟨-, -, rfl⟩ := h
    refine Effect.of_update rfl ⟨rfl, rfl, rfl, rfl, rfl⟩ ?_ ?_
    · intro m hmem hm
      simp only [decide_eq_true_eq] at hm
      obtain rfl := hrow m hmem hm.1
      refine .sequenced byId serverSeq reason hm.2.2 ⟨hm.1, rfl, hpos, hfree, .inr ?_⟩
      exact ⟨byId, hid, hn, rfl, rfl, rfl, rfl, by simp [hm.2.2]⟩
    · exact fun m _ => rfl
  · simp only [exec_bind_ok_iff, pure_ok_iff] at h
    obtain ⟨-, rfl⟩ := h
    refine Effect.of_update rfl ⟨rfl, rfl, rfl, rfl, rfl⟩ ?_ ?_
    · intro m hmem hm
      simp only [decide_eq_true_eq, Option.isNone_iff_eq_none] at hm
      obtain rfl := hrow m hmem hm.1
      rw [hg.2.2]
      refine .gated byId serverSeq reason hm.2.2.1 hm.2.2.2 ⟨hm.1, rfl, hpos, hfree, .inr ?_⟩
      exact ⟨byId, hid, hn, rfl, rfl, rfl, rfl, by simp [hm.2.2.1]⟩
    · exact fun m _ => rfl
  · simp only [exec_bind_ok_iff, pure_ok_iff] at h
    obtain ⟨-, rfl⟩ := h
    refine Effect.of_update rfl ⟨rfl, rfl, rfl, rfl, rfl⟩ ?_ ?_
    · intro m hmem hm
      simp only [decide_eq_true_eq, Option.isNone_iff_eq_none] at hm
      obtain rfl := hrow m hmem hm.1
      refine .backfilled byId serverSeq hm.2 ?_ ⟨hm.1, rfl, hpos, hfree, .inr ?_⟩
      · intro hr hp
        refine ⟨fun hd => hl ⟨hr, ?_, hd⟩, hpos, hfree, byId, hid, hm.2, hr, hp⟩
        rcases hp with hp | hp <;> rw [hp] <;> rfl
      · exact ⟨byId, hid, hn, rfl, rfl, rfl, rfl, id⟩
    · exact fun m _ => rfl

theorem storeReceipt_has (payload : Payload) (serverSeq : Int) (disposition : ReceiptDisposition)
    (reason : String) (receivedAt now : Int) :
    Has (receiptLicence payload serverSeq disposition)
      (storeReceipt payload serverSeq disposition reason receivedAt now) := by
  refine Does.raiseIf fun hle => Does.raiseIf fun _ => has_transaction ?_
  intro s r s' h
  have hpos : 0 < serverSeq := by omega
  simp only [storeReceiptBody, query_bind_ok_iff] at h
  cases hid : s.messages.get? payload.envelopeId with
  | none =>
    simp only [hid] at h
    split_ifs at h with hs
    · simp [pure_ok_iff] at h
    · refine insertNewReceipt_effect hpos ?_ h
      intro m hmem hm
      simp only [Option.not_isSome_iff_eq_none] at hs
      simpa [hm] using List.find?_eq_none.mp hs m hmem
  | some row =>
    simp only [hid, persistExistingReceipt] at h
    split_ifs at h with hn
    · exact backfillMissingSequence_effect hpos hid hn h
    · simp [pure_ok_iff] at h
    · simp [pure_ok_iff] at h

theorem classifyExistingLocalRow_effect {licence : Licence} {existing : MessageRow}
    {envelopeId : String} {disposition : ReceiptDisposition} {reason : String}
    (h : classifyExistingLocalRow existing envelopeId disposition reason s = .ok (.commit r) s') :
    Effect licence s s' := by
  unfold classifyExistingLocalRow at h
  split_ifs at h
  · simp [pure_ok_iff] at h
  · cases hd : existing.receiptDisposition with
    | none =>
      simp only [hd, exec_bind_ok_iff, pure_ok_iff] at h
      obtain ⟨-, rfl⟩ := h
      refine Effect.of_update rfl ⟨rfl, rfl, rfl, rfl, rfl⟩ ?_ ?_
      · intro m hmem hm
        simp only [decide_eq_true_eq, Option.isNone_iff_eq_none] at hm
        exact .classified m disposition reason hm.2.1 hm.2.2
      · exact fun m _ => rfl
    | some stored => simp [hd, pure_ok_iff] at h

theorem storeLocalReceipt_has (payload : Payload) (disposition : ReceiptDisposition)
    (reason : String) (receivedAt : Int) :
    Has (fun _ => {}) (storeLocalReceipt payload disposition reason receivedAt) := by
  refine Does.raiseIf fun _ => Does.raiseIf fun _ => has_transaction ?_
  intro s r s' h
  simp only [storeLocalReceiptBody, query_bind_ok_iff] at h
  cases hid : s.messages.get? payload.envelopeId with
  | some row =>
    simp only [hid] at h
    exact classifyExistingLocalRow_effect h
  | none =>
    simp only [hid] at h
    obtain ⟨position, t, hp, h⟩ := bind_ok_iff.mp h
    simp only [insertMessage, tryExec_bind_ok_iff, pure_ok_iff] at h
    obtain ⟨t', hi, -, rfl⟩ := h
    have ht : t.messages = s.messages ∧ s.SameBooks t := by
      unfold receiptPosition at hp
      split_ifs at hp
      · simp only [allocateLocalPosition_bind_ok_iff, pure_ok_iff] at hp
        obtain ⟨-, rfl⟩ := hp
        exact ⟨rfl, rfl, rfl, rfl, rfl, rfl⟩
      · obtain ⟨-, rfl⟩ := pure_ok_iff.mp hp
        exact ⟨rfl, rfl, rfl, rfl, rfl, rfl⟩
    have hins := Inserted.of_insertMessage? hi
    refine Inserted.effect ⟨ht.1 ▸ hins.free, hins.stored, ht.1 ▸ hins.others, ht.2.trans hins.books⟩
      ⟨rfl, rfl, rfl, .inl rfl⟩ (.inl rfl) rfl

theorem promoteLocalGatedRow_effect {licence : Licence} {row : Option MessageRow}
    {envelopeId reason : String} {replacement : Option (String × String)} {now : Int}
    (h : promoteLocalGatedRow row envelopeId reason replacement now s = .ok (.commit r) s') :
    Effect licence s s' := by
  unfold promoteLocalGatedRow at h
  cases row with
  | none => simp [pure_ok_iff] at h
  | some row =>
    simp only at h
    split_ifs at h
    · simp [pure_ok_iff] at h
    · simp [pure_ok_iff] at h
    · simp only [allocateLocalPosition_bind_ok_iff, exec_bind_ok_iff, pure_ok_iff] at h
      obtain ⟨-, rfl⟩ := h
      apply Effect.of_update_refresh
      · rfl
      · exact ⟨rfl, rfl, rfl, rfl, rfl⟩
      · intro m hmem hm
        simp only [decide_eq_true_eq, Option.isNone_iff_eq_none] at hm
        exact .releasedLocal m reason _ _ _ _ hm.2.1 hm.2.2
      · exact .inl fun m _ _ => rfl
    · simp [pure_ok_iff] at h

theorem promoteSequencedRow_effect {licence : Licence} {row : Option MessageRow}
    {envelopeId reason : String} {serverSeq : Int} {replacement : Option (String × String)} {now : Int}
    (h : promoteSequencedRow row envelopeId serverSeq reason replacement now s = .ok (.commit r) s') :
    Effect licence s s' := by
  unfold promoteSequencedRow at h
  cases row with
  | none => simp [pure_ok_iff] at h
  | some row =>
    simp only at h
    split_ifs at h
    · simp [pure_ok_iff] at h
    · simp [pure_ok_iff] at h
    · simp only [exec_bind_ok_iff, pure_ok_iff] at h
      obtain ⟨-, rfl⟩ := h
      apply Effect.of_update_refresh
      · rfl
      · exact ⟨rfl, rfl, rfl, rfl, rfl⟩
      · intro m hmem hm
        simp only [decide_eq_true_eq] at hm
        exact .released m reason _ _ (by rw [hm.2.1]; rfl) hm.2.2
      · exact .inl fun m _ _ => rfl
    · simp [pure_ok_iff] at h

theorem promoteGatedReceipt_has (envelopeId : String) (serverSeq : Option Int) (reason : String)
    (approvedPayload : Option Payload) (now : Int) :
    Has (fun _ => {}) (promoteGatedReceipt envelopeId serverSeq reason approvedPayload now) := by
  refine Does.raiseIf fun _ => has_transaction ?_
  intro s r s' h
  simp only [promoteGatedReceiptBody, query_bind_ok_iff] at h
  cases serverSeq with
  | none => exact promoteLocalGatedRow_effect h
  | some seq => exact promoteSequencedRow_effect h

end Receipts

section Events
variable {s s₁ s' : Tables}

/-- A daemon-local event arrives pending, with a position, and is announced. -/
theorem insertLocalEventInTransaction_effect {licence : Licence} {values : MessageRow}
    {reason : String} {now : Int} {u : Unit}
    (hv : values.processingTurnId = none ∧ values.modelVisibleAt = none ∧ values.renotified = false ∧
      values.serverSeq = none) (hm : s₁.messages = s.messages) (hb : s.SameBooks s₁)
    (h : insertLocalEventInTransaction values reason now s₁ = .ok u s') : Effect licence s s' := by
  simp only [insertLocalEventInTransaction, insertMessage, allocateLocalPosition_bind_ok_iff,
    tryExec_bind_ok_iff, exec_ok_iff] at h
  obtain ⟨t, hi, rfl⟩ := h
  have hins := Inserted.of_insertMessage? hi
  have hs : Inserted _ s t := ⟨hm ▸ hins.free, hins.stored, hm ▸ hins.others,
    hb.trans ⟨hins.books.turnRuns, hins.books.turnRunMessages, hins.books.noticeState,
      hins.books.noticeContributions, hins.books.channelContextState⟩⟩
  refine hs.effect_refresh ⟨hv.1, hv.2.1, hv.2.2.1, .inr ?_⟩ (.inl hv.2.2.2) now _
  simp [MessageRow.isListed, MessageRow.isPending, hv.2.2.2]

/-- What is committed is the inserted event; the introduction marker lies beside the messages. -/
theorem storeLocalEventBody_ok {values : MessageRow} {reason : String} {introChannelId : Option String}
    {idempotent : Bool} {now : Int} {u : Unit}
    (h : storeLocalEventBody values reason introChannelId idempotent now s = .ok (.commit u) s') :
    ∃ marks, insertLocalEventInTransaction values reason now { s with channelIntroPrompted := marks } = .ok () s' := by
  simp only [storeLocalEventBody, query_bind_ok_iff] at h
  split_ifs at h
  · simp only [raiseIf_bind_ok_iff, pure_ok_iff, reduceCtorEq, false_and, and_false] at h
  · unfold insertIntroducedEvent at h
    cases hc : introChannelId.filter (· ≠ "") with
    | none =>
      simp only [hc] at h
      obtain ⟨_, t, he, h⟩ := bind_ok_iff.mp h
      obtain ⟨-, rfl⟩ := pure_ok_iff.mp h
      exact ⟨s.channelIntroPrompted, he⟩
    | some channelId =>
      simp only [hc, query_bind_ok_iff, exec_bind_ok_iff] at h
      split_ifs at h
      · simp only [query_bind_ok_iff, raiseIf_bind_ok_iff, pure_ok_iff, reduceCtorEq, false_and, and_false] at h
      · obtain ⟨_, t, he, h⟩ := bind_ok_iff.mp h
        obtain ⟨-, rfl⟩ := pure_ok_iff.mp h
        exact ⟨_, he⟩

theorem storeLocalEvent_has (payload : Payload) (reason : String) (introChannelId : Option String)
    (receivedAt : Int) (idempotent : Bool) (now : Int) :
    Has (fun _ => {}) (storeLocalEvent payload reason introChannelId receivedAt idempotent now) := by
  have hb : Has (fun _ => {}) (transaction (storeLocalEventBody
      (payloadValues payload receivedAt) reason introChannelId idempotent now)) := by
    refine has_transaction ?_
    intro s r s' h
    obtain ⟨marks, he⟩ := storeLocalEventBody_ok h
    apply insertLocalEventInTransaction_effect ⟨rfl, rfl, rfl, rfl⟩ _ _ he
    · rfl
    · exact ⟨rfl, rfl, rfl, rfl, rfl⟩
  refine Does.raiseIf fun _ => (Does.read hb fun _ s => s.messages.get? payload.envelopeId).mono ?_
  rintro s - s' ⟨_, he, -⟩
  exact he

end Events

section Drops

theorem tombstoneGatedDmsFrom_has (senderSlug : String) :
    Has (fun _ => {}) (tombstoneGatedDmsFrom senderSlug) := by
  unfold tombstoneGatedDmsFrom
  refine Does.ite (does_pure Effect.refl) (has_transaction ?_)
  intro s n s' h
  simp only [query_bind_ok_iff, exec_bind_ok_iff, pure_ok_iff] at h
  obtain ⟨-, rfl⟩ := h
  apply Effect.of_update
  · rfl
  · exact ⟨rfl, rfl, rfl, rfl, rfl⟩
  · intro m hmem hm
    simp only [decide_eq_true_eq] at hm
    exact .denied m hm.2.2
  · exact fun m _ => rfl

theorem tombstoneGatedDm_has (envelopeId : String) (serverSeq : Option Int) :
    Has (fun _ => {}) (tombstoneGatedDm envelopeId serverSeq) := by
  refine has_transaction ?_
  intro s r s' h
  simp only [tombstoneGatedDmBody, query_bind_ok_iff] at h
  cases hid : s.messages.get? envelopeId with
  | none => simp [hid, pure_ok_iff] at h
  | some row =>
    simp only [hid] at h
    split_ifs at h
    · simp [pure_ok_iff] at h
    · simp [pure_ok_iff] at h
    · simp only [exec_bind_ok_iff, pure_ok_iff] at h
      obtain ⟨-, rfl⟩ := h
      apply Effect.of_update
      · rfl
      · exact ⟨rfl, rfl, rfl, rfl, rfl⟩
      · intro m hmem hm
        simp only [MessageRow.isGated, decide_eq_true_eq] at hm
        exact .denied m hm.2.1.1
      · exact fun m _ => rfl
    · simp [pure_ok_iff] at h

/-- Retention deletes no pending row. -/
theorem not_isPending_of_isExpired {m : MessageRow} {cutoff : Int} (h : m.isExpired cutoff = true) :
    m.isPending = false := by
  simp only [MessageRow.isExpired, decide_eq_true_eq] at h
  obtain ⟨-, hp | hp, -⟩ := h
  · simp [MessageRow.isPending, Option.isNone_iff_eq_none.mp hp]
  · simp [MessageRow.isPending, hp]

theorem cleanup_has (retentionDays now : Int) : Has (fun _ => {}) (cleanup retentionDays now) := by
  refine has_transaction ?_
  intro s n s' h
  simp only [query_bind_ok_iff, exec_bind_ok_iff, pure_ok_iff] at h
  obtain ⟨-, rfl⟩ := h
  refine ⟨.swept _ rfl (fun _ => rfl) rfl, .silent ?_ rfl rfl, fun _ => .inl rfl⟩
  ext k
  simp only [mem_pendingIds, Table.get?_delete, Option.filter_eq_some_iff]
  constructor
  · rintro ⟨m, ⟨hg, -⟩, hp⟩
    exact ⟨m, hg, hp⟩
  · rintro ⟨m, hg, hp⟩
    refine ⟨m, ⟨hg, ?_⟩, hp⟩
    by_contra he
    rw [Bool.not_eq_true', Bool.not_eq_false] at he
    rw [not_isPending_of_isExpired he] at hp
    cases hp

theorem quarantinePending_has (envelopeId reason : String) (now : Int) :
    Has (fun _ => {}) (quarantinePending envelopeId reason now) := by
  refine has_transaction ?_
  intro s b s' h
  simp only [query_bind_ok_iff, exec_bind_ok_iff, pure_ok_iff] at h
  obtain ⟨-, rfl⟩ := h
  have step (m : MessageRow) (hm : decide (m.envelopeId = envelopeId ∧ m.isPending = true) = true) :
      Aside {} m { m with
        receiptDisposition := some .terminal, receiptReason := some reason,
        processingState := none, processingTurnId := none, modelVisibleAt := none } :=
    .quarantined m reason (of_decide_eq_true hm).2
  split
  · apply Effect.of_update_refresh
    · rfl
    · exact ⟨rfl, rfl, rfl, rfl, rfl⟩
    · exact fun m _ => step m
    · refine .inr fun m _ hp => ?_
      simp [MessageRow.isPending] at hp
  · rename_i hc
    have hle := Table.select_key_length_le_one (t := s.messages) (p := (·.isPending)) envelopeId
    have hnil : s.messages.select (fun m => decide (m.envelopeId = envelopeId ∧ m.isPending = true))
        = [] := by
      rw [← List.length_eq_zero_iff]
      simp only [Tables.countMessages] at hc
      omega
    apply Effect.of_same
    · exact Table.ext_rows (Table.rows_update_of_select_nil hnil)
    · exact ⟨rfl, rfl, rfl, rfl, rfl⟩

theorem store_has (payload : Payload) (receivedAt : Int) :
    Has (fun _ => {}) (store payload receivedAt) := by
  refine has_transaction ?_
  intro s u s' h
  simp only [exec_bind_ok_iff, pure_ok_iff] at h
  obtain ⟨-, rfl⟩ := h
  unfold Table.insertOrIgnore
  cases hi : s.messages.insert? { payloadValues payload receivedAt with threadRootUnverified := false }
    with
  | none => exact Effect.refl s
  | some messages =>
    refine Inserted.effect ⟨(Table.insert?_eq_some.mp hi).1, ⟨_, Rethreaded.refl _, ?_⟩,
      fun k hk => ?_, rfl, rfl, rfl, rfl, rfl⟩ ⟨rfl, rfl, rfl, .inl rfl⟩ (.inl rfl) rfl
    · rw [Option.getD_some, Table.get?_insert hi, if_pos rfl]
    · rw [Option.getD_some, Table.get?_insert hi, if_neg (Ne.symm hk)]
      exact rel_refl Rethreaded.refl _

end Drops
end PuffoAgent.Store
