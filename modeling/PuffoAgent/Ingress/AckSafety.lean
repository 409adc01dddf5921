import PuffoAgent.Ingress.Delivery
import PuffoAgent.Store.ReceiptEffects

/-! An envelope is acknowledged only once its durable row is no longer gated, exactly
in the runs where no delivery overlooks a gated row. -/
namespace PuffoAgent.Ingress
open Relational Stmt Sql Store Text Machine

/-- Every stored row carries a verdict. -/
def Classified (s : Tables) : Prop := AllRows (fun m => m.receiptDisposition.isSome) s

/-- The durable row of the envelope no longer waits for the operator. -/
def Settled (s : Tables) (envelopeId : String) : Prop :=
  ∃ m, s.messages.get? envelopeId = some m ∧ (m.receiptDisposition = some .eligible ∨
    m.receiptDisposition = some .localRuntime ∨ m.receiptDisposition = some .terminal)

section Rows
variable {s s' : Tables}

theorem Classified.of_messages (h : Classified s) (hm : s'.messages = s.messages) : Classified s' := by
  intro k m hg
  exact h k m (hm ▸ hg)

theorem Classified.update (h : Classified s) {p : MessageRow → Bool} {f : MessageRow → MessageRow}
    (hm : s'.messages.rows = s.messages.rows.map fun m => if p m = true then f m else m)
    (hd : ∀ m, m.receiptDisposition.isSome → (f m).receiptDisposition.isSome) : Classified s' := by
  intro k m hg
  have hmem := Table.mem_of_get? hg
  rw [hm, List.mem_map] at hmem
  obtain ⟨m₀, hmem, rfl⟩ := hmem
  split
  · exact hd m₀ (h _ m₀ (Table.get?_of_mem hmem))
  · exact h _ m₀ (Table.get?_of_mem hmem)

theorem Classified.inserted (h : Classified s) {row : MessageRow} (hi : Inserted row s s')
    (hd : row.receiptDisposition.isSome) : Classified s' := by
  intro k m hg
  by_cases hk : k = row.envelopeId
  · obtain ⟨m', ⟨root, unverified, rfl⟩, hg'⟩ := hi.stored
    rw [hk, hg', Option.some.injEq] at hg
    rw [← hg]
    exact hd
  · obtain ⟨m₀, hg₀, root, unverified, rfl⟩ := rel_some_right (hg ▸ hi.others k hk)
    exact h k m₀ hg₀

theorem get?_inserted {row : MessageRow} (hi : Inserted row s s') :
    ∃ m, s'.messages.get? row.envelopeId = some m ∧ m.receiptDisposition = row.receiptDisposition := by
  obtain ⟨m, ⟨root, unverified, rfl⟩, hg⟩ := hi.stored
  exact ⟨_, hg, rfl⟩

/-- The row an `UPDATE` finds by its id. -/
theorem get?_updated {k : String} {m : MessageRow} {p : MessageRow → Bool} {f : MessageRow → MessageRow}
    (hm : s'.messages.rows = s.messages.rows.map fun m => if p m = true then f m else m)
    (hf : ∀ m, (f m).envelopeId = m.envelopeId) (hg : s.messages.get? k = some m) (hp : p m = true) :
    s'.messages.get? k = some (f m) := by
  rw [Table.get?_of_rows_map hm, hg, Option.map_some, if_pos hp]
  intro m _
  split
  · exact hf m
  · rfl

theorem receiptAck_iff {d : ReceiptDisposition} :
    receiptAck d = true ↔ d = .eligible ∨ d = .terminal := by
  simp [receiptAck]

theorem Settled.of_receiptAck {k : String} {m : MessageRow} {d : ReceiptDisposition}
    (hg : s.messages.get? k = some m) (hd : m.receiptDisposition = some d)
    (ha : receiptAck d = true) : Settled s k := by
  rcases receiptAck_iff.mp ha with rfl | rfl
  · exact ⟨m, hg, .inl hd⟩
  · exact ⟨m, hg, .inr (.inr hd)⟩

end Rows

section Receipts

/-- No row owns the sequence. -/
def Tables.free (s : Tables) (serverSeq : Int) : Prop := ∀ m ∈ s.messages.rows, m.serverSeq ≠ some serverSeq

/-- What `store_receipt` does when it returns, to tables whose rows are classified. -/
inductive Filing (envelopeId : String) (serverSeq : Int) (disposition : ReceiptDisposition)
    (s : Tables) (r : ReceiptResult) (s' : Tables) : Prop
  | refused (status : r.status = .conflict) (ack : r.acknowledge = false) (same : s' = s)
  | filed (status : r.status = .committed) (ack : r.acknowledge = receiptAck disposition)
      (stored : ∃ m, s'.messages.get? envelopeId = some m ∧ m.receiptDisposition = some disposition)
  | promoted (status : r.status = .committed) (ack : r.acknowledge = true)
      (stored : ∃ m, s'.messages.get? envelopeId = some m ∧ m.receiptDisposition = some .eligible)
  | backfilled (m : MessageRow) (known : s.messages.get? envelopeId = some m)
      (unsequenced : m.serverSeq = none) (free : Tables.free s serverSeq)
      (stored : ∃ m', s'.messages.get? envelopeId = some m' ∧
        m'.receiptDisposition = m.receiptDisposition)
      (status : r.status = .committed) (ack : r.acknowledge = receiptAck disposition)
  | replayed (m : MessageRow) (known : s.messages.get? envelopeId = some m)
      (sequenced : m.serverSeq = some serverSeq) (same : s' = s) (status : r.status = .idempotent)
      (ack : r.acknowledge = receiptAck (m.receiptDisposition.getD disposition))

variable {s s' : Tables}

/-- The test of the code for a sequence that belongs to another envelope, when the
envelope itself has none. -/
theorem free_iff_bySeq {envelopeId : String} {serverSeq : Int} {m : MessageRow}
    (hg : s.messages.get? envelopeId = some m) (hs : m.serverSeq = none) :
    Tables.free s serverSeq ↔ ¬ (s.messages.rows.find? (fun m => decide (m.serverSeq = some serverSeq))).any
      (fun m => decide (m.envelopeId ≠ envelopeId)) = true := by
  cases hf : s.messages.rows.find? (fun m => decide (m.serverSeq = some serverSeq)) with
  | none =>
    rw [List.find?_eq_none] at hf
    simpa [Tables.free] using hf
  | some owner =>
    have ho : owner.serverSeq = some serverSeq := by simpa using List.find?_some hf
    have hmem : owner ∈ s.messages.rows := List.mem_of_find?_eq_some hf
    have hne : owner.envelopeId ≠ envelopeId := by
      rintro rfl
      rw [Table.get?_of_mem hmem, Option.some.injEq] at hg
      rw [← hg, ho] at hs
      cases hs
    simp only [Option.any_some, hne, ne_eq, not_false_eq_true, decide_true, not_true_eq_false, iff_false]
    exact fun hfree => hfree owner hmem ho

theorem backfillMissingSequence_filing {envelopeId : String} {serverSeq : Int}
    {disposition : ReceiptDisposition} {reason : String} {m : MessageRow} {r : ReceiptResult}
    (hg : s.messages.get? envelopeId = some m) (hs : m.serverSeq = none)
    (hd : m.receiptDisposition.isSome)
    (h : backfillMissingSequence envelopeId serverSeq disposition reason m
      (s.messages.rows.find? (fun m => decide (m.serverSeq = some serverSeq))) s = .ok (.commit r) s')
    (hc : Classified s) : Classified s' ∧ Filing envelopeId serverSeq disposition s r s' := by
  have hid : m.envelopeId = envelopeId := Table.get?_key hg
  unfold backfillMissingSequence at h
  split_ifs at h with hq hl hn
  · simp [pure_ok_iff] at h
  · simp only [query_bind_ok_iff, exec_bind_ok_iff, raiseIf_bind_ok_iff, pure_ok_iff] at h
    obtain ⟨-, hr, rfl⟩ := h
    cases hr
    refine ⟨hc.update rfl fun m _ => rfl,
      .promoted rfl rfl ⟨_, get?_updated rfl (fun _ => rfl) hg ?_, rfl⟩⟩
    simp [hid, hs, hl.1]
  · rw [hn.1] at hd
    cases hd
  · simp only [exec_bind_ok_iff, pure_ok_iff] at h
    obtain ⟨hr, rfl⟩ := h
    cases hr
    refine ⟨hc.update rfl fun m hm => hm, .backfilled m hg hs ((free_iff_bySeq hg hs).mpr hq)
      ⟨_, get?_updated rfl (fun _ => rfl) hg ?_, rfl⟩ rfl rfl⟩
    simp [hid, hs]

theorem insertNewReceipt_filing {values : MessageRow} {serverSeq : Int}
    {disposition : ReceiptDisposition} {reason : String} {now : Int} {r : ReceiptResult}
    (h : insertNewReceipt values serverSeq disposition reason now s = .ok (.commit r) s')
    (hc : Classified s) :
    Classified s' ∧ Filing values.envelopeId serverSeq disposition s r s' := by
  simp only [insertNewReceipt, insertMessage, tryExec_bind_ok_iff, exec_bind_ok_iff, pure_ok_iff] at h
  obtain ⟨t, hi, hr, rfl⟩ := h
  cases hr
  have hins := (Inserted.of_insertMessage? hi).rethreaded
    (settleUnverifiedThreadClaims_rethreading values t)
  have hm : (if disposition = .eligible then refreshNoticeState now (some values.receivedAt)
      (advanceServerSequenceHighWater serverSeq (settleUnverifiedThreadClaims values t))
      else advanceServerSequenceHighWater serverSeq (settleUnverifiedThreadClaims values t)).messages =
      (settleUnverifiedThreadClaims values t).messages := by
    split <;> rfl
  obtain ⟨m, hg, hd⟩ := get?_inserted hins
  refine ⟨(hc.inserted hins rfl).of_messages hm, .filed rfl rfl ⟨m, ?_, hd⟩⟩
  rw [hm]
  exact hg

/-- The inversion of `store_receipt`. -/
theorem storeReceipt_does (payload : Payload) (serverSeq : Int) (disposition : ReceiptDisposition)
    (reason : String) (receivedAt now : Int) :
    Does (fun s r s' => 0 < serverSeq ∧ payload.envelopeId ≠ "" ∧ (Classified s →
        Classified s' ∧ Filing payload.envelopeId serverSeq disposition s r s'))
      (storeReceipt payload serverSeq disposition reason receivedAt now) := by
  refine Does.raiseIf fun hpos => Does.raiseIf fun hid => does_transaction ?_ ?_
  · intro s r s' h
    refine ⟨by omega, hid, fun hc => ?_⟩
    simp only [storeReceiptBody, query_bind_ok_iff] at h
    cases hg : s.messages.get? payload.envelopeId with
    | none =>
      simp only [hg] at h
      split_ifs at h
      · simp [pure_ok_iff] at h
      · exact insertNewReceipt_filing h hc
    | some m =>
      simp only [hg, persistExistingReceipt] at h
      split_ifs at h with hs
      · exact backfillMissingSequence_filing hg hs (hc _ m hg) h hc
      · simp [pure_ok_iff] at h
      · simp [pure_ok_iff] at h
  · intro s r t h
    refine ⟨by omega, hid, fun hc => ⟨hc, ?_⟩⟩
    simp only [storeReceiptBody, query_bind_ok_iff] at h
    cases hg : s.messages.get? payload.envelopeId with
    | none =>
      simp only [hg] at h
      split_ifs at h
      · obtain ⟨hr, -⟩ := pure_ok_iff.mp h
        cases hr
        exact .refused rfl rfl rfl
      · simp only [insertNewReceipt, insertMessage, tryExec_bind_ok_iff, exec_bind_ok_iff, pure_ok_iff,
          reduceCtorEq, false_and, and_false, exists_false] at h
    | some m =>
      simp only [hg, persistExistingReceipt] at h
      split_ifs at h with hs hs'
      · unfold backfillMissingSequence at h
        split_ifs at h
        · obtain ⟨hr, -⟩ := pure_ok_iff.mp h
          cases hr
          exact .refused rfl rfl rfl
        · simp only [query_bind_ok_iff, exec_bind_ok_iff, raiseIf_bind_ok_iff, pure_ok_iff,
            reduceCtorEq, false_and, and_false] at h
        · simp only [exec_bind_ok_iff, pure_ok_iff, reduceCtorEq, false_and] at h
        · simp only [exec_bind_ok_iff, pure_ok_iff, reduceCtorEq, false_and] at h
      · obtain ⟨hr, -⟩ := pure_ok_iff.mp h
        cases hr
        exact .refused rfl rfl rfl
      · obtain ⟨hr, -⟩ := pure_ok_iff.mp h
        cases hr
        exact .replayed m hg (not_not.mp hs') rfl rfl rfl

end Receipts

section Acks

/-- The operation keeps every row classified, and what it acknowledges is settled. -/
def Acks (envelopeId : String) (x : StoreM ReceiptResult) : Prop :=
  Does (fun s r s' => Classified s → Classified s' ∧ (r.acknowledge = true → Settled s' envelopeId)) x

theorem acks_transaction {envelopeId : String} {body : BodyM (Finish ReceiptResult)}
    (hc : ∀ s r s', body s = .ok (.commit r) s' → Classified s →
      Classified s' ∧ Settled s' envelopeId)
    (hr : ∀ s r t, body s = .ok (.rollback r) t → r.acknowledge = true → Settled s envelopeId) :
    Acks envelopeId (transaction body) := by
  refine does_transaction ?_ fun s r t h hs => ⟨hs, hr s r t h⟩
  intro s r s' h hs
  obtain ⟨hs', hk⟩ := hc s r s' h hs
  exact ⟨hs', fun _ => hk⟩

theorem storeLocalReceipt_acks (payload : Payload) (disposition : ReceiptDisposition)
    (reason : String) (receivedAt : Int) :
    Acks payload.envelopeId (storeLocalReceipt payload disposition reason receivedAt) := by
  refine Does.raiseIf fun _ => Does.raiseIf fun _ => does_transaction ?_ ?_
  · intro s r s' h hc
    simp only [storeLocalReceiptBody, query_bind_ok_iff] at h
    cases hg : s.messages.get? payload.envelopeId with
    | some m =>
      obtain ⟨d, hd⟩ := Option.isSome_iff_exists.mp (hc _ m hg)
      simp only [hg, classifyExistingLocalRow, hd] at h
      split_ifs at h
      · simp [pure_ok_iff] at h
      · simp [pure_ok_iff] at h
    | none =>
      simp only [hg] at h
      obtain ⟨position, t, hp, h⟩ := bind_ok_iff.mp h
      simp only [insertMessage, tryExec_bind_ok_iff, pure_ok_iff] at h
      obtain ⟨t', hi, hr, rfl⟩ := h
      cases hr
      have ht : t.messages = s.messages := by
        unfold receiptPosition at hp
        split_ifs at hp
        · simp only [allocateLocalPosition_bind_ok_iff, pure_ok_iff] at hp
          rw [← hp.2]
        · rw [(pure_ok_iff.mp hp).2]
      have hins := Inserted.of_insertMessage? hi
      obtain ⟨m, hm, hd⟩ := get?_inserted hins
      exact ⟨(hc.of_messages ht).inserted hins rfl, Settled.of_receiptAck hm hd⟩
  · intro s r t h hc
    refine ⟨hc, ?_⟩
    simp only [storeLocalReceiptBody, query_bind_ok_iff] at h
    cases hg : s.messages.get? payload.envelopeId with
    | some m =>
      obtain ⟨d, hd⟩ := Option.isSome_iff_exists.mp (hc _ m hg)
      simp only [hg, classifyExistingLocalRow, hd] at h
      split_ifs at h
      · obtain ⟨hr, -⟩ := pure_ok_iff.mp h
        cases hr
        simp
      · obtain ⟨hr, -⟩ := pure_ok_iff.mp h
        cases hr
        exact Settled.of_receiptAck hg hd
    | none =>
      simp only [hg] at h
      obtain ⟨position, t, hp, h⟩ := bind_ok_iff.mp h
      simp only [insertMessage, tryExec_bind_ok_iff, pure_ok_iff, reduceCtorEq, false_and, and_false,
        exists_false] at h

theorem promoteGatedReceipt_acks (envelopeId : String) (serverSeq : Option Int) (reason : String)
    (approvedPayload : Option Payload) (now : Int) :
    Acks envelopeId (promoteGatedReceipt envelopeId serverSeq reason approvedPayload now) := by
  refine Does.raiseIf fun _ => acks_transaction ?_ ?_
  · intro s r s' h hc
    simp only [promoteGatedReceiptBody, query_bind_ok_iff] at h
    cases hg : s.messages.get? envelopeId with
    | none => cases serverSeq <;> simp [hg, promoteLocalGatedRow, promoteSequencedRow, pure_ok_iff] at h
    | some m =>
      have hid : m.envelopeId = envelopeId := Table.get?_key hg
      cases serverSeq with
      | none =>
        simp only [hg, promoteLocalGatedRow] at h
        split_ifs at h with hs hl hn
        · simp [pure_ok_iff] at h
        · simp [pure_ok_iff] at h
        · simp only [allocateLocalPosition_bind_ok_iff, exec_bind_ok_iff, pure_ok_iff] at h
          obtain ⟨-, rfl⟩ := h
          refine ⟨hc.update rfl fun m _ => rfl, _, get?_updated rfl (fun _ => rfl) hg ?_, .inr (.inl rfl)⟩
          simpa [hid, hn] using hs
        · simp [pure_ok_iff] at h
      | some seq =>
        simp only [hg, promoteSequencedRow] at h
        split_ifs at h with hs hl hn
        · simp [pure_ok_iff] at h
        · simp [pure_ok_iff] at h
        · simp only [exec_bind_ok_iff, pure_ok_iff] at h
          obtain ⟨-, rfl⟩ := h
          refine ⟨hc.update rfl fun m _ => rfl, _, get?_updated rfl (fun _ => rfl) hg ?_, .inl rfl⟩
          simpa [hid, hn] using hs
        · simp [pure_ok_iff] at h
  · intro s r t h ha
    simp only [promoteGatedReceiptBody, query_bind_ok_iff] at h
    cases hg : s.messages.get? envelopeId with
    | none =>
      cases serverSeq <;> simp only [hg, promoteLocalGatedRow, promoteSequencedRow, pure_ok_iff] at h
        <;> cases h.1 <;> cases ha
    | some m =>
      cases serverSeq with
      | none =>
        simp only [hg, promoteLocalGatedRow] at h
        split_ifs at h with hs hl hn
        · cases (pure_ok_iff.mp h).1
          cases ha
        · exact ⟨m, hg, .inr (.inl hl.1)⟩
        · simp only [allocateLocalPosition_bind_ok_iff, exec_bind_ok_iff, pure_ok_iff, reduceCtorEq,
            false_and] at h
        · cases (pure_ok_iff.mp h).1
          cases ha
      | some seq =>
        simp only [hg, promoteSequencedRow] at h
        split_ifs at h with hs hl hn
        · cases (pure_ok_iff.mp h).1
          cases ha
        · exact ⟨m, hg, .inl hl.1⟩
        · simp only [exec_bind_ok_iff, pure_ok_iff, reduceCtorEq, false_and] at h
        · cases (pure_ok_iff.mp h).1
          cases ha

theorem tombstoneGatedDm_acks (envelopeId : String) (serverSeq : Option Int) :
    Acks envelopeId (tombstoneGatedDm envelopeId serverSeq) := by
  refine acks_transaction ?_ ?_
  · intro s r s' h hc
    simp only [tombstoneGatedDmBody, query_bind_ok_iff] at h
    cases hg : s.messages.get? envelopeId with
    | none => simp [hg, pure_ok_iff] at h
    | some m =>
      simp only [hg] at h
      split_ifs at h with hs ht hn
      · simp [pure_ok_iff] at h
      · simp [pure_ok_iff] at h
      · simp only [exec_bind_ok_iff, pure_ok_iff] at h
        obtain ⟨-, rfl⟩ := h
        refine ⟨hc.update rfl fun m _ => rfl, _, get?_updated rfl (fun _ => rfl) hg ?_, .inr (.inr rfl)⟩
        have hid : m.envelopeId = envelopeId := Table.get?_key hg
        simpa [hid, hn] using hs
      · simp [pure_ok_iff] at h
  · intro s r t h ha
    simp only [tombstoneGatedDmBody, query_bind_ok_iff] at h
    cases hg : s.messages.get? envelopeId with
    | none =>
      simp only [hg, pure_ok_iff] at h
      cases h.1
      cases ha
    | some m =>
      simp only [hg] at h
      split_ifs at h with hs ht hn
      · cases (pure_ok_iff.mp h).1
        cases ha
      · exact ⟨m, hg, .inr (.inr ht.1)⟩
      · simp only [exec_bind_ok_iff, pure_ok_iff, reduceCtorEq, false_and] at h
      · cases (pure_ok_iff.mp h).1
        cases ha

theorem tombstoneGatedDmsFrom_classified (senderSlug : String) :
    Does (fun s _ s' => Classified s → Classified s') (tombstoneGatedDmsFrom senderSlug) := by
  unfold tombstoneGatedDmsFrom
  refine Does.ite (does_pure fun s hs => hs) (does_transaction ?_ fun s n t h hs => hs)
  intro s n s' h hs
  simp only [query_bind_ok_iff, exec_bind_ok_iff, pure_ok_iff] at h
  obtain ⟨-, rfl⟩ := h
  exact hs.update rfl fun m _ => rfl

/-- A sequence-less eligible frame becomes a local event, or the call raises. -/
theorem storeLocalEvent_settles (payload : Payload) (reason : String) (receivedAt now : Int) :
    Does (fun s _ s' => Classified s → Classified s' ∧ Settled s' payload.envelopeId)
      (storeLocalEvent payload reason none receivedAt false now) := by
  have hb : Does (fun s _ s' => Classified s → Classified s' ∧ Settled s' payload.envelopeId)
      (transaction (storeLocalEventBody (payloadValues payload receivedAt) reason none false now)) := by
    refine does_transaction ?_ ?_
    · intro s u s' h hc
      obtain ⟨marks, he⟩ := storeLocalEventBody_ok h
      simp only [insertLocalEventInTransaction, insertMessage, allocateLocalPosition_bind_ok_iff,
        tryExec_bind_ok_iff, exec_ok_iff] at he
      obtain ⟨t, hi, rfl⟩ := he
      have hins := Inserted.of_insertMessage? hi
      obtain ⟨m, hm, hd⟩ := get?_inserted hins
      have hs : Classified { s with channelIntroPrompted := marks, nextOrdinal := (localPosition s).1 + 1 } :=
        hc.of_messages rfl
      exact ⟨(hs.inserted hins rfl).of_messages rfl, m, hm, .inr (.inl hd)⟩
    · intro s u t h
      simp only [storeLocalEventBody, insertIntroducedEvent, insertLocalEventInTransaction,
        insertMessage, query_bind_ok_iff, Bool.false_eq_true, false_and, if_false, Option.filter_none,
        allocateLocalPosition_bind_ok_iff, tryExec_bind_ok_iff, exec_bind_ok_iff, pure_ok_iff,
        bind_assoc, reduceCtorEq, and_false, exists_false] at h
  refine Does.raiseIf fun _ => (Does.read hb fun _ s => s.messages.get? payload.envelopeId).mono ?_
  rintro s - s' ⟨_, he, -⟩
  exact he

end Acks

section Overlooked
variable {s : Tables} {serverSeq : Int}

/-- The row of the envelope waits for the operator, under this sequence. -/
def gatedAt (s : Tables) (envelopeId : String) (serverSeq : Option Int) : Prop :=
  ∃ m, s.messages.get? envelopeId = some m ∧ m.receiptDisposition = some .foreignDmGated ∧
    m.serverSeq = serverSeq

/-- A receipt with this sequence is back-filled into a row that is still gated. -/
def backfillsGate (s : Tables) (envelopeId : String) (serverSeq : Int) : Prop :=
  0 < serverSeq ∧ envelopeId ≠ "" ∧ gatedAt s envelopeId none ∧ Tables.free s serverSeq

theorem storeReceipt_run {payload : Payload} (disposition : ReceiptDisposition) (reason : String)
    (receivedAt now : Int) (hpos : 0 < serverSeq) (hid : payload.envelopeId ≠ "") :
    storeReceipt payload serverSeq disposition reason receivedAt now ⟨s, none⟩ =
      transaction (storeReceiptBody payload serverSeq disposition reason receivedAt now) ⟨s, none⟩ := by
  have hle : ¬ serverSeq ≤ 0 := by omega
  change EStateM.bind (raiseIf _ _) (fun _ => EStateM.bind (raiseIf _ _) _) _ = _
  simp only [EStateM.bind, raiseIf, if_neg hle, if_neg hid]

/-- The back-fill answers with the requested disposition and leaves the gate closed. -/
theorem storeReceipt_backfillsGate (payload : Payload) (disposition : ReceiptDisposition)
    (reason : String) (receivedAt now : Int) (h : backfillsGate s payload.envelopeId serverSeq) :
    ∃ r s', storeReceipt payload serverSeq disposition reason receivedAt now ⟨s, none⟩ =
        .ok r ⟨s', none⟩ ∧ r.status = .committed ∧ r.acknowledge = receiptAck disposition ∧
      gatedAt s' payload.envelopeId (some serverSeq) := by
  obtain ⟨hpos, hid, ⟨m, hg, hd, hs⟩, hfree⟩ := h
  have hq := (free_iff_bySeq hg hs).mp hfree
  have hbody : ∃ s', storeReceiptBody payload serverSeq disposition reason receivedAt now s =
      .ok (.commit ⟨.committed, disposition, "legacy sequence backfilled without Inbox activation",
        receiptAck disposition⟩) s' ∧ gatedAt s' payload.envelopeId (some serverSeq) := by
    refine ⟨advanceServerSequenceHighWater serverSeq (s.updateMessages
      (fun m => decide (m.envelopeId = payload.envelopeId ∧ m.serverSeq.isNone = true))
      (fun m => { m with serverSeq := some serverSeq }) fun _ => rfl), ?_, ?_⟩
    · simp only [storeReceiptBody, query_bind_ok_iff, hg, persistExistingReceipt, if_pos hs,
        backfillMissingSequence, if_neg hq, hd, Option.some.injEq, reduceCtorEq, false_and, if_false,
        exec_bind_ok_iff, pure_ok_iff, and_self]
    · refine ⟨_, get?_updated rfl (fun _ => rfl) hg ?_, hd, rfl⟩
      simp [Table.get?_key hg, hs]
  obtain ⟨s', hb, hgated⟩ := hbody
  refine ⟨⟨.committed, disposition, "legacy sequence backfilled without Inbox activation",
    receiptAck disposition⟩, s', ?_, rfl, rfl, hgated⟩
  rw [storeReceipt_run disposition reason receivedAt now hpos hid, transaction_run, hb]

/-- A replay of a gated receipt is idempotent and not acknowledged. -/
theorem storeReceipt_replaysGate (payload : Payload) (disposition : ReceiptDisposition)
    (reason : String) (receivedAt now : Int) (hpos : 0 < serverSeq) (hid : payload.envelopeId ≠ "")
    (h : gatedAt s payload.envelopeId (some serverSeq)) :
    ∃ r, storeReceipt payload serverSeq disposition reason receivedAt now ⟨s, none⟩ =
      .ok r ⟨s, none⟩ ∧ r.status = .idempotent ∧ r.acknowledge = false := by
  obtain ⟨m, hg, hd, hs⟩ := h
  refine ⟨⟨.idempotent, .foreignDmGated, (m.receiptReason.filter (· ≠ "")).getD reason, false⟩,
    ?_, rfl, rfl⟩
  have hb : storeReceiptBody payload serverSeq disposition reason receivedAt now s =
      .ok (.rollback ⟨.idempotent, .foreignDmGated,
        (m.receiptReason.filter (· ≠ "")).getD reason, false⟩) s := by
    simp only [storeReceiptBody, query_bind_ok_iff, hg, persistExistingReceipt, hs, hd, reduceCtorEq,
      if_false, ne_eq, not_true_eq_false, pure_ok_iff, and_true]
    rfl
  rw [storeReceipt_run disposition reason receivedAt now hpos hid, transaction_run, hb]

theorem not_settled_of_gatedAt {envelopeId : String} {seq : Option Int}
    (h : gatedAt s envelopeId seq) : ¬ Settled s envelopeId := by
  obtain ⟨m, hg, hd, -⟩ := h
  rintro ⟨m', hg', hs⟩
  obtain rfl := Option.some.inj (hg.symm.trans hg')
  simp [hd] at hs

/-- A row found without being settled is gated. -/
theorem settled_or_gated (hc : Classified s) {envelopeId : String} {m : MessageRow}
    (hg : s.messages.get? envelopeId = some m) :
    Settled s envelopeId ∨ m.receiptDisposition = some .foreignDmGated := by
  obtain ⟨d, hd⟩ := Option.isSome_iff_exists.mp (hc _ m hg)
  cases d with
  | eligible => exact .inl ⟨m, hg, .inl hd⟩
  | terminal => exact .inl ⟨m, hg, .inr (.inr hd)⟩
  | localRuntime => exact .inl ⟨m, hg, .inr (.inl hd)⟩
  | foreignDmGated => exact .inr hd

/-- How the row stands after `store_receipt`: settled, or the receipt was refused, or a
gated row was back-filled, or the row is gated and the answer says so. -/
theorem Filing.outcome {envelopeId : String} {disposition : ReceiptDisposition} {r : ReceiptResult}
    {s' : Tables} (h : Filing envelopeId serverSeq disposition s r s') (hc : Classified s)
    (hc' : Classified s') (hpos : 0 < serverSeq) (hid : envelopeId ≠ "") :
    Settled s' envelopeId ∨
    (r.acknowledge = receiptAck disposition ∧ backfillsGate s envelopeId serverSeq) ∨
    (r.acknowledge = false ∧ (r.status = .conflict ∨ disposition = .foreignDmGated ∨ gatedAt s envelopeId (some serverSeq))) := by
  cases h with
  | refused status ack => exact .inr (.inr ⟨ack, .inl status⟩)
  | filed status ack stored =>
    obtain ⟨m, hg, hd⟩ := stored
    rcases settled_or_gated hc' hg with hs | hgate
    · exact .inl hs
    · obtain rfl := Option.some.inj (hd.symm.trans hgate)
      exact .inr (.inr ⟨ack, .inr (.inl rfl)⟩)
  | promoted status ack stored =>
    obtain ⟨m, hg, hd⟩ := stored
    exact .inl ⟨m, hg, .inl hd⟩
  | backfilled m known unsequenced free stored status ack =>
    obtain ⟨m', hg, hd⟩ := stored
    rcases settled_or_gated hc' hg with hs | hgate
    · exact .inl hs
    · exact .inr (.inl ⟨ack, hpos, hid, ⟨m, known, hd ▸ hgate, unsequenced⟩, free⟩)
  | replayed m known sequenced same status ack =>
    subst same
    rcases settled_or_gated hc known with hs | hgate
    · exact .inl hs
    · rw [hgate] at ack
      exact .inr (.inr ⟨ack, .inr (.inr ⟨m, known, hgate, sequenced⟩)⟩)

end Overlooked

section Deliveries
variable {str : Json → String} {s : Tables}

/-- The deliveries whose answer overlooks that the envelope's row is still gated. -/
def Delivery.overlooksGate (s : Tables) : Delivery → Prop
  | .receipt payload serverSeq disposition _ _ _ =>
    receiptAck disposition = true ∧ backfillsGate s payload.envelopeId serverSeq
  | .verdict row _ _ (some seq) v _ _ =>
    receiptAck v.disposition = true ∧ v.deferAck = false ∧ backfillsGate s row.envelopeId seq
  | .eligible row (some seq) _ _ => backfillsGate s row.envelopeId seq ∨
    (0 < seq ∧ row.envelopeId ≠ "" ∧ gatedAt s row.envelopeId (some seq))
  | _ => False

/-- When the call decides that the envelope may be acknowledged, its row is settled. -/
def Delivery.safe (str : Json → String) (s : Tables) (d : Delivery) : Prop :=
  ∀ s', d.perform str ⟨s, none⟩ = .ok true ⟨s', none⟩ → ∃ k, d.envelopeId = some k ∧ Settled s' k

/-- What a call does: rows stay classified, and an acknowledged one is settled. -/
def Keeps (d : Delivery) (s : Tables) (ack : Bool) (s' : Tables) : Prop :=
  Classified s → Classified s' ∧
    (ack = true → ¬ d.overlooksGate s → ∃ k, d.envelopeId = some k ∧ Settled s' k)

theorem verdictRow_envelopeId (str : Json → String) (row : Payload) (content : Json) (visible : Bool) (v : GateVerdict) :
    (verdictRow str row content visible v).envelopeId = row.envelopeId := by
  unfold verdictRow
  split
  · rfl
  · split <;> rfl

theorem Delivery.perform_keeps (str : Json → String) (d : Delivery) : Does (Keeps d) (d.perform str) := by
  cases d with
  | promotion envelopeId serverSeq reason approvedPayload now =>
    refine Does.mono (Does.map (promoteGatedReceipt_acks envelopeId serverSeq reason approvedPayload
      now) _) ?_
    rintro s ack s' ⟨r, hr, rfl⟩ hc
    exact ⟨(hr hc).1, fun ha _ => ⟨_, rfl, (hr hc).2 ha⟩⟩
  | receipt payload serverSeq disposition reason receivedAt now =>
    refine Does.mono (Does.map (storeReceipt_does payload serverSeq disposition reason receivedAt
      now) _) ?_
    rintro s ack s' ⟨r, ⟨hpos, hid, hr⟩, rfl⟩ hc
    obtain ⟨hc', hf⟩ := hr hc
    refine ⟨hc', fun ha hn => ⟨_, rfl, ?_⟩⟩
    rcases hf.outcome hc hc' hpos hid with hs | ⟨hack, hb⟩ | ⟨hack, -⟩
    · exact hs
    · exact absurd ⟨hack ▸ ha, hb⟩ hn
    · exact absurd ha (by simp [hack])
  | redelivery envelopeId controlReply =>
    intro s
    refine .inr ⟨_, s, rfl, fun hc => ⟨hc, fun ha _ => ⟨envelopeId, rfl, ?_⟩⟩⟩
    obtain ⟨m, hg, hm⟩ := (Option.any_eq_true _ _).mp ha
    rcases settled_or_gated hc hg with hs | hgate
    · exact hs
    · simp [redeliveryAck, hgate] at hm
  | verdict row content visible serverSeq v receivedAt now =>
    have hid := verdictRow_envelopeId str row content visible v
    cases serverSeq with
    | none =>
      refine Does.mono (Does.map (storeLocalReceipt_acks (verdictRow str row content visible v)
        v.disposition v.reason receivedAt) _) ?_
      rintro s ack s' ⟨r, hr, rfl⟩ hc
      refine ⟨(hr hc).1, fun ha _ => ⟨_, rfl, hid ▸ (hr hc).2 (of_decide_eq_true ha).1⟩⟩
    | some seq =>
      refine Does.mono (Does.map (storeReceipt_does (verdictRow str row content visible v) seq
        v.disposition v.reason receivedAt now) _) ?_
      rintro s ack s' ⟨r, ⟨hpos, hne, hr⟩, rfl⟩ hc
      obtain ⟨hc', hf⟩ := hr hc
      rw [hid] at hne hf
      refine ⟨hc', fun ha hn => ⟨_, rfl, ?_⟩⟩
      have ha := of_decide_eq_true ha
      rcases hf.outcome hc hc' hpos hne with hs | ⟨hack, hb⟩ | ⟨hack, -⟩
      · exact hs
      · exact absurd ⟨hack ▸ ha.1, by simpa using ha.2, hb⟩ hn
      · exact absurd ha.1 (by simp [hack])
  | eligible row serverSeq receivedAt now =>
    cases serverSeq with
    | none =>
      refine Does.mono (Does.map (storeLocalEvent_settles row
        "keyless bridge delivery without server sequence" receivedAt now) _) ?_
      rintro s ack s' ⟨_, hr, rfl⟩ hc
      exact ⟨(hr hc).1, fun _ _ => ⟨_, rfl, (hr hc).2⟩⟩
    | some seq =>
      refine Does.mono (Does.map (storeReceipt_does row seq .eligible "keyless bridge sequenced delivery"
        receivedAt now) _) ?_
      rintro s ack s' ⟨r, ⟨hpos, hne, hr⟩, rfl⟩ hc
      obtain ⟨hc', hf⟩ := hr hc
      refine ⟨hc', fun ha hn => ⟨_, rfl, ?_⟩⟩
      rcases hf.outcome hc hc' hpos hne with hs | ⟨-, hb⟩ | ⟨-, hst | hd | hgate⟩
      · exact hs
      · exact absurd (.inl hb) hn
      · simp [hst] at ha
      · cases hd
      · exact absurd (.inr ⟨hpos, hne, hgate⟩) hn
  | denial envelopeId serverSeq =>
    refine Does.mono (Does.map (tombstoneGatedDm_acks envelopeId serverSeq) _) ?_
    rintro s ack s' ⟨r, hr, rfl⟩ hc
    exact ⟨(hr hc).1, fun ha _ => ⟨_, rfl, (hr hc).2 ha⟩⟩
  | denialFrom senderSlug =>
    refine Does.mono (Does.map (tombstoneGatedDmsFrom_classified senderSlug) _) ?_
    rintro s ack s' ⟨n, hn, rfl⟩ hc
    exact ⟨hn hc, fun ha => by cases ha⟩

/-- A delivery that overlooks the gate is acknowledged while the row is still gated. -/
theorem Delivery.acked_of_overlooksGate (str : Json → String) {d : Delivery} (h : d.overlooksGate s) :
    ∃ k s', d.envelopeId = some k ∧ d.perform str ⟨s, none⟩ = .ok true ⟨s', none⟩ ∧ ¬ Settled s' k := by
  cases d with
  | promotion | redelivery | denial | denialFrom => exact h.elim
  | receipt payload serverSeq disposition reason receivedAt now =>
    obtain ⟨r, s', hr, -, hack, hg⟩ :=
      storeReceipt_backfillsGate payload disposition reason receivedAt now h.2
    refine ⟨_, s', rfl, bind_ok_iff.mpr ⟨r, _, hr, ?_⟩, not_settled_of_gatedAt hg⟩
    exact pure_ok_iff.mpr ⟨hack.trans h.1, rfl⟩
  | verdict row content visible serverSeq v receivedAt now =>
    cases serverSeq with
    | none => exact h.elim
    | some seq =>
      have hid := verdictRow_envelopeId str row content visible v
      obtain ⟨r, s', hr, -, hack, hg⟩ := storeReceipt_backfillsGate
        (verdictRow str row content visible v) v.disposition v.reason receivedAt now
        (hid.symm ▸ h.2.2)
      refine ⟨_, s', rfl, bind_ok_iff.mpr ⟨r, _, hr, ?_⟩, hid ▸ not_settled_of_gatedAt hg⟩
      refine pure_ok_iff.mpr ⟨?_, rfl⟩
      simp [hack.trans h.1, h.2.1]
  | eligible row serverSeq receivedAt now =>
    cases serverSeq with
    | none => exact h.elim
    | some seq =>
      rcases h with h | ⟨hpos, hne, hgate⟩
      · obtain ⟨r, s', hr, hst, -, hg⟩ := storeReceipt_backfillsGate row .eligible
          "keyless bridge sequenced delivery" receivedAt now h
        refine ⟨_, s', rfl, bind_ok_iff.mpr ⟨r, _, hr, ?_⟩, not_settled_of_gatedAt hg⟩
        exact pure_ok_iff.mpr ⟨by simp [hst], rfl⟩
      · obtain ⟨r, hr, hst, -⟩ := storeReceipt_replaysGate row .eligible
          "keyless bridge sequenced delivery" receivedAt now hpos hne hgate
        refine ⟨_, s, rfl, bind_ok_iff.mpr ⟨r, _, hr, ?_⟩, not_settled_of_gatedAt hgate⟩
        exact pure_ok_iff.mpr ⟨by simp [hst], rfl⟩

theorem Delivery.safe_iff (hc : Classified s) (d : Delivery) :
    d.safe str s ↔ ¬ d.overlooksGate s := by
  constructor
  · intro hsafe hover
    obtain ⟨k, s', hk, hp, hn⟩ := Delivery.acked_of_overlooksGate str hover
    obtain ⟨k', hk', hs⟩ := hsafe s' hp
    obtain rfl := Option.some.inj (hk.symm.trans hk')
    exact hn hs
  · intro hn s' hp
    rcases d.perform_keeps str s with ⟨e, he⟩ | ⟨ack, t, ha, hk⟩
    · rw [hp] at he
      cases he
    · rw [hp] at ha
      cases ha
      exact (hk hc).2 rfl hn

theorem classified_deliver (hc : Classified s) (d : Delivery) : Classified (deliver str s d) := by
  rcases (d.perform_keeps str).after s with h | ⟨ack, -, hk⟩
  · rw [deliver, h]
    exact hc
  · exact (hk hc).1

/-- In a run of deliveries, redeliveries, promotions and denials every envelope that is
acknowledged has a settled row, if and only if no delivery overlooks a gated row. -/
theorem receipt_ack_safe_iff (str : Json → String) (ds : List Delivery) :
    Along (deliver str) (fun s d => d.safe str s) Tables.empty ds ↔
      Along (deliver str) (fun s d => ¬ d.overlooksGate s) Tables.empty ds :=
  along_congr (allRows_empty _) (fun _ d _ hc => classified_deliver hc d)
    (fun _ d hc => Delivery.safe_iff hc d) ds

/-- A foreign DM without a server sequence, held for the operator. -/
def heldDelivery : Delivery :=
  .verdict ⟨"env-1", "dm", "alice", none, none, some "agent", "text/plain", .str "hi", 1, none, none,
    false, true⟩ (.str "hi") true none ⟨"foreign_dm", .foreignDmGated, "foreign dm", none, false⟩ 1 1

/-- The same envelope again, now with a sequence and past the gates. -/
def sequencedRedelivery : Delivery :=
  .eligible ⟨"env-1", "dm", "alice", none, none, some "agent", "text/plain", .str "hi", 1, none, none,
    false, true⟩ (some 7) 2 2

theorem acknowledged_while_gated :
    (∃ s', sequencedRedelivery.perform Json.dumps
        ⟨deliver Json.dumps Tables.empty heldDelivery, none⟩ = .ok true ⟨s', none⟩ ∧
      (s'.messages.get? "env-1").bind (·.receiptDisposition) = some .foreignDmGated) ∧
    ¬ Along (deliver Json.dumps) (fun s d => d.safe Json.dumps s) Tables.empty
      [heldDelivery, sequencedRedelivery] := by
  have hacked : ∃ s', sequencedRedelivery.perform Json.dumps
        ⟨deliver Json.dumps Tables.empty heldDelivery, none⟩ = .ok true ⟨s', none⟩ ∧
      (s'.messages.get? "env-1").bind (·.receiptDisposition) = some .foreignDmGated :=
    ⟨_, rfl, by decide⟩
  refine ⟨hacked, fun h => ?_⟩
  obtain ⟨s', hp, hd⟩ := hacked
  obtain ⟨k, hk, m, hg, hs⟩ := h.2.1 s' hp
  cases hk
  change s'.messages.get? "env-1" = some m at hg
  rw [hg, Option.bind_some] at hd
  simp [hd] at hs

end Deliveries

section Native
variable {str : Json → String} {s : Tables} {c : Connection Tables}

theorem acknowledge_of_ack {result : ReceiptResult} (h : transportOutcome result = .ack) :
    result.acknowledge = true := by
  unfold transportOutcome at h
  split_ifs at h with hc ha
  exact ha

theorem deliver_eq {d : Delivery} {ack : Bool} (h : d.perform str ⟨s, none⟩ = .ok ack c) :
    deliver str s d = c.tables := by
  simp [deliver, Sql.after, h]

/-- The native `commit` is a run of these calls, and its `ACK` is the answer of the last. -/
theorem commit_deliveries {storedPayload : Payload} {serverSeq : Int}
    {disposition : ReceiptDisposition} {reason : String} {content : Option Json} {receivedAt now : Int}
    {outcome : TransportOutcome}
    (h : commit storedPayload serverSeq disposition reason content receivedAt now ⟨s, none⟩ =
      .ok outcome c) :
    ∃ ds d, c.tables = run (deliver str) s (ds ++ [d]) ∧ (outcome = .ack →
      d.perform str ⟨run (deliver str) s ds, none⟩ = .ok true c) := by
  obtain ⟨r, c₁, hr, h⟩ := bind_ok_iff.mp h
  obtain ⟨rfl, rfl⟩ := pure_ok_iff.mp h
  set row := committedRow storedPayload content
  have last (t : Tables) (d : Delivery) (hd : d.perform str ⟨t, none⟩ = .ok r.acknowledge c₁)
      (ds : List Delivery) (ht : t = run (deliver str) s ds) :
      ∃ ds d, c₁.tables = run (deliver str) s (ds ++ [d]) ∧ (transportOutcome r = .ack →
        d.perform str ⟨run (deliver str) s ds, none⟩ = .ok true c₁) := by
    subst ht
    refine ⟨ds, d, ?_, fun ho => ?_⟩
    · rw [run_append, run_cons, run_nil, deliver_eq hd]
    · rw [hd, acknowledge_of_ack ho]
  have receipt (t : Tables)
      (hs : storeReceipt row serverSeq disposition reason receivedAt now ⟨t, none⟩ = .ok r c₁) :
      (Delivery.receipt row serverSeq disposition reason receivedAt now).perform str ⟨t, none⟩ =
        .ok r.acknowledge c₁ := bind_ok_iff.mpr ⟨r, c₁, hs, pure_ok_iff.mpr ⟨rfl, rfl⟩⟩
  unfold committedReceipt at hr
  split_ifs at hr with hd
  · obtain ⟨promoted, c₂, hp, hr⟩ := bind_ok_iff.mp hr
    have hpd : (Delivery.promotion row.envelopeId (some serverSeq) reason (some row) now).perform str
        ⟨s, none⟩ = .ok promoted.acknowledge c₂ :=
      bind_ok_iff.mpr ⟨promoted, c₂, hp, pure_ok_iff.mpr ⟨rfl, rfl⟩⟩
    split_ifs at hr with hst
    · obtain ⟨rfl, rfl⟩ := pure_ok_iff.mp hr
      exact last s _ hpd [] rfl
    · rcases promoteGatedReceipt_acks row.envelopeId (some serverSeq) reason (some row) now s with
        ⟨e, he⟩ | ⟨r', t, hok, -⟩
      · rw [hp] at he
        cases he
      · rw [hp] at hok
        cases hok
        exact last t _ (receipt t hr) [_] (deliver_eq hpd).symm
  · exact last s _ (receipt s hr) [] rfl

end Native
end PuffoAgent.Ingress
