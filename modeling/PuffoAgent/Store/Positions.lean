import PuffoAgent.Store.Frame

/-! What one transaction can do to the place of a message among the others: its server sequence,
its local ordinal and the frontier the ordinal was handed out at. -/
namespace PuffoAgent.Store
open Relational Stmt Sql

/-- The columns that place a row in the Inbox order. -/
structure Slot where
  serverSeq : Option Int
  localOrdinal : Option Nat
  afterServerSeq : Option Int
  deriving DecidableEq

def MessageRow.slot (m : MessageRow) : Slot := ⟨m.serverSeq, m.localOrdinal, m.afterServerSeq⟩

/-- A row of the envelope is one that was there, in the same place. -/
def Kept (s s' : Tables) (k : String) : Prop :=
  ∀ m', s'.messages.get? k = some m' → ∃ m, s.messages.get? k = some m ∧ m'.slot = m.slot

/-- Every row is where it was, and the counters stand still. -/
structure Still (s s' : Tables) : Prop where
  next : s'.nextOrdinal = s.nextOrdinal
  high : s'.highWater = s.highWater
  rows : ∀ k, Kept s s' k

/-- The row of an envelope gets a sequence that nobody has, and the frontier follows it. -/
structure Sequencing (s s' : Tables) (k : String) (seq : Int) : Prop where
  positive : 0 < seq
  free : ∀ k' m, s.messages.get? k' = some m → m.serverSeq ≠ some seq
  unsequenced : ∀ m, s.messages.get? k = some m → m.serverSeq = none
  row : ∃ m', s'.messages.get? k = some m' ∧ m'.serverSeq = some seq ∧
    ∀ o, m'.localOrdinal = some o → ∃ m, s.messages.get? k = some m ∧ m.localOrdinal = some o ∧
      m.afterServerSeq = m'.afterServerSeq
  others : ∀ k', k' ≠ k → Kept s s' k'
  next : s'.nextOrdinal = s.nextOrdinal
  high : s'.highWater = max s.highWater seq

inductive Positioned (s s' : Tables) : Prop
  | still (h : Still s s')
  | bare (k : String) (free : s.messages.get? k = none)
      (row : ∀ m', s'.messages.get? k = some m' → m'.slot = ⟨none, none, none⟩)
      (others : ∀ k', k' ≠ k → Kept s s' k')
      (next : s'.nextOrdinal = s.nextOrdinal) (high : s'.highWater = s.highWater)
  | sequenced (k : String) (seq : Int) (h : Sequencing s s' k seq)
  | placed (k : String) (unsequenced : ∀ m, s.messages.get? k = some m → m.serverSeq = none)
      (row : ∃ m', s'.messages.get? k = some m' ∧
        m'.slot = ⟨none, some (localPosition s).1, (localPosition s).2⟩)
      (others : ∀ k', k' ≠ k → Kept s s' k')
      (next : s'.nextOrdinal = s.nextOrdinal + 1) (high : s'.highWater = s.highWater)

section Still
variable {s t s' : Tables}

theorem Kept.of_eq {k : String} (h : s'.messages.get? k = s.messages.get? k) : Kept s s' k :=
  fun m' hm => ⟨m', h ▸ hm, rfl⟩

theorem Kept.trans {k : String} (h : Kept s t k) (h' : Kept t s' k) : Kept s s' k := by
  intro m' hm'
  obtain ⟨m₁, hm₁, he'⟩ := h' m' hm'
  obtain ⟨m, hm, he⟩ := h m₁ hm₁
  exact ⟨m, hm, he'.trans he⟩

theorem still_of_messages (hm : s'.messages = s.messages) (hn : s'.nextOrdinal = s.nextOrdinal)
    (hh : s'.highWater = s.highWater) : Still s s' :=
  ⟨hn, hh, fun _ => .of_eq (by rw [hm])⟩

instance : Std.Refl Still := ⟨fun _ => still_of_messages rfl rfl rfl⟩

instance : IsTrans Tables Still :=
  ⟨fun _ _ _ h h' => ⟨h'.next.trans h.next, h'.high.trans h.high, fun k => (h.rows k).trans (h'.rows k)⟩⟩

theorem still_refreshNoticeState (now : Int) (activatedAt : Option Int) (s : Tables) :
    Still s (refreshNoticeState now activatedAt s) := still_of_messages rfl rfl rfl

theorem kept_updateMessages {p : MessageRow → Bool} {f : MessageRow → MessageRow}
    {hf : ∀ m, (f m).envelopeId = m.envelopeId} {k : String}
    (h : ∀ m, s.messages.get? k = some m → p m = true → (f m).slot = m.slot) :
    Kept s (s.updateMessages p f hf) k := by
  intro m' hm'
  rw [get?_updateMessages, Option.map_eq_some_iff] at hm'
  obtain ⟨m, hm, rfl⟩ := hm'
  refine ⟨m, hm, ?_⟩
  split
  · rename_i hp
    exact h m hm hp
  · rfl

theorem still_updateMessages {p : MessageRow → Bool} {f : MessageRow → MessageRow}
    {hf : ∀ m, (f m).envelopeId = m.envelopeId} (h : ∀ m, p m = true → (f m).slot = m.slot) :
    Still s (s.updateMessages p f hf) :=
  ⟨rfl, rfl, fun _ => kept_updateMessages fun m _ => h m⟩

/-- An `UPDATE` of the rows of one envelope. -/
theorem kept_elsewhere {p : MessageRow → Bool} {f : MessageRow → MessageRow}
    (hf : ∀ m, (f m).envelopeId = m.envelopeId) {k : String} (hp : ∀ m, p m = true → m.envelopeId = k)
    {k' : String} (hk : k' ≠ k) : Kept s (s.updateMessages p f hf) k' :=
  kept_updateMessages fun m hm h => absurd ((Table.get?_key hm).symm.trans (hp m h)) hk

theorem still_settle (values : MessageRow) (s : Tables) : Still s (settleUnverifiedThreadClaims values s) := by
  have hc : Still s (checkThreadClaims values s) := by
    unfold checkThreadClaims
    split_ifs
    · exact still_updateMessages fun _ _ => rfl
    · exact still_updateMessages fun _ _ => rfl
    · exact still_updateMessages fun _ _ => rfl
    · exact still_updateMessages fun _ _ => rfl
    · exact Std.Refl.refl s
  exact IsTrans.trans _ _ _ hc (still_updateMessages fun _ _ => rfl)

theorem Tables.insertMessage?_counters {row : MessageRow} (h : s.insertMessage? row = some t) :
    t.nextOrdinal = s.nextOrdinal ∧ t.highWater = s.highWater := by
  unfold Tables.insertMessage? at h
  split at h
  · cases h
  · obtain ⟨messages, -, rfl⟩ := Option.map_eq_some_iff.mp h
    exact ⟨rfl, rfl⟩

theorem Tables.insertMessage?_free {row : MessageRow} {seq : Int} (h : s.insertMessage? row = some t)
    (hs : row.serverSeq = some seq) (m : MessageRow) (hm : m ∈ s.messages.rows) : m.serverSeq ≠ some seq := by
  intro he
  unfold Tables.insertMessage? at h
  rw [if_pos ⟨by rw [hs]; rfl, m, hm, he.trans hs.symm⟩] at h
  cases h

end Still

/-- Operations that leave every message in its place. -/
def Stays {α : Type} (x : StoreM α) : Prop := Leaves Still x

/-- Operations that give at most one message a place. -/
def Places {α : Type} (x : StoreM α) : Prop := Leaves Positioned x

section Rules
variable {α β : Type}

theorem Stays.places {x : StoreM α} (h : Stays x) : Places x := h.mono fun _ _ _ => .still

theorem places_transaction {body : BodyM (Finish α)}
    (h : ∀ s a s', body s = .ok (.commit a) s' → Positioned s s') : Places (transaction body) :=
  does_transaction h fun s _ _ _ => .still (Std.Refl.refl s)

theorem still_frame : Frame Still where
  books _ _ := still_of_messages
  rows s p f hf h := still_updateMessages fun m _ => by
    change (f m).asReceived.slot = m.asReceived.slot
    rw [h m]

end Rules

section Receipts
variable {s t s' : Tables} {r : ReceiptResult}

/-- An insertion leaves the other rows where they were. -/
theorem insertMessage?_elsewhere {row : MessageRow} (h : s.insertMessage? row = some t) {k : String}
    (hk : k ≠ row.envelopeId) : Kept s t k :=
  .of_eq (by rw [(Tables.insertMessage?_eq_some h).2.1, if_neg (Ne.symm hk)])

theorem stays_tombstoneGatedDmsFrom (senderSlug : String) : Stays (tombstoneGatedDmsFrom senderSlug) := by
  refine Does.ite (leaves_pure _) (Does.of_ends (.bind (ends_query _) fun _ => .bind (ends_exec fun s => ?_) fun _ => ends_pure _))
  exact still_updateMessages fun _ _ => rfl

theorem stays_tombstoneGatedDm (envelopeId : String) (serverSeq : Option Int) :
    Stays (tombstoneGatedDm envelopeId serverSeq) := by
  refine Does.of_ends (.bind (ends_query _) fun row => ?_)
  cases row with
  | none => exact ends_pure _
  | some row =>
    refine .ite (fun _ => ends_pure _) fun _ => .ite (fun _ => ends_pure _) fun _ => .ite (fun _ => ends_pure _) fun _ => ?_
    exact .bind (ends_exec fun s => still_updateMessages fun _ _ => rfl) fun _ => ends_pure _

theorem stays_quarantinePending (envelopeId reason : String) (now : Int) :
    Stays (quarantinePending envelopeId reason now) := by
  refine Does.of_ends (.bind (ends_query _) fun _ => .bind (ends_exec fun s => ?_) fun _ => ?_)
  · exact still_updateMessages fun _ _ => rfl
  · refine .bind (ends_exec fun s => ?_) fun _ => ends_pure _
    split
    · exact still_refreshNoticeState _ _ _
    · exact Std.Refl.refl s

theorem stays_cleanup (retentionDays now : Int) : Stays (cleanup retentionDays now) := by
  refine Does.of_ends (.bind (ends_query _) fun _ => .bind (ends_exec fun s => ?_) fun _ => ends_pure _)
  refine ⟨rfl, rfl, fun k m' hm' => ⟨m', ?_, rfl⟩⟩
  rw [Table.get?_delete, Option.filter_eq_some_iff] at hm'
  exact hm'.1

/-- An unclassified row has no place yet. -/
theorem places_store (payload : Payload) (receivedAt : Int) : Places (store payload receivedAt) := by
  refine places_transaction fun s a s' h => ?_
  simp only [exec_bind_ok_iff, pure_ok_iff] at h
  obtain ⟨-, rfl⟩ := h
  set row := { payloadValues payload receivedAt with threadRootUnverified := false }
  have hrow (k : String) : (s.messages.insertOrIgnore row).get? k =
      if payload.envelopeId = k ∧ s.messages.get? k = none then some row else s.messages.get? k :=
    Table.get?_insertOrIgnore _ _ _
  have hother (k : String) (hk : k ≠ payload.envelopeId) :
      Kept s { s with messages := s.messages.insertOrIgnore row } k :=
    .of_eq ((hrow k).trans (if_neg fun h => hk h.1.symm))
  cases hg : s.messages.get? payload.envelopeId with
  | some m =>
    refine .still ⟨rfl, rfl, fun k => ?_⟩
    exact .of_eq ((hrow k).trans (if_neg fun h => by simp [← h.1, hg] at h))
  | none =>
    refine .bare payload.envelopeId hg (fun m' hm' => ?_) hother rfl rfl
    rw [hrow, if_pos ⟨rfl, hg⟩] at hm'
    cases hm'
    rfl

theorem Rethreaded.slot {m m' : MessageRow} (h : Rethreaded m m') : m'.slot = m.slot := by
  obtain ⟨root, unverified, rfl⟩ := h
  rfl

/-- The refresh at the end of a transaction, when there is one. -/
theorem still_refreshIf (p : Prop) [Decidable p] (now : Int) (activatedAt : Option Int) (s : Tables) :
    (if p then refreshNoticeState now activatedAt s else s).messages = s.messages ∧
      (if p then refreshNoticeState now activatedAt s else s).nextOrdinal = s.nextOrdinal ∧
      (if p then refreshNoticeState now activatedAt s else s).highWater = s.highWater := by
  split
  · exact ⟨rfl, rfl, rfl⟩
  · exact ⟨rfl, rfl, rfl⟩

/-- `_insert_new_receipt` gives a new row its sequence. -/
theorem sequencing_insertNewReceipt {values : MessageRow} {serverSeq : Int} {disposition : ReceiptDisposition}
    {reason : String} {now : Int} (hseq : 0 < serverSeq) (hord : values.localOrdinal = none)
    (h : insertNewReceipt values serverSeq disposition reason now s = .ok (.commit r) s') :
    Sequencing s s' values.envelopeId serverSeq := by
  simp only [insertNewReceipt, insertMessage, tryExec_bind_ok_iff, exec_bind_ok_iff, pure_ok_iff] at h
  obtain ⟨t, hi, -, rfl⟩ := h
  obtain ⟨hfree, hrows, -⟩ := Tables.insertMessage?_eq_some hi
  obtain ⟨hnext, hhigh⟩ := Tables.insertMessage?_counters hi
  have hstill := still_settle values t
  have hfinal := still_refreshIf (disposition = .eligible) now (some values.receivedAt)
    (advanceServerSequenceHighWater serverSeq (settleUnverifiedThreadClaims values t))
  refine ⟨hseq, fun k m hm hs => ?_, fun m hm => ?_, ?_, fun k hk => ?_, ?_, ?_⟩
  · exact Tables.insertMessage?_free hi rfl m (Table.mem_of_get? hm) hs
  · rw [hfree] at hm
    cases hm
  · obtain ⟨m', hm', hr⟩ := rel_some_left (((hrows _).trans (if_pos rfl)) ▸
      (settleUnverifiedThreadClaims_rethreading values t).rows values.envelopeId)
    refine ⟨m', (congrArg (·.get? values.envelopeId) hfinal.1).trans hm', ?_, fun o ho => ?_⟩
    · exact congrArg Slot.serverSeq hr.slot
    · rw [show m'.localOrdinal = none from (congrArg Slot.localOrdinal hr.slot).trans hord] at ho
      cases ho
  · refine ((insertMessage?_elsewhere hi hk).trans (hstill.rows k)).trans (.of_eq ?_)
    exact congrArg (·.get? k) hfinal.1
  · exact (hfinal.2.1.trans hstill.next).trans hnext
  · refine hfinal.2.2.trans ?_
    rw [advanceServerSequenceHighWater, hstill.high, hhigh]

/-- The unsequenced row found by the envelope shows that nobody has the sequence. -/
theorem free_of_lookup {envelopeId : String} {serverSeq : Int} {byId : MessageRow} {bySeq : Option MessageRow}
    (hg : s.messages.get? envelopeId = some byId) (hnone : byId.serverSeq = none)
    (hby : bySeq = s.messages.rows.find? (·.serverSeq = some serverSeq))
    (hown : ¬ (bySeq.any (·.envelopeId ≠ envelopeId)) = true) (k : String) (m : MessageRow)
    (hm : s.messages.get? k = some m) : m.serverSeq ≠ some serverSeq := by
  intro hs
  obtain ⟨m', hm'⟩ : ∃ m', bySeq = some m' := by
    rw [← Option.isSome_iff_exists, hby, List.find?_isSome]
    exact ⟨m, Table.mem_of_get? hm, by simpa using hs⟩
  have hmem : m' ∈ s.messages.rows := List.mem_of_find?_eq_some (hby ▸ hm')
  have hfound := List.find?_some (hby.symm.trans hm')
  have hseq : m'.serverSeq = some serverSeq := of_decide_eq_true hfound
  have hsame := Table.get?_of_mem hmem
  have hid : m'.envelopeId = envelopeId := by simpa [hm'] using hown
  rw [hid, hg] at hsame
  cases hsame
  rw [hnone] at hseq
  cases hseq

/-- `_backfill_missing_sequence` gives an unsequenced row its sequence. -/
theorem sequencing_backfill {envelopeId : String} {serverSeq : Int} {disposition : ReceiptDisposition} {reason : String}
    {byId : MessageRow} {bySeq : Option MessageRow} (hseq : 0 < serverSeq)
    (hg : s.messages.get? envelopeId = some byId) (hnone : byId.serverSeq = none)
    (hby : bySeq = s.messages.rows.find? (·.serverSeq = some serverSeq))
    (h : backfillMissingSequence envelopeId serverSeq disposition reason byId bySeq s = .ok (.commit r) s') :
    Sequencing s s' envelopeId serverSeq := by
  have hun (m : MessageRow) (hm : s.messages.get? envelopeId = some m) : m.serverSeq = none := by
    rw [hg] at hm
    cases hm
    exact hnone
  have hkey : byId.envelopeId = envelopeId := Table.get?_key hg
  unfold backfillMissingSequence at h
  split_ifs at h with h₁ h₂ h₃
  · simp [pure_ok_iff] at h
  · simp only [query_bind_ok_iff, exec_bind_ok_iff, raiseIf_bind_ok_iff, pure_ok_iff] at h
    obtain ⟨-, -, rfl⟩ := h
    refine ⟨hseq, free_of_lookup hg hnone hby h₁, hun, ⟨_, updateMessages_hits ?_ hg ?_, rfl, ?_⟩, fun k hk => ?_, rfl, rfl⟩
    · exact fun _ => rfl
    · simp [hkey, hnone, h₂.1]
    · exact fun o ho => by cases ho
    · refine kept_elsewhere ?_ (fun m hm => (of_decide_eq_true hm).1) hk
      exact fun _ => rfl
  · simp only [exec_bind_ok_iff, pure_ok_iff] at h
    obtain ⟨-, rfl⟩ := h
    refine ⟨hseq, free_of_lookup hg hnone hby h₁, hun, ⟨_, updateMessages_hits ?_ hg ?_, rfl, ?_⟩, fun k hk => ?_, rfl, rfl⟩
    · exact fun _ => rfl
    · simp [hkey, hnone, h₃.1, h₃.2.1]
    · exact fun o ho => ⟨byId, hg, ho, rfl⟩
    · refine kept_elsewhere ?_ (fun m hm => (of_decide_eq_true hm).1) hk
      exact fun _ => rfl
  · simp only [exec_bind_ok_iff, pure_ok_iff] at h
    obtain ⟨-, rfl⟩ := h
    refine ⟨hseq, free_of_lookup hg hnone hby h₁, hun, ⟨_, updateMessages_hits ?_ hg ?_, rfl, ?_⟩, fun k hk => ?_, rfl, rfl⟩
    · exact fun _ => rfl
    · simp [hkey, hnone]
    · exact fun o ho => ⟨byId, hg, ho, rfl⟩
    · refine kept_elsewhere ?_ (fun m hm => (of_decide_eq_true hm).1) hk
      exact fun _ => rfl

theorem sequencing_storeReceipt {payload : Payload} {serverSeq : Int} {disposition : ReceiptDisposition}
    {reason : String} {receivedAt now : Int} (hseq : 0 < serverSeq)
    (h : storeReceiptBody payload serverSeq disposition reason receivedAt now s = .ok (.commit r) s') :
    Sequencing s s' payload.envelopeId serverSeq := by
  simp only [storeReceiptBody, query_bind_ok_iff] at h
  cases hid : s.messages.get? payload.envelopeId with
  | none =>
    simp only [hid] at h
    split_ifs at h
    · simp [pure_ok_iff] at h
    · exact sequencing_insertNewReceipt hseq rfl h
  | some row =>
    simp only [hid, persistExistingReceipt] at h
    split_ifs at h with hnone
    · exact sequencing_backfill hseq hid hnone rfl h
    · simp [pure_ok_iff] at h
    · simp [pure_ok_iff] at h

theorem places_storeReceipt (payload : Payload) (serverSeq : Int) (disposition : ReceiptDisposition)
    (reason : String) (receivedAt now : Int) :
    Places (storeReceipt payload serverSeq disposition reason receivedAt now) := by
  refine Does.raiseIf fun hseq => Does.raiseIf fun _ => places_transaction fun s r s' h => ?_
  exact .sequenced _ _ (sequencing_storeReceipt (not_le.mp hseq) h)

/-- `_classify_existing_local_row` only names the verdict. -/
theorem stays_classify {existing : MessageRow} {envelopeId : String} {disposition : ReceiptDisposition}
    {reason : String} : Ends Still (classifyExistingLocalRow existing envelopeId disposition reason) := by
  refine .ite (fun _ => ends_pure _) fun _ => ?_
  cases existing.receiptDisposition with
  | none => exact .bind (ends_exec fun s => still_updateMessages fun _ _ => rfl) fun _ => ends_pure _
  | some stored => exact ends_pure _

/-- A new row with the position that has just been allocated. -/
theorem Positioned.of_insert {row : MessageRow} (hi : { s with nextOrdinal := s.nextOrdinal + 1 }.insertMessage? row = some t)
    (hs : row.slot = ⟨none, some (localPosition s).1, (localPosition s).2⟩) (hm : s'.messages = t.messages)
    (hn : s'.nextOrdinal = t.nextOrdinal) (hh : s'.highWater = t.highWater) : Positioned s s' := by
  obtain ⟨hfree, hrows, -⟩ := Tables.insertMessage?_eq_some hi
  obtain ⟨hnext, hhigh⟩ := Tables.insertMessage?_counters hi
  have hfree : s.messages.get? row.envelopeId = none := hfree
  refine .placed row.envelopeId (fun m hg => ?_) ⟨row, ?_, hs⟩ (fun k hk => ?_) (hn.trans hnext) (hh.trans hhigh)
  · rw [hfree] at hg
    cases hg
  · rw [hm, hrows, if_pos rfl]
  · have hkept : Kept s t k := insertMessage?_elsewhere hi hk
    exact hkept.trans (.of_eq (by rw [hm]))

/-- A new row without a position. -/
theorem Positioned.of_bare {row : MessageRow} (hi : s.insertMessage? row = some t) (hs : row.slot = ⟨none, none, none⟩) :
    Positioned s t := by
  obtain ⟨hfree, hrows, -⟩ := Tables.insertMessage?_eq_some hi
  obtain ⟨hnext, hhigh⟩ := Tables.insertMessage?_counters hi
  refine .bare row.envelopeId hfree (fun m' hm' => ?_) (fun k hk => insertMessage?_elsewhere hi hk) hnext hhigh
  rw [hrows, if_pos rfl] at hm'
  cases hm'
  exact hs

theorem places_storeLocalReceipt (payload : Payload) (disposition : ReceiptDisposition) (reason : String)
    (receivedAt : Int) : Places (storeLocalReceipt payload disposition reason receivedAt) := by
  refine Does.raiseIf fun _ => Does.raiseIf fun _ => places_transaction fun s r s' h => ?_
  simp only [storeLocalReceiptBody, query_bind_ok_iff] at h
  cases hid : s.messages.get? payload.envelopeId with
  | some row =>
    simp only [hid] at h
    exact .still (stays_classify s _ s' h)
  | none =>
    simp only [hid] at h
    obtain ⟨position, t, hp, h⟩ := bind_ok_iff.mp h
    simp only [insertMessage, tryExec_bind_ok_iff, pure_ok_iff] at h
    obtain ⟨t', hi, -, rfl⟩ := h
    unfold receiptPosition at hp
    split_ifs at hp
    · simp only [allocateLocalPosition_bind_ok_iff, pure_ok_iff] at hp
      obtain ⟨rfl, rfl⟩ := hp
      exact .of_insert hi rfl rfl rfl rfl
    · obtain ⟨rfl, rfl⟩ := pure_ok_iff.mp hp
      exact .of_bare hi rfl

theorem places_insertLocalEvent {values : MessageRow} {reason : String} {now : Int} {u : Unit}
    (hv : values.serverSeq = none) (h : insertLocalEventInTransaction values reason now s = .ok u s') :
    Positioned s s' := by
  simp only [insertLocalEventInTransaction, insertMessage, allocateLocalPosition_bind_ok_iff, tryExec_bind_ok_iff,
    exec_ok_iff] at h
  obtain ⟨t, hi, rfl⟩ := h
  refine .of_insert hi ?_ rfl rfl rfl
  rw [MessageRow.slot, hv]

/-- Tables beside the messages and the counters are no part of any position. -/
theorem Positioned.trans_messages (h : Positioned s t) (hm : s'.messages = t.messages)
    (hn : s'.nextOrdinal = t.nextOrdinal) (hh : s'.highWater = t.highWater) : Positioned s s' := by
  have hk {k : String} (hkept : Kept s t k) : Kept s s' k := hkept.trans (.of_eq (by rw [hm]))
  cases h with
  | still h => exact .still ⟨hn.trans h.next, hh.trans h.high, fun k => hk (h.rows k)⟩
  | bare k free row others next high =>
    exact .bare k free (hm ▸ row) (fun k' h => hk (others k' h)) (hn.trans next) (hh.trans high)
  | sequenced k seq h =>
    exact .sequenced k seq ⟨h.positive, h.free, h.unsequenced, hm ▸ h.row, fun k' hne => hk (h.others k' hne),
      hn.trans h.next, hh.trans h.high⟩
  | placed k unsequenced row others next high =>
    exact .placed k unsequenced (hm ▸ row) (fun k' h => hk (others k' h)) (hn.trans next) (hh.trans high)

/-- The introduction marker is no part of any position. -/
theorem Positioned.of_marked {marks : Table ChannelIntroRow String ChannelIntroRow.channelId}
    (h : Positioned { s with channelIntroPrompted := marks } s') : Positioned s s' := by
  cases h with
  | still h => exact .still ⟨h.next, h.high, h.rows⟩
  | bare k free row others next high => exact .bare k free row others next high
  | sequenced k seq h =>
    exact .sequenced k seq ⟨h.positive, h.free, h.unsequenced, h.row, h.others, h.next, h.high⟩
  | placed k unsequenced row others next high => exact .placed k unsequenced row others next high

theorem places_storeLocalEvent (payload : Payload) (reason : String) (introChannelId : Option String)
    (receivedAt : Int) (idempotent : Bool) (now : Int) :
    Places (storeLocalEvent payload reason introChannelId receivedAt idempotent now) := by
  refine Does.raiseIf fun _ => Leaves.read (places_transaction fun s a s' h => ?_) _
  obtain ⟨marks, he⟩ := storeLocalEventBody_ok h
  exact (places_insertLocalEvent rfl he).of_marked

theorem places_promoteLocal {row : Option MessageRow} {envelopeId reason : String}
    {replacement : Option (String × String)} {now : Int} (hrow : row = s.messages.get? envelopeId)
    (h : promoteLocalGatedRow row envelopeId reason replacement now s = .ok (.commit r) s') : Positioned s s' := by
  unfold promoteLocalGatedRow at h
  cases row with
  | none => simp [pure_ok_iff] at h
  | some row =>
    simp only at h
    split_ifs at h with hseq hdone hgated
    · simp [pure_ok_iff] at h
    · simp [pure_ok_iff] at h
    · simp only [allocateLocalPosition_bind_ok_iff, exec_bind_ok_iff, pure_ok_iff] at h
      obtain ⟨-, rfl⟩ := h
      have hnone : row.serverSeq = none := by simpa using hseq
      have hkey : row.envelopeId = envelopeId := Table.get?_key hrow.symm
      refine .placed envelopeId (fun m hm => ?_) ⟨_, updateMessages_hits (m := row) ?_ hrow.symm ?_, ?_⟩
        (fun k hk => ?_) rfl rfl
      · rw [← hrow] at hm
        cases hm
        exact hnone
      · exact fun _ => rfl
      · simpa [hkey, hnone] using hgated
      · rw [MessageRow.slot, hnone]
      · refine kept_elsewhere ?_ (fun m hm => (of_decide_eq_true hm).1) hk
        exact fun _ => rfl
    · simp [pure_ok_iff] at h

theorem stays_promoteSequenced (row : Option MessageRow) (envelopeId : String) (serverSeq : Int) (reason : String)
    (replacement : Option (String × String)) (now : Int) :
    Ends Still (promoteSequencedRow row envelopeId serverSeq reason replacement now) := by
  unfold promoteSequencedRow
  cases row with
  | none => exact ends_pure _
  | some row =>
    refine .ite (fun _ => ends_pure _) fun _ => .ite (fun _ => ends_pure _) fun _ => .ite (fun _ => ends_pure _) fun _ => ?_
    exact .bind (ends_exec fun s => still_updateMessages fun _ _ => rfl) fun _ =>
      .bind (ends_exec (still_frame.refreshNoticeState _ _)) fun _ => ends_pure _

theorem places_promoteGatedReceipt (envelopeId : String) (serverSeq : Option Int) (reason : String)
    (approvedPayload : Option Payload) (now : Int) :
    Places (promoteGatedReceipt envelopeId serverSeq reason approvedPayload now) := by
  refine Does.raiseIf fun _ => places_transaction fun s r s' h => ?_
  simp only [promoteGatedReceiptBody, query_bind_ok_iff] at h
  cases serverSeq with
  | none => exact places_promoteLocal rfl h
  | some seq => exact .still (stays_promoteSequenced _ _ _ _ _ _ s _ s' h)

end Receipts

theorem Op.perform_places (op : Op) : Places op.perform := by
  by_cases hfiles : op.files = false
  · exact Stays.places (still_frame.perform hfiles)
  · cases op with
    | store => exact places_store _ _
    | storeReceipt => exact (places_storeReceipt _ _ _ _ _ _).discard
    | storeLocalReceipt => exact (places_storeLocalReceipt _ _ _ _).discard
    | storeLocalEvent => exact (places_storeLocalEvent _ _ _ _ _ _).discard
    | promoteGatedReceipt => exact (places_promoteGatedReceipt _ _ _ _ _).discard
    | tombstoneGatedDm => exact (stays_tombstoneGatedDm _ _).places.discard
    | tombstoneGatedDmsFrom => exact (stays_tombstoneGatedDmsFrom _).places.discard
    | quarantinePending => exact (stays_quarantinePending _ _ _).places.discard
    | cleanup => exact (stays_cleanup _ _).places.discard
    | _ => exact absurd rfl hfiles

theorem step_positioned (s : Tables) (op : Op) : Positioned s (step s op) := by
  rcases op.perform_places.after s with h | ⟨-, -, h⟩
  · rw [step, h]
    exact .still (Std.Refl.refl s)
  · exact h

section Sequences
variable {s s' : Tables} {k : String} {m m' : MessageRow} {seq : Int}

/-- A stored sequence is never taken back or replaced. -/
theorem Positioned.serverSeq (h : Positioned s s') (hg : s.messages.get? k = some m)
    (hg' : s'.messages.get? k = some m') (hs : m.serverSeq = some seq) : m'.serverSeq = some seq := by
  have hkept (hk : Kept s s' k) : m'.serverSeq = some seq := by
    obtain ⟨m₀, hm₀, he⟩ := hk m' hg'
    obtain rfl := Option.some.inj (hg.symm.trans hm₀)
    exact (congrArg Slot.serverSeq he).trans hs
  cases h with
  | still h => exact hkept (h.rows k)
  | bare k₀ free row others next high =>
    refine hkept (others k fun hk => ?_)
    rw [← hk, hg] at free
    cases free
  | sequenced k₀ seq₀ h =>
    refine hkept (h.others k ?_)
    rintro rfl
    rw [h.unsequenced m hg] at hs
    cases hs
  | placed k₀ unsequenced row others next high =>
    refine hkept (others k ?_)
    rintro rfl
    rw [unsequenced m hg] at hs
    cases hs

/-- No two envelopes have the same sequence. -/
def DistinctSequences (s : Tables) : Prop :=
  ∀ k k' m m' seq, s.messages.get? k = some m → s.messages.get? k' = some m' → m.serverSeq = some seq →
    m'.serverSeq = some seq → k = k'

theorem Positioned.distinct (h : Positioned s s') (hs : DistinctSequences s) : DistinctSequences s' := by
  intro k k' m m' seq hg hg' hm hm'
  have hold {k : String} {m : MessageRow} (hk : Kept s s' k) (hg : s'.messages.get? k = some m)
      (hm : m.serverSeq = some seq) : ∃ m₀, s.messages.get? k = some m₀ ∧ m₀.serverSeq = some seq := by
    obtain ⟨m₀, hm₀, he⟩ := hk m hg
    exact ⟨m₀, hm₀, (congrArg Slot.serverSeq he).symm.trans hm⟩
  have hboth (h : ∀ k m, s'.messages.get? k = some m → m.serverSeq = some seq → Kept s s' k) : k = k' := by
    obtain ⟨m₀, hm₀, hs₀⟩ := hold (h k m hg hm) hg hm
    obtain ⟨m₁, hm₁, hs₁⟩ := hold (h k' m' hg' hm') hg' hm'
    exact hs k k' m₀ m₁ seq hm₀ hm₁ hs₀ hs₁
  cases h with
  | still h => exact hboth fun k _ _ _ => h.rows k
  | bare k₀ free row others next high =>
    refine hboth fun k m hg hm => others k ?_
    rintro rfl
    rw [show m.serverSeq = none from congrArg Slot.serverSeq (row m hg)] at hm
    cases hm
  | placed k₀ unsequenced row others next high =>
    refine hboth fun k m hg hm => others k ?_
    rintro rfl
    obtain ⟨m₁, hm₁, hslot⟩ := row
    obtain rfl := Option.some.inj (hg.symm.trans hm₁)
    rw [show m.serverSeq = none from congrArg Slot.serverSeq hslot] at hm
    cases hm
  | sequenced k₀ seq₀ h =>
    -- Only the envelope that is sequenced now can have a sequence that nobody had.
    obtain ⟨m₀, hm₀, hs₀, -⟩ := h.row
    have hnew {k : String} {m : MessageRow} (hg : s'.messages.get? k = some m) (hm : m.serverSeq = some seq₀) :
        k = k₀ := by
      by_contra hk
      obtain ⟨m₁, hm₁, he⟩ := h.others k hk m hg
      exact h.free k m₁ hm₁ ((congrArg Slot.serverSeq he).symm.trans hm)
    by_cases hseq : seq = seq₀
    · subst hseq
      rw [hnew hg hm, hnew hg' hm']
    · refine hboth fun k m hg hm => h.others k ?_
      rintro rfl
      obtain rfl := Option.some.inj (hg.symm.trans hm₀)
      exact hseq (Option.some.inj (hm.symm.trans hs₀))

end Sequences
end PuffoAgent.Store
