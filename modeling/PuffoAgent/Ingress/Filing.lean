import PuffoAgent.Ingress.AckSafety
import PuffoAgent.Store.Finality

/-! The row a new delivery is filed as, and what becomes of its sender and its content. -/
namespace PuffoAgent.Ingress
open Relational Stmt Sql Store Text Machine

section Filing
variable {s : Tables} {payload : Payload} {serverSeq : Int}

/-- The delivery is new to the store. -/
structure Fresh (s : Tables) (envelopeId : String) (serverSeq : Int) : Prop where
  unknown : s.messages.get? envelopeId = none
  free : Tables.free s serverSeq
  positive : 0 < serverSeq
  named : envelopeId ≠ ""

/-- The columns of the row that its projection reads as the sender's. -/
structure Stamped (payload : Payload) (m : MessageRow) : Prop where
  senderSlug : m.senderSlug = payload.senderSlug
  envelopeKind : m.envelopeKind = payload.envelopeKind
  content : m.content = encodeContent payload.content

/-- The row that `_insert_new_receipt` inserts. -/
def filedRow (payload : Payload) (serverSeq : Int) (disposition : ReceiptDisposition) (reason : String)
    (receivedAt : Int) : MessageRow := { payloadValues payload receivedAt with
  serverSeq := some serverSeq
  receiptDisposition := some disposition
  receiptReason := some reason
  processingState := if disposition = ReceiptDisposition.eligible then some .pending else none }

theorem Fresh.insertMessage? (h : Fresh s payload.envelopeId serverSeq) (disposition : ReceiptDisposition)
    (reason : String) (receivedAt : Int) :
    ∃ t, s.insertMessage? (filedRow payload serverSeq disposition reason receivedAt) = some t := by
  generalize hrow : filedRow payload serverSeq disposition reason receivedAt = row
  have hseq : row.serverSeq = some serverSeq := by rw [← hrow]; rfl
  have hid : row.envelopeId = payload.envelopeId := by rw [← hrow]; rfl
  have hfree : ¬(row.serverSeq.isSome ∧ ∃ m ∈ s.messages.rows, m.serverSeq = row.serverSeq) := by
    rintro ⟨-, m, hm, he⟩
    exact h.free m hm (he.trans hseq)
  obtain ⟨messages, hm⟩ : ∃ messages, s.messages.insert? row = some messages := by
    rw [Table.insert?]
    exact ⟨_, dif_neg (Table.get?_eq_none_iff.1 (by rw [hid]; exact h.unknown))⟩
  exact ⟨_, by rw [Tables.insertMessage?, if_neg hfree, hm]; rfl⟩

/-- A new delivery is inserted, and the claims on it are settled. -/
theorem storeReceipt_inserts (h : Fresh s payload.envelopeId serverSeq) (disposition : ReceiptDisposition)
    (reason : String) (receivedAt now : Int) :
    ∃ r s' t, storeReceipt payload serverSeq disposition reason receivedAt now ⟨s, none⟩ = .ok r ⟨s', none⟩ ∧
      s.insertMessage? (filedRow payload serverSeq disposition reason receivedAt) = some t ∧
      s'.messages = (settleUnverifiedThreadClaims (payloadValues payload receivedAt) t).messages := by
  obtain ⟨t, ht⟩ := h.insertMessage? disposition reason receivedAt
  have hfind : s.messages.rows.find? (fun m => decide (m.serverSeq = some serverSeq)) = none :=
    List.find?_eq_none.2 fun m hm => by simpa using h.free m hm
  have hbody : ∃ r s', storeReceiptBody payload serverSeq disposition reason receivedAt now s = .ok (.commit r) s' ∧
      s'.messages = (settleUnverifiedThreadClaims (payloadValues payload receivedAt) t).messages := by
    refine ⟨⟨.committed, disposition, reason, receiptAck disposition⟩,
      if disposition = .eligible then refreshNoticeState now (some receivedAt) (advanceServerSequenceHighWater serverSeq
        (settleUnverifiedThreadClaims (payloadValues payload receivedAt) t))
      else advanceServerSequenceHighWater serverSeq
        (settleUnverifiedThreadClaims (payloadValues payload receivedAt) t), ?_, ?_⟩
    · simp only [storeReceiptBody, query_bind_ok_iff, h.unknown, hfind, Option.isSome_none, Bool.false_eq_true,
        if_false, insertNewReceipt, insertMessage, tryExec_bind_ok_iff, exec_bind_ok_iff, pure_ok_iff]
      exact ⟨t, ht, trivial, rfl⟩
    · split <;> rfl
  obtain ⟨r, s', hb, hm⟩ := hbody
  refine ⟨r, s', t, ?_, ht, hm⟩
  rw [storeReceipt_run disposition reason receivedAt now h.positive h.named, transaction_run, hb]

/-- A new delivery gets its row. -/
theorem storeReceipt_files (h : Fresh s payload.envelopeId serverSeq) (disposition : ReceiptDisposition)
    (reason : String) (receivedAt now : Int) :
    ∃ r s' m, storeReceipt payload serverSeq disposition reason receivedAt now ⟨s, none⟩ = .ok r ⟨s', none⟩ ∧
      s'.messages.get? payload.envelopeId = some m ∧ Stamped payload m ∧ m.receiptDisposition = some disposition := by
  obtain ⟨r, s', t, hrun, ht, hm⟩ := storeReceipt_inserts h disposition reason receivedAt now
  have hins := (Inserted.of_insertMessage? ht).rethreaded
    (settleUnverifiedThreadClaims_rethreading (payloadValues payload receivedAt) t)
  obtain ⟨m, ⟨root, unverified, rfl⟩, hg⟩ := hins.stored
  exact ⟨r, s', _, hrun, by rw [hm]; exact hg, ⟨rfl, rfl, rfl⟩, rfl⟩

/-- Without a row there is nothing to release. -/
theorem promoteGatedReceipt_unknown (h : s.messages.get? payload.envelopeId = none) (reason : String) (now : Int) :
    promoteGatedReceipt payload.envelopeId (some serverSeq) reason (some payload) now ⟨s, none⟩ =
      .ok associationMismatch ⟨s, none⟩ := by
  have hbody (replacement : Option (String × String)) :
      promoteGatedReceiptBody payload.envelopeId (some serverSeq) reason replacement now s =
        .ok (.rollback associationMismatch) s := by
    simp only [promoteGatedReceiptBody, query_bind_ok_iff, h, promoteSequencedRow, pure_ok_iff, and_self]
  change EStateM.bind (raiseIf _ _) _ _ = _
  simp only [EStateM.bind, raiseIf, Option.any_some, ne_eq, not_true_eq_false, decide_false, Bool.false_eq_true,
    if_false, transaction_run, hbody]

/-- A delivery that is not new to the store leaves the tables as they were. -/
theorem storeReceipt_unfiled (hu : s.messages.get? payload.envelopeId = none)
    (h : ¬ Fresh s payload.envelopeId serverSeq) (disposition : ReceiptDisposition) (reason : String)
    (receivedAt now : Int) : (storeReceipt payload serverSeq disposition reason receivedAt now).after s = s := by
  rcases (storeReceipt_has payload serverSeq disposition reason receivedAt now).after s with hs | ⟨r, hr, -⟩
  · exact hs
  unfold storeReceipt at hr
  simp only [raiseIf_bind_ok_iff] at hr
  obtain ⟨hpos, hid, hr⟩ := hr
  have hfree : ¬ Tables.free s serverSeq := fun hf => h ⟨hu, hf, by omega, hid⟩
  have hseq : (s.messages.rows.find? (fun m => decide (m.serverSeq = some serverSeq))).isSome = true := by
    simpa [Tables.free] using hfree
  have hbody : storeReceiptBody payload serverSeq disposition reason receivedAt now s =
      .ok (.rollback ⟨.conflict, disposition, "server sequence belongs to another envelope", false⟩) s := by
    simp only [storeReceiptBody, query_bind_ok_iff, hu, hseq, if_true, pure_ok_iff, and_self]
  rw [transaction_run, hbody] at hr
  injection hr with _ hc
  injection hc with hs
  exact hs.symm

/-- What `commit` leaves of a row the store does not know. -/
theorem commit_after (hu : s.messages.get? payload.envelopeId = none) (disposition : ReceiptDisposition)
    (reason : String) (content : Option Json) (receivedAt now : Int) :
    (commit payload serverSeq disposition reason content receivedAt now).after s =
      (storeReceipt (committedRow payload content) serverSeq disposition reason receivedAt now).after s := by
  have hid : (committedRow payload content).envelopeId = payload.envelopeId := by cases content <;> rfl
  have hreceipt : committedReceipt (committedRow payload content) serverSeq disposition reason receivedAt now ⟨s, none⟩ =
      storeReceipt (committedRow payload content) serverSeq disposition reason receivedAt now ⟨s, none⟩ := by
    unfold committedReceipt
    split
    · change EStateM.bind _ _ _ = _
      rw [EStateM.bind, promoteGatedReceipt_unknown (by rw [hid]; exact hu)]
      rfl
    · rfl
  have hcommit : commit payload serverSeq disposition reason content receivedAt now ⟨s, none⟩ =
      EStateM.bind (storeReceipt (committedRow payload content) serverSeq disposition reason receivedAt now)
        (fun r => pure (transportOutcome r)) ⟨s, none⟩ := by
    change EStateM.bind _ _ _ = _
    rw [EStateM.bind, hreceipt]
    rfl
  rw [Sql.after, hcommit, EStateM.bind, Sql.after]
  cases storeReceipt (committedRow payload content) serverSeq disposition reason receivedAt now ⟨s, none⟩ <;> rfl

/-- A new delivery is filed with the content the handler chose. -/
theorem commit_files (h : Fresh s payload.envelopeId serverSeq) (disposition : ReceiptDisposition)
    (reason : String) (content : Option Json) (receivedAt now : Int) :
    ∃ m, ((commit payload serverSeq disposition reason content receivedAt now).after s).messages.get?
        payload.envelopeId = some m ∧ Stamped (committedRow payload content) m ∧
      m.receiptDisposition = some disposition := by
  have hid : (committedRow payload content).envelopeId = payload.envelopeId := by cases content <;> rfl
  have h' : Fresh s (committedRow payload content).envelopeId serverSeq := by rw [hid]; exact h
  obtain ⟨r, s', m, hrun, hg, hstamp, hd⟩ := storeReceipt_files h' disposition reason receivedAt now
  refine ⟨m, ?_, hstamp, hd⟩
  rw [commit_after h.unknown, Sql.after, hrun, ← hid]
  exact hg

theorem commit_unfiled (hu : s.messages.get? payload.envelopeId = none) (h : ¬ Fresh s payload.envelopeId serverSeq)
    (disposition : ReceiptDisposition) (reason : String) (content : Option Json) (receivedAt now : Int) :
    (commit payload serverSeq disposition reason content receivedAt now).after s = s := by
  have hid : (committedRow payload content).envelopeId = payload.envelopeId := by cases content <;> rfl
  rw [commit_after hu]
  exact storeReceipt_unfiled (by rw [hid]; exact hu) (by rw [hid]; exact h) disposition reason receivedAt now

/-- The only row a delivery can add under its own id. -/
theorem commit_filed (hu : s.messages.get? payload.envelopeId = none) {disposition : ReceiptDisposition}
    {reason : String} {content : Option Json} {receivedAt now : Int} {m : MessageRow}
    (hm : ((commit payload serverSeq disposition reason content receivedAt now).after s).messages.get?
      payload.envelopeId = some m) :
    Stamped (committedRow payload content) m ∧ m.receiptDisposition = some disposition := by
  by_cases h : Fresh s payload.envelopeId serverSeq
  · obtain ⟨m', hg, hstamp, hd⟩ := commit_files h disposition reason content receivedAt now
    obtain rfl := Option.some.inj (hm.symm.trans hg)
    exact ⟨hstamp, hd⟩
  · rw [commit_unfiled hu h, hu] at hm
    cases hm

end Filing

section Later

theorem Stamped.moved {licence : Licence} {payload : Payload} {m m' : MessageRow} (h : Stamped payload m)
    (hs : m.Decided) (hm : Moved licence m m') : Stamped payload m' := by
  have hgated := hs.not_gated
  cases hm with
  | aside ha =>
    cases ha with
    | gated seq reason hd' hp hf =>
      obtain ⟨d, hd, -⟩ := hs
      simp [hd] at hd'
    | releasedLocal reason ordinal frontier contentType content hs hg => simp [MessageRow.isGated, hgated] at hg
    | released reason contentType content hs hg => simp [MessageRow.isGated, hgated] at hg
    | denied hg => exact absurd hg hgated
    | rethreaded | sequenced | backfilled | classified | quarantined | covered =>
      exact ⟨h.senderSlug, h.envelopeKind, h.content⟩
  | admitted turnId at_ hp => exact ⟨h.senderSlug, h.envelopeKind, h.content⟩
  | ended turnId hp he => cases he <;> exact ⟨h.senderSlug, h.envelopeKind, h.content⟩

/-- The row of the envelope after some operations that never delete it. -/
def Later (s : Tables) (envelopeId : String) (m : MessageRow) : Prop :=
  ∃ ops, Throughout Store.step (fun s => (s.messages.get? envelopeId).isSome) s ops ∧
    (run Store.step s ops).messages.get? envelopeId = some m

theorem Later.now {s : Tables} {k : String} {m : MessageRow} (h : s.messages.get? k = some m) : Later s k m :=
  ⟨[], by simp [Throughout, h], h⟩

theorem Later.known {s : Tables} {k : String} {m : MessageRow} (h : Later s k m) :
    ∃ m₀, s.messages.get? k = some m₀ := by
  obtain ⟨ops, ht, -⟩ := h
  exact Option.isSome_iff_exists.1 ht.head

/-- What no operator has to release keeps its sender and its content. -/
theorem Stamped.later {payload : Payload} {s : Tables} {k : String} {m₀ m : MessageRow}
    (hg : s.messages.get? k = some m₀) (h : Stamped payload m₀) (hs : m₀.Decided) (hl : Later s k m) :
    Stamped payload m := by
  obtain ⟨ops, ht, hm⟩ := hl
  obtain ⟨m', hg', h', -⟩ := kept_row step_moves (P := fun m => Stamped payload m ∧ m.Decided)
    (fun _ _ _ hmv ⟨h, hs⟩ => ⟨h.moved hs hmv, hmv.decided hs⟩) hg ⟨h, hs⟩ ht
  obtain rfl := Option.some.inj (hg'.symm.trans hm)
  exact h'

end Later
end PuffoAgent.Ingress
