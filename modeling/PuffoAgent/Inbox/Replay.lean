import PuffoAgent.Inbox.Frontier
import PuffoAgent.Store.Finality

/-! Receipts that come again: the row of the envelope decides the answer, and no table changes. -/
namespace PuffoAgent.Inbox
open Relational Stmt Sql Store Machine

section Sequences
variable {s s' : Tables} {k k' : String} {m m' : MessageRow} {seq : Int}

theorem distinct_after (host : Reminders.Host) (ops : List Write) : DistinctSequences (after host ops) := by
  refine run_invariant ?_ (fun s op hs => (step_positioned host s op).distinct hs) ops
  intro k k' m m' seq hg
  simp [Tables.empty] at hg

/-- The sequence of an envelope stays for as long as its row does. -/
theorem serverSeq_kept (host : Reminders.Host) (hg : s.messages.get? k = some m) (hs : m.serverSeq = some seq)
    {ops : List Write} (ht : Throughout (step host) (Tables.stores k) s ops) :
    ∃ m', (run (step host) s ops).messages.get? k = some m' ∧ m'.serverSeq = some seq := by
  induction ops generalizing s m with
  | nil => exact ⟨m, hg, hs⟩
  | cons op ops ih =>
    obtain ⟨m₁, hg₁⟩ := Option.isSome_iff_exists.mp ht.2.head
    exact ih hg₁ ((step_positioned host s op).serverSeq hg hg₁ hs) ht.2

end Sequences

section Verdicts
variable {s s' : Tables} {k : String} {m : MessageRow}

/-- A reminder transaction leaves the rows alone that are there. -/
theorem reminder_step_row (host : Reminders.Host) (op : Reminders.Op) (hg : s.messages.get? k = some m) :
    (Reminders.step host s op).messages.get? k = some m := by
  cases Reminders.step_effect host s op with
  | quiet rows messages => rw [messages, hg]
  | created row fresh stored others messages => rw [messages, hg]
  | delivered finalNowMs read r r' delivery free inserted messages =>
    rw [messages k, hg]
    rintro rfl
    rw [free] at hg
    cases hg
  | adopted finalNowMs read r r' delivery taken messages => rw [messages, hg]

theorem step_moves (host : Reminders.Host) (s : Tables) (op : Write) (k : String) (m : MessageRow)
    (hg : s.messages.get? k = some m) : (step host s op).messages.get? k = none ∨
      ∃ licence m', (step host s op).messages.get? k = some m' ∧ Moved licence m m' := by
  cases op with
  | store op => exact Store.step_moves s op k m hg
  | reminder op => exact .inr ⟨{}, m, reminder_step_row host op hg, .aside (Aside.refl m)⟩

end Verdicts
section Receipts
variable {s : Tables} {payload : Payload} {serverSeq : Int} {disposition : ReceiptDisposition} {reason : String}
  {receivedAt now : Int} {m : MessageRow} {r : ReceiptResult} {c : Connection Tables}

/-- A committed receipt leaves the envelope under the sequence it was sent with. -/
theorem storeReceipt_sequences (payload : Payload) (serverSeq : Int) (disposition : ReceiptDisposition)
    (reason : String) (receivedAt now : Int) : Does (fun _ r s' => r.status = .committed → 0 < serverSeq ∧
        payload.envelopeId ≠ "" ∧ ∃ m, s'.messages.get? payload.envelopeId = some m ∧ m.serverSeq = some serverSeq)
      (storeReceipt payload serverSeq disposition reason receivedAt now) := by
  refine Does.raiseIf fun hseq => Does.raiseIf fun hid => does_transaction (fun s r s' h _ => ?_) fun s r t h hr => ?_
  · have hpos := not_le.mp hseq
    obtain ⟨m, hm, hs, -⟩ := (sequencing_storeReceipt hpos h).row
    exact ⟨hpos, hid, m, hm, hs⟩
  · exact absurd hr (storeReceiptBody_tells _ _ _ _ _ _ _ _ _ h)

/-- An envelope that is stored under the sequence answers for itself. -/
theorem storeReceipt_known (hseq : 0 < serverSeq) (hid : payload.envelopeId ≠ "")
    (hg : s.messages.get? payload.envelopeId = some m) (hs : m.serverSeq = some serverSeq) :
    storeReceipt payload serverSeq disposition reason receivedAt now ⟨s, none⟩ =
      .ok ⟨.idempotent, m.receiptDisposition.getD disposition, (m.receiptReason.filter (· ≠ "")).getD reason,
        receiptAck (m.receiptDisposition.getD disposition)⟩ ⟨s, none⟩ := by
  rw [storeReceipt, raiseIf_bind_neg (not_le.mpr hseq), raiseIf_bind_neg hid, transaction_run, storeReceiptBody,
    query_bind_run, query_bind_run, hg]
  dsimp only [persistExistingReceipt]
  rw [if_neg (by simp [hs]), if_neg (by simp [hs])]
  rfl

/-- A committed sequence-less receipt leaves the envelope classified and without a sequence. -/
theorem storeLocalReceipt_classifies (payload : Payload) (disposition : ReceiptDisposition) (reason : String)
    (receivedAt : Int) : Does (fun _ r s' => r.status = .committed →
        (disposition = .terminal ∨ disposition = .foreignDmGated) ∧ payload.envelopeId ≠ "" ∧
        ∃ m, s'.messages.get? payload.envelopeId = some m ∧ m.serverSeq = none ∧ m.receiptDisposition ≠ none)
      (storeLocalReceipt payload disposition reason receivedAt) := by
  refine Does.raiseIf fun hd => Does.raiseIf fun hid => does_transaction (fun s r s' h _ => ?_) fun s r t h hr => ?_
  · refine ⟨or_iff_not_and_not.mpr hd, hid, ?_⟩
    simp only [storeLocalReceiptBody, query_bind_ok_iff] at h
    cases hg : s.messages.get? payload.envelopeId with
    | none =>
      simp only [hg] at h
      obtain ⟨position, t, -, h⟩ := bind_ok_iff.mp h
      simp only [insertMessage, tryExec_bind_ok_iff, pure_ok_iff] at h
      obtain ⟨t', hi, -, rfl⟩ := h
      exact ⟨_, ((Tables.insertMessage?_eq_some hi).2.1 _).trans (if_pos rfl), rfl, fun hnone => by cases hnone⟩
    | some row =>
      simp only [hg, classifyExistingLocalRow] at h
      split_ifs at h with hseq
      · simp [pure_ok_iff] at h
      · cases hdisp : row.receiptDisposition with
        | none =>
          simp only [hdisp, exec_bind_ok_iff, pure_ok_iff] at h
          obtain ⟨-, rfl⟩ := h
          refine ⟨_, updateMessages_hits ?_ hg ?_, ?_, fun hnone => by cases hnone⟩
          · exact fun _ => rfl
          · simpa [Table.get?_key hg, hdisp] using hseq
          · simpa using hseq
        | some stored => simp [hdisp, pure_ok_iff] at h
  · exact absurd hr (storeLocalReceiptBody_tells _ _ _ _ _ _ _ h)

theorem storeLocalReceipt_known (hd : disposition = .terminal ∨ disposition = .foreignDmGated)
    (hid : payload.envelopeId ≠ "") (hg : s.messages.get? payload.envelopeId = some m) {stored : ReceiptDisposition}
    (hs : m.receiptDisposition = some stored) :
    storeLocalReceipt payload disposition reason receivedAt ⟨s, none⟩ = .ok
      (if m.serverSeq.isSome then ⟨.conflict, disposition, "envelope already owns a server sequence", false⟩
        else ⟨.idempotent, stored, (m.receiptReason.filter (· ≠ "")).getD reason, receiptAck stored⟩) ⟨s, none⟩ := by
  have hdisp : ¬ (disposition ≠ .terminal ∧ disposition ≠ .foreignDmGated) := by
    rcases hd with rfl | rfl <;> simp
  rw [storeLocalReceipt, raiseIf_bind_neg hdisp, raiseIf_bind_neg hid, transaction_run, storeLocalReceiptBody,
    query_bind_run, hg]
  dsimp only [classifyExistingLocalRow]
  rw [hs]
  by_cases hsome : m.serverSeq.isSome = true
  · rw [if_pos hsome, if_pos hsome]
    rfl
  · rw [if_neg hsome, if_neg hsome]
    rfl

end Receipts
section Replay
variable (host : Reminders.Host)

/-- Receipt replay is harmless. For as long as the row of a committed receipt is stored, the same
receipt changes no table and is answered with the stored disposition, or, once a sequence-less one
has been given a sequence, refused; an answer other than committed has changed no table; sequences
are distinct and stay while the row does. -/
theorem receipt_replay_harmless (ops : List Write) :
    (∀ payload serverSeq disposition reason receivedAt now r c,
      storeReceipt payload serverSeq disposition reason receivedAt now ⟨after host ops, none⟩ = .ok r c →
      r.status = .committed → ∀ ops', Throughout (step host) (Tables.stores payload.envelopeId) c.tables ops' →
      ∀ receivedAt' now', ∃ m r', (run (step host) c.tables ops').messages.get? payload.envelopeId = some m ∧
        storeReceipt payload serverSeq disposition reason receivedAt' now' ⟨run (step host) c.tables ops', none⟩ =
          .ok r' ⟨run (step host) c.tables ops', none⟩ ∧
        r'.status = .idempotent ∧ r'.disposition = m.receiptDisposition.getD disposition) ∧
    (∀ payload disposition reason receivedAt r c,
      storeLocalReceipt payload disposition reason receivedAt ⟨after host ops, none⟩ = .ok r c →
      r.status = .committed → (∃ m, c.tables.messages.get? payload.envelopeId = some m ∧ m.serverSeq = none) ∧
      ∀ ops', Throughout (step host) (Tables.stores payload.envelopeId) c.tables ops' →
      ∀ receivedAt', ∃ m r', (run (step host) c.tables ops').messages.get? payload.envelopeId = some m ∧
        storeLocalReceipt payload disposition reason receivedAt' ⟨run (step host) c.tables ops', none⟩ =
          .ok r' ⟨run (step host) c.tables ops', none⟩ ∧
        (m.serverSeq = none → r'.status = .idempotent ∧ m.receiptDisposition = some r'.disposition)) ∧
    (∀ op x s r c, Store.Op.receipt? op = some x → x ⟨s, none⟩ = .ok r c → r.status ≠ .committed → c = ⟨s, none⟩) ∧
    DistinctSequences (after host ops) ∧
    ∀ k m seq, (after host ops).messages.get? k = some m → m.serverSeq = some seq →
      ∀ ops', Throughout (step host) (Tables.stores k) (after host ops) ops' →
        ∃ m', (run (step host) (after host ops) ops').messages.get? k = some m' ∧ m'.serverSeq = some seq := by
  refine ⟨?_, ?_, ?_, distinct_after host ops, fun k m seq hg hs ops' ht => serverSeq_kept host hg hs ht⟩
  · intro payload serverSeq disposition reason receivedAt now r c h hr ops' ht receivedAt' now'
    obtain ⟨-, hfiled⟩ := (storeReceipt_sequences payload serverSeq disposition reason receivedAt now).ok h
    obtain ⟨hseq, hid, m, hg, hs⟩ := hfiled hr
    obtain ⟨m', hg', hs'⟩ := serverSeq_kept host hg hs ht
    exact ⟨m', _, hg', storeReceipt_known hseq hid hg' hs', rfl, rfl⟩
  · intro payload disposition reason receivedAt r c h hr
    obtain ⟨-, hfiled⟩ := (storeLocalReceipt_classifies payload disposition reason receivedAt).ok h
    obtain ⟨hd, hid, m, hg, hs, hm⟩ := hfiled hr
    refine ⟨⟨m, hg, hs⟩, fun ops' ht receivedAt' => ?_⟩
    obtain ⟨m', hg', hm'⟩ := Store.kept_row (step_moves host) (fun _ _ _ hmv => hmv.classified) hg hm ht
    obtain ⟨stored, hstored⟩ := Option.ne_none_iff_exists'.mp hm'
    refine ⟨m', _, hg', storeLocalReceipt_known hd hid hg' hstored, fun hnone => ?_⟩
    rw [hnone, if_neg (by simp)]
    exact ⟨rfl, hstored⟩
  · intro op x s r c hx hok hr
    rcases Store.Op.receipt_answers hx s with ⟨e, he⟩ | ⟨r', s', hok', hsame⟩
    · rw [he] at hok
      cases hok
    · rw [hok'] at hok
      cases hok
      rw [hsame hr]

/-- A receipt that nobody has to act on. -/
def expiredReceipt (serverSeq : Int) : Store.Op :=
  .storeReceipt { envelopeId := "m1", sentAt := 0 } serverSeq .terminal "" 0 0

/-- A gated sequence-less delivery that comes again with a sequence and is approved. -/
def approvedDelivery : List Store.Op :=
  [.storeLocalReceipt { envelopeId := "m1", sentAt := 0 } .foreignDmGated "" 0,
    .storeReceipt { envelopeId := "m1", sentAt := 0 } 7 .eligible "" 0 0,
    .promoteGatedReceipt "m1" (some 7) "approved" none 0]

/-- Retention deletes the row, and the envelope may come back under another sequence; and a
sequence-less receipt that is repeated after its row was sequenced names the verdict it asked for. -/
theorem replay_after_cleanup_or_sequence :
    (((run Store.step Tables.empty [expiredReceipt 5]).messages.get? "m1").bind (·.serverSeq) = some 5 ∧
      ((run Store.step Tables.empty [expiredReceipt 5, .cleanup 1 (2 * 86400000), expiredReceipt 9]).messages.get?
        "m1").bind (·.serverSeq) = some 9) ∧
    ((run Store.step Tables.empty approvedDelivery).messages.get? "m1").bind (·.receiptDisposition) = some .eligible ∧
    ∃ c, storeLocalReceipt { envelopeId := "m1", sentAt := 0 } .foreignDmGated "" 0
        ⟨run Store.step Tables.empty approvedDelivery, none⟩ =
      .ok ⟨.conflict, .foreignDmGated, "envelope already owns a server sequence", false⟩ c :=
  ⟨by decide, by decide, _, rfl⟩

end Replay
end PuffoAgent.Inbox
