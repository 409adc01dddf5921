import PuffoAgent.Store.Operations

/-! The operator's answer to a held DM as a store transition, and how long replaying it
still finds its own effect. -/
namespace PuffoAgent.Approvals
open Relational Stmt Sql Store Machine

/-- `APPROVED_REASON`. -/
def approvedReason : String := "foreign dm approved by operator"

/-- The arguments of one answer's store call beside the envelope and its sequence. -/
inductive Verdict where
  | approval (reason : String) (approvedPayload : Option Payload)
  | denial

/-- The store call of `_apply_local_transition`. -/
def localTransition (verdict : Verdict) (envelopeId : String) (serverSeq : Option Int) (now : Int) :
    StoreM ReceiptResult :=
  match verdict with
  | .approval reason approvedPayload =>
    promoteGatedReceipt envelopeId serverSeq reason approvedPayload now
  | .denial => tombstoneGatedDm envelopeId serverSeq

/-- `_APPLIED_STATUSES`. -/
def isApplied (status : ReceiptWriteStatus) : Bool := status = .committed ∨ status = .idempotent

/-- The status an operation reports, if it returns. -/
def reported (x : StoreM ReceiptResult) (s : Tables) : Option ReceiptWriteStatus :=
  match x ⟨s, none⟩ with
  | .ok result _ => some result.status
  | .error _ _ => none

/-- The transition reports that it is applied. -/
def Applies (verdict : Verdict) (envelopeId : String) (serverSeq : Option Int) (now : Int)
    (s : Tables) : Prop :=
  (reported (localTransition verdict envelopeId serverSeq now) s).any isApplied = true

/-- The row as the answer leaves it. -/
def Verdict.Done (verdict : Verdict) (serverSeq : Option Int) (m : MessageRow) : Prop :=
  match verdict with
  | .approval _ _ => m.isPending = true ∧
      m.receiptDisposition = some (if serverSeq.isSome then .eligible else .localRuntime)
  | .denial => m.receiptDisposition = some .terminal ∧
      m.content = encodeContent (.str deniedDmPlaceholder)

/-- The row is stored under the sequence it was answered with, and still waits if it was
released. -/
def Standing (verdict : Verdict) (envelopeId : String) (serverSeq : Option Int) (s : Tables) : Prop :=
  ∃ m, s.messages.get? envelopeId = some m ∧ m.serverSeq = serverSeq ∧
    (verdict ≠ .denial → m.isPending = true)

section Spec
variable {verdict : Verdict} {envelopeId : String} {serverSeq : Option Int} {now : Int} {s : Tables}

/-- The answer has left its row as it leaves rows. -/
def Answered (verdict : Verdict) (envelopeId : String) (serverSeq : Option Int) (s : Tables) : Prop :=
  ∃ m, s.messages.get? envelopeId = some m ∧ m.serverSeq = serverSeq ∧ verdict.Done serverSeq m

/-- The arguments the store call accepts. -/
def Verdict.Fits (verdict : Verdict) (envelopeId : String) : Prop :=
  match verdict with
  | .approval _ approvedPayload => ¬ approvedPayload.any (·.envelopeId ≠ envelopeId)
  | .denial => True

/-- A row that the answer can still be given to, or already has been. -/
def Verdict.Reaches (verdict : Verdict) (serverSeq : Option Int) (m : MessageRow) : Prop :=
  m.serverSeq = serverSeq ∧ (verdict.Done serverSeq m ∨ m.isGated = true)

/-- What the body of an answer's transaction returns, by the row it finds. -/
structure Outcome (verdict : Verdict) (envelopeId : String) (serverSeq : Option Int)
    (result : EStateM.Result StoreError Tables (Finish ReceiptResult)) (s : Tables) : Prop where
  returns : ∃ f t, result = .ok f t
  committed : ∀ r t, result = .ok (.commit r) t →
    isApplied r.status = true ∧ Answered verdict envelopeId serverSeq t ∧
      ∃ m, s.messages.get? envelopeId = some m ∧ verdict.Reaches serverSeq m
  rolledBack : ∀ r t, result = .ok (.rollback r) t →
    (isApplied r.status = true ↔ ∃ m, s.messages.get? envelopeId = some m ∧ verdict.Reaches serverSeq m) ∧
      (isApplied r.status = true → Answered verdict envelopeId serverSeq s)

theorem outcome_conflict {result : EStateM.Result StoreError Tables (Finish ReceiptResult)} {r : ReceiptResult}
    (h : result = .ok (.rollback r) s) (hr : r.status = .conflict)
    (hn : ∀ m, s.messages.get? envelopeId = some m → ¬ verdict.Reaches serverSeq m) :
    Outcome verdict envelopeId serverSeq result s := by
  have unapplied : isApplied r.status = false := by rw [hr]; rfl
  refine ⟨⟨_, _, h⟩, ?_, ?_⟩
  · intro r' t' h'
    rw [h] at h'
    cases h'
  · intro r' t' h'
    rw [h] at h'
    cases h'
    simp only [unapplied, Bool.false_eq_true, false_iff, not_exists, not_and, IsEmpty.forall_iff, and_true]
    exact hn

theorem outcome_idempotent {result : EStateM.Result StoreError Tables (Finish ReceiptResult)} {r : ReceiptResult}
    (h : result = .ok (.rollback r) s) (hr : r.status = .idempotent) {m : MessageRow}
    (hg : s.messages.get? envelopeId = some m) (hs : m.serverSeq = serverSeq)
    (hd : verdict.Done serverSeq m) : Outcome verdict envelopeId serverSeq result s := by
  have applied : isApplied r.status = true := by rw [hr]; rfl
  refine ⟨⟨_, _, h⟩, ?_, ?_⟩
  · intro r' t' h'
    rw [h] at h'
    cases h'
  · intro r' t' h'
    rw [h] at h'
    cases h'
    exact ⟨iff_of_true applied ⟨m, hg, hs, .inl hd⟩, fun _ => ⟨m, hg, hs, hd⟩⟩

theorem outcome_commit {result : EStateM.Result StoreError Tables (Finish ReceiptResult)} {r : ReceiptResult} {t : Tables}
    (h : result = .ok (.commit r) t) (hr : r.status = .committed)
    (ha : Answered verdict envelopeId serverSeq t) {m : MessageRow}
    (hg : s.messages.get? envelopeId = some m) (hs : m.serverSeq = serverSeq)
    (hm : m.isGated = true) : Outcome verdict envelopeId serverSeq result s := by
  refine ⟨⟨_, _, h⟩, ?_, ?_⟩
  · intro r' t' h'
    rw [h] at h'
    cases h'
    exact ⟨by rw [hr]; rfl, ha, m, hg, hs, .inr hm⟩
  · intro r' t' h'
    rw [h] at h'
    cases h'

variable (verdict serverSeq) in
theorem answered_update {t : Tables} {m : MessageRow} {p : MessageRow → Bool}
    {f : MessageRow → MessageRow} (hf : ∀ m, (f m).envelopeId = m.envelopeId)
    (ht : t.messages = s.messages.update p f hf) (hg : s.messages.get? envelopeId = some m)
    (hp : p m = true) (hs : (f m).serverSeq = serverSeq) (hd : verdict.Done serverSeq (f m)) :
    Answered verdict envelopeId serverSeq t :=
  ⟨f m, by rw [ht, Table.get?_update, hg, Option.map_some, if_pos hp], hs, hd⟩

/-- The four ends of an answer: another row or none, a replay, a row that is not held, and the row it is for. -/
theorem outcome_of_row {result : EStateM.Result StoreError Tables (Finish ReceiptResult)}
    (missing : s.messages.get? envelopeId = none → result = .ok (.rollback associationMismatch) s)
    (found : ∀ m, s.messages.get? envelopeId = some m →
      (m.serverSeq ≠ serverSeq ∧ result = .ok (.rollback associationMismatch) s) ∨
      (m.serverSeq = serverSeq ∧ verdict.Done serverSeq m ∧ ∃ r, r.status = .idempotent ∧ result = .ok (.rollback r) s) ∨
      (¬ verdict.Done serverSeq m ∧ ¬ m.isGated = true ∧ result = .ok (.rollback notApprovalGated) s) ∨
      (m.serverSeq = serverSeq ∧ m.isGated = true ∧ ∃ r t, r.status = .committed ∧ result = .ok (.commit r) t ∧
        Answered verdict envelopeId serverSeq t)) :
    Outcome verdict envelopeId serverSeq result s := by
  cases hg : s.messages.get? envelopeId with
  | none =>
    refine outcome_conflict (missing hg) rfl fun m hm => ?_
    cases hg.symm.trans hm
  | some m =>
    have conflict (hn : ¬ verdict.Reaches serverSeq m) (m' : MessageRow) (hm : s.messages.get? envelopeId = some m') :
        ¬ verdict.Reaches serverSeq m' := Option.some.inj (hg.symm.trans hm) ▸ hn
    rcases found m hg with ⟨hs, h⟩ | ⟨hs, hd, r, hr, h⟩ | ⟨hd, hgate, h⟩ | ⟨hs, hgate, r, t, hr, h, ha⟩
    · exact outcome_conflict h rfl (conflict fun hreach => hs hreach.1)
    · exact outcome_idempotent h hr hg hs hd
    · exact outcome_conflict h rfl (conflict fun hreach => hreach.2.elim hd hgate)
    · exact outcome_commit h hr ha hg hs hgate

theorem promoteSequenced_outcome (seq : Int) (reason : String) (payload : Option Payload)
    (replacement : Option (String × String)) :
    Outcome (.approval reason payload) envelopeId (some seq)
      (promoteSequencedRow (s.messages.get? envelopeId) envelopeId seq reason replacement now s) s := by
  refine outcome_of_row (fun hg => by rw [hg]; rfl) fun m hg => ?_
  have hid : m.envelopeId = envelopeId := Table.get?_key hg
  rw [hg, promoteSequencedRow]
  dsimp only
  split_ifs with hs hd hgate
  · exact .inl ⟨hs, rfl⟩
  · exact .inr (.inl ⟨not_not.mp hs, ⟨by simp [MessageRow.isPending, hd.2], hd.1⟩, _, rfl, rfl⟩)
  · refine .inr (.inr (.inr ⟨not_not.mp hs, hgate, _, _, rfl, rfl, ?_⟩))
    exact answered_update _ _ (by exact fun _ => rfl) rfl hg (by simp [hid, not_not.mp hs, hgate])
      (not_not.mp hs) ⟨by simp [MessageRow.isPending], rfl⟩
  · exact .inr (.inr (.inl ⟨fun h => hd ⟨h.2, by simpa [MessageRow.isPending] using h.1⟩, hgate, rfl⟩))

theorem promoteLocal_outcome (reason : String) (payload : Option Payload)
    (replacement : Option (String × String)) :
    Outcome (.approval reason payload) envelopeId none
      (promoteLocalGatedRow (s.messages.get? envelopeId) envelopeId reason replacement now s) s := by
  refine outcome_of_row (fun hg => by rw [hg]; rfl) fun m hg => ?_
  have hid : m.envelopeId = envelopeId := Table.get?_key hg
  rw [hg, promoteLocalGatedRow]
  dsimp only
  split_ifs with hs hd hgate
  · exact .inl ⟨Option.isSome_iff_ne_none.mp hs, rfl⟩
  · exact .inr (.inl ⟨Option.not_isSome_iff_eq_none.mp hs, ⟨by simp [MessageRow.isPending, hd.2], hd.1⟩, _, rfl, rfl⟩)
  · have hlocal : m.serverSeq = none := Option.not_isSome_iff_eq_none.mp hs
    refine .inr (.inr (.inr ⟨hlocal, hgate, _, _, rfl, rfl, ?_⟩))
    exact answered_update _ _ (by exact fun _ => rfl) rfl hg (by simp [hid, hlocal, hgate]) hlocal
      ⟨by simp [MessageRow.isPending], rfl⟩
  · exact .inr (.inr (.inl ⟨fun h => hd ⟨h.2, by simpa [MessageRow.isPending] using h.1⟩, hgate, rfl⟩))

theorem tombstone_outcome :
    Outcome .denial envelopeId serverSeq (tombstoneGatedDmBody envelopeId serverSeq s) s := by
  rw [tombstoneGatedDmBody, query_bind_run]
  refine outcome_of_row (fun hg => by rw [hg]; rfl) fun m hg => ?_
  have hid : m.envelopeId = envelopeId := Table.get?_key hg
  rw [hg]
  dsimp only
  split_ifs with hs hd hgate
  · exact .inl ⟨hs, rfl⟩
  · exact .inr (.inl ⟨not_not.mp hs, hd, _, rfl, rfl⟩)
  · refine .inr (.inr (.inr ⟨not_not.mp hs, hgate, _, _, rfl, rfl, ?_⟩))
    exact answered_update _ _ (by exact fun _ => rfl) rfl hg (by simp [hid, not_not.mp hs, hgate])
      (not_not.mp hs) ⟨rfl, rfl⟩
  · exact .inr (.inr (.inl ⟨hd, hgate, rfl⟩))

variable (serverSeq now s) in
/-- The store call of an answer, described by the row it finds. -/
theorem localTransition_spec (fits : verdict.Fits envelopeId) :
    ∃ r t, localTransition verdict envelopeId serverSeq now ⟨s, none⟩ = .ok r ⟨t, none⟩ ∧
      (isApplied r.status = true ↔
        ∃ m, s.messages.get? envelopeId = some m ∧ verdict.Reaches serverSeq m) ∧
      (isApplied r.status = true → Answered verdict envelopeId serverSeq t) := by
  have of_outcome : ∀ body : BodyM (Finish ReceiptResult), Outcome verdict envelopeId serverSeq (body s) s →
      ∃ r t, transaction body ⟨s, none⟩ = .ok r ⟨t, none⟩ ∧
        (isApplied r.status = true ↔
          ∃ m, s.messages.get? envelopeId = some m ∧ verdict.Reaches serverSeq m) ∧
        (isApplied r.status = true → Answered verdict envelopeId serverSeq t) := by
    intro body h
    obtain ⟨f, t, hb⟩ := h.returns
    rw [transaction_run, hb]
    cases f with
    | commit r =>
      obtain ⟨applied, answered, reached⟩ := h.committed r t hb
      exact ⟨r, t, rfl, iff_of_true applied reached, fun _ => answered⟩
    | rollback r => exact ⟨r, s, rfl, h.rolledBack r t hb⟩
  cases verdict with
  | approval reason payload =>
    have accepted : localTransition (.approval reason payload) envelopeId serverSeq now ⟨s, none⟩ =
        transaction (promoteGatedReceiptBody envelopeId serverSeq reason
          (payload.map fun p => (p.contentType, encodeContent p.content)) now) ⟨s, none⟩ := by
      change EStateM.bind _ _ _ = _
      simp only [EStateM.bind, raiseIf, if_neg fits]
    rw [accepted]
    apply of_outcome
    cases serverSeq with
    | none => exact promoteLocal_outcome reason payload _
    | some seq => exact promoteSequenced_outcome seq reason payload _
  | denial => exact of_outcome _ tombstone_outcome

theorem applies_iff (fits : verdict.Fits envelopeId) :
    Applies verdict envelopeId serverSeq now s ↔
      ∃ m, s.messages.get? envelopeId = some m ∧ verdict.Reaches serverSeq m := by
  obtain ⟨r, t, run, applied, -⟩ := localTransition_spec serverSeq now s fits
  rw [Applies, reported, run, ← applied]
  rfl

end Spec

section Run
variable {verdict : Verdict} {envelopeId : String} {serverSeq : Option Int} {licence : Licence}
  {m m' : MessageRow} {s : Tables}

/-- A row that has been classified and is not gated stays so. -/
theorem Moved.not_isGated (h : Moved licence m m') (hd : m.receiptDisposition.isSome)
    (hg : m.receiptDisposition ≠ some .foreignDmGated) :
    m'.receiptDisposition ≠ some .foreignDmGated := by
  cases h with
  | aside ha =>
    cases ha with
    | rethreaded | backfilled => exact hg
    | sequenced => simp [MessageRow.sequenced]
    | gated _ _ hn => simp [hn] at hd
    | classified _ _ _ hn => simp [hn] at hd
    | releasedLocal | released | quarantined => simp
    | denied hgate => exact absurd hgate hg
    | covered => exact hg
  | admitted => exact hg
  | ended _ _ he => cases he <;> exact hg

/-- Along its own sequence, a released row that still waits is as it was released. -/
theorem Moved.done_approval (h : Moved licence m m') (hs : m.serverSeq = serverSeq)
    (hs' : m'.serverSeq = serverSeq) {reason : String} {payload : Option Payload}
    (hd : (Verdict.approval reason payload).Done serverSeq m) (hp : m'.isPending = true) :
    (Verdict.approval reason payload).Done serverSeq m' := by
  refine ⟨hp, ?_⟩
  have released := hd.2
  have notGated : m.receiptDisposition ≠ some .foreignDmGated := by
    rw [released]
    split <;> simp
  cases h with
  | aside ha =>
    cases ha with
    | rethreaded | backfilled | covered => exact released
    | sequenced seq reason hl =>
      obtain rfl : some seq = serverSeq := hs'
      rfl
    | gated _ _ hn => simp [hn] at released
    | classified _ _ _ hn => simp [hn] at released
    | releasedLocal _ _ _ _ _ _ hg | released _ _ _ _ hg =>
      simp only [MessageRow.isGated, decide_eq_true_eq] at hg
      exact absurd hg.1 notGated
    | denied hg => exact absurd hg notGated
    | quarantined => simp [MessageRow.isPending] at hp
  | admitted => simp [MessageRow.isPending, MessageRow.admitted] at hp
  | ended _ _ he => cases he <;> exact released

/-- A denied row keeps its tombstone. -/
theorem Moved.done_denial (h : Moved licence m m') (hd : Verdict.denial.Done serverSeq m) :
    Verdict.denial.Done serverSeq m' := by
  obtain ⟨terminal, tombstone⟩ := hd
  have notGated : m.receiptDisposition ≠ some .foreignDmGated := by simp [terminal]
  cases h with
  | aside ha =>
    cases ha with
    | rethreaded | backfilled | covered => exact ⟨terminal, tombstone⟩
    | sequenced _ _ hl => simp [hl] at terminal
    | gated _ _ hn => simp [hn] at terminal
    | classified _ _ _ hn => simp [hn] at terminal
    | releasedLocal _ _ _ _ _ _ hg | released _ _ _ _ hg =>
      simp only [MessageRow.isGated, decide_eq_true_eq] at hg
      exact absurd hg.1 notGated
    | denied hg => exact absurd hg notGated
    | quarantined => exact ⟨rfl, tombstone⟩
  | admitted => exact ⟨terminal, tombstone⟩
  | ended _ _ he => cases he <;> exact ⟨terminal, tombstone⟩

theorem Moved.done (h : Moved licence m m') (hs : m.serverSeq = serverSeq)
    (hs' : m'.serverSeq = serverSeq) (hd : verdict.Done serverSeq m)
    (hp : verdict ≠ .denial → m'.isPending = true) : verdict.Done serverSeq m' := by
  cases verdict with
  | approval reason payload => exact Moved.done_approval h hs hs' hd (hp (by simp))
  | denial => exact Moved.done_denial h hd

theorem Verdict.Done.classified (h : verdict.Done serverSeq m) :
    m.receiptDisposition.isSome ∧ m.receiptDisposition ≠ some .foreignDmGated := by
  cases verdict with
  | approval reason payload =>
    rw [h.2]
    split <;> simp
  | denial =>
    rw [h.1]
    simp

theorem Verdict.Done.standing (h : verdict.Done serverSeq m) : verdict ≠ .denial → m.isPending = true := by
  cases verdict with
  | approval reason payload => exact fun _ => h.1
  | denial => exact fun hn => absurd rfl hn

/-- While the row stands it is as it was answered; once it does not, a replay is refused. -/
theorem answered_step (fits : verdict.Fits envelopeId) (h : Answered verdict envelopeId serverSeq s)
    (op : Op) : Answered verdict envelopeId serverSeq (step s op) ∨
      (¬ (∀ now, Applies verdict envelopeId serverSeq now (step s op)) ∧
        ¬ Standing verdict envelopeId serverSeq (step s op)) := by
  obtain ⟨m, hg, hs, hd⟩ := h
  rcases (step_effect s op).ledger.moved hg with ⟨gone, -⟩ | ⟨m', hg', moved⟩
  · refine .inr ⟨fun h => ?_, ?_⟩
    · obtain ⟨m', hm', -⟩ := (applies_iff fits).mp (h 0)
      simp [gone] at hm'
    · rintro ⟨m', hm', -⟩
      simp [gone] at hm'
  · by_cases hw : m'.serverSeq = serverSeq ∧ (verdict ≠ .denial → m'.isPending = true)
    · exact .inl ⟨m', hg', hw.1, Moved.done moved hs hw.1 hd hw.2⟩
    · refine .inr ⟨fun h => ?_, ?_⟩
      · obtain ⟨m₁, hm₁, hs₁, reach⟩ := (applies_iff fits).mp (h 0)
        obtain rfl := Option.some.inj (hg'.symm.trans hm₁)
        rcases reach with done | gated
        · exact hw ⟨hs₁, done.standing⟩
        · simp only [MessageRow.isGated, decide_eq_true_eq] at gated
          exact Moved.not_isGated moved hd.classified.1 hd.classified.2 gated.1
      · rintro ⟨m₁, hm₁, standing⟩
        obtain rfl := Option.some.inj (hg'.symm.trans hm₁)
        exact hw standing

theorem Applies.fits {now : Int} (h : Applies verdict envelopeId serverSeq now s) :
    verdict.Fits envelopeId := by
  cases verdict with
  | denial => trivial
  | approval reason payload =>
    intro misfit
    have raises : localTransition (.approval reason payload) envelopeId serverSeq now ⟨s, none⟩ =
        .error (.valueError "approved payload belongs to another envelope") ⟨s, none⟩ := by
      change EStateM.bind _ _ _ = _
      simp only [EStateM.bind, raiseIf, if_pos misfit]
    simp [Applies, reported, raises] at h

/-- An answer that was applied is recognised by every replay along a run exactly as long
as its row stands: still stored under the sequence of the answer, and still pending if it
was released. -/
theorem replay_applies_while_standing (verdict : Verdict) (envelopeId : String) (serverSeq : Option Int)
    (now : Int) (s : Tables) (applied : Applies verdict envelopeId serverSeq now s) (ops : List Op) :
    Throughout step (fun s => ∀ now, Applies verdict envelopeId serverSeq now s)
      ((localTransition verdict envelopeId serverSeq now).after s) ops ↔
    Throughout step (Standing verdict envelopeId serverSeq)
      ((localTransition verdict envelopeId serverSeq now).after s) ops := by
  have fits := applied.fits
  have answered : Answered verdict envelopeId serverSeq
      ((localTransition verdict envelopeId serverSeq now).after s) := by
    obtain ⟨r, t, run, -, answered⟩ := localTransition_spec serverSeq now s fits
    rw [Applies, reported, run] at applied
    rw [after, run]
    exact answered applied
  have holds : ∀ t, Answered verdict envelopeId serverSeq t →
      (∀ now, Applies verdict envelopeId serverSeq now t) ∧ Standing verdict envelopeId serverSeq t := by
    rintro t ⟨m, hg, hs, hd⟩
    exact ⟨fun now => (applies_iff fits).mpr ⟨m, hg, hs, .inl hd⟩, m, hg, hs, hd.standing⟩
  exact throughout_iff holds (fun t op h => answered_step fits h op) answered ops

end Run

/-- A stranger's DM, gated under sequence 7. -/
def gatedStore : Tables :=
  run step Tables.empty
    [.storeReceipt ⟨"env-1", "dm", "mallory", none, none, some "agent", "text/plain", .str "hi", 1, none,
        none, false, true⟩ 7 .foreignDmGated "foreign dm awaiting approval" 1 1]

/-- The released row is admitted to a turn before the approval is recorded as applied, and
the replay is refused. -/
theorem replay_refused_in_turn :
    Applies (.approval approvedReason none) "env-1" (some 7) 2 gatedStore ∧
    ¬ Applies (.approval approvedReason none) "env-1" (some 7) 4
      (run step ((localTransition (.approval approvedReason none) "env-1" (some 7) 2).after gatedStore)
        [.startTurn "turn-1" none none none [] 3, .admitMessages ["env-1"] "turn-1" none none 3]) := by
  unfold Applies
  decide

/-- The writes of another message, and of a turn that takes it in. -/
def laterWrites : List Op :=
  [.storeReceipt ⟨"env-2", "channel", "ann", some "ch-1", some "sp-1", none, "text/plain", .str "yo", 3, none, none,
      false, true⟩ 8 .eligible "" 3 3,
    .startTurn "turn-1" none none none [] 4, .admitMessages ["env-2"] "turn-1" none none 5]

/-- The row stays as it was released, and the replay finds it so after each of the writes. -/
theorem replay_applies_beside :
    Throughout step (fun s => ∀ now, Applies (.approval approvedReason none) "env-1" (some 7) now s)
      ((localTransition (.approval approvedReason none) "env-1" (some 7) 2).after gatedStore) laterWrites := by
  have applied : Applies (.approval approvedReason none) "env-1" (some 7) 2 gatedStore := by
    unfold Applies
    decide
  refine (replay_applies_while_standing _ _ _ _ _ applied _).mpr ?_
  exact ⟨⟨_, rfl, rfl, fun _ => rfl⟩, ⟨_, rfl, rfl, fun _ => rfl⟩, ⟨_, rfl, rfl, fun _ => rfl⟩, ⟨_, rfl, rfl, fun _ => rfl⟩⟩

end PuffoAgent.Approvals
