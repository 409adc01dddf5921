import PuffoAgent.Store.Frame

/-! The operations that leave every turn and its members alone. -/
namespace PuffoAgent.Store
open Relational Stmt Sql

/-- The turns and their members are as they were. -/
structure SameTurns (s s' : Tables) : Prop where
  runs : s'.turnRuns = s.turnRuns
  members : s'.turnRunMessages = s.turnRunMessages

instance : Std.Refl SameTurns := ⟨fun _ => ⟨rfl, rfl⟩⟩

instance : IsTrans Tables SameTurns :=
  ⟨fun _ _ _ h h' => ⟨h'.runs.trans h.runs, h'.members.trans h.members⟩⟩

/-- The operations that leave turns alone. -/
def Op.turnless : Op → Bool
  | .startTurn .. | .admitMessages .. | .markProcessed .. | .completeTurnWithRenotice ..
  | .completeTurnRenoticeUnrenotified .. | .requeueMessages .. | .finalizeEmptyTurn ..
  | .transferTurnSession .. => false
  | _ => true

section Statements

theorem ends_sameTurns {f : Tables → Tables} (hr : ∀ s, (f s).turnRuns = s.turnRuns)
    (hm : ∀ s, (f s).turnRunMessages = s.turnRunMessages) : Ends SameTurns (exec f : BodyM Unit) :=
  ends_exec fun s => ⟨hr s, hm s⟩

theorem ends_update (p : MessageRow → Bool) (f : MessageRow → MessageRow)
    (hf : ∀ m, (f m).envelopeId = m.envelopeId) :
    Ends SameTurns (exec (·.updateMessages p f hf) : BodyM Unit) :=
  ends_sameTurns (fun _ => rfl) fun _ => rfl

theorem ends_refresh (now : Int) (activatedAt : Option Int) :
    Ends SameTurns (exec (refreshNoticeState now activatedAt) : BodyM Unit) :=
  ends_sameTurns (fun _ => rfl) fun _ => rfl

theorem ends_insertMessage (row : MessageRow) : Ends SameTurns (insertMessage row) :=
  ends_tryExec fun _ _ h => ⟨(Tables.insertMessage?_eq_some h).2.2.turnRuns,
    (Tables.insertMessage?_eq_some h).2.2.turnRunMessages⟩

theorem ends_allocateLocalPosition : Ends SameTurns allocateLocalPosition :=
  .bind (ends_query _) fun _ => .bind (ends_sameTurns (fun _ => rfl) fun _ => rfl) fun _ => ends_pure _

theorem settleUnverifiedThreadClaims_sameTurns (values : MessageRow) (s : Tables) :
    SameTurns s (settleUnverifiedThreadClaims values s) :=
  ⟨(settleUnverifiedThreadClaims_rethreading values s).books.turnRuns,
    (settleUnverifiedThreadClaims_rethreading values s).books.turnRunMessages⟩

end Statements

section Receipts

theorem insertNewReceipt_sameTurns (values : MessageRow) (serverSeq : Int) (disposition : ReceiptDisposition)
    (reason : String) (now : Int) :
    Ends SameTurns (insertNewReceipt values serverSeq disposition reason now) := by
  refine .bind (ends_insertMessage _) fun _ => ?_
  refine .bind (ends_exec (settleUnverifiedThreadClaims_sameTurns values)) fun _ => ?_
  refine .bind (ends_sameTurns (fun _ => rfl) fun _ => rfl) fun _ => ?_
  refine .bind (ends_exec fun s => ?_) fun _ => ends_pure _
  split
  · exact ⟨rfl, rfl⟩
  · exact Std.Refl.refl s

theorem backfillMissingSequence_sameTurns (envelopeId : String) (serverSeq : Int)
    (disposition : ReceiptDisposition) (reason : String) (byId : MessageRow) (bySeq : Option MessageRow) :
    Ends SameTurns (backfillMissingSequence envelopeId serverSeq disposition reason byId bySeq) := by
  have advanced : Ends SameTurns (exec (advanceServerSequenceHighWater serverSeq) : BodyM Unit) :=
    ends_sameTurns (fun _ => rfl) fun _ => rfl
  refine .ite (fun _ => ends_pure _) fun _ => .ite (fun _ => ?_) fun _ => .ite (fun _ => ?_) fun _ => ?_
  · refine .bind (ends_query _) fun _ => .bind (ends_update _ _ _) fun _ => ?_
    exact .bind (ends_raiseIf _ _) fun _ => .bind advanced fun _ => ends_pure _
  · exact .bind (ends_update _ _ _) fun _ => .bind advanced fun _ => ends_pure _
  · exact .bind (ends_update _ _ _) fun _ => .bind advanced fun _ => ends_pure _

theorem storeReceipt_sameTurns (payload : Payload) (serverSeq : Int) (disposition : ReceiptDisposition)
    (reason : String) (receivedAt now : Int) :
    Leaves SameTurns (storeReceipt payload serverSeq disposition reason receivedAt now) := by
  refine Does.raiseIf fun _ => Does.raiseIf fun _ => Does.of_ends ?_
  refine .bind (ends_query _) fun byId => .bind (ends_query _) fun bySeq => ?_
  cases byId with
  | none => exact .ite (fun _ => ends_pure _) fun _ => insertNewReceipt_sameTurns _ _ _ _ _
  | some row =>
    refine .ite (fun _ => ?_) fun _ => .ite (fun _ => ends_pure _) fun _ => ends_pure _
    exact backfillMissingSequence_sameTurns _ _ _ _ _ _

theorem storeLocalReceipt_sameTurns (payload : Payload) (disposition : ReceiptDisposition) (reason : String)
    (receivedAt : Int) : Leaves SameTurns (storeLocalReceipt payload disposition reason receivedAt) := by
  refine Does.raiseIf fun _ => Does.raiseIf fun _ => Does.of_ends ?_
  refine .bind (ends_query _) fun existing => ?_
  cases existing with
  | none =>
    refine .bind (.ite (fun _ => ?_) fun _ => ends_pure _) fun _ => ?_
    · exact .bind ends_allocateLocalPosition fun _ => ends_pure _
    · exact .bind (ends_insertMessage _) fun _ => ends_pure _
  | some row =>
    refine .ite (fun _ => ends_pure _) fun _ => ?_
    cases row.receiptDisposition with
    | none => exact .bind (ends_update _ _ _) fun _ => ends_pure _
    | some stored => exact ends_pure _

theorem insertLocalEvent_sameTurns (values : MessageRow) (reason : String) (now : Int) :
    Ends SameTurns (insertLocalEventInTransaction values reason now) :=
  .bind ends_allocateLocalPosition fun _ => .bind (ends_insertMessage _) fun _ => ends_refresh _ _

theorem storeLocalEvent_sameTurns (payload : Payload) (reason : String) (introChannelId : Option String)
    (receivedAt : Int) (idempotent : Bool) (now : Int) :
    Leaves SameTurns (storeLocalEvent payload reason introChannelId receivedAt idempotent now) := by
  refine Does.raiseIf fun _ => Leaves.read (Does.of_ends ?_) fun _ s => s.messages.get? payload.envelopeId
  refine .bind (ends_query _) fun existing => .ite (fun _ => ?_) fun _ => ?_
  · exact .bind (ends_raiseIf _ _) fun _ => ends_pure _
  · unfold insertIntroducedEvent
    cases introChannelId.filter (· ≠ "") with
    | none => exact .bind (insertLocalEvent_sameTurns _ _ _) fun _ => ends_pure _
    | some channelId =>
      refine .bind (ends_query _) fun marked => ?_
      refine .bind (ends_sameTurns (fun _ => rfl) fun _ => rfl) fun _ => .ite (fun _ => ?_) fun _ => ?_
      · exact .bind (ends_query _) fun _ => .bind (ends_raiseIf _ _) fun _ => ends_pure _
      · exact .bind (insertLocalEvent_sameTurns _ _ _) fun _ => ends_pure _

theorem promoteGatedReceipt_sameTurns (envelopeId : String) (serverSeq : Option Int) (reason : String)
    (approvedPayload : Option Payload) (now : Int) :
    Leaves SameTurns (promoteGatedReceipt envelopeId serverSeq reason approvedPayload now) := by
  refine Does.raiseIf fun _ => Does.of_ends (.bind (ends_query _) fun row => ?_)
  have released (p f hf activatedAt) (r : ReceiptResult) : Ends SameTurns (do
      exec (·.updateMessages p f hf)
      exec (refreshNoticeState now activatedAt)
      return .commit r : BodyM (Finish ReceiptResult)) :=
    .bind (ends_update _ _ _) fun _ => .bind (ends_refresh _ _) fun _ => ends_pure _
  cases serverSeq with
  | none =>
    cases row with
    | none => exact ends_pure _
    | some row =>
      refine .ite (fun _ => ends_pure _) fun _ => .ite (fun _ => ends_pure _) fun _ => ?_
      refine .ite (fun _ => ends_pure _) fun _ => .bind ends_allocateLocalPosition fun _ => ?_
      exact released _ _ _ _ _
  | some seq =>
    cases row with
    | none => exact ends_pure _
    | some row =>
      refine .ite (fun _ => ends_pure _) fun _ => .ite (fun _ => ends_pure _) fun _ => ?_
      exact .ite (fun _ => ends_pure _) fun _ => released _ _ _ _ _

theorem tombstoneGatedDm_sameTurns (envelopeId : String) (serverSeq : Option Int) :
    Leaves SameTurns (tombstoneGatedDm envelopeId serverSeq) := by
  refine Does.of_ends (.bind (ends_query _) fun row => ?_)
  cases row with
  | none => exact ends_pure _
  | some row =>
    refine .ite (fun _ => ends_pure _) fun _ => .ite (fun _ => ends_pure _) fun _ => ?_
    exact .ite (fun _ => ends_pure _) fun _ => .bind (ends_update _ _ _) fun _ => ends_pure _

end Receipts

/-- The operations that leave turns alone do so however they return. -/
theorem perform_sameTurns {op : Op} (h : op.turnless = true) : Leaves SameTurns op.perform := by
  cases op with
  | startTurn | admitMessages | markProcessed | completeTurnWithRenotice
  | completeTurnRenoticeUnrenotified | requeueMessages | finalizeEmptyTurn | transferTurnSession => cases h
  | store payload receivedAt =>
    exact Does.of_ends (.bind (ends_sameTurns (fun _ => rfl) fun _ => rfl) fun _ => ends_pure _)
  | storeReceipt => exact (storeReceipt_sameTurns _ _ _ _ _ _).discard
  | storeLocalReceipt => exact (storeLocalReceipt_sameTurns _ _ _ _).discard
  | storeLocalEvent => exact (storeLocalEvent_sameTurns _ _ _ _ _ _).discard
  | promoteGatedReceipt => exact (promoteGatedReceipt_sameTurns _ _ _ _ _).discard
  | tombstoneGatedDm => exact (tombstoneGatedDm_sameTurns _ _).discard
  | tombstoneGatedDmsFrom senderSlug =>
    refine Leaves.discard (Does.ite (leaves_pure _) (Does.of_ends (.bind (ends_query _) fun _ => ?_)))
    exact .bind (ends_update _ _ _) fun _ => ends_pure _
  | quarantinePending envelopeId reason now =>
    refine Leaves.discard (Does.of_ends (.bind (ends_query _) fun _ => ?_))
    refine .bind (ends_update _ _ _) fun _ => .bind (ends_exec fun s => ?_) fun _ => ends_pure _
    split
    · exact ⟨rfl, rfl⟩
    · exact Std.Refl.refl s
  | cleanup retentionDays now =>
    refine Leaves.discard (Does.of_ends (.bind (ends_query _) fun _ => ?_))
    exact .bind (ends_sameTurns (fun _ => rfl) fun _ => rfl) fun _ => ends_pure _
  | addMessageCovers ids source byEnvelopeId note turnId now =>
    refine Leaves.discard (Does.ite (leaves_pure _) (Does.of_ends (.bind (ends_query _) fun _ => ?_)))
    refine .ite (fun _ => ends_pure _) fun _ => .bind (ends_sameTurns (fun _ => rfl) fun _ => rfl) fun _ => ?_
    refine .bind (ends_sameTurns (fun _ => rfl) fun _ => rfl) fun _ => ?_
    exact .bind (ends_refresh _ _) fun _ => ends_pure _
  | setContextBaseline spaceId channelId seq updatedAt now =>
    refine Does.raiseIf fun _ => Does.of_ends ?_
    exact .bind (ends_sameTurns (fun _ => rfl) fun _ => rfl) fun _ => ends_pure _
  | markNoticeDelivered generation session ids turnId =>
    unfold Op.perform Store.markNoticeDelivered
    cases session with
    | none => exact leaves_pure _
    | some session =>
      refine Leaves.discard (Does.ite (leaves_pure _) (Does.of_ends (.bind (ends_query _) fun _ => ?_)))
      refine .ite (fun _ => ends_pure _) fun _ => ?_
      intro s a s' h
      simp only [query_bind_ok_iff, exec_bind_ok_iff, pure_ok_iff] at h
      obtain ⟨-, rfl⟩ := h
      obtain ⟨-, runs, members, -⟩ := markNoticeDeliveredUnlocked_frame s generation.toNat session _ turnId
      exact ⟨runs, members⟩
  | releaseNoticeDelivery session ids =>
    unfold Op.perform Store.releaseNoticeDelivery
    cases session with
    | none => exact leaves_pure _
    | some session =>
      refine Leaves.discard (Does.ite (leaves_pure _) (Does.of_ends (.bind (ends_query _) fun _ => ?_)))
      refine .ite (fun _ => ends_pure _) fun _ => .ite (fun _ => ends_pure _) fun _ => ?_
      refine .bind (ends_query _) fun deleted => .bind (ends_sameTurns (fun _ => rfl) fun _ => rfl) fun _ => ?_
      refine .bind (ends_exec fun s => ?_) fun _ => ends_pure _
      split
      · exact Std.Refl.refl s
      · exact ⟨rfl, rfl⟩

end PuffoAgent.Store
