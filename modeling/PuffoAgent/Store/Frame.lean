import PuffoAgent.Store.Operations

/-! What the operations on turns, covers and notices leave alone: whatever does not look at the
columns that turns write. -/
namespace PuffoAgent.Store
open Relational Stmt Sql

/-- The row without the columns that turns write. -/
def MessageRow.asReceived (m : MessageRow) : MessageRow := { m with
  processingState := none
  processingTurnId := none
  modelVisibleAt := none
  processedAt := none
  renotified := false }

/-- A relation between tables that depends on received rows and their counters only. -/
structure Frame (R : Tables → Tables → Prop) : Prop where
  books : ∀ s s', s'.messages = s.messages → s'.nextOrdinal = s.nextOrdinal → s'.highWater = s.highWater → R s s'
  rows : ∀ s p f hf, (∀ m : MessageRow, (f m).asReceived = m.asReceived) → R s (s.updateMessages p f hf)

/-- However the operation returns, `R` relates the tables before and after it. -/
def Leaves {α : Type} (R : Tables → Tables → Prop) (x : StoreM α) : Prop := Does (fun s _ s' => R s s') x

section Rules
variable {R : Tables → Tables → Prop} {α β : Type}

theorem Leaves.read {x : StoreM α} (h : Leaves R x) (f : α → Tables → β) : Leaves R (do let a ← x; Sql.read (f a)) :=
  (Does.read h f).mono fun _ _ _ ⟨_, hs, _⟩ => hs

theorem Leaves.discard {x : StoreM α} (h : Leaves R x) : Leaves R (do let _ ← x; return ()) :=
  (Does.discard h).mono fun _ _ _ ⟨_, hs⟩ => hs

theorem leaves_pure [Std.Refl R] (a : α) : Leaves R (pure a : StoreM α) := does_pure fun s => Std.Refl.refl s

theorem leaves_transaction [Std.Refl R] {body : BodyM (Finish α)}
    (h : ∀ s a s', body s = .ok (.commit a) s' → R s s') : Leaves R (transaction body) :=
  does_transaction h fun s _ _ _ => Std.Refl.refl s

end Rules

section Turns
variable {R : Tables → Tables → Prop} [Std.Refl R] [IsTrans Tables R]

theorem Frame.updateTurnRun (hR : Frame R) (turnId : String) (p : TurnRunRow → Bool) (f : TurnRunRow → TurnRunRow)
    (hf : ∀ r, (f r).turnId = r.turnId) (message : String) : Ends R (updateTurnRun turnId p f hf message) :=
  .bind (ends_query _) fun _ => .bind (ends_exec fun _ => hR.books _ _ rfl rfl rfl) fun _ => ends_raiseIf _ _

omit [Std.Refl R] [IsTrans Tables R] in
theorem Frame.insertTurnRun (hR : Frame R) (turnId : String) (session : Option String) (startedAt : Int) :
    Ends R (insertTurnRun turnId session startedAt) := by
  refine ends_tryExec fun s t h => ?_
  obtain ⟨turnRuns, -, rfl⟩ := Option.map_eq_some_iff.mp h
  exact hR.books _ _ rfl rfl rfl

theorem Frame.updateRows (hR : Frame R) {ids : List String} {p : MessageRow → Bool} {f : MessageRow → MessageRow}
    {hf : ∀ m, (f m).envelopeId = m.envelopeId} (h : ∀ m, (f m).asReceived = m.asReceived) :
    Ends R (updateRows ids p f hf) :=
  .bind (ends_query _) fun _ => .bind (ends_exec fun _ => hR.rows _ _ _ _ h) fun _ => ends_pure _

theorem Frame.updateExactRows (hR : Frame R) {ids : List String} {p : MessageRow → Bool} {f : MessageRow → MessageRow}
    {hf : ∀ m, (f m).envelopeId = m.envelopeId} {message : String} (h : ∀ m, (f m).asReceived = m.asReceived) :
    Ends R (updateExactRows ids p f hf message) :=
  .bind (hR.updateRows h) fun _ => ends_raiseIf _ _

theorem Frame.insertMembers (hR : Frame R) (turnId : String) (first : Nat) (ids : List String) :
    Ends R (insertMembers turnId first ids) := by
  induction ids generalizing first with
  | nil => exact ends_pure _
  | cons envelopeId ids ih =>
    refine .bind (ends_tryExec fun s t h => ?_) fun _ => ih (first + 1)
    unfold Tables.insertMember? at h
    split at h
    · cases h
    · obtain ⟨members, -, rfl⟩ := Option.map_eq_some_iff.mp h
      exact hR.books _ _ rfl rfl rfl

theorem Frame.joinTurn (hR : Frame R) (ids : List String) (turnId : String) (session : Option String) (visibleAt : Int) :
    Ends R (joinTurn ids turnId session visibleAt) := by
  refine .bind (ends_query _) fun existing => ?_
  cases existing with
  | some run =>
    exact .bind (ends_raiseIf _ _) fun _ => .bind (ends_raiseIf _ _) fun _ => .bind (ends_query _) fun _ =>
      .bind (ends_raiseIf _ _) fun _ => ends_query _
  | none => exact .bind (hR.insertTurnRun _ _ _) fun _ => ends_pure _

omit [Std.Refl R] [IsTrans Tables R] in
theorem Frame.refreshNoticeState (hR : Frame R) (now : Int) (activatedAt : Option Int) (s : Tables) :
    R s (refreshNoticeState now activatedAt s) := hR.books _ _ rfl rfl rfl

omit [IsTrans Tables R] in
theorem Frame.markNoticeDeliveredUnlocked (hR : Frame R) (s : Tables) (generation : Nat) (session : String)
    (messageIds : List String) (turnId : Option String) :
    R s (markNoticeDeliveredUnlocked s generation session messageIds turnId).2 := by
  unfold Store.markNoticeDeliveredUnlocked
  split_ifs
  · exact Std.Refl.refl s
  · exact Std.Refl.refl s
  · exact Std.Refl.refl s
  · exact Std.Refl.refl s
  · exact hR.books _ _ rfl rfl rfl

omit [IsTrans Tables R] in
theorem Frame.claimNotice (hR : Frame R) (generation : Option Int) (session : Option String) (ids : List String) :
    Ends R (claimNotice generation session ids) := by
  unfold Store.claimNotice
  split
  · intro s a s' h
    simp only [query_bind_ok_iff, exec_bind_ok_iff, raiseIf_ok_iff] at h
    rw [← h.2]
    exact hR.markNoticeDeliveredUnlocked _ _ _ _ _
  · exact ends_pure _

theorem Frame.startTurn (hR : Frame R) (turnId : String) (session : Option String) (startedAt : Option Int)
    (generation : Option Int) (ids : List String) (now : Int) :
    Leaves R (startTurn turnId session startedAt generation ids now) := by
  refine Does.raiseIf fun _ => Does.raiseIf fun _ => Leaves.read (Does.of_ends ?_) _
  exact .bind (hR.claimNotice _ _ _) fun _ => .bind (hR.insertTurnRun _ _ _) fun _ => ends_pure _

theorem Frame.admitMessages (hR : Frame R) (ids : List String) (turnId : String) (session : Option String)
    (visibleAt : Option Int) (now : Int) : Leaves R (admitMessages ids turnId session visibleAt now) := by
  refine Does.bind_of_read (exactIds_does ids) fun _ => Does.raiseIf fun _ => Leaves.read (Does.of_ends ?_) _
  refine .bind (ends_query _) fun _ => .bind (ends_raiseIf _ _) fun _ => .bind (hR.joinTurn _ _ _ _) fun first => ?_
  exact .bind (hR.insertMembers _ _ _) fun _ => .bind (hR.updateExactRows fun _ => rfl) fun _ =>
    .bind (ends_exec (hR.refreshNoticeState _ _)) fun _ => ends_pure _

theorem Frame.completeTurn (hR : Frame R) (processed renotice : List String) (turnId : String)
    (processedAt : Option Int) (session : Option String) (now : Int) :
    Leaves R (completeTurn processed renotice turnId processedAt session now) := by
  refine Leaves.read (Does.of_ends ?_) _
  refine .bind (ends_query _) fun _ => .bind (ends_raiseIf _ _) fun _ => .bind (ends_query _) fun _ => ?_
  refine .bind (ends_raiseIf _ _) fun _ => .bind (ends_query _) fun _ => .bind (ends_raiseIf _ _) fun _ => ?_
  refine .bind (hR.updateExactRows fun _ => rfl) fun _ => .bind ?_ fun _ => ?_
  · exact .bind (hR.updateExactRows fun _ => rfl) fun _ => ends_exec fun _ => hR.books _ _ rfl rfl rfl
  · exact .bind (hR.updateTurnRun _ _ _ _ _) fun _ => .bind (ends_exec (hR.refreshNoticeState _ _)) fun _ =>
      ends_pure _

theorem Frame.markProcessed (hR : Frame R) (ids : List String) (turnId : String) (processedAt : Option Int)
    (session : Option String) (now : Int) : Leaves R (markProcessed ids turnId processedAt session now) :=
  Does.bind_of_read (exactIds_does ids) fun _ => hR.completeTurn ids [] turnId processedAt session now

theorem Frame.completeTurnWithRenotice (hR : Frame R) (processed renotice : List String) (turnId : String)
    (session : Option String) (now : Int) : Leaves R (completeTurnWithRenotice processed renotice turnId session now) :=
  completeTurnWithRenotice_does (hR.completeTurn processed renotice turnId none session now)

theorem Frame.completeTurnRenoticeUnrenotified (hR : Frame R) (turnId : String) (session : Option String) (now : Int) :
    Leaves R (completeTurnRenoticeUnrenotified turnId session now) := by
  refine Does.bind_of_read does_read fun _ => Does.bind_of_read does_read fun _ => ?_
  exact Leaves.read (hR.completeTurn _ _ _ _ _ _) fun _ _ => _

theorem Frame.requeueMessages (hR : Frame R) (ids : List String) (turnId : String) (now : Int) :
    Leaves R (requeueMessages ids turnId now) := by
  refine Does.bind_of_read (exactIds_does ids) fun _ => Leaves.read (Does.of_ends ?_) _
  refine .bind (ends_query _) fun _ => .bind (ends_raiseIf _ _) fun _ => .bind (ends_query _) fun _ => ?_
  refine .bind (hR.updateRows fun _ => rfl) fun _ => .bind (hR.updateRows fun _ => rfl) fun _ => ?_
  exact .bind (ends_raiseIf _ _) fun _ => .bind (hR.updateTurnRun _ _ _ _ _) fun _ =>
    .bind (ends_exec (hR.refreshNoticeState _ _)) fun _ => ends_pure _

theorem Frame.finalizeEmptyTurn (hR : Frame R) (turnId : String) (state : TurnState) (now : Int) :
    Leaves R (finalizeEmptyTurn turnId state now) := by
  refine Does.raiseIf fun _ => Leaves.read (Does.of_ends ?_) _
  exact .bind (ends_query _) fun _ => .bind (hR.updateTurnRun _ _ _ _ _) fun _ => ends_pure _

theorem Frame.transferTurnSession (hR : Frame R) (turnId : String) (fromSession : Option String) (toSession : String) :
    Leaves R (transferTurnSession turnId fromSession toSession) := by
  refine Does.raiseIf fun _ => Does.raiseIf fun _ => Leaves.read (Does.of_ends ?_) _
  exact .bind (hR.updateTurnRun _ _ _ _ _) fun _ => ends_pure _

theorem Frame.addMessageCovers (hR : Frame R) (ids : List String) (source : CoverSource)
    (byEnvelopeId note turnId : Option String) (now : Int) :
    Leaves R (addMessageCovers ids source byEnvelopeId note turnId now) := by
  refine Does.ite (leaves_pure _) (Does.of_ends (.bind (ends_query _) fun _ => .ite (fun _ => ends_pure _) fun _ => ?_))
  refine .bind (ends_exec fun _ => hR.books _ _ rfl rfl rfl) fun _ => .bind (ends_exec fun s => ?_) fun _ => ?_
  · exact hR.rows _ _ _ _ fun _ => rfl
  · exact .bind (ends_exec (hR.refreshNoticeState _ _)) fun _ => ends_pure _

theorem Frame.setContextBaseline (hR : Frame R) (spaceId channelId : String) (seq : Int) (updatedAt : Option Int)
    (now : Int) : Leaves R (setContextBaseline spaceId channelId seq updatedAt now) :=
  Does.raiseIf fun _ => Does.of_ends (.bind (ends_exec fun _ => hR.books _ _ rfl rfl rfl) fun _ => ends_pure _)

theorem Frame.markNoticeDelivered (hR : Frame R) (generation : Int) (session : Option String)
    (ids : Option (List String)) (turnId : Option String) :
    Leaves R (markNoticeDelivered generation session ids turnId) := by
  unfold Store.markNoticeDelivered
  cases session with
  | none => exact leaves_pure _
  | some session =>
    refine Does.ite (leaves_pure _) (Does.of_ends (.bind (ends_query _) fun _ => .ite (fun _ => ends_pure _) fun _ => ?_))
    intro s a s' h
    simp only [query_bind_ok_iff, exec_bind_ok_iff, pure_ok_iff] at h
    rw [← h.2]
    exact hR.markNoticeDeliveredUnlocked _ _ _ _ _

theorem Frame.releaseNoticeDelivery (hR : Frame R) (session : Option String) (ids : Option (List String)) :
    Leaves R (releaseNoticeDelivery session ids) := by
  unfold Store.releaseNoticeDelivery
  cases session with
  | none => exact leaves_pure _
  | some session =>
    refine Does.ite (leaves_pure _) (Does.of_ends (.bind (ends_query _) fun _ => .ite (fun _ => ends_pure _) fun _ => ?_))
    refine .ite (fun _ => ends_pure _) fun _ => .bind (ends_query _) fun deleted => ?_
    refine .bind (ends_exec fun _ => hR.books _ _ rfl rfl rfl) fun _ => .bind (ends_exec fun s => ?_) fun _ => ends_pure _
    split
    · exact Std.Refl.refl s
    · exact hR.books _ _ rfl rfl rfl

/-- The operations that file, classify, release or drop messages. -/
def Op.files : Op → Bool
  | .store .. | .storeReceipt .. | .storeLocalReceipt .. | .storeLocalEvent .. | .promoteGatedReceipt ..
  | .tombstoneGatedDm .. | .tombstoneGatedDmsFrom .. | .quarantinePending .. | .cleanup .. => true
  | _ => false

/-- The other operations stay within any frame. -/
theorem Frame.perform (hR : Frame R) {op : Op} (h : op.files = false) : Leaves R op.perform := by
  cases op with
  | store | storeReceipt | storeLocalReceipt | storeLocalEvent | promoteGatedReceipt | tombstoneGatedDm
  | tombstoneGatedDmsFrom | quarantinePending | cleanup => cases h
  | startTurn => exact (hR.startTurn _ _ _ _ _ _).discard
  | admitMessages => exact (hR.admitMessages _ _ _ _ _).discard
  | markProcessed => exact (hR.markProcessed _ _ _ _ _).discard
  | completeTurnWithRenotice => exact (hR.completeTurnWithRenotice _ _ _ _ _).discard
  | completeTurnRenoticeUnrenotified => exact (hR.completeTurnRenoticeUnrenotified _ _ _).discard
  | requeueMessages => exact (hR.requeueMessages _ _ _).discard
  | finalizeEmptyTurn => exact (hR.finalizeEmptyTurn _ _ _).discard
  | transferTurnSession => exact (hR.transferTurnSession _ _ _).discard
  | addMessageCovers => exact (hR.addMessageCovers _ _ _ _ _ _).discard
  | setContextBaseline => exact hR.setContextBaseline _ _ _ _ _
  | markNoticeDelivered => exact (hR.markNoticeDelivered _ _ _ _).discard
  | releaseNoticeDelivery => exact (hR.releaseNoticeDelivery _ _).discard

end Turns
end PuffoAgent.Store
