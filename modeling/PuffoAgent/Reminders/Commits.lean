import PuffoAgent.Reminders.Effects

/-! The reminder store as a machine. Every operation but the delivery rewrites occurrences by a few moves, each under its
guard, and inserts at most one; what is said of its transactions elsewhere follows from that. -/
namespace PuffoAgent.Reminders
open Relational Stmt Sql Store Text

/-- One transaction of the reminder store, with the clock readings it makes. -/
inductive Op where
  | create (content target : String) (intendedAtMs : Int) (reminderId occurrenceId : String)
      (createdAtMs : Int)
  | persistEnvelope (occurrenceId payloadFormat : String) (opaquePayload : List UInt8)
  | acknowledge (occurrenceId : String) (revision : Nat)
  | scheduleRetry (occurrenceId : String) (revision : Nat) (retryAfterMs : Int)
  | recordPermanentFailure (occurrenceId : String) (revision : Nat) (code : String)
  | persistClaimId (occurrenceId : String) (revision : Nat) (claimId : String)
  | acquireClaim (occurrenceId : String) (revision : Nat) (claimId : String) (leaseExpiresAtMs : Int)
  | claimDue (nowMs : Int)
  | claimAuthorized (occurrenceIds : List String) (nowMs claimCustodyNowMs selectCustodyNowMs : Int)
  | deliverClaimed (reminderId : String) (nowMs selectCustodyNowMs clockMs finalCustodyNowMs : Int)
  | cancel (reminderId : String) (cancelledAtMs : Int)
  | replaceLocal (reminderId replacementReminderId replacementOccurrenceId content target : String)
      (intendedAtMs replacedAtMs : Int)
  | materializeScheduled (remote : RemoteReminder)
  | materializeTerminal (tombstone : RemoteTombstone)
  | materializeReplacement (reminderId occurrenceId : String) (cancelledAtMs : Int)
      (remote : RemoteReminder) (createdAtMs : Int) (lifecycle : ReminderState)

/-- The transaction on the connection, without its result. -/
def Op.perform (host : Host) : Op → StoreM Unit
  | .create content target intendedAtMs reminderId occurrenceId createdAtMs => do
    let _ ← createReminder content target intendedAtMs reminderId occurrenceId createdAtMs
    return ()
  | .persistEnvelope occurrenceId payloadFormat opaquePayload => do
    let _ ← persistReminderEnvelope occurrenceId payloadFormat opaquePayload
    return ()
  | .acknowledge occurrenceId revision => do
    let _ ← acknowledgeReminderSyncRevision occurrenceId revision
    return ()
  | .scheduleRetry occurrenceId revision retryAfterMs => do
    let _ ← scheduleReminderSyncRetry occurrenceId revision retryAfterMs
    return ()
  | .recordPermanentFailure occurrenceId revision code => do
    let _ ← recordReminderSyncPermanentFailure occurrenceId revision code
    return ()
  | .persistClaimId occurrenceId revision claimId => do
    let _ ← persistReminderDeliveryClaimId host occurrenceId revision claimId
    return ()
  | .acquireClaim occurrenceId revision claimId leaseExpiresAtMs => do
    let _ ← acquireReminderDeliveryClaim occurrenceId revision claimId leaseExpiresAtMs
    return ()
  | .claimDue nowMs => do
    let _ ← claimDueReminders nowMs
    return ()
  | .claimAuthorized ids nowMs claimNowMs selectNowMs => do
    let _ ← claimAuthorizedReminders ids nowMs claimNowMs selectNowMs
    return ()
  | .deliverClaimed reminderId nowMs selectNowMs clockMs finalNowMs => do
    let _ ← deliverClaimedReminder host reminderId nowMs selectNowMs clockMs finalNowMs
    return ()
  | .cancel reminderId cancelledAtMs => do
    let _ ← cancelReminder reminderId cancelledAtMs
    return ()
  | .replaceLocal reminderId replacementId replacementOccurrence content target intendedAtMs atMs => do
    let _ ← replaceLocalReminder reminderId replacementId replacementOccurrence content target
      intendedAtMs atMs
    return ()
  | .materializeScheduled remote => do
    let _ ← materializeRemoteScheduledReminder remote
    return ()
  | .materializeTerminal tombstone => do
    let _ ← materializeRemoteTerminalReminder tombstone
    return ()
  | .materializeReplacement reminderId occurrenceId cancelledAtMs remote createdAtMs lifecycle => do
    let _ ← materializeRemoteReplacement reminderId occurrenceId cancelledAtMs remote createdAtMs
      lifecycle
    return ()

/-- The time the final `UPDATE` of a delivery uses. -/
def Op.finalClock : Op → Option Int
  | .deliverClaimed _ _ _ _ finalCustodyNowMs => some finalCustodyNowMs
  | _ => none

def step (host : Host) (s : Tables) (op : Op) : Tables := (op.perform host).after s

/-- One `UPDATE` on one row, with what the transaction has checked of it. -/
inductive Move : Op → ReminderRow → ReminderRow → Prop
  | envelope {r : ReminderRow} {o f : String} {p : List UInt8} (free : r.opaquePayload = none) :
    Move (.persistEnvelope o f p) r (withEnvelope f p r)
  | acknowledged {r : ReminderRow} {revision : Nat} (newest : r.revision = revision)
    (waiting : r.serverAckRevision < revision) :
    Move (.acknowledge r.occurrenceId revision) r (acknowledged revision r)
  | retried {r : ReminderRow} {o : String} {revision : Nat} {retryAfterMs : Int} :
    Move (.scheduleRetry o revision retryAfterMs) r (retried retryAfterMs r)
  | failed {r : ReminderRow} {o code : String} {revision : Nat} (newest : r.revision = revision) :
    Move (.recordPermanentFailure o revision code) r (failedPermanently revision (safeCode code) r)
  | claimId {r : ReminderRow} {o claimId : String} {revision : Nat} :
    Move (.persistClaimId o revision claimId) r (withClaimId claimId r)
  | leased {r : ReminderRow} {o claimId : String} {revision : Nat} {expiresAtMs : Int} :
    Move (.acquireClaim o revision claimId expiresAtMs) r (leased expiresAtMs r)
  | due {r : ReminderRow} {nowMs : Int} (scheduled : r.state = .scheduled) :
    Move (.claimDue nowMs) r (claimed nowMs r)
  | authorized {r : ReminderRow} {ids : List String} {nowMs claimNowMs selectNowMs : Int}
    (scheduled : r.state = .scheduled) :
    Move (.claimAuthorized ids nowMs claimNowMs selectNowMs) r (claimed nowMs r)
  | delivered {r : ReminderRow} {e : String} {nowMs selectNowMs clockMs finalNowMs : Int}
    (claimed : r.state = .claimed) (custody : r.hasCustody finalNowMs = true) :
    Move (.deliverClaimed r.reminderId nowMs selectNowMs clockMs finalNowMs) r (delivered e nowMs r)
  | cancelled {r : ReminderRow} {cancelledAtMs : Int} (isOpen : r.isOpen = true)
    (untouched : r.isUnpreparedLocalOnly = true) :
    Move (.cancel r.reminderId cancelledAtMs) r (cancelled cancelledAtMs r)
  | replaced {r : ReminderRow} {newId newOccurrence content target : String}
    {intendedAtMs replacedAtMs : Int} (scheduled : r.state = .scheduled)
    (untouched : r.isUnpreparedLocalOnly = true) :
    Move (.replaceLocal r.reminderId newId newOccurrence content target intendedAtMs replacedAtMs) r
      (replaced replacedAtMs r)
  | confirmed {r : ReminderRow} {remote : RemoteReminder} {ack : Nat} (le : ack ≤ remote.revision) :
    Move (.materializeScheduled remote) r (confirmed ack r)
  | fencedScheduled {r : ReminderRow} {remote : RemoteReminder} :
    Move (.materializeScheduled remote) r (conflicted r)
  | fencedTerminal {r : ReminderRow} {t : RemoteTombstone} :
    Move (.materializeTerminal t) r (conflicted r)
  | terminated {r : ReminderRow} {t : RemoteTombstone}
    (terminal : t.lifecycle = .cancelled ∨ t.lifecycle = .delivered) :
    Move (.materializeTerminal t) r (terminated t r)
  | settled {r : ReminderRow} {id o : String} {cancelledAtMs createdAtMs : Int} {remote : RemoteReminder}
    {lifecycle : ReminderState} {fields : Option Int × Option Int × Option Int} (isOpen : r.isOpen = true)
    (terminal : lifecycle = .cancelled ∨ lifecycle = .delivered) (second : remote.revision = 2) :
    Move (.materializeReplacement id o cancelledAtMs remote createdAtMs lifecycle) r
      (settled remote lifecycle fields r)
  | superseded {r : ReminderRow} {id o : String} {cancelledAtMs createdAtMs : Int}
    {remote : RemoteReminder} {lifecycle : ReminderState} :
    Move (.materializeReplacement id o cancelledAtMs remote createdAtMs lifecycle) r
      (superseded cancelledAtMs r)

/-- A row that the transaction inserts. -/
inductive Created : Op → ReminderRow → Prop
  | created {content target id o : String} {intendedAtMs createdAtMs : Int} :
    Created (.create content target intendedAtMs id o createdAtMs)
      (scheduledRow id o target content intendedAtMs createdAtMs)
  | replacement {oldId id o content target : String} {intendedAtMs replacedAtMs : Int} :
    Created (.replaceLocal oldId id o content target intendedAtMs replacedAtMs)
      (scheduledRow id o target content intendedAtMs replacedAtMs)
  | scheduled {remote : RemoteReminder} (positive : remote.revision ≠ 0) :
    Created (.materializeScheduled remote)
      (remoteRow remote .scheduled remote.lifecycleAtMs none none none)
  | reported {id o : String} {cancelledAtMs createdAtMs : Int} {remote : RemoteReminder}
    {lifecycle : ReminderState} {fields : Option Int × Option Int × Option Int}
    (known : lifecycle ≠ .claimed)
    (numbered : remote.revision = if lifecycle = .scheduled then 1 else 2) :
    Created (.materializeReplacement id o cancelledAtMs remote createdAtMs lifecycle)
      (remoteRow remote lifecycle createdAtMs fields.1 fields.2.1 fields.2.2)

/-- What the transaction commits: the row that it inserts, if any, and the rows that it rewrites. -/
inductive Commits (op : Op) : Tables → Tables → Prop
  | refl (s : Tables) : Commits op s s
  | insert {s t : Tables} {row : ReminderRow} (inserted : s.insertReminder? row = some t) (created : Created op row) :
    Commits op s t
  | update {s t : Tables} {p : ReminderRow → Bool} {f : ReminderRow → ReminderRow} {hf : ∀ r, (f r).reminderId = r.reminderId}
    (before : Commits op s t) (moved : ∀ r ∈ t.reminderOccurrences.rows, p r = true → Move op r (f r)) :
    Commits op s (t.updateReminders p f hf)

/-- The operation commits so, whatever it returns. -/
def Committed {α : Type} (op : Op) (x : StoreM α) : Prop := Does (fun s _ s' => Commits op s s') x

section Rules
variable {op : Op}

theorem committed_transaction {α : Type} {body : BodyM (Finish α)}
    (h : ∀ s a s', body s = .ok (.commit a) s' → Commits op s s') : Committed op (transaction body) :=
  does_transaction h fun s _ _ _ => .refl s

theorem Committed.read {α β : Type} {x : StoreM α} (h : Committed op x) (f : α → Tables → β) :
    Committed op (do let a ← x; Sql.read (f a)) :=
  Does.mono (Does.read h f) fun _ _ _ ⟨_, he, _⟩ => he

theorem Committed.discard {α : Type} {x : StoreM α} (h : Committed op x) :
    Committed op (do let _ ← x; return ()) := h.read fun _ _ => ()

end Rules

section Local
variable {s s' : Tables}

theorem create_commits (content target : String) (intendedAtMs : Int) (id o : String) (createdAtMs : Int) :
    Committed (.create content target intendedAtMs id o createdAtMs)
      (createReminder content target intendedAtMs id o createdAtMs) := by
  refine Does.raiseIf fun _ => Does.raising fun _ _ => Does.raiseIf fun _ => Does.raiseIf fun _ =>
    Committed.read (committed_transaction ?_) fun _ s => s.getReminder id
  intro s a s' h
  simp only [insertReminder, tryExec_bind_ok_iff, pure_ok_iff] at h
  obtain ⟨t, hi, -, rfl⟩ := h
  exact .insert hi .created

theorem persistEnvelope_commits (o f : String) (p : List UInt8) :
    Committed (.persistEnvelope o f p) (persistReminderEnvelope o f p) := by
  refine Does.raiseIf fun _ => Committed.read (committed_transaction ?_) fun _ s => s.getOccurrence o
  intro s a s' h
  simp only [persistReminderEnvelopeBody, query_bind_ok_iff] at h
  cases hg : s.getOccurrence o with
  | none =>
    simp only [hg] at h
    cases h
  | some record =>
    simp only [hg] at h
    split_ifs at h
    · simp only [raiseIf_bind_ok_iff, pure_ok_iff, reduceCtorEq, false_and, and_false] at h
    · simp only [exec_bind_ok_iff, pure_ok_iff] at h
      obtain ⟨-, rfl⟩ := h
      refine .update (.refl s) fun r _ hp => ?_
      simp only [decide_eq_true_eq, Option.isNone_iff_eq_none] at hp
      exact .envelope hp.2

theorem acknowledge_commits (o : String) (revision : Nat) :
    Committed (.acknowledge o revision) (acknowledgeReminderSyncRevision o revision) := by
  refine Does.raiseIf fun _ => committed_transaction ?_
  intro s a s' h
  simp only [query_bind_ok_iff, exec_bind_ok_iff, pure_ok_iff] at h
  obtain ⟨-, rfl⟩ := h
  refine .update (.refl s) fun r _ hp => ?_
  simp only [decide_eq_true_eq] at hp
  obtain ⟨rfl, hr, hlt⟩ := hp
  exact .acknowledged hr hlt

theorem scheduleRetry_commits (o : String) (revision : Nat) (retryAfterMs : Int) :
    Committed (.scheduleRetry o revision retryAfterMs) (scheduleReminderSyncRetry o revision retryAfterMs) := by
  refine Does.raiseIf fun _ => committed_transaction ?_
  intro s a s' h
  simp only [query_bind_ok_iff, exec_bind_ok_iff, pure_ok_iff] at h
  obtain ⟨-, rfl⟩ := h
  exact .update (.refl s) fun r _ _ => .retried

theorem recordPermanentFailure_commits (o : String) (revision : Nat) (code : String) :
    Committed (.recordPermanentFailure o revision code)
      (recordReminderSyncPermanentFailure o revision code) := by
  refine Does.raiseIf fun _ => committed_transaction ?_
  intro s a s' h
  simp only [query_bind_ok_iff, exec_bind_ok_iff, pure_ok_iff] at h
  obtain ⟨-, rfl⟩ := h
  refine .update (.refl s) fun r _ hp => ?_
  simp only [decide_eq_true_eq] at hp
  exact .failed hp.2

theorem persistClaimId_commits (host : Host) (o : String) (revision : Nat) (claimId : String) :
    Committed (.persistClaimId o revision claimId) (persistReminderDeliveryClaimId host o revision claimId) := by
  refine Does.raiseIf fun _ => Committed.read (committed_transaction ?_) fun known s =>
    if known = true then s.getOccurrence o else none
  intro s a s' h
  simp only [persistReminderDeliveryClaimIdBody, query_bind_ok_iff] at h
  split_ifs at h
  · simp [pure_ok_iff] at h
  · simp only [exec_bind_ok_iff, pure_ok_iff] at h
    obtain ⟨-, rfl⟩ := h
    exact .update (.refl s) fun r _ _ => .claimId
  · simp [pure_ok_iff] at h

theorem acquireClaim_commits (o : String) (revision : Nat) (claimId : String) (expiresAtMs : Int) :
    Committed (.acquireClaim o revision claimId expiresAtMs)
      (acquireReminderDeliveryClaim o revision claimId expiresAtMs) := by
  refine committed_transaction ?_
  intro s a s' h
  simp only [query_bind_ok_iff, exec_bind_ok_iff, pure_ok_iff] at h
  obtain ⟨-, rfl⟩ := h
  exact .update (.refl s) fun r _ _ => .leased

/-- The claim loop, one occurrence at a time. -/
theorem claimAll_commits (nowMs : Int) (ids : List String) {s t : Tables} (h : Commits (.claimDue nowMs) s t) :
    Commits (.claimDue nowMs) s (ids.foldl (claimOne nowMs) t) := by
  induction ids generalizing t with
  | nil => exact h
  | cons id ids ih =>
    refine ih (.update h fun r _ hp => ?_)
    simp only [decide_eq_true_eq] at hp
    exact .due hp.2.1

theorem claimDue_commits (nowMs : Int) : Committed (.claimDue nowMs) (claimDueReminders nowMs) := by
  refine Committed.read (committed_transaction ?_) fun (ids : List String) s => ids.filterMap s.getReminder
  intro s a s' h
  simp only [query_bind_ok_iff, exec_bind_ok_iff, pure_ok_iff] at h
  obtain ⟨-, rfl⟩ := h
  exact claimAll_commits nowMs (dueIds nowMs s) (.refl s)

theorem claimAuthorized_commits (ids : List String) (nowMs claimNowMs selectNowMs : Int) :
    Committed (.claimAuthorized ids nowMs claimNowMs selectNowMs)
      (claimAuthorizedReminders ids nowMs claimNowMs selectNowMs) := by
  unfold claimAuthorizedReminders
  refine Does.ite (does_pure Commits.refl) (committed_transaction ?_)
  intro s a s' h
  simp only [query_bind_ok_iff, exec_bind_ok_iff, pure_ok_iff] at h
  obtain ⟨-, rfl⟩ := h
  refine .update (.refl s) fun r _ hp => ?_
  simp only [decide_eq_true_eq] at hp
  exact .authorized hp.2.1

theorem cancel_commits (id : String) (cancelledAtMs : Int) :
    Committed (.cancel id cancelledAtMs) (cancelReminder id cancelledAtMs) := by
  refine Does.raiseIf fun _ => Committed.read (committed_transaction ?_) fun _ s => s.getReminder id
  intro s a s' h
  simp only [cancelReminderBody, query_bind_ok_iff] at h
  cases hg : s.getReminder id with
  | none =>
    simp only [hg] at h
    cases h
  | some record =>
    simp only [hg, raiseIf_bind_ok_iff] at h
    obtain ⟨hfree, h⟩ := h
    split_ifs at h with ho
    · simp only [query_bind_ok_iff, exec_bind_ok_iff, raiseIf_bind_ok_iff, pure_ok_iff] at h
      obtain ⟨-, -, rfl⟩ := h
      refine .update (.refl s) fun r hr hp => ?_
      simp only [decide_eq_true_eq] at hp
      obtain ⟨rfl, hro⟩ := hp
      obtain rfl := Option.some.inj ((Table.get?_of_mem hr).symm.trans hg)
      exact .cancelled hro (by simpa [ho] using hfree)
    · obtain ⟨-, rfl⟩ := pure_ok_iff.mp h
      exact .refl s

theorem replaceLocal_commits (id newId newOccurrence content target : String)
    (intendedAtMs replacedAtMs : Int) :
    Committed (.replaceLocal id newId newOccurrence content target intendedAtMs replacedAtMs)
      (replaceLocalReminder id newId newOccurrence content target intendedAtMs replacedAtMs) := by
  refine Does.raising fun _ _ => Does.raiseIf fun _ => Committed.read (committed_transaction ?_) fun _ s =>
    (s.getReminder id, s.getReminder newId)
  intro s a s' h
  simp only [replaceLocalReminderBody, query_bind_ok_iff] at h
  cases hg : s.getReminder id with
  | none =>
    simp only [hg] at h
    cases h
  | some old =>
    simp only [hg] at h
    split_ifs at h
    · simp only [raiseIf_bind_ok_iff, pure_ok_iff, reduceCtorEq, false_and, and_false] at h
    · simp only [insertReminder, raiseIf_bind_ok_iff, tryExec_bind_ok_iff, exec_bind_ok_iff,
        pure_ok_iff] at h
      obtain ⟨-, hfree, t, hi, -, rfl⟩ := h
      obtain ⟨hnew, -, hrows, -⟩ := insertReminder?_eq_some hi
      refine .update (.insert hi .replacement) fun r hr hp => ?_
      simp only [decide_eq_true_eq] at hp
      obtain ⟨rfl, hs⟩ := hp
      have hold : t.getReminder r.reminderId = some old := by
        rw [hrows, if_neg, hg]
        intro he
        change newId = r.reminderId at he
        rw [← he] at hg
        exact absurd (hnew.symm.trans hg) (by simp)
      obtain rfl := Option.some.inj ((Table.get?_of_mem hr).symm.trans hold)
      exact .replaced hs (by simpa [hs] using hfree)

end Local

section Remote
variable {s s' : Tables} {a : ReminderMaterializationResult}

theorem validate_reads (remote : RemoteReminder) :
    Does (fun s _ s' => s' = s) (validateRemoteScheduledReminder remote) :=
  Does.raiseIf fun _ => Does.raising fun _ _ => does_pure fun _ => rfl

theorem markOccurrenceSnapshotConflict_commits {op : Op} (hm : ∀ r, Move op r (conflicted r)) {o : String}
    (h : markOccurrenceSnapshotConflict o s = .ok (.commit a) s') : Commits op s s' := by
  simp only [markOccurrenceSnapshotConflict, query_bind_ok_iff, exec_bind_ok_iff, pure_ok_iff] at h
  obtain ⟨-, rfl⟩ := h
  exact .update (.refl s) fun r _ _ => hm r

theorem markReminderSnapshotConflict_commits {op : Op} (hm : ∀ r, Move op r (conflicted r)) {id : String}
    (h : markReminderSnapshotConflict id s = .ok (.commit a) s') : Commits op s s' := by
  simp only [markReminderSnapshotConflict, query_bind_ok_iff, exec_bind_ok_iff] at h
  split_ifs at h
  · obtain ⟨-, rfl⟩ := pure_ok_iff.mp h
    exact .update (.refl s) fun r _ _ => hm r
  · simp [pure_ok_iff] at h

/-- What follows the validation may count on a positive revision. -/
theorem validated {β : Type} {F : Tables → β → Tables → Prop} {x : StoreM β} (remote : RemoteReminder)
    (h : remote.revision ≠ 0 → Does F x) :
    Does F (do validateRemoteScheduledReminder remote; x) := by
  by_cases h0 : remote.revision = 0
  · intro s
    refine .inl ⟨.valueError "invalid remote reminder metadata", ?_⟩
    change EStateM.bind (validateRemoteScheduledReminder remote) _ _ = _
    have hv : validateRemoteScheduledReminder remote ⟨s, none⟩ =
        .error (.valueError "invalid remote reminder metadata") ⟨s, none⟩ := by
      change EStateM.bind (Stmt.raiseIf _ _) _ _ = _
      simp [EStateM.bind, Stmt.raiseIf, h0]
    simp only [EStateM.bind, hv]
  · exact Does.bind_of_read (validate_reads remote) fun _ => h h0

theorem materializeScheduled_commits (remote : RemoteReminder) :
    Committed (.materializeScheduled remote) (materializeRemoteScheduledReminder remote) := by
  refine validated remote fun hpos => committed_transaction ?_
  intro s a s' h
  simp only [materializeRemoteScheduledReminderBody, query_bind_ok_iff] at h
  cases hg : s.getOccurrence remote.occurrenceId with
  | some record =>
    simp only [hg] at h
    unfold materializeKnown at h
    split_ifs at h
    · simp only [query_bind_ok_iff, exec_bind_ok_iff, pure_ok_iff] at h
      obtain ⟨-, rfl⟩ := h
      exact .update (.refl s) fun r _ _ => .confirmed (min_le_left _ _)
    · exact markOccurrenceSnapshotConflict_commits (fun _ => .fencedScheduled) h
    · simp [pure_ok_iff] at h
  | none =>
    simp only [hg] at h
    split_ifs at h
    · exact markReminderSnapshotConflict_commits (fun _ => .fencedScheduled) h
    · simp only [insertReminder, tryExec_bind_ok_iff, pure_ok_iff] at h
      obtain ⟨t, hi, -, rfl⟩ := h
      exact .insert hi (.scheduled hpos)

theorem materializeTerminal_commits (t : RemoteTombstone) :
    Committed (.materializeTerminal t) (materializeRemoteTerminalReminder t) := by
  refine Does.raiseIf fun hv => committed_transaction ?_
  intro s a s' h
  have hl : t.lifecycle = .cancelled ∨ t.lifecycle = .delivered := by
    by_contra hn
    simp only [not_or] at hn
    exact hv (.inr (.inr (.inr (.inl hn))))
  simp only [materializeRemoteTerminalReminderBody, query_bind_ok_iff] at h
  cases hg : s.getOccurrence t.occurrenceId with
  | none =>
    simp only [hg] at h
    exact markReminderSnapshotConflict_commits (fun _ => .fencedTerminal) h
  | some record =>
    simp only [hg] at h
    split_ifs at h
    · exact markOccurrenceSnapshotConflict_commits (fun _ => .fencedTerminal) h
    · simp only [exec_bind_ok_iff, pure_ok_iff] at h
      obtain ⟨-, rfl⟩ := h
      exact .update (.refl s) fun r _ _ => .terminated hl
    · simp [pure_ok_iff] at h

theorem materializeReplacement_commits (id o : String) (cancelledAtMs : Int) (remote : RemoteReminder)
    (createdAtMs : Int) (lifecycle : ReminderState) :
    Committed (.materializeReplacement id o cancelledAtMs remote createdAtMs lifecycle)
      (materializeRemoteReplacement id o cancelledAtMs remote createdAtMs lifecycle) := by
  refine validated remote fun _ => Does.raiseIf fun hrev => Does.raising fun fields hf =>
    Committed.read (committed_transaction ?_) fun _ s => (s.getReminder id, s.getReminder remote.reminderId)
  have hrev := not_not.mp hrev
  have hl : lifecycle ≠ .claimed := by
    rintro rfl
    cases hf
  intro s a s' h
  simp only [materializeRemoteReplacementBody, query_bind_ok_iff, raiseIf_bind_ok_iff] at h
  obtain ⟨-, h⟩ := h
  obtain ⟨u, t, hu, h⟩ := bind_ok_iff.mp h
  simp only [exec_bind_ok_iff, pure_ok_iff] at h
  obtain ⟨-, rfl⟩ := h
  refine .update (t := t) ?_ fun r _ _ => .superseded
  simp only [upsertRemoteReplacement, query_bind_ok_iff] at hu
  cases hg : s.getOccurrence remote.occurrenceId with
  | none =>
    simp only [hg, insertReminder, tryExec_ok_iff] at hu
    exact .insert hu (.reported hl hrev)
  | some record =>
    simp only [hg, raiseIf_bind_ok_iff, exec_ok_iff] at hu
    obtain ⟨-, rfl⟩ := hu
    split_ifs with hc
    · rw [if_neg hc.2] at hrev
      have hterminal : lifecycle = .cancelled ∨ lifecycle = .delivered := by
        cases lifecycle with
        | scheduled => exact absurd rfl hc.2
        | claimed => exact absurd rfl hl
        | cancelled => exact .inl rfl
        | delivered => exact .inr rfl
      refine .update (.refl s) fun r _ hp => ?_
      simp only [decide_eq_true_eq] at hp
      exact .settled hp.2 hterminal hrev
    · exact .refl s

end Remote

theorem Op.perform_commits (host : Host) {op : Op} (h : op.finalClock = none) : Committed op (op.perform host) := by
  cases op with
  | create content target intendedAtMs id o createdAtMs =>
    exact (create_commits content target intendedAtMs id o createdAtMs).discard
  | persistEnvelope o f p => exact (persistEnvelope_commits o f p).discard
  | acknowledge o revision => exact (acknowledge_commits o revision).discard
  | scheduleRetry o revision atMs => exact (scheduleRetry_commits o revision atMs).discard
  | recordPermanentFailure o revision code => exact (recordPermanentFailure_commits o revision code).discard
  | persistClaimId o revision claimId => exact (persistClaimId_commits host o revision claimId).discard
  | acquireClaim o revision claimId atMs => exact (acquireClaim_commits o revision claimId atMs).discard
  | claimDue nowMs => exact (claimDue_commits nowMs).discard
  | claimAuthorized ids nowMs claimNowMs selectNowMs =>
    exact (claimAuthorized_commits ids nowMs claimNowMs selectNowMs).discard
  | deliverClaimed => cases h
  | cancel id atMs => exact (cancel_commits id atMs).discard
  | replaceLocal id newId newOccurrence content target intendedAtMs atMs =>
    exact (replaceLocal_commits id newId newOccurrence content target intendedAtMs atMs).discard
  | materializeScheduled remote => exact (materializeScheduled_commits remote).discard
  | materializeTerminal t => exact (materializeTerminal_commits t).discard
  | materializeReplacement id o cancelledAtMs remote createdAtMs lifecycle =>
    exact (materializeReplacement_commits id o cancelledAtMs remote createdAtMs lifecycle).discard

section Delivery
variable {host : Host} {s t s' : Tables}

/-- The event is inserted, or a row that already carries it is accepted. -/
theorem enqueueReminder_ok {reminder : ReminderRow} {nowMs clockMs : Int} {u : Unit}
    (h : enqueueReminder host reminder nowMs clockMs s = .ok u t) :
    (∃ payload, reminderEventPayload host reminder = .ok payload ∧
      s.messages.get? (reminderEventId reminder.occurrenceId) = none ∧
      insertLocalEventInTransaction (payloadValues payload nowMs) "reminder occurrence" clockMs s = .ok u t) ∨
    ((s.messages.get? (reminderEventId reminder.occurrenceId)).isSome ∧ t = s) := by
  simp only [enqueueReminder, query_bind_ok_iff] at h
  cases hg : s.messages.get? (reminderEventId reminder.occurrenceId) with
  | none =>
    simp only [hg, raising_bind_ok_iff] at h
    obtain ⟨payload, hp, h⟩ := h
    exact .inl ⟨payload, hp, rfl, h⟩
  | some row =>
    simp only [hg] at h
    exact .inr ⟨rfl, (raiseIf_ok_iff.mp h).2.symm⟩

/-- What a delivery commits: the event, and the one row that it finds claimed and in custody. -/
theorem deliverClaimedReminderBody_ok {reminderId : String} {nowMs selectNowMs clockMs finalNowMs : Int} {a : Bool}
    (h : deliverClaimedReminderBody host reminderId nowMs selectNowMs clockMs finalNowMs s = .ok (.commit a) s') :
    ∃ reminder t u, s.getReminder reminderId = some reminder ∧ enqueueReminder host reminder nowMs clockMs s = .ok u t ∧
      t.countReminders (fun r => decide (r.reminderId = reminderId ∧ r.state = .claimed ∧
        r.hasCustody finalNowMs = true)) = 1 ∧
      s' = t.updateReminders (fun r => decide (r.reminderId = reminderId ∧ r.state = .claimed ∧
        r.hasCustody finalNowMs = true)) (delivered (reminderEventId reminder.occurrenceId) nowMs) fun _ => rfl := by
  simp only [deliverClaimedReminderBody, query_bind_ok_iff] at h
  cases hg : (s.getReminder reminderId).filter fun r => decide (r.state = .claimed ∧ r.hasCustody selectNowMs = true) with
  | none =>
    simp only [hg] at h
    simp [pure_ok_iff] at h
  | some reminder =>
    simp only [hg] at h
    obtain ⟨u, t, he, h⟩ := bind_ok_iff.mp h
    simp only [query_bind_ok_iff, exec_bind_ok_iff] at h
    split_ifs at h with hc
    · simp [pure_ok_iff] at h
    · exact ⟨reminder, t, u, (Option.filter_eq_some_iff.mp hg).1, he, not_not.mp hc, (pure_ok_iff.mp h).2.symm⟩

end Delivery
end PuffoAgent.Reminders
