import PuffoAgent.Inbox.Reads
import PuffoAgent.Inbox.Frontier
import PuffoAgent.Ingress.RouteBinding

/-! Gated messages and the reads that show rows to the model: a gated row is out of their reach
for as long as it belongs to no channel. -/
namespace PuffoAgent.Inbox
open Relational Stmt Sql Store Machine Text Projection

/-- The row belongs to no channel if it is gated. -/
def GatedApart (m : MessageRow) : Prop := m.receiptDisposition = some .foreignDmGated → m.channelId = none

/-- No read returns a gated row, whatever its arguments are. -/
def Withholds (text : Text.Host) (floats : Json → Json → Comparison) (s : Tables) : Prop :=
  ∀ q : Query, ∀ m ∈ q.rows text floats s, m.row.receiptDisposition ≠ some .foreignDmGated

section Reads
variable {s : Tables} {m : MessageRow} {rows : List MessageRow}

theorem mem_oldest {α : Type} [LinearOrder α] {order : MessageRow → α} {limit : Int}
    (h : m ∈ oldest order limit rows) : m ∈ rows := by
  unfold oldest at h
  split at h
  · exact (List.mem_insertionSort _).mp h
  · exact (List.mem_insertionSort _).mp (List.mem_of_mem_take h)

theorem mem_newest {α : Type} [LinearOrder α] {order : MessageRow → α} {limit : Int}
    (h : m ∈ newest order limit rows) : m ∈ rows := by
  unfold newest at h
  split at h
  · exact (List.mem_insertionSort _).mp h
  · exact (List.mem_insertionSort _).mp (List.mem_of_mem_take h)

theorem mem_page {b : Bounds} {limit : Int} (h : m ∈ b.page limit rows) : m ∈ rows := by
  unfold Bounds.page at h
  split_ifs at h
  · exact mem_oldest h
  · exact mem_newest (List.mem_reverse.mp h)
  · exact mem_oldest h
  · exact mem_newest (List.mem_reverse.mp h)

theorem mem_select {p : MessageRow → Bool} (h : m ∈ s.messages.select p) : m ∈ s.messages.rows ∧ p m = true :=
  List.mem_filter.mp h

theorem selectM_subset {p : StoredMessage → Except PageError Bool} {ms selected : List StoredMessage}
    (h : selectM p ms = .ok selected) : selected ⊆ ms := by
  induction ms generalizing selected with
  | nil =>
    cases h
    exact List.Subset.refl []
  | cons m ms ih =>
    obtain ⟨keep, -, h⟩ := except_bind_ok_iff.mp h
    obtain ⟨rest, hrest, h⟩ := except_bind_ok_iff.mp h
    cases h
    split
    · exact List.cons_subset_cons m (ih hrest)
    · exact List.subset_cons_of_subset m (ih hrest)

theorem readInboxPage_subset {text : Text.Host} {floats : Json → Json → Comparison} {target cursor : String}
    {limit : Int} {page : InboxPage} (h : readInboxPage text floats s target cursor limit = .ok page) :
    page.items ⊆ (pendingRows s).map rowToMsg := by
  unfold readInboxPage at h
  split_ifs at h
  obtain ⟨decoded, -, h⟩ := except_bind_ok_iff.mp h
  obtain ⟨snapshot, hsnapshot, h⟩ := except_bind_ok_iff.mp h
  cases h
  exact fun m hm => List.mem_of_mem_filter (selectM_subset hsnapshot (List.mem_of_mem_take hm))

/-- Listed rows are eligible or local. -/
theorem pendingRows_notGated (h : m ∈ pendingRows s) : m.receiptDisposition ≠ some .foreignDmGated := by
  have hl := (List.mem_filter.mp ((List.mem_insertionSort _).mp h)).2
  intro hd
  simp [MessageRow.isListed, hd] at hl

theorem mem_toOption_getD {ε α : Type} {x : Except ε (List α)} {a : α} (h : a ∈ x.toOption.getD []) :
    ∃ as, x = .ok as ∧ a ∈ as := by
  cases x with
  | error e => cases h
  | ok as => exact ⟨as, rfl, h⟩

section Selected
variable {p : MessageRow → Bool} {x : StoredMessage} {channelId rootId : String} {w : Window} {limit : Int}
  {ms : List StoredMessage}

/-- A condition that excludes gated rows returns none. -/
theorem notGated_of_select (hp : ∀ m, p m = true → notGated m = true) (hsub : rows ⊆ s.messages.select p)
    (h : x ∈ rows.map rowToMsg) : x.row.receiptDisposition ≠ some .foreignDmGated := by
  obtain ⟨m, hm, rfl⟩ := List.mem_map.mp h
  exact of_decide_eq_true (hp m (mem_select (hsub hm)).2)

/-- A condition on the channel returns rows of channels. -/
theorem channel_of_select (hp : ∀ m, p m = true → m.channelId = some channelId) (hsub : rows ⊆ s.messages.select p)
    (h : x ∈ rows.map rowToMsg) : x.row ∈ s.messages.rows ∧ x.row.channelId ≠ none := by
  obtain ⟨m, hm, rfl⟩ := List.mem_map.mp h
  obtain ⟨hmem, hpm⟩ := mem_select (hsub hm)
  exact ⟨hmem, Option.isSome_iff_ne_none.mp (by simp [rowToMsg, hp m hpm])⟩

theorem getPendingPage_subset {limit : Option Int} (h : getPendingPage s limit = .ok ms) :
    ms ⊆ (pendingRows s).map rowToMsg := by
  cases limit with
  | none =>
    cases h
    exact List.Subset.refl _
  | some n =>
    dsimp only [getPendingPage] at h
    split_ifs at h
    cases h
    exact List.map_subset rowToMsg (List.take_subset _ _)

theorem getChannelRoots_channel {roots : List (StoredMessage × Nat)} {root : StoredMessage × Nat}
    (h : getChannelRoots s channelId w = .ok roots) (hroot : root ∈ roots) :
    root.1.row ∈ s.messages.rows ∧ root.1.row.channelId ≠ none := by
  unfold getChannelRoots at h
  split_ifs at h
  cases h
  obtain ⟨m, hm, rfl⟩ := List.mem_map.mp hroot
  exact channel_of_select (fun m hm => (of_decide_eq_true hm).1) (fun m => mem_page) (List.mem_map_of_mem hm)

theorem getThreadMessages_notGated (h : getThreadMessages s rootId w = .ok ms) (hx : x ∈ ms) :
    x.row.receiptDisposition ≠ some .foreignDmGated := by
  unfold getThreadMessages at h
  split_ifs at h
  cases h
  exact notGated_of_select (fun m hm => (of_decide_eq_true hm).2.1) (fun m => mem_page) hx

theorem getThreadBatch_notGated {sinceSentAt : Int} (hx : x ∈ getThreadBatch s rootId sinceSentAt) :
    x.row.receiptDisposition ≠ some .foreignDmGated := by
  unfold getThreadBatch at hx
  split_ifs at hx
  · cases hx
  · exact notGated_of_select (fun m hm => (of_decide_eq_true hm).2.2) (fun m => (List.mem_insertionSort _).mp) hx

theorem getChannelNotes_channel (h : getChannelNotes s channelId limit = .ok ms) (hx : x ∈ ms) :
    x.row ∈ s.messages.rows ∧ x.row.channelId ≠ none := by
  unfold getChannelNotes at h
  split_ifs at h
  cases h
  exact channel_of_select (fun m hm => (of_decide_eq_true hm).1) (fun m hm => List.mem_of_mem_filter (mem_newest hm)) hx

theorem getThreadNotes_notGated (h : getThreadNotes s rootId limit = .ok ms) (hx : x ∈ ms) :
    x.row.receiptDisposition ≠ some .foreignDmGated := by
  unfold getThreadNotes at h
  split_ifs at h
  cases h
  exact notGated_of_select (fun m hm => (of_decide_eq_true hm).2.1) (fun m => mem_newest) hx

theorem getVisibleMessageByEnvelope_notGated {envelopeId : String} (h : getVisibleMessageByEnvelope s envelopeId = some x) :
    x.row.receiptDisposition ≠ some .foreignDmGated := by
  unfold getVisibleMessageByEnvelope at h
  split_ifs at h
  obtain ⟨m, hm, rfl⟩ := Option.map_eq_some_iff.mp h
  exact of_decide_eq_true (Option.filter_eq_some_iff.mp hm).2

end Selected

variable {text : Text.Host} {floats : Json → Json → Comparison}

/-- A row that a read returns is selected by a condition that excludes gated rows, or is in a channel. -/
theorem rows_selected {q : Query} {x : StoredMessage} (h : x ∈ q.rows text floats s) :
    x.row.receiptDisposition ≠ some .foreignDmGated ∨ (x.row ∈ s.messages.rows ∧ x.row.channelId ≠ none) := by
  cases q with
  | pending limit =>
    obtain ⟨ms, hms, hx⟩ := mem_toOption_getD h
    obtain ⟨m, hm, rfl⟩ := List.mem_map.mp (getPendingPage_subset hms hx)
    exact .inl (pendingRows_notGated hm)
  | inboxPage target cursor limit =>
    cases hp : readInboxPage text floats s target cursor limit with
    | error e =>
      rw [Query.rows, hp] at h
      cases h
    | ok page =>
      rw [Query.rows, hp] at h
      obtain ⟨m, hm, rfl⟩ := List.mem_map.mp (readInboxPage_subset hp h)
      exact .inl (pendingRows_notGated hm)
  | dmHistory peerSlug limit before beforeEnvelopeId afterEnvelopeId =>
    exact .inl (notGated_of_select (fun m hm => (of_decide_eq_true hm).2.2.1) (fun m => mem_page) h)
  | channelHistory channelId limit before =>
    exact .inr (channel_of_select (fun m hm => (of_decide_eq_true hm).1)
      (fun m hm => mem_newest (List.mem_reverse.mp hm)) h)
  | channelRoots channelId w =>
    obtain ⟨root, hroot, rfl⟩ := List.mem_map.mp h
    obtain ⟨roots, hroots, hroot⟩ := mem_toOption_getD hroot
    exact .inr (getChannelRoots_channel hroots hroot)
  | threadMessages rootId w =>
    obtain ⟨ms, hms, hx⟩ := mem_toOption_getD h
    exact .inl (getThreadMessages_notGated hms hx)
  | threadBatch rootId sinceSentAt => exact .inl (getThreadBatch_notGated h)
  | channelNotes channelId limit =>
    obtain ⟨ms, hms, hx⟩ := mem_toOption_getD h
    exact .inr (getChannelNotes_channel hms hx)
  | threadNotes rootId limit =>
    obtain ⟨ms, hms, hx⟩ := mem_toOption_getD h
    exact .inl (getThreadNotes_notGated hms hx)
  | heldReconsiderationRows spaceId channelId afterSeq throughSeq limit =>
    exact .inr (channel_of_select (fun m hm => (of_decide_eq_true hm).2.1) (fun m => mem_oldest) h)
  | visibleMessage envelopeId => exact .inl (getVisibleMessageByEnvelope_notGated (Option.mem_toList.mp h))

/-- The reads withhold every gated row exactly when none of them is in a channel. -/
theorem withholds_iff : Withholds text floats s ↔ AllRows GatedApart s := by
  constructor
  · intro h k m hg hd
    by_contra hc
    obtain ⟨channelId, hc⟩ := Option.ne_none_iff_exists'.mp hc
    refine h (.channelHistory channelId (-1) none) (rowToMsg m) (List.mem_map_of_mem ?_) hd
    rw [List.mem_reverse, newest, if_pos (by decide), List.mem_insertionSort]
    exact List.mem_filter.mpr ⟨Table.mem_of_get? hg, by simp [hc]⟩
  · intro h q x hx
    rcases rows_selected hx with hd | ⟨hmem, hc⟩
    · exact hd
    · exact fun hd => hc (h _ _ (Table.get?_of_mem hmem) hd)

end Reads

/-- Gated rows stay out of the channels. -/
def KeepsApart (s s' : Tables) : Prop := AllRows GatedApart s → AllRows GatedApart s'

section Rows
variable {s t s' : Tables}

instance : Std.Refl KeepsApart := ⟨fun _ h => h⟩

instance : IsTrans Tables KeepsApart := ⟨fun _ _ _ h h' hs => h' (h hs)⟩

theorem KeepsApart.of_messages (h : s'.messages = s.messages) : KeepsApart s s' :=
  fun hs k m hg => hs k m (h ▸ hg)

theorem KeepsApart.of_update {p : MessageRow → Bool} {f : MessageRow → MessageRow}
    (hf : ∀ m, (f m).envelopeId = m.envelopeId)
    (h : ∀ m, s.messages.get? m.envelopeId = some m → p m = true → GatedApart m → GatedApart (f m)) :
    KeepsApart s (s.updateMessages p f hf) := by
  intro hs k m' hg
  rw [get?_updateMessages, Option.map_eq_some_iff] at hg
  obtain ⟨m, hm, rfl⟩ := hg
  split
  · rename_i hp
    exact h m ((Table.get?_key hm).symm ▸ hm) hp (hs k m hm)
  · exact hs k m hm

theorem keepsApart_frame : Frame KeepsApart where
  books _ _ hm _ _ := .of_messages hm
  rows s p f hf h := .of_update hf fun m _ _ hm => by
    change (f m).asReceived.receiptDisposition = _ → (f m).asReceived.channelId = none
    rw [h m]
    exact hm

theorem KeepsApart.of_insert {row : MessageRow} (hi : s.insertMessage? row = some t) (hrow : GatedApart row) :
    KeepsApart s t := by
  intro hs k m hg
  rw [(Tables.insertMessage?_eq_some hi).2.1] at hg
  split at hg
  · cases hg
    exact hrow
  · exact hs k m hg

theorem keepsApart_settle (values : MessageRow) (s : Tables) :
    KeepsApart s (settleUnverifiedThreadClaims values s) := by
  intro hs k m' hg
  obtain ⟨m, hm, root, unverified, rfl⟩ := rel_some_right
    (hg ▸ (settleUnverifiedThreadClaims_rethreading values s).rows k)
  exact hs k m hm

end Rows

section Receipts
variable {s s' : Tables} {r : ReceiptResult} {payload : Payload} {serverSeq : Int} {disposition : ReceiptDisposition}
  {reason : String} {receivedAt now : Int}

/-- The row of the envelope belongs to no channel, be it new or stored without a verdict. -/
def Apart (s : Tables) (payload : Payload) : Prop :=
  match s.messages.get? payload.envelopeId with
  | none => payload.channelId = none
  | some m => m.receiptDisposition = none → m.channelId = none

/-- `_backfill_missing_sequence` gates only a row that has no verdict yet. -/
theorem backfill_apart {envelopeId : String} {byId : MessageRow} {bySeq : Option MessageRow}
    (hg : s.messages.get? envelopeId = some byId)
    (hrow : disposition = .foreignDmGated → byId.receiptDisposition = none → byId.channelId = none)
    (h : backfillMissingSequence envelopeId serverSeq disposition reason byId bySeq s = .ok (.commit r) s') :
    KeepsApart s s' := by
  unfold backfillMissingSequence at h
  split_ifs at h with _ hlocal hgate
  · simp [pure_ok_iff] at h
  · simp only [query_bind_ok_iff, exec_bind_ok_iff, raiseIf_bind_ok_iff, pure_ok_iff] at h
    obtain ⟨-, -, rfl⟩ := h
    refine KeepsApart.of_update ?_ fun m _ _ _ hd => ?_
    · exact fun _ => rfl
    · cases hd
  · simp only [exec_bind_ok_iff, pure_ok_iff] at h
    obtain ⟨-, rfl⟩ := h
    refine KeepsApart.of_update ?_ fun m hm hp _ _ => ?_
    · exact fun _ => rfl
    · simp only [decide_eq_true_eq] at hp
      rw [hp.1, hg] at hm
      cases hm
      exact hrow hgate.2.2 hgate.1
  · simp only [exec_bind_ok_iff, pure_ok_iff] at h
    obtain ⟨-, rfl⟩ := h
    refine KeepsApart.of_update ?_ fun m _ _ hm => hm
    exact fun _ => rfl

/-- No row has the sequence that is to be stored. -/
def Free (s : Tables) (seq : Int) : Prop :=
  0 < seq ∧ ∀ m ∈ s.messages.rows, m.serverSeq ≠ some seq

theorem storeReceipt_apart (payload : Payload) (serverSeq : Int) (disposition : ReceiptDisposition) (reason : String)
    (receivedAt now : Int) :
    Does (fun s _ s' => (disposition = .foreignDmGated → Free s serverSeq → Apart s payload) → KeepsApart s s')
      (storeReceipt payload serverSeq disposition reason receivedAt now) := by
  refine Does.raiseIf fun hpos => Does.raiseIf fun _ => does_transaction ?_ fun s _ _ _ _ hs => hs
  intro s r s' h hapart
  simp only [storeReceiptBody, query_bind_ok_iff] at h
  unfold Apart at hapart
  cases hid : s.messages.get? payload.envelopeId with
  | none =>
    simp only [hid] at h hapart
    split_ifs at h
    · simp [pure_ok_iff] at h
    · simp only [insertNewReceipt, insertMessage, tryExec_bind_ok_iff, exec_bind_ok_iff, pure_ok_iff] at h
      obtain ⟨t, hi, -, rfl⟩ := h
      have hfree : Free s serverSeq := ⟨not_le.mp hpos, Tables.insertMessage?_free hi rfl⟩
      have hrow : KeepsApart s t := .of_insert hi fun hd => hapart (Option.some.inj hd) hfree
      refine IsTrans.trans _ _ _ (IsTrans.trans _ _ _ hrow (keepsApart_settle (payloadValues payload receivedAt) t))
        (.of_messages ?_)
      split <;> rfl
  | some row =>
    simp only [hid, persistExistingReceipt] at h hapart
    split_ifs at h with hnone
    · cases hseq : s.messages.rows.find? fun m => m.serverSeq = some serverSeq with
      | none =>
        have hfree : Free s serverSeq :=
          ⟨not_le.mp hpos, fun m hm => by simpa using List.find?_eq_none.mp hseq m hm⟩
        exact backfill_apart hid (fun hd => hapart hd hfree) h
      | some m =>
        -- the row with the sequence is another one, as this row has none
        have hother : m.envelopeId ≠ payload.envelopeId := fun he => by
          have hg := Table.get?_of_mem (List.mem_of_find?_eq_some hseq)
          cases hid.symm.trans (he ▸ hg)
          simpa [hnone] using List.find?_some hseq
        rw [hseq, backfillMissingSequence, if_pos (by simpa using hother)] at h
        simp [pure_ok_iff] at h
    · simp [pure_ok_iff] at h
    · simp [pure_ok_iff] at h

theorem storeLocalReceipt_apart (payload : Payload) (disposition : ReceiptDisposition) (reason : String)
    (receivedAt : Int) : Does (fun s _ s' => (disposition = .foreignDmGated → Apart s payload) → KeepsApart s s')
      (storeLocalReceipt payload disposition reason receivedAt) := by
  refine Does.raiseIf fun _ => Does.raiseIf fun _ => does_transaction ?_ fun s _ _ _ _ hs => hs
  intro s r s' h hapart
  simp only [storeLocalReceiptBody, query_bind_ok_iff] at h
  unfold Apart at hapart
  cases hid : s.messages.get? payload.envelopeId with
  | none =>
    simp only [hid] at h hapart
    obtain ⟨position, t, hp, h⟩ := bind_ok_iff.mp h
    simp only [insertMessage, tryExec_bind_ok_iff, pure_ok_iff] at h
    obtain ⟨t', hi, -, rfl⟩ := h
    have hposition : KeepsApart s t := by
      unfold receiptPosition at hp
      split_ifs at hp
      · simp only [allocateLocalPosition_bind_ok_iff, pure_ok_iff] at hp
        rw [← hp.2]
        exact .of_messages rfl
      · rw [← (pure_ok_iff.mp hp).2]
        exact Std.Refl.refl s
    exact IsTrans.trans _ _ _ hposition (.of_insert hi fun hd => hapart (Option.some.inj hd))
  | some row =>
    simp only [hid, classifyExistingLocalRow] at h hapart
    split_ifs at h
    · simp [pure_ok_iff] at h
    · cases hd : row.receiptDisposition with
      | none =>
        simp only [hd, exec_bind_ok_iff, pure_ok_iff] at h
        obtain ⟨-, rfl⟩ := h
        refine KeepsApart.of_update _ fun m hm hp _ hgated => ?_
        simp only [decide_eq_true_eq] at hp
        rw [hp.1, hid] at hm
        cases hm
        exact hapart (Option.some.inj hgated) hd
      | some stored => simp [hd, pure_ok_iff] at h

theorem insertLocalEvent_apart {values : MessageRow} {u : Unit}
    (h : insertLocalEventInTransaction values reason now s = .ok u s') : KeepsApart s s' := by
  simp only [insertLocalEventInTransaction, insertMessage, allocateLocalPosition_bind_ok_iff, tryExec_bind_ok_iff,
    exec_ok_iff] at h
  obtain ⟨t, hi, rfl⟩ := h
  have hrow : KeepsApart { s with nextOrdinal := (localPosition s).1 + 1 } t := .of_insert hi fun hd => by cases hd
  exact fun hs => hrow hs

theorem storeLocalEvent_apart (payload : Payload) (reason : String) (introChannelId : Option String)
    (receivedAt : Int) (idempotent : Bool) (now : Int) :
    Leaves KeepsApart (storeLocalEvent payload reason introChannelId receivedAt idempotent now) := by
  refine Does.raiseIf fun _ => Leaves.read (leaves_transaction fun s a s' h => ?_) _
  obtain ⟨marks, he⟩ := storeLocalEventBody_ok h
  exact fun hs => insertLocalEvent_apart he hs

theorem promoteGatedReceipt_apart (envelopeId : String) (serverSeq : Option Int) (reason : String)
    (approvedPayload : Option Payload) (now : Int) :
    Leaves KeepsApart (promoteGatedReceipt envelopeId serverSeq reason approvedPayload now) := by
  refine Does.raiseIf fun _ => Does.of_ends (.bind (ends_query _) fun row => ?_)
  have hallocated : Ends KeepsApart allocateLocalPosition := fun s a s' h => by
    cases h
    exact .of_messages rfl
  cases row with
  | none => cases serverSeq <;> exact ends_pure _
  | some row =>
    cases serverSeq with
    | none =>
      refine .ite (fun _ => ends_pure _) fun _ => .ite (fun _ => ends_pure _) fun _ => .ite (fun _ => ends_pure _) fun _ => ?_
      refine .bind hallocated fun _ => .bind (ends_exec fun s => .of_update _ fun _ _ _ _ hd => by cases hd) fun _ => ?_
      exact .bind (ends_exec (keepsApart_frame.refreshNoticeState _ _)) fun _ => ends_pure _
    | some seq =>
      refine .ite (fun _ => ends_pure _) fun _ => .ite (fun _ => ends_pure _) fun _ => .ite (fun _ => ends_pure _) fun _ => ?_
      refine .bind (ends_exec fun s => .of_update _ fun _ _ _ _ hd => by cases hd) fun _ => ?_
      exact .bind (ends_exec (keepsApart_frame.refreshNoticeState _ _)) fun _ => ends_pure _

theorem tombstoneGatedDm_apart (envelopeId : String) (serverSeq : Option Int) :
    Leaves KeepsApart (tombstoneGatedDm envelopeId serverSeq) := by
  refine Does.of_ends (.bind (ends_query _) fun row => ?_)
  cases row with
  | none => exact ends_pure _
  | some row =>
    refine .ite (fun _ => ends_pure _) fun _ => .ite (fun _ => ends_pure _) fun _ => .ite (fun _ => ends_pure _) fun _ => ?_
    exact .bind (ends_exec fun s => .of_update _ fun _ _ _ _ hd => by cases hd) fun _ => ends_pure _

theorem tombstoneGatedDmsFrom_apart (senderSlug : String) : Leaves KeepsApart (tombstoneGatedDmsFrom senderSlug) := by
  refine Does.ite (leaves_pure _) (Does.of_ends (.bind (ends_query _) fun _ => .bind (ends_exec fun s => ?_) fun _ => ends_pure _))
  exact .of_update _ fun _ _ _ _ hd => by cases hd

theorem quarantinePending_apart (envelopeId reason : String) (now : Int) :
    Leaves KeepsApart (quarantinePending envelopeId reason now) := by
  refine Does.of_ends (.bind (ends_query _) fun _ => .bind (ends_exec fun s => ?_) fun _ => ?_)
  · exact .of_update _ fun _ _ _ _ hd => by cases hd
  · refine .bind (ends_exec fun s => .of_messages ?_) fun _ => ends_pure _
    split <;> rfl

theorem cleanup_apart (retentionDays now : Int) : Leaves KeepsApart (cleanup retentionDays now) := by
  refine Does.of_ends (.bind (ends_query _) fun _ => .bind (ends_exec fun s => ?_) fun _ => ends_pure _)
  intro hs k m hg
  rw [Table.get?_delete, Option.filter_eq_some_iff] at hg
  exact hs k m hg.1

theorem store_apart (payload : Payload) (receivedAt : Int) : Leaves KeepsApart (store payload receivedAt) := by
  refine Does.of_ends (.bind (ends_exec fun s => ?_) fun _ => ends_pure _)
  intro hs k m hg
  rw [Table.get?_insertOrIgnore] at hg
  split at hg
  · cases hg
    exact fun hd => by cases hd
  · exact hs k m hg

end Receipts

section Runs

/-- Every gated receipt that is stored is for a message that belongs to no channel. -/
def GatesApart (s : Tables) : Write → Prop
  | .store (.storeReceipt payload seq disposition _ _ _) =>
    disposition = .foreignDmGated → Free s seq → Apart s payload
  | .store (.storeLocalReceipt payload disposition _ _) => disposition = .foreignDmGated → Apart s payload
  | _ => True

theorem perform_apart (op : Store.Op) : Does (fun s _ s' => GatesApart s (.store op) → KeepsApart s s') op.perform := by
  have hleaves {x : StoreM Unit} (h : Leaves KeepsApart x) :
      Does (fun s _ s' => GatesApart s (.store op) → KeepsApart s s') x := h.mono fun _ _ _ hkept _ => hkept
  by_cases hfiles : op.files = false
  · exact hleaves (keepsApart_frame.perform hfiles)
  · cases op with
    | store => exact hleaves (store_apart _ _)
    | storeReceipt => exact (storeReceipt_apart _ _ _ _ _ _).discard.mono fun _ _ _ ⟨_, h⟩ => h
    | storeLocalReceipt => exact (storeLocalReceipt_apart _ _ _ _).discard.mono fun _ _ _ ⟨_, h⟩ => h
    | storeLocalEvent => exact hleaves (storeLocalEvent_apart _ _ _ _ _ _).discard
    | promoteGatedReceipt => exact hleaves (promoteGatedReceipt_apart _ _ _ _ _).discard
    | tombstoneGatedDm => exact hleaves (tombstoneGatedDm_apart _ _).discard
    | tombstoneGatedDmsFrom => exact hleaves (tombstoneGatedDmsFrom_apart _).discard
    | quarantinePending => exact hleaves (quarantinePending_apart _ _ _).discard
    | cleanup => exact hleaves (cleanup_apart _ _).discard
    | _ => exact absurd rfl hfiles

/-- The event of a reminder is a local one. -/
theorem deliverClaimedReminder_apart (host : Reminders.Host) (reminderId : String)
    (nowMs selectNowMs clockMs finalNowMs : Int) : Leaves KeepsApart
      (Reminders.deliverClaimedReminder host reminderId nowMs selectNowMs clockMs finalNowMs) := by
  refine Leaves.read (leaves_transaction fun s a s' h => ?_) _
  obtain ⟨reminder, t, u, -, he, -, rfl⟩ := Reminders.deliverClaimedReminderBody_ok h
  have hevent : KeepsApart s t := by
    rcases Reminders.enqueueReminder_ok he with ⟨payload, -, -, he⟩ | ⟨-, rfl⟩
    · exact insertLocalEvent_apart he
    · exact Std.Refl.refl t
  exact IsTrans.trans _ _ _ hevent (.of_messages rfl)

theorem reminder_step_apart (host : Reminders.Host) (s : Tables) (op : Reminders.Op) :
    KeepsApart s (Reminders.step host s op) := by
  have heffect := Reminders.step_effect host s op
  cases op with
  | deliverClaimed reminderId nowMs selectNowMs clockMs finalNowMs =>
    rcases (deliverClaimedReminder_apart host reminderId nowMs selectNowMs clockMs finalNowMs).discard.after s with
      hsame | ⟨-, -, hkept⟩
    · exact .of_messages (congrArg Tables.messages hsame)
    · exact hkept
  | _ =>
    cases heffect with
    | quiet rows messages => exact .of_messages messages
    | created row fresh stored others messages => exact .of_messages messages
    | delivered finalNowMs read => cases read
    | adopted finalNowMs read => cases read

theorem step_apart (host : Reminders.Host) (s : Tables) (op : Write) (hop : GatesApart s op) :
    KeepsApart s (step host s op) := by
  cases op with
  | store op =>
    rcases (perform_apart op).after s with hsame | ⟨-, -, hkept⟩
    · exact .of_messages (congrArg Tables.messages hsame)
    · exact hkept hop
  | reminder op => exact reminder_step_apart host s op

/-- In every run whose gated receipts are for messages that belong to no channel, no read shows a
gated row in any state. -/
theorem gated_rows_withheld (host : Reminders.Host) (text : Text.Host) (floats : Json → Json → Comparison)
    (ops : List Write) (h : Along (step host) GatesApart Tables.empty ops) :
    Throughout (step host) (Withholds text floats) Tables.empty ops :=
  h.throughout (allRows_empty GatedApart) (fun s op hop hs => step_apart host s op hop hs) fun _ => withholds_iff.mpr

/-- A gated direct message of the usual shape. -/
def heldDm : Write :=
  .store (.storeReceipt { envelopeId := "m1", envelopeKind := "dm", senderSlug := "mallory", sentAt := 0 } 5
    .foreignDmGated "foreign dm awaiting approval" 0 0)

theorem gated_rows_withheld_dm : ∃ host : Reminders.Host,
    ((after host [heldDm]).messages.get? "m1").bind (·.receiptDisposition) = some .foreignDmGated ∧
      Withholds asciiHost (fun _ _ => .unordered) (after host [heldDm]) := by
  refine ⟨⟨fun _ => none, fun _ => false, fun _ => none⟩, by decide, ?_⟩
  refine (gated_rows_withheld _ asciiHost (fun _ _ => .unordered) [heldDm] ⟨fun _ _ => ?_, trivial⟩).last
  rfl

/-- What a stranger seals: a direct message to the agent that names a channel as well. -/
def strayDict : Json :=
  Ingress.strangerPayload [("envelope_kind", .str "dm"), ("recipient_slug", .str "agent"), ("channel_id", .str "ch-1")]

def stray : Ingress.MessagePayload := { Ingress.honest with channelId := some "ch-1" }

/-- The message is held for the operator, and the history of the channel shows it to the model. -/
theorem gated_dm_in_channel_history :
    Ingress.decryptMessage (Ingress.sealing strayDict) Ingress.strangerEnvelope "dev-1" [] = .ok stray ∧
    ∃ outcome s, Ingress.handle asciiHost (Ingress.plainClient "op" true) stray 5 false 7 ⟨Tables.empty, none⟩ =
        .ok outcome ⟨s, none⟩ ∧
      ((getChannelHistory s "ch-1" 50 none).map fun m => (m.row.envelopeId, m.content.dumps)) = [("env-1", "\"hi\"")] ∧
      ¬ Withholds asciiHost (fun _ _ => .unordered) s := by
  refine ⟨?_, _, _, rfl, ?_, ?_⟩
  · rw [Ingress.decryptMessage_sealing rfl]
    rfl
  · decide +kernel
  · rw [withholds_iff]
    intro h
    cases h "env-1" _ rfl rfl

end Runs
end PuffoAgent.Inbox
