import PuffoAgent.Store.NoticeAccounting

/-! Every pending row is one that the Inbox lists, in the runs where no sequenced
receipt strands a waiting local row. -/
namespace PuffoAgent.Store
open Relational Machine

/-- One of the two shapes that `_get_pending_unlocked` selects. -/
def MessageRow.hasListedShape (m : MessageRow) : Prop :=
  (m.receiptDisposition = some .eligible ∧ m.serverSeq.isSome) ∨
    (m.receiptDisposition = some .localRuntime ∧ m.serverSeq = none ∧ m.localOrdinal.isSome)

/-- Rows that wait or are in a turn can be listed when they wait again. -/
structure MessageRow.Listable (m : MessageRow) : Prop where
  shape : m.processingState = some .pending ∨ m.processingState = some .inTurn → m.hasListedShape
  idle : m.receiptDisposition = some .foreignDmGated ∨ m.receiptDisposition = none →
    m.processingState = none

section Rows
variable {licence : Licence} {m m' : MessageRow}

theorem isListed_iff :
    m.isListed = true ↔ m.processingState = some .pending ∧ m.hasListedShape := by
  simp [MessageRow.isListed, MessageRow.isPending, MessageRow.hasListedShape]

theorem Arrival.listable (h : Arrival m) : m.Listable := by
  rcases h.listed with hn | hl
  · exact ⟨by simp [hn], fun _ => hn⟩
  · obtain ⟨-, hs⟩ := isListed_iff.mp hl
    refine ⟨fun _ => hs, fun hd => ?_⟩
    rcases hs with ⟨he, -⟩ | ⟨he, -⟩ <;> simp [he] at hd

theorem Aside.listable (hn : ¬ licence.strands) (h : Aside licence m m') (hm : m.Listable) : m'.Listable := by
  cases h with
  | rethreaded => exact ⟨hm.shape, hm.idle⟩
  | sequenced seq reason hl => exact ⟨fun _ => .inl ⟨rfl, rfl⟩, by simp [MessageRow.sequenced]⟩
  | gated seq reason hd hp => exact ⟨by simp [MessageRow.gated, hp], fun _ => hp⟩
  | backfilled seq hs hl =>
    refine ⟨fun hp => ?_, hm.idle⟩
    rcases hm.shape hp with ⟨-, hsome⟩ | ⟨hr, -⟩
    · simp [hs] at hsome
    · exact (hn (hl hr hp)).elim
  | classified d reason hs hd =>
    have hn := hm.idle (.inr hd)
    exact ⟨by simp [hn], fun _ => hn⟩
  | releasedLocal reason ordinal frontier contentType content hs hg =>
    exact ⟨fun _ => .inr ⟨rfl, hs, rfl⟩, by simp⟩
  | released reason contentType content hs hg => exact ⟨fun _ => .inl ⟨rfl, hs⟩, by simp⟩
  | denied hg =>
    have hn : (Store.denied m).processingState = none := hm.idle (.inl hg)
    exact ⟨by simp [hn], fun _ => hn⟩
  | quarantined => exact ⟨by simp, fun _ => rfl⟩
  | covered now hp =>
    simp only [MessageRow.isPending, decide_eq_true_eq] at hp
    refine ⟨by simp [MessageRow.covered], fun hd => ?_⟩
    have := hm.idle hd
    simp [hp] at this

theorem Ended.listable {turnId : String} (hp : m.isInTurn turnId = true) (h : Ended licence m m')
    (hm : m.Listable) : m'.Listable := by
  simp only [MessageRow.isInTurn, decide_eq_true_eq] at hp
  have hshape := hm.shape (.inr hp.1)
  have hidle (hd : m.receiptDisposition = some .foreignDmGated ∨ m.receiptDisposition = none) :
      False := by
    have := hm.idle hd
    simp [hp.1] at this
  cases h with
  | completed => exact ⟨fun _ => hshape, fun hd => (hidle hd).elim⟩
  | renoticed => exact ⟨fun _ => hshape, fun hd => (hidle hd).elim⟩
  | settled => exact ⟨fun _ => hshape, fun hd => (hidle hd).elim⟩
  | requeued => exact ⟨fun _ => hshape, fun hd => (hidle hd).elim⟩

theorem admitted_listable {turnId : String} {at_ : Int} (hp : m.isPending = true)
    (hm : m.Listable) : (m.admitted turnId at_).Listable := by
  simp only [MessageRow.isPending, decide_eq_true_eq] at hp
  refine ⟨fun _ => hm.shape (.inl hp), fun hd => ?_⟩
  have := hm.idle hd
  simp [hp] at this

end Rows

theorem listable_step {s : Tables} {op : Op} (hop : ¬ op.strands s)
    (hs : AllRows MessageRow.Listable s) : AllRows MessageRow.Listable (step s op) := by
  rw [← op.licence_strands] at hop
  exact (step_effect s op).ledger.allRows hs (fun m => Arrival.listable)
    (fun m m' => Aside.listable hop)
    (fun m turnId at_ => admitted_listable) fun m m' turnId => Ended.listable

/-- The rows that are listed are the rows that are pending. -/
theorem getPending_of_listable {s : Tables} (hs : AllRows MessageRow.Listable s) :
    ((getPending s).map (·.envelopeId)).toFinset = s.pendingIds ∧
      (getPending s).length = s.pendingIds.card := by
  have hsame : s.messages.select (·.isListed) = s.messages.select (·.isPending) := by
    refine List.filter_congr fun m hm => ?_
    rw [Bool.eq_iff_iff, isListed_iff, MessageRow.isPending, decide_eq_true_iff]
    exact ⟨And.left, fun hp => ⟨hp, (hs _ _ (Table.get?_of_mem hm)).shape (.inl hp)⟩⟩
  constructor
  · ext k
    simp only [getPending, List.mem_toFinset, List.mem_map, List.mem_insertionSort, hsame,
      Tables.pendingIds, Table.keysWhere]
  · rw [getPending, List.length_insertionSort, hsame, Tables.pendingIds, Table.card_keysWhere]

/-- No pending message is invisible in a run where no receipt strands a row: the rows
counted in the notice are the rows the Inbox lists. -/
theorem inbox_pending_listed (ops : List Op)
    (h : Along step (fun s op => ¬ op.strands s) Tables.empty ops) :
    ((getPending (run step Tables.empty ops)).map (·.envelopeId)).toFinset =
      (run step Tables.empty ops).pendingIds ∧
    (run step Tables.empty ops).noticeState.pendingCount =
      (getPending (run step Tables.empty ops)).length ∧
    ∀ k m, (run step Tables.empty ops).messages.get? k = some m →
      m.processingState = some .pending →
      (m.receiptDisposition = some .eligible ∧ m.serverSeq.isSome) ∨
        (m.receiptDisposition = some .localRuntime ∧ m.serverSeq = none ∧ m.localOrdinal.isSome) := by
  have hs : AllRows MessageRow.Listable (run step Tables.empty ops) :=
    h.invariant (allRows_empty _) fun s op => listable_step
  obtain ⟨hset, hlen⟩ := getPending_of_listable hs
  refine ⟨hset, ?_, fun k m hg hp => (hs k m hg).shape (.inl hp)⟩
  rw [hlen]
  exact (noticeInv_run ops).counted

/-- A sequence-less delivery admitted as a local event, then the same envelope with a
server sequence and a terminal verdict. -/
def licenceRun : List Op :=
  [.storeLocalEvent ⟨"env-1", "dm", "alice", none, none, some "agent", "text/plain", .str "hi", 1,
      none, none, false, true⟩ "bridge" none 1 false 1,
    .storeReceipt ⟨"env-1", "dm", "alice", none, none, some "agent", "text/plain", .str "hi", 1,
      none, none, false, true⟩ 7 .terminal "sender blocked" 2 2]

theorem pending_row_not_listed :
    "env-1" ∈ (run step Tables.empty licenceRun).pendingIds ∧
    (run step Tables.empty licenceRun).noticeState.pendingCount = 1 ∧
    getPending (run step Tables.empty licenceRun) = [] := by
  decide

/-- A local event whose envelope gets its sequence from an eligible receipt, and a gated message
that comes without a sequence, then with one, and is approved. Receipts that are not eligible
bring no sequence, a taken one, or one for a row that has its own. -/
def backfillRun : List Op :=
  let event : Payload := { envelopeId := "env-1", envelopeKind := "dm", senderSlug := "alice", sentAt := 1 }
  let held : Payload := { envelopeId := "env-2", envelopeKind := "dm", senderSlug := "carol", sentAt := 2 }
  let late : Payload := { envelopeId := "env-3", envelopeKind := "dm", senderSlug := "alice", sentAt := 3 }
  [.storeLocalEvent event "bridge" none 1 false 1, .storeReceipt event 0 .terminal "blocked" 2 2,
    .storeReceipt event 7 .eligible "eligible" 3 3, .storeReceipt event 9 .terminal "blocked" 4 4,
    .storeLocalReceipt held .foreignDmGated "gated" 5, .storeReceipt held 8 .foreignDmGated "gated" 6 6,
    .promoteGatedReceipt "env-2" (some 8) "approved" none 7, .storeLocalEvent late "bridge" none 8 false 8,
    .storeReceipt late 8 .terminal "blocked" 9 9]

theorem inbox_pending_listed_backfill :
    ((getPending (run step Tables.empty backfillRun)).map (·.envelopeId)).toFinset =
      (run step Tables.empty backfillRun).pendingIds ∧
    (run step Tables.empty backfillRun).pendingIds = {"env-1", "env-2", "env-3"} :=
  ⟨(inbox_pending_listed backfillRun (by decide)).1, by decide⟩

end PuffoAgent.Store
