import PuffoAgent.History.Walk

/-! Paging by server sequences, and both kinds of paging together. -/
namespace PuffoAgent.History
open Relational Store Text Projection Inbox Sequences
open Reminders (InboxTarget parseInboxTarget)

section Sequenced
variable (s : Tables) (p : MessageRow → Bool)

def sequenceOf (m : MessageRow) : Int := m.serverSeq.getD 0

/-- The selected rows that have a sequence, lowest first. -/
def sequencedRows : List MessageRow :=
  (s.messages.select fun m => p m ∧ m.serverSeq.isSome).insertionSort fun a b => sequenceOrder a ≤ sequenceOrder b

/-- The bound of a page on one side of a sequence. -/
def sequenceBounds : Direction → Int → Bounds
  | .older, seq => { beforeSeq := some seq }
  | .newer, seq => { afterSeq := some seq }

/-- A page of the selected rows. -/
def sequencePage (limit : Int) (direction : Direction) (seq : Int) : List MessageRow :=
  (sequenceBounds direction seq).page limit ((s.messages.select p).filter (sequenceBounds direction seq).admits)

/-- The rows a page limit stands for. -/
def clamped (limit : Int) : Nat := (max 1 (min limit 201)).toNat

variable {s p}

theorem mem_sequencedRows {m : MessageRow} (h : m ∈ sequencedRows s p) : m ∈ s.messages.rows ∧ m.serverSeq.isSome := by
  rw [sequencedRows, List.mem_insertionSort, Table.select, List.mem_filter] at h
  exact ⟨h.1, (of_decide_eq_true h.2).2⟩

theorem nodup_sequenceOrder {rows : List MessageRow} (h : (rows.map (·.envelopeId)).Nodup) :
    (rows.map sequenceOrder).Nodup := by
  refine List.Nodup.of_map (fun o => (ofLex o).2) ?_
  rwa [List.map_map]

/-- Sequences alone order the rows. -/
theorem sequencedRows_ascending (h : DistinctSequences s) : Ascending sequenceOf (sequencedRows s p) := by
  have hasc : Ascending sequenceOrder (sequencedRows s p) := ascending_sort (nodup_sequenceOrder (nodup_select _))
  refine List.Pairwise.imp_of_mem ?_ hasc
  intro a b ha hb hlt
  obtain ⟨ha, hsa⟩ := mem_sequencedRows ha
  obtain ⟨hb, hsb⟩ := mem_sequencedRows hb
  obtain ⟨qa, hqa⟩ := Option.isSome_iff_exists.1 hsa
  obtain ⟨qb, hqb⟩ := Option.isSome_iff_exists.1 hsb
  rcases Prod.Lex.toLex_lt_toLex.1 hlt with hlt | ⟨he, hid⟩
  · exact hlt
  · have heq : qa = qb := by simpa [hqa, hqb] using he
    subst heq
    have := h _ _ a b qa (Table.get?_of_mem ha) (Table.get?_of_mem hb) hqa hqb
    exact absurd this hid.ne

theorem clamped_cast (limit : Int) : max 1 (min limit 201) = (clamped limit : Int) := by
  unfold clamped
  omega

theorem clamped_pos (limit : Int) : 0 < clamped limit := by
  unfold clamped
  omega

/-- A bound selects among the rows with a sequence. -/
theorem filter_sequenced (q : Int → Bool) :
    ((s.messages.select p).filter fun m => m.serverSeq.any q) =
      (s.messages.select fun m => p m ∧ m.serverSeq.isSome).filter fun m => q (sequenceOf m) := by
  rw [Table.select, Table.select, List.filter_filter, List.filter_filter]
  refine List.filter_congr fun m _ => ?_
  cases hm : m.serverSeq <;> simp [sequenceOf, hm, Bool.and_comm]

theorem sequencePage_older (limit seq : Int) : sequencePage s p limit .older seq =
    ((sequencedRows s p).filter fun m => sequenceOf m < seq).rtake (clamped limit) := by
  have hadmits : (sequenceBounds .older seq).admits = fun m => m.serverSeq.any (· < seq) := by
    funext m
    simp [sequenceBounds, Bounds.admits]
  rw [sequencePage, Bounds.page, clamped_cast, hadmits, filter_sequenced (· < seq)]
  change (newest sequenceOrder _ _).reverse = _
  rw [newest_reverse (nodup_sequenceOrder ((nodup_select _).sublist (List.filter_sublist.map _))),
    sort_filter (nodup_sequenceOrder (nodup_select _))]
  rfl

theorem sequencePage_newer (limit seq : Int) : sequencePage s p limit .newer seq =
    ((sequencedRows s p).filter fun m => seq < sequenceOf m).take (clamped limit) := by
  have hadmits : (sequenceBounds .newer seq).admits = fun m => m.serverSeq.any (seq < ·) := by
    funext m
    simp [sequenceBounds, Bounds.admits]
  rw [sequencePage, Bounds.page, clamped_cast, hadmits, filter_sequenced (seq < ·)]
  rw [if_pos (show (sequenceBounds .newer seq).afterSeq.isSome from rfl), oldest_eq,
    sort_filter (nodup_sequenceOrder (nodup_select _))]
  rfl

/-- The next bound, at the edge of a page. -/
def nextSequence (direction : Direction) (page : List MessageRow) : Option Int :=
  match direction with
  | .older => page.head?.bind (·.serverSeq)
  | .newer => page.getLast?.bind (·.serverSeq)

theorem serverSeq_of_mem {m : MessageRow} (h : m ∈ sequencedRows s p) : m.serverSeq = some (sequenceOf m) := by
  obtain ⟨q, hq⟩ := Option.isSome_iff_exists.1 (mem_sequencedRows h).2
  simp [sequenceOf, hq]

/-- The rows below a bound, highest first. -/
def sequencedBelow (s : Tables) (p : MessageRow → Bool) (seq : Int) : List MessageRow :=
  ((sequencedRows s p).filter fun m => sequenceOf m < seq).reverse

/-- The rows above a bound. -/
def sequencedAbove (s : Tables) (p : MessageRow → Bool) (seq : Int) : List MessageRow :=
  (sequencedRows s p).filter fun m => seq < sequenceOf m

theorem older_page (h : DistinctSequences s) (limit seq : Int) (hne : sequencedBelow s p seq ≠ []) :
    ∃ seq', nextSequence .older (sequencePage s p limit .older seq) = some seq' ∧
      (sequencePage s p limit .older seq).reverse ≠ [] ∧
      (sequencePage s p limit .older seq).reverse ++ sequencedBelow s p seq' = sequencedBelow s p seq := by
  have hbelow : (sequencedRows s p).filter (fun m => sequenceOf m < seq) ≠ [] := by simpa [sequencedBelow] using hne
  rw [sequencePage_older]
  set below := (sequencedRows s p).filter fun m => sequenceOf m < seq with hdef
  have hpos := clamped_pos limit
  cases hpage : below.rtake (clamped limit) with
  | nil =>
    have hlen := congrArg List.length hpage
    rw [length_rtake, List.length_nil] at hlen
    have := List.length_pos_iff.2 hbelow
    omega
  | cons a rows =>
    have hsplit : below = below.rdrop (clamped limit) ++ a :: rows := by rw [← hpage, rdrop_append_rtake]
    have ha := List.mem_filter.1 (show a ∈ below by rw [hsplit]; simp)
    have hasc : Ascending sequenceOf (below.rdrop (clamped limit) ++ a :: rows) :=
      hsplit ▸ (sequencedRows_ascending h).filter _
    have hrest : (sequencedRows s p).filter (fun m => sequenceOf m < sequenceOf a) = below.rdrop (clamped limit) := by
      rw [← hasc.below, ← hsplit, hdef, List.filter_filter]
      refine List.filter_congr fun m _ => ?_
      have := of_decide_eq_true ha.2
      rw [Bool.eq_iff_iff, Bool.and_eq_true, decide_eq_true_iff, decide_eq_true_iff]
      omega
    refine ⟨sequenceOf a, serverSeq_of_mem ha.1, by simp, ?_⟩
    rw [sequencedBelow, hrest, ← List.reverse_append, ← hsplit]
    rfl

theorem newer_page (h : DistinctSequences s) (limit seq : Int) (hne : sequencedAbove s p seq ≠ []) :
    ∃ seq', nextSequence .newer (sequencePage s p limit .newer seq) = some seq' ∧
      sequencePage s p limit .newer seq ≠ [] ∧
      sequencePage s p limit .newer seq ++ sequencedAbove s p seq' = sequencedAbove s p seq := by
  rw [sequencePage_newer]
  change ∃ seq', nextSequence .newer ((sequencedAbove s p seq).take (clamped limit)) = _ ∧ _ ∧
    (sequencedAbove s p seq).take (clamped limit) ++ _ = _
  set above := sequencedAbove s p seq with hdef
  have hpage : above.take (clamped limit) ≠ [] := by
    have := clamped_pos limit
    simp [List.take_eq_nil_iff, hne]
    omega
  obtain ⟨rows, a, hlast⟩ : ∃ rows a, above.take (clamped limit) = rows ++ [a] :=
    ⟨_, _, (List.dropLast_append_getLast hpage).symm⟩
  have hsplit : above = rows ++ a :: above.drop (clamped limit) := by
    conv_lhs => rw [← List.take_append_drop (clamped limit) above, hlast]
    simp
  have ha := List.mem_filter.1 (show a ∈ above by rw [hsplit]; simp)
  have hasc : Ascending sequenceOf (rows ++ a :: above.drop (clamped limit)) :=
    hsplit ▸ (sequencedRows_ascending h).filter _
  have hrest : sequencedAbove s p (sequenceOf a) = above.drop (clamped limit) := by
    rw [← hasc.above, ← hsplit, hdef, sequencedAbove, sequencedAbove, List.filter_filter]
    refine List.filter_congr fun m _ => ?_
    have := of_decide_eq_true ha.2
    rw [Bool.eq_iff_iff, Bool.and_eq_true, decide_eq_true_iff, decide_eq_true_iff]
    omega
  refine ⟨sequenceOf a, ?_, hpage, by rw [hrest, List.take_append_drop]⟩
  rw [hlast, nextSequence, List.getLast?_concat]
  exact serverSeq_of_mem ha.1

/-- Paging from any bound, until a page is empty, shows the rows beyond it once and in order. -/
def Paged (s : Tables) (p : MessageRow → Bool) (read : Direction → Int → Except DataNotFound (List StoredMessage)) : Prop :=
  ∀ seq,
    (∃ first pages, read .older seq = .ok first ∧
      Onward (read .older) (fun page => nextSequence .older (page.map (·.row))) first pages ∧
      (first :: pages).reverse.flatten.map (·.row) = (sequencedRows s p).filter fun m => sequenceOf m < seq) ∧
    ∃ first pages, read .newer seq = .ok first ∧
      Onward (read .newer) (fun page => nextSequence .newer (page.map (·.row))) first pages ∧
      (first :: pages).flatten.map (·.row) = (sequencedRows s p).filter fun m => seq < sequenceOf m

theorem map_row (rows : List MessageRow) : (rows.map rowToMsg).map (·.row) = rows := by
  rw [List.map_map]
  exact List.map_id rows

theorem paged_of_pages (h : DistinctSequences s) (limit : Int)
    {read : Direction → Int → Except DataNotFound (List StoredMessage)}
    (hread : ∀ direction seq, read direction seq = .ok ((sequencePage s p limit direction seq).map rowToMsg)) :
    Paged s p read := by
  have hreads (direction : Direction) :
      read direction = fun seq => .ok ((sequencePage s p limit direction seq).map rowToMsg) := funext (hread direction)
  have hempty {direction : Direction} {seq : Int} (hpage : sequencePage s p limit direction seq = []) :
      nextSequence direction (((sequencePage s p limit direction seq).map rowToMsg).map (·.row)) = none := by
    rw [hpage]
    cases direction <;> rfl
  intro seq
  constructor
  · obtain ⟨pages, hon, hflat⟩ := onward_pages DataNotFound (fun page => nextSequence .older (page.map (·.row)))
      (fun page => (page.map (·.row)).reverse) (fun seq => (sequencePage s p limit .older seq).map rowToMsg)
      (sequencedBelow s p)
      (fun seq hseq => by
        have hpage : sequencePage s p limit .older seq = [] := by
          rw [sequencePage_older, List.reverse_eq_nil_iff.1 hseq, List.rtake_nil]
        exact ⟨hempty hpage, by rw [map_row, hpage]; rfl⟩)
      (fun seq hne => by
        obtain ⟨seq', hnext, hsome, hsplit⟩ := older_page h limit seq hne
        exact ⟨seq', by rwa [map_row], by rwa [map_row], by rwa [map_row]⟩) seq
    refine ⟨_, pages, hread .older seq, hreads .older ▸ hon, ?_⟩
    rw [List.map_flatten, ← List.flatMap_def, ← List.reverse_inj, List.reverse_flatMap, List.reverse_reverse]
    exact hflat
  · obtain ⟨pages, hon, hflat⟩ := onward_pages DataNotFound (fun page => nextSequence .newer (page.map (·.row)))
      (fun page => page.map (·.row)) (fun seq => (sequencePage s p limit .newer seq).map rowToMsg)
      (sequencedAbove s p)
      (fun seq hseq => by
        have hpage : sequencePage s p limit .newer seq = [] := by
          rw [sequencePage_newer]
          change (sequencedAbove s p seq).take _ = []
          rw [hseq, List.take_nil]
        exact ⟨hempty hpage, by rw [map_row, hpage]⟩)
      (fun seq hne => by
        obtain ⟨seq', hnext, hsome, hsplit⟩ := newer_page h limit seq hne
        exact ⟨seq', by rwa [map_row], by rwa [map_row], by rwa [map_row]⟩) seq
    refine ⟨_, pages, hread .newer seq, hreads .newer ▸ hon, ?_⟩
    rw [List.map_flatten, ← List.flatMap_def]
    exact hflat

end Sequenced
section Exactness
variable {s : Tables} {target : InboxTarget} {floats : Json → Json → Comparison} {t : String}

/-- The arguments of a page on one side of a sequence. -/
def sequenceWindow (limit : Int) : Direction → Int → Inbox.Window
  | .older, seq => { limit, beforeSeq := some seq }
  | .newer, seq => { limit, afterSeq := some seq }

def isRootOf (channelId : String) (m : MessageRow) : Bool := m.channelId = some channelId ∧ m.threadRootId = none

def isVisibleIn (rootId : String) (m : MessageRow) : Bool := inThread rootId m ∧ notGated m

def rootsBySequence (s : Tables) (channelId : String) (limit : Int) (direction : Direction) (seq : Int) :
    Except DataNotFound (List StoredMessage) :=
  (getChannelRoots s channelId (sequenceWindow limit direction seq)).map fun roots => roots.map (·.1)

def threadBySequence (s : Tables) (rootId : String) (limit : Int) (direction : Direction) (seq : Int) :
    Except DataNotFound (List StoredMessage) :=
  getThreadMessages s rootId (sequenceWindow limit direction seq)

theorem bounds_sequenceWindow (limit : Int) (direction : Direction) (seq : Int) :
    (sequenceWindow limit direction seq).bounds s = sequenceBounds direction seq := by
  cases direction <;> rfl

theorem limit_sequenceWindow (limit : Int) (direction : Direction) (seq : Int) :
    (sequenceWindow limit direction seq).limit = limit := by
  cases direction <;> rfl

theorem select_and (p q : MessageRow → Bool) :
    s.messages.select (fun m => p m ∧ q m) = (s.messages.select p).filter q := by
  rw [Table.select, Table.select, List.filter_filter]
  refine List.filter_congr fun m _ => ?_
  rw [Bool.decide_and, Bool.decide_eq_true, Bool.decide_eq_true, Bool.and_comm]

theorem roots_paged (h : DistinctSequences s) {channelId : String} (hk : channelExists s channelId) (limit : Int) :
    Paged s (isRootOf channelId) (rootsBySequence s channelId limit) := by
  refine paged_of_pages h limit fun direction seq => ?_
  rw [rootsBySequence, getChannelRoots, if_neg (by simpa using hk), bounds_sequenceWindow, limit_sequenceWindow]
  simp only [Except.map, List.map_map]
  rw [sequencePage, ← select_and]
  simp only [isRootOf, decide_eq_true_eq, and_assoc]
  rfl

theorem thread_paged (h : DistinctSequences s) {rootId : String} (hr : rootId ≠ "")
    (hk : hasMessage s rootId ∨ s.messages.rows.any (·.threadRootId = some rootId)) (limit : Int) :
    Paged s (isVisibleIn rootId) (threadBySequence s rootId limit) := by
  refine paged_of_pages h limit fun direction seq => ?_
  rw [threadBySequence, getThreadMessages, if_neg hr, if_neg (by simpa [or_iff_not_imp_left] using hk),
    bounds_sequenceWindow, limit_sequenceWindow, sequencePage, ← select_and]
  simp only [isVisibleIn, decide_eq_true_eq, and_assoc]

theorem parse_channelId (hp : parseInboxTarget t = .ok target) (hd : target.kind ≠ "dm") : target.channelId ≠ "" := by
  have hsegment {value : String} (h : Reminders.validSegment value) : value ≠ "" := (of_decide_eq_true h).1
  unfold parseInboxTarget at hp
  split_ifs at hp
  split at hp
  · split_ifs at hp
    cases hp
    exact absurd rfl hd
  · split_ifs at hp with h
    cases hp
    exact hsegment h.2
  · split_ifs at hp with h
    cases hp
    exact hsegment h.2.1
  · cases hp

/-- A target that the store has not seen has no rows, and says so. -/
theorem read_unknown (hp : parseInboxTarget t = .ok target) (hk : ¬ known s target) (limit : Int) :
    readFrom s floats t limit "" = .error (noSuchTarget target t) ∧ historyRows s target = [] := by
  unfold known at hk
  by_cases hdm : target.kind = "dm"
  · rw [if_pos hdm] at hk
    exact absurd rfl hk
  rw [if_neg hdm] at hk
  have hrows : (∃ e, readRows s target "" .older (pageSize limit) = .error e) ∧ historyRows s target = [] := by
    by_cases ht : target.tail ≠ ""
    · rw [if_pos ht, decide_eq_true_iff, not_or] at hk
      refine ⟨⟨⟨"thread root not found: " ++ target.tail⟩, ?_⟩, ?_⟩
      · rw [readRows, if_neg hdm, if_pos ht, getThreadMessages, if_neg ht, if_pos hk]
      · refine List.eq_nil_iff_forall_not_mem.2 fun m hm => ?_
        obtain ⟨hrow, hmatch⟩ := mem_historyRows.1 hm
        rw [matching, if_neg hdm, if_pos ht, decide_eq_true_iff, inThread, decide_eq_true_iff] at hmatch
        rcases hmatch.1 with he | hroot
        · exact hk.1 (by rw [hasMessage, ← he, Table.get?_of_mem hrow]; rfl)
        · exact hk.2 (List.any_eq_true.2 ⟨m, hrow, decide_eq_true hroot⟩)
    · rw [if_neg ht] at hk
      refine ⟨⟨⟨"channel not found: " ++ target.channelId⟩, ?_⟩, ?_⟩
      · rw [readRows, if_neg hdm, if_neg ht, getChannelRoots, if_pos hk]
        rfl
      · refine List.eq_nil_iff_forall_not_mem.2 fun m hm => ?_
        obtain ⟨hrow, hmatch⟩ := mem_historyRows.1 hm
        rw [matching, if_neg hdm, if_neg ht, decide_eq_true_iff] at hmatch
        apply hk
        rw [channelExists, decide_eq_true_iff]
        exact ⟨parse_channelId hp hdm, List.any_eq_true.2 ⟨m, hrow, decide_eq_true hmatch.1⟩⟩
  obtain ⟨⟨e, he⟩, hnil⟩ := hrows
  refine ⟨?_, hnil⟩
  have hstart : resolveHistoryWindow floats t "" "" "" = .ok ⟨t, .older, ""⟩ := by
    simp [resolveHistoryWindow, parse_ne_empty hp]
  rw [readFrom, readHistoryMessages, hstart]
  simp only [hp, ne_eq, not_true_eq_false, false_and, if_false, he]

/-- Every row of a direct conversation can be an anchor of it. -/
theorem anchors_dm (hd : target.kind = "dm") {m : MessageRow} (hm : m ∈ historyRows s target) (hid : m.envelopeId ≠ "") :
    anchors s target m.envelopeId := by
  obtain ⟨hrow, hmatch⟩ := mem_historyRows.1 hm
  have hget : s.messages.get? m.envelopeId = some m := Table.get?_of_mem hrow
  rw [matching, if_pos hd, decide_eq_true_iff] at hmatch
  obtain ⟨hkind, hpeer, hvisible⟩ := hmatch
  rw [anchors, getVisibleMessageByEnvelope, if_neg hid, hget, Option.filter_some, if_pos hvisible]
  simp only [Option.map_some, Option.any_some, anchorMatchesTarget, if_pos hd, decide_eq_true_iff]
  exact ⟨hkind, hpeer⟩

end Exactness

/-- Reading back by the older cursors and forth by the newer ones shows every row of a target once and in
order iff the rows on both sides of each page boundary can be anchors of the target, as all rows of a
direct conversation can. Paging by sequences always does. -/
theorem history_exact_iff (floats : Json → Json → Comparison) (s : Tables) (hs : DistinctSequences s) (t : String)
    (target : InboxTarget) (hp : parseInboxTarget t = .ok target) (limit : Int) :
    (known s target → (Walked s floats t target limit ↔ BoundariesAnchored s target (pageSize limit))) ∧
    (¬ known s target →
      readFrom s floats t limit "" = .error (noSuchTarget target t) ∧ historyRows s target = []) ∧
    (target.kind = "dm" → (∀ m ∈ s.messages.rows, m.envelopeId ≠ "") → Walked s floats t target limit) ∧
    (∀ channelId, channelExists s channelId → Paged s (isRootOf channelId) (rootsBySequence s channelId limit)) ∧
    ∀ rootId, rootId ≠ "" → hasMessage s rootId ∨ s.messages.rows.any (·.threadRootId = some rootId) →
      Paged s (isVisibleIn rootId) (threadBySequence s rootId limit) := by
  refine ⟨walked_iff hp, fun hk => read_unknown hp hk limit, fun hd hids => ?_, fun channelId hk => roots_paged hs hk limit,
    fun rootId hr hk => thread_paged hs hr hk limit⟩
  have hk : known s target := by rw [known, if_pos hd]
  refine (walked_iff hp hk).2 fun l a b r he _ => ?_
  have hmem {m : MessageRow} (hm : m ∈ l ++ a :: b :: r) : anchors s target m.envelopeId := by
    rw [← he] at hm
    exact anchors_dm hd hm (hids m (mem_historyRows.1 hm).1)
  exact ⟨hmem (by simp), hmem (by simp)⟩

section Examples

def sampleRow (envelopeId : String) (sentAt : Int) : MessageRow :=
  { payloadValues { envelopeId, envelopeKind := "dm", senderSlug := "bob", sentAt } sentAt with
    receiptDisposition := some .eligible }

/-- Two messages of a direct conversation that were sent at one time. -/
def tied : Tables := { Tables.empty with messages := ⟨[sampleRow "e2" 5, sampleRow "e1" 5], by decide⟩ }

/-- Two replies in different channels that claim one root, which is not stored. -/
def claimedRoot : Tables := { Tables.empty with messages := ⟨[
  { sampleRow "e1" 1 with
    envelopeKind := "channel", spaceId := some "s", channelId := some "a", threadRootId := some "r"
    threadRootUnverified := true },
  { sampleRow "e2" 2 with
    envelopeKind := "channel", spaceId := some "s", channelId := some "b", threadRootId := some "r"
    threadRootUnverified := true }], by decide⟩ }

theorem tied_sequences : DistinctSequences tied := by
  intro k k' m m' seq hm _ hseq _
  have hrow := Table.mem_of_get? hm
  simp only [tied, List.mem_cons, List.not_mem_nil, or_false] at hrow
  rcases hrow with rfl | rfl <;> cases hseq

theorem history_exact_iff_tied : Walked tied (fun _ _ => .mismatch) "dm:bob" ⟨"dm", "", "", "bob"⟩ 1 :=
  (history_exact_iff _ tied tied_sequences "dm:bob" ⟨"dm", "", "", "bob"⟩ rfl 1).2.2.1 rfl (by
    intro m hm
    simp only [tied, List.mem_cons, List.not_mem_nil, or_false] at hm
    rcases hm with rfl | rfl
    · exact (by decide : "e2" ≠ "")
    · exact (by decide : "e1" ≠ ""))

/-- The newest window of the thread offers a cursor that the tool then refuses. -/
theorem offered_cursor_refused :
    let t := "channel:s:a:thread:r"
    let floats := fun _ _ => Comparison.mismatch
    (∃ w, readFrom claimedRoot floats t 1 "" = .ok w ∧ w.rows.map (·.envelopeId) = ["e2"] ∧ w.olderCursor ≠ "" ∧
      readFrom claimedRoot floats t 1 w.olderCursor =
        .error (.runtimeError "history boundary message does not belong to target")) ∧
      ¬ Walked claimedRoot floats t ⟨"channel", "s", "a", "r"⟩ 1 := by
  intro t floats
  have hp : parseInboxTarget t = .ok ⟨"channel", "s", "a", "r"⟩ := by
    rw [parseInboxTarget, if_neg (by decide +kernel),
      show split t ':' = ["channel", "s", "a", "thread", "r"] by decide +kernel]
    rfl
  have hk : known claimedRoot ⟨"channel", "s", "a", "r"⟩ := rfl
  obtain ⟨m₁, m₂, hR, hid⟩ : ∃ m₁ m₂, historyRows claimedRoot ⟨"channel", "s", "a", "r"⟩ = [m₁, m₂] ∧
      m₂.envelopeId = "e2" := ⟨_, _, rfl, rfl⟩
  have hbad : ¬ anchors claimedRoot ⟨"channel", "s", "a", "r"⟩ m₂.envelopeId := by
    rw [hid]
    decide
  refine ⟨⟨_, read_newest hp hk, ?_, ?_, ?_⟩, fun hw => ?_⟩
  · rw [hR]
    exact congrArg (fun id => [id]) hid
  · rw [hR]
    change (windowOf t [m₁] [m₂] []).olderCursor ≠ ""
    rw [older_eq, if_pos ⟨List.cons_ne_nil _ _, by rw [hid]; decide⟩]
    exact encode_ne_empty _
  · rw [hR]
    change readFrom _ _ _ _ (windowOf t [m₁] [m₂] []).olderCursor = _
    rw [older_eq, if_pos ⟨List.cons_ne_nil _ _, by rw [hid]; decide⟩]
    exact read_refused .older hp (by rw [hid]; decide) hbad
  · exact hbad (((walked_iff hp hk).1 hw [] m₁ m₂ [] hR ⟨1, rfl⟩).2)

end Examples
end PuffoAgent.History
