import PuffoAgent.History.Windows
import PuffoAgent.Store.Positions

/-! Walking a history by the cursors of its windows. -/
namespace PuffoAgent.History
open Relational Store Text Projection Inbox Sequences
open Reminders (InboxTarget parseInboxTarget)

section Rows
variable (s : Tables) (target : InboxTarget)

/-- The rows of a target. -/
def matching (m : MessageRow) : Bool :=
  if target.kind = "dm" then
    m.envelopeKind = "dm" ∧ (m.senderSlug = peerOf target ∨ m.recipientSlug = some (peerOf target)) ∧ notGated m
  else if target.tail ≠ "" then inThread target.tail m ∧ notGated m
  else m.channelId = some target.channelId ∧ m.threadRootId = none

/-- The history of a target, oldest first. -/
def historyRows : List MessageRow :=
  (s.messages.select (matching target)).insertionSort fun a b => sentOrder a ≤ sentOrder b

/-- The store has seen the target. -/
def known : Bool :=
  if target.kind = "dm" then true
  else if target.tail ≠ "" then hasMessage s target.tail ∨ s.messages.rows.any (·.threadRootId = some target.tail)
  else channelExists s target.channelId

end Rows

section Pages
variable {s : Tables} {target : InboxTarget} {rows : List MessageRow} {β : Type} [LinearOrder β] {order : MessageRow → β}

theorem nodup_sentOrder (h : (rows.map (·.envelopeId)).Nodup) : (rows.map sentOrder).Nodup := by
  refine List.Nodup.of_map (fun o => (ofLex o).2) ?_
  rwa [List.map_map]

theorem nodup_select (p : MessageRow → Bool) : ((s.messages.select p).map (·.envelopeId)).Nodup :=
  s.messages.nodup.sublist (List.filter_sublist.map _)

theorem historyRows_ascending : Ascending sentOrder (historyRows s target) :=
  ascending_sort (nodup_sentOrder (nodup_select _))

theorem newest_reverse (h : (rows.map order).Nodup) (k : Nat) :
    (newest order k rows).reverse = (rows.insertionSort fun a b => order a ≤ order b).rtake k := by
  rw [newest, if_neg (by omega), Int.toNat_natCast, sort_desc h, List.rtake_eq_reverse_take_reverse]

theorem oldest_eq (k : Nat) : oldest order k rows = (rows.insertionSort fun a b => order a ≤ order b).take k := by
  rw [oldest, if_neg (by omega), Int.toNat_natCast]

/-- The store clamps no limit of a window and its look-ahead row. -/
theorem clamp_probe {n : Nat} (h : n ≤ 200) : max 1 (min ((n : Int) + 1) 201) = ((n + 1 : Nat) : Int) := by omega

variable {n : Nat} {b : Bounds}

theorem page_upper (hn : n ≤ 200) (hs : b.since = none) (ha : b.afterSeq = none) (hb : b.beforeSeq = none)
    (h : (rows.map (·.envelopeId)).Nodup) :
    b.page ((n : Int) + 1) rows = (rows.insertionSort fun a b => sentOrder a ≤ sentOrder b).rtake (n + 1) := by
  rw [Bounds.page, clamp_probe hn, ← newest_reverse (nodup_sentOrder h), hs, ha, hb]
  rfl

theorem page_lower (hn : n ≤ 200) (hs : b.since.isSome) (hb' : b.before = none) (ha : b.afterSeq = none)
    (hb : b.beforeSeq = none) :
    b.page ((n : Int) + 1) rows = (rows.insertionSort fun a b => sentOrder a ≤ sentOrder b).take (n + 1) := by
  rw [Bounds.page, clamp_probe hn, ← oldest_eq, hs, hb', ha, hb]
  rfl

/-- The bounds of a window. -/
def anchorBounds (s : Tables) (anchor : String) (direction : Direction) : Bounds where
  since := resolveSinceSentAt s (if anchor ≠ "" ∧ direction = .newer then some anchor else none)
  before := resolveSinceSentAt s (if anchor ≠ "" ∧ direction = .older then some anchor else none)

theorem readRows_eq (hk : known s target) (anchor : String) (direction : Direction) :
    readRows s target anchor direction n = .ok (((anchorBounds s anchor direction).page ((n : Int) + 1)
      ((s.messages.select (matching target)).filter (anchorBounds s anchor direction).admits)).map rowToMsg) := by
  let bounds := anchorBounds s anchor direction
  have hsel {p : MessageRow → Bool} (hp : ∀ m, p m = (matching target m && bounds.admits m)) :
      s.messages.select p = (s.messages.select (matching target)).filter bounds.admits := by
    rw [Table.select, Table.select, List.filter_filter]
    refine List.filter_congr fun m _ => ?_
    rw [hp, Bool.and_comm]
  let page (rows : List MessageRow) : List StoredMessage := (bounds.page ((n : Int) + 1) rows).map rowToMsg
  unfold readRows
  unfold known at hk
  by_cases hdm : target.kind = "dm"
  · rw [if_pos hdm]
    refine congrArg (Except.ok ∘ page) (hsel fun m => ?_)
    simp only [matching, if_pos hdm, Bool.decide_and, Bool.decide_or, Bool.and_assoc, Bool.decide_eq_true]
    rfl
  · rw [if_neg hdm] at hk ⊢
    by_cases ht : target.tail ≠ ""
    · rw [if_pos ht] at hk ⊢
      rw [getThreadMessages, if_neg ht, if_neg (by simpa [or_iff_not_imp_left] using hk)]
      refine congrArg (Except.ok ∘ page) (hsel fun m => ?_)
      simp only [matching, if_neg hdm, if_pos ht, Bool.decide_and, Bool.and_assoc, Bool.decide_eq_true]
      rfl
    · rw [if_neg ht] at hk ⊢
      rw [getChannelRoots, if_neg (by simpa using hk)]
      simp only [Except.map, List.map_map]
      refine congrArg (Except.ok ∘ page) (hsel fun m => ?_)
      simp only [matching, if_neg hdm, if_neg ht, Bool.decide_and, Bool.and_assoc, Bool.decide_eq_true]
      rfl

theorem sentOrder_lt {m a : MessageRow} :
    sentOrder m < sentOrder a ↔ m.sentAt < a.sentAt ∨ m.sentAt = a.sentAt ∧ m.envelopeId < a.envelopeId :=
  Prod.Lex.toLex_lt_toLex

theorem resolve_row {a : MessageRow} (ha : a ∈ s.messages.rows) (hid : a.envelopeId ≠ "") :
    resolveSinceSentAt s (some a.envelopeId) = some (a.sentAt, a.envelopeId) := by
  have hget : s.messages.get? a.envelopeId = some a := Table.get?_of_mem ha
  rw [resolveSinceSentAt, Option.filter_some, if_pos (by simpa using hid), Option.bind_some, hget]
  rfl

theorem mem_historyRows {m : MessageRow} : m ∈ historyRows s target ↔ m ∈ s.messages.rows ∧ matching target m := by
  rw [historyRows, List.mem_insertionSort, Table.select, List.mem_filter]

theorem nodup_bounded (p q : MessageRow → Bool) : (((s.messages.select p).filter q).map (·.envelopeId)).Nodup :=
  (nodup_select p).sublist (List.filter_sublist.map _)

theorem readRows_newest (hk : known s target) (hn : n ≤ 200) :
    readRows s target "" .older n = .ok (((historyRows s target).rtake (n + 1)).map rowToMsg) := by
  rw [readRows_eq hk, page_upper hn rfl rfl rfl (nodup_bounded _ _)]
  have hall : (anchorBounds s "" .older).admits = fun _ => true := rfl
  rw [hall, List.filter_true]
  rfl

section Anchored
variable {l r : List MessageRow} {a : MessageRow}

theorem mem_rows_of_split (hR : historyRows s target = l ++ a :: r) : a ∈ s.messages.rows := by
  have ha : a ∈ historyRows s target := by simp [hR]
  exact (mem_historyRows.1 ha).1

theorem readRows_older (hk : known s target) (hn : n ≤ 200) (hR : historyRows s target = l ++ a :: r)
    (hid : a.envelopeId ≠ "") : readRows s target a.envelopeId .older n = .ok ((l.rtake (n + 1)).map rowToMsg) := by
  have hbounds : anchorBounds s a.envelopeId .older = { before := some (a.sentAt, a.envelopeId) } := by
    rw [anchorBounds, if_neg (by simp), if_pos ⟨hid, rfl⟩, resolve_row (mem_rows_of_split hR) hid]
    rfl
  have hadmits : (anchorBounds s a.envelopeId .older).admits = fun m => decide (sentOrder m < sentOrder a) := by
    funext m
    rw [hbounds]
    simp [Bounds.admits, sentOrder_lt]
  rw [readRows_eq hk, page_upper hn (by rw [hbounds]) rfl rfl (nodup_bounded _ _), hadmits,
    sort_filter (nodup_sentOrder (nodup_select _))]
  change Except.ok ((((historyRows s target).filter _).rtake _).map _) = _
  have hasc : Ascending sentOrder (l ++ a :: r) := hR ▸ historyRows_ascending
  rw [hR, hasc.below]

theorem readRows_newer (hk : known s target) (hn : n ≤ 200) (hR : historyRows s target = l ++ a :: r)
    (hid : a.envelopeId ≠ "") : readRows s target a.envelopeId .newer n = .ok ((r.take (n + 1)).map rowToMsg) := by
  have hbounds : anchorBounds s a.envelopeId .newer = { since := some (a.sentAt, a.envelopeId) } := by
    rw [anchorBounds, if_pos ⟨hid, rfl⟩, if_neg (by simp), resolve_row (mem_rows_of_split hR) hid]
    rfl
  have hadmits : (anchorBounds s a.envelopeId .newer).admits = fun m => decide (sentOrder a < sentOrder m) := by
    funext m
    rw [hbounds]
    have hsame : (m.sentAt = a.sentAt) = (a.sentAt = m.sentAt) := propext eq_comm
    simp [Bounds.admits, sentOrder_lt, hsame]
  rw [readRows_eq hk, page_lower hn (by rw [hbounds]; rfl) (by rw [hbounds]) rfl rfl, hadmits,
    sort_filter (nodup_sentOrder (nodup_select _))]
  change Except.ok ((((historyRows s target).filter _).take _).map _) = _
  have hasc : Ascending sentOrder (l ++ a :: r) := hR ▸ historyRows_ascending
  rw [hR, hasc.above]

end Anchored

end Pages

section Reads
variable {s : Tables} {target : InboxTarget} {floats : Json → Json → Comparison} {t : String} {limit : Int}

/-- The window on some rows with those before and after it. -/
def windowOf (t : String) (before rows after : List MessageRow) : Window :=
  let cursors := historyCursors (rows.map rowToMsg) t (before ≠ []) (after ≠ []) ""
  ⟨rows.map rowToMsg, before ≠ [], after ≠ [], cursors.1, cursors.2⟩

theorem decode_encode {c : HistoryCursor} (ht : c.target ≠ "") (ha : c.anchor ≠ "") :
    decodeHistoryCursor floats (encodeHistoryCursor c) = .ok c := by
  rw [decodeHistoryCursor, encodeHistoryCursor, decodeText_encodeText, Option.bind_some, Json.loads_dumpsAscii]
  obtain ⟨target, direction, anchor⟩ := c
  cases direction <;> simp_all [Json.member, compareItem, integer, Comparison.of, decodeDirection, Direction.name]

theorem encode_ne_empty (c : HistoryCursor) : encodeHistoryCursor c ≠ "" := by
  intro h
  have hread : decodeText (encodeHistoryCursor c) = _ := decodeText_encodeText _
  rw [h] at hread
  have hloads := Json.loads_dumpsAscii (Json.obj [("anchor", .str c.anchor), ("direction", .str c.direction.name),
    ("target", .str c.target), ("v", .int 1)])
  rw [← Option.some.inj hread] at hloads
  cases hloads

theorem parse_ne_empty (hp : parseInboxTarget t = .ok target) : t ≠ "" := by
  rintro rfl
  cases hp

theorem pageSize_pos (limit : Int) : 0 < pageSize limit := by
  unfold pageSize
  omega

theorem pageSize_le (limit : Int) : pageSize limit ≤ 200 := by
  unfold pageSize
  omega

theorem bounded_older {α β : Type} (f : α → β) (l : List α) (n : Nat) (anchored : Bool) :
    boundedWindow ((l.rtake (n + 1)).map f) n .older anchored =
      ((l.rtake n).map f, decide (l.rdrop n ≠ []), anchored) := by
  have hlen : (l.rtake (n + 1)).length = min (n + 1) l.length := by
    rw [List.rtake_eq_reverse_take_reverse, List.length_reverse, List.length_take, List.length_reverse]
  have hrows : (l.rtake (n + 1)).rtake n = l.rtake n := by
    rw [List.rtake_eq_reverse_take_reverse, List.rtake_eq_reverse_take_reverse (l := l), List.reverse_reverse,
      List.take_take, Nat.min_eq_left (Nat.le_succ n), ← List.rtake_eq_reverse_take_reverse]
  have hmap : ((l.rtake (n + 1)).map f).rtake n = ((l.rtake (n + 1)).rtake n).map f := by
    change ((l.rtake (n + 1)).map f).drop (((l.rtake (n + 1)).map f).length - n) = _
    rw [List.length_map, ← List.map_drop]
    rfl
  have hmore : n < ((l.rtake (n + 1)).map f).length ↔ l.rdrop n ≠ [] := by
    rw [List.length_map, hlen, ← List.length_pos_iff, List.rdrop, List.length_take]
    omega
  rw [boundedWindow, hmap, hrows]
  simp only [hmore]

theorem bounded_newer {α β : Type} (f : α → β) (l : List α) (n : Nat) (anchored : Bool) :
    boundedWindow ((l.take (n + 1)).map f) n .newer anchored =
      ((l.take n).map f, anchored, decide (l.drop n ≠ [])) := by
  have hmore : n < ((l.take (n + 1)).map f).length ↔ l.drop n ≠ [] := by
    rw [List.length_map, List.length_take, ← List.length_pos_iff, List.length_drop]
    omega
  rw [boundedWindow, ← List.map_take, List.take_take, Nat.min_eq_left (Nat.le_succ n)]
  simp only [hmore]

/-- The anchor names the edges of an empty window only. -/
theorem historyCursors_anchor {rows : List MessageRow} (h : rows ≠ []) (t anchor : String) (hasOlder hasNewer : Bool) :
    historyCursors (rows.map rowToMsg) t hasOlder hasNewer anchor =
      historyCursors (rows.map rowToMsg) t hasOlder hasNewer "" := by
  have hhead : (rows.map rowToMsg).head? = some ((rows.map rowToMsg).head (by simpa using h)) := List.head?_eq_some_head _
  have hlast : (rows.map rowToMsg).getLast? = some ((rows.map rowToMsg).getLast (by simpa using h)) :=
    List.getLast?_eq_some_getLast _
  rw [historyCursors, historyCursors, hhead, hlast]
  rfl

/-- What following a cursor of the target reads. -/
def readFrom (s : Tables) (floats : Json → Json → Comparison) (t : String) (limit : Int) (cursor : String) :
    Except ReadError Window :=
  readHistoryMessages s floats t cursor "" "" limit

/-- The newest window. -/
theorem read_newest (hp : parseInboxTarget t = .ok target) (hk : known s target) :
    readFrom s floats t limit "" = .ok (windowOf t ((historyRows s target).rdrop (pageSize limit))
      ((historyRows s target).rtake (pageSize limit)) []) := by
  have hstart : resolveHistoryWindow floats t "" "" "" = .ok ⟨t, .older, ""⟩ := by
    simp [resolveHistoryWindow, parse_ne_empty hp]
  rw [readFrom, readHistoryMessages, hstart]
  simp only [hp, ne_eq, not_true_eq_false, false_and, if_false, readRows_newest hk (pageSize_le limit), bounded_older]
  rfl

section Cursor
variable {l r : List MessageRow} {a : MessageRow} (direction : Direction)

theorem resolve_cursor (hp : parseInboxTarget t = .ok target) (ha : a.envelopeId ≠ "") :
    resolveHistoryWindow floats t (encodeHistoryCursor ⟨t, direction, a.envelopeId⟩) "" "" =
      .ok ⟨t, direction, a.envelopeId⟩ := by
  rw [resolveHistoryWindow, if_pos (encode_ne_empty _), if_neg (by simp), decode_encode (parse_ne_empty hp) ha]
  simp

theorem id_of_anchors (h : anchors s target a.envelopeId) : a.envelopeId ≠ "" := by
  intro he
  rw [he] at h
  cases h

/-- A cursor whose row the target does not have is refused. -/
theorem read_refused (hp : parseInboxTarget t = .ok target) (ha : a.envelopeId ≠ "")
    (h : ¬ anchors s target a.envelopeId) :
    readFrom s floats t limit (encodeHistoryCursor ⟨t, direction, a.envelopeId⟩) =
      .error (.runtimeError "history boundary message does not belong to target") := by
  rw [readFrom, readHistoryMessages, resolve_cursor direction hp ha]
  simp only [hp]
  rw [if_pos ⟨ha, h⟩]

theorem read_older (hp : parseInboxTarget t = .ok target) (hk : known s target) (hR : historyRows s target = l ++ a :: r)
    (ha : anchors s target a.envelopeId) (hl : l ≠ []) :
    readFrom s floats t limit (encodeHistoryCursor ⟨t, .older, a.envelopeId⟩) =
      .ok (windowOf t (l.rdrop (pageSize limit)) (l.rtake (pageSize limit)) (a :: r)) := by
  have hid := id_of_anchors ha
  have hne : l.rtake (pageSize limit) ≠ [] := by
    have hlen : (l.rtake (pageSize limit)).length = min (pageSize limit) l.length := by
      rw [List.rtake_eq_reverse_take_reverse, List.length_reverse, List.length_take, List.length_reverse]
    have := List.length_pos_iff.2 hl
    have := pageSize_pos limit
    rw [← List.length_pos_iff]
    omega
  rw [readFrom, readHistoryMessages, resolve_cursor .older hp hid]
  simp only [hp, readRows_older hk (pageSize_le limit) hR hid, bounded_older, historyCursors_anchor hne]
  rw [if_neg fun h => h.2 ha]
  simp [windowOf, hid]

theorem read_newer (hp : parseInboxTarget t = .ok target) (hk : known s target) (hR : historyRows s target = l ++ a :: r)
    (ha : anchors s target a.envelopeId) (hr : r ≠ []) :
    readFrom s floats t limit (encodeHistoryCursor ⟨t, .newer, a.envelopeId⟩) =
      .ok (windowOf t (l ++ [a]) (r.take (pageSize limit)) (r.drop (pageSize limit))) := by
  have hid := id_of_anchors ha
  have hne : r.take (pageSize limit) ≠ [] := by
    have := pageSize_pos limit
    simp [List.take_eq_nil_iff, hr]
    omega
  rw [readFrom, readHistoryMessages, resolve_cursor .newer hp hid]
  simp only [hp, readRows_newer hk (pageSize_le limit) hR hid, bounded_newer, historyCursors_anchor hne]
  rw [if_neg fun h => h.2 ha]
  simp [windowOf, hid]

end Cursor

end Reads
/-- The rows of a window. -/
def Window.rows (w : Window) : List MessageRow := w.messages.map (·.row)

section Walks
variable {s : Tables} {target : InboxTarget} {floats : Json → Json → Comparison} {t : String} {limit : Int}
  {before rows after : List MessageRow} {a : MessageRow} {w : Window}

/-- A cursor that a window offers. -/
def offered (cursor : String) : Option String := if cursor = "" then none else some cursor

theorem offered_encode (c : HistoryCursor) : offered (encodeHistoryCursor c) = some (encodeHistoryCursor c) :=
  if_neg (encode_ne_empty c)

theorem older_eq : (windowOf t before (a :: rows) after).olderCursor =
    if before ≠ [] ∧ a.envelopeId ≠ "" then encodeHistoryCursor ⟨t, .older, a.envelopeId⟩ else "" := by
  simp [windowOf, historyCursors, rowToMsg]

theorem newer_eq : (windowOf t before (rows ++ [a]) after).newerCursor =
    if after ≠ [] ∧ a.envelopeId ≠ "" then encodeHistoryCursor ⟨t, .newer, a.envelopeId⟩ else "" := by
  simp [windowOf, historyCursors, rowToMsg]

theorem older_none (h : before = []) : (windowOf t before rows after).olderCursor = "" := by
  simp [windowOf, historyCursors, h]

theorem newer_none (h : after = []) : (windowOf t before rows after).newerCursor = "" := by
  simp [windowOf, historyCursors, h]

@[simp]
theorem windowOf_rows (t : String) (before rows after : List MessageRow) : (windowOf t before rows after).rows = rows := by
  change (rows.map rowToMsg).map (·.row) = rows
  rw [List.map_map]
  exact List.map_id rows

/-- A window of the walks: it is full unless it is the oldest one, and so are all the newer ones. -/
structure Place (all : List MessageRow) (t : String) (n : Nat) (w : Window) (before rows after : List MessageRow) :
    Prop where
  window : w = windowOf t before rows after
  split : all = before ++ rows ++ after
  some : rows ≠ []
  small : rows.length ≤ n
  after_dvd : n ∣ after.length
  before_dvd : before ≠ [] → n ∣ (rows ++ after).length

/-- The rows on both sides of every boundary between full windows can be anchors of the target. -/
def BoundariesAnchored (s : Tables) (target : InboxTarget) (n : Nat) : Prop :=
  ∀ l a b r, historyRows s target = l ++ a :: b :: r → n ∣ (b :: r).length →
    anchors s target a.envelopeId ∧ anchors s target b.envelopeId

/-- A place of the walk towards the oldest window. -/
def OlderAt (s : Tables) (target : InboxTarget) (t : String) (n : Nat) (w : Window) (taken rest : List MessageRow) : Prop :=
  ∃ before rows after, Place (historyRows s target) t n w before rows after ∧ rest = before.reverse ∧
    taken = (rows ++ after).reverse

/-- A place of the walk towards the newest window. -/
def NewerAt (s : Tables) (target : InboxTarget) (t : String) (n : Nat) (w : Window) (taken rest : List MessageRow) : Prop :=
  ∃ before rows after, Place (historyRows s target) t n w before rows after ∧ rest = after ∧ taken = before ++ rows

section Moves
variable {all : List MessageRow} {n : Nat}

theorem length_rtake {α : Type} (l : List α) (n : Nat) : (l.rtake n).length = min n l.length := by
  rw [List.rtake_eq_reverse_take_reverse, List.length_reverse, List.length_take, List.length_reverse]

theorem rdrop_append_rtake {α : Type} (l : List α) (n : Nat) : l.rdrop n ++ l.rtake n = l := List.take_append_drop _ l

theorem Place.older (h : Place all t n w before rows after) (hn : 0 < n) (hb : before ≠ []) :
    Place all t n (windowOf t (before.rdrop n) (before.rtake n) (rows ++ after)) (before.rdrop n) (before.rtake n)
      (rows ++ after) := by
  have hpos := List.length_pos_iff.2 hb
  refine ⟨rfl, ?_, ?_, ?_, h.before_dvd hb, fun hd => ?_⟩
  · rw [rdrop_append_rtake, ← List.append_assoc, ← h.split]
  · rw [← List.length_pos_iff, length_rtake]
    omega
  · rw [length_rtake]
    omega
  · have hfull : (before.rtake n).length = n := by
      have := List.length_pos_iff.2 hd
      rw [List.rdrop, List.length_take] at this
      rw [length_rtake]
      omega
    rw [List.length_append, hfull]
    exact Nat.dvd_add (Nat.dvd_refl n) (h.before_dvd hb)

theorem Place.newer (h : Place all t n w before rows after) (hn : 0 < n) (ha : after ≠ []) :
    Place all t n (windowOf t (before ++ rows) (after.take n) (after.drop n)) (before ++ rows) (after.take n)
      (after.drop n) := by
  have hpos := List.length_pos_iff.2 ha
  have hle : n ≤ after.length := Nat.le_of_dvd hpos h.after_dvd
  refine ⟨rfl, ?_, ?_, ?_, ?_, fun _ => ?_⟩
  · rw [List.append_assoc, List.take_append_drop, ← h.split]
  · rw [← List.length_pos_iff, List.length_take]
    omega
  · rw [List.length_take]
    omega
  · rw [List.length_drop]
    exact Nat.dvd_sub h.after_dvd (Nat.dvd_refl n)
  · rw [List.take_append_drop]
    exact h.after_dvd

end Moves

/-- The last row taken is the first of the window. -/
theorem OlderAt.head {n : Nat} {taken rest : List MessageRow} (h : OlderAt s target t n w (taken ++ [a]) rest)
    (hrest : rest ≠ []) : ∃ before rows after, Place (historyRows s target) t n w before (a :: rows) after ∧
      before ≠ [] ∧ rest = before.reverse ∧ taken = (rows ++ after).reverse := by
  obtain ⟨before, rows, after, hw, rfl, htaken⟩ := h
  obtain ⟨b, rows, rfl⟩ := List.exists_cons_of_ne_nil hw.some
  have heq : b :: (rows ++ after) = a :: taken.reverse := by simpa using (congrArg List.reverse htaken).symm
  obtain ⟨rfl, htail⟩ := List.cons.inj heq
  exact ⟨before, rows, after, hw, fun h => hrest (List.reverse_eq_nil_iff.2 h), rfl, by rw [htail, List.reverse_reverse]⟩

theorem older_chunked (hp : parseInboxTarget t = .ok target) (hk : known s target) :
    Chunked (readFrom s floats t limit) (fun w => offered w.olderCursor) (fun w => w.rows.reverse)
      (fun a => anchors s target a.envelopeId) (pageSize limit) (OlderAt s target t (pageSize limit)) := by
  refine ⟨?_, ?_, ?_⟩
  · rintro w taken ⟨before, rows, after, hw, hrest, -⟩
    have hb : before = [] := List.reverse_eq_nil_iff.1 hrest.symm
    rw [hw.window, older_none hb]
    rfl
  · intro w taken a rest hat hrest hgood
    obtain ⟨before, rows, after, hw, hb, rfl, rfl⟩ := hat.head hrest
    have hsplit : historyRows s target = before ++ a :: (rows ++ after) := by simpa using hw.split
    refine ⟨_, _, ?_, read_older hp hk hsplit hgood hb, ?_, before.rdrop (pageSize limit), before.rtake (pageSize limit),
      a :: (rows ++ after), hw.older (pageSize_pos limit) hb, ?_, ?_⟩
    · rw [hw.window, older_eq, if_pos ⟨hb, id_of_anchors hgood⟩, offered_encode]
    · rw [windowOf_rows, List.rtake_eq_reverse_take_reverse, List.reverse_reverse]
    · rw [List.rdrop_eq_reverse_drop_reverse, List.reverse_reverse]
    · simp [List.rtake_eq_reverse_take_reverse]
  · intro w taken a rest k hat hrest hbad hk'
    obtain ⟨before, rows, after, hw, hb, rfl, rfl⟩ := hat.head hrest
    rw [hw.window, older_eq] at hk'
    by_cases hid : a.envelopeId = ""
    · rw [if_neg fun h => h.2 hid] at hk'
      cases hk'
    · rw [if_pos ⟨hb, hid⟩, offered_encode] at hk'
      obtain rfl := Option.some.inj hk'
      exact ⟨_, read_refused .older hp hid hbad⟩

/-- The last row taken is the last of the window. -/
theorem NewerAt.last {n : Nat} {taken rest : List MessageRow} (h : NewerAt s target t n w (taken ++ [a]) rest) :
    ∃ before rows, Place (historyRows s target) t n w before (rows ++ [a]) rest ∧ taken = before ++ rows := by
  obtain ⟨before, rows, after, hw, rfl, htaken⟩ := h
  have hlast : rows.dropLast ++ [rows.getLast hw.some] = rows := List.dropLast_append_getLast hw.some
  rw [← hlast, ← List.append_assoc] at htaken
  obtain ⟨rfl, ha⟩ := List.append_inj' htaken rfl
  rw [← List.singleton_inj.1 ha] at hlast
  exact ⟨before, rows.dropLast, by rwa [hlast], rfl⟩

theorem newer_chunked (hp : parseInboxTarget t = .ok target) (hk : known s target) :
    Chunked (readFrom s floats t limit) (fun w => offered w.newerCursor) Window.rows
      (fun a => anchors s target a.envelopeId) (pageSize limit) (NewerAt s target t (pageSize limit)) := by
  refine ⟨?_, ?_, ?_⟩
  · rintro w taken ⟨before, rows, after, hw, hrest, -⟩
    rw [hw.window, newer_none hrest.symm]
    rfl
  · intro w taken a rest hat hrest hgood
    obtain ⟨before, rows, hw, rfl⟩ := hat.last
    have hsplit : historyRows s target = (before ++ rows) ++ a :: rest := by simpa using hw.split
    refine ⟨_, _, ?_, read_newer hp hk hsplit hgood hrest, windowOf_rows _ _ _ _, before ++ (rows ++ [a]),
      rest.take (pageSize limit), rest.drop (pageSize limit), ?_, rfl, by simp⟩
    · rw [hw.window, newer_eq, if_pos ⟨hrest, id_of_anchors hgood⟩, offered_encode]
    · rw [List.append_assoc]
      exact hw.newer (pageSize_pos limit) hrest
  · intro w taken a rest k hat hrest hbad hk'
    obtain ⟨before, rows, hw, rfl⟩ := hat.last
    rw [hw.window, newer_eq] at hk'
    by_cases hid : a.envelopeId = ""
    · rw [if_neg fun h => h.2 hid] at hk'
      cases hk'
    · rw [if_pos ⟨hrest, hid⟩, offered_encode] at hk'
      obtain rfl := Option.some.inj hk'
      exact ⟨_, read_refused .newer hp hid hbad⟩

theorem older_walk_iff (hp : parseInboxTarget t = .ok target) (hk : known s target)
    (hw : Place (historyRows s target) t (pageSize limit) w before rows []) :
    (∃ back, Onward (readFrom s floats t limit) (fun w => offered w.olderCursor) w back ∧
        back.flatMap (fun w => w.rows.reverse) = before.reverse) ↔
      ∀ l a b r, historyRows s target = l ++ a :: b :: r → pageSize limit ∣ (b :: r).length →
        anchors s target b.envelopeId := by
  have hat : OlderAt s target t (pageSize limit) w rows.reverse before.reverse :=
    ⟨before, rows, [], hw, rfl, by rw [List.append_nil]⟩
  rw [(older_chunked hp hk).onward_iff (pageSize_pos limit) hat (by simpa using hw.some)]
  have hall : historyRows s target = before ++ rows := by simpa using hw.split
  have hfull : before ≠ [] → rows.length = pageSize limit := by
    intro hb
    have hdvd := hw.before_dvd hb
    rw [List.append_nil] at hdvd
    exact le_antisymm hw.small (Nat.le_of_dvd (List.length_pos_iff.2 hw.some) hdvd)
  constructor
  · intro h l a b r he hdvd
    have hlen := congrArg List.length (hall.symm.trans he)
    simp only [List.length_append, List.length_cons] at hlen hdvd
    have hle := Nat.le_of_dvd (Nat.succ_pos _) hdvd
    have hb : before ≠ [] := by
      rintro rfl
      have := hw.small
      simp only [List.length_nil] at hlen
      omega
    refine h r.reverse b a l.reverse ?_ ?_ ?_
    · rw [← List.reverse_append, ← hall, he]
      simp
    · rw [List.length_reverse, List.length_reverse, hfull hb]
      exact hle
    · rw [List.length_reverse, List.length_reverse, hfull hb]
      exact Nat.dvd_sub hdvd (Nat.dvd_refl _)
  · intro h l a b r he hle hdvd
    have hrev : historyRows s target = r.reverse ++ b :: a :: l.reverse := by
      rw [hall, ← List.reverse_inj, List.reverse_append, he]
      simp
    have hlen := congrArg List.length he
    simp only [List.length_append, List.length_cons, List.length_reverse] at hlen hle hdvd
    have hb : before ≠ [] := by
      rintro rfl
      simp only [List.length_nil] at hlen
      omega
    refine h r.reverse b a l.reverse hrev ?_
    rw [List.length_cons, List.length_reverse]
    rw [hfull hb] at hle hdvd
    have := Nat.dvd_add hdvd (Nat.dvd_refl (pageSize limit))
    rwa [Nat.sub_add_cancel hle] at this

theorem newer_walk_iff (hp : parseInboxTarget t = .ok target) (hk : known s target)
    (hw : Place (historyRows s target) t (pageSize limit) w [] rows after) :
    (∃ forth, Onward (readFrom s floats t limit) (fun w => offered w.newerCursor) w forth ∧
        forth.flatMap Window.rows = after) ↔
      ∀ l a b r, historyRows s target = l ++ a :: b :: r → pageSize limit ∣ (b :: r).length →
        anchors s target a.envelopeId := by
  have hat : NewerAt s target t (pageSize limit) w rows after := ⟨[], rows, after, hw, rfl, rfl⟩
  rw [(newer_chunked hp hk).onward_iff (pageSize_pos limit) hat hw.some]
  have hall : historyRows s target = rows ++ after := hw.split
  obtain ⟨q, hq⟩ := hw.after_dvd
  have hsmall := hw.small
  have hpos := List.length_pos_iff.2 hw.some
  constructor
  · intro h l a b r he hdvd
    have hlen := congrArg List.length (hall.symm.trans he)
    simp only [List.length_append, List.length_cons] at hlen hdvd
    obtain ⟨q', hq'⟩ := hdvd
    -- the boundary lies a whole number of windows before the end, as the end of this window does
    have hcount : q' ≤ q := by
      by_contra hlt
      have := Nat.mul_le_mul_left (pageSize limit) (Nat.succ_le_of_lt (not_le.1 hlt))
      rw [Nat.mul_succ] at this
      omega
    have hmul := Nat.mul_le_mul_left (pageSize limit) hcount
    refine h l a b r (hall.symm.trans he) (by omega) ⟨q - q', ?_⟩
    rw [Nat.mul_sub]
    omega
  · intro h l a b r he hle hdvd
    refine h l a b r (hall.trans he) ?_
    have hlen := congrArg List.length he
    simp only [List.length_append, List.length_cons] at hlen
    have heq : (b :: r).length = after.length - (l.length + 1 - rows.length) := by
      rw [List.length_cons]
      omega
    rw [heq]
    exact Nat.dvd_sub hw.after_dvd hdvd

/-- A window offers a cursor wherever there are rows beyond it. -/
structure Offers (all : List MessageRow) (w : Window) : Prop where
  older : ∀ r ∈ all, (∀ m ∈ w.rows, sentOrder r < sentOrder m) → w.olderCursor ≠ ""
  newer : ∀ r ∈ all, (∀ m ∈ w.rows, sentOrder m < sentOrder r) → w.newerCursor ≠ ""

theorem Place.offers {n : Nat} (h : Place (historyRows s target) t n w before rows after)
    (hc : BoundariesAnchored s target n) : Offers (historyRows s target) w := by
  have hasc : Ascending sentOrder (before ++ rows ++ after) := h.split ▸ historyRows_ascending
  obtain ⟨hleft, -, hright⟩ := List.pairwise_append.1 hasc
  obtain ⟨-, -, hinner⟩ := List.pairwise_append.1 hleft
  have hrows : w.rows = rows := by rw [h.window, windowOf_rows]
  obtain ⟨first, tail, hfirst⟩ := List.exists_cons_of_ne_nil h.some
  have hmem : first ∈ rows := by simp [hfirst]
  have hany {r : MessageRow} (hr : r ∈ historyRows s target) : r ∈ before ∨ r ∈ rows ∨ r ∈ after := by
    rw [h.split] at hr
    simpa [or_assoc] using hr
  constructor
  · intro r hr hlt
    rw [hrows] at hlt
    have hb : before ≠ [] := by
      rintro rfl
      rcases hany hr with hr | hr | hr
      · exact absurd hr List.not_mem_nil
      · exact lt_irrefl _ (hlt r hr)
      · exact lt_asymm (hlt first hmem) (hright first (by simpa using hmem) r hr)
    obtain ⟨l, a, hlast⟩ : ∃ l a, before = l ++ [a] := ⟨_, _, (List.dropLast_append_getLast hb).symm⟩
    have hsplit : historyRows s target = l ++ a :: first :: (tail ++ after) := by rw [h.split, hlast, hfirst]; simp
    have hanchor := (hc l a first (tail ++ after) hsplit (by simpa [hfirst] using h.before_dvd hb)).2
    rw [h.window, hfirst, older_eq, if_pos ⟨hb, id_of_anchors hanchor⟩]
    exact encode_ne_empty _
  · intro r hr hlt
    rw [hrows] at hlt
    have ha : after ≠ [] := by
      rintro rfl
      rcases hany hr with hr | hr | hr
      · exact lt_asymm (hlt first hmem) (hinner r hr first hmem)
      · exact lt_irrefl _ (hlt r hr)
      · exact absurd hr List.not_mem_nil
    obtain ⟨b, r', rfl⟩ := List.exists_cons_of_ne_nil ha
    obtain ⟨l, a, hlast⟩ : ∃ l a, rows = l ++ [a] := ⟨_, _, (List.dropLast_append_getLast h.some).symm⟩
    have hsplit : historyRows s target = (before ++ l) ++ a :: b :: r' := by rw [h.split, hlast]; simp
    have hanchor := (hc (before ++ l) a b r' hsplit h.after_dvd).1
    rw [h.window, hlast, newer_eq, if_pos ⟨ha, id_of_anchors hanchor⟩]
    exact encode_ne_empty _

/-- Following the older cursors from the newest window, and then the newer ones back, shows every row
of the target once and in order. -/
def Walked (s : Tables) (floats : Json → Json → Comparison) (t : String) (target : InboxTarget) (limit : Int) : Prop :=
  ∃ newest back forth, readFrom s floats t limit "" = .ok newest ∧
    Onward (readFrom s floats t limit) (fun w => offered w.olderCursor) newest back ∧
    (newest :: back).reverse.flatMap Window.rows = historyRows s target ∧
    Onward (readFrom s floats t limit) (fun w => offered w.newerCursor)
      ((newest :: back).getLast (List.cons_ne_nil _ _)) forth ∧
    ((newest :: back).getLast (List.cons_ne_nil _ _) :: forth).flatMap Window.rows = historyRows s target ∧
    ∀ w ∈ newest :: back ++ forth, Offers (historyRows s target) w

theorem place_newest (hR : historyRows s target ≠ []) {n : Nat} (hn : 0 < n) :
    Place (historyRows s target) t n (windowOf t ((historyRows s target).rdrop n) ((historyRows s target).rtake n) [])
      ((historyRows s target).rdrop n) ((historyRows s target).rtake n) [] := by
  have hpos := List.length_pos_iff.2 hR
  refine ⟨rfl, ?_, ?_, ?_, ⟨0, rfl⟩, fun hd => ?_⟩
  · rw [rdrop_append_rtake, List.append_nil]
  · rw [← List.length_pos_iff, length_rtake]
    omega
  · rw [length_rtake]
    omega
  · have := List.length_pos_iff.2 hd
    rw [List.rdrop, List.length_take] at this
    have hfull : ((historyRows s target).rtake n ++ []).length = n := by
      rw [List.append_nil, length_rtake]
      omega
    exact ⟨1, by rw [hfull, Nat.mul_one]⟩

theorem walked_iff (hp : parseInboxTarget t = .ok target) (hk : known s target) :
    Walked s floats t target limit ↔ BoundariesAnchored s target (pageSize limit) := by
  by_cases hR : historyRows s target = []
  · refine iff_of_true ⟨_, [], [], read_newest hp hk, .done ?_, ?_, .done ?_, ?_, ?_⟩ ?_
    · rw [older_none (by rw [hR, List.rdrop_nil])]
      rfl
    · simp [hR]
    · rw [List.getLast_singleton, newer_none rfl]
      rfl
    · simp [hR]
    · intro w _
      rw [hR]
      exact ⟨fun r hr => absurd hr List.not_mem_nil, fun r hr => absurd hr List.not_mem_nil⟩
    · intro l a b r he _
      rw [hR] at he
      simp at he
  set n := pageSize limit with hn
  have hw := place_newest (t := t) hR (pageSize_pos limit)
  rw [← hn] at hw
  set newest := windowOf t ((historyRows s target).rdrop n) ((historyRows s target).rtake n) [] with hnewest
  have hread : readFrom s floats t limit "" = .ok newest := read_newest hp hk
  have hrows : newest.rows = (historyRows s target).rtake n := windowOf_rows _ _ _ _
  have hat : OlderAt s target t n newest newest.rows.reverse ((historyRows s target).rdrop n).reverse :=
    ⟨_, _, [], hw, rfl, by rw [hrows, List.append_nil]⟩
  have hne : newest.rows.reverse ≠ [] := by simpa [hrows] using hw.some
  have hturn (ws : List Window) : ws.flatMap (fun w => w.rows.reverse) = (ws.reverse.flatMap Window.rows).reverse := by
    rw [List.reverse_flatMap, List.reverse_reverse]
    rfl
  have hflat (back : List Window) : (newest :: back).reverse.flatMap Window.rows = historyRows s target ↔
      back.flatMap (fun w => w.rows.reverse) = ((historyRows s target).rdrop n).reverse := by
    rw [hturn, List.reverse_inj, List.reverse_cons, List.flatMap_append, List.flatMap_singleton, hrows]
    conv_lhs => rhs; rw [← rdrop_append_rtake (historyRows s target) n]
    exact List.append_left_inj _
  -- where the walk towards the oldest window ends
  have hend {back : List Window} (hon : Onward (readFrom s floats t limit) (fun w => offered w.olderCursor) newest back)
      (hback : back.flatMap (fun w => w.rows.reverse) = ((historyRows s target).rdrop n).reverse) :
      ∃ rows after, Place (historyRows s target) t n ((newest :: back).getLast (List.cons_ne_nil _ _)) [] rows after := by
    obtain ⟨before, rows, after, hlast, hbefore, -⟩ := (older_chunked hp hk).last hat hne hon hback
    obtain rfl := List.reverse_eq_nil_iff.1 hbefore.symm
    exact ⟨rows, after, hlast⟩
  have hshown {v : Window} {rows after : List MessageRow} (hv : Place (historyRows s target) t n v [] rows after)
      (forth : List Window) : (v :: forth).flatMap Window.rows = historyRows s target ↔ forth.flatMap Window.rows = after := by
    rw [hv.split, List.flatMap_cons, hv.window, windowOf_rows, List.nil_append]
    exact List.append_right_inj _
  constructor
  · rintro ⟨newest', back, forth, hread', hon, hback, hon', hforth, -⟩
    obtain rfl : newest = newest' := Except.ok.inj (hread.symm.trans hread')
    rw [hflat] at hback
    obtain ⟨rows, after, hv⟩ := hend hon hback
    have hright := (older_walk_iff hp hk hw).1 ⟨back, hon, hback⟩
    have hleft := (newer_walk_iff hp hk hv).1 ⟨forth, hon', (hshown hv forth).1 hforth⟩
    exact fun l a b r he hdvd => ⟨hleft l a b r he hdvd, hright l a b r he hdvd⟩
  · intro hc
    obtain ⟨back, hon, hback⟩ := (older_walk_iff hp hk hw).2 fun l a b r he hdvd => (hc l a b r he hdvd).2
    obtain ⟨rows, after, hv⟩ := hend hon hback
    obtain ⟨forth, hon', hforth⟩ := (newer_walk_iff hp hk hv).2 fun l a b r he hdvd => (hc l a b r he hdvd).1
    refine ⟨newest, back, forth, hread, hon, (hflat back).2 hback, hon', (hshown hv forth).2 hforth, fun w hmem => ?_⟩
    rcases List.mem_append.1 hmem with hmem | hmem
    · obtain ⟨taken, rest, before, rows, after, hplace, -⟩ := (older_chunked hp hk).every hat hne hon w hmem
      exact hplace.offers hc
    · obtain ⟨taken, rest, before, rows, after, hplace, -⟩ :=
        (newer_chunked hp hk).every ⟨[], rows, after, hv, rfl, rfl⟩ hv.some hon' w (List.mem_cons_of_mem _ hmem)
      exact hplace.offers hc

end Walks
end PuffoAgent.History
