import PuffoAgent.Inbox.Pages
import PuffoAgent.Inbox.Replay
import PuffoAgent.Store.Visibility
import Mathlib.Order.WithBot
import Mathlib.Data.Int.ConditionallyCompleteOrder
import Mathlib.Order.ConditionallyCompleteLattice.Basic

/-! Walking the Inbox by its cursors, with any writes between two calls. -/
namespace PuffoAgent.Inbox
open Relational Store Machine Text Projection

/-- A place in the Inbox order. -/
abbrev Position := Int ×ₗ ℕ ×ₗ ℕ ×ₗ String

section Cursors
variable (floats : Json → Json → Comparison)

/-- A cursor is read back as it was written. -/
theorem decode_encode (c : InboxCursor) : decodeInboxCursor floats (encodeInboxCursor c) = .ok c := by
  rw [decodeInboxCursor, encodeInboxCursor, decodeText_encodeText, Option.bind_some, Json.loads_dumpsAscii]
  rfl

theorem encodeInboxCursor_ne_empty (c : InboxCursor) : encodeInboxCursor c ≠ "" := by
  intro h
  have hread := decode_encode (fun _ _ => .mismatch) c
  rw [h] at hread
  cases hread

@[simp]
theorem compareItem_int (m n : Int) : compareItem floats (.int m) (.int n) = .of m n := rfl

@[simp]
theorem compareItem_str (x y : String) : compareItem floats (.str x) (.str y) = .of x y := rfl

theorem tupleLt_cons {α : Type} [LinearOrder α] {a b : Json} {x y : α} (h : compareItem floats a b = .of x y)
    {as bs : List Json} {p : Prop} [Decidable p] (hp : tupleLt floats as bs = .ok (decide p)) :
    tupleLt floats (a :: as) (b :: bs) = .ok (decide (x < y ∨ x = y ∧ p)) := by
  rw [tupleLt, h, Comparison.of]
  rcases lt_trichotomy x y with hlt | rfl | hgt
  · simp [hlt, hlt.ne]
  · simp [hp]
  · simp [hgt.ne', hgt.asymm]

theorem tupleLe_cons {α : Type} [LinearOrder α] {a b : Json} {x y : α} (h : compareItem floats a b = .of x y)
    {as bs : List Json} {p : Prop} [Decidable p] (hp : tupleLe floats as bs = .ok (decide p)) :
    tupleLe floats (a :: as) (b :: bs) = .ok (decide (x < y ∨ x = y ∧ p)) := by
  rw [tupleLe, h, Comparison.of]
  rcases lt_trichotomy x y with hlt | rfl | hgt
  · simp [hlt, hlt.ne]
  · simp [hp]
  · simp [hgt.ne', hgt.asymm]

/-- Cursors compare positions as the Inbox order does. -/
theorem tupleLt_orderItems (a b : Position) : tupleLt floats (orderItems a) (orderItems b) = .ok (decide (a < b)) := by
  have hend : tupleLt floats [] [] = .ok (decide False) := rfl
  rw [orderItems, orderItems, tupleLt_cons floats (compareItem_int floats _ _)
    (tupleLt_cons floats (compareItem_int floats _ _) (tupleLt_cons floats (compareItem_int floats _ _)
      (tupleLt_cons floats (compareItem_str floats _ _) hend)))]
  congr 2
  simp only [Prod.Lex.lt_iff, Int.ofNat_lt, Int.natCast_inj, and_false, or_false]
  rfl

theorem tupleLe_orderItems (a b : Position) : tupleLe floats (orderItems a) (orderItems b) = .ok (decide (a ≤ b)) := by
  have hend : tupleLe floats [] [] = .ok (decide True) := rfl
  rw [orderItems, orderItems, tupleLe_cons floats (compareItem_int floats _ _)
    (tupleLe_cons floats (compareItem_int floats _ _) (tupleLe_cons floats (compareItem_int floats _ _)
      (tupleLe_cons floats (compareItem_str floats _ _) hend)))]
  congr 2
  simp only [Prod.Lex.le_iff, Int.ofNat_lt, Int.natCast_inj, and_true, ← le_iff_lt_or_eq]
  rfl

/-- Nothing is listed before the place a walk starts from. -/
theorem tupleLt_start {o : Position} (h : 0 ≤ o.1) :
    tupleLt floats [.int (-1), .int (-1), .int (-1), .str ""] (orderItems o) = .ok true := by
  rw [orderItems, tupleLt, compareItem_int, Comparison.of, if_neg (by omega), if_pos (by omega)]

end Cursors
section Queue
variable {host : Reminders.Host} {ops : List Write}

theorem allocated_nonneg {k : String} {o : Nat} {a : Option Int} (h : Allocated host ops k o a) : 0 ≤ a.getD 0 := by
  induction ops using List.reverseRecOn with
  | nil =>
    obtain ⟨_, hm, _⟩ := h
    exact (seen_nil hm).elim
  | append_singleton ops op ih =>
    rcases allocated_concat host ops op with ⟨-, hsame⟩ | ⟨-, k₀, hnew⟩
    · exact ih (hsame k o a h)
    · rcases hnew k o a h with h | ⟨-, -, rfl⟩
      · exact ih h
      · rw [localPosition_frontier (highWater_nonneg host ops)]
        exact highWater_nonneg host ops

theorem mem_pendingRows {s : Tables} {m : MessageRow} :
    m ∈ pendingRows s ↔ s.messages.get? m.envelopeId = some m ∧ m.isListed := by
  rw [pendingRows, List.mem_insertionSort, Table.select, List.mem_filter, Table.mem_iff_get?]

/-- A listed row comes after the place a walk starts from. -/
theorem inboxOrder_nonneg {m : MessageRow} (h : m ∈ pendingRows (after host ops)) : 0 ≤ (inboxOrder m).1 := by
  obtain ⟨hg, hl⟩ := mem_pendingRows.mp h
  obtain ⟨-, hshape⟩ := isListed_iff.mp hl
  change 0 ≤ m.serverSeq.getD (m.afterServerSeq.getD 0)
  rcases hshape with ⟨-, hs⟩ | ⟨-, hs, ho⟩
  · obtain ⟨seq, hseq⟩ := Option.isSome_iff_exists.mp hs
    have hpos := (highWater_greatest host ops).1 seq ⟨_, m, .now hg, hseq⟩
    rw [hseq]
    exact hpos.le
  · obtain ⟨o, ho⟩ := Option.isSome_iff_exists.mp ho
    rw [hs]
    exact allocated_nonneg ⟨m, .now hg, ho, rfl⟩

/-- The two orders agree on listed rows: SQL puts NULL before every ordinal and Python reads it as
zero, but rows without a sequence have ordinals and rows with one differ in it. -/
theorem inboxOrder_of_pendingOrder {s : Tables} (hs : DistinctSequences s) {a b : MessageRow}
    (ha : a ∈ pendingRows s) (hb : b ∈ pendingRows s) (hne : a ≠ b) (h : pendingOrder a ≤ pendingOrder b) :
    inboxOrder a < inboxOrder b := by
  obtain ⟨hga, hla⟩ := mem_pendingRows.mp ha
  obtain ⟨hgb, hlb⟩ := mem_pendingRows.mp hb
  have hkey : a.envelopeId ≠ b.envelopeId := by
    intro he
    rw [he, hgb] at hga
    exact hne (Option.some.inj hga).symm
  obtain ⟨-, hsa⟩ := isListed_iff.mp hla
  obtain ⟨-, hsb⟩ := isListed_iff.mp hlb
  simp only [pendingOrder, Prod.Lex.toLex_le_toLex] at h
  simp only [inboxOrder, Prod.Lex.toLex_lt_toLex]
  rcases h with hlt | ⟨heq, h⟩
  · exact .inl hlt
  · refine .inr ⟨heq, ?_⟩
    rcases h with hlt | ⟨hkind, h⟩
    · exact .inl hlt
    · refine .inr ⟨hkind, ?_⟩
      rcases hsa with ⟨-, hseqa⟩ | ⟨-, hseqa, hoa⟩ <;> rcases hsb with ⟨-, hseqb⟩ | ⟨-, hseqb, hob⟩
      · obtain ⟨seq, hseqa⟩ := Option.isSome_iff_exists.mp hseqa
        obtain ⟨seq', hseqb⟩ := Option.isSome_iff_exists.mp hseqb
        simp only [hseqa, hseqb, Option.getD_some] at heq
        exact absurd (hs _ _ a b seq hga hgb hseqa (heq ▸ hseqb)) hkey
      · simp [hseqa, hseqb] at hkind
      · simp [hseqa, hseqb] at hkind
      · obtain ⟨o, hoa⟩ := Option.isSome_iff_exists.mp hoa
        obtain ⟨o', hob⟩ := Option.isSome_iff_exists.mp hob
        simp only [hoa, hob, Option.elim_some, Nat.add_lt_add_iff_right, Nat.add_right_cancel_iff] at h
        simp only [hoa, hob, Option.getD_some]
        exact h.imp_right fun h => ⟨h.1, lt_of_le_of_ne h.2 hkey⟩

/-- The pending queue is strictly in the Inbox order. -/
theorem pendingRows_pairwise (host : Reminders.Host) (ops : List Write) :
    (pendingRows (after host ops)).Pairwise fun a b => inboxOrder a < inboxOrder b := by
  have hne : (pendingRows (after host ops)).Nodup :=
    ((List.perm_insertionSort _ _).nodup_iff).mpr ((after host ops).messages.nodup.of_map.filter _)
  have hle := List.pairwise_insertionSort (fun a b => pendingOrder a ≤ pendingOrder b)
    ((after host ops).messages.select (·.isListed))
  refine (hne.and hle).imp_of_mem ?_
  intro a b ha hb ⟨hab, hle⟩
  exact inboxOrder_of_pendingOrder (distinct_after host ops) ha hb hab hle

end Queue
section Reads
variable {floats : Json → Json → Comparison}

/-- A cursor from which the rows after `low` are read, up to `high`. -/
inductive Spans : InboxCursor → WithBot Position → Position → Prop
  | start (target : String) (generation : Int) (high : Position) :
    Spans ⟨target, generation, orderItems high, [.int (-1), .int (-1), .int (-1), .str ""]⟩ ⊥ high
  | resumed (target : String) (generation : Int) (low high : Position) :
    Spans ⟨target, generation, orderItems high, orderItems low⟩ low high

/-- The rows of a span. -/
def Within (low : WithBot Position) (high : Position) (m : StoredMessage) : Prop :=
  low < inboxOrder m.row ∧ inboxOrder m.row ≤ high

theorem withinCursor_spans {c : InboxCursor} {low : WithBot Position} {high : Position} (h : Spans c low high)
    {m : StoredMessage} (hm : 0 ≤ (inboxOrder m.row).1) [Decidable (Within low high m)] :
    withinCursor floats c m = .ok (decide (Within low high m)) := by
  cases h with
  | start target generation high =>
    simp only [withinCursor, tupleLt_start floats hm, tupleLe_orderItems, Within, WithBot.bot_lt_coe, true_and]
    rfl
  | resumed target generation low high =>
    simp only [withinCursor, tupleLt_orderItems, tupleLe_orderItems, Within, WithBot.coe_lt_coe]
    by_cases hlow : low < inboxOrder m.row <;> simp [hlow, bind, Except.bind, pure, Except.pure]

theorem selectM_eq {p : StoredMessage → Except PageError Bool} {q : StoredMessage → Bool} {ms : List StoredMessage}
    (h : ∀ m ∈ ms, p m = .ok (q m)) : selectM p ms = .ok (ms.filter q) := by
  induction ms with
  | nil => rfl
  | cons m ms ih =>
    rw [List.forall_mem_cons] at h
    rw [selectM, h.1, ih h.2, List.filter_cons]
    rfl

theorem Spans.resume {c : InboxCursor} {low : WithBot Position} {high : Position} (h : Spans c low high)
    (place : Position) : Spans { c with last := orderItems place } place high := by
  cases h with
  | start target generation high => exact .resumed target generation place high
  | resumed target generation low high => exact .resumed target generation place high

/-- Rows in the Inbox order. -/
def InOrder (ms : List StoredMessage) : Prop := ms.Pairwise fun a b => inboxOrder a.row < inboxOrder b.row

/-- The rows of a queue that are in a span. -/
structure Holds (pending : List StoredMessage) (low : WithBot Position) (high : Position)
    (rows : List StoredMessage) : Prop where
  sublist : rows.Sublist pending
  mem : ∀ m, m ∈ rows ↔ m ∈ pending ∧ Within low high m

/-- What a call of a walk returns: the first rows of its span, and a cursor for the rest if any. -/
inductive Served (target : String) (pending : List StoredMessage) (low : WithBot Position) (high : Position)
    (page : InboxPageProjection) : Prop
  | all (rows : Holds pending low high page.selected) (cursor : page.nextCursor = "")
  | some (rest : List StoredMessage) (rows : Holds pending low high (page.selected ++ rest)) (m : StoredMessage)
    (lastRow : m ∈ page.selected.getLast?) (c : InboxCursor) (cursor : page.nextCursor = encodeInboxCursor c)
    (sameTarget : c.target = target) (high' : Position) (span : Spans c (inboxOrder m.row) high') (below : high' ≤ high)
    (kept : ∀ m ∈ rest, inboxOrder m.row ≤ high')

theorem fitting_prefix (formatter : StoredMessage → String) (byteCount : Nat) (ms : List StoredMessage) :
    ∃ rest, ms = fitting formatter byteCount ms ++ rest := by
  induction ms generalizing byteCount with
  | nil => exact ⟨[], rfl⟩
  | cons m ms ih =>
    rw [fitting]
    split_ifs
    · exact ⟨m :: ms, rfl⟩
    · obtain ⟨rest, hrest⟩ := ih (byteCount + (formatter m).utf8ByteSize)
      exact ⟨rest, congrArg (m :: ·) hrest⟩

/-- The last row of a queue in order comes after the others. -/
theorem InOrder.le_last {ms : List StoredMessage} (h : InOrder ms) {m m' : StoredMessage} (hm : m ∈ ms)
    (hlast : m' ∈ ms.getLast?) : inboxOrder m.row ≤ inboxOrder m'.row := by
  obtain ⟨front, rfl⟩ := List.getLast?_eq_some_iff.mp hlast
  rcases List.mem_append.mp hm with hm | hm
  · exact ((List.pairwise_append.mp h).2.2 m hm m' (List.mem_singleton_self m')).le
  · rw [List.mem_singleton.mp hm]

variable {formatter : StoredMessage → String}

section Serving
variable {c : InboxCursor} {pending snapshot : List StoredMessage} {low : WithBot Position} {high : Position}
  {limit : Nat} {page : InboxPageProjection}

theorem pageOf_items (c : InboxCursor) (snapshot : List StoredMessage) (limit : Nat) :
    (pageOf c snapshot limit).items = snapshot.take limit := rfl

/-- The store's cursor is at the last row of a page that is not the last. -/
theorem pageOf_nextCursor (c : InboxCursor) (snapshot : List StoredMessage) (limit : Nat) :
    (pageOf c snapshot limit).nextCursor = if (snapshot.take limit).length < snapshot.length then
        encodeInboxCursor { c with
          last := (snapshot.take limit).getLast?.elim [] fun m => orderItems (inboxOrder m.row) }
      else "" := rfl

/-- The cursor a truncated page starts from ends at the ceiling or at the last row of the snapshot. -/
theorem pageCursor_spans (hspan : Spans c low high) (horder : InOrder pending) (hrows : Holds pending low high snapshot)
    (hne : snapshot ≠ []) (limit : Nat) : ∃ c' high', pageCursor (pageOf c snapshot limit) = encodeInboxCursor c' ∧
      c'.target = c.target ∧ (∀ place, Spans { c' with last := orderItems place } place high') ∧ high' ≤ high ∧
      ∀ m ∈ snapshot, inboxOrder m.row ≤ high' := by
  by_cases hmore : (snapshot.take limit).length < snapshot.length
  · have hcursor := pageOf_nextCursor c snapshot limit
    rw [if_pos hmore] at hcursor
    refine ⟨{ c with last := (snapshot.take limit).getLast?.elim [] fun m => orderItems (inboxOrder m.row) }, high, ?_,
      rfl, fun place => hspan.resume place, le_rfl, fun m hm => ((hrows.mem m).mp hm).2.2⟩
    rw [pageCursor, hcursor, if_pos (encodeInboxCursor_ne_empty _)]
  · have htake : snapshot.take limit = snapshot := List.take_of_length_le (by simpa using hmore)
    have hlast : snapshot.getLast? = some (snapshot.getLast hne) := List.getLast?_eq_some_getLast hne
    refine ⟨⟨c.target, c.generation, orderItems (inboxOrder (snapshot.getLast hne).row),
      [.int (-1), .int (-1), .int (-1), .str ""]⟩, inboxOrder (snapshot.getLast hne).row, ?_, rfl,
      fun place => .resumed c.target c.generation place _, ((hrows.mem _).mp (List.getLast_mem hne)).2.2,
      fun m hm => InOrder.le_last (horder.sublist hrows.sublist) hm hlast⟩
    rw [pageCursor, pageOf_nextCursor, if_neg hmore, if_neg (not_not_intro rfl), pageOf_items, htake, hlast]
    rfl

/-- The byte guard keeps the walk: the new cursor is at the last row that was returned. -/
theorem projectInboxPage_served (hspan : Spans c low high) (hlimit : 1 ≤ limit) (horder : InOrder pending)
    (hrows : Holds pending low high snapshot)
    (h : projectInboxPage floats formatter (pageOf c snapshot limit) = .ok page) :
    Served c.target pending low high page := by
  obtain ⟨cut, hcut⟩ := fitting_prefix formatter 0 (snapshot.take limit)
  have hsnapshot : snapshot = fitting formatter 0 (snapshot.take limit) ++ (cut ++ snapshot.drop limit) := by
    rw [← List.append_assoc, ← hcut, List.take_append_drop]
  dsimp only [projectInboxPage] at h
  split_ifs at h with htrunc
  · have hne : snapshot ≠ [] := by
      rintro rfl
      simp [pageOf_items] at htrunc
    obtain ⟨c', high', hcursor, htarget, hspan', hbelow, hkept⟩ := pageCursor_spans hspan horder hrows hne limit
    rw [hcursor, decode_encode, pageOf_items] at h
    cases hlast : (fitting formatter 0 (snapshot.take limit)).getLast? with
    | none =>
      rw [hlast] at h
      cases h
    | some m =>
      rw [hlast] at h
      cases h
      refine .some _ (hsnapshot ▸ hrows) m hlast _ rfl htarget high' (hspan' _) hbelow fun m' hm' => ?_
      exact hkept m' (hsnapshot ▸ List.mem_append_right _ hm')
  · rw [pageOf_items] at htrunc
    have hcut' : cut = [] := by
      have hlength := congrArg List.length hcut
      rw [List.length_append] at hlength
      exact List.eq_nil_of_length_eq_zero (by omega)
    rw [hcut', List.append_nil] at hcut
    rw [pageOf_nextCursor, pageOf_items, ← hcut] at h
    by_cases hmore : (snapshot.take limit).length < snapshot.length
    · rw [if_pos hmore] at h
      have hne : snapshot.take limit ≠ [] := by
        rw [Ne, List.take_eq_nil_iff]
        rintro (rfl | rfl)
        · omega
        · simp at hmore
      have hlast : (snapshot.take limit).getLast? = some ((snapshot.take limit).getLast hne) :=
        List.getLast?_eq_some_getLast hne
      rw [hlast] at h
      cases h
      refine .some (snapshot.drop limit) ?_ _ hlast _ rfl rfl high (hspan.resume _) le_rfl fun m hm => ?_
      · rwa [List.take_append_drop]
      · exact ((hrows.mem m).mp (List.mem_of_mem_drop hm)).2.2
    · rw [if_neg hmore, List.take_of_length_le (by simpa using hmore)] at h
      cases h
      exact .all hrows rfl

variable {text : Text.Host} {s : Tables} {target cursor : String} {size : Int}

/-- What a call that returns has done. -/
theorem readInbox_ok (h : readInbox text floats formatter s target cursor size = .ok page) : 1 ≤ size ∧
    ∃ decoded, givenCursor floats (strip target) cursor = .ok decoded ∧ ∃ snapshot,
      let pending := pendingIn text s (decoded.elim (strip target) (·.target))
      let c := readingFrom s (decoded.elim (strip target) (·.target)) pending decoded
      selectM (withinCursor floats c) pending = .ok snapshot ∧
        projectInboxPage floats formatter (pageOf c snapshot size.toNat) = .ok page := by
  obtain ⟨p, hp, h⟩ := except_bind_ok_iff.mp h
  unfold readInboxPage at hp
  split_ifs at hp with hsize htarget
  obtain ⟨decoded, hgiven, hp⟩ := except_bind_ok_iff.mp hp
  obtain ⟨snapshot, hsnapshot, hp⟩ := except_bind_ok_iff.mp hp
  cases hp
  exact ⟨hsize.1, decoded, hgiven, snapshot, hsnapshot, h⟩

/-- One call of a walk over a queue in order. -/
theorem selectM_served (hspan : Spans c low high) (hlimit : 1 ≤ limit) (horder : InOrder pending)
    (hnonneg : ∀ m ∈ pending, 0 ≤ (inboxOrder m.row).1)
    (hsnapshot : selectM (withinCursor floats c) pending = .ok snapshot)
    (h : projectInboxPage floats formatter (pageOf c snapshot limit) = .ok page) :
    Served c.target pending low high page := by
  classical
  rw [selectM_eq fun m hm => withinCursor_spans hspan (hnonneg m hm)] at hsnapshot
  cases hsnapshot
  refine projectInboxPage_served hspan hlimit horder ⟨List.filter_sublist, fun m => ?_⟩ h
  rw [List.mem_filter, decide_eq_true_iff]

end Serving
end Reads
section Walks
variable (host : Reminders.Host) (text : Text.Host) (floats : Json → Json → Comparison)
  (formatter : StoredMessage → String)

/-- A later call of a walk: the writes since the one before, and its arguments beside the cursor. -/
structure Call where
  writes : List Write
  target : String
  limit : Int

/-- The tables that a call read, and what it returned. -/
structure Visit where
  tables : Tables
  page : InboxPageProjection

/-- The calls that follow a page, each with the cursor of the one before, until there is none. -/
def follow (s : Tables) (page : InboxPageProjection) : List Call → Except PageError (List Visit)
  | [] => .ok [⟨s, page⟩]
  | call :: calls =>
    if page.nextCursor = "" then .ok [⟨s, page⟩]
    else do
      let s' := run (step host) s call.writes
      let next ← readInbox text floats formatter s' call.target page.nextCursor call.limit
      let later ← follow s' next calls
      return ⟨s, page⟩ :: later

/-- A walk of the Inbox. -/
def walk (s : Tables) (target : String) (limit : Int) (calls : List Call) : Except PageError (List Visit) := do
  let page ← readInbox text floats formatter s target "" limit
  follow host text floats formatter s page calls

/-- The rows of a walk, in the order in which they were returned. -/
def walkRows (visits : List Visit) : List StoredMessage := visits.flatMap (·.page.selected)

/-- The walk has come to the end of its cursors. -/
def Finished (visits : List Visit) : Prop := ∃ v ∈ visits.getLast?, v.page.nextCursor = ""

instance (visits : List Visit) : Decidable (Finished visits) :=
  inferInstanceAs (Decidable (∃ v ∈ visits.getLast?, v.page.nextCursor = ""))

variable {host text floats formatter}

theorem pendingIn_inOrder (ops : List Write) (target : String) : InOrder (pendingIn text (after host ops) target) := by
  refine List.Pairwise.filter _ ?_
  rw [List.pairwise_map]
  exact pendingRows_pairwise host ops

theorem mem_pendingIn {s : Tables} {target : String} {m : StoredMessage} (h : m ∈ pendingIn text s target) :
    m.row ∈ pendingRows s := by
  obtain ⟨row, hrow, rfl⟩ := List.mem_map.mp (List.mem_of_mem_filter h)
  exact hrow

/-- A walk starts before every row and ends at the last one that is pending. -/
theorem readingFrom_spans (s : Tables) (target : String) (pending : List StoredMessage) :
    ∃ high, Spans (readingFrom s target pending none) ⊥ high ∧ ∀ m ∈ pending.getLast?, high = inboxOrder m.row := by
  unfold readingFrom
  cases hlast : pending.getLast? with
  | none =>
    have hzero : orderItems (toLex (0, toLex (0, toLex (0, "")))) = [.int 0, .int 0, .int 0, .str ""] := rfl
    refine ⟨toLex (0, toLex (0, toLex (0, ""))), ?_, by simp⟩
    dsimp only [Option.elim_none]
    rw [← hzero]
    exact .start target s.noticeState.generation _
  | some m => exact ⟨inboxOrder m.row, .start target s.noticeState.generation _, by simp⟩

theorem readInbox_first {ops : List Write} {target : String} {limit : Int} {page : InboxPageProjection}
    (h : readInbox text floats formatter (after host ops) target "" limit = .ok page) :
    ∃ high, Served (strip target) (pendingIn text (after host ops) (strip target)) ⊥ high page ∧
      ∀ m ∈ (pendingIn text (after host ops) (strip target)).getLast?, high = inboxOrder m.row := by
  obtain ⟨hlimit, decoded, hgiven, snapshot, hsnapshot, hpage⟩ := readInbox_ok h
  cases hgiven
  obtain ⟨high, hspan, hhigh⟩ := readingFrom_spans (after host ops) (strip target)
    (pendingIn text (after host ops) (strip target))
  exact ⟨high, selectM_served hspan (by omega) (pendingIn_inOrder ops (strip target))
    (fun m hm => inboxOrder_nonneg (mem_pendingIn hm)) hsnapshot hpage, hhigh⟩

/-- A call with a cursor goes on where the page before ended. -/
theorem readInbox_resumed {ops : List Write} {target : String} {limit : Int} {page : InboxPageProjection}
    {c : InboxCursor} {low : WithBot Position} {high : Position} (hspan : Spans c low high)
    (h : readInbox text floats formatter (after host ops) target (encodeInboxCursor c) limit = .ok page) :
    Served c.target (pendingIn text (after host ops) c.target) low high page := by
  obtain ⟨hlimit, decoded, hgiven, snapshot, hsnapshot, hpage⟩ := readInbox_ok h
  rw [givenCursor, if_neg (encodeInboxCursor_ne_empty c), decode_encode] at hgiven
  dsimp only at hgiven
  split_ifs at hgiven
  cases hgiven
  exact selectM_served hspan (by omega) (pendingIn_inOrder ops c.target)
    (fun m hm => inboxOrder_nonneg (mem_pendingIn hm)) hsnapshot hpage

/-- What the calls from one place on have returned. -/
structure Traversed (text : Text.Host) (target : String) (low : WithBot Position) (high : Position)
    (visits : List Visit) : Prop where
  order : InOrder (walkRows visits)
  within : ∀ m ∈ walkRows visits, Within low high m
  pages : ∀ v ∈ visits, v.page.selected.Sublist (pendingIn text v.tables target)
  complete : Finished visits → ∀ k (o : Position), low < o → o ≤ high →
    (∀ v ∈ visits, ∃ m ∈ pendingIn text v.tables target, m.row.envelopeId = k ∧ inboxOrder m.row = o) →
    ∃ m ∈ walkRows visits, m.row.envelopeId = k ∧ inboxOrder m.row = o

section Steps
variable {target : String} {low : WithBot Position} {high : Position} {s : Tables} {page : InboxPageProjection}

theorem Served.traversed (horder : InOrder (pendingIn text s target))
    (h : Served target (pendingIn text s target) low high page) : Traversed text target low high [⟨s, page⟩] := by
  have hrows : walkRows [⟨s, page⟩] = page.selected := by simp [walkRows]
  cases h with
  | all rows cursor =>
    refine ⟨?_, ?_, ?_, ?_⟩
    · rw [hrows]
      exact horder.sublist rows.sublist
    · rw [hrows]
      exact fun m hm => ((rows.mem m).mp hm).2
    · simpa using rows.sublist
    · intro _ k o hlow hhigh hstays
      obtain ⟨m, hm, hk, rfl⟩ := hstays ⟨s, page⟩ (List.mem_singleton_self _)
      exact ⟨m, hrows ▸ (rows.mem m).mpr ⟨hm, hlow, hhigh⟩, hk, rfl⟩
  | some rest rows m lastRow c cursor sameTarget high' span below kept =>
    refine ⟨?_, ?_, ?_, ?_⟩
    · rw [hrows]
      exact horder.sublist ((List.sublist_append_left _ _).trans rows.sublist)
    · rw [hrows]
      exact fun m hm => ((rows.mem m).mp (List.mem_append_left _ hm)).2
    · simpa using (List.sublist_append_left _ _).trans rows.sublist
    · rintro ⟨v, hv, hdone⟩
      cases hv
      exact absurd (cursor.symm.trans hdone) (encodeInboxCursor_ne_empty c)

/-- A page and what follows it. -/
theorem Traversed.cons {rest : List StoredMessage} {high' : Position} {m : StoredMessage} {visits : List Visit}
    (horder : InOrder (pendingIn text s target)) (rows : Holds (pendingIn text s target) low high (page.selected ++ rest))
    (lastRow : m ∈ page.selected.getLast?) (below : high' ≤ high) (kept : ∀ m ∈ rest, inboxOrder m.row ≤ high')
    (hne : visits ≠ []) (h : Traversed text target (inboxOrder m.row) high' visits) :
    Traversed text target low high (⟨s, page⟩ :: visits) := by
  have hpage : InOrder (page.selected ++ rest) := horder.sublist rows.sublist
  obtain ⟨hselected, -, hcross⟩ := List.pairwise_append.mp hpage
  have hrows : walkRows (⟨s, page⟩ :: visits) = page.selected ++ walkRows visits := by simp [walkRows]
  have hm : m ∈ page.selected := List.mem_of_mem_getLast? lastRow
  have hlow : low < inboxOrder m.row := ((rows.mem m).mp (List.mem_append_left _ hm)).2.1
  refine ⟨?_, ?_, ?_, ?_⟩
  · rw [hrows]
    refine List.pairwise_append.mpr ⟨hselected, h.order, fun a ha b hb => ?_⟩
    exact (InOrder.le_last hselected ha lastRow).trans_lt (WithBot.coe_lt_coe.mp (h.within b hb).1)
  · rw [hrows]
    intro a ha
    rcases List.mem_append.mp ha with ha | ha
    · exact ((rows.mem a).mp (List.mem_append_left _ ha)).2
    · exact ⟨hlow.trans (h.within a ha).1, (h.within a ha).2.trans below⟩
  · rw [List.forall_mem_cons]
    exact ⟨(List.sublist_append_left _ _).trans rows.sublist, h.pages⟩
  · intro hdone k o hlow hhigh hstays
    rw [List.forall_mem_cons] at hstays
    obtain ⟨⟨a, ha, hk, rfl⟩, hlater⟩ := hstays
    rw [hrows]
    rcases List.mem_append.mp ((rows.mem a).mpr ⟨ha, hlow, hhigh⟩) with ha | ha
    · exact ⟨a, List.mem_append_left _ ha, hk, rfl⟩
    · have hdone' : Finished visits := by
        obtain ⟨v, hv, hcursor⟩ := hdone
        exact ⟨v, by rwa [List.getLast?_cons_of_ne_nil hne] at hv, hcursor⟩
      obtain ⟨b, hb, hkb, hob⟩ := h.complete hdone' k _ (WithBot.coe_lt_coe.mpr (hcross m hm a ha)) (kept a ha) hlater
      exact ⟨b, List.mem_append_right _ hb, hkb, hob⟩

end Steps

theorem follow_traversed {calls : List Call} {visits : List Visit} {ops : List Write} {target : String}
    {low : WithBot Position} {high : Position} {page : InboxPageProjection}
    (hserved : Served target (pendingIn text (after host ops) target) low high page)
    (h : follow host text floats formatter (after host ops) page calls = .ok visits) :
    Traversed text target low high visits ∧ visits ≠ [] := by
  induction calls generalizing visits ops low high page with
  | nil =>
    cases h
    exact ⟨hserved.traversed (pendingIn_inOrder ops target), by simp⟩
  | cons call calls ih =>
    rw [follow] at h
    split_ifs at h with hend
    · cases h
      exact ⟨hserved.traversed (pendingIn_inOrder ops target), by simp⟩
    · cases hserved with
      | all rows cursor => exact absurd cursor hend
      | some rest rows m lastRow c cursor sameTarget high' span below kept =>
        obtain ⟨next, hnext, h⟩ := except_bind_ok_iff.mp h
        obtain ⟨later, hlater, h⟩ := except_bind_ok_iff.mp h
        cases h
        have hafter : run (step host) (after host ops) call.writes = after host (ops ++ call.writes) := by
          rw [after, after, run_append]
        rw [cursor, hafter] at hnext
        rw [hafter] at hlater
        have hread := readInbox_resumed span hnext
        rw [sameTarget] at hread
        obtain ⟨htraversed, hne⟩ := ih hread hlater
        exact ⟨htraversed.cons (pendingIn_inOrder ops target) rows lastRow below kept hne, by simp⟩

/-- Envelopes are keys of a queue. -/
theorem pendingIn_key {s : Tables} {target : String} {a b : StoredMessage} (ha : a ∈ pendingIn text s target)
    (hb : b ∈ pendingIn text s target) (hk : a.row.envelopeId = b.row.envelopeId) : a.row = b.row := by
  obtain ⟨hga, -⟩ := mem_pendingRows.mp (mem_pendingIn ha)
  obtain ⟨hgb, -⟩ := mem_pendingRows.mp (mem_pendingIn hb)
  rw [hk, hgb] at hga
  exact (Option.some.inj hga).symm

/-- A row that kept its position was returned at it. -/
theorem Traversed.position {target : String} {low : WithBot Position} {high : Position} {visits : List Visit}
    (h : Traversed text target low high visits) {k : String} {o : Position}
    (hstays : ∀ v ∈ visits, ∃ m ∈ pendingIn text v.tables target, m.row.envelopeId = k ∧ inboxOrder m.row = o)
    {m : StoredMessage} (hm : m ∈ walkRows visits) (hk : m.row.envelopeId = k) : inboxOrder m.row = o := by
  obtain ⟨v, hv, hm⟩ := List.mem_flatMap.mp hm
  obtain ⟨m', hm', hk', rfl⟩ := hstays v hv
  rw [pendingIn_key ((h.pages v hv).subset hm) hm' (hk.trans hk'.symm)]

/-- In rows that are in order, at most one has a position. -/
theorem InOrder.countP_le_one {ms : List StoredMessage} (h : InOrder ms) {p : StoredMessage → Bool} {o : Position}
    (hp : ∀ m ∈ ms, p m → inboxOrder m.row = o) : ms.countP p ≤ 1 := by
  induction ms with
  | nil => exact Nat.zero_le 1
  | cons m ms ih =>
    obtain ⟨hlt, hms⟩ := List.pairwise_cons.mp h
    rw [List.forall_mem_cons] at hp
    by_cases hpm : p m = true
    · have hnone : ms.countP p = 0 := by
        refine List.countP_eq_zero.mpr fun m' hm' hpm' => ?_
        have hlt := hlt m' hm'
        rw [hp.1 hpm, hp.2 m' hm' hpm'] at hlt
        exact lt_irrefl _ hlt
      rw [List.countP_cons_of_pos hpm, hnone]
    · rw [List.countP_cons_of_neg hpm]
      exact ih hms hp.2

theorem follow_ended {s : Tables} {page : InboxPageProjection} (h : page.nextCursor = "") (calls : List Call) :
    follow host text floats formatter s page calls = .ok [⟨s, page⟩] := by
  cases calls with
  | nil => rfl
  | cons call calls => rw [follow, if_pos h]

/-- A walk that starts with an empty queue returns nothing. -/
theorem walkRows_of_empty {s : Tables} {target : String} {low : WithBot Position} {high : Position}
    {page : InboxPageProjection} {calls : List Call} {visits : List Visit} (hserved : Served target [] low high page)
    (h : follow host text floats formatter s page calls = .ok visits) : walkRows visits = [] := by
  cases hserved with
  | all rows cursor =>
    rw [follow_ended cursor] at h
    cases h
    simpa [walkRows] using rows.sublist
  | some rest rows m lastRow c cursor sameTarget high' span below kept =>
    have hm := rows.sublist.subset (List.mem_append_left rest (List.mem_of_mem_getLast? lastRow))
    cases hm

/-- Following the cursors of the Inbox, with any writes between the calls: the rows come in
strictly increasing order and not above the row that was last at the first call; and when the
cursors end, each row that was pending at the first call, and at every call still was there for the
target at its place, has come exactly once. A cursor is read back as it was written. -/
theorem inbox_page_walk (host : Reminders.Host) (text : Text.Host) (floats : Json → Json → Comparison)
    (formatter : StoredMessage → String) (ops : List Write) (target : String) (limit : Int) (calls : List Call)
    (visits : List Visit) (h : walk host text floats formatter (after host ops) target limit calls = .ok visits) :
    InOrder (walkRows visits) ∧
    (∀ m ∈ walkRows visits, ∃ top ∈ (pendingIn text (after host ops) (strip target)).getLast?,
      inboxOrder m.row ≤ inboxOrder top.row) ∧
    (Finished visits → ∀ m ∈ pendingIn text (after host ops) (strip target),
      (∀ v ∈ visits, ∃ m' ∈ pendingIn text v.tables (strip target),
        m'.row.envelopeId = m.row.envelopeId ∧ inboxOrder m'.row = inboxOrder m.row) →
      (walkRows visits).countP (fun m' => m'.row.envelopeId = m.row.envelopeId) = 1) ∧
    ∀ c, decodeInboxCursor floats (encodeInboxCursor c) = .ok c := by
  obtain ⟨page, hpage, hfollow⟩ := except_bind_ok_iff.mp h
  obtain ⟨high, hserved, hhigh⟩ := readInbox_first hpage
  obtain ⟨htraversed, -⟩ := follow_traversed hserved hfollow
  cases hlast : (pendingIn text (after host ops) (strip target)).getLast? with
  | none =>
    rw [List.getLast?_eq_none_iff.mp hlast] at hserved ⊢
    rw [walkRows_of_empty hserved hfollow]
    exact ⟨.nil, fun m hm => absurd hm List.not_mem_nil, fun _ m hm => absurd hm List.not_mem_nil, decode_encode floats⟩
  | some top =>
    obtain rfl := hhigh top hlast
    refine ⟨htraversed.order, fun m hm => ⟨top, rfl, (htraversed.within m hm).2⟩, fun hdone m hm hstays => ?_,
      decode_encode floats⟩
    have hle := InOrder.le_last (pendingIn_inOrder ops (strip target)) hm hlast
    obtain ⟨m', hm', hk, -⟩ := htraversed.complete hdone _ _ (WithBot.bot_lt_coe _) hle hstays
    refine le_antisymm (htraversed.order.countP_le_one (o := inboxOrder m.row) fun m' hm' hk => ?_) ?_
    · exact htraversed.position hstays hm' (of_decide_eq_true hk)
    · exact List.countP_pos_iff.mpr ⟨m', hm', decide_eq_true hk⟩

/-- A host whose dates and identifiers nobody asks for. -/
def bareHost : Reminders.Host := ⟨fun _ => none, fun _ => false, fun _ => none⟩

/-- A host that meets no floats. -/
def noFloats : Json → Json → Comparison := fun _ _ => .unordered

/-- A direct message, before its sequence is known. -/
def directMessage (id : String) : Payload :=
  { envelopeId := id, envelopeKind := "dm", senderSlug := "alice", sentAt := 0 }

/-- A local event and a message that came after it. -/
def eventThenMessage : List Write :=
  [.store (.storeLocalEvent (directMessage "m") "" none 0 false 0),
    .store (.storeReceipt (directMessage "b") 10 .eligible "" 0 0)]

/-- A post of a channel with a claim on a thread root that is not stored. -/
def claimingPost (id channelId : String) (root : Option String) : Payload :=
  { envelopeId := id, senderSlug := "alice", channelId := channelId, spaceId := "sp", sentAt := 0,
    threadRootId := root, threadRootUnverified := root.isSome }

/-- Two posts that claim the same root. -/
def twoClaims : List Write :=
  [.store (.storeReceipt (claimingPost "m1" "ch" "r") 1 .eligible "" 0 0),
    .store (.storeReceipt (claimingPost "m2" "ch" "r") 2 .eligible "" 0 0)]

theorem exists_ok {ε α : Type} {x : Except ε α} {P : α → Prop} [DecidablePred P]
    (h : x.toOption.any (fun a => decide (P a)) = true) : ∃ a, x = .ok a ∧ P a := by
  cases x with
  | error e => cases h
  | ok a => exact ⟨a, rfl, of_decide_eq_true h⟩

/-- A finished walk may return a row twice that got a sequence after the first time, and leave out
a row that waits at its place but whose thread claim was undone. -/
theorem walk_moved_rows :
    (∃ visits, walk bareHost asciiHost noFloats (fun _ => "") (after bareHost eventThenMessage) "" 1
        [⟨[.store (.storeReceipt (directMessage "m") 7 .eligible "" 0 0)], "", 50⟩] = .ok visits ∧
      Finished visits ∧ (walkRows visits).map (·.row.envelopeId) = ["m", "m", "b"]) ∧
    ∃ visits, walk bareHost asciiHost noFloats (fun _ => "") (after bareHost twoClaims) "channel:sp:ch:thread:r" 1
        [⟨[.store (.storeReceipt (claimingPost "r" "other" none) 3 .eligible "" 0 0)], "", 50⟩] = .ok visits ∧
      Finished visits ∧
      (∀ v ∈ visits, ∃ m ∈ pendingRows v.tables, m.envelopeId = "m2" ∧
        inboxOrder m = toLex (2, toLex (0, toLex (0, "m2")))) ∧
      (walkRows visits).map (·.row.envelopeId) = ["m1"] := by
  refine ⟨exists_ok ?_, exists_ok ?_⟩
  · decide +kernel
  · decide +kernel

/-- A walk of two messages, a page each. -/
theorem inbox_page_walk_two_pages :
    ∃ visits, walk bareHost asciiHost noFloats (fun _ => "") (after bareHost eventThenMessage) "" 1 [⟨[], "", 1⟩] =
        .ok visits ∧ Finished visits ∧ (walkRows visits).map (·.row.envelopeId) = ["m", "b"] ∧
      InOrder (walkRows visits) := by
  obtain ⟨visits, h, hdone, hids⟩ : ∃ visits, walk bareHost asciiHost noFloats (fun _ => "")
      (after bareHost eventThenMessage) "" 1 [⟨[], "", 1⟩] = .ok visits ∧ Finished visits ∧
      (walkRows visits).map (·.row.envelopeId) = ["m", "b"] := by
    refine exists_ok ?_
    decide +kernel
  exact ⟨visits, h, hdone, hids, (inbox_page_walk bareHost asciiHost noFloats (fun _ => "") eventThenMessage "" 1
    [⟨[], "", 1⟩] visits h).1⟩

end Walks
end PuffoAgent.Inbox
