import PuffoAgent.Reminders.Positions
import Mathlib.Order.Bounds.Basic

/-! The local ordering frontier: every write of the store and of the reminders, and the
positions that messages have had since the tables were created. -/
namespace PuffoAgent.Inbox
open Relational Store Machine

/-- A write to the shared tables. -/
inductive Write where
  | store (op : Store.Op)
  | reminder (op : Reminders.Op)

def step (host : Reminders.Host) (s : Tables) : Write → Tables
  | .store op => Store.step s op
  | .reminder op => Reminders.step host s op

theorem step_positioned (host : Reminders.Host) (s : Tables) (op : Write) : Positioned s (step host s op) := by
  cases op with
  | store op => exact Store.step_positioned s op
  | reminder op => exact Reminders.step_positioned host s op

/-- The tables after a run of writes. -/
def after (host : Reminders.Host) (ops : List Write) : Tables := run (step host) Tables.empty ops

theorem after_concat (host : Reminders.Host) (ops : List Write) (op : Write) :
    after host (ops ++ [op]) = step host (after host ops) op := by
  rw [after, run_append]
  rfl

/-- The envelope had this row at some time of the run. -/
def Seen (host : Reminders.Host) (ops : List Write) (k : String) (m : MessageRow) : Prop :=
  ∃ before later, ops = before ++ later ∧ (after host before).messages.get? k = some m

/-- The sequence was stored at some time of the run. -/
def Stored (host : Reminders.Host) (ops : List Write) (seq : Int) : Prop :=
  ∃ k m, Seen host ops k m ∧ m.serverSeq = some seq

/-- The envelope was given the local position at some time of the run. -/
def Allocated (host : Reminders.Host) (ops : List Write) (k : String) (ordinal : Nat) (frontier : Option Int) : Prop :=
  ∃ m, Seen host ops k m ∧ m.localOrdinal = some ordinal ∧ m.afterServerSeq = frontier

section History
variable {host : Reminders.Host} {ops : List Write} {k : String} {m : MessageRow}

theorem Seen.now (h : (after host ops).messages.get? k = some m) : Seen host ops k m := ⟨ops, [], by simp, h⟩

theorem seen_nil : ¬ Seen host [] k m := by
  rintro ⟨before, later, he, h⟩
  obtain ⟨rfl, rfl⟩ := List.append_eq_nil_iff.mp he.symm
  simp [after, Tables.empty] at h

theorem seen_concat {op : Write} : Seen host (ops ++ [op]) k m ↔
    Seen host ops k m ∨ (after host (ops ++ [op])).messages.get? k = some m := by
  constructor
  · rintro ⟨before, later, he, h⟩
    rcases List.eq_nil_or_concat later with rfl | ⟨later', op', rfl⟩
    · rw [List.append_nil] at he
      exact .inr (he ▸ h)
    · rw [List.concat_eq_append, ← List.append_assoc] at he
      exact .inl ⟨before, later', (List.append_inj' he rfl).1, h⟩
  · rintro (⟨before, later, he, h⟩ | h)
    · exact ⟨before, later ++ [op], by rw [he, List.append_assoc], h⟩
    · exact .now h

/-- A row that is where it was adds nothing to the history. -/
theorem Seen.kept {op : Write} (h : Seen host (ops ++ [op]) k m)
    (hk : Kept (after host ops) (after host (ops ++ [op])) k) : ∃ m₀, Seen host ops k m₀ ∧ m.slot = m₀.slot := by
  rcases seen_concat.mp h with h | h
  · exact ⟨m, h, rfl⟩
  · obtain ⟨m₀, hm₀, he⟩ := hk m h
    exact ⟨m₀, .now hm₀, he⟩

/-- A row of the envelope that a step may have placed. -/
theorem Seen.cases {op : Write} (h : Seen host (ops ++ [op]) k m) (k₀ : String)
    (hk : ∀ k', k' ≠ k₀ → Kept (after host ops) (after host (ops ++ [op])) k') :
    (∃ m₀, Seen host ops k m₀ ∧ m.slot = m₀.slot) ∨
      (k = k₀ ∧ (after host (ops ++ [op])).messages.get? k₀ = some m) := by
  by_cases hne : k = k₀
  · rcases seen_concat.mp h with h | h
    · exact .inl ⟨m, h, rfl⟩
    · exact .inr ⟨hne, hne ▸ h⟩
  · exact .inl (h.kept (hk k hne))

theorem Allocated.of_slot {m₀ : MessageRow} {ordinal : Nat} (h : Seen host ops k m₀) (he : m.slot = m₀.slot)
    (ho : m.localOrdinal = some ordinal) : Allocated host ops k ordinal m.afterServerSeq :=
  ⟨m₀, h, (congrArg Slot.localOrdinal he).symm.trans ho, (congrArg Slot.afterServerSeq he).symm⟩

theorem Stored.of_slot {m₀ : MessageRow} {seq : Int} (h : Seen host ops k m₀) (he : m.slot = m₀.slot)
    (hs : m.serverSeq = some seq) : Stored host ops seq :=
  ⟨k, m₀, h, (congrArg Slot.serverSeq he).symm.trans hs⟩

/-- A write allocates nothing, or exactly the next position. -/
theorem allocated_concat (host : Reminders.Host) (ops : List Write) (op : Write) :
    ((after host (ops ++ [op])).nextOrdinal = (after host ops).nextOrdinal ∧
      ∀ k o a, Allocated host (ops ++ [op]) k o a → Allocated host ops k o a) ∨
    ((after host (ops ++ [op])).nextOrdinal = (after host ops).nextOrdinal + 1 ∧
      ∃ k₀, ∀ k o a, Allocated host (ops ++ [op]) k o a → Allocated host ops k o a ∨
        (k = k₀ ∧ o = (localPosition (after host ops)).1 ∧ a = (localPosition (after host ops)).2)) := by
  have hstep := step_positioned host (after host ops) op
  rw [← after_concat] at hstep
  cases hstep with
  | still h =>
    refine .inl ⟨h.next, ?_⟩
    rintro k o a ⟨m, hm, ho, rfl⟩
    obtain ⟨m₀, hm₀, he⟩ := hm.kept (h.rows k)
    exact .of_slot hm₀ he ho
  | bare k₀ free row others next high =>
    refine .inl ⟨next, ?_⟩
    rintro k o a ⟨m, hm, ho, rfl⟩
    rcases hm.cases k₀ others with ⟨m₀, hm₀, he⟩ | ⟨-, hnow⟩
    · exact .of_slot hm₀ he ho
    · rw [show m.localOrdinal = none from congrArg Slot.localOrdinal (row m hnow)] at ho
      cases ho
  | sequenced k₀ seq h =>
    refine .inl ⟨h.next, ?_⟩
    rintro k o a ⟨m, hm, ho, rfl⟩
    rcases hm.cases k₀ h.others with ⟨m₀, hm₀, he⟩ | ⟨rfl, hnow⟩
    · exact .of_slot hm₀ he ho
    · obtain ⟨m', hm', -, hord⟩ := h.row
      obtain rfl := Option.some.inj (hnow.symm.trans hm')
      obtain ⟨m₀, hm₀, ho₀, ha₀⟩ := hord o ho
      exact ⟨m₀, .now hm₀, ho₀, ha₀⟩
  | placed k₀ unsequenced row others next high =>
    refine .inr ⟨next, k₀, ?_⟩
    rintro k o a ⟨m, hm, ho, rfl⟩
    rcases hm.cases k₀ others with ⟨m₀, hm₀, he⟩ | ⟨rfl, hnow⟩
    · exact .inl (.of_slot hm₀ he ho)
    · obtain ⟨m', hm', hslot⟩ := row
      obtain rfl := Option.some.inj (hnow.symm.trans hm')
      refine .inr ⟨rfl, ?_, congrArg Slot.afterServerSeq hslot⟩
      exact Option.some.inj (ho.symm.trans (congrArg Slot.localOrdinal hslot))

/-- A write stores no sequence, or one that advances the high-water mark. -/
theorem stored_concat (host : Reminders.Host) (ops : List Write) (op : Write) :
    ((after host (ops ++ [op])).highWater = (after host ops).highWater ∧
      ∀ seq, Stored host (ops ++ [op]) seq ↔ Stored host ops seq) ∨
    ∃ seq₀, 0 < seq₀ ∧ (after host (ops ++ [op])).highWater = max (after host ops).highWater seq₀ ∧
      ∀ seq, Stored host (ops ++ [op]) seq ↔ Stored host ops seq ∨ seq = seq₀ := by
  have hold {seq : Int} : Stored host ops seq → Stored host (ops ++ [op]) seq :=
    fun ⟨k, m, hm, hs⟩ => ⟨k, m, seen_concat.mpr (.inl hm), hs⟩
  have hstep := step_positioned host (after host ops) op
  rw [← after_concat] at hstep
  cases hstep with
  | still h =>
    refine .inl ⟨h.high, fun seq => ⟨?_, hold⟩⟩
    rintro ⟨k, m, hm, hs⟩
    obtain ⟨m₀, hm₀, he⟩ := hm.kept (h.rows k)
    exact .of_slot hm₀ he hs
  | bare k₀ free row others next high =>
    refine .inl ⟨high, fun seq => ⟨?_, hold⟩⟩
    rintro ⟨k, m, hm, hs⟩
    rcases hm.cases k₀ others with ⟨m₀, hm₀, he⟩ | ⟨-, hnow⟩
    · exact .of_slot hm₀ he hs
    · rw [show m.serverSeq = none from congrArg Slot.serverSeq (row m hnow)] at hs
      cases hs
  | sequenced k₀ seq₀ h =>
    obtain ⟨m', hm', hs', -⟩ := h.row
    refine .inr ⟨seq₀, h.positive, h.high, fun seq => ⟨?_, ?_⟩⟩
    · rintro ⟨k, m, hm, hs⟩
      rcases hm.cases k₀ h.others with ⟨m₀, hm₀, he⟩ | ⟨rfl, hnow⟩
      · exact .inl (.of_slot hm₀ he hs)
      · obtain rfl := Option.some.inj (hnow.symm.trans hm')
        exact .inr (Option.some.inj (hs.symm.trans hs'))
    · rintro (h | rfl)
      · exact hold h
      · exact ⟨k₀, m', .now hm', hs'⟩
  | placed k₀ unsequenced row others next high =>
    refine .inl ⟨high, fun seq => ⟨?_, hold⟩⟩
    rintro ⟨k, m, hm, hs⟩
    rcases hm.cases k₀ others with ⟨m₀, hm₀, he⟩ | ⟨rfl, hnow⟩
    · exact .of_slot hm₀ he hs
    · obtain ⟨m', hm', hslot⟩ := row
      obtain rfl := Option.some.inj (hnow.symm.trans hm')
      rw [show m.serverSeq = none from congrArg Slot.serverSeq hslot] at hs
      cases hs

end History
section Frontier
variable (host : Reminders.Host)

/-- The high-water mark is the greatest sequence that was ever stored. -/
theorem highWater_greatest (ops : List Write) : (∀ seq, Stored host ops seq → 0 < seq) ∧
    IsGreatest (insert 0 {seq | Stored host ops seq}) (after host ops).highWater := by
  induction ops using List.reverseRecOn with
  | nil =>
    have hnone (seq : Int) : ¬ Stored host [] seq := fun ⟨_, _, hm, _⟩ => seen_nil hm
    refine ⟨fun seq hs => (hnone seq hs).elim, .inl rfl, ?_⟩
    rintro seq (rfl | hs)
    · exact le_rfl
    · exact (hnone seq hs).elim
  | append_singleton ops op ih =>
    obtain ⟨hpos, hmem, hub⟩ := ih
    rcases stored_concat host ops op with ⟨hhigh, hsame⟩ | ⟨seq₀, hseq₀, hhigh, hnew⟩
    · simp only [hsame, hhigh]
      exact ⟨hpos, hmem, hub⟩
    · simp only [hnew, hhigh]
      refine ⟨?_, ?_, ?_⟩
      · rintro seq (hs | rfl)
        · exact hpos seq hs
        · exact hseq₀
      · rcases max_choice (after host ops).highWater seq₀ with hmax | hmax
        · rw [hmax]
          exact hmem.imp id .inl
        · rw [hmax]
          exact .inr (.inr rfl)
      · rintro seq (rfl | hs | rfl)
        · exact le_max_of_le_right hseq₀.le
        · exact le_max_of_le_left (hub (.inr hs))
        · exact le_max_right _ _

theorem highWater_nonneg (ops : List Write) : 0 ≤ (after host ops).highWater :=
  (highWater_greatest host ops).2.2 (.inl rfl)

theorem highWater_mono (ops : List Write) (op : Write) :
    (after host ops).highWater ≤ (after host (ops ++ [op])).highWater := by
  rcases stored_concat host ops op with ⟨hhigh, -⟩ | ⟨seq₀, -, hhigh, -⟩
  · exact hhigh.ge
  · rw [hhigh]
    exact le_max_left _ _

/-- The `UPDATE` of the schema script, repeated whenever the database is opened. -/
def reopened (s : Tables) : Tables :=
  { s with highWater := max s.highWater (((s.messages.rows.filterMap (·.serverSeq)).max?).getD 0) }

/-- Opening the database again moves no frontier. -/
theorem reopened_after (ops : List Write) : reopened (after host ops) = after host ops := by
  have hub := (highWater_greatest host ops).2.2
  have hle : (((after host ops).messages.rows.filterMap (·.serverSeq)).max?).getD 0 ≤ (after host ops).highWater := by
    cases hmax : ((after host ops).messages.rows.filterMap (·.serverSeq)).max? with
    | none => exact highWater_nonneg host ops
    | some seq =>
      obtain ⟨m, hm, hs⟩ := List.mem_filterMap.mp (List.max?_mem hmax)
      exact hub (.inr ⟨m.envelopeId, m, .now (Table.get?_of_mem hm), hs⟩)
  rw [reopened, max_eq_left hle]

/-- A position is handed out at the high-water mark. -/
theorem localPosition_frontier {s : Tables} (h : 0 ≤ s.highWater) : (localPosition s).2.getD 0 = s.highWater := by
  unfold localPosition
  split
  · rfl
  · exact le_antisymm h (not_lt.mp ‹_›)

/-- The positions of a run, in the order of their ordinals. -/
structure Ordered (ops : List Write) : Prop where
  below : ∀ k o a, Allocated host ops k o a → o < (after host ops).nextOrdinal
  behind : ∀ k o a, Allocated host ops k o a → a.getD 0 ≤ (after host ops).highWater
  unique : ∀ k k' o a a', Allocated host ops k o a → Allocated host ops k' o a' → k = k' ∧ a = a'
  monotone : ∀ k k' o o' a a', Allocated host ops k o a → Allocated host ops k' o' a' → o ≤ o' →
    a.getD 0 ≤ a'.getD 0

variable {host}

theorem Ordered.concat {ops : List Write} (h : Ordered host ops) (op : Write) : Ordered host (ops ++ [op]) := by
  have hmono := highWater_mono host ops op
  rcases allocated_concat host ops op with ⟨hnext, hsame⟩ | ⟨hnext, k₀, hnew⟩
  · refine ⟨fun k o a ha => ?_, fun k o a ha => ?_, fun k k' o a a' ha ha' => ?_, fun k k' o o' a a' ha ha' => ?_⟩
    · rw [hnext]
      exact h.below k o a (hsame k o a ha)
    · exact (h.behind k o a (hsame k o a ha)).trans hmono
    · exact h.unique k k' o a a' (hsame k o a ha) (hsame k' o a' ha')
    · exact h.monotone k k' o o' a a' (hsame k o a ha) (hsame k' o' a' ha')
  · have hfrontier := localPosition_frontier (highWater_nonneg host ops)
    have hfst : (localPosition (after host ops)).1 = (after host ops).nextOrdinal := rfl
    refine ⟨fun k o a ha => ?_, fun k o a ha => ?_, fun k k' o a a' ha ha' => ?_, fun k k' o o' a a' ha ha' hle => ?_⟩
    · rw [hnext]
      rcases hnew k o a ha with ha | ⟨-, rfl, -⟩
      · exact (h.below k o a ha).trans (Nat.lt_succ_self _)
      · exact Nat.lt_succ_self _
    · rcases hnew k o a ha with ha | ⟨-, -, rfl⟩
      · exact (h.behind k o a ha).trans hmono
      · exact hfrontier.le.trans hmono
    · rcases hnew k o a ha with ha | ⟨rfl, rfl, rfl⟩ <;> rcases hnew k' _ a' ha' with ha' | ⟨rfl, ho', rfl⟩
      · exact h.unique k k' o a a' ha ha'
      · exact absurd (h.below k o a ha) (by omega)
      · exact absurd (h.below k' _ a' ha') (by omega)
      · exact ⟨rfl, rfl⟩
    · rcases hnew k o a ha with ha | ⟨rfl, rfl, rfl⟩ <;> rcases hnew k' o' a' ha' with ha' | ⟨rfl, rfl, rfl⟩
      · exact h.monotone k k' o o' a a' ha ha' hle
      · exact (h.behind k o a ha).trans hfrontier.ge
      · have := h.below k' o' a' ha'
        omega
      · exact le_rfl

theorem ordered (host : Reminders.Host) (ops : List Write) : Ordered host ops := by
  induction ops using List.reverseRecOn with
  | nil =>
    have hnone {k : String} {o : Nat} {a : Option Int} : ¬ Allocated host [] k o a := fun ⟨_, hm, _⟩ => seen_nil hm
    exact ⟨fun _ _ _ h => (hnone h).elim, fun _ _ _ h => (hnone h).elim, fun _ _ _ _ _ h => (hnone h).elim,
      fun _ _ _ _ _ _ h => (hnone h).elim⟩
  | append_singleton ops op ih => exact ih.concat op

/-- Unsequenced rows are listed in the order in which they got their positions. -/
theorem inboxOrder_unsequenced {ops : List Write} {k k' : String} {m m' : MessageRow} {o o' : Nat}
    (hg : (after host ops).messages.get? k = some m) (hg' : (after host ops).messages.get? k' = some m')
    (hs : m.serverSeq = none) (hs' : m'.serverSeq = none) (ho : m.localOrdinal = some o)
    (ho' : m'.localOrdinal = some o') : inboxOrder m < inboxOrder m' ↔ o < o' := by
  have horder := ordered host ops
  have ha : Allocated host ops k o m.afterServerSeq := ⟨m, .now hg, ho, rfl⟩
  have ha' : Allocated host ops k' o' m'.afterServerSeq := ⟨m', .now hg', ho', rfl⟩
  have hlt {k k' : String} {m m' : MessageRow} {o o' : Nat} (ha : Allocated host ops k o m.afterServerSeq)
      (ha' : Allocated host ops k' o' m'.afterServerSeq) (hs : m.serverSeq = none) (hs' : m'.serverSeq = none)
      (ho : m.localOrdinal = some o) (ho' : m'.localOrdinal = some o') (h : o < o') : inboxOrder m < inboxOrder m' := by
    have hle := horder.monotone k k' o o' _ _ ha ha' h.le
    simp only [inboxOrder, hs, hs', ho, ho', Prod.Lex.toLex_lt_toLex, Option.getD_none, Option.getD_some,
      Option.isSome_none]
    rcases hle.lt_or_eq with hlt | heq
    · exact .inl hlt
    · exact .inr ⟨heq, .inr ⟨trivial, .inl h⟩⟩
  refine ⟨fun h => ?_, hlt ha ha' hs hs' ho ho'⟩
  by_contra hge
  rcases (not_lt.mp hge).lt_or_eq with hgt | rfl
  · exact lt_asymm h (hlt ha' ha hs' hs ho' ho hgt)
  · obtain ⟨rfl, -⟩ := horder.unique k k' o' _ _ ha ha'
    obtain rfl := Option.some.inj (hg.symm.trans hg')
    exact lt_irrefl _ h

/-- The local ordering frontier of every run: the high-water mark is the greatest sequence ever
stored, ordinals are handed out once and below the counter, later ordinals carry later frontiers,
and unsequenced rows keep the order of their ordinals. -/
theorem local_frontier (host : Reminders.Host) (ops : List Write) :
    ((∀ seq, Stored host ops seq → 0 < seq) ∧
      IsGreatest (insert 0 {seq | Stored host ops seq}) (after host ops).highWater) ∧
    (∀ k o a, Allocated host ops k o a → o < (after host ops).nextOrdinal) ∧
    (∀ k k' o a a', Allocated host ops k o a → Allocated host ops k' o a' → k = k' ∧ a = a') ∧
    (∀ k k' o o' a a', Allocated host ops k o a → Allocated host ops k' o' a' → o ≤ o' →
      a.getD 0 ≤ a'.getD 0) ∧
    ∀ k k' m m' o o', (after host ops).messages.get? k = some m → (after host ops).messages.get? k' = some m' →
      m.serverSeq = none → m'.serverSeq = none → m.localOrdinal = some o → m'.localOrdinal = some o' →
      (inboxOrder m < inboxOrder m' ↔ o < o') :=
  ⟨highWater_greatest host ops, (ordered host ops).below, (ordered host ops).unique, (ordered host ops).monotone,
    fun _ _ _ _ _ _ => inboxOrder_unsequenced⟩

end Frontier
end PuffoAgent.Inbox
