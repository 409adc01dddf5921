import PuffoAgent.Reminders.Moves
import PuffoAgent.Reminders.Merge

/-! Revisions and their acknowledgement: a local transition makes a newer revision that
waits for upload, and only its own acknowledgement or a report of the Server settles it. -/
namespace PuffoAgent.Store

/-- The `WHERE` clause of the upload scan. -/
def ReminderRow.awaitsUpload (r : ReminderRow) (nowMs : Int) (force retryPermanent : Bool) : Bool :=
  r.serverAckRevision < r.revision ∧ ¬ r.snapshotConflict ∧
    (retryPermanent ∨ r.syncPermanentRevision ≠ some r.revision) ∧
    (force ∨ r.syncRetryAfterMs.all (· ≤ nowMs))

end PuffoAgent.Store

namespace PuffoAgent.Reminders
open Relational Stmt Sql Store Text Machine

/-- A remote fact as the sync client has validated it: revision 1 is scheduled, revision 2
is terminal. -/
def Op.Wire : Op → Prop
  | .materializeScheduled remote => remote.revision = 1
  | .materializeTerminal t => t.revision = 2
  | _ => True

/-- The operation brings a fact that the Server reported. -/
def Op.Reports : Op → Prop
  | .materializeScheduled _ | .materializeTerminal _ | .materializeReplacement .. => True
  | _ => False

/-- How an occurrence is numbered. -/
structure Numbered (r : ReminderRow) : Prop where
  acked : r.serverAckRevision ≤ r.revision
  positive : 1 ≤ r.revision
  first : r.isOpen = true → r.revision = 1
  permanent : ∀ n, r.syncPermanentRevision = some n → n ≤ r.revision

def Kept (r r' : ReminderRow) : Prop :=
  r'.serverAckRevision = r.serverAckRevision ∧ r'.revision = r.revision

/-- What an operation does to the revisions of a row. -/
def Change : Op → ReminderRow → ReminderRow → Prop
  | .acknowledge o revision, r, r' => Kept r r' ∨ r.occurrenceId = o ∧ r.revision = revision ∧
      r.serverAckRevision < revision ∧ r'.revision = revision ∧ r'.serverAckRevision = revision
  | .cancel .., r, r' | .deliverClaimed .., r, r' | .replaceLocal .., r, r' => Kept r r' ∨
      r'.serverAckRevision = r.serverAckRevision ∧ r.revision < r'.revision ∧
      ∀ nowMs, r'.awaitsUpload nowMs false false = true
  | .materializeScheduled _, r, r' | .materializeTerminal _, r, r' | .materializeReplacement .., r, r' =>
      r.serverAckRevision ≤ r'.serverAckRevision ∧ r.revision ≤ r'.revision ∧
      (r.revision < r'.revision → r'.serverAckRevision = r'.revision)
  | _, r, r' => Kept r r'

section Moves
variable {op : Op} {r m r' : ReminderRow}

theorem isOpen_false {r : ReminderRow} (h : r.state = .cancelled ∨ r.state = .delivered) :
    r.isOpen = false := by
  rcases h with h | h <;> simp [ReminderRow.isOpen, h]

/-- Rows that keep state, revision and acknowledgement. -/
theorem Numbered.of_same (h : Numbered r) (hs : r'.state = r.state) (hr : r'.revision = r.revision)
    (ha : r'.serverAckRevision = r.serverAckRevision)
    (hp : ∀ n, r'.syncPermanentRevision = some n → n ≤ r.revision) : Numbered r' where
  acked := by rw [ha, hr]; exact h.acked
  positive := by rw [hr]; exact h.positive
  first ho := by
    rw [hr]
    exact h.first (by rwa [ReminderRow.isOpen, hs] at ho)
  permanent n hn := by rw [hr]; exact hp n hn

/-- Rows that are closed afterwards. -/
theorem Numbered.of_closed (hs : r'.state = .cancelled ∨ r'.state = .delivered)
    (ha : r'.serverAckRevision ≤ r'.revision) (hp : 1 ≤ r'.revision)
    (hn : ∀ n, r'.syncPermanentRevision = some n → n ≤ r'.revision) : Numbered r' where
  acked := ha
  positive := hp
  first ho := by
    rw [isOpen_false hs] at ho
    cases ho
  permanent := hn

theorem Move.numbered (hm : Move op r r') (hw : op.Wire) (h : Numbered r) : Numbered r' := by
  have ha := h.acked
  have hp := h.positive
  cases hm with
  | envelope => exact h.of_same rfl rfl rfl h.permanent
  | acknowledged newest waiting =>
    exact ⟨newest.ge, h.positive, h.first, fun n hn => by cases hn⟩
  | retried => exact h.of_same rfl rfl rfl fun n hn => by cases hn
  | failed newest => exact h.of_same rfl rfl rfl fun n hn => newest ▸ (Option.some.inj hn).ge
  | claimId | leased => exact h.of_same rfl rfl rfl h.permanent
  | due scheduled | authorized scheduled =>
    exact ⟨h.acked, h.positive, fun _ => h.first (isOpen_iff.mpr (.inl scheduled)), h.permanent⟩
  | delivered => exact .of_closed (.inr rfl) (Nat.le_succ_of_le ha) (Nat.le_succ_of_le hp) fun n hn => by cases hn
  | cancelled => exact .of_closed (.inl rfl) (Nat.le_succ_of_le ha) (Nat.le_succ_of_le hp) fun n hn => by cases hn
  | replaced scheduled =>
    have hone := h.first (isOpen_iff.mpr (.inl scheduled))
    refine .of_closed (.inl rfl) ?_ (Nat.le_succ 1) fun n hn => ?_
    · change r.serverAckRevision ≤ 2
      omega
    · have := h.permanent n hn
      change n ≤ 2
      omega
  | confirmed le =>
    rename_i remote ack
    have hone : remote.revision = 1 := hw
    refine ⟨?_, hp, h.first, h.permanent⟩
    change max r.serverAckRevision ack ≤ r.revision
    omega
  | fencedScheduled | fencedTerminal => exact h.of_same rfl rfl rfl h.permanent
  | terminated terminal =>
    refine .of_closed ?_ ?_ (le_max_of_le_left hp) fun n hn => by cases hn
    · by_cases hd : r.state = .delivered
      · exact .inr (if_pos hd)
      · simpa [Reminders.terminated, hd] using terminal
    · exact max_le_max_right _ ha
  | settled isOpen terminal second =>
    exact .of_closed terminal le_rfl ((Nat.le_succ 1).trans second.ge) fun n hn => by cases hn
  | superseded =>
    refine .of_closed ?_ (max_le_max_right 2 ha) (le_max_of_le_left hp) fun n hn => by cases hn
    by_cases hd : r.state = .delivered <;> simp [Reminders.superseded, hd]

theorem Move.occurrence (hm : Move op r r') : r'.occurrenceId = r.occurrenceId := by
  cases hm <;> rfl

theorem Change.refl (op : Op) (r : ReminderRow) : Change op r r := by
  cases op <;> simp [Change, Kept]

/-- A local transition that is not fenced is scanned at once, whatever the clock. -/
theorem awaitsUpload_of_fresh (hl : r.serverAckRevision < r.revision) (hc : r.snapshotConflict = false)
    (hp : r.syncPermanentRevision ≠ some r.revision) (hr : r.syncRetryAfterMs = none) (nowMs : Int) :
    r.awaitsUpload nowMs false false = true := by
  simp [ReminderRow.awaitsUpload, hl, hc, hp, hr]

theorem conflict_of_untouched (h : r.isUnpreparedLocalOnly = true) : r.snapshotConflict = false := by
  simp only [ReminderRow.isUnpreparedLocalOnly, decide_eq_true_eq] at h
  simpa using h.1

theorem conflict_of_custody {nowMs : Int} (h : r.hasCustody nowMs = true) : r.snapshotConflict = false := by
  simp only [ReminderRow.hasCustody, decide_eq_true_eq] at h
  simpa using h.1

/-- Another move of the same operation. -/
theorem Change.move (hc : Change op r m) (hm : Move op m r') (hw : op.Wire) (h : Numbered m)
    (ho : m.occurrenceId = r.occurrenceId) : Change op r r' := by
  have ha := h.acked
  have hp := h.positive
  cases hm with
  | envelope | retried | failed | claimId | leased | due | authorized => exact hc
  | acknowledged newest waiting =>
    rcases hc with ⟨hk, hk'⟩ | ⟨-, -, -, -, hdone⟩
    · exact .inr ⟨ho.symm, hk'.symm.trans newest, hk ▸ waiting, newest, rfl⟩
    · omega
  | delivered claimed custody =>
    have hlt : r.revision ≤ m.revision ∧ m.serverAckRevision = r.serverAckRevision := by
      rcases hc with ⟨hk, hk'⟩ | ⟨hk, hk', -⟩ <;> omega
    have hfree := conflict_of_custody custody
    rename_i e atMs _ _ _
    refine .inr ⟨hlt.2, Nat.lt_succ_of_le hlt.1, fun nowMs => ?_⟩
    exact awaitsUpload_of_fresh (r := Reminders.delivered e atMs m) (Nat.lt_succ_of_le ha) hfree nofun
      rfl nowMs
  | cancelled isOpen untouched =>
    have hlt : r.revision ≤ m.revision ∧ m.serverAckRevision = r.serverAckRevision := by
      rcases hc with ⟨hk, hk'⟩ | ⟨hk, hk', -⟩ <;> omega
    have hfree := conflict_of_untouched untouched
    rename_i atMs
    refine .inr ⟨hlt.2, Nat.lt_succ_of_le hlt.1, fun nowMs => ?_⟩
    exact awaitsUpload_of_fresh (r := Reminders.cancelled atMs m) (Nat.lt_succ_of_le ha) hfree nofun
      rfl nowMs
  | replaced scheduled untouched =>
    have hone := h.first (isOpen_iff.mpr (.inl scheduled))
    have hlt : r.revision ≤ m.revision ∧ m.serverAckRevision = r.serverAckRevision := by
      rcases hc with ⟨hk, hk'⟩ | ⟨hk, hk', -⟩ <;> omega
    refine .inr ⟨hlt.2, ?_, fun nowMs => ?_⟩
    · change r.revision < 2
      omega
    · have hfree := conflict_of_untouched untouched
      rename_i atMs
      refine awaitsUpload_of_fresh (r := Reminders.replaced atMs m) ?_ hfree ?_ rfl nowMs
      · change m.serverAckRevision < 2
        omega
      · intro hperm
        have := h.permanent 2 hperm
        omega
  | confirmed le =>
    rename_i remote ack
    have hone : remote.revision = 1 := hw
    obtain ⟨h₁, h₂, h₃⟩ := hc
    change r.serverAckRevision ≤ max m.serverAckRevision ack ∧ r.revision ≤ m.revision ∧
      (r.revision < m.revision → max m.serverAckRevision ack = m.revision)
    omega
  | fencedScheduled | fencedTerminal => exact hc
  | terminated terminal =>
    rename_i t
    have htwo : t.revision = 2 := hw
    obtain ⟨h₁, h₂, h₃⟩ := hc
    change r.serverAckRevision ≤ max m.serverAckRevision t.revision ∧ r.revision ≤ max m.revision t.revision ∧
      (r.revision < max m.revision t.revision → max m.serverAckRevision t.revision = max m.revision t.revision)
    omega
  | settled isOpen terminal second =>
    have hone := h.first isOpen
    obtain ⟨h₁, h₂, h₃⟩ := hc
    rename_i remote _ _
    change r.serverAckRevision ≤ remote.revision ∧ r.revision ≤ remote.revision ∧
      (r.revision < remote.revision → remote.revision = remote.revision)
    omega
  | superseded =>
    obtain ⟨h₁, h₂, h₃⟩ := hc
    change r.serverAckRevision ≤ max m.serverAckRevision 2 ∧ r.revision ≤ max m.revision 2 ∧
      (r.revision < max m.revision 2 → max m.serverAckRevision 2 = max m.revision 2)
    omega

theorem moves_change (hm : Relation.ReflTransGen (Move op) r r') (hw : op.Wire) (h : Numbered r) :
    Numbered r' ∧ r'.occurrenceId = r.occurrenceId ∧ Change op r r' := by
  induction hm with
  | refl => exact ⟨h, rfl, .refl op r⟩
  | tail _ hmove ih =>
    obtain ⟨hn, ho, hc⟩ := ih
    exact ⟨hmove.numbered hw hn, hmove.occurrence.trans ho, hc.move hmove hw hn ho⟩

theorem Created.numbered (hc : Created op r) (hw : op.Wire) : Numbered r := by
  cases hc with
  | created | replacement => exact ⟨Nat.zero_le _, le_rfl, fun _ => rfl, nofun⟩
  | scheduled positive =>
    exact ⟨le_rfl, Nat.one_le_iff_ne_zero.mpr positive, fun _ => hw, nofun⟩
  | reported known numbered =>
    rename_i remote lifecycle fields
    refine ⟨le_rfl, ?_, fun ho => ?_, nofun⟩
    · change 1 ≤ remote.revision
      split at numbered <;> omega
    · change remote.revision = 1
      rcases isOpen_iff.mp ho with hs | hs
      · rwa [if_pos (show lifecycle = .scheduled from hs)] at numbered
      · exact absurd hs known

end Moves
section Runs
variable {host : Host} {op : Op} {s : Tables} {k : String} {r r' : ReminderRow}

def AllNumbered (s : Tables) : Prop := ∀ k r, s.getReminder k = some r → Numbered r

/-- The rows that `_migrate_reminder_sync_schema` leaves: nothing is acknowledged yet. -/
def Upgraded (s : Tables) : Prop := ∀ k r, s.getReminder k = some r →
  r.serverAckRevision = 0 ∧ r.revision = (if r.isOpen then 1 else 2) ∧ r.syncPermanentRevision = none

theorem Upgraded.numbered (h : Upgraded s) : AllNumbered s := by
  intro k r hg
  obtain ⟨ha, hr, hp⟩ := h k r hg
  refine ⟨by omega, ?_, fun ho => by rw [hr, if_pos ho], fun n hn => ?_⟩
  · rw [hr]
    split <;> omega
  · rw [hp] at hn
    cases hn

theorem step_change (host : Host) (hs : AllNumbered s) (hw : op.Wire) (hg : s.getReminder k = some r) :
    ∃ r', (step host s op).getReminder k = some r' ∧ Numbered r' ∧ r'.occurrenceId = r.occurrenceId ∧
      Change op r r' := by
  obtain ⟨r', hg', hm⟩ := (step_writes host s op).moved k r hg
  exact ⟨r', hg', moves_change hm hw (hs k r hg)⟩

theorem AllNumbered.step (hs : AllNumbered s) (hw : op.Wire) : AllNumbered (step host s op) := by
  intro k r' hg'
  cases hg : s.getReminder k with
  | some r =>
    obtain ⟨r₁, hg₁, hn, -⟩ := step_change host hs hw hg
    obtain rfl := Option.some.inj (hg₁.symm.trans hg')
    exact hn
  | none =>
    obtain ⟨row, hc, hm⟩ := (step_writes host s op).inserted k r' hg hg'
    exact (moves_change hm hw (hc.numbered hw)).1

theorem AllNumbered.run (hs : AllNumbered s) {ops : List Op} (hw : ∀ op ∈ ops, op.Wire) :
    AllNumbered (run (Reminders.step host) s ops) := by
  induction ops generalizing s with
  | nil => exact hs
  | cons op ops ih =>
    exact ih (hs.step (hw op List.mem_cons_self)) fun o ho => hw o (List.mem_cons_of_mem _ ho)

/-- One step: revision and acknowledgement only grow. -/
theorem Change.grows (h : Change op r r') (hn : Numbered r) (hn' : Numbered r') :
    r.serverAckRevision ≤ r'.serverAckRevision ∧ r.revision ≤ r'.revision := by
  have ha := hn.acked
  have ha' := hn'.acked
  cases op <;> simp only [Change, Kept] at h <;> omega

/-- A newer revision waits for upload, unless it came from the Server. -/
theorem Change.newer (h : Change op r r') (hl : r.revision < r'.revision) :
    r'.serverAckRevision = r'.revision ∨ ∀ nowMs, r'.awaitsUpload nowMs false false = true := by
  cases op with
  | cancel | deliverClaimed | replaceLocal =>
    rcases h with hk | ⟨-, -, hw⟩
    · exact absurd hk.2 hl.ne'
    · exact .inr hw
  | materializeScheduled | materializeTerminal | materializeReplacement => exact .inl (h.2.2 hl)
  | acknowledge o revision =>
    rcases h with hk | ⟨-, -, -, hr, ha⟩
    · exact absurd hk.2 hl.ne'
    · exact .inl (ha.trans hr.symm)
  | _ => exact absurd h.2 hl.ne'

/-- What settles a revision that waits. -/
theorem Change.settles (h : Change op r r') (hn : Numbered r)
    (hl : r.serverAckRevision < r.revision) (hd : r'.serverAckRevision = r'.revision) :
    (op = .acknowledge r.occurrenceId r.revision ∧ r'.revision = r.revision) ∨ op.Reports := by
  have ha := hn.acked
  cases op with
  | acknowledge o revision =>
    rcases h with ⟨hk, hk'⟩ | ⟨rfl, rfl, -, hr, -⟩
    · omega
    · exact .inl ⟨rfl, hr⟩
  | cancel | deliverClaimed | replaceLocal =>
    rcases h with ⟨hk, hk'⟩ | ⟨hk, hk', -⟩ <;> omega
  | materializeScheduled | materializeTerminal | materializeReplacement => exact .inr trivial
  | _ =>
    obtain ⟨hk, hk'⟩ := h
    omega

theorem run_grows (host : Host) {ops : List Op} (hs : AllNumbered s) (hw : ∀ op ∈ ops, op.Wire)
    (hg : s.getReminder k = some r) :
    ∃ r', (run (Reminders.step host) s ops).getReminder k = some r' ∧
      r'.occurrenceId = r.occurrenceId ∧ r.serverAckRevision ≤ r'.serverAckRevision ∧
      r.revision ≤ r'.revision := by
  induction ops generalizing s r with
  | nil => exact ⟨r, hg, rfl, le_rfl, le_rfl⟩
  | cons op ops ih =>
    have hop := hw op List.mem_cons_self
    obtain ⟨r₁, hg₁, hn₁, ho₁, hc⟩ := step_change host hs hop hg
    obtain ⟨hack, hrev⟩ := hc.grows (hs k r hg) hn₁
    obtain ⟨r', hg', ho', hack', hrev'⟩ :=
      ih (hs.step hop) (fun o ho => hw o (List.mem_cons_of_mem _ ho)) hg₁
    exact ⟨r', hg', ho'.trans ho₁, hack.trans hack', hrev.trans hrev'⟩

/-- The row of a reminder after a run. -/
def RowAfter (host : Host) (s₀ : Tables) (ops : List Op) (k : String) (r : ReminderRow) : Prop :=
  (run (Reminders.step host) s₀ ops).getReminder k = some r

theorem RowAfter.unique {ops : List Op} (h : RowAfter host s ops k r) (h' : RowAfter host s ops k r') :
    r' = r := Option.some.inj (h'.symm.trans h)

/-- Revisions in every run from a new or upgraded store: the acknowledged revision never
decreases and never exceeds the local one; a newer local revision waits for upload; it is
settled by its own acknowledgement or by a report; an acknowledgement that takes effect is
for the revision that has been the newest since its upload was prepared. -/
theorem revision_monotone (host : Host) (s₀ : Tables) (h₀ : Upgraded s₀) (ops : List Op)
    (hops : ∀ op ∈ ops, op.Wire) (k : String) (r : ReminderRow) (hr : RowAfter host s₀ ops k r) :
    (r.serverAckRevision ≤ r.revision ∧ (r.serverAckRevision = r.revision ∨ r.snapshotConflict = true ∨
      ∀ nowMs, r.awaitsUpload nowMs true true = true)) ∧
    (∀ ops', (∀ op ∈ ops', op.Wire) → ∃ r', RowAfter host s₀ (ops ++ ops') k r' ∧
      r'.occurrenceId = r.occurrenceId ∧ r.serverAckRevision ≤ r'.serverAckRevision ∧
      r.revision ≤ r'.revision) ∧
    (∀ op, op.Wire → ∀ r', RowAfter host s₀ (ops ++ [op]) k r' →
      (r.revision < r'.revision → r'.serverAckRevision = r'.revision ∨
        ∀ nowMs, r'.awaitsUpload nowMs false false = true) ∧
      (r.serverAckRevision < r.revision → r'.serverAckRevision = r'.revision →
        (op = .acknowledge r.occurrenceId r.revision ∧ r'.revision = r.revision) ∨ op.Reports)) ∧
    (∀ ops', (∀ op ∈ ops', op.Wire) → ∀ r' r'', RowAfter host s₀ (ops ++ ops') k r' →
      RowAfter host s₀ (ops ++ ops' ++ [.acknowledge r.occurrenceId r.revision]) k r'' →
      r''.serverAckRevision ≠ r'.serverAckRevision → r''.serverAckRevision = r.revision ∧
        ∀ ops₁ ops₂, ops' = ops₁ ++ ops₂ → ∀ r₁, RowAfter host s₀ (ops ++ ops₁) k r₁ →
          r₁.revision = r.revision) := by
  have hs : AllNumbered (run (Reminders.step host) s₀ ops) := h₀.numbered.run hops
  have hn := hs k r hr
  refine ⟨⟨hn.acked, ?_⟩, fun ops' hw => ?_, fun op hw r' hr' => ?_, fun ops' hw r' r'' hr' hr'' hne => ?_⟩
  · rcases Nat.eq_or_lt_of_le hn.acked with h | h
    · exact .inl h
    · by_cases hc : r.snapshotConflict = true
      · exact .inr (.inl hc)
      · exact .inr (.inr fun nowMs => by simp [ReminderRow.awaitsUpload, h, hc])
  · obtain ⟨r', hg', hgrows⟩ := run_grows host hs hw hr
    exact ⟨r', by rw [RowAfter, run_append]; exact hg', hgrows⟩
  · obtain ⟨r₁, hg₁, -, -, hc⟩ := step_change host hs hw hr
    have hafter : RowAfter host s₀ (ops ++ [op]) k r₁ := by
      rw [RowAfter, run_append]
      exact hg₁
    obtain rfl := hafter.unique hr'
    exact ⟨hc.newer, hc.settles hn⟩
  · have hs' : AllNumbered (run (Reminders.step host) s₀ (ops ++ ops')) := by
      rw [run_append]
      exact hs.run hw
    have hack : (Op.acknowledge r.occurrenceId r.revision).Wire := trivial
    obtain ⟨r₁, hg₁, -, -, hc⟩ := step_change host hs' hack hr'
    have hafter : RowAfter host s₀ (ops ++ ops' ++ [.acknowledge r.occurrenceId r.revision]) k r₁ := by
      rw [RowAfter, run_append]
      exact hg₁
    obtain rfl := hafter.unique hr''
    rcases hc with hk | ⟨-, hnewest, -, -, hdone⟩
    · exact absurd hk.1 hne
    · refine ⟨hdone, fun ops₁ ops₂ he r₁ hr₁ => ?_⟩
      subst he
      have hw₁ (op : Op) (h : op ∈ ops₁) : op.Wire := hw op (List.mem_append_left ops₂ h)
      have hw₂ (op : Op) (h : op ∈ ops₂) : op.Wire := hw op (List.mem_append_right ops₁ h)
      have hr₁' := hr₁
      rw [RowAfter, run_append] at hr₁'
      obtain ⟨r₂, hr₂, -, -, hle⟩ := run_grows host hs hw₁ hr
      obtain rfl := Option.some.inj (hr₂.symm.trans hr₁')
      obtain ⟨r₃, hr₃, -, -, hle'⟩ := run_grows host (hs.run hw₁) hw₂ hr₂
      rw [RowAfter, run_append, run_append] at hr'
      obtain rfl := Option.some.inj (hr₃.symm.trans hr')
      omega

def plantReminder : ReminderRow := scheduledRow "r1" "o1" "dm:bob" "water the plants" 5 1

/-- The acknowledgement of an upload that was prepared before the envelope was stored. -/
theorem revision_monotone_prepared :
    (acknowledged 1 (withEnvelope "v1" [1] plantReminder)).serverAckRevision = plantReminder.revision := by
  have hstart : Upgraded Tables.empty := by
    intro k r h
    simp [Tables.getReminder, Tables.empty] at h
  have h := revision_monotone plainHost Tables.empty hstart
    [.create "water the plants" "dm:bob" 5 "r1" "o1" 1] (by simp [Op.Wire]) "r1" plantReminder
    (by unfold RowAfter; decide +kernel)
  exact (h.2.2.2 [.persistEnvelope "o1" "v1" [1]] (by simp [Op.Wire]) (withEnvelope "v1" [1] plantReminder)
    (acknowledged 1 (withEnvelope "v1" [1] plantReminder)) (by unfold RowAfter; decide +kernel)
    (by unfold RowAfter; decide +kernel) (by decide)).1

end Runs
end PuffoAgent.Reminders
