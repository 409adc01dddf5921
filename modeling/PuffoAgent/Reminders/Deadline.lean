import PuffoAgent.Reminders.Fence
import PuffoAgent.Sequences.Least

/-! The scheduler's wake: the deadline that `run` computes after a pass over the due
occurrences, against the times at which anything can go on. -/
namespace PuffoAgent.Reminders
open Relational Stmt Sql Store Text Machine Sequences

section Queries

/-- `due_reminder_delivery_candidates`. -/
def dueReminderDeliveryCandidates (s : Tables) (nowMs : Int) : List ReminderRow :=
  Tables.orderedReminders s fun r => ¬ r.snapshotConflict ∧
    ((r.state = .scheduled ∧ r.intendedAtMs ≤ nowMs) ∨ r.state = .claimed)

/-- `snapshot_conflict = 0 AND (? = 0 OR …)`, the rows a deadline is taken from. -/
def isWatched (localOnly : Bool) (r : ReminderRow) : Bool :=
  ¬ r.snapshotConflict ∧ (¬ localOnly ∨ r.isUnpreparedLocalOnly)

/-- The second query of `next_reminder_deadline`. -/
def scheduledDeadline (s : Tables) (localOnly : Bool) (afterMs : Option Int) : Option Int :=
  (Tables.orderedReminders s fun r => r.state = .scheduled ∧ isWatched localOnly r ∧
    afterMs.all (· < r.intendedAtMs)).head?.map (·.intendedAtMs)

def nextReminderDeadline (s : Tables) (nowMs : Int) (localOnly : Bool) (afterMs : Option Int) : Option Int :=
  if afterMs = none ∧ s.countReminders (fun r => r.state = .claimed ∧ isWatched localOnly r) ≠ 0 then some nowMs
  else scheduledDeadline s localOnly afterMs

end Queries

/-- The authorizer's part of `process_due_once`: what it was asked about, and its answer. -/
structure Pass where
  tables : Tables
  nowMs : Int
  authorization : Authorization

def Pass.candidates (p : Pass) : List ReminderRow := dueReminderDeliveryCandidates p.tables p.nowMs

/-- One turn of `run` at its deadline query: the pass before it, if there is an authorizer,
and the occurrences and the clock by now. -/
structure Round where
  pass : Option Pass
  tables : Tables
  nowMs : Int

namespace Round
variable (R : Round)

/-- `_authorization_retry_after_ms`. -/
def retryAfterMs : Option Int := R.pass.bind (·.authorization.retryAfterMs)

def localOnly : Bool := R.pass.isNone

/-- The deadline of a turn that has a retry to make. -/
def independentDeadline : Option Int :=
  let deadline := nextReminderDeadline R.tables R.nowMs R.localOnly none
  if deadline.all (· ≤ R.nowMs) then nextReminderDeadline R.tables R.nowMs R.localOnly (some R.nowMs) else deadline

/-- `deadline` in `run`. -/
def deadlineMs : Option Int :=
  match R.retryAfterMs with
  | none => nextReminderDeadline R.tables R.nowMs R.localOnly none
  | some retry => some (R.independentDeadline.elim retry (min · retry))

/-- The timeout of `_wait_until_changed_or_due`, in milliseconds. -/
def timeoutMs : Option Int := R.deadlineMs.map fun deadline => max 0 (deadline - R.nowMs)

/-- The time at which the wait ends by itself. -/
def wakesAt : Option Int := R.timeoutMs.map (R.nowMs + ·)

/-- An occurrence that the scheduler may still deliver: neither terminal nor in conflict, and
without an authorizer entirely local. -/
structure Live (r : ReminderRow) : Prop where
  stored : r ∈ R.tables.reminderOccurrences.rows
  isOpen : r.isOpen = true
  watched : isWatched R.localOnly r = true

/-- A claimed occurrence is due by definition. -/
def dueAt (r : ReminderRow) : Int := if r.state = .claimed then R.nowMs else r.intendedAtMs

def Asked (r : ReminderRow) : Prop := ∃ p, R.pass = some p ∧ ∃ c ∈ p.candidates, c.occurrenceId = r.occurrenceId

/-- A due occurrence that the pass has put off to its retry. -/
def Blocked (r : ReminderRow) : Prop := R.dueAt r ≤ R.nowMs ∧ R.Asked r ∧ R.retryAfterMs ≠ none

/-- The times at which an occurrence can go on: at the retry for what the pass was asked
about, and when it is due for the others. -/
def progress : Set Int :=
  {t | ∃ p, R.pass = some p ∧ p.candidates ≠ [] ∧ ∃ retry, p.authorization.retryAfterMs = some retry ∧
    t = max R.nowMs retry} ∪
  {t | ∃ r, R.Live r ∧ ¬ R.Blocked r ∧ t = max R.nowMs (R.dueAt r)}

/-- The scheduler wakes at the first of these times; no blocked occurrence keeps it from
another one, and none makes it wait for nothing. -/
structure Wakes : Prop where
  least : LeastOf R.progress R.wakesAt
  unmasked : ∀ r, R.Live r → ¬ R.Blocked r → ∃ t, R.wakesAt = some t ∧ t ≤ max R.nowMs (R.dueAt r)
  rests : R.timeoutMs = some 0 → (∃ r, R.Live r ∧ ¬ R.Blocked r ∧ R.dueAt r ≤ R.nowMs) ∨
    ∃ retry, R.retryAfterMs = some retry ∧ retry ≤ R.nowMs

/-- Nothing has come due since the candidates were read, unless the retry has come as well. -/
def NoneUnasked : Prop :=
  ∀ retry, R.retryAfterMs = some retry → R.nowMs < retry → ∀ r, R.Live r → R.dueAt r ≤ R.nowMs → R.Asked r

end Round

section Heads

theorem pairwise_orderedReminders (s : Tables) (p : ReminderRow → Bool) :
    (Tables.orderedReminders s p).Pairwise fun a b => a.intendedAtMs ≤ b.intendedAtMs := by
  have : Std.Total fun a b : ReminderRow => reminderOrder a b = true := ⟨fun a b => by
    simp only [reminderOrder, decide_eq_true_eq]
    rcases lt_trichotomy a.intendedAtMs b.intendedAtMs with h | h | h
    · exact .inl (.inl h)
    · rcases le_total a.occurrenceId b.occurrenceId with ho | ho
      · exact .inl (.inr ⟨h, ho⟩)
      · exact .inr (.inr ⟨h.symm, ho⟩)
    · exact .inr (.inl h)⟩
  have : IsTrans ReminderRow fun a b => reminderOrder a b = true := ⟨fun a b c => by
    simp only [reminderOrder, decide_eq_true_eq]
    rintro (hab | ⟨hab, oab⟩) (hbc | ⟨hbc, obc⟩)
    · exact .inl (hab.trans hbc)
    · exact .inl (hbc ▸ hab)
    · exact .inl (hab ▸ hbc)
    · exact .inr ⟨hab.trans hbc, oab.trans obc⟩⟩
  refine (List.pairwise_insertionSort (fun a b : ReminderRow => reminderOrder a b = true) _).imp fun {a b} h => ?_
  rcases of_decide_eq_true h with h | h
  · exact h.le
  · exact h.1.le

theorem mem_orderedReminders {s : Tables} {p : ReminderRow → Bool} {r : ReminderRow} :
    r ∈ Tables.orderedReminders s p ↔ r ∈ s.reminderOccurrences.rows ∧ p r = true := by
  rw [Tables.orderedReminders, List.mem_insertionSort, Table.select, List.mem_filter]

theorem leastOf_scheduledDeadline (s : Tables) (localOnly : Bool) (afterMs : Option Int) :
    LeastOf {t | ∃ r ∈ s.reminderOccurrences.rows, (r.state = .scheduled ∧ isWatched localOnly r = true ∧
      afterMs.all (· < r.intendedAtMs) = true) ∧ r.intendedAtMs = t} (scheduledDeadline s localOnly afterMs) := by
  have h := leastOf_head (pairwise_orderedReminders s fun r => r.state = .scheduled ∧ isWatched localOnly r ∧
    afterMs.all (· < r.intendedAtMs))
  simp only [mem_orderedReminders, and_assoc, decide_eq_true_eq] at h
  simpa only [scheduledDeadline, and_assoc] using h

end Heads

section Wake
variable {R : Round}

theorem wakesAt_eq (R : Round) : R.wakesAt = R.deadlineMs.map (max R.nowMs) := by
  rw [Round.wakesAt, Round.timeoutMs, Option.map_map]
  refine Option.map_congr fun deadline _ => ?_
  simp only [Function.comp]
  omega

theorem Round.Live.state {r : ReminderRow} (h : R.Live r) : r.state = .scheduled ∨ r.state = .claimed :=
  of_decide_eq_true h.isOpen

theorem dueAt_scheduled {r : ReminderRow} (h : r.state = .scheduled) : R.dueAt r = r.intendedAtMs := by
  simp [Round.dueAt, h]

theorem dueAt_claimed {r : ReminderRow} (h : r.state = .claimed) : R.dueAt r = R.nowMs := if_pos h

theorem live_scheduled {r : ReminderRow} (hs : r.state = .scheduled) : R.Live r ↔
    r ∈ R.tables.reminderOccurrences.rows ∧ isWatched R.localOnly r = true :=
  ⟨fun h => ⟨h.stored, h.watched⟩, fun h => ⟨h.1, decide_eq_true (.inl hs), h.2⟩⟩

theorem claimed_watched_iff : R.tables.countReminders (fun r => r.state = .claimed ∧ isWatched R.localOnly r) ≠ 0 ↔
    ∃ r, R.Live r ∧ r.state = .claimed := by
  rw [Tables.countReminders, ← Nat.pos_iff_ne_zero, List.length_pos_iff_exists_mem]
  simp only [Table.select, List.mem_filter, decide_eq_true_eq]
  constructor
  · rintro ⟨r, hr, hc, hw⟩
    exact ⟨r, ⟨hr, decide_eq_true (.inr hc), hw⟩, hc⟩
  · rintro ⟨r, hr, hc⟩
    exact ⟨r, hr.stored, hc, hr.watched⟩

/-- Without a retry the scheduler wakes for whatever is due first. -/
theorem leastOf_deadline (R : Round) : LeastOf {t | ∃ r, R.Live r ∧ t = max R.nowMs (R.dueAt r)}
    ((nextReminderDeadline R.tables R.nowMs R.localOnly none).map (max R.nowMs)) := by
  unfold nextReminderDeadline
  split_ifs with hc
  · obtain ⟨r, hr, hs⟩ := claimed_watched_iff.mp hc.2
    refine ⟨⟨r, hr, by rw [dueAt_claimed hs]⟩, ?_⟩
    rintro _ ⟨r', -, rfl⟩
    simp
  · have hnone (r : ReminderRow) (hr : R.Live r) : r.state = .scheduled :=
      hr.state.resolve_right fun hs => hc ⟨rfl, claimed_watched_iff.mpr ⟨r, hr, hs⟩⟩
    have himage := (leastOf_scheduledDeadline R.tables R.localOnly none).map
      (f := max R.nowMs) fun _ _ hab => max_le_max le_rfl hab
    convert himage using 1
    ext t
    constructor
    · rintro ⟨r, hr, rfl⟩
      exact ⟨_, ⟨r, hr.stored, ⟨hnone r hr, hr.watched, rfl⟩, rfl⟩, by rw [dueAt_scheduled (hnone r hr)]⟩
    · rintro ⟨_, ⟨r, hr, ⟨hs, hw, -⟩, rfl⟩, rfl⟩
      exact ⟨r, (live_scheduled hs).mpr ⟨hr, hw⟩, by rw [dueAt_scheduled hs]⟩

theorem nextReminderDeadline_after : nextReminderDeadline R.tables R.nowMs R.localOnly (some R.nowMs) =
    scheduledDeadline R.tables R.localOnly (some R.nowMs) := if_neg (by simp)

/-- What a retry is compared with: the first occurrence that is not due yet. -/
theorem leastOf_independent (R : Round) :
    LeastOf {t | ∃ r, R.Live r ∧ R.nowMs < R.dueAt r ∧ t = R.dueAt r} R.independentDeadline := by
  have hlate {r : ReminderRow} (hr : R.Live r) (hd : R.nowMs < R.dueAt r) : r.state = .scheduled :=
    hr.state.resolve_right fun hs => absurd hd (by rw [dueAt_claimed hs]; exact lt_irrefl _)
  unfold Round.independentDeadline
  dsimp only
  split_ifs with hd
  · rw [nextReminderDeadline_after]
    convert leastOf_scheduledDeadline R.tables R.localOnly (some R.nowMs) using 1
    ext t
    constructor
    · rintro ⟨r, hr, hd, rfl⟩
      have hs := hlate hr hd
      rw [dueAt_scheduled hs] at hd ⊢
      exact ⟨r, hr.stored, ⟨hs, hr.watched, by simpa using hd⟩, rfl⟩
    · rintro ⟨r, hr, ⟨hs, hw, hd⟩, rfl⟩
      exact ⟨r, (live_scheduled hs).mpr ⟨hr, hw⟩, by simpa [dueAt_scheduled hs] using hd, by rw [dueAt_scheduled hs]⟩
  · have h := leastOf_deadline R
    cases hn : nextReminderDeadline R.tables R.nowMs R.localOnly none with
    | none => simp [hn] at hd
    | some deadline =>
      have hlt : R.nowMs < deadline := by simpa [hn] using hd
      rw [hn, Option.map_some, max_eq_right hlt.le] at h
      have hlive {r : ReminderRow} (hr : R.Live r) : deadline ≤ R.dueAt r := by
        have := h.2 ⟨r, hr, rfl⟩
        omega
      obtain ⟨r, hr, heq⟩ := h.1
      refine ⟨⟨r, hr, hlt.trans_le (hlive hr), ?_⟩, ?_⟩
      · have := hlive hr
        omega
      · rintro _ ⟨r', hr', -, rfl⟩
        exact hlive hr'

/-- With a retry the scheduler wakes for it, or for what is not due yet. -/
theorem leastOf_retry {retry : Int} (hr : R.retryAfterMs = some retry) :
    LeastOf (max R.nowMs '' insert retry {t | ∃ r, R.Live r ∧ R.nowMs < R.dueAt r ∧ t = R.dueAt r}) R.wakesAt := by
  rw [wakesAt_eq, Round.deadlineMs, hr]
  exact ((leastOf_independent R).insert retry).map fun _ _ hab => max_le_max le_rfl hab

theorem nowMs_le_wakesAt {t : Int} (h : R.wakesAt = some t) : R.nowMs ≤ t := by
  rw [wakesAt_eq, Option.map_eq_some_iff] at h
  obtain ⟨deadline, -, rfl⟩ := h
  exact le_max_left _ _

theorem progress_le {t : Int} (h : t ∈ R.progress) : R.nowMs ≤ t := by
  rcases h with ⟨_, _, _, _, _, rfl⟩ | ⟨_, _, _, rfl⟩
  · exact le_max_left _ _
  · exact le_max_left _ _

/-- A retry that is still to come leaves something to wait for. -/
theorem nowMs_lt_wakesAt {retry t : Int} (hr : R.retryAfterMs = some retry) (hlt : R.nowMs < retry)
    (h : R.wakesAt = some t) : R.nowMs < t := by
  have hleast := leastOf_retry hr
  rw [h] at hleast
  obtain ⟨x, hx, rfl⟩ := hleast.1
  rcases hx with rfl | ⟨r, -, hlate, rfl⟩
  · exact lt_max_of_lt_right hlt
  · exact lt_max_of_lt_right hlate

theorem timeoutMs_zero_iff : R.timeoutMs = some 0 ↔ R.wakesAt = some R.nowMs := by
  rw [Round.wakesAt, Option.map_eq_some_iff]
  constructor
  · intro h
    exact ⟨0, h, Int.add_zero _⟩
  · rintro ⟨timeout, h, he⟩
    rw [h, show timeout = 0 by omega]

/-- Who is asked has a retry of its own. -/
def Round.Answers (R : Round) : Prop :=
  ∀ p, R.pass = some p → p.authorization.retryAfterMs ≠ none → p.candidates ≠ []

theorem retry_mem_progress (ha : R.Answers) {retry : Int} (hr : R.retryAfterMs = some retry) :
    max R.nowMs retry ∈ R.progress := by
  obtain ⟨p, hp, hretry⟩ := Option.bind_eq_some_iff.mp hr
  exact .inl ⟨p, hp, ha p hp (by simp [hretry]), retry, hretry, rfl⟩

/-- The times of progress, while a retry is still to come and everything due waits for it. -/
theorem progress_eq (ha : R.Answers) (hu : R.NoneUnasked) {retry : Int} (hr : R.retryAfterMs = some retry)
    (hlt : R.nowMs < retry) : R.progress =
      max R.nowMs '' insert retry {t | ∃ r, R.Live r ∧ R.nowMs < R.dueAt r ∧ t = R.dueAt r} := by
  ext t
  constructor
  · rintro (⟨p, hp, -, retry', hretry, rfl⟩ | ⟨r, hl, hb, rfl⟩)
    · have heq : R.retryAfterMs = some retry' := by simp [Round.retryAfterMs, hp, hretry]
      cases hr.symm.trans heq
      exact ⟨retry, Set.mem_insert _ _, rfl⟩
    · refine ⟨R.dueAt r, Set.mem_insert_of_mem _ ⟨r, hl, not_le.mp fun hd => hb ?_, rfl⟩, rfl⟩
      exact ⟨hd, hu retry hr hlt r hl hd, by simp [hr]⟩
  · rintro ⟨_, rfl | ⟨r, hl, hlate, rfl⟩, rfl⟩
    · exact retry_mem_progress ha hr
    · exact .inr ⟨r, hl, fun hb => absurd hb.1 hlate.not_ge, rfl⟩

/-- The scheduler wakes when the first thing can go on. -/
theorem leastOf_progress (ha : R.Answers) (hu : R.NoneUnasked) : LeastOf R.progress R.wakesAt := by
  cases hr : R.retryAfterMs with
  | none =>
    have heq : R.progress = {t | ∃ r, R.Live r ∧ t = max R.nowMs (R.dueAt r)} := by
      ext t
      constructor
      · rintro (⟨p, hp, -, retry, hretry, -⟩ | ⟨r, hl, -, rfl⟩)
        · simp [Round.retryAfterMs, hp, hretry] at hr
        · exact ⟨r, hl, rfl⟩
      · rintro ⟨r, hl, rfl⟩
        exact .inr ⟨r, hl, fun hb => hb.2.2 hr, rfl⟩
    rw [heq, wakesAt_eq, Round.deadlineMs, hr]
    exact leastOf_deadline R
  | some retry =>
    by_cases hlt : R.nowMs < retry
    · rw [progress_eq ha hu hr hlt]
      exact leastOf_retry hr
    · have hmax : max R.nowMs retry = R.nowMs := max_eq_left (not_lt.mp hlt)
      obtain ⟨t, ht, hle⟩ := (leastOf_retry hr).mem ⟨retry, Set.mem_insert _ _, hmax⟩
      rw [ht, le_antisymm hle (nowMs_le_wakesAt ht)]
      exact ⟨hmax ▸ retry_mem_progress ha hr, fun _ h => progress_le h⟩

/-- The wake is right exactly if nothing came due unasked behind a retry. -/
theorem wakes_iff (ha : R.Answers) : R.Wakes ↔ R.NoneUnasked := by
  constructor
  · intro h retry hr hlt r hl hd
    by_contra hn
    obtain ⟨t, ht, hle⟩ := h.unmasked r hl fun hb => hn hb.2.1
    rw [max_eq_left hd] at hle
    exact absurd hle (nowMs_lt_wakesAt hr hlt ht).not_ge
  · intro hu
    have hleast := leastOf_progress ha hu
    refine ⟨hleast, fun r hl hb => hleast.mem (.inr ⟨r, hl, hb, rfl⟩), fun h => ?_⟩
    rw [timeoutMs_zero_iff.mp h] at hleast
    rcases hleast.1 with ⟨p, hp, -, retry, hretry, he⟩ | ⟨r, hl, hb, he⟩
    · exact .inr ⟨retry, by simp [Round.retryAfterMs, hp, hretry], max_eq_left_iff.mp he.symm⟩
    · exact .inl ⟨r, hl, hb, max_eq_left_iff.mp he.symm⟩

end Wake

section Verdicts

/-- What the sync client answers, whichever way the answer came about. -/
structure Verdict (es : List SyncEvent) (entry : List ReminderRow × Authorization) : Prop where
  asked : entry.2.retryAfterMs ≠ none → entry.1 ≠ []
  granted : entry.2.retryAfterMs = none → ∀ c ∈ entry.1, c.occurrenceId ∈ entry.2.occurrenceIds
  refused : entry.1 ≠ [] → entry.2.occurrenceIds = [] → ∃ nowMs newClaimId,
    .authorize entry.1 nowMs newClaimId ∈ es ∧ entry.2.retryAfterMs = some (nowMs + deliveryClaimRetryMs)

/-- The row a claim has stored its id in. -/
def ClaimPhase.persisted : ClaimPhase → Option ReminderRow
  | .posting row _ => some row
  | .acquiring row _ _ => some row
  | _ => none

structure Claim.Begun (es : List SyncEvent) (claim : Claim) : Prop where
  event : ∃ newClaimId, .authorize claim.candidates claim.nowMs newClaimId ∈ es
  mem : claim.candidate ∈ claim.candidates
  alone : claim.others = false → claim.candidates = [claim.candidate]
  persisted : ∀ row ∈ claim.phase.persisted, row.occurrenceId = claim.candidate.occurrenceId

structure SyncState.Accounted (es : List SyncEvent) (s : SyncState) : Prop where
  claims : ∀ claim ∈ s.claims, claim.Begun es
  returned : ∀ entry ∈ s.returned, Verdict es entry

variable {es : List SyncEvent} {s s' : SyncState} {j : Nat} {claim : Claim}

theorem SyncState.Accounted.of_eq (h : s.Accounted es) (hc : s'.claims = s.claims) (hr : s'.returned = s.returned) :
    s'.Accounted es := ⟨hc ▸ h.claims, hr ▸ h.returned⟩

theorem SyncState.Accounted.setClaim (h : s.Accounted es) (hb : claim.Begun es) {phase : ClaimPhase}
    (hp : ∀ row ∈ phase.persisted, row.occurrenceId = claim.candidate.occurrenceId) :
    (s.setClaim j claim phase).Accounted es where
  claims claim' hc := by
    rcases List.mem_or_eq_of_mem_set hc with hc | rfl
    · exact h.claims claim' hc
    · exact { hb with persisted := hp }
  returned := h.returned

theorem SyncState.Accounted.setBare (h : s.Accounted es) (hb : claim.Begun es) {phase : ClaimPhase}
    (hp : phase.persisted = none) : (s.setClaim j claim phase).Accounted es :=
  h.setClaim hb fun row hr => by
    rw [hp] at hr
    cases hr

theorem SyncState.Accounted.deliver (h : s.Accounted es) {candidates : List ReminderRow}
    {authorization : Authorization} (hv : Verdict es (candidates, authorization)) :
    (s.deliver candidates authorization).Accounted es where
  claims := h.claims
  returned entry he := by
    rcases List.mem_append.mp he with he | he
    · exact h.returned entry he
    · rw [List.mem_singleton.mp he]
      exact hv

theorem SyncState.Accounted.retry (h : s.Accounted es) (hb : claim.Begun es) : (s.retry j claim).Accounted es := by
  refine (h.setBare hb rfl).deliver ⟨fun _ => List.ne_nil_of_mem hb.mem, fun hr => ?_, fun _ _ => ?_⟩
  · cases hr
  · obtain ⟨newClaimId, hm⟩ := hb.event
    exact ⟨claim.nowMs, newClaimId, hm, rfl⟩

theorem SyncState.Accounted.resume (h : s.Accounted es) : (s.resume j).Accounted es := by
  unfold SyncState.resume
  split
  · rename_i claim hk
    split
    · exact h.retry (h.claims claim (List.mem_of_getElem? hk))
    · exact h
  · exact h

theorem SyncState.Accounted.release (h : s.Accounted es) (loop : Loop) : (s.release loop).Accounted es := by
  unfold SyncState.release
  split
  · exact h
  · split
    · exact h
    · exact h.resume

theorem SyncState.Accounted.conclude (h : s.Accounted es) (i : Nat) (loop : Loop) :
    (s.conclude i loop).Accounted es := by
  unfold SyncState.conclude
  dsimp only
  split
  · refine SyncState.Accounted.release ?_ loop
    exact h.of_eq rfl rfl
  · refine SyncState.Accounted.release ?_ loop
    exact h.of_eq rfl rfl
  · exact h.of_eq rfl rfl

theorem SyncState.Accounted.store (h : s.Accounted es) (tables : Tables) :
    SyncState.Accounted es { s with tables := tables } := h.of_eq rfl rfl

/-- The stored row is the one that was asked for. -/
theorem persistReminderDeliveryClaimId_row (host : Host) (occurrenceId : String) (revision : Nat) (claimId : String) :
    Does (fun _ row _ => ∀ r ∈ row, r.occurrenceId = occurrenceId)
      (persistReminderDeliveryClaimId host occurrenceId revision claimId) := by
  have hbody : Does (fun _ _ _ => True)
      (transaction (persistReminderDeliveryClaimIdBody occurrenceId revision claimId)) :=
    does_transaction (fun _ _ _ _ => trivial) fun _ _ _ _ => trivial
  refine Does.raiseIf fun _ =>
    (hbody.read fun known (t : Tables) => if known = true then t.getOccurrence occurrenceId else none).mono ?_
  rintro s row s' ⟨known, -, rfl⟩ r hr
  cases known with
  | false => cases hr
  | true =>
    rw [if_pos rfl, Option.mem_def, Tables.getOccurrence] at hr
    have hfound := List.find?_some hr
    exact of_decide_eq_true hfound

theorem SyncState.Accounted.persistClaim {host : SyncHost} (h : s.Accounted es) (hb : claim.Begun es)
    (claimId : String) : (Reminders.persistClaim host s j claim claimId).Accounted es := by
  unfold Reminders.persistClaim
  split
  · exact (h.store _).retry hb
  · rename_i persisted c hok
    dsimp only
    split
    · exact (h.store _).retry hb
    · rename_i row
      split
      · exact (h.store _).retry hb
      · refine (h.store _).setClaim hb fun r hr => ?_
        obtain rfl := Option.some.inj hr
        exact ((persistReminderDeliveryClaimId_row _ _ _ _).ok hok).2 row rfl

theorem SyncState.Accounted.answerClaim {host : SyncHost} (h : s.Accounted es) (hb : claim.Begun es)
    {persisted : ReminderRow} {claimId : String} (hp : claim.phase = .posting persisted claimId)
    (answer : ClaimAnswer) : (Reminders.answerClaim host s j claim persisted claimId answer).Accounted es := by
  have hid := hb.persisted persisted (by rw [hp]; rfl)
  have hclosed : SyncState.Accounted es { s with deliveryReady := false } := h.of_eq rfl rfl
  unfold Reminders.answerClaim
  split
  · exact h.setBare hb rfl
  · exact h.retry hb
  · split
    · exact h.retry hb
    · refine h.setClaim hb fun row hr => ?_
      obtain rfl := Option.some.inj hr
      exact hid
    · exact h.retry hb
    · have hset : (({ s with deliveryReady := false } : SyncState).setClaim j claim .reconciling).Accounted es :=
        hclosed.setBare hb rfl
      exact hset.of_eq rfl rfl

theorem SyncState.Accounted.acquireClaim (h : s.Accounted es) (hb : claim.Begun es) {persisted : ReminderRow}
    {claimId : String} {leaseExpiresAtMs : Int} (hp : claim.phase = .acquiring persisted claimId leaseExpiresAtMs) :
    (Reminders.acquireClaim s j claim persisted claimId leaseExpiresAtMs).Accounted es := by
  have hid := hb.persisted persisted (by rw [hp]; rfl)
  unfold Reminders.acquireClaim
  split
  · exact (h.store _).setBare hb rfl
  · dsimp only
    split
    · exact (h.store _).retry hb
    · refine ((h.store _).setBare hb rfl).deliver
        ⟨fun _ => List.ne_nil_of_mem hb.mem, fun hr c hc => ?_, fun _ hids => ?_⟩
      · have halone : claim.others = false := by simpa using hr
        rw [hb.alone halone] at hc
        rw [List.mem_singleton.mp hc]
        exact List.mem_singleton.mpr hid.symm
      · cases hids

/-- The synchronous answers of the authorizer. -/
theorem authorize_verdict {candidates : List ReminderRow} {nowMs : Int} {newClaimId : String}
    (hm : .authorize candidates nowMs newClaimId ∈ es) {authorization : Authorization}
    (h : authorize s candidates nowMs newClaimId = .inl authorization) : Verdict es (candidates, authorization) := by
  have hretry (hne : candidates ≠ []) : Verdict es (candidates, ⟨[], some (nowMs + deliveryClaimRetryMs)⟩) :=
    ⟨fun _ => hne, fun hr => (by cases hr), fun _ _ => ⟨nowMs, newClaimId, hm, rfl⟩⟩
  unfold authorize at h
  dsimp only at h
  split at h
  · rename_i hnil
    cases h
    exact ⟨fun hr => absurd rfl hr, fun _ c hc => (by rw [hnil] at hc; cases hc), fun hne => absurd hnil hne⟩
  rename_i hne
  split at h
  · cases h
    exact hretry hne
  split at h
  · rename_i hlocal
    cases h
    refine ⟨fun _ => hne, fun hr c hc => ?_, fun _ hids => absurd hids hlocal⟩
    -- no retry means that there was no remote candidate
    have hremote : candidates.filter (¬ ·.isUnpreparedLocalOnly) = [] := by
      by_contra hf
      rw [if_pos hf] at hr
      cases hr
    have hl : c.isUnpreparedLocalOnly = true := by simpa using List.filter_eq_nil_iff.mp hremote c hc
    exact List.mem_map_of_mem (List.mem_filter.mpr ⟨hc, hl⟩)
  rename_i hlocal
  split at h
  · rename_i hremote
    rw [not_not, List.map_eq_nil_iff] at hlocal
    refine absurd (List.eq_nil_iff_forall_not_mem.mpr fun c hc => ?_) hne
    have hl := List.filter_eq_nil_iff.mp hlocal c hc
    exact absurd (by simpa using List.filter_eq_nil_iff.mp hremote c hc) hl
  split at h
  · cases h
    exact hretry hne
  split at h
  · cases h
    exact hretry hne
  · cases h

/-- A claim is made for the first of the candidates, which are all remote. -/
theorem authorize_begun {candidates : List ReminderRow} {nowMs : Int} {newClaimId : String}
    (hm : .authorize candidates nowMs newClaimId ∈ es) {claim : Claim}
    (h : authorize s candidates nowMs newClaimId = .inr claim) : claim.Begun es := by
  unfold authorize at h
  dsimp only at h
  split at h
  · cases h
  split at h
  · cases h
  split at h
  · cases h
  rename_i hlocal
  rw [not_not, List.map_eq_nil_iff] at hlocal
  have hall : candidates.filter (¬ ·.isUnpreparedLocalOnly) = candidates :=
    List.filter_eq_self.mpr fun c hc => by simpa using List.filter_eq_nil_iff.mp hlocal c hc
  split at h
  · cases h
  rename_i candidate others hcons
  rw [hall] at hcons
  split at h
  · cases h
  split at h
  · cases h
  · cases h
    refine ⟨⟨newClaimId, hm⟩, by simp [hcons], fun ho => ?_, fun row hr => by cases hr⟩
    have hnil : others = [] := by simpa using ho
    rw [hcons, hnil]

/-- One event. -/
theorem SyncState.Accounted.step {host : SyncHost} (h : s.Accounted es) (e : SyncEvent) (he : e ∈ es) :
    (s.step host e).Accounted es := by
  cases e with
  | connected | reconcile | store op => exact h.of_eq rfl rfl
  | respond i answer =>
    simp only [SyncState.step]
    split
    · split
      · refine SyncState.Accounted.conclude ?_ i _
        exact h.of_eq rfl rfl
      · exact h
    · exact h
  | apply i =>
    simp only [SyncState.step]
    split
    · split
      · exact (h.store _).conclude i _
      · exact h
    · exact h
  | authorize candidates nowMs newClaimId =>
    simp only [SyncState.step]
    split
    · rename_i authorization ha
      exact h.deliver (authorize_verdict he ha)
    · rename_i claim ha
      refine ⟨fun claim' hc => ?_, h.returned⟩
      rcases List.mem_append.mp hc with hc | hc
      · exact h.claims claim' hc
      · rw [List.mem_singleton.mp hc]
        exact authorize_begun he ha
  | persist j =>
    simp only [SyncState.step]
    split
    · rename_i claim hk
      split
      · exact h.persistClaim (h.claims claim (List.mem_of_getElem? hk)) _
      · exact h
    · exact h
  | answer j answer =>
    simp only [SyncState.step]
    split
    · rename_i claim hk
      split
      · rename_i persisted claimId hp
        exact h.answerClaim (h.claims claim (List.mem_of_getElem? hk)) hp answer
      · exact h
    · exact h
  | acquire j =>
    simp only [SyncState.step]
    split
    · rename_i claim hk
      split
      · rename_i persisted claimId leaseExpiresAtMs hp
        exact h.acquireClaim (h.claims claim (List.mem_of_getElem? hk)) hp
      · exact h
    · exact h

theorem run_accounted (host : SyncHost) (t : Tables) (es : List SyncEvent) :
    (run (SyncState.step host) { tables := t } es).Accounted es := by
  have hstart : SyncState.Accounted es { tables := t } := ⟨fun _ hc => (by cases hc), fun _ he => (by cases he)⟩
  suffices hall : ∀ es' s, es' ⊆ es → SyncState.Accounted es s → (run (SyncState.step host) s es').Accounted es from
    hall es _ (List.Subset.refl es) hstart
  intro es'
  induction es' with
  | nil => exact fun s _ hs => hs
  | cons e es' ih =>
    intro s hsub hs
    exact ih _ (fun x hx => hsub (List.mem_cons_of_mem e hx)) (hs.step e (hsub List.mem_cons_self))

end Verdicts

/-- The wake of the scheduler. After a pass that the sync client has answered, the scheduler
wakes at the first time at which any occurrence can go on, with nothing masked and no empty
wait, exactly if no occurrence has come due since the pass read its candidates that a retry
still to come now stands before. A pass that authorized nothing always has such a retry. -/
theorem scheduler_wakes_iff (host : SyncHost) (t : Tables) (es : List SyncEvent) (R : Round)
    (h : ∀ p, R.pass = some p →
      (p.candidates, p.authorization) ∈ (run (SyncState.step host) { tables := t } es).returned) :
    (R.Wakes ↔ R.NoneUnasked) ∧
    ∀ p, R.pass = some p →
      (p.authorization.retryAfterMs = none → ∀ c ∈ p.candidates, c.occurrenceId ∈ p.authorization.occurrenceIds) ∧
      (p.candidates ≠ [] → p.authorization.occurrenceIds = [] → ∃ nowMs newClaimId,
        .authorize p.candidates nowMs newClaimId ∈ es ∧
        p.authorization.retryAfterMs = some (nowMs + deliveryClaimRetryMs)) := by
  have hv (p : Pass) (hp : R.pass = some p) : Verdict es (p.candidates, p.authorization) :=
    (run_accounted host t es).returned _ (h p hp)
  exact ⟨wakes_iff fun p hp => (hv p hp).asked, fun p hp => ⟨(hv p hp).granted, (hv p hp).refused⟩⟩

section Masking

/-- An uploaded occurrence that is due at 5, and a local one that is due at 40. -/
def twoReminders : Tables :=
  run (Reminders.step plainHost) uploadedStore [.create "feed the cat" "dm:bob" 40 "r2" "o2" 1]

def localReminder : ReminderRow := scheduledRow "r2" "o2" "dm:bob" "feed the cat" 40 1

/-- The claim for the uploaded one is made at 6 and fails. -/
def failedClaim : List SyncEvent := [.reconcile, .respond 0 (.page emptySnapshot),
  .authorize [uploadedReminder] 6 "c1", .persist 0, .answer 0 .failed]

def failedPass : Pass := ⟨twoReminders, 6, ⟨[], some 5006⟩⟩

def failedStore : Tables := (run (SyncState.step plainSyncHost) { tables := twoReminders } failedClaim).tables

/-- The turn after it, at `nowMs`. -/
def failedRound (nowMs : Int) : Round := ⟨some failedPass, failedStore, nowMs⟩

theorem twoReminders_rows : twoReminders.reminderOccurrences.rows = [uploadedReminder, localReminder] := by
  decide +kernel

theorem failedPass_candidates : failedPass.candidates = [uploadedReminder] := by
  rw [Pass.candidates, failedPass, dueReminderDeliveryCandidates, Tables.orderedReminders, Table.select,
    twoReminders_rows]
  decide +kernel

theorem failedClaim_run : (run (SyncState.step plainSyncHost) { tables := twoReminders } failedClaim).returned =
      [([uploadedReminder], ⟨[], some 5006⟩)] ∧
    failedStore.reminderOccurrences.rows = [withClaimId "c1" uploadedReminder, localReminder] := by
  decide +kernel

theorem failedRound_answered (nowMs : Int) (p : Pass) (hp : (failedRound nowMs).pass = some p) :
    (p.candidates, p.authorization) ∈
      (run (SyncState.step plainSyncHost) { tables := twoReminders } failedClaim).returned := by
  obtain rfl := Option.some.inj hp
  rw [failedClaim_run.1, failedPass_candidates]
  exact List.mem_singleton_self _

theorem failedRound_rows (nowMs : Int) : (failedRound nowMs).tables.reminderOccurrences.rows =
    [withClaimId "c1" uploadedReminder, localReminder] := by
  simp only [failedRound, failedClaim_run.2]

/-- At 30 the local occurrence is not due yet, and the scheduler wakes for it. -/
theorem scheduler_wakes_in_time : (failedRound 30).Wakes := by
  refine (scheduler_wakes_iff plainSyncHost twoReminders failedClaim (failedRound 30)
    (failedRound_answered 30)).1.mpr fun retry _ _ r hl hd => ⟨failedPass, rfl, uploadedReminder, ?_, ?_⟩
  · rw [failedPass_candidates]
    exact List.mem_singleton_self _
  · have hr := hl.stored
    rw [failedRound_rows] at hr
    rcases List.mem_cons.mp hr with rfl | hr
    · rfl
    · rw [List.mem_singleton.mp hr] at hd
      exact absurd hd (by decide)

/-- While the claim was failing the local occurrence came due. At 100 the scheduler puts it
off to the retry at 5006. -/
theorem retry_masks_due : (∀ p, (failedRound 100).pass = some p → (p.candidates, p.authorization) ∈
      (run (SyncState.step plainSyncHost) { tables := twoReminders } failedClaim).returned) ∧
    (failedRound 100).wakesAt = some 5006 ∧ ¬ (failedRound 100).Wakes := by
  have hw : (failedRound 100).wakesAt = some 5006 := by
    simp only [Round.wakesAt, Round.timeoutMs, Round.deadlineMs, Round.independentDeadline, nextReminderDeadline,
      scheduledDeadline, Tables.countReminders, Tables.orderedReminders, Table.select, failedRound_rows]
    decide +kernel
  refine ⟨failedRound_answered 100, hw, fun h => ?_⟩
  have hlive : (failedRound 100).Live localReminder := by
    refine ⟨?_, by decide, by decide⟩
    rw [failedRound_rows]
    decide
  have hfree : ¬ (failedRound 100).Blocked localReminder := by
    rintro ⟨-, ⟨p, hp, c, hc, he⟩, -⟩
    obtain rfl := Option.some.inj hp
    rw [failedPass_candidates] at hc
    rw [List.mem_singleton.mp hc] at he
    exact absurd he (by decide)
  obtain ⟨t, ht, hle⟩ := h.unmasked localReminder hlive hfree
  cases hw.symm.trans ht
  exact absurd hle (by decide)

end Masking
end PuffoAgent.Reminders
