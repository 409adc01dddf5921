import PuffoAgent.Reminders.SyncSteps
import PuffoAgent.Reminders.Revisions
import PuffoAgent.Reminders.Replacement
import Mathlib.Data.List.Sort

/-! A reconciliation asks for finitely many pages, accepts occurrences in increasing order
and opens delivery only when it has come to the end. -/
namespace PuffoAgent.Reminders
open Relational Stmt Sql Store Text Machine

section Validation
variable {host : SyncHost}

/-- A row that is accepted is a remote fact in the sense of the store's transactions. -/
structure Remote (r : RemoteOccurrence) : Prop where
  known : r.lifecycle = .scheduled ∨ r.lifecycle = .cancelled ∨ r.lifecycle = .delivered
  revision : r.revision = lifecycleRevision r.lifecycle

theorem remoteLifecycle_ok {value : Option Json} {lifecycle : ReminderState}
    (h : remoteLifecycle value = .ok lifecycle) :
    lifecycle = .scheduled ∨ lifecycle = .cancelled ∨ lifecycle = .delivered := by
  unfold remoteLifecycle at h
  split at h <;> simp_all

theorem validateSnapshotRow_ok {value : Json} {r : RemoteOccurrence}
    (h : validateSnapshotRow host value = .ok r) : Remote r := by
  simp only [validateSnapshotRow, demand_bind_ok_iff] at h
  obtain ⟨-, h⟩ := h
  obtain ⟨lifecycle, hl, h⟩ := except_bind_ok_iff.mp h
  obtain ⟨occurrenceId, -, h⟩ := except_bind_ok_iff.mp h
  obtain ⟨reminderId, -, h⟩ := except_bind_ok_iff.mp h
  have hknown := remoteLifecycle_ok hl
  split at h
  · simp only [demand_bind_ok_iff] at h
    obtain ⟨-, -, h⟩ := h
    obtain ⟨intendedAtMs, -, h⟩ := except_bind_ok_iff.mp h
    obtain ⟨lifecycleAtMs, -, h⟩ := except_bind_ok_iff.mp h
    split at h
    · obtain ⟨⟨opaquePayload, target, content⟩, -, h⟩ := except_bind_ok_iff.mp h
      cases h
      exact ⟨hknown, rfl⟩
    · cases h
      exact ⟨hknown, rfl⟩
  · cases h

theorem mapM_ok {α β : Type} {f : α → Except SyncError β} {P : β → Prop} (hf : ∀ a b, f a = .ok b → P b)
    {as : List α} {bs : List β} (h : as.mapM f = .ok bs) : bs.length = as.length ∧ ∀ b ∈ bs, P b := by
  induction as generalizing bs with
  | nil =>
    cases h
    exact ⟨rfl, nofun⟩
  | cons a as ih =>
    rw [List.mapM_cons] at h
    obtain ⟨b, hb, h⟩ := except_bind_ok_iff.mp h
    obtain ⟨bs', hbs, h⟩ := except_bind_ok_iff.mp h
    cases h
    obtain ⟨hlen, hall⟩ := ih hbs
    exact ⟨congrArg (· + 1) hlen, List.forall_mem_cons.mpr ⟨hf a b hb, hall⟩⟩

/-- What is known of an accepted page. -/
structure Accepted (after lastOccurrenceId : Option String) (page : Page) : Prop where
  size : page.rows.length ≤ 200
  remote : ∀ r ∈ page.rows, Remote r
  increasing : page.ids.Pairwise (· < ·)
  beyond : ∀ last, lastOccurrenceId = some last → ∀ o ∈ page.ids, last < o
  progress : after.isSome = true → page.ids ≠ []

theorem pairwise_of_sorted {ids : List String} (hs : ids = ids.insertionSort (· ≤ ·))
    (hn : ids.dedup.length = ids.length) : ids.Pairwise (· < ·) := by
  have hle : ids.Pairwise (· ≤ ·) := hs ▸ ids.pairwise_insertionSort (· ≤ ·)
  have hnodup : ids.Nodup := by
    rw [← List.dedup_eq_self]
    exact ids.dedup_sublist.eq_of_length hn
  exact (hle.and hnodup).imp fun h => lt_of_le_of_ne h.1 h.2

theorem validatePage_ok {after lastOccurrenceId : Option String} {response : Json} {page : Page}
    (h : validatePage host after lastOccurrenceId response = .ok page) :
    Accepted after lastOccurrenceId page := by
  simp only [validatePage, demand_bind_ok_iff] at h
  obtain ⟨-, h⟩ := h
  split at h
  · simp only [demand_bind_ok_iff] at h
    obtain ⟨hlen, h⟩ := h
    obtain ⟨nextAfter, -, h⟩ := except_bind_ok_iff.mp h
    obtain ⟨rows, hrows, h⟩ := except_bind_ok_iff.mp h
    simp only [demand_bind_ok_iff] at h
    obtain ⟨horder, hprogress, h⟩ := h
    cases h
    obtain ⟨hsize, hremote⟩ := mapM_ok (fun _ _ => validateSnapshotRow_ok) hrows
    simp only [not_or, not_not] at horder
    obtain ⟨hsorted, hnodup, hlast⟩ := horder
    have hpair := pairwise_of_sorted hsorted hnodup
    refine ⟨hsize ▸ hlen, hremote, hpair, fun last hl o ho => ?_, fun ha hn => hprogress ⟨ha, hn⟩⟩
    obtain ⟨first, rest, he⟩ := List.exists_cons_of_ne_nil (List.ne_nil_of_mem ho)
    have hfirst : last < first := by
      by_contra hle
      have hhead : (rows.map (·.occurrenceId)).head? = some first := congrArg List.head? he
      exact hlast ⟨last, hl, first, hhead, not_lt.mp hle⟩
    have hmem : o ∈ first :: rest := he ▸ ho
    have hrest : (first :: rest).Pairwise (· < ·) := he ▸ hpair
    rcases List.mem_cons.mp hmem with rfl | hm
    · exact hfirst
    · exact hfirst.trans ((List.pairwise_cons.mp hrest).1 o hm)
  · cases h

end Validation
section Loops
variable {host : SyncHost} {loop loop' : Loop}

/-- What its variables say at each point of the loop. -/
def Loop.Standing (loop : Loop) : Prop :=
  match loop.phase with
  | .fetching => loop.answers = loop.pages ∧ loop.pages < maxSnapshotPages ∧
      loop.lastOccurrenceId = loop.accepted.getLast?
  | .applying rows page => loop.answers = loop.pages + 1 ∧ loop.pages < maxSnapshotPages ∧
      rows ≠ [] ∧ rows.length ≤ 200 ∧ page.ids.getLast?.or loop.lastOccurrenceId = loop.accepted.getLast?
  | .finished | .raised _ => loop.answers ≤ maxSnapshotPages

structure Loop.Ordered (loop : Loop) : Prop where
  increasing : loop.accepted.Pairwise (· < ·)
  standing : loop.Standing

/-- Rows and pages that may still come. -/
def Loop.fuel (loop : Loop) : Nat :=
  match loop.phase with
  | .fetching => (maxSnapshotPages - loop.answers) * 201
  | .applying rows _ => (maxSnapshotPages - loop.answers) * 201 + rows.length
  | .finished | .raised _ => 0

theorem le_of_getLast? {ids : List String} {last : String} (h : ids.Pairwise (· < ·))
    (hl : ids.getLast? = some last) {o : String} (ho : o ∈ ids) : o ≤ last := by
  induction ids with
  | nil => cases ho
  | cons a ids ih =>
    obtain ⟨ha, htail⟩ := List.pairwise_cons.mp h
    rw [List.getLast?_cons] at hl
    cases hlast : ids.getLast? with
    | none =>
      rw [List.getLast?_eq_none_iff] at hlast
      subst hlast
      obtain rfl := List.mem_singleton.mp ho
      exact (Option.some.inj hl).le
    | some b =>
      rw [hlast, Option.getD_some, Option.some.injEq] at hl
      subst hl
      rcases List.mem_cons.mp ho with rfl | hm
      · exact (ha _ (List.mem_of_getLast? hlast)).le
      · exact ih htail hlast hm

theorem turn_standing {page : Page} (ha : loop.answers = loop.pages + 1) (hp : loop.pages < maxSnapshotPages)
    (hl : page.ids.getLast?.or loop.lastOccurrenceId = loop.accepted.getLast?) :
    (loop.turn page).Standing ∧ (loop.turn page).accepted = loop.accepted ∧
      (loop.turn page).answers = loop.answers := by
  unfold Loop.turn
  dsimp only
  split
  · exact ⟨(by change loop.answers ≤ maxSnapshotPages; omega), rfl, rfl⟩
  · split_ifs with h₁ h₂
    · exact ⟨(by change loop.answers ≤ maxSnapshotPages; omega), rfl, rfl⟩
    · exact ⟨(by change loop.answers ≤ maxSnapshotPages; omega), rfl, rfl⟩
    · exact ⟨⟨ha, not_le.mp h₂, hl⟩, rfl, rfl⟩

theorem turn_fuel {page : Page} : (loop.turn page).fuel ≤ (maxSnapshotPages - loop.answers) * 201 := by
  unfold Loop.turn
  dsimp only
  split
  · exact Nat.zero_le _
  · split_ifs
    · exact Nat.zero_le _
    · exact Nat.zero_le _
    · exact le_rfl

theorem proceed_standing {rows : List RemoteOccurrence} {page : Page} (hr : rows.length ≤ 200)
    (ha : loop.answers = loop.pages + 1) (hp : loop.pages < maxSnapshotPages)
    (hl : page.ids.getLast?.or loop.lastOccurrenceId = loop.accepted.getLast?) :
    (loop.proceed rows page).Standing ∧ (loop.proceed rows page).accepted = loop.accepted ∧
      (loop.proceed rows page).fuel ≤ (maxSnapshotPages - loop.answers) * 201 + rows.length := by
  unfold Loop.proceed
  split_ifs with hn
  · obtain ⟨hs, hacc, -⟩ := turn_standing ha hp hl
    exact ⟨hs, hacc, turn_fuel.trans (Nat.le_add_right _ _)⟩
  · exact ⟨⟨ha, hp, hn, hr, hl⟩, rfl, le_rfl⟩

/-- Each step keeps the order and uses up fuel. -/
theorem Loop.Ordered.advance (h : loop.Ordered) (ha : Advance host loop loop') :
    loop'.Ordered ∧ loop'.fuel < loop.fuel := by
  have hstand := h.standing
  cases ha with
  | responded answer fetching =>
    simp only [Loop.Standing, fetching] at hstand
    obtain ⟨hcount, hmax, hlast⟩ := hstand
    have hfuel : loop.fuel = (maxSnapshotPages - loop.answers) * 201 := by simp [Loop.fuel, fetching]
    have hraised (e : SyncError) : Loop.Ordered { loop with answers := loop.answers + 1, phase := .raised e } ∧
        Loop.fuel { loop with answers := loop.answers + 1, phase := .raised e } < loop.fuel := by
      refine ⟨⟨h.increasing, ?_⟩, ?_⟩
      · change loop.answers + 1 ≤ maxSnapshotPages
        omega
      · rw [hfuel]
        change 0 < _
        omega
    unfold Loop.respond
    cases answer with
    | cancelled => exact hraised _
    | failed retryable => exact hraised _
    | page response =>
      dsimp only
      cases hv : validatePage host loop.after loop.lastOccurrenceId response with
      | error e => exact hraised e
      | ok page =>
        have hpage := validatePage_ok hv
        have hsorted : (loop.accepted ++ page.ids).Pairwise (· < ·) := by
          refine List.pairwise_append.mpr ⟨h.increasing, hpage.increasing, fun a hm o ho => ?_⟩
          obtain ⟨last, hl⟩ := Option.isSome_iff_exists.mp
            (List.getLast?_isSome.mpr (List.ne_nil_of_mem hm))
          exact (le_of_getLast? h.increasing hl hm).trans_lt (hpage.beyond last (hlast.trans hl) o ho)
        let taken : Loop := { loop with answers := loop.answers + 1, accepted := loop.accepted ++ page.ids }
        have htaken : page.ids.getLast?.or taken.lastOccurrenceId = taken.accepted.getLast? := by
          rw [List.getLast?_append, hlast]
        have hplus : taken.answers = taken.pages + 1 := congrArg (· + 1) hcount
        obtain ⟨hs, hacc, hle⟩ := proceed_standing hpage.size hplus hmax htaken
        refine ⟨⟨by rw [hacc]; exact hsorted, hs⟩, hle.trans_lt ?_⟩
        rw [hfuel]
        have hsize := hpage.size
        change (maxSnapshotPages - (loop.answers + 1)) * 201 + page.rows.length < _
        omega
  | applied s applying =>
    rename_i remote rows page
    simp only [Loop.Standing, applying] at hstand
    obtain ⟨hcount, hmax, -, hsize, hlast⟩ := hstand
    have hfuel : loop.fuel = (maxSnapshotPages - loop.answers) * 201 + (remote :: rows).length := by
      simp [Loop.fuel, applying]
    have hraised (e : SyncError) : Loop.Ordered { loop with phase := .raised e } ∧
        Loop.fuel { loop with phase := .raised e } < loop.fuel := by
      refine ⟨⟨h.increasing, ?_⟩, ?_⟩
      · change loop.answers ≤ maxSnapshotPages
        omega
      · rw [hfuel]
        exact Nat.succ_pos _
    unfold Loop.apply
    split
    · exact hraised _
    · split
      · exact hraised _
      · rename_i result c _
        let counted : Loop := { loop with changed := if result.changed then loop.changed + 1 else loop.changed }
        have hcounted : counted.answers = counted.pages + 1 := hcount
        obtain ⟨hs, hacc, hle⟩ := proceed_standing (Nat.le_of_succ_le hsize) hcounted hmax hlast
        refine ⟨⟨by rw [hacc]; exact h.increasing, hs⟩, hle.trans_lt ?_⟩
        rw [hfuel]
        exact Nat.lt_succ_self _

end Loops
section Runs
variable {host : SyncHost} {s : SyncState} {i : Nat} {loop loop' : Loop} {e : SyncEvent}

def AllOrdered (s : SyncState) : Prop := ∀ (i : Nat) (loop : Loop), s.loops[i]? = some loop → loop.Ordered

theorem begun_ordered (begun : Nat) (authorization : Option Nat) :
    Loop.Ordered { begun := begun, authorization := authorization } :=
  ⟨.nil, rfl, show 0 < maxSnapshotPages by decide, rfl⟩

theorem AllOrdered.step (h : AllOrdered s) : AllOrdered (s.step host e) := by
  intro i loop' hk
  rcases (step_loopMove host s e).origin hk with ⟨loop, hl, rfl | ha⟩ | ⟨authorization, rfl⟩
  · exact h i _ hl
  · exact ((h i loop hl).advance ha).1
  · exact begun_ordered _ _

/-- The reconciliation's own next event. -/
def Loop.Due (loop : Loop) (i : Nat) : SyncEvent → Prop
  | .respond j _ => j = i ∧ loop.phase = .fetching
  | .apply j => j = i ∧ ∃ rows page, loop.phase = .applying rows page
  | _ => False

/-- Its own events move a reconciliation, whatever the answer is. -/
theorem AllOrdered.due (h : AllOrdered s) (hk : s.loops[i]? = some loop) (hd : loop.Due i e) :
    ∃ loop', (s.step host e).loops[i]? = some loop' ∧ Advance host loop loop' := by
  have hi : i < s.loops.length := (List.getElem?_eq_some_iff.mp hk).1
  cases e with
  | respond j answer =>
    obtain ⟨rfl, hf⟩ := hd
    refine ⟨_, ?_, .responded answer hf⟩
    simp only [SyncState.step, hk, if_pos hf, conclude_loops]
    rw [List.getElem?_set_self hi]
  | apply j =>
    obtain ⟨rfl, rows, page, ha⟩ := hd
    have hstand := (h j loop hk).standing
    simp only [Loop.Standing, ha] at hstand
    obtain ⟨remote, rest, rfl⟩ := List.exists_cons_of_ne_nil hstand.2.2.1
    refine ⟨_, ?_, .applied s.tables ha⟩
    simp only [SyncState.step, hk, ha, conclude_loops]
    rw [List.getElem?_set_self hi]
  | _ => exact absurd hd id

/-- How often a reconciliation moves in a run. -/
def moves (host : SyncHost) (i : Nat) : SyncState → List SyncEvent → Nat
  | _, [] => 0
  | s, e :: es => (if (s.step host e).loops[i]? = s.loops[i]? then 0 else 1) + moves host i (s.step host e) es

theorem AllOrdered.run_fuel (h : AllOrdered s) (hk : s.loops[i]? = some loop) (es : List SyncEvent) :
    ∃ loop', (run (SyncState.step host) s es).loops[i]? = some loop' ∧
      moves host i s es + loop'.fuel ≤ loop.fuel := by
  induction es generalizing s loop with
  | nil => exact ⟨loop, hk, by rw [moves, Nat.zero_add]⟩
  | cons e es ih =>
    obtain ⟨loop₁, hk₁, hm⟩ := (step_loopMove host s e).known hk
    obtain ⟨loop', hk', hle⟩ := ih h.step hk₁
    refine ⟨loop', hk', ?_⟩
    rw [moves]
    rcases hm with rfl | ha
    · rw [if_pos (hk₁.trans hk.symm), Nat.zero_add]
      exact hle
    · have hlt := ((h i loop hk).advance ha).2
      split_ifs <;> omega

theorem run_ended (hk : s.loops[i]? = some loop) (he : loop.ended = true) (es : List SyncEvent) :
    (run (SyncState.step host) s es).loops[i]? = some loop := by
  induction es generalizing s with
  | nil => exact hk
  | cons e es ih =>
    obtain ⟨loop₁, hk₁, rfl | ha⟩ := (step_loopMove host s e).known hk
    · exact ih hk₁
    · exact absurd (ha.before.symm.trans he) (by decide)

/-- What holds of a reconciliation in a state and in every run from there. -/
structure Exhausts (host : SyncHost) (s : SyncState) (i : Nat) (loop : Loop) : Prop where
  increasing : loop.accepted.Pairwise (· < ·)
  pages : loop.answers ≤ maxSnapshotPages
  bounded : ∀ es, ∃ loop', (run (SyncState.step host) s es).loops[i]? = some loop' ∧
    moves host i s es + loop'.fuel ≤ loop.fuel
  moved : ∀ e, loop.Due i e → ∃ loop', (s.step host e).loops[i]? = some loop' ∧ loop' ≠ loop
  stays : loop.ended = true → ∀ es, (run (SyncState.step host) s es).loops[i]? = some loop

theorem Loop.Standing.answers (h : loop.Standing) : loop.answers ≤ maxSnapshotPages := by
  unfold Loop.Standing at h
  split at h <;> omega

theorem AllOrdered.exhausts (h : AllOrdered s) (hk : s.loops[i]? = some loop) : Exhausts host s i loop where
  increasing := (h i loop hk).increasing
  pages := (h i loop hk).standing.answers
  bounded := h.run_fuel hk
  moved e hd := by
    obtain ⟨loop', hk', ha⟩ := h.due hk hd
    refine ⟨loop', hk', ?_⟩
    rintro rfl
    exact absurd ((h i loop' hk).advance ha).2 (lt_irrefl _)
  stays := run_ended hk

/-- Snapshots and replacements: in every run a reconciliation accepts occurrences in
increasing order and moves on only finitely often, whatever the pages are; delivery opens
only in a step that finishes one; and a replacement settles both rows or neither. -/
theorem snapshot_exhausts (host : SyncHost) (t : Tables) (es : List SyncEvent) :
    (∀ i loop, (run (SyncState.step host) { tables := t } es).loops[i]? = some loop →
      Exhausts host (run (SyncState.step host) { tables := t } es) i loop) ∧
    (∀ e, (run (SyncState.step host) { tables := t } es).deliveryReady = false →
      (run (SyncState.step host) { tables := t } (es ++ [e])).deliveryReady = true →
      ∃ (i : Nat) (loop loop' : Loop), (run (SyncState.step host) { tables := t } es).loops[i]? = some loop ∧
        loop.ended = false ∧ loop'.phase = .finished ∧
        (run (SyncState.step host) { tables := t } (es ++ [e])).loops[i]? = some loop') ∧
    (∀ id newId newOccurrence content target intendedAtMs replacedAtMs,
      Does (fun s _ s' => LocallyReplaced id newId newOccurrence content target intendedAtMs replacedAtMs s s' ∨
          s' = s ∧ AlreadyReplaced id newId newOccurrence content target intendedAtMs s)
        (replaceLocalReminder id newId newOccurrence content target intendedAtMs replacedAtMs)) ∧
    (∀ id o cancelledAtMs remote createdAtMs lifecycle,
      Does (fun s _ s' => RemotelyReplaced id o remote s s')
        (materializeRemoteReplacement id o cancelledAtMs remote createdAtMs lifecycle)) := by
  refine ⟨fun i loop hk => ?_, fun e hc ho => ?_, replaceLocal_atomic, materializeReplacement_atomic⟩
  · have h : AllOrdered (run (SyncState.step host) { tables := t } es) :=
      run_invariant (fun _ _ hn => absurd hn (by simp)) (fun _ _ h => h.step) es
    exact h.exhausts hk
  · rw [run_append] at ho ⊢
    obtain ⟨i, loop, loop', hk, hk', ha, hf⟩ := (step_loopMove host _ e).opens hc ho
    exact ⟨i, loop, loop', hk, ha.before, hf, hk'⟩

def waterLater : RemoteReminder := ⟨"r2", "o2", "dm:bob", "water the plants later", 9, 8, 1, "v1", [1]⟩

/-- The uploaded occurrence has been delivered here under a lease, while its replacement was
on its way. -/
def deliveredStore : Tables :=
  run (Reminders.step plainHost) createdStore [.persistEnvelope "o1" "v1" [1], .acknowledge "o1" 1,
    .persistClaimId "o1" 1 "c1", .acquireClaim "o1" 1 "c1" 90, .claimAuthorized ["o1"] 6 6 6,
    .deliverClaimed "r1" 6 6 6 6]

/-- The new occurrence is created and the old one is not cancelled. -/
theorem delivered_not_cancelled :
    (deliveredStore.getOccurrence "o1").map (·.state) = some .delivered ∧
    deliveredStore.getOccurrence "o2" = none ∧
    ((Reminders.step plainHost deliveredStore (.materializeReplacement "r1" "o1" 8 waterLater 8
      .scheduled)).getOccurrence "o1").map (·.state) = some .delivered ∧
    ((Reminders.step plainHost deliveredStore (.materializeReplacement "r1" "o1" 8 waterLater 8
      .scheduled)).getOccurrence "o2").map (·.state) = some .scheduled := by
  decide +kernel

end Runs
end PuffoAgent.Reminders
