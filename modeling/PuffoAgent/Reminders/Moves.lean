import PuffoAgent.Reminders.Transitions

/-! Which rows one reminder transaction rewrites and inserts. -/
namespace PuffoAgent.Reminders
open Relational Stmt Sql Store Text

/-- Every known row is rewritten by moves of the operation, and a row that is new was
inserted by it. -/
structure Writes (op : Op) (s s' : Tables) : Prop where
  moved : ∀ k r, s.getReminder k = some r →
    ∃ r', s'.getReminder k = some r' ∧ Relation.ReflTransGen (Move op) r r'
  inserted : ∀ k r', s.getReminder k = none → s'.getReminder k = some r' →
    ∃ row, Created op row ∧ Relation.ReflTransGen (Move op) row r'

section Rules
variable {op : Op} {s t s' : Tables}

theorem Writes.of_eq (h : ∀ k, s'.getReminder k = s.getReminder k) : Writes op s s' where
  moved k r hg := ⟨r, (h k).trans hg, .refl⟩
  inserted k r' hn hg := by
    rw [h, hn] at hg
    cases hg

theorem Writes.refl (s : Tables) : Writes op s s := .of_eq fun _ => rfl

theorem Writes.trans (h : Writes op s t) (h' : Writes op t s') : Writes op s s' where
  moved k r hg := by
    obtain ⟨r₁, hg₁, hm⟩ := h.moved k r hg
    obtain ⟨r', hg', hm'⟩ := h'.moved k r₁ hg₁
    exact ⟨r', hg', hm.trans hm'⟩
  inserted k r' hn hg := by
    cases hg₁ : t.getReminder k with
    | none => exact h'.inserted k r' hg₁ hg
    | some r₁ =>
      obtain ⟨row, hc, hm⟩ := h.inserted k r₁ hn hg₁
      obtain ⟨r₂, hg₂, hm'⟩ := h'.moved k r₁ hg₁
      obtain rfl := Option.some.inj (hg₂.symm.trans hg)
      exact ⟨row, hc, hm.trans hm'⟩

theorem Writes.of_update {p : ReminderRow → Bool} {f : ReminderRow → ReminderRow}
    (hm : s'.reminderOccurrences.rows =
      s.reminderOccurrences.rows.map fun r => if p r = true then f r else r)
    (hf : ∀ r, (f r).reminderId = r.reminderId)
    (hq : ∀ r ∈ s.reminderOccurrences.rows, p r = true → Move op r (f r)) : Writes op s s' := by
  have hget (k : String) : s'.getReminder k =
      (s.getReminder k).map fun r => if p r = true then f r else r := by
    refine Table.get?_of_rows_map hm (fun r _ => ?_) k
    split
    · exact hf r
    · rfl
  constructor
  · intro k r hg
    refine ⟨if p r = true then f r else r, by rw [hget, hg, Option.map_some], ?_⟩
    split
    · rename_i hp
      exact .single (hq r (Table.mem_of_get? hg) hp)
    · exact .refl
  · intro k r' hn hg
    rw [hget, hn] at hg
    cases hg

theorem Writes.of_insert {row : ReminderRow} (h : s.insertReminder? row = some t)
    (hc : Created op row) : Writes op s t := by
  obtain ⟨hfree, -, hrows, -⟩ := insertReminder?_eq_some h
  constructor
  · intro k r hg
    refine ⟨r, ?_, .refl⟩
    rw [hrows, if_neg, hg]
    rintro rfl
    rw [hfree] at hg
    cases hg
  · intro k r' hn hg
    rw [hrows] at hg
    split at hg
    · exact ⟨row, hc, Option.some.inj hg ▸ .refl⟩
    · rw [hn] at hg
      cases hg

theorem Commits.writes (h : Commits op s s') : Writes op s s' := by
  induction h with
  | refl => exact .refl s
  | insert inserted created => exact .of_insert inserted created
  | @update t p f hf before moved ih => exact ih.trans (.of_update rfl hf moved)

end Rules

theorem deliverClaimed_writes (host : Host) (id : String) (nowMs selectNowMs clockMs finalNowMs : Int) :
    Does (fun s _ s' => Writes (.deliverClaimed id nowMs selectNowMs clockMs finalNowMs) s s')
      (deliverClaimedReminder host id nowMs selectNowMs clockMs finalNowMs) := by
  refine Does.mono (Does.read (does_transaction (fun s a s' h => ?_) fun s _ _ _ => Writes.refl s) fun (done : Bool) s =>
    if done = true then s.getReminder id else none) fun _ _ _ ⟨_, he, _⟩ => he
  obtain ⟨reminder, t, u, -, he, -, rfl⟩ := deliverClaimedReminderBody_ok h
  obtain ⟨hrows, -⟩ := enqueueReminder_cases he
  have hsame : Writes (.deliverClaimed id nowMs selectNowMs clockMs finalNowMs) s t :=
    .of_eq fun k => by rw [Tables.getReminder, hrows, Tables.getReminder]
  refine hsame.trans (.of_update rfl (fun _ => rfl) fun r _ hp => ?_)
  simp only [decide_eq_true_eq] at hp
  obtain ⟨rfl, hs, hcustody⟩ := hp
  exact .delivered hs hcustody

/-- Every step only makes the moves and insertions of its operation. -/
theorem step_writes (host : Host) (s : Tables) (op : Op) : Writes op s (step host s op) := by
  have performed : Does (fun s _ s' => Writes op s s') (op.perform host) := by
    cases op with
    | deliverClaimed id nowMs selectNowMs clockMs finalNowMs =>
      exact ((deliverClaimed_writes host id nowMs selectNowMs clockMs finalNowMs).read fun _ _ => ()).mono
        fun _ _ _ ⟨_, he, _⟩ => he
    | _ => exact (Op.perform_commits host rfl).mono fun _ _ _ h => h.writes
  rcases performed.after s with h | ⟨-, -, he⟩
  · rw [step, h]
    exact .refl s
  · exact he

end PuffoAgent.Reminders
