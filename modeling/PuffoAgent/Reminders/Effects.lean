import PuffoAgent.Reminders.Reconcile
import PuffoAgent.Store.ReceiptEffects
import PuffoAgent.Machine.Run

/-! What one committed reminder transaction can do: move occurrences on without an
event, add one, or deliver exactly one together with its Inbox event. -/
namespace PuffoAgent.Reminders
open Relational Stmt Sql Store Text

/-- The states an occurrence may be found in later on. -/
def later : ReminderState → ReminderState → Bool
  | .scheduled, _ => true
  | .claimed, next => next ≠ .scheduled
  | .cancelled, next => next = .cancelled ∨ next = .delivered
  | .delivered, next => next = .delivered

/-- What never changes about an occurrence, and how its state may. -/
structure Progress (r r' : ReminderRow) : Prop where
  occurrence : r'.occurrenceId = r.occurrenceId
  state : later r.state r'.state = true
  kept : r.state = .delivered →
    r'.actualFireAtMs = r.actualFireAtMs ∧ r'.deliveredEventId = r.deliveredEventId
  envelope : r.opaquePayload.isSome → r'.opaquePayload = r.opaquePayload

/-- A row moves on without a local delivery. -/
structure Quiet (r r' : ReminderRow) : Prop extends Progress r r' where
  silent : r.deliveredEventId = none → r'.deliveredEventId = none

theorem later_refl (a : ReminderState) : later a a = true := by
  cases a <;> rfl

theorem later_trans {a b c : ReminderState} (h : later a b = true) (h' : later b c = true) :
    later a c = true := by
  revert h h'
  cases a <;> cases b <;> cases c <;> decide

theorem later_delivered {a : ReminderState} (h : later .delivered a = true) : a = .delivered := by
  cases a <;> first | rfl | cases h

theorem Progress.refl (r : ReminderRow) : Progress r r :=
  ⟨rfl, later_refl _, fun _ => ⟨rfl, rfl⟩, fun _ => rfl⟩

theorem Progress.trans {r r' r'' : ReminderRow} (h : Progress r r') (h' : Progress r' r'') :
    Progress r r'' where
  occurrence := h'.occurrence.trans h.occurrence
  state := later_trans h.state h'.state
  kept hd := by
    have hd' : r'.state = .delivered := later_delivered (hd ▸ h.state)
    exact ⟨(h'.kept hd').1.trans (h.kept hd).1, (h'.kept hd').2.trans (h.kept hd).2⟩
  envelope hp := by
    have he := h.envelope hp
    rw [← he]
    exact h'.envelope (by rw [he]; exact hp)

theorem Quiet.refl (r : ReminderRow) : Quiet r r := ⟨.refl r, id⟩

theorem Quiet.trans (r r' r'' : ReminderRow) (h : Quiet r r') (h' : Quiet r' r'') : Quiet r r'' :=
  ⟨h.toProgress.trans h'.toProgress, fun hn => h'.silent (h.silent hn)⟩

/-- Columns that the invariants do not speak about. -/
theorem Quiet.of_same {r r' : ReminderRow} (ho : r'.occurrenceId = r.occurrenceId)
    (hs : r'.state = r.state) (ha : r'.actualFireAtMs = r.actualFireAtMs)
    (he : r'.deliveredEventId = r.deliveredEventId) (hp : r'.opaquePayload = r.opaquePayload) :
    Quiet r r' :=
  ⟨⟨ho, hs ▸ later_refl _, fun _ => ⟨ha, he⟩, fun _ => hp⟩, fun hn => he.trans hn⟩

/-- Every known occurrence moves on quietly. -/
def Quietly (s s' : Tables) : Prop := ∀ k, Option.Rel Quiet (s.getReminder k) (s'.getReminder k)

theorem Quietly.refl (s : Tables) : Quietly s s := fun _ => rel_refl Quiet.refl _

theorem Quietly.trans {s t s' : Tables} (h : Quietly s t) (h' : Quietly t s') : Quietly s s' :=
  fun k => rel_trans Quiet.trans (h k) (h' k)

theorem Quietly.of_update {s s' : Tables} {p : ReminderRow → Bool} {f : ReminderRow → ReminderRow}
    (hm : s'.reminderOccurrences.rows =
      s.reminderOccurrences.rows.map fun r => if p r = true then f r else r)
    (hf : ∀ r, (f r).reminderId = r.reminderId)
    (hq : ∀ r ∈ s.reminderOccurrences.rows, p r = true → Quiet r (f r)) : Quietly s s' := by
  have hg (r : ReminderRow) (hr : r ∈ s.reminderOccurrences.rows) :
      (if p r = true then f r else r).reminderId = r.reminderId := by
    split
    · exact hf r
    · rfl
  refine Table.rel_of_rows_map hm hg ?_
  intro r hr
  split
  · rename_i hp
    exact hq r hr hp
  · exact Quiet.refl r

/-- A new occurrence, for which nothing has been delivered. -/
structure Fresh (s : Tables) (row : ReminderRow) : Prop where
  reminder : s.getReminder row.reminderId = none
  occurrence : ∀ r ∈ s.reminderOccurrences.rows, r.occurrenceId ≠ row.occurrenceId
  silent : row.deliveredEventId = none

/-- The local delivery of one claimed occurrence. -/
structure Delivers (s s' : Tables) (finalNowMs : Int) (r r' : ReminderRow) : Prop where
  known : s.getReminder r.reminderId = some r
  claimed : r.state = .claimed
  custody : r.hasCustody finalNowMs = true
  stored : s'.getReminder r.reminderId = some r'
  occurrence : r'.occurrenceId = r.occurrenceId
  done : r'.state = .delivered
  fired : r'.actualFireAtMs = r.actualFireAtMs
  event : r'.deliveredEventId = some (reminderEventId r.occurrenceId)
  envelope : r'.opaquePayload = r.opaquePayload
  others : ∀ k, k ≠ r.reminderId → s'.getReminder k = s.getReminder k

/-- What a committed reminder transaction does. Only the delivering transaction has a
final clock reading. -/
inductive Effect (clock : Option Int) (s s' : Tables) : Prop
  | quiet (rows : Quietly s s') (messages : s'.messages = s.messages)
  | created (row : ReminderRow) (fresh : Fresh s row)
      (stored : ∃ r, Quiet row r ∧ s'.getReminder row.reminderId = some r)
      (others : ∀ k, k ≠ row.reminderId → Option.Rel Quiet (s.getReminder k) (s'.getReminder k))
      (messages : s'.messages = s.messages)
  | delivered (finalNowMs : Int) (read : clock = some finalNowMs) (r r' : ReminderRow)
      (delivery : Delivers s s' finalNowMs r r')
      (free : s.messages.get? (reminderEventId r.occurrenceId) = none)
      (inserted : (s'.messages.get? (reminderEventId r.occurrenceId)).isSome)
      (messages : ∀ k, k ≠ reminderEventId r.occurrenceId → s'.messages.get? k = s.messages.get? k)
  | adopted (finalNowMs : Int) (read : clock = some finalNowMs) (r r' : ReminderRow)
      (delivery : Delivers s s' finalNowMs r r')
      (taken : (s.messages.get? (reminderEventId r.occurrenceId)).isSome)
      (messages : s'.messages = s.messages)

theorem Effect.refl {clock : Option Int} (s : Tables) : Effect clock s s := .quiet (.refl s) rfl

/-- The effect of an operation, whatever it returns. -/
def Has {α : Type} (clock : Option Int) (x : StoreM α) : Prop := Does (fun s _ s' => Effect clock s s') x

section Rules
variable {α β : Type} {clock : Option Int}

theorem has_transaction {body : BodyM (Finish α)}
    (h : ∀ s a s', body s = .ok (.commit a) s' → Effect clock s s') : Has clock (transaction body) :=
  does_transaction h fun s _ _ _ => Effect.refl s

/-- A result that is read back after the commit. -/
theorem Has.read {x : StoreM α} (h : Has clock x) (f : α → Tables → β) :
    Has clock (do let a ← x; Sql.read (f a)) :=
  Does.mono (Does.read h f) fun _ _ _ ⟨_, he, _⟩ => he

theorem getReminder_updateReminders (s : Tables) (p : ReminderRow → Bool)
    (f : ReminderRow → ReminderRow) (hf : ∀ r, (f r).reminderId = r.reminderId) (k : String) :
    (s.updateReminders p f hf).getReminder k =
      (s.getReminder k).map (fun r => if p r then f r else r) := Table.get?_update _ p f hf k

theorem insertReminder?_eq_some {s t : Tables} {row : ReminderRow}
    (h : s.insertReminder? row = some t) :
    s.getReminder row.reminderId = none ∧
      (∀ r ∈ s.reminderOccurrences.rows, r.occurrenceId ≠ row.occurrenceId) ∧
      (∀ k, t.getReminder k = if row.reminderId = k then some row else s.getReminder k) ∧
      t.messages = s.messages := by
  unfold Tables.insertReminder? at h
  split at h
  · cases h
  · rename_i hne
    obtain ⟨rows, hi, rfl⟩ := Option.map_eq_some_iff.mp h
    refine ⟨(Table.insert?_eq_some.mp hi).1, ?_, Table.get?_insert hi, rfl⟩
    intro r hr he
    exact hne ⟨r, hr, he⟩

/-- An insertion after which rows move on quietly. -/
theorem Effect.of_insert {s t s' : Tables} {row : ReminderRow} (h : s.insertReminder? row = some t)
    (silent : row.deliveredEventId = none) (hq : Quietly t s') (messages : s'.messages = t.messages) :
    Effect clock s s' := by
  obtain ⟨hfree, hocc, hrows, hm⟩ := insertReminder?_eq_some h
  refine .created row ⟨hfree, hocc, silent⟩ ?_ ?_ (messages.trans hm)
  · have hk := hq row.reminderId
    rw [hrows, if_pos rfl] at hk
    obtain ⟨r, hr, hquiet⟩ := rel_some_left hk
    exact ⟨r, hquiet, hr⟩
  · intro k hk
    have hr := hq k
    rwa [hrows, if_neg (Ne.symm hk)] at hr

end Rules

section Moves
variable {r : ReminderRow}

theorem isOpen_iff : r.isOpen = true ↔ r.state = .scheduled ∨ r.state = .claimed := by
  simp [ReminderRow.isOpen]

theorem quiet_withEnvelope (payloadFormat : String) (opaquePayload : List UInt8)
    (h : r.opaquePayload = none) : Quiet r (withEnvelope payloadFormat opaquePayload r) :=
  ⟨⟨rfl, later_refl _, fun _ => ⟨rfl, rfl⟩, fun hp => by simp [h] at hp⟩, id⟩

theorem quiet_claimed (nowMs : Int) (h : r.state = .scheduled) : Quiet r (claimed nowMs r) :=
  ⟨⟨rfl, by rw [h]; rfl, fun hd => by simp [h] at hd, fun _ => rfl⟩, id⟩

theorem quiet_cancelled (cancelledAtMs : Int) (h : r.isOpen = true) :
    Quiet r (cancelled cancelledAtMs r) := by
  have hs := isOpen_iff.mp h
  refine ⟨⟨rfl, ?_, fun hd => ?_, fun _ => rfl⟩, id⟩
  · rcases hs with hs | hs <;> rw [hs] <;> rfl
  · simp [hd] at hs

theorem quiet_replaced (replacedAtMs : Int) (h : r.state = .scheduled) :
    Quiet r (replaced replacedAtMs r) :=
  ⟨⟨rfl, by rw [h]; rfl, fun hd => by simp [h] at hd, fun _ => rfl⟩, id⟩

theorem quiet_terminated {tombstone : RemoteTombstone}
    (h : tombstone.lifecycle = .cancelled ∨ tombstone.lifecycle = .delivered) :
    Quiet r (terminated tombstone r) := by
  refine ⟨⟨rfl, ?_, fun hd => ?_, fun _ => rfl⟩, fun hn => ?_⟩
  · rcases h with h | h <;> cases hs : r.state <;> simp [terminated, hs, h, later]
  · simp [terminated, hd]
  · simp [terminated, hn]

theorem quiet_settled {remote : RemoteReminder} {lifecycle : ReminderState}
    {fields : Option Int × Option Int × Option Int} (h : r.isOpen = true)
    (hl : lifecycle = .cancelled ∨ lifecycle = .delivered) :
    Quiet r (settled remote lifecycle fields r) := by
  have hs := isOpen_iff.mp h
  refine ⟨⟨rfl, ?_, fun hd => ?_, fun _ => rfl⟩, id⟩
  · rcases hs with hs | hs <;> rcases hl with rfl | rfl <;> rw [hs] <;> rfl
  · simp [hd] at hs

theorem quiet_superseded (cancelledAtMs : Int) : Quiet r (superseded cancelledAtMs r) := by
  refine ⟨⟨rfl, ?_, fun hd => ?_, fun _ => rfl⟩, fun hn => ?_⟩
  · cases hs : r.state <;> simp [superseded, hs, later]
  · simp [superseded, hd]
  · simp [superseded, hn]

end Moves
end PuffoAgent.Reminders
