import PuffoAgent.Reminders.Commits

/-! The effect of every reminder transaction. -/
namespace PuffoAgent.Reminders
open Relational Stmt Sql Store Text

section Commits
variable {op : Op} {clock : Option Int} {s s' : Tables}

theorem Move.quiet {r r' : ReminderRow} (h : Move op r r') (hop : op.finalClock = none) : Quiet r r' := by
  cases h with
  | envelope free => exact quiet_withEnvelope _ _ free
  | due scheduled => exact quiet_claimed _ scheduled
  | authorized scheduled => exact quiet_claimed _ scheduled
  | delivered => cases hop
  | cancelled isOpen => exact quiet_cancelled _ isOpen
  | replaced scheduled => exact quiet_replaced _ scheduled
  | terminated terminal => exact quiet_terminated terminal
  | settled isOpen terminal => exact quiet_settled isOpen terminal
  | superseded => exact quiet_superseded _
  | _ => exact .of_same rfl rfl rfl rfl rfl

theorem Created.silent {row : ReminderRow} (h : Created op row) : row.deliveredEventId = none := by
  cases h <;> rfl

/-- The rows move on quietly, after at most one insertion. -/
theorem Commits.quietly (h : Commits op s s') (hop : op.finalClock = none) :
    Quietly s s' ∨ ∃ t row, s.insertReminder? row = some t ∧ Created op row ∧ Quietly t s' := by
  induction h with
  | refl => exact .inl (.refl s)
  | insert inserted created => exact .inr ⟨_, _, inserted, created, .refl _⟩
  | @update t p f hf before moved ih =>
    have hq : Quietly t (t.updateReminders p f hf) :=
      .of_update rfl hf fun r hr hp => (moved r hr hp).quiet hop
    rcases ih with hs | ⟨t₀, row, inserted, created, hs⟩
    · exact .inl (hs.trans hq)
    · exact .inr ⟨t₀, row, inserted, created, hs.trans hq⟩

/-- Nothing but the occurrences is touched. -/
theorem Commits.others (h : Commits op s s') : s' = { s with reminderOccurrences := s'.reminderOccurrences } := by
  induction h with
  | refl => rfl
  | insert inserted =>
    unfold Tables.insertReminder? at inserted
    split at inserted
    · cases inserted
    · obtain ⟨rows, -, rfl⟩ := Option.map_eq_some_iff.mp inserted
      rfl
  | update before _ ih =>
    rw [ih]
    rfl

theorem Commits.effect (h : Commits op s s') (hop : op.finalClock = none) : Effect clock s s' := by
  have messages : s'.messages = s.messages := by rw [h.others]
  rcases h.quietly hop with hq | ⟨t, row, inserted, created, hq⟩
  · exact .quiet hq messages
  · exact .of_insert inserted created.silent hq (messages.trans (insertReminder?_eq_some inserted).2.2.2.symm)

end Commits

section Delivery
variable {s t s' : Tables}

theorem reminderEventRow_envelopeId (reminder : ReminderRow) (target : InboxTarget) (content : Json)
    (atMs : Int) :
    (reminderEventRow reminder target content atMs).envelopeId = reminderEventId reminder.occurrenceId := by
  unfold reminderEventRow
  split <;> rfl

theorem reminderEventPayload_envelopeId {host : Host} {reminder : ReminderRow} {payload : Payload}
    (h : reminderEventPayload host reminder = .ok payload) :
    payload.envelopeId = reminderEventId reminder.occurrenceId := by
  unfold reminderEventPayload at h
  cases hp : parseInboxTarget reminder.target with
  | error e =>
    rw [hp] at h
    cases h
  | ok target =>
    cases ha : reminder.actualFireAtMs with
    | none =>
      rw [hp, ha] at h
      cases h
    | some atMs =>
      rw [hp, ha] at h
      cases hi : rendered host reminder.intendedAtMs with
      | error e =>
        simp only [hi] at h
        cases h
      | ok intendedAt =>
        cases hf : rendered host atMs with
        | error e =>
          simp only [hi, hf] at h
          cases h
        | ok fireAt =>
          simp only [hi, hf] at h
          cases h
          exact reminderEventRow_envelopeId _ _ _ _

/-- Inserting a local event adds that one message and leaves the reminders alone. -/
theorem insertLocalEventInTransaction_adds {values : MessageRow} {reason : String} {now : Int}
    {u : Unit} (h : insertLocalEventInTransaction values reason now s = .ok u t) :
    t.reminderOccurrences = s.reminderOccurrences ∧
      s.messages.get? values.envelopeId = none ∧ (t.messages.get? values.envelopeId).isSome ∧
      ∀ k, k ≠ values.envelopeId → t.messages.get? k = s.messages.get? k := by
  simp only [insertLocalEventInTransaction, insertMessage, allocateLocalPosition_bind_ok_iff,
    tryExec_bind_ok_iff, exec_ok_iff] at h
  obtain ⟨t₁, hi, rfl⟩ := h
  obtain ⟨hfree, hrows, -⟩ := Tables.insertMessage?_eq_some hi
  refine ⟨?_, hfree, ?_, ?_⟩
  · unfold Tables.insertMessage? at hi
    split at hi
    · cases hi
    · obtain ⟨rows, -, rfl⟩ := Option.map_eq_some_iff.mp hi
      rfl
  · rw [refreshNoticeState_messages, hrows, if_pos rfl]
    rfl
  · intro k hk
    rw [refreshNoticeState_messages, hrows, if_neg (Ne.symm hk)]

/-- The event is inserted, or a row that already carries it is accepted. -/
theorem enqueueReminder_cases {host : Host} {reminder : ReminderRow} {nowMs clockMs : Int} {u : Unit}
    (h : enqueueReminder host reminder nowMs clockMs s = .ok u t) :
    t.reminderOccurrences = s.reminderOccurrences ∧
    ((s.messages.get? (reminderEventId reminder.occurrenceId) = none ∧
        (t.messages.get? (reminderEventId reminder.occurrenceId)).isSome ∧
        ∀ k, k ≠ reminderEventId reminder.occurrenceId → t.messages.get? k = s.messages.get? k) ∨
      ((s.messages.get? (reminderEventId reminder.occurrenceId)).isSome ∧ t = s)) := by
  rcases enqueueReminder_ok h with ⟨payload, hp, hfree, h⟩ | ⟨htaken, rfl⟩
  · obtain ⟨hr, -, hs, ho⟩ := insertLocalEventInTransaction_adds h
    rw [show (payloadValues payload nowMs).envelopeId = _ from reminderEventPayload_envelopeId hp] at hs ho
    exact ⟨hr, .inl ⟨hfree, hs, ho⟩⟩
  · exact ⟨rfl, .inr ⟨htaken, rfl⟩⟩

/-- The final `UPDATE` found the claimed row in custody. -/
theorem custody_of_count {reminderId : String} {finalNowMs : Int}
    (h : t.countReminders (fun r => decide (r.reminderId = reminderId ∧ r.state = .claimed ∧
      r.hasCustody finalNowMs = true)) = 1) :
    ∃ r, t.getReminder reminderId = some r ∧ r.state = .claimed ∧ r.hasCustody finalNowMs = true := by
  have hsel : (t.reminderOccurrences.select fun r => decide (r.reminderId = reminderId ∧
      (decide (r.state = .claimed ∧ r.hasCustody finalNowMs = true)) = true)).length = 1 := by
    simpa only [Tables.countReminders, decide_eq_true_eq] using h
  obtain ⟨r, hg, hp⟩ := Table.exists_of_select_key_length hsel
  exact ⟨r, hg, of_decide_eq_true hp⟩

theorem deliverClaimedReminder_has (host : Host) (reminderId : String)
    (nowMs selectNowMs clockMs finalNowMs : Int) :
    Has (some finalNowMs) (deliverClaimedReminder host reminderId nowMs selectNowMs clockMs
      finalNowMs) := by
  refine Has.read (has_transaction ?_) fun (done : Bool) s =>
    if done = true then s.getReminder reminderId else none
  intro s a s' h
  obtain ⟨reminder, t, u, hknown, he, hcount, rfl⟩ := deliverClaimedReminderBody_ok h
  obtain ⟨hrows, hcases⟩ := enqueueReminder_cases he
  obtain ⟨r, hr, hclaimed, hcustody⟩ := custody_of_count hcount
  have hsame : t.getReminder reminderId = s.getReminder reminderId := by
    rw [Tables.getReminder, hrows, Tables.getReminder]
  obtain rfl : reminder = r := Option.some.inj (hknown.symm.trans (hsame.symm.trans hr))
  have hid : reminder.reminderId = reminderId := Table.get?_key hknown
  have hget (k : String) : (t.updateReminders (fun r => decide (r.reminderId = reminderId ∧
      r.state = .claimed ∧ r.hasCustody finalNowMs = true))
      (delivered (reminderEventId reminder.occurrenceId) nowMs) fun _ => rfl).getReminder k =
      (s.getReminder k).map (fun r => if decide (r.reminderId = reminderId ∧
        r.state = .claimed ∧ r.hasCustody finalNowMs = true) = true then
        delivered (reminderEventId reminder.occurrenceId) nowMs r else r) := by
    have hk := getReminder_updateReminders t (fun r => decide (r.reminderId = reminderId ∧
      r.state = .claimed ∧ r.hasCustody finalNowMs = true))
      (delivered (reminderEventId reminder.occurrenceId) nowMs) (fun _ => rfl) k
    rwa [show t.getReminder k = s.getReminder k by
      rw [Tables.getReminder, hrows, Tables.getReminder]] at hk
  have hd : Delivers s _ finalNowMs reminder
      (delivered (reminderEventId reminder.occurrenceId) nowMs reminder) := {
    known := by rw [hid]; exact hknown
    claimed := hclaimed
    custody := hcustody
    stored := by
      rw [hid, hget, hknown, Option.map_some, if_pos (by simp [hid, hclaimed, hcustody])]
    occurrence := rfl
    done := rfl
    fired := rfl
    event := rfl
    envelope := rfl
    others := by
      intro k hk
      rw [hget]
      cases hs : s.getReminder k with
      | none => rfl
      | some r =>
        have hrk : r.reminderId = k := Table.get?_key hs
        rw [Option.map_some, if_neg]
        simp only [decide_eq_true_eq, not_and]
        intro he
        exact absurd (hrk.symm.trans (he.trans hid.symm)) hk }
  rcases hcases with ⟨hfree, hins, hother⟩ | ⟨htaken, rfl⟩
  · exact .delivered finalNowMs rfl reminder _ hd hfree hins hother
  · exact .adopted finalNowMs rfl reminder _ hd htaken rfl

end Delivery

theorem Has.discard {α : Type} {clock : Option Int} {x : StoreM α} (h : Has clock x) :
    Has clock (do let _ ← x; return ()) := Has.read h fun _ _ => ()

theorem Op.perform_has (host : Host) (op : Op) : Has op.finalClock (op.perform host) := by
  cases op with
  | deliverClaimed reminderId nowMs selectNowMs clockMs finalNowMs =>
    exact (deliverClaimedReminder_has host reminderId nowMs selectNowMs clockMs finalNowMs).discard
  | _ => exact (Op.perform_commits host rfl).mono fun _ _ _ h => h.effect rfl

/-- Every step has one of the effects. -/
theorem step_effect (host : Host) (s : Tables) (op : Op) :
    Effect op.finalClock s (step host s op) := by
  rcases (op.perform_has host).after s with h | ⟨-, -, he⟩
  · rw [step, h]
    exact Effect.refl s
  · exact he

end PuffoAgent.Reminders
