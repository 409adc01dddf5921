import PuffoAgent.Reminders.Merge

/-! A replacement settles the old occurrence and stores the new one in one transaction, or
leaves the table as it was. -/
namespace PuffoAgent.Reminders
open Relational Stmt Sql Store Text

/-- Both rows of a local replacement. -/
structure LocallyReplaced (id newId newOccurrence content target : String) (intendedAtMs replacedAtMs : Int)
    (s s' : Tables) : Prop where
  cancelled : ∃ old, s.getReminder id = some old ∧ old.state = .scheduled ∧
    s'.getReminder id = some (replaced replacedAtMs old)
  created : s.getReminder newId = none ∧
    s'.getReminder newId = some (scheduledRow newId newOccurrence target content intendedAtMs replacedAtMs)
  others : ∀ k, k ≠ id → k ≠ newId → s'.getReminder k = s.getReminder k

/-- The same replacement, found to have been made before. -/
structure AlreadyReplaced (id newId newOccurrence content target : String) (intendedAtMs : Int)
    (s : Tables) : Prop where
  cancelled : ∃ old, s.getReminder id = some old ∧ old.state = .cancelled
  created : ∃ r, s.getOccurrence newOccurrence = some r ∧
    snapshotMatches r newId target content intendedAtMs none none = true

theorem replaceLocal_atomic (id newId newOccurrence content target : String) (intendedAtMs replacedAtMs : Int) :
    Does (fun s _ s' => LocallyReplaced id newId newOccurrence content target intendedAtMs replacedAtMs s s' ∨
        s' = s ∧ AlreadyReplaced id newId newOccurrence content target intendedAtMs s)
      (replaceLocalReminder id newId newOccurrence content target intendedAtMs replacedAtMs) := by
  refine Does.raising fun _ _ => Does.raiseIf fun _ => ?_
  refine Does.mono (Does.read (does_transaction (E := fun s _ s' => LocallyReplaced id newId newOccurrence
    content target intendedAtMs replacedAtMs s s' ∨ s' = s ∧ AlreadyReplaced id newId newOccurrence content
    target intendedAtMs s) ?_ ?_) fun _ s => (s.getReminder id, s.getReminder newId))
    fun _ _ _ ⟨_, he, _⟩ => he
  · intro s a s' h
    simp only [replaceLocalReminderBody, query_bind_ok_iff] at h
    cases hg : s.getReminder id with
    | none =>
      simp only [hg] at h
      cases h
    | some old =>
      simp only [hg] at h
      split_ifs at h
      · simp only [raiseIf_bind_ok_iff, pure_ok_iff, reduceCtorEq, false_and, and_false] at h
      · simp only [insertReminder, raiseIf_bind_ok_iff, tryExec_bind_ok_iff, exec_bind_ok_iff,
          pure_ok_iff] at h
        obtain ⟨-, hfree, t, hi, -, rfl⟩ := h
        obtain ⟨hnew, -, hinserted, -⟩ := insertReminder?_eq_some hi
        have hrows (k : String) : t.getReminder k = if newId = k then
            some (scheduledRow newId newOccurrence target content intendedAtMs replacedAtMs)
            else s.getReminder k := hinserted k
        have hs : old.state = .scheduled := by
          by_contra hs
          exact hfree (.inl hs)
        have hid : old.reminderId = id := Table.get?_key hg
        have hne : newId ≠ id := by
          rintro rfl
          exact absurd (hnew.symm.trans hg) (by simp)
        have hget (k : String) := getReminder_updateReminders t
          (fun r => decide (r.reminderId = id ∧ r.state = .scheduled)) (replaced replacedAtMs) (fun _ => rfl) k
        refine .inl ⟨⟨old, hg, hs, ?_⟩, ⟨hnew, ?_⟩, fun k hk hk' => ?_⟩
        · rw [hget, hrows, if_neg hne, hg, Option.map_some, if_pos (by simp [hid, hs])]
        · rw [hget, hrows, if_pos rfl, Option.map_some, if_neg (by simp [scheduledRow, hne])]
        · rw [hget, hrows, if_neg hk'.symm]
          cases hk₁ : s.getReminder k with
          | none => rfl
          | some r =>
            have hr : r.reminderId ≠ id := fun he => hk ((Table.get?_key hk₁).symm.trans he)
            rw [Option.map_some, if_neg (by simp [hr])]
  · intro s a t h
    simp only [replaceLocalReminderBody, query_bind_ok_iff] at h
    cases hg : s.getReminder id with
    | none =>
      simp only [hg] at h
      cases h
    | some old =>
      simp only [hg] at h
      split_ifs at h with hc
      · simp only [raiseIf_bind_ok_iff, not_not] at h
        obtain ⟨hmatch, -⟩ := h
        obtain ⟨r, hr⟩ := Option.isSome_iff_exists.mp hc.2
        rw [hr, Option.any_some] at hmatch
        exact .inr ⟨rfl, ⟨old, hg, hc.1⟩, r, hr, hmatch⟩
      · simp only [insertReminder, raiseIf_bind_ok_iff, tryExec_bind_ok_iff, exec_bind_ok_iff,
          pure_ok_iff, reduceCtorEq, false_and, and_false, exists_false] at h

/-- Both rows of a replacement that the Server has made: a delivery that was committed here
stays, anything else is cancelled. -/
structure RemotelyReplaced (id o : String) (remote : RemoteReminder) (s s' : Tables) : Prop where
  cancelled : ∃ old old', s.getOccurrence o = some old ∧ old.reminderId = id ∧
    s'.getOccurrence o = some old' ∧ (old'.state = .cancelled ∨ old'.state = .delivered) ∧
    (old.state = .delivered → old'.state = .delivered ∧ old'.deliveredEventId = old.deliveredEventId) ∧
    (old.state ≠ .delivered → o ≠ remote.occurrenceId → old'.state = .cancelled)
  created : ∃ r, s'.getOccurrence remote.occurrenceId = some r ∧
    snapshotMatches r remote.reminderId remote.target remote.content remote.intendedAtMs
      (some remote.payloadFormat) (some remote.opaquePayload) = true
  others : ∀ o', o' ≠ o → o' ≠ remote.occurrenceId → s'.getOccurrence o' = s.getOccurrence o'

theorem getOccurrence_insertReminder? {s t : Tables} {row : ReminderRow} (h : s.insertReminder? row = some t)
    (o : String) : t.getOccurrence o = if row.occurrenceId = o then some row else s.getOccurrence o := by
  have hocc := (insertReminder?_eq_some h).2.1
  unfold Tables.insertReminder? at h
  split at h
  · cases h
  · obtain ⟨rows, hi, rfl⟩ := Option.map_eq_some_iff.mp h
    change rows.rows.find? _ = _
    rw [(Table.insert?_eq_some.mp hi).2, List.find?_append]
    split_ifs with ho
    · subst ho
      rw [List.find?_eq_none.mpr (by simpa using hocc)]
      simp
    · simp [ho, Tables.getOccurrence]

/-- The replacement's row, before the old occurrence is settled. -/
theorem upsertRemoteReplacement_stores {remote : RemoteReminder} {createdAtMs : Int} {lifecycle : ReminderState}
    {fields : Option Int × Option Int × Option Int} {u : Unit} {s t : Tables}
    (h : upsertRemoteReplacement remote createdAtMs lifecycle fields s = .ok u t) :
    (∃ r, t.getOccurrence remote.occurrenceId = some r ∧ snapshotMatches r remote.reminderId remote.target
      remote.content remote.intendedAtMs (some remote.payloadFormat) (some remote.opaquePayload) = true) ∧
    (∀ o', o' ≠ remote.occurrenceId → t.getOccurrence o' = s.getOccurrence o') ∧
    ∀ o old, s.getOccurrence o = some old → ∃ old', t.getOccurrence o = some old' ∧
      (old.state = .delivered → old' = old) := by
  simp only [upsertRemoteReplacement, query_bind_ok_iff] at h
  cases hg : s.getOccurrence remote.occurrenceId with
  | none =>
    simp only [hg, insertReminder, tryExec_ok_iff] at h
    have hget (o : String) : t.getOccurrence o = if remote.occurrenceId = o then
        some (remoteRow remote lifecycle createdAtMs fields.1 fields.2.1 fields.2.2)
        else s.getOccurrence o := getOccurrence_insertReminder? h o
    refine ⟨⟨_, by rw [hget, if_pos rfl], by simp [snapshotMatches, remoteRow]⟩, fun o' ho => ?_, fun o old hold => ?_⟩
    · rw [hget, if_neg ho.symm]
    · refine ⟨old, ?_, fun _ => rfl⟩
      rw [hget, if_neg, hold]
      rintro rfl
      exact absurd (hg.symm.trans hold) (by simp)
  | some record =>
    simp only [hg, raiseIf_bind_ok_iff, exec_ok_iff, not_not] at h
    obtain ⟨hmatch, rfl⟩ := h
    split_ifs with hc
    · have hget (o : String) := getOccurrence_updateReminders s (fun r => decide
        (r.occurrenceId = remote.occurrenceId ∧ r.isOpen = true)) (settled remote lifecycle fields)
        (fun _ => rfl) (fun _ => rfl) o
      refine ⟨?_, fun o' ho => ?_, fun o old hold => ?_⟩
      · rw [hget, hg, Option.map_some]
        refine ⟨_, rfl, ?_⟩
        split_ifs
        · exact hmatch
        · exact hmatch
      · rw [hget]
        cases hr : s.getOccurrence o' with
        | none => rfl
        | some r => rw [Option.map_some, if_neg (by simp [getOccurrence_id hr, ho])]
      · rw [hget, hold, Option.map_some]
        refine ⟨_, rfl, fun hd => ?_⟩
        rw [if_neg (by simp [ReminderRow.isOpen, hd])]
    · exact ⟨⟨record, hg, hmatch⟩, fun _ _ => rfl, fun o old hold => ⟨old, hold, fun _ => rfl⟩⟩

theorem materializeReplacement_atomic (id o : String) (cancelledAtMs : Int) (remote : RemoteReminder)
    (createdAtMs : Int) (lifecycle : ReminderState) :
    Does (fun s _ s' => RemotelyReplaced id o remote s s')
      (materializeRemoteReplacement id o cancelledAtMs remote createdAtMs lifecycle) := by
  refine Does.bind_of_read (validate_reads remote) fun _ => Does.raiseIf fun _ => Does.raising fun fields _ => ?_
  refine Does.mono (Does.read (does_transaction (E := fun s _ s' => RemotelyReplaced id o remote s s') ?_ ?_)
    fun _ s => (s.getReminder id, s.getReminder remote.reminderId)) fun _ _ _ ⟨_, he, _⟩ => he
  · intro s a s' h
    simp only [materializeRemoteReplacementBody, query_bind_ok_iff, raiseIf_bind_ok_iff, not_not] at h
    obtain ⟨hold, h⟩ := h
    obtain ⟨u, t, hu, h⟩ := bind_ok_iff.mp h
    simp only [exec_bind_ok_iff, pure_ok_iff] at h
    obtain ⟨-, rfl⟩ := h
    obtain ⟨hnew, hothers, hkeeps⟩ := upsertRemoteReplacement_stores hu
    have hget (o' : String) := getOccurrence_updateReminders t (fun r => decide (r.occurrenceId = o))
      (superseded cancelledAtMs) (fun _ => rfl) (fun _ => rfl) o'
    obtain ⟨old, hg⟩ : ∃ old, s.getOccurrence o = some old := by
      cases hg : s.getOccurrence o with
      | none => simp [hg] at hold
      | some old => exact ⟨old, rfl⟩
    rw [hg, Option.any_some, decide_eq_true_eq] at hold
    obtain ⟨m, hm, hkept⟩ := hkeeps o old hg
    refine ⟨⟨old, superseded cancelledAtMs m, hg, hold, ?_, ?_, fun hd => ?_, fun hd hne => ?_⟩, ?_, fun o' ho hr => ?_⟩
    · rw [hget, hm, Option.map_some, if_pos (by simp [getOccurrence_id hm])]
    · by_cases hmd : m.state = .delivered <;> simp [superseded, hmd]
    · rw [hkept hd]
      simp [superseded, hd]
    · rw [hothers o hne, hg, Option.some.injEq] at hm
      subst hm
      simp [superseded, hd]
    · obtain ⟨r, hr, hmatch⟩ := hnew
      rw [hget, hr, Option.map_some]
      refine ⟨_, rfl, ?_⟩
      split_ifs
      · exact hmatch
      · exact hmatch
    · rw [hget, hothers o' hr]
      cases hr' : s.getOccurrence o' with
      | none => rfl
      | some r => rw [Option.map_some, if_neg (by simp [getOccurrence_id hr', ho])]
  · intro s a t h
    simp only [materializeRemoteReplacementBody, query_bind_ok_iff, raiseIf_bind_ok_iff] at h
    obtain ⟨-, h⟩ := h
    obtain ⟨u, t', hu, h⟩ := bind_ok_iff.mp h
    simp only [exec_bind_ok_iff, pure_ok_iff, reduceCtorEq, false_and] at h

end PuffoAgent.Reminders
