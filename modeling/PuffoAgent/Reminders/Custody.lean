import PuffoAgent.Reminders.OneShot

/-! Custody: what the delivering transaction finds at its final `UPDATE`, whatever was
authorised before it. -/
namespace PuffoAgent.Reminders
open Store Machine

section Rows
variable {r : ReminderRow} {nowMs : Int}

theorem isUnpreparedLocalOnly_iff : r.isUnpreparedLocalOnly = true ↔
    r.snapshotConflict = false ∧ r.serverAckRevision = 0 ∧ r.payloadFormat = none ∧
      r.opaquePayload = none ∧ r.deliveryClaimId = none ∧ r.deliveryClaimAcquired = false ∧
      r.deliveryClaimExpiresAtMs = none := by
  simp [ReminderRow.isUnpreparedLocalOnly]

theorem hasLease_iff : r.hasLease nowMs = true ↔
    r.deliveryClaimAcquired = true ∧ r.deliveryClaimId ≠ none ∧
      ∃ expiresAtMs, r.deliveryClaimExpiresAtMs = some expiresAtMs ∧ nowMs < expiresAtMs := by
  simp [ReminderRow.hasLease, Option.any_eq_true, Option.isSome_iff_ne_none]

theorem hasCustody_iff : r.hasCustody nowMs = true ↔
    r.snapshotConflict = false ∧ (r.isUnpreparedLocalOnly = true ∨ r.hasLease nowMs = true) := by
  simp [ReminderRow.hasCustody]

/-- A prepared occurrence is in custody only under a live lease. -/
theorem hasLease_of_prepared (h : r.hasCustody nowMs = true) (hp : r.opaquePayload ≠ none) :
    r.hasLease nowMs = true := by
  rcases (hasCustody_iff.mp h).2 with hl | hl
  · exact absurd (isUnpreparedLocalOnly_iff.mp hl).2.2.2.1 hp
  · exact hl

end Rows

/-- A step that delivers an occurrence is a delivering transaction that had custody of it. -/
theorem custody_of_step (host : Host) {s : Tables} {op : Op} {k : String} {r r' : ReminderRow}
    (hr : s.getReminder k = some r) (hr' : (step host s op).getReminder k = some r')
    (hn : r.deliveredEventId = none) (hd : r'.deliveredEventId ≠ none) :
    ∃ nowMs, op.finalClock = some nowMs ∧ r.hasCustody nowMs = true := by
  rcases (step_effect host s op).origin hr' with ⟨hnone, -, -⟩ | ⟨r₁, hr₁, -, hnew⟩
  · rw [hnone] at hr
    cases hr
  · obtain rfl := Option.some.inj (hr.symm.trans hr₁)
    obtain ⟨nowMs, hclock, hdel⟩ := hnew hn hd
    exact ⟨nowMs, hclock, hdel.custody⟩

/-- Reminder delivery custody. In every run a local delivery commits only for a row without
snapshot conflict that is entirely unprepared, or under an acquired claim whose lease runs
past the time of the final `UPDATE`; once an envelope is stored only the lease remains. -/
theorem reminder_delivery_custody (host : Host) (ops : List Op) :
    (∀ op k r r', (run (step host) Tables.empty ops).getReminder k = some r →
      (run (step host) Tables.empty (ops ++ [op])).getReminder k = some r' →
      r.deliveredEventId = none → r'.deliveredEventId ≠ none →
      ∃ nowMs, op.finalClock = some nowMs ∧ r.snapshotConflict = false ∧
        ((r.serverAckRevision = 0 ∧ r.payloadFormat = none ∧ r.opaquePayload = none ∧
            r.deliveryClaimId = none ∧ r.deliveryClaimAcquired = false ∧
            r.deliveryClaimExpiresAtMs = none) ∨
          (r.deliveryClaimAcquired = true ∧ r.deliveryClaimId ≠ none ∧
            ∃ expiresAtMs, r.deliveryClaimExpiresAtMs = some expiresAtMs ∧ nowMs < expiresAtMs))) ∧
    (∀ ops' op k r₀ r r', (run (step host) Tables.empty ops).getReminder k = some r₀ →
      r₀.opaquePayload ≠ none →
      (run (step host) Tables.empty (ops ++ ops')).getReminder k = some r →
      (run (step host) Tables.empty (ops ++ ops' ++ [op])).getReminder k = some r' →
      r.deliveredEventId = none → r'.deliveredEventId ≠ none →
      ∃ nowMs, op.finalClock = some nowMs ∧ r.snapshotConflict = false ∧
        r.deliveryClaimAcquired = true ∧ r.deliveryClaimId ≠ none ∧
        ∃ expiresAtMs, r.deliveryClaimExpiresAtMs = some expiresAtMs ∧ nowMs < expiresAtMs) := by
  simp only [run_append, run_cons, run_nil]
  refine ⟨fun op k r r' hr hr' hn hd => ?_, fun ops' op k r₀ r r' hr₀ hp hr hr' hn hd => ?_⟩
  · obtain ⟨nowMs, hclock, hc⟩ := custody_of_step host hr hr' hn hd
    obtain ⟨hfence, hl | hl⟩ := hasCustody_iff.mp hc
    · exact ⟨nowMs, hclock, hfence, .inl (isUnpreparedLocalOnly_iff.mp hl).2⟩
    · exact ⟨nowMs, hclock, hfence, .inr (hasLease_iff.mp hl)⟩
  · obtain ⟨nowMs, hclock, hc⟩ := custody_of_step host hr hr' hn hd
    obtain ⟨r₁, hr₁, hprog⟩ := run_progress host ops' hr₀
    obtain rfl := Option.some.inj (hr.symm.trans hr₁)
    have hprep : r.opaquePayload ≠ none := by
      rw [hprog.envelope (Option.isSome_iff_ne_none.mpr hp)]
      exact hp
    exact ⟨nowMs, hclock, (hasCustody_iff.mp hc).1, hasLease_iff.mp (hasLease_of_prepared hc hprep)⟩

end PuffoAgent.Reminders
