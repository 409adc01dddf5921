import PuffoAgent.Reminders.Transitions

/-! Remote terminal observations of one occurrence, in any order and number. The merge
keeps a delivery once there is one, takes over the latest cancellation before that, and
marks an observation that is about something else as a conflict. -/
namespace PuffoAgent.Reminders
open Relational Stmt Sql Store Text Machine

deriving instance DecidableEq for RemoteTombstone

section Observation

/-- What `_validate_remote_terminal_reminder` raises for. -/
def RemoteTombstone.Invalid (t : RemoteTombstone) : Prop :=
  t.reminderId = "" ∨ t.occurrenceId = "" ∨ t.reminderId = t.occurrenceId ∨
    (t.lifecycle ≠ .cancelled ∧ t.lifecycle ≠ .delivered) ∨
    t.revision = 0 ∨ ¬ validPayloadFormat t.payloadFormat

instance (t : RemoteTombstone) : Decidable t.Invalid := by
  unfold RemoteTombstone.Invalid
  infer_instance

/-- The observation is about this occurrence; `payloadFormat` is the format known here. -/
def About (payloadFormat : Option String) (r : ReminderRow) (t : RemoteTombstone) : Prop :=
  ¬ t.Invalid ∧ r.reminderId = t.reminderId ∧ r.intendedAtMs = t.intendedAtMs ∧
    payloadFormat.all (· = t.payloadFormat) = true

instance (payloadFormat : Option String) (r : ReminderRow) (t : RemoteTombstone) :
    Decidable (About payloadFormat r t) := by
  unfold About
  infer_instance

/-- The row of the occurrence after one observation. -/
def observed (r : ReminderRow) (t : RemoteTombstone) : ReminderRow :=
  if t.Invalid then r else if About r.payloadFormat r t then terminated t r else conflicted r

theorem observed_invalid {r : ReminderRow} {t : RemoteTombstone} (h : t.Invalid) : observed r t = r :=
  if_pos h

theorem observed_about {r : ReminderRow} {t : RemoteTombstone} (h : About r.payloadFormat r t) :
    observed r t = terminated t r := by
  rw [observed, if_neg h.1, if_pos h]

theorem observed_other {r : ReminderRow} {t : RemoteTombstone} (hv : ¬ t.Invalid)
    (h : ¬ About r.payloadFormat r t) : observed r t = conflicted r := by
  rw [observed, if_neg hv, if_neg h]

theorem observed_occurrenceId (r : ReminderRow) (t : RemoteTombstone) :
    (observed r t).occurrenceId = r.occurrenceId := by
  unfold observed
  split_ifs <;> rfl

end Observation

section Store
variable (host : Host)

theorem getOccurrence_updateReminders (s : Tables) (p : ReminderRow → Bool)
    (f : ReminderRow → ReminderRow) (hf : ∀ r, (f r).reminderId = r.reminderId)
    (ho : ∀ r, (f r).occurrenceId = r.occurrenceId) (o : String) :
    (s.updateReminders p f hf).getOccurrence o =
      (s.getOccurrence o).map (fun r => if p r then f r else r) := by
  change (s.reminderOccurrences.rows.map fun r => if p r = true then f r else r).find? _ = _
  rw [List.find?_map]
  refine congrArg _ (List.find?_congr fun r _ => ?_)
  have hr : (if p r = true then f r else r).occurrenceId = r.occurrenceId := by
    split
    · exact ho r
    · rfl
  simp only [Function.comp_apply, hr]

theorem getOccurrence_id {s : Tables} {o : String} {r : ReminderRow}
    (h : s.getOccurrence o = some r) : r.occurrenceId = o := by
  simpa using List.find?_some h

/-- A check that raises leaves the tables alone. -/
theorem after_raiseIf {ε σ β : Type} {p : Prop} [Decidable p] {e : ε} {x : Unit → Sql ε σ β} (s : σ) :
    Sql.after (Stmt.raiseIf p e >>= x) s = if p then s else (x ()).after s := by
  have hrun : (Stmt.raiseIf p e >>= x) (⟨s, none⟩ : Connection σ) =
      if p then .error e ⟨s, none⟩ else x () ⟨s, none⟩ := by
    change EStateM.bind _ x _ = _
    by_cases h : p
    · simp only [EStateM.bind, Stmt.raiseIf, if_pos h]
    · simp only [EStateM.bind, Stmt.raiseIf, if_neg h]
  simp only [Sql.after, hrun]
  split_ifs <;> rfl

theorem step_materializeTerminal (s : Tables) (t : RemoteTombstone) :
    step host s (.materializeTerminal t) = if t.Invalid then s else
      (transaction (materializeRemoteTerminalReminderBody t)).after s := by
  have hd : step host s (.materializeTerminal t) = (materializeRemoteTerminalReminder t).after s :=
    after_discard _ _
  rw [hd]
  exact after_raiseIf s

theorem not_about_iff {r : ReminderRow} {t : RemoteTombstone} (hv : ¬ t.Invalid) :
    ¬ About r.payloadFormat r t ↔ r.reminderId ≠ t.reminderId ∨ r.intendedAtMs ≠ t.intendedAtMs ∨
      r.payloadFormat.any (· ≠ t.payloadFormat) = true := by
  unfold About
  cases r.payloadFormat with
  | none => simp [hv, imp_iff_not_or]
  | some format => simp [hv, imp_iff_not_or]

theorem conflicted_of_conflict {r : ReminderRow} (h : r.snapshotConflict = true) : conflicted r = r := by
  rw [conflicted, ← h]

/-- The observation of an occurrence that is known here rewrites its row and no other. -/
theorem getOccurrence_observe {s : Tables} {t : RemoteTombstone} {r : ReminderRow}
    (hg : s.getOccurrence t.occurrenceId = some r) (o : String) :
    (step host s (.materializeTerminal t)).getOccurrence o =
      (s.getOccurrence o).map (fun r => if r.occurrenceId = t.occurrenceId then observed r t else r) := by
  have same {s' : Tables} {f : ReminderRow → ReminderRow} (hr : f r = observed r t)
      (hs : ∀ o, s'.getOccurrence o =
        (s.getOccurrence o).map fun r => if r.occurrenceId = t.occurrenceId then f r else r) :
      s'.getOccurrence o =
        (s.getOccurrence o).map fun r => if r.occurrenceId = t.occurrenceId then observed r t else r := by
    rw [hs]
    cases ho : s.getOccurrence o with
    | none => rfl
    | some r₁ =>
      rw [Option.map_some, Option.map_some, Option.some.injEq]
      split_ifs with h
      · obtain rfl : o = t.occurrenceId := (getOccurrence_id ho).symm.trans h
        obtain rfl := Option.some.inj (ho.symm.trans hg)
        exact hr
      · rfl
  have still (hr : r = observed r t) : s.getOccurrence o =
      (s.getOccurrence o).map fun r => if r.occurrenceId = t.occurrenceId then observed r t else r := by
    refine same (f := id) hr fun o => ?_
    simp
  rw [step_materializeTerminal]
  split_ifs with hv
  · exact still (observed_invalid hv).symm
  rw [after_transaction, materializeRemoteTerminalReminderBody]
  simp only [query_bind_run, hg]
  by_cases ha : About r.payloadFormat r t
  · rw [if_neg (fun h => (not_about_iff hv).mpr h ha)]
    by_cases hc : terminalMaterializationChanges t r = true
    · rw [if_neg (not_not.mpr hc)]
      refine same (observed_about ha).symm fun o => ?_
      refine (getOccurrence_updateReminders s _ (terminated t) (fun _ => rfl) (fun _ => rfl) o).trans ?_
      simp only [decide_eq_true_eq]
    · rw [if_pos hc]
      refine still ?_
      rw [observed_about ha]
      exact (not_not.mp (mt decide_eq_true hc)).symm
  · rw [if_pos ((not_about_iff hv).mp ha)]
    refine same (f := conflicted) (observed_other hv ha).symm fun o => ?_
    refine (getOccurrence_updateReminders s _ conflicted (fun _ => rfl) (fun _ => rfl) o).trans ?_
    refine Option.map_congr fun r₁ _ => ?_
    by_cases hc : r₁.snapshotConflict = true
    · rw [conflicted_of_conflict hc, ite_self, ite_self]
    · simp [hc]

/-- The mark is committed where it marks a row. -/
theorem markReminderSnapshotConflict_run (s : Tables) (reminderId : String) :
    markReminderSnapshotConflict reminderId s = .ok (.commit ⟨true, true⟩)
      (s.updateReminders (fun r => r.reminderId = reminderId ∧ ¬ r.snapshotConflict) conflicted fun _ => rfl) ∨
    markReminderSnapshotConflict reminderId s = .ok (.rollback ⟨false, false⟩)
      (s.updateReminders (fun r => r.reminderId = reminderId ∧ ¬ r.snapshotConflict) conflicted fun _ => rfl) ∧
    s.updateReminders (fun r => r.reminderId = reminderId ∧ ¬ r.snapshotConflict) conflicted
      (fun _ => rfl) = s := by
  unfold markReminderSnapshotConflict
  simp only [query_bind_run]
  by_cases hn : s.countReminders (fun r => decide (r.reminderId = reminderId ∧
      ¬ r.snapshotConflict = true)) = 0
  · refine .inr ⟨?_, ?_⟩
    · rw [exec_bind_ok_iff, if_neg (not_not.mpr hn)]
      rfl
    · have hrows := Table.rows_update_of_select_nil (f := conflicted) (List.length_eq_zero_iff.mp hn)
      have hsame : s.reminderOccurrences.update (fun r => decide (r.reminderId = reminderId ∧
          ¬ r.snapshotConflict = true)) conflicted (fun _ => rfl) = s.reminderOccurrences :=
        Table.ext_rows hrows
      exact congrArg (fun rows => { s with reminderOccurrences := rows }) hsame
  · refine .inl ?_
    rw [exec_bind_ok_iff, if_pos hn]
    rfl

/-- The observation of an occurrence that is not known here marks the row that has its
reminder id. -/
theorem getOccurrence_observe_missing {s : Tables} {t : RemoteTombstone}
    (hg : s.getOccurrence t.occurrenceId = none) (o : String) :
    (step host s (.materializeTerminal t)).getOccurrence o =
      (s.getOccurrence o).map
        (fun r => if ¬ t.Invalid ∧ r.reminderId = t.reminderId then conflicted r else r) := by
  rw [step_materializeTerminal]
  split_ifs with hv
  · simp [hv]
  rw [after_transaction, materializeRemoteTerminalReminderBody]
  simp only [query_bind_run, hg]
  have hmap : (s.getOccurrence o).map (fun r => if r.reminderId = t.reminderId then conflicted r else r) =
      (s.getOccurrence o).map (fun r => if decide (r.reminderId = t.reminderId ∧
        ¬ r.snapshotConflict = true) = true then conflicted r else r) := by
    refine Option.map_congr fun r _ => ?_
    by_cases hc : r.snapshotConflict = true
    · rw [conflicted_of_conflict hc, ite_self, ite_self]
    · simp [hc]
  simp only [hv, not_false_eq_true, true_and]
  rw [hmap, ← getOccurrence_updateReminders s _ conflicted (fun _ => rfl) (fun _ => rfl)]
  rcases markReminderSnapshotConflict_run s t.reminderId with h | ⟨h, hs⟩
  · rw [h]
  · rw [h, hs]

end Store
attribute [ext] ReminderRow

section Merge

/-- The payload format known for the occurrence once the observations are in. -/
def adoptedFormat (r : ReminderRow) (ts : List RemoteTombstone) : Option String :=
  r.payloadFormat.or ((ts.find? (About none r)).map (·.payloadFormat))

/-- The observations that are about this occurrence. -/
def agreeing (r : ReminderRow) (ts : List RemoteTombstone) : List RemoteTombstone :=
  ts.filter (About (adoptedFormat r ts) r)

/-- The last observation that is well formed. -/
def lastObservation (ts : List RemoteTombstone) : Option RemoteTombstone :=
  ts.reverse.find? (¬ RemoteTombstone.Invalid ·)

/-- What the occurrence is after the observations: a delivery stays or the first one
reported is taken over, else the last cancellation; the rest is only a conflict mark. -/
structure Merged (r : ReminderRow) (ts : List RemoteTombstone) (r' : ReminderRow) : Prop where
  identity : r'.reminderId = r.reminderId ∧ r'.occurrenceId = r.occurrenceId ∧ r'.target = r.target ∧
    r'.content = r.content ∧ r'.intendedAtMs = r.intendedAtMs ∧ r'.createdAtMs = r.createdAtMs ∧
    r'.opaquePayload = r.opaquePayload
  format : r'.payloadFormat = adoptedFormat r ts
  unseen : agreeing r ts = [] → r' = { r with snapshotConflict := r'.snapshotConflict }
  kept : r.state = .delivered → r'.state = .delivered ∧ r'.actualFireAtMs = r.actualFireAtMs ∧
    r'.deliveredAtMs = r.deliveredAtMs ∧ r'.deliveredEventId = r.deliveredEventId ∧
    (r.cancelledAtMs = none → r'.cancelledAtMs = none)
  delivered : r.state ≠ .delivered → ∀ d, (agreeing r ts).find? (·.lifecycle = .delivered) = some d →
    r'.state = .delivered ∧ r'.actualFireAtMs = some d.lifecycleAtMs ∧
      r'.deliveredAtMs = some d.lifecycleAtMs ∧ r'.deliveredEventId = none ∧ r'.cancelledAtMs = none
  cancelled : r.state ≠ .delivered → (∀ t ∈ agreeing r ts, t.lifecycle ≠ .delivered) →
    ∀ c, (agreeing r ts).getLast? = some c → r'.state = .cancelled ∧
      r'.cancelledAtMs = some c.lifecycleAtMs ∧ r'.actualFireAtMs = none ∧ r'.deliveredAtMs = none ∧
      r'.deliveredEventId = none
  released : agreeing r ts ≠ [] → r'.claimedAtMs = none ∧ r'.syncRetryAfterMs = none ∧
    r'.syncRetryCount = 0 ∧ r'.syncPermanentRevision = none ∧ r'.syncPermanentCode = none ∧
    r'.deliveryClaimId = none ∧ r'.deliveryClaimAcquired = false ∧ r'.deliveryClaimExpiresAtMs = none ∧
    (r'.state = .delivered → r'.cancelledAtMs = none)
  revision : r'.revision = ((agreeing r ts).map (·.revision)).foldl max r.revision ∧
    r'.serverAckRevision = ((agreeing r ts).map (·.revision)).foldl max r.serverAckRevision
  conflict : r'.snapshotConflict =
    (lastObservation ts).elim r.snapshotConflict fun t => ¬ About (adoptedFormat r ts) r t

variable {r : ReminderRow} {t : RemoteTombstone} {ts : List RemoteTombstone}

/-- Both rows are taken for the same occurrence. -/
theorem about_congr {r r' : ReminderRow} (hr : r'.reminderId = r.reminderId)
    (hi : r'.intendedAtMs = r.intendedAtMs) (payloadFormat : Option String) :
    About payloadFormat r' = About payloadFormat r := by
  funext t
  rw [About, About, hr, hi]

theorem About.anyFormat {payloadFormat : Option String} (h : About payloadFormat r t) : About none r t :=
  ⟨h.1, h.2.1, h.2.2.1, rfl⟩

theorem observed_identity (r : ReminderRow) (t : RemoteTombstone) :
    (observed r t).reminderId = r.reminderId ∧ (observed r t).intendedAtMs = r.intendedAtMs := by
  unfold observed
  split_ifs <;> exact ⟨rfl, rfl⟩

/-- An observation of another occurrence, or an ill-formed one. -/
theorem observed_format_other (h : ¬ About r.payloadFormat r t) :
    (observed r t).payloadFormat = r.payloadFormat := by
  unfold observed
  split_ifs <;> rfl

theorem adoptedFormat_cons : adoptedFormat r (t :: ts) = adoptedFormat (observed r t) ts := by
  have hfind : ts.find? (About none (observed r t)) = ts.find? (About none r) := by
    simp only [about_congr (observed_identity r t).1 (observed_identity r t).2]
  rw [adoptedFormat, adoptedFormat, hfind]
  by_cases ha : About r.payloadFormat r t
  · rw [observed_about ha]
    cases hf : r.payloadFormat with
    | none => simp [terminated, hf, ha.anyFormat]
    | some format => simp [terminated, hf]
  · rw [observed_format_other ha]
    cases hf : r.payloadFormat with
    | none =>
      rw [hf] at ha
      simp [ha]
    | some format => rfl

/-- The format an observation is compared with at its turn is the one adopted in the end. -/
theorem about_adoptedFormat : About (adoptedFormat r (t :: ts)) r t ↔ About r.payloadFormat r t := by
  cases hf : r.payloadFormat with
  | some format => simp [adoptedFormat, hf]
  | none =>
    refine ⟨fun h => h.anyFormat, fun h => ?_⟩
    refine ⟨h.1, h.2.1, h.2.2.1, ?_⟩
    simp [adoptedFormat, hf, h]

theorem agreeing_cons : agreeing r (t :: ts) =
    if About r.payloadFormat r t then t :: agreeing (observed r t) ts else agreeing (observed r t) ts := by
  have hrest : ts.filter (About (adoptedFormat r (t :: ts)) r) = agreeing (observed r t) ts := by
    simp only [agreeing, adoptedFormat_cons,
      about_congr (observed_identity r t).1 (observed_identity r t).2]
  rw [agreeing, List.filter_cons, hrest]
  simp only [decide_eq_true_eq, about_adoptedFormat]

theorem lastObservation_cons : lastObservation (t :: ts) =
    (lastObservation ts).or (if t.Invalid then none else some t) := by
  rw [lastObservation, List.reverse_cons, List.find?_append, List.find?_singleton]
  split_ifs <;> simp_all [lastObservation]

/-- The mark left by the last observation, told from the first one on. -/
theorem conflict_cons : ((lastObservation ts).elim (observed r t).snapshotConflict fun u =>
      ¬ About (adoptedFormat (observed r t) ts) (observed r t) u) =
    (lastObservation (t :: ts)).elim r.snapshotConflict fun u =>
      ¬ About (adoptedFormat r (t :: ts)) r u := by
  simp only [lastObservation_cons, ← adoptedFormat_cons,
    about_congr (observed_identity r t).1 (observed_identity r t).2]
  cases lastObservation ts with
  | some u => rfl
  | none =>
    by_cases hv : t.Invalid
    · simp [hv, observed]
    · by_cases ha : About r.payloadFormat r t
      · simp [hv, observed_about ha, about_adoptedFormat.mpr ha, terminated]
      · simp [hv, observed_other hv ha, mt about_adoptedFormat.mp ha, conflicted]

theorem merged_nil (r : ReminderRow) : Merged r [] r where
  identity := ⟨rfl, rfl, rfl, rfl, rfl, rfl, rfl⟩
  format := by simp [adoptedFormat]
  unseen _ := rfl
  kept h := ⟨h, rfl, rfl, rfl, id⟩
  delivered _ d h := by cases h
  cancelled _ _ c h := by cases h
  released h := absurd rfl h
  revision := ⟨rfl, rfl⟩
  conflict := rfl

/-- An observation that is not about the occurrence leaves a mark at most. -/
theorem Merged.skip {r' : ReminderRow} (ha : ¬ About r.payloadFormat r t)
    (h : Merged (observed r t) ts r') : Merged r (t :: ts) r' := by
  have hagree : agreeing r (t :: ts) = agreeing (observed r t) ts := by rw [agreeing_cons, if_neg ha]
  obtain ⟨c, hrow⟩ : ∃ c, observed r t = { r with snapshotConflict := c } := by
    unfold observed
    split_ifs
    · exact ⟨_, rfl⟩
    · exact ⟨_, rfl⟩
  constructor
  case identity => simpa only [hrow] using h.identity
  case format => rw [adoptedFormat_cons, h.format]
  case unseen =>
    intro hn
    have hu := h.unseen (hagree ▸ hn)
    rw [hrow] at hu
    exact hu
  case kept => simpa only [hrow] using h.kept
  case delivered =>
    rw [hagree]
    simpa only [hrow] using h.delivered
  case cancelled =>
    rw [hagree]
    simpa only [hrow] using h.cancelled
  case released =>
    rw [hagree]
    exact h.released
  case revision =>
    rw [hagree]
    simpa only [hrow] using h.revision
  case conflict => rw [h.conflict, conflict_cons]

/-- An observation about the occurrence comes before all others. -/
theorem Merged.take {r' : ReminderRow} (ha : About r.payloadFormat r t)
    (h : Merged (observed r t) ts r') : Merged r (t :: ts) r' := by
  have hagree : agreeing r (t :: ts) = t :: agreeing (observed r t) ts := by
    rw [agreeing_cons, if_pos ha]
  have hl : t.lifecycle = .cancelled ∨ t.lifecycle = .delivered := by
    by_contra hn
    simp only [not_or] at hn
    exact ha.1 (.inr (.inr (.inr (.inl hn))))
  have hrow := observed_about ha
  constructor
  case identity =>
    have hi := h.identity
    rw [hrow] at hi
    exact hi
  case format => rw [adoptedFormat_cons, h.format]
  case unseen => simp [hagree]
  case kept =>
    intro hd
    have hk := h.kept (by simp [hrow, terminated, hd])
    obtain ⟨hs, hf, ha, he, hc⟩ := by simpa [hrow, terminated, hd] using hk
    exact ⟨hs, hf, ha, he, fun _ => hc⟩
  case delivered =>
    intro hd d hf
    rw [hagree] at hf
    rcases hl with hc | hc
    · rw [List.find?_cons_of_neg (by simp [hc])] at hf
      exact h.delivered (by simp [hrow, terminated, hd, hc]) d hf
    · rw [List.find?_cons_of_pos (by simp [hc])] at hf
      obtain rfl := Option.some.inj hf
      have hk := h.kept (by simp [hrow, terminated, hc])
      simpa [hrow, terminated, hd, hc] using hk
  case cancelled =>
    intro hd hnone c hlast
    rw [hagree] at hnone hlast
    have hc : t.lifecycle = .cancelled := hl.resolve_right (hnone t List.mem_cons_self)
    have hs : (observed r t).state = .cancelled := by simp [hrow, terminated, hd, hc]
    cases hrest : agreeing (observed r t) ts with
    | nil =>
      rw [hrest] at hlast
      obtain rfl := Option.some.inj hlast
      rw [h.unseen hrest, hrow]
      simp [terminated, hd, hc]
    | cons u us =>
      refine h.cancelled (by simp [hs]) ?_ c ?_
      · exact fun v hv => hnone v (List.mem_cons_of_mem _ hv)
      · rw [hrest, ← hlast, hrest, List.getLast?_cons_cons]
  case released =>
    intro _
    cases hrest : agreeing (observed r t) ts with
    | nil =>
      rw [h.unseen hrest, hrow]
      refine ⟨rfl, rfl, rfl, rfl, rfl, rfl, rfl, rfl, fun hs => ?_⟩
      by_cases hd : r.state = .delivered
      · simp [terminated, hd]
      · rcases hl with hc | hc <;> simp_all [terminated]
    | cons u us => exact h.released (by simp [hrest])
  case revision =>
    rw [hagree]
    exact hrow ▸ h.revision
  case conflict => rw [h.conflict, conflict_cons]

theorem merged_foldl (r : ReminderRow) (ts : List RemoteTombstone) : Merged r ts (ts.foldl observed r) := by
  induction ts generalizing r with
  | nil => exact merged_nil r
  | cons t ts ih =>
    by_cases ha : About r.payloadFormat r t
    · exact (ih (observed r t)).take ha
    · exact (ih (observed r t)).skip ha

theorem foldl_max_self (n : Nat) (ns : List Nat) : ns.foldl max (ns.foldl max n) = ns.foldl max n := by
  induction ns generalizing n with
  | nil => rfl
  | cons m ns ih =>
    have hm : max (ns.foldl max (max n m)) m = ns.foldl max (max n m) := by
      rw [max_comm n m, List.foldl_assoc]
      omega
    rw [List.foldl_cons, List.foldl_cons, hm, ih]

/-- Replaying the observations changes nothing. -/
theorem foldl_observed_replay (r : ReminderRow) (ts : List RemoteTombstone) :
    ts.foldl observed (ts.foldl observed r) = ts.foldl observed r := by
  have h := merged_foldl r ts
  have h' := merged_foldl (ts.foldl observed r) ts
  generalize ts.foldl observed r = r' at h h' ⊢
  generalize ts.foldl observed r' = r'' at h' ⊢
  have habout (payloadFormat : Option String) : About payloadFormat r' = About payloadFormat r :=
    about_congr h.identity.1 h.identity.2.2.2.2.1 payloadFormat
  have hformat : adoptedFormat r' ts = adoptedFormat r ts := by
    simp only [adoptedFormat, h.format, habout]
    cases r.payloadFormat <;> simp
  have hagree : agreeing r' ts = agreeing r ts := by
    simp only [agreeing, hformat, habout]
  have hmark : r''.snapshotConflict = r'.snapshotConflict := by
    rw [h'.conflict]
    simp only [hformat, habout]
    cases hlast : lastObservation ts with
    | none => rfl
    | some t => rw [h.conflict, hlast, Option.elim_some, Option.elim_some]
  by_cases hn : agreeing r ts = []
  · rw [h'.unseen (hagree.trans hn), hmark]
  · have hrel := h.released hn
    have hrel' := h'.released (hagree ▸ hn)
    have hrev := h'.revision
    rw [hagree, h.revision.1, h.revision.2, foldl_max_self, foldl_max_self, ← h.revision.1,
      ← h.revision.2] at hrev
    have hfacts : r''.state = r'.state ∧ r''.actualFireAtMs = r'.actualFireAtMs ∧
        r''.cancelledAtMs = r'.cancelledAtMs ∧ r''.deliveredAtMs = r'.deliveredAtMs ∧
        r''.deliveredEventId = r'.deliveredEventId := by
      by_cases hd : r'.state = .delivered
      · obtain ⟨hs, hf, ha, he, hc⟩ := h'.kept hd
        have hc' := hrel.2.2.2.2.2.2.2.2 hd
        exact ⟨hs.trans hd.symm, hf, (hc hc').trans hc'.symm, ha, he⟩
      · have hd₀ : r.state ≠ .delivered := fun hs => hd (h.kept hs).1
        have hnone (t : RemoteTombstone) (ht : t ∈ agreeing r ts) : t.lifecycle ≠ .delivered := by
          intro hl
          have hsome : ((agreeing r ts).find? (·.lifecycle = .delivered)).isSome :=
            List.find?_isSome.mpr ⟨t, ht, by simpa using hl⟩
          obtain ⟨d, hf⟩ := Option.isSome_iff_exists.mp hsome
          exact hd (h.delivered hd₀ d hf).1
        obtain ⟨c, hlast⟩ := Option.isSome_iff_exists.mp (List.getLast?_isSome.mpr hn)
        obtain ⟨hs, hc, hf, ha, he⟩ := h.cancelled hd₀ hnone c hlast
        rw [← hagree] at hnone hlast
        obtain ⟨hs', hc', hf', ha', he'⟩ := h'.cancelled hd hnone c hlast
        exact ⟨hs'.trans hs.symm, hf'.trans hf.symm, hc'.trans hc.symm, ha'.trans ha.symm,
          he'.trans he.symm⟩
    obtain ⟨hi₁, hi₂, hi₃, hi₄, hi₅, hi₆, hi₇⟩ := h'.identity
    obtain ⟨hs, hf, hc, ha, he⟩ := hfacts
    obtain ⟨h₁, h₂, h₃, h₄, h₅, h₆, h₇, h₈, -⟩ := hrel
    obtain ⟨h₁', h₂', h₃', h₄', h₅', h₆', h₇', h₈', -⟩ := hrel'
    exact ReminderRow.ext hi₁ hi₂ hi₃ hi₄ hi₅ hs hi₆ (h₁'.trans h₁.symm) hf hc ha he hrev.1 hrev.2
      (h'.format.trans (hformat.trans h.format.symm)) hi₇ (h₂'.trans h₂.symm) (h₃'.trans h₃.symm)
      (h₄'.trans h₄.symm) (h₅'.trans h₅.symm) (h₆'.trans h₆.symm) (h₇'.trans h₇.symm)
      (h₈'.trans h₈.symm) hmark

end Merge
section Runs
variable (host : Host)

/-- The observations of one occurrence, applied through the store one after the other. -/
def observe (s : Tables) (ts : List RemoteTombstone) : Tables :=
  run (step host) s (ts.map .materializeTerminal)

theorem observe_cons (s : Tables) (t : RemoteTombstone) (ts : List RemoteTombstone) :
    observe host s (t :: ts) = observe host (step host s (.materializeTerminal t)) ts := rfl

theorem observe_known {s : Tables} {o : String} {r : ReminderRow} (hg : s.getOccurrence o = some r)
    {ts : List RemoteTombstone} (ho : ∀ t ∈ ts, t.occurrenceId = o) (o' : String) :
    (observe host s ts).getOccurrence o' =
      (s.getOccurrence o').map (fun r => if r.occurrenceId = o then ts.foldl observed r else r) := by
  induction ts generalizing s r with
  | nil => simp [observe]
  | cons t ts ih =>
    obtain rfl := ho t List.mem_cons_self
    have hstep := getOccurrence_observe host hg
    have hg' := hstep t.occurrenceId
    rw [hg, Option.map_some, if_pos (getOccurrence_id hg)] at hg'
    rw [observe_cons, ih hg' fun u hu => ho u (List.mem_cons_of_mem _ hu), hstep, Option.map_map]
    refine Option.map_congr fun r₁ _ => ?_
    by_cases h : r₁.occurrenceId = t.occurrenceId
    · simp [h, observed_occurrenceId]
    · simp [h]

/-- Some observation names the reminder. -/
def Named (ts : List RemoteTombstone) (r : ReminderRow) : Prop :=
  ∃ t ∈ ts, ¬ t.Invalid ∧ r.reminderId = t.reminderId

instance (ts : List RemoteTombstone) (r : ReminderRow) : Decidable (Named ts r) := by
  unfold Named
  infer_instance

theorem observe_missing {s : Tables} {o : String} (hg : s.getOccurrence o = none)
    {ts : List RemoteTombstone} (ho : ∀ t ∈ ts, t.occurrenceId = o) (o' : String) :
    (observe host s ts).getOccurrence o' =
      (s.getOccurrence o').map (fun r => if Named ts r then conflicted r else r) := by
  induction ts generalizing s with
  | nil => simp [observe, Named]
  | cons t ts ih =>
    obtain rfl := ho t List.mem_cons_self
    have hstep := getOccurrence_observe_missing host hg
    have hg' := hstep t.occurrenceId
    rw [hg, Option.map_none] at hg'
    rw [observe_cons, ih hg' fun u hu => ho u (List.mem_cons_of_mem _ hu), hstep, Option.map_map]
    refine Option.map_congr fun r _ => ?_
    have hcons : Named (t :: ts) r ↔ (¬ t.Invalid ∧ r.reminderId = t.reminderId) ∨ Named ts r := by
      simp [Named]
    by_cases h : ¬ t.Invalid ∧ r.reminderId = t.reminderId
    · by_cases hn : Named ts r
      · simp [h, hcons, hn, conflicted]
      · simp [h, hcons, show ¬ Named ts (conflicted r) from hn]
    · simp [h, hcons]

/-- Terminal observations of one occurrence, in any order and number: the merged row only
depends on the local row and the observations about it; other rows stay; an unknown
occurrence stays unknown; replaying the observations changes nothing. -/
theorem terminal_merge (s : Tables) (o : String) (ts : List RemoteTombstone)
    (ho : ∀ t ∈ ts, t.occurrenceId = o) :
    (∀ r, s.getOccurrence o = some r →
      (∃ r', (observe host s ts).getOccurrence o = some r' ∧ Merged r ts r') ∧
      ∀ o', o' ≠ o → (observe host s ts).getOccurrence o' = s.getOccurrence o') ∧
    (s.getOccurrence o = none → ∀ o', (observe host s ts).getOccurrence o' =
      (s.getOccurrence o').map (fun r => if Named ts r then conflicted r else r)) ∧
    ∀ o', (observe host s (ts ++ ts)).getOccurrence o' = (observe host s ts).getOccurrence o' := by
  refine ⟨fun r hg => ⟨⟨ts.foldl observed r, ?_, merged_foldl r ts⟩, fun o' hne => ?_⟩,
    fun hg => observe_missing host hg ho, fun o' => ?_⟩
  · rw [observe_known host hg ho, hg, Option.map_some, if_pos (getOccurrence_id hg)]
  · rw [observe_known host hg ho]
    cases hg' : s.getOccurrence o' with
    | none => rfl
    | some r' => rw [Option.map_some, if_neg (getOccurrence_id hg' ▸ hne)]
  · have ho₂ (t : RemoteTombstone) (ht : t ∈ ts ++ ts) : t.occurrenceId = o := by
      rcases List.mem_append.mp ht with h | h <;> exact ho t h
    cases hg : s.getOccurrence o with
    | none =>
      rw [observe_missing host hg ho₂, observe_missing host hg ho]
      simp [Named]
    | some r =>
      rw [observe_known host hg ho₂, observe_known host hg ho]
      simp only [List.foldl_append, foldl_observed_replay]

end Runs

section Observations

/-- A host without surprises. -/
def plainHost : Host := ⟨fun n => some (toString n), fun _ => true, fun _ => none⟩

/-- What the Server reports about the one occurrence of the runs below. -/
def tombstone (lifecycle : ReminderState) (lifecycleAtMs : Int) : RemoteTombstone :=
  ⟨"r1", "o1", 5, lifecycle, lifecycleAtMs, 2, "v1"⟩

def createdStore : Tables :=
  run (step plainHost) Tables.empty [.create "water the plants" "dm:bob" 5 "r1" "o1" 1]

def cancelledStore : Tables := step plainHost createdStore (.cancel "r1" 2)

/-- Between two cancellations and two deliveries the first delivery counts. -/
theorem terminal_merge_reported :
    ∃ r', (observe plainHost createdStore [tombstone .cancelled 6, tombstone .delivered 7,
        tombstone .delivered 8, tombstone .cancelled 9]).getOccurrence "o1" = some r' ∧
      r'.state = .delivered ∧ r'.actualFireAtMs = some 7 := by
  have hg : createdStore.getOccurrence "o1" =
      some (scheduledRow "r1" "o1" "dm:bob" "water the plants" 5 1) := by decide +kernel
  obtain ⟨⟨r', hr', hm⟩, -⟩ := (terminal_merge plainHost createdStore "o1"
    [tombstone .cancelled 6, tombstone .delivered 7, tombstone .delivered 8, tombstone .cancelled 9]
    (by decide)).1 _ hg
  have hd := hm.delivered (by decide) (tombstone .delivered 7) (by decide +kernel)
  exact ⟨r', hr', hd.1, hd.2.1⟩

/-- A cancelled occurrence becomes delivered without a conflict, and of two cancellations
the second one sets the time. -/
theorem cancellation_overwritten :
    (cancelledStore.getOccurrence "o1").map (·.state) = some .cancelled ∧
    ((observe plainHost cancelledStore [tombstone .delivered 7]).getOccurrence "o1").map
      (fun r => (r.state, r.snapshotConflict)) = some (.delivered, false) ∧
    ((observe plainHost createdStore [tombstone .cancelled 6]).getOccurrence "o1").map
      (·.cancelledAtMs) = some (some 6) ∧
    ((observe plainHost createdStore [tombstone .cancelled 6, tombstone .cancelled 7]).getOccurrence
      "o1").map (·.cancelledAtMs) = some (some 7) := by
  decide +kernel

end Observations
end PuffoAgent.Reminders
