import PuffoAgent.Recovery.Trace
import PuffoAgent.Store.Requeue

/-! What a startup settles: behind an unresolved recovery record it leaves every turn as it is,
and otherwise, when nothing interrupts it, no turn is left active. -/
namespace PuffoAgent.Recovery
open Relational Stmt Store Projection Text Machine

/-- The workspace needs a recovery: `recovery_required` answers so, or cannot read the record. -/
def Workspace.required (w : Workspace) : Bool :=
  match w.record with
  | .missing => false
  | .invalid => true
  | .holds record => !record.resolved

/-- Nothing needs a recovery, and the store is sound. -/
structure Clear (w : Workspace) : Prop where
  sound : Sound w.tables
  clear : w.required = false

/-- The recovery holds the store as it found it. -/
structure Held (s : Tables) (w : Workspace) : Prop where
  tables : w.tables = s
  required : w.required = true

/-- Nothing strikes a write. -/
def Circumstances.Calm (env : Circumstances) : Prop := ∀ tick, env.faults tick = none

section Writes
variable {env : Circumstances} (calm : env.Calm) {P : Workspace → Prop} {Q : Unit → Workspace → Prop}
  {E : Failure → Workspace → Prop}
include calm

theorem meets_written {f : Workspace → Workspace} (h : ∀ w, P w → Q () (f { w with ticks := w.ticks + 1 })) :
    Meets P (durable env fun w => .ok (f w)) Q E := by
  intro w hw
  simp only [durable, calm w.ticks]
  exact h w hw

/-- A call that returns, and one that the store refuses. -/
theorem meets_call {op : Op}
    (returned : ∀ w s' calls, P w → op.perform ⟨w.tables, none⟩ = .ok () ⟨s', none⟩ → (Sound w.tables → Sound s') →
      Q () { w with tables := s', calls := calls, ticks := w.ticks + 1 })
    (refused : ∀ w, P w → (∀ c, op.perform ⟨w.tables, none⟩ ≠ .ok () c) →
      E (.raised "the store refused the call") { w with ticks := w.ticks + 1 }) :
    Meets P (call env op) Q E := by
  intro w hw
  simp only [call, durable, calm w.ticks, Workspace.call]
  cases hr : op.perform ⟨w.tables, none⟩ with
  | error e c => exact refused w hw fun c' hc => by rw [hr] at hc; cases hc
  | ok u c =>
    obtain ⟨closed, effect⟩ := op.perform_has.ok hr
    refine returned w c.tables _ hw ?_ effect.ledger.sound
    rw [hr, ← closed]

theorem meets_release {session : Option String}
    (released : ∀ w s' calls, P w → SameTurns w.tables s' → (Sound w.tables → Sound s') →
      Q () { w with tables := s', calls := calls, ticks := w.ticks + 1 }) :
    Meets P (releaseNoticeDelivery env session) Q E := by
  refine meets_call calm (fun w s' calls hw hr sound => released w s' calls hw ?_ sound) fun w hw hr => ?_
  · exact ((perform_sameTurns rfl).ok hr).2
  · obtain ⟨s', hs', -⟩ := releaseNoticeDelivery_returns (s := w.tables) session
    exact absurd hs' (hr _)

/-- A run is put back when its ids are those of an active turn. -/
theorem meets_requeueRun {turnId : String} {ids : List String}
    (held : ∀ w, P w → Sound w.tables ∧ w.tables.isActive turnId ∧ ids = turnMessageIds w.tables turnId)
    (requeued : ∀ w s' calls, P w → Finished turnId .requeued w.tables s' → Sound s' →
      Q () { w with tables := s', calls := calls, ticks := w.ticks + 1 }) :
    Meets P (requeueRun env turnId ids) Q E := by
  have settle (op : Op) (returns : ∀ w, P w → ∃ s', op.perform ⟨w.tables, none⟩ = .ok () ⟨s', none⟩ ∧
      Finished turnId .requeued w.tables s') : Meets P (call env op) Q E := by
    refine meets_call calm (fun w s' calls hw hr sound => ?_) fun w hw hr => ?_
    · obtain ⟨s₁, hs₁, finished⟩ := returns w hw
      rw [hr] at hs₁
      cases hs₁
      exact requeued w s' calls hw finished (sound (held w hw).1)
    · obtain ⟨s', hs', -⟩ := returns w hw
      exact absurd hs' (hr _)
  refine Meets.ite (fun hne => settle _ fun w hw => ?_) fun hempty => settle _ fun w hw => ?_
  · obtain ⟨sound, active, rfl⟩ := held w hw
    exact requeueMessages_returns sound active hne env.now
  · obtain ⟨sound, active, rfl⟩ := held w hw
    exact finalizeEmptyTurn_returns (by decide) active (not_not.mp hempty) env.now

theorem meets_clearTerminalTurn
    (h : ∀ w, P w → Q () { w with active := {}, currentTurn := .missing, ticks := w.ticks + 1 }) :
    Meets P (clearTerminalTurn env) Q E := by
  refine Meets.bind (Q := fun _ w => ∃ active, P { w with active := active } ∧ w.active = {}) ?_ fun _ => ?_
  · exact meets_exec fun w hw => ⟨w.active, hw, rfl⟩
  · refine Meets.tryCatch (F := fun _ _ => False) ?_ fun e w hw => hw.elim
    refine meets_written calm fun w ⟨active, hw, hempty⟩ => ?_
    have := h _ hw
    rwa [← hempty] at this

end Writes

section Unwinding
variable {env : Circumstances} (calm : env.Calm) {E : Failure → Workspace → Prop}

theorem isActive_of_getTurnRun {s : Tables} {turnId : String} {run : TurnRun} (h : getTurnRun turnId s = some run) :
    run.turnId = turnId ∧ run.messageIds = turnMessageIds s turnId ∧ (run.state = .inTurn → s.isActive turnId) := by
  obtain ⟨r, hg, rfl⟩ := Option.map_eq_some_iff.mp h
  have hid : r.turnId = turnId := Table.get?_key hg
  refine ⟨hid, rfl, fun hst => ?_⟩
  rw [Tables.isActive, hg]
  exact congrArg some hst

/-- The run can be given back with the ids that an unwinding would choose. -/
structure Returnable (run : TurnRun) (ids : List String) (activated : Bool) (w : Workspace) : Prop where
  clear : Clear w
  held : run.state = .inTurn → w.tables.isActive run.turnId ∧
    requeueIds run ids activated w.active = turnMessageIds w.tables run.turnId

include calm

theorem meets_abandonRecoveryEvent {raw : Json} (hashable : (raw.member "provider_session_id").all isHashable = true)
    {run : TurnRun} {P : Workspace → Prop}
    (hP : ∀ w outbox ticks, P w → P { w with outbox := outbox, ticks := ticks }) :
    Meets P (abandonRecoveryEvent env raw run) (fun _ => P) E := by
  refine Meets.query_bind fun outbox => ?_
  cases outbox with
  | none => exact meets_pure fun w hw => hw.1
  | some outbox =>
    refine Meets.bind (Q := fun _ => P) ?_ fun _ => ?_
    · exact meets_raiseIf (fun h => absurd hashable h.2) fun _ w hw => hw.1
    · refine Meets.ite (fun _ => ?_) fun _ => meets_pure fun w hw => hw
      refine Meets.bind (Q := fun _ => P) ?_ fun _ => ?_
      · exact meets_written calm (f := id) fun w hw => hP w w.outbox _ hw
      · exact meets_written calm fun w hw => hP w _ _ hw

theorem unwindRecovery_clears {raw : Json} (hashable : (raw.member "provider_session_id").all isHashable = true)
    (run : TurnRun) (ids : List String) (activated : Bool) :
    Meets (Returnable run ids activated) (unwindRecovery env raw (some run) ids activated) (fun _ => Clear) E := by
  refine Meets.bind (Q := fun _ => Clear) (Meets.ite (fun _ => ?_) fun hst => ?_) fun _ => ?_
  · exact meets_pure fun w hw => hw.clear
  · refine Meets.query_bind fun chosen => Meets.bind (Q := fun _ => Clear) ?_ fun _ => ?_
    · have put : Meets (fun w => Returnable run ids activated w ∧ requeueIds run ids activated w.active = chosen)
          (requeueRun env run.turnId chosen) (fun _ => Clear) E := by
        refine meets_requeueRun calm (fun w hw => ?_) fun w s' calls hw _ sound => ⟨sound, hw.1.clear.clear⟩
        obtain ⟨active, hids⟩ := hw.1.held (not_not.mp hst)
        exact ⟨hw.1.clear.sound, active, hw.2.symm.trans hids⟩
      refine Meets.ite (fun _ => Meets.bind (meets_abandonRecoveryEvent calm hashable ?_) fun _ => put) fun _ => put
      exact fun w outbox ticks hw => ⟨⟨⟨hw.1.clear.sound, hw.1.clear.clear⟩, hw.1.held⟩, hw.2⟩
    · exact meets_release calm fun w s' calls hw _ sound => ⟨sound hw.sound, hw.clear⟩
  · exact meets_clearTerminalTurn calm fun w hw => ⟨hw.sound, hw.clear⟩

end Unwinding

section Quarantine
variable {env : Circumstances} {s : Tables} {P : Workspace → Prop}

/-- A record that is read, and one that cannot be. -/
theorem meets_readRecovery : Meets P readRecovery
    (fun record w => P w ∧ w.record = match record with | none => .missing | some record => .holds record)
    fun _ w => P w ∧ w.record = .invalid := by
  intro w hw
  unfold readRecovery
  cases hr : w.record with
  | missing => exact ⟨hw, hr⟩
  | invalid => exact ⟨hw, hr⟩
  | holds record => exact ⟨hw, hr⟩

theorem required_of_unresolved {w : Workspace} {record : TurnRecovery} (h : w.record = .holds record)
    (hr : record.resolved = false) : w.required = true := by
  rw [Workspace.required, h]
  exact congrArg not hr

theorem required_of_invalid {w : Workspace} (h : w.record = .invalid) : w.required = true := by
  rw [Workspace.required, h]

theorem clear_of_resolved {w : Workspace} {record : TurnRecovery} (h : w.record = .holds record)
    (hr : record.resolved = true) : w.required = false := by
  rw [Workspace.required, h]
  exact congrArg not hr

/-- The turn of a record: the one it names, or the only active turn of its session. -/
def boundTurn (record : TurnRecovery) (s : Tables) : Option String :=
  if record.durableTurnId ≠ "" then some record.durableTurnId else durableCandidate record s

/-- The turn is one of the session that a retry can put back, or has put back. -/
def Retryable (turnId session : String) (s : Tables) : Prop :=
  ∃ run, getTurnRun turnId s = some run ∧ run.providerSessionId.getD "" = session ∧
    (run.state = .inTurn ∨ run.state = .requeued)

def Effectless (turnId : String) (s : Tables) : Prop :=
  ∀ run, getTurnRun turnId s = some run → run.messageIds = []

/-- A record that holds the recovery: it cannot be read, or it is unresolved and neither the record of a retry that
is authorised and finds its turn, nor that of a stopped turn without messages. -/
def Gated (s : Tables) : Stored TurnRecovery → Prop
  | .missing => False
  | .invalid => True
  | .holds record => record.resolved = false ∧ ¬ (record.stopped = true ∧ ∃ turnId, boundTurn record s = some turnId ∧
      if record.retryRequested = true then Retryable turnId record.providerSessionId s else Effectless turnId s)

theorem retryable_iff {turnId session : String} {run : TurnRun} (h : getTurnRun turnId s = some run) :
    Retryable turnId session s ↔ run.providerSessionId.getD "" = session ∧ (run.state = .inTurn ∨ run.state = .requeued) := by
  simp [Retryable, h]

theorem gated_of_unbound {record : TurnRecovery} (unresolved : record.resolved = false) (h : boundTurn record s = none) :
    Gated s (.holds record) := by
  refine ⟨unresolved, fun ⟨_, turnId, hb, _⟩ => ?_⟩
  cases h.symm.trans hb

/-- The operator has asked for the retry of a stopped turn. -/
def TurnRecovery.authorized (record : TurnRecovery) : Prop := record.retryRequested = true ∧ record.stopped = true

/-- The recovery waits for the operator, who has not authorised a retry. -/
structure Waits (s : Tables) (stored : Stored TurnRecovery) (w : Workspace) : Prop where
  held : Held s w
  record : w.record = stored
  unauthorized : ∀ record, stored = .holds record → ¬ record.authorized

variable (calm : env.Calm)
include calm

/-- The retry of a bound record: it settles the record's turn and then resolves the record,
or raises before it has touched the store. -/
theorem settleQuarantined_settles (hs : Sound s) (record : TurnRecovery) :
    Meets (Held s) (settleQuarantined env record) (fun _ => Clear)
      fun _ w => Held s w ∧ ¬ Retryable record.durableTurnId record.providerSessionId s := by
  refine Meets.query_bind fun found => ?_
  cases found with
  | none =>
    refine meets_throw fun w ⟨held, hg⟩ => ⟨held, fun ⟨run, hrun, _⟩ => ?_⟩
    cases (held.tables ▸ hg).symm.trans hrun
  | some run =>
    refine Meets.bind (Q := fun _ w => (Held s w ∧ getTurnRun record.durableTurnId w.tables = some run) ∧
      run.providerSessionId.getD "" = record.providerSessionId) ?_ fun _ => ?_
    · refine meets_raiseIf (fun hne w ⟨held, hg⟩ => ⟨held, fun hr => ?_⟩) fun same w hw => ⟨hw, not_not.mp same⟩
      exact hne ((retryable_iff (held.tables ▸ hg)).mp hr).1
    refine Meets.bind (Q := fun _ w => Sound w.tables) (Meets.ite (fun hst => ?_) fun hst => ?_) fun _ => ?_
    · refine meets_requeueRun calm (fun w ⟨⟨held, hg⟩, _⟩ => ?_) fun w s' calls _ _ sound => sound
      obtain ⟨hid, hids, active⟩ := isActive_of_getTurnRun hg
      rw [hid]
      exact ⟨held.tables ▸ hs, active hst, hids⟩
    · refine meets_raiseIf (fun hne w ⟨⟨held, hg⟩, _⟩ => ⟨held, fun hr => ?_⟩) fun _ w hw => hw.1.1.tables ▸ hs
      exact not_or.mpr ⟨hst, hne⟩ ((retryable_iff (held.tables ▸ hg)).mp hr).2
    · refine Meets.bind (Q := fun _ w => Sound w.tables) ?_ fun _ => Meets.bind (Q := fun _ w => Sound w.tables) ?_
        fun _ => ?_
      · exact meets_release calm fun w s' calls hw _ sound => sound hw
      · exact meets_clearTerminalTurn calm fun w hw => hw
      · exact meets_written calm fun w hw => ⟨hw, rfl⟩

theorem retryQuarantinedTurn_settles (hs : Sound s) {record : TurnRecovery} (authorized : record.authorized) :
    Meets (fun w => Held s w ∧ w.record = .holds record) (retryQuarantinedTurn env) (fun _ => Clear)
      fun _ w => Held s w ∧ Gated s (.holds record) := by
  refine Meets.bind (meets_readRecovery.mono (fun w hw => hw) (fun _ _ hq => hq) fun _ w ⟨hw, hr⟩ => ?_) fun found => ?_
  · cases hw.2.symm.trans hr
  cases found with
  | none =>
    refine meets_pure fun w ⟨hw, hr⟩ => ?_
    cases hw.2.symm.trans hr
  | some found =>
    refine Meets.ite (fun hres => meets_pure fun w ⟨hw, hr⟩ => ?_) fun hres => ?_
    · exact absurd hw.1.required (by simp [clear_of_resolved hr hres])
    by_cases same : found = record
    · subst same
      have unresolved : found.resolved = false := by simpa using hres
      have bind : Meets (Held s) (bindRecord env found)
          (fun bound w => Held s w ∧ boundTurn found s = some bound.durableTurnId ∧
            bound.providerSessionId = found.providerSessionId)
          fun _ w => Held s w ∧ Gated s (.holds found) := by
        refine Meets.ite (fun named => meets_pure fun w held => ⟨held, if_pos named, rfl⟩) fun unnamed => ?_
        refine Meets.query_bind fun candidate => ?_
        cases candidate with
        | none =>
          refine meets_throw fun w ⟨held, hc⟩ => ⟨held, gated_of_unbound unresolved ?_⟩
          rw [boundTurn, if_neg unnamed, ← held.tables, hc]
        | some turnId =>
          refine Meets.bind (Q := fun _ w => Held s w ∧ durableCandidate found s = some turnId) ?_ fun _ =>
            meets_pure fun w ⟨held, hc⟩ => ⟨held, (if_neg unnamed).trans hc, rfl⟩
          exact meets_written calm fun w ⟨held, hc⟩ =>
            ⟨⟨held.tables, required_of_unresolved rfl unresolved⟩, held.tables ▸ hc⟩
      refine Meets.bind (Q := fun _ => Held s) ?_ fun _ => bind.bind fun bound w ⟨held, hb, hsession⟩ => ?_
      · exact meets_raiseIf (fun h => absurd authorized (by simp_all [TurnRecovery.authorized])) fun _ w hw => hw.1.1
      · refine ((settleQuarantined_settles calm hs bound).mono (fun _ hw => hw) (fun _ _ hq => hq)
          fun _ w ⟨held, hno⟩ => ⟨held, unresolved, fun ⟨_, turnId, ht, hr⟩ => hno ?_⟩) w held
        rw [if_pos authorized.1] at hr
        rwa [hsession, Option.some.inj (hb.symm.trans ht)]
    · rintro w ⟨hw, hr⟩
      exact absurd (Stored.holds.inj (hr.symm.trans hw.2)) same

/-- A record is resolved without a retry only when its turn holds nothing. -/
theorem resolveEffectlessRecovery_settles (hs : Sound s) (stored : Stored TurnRecovery) :
    Meets (fun w => Clear w ∨ Waits s stored w) (resolveEffectlessRecovery env)
      (fun resolved w => if resolved then Clear w else Held s w ∧ Gated s stored) fun _ w => Held s w ∧ Gated s stored := by
  refine Meets.bind (meets_readRecovery.mono (fun w hw => hw) (fun _ _ hq => hq) fun _ w ⟨hw, hr⟩ => ?_)
    fun record => ?_
  · have waits := hw.resolve_left fun clear => absurd clear.clear (by simp [required_of_invalid hr])
    exact ⟨waits.held, by rw [← waits.record, hr]; trivial⟩
  · cases record with
    | none =>
      refine meets_pure fun w ⟨hw, hr⟩ => hw.resolve_right fun waits => absurd waits.held.required ?_
      simp [Workspace.required, hr]
    | some record =>
      refine Meets.ite (fun hres => meets_pure fun w ⟨hw, hr⟩ => ?_) fun hres => ?_
      · exact hw.resolve_right fun waits => absurd waits.held.required (by simp [clear_of_resolved hr hres])
      · have unresolved : record.resolved = false := by simpa using hres
        have held (w : Workspace) (hw : (Clear w ∨ Waits s stored w) ∧ w.record = .holds record) :
            Held s w ∧ stored = .holds record ∧ ¬ record.authorized := by
          have waits := hw.1.resolve_left fun clear =>
            absurd clear.clear (by simp [required_of_unresolved hw.2 unresolved])
          have same := waits.record.symm.trans hw.2
          exact ⟨waits.held, same, waits.unauthorized record same⟩
        refine Meets.ite (fun hne => meets_pure fun w hw => ?_) fun stopped => Meets.query_bind fun candidate => ?_
        · obtain ⟨waits, rfl, unauthorized⟩ := held w hw
          exact ⟨waits, unresolved, fun h => unauthorized ⟨hne.resolve_left (not_not.mpr h.1), h.1⟩⟩
        generalize hb : (if record.durableTurnId ≠ "" then some record.durableTurnId else candidate) = bound
        have bound_eq (w : Workspace) (hw : Held s w) (hc : durableCandidate record w.tables = candidate) :
            boundTurn record s = bound := by
          rw [← hb, ← hc, hw.tables, boundTurn]
        cases bound with
        | none =>
          refine meets_pure fun w ⟨hw, hc⟩ => ?_
          obtain ⟨waits, rfl, -⟩ := held w hw
          exact ⟨waits, gated_of_unbound unresolved (bound_eq w waits hc)⟩
        | some turnId =>
          refine Meets.query_bind fun run => ?_
          refine Meets.ite (fun holds => meets_pure fun w ⟨⟨hw, hc⟩, hrun⟩ => ?_) fun _ => ?_
          · obtain ⟨waits, rfl, -⟩ := held w hw
            cases run with
            | none => simp at holds
            | some run =>
              refine ⟨waits, unresolved, fun ⟨_, turnId', ht, effectless⟩ => ?_⟩
              obtain rfl := Option.some.inj ((bound_eq w waits hc).symm.trans ht)
              rw [if_neg (not_or.mp stopped).2] at effectless
              simp [effectless run (waits.tables ▸ hrun)] at holds
          refine Meets.bind (Q := fun _ => Clear) ?_ fun _ => meets_pure fun w hw => hw
          exact meets_written calm fun w hw => ⟨(held w hw.1.1).1.tables ▸ hs, rfl⟩

end Quarantine

end PuffoAgent.Recovery
