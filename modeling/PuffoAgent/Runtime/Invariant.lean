import PuffoAgent.Machine.Run
import PuffoAgent.Runtime.Manager

/-! The invariant of the runtime manager: the turn it holds is the only one without a
terminal, and every staged continuation belongs to it. -/
namespace PuffoAgent.Runtime
open Relational Text

namespace Manager

/-- The terminals of a turn that were fanned out. -/
def terminals (m : Manager) (turn : Nat) : Nat :=
  m.fanned.countP fun e => e.turnRef = some turn ∧ e.kind.isTerminal

/-- The part of the manager that its turns depend on. -/
def view (m : Manager) : Manager :=
  { m with
    closed := false
    opened := false
    driverName := ""
    sessionRef := 0
    nativeSessionId := ""
    confirmedNativeSessionId := ""
    resumeUnconfirmed := false
    resumeFailureStreak := 0
    inputAdmitted := false
    autonomousTools := []
    permissionRefs := [] }

/-- The registrations that are staged and those that fired. -/
def callbackIds (m : Manager) : List Nat :=
  m.continuationAdmissions.map (·.callback.id) ++ m.fired.map (·.callback.id)

structure Sound (m : Manager) : Prop where
  refs : ∀ ref row, m.turnRefs.get? ref = some row → m.activeDriverTurn = some ref ∧ m.activeTurn = some row.2
  idle : m.activeTurn = none → m.activeDriverTurn = none ∧ m.continuationAdmissions = []
  active : ∀ turn, m.activeTurn = some turn → turn ∈ m.accepted ∧ m.activeDriverTurn.isSome
  accepted_lt : ∀ turn ∈ m.accepted, turn < m.nextRef
  fanned_mem : ∀ e ∈ m.fanned, ∀ turn, e.turnRef = some turn → turn ∈ m.accepted
  ended : ∀ turn ∈ m.accepted, m.terminals turn = if m.activeTurn = some turn then 0 else 1
  autonomous : ∀ turn, m.autonomousTurn = some turn → m.activeTurn = some turn
  staged : ∀ a ∈ m.continuationAdmissions, m.activeTurn = some a.callback.turn ∧
    a.providerTurnId = m.nativeTurnId ∧ a.correlationReceipt ≠ ""
  distinct : m.callbackIds.Nodup
  callback_lt : ∀ id ∈ m.callbackIds, id < m.nextRef
  reported : ∀ turn w e, m.terminal.get? turn = some w → w.outcome = some (.ok e) → m.hasSink →
    e.kind ≠ .turnAbandoned → e ∈ m.persisted

theorem Sound.initial (hasSink : Bool) (driverName nativeSessionId : String) :
    Sound (initial hasSink driverName nativeSessionId) where
  refs _ _ h := by cases h
  idle _ := ⟨rfl, rfl⟩
  active _ h := by cases h
  accepted_lt _ h := by cases h
  fanned_mem _ h := by cases h
  ended _ h := by cases h
  autonomous _ h := by cases h
  staged _ h := by cases h
  distinct := List.nodup_nil
  callback_lt _ h := by cases h
  reported _ _ _ h := by cases h

variable {m m' : Manager}

theorem Sound.congr (h : m.Sound) (hv : m'.view = m.view) : m'.Sound := by
  have hs : m.view.Sound := ⟨h.refs, h.idle, h.active, h.accepted_lt, h.fanned_mem, h.ended,
    h.autonomous, h.staged, h.distinct, h.callback_lt, h.reported⟩
  rw [← hv] at hs
  exact ⟨hs.refs, hs.idle, hs.active, hs.accepted_lt, hs.fanned_mem, hs.ended,
    hs.autonomous, hs.staged, hs.distinct, hs.callback_lt, hs.reported⟩

/-- Only what the manager still has to remember may shrink. -/
theorem Sound.forget (h : m.Sound) (terminal : Table Waiter Nat Waiter.turn)
    (ht : ∀ turn w, terminal.get? turn = some w → m.terminal.get? turn = some w) :
    Sound { m with terminal := terminal } :=
  ⟨h.refs, h.idle, h.active, h.accepted_lt, h.fanned_mem, h.ended, h.autonomous, h.staged, h.distinct,
    h.callback_lt, fun turn w e hw => h.reported turn w e (ht turn w hw)⟩

theorem Sound.mint (h : m.Sound) (n : Nat) (hn : m.nextRef ≤ n) : Sound { m with nextRef := n } :=
  ⟨h.refs, h.idle, h.active, fun turn ht => lt_of_lt_of_le (h.accepted_lt turn ht) hn,
    h.fanned_mem, h.ended, h.autonomous, h.staged,
    h.distinct, fun id hid => lt_of_lt_of_le (h.callback_lt id hid) hn, h.reported⟩

/-- An event that ends no turn. -/
theorem Sound.publishEvent (h : m.Sound) {e : HarnessEvent} (sink : SinkOutcome)
    (he : ∀ turn, e.turnRef = some turn → e.kind.isTerminal = false ∧ turn ∈ m.accepted) :
    (m.publishEvent e sink).Sound := by
  have fanout : ∀ persisted, m.persisted ⊆ persisted →
      Sound { m with persisted := persisted, fanned := e :: m.fanned } := by
    intro persisted hp
    refine ⟨h.refs, h.idle, h.active, h.accepted_lt, ?_, ?_, h.autonomous, h.staged, h.distinct,
      h.callback_lt, fun turn w e hw ho hs hk => hp (h.reported turn w e hw ho hs hk)⟩
    · intro e' he' turn ht
      rcases List.mem_cons.1 he' with rfl | he'
      · exact (he turn ht).2
      · exact h.fanned_mem e' he' turn ht
    · intro turn ht
      rw [← h.ended turn ht]
      simp only [terminals, List.countP_cons]
      by_cases hr : e.turnRef = some turn
      · simp [(he turn hr).1]
      · simp [hr]
  unfold Manager.publishEvent
  split
  · exact fanout m.persisted (List.Subset.refl _)
  · split
    · exact fanout (e :: m.persisted) (List.subset_cons_self _ _)
    · exact h
    · exact h

/-- What the subscribers get names the turn and ends it. -/
theorem delivered_ends {e : HarnessEvent} {turn : Nat} (sink : SinkOutcome) (ht : e.turnRef = some turn)
    (hk : e.kind.isTerminal) :
    (m.delivered e turn sink).turnRef = some turn ∧ (m.delivered e turn sink).kind.isTerminal := by
  unfold delivered
  split
  · exact ⟨rfl, rfl⟩
  · exact ⟨ht, hk⟩

/-- An event that reaches the waiter as it came was persisted, unless it abandons the turn. -/
theorem delivered_persisted {e : HarnessEvent} {turn : Nat} {sink : SinkOutcome}
    (hc : sink = .cancelled → e.kind = .turnAbandoned) (hs : m.hasSink)
    (hk : (m.delivered e turn sink).kind ≠ .turnAbandoned) :
    sink = .persisted ∧ m.delivered e turn sink = e := by
  unfold delivered at hk ⊢
  cases sink with
  | persisted => simp
  | raised => simp [hs] at hk
  | cancelled => simp [hc rfl] at hk

theorem Sound.turnRefs_delete (h : m.Sound) {ref : TurnRef} (hd : m.activeDriverTurn = some ref) (r : TurnRef) :
    (m.turnRefs.delete (·.1 = ref)).get? r = none := by
  rw [Table.get?_delete]
  cases hr : m.turnRefs.get? r with
  | none => rfl
  | some row =>
    have hrow := Table.get?_key hr
    have href := (h.refs r row hr).1
    rw [hd] at href
    cases href
    simp [hrow]

section Terminal
variable {e : HarnessEvent} {turn : Nat} {d : Delivery}

/-- `publishTerminal` in one assignment. -/
theorem publishTerminal_view (m : Manager) (ref : TurnRef) (hd : m.activeDriverTurn = some ref) :
    (m.publishTerminal e turn d).view =
      { m with
        persisted := if m.hasSink ∧ d.sink = SinkOutcome.persisted then e :: m.persisted else m.persisted
        fanned := m.delivered e turn d.sink :: m.fanned
        terminal := m.terminal.update (fun w => w.turn = turn ∧ w.outcome.isNone)
          (fun w => { w with outcome := some (.ok (m.delivered e turn d.sink)) }) (fun _ => rfl)
        turnRefs := m.turnRefs.delete (·.1 = ref)
        activeTurn := none
        activeDriverTurn := none
        nativeTurnId := ""
        autonomousTurn := if m.autonomousTurn = some turn then none else m.autonomousTurn
        continuationAdmissions := [] }.view := by
  unfold Manager.publishTerminal completeTurn settle discardPendingAdmissions fanoutEvent persist
  by_cases hp : m.hasSink ∧ d.sink = .persisted <;> by_cases ha : m.autonomousTurn = some turn <;>
    simp [hp, ha, view, hd, delivered]

theorem Sound.publishTerminal (h : m.Sound) (ha : m.activeTurn = some turn) (ht : e.turnRef = some turn)
    (hk : e.kind.isTerminal) (hc : d.sink = .cancelled → e.kind = .turnAbandoned) :
    (m.publishTerminal e turn d).Sound := by
  obtain ⟨ref, hd⟩ := Option.isSome_iff_exists.1 (h.active turn ha).2
  refine Sound.congr ?_ (m.publishTerminal_view ref hd)
  have hend := m.delivered_ends d.sink ht hk
  refine ⟨?_, fun _ => ⟨rfl, rfl⟩, fun _ h => (by cases h), h.accepted_lt, ?_, ?_, ?_, fun _ h => (by cases h),
    ?_, ?_, ?_⟩
  · intro r row hr
    rw [h.turnRefs_delete hd] at hr
    cases hr
  · intro e' he' t het
    rcases List.mem_cons.1 he' with rfl | he'
    · rw [hend.1] at het
      cases het
      exact (h.active turn ha).1
    · exact h.fanned_mem e' he' t het
  · intro t htm
    have hold := h.ended t htm
    simp only [terminals, List.countP_cons, hend.1, hend.2] at hold ⊢
    rw [hold, ha]
    by_cases hq : turn = t
    · simp [hq]
    · simp [hq]
  · intro t hau
    by_cases hq : m.autonomousTurn = some turn
    · simp [hq] at hau
    · simp only [hq, if_false] at hau
      have := h.autonomous t hau
      rw [ha] at this
      cases this
      exact absurd hau hq
  · exact (List.nodup_append.1 h.distinct).2.1
  · exact fun id hid => h.callback_lt id (List.mem_append_right _ hid)
  · intro t w e' hw ho hs hab
    change m.hasSink = true at hs
    have mono : ∀ x ∈ m.persisted,
        x ∈ if m.hasSink ∧ d.sink = SinkOutcome.persisted then e :: m.persisted else m.persisted := by
      intro x hx
      split
      · exact List.mem_cons_of_mem _ hx
      · exact hx
    rw [Table.get?_update] at hw
    obtain ⟨w', hw', rfl⟩ := Option.map_eq_some_iff.1 hw
    split at ho
    · injection ho with ho
      injection ho with ho
      subst ho
      obtain ⟨hp, hde⟩ := delivered_persisted (m := m) hc hs hab
      show m.delivered e turn d.sink ∈ if m.hasSink ∧ d.sink = SinkOutcome.persisted then _ else _
      rw [hde, if_pos ⟨hs, hp⟩]
      exact List.mem_cons_self
    · exact mono e' (h.reported t w' e' hw' ho hs hab)

end Terminal

/-- A reference that was never given out has no terminal. -/
theorem Sound.terminals_fresh (h : m.Sound) {turn : Nat} (ht : m.nextRef ≤ turn) : m.terminals turn = 0 := by
  refine List.countP_eq_zero.2 ?_
  intro e he hc
  have := h.accepted_lt turn (h.fanned_mem e he turn (by simpa using (of_decide_eq_true hc).1))
  omega

theorem Sound.turnRefs_idle (h : m.Sound) (ha : m.activeTurn = none) (ref : TurnRef) :
    m.turnRefs.get? ref = none := by
  cases hr : m.turnRefs.get? ref with
  | none => rfl
  | some row =>
    have := (h.refs ref row hr).2
    rw [ha] at this
    cases this

theorem get?_beginTurn_terminal (m : Manager) {turn : Nat} {w : Waiter} {e : HarnessEvent}
    (hw : m.beginTurn.terminal.get? turn = some w) (ho : w.outcome = some (.ok e)) :
    m.terminal.get? turn = some w := by
  simp only [beginTurn, Table.get?_insertOrIgnore, Table.get?_delete] at hw
  split at hw
  · cases hw
    cases ho
  · exact (Option.filter_eq_some_iff.1 hw).1

/-- A new turn that the driver has taken. -/
theorem Sound.bindTurn (h : m.Sound) (ha : m.activeTurn = none) (ref : TurnRef) (nativeTurnId : String) :
    (m.beginTurn.bindTurn m.nextRef ref nativeTurnId).Sound := by
  have hadm := (h.idle ha).2
  refine ⟨?_, fun hn => (by cases hn), ?_, ?_, ?_, ?_, ?_, ?_, h.distinct, ?_, ?_⟩
  · intro r row hr
    simp only [Manager.bindTurn, Table.get?_assign, beginTurn, h.turnRefs_idle ha] at hr
    split at hr
    · cases hr
      subst r
      exact ⟨rfl, rfl⟩
    · cases hr
  · intro turn ht
    cases ht
    exact ⟨List.mem_cons_self, rfl⟩
  · intro turn ht
    rcases List.mem_cons.1 ht with rfl | ht
    · exact Nat.lt_succ_self _
    · exact Nat.lt_succ_of_lt (h.accepted_lt turn ht)
  · exact fun e he turn ht => List.mem_cons_of_mem _ (h.fanned_mem e he turn ht)
  · intro turn ht
    rcases List.mem_cons.1 ht with rfl | ht
    · exact (h.terminals_fresh le_rfl).trans (if_pos rfl).symm
    · have hlt := h.accepted_lt turn ht
      have hne : ¬ (some m.nextRef = some turn) := by
        intro he
        cases he
        omega
      have hold := h.ended turn ht
      rw [ha] at hold
      exact hold.trans (if_neg hne).symm
  · intro turn hau
    have := h.autonomous turn hau
    rw [ha] at this
    cases this
  · intro a hm
    change a ∈ m.continuationAdmissions at hm
    rw [hadm] at hm
    cases hm
  · exact fun id hid => Nat.lt_succ_of_lt (h.callback_lt id hid)
  · exact fun turn w e hw ho => h.reported turn w e (m.get?_beginTurn_terminal hw ho) ho

/-- The same turn, opened by the driver on its own. -/
theorem Sound.adopted (h : m.Sound) (turn : Nat) (ha : m.activeTurn = some turn) :
    Sound { m with autonomousTurn := some turn } := by
  refine ⟨h.refs, h.idle, h.active, h.accepted_lt, h.fanned_mem, h.ended, ?_, h.staged, h.distinct,
    h.callback_lt, h.reported⟩
  intro t ht
  cases ht
  exact ha

/-- A start that failed leaves no trace. -/
theorem Sound.discardFailedStart (h : m.Sound) (ha : m.activeTurn = none) (retire : Bool) :
    (m.beginTurn.discardFailedStart m.nextRef retire).Sound := by
  have hs : Sound { m with
      nativeTurnId := ""
      terminal := m.beginTurn.terminal.delete (·.turn = m.nextRef)
      nextRef := m.nextRef + 1 } := by
    have hadm := (h.idle ha).2
    refine ⟨h.refs, h.idle, h.active, fun turn ht => Nat.lt_succ_of_lt (h.accepted_lt turn ht),
      h.fanned_mem, h.ended, h.autonomous, ?_, h.distinct,
      fun id hid => Nat.lt_succ_of_lt (h.callback_lt id hid), ?_⟩
    · intro a hm
      change a ∈ m.continuationAdmissions at hm
      rw [hadm] at hm
      cases hm
    · intro turn w e hw ho
      rw [Table.get?_delete, Option.filter_eq_some_iff] at hw
      exact h.reported turn w e (m.get?_beginTurn_terminal hw.1 ho) ho
  refine hs.congr ?_
  unfold Manager.discardFailedStart
  cases retire <;> simp [view, discardPendingAdmissions, beginTurn, retireRuntimeLocked, ha, h.idle ha]

/-- A registration joins the turn that is active. -/
theorem Sound.registerContinuation (h : m.Sound) (platform : Platform) (r : Registration) :
    (m.registerContinuation platform r).Sound := by
  unfold Manager.registerContinuation
  split
  · exact h
  · rename_i turn ha
    split
    · exact h
    · have hfresh : m.nextRef ∉ m.callbackIds := fun hid => lt_irrefl _ (h.callback_lt _ hid)
      refine ⟨h.refs, fun hn => ?_, h.active, fun t ht => Nat.lt_succ_of_lt (h.accepted_lt t ht),
        h.fanned_mem, h.ended, h.autonomous, ?_, ?_, ?_, h.reported⟩
      · change m.activeTurn = none at hn
        rw [ha] at hn
        cases hn
      · intro a hm
        rcases List.mem_append.1 hm with hm | hm
        · exact h.staged a hm
        · rw [List.mem_singleton] at hm
          subst hm
          exact ⟨ha, rfl, r.receipt_ne⟩
      · have := List.nodup_middle.2 (List.nodup_cons.2 ⟨hfresh, h.distinct⟩)
        simpa [callbackIds, ToolResultAdmission.build] using this
      · intro id hid
        have : id = m.nextRef ∨ id ∈ m.callbackIds := by
          simpa [callbackIds, ToolResultAdmission.build, or_left_comm, or_assoc] using hid
        rcases this with rfl | hid
        · exact Nat.lt_succ_self _
        · exact Nat.lt_succ_of_lt (h.callback_lt id hid)

theorem Sound.clearContinuations (h : m.Sound) : m.discardPendingAdmissions.Sound :=
  ⟨h.refs, fun ha => ⟨(h.idle ha).1, rfl⟩, h.active, h.accepted_lt, h.fanned_mem, h.ended, h.autonomous,
    fun _ hm => (by cases hm), (List.nodup_append.1 h.distinct).2.1,
    fun id hid => h.callback_lt id (List.mem_append_right _ hid), h.reported⟩

theorem selected_get {platform : Platform} {e : DriverEvent} {a : ToolResultAdmission} {index : Nat}
    (h : m.selected platform e = some (a, index)) : m.continuationAdmissions[index]? = some a := by
  unfold selected at h
  split at h
  · cases h
  · split at h
    · exact candidates_get (mostSpecific_mem h)
    · cases h

/-- A continuation that fires is no longer staged. -/
theorem Sound.admitMatchingToolResult (h : m.Sound) (platform : Platform) (e : DriverEvent) :
    (m.admitMatchingToolResult platform e).Sound := by
  unfold Manager.admitMatchingToolResult
  split
  · exact h
  · rename_i a index hsel
    obtain ⟨hi, rfl⟩ := List.getElem?_eq_some_iff.1 (selected_get hsel)
    have perm := (List.getElem_cons_eraseIdx_perm hi).map (·.callback.id)
    have ids : (List.map (·.callback.id) (m.continuationAdmissions.eraseIdx index) ++
        m.continuationAdmissions[index].callback.id :: m.fired.map (·.callback.id)).Perm m.callbackIds :=
      List.perm_middle.trans (perm.append_right _)
    refine ⟨h.refs, fun ha => ?_, h.active, h.accepted_lt, h.fanned_mem, h.ended, h.autonomous, ?_,
      ids.nodup_iff.2 h.distinct, fun id hid => h.callback_lt id (ids.subset hid), h.reported⟩
    · have hadm := (h.idle ha).2
      simp [hadm] at hi
    · exact fun b hb => h.staged b ((List.eraseIdx_sublist _ _).subset hb)

section Frames
variable (platform : Platform) (m : Manager)

theorem openFresh_view (a : OpenAttempt) : (m.openFresh a).1.view = m.view := by
  unfold openFresh
  cases a.fresh <;> rfl

theorem openLocked_view (resume : Bool) (a : OpenAttempt) : (m.openLocked resume a).1.view = m.view := by
  have hclear : ∀ c : Bool, (if c then m.clearNativeSession else m).view = m.view := by
    intro c
    cases c <;> rfl
  unfold openLocked
  split
  · rfl
  · generalize hm : (if (a.record.any _) = true then m.clearNativeSession else m) = m'
    have hv : m'.view = m.view := by
      rw [← hm]
      exact hclear _
    rw [← hv]
    dsimp only
    split
    · rfl
    · split
      · rfl
      · split
        · rfl
        · split
          · rfl
          · exact m'.openFresh_view a
          · rfl
          · split
            · rfl
            · exact openFresh_view _ a

theorem observeAutonomousActivity_view (e : HarnessEvent) :
    (m.observeAutonomousActivity platform e).view = m.view := by
  unfold observeAutonomousActivity
  split
  · rfl
  · split <;> rfl

theorem notePermission_view (e : HarnessEvent) : (m.notePermission platform e).view = m.view := by
  unfold notePermission
  dsimp only
  split <;> rfl

end Frames

theorem Sound.retireRuntimeLocked (h : m.Sound) (preserveSession : Bool) :
    (m.retireRuntimeLocked preserveSession).Sound := by
  cases preserveSession with
  | true => exact h.congr rfl
  | false => exact (h.mint (m.nextRef + 1) (Nat.le_succ _)).congr rfl

end Manager
end PuffoAgent.Runtime
