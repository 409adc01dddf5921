import PuffoAgent.Runtime.Invariant

/-! The life of a turn over every run of the runtime manager. -/
namespace PuffoAgent.Runtime
open Relational Text

namespace Manager
variable {m : Manager}

theorem ofReader_ne_cancelled (b : Bool) : SinkOutcome.ofReader b ≠ .cancelled := by
  cases b <;> decide

/-- An event that names a turn names the active one. -/
theorem Sound.logicalTurn (h : m.Sound) {e : DriverEvent} {turn : Nat} (ht : m.logicalTurn e = some turn) :
    m.activeTurn = some turn ∧ e.turnRef = m.activeDriverTurn := by
  unfold Manager.logicalTurn at ht
  cases hr : e.turnRef with
  | none => simp [hr] at ht
  | some ref =>
    simp only [hr, Option.bind_some, Option.map_eq_some_iff] at ht
    obtain ⟨row, hrow, rfl⟩ := ht
    have := h.refs ref row hrow
    exact ⟨this.2, this.1.symm⟩

section Steps
variable {turn : Nat} {d : Delivery}

theorem Sound.abandonLocked (h : m.Sound) (ha : m.activeTurn = some turn) (errorCode : String)
    (retryable : Bool) : (m.abandonLocked turn errorCode retryable d).Sound :=
  h.publishTerminal ha rfl rfl fun _ => rfl

theorem Sound.handleRuntimeExit (h : m.Sound) (platform : Platform) {e : HarnessEvent} (r : Reading)
    (hk : e.kind = .runtimeExited) (he : ∀ turn, e.turnRef = some turn → turn ∈ m.accepted) :
    (m.handleRuntimeExit platform e r).Sound := by
  have hp := h.publishEvent (.ofReader r.observes) fun turn ht => ⟨by rw [hk]; rfl, he turn ht⟩
  unfold Manager.handleRuntimeExit
  generalize m.publishEvent e (.ofReader r.observes) = m₁ at hp
  have hc : (if m₁.resumeUnconfirmed then { m₁ with resumeUnconfirmed := false }.clearNativeSession
      else { m₁ with resumeUnconfirmed := false }).Sound := by
    split
    · exact hp.congr rfl
    · exact hp.congr rfl
  dsimp only
  generalize (if m₁.resumeUnconfirmed then { m₁ with resumeUnconfirmed := false }.clearNativeSession
    else { m₁ with resumeUnconfirmed := false }) = m₂ at hc
  split
  · exact hc.congr rfl
  · rename_i turn ha
    exact (hc.publishTerminal ha rfl rfl fun hd => absurd hd (ofReader_ne_cancelled _)).congr rfl

theorem Sound.retireInvalidResume (h : m.Sound) {e : HarnessEvent} (r : Reading)
    (ha : m.activeTurn = some turn) (ht : e.turnRef = some turn) (hk : e.kind.isTerminal) :
    (m.retireInvalidResume e turn r).Sound := by
  have hs : Sound { m with resumeUnconfirmed := false }.clearNativeSession := h.congr rfl
  have hp := hs.publishTerminal (e := { e with data := withMember "retryable" (.bool true) e.data })
    (d := r.delivery) ha ht hk fun hd => absurd hd (ofReader_ne_cancelled _)
  exact hp.congr rfl

theorem Sound.finishTurn (h : m.Sound) (platform : Platform) {e : HarnessEvent} (r : Reading)
    (ha : m.activeTurn = some turn) (ht : e.turnRef = some turn) (hk : e.kind.isTerminal) :
    (m.finishTurn platform e turn r).Sound := by
  have hc : r.delivery.sink = .cancelled → e.kind = .turnAbandoned :=
    fun hd => absurd hd (ofReader_ne_cancelled _)
  unfold Manager.finishTurn
  split
  · dsimp only
    split
    · exact Sound.publishTerminal (m := m.confirmSession) (h.congr rfl) ha ht hk hc
    · split
      · exact h.retireInvalidResume r ha ht hk
      · exact h.publishTerminal ha ht hk hc
  · exact h.publishTerminal ha ht hk hc

theorem Sound.dispatchEvent (h : m.Sound) (platform : Platform) {e : HarnessEvent} (r : Reading)
    (he : ∀ turn, e.turnRef = some turn → m.activeTurn = some turn) :
    (m.dispatchEvent platform e r).Sound := by
  have haccepted : ∀ turn, e.turnRef = some turn → turn ∈ m.accepted :=
    fun turn ht => (h.active turn (he turn ht)).1
  unfold Manager.dispatchEvent
  split
  · rename_i hk
    exact h.handleRuntimeExit platform r hk haccepted
  · split
    · rename_i turn ht
      split
      · rename_i hk
        exact h.finishTurn platform r (he turn ht) ht hk
      · rename_i hk
        exact h.publishEvent _ fun t hr => ⟨by simpa using hk, haccepted t hr⟩
    · rename_i hn
      exact h.publishEvent _ fun t hr => by simp [hn] at hr

theorem activeTurn_of_view {m m' : Manager} (h : m'.view = m.view) : m'.activeTurn = m.activeTurn := by
  have hv := congrArg Manager.activeTurn h
  exact hv

/-- The manager once the event was observed and its continuation admitted. -/
theorem Sound.prepared (h : m.Sound) (platform : Platform) (native : DriverEvent) (e : HarnessEvent) :
    ((m.observeAutonomousActivity platform e).admitMatchingToolResult platform native).Sound :=
  (h.congr (m.observeAutonomousActivity_view platform e)).admitMatchingToolResult platform native

theorem prepared_activeTurn (m : Manager) (platform : Platform) (native : DriverEvent) (e : HarnessEvent) :
    ((m.observeAutonomousActivity platform e).admitMatchingToolResult platform native).activeTurn =
      m.activeTurn := by
  have hsame : ∀ m : Manager, (m.admitMatchingToolResult platform native).activeTurn = m.activeTurn := by
    intro m
    unfold admitMatchingToolResult
    split <;> rfl
  rw [hsame]
  exact activeTurn_of_view (m.observeAutonomousActivity_view platform e)

theorem notePermission_activeTurn (m : Manager) (platform : Platform) (e : HarnessEvent) :
    (m.notePermission platform e).activeTurn = m.activeTurn :=
  activeTurn_of_view (m.notePermission_view platform e)

theorem Sound.routeEvent (h : m.Sound) (platform : Platform) (native : DriverEvent) (r : Reading) :
    (m.routeEvent platform native r).Sound := by
  unfold Manager.routeEvent
  have hs := h.prepared platform native (m.project native (m.logicalTurn native))
  dsimp only
  split
  · exact hs
  · refine (hs.congr (notePermission_view platform _ _)).dispatchEvent platform r ?_
    intro turn ht
    rw [notePermission_activeTurn, prepared_activeTurn]
    exact (h.logicalTurn ht).1

theorem Sound.adoptDriverTurn (h : m.Sound) {e : DriverEvent} {recovering : Bool} {m' : Manager}
    (ha : m.adoptDriverTurn e recovering = some m') : m'.Sound := by
  unfold Manager.adoptDriverTurn at ha
  split at ha
  · cases ha
  · rename_i ref _
    split at ha
    · cases ha
    · rename_i hc
      have hidle : m.activeTurn = none := by
        cases hm : m.activeTurn with
        | none => rfl
        | some t => simp [hm] at hc
      cases ha
      have hb := h.bindTurn hidle ref e.nativeTurnId
      exact (hb.adopted m.nextRef rfl).congr rfl

theorem Sound.readEvent (h : m.Sound) (platform : Platform) (native : DriverEvent) (r : Reading) :
    (m.readEvent platform native r).Sound := by
  have hl : (m.learnDriver native).Sound := h.congr rfl
  unfold Manager.readEvent
  split
  · unfold consumeSession
    dsimp only
    refine Sound.publishEvent ?_ _ fun _ ht => by cases ht
    split
    · exact hl.congr rfl
    · exact hl
  · unfold consumeEvent
    dsimp only
    split
    · split
      · exact hl
      · rename_i ha
        exact (hl.adoptDriverTurn ha).routeEvent platform native r
    · exact hl.routeEvent platform native r

theorem Sound.launchTurn (h : m.Sound) (ha : m.activeTurn = none) (outcome : StartOutcome) :
    (m.launchTurn outcome).Sound := by
  cases outcome with
  | raised => exact h.discardFailedStart ha true
  | unsupported => exact h.discardFailedStart ha false
  | rejected => exact h.discardFailedStart ha true
  | accepted ref nativeTurnId => exact (h.bindTurn ha ref nativeTurnId).congr rfl

theorem Sound.startTurn (h : m.Sound) (record : Option Recovery) (a : OpenAttempt) (beforeStart : Bool)
    (outcome : StartOutcome) : (m.startTurn record a beforeStart outcome).Sound := by
  unfold Manager.startTurn
  split
  · exact h
  · have hopen : (if m.opened then (m, true) else m.openLocked true a).1.Sound := by
      split
      · exact h
      · exact h.congr (m.openLocked_view true a)
    generalize (if m.opened then (m, true) else m.openLocked true a) = o at hopen
    dsimp only
    split
    · exact hopen
    · rename_i hc
      refine hopen.launchTurn ?_ outcome
      cases hm : o.1.activeTurn with
      | none => rfl
      | some t => simp [hm] at hc

theorem Sound.close (h : m.Sound) (d : Delivery) : (m.close d).Sound := by
  have hempty : ∀ m : Manager, m.Sound → Sound { m with terminal := .empty } :=
    fun m hm => hm.forget .empty fun _ _ hw => by cases hw
  unfold Manager.close
  split
  · exact h
  · dsimp only
    have hc : Sound { m with closed := true, opened := false } := h.congr rfl
    split
    · rename_i turn hau
      exact hempty _ (hc.abandonLocked (h.autonomous turn hau) _ _)
    · exact hempty _ hc

theorem Sound.superviseAutonomous (h : m.Sound) (recovering stopped : Bool) (d : Delivery) :
    (m.superviseAutonomous recovering stopped d).Sound := by
  unfold Manager.superviseAutonomous
  split
  · exact h
  · split
    · exact h
    · have hc : Sound { m with opened := false } := h.congr rfl
      dsimp only
      split
      · rename_i ha
        exact hc.abandonLocked ha _ _
      · exact hc

theorem Sound.step (h : m.Sound) (platform : Platform) (s : Step) : (step platform m s).Sound := by
  cases s with
  | «open» resume a => exact h.congr (m.openLocked_view resume a)
  | startTurn record a beforeStart outcome => exact h.startTurn record a beforeStart outcome
  | steerTurn turn outcome =>
    simp only [Runtime.step, Manager.steerTurn]
    split
    · exact h
    · rename_i hs
      cases outcome with
      | ambiguous d =>
        simp only [steerable, decide_eq_true_eq, not_not] at hs
        exact (h.abandonLocked hs.1 _ _).retireRuntimeLocked false
      | raised => exact h
      | unsupported => exact h
      | accepted => exact h
      | rejected => exact h
  | cancelTurn turn => exact h
  | resolvePermission turn permission accepted =>
    simp only [Runtime.step, Manager.resolvePermission]
    split
    · exact h.congr rfl
    · exact h
  | abandonTurn turn reason retryable d =>
    simp only [Runtime.step, Manager.abandonTurn]
    split
    · rename_i ha
      exact h.abandonLocked ha reason retryable
    · exact h
  | timeoutTurn turn d =>
    simp only [Runtime.step, Manager.timeoutTurn]
    split
    · exact h
    · rename_i hs
      simp only [steerable, decide_eq_true_eq, not_not] at hs
      exact (h.abandonLocked hs.1 _ _).retireRuntimeLocked false
  | retireRuntime preserveSession =>
    simp only [Runtime.step, Manager.retireRuntime]
    split
    · exact h
    · exact h.retireRuntimeLocked preserveSession
  | reloadResources preserveSession cleaned a =>
    simp only [Runtime.step, Manager.reloadResources]
    split
    · exact h
    · split
      · exact (h.retireRuntimeLocked preserveSession).congr (openLocked_view _ preserveSession a)
      · exact h.retireRuntimeLocked preserveSession
  | rolloverNativeSession cleaned a =>
    simp only [Runtime.step, Manager.rolloverNativeSession]
    split
    · exact h
    · have hc : Sound { m with opened := false }.clearNativeSession := h.congr rfl
      split
      · exact hc.congr (openLocked_view _ false a)
      · exact hc
  | close d => exact h.close d
  | waitTerminal turn =>
    exact h.forget _ fun t w hw => by
      rw [Table.get?_delete, Option.filter_eq_some_iff] at hw
      exact hw.1
  | registerContinuation r => exact h.registerContinuation platform r
  | clearContinuations => exact h.clearContinuations
  | readEvent e r => exact h.readEvent platform e r
  | failRuntime reason d =>
    simp only [Runtime.step, Manager.failRuntime]
    split
    · rename_i turn ha
      exact (h.abandonLocked ha reason true).congr rfl
    · exact h.congr rfl
  | superviseAutonomous recovering stopped d => exact h.superviseAutonomous recovering stopped d

end Steps

/-- No turn is active, and nothing of the last one is left. -/
def Released (m : Manager) : Prop :=
  m.activeTurn = none ∧ m.permissionRefs = [] ∧ m.continuationAdmissions = []

/-- The turn goes on, or it was released. -/
def Continues (m : Manager) (turn : Nat) : Prop := m.activeTurn = some turn ∨ m.Released

section Releases
variable {turn : Nat}

theorem publishTerminal_released (m : Manager) (e : HarnessEvent) (turn : Nat) (d : Delivery) :
    (m.publishTerminal e turn d).Released := by
  unfold Manager.publishTerminal
  dsimp only
  generalize (if m.hasSink ∧ d.sink = SinkOutcome.persisted then m.persist e else m) = m'
  split <;> exact ⟨rfl, rfl, rfl⟩

theorem publishEvent_activeTurn (m : Manager) (e : HarnessEvent) (sink : SinkOutcome) :
    (m.publishEvent e sink).activeTurn = m.activeTurn := by
  unfold Manager.publishEvent
  split
  · rfl
  · cases sink <;> rfl

theorem Released.retireRuntimeLocked (h : m.Released) (preserveSession : Bool) :
    (m.retireRuntimeLocked preserveSession).Released := by
  cases preserveSession <;> exact h

theorem handleRuntimeExit_continues (platform : Platform) (e : HarnessEvent) (r : Reading)
    (ha : m.activeTurn = some turn) : (m.handleRuntimeExit platform e r).Continues turn := by
  unfold Manager.handleRuntimeExit
  dsimp only
  generalize hm : (if (m.publishEvent e (.ofReader r.observes)).resumeUnconfirmed then _ else _ : Manager) = m'
  have ha' : m'.activeTurn = some turn := by
    rw [← ha, ← m.publishEvent_activeTurn e (.ofReader r.observes), ← hm]
    split <;> rfl
  simp only [ha']
  exact .inr (m'.publishTerminal_released _ turn r.delivery)

theorem finishTurn_released (m : Manager) (platform : Platform) (e : HarnessEvent) (turn : Nat) (r : Reading) :
    (m.finishTurn platform e turn r).Released := by
  unfold Manager.finishTurn
  split
  · dsimp only
    split
    · exact publishTerminal_released _ e turn _
    · split
      · exact publishTerminal_released _ _ turn _
      · exact publishTerminal_released _ e turn _
  · exact publishTerminal_released _ e turn _

theorem dispatchEvent_continues (platform : Platform) (e : HarnessEvent) (r : Reading)
    (ha : m.activeTurn = some turn) : (m.dispatchEvent platform e r).Continues turn := by
  have hp : ∀ sink, (m.publishEvent e sink).Continues turn :=
    fun sink => .inl ((m.publishEvent_activeTurn e sink).trans ha)
  unfold Manager.dispatchEvent
  split
  · exact handleRuntimeExit_continues platform e r ha
  · split
    · split
      · exact .inr (finishTurn_released _ platform e _ r)
      · exact hp _
    · exact hp _

theorem routeEvent_continues (platform : Platform) (native : DriverEvent) (r : Reading)
    (ha : m.activeTurn = some turn) : (m.routeEvent platform native r).Continues turn := by
  unfold Manager.routeEvent
  dsimp only
  split
  · exact .inl ((m.prepared_activeTurn platform native _).trans ha)
  · refine dispatchEvent_continues platform _ r ?_
    rw [notePermission_activeTurn, prepared_activeTurn, ha]

/-- While a turn is active the driver opens none. -/
theorem consumeEvent_active (platform : Platform) (native : DriverEvent) (r : Reading)
    (ha : m.activeTurn = some turn) :
    m.consumeEvent platform native r = m.learnDriver native ∨
      m.consumeEvent platform native r = (m.learnDriver native).routeEvent platform native r := by
  have hl : (m.learnDriver native).activeTurn = some turn := ha
  unfold Manager.consumeEvent
  dsimp only
  split
  · left
    cases hr : native.turnRef with
    | none => simp [adoptDriverTurn, hr]
    | some ref => simp [adoptDriverTurn, hr, hl]
  · exact .inr rfl

theorem consumeSession_activeTurn (m : Manager) (native : DriverEvent) (r : Reading) :
    (m.consumeSession native r).activeTurn = m.activeTurn := by
  unfold Manager.consumeSession
  dsimp only
  rw [publishEvent_activeTurn]
  split <;> rfl

theorem readEvent_continues (platform : Platform) (native : DriverEvent) (r : Reading)
    (ha : m.activeTurn = some turn) : (m.readEvent platform native r).Continues turn := by
  unfold Manager.readEvent
  split
  · exact .inl ((m.consumeSession_activeTurn native r).trans ha)
  · rcases consumeEvent_active platform native r ha with he | he
    · rw [he]
      exact .inl ha
    · rw [he]
      exact routeEvent_continues platform native r ha

theorem startTurn_activeTurn (record : Option Recovery) (a : OpenAttempt) (beforeStart : Bool)
    (outcome : StartOutcome) (ha : m.activeTurn = some turn) :
    (m.startTurn record a beforeStart outcome).activeTurn = some turn := by
  unfold Manager.startTurn
  split
  · exact ha
  · have hopen : (if m.opened then (m, true) else m.openLocked true a).1.activeTurn = some turn := by
      split
      · exact ha
      · exact (activeTurn_of_view (m.openLocked_view true a)).trans ha
    generalize (if m.opened then (m, true) else m.openLocked true a) = o at hopen
    dsimp only
    rw [if_pos (by simp [hopen])]
    exact hopen

/-- A step either leaves the active turn alone or releases all that was held for it. -/
theorem step_continues (platform : Platform) (ha : m.activeTurn = some turn) (s : Step) :
    (Runtime.step platform m s).Continues turn := by
  have hkeep : m.Continues turn := .inl ha
  have hterm : ∀ e t d, (m.publishTerminal e t d).Continues turn :=
    fun e t d => .inr (m.publishTerminal_released e t d)
  have hretire : ∀ e t d, ((m.publishTerminal e t d).retireRuntimeLocked false).Continues turn :=
    fun e t d => .inr ((m.publishTerminal_released e t d).retireRuntimeLocked false)
  have hsome : m.activeTurn.isSome := by rw [ha]; rfl
  cases s with
  | «open» resume a => exact .inl ((activeTurn_of_view (m.openLocked_view resume a)).trans ha)
  | startTurn record a beforeStart outcome => exact .inl (startTurn_activeTurn record a beforeStart outcome ha)
  | steerTurn t outcome =>
    simp only [Runtime.step, Manager.steerTurn]
    split
    · exact hkeep
    · cases outcome with
      | ambiguous d => exact hretire _ t d
      | raised => exact hkeep
      | unsupported => exact hkeep
      | accepted => exact hkeep
      | rejected => exact hkeep
  | cancelTurn t => exact hkeep
  | resolvePermission t permission accepted =>
    simp only [Runtime.step, Manager.resolvePermission]
    split
    · exact .inl ha
    · exact hkeep
  | abandonTurn t reason retryable d =>
    simp only [Runtime.step, Manager.abandonTurn]
    split
    · exact hterm _ t d
    · exact hkeep
  | timeoutTurn t d =>
    simp only [Runtime.step, Manager.timeoutTurn]
    split
    · exact hkeep
    · exact hretire _ t d
  | retireRuntime preserveSession => simpa [Runtime.step, Manager.retireRuntime, hsome] using hkeep
  | reloadResources preserveSession cleaned a =>
    simpa [Runtime.step, Manager.reloadResources, hsome] using hkeep
  | rolloverNativeSession cleaned a =>
    simpa [Runtime.step, Manager.rolloverNativeSession, hsome] using hkeep
  | close d =>
    simp only [Runtime.step, Manager.close]
    split
    · exact hkeep
    · split
      · rename_i t _
        exact .inr (publishTerminal_released _ _ t d)
      · exact .inl ha
  | waitTerminal t => exact .inl ha
  | registerContinuation r =>
    simp only [Runtime.step, Manager.registerContinuation]
    split
    · exact hkeep
    · split
      · exact hkeep
      · exact .inl ha
  | clearContinuations => exact .inl ha
  | readEvent e r => exact readEvent_continues platform e r ha
  | failRuntime reason d =>
    simp only [Runtime.step, Manager.failRuntime, ha]
    exact .inr (m.publishTerminal_released _ turn d)
  | superviseAutonomous recovering stopped d =>
    simp only [Runtime.step, Manager.superviseAutonomous]
    split
    · exact hkeep
    · split
      · exact hkeep
      · split
        · exact .inr (publishTerminal_released _ _ _ d)
        · exact .inl ha

/-- An event of another driver turn leaves the active turn alone, unless the runtime exits. -/
theorem Sound.foreign_event (h : m.Sound) (platform : Platform) {native : DriverEvent} (r : Reading)
    (ha : m.activeTurn = some turn) (hf : native.turnRef ≠ m.activeDriverTurn)
    (hk : native.kind ≠ .runtimeExited) : (m.readEvent platform native r).activeTurn = some turn := by
  have hl : (m.learnDriver native).Sound := h.congr rfl
  have hn : (m.learnDriver native).logicalTurn native = none := by
    cases ht : (m.learnDriver native).logicalTurn native with
    | none => rfl
    | some t => exact absurd (hl.logicalTurn ht).2 hf
  unfold Manager.readEvent
  split
  · exact (m.consumeSession_activeTurn native r).trans ha
  · rcases consumeEvent_active platform native r ha with he | he
    · rw [he]
      exact ha
    · rw [he, Manager.routeEvent, hn]
      split
      · exact (prepared_activeTurn _ platform native _).trans ha
      · simp only [Manager.dispatchEvent, project, hk, if_false]
        rw [publishEvent_activeTurn, notePermission_activeTurn, prepared_activeTurn]
        exact ha

end Releases

theorem Sound.terminals_le_one (h : m.Sound) (turn : Nat) : m.terminals turn ≤ 1 := by
  by_cases ht : turn ∈ m.accepted
  · rw [h.ended turn ht]
    split <;> omega
  · have : m.terminals turn = 0 := by
      refine List.countP_eq_zero.2 ?_
      intro e he hc
      exact ht (h.fanned_mem e he turn (by simpa using (of_decide_eq_true hc).1))
    omega

/-- A turn without a terminal is the active one. -/
theorem Sound.active_of_terminals (h : m.Sound) {turn : Nat} (ht : turn ∈ m.accepted)
    (hz : m.terminals turn = 0) : m.activeTurn = some turn := by
  rw [h.ended turn ht] at hz
  by_contra hn
  simp [hn] at hz

/-- A terminal that goes out releases what its turn held. -/
theorem Sound.terminal_releases (h : m.Sound) (platform : Platform) (s : Step) {turn : Nat}
    (ht : turn ∈ m.accepted) (hlt : m.terminals turn < (Runtime.step platform m s).terminals turn) :
    (Runtime.step platform m s).Released := by
  have hs := h.step platform s
  have hone := hs.terminals_le_one turn
  have ha := h.active_of_terminals ht (by omega)
  rcases step_continues platform ha s with hc | hr
  · have hend := hs.ended turn (hs.active turn hc).1
    rw [if_pos hc] at hend
    omega
  · exact hr

end Manager

section Runs
variable (platform : Platform) (hasSink : Bool) (driverName nativeSessionId : String)

theorem sound_run (steps : List Step) :
    (Machine.run (step platform) (.initial hasSink driverName nativeSessionId) steps).Sound :=
  Machine.run_invariant (.initial hasSink driverName nativeSessionId) (fun _ s h => h.step platform s) steps

/-- The life of a turn, in every run: at most one turn is without a terminal; a turn has at most
one, and has it once it is not active; an event of another driver turn leaves the active one
alone unless the runtime exits; the terminal releases the permissions and the continuations of
its turn; and a waiter is told nothing but an abandonment that the sink did not persist. -/
theorem turn_lifecycle (steps : List Step) :
    let m := Machine.run (step platform) (.initial hasSink driverName nativeSessionId) steps
    (∀ turn ∈ m.accepted, ∀ turn' ∈ m.accepted, m.terminals turn = 0 → m.terminals turn' = 0 → turn = turn') ∧
      (∀ turn, m.terminals turn ≤ 1) ∧
      (∀ turn ∈ m.accepted, m.activeTurn ≠ some turn → m.terminals turn = 1) ∧
      (∀ turn native r, m.activeTurn = some turn → native.turnRef ≠ m.activeDriverTurn →
        native.kind ≠ .runtimeExited → (step platform m (.readEvent native r)).activeTurn = some turn) ∧
      (∀ s, ∀ turn ∈ m.accepted, m.terminals turn < (step platform m s).terminals turn →
        (step platform m s).permissionRefs = [] ∧ (step platform m s).continuationAdmissions = []) ∧
      (∀ a ∈ m.continuationAdmissions, m.terminals a.callback.turn = 0) ∧
      ∀ turn w e, m.terminal.get? turn = some w → w.outcome = some (.ok e) → m.hasSink →
        e.kind ≠ .turnAbandoned → e ∈ m.persisted := by
  intro m
  have h : m.Sound := sound_run platform hasSink driverName nativeSessionId steps
  refine ⟨?_, h.terminals_le_one, ?_, ?_, ?_, ?_, h.reported⟩
  · intro turn ht turn' ht' hz hz'
    have ha := h.active_of_terminals ht hz
    rw [h.active_of_terminals ht' hz'] at ha
    exact (Option.some.inj ha).symm
  · intro turn ht ha
    rw [h.ended turn ht, if_neg ha]
  · intro turn native r ha hf hk
    exact h.foreign_event platform r ha hf hk
  · intro s turn ht hlt
    exact (h.terminal_releases platform s ht hlt).2
  · intro a hm
    have ha := (h.staged a hm).1
    rw [h.ended _ (h.active _ ha).1, if_pos ha]

end Runs

/-- A platform for closed runs. -/
def asciiPlatform : Platform where
  host := asciiHost
  repr value := value.dumps
  toInt
    | .int n => some n
    | _ => none
  sha256 bytes := toString (bytes.map UInt8.toNat)

/-- A turn has been accepted as `t1`, and the process of the runtime exits under a reference
that is not its own. -/
def exitEvent : DriverEvent := ⟨.runtimeExited, "codex", some "t0", "", "", .obj [], none⟩

def startedTurn : List Step :=
  [.startTurn none ⟨none, .ok ⟨"native", false⟩, none⟩ true (.accepted "t1" "n1")]

theorem exit_ends_turn :
    ¬ ∀ (platform : Platform) (steps : List Step) (turn : Nat) (native : DriverEvent) (r : Reading),
      let m := Machine.run (step platform) (.initial true "codex" "") steps
      m.activeTurn = some turn → native.turnRef ≠ m.activeDriverTurn →
        (step platform m (.readEvent native r)).activeTurn = some turn := by
  intro h
  have hc := h asciiPlatform startedTurn 1 exitEvent ⟨false, false, true, true, true, false⟩ rfl (by decide)
  exact absurd hc (by decide)

end PuffoAgent.Runtime
