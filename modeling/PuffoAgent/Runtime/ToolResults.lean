import PuffoAgent.Runtime.Lifecycle

/-! Which tool results admit a continuation, over every run of the runtime manager. -/
namespace PuffoAgent.Runtime
open Relational Text

namespace ToolFact
variable (platform : Platform) (f : ToolFact) (a : ToolResultAdmission)

/-- The call that the result answers fits the admission. -/
def fits : Bool := f.arguments.any fun arguments => a.matchesCall platform (f.toolName platform) arguments

/-- The result names the admission, by its binding or by its marker. -/
def names : Bool := if f.committed then f.binds platform a else f.shows platform a

end ToolFact

/-- Why a result admits a continuation. -/
inductive Evidence (platform : Platform) (admissions : List ToolResultAdmission) (f : ToolFact)
    (a : ToolResultAdmission) : Prop
  | binding (hid : f.toolCallId platform ≠ "")
      (hb : asText (f.fact.member "admission_binding") = some (platform.sha256
        (Ingress.utf8 (f.toolCallId platform) ++ 0 :: Ingress.utf8 a.correlationReceipt)))
  | marker (hf : f.fits platform a) (hs : f.shows platform a)
  | onlyMatch (hf : f.fits platform a) (ho : f.omitted) (hn : ∀ b ∈ admissions, f.fits platform b → b = a)

section Selection
variable {platform : Platform} {admissions : List ToolResultAdmission} {nativeTurnId : String} {f : ToolFact}
  {c : ToolResultAdmission × Nat}

/-- A committed binding is no empty text, so it was made from a receipt. -/
theorem evidence_of_binds {a : ToolResultAdmission} (hc : f.committed) (hb : f.binds platform a) :
    Evidence platform admissions f a := by
  simp only [ToolFact.binds, Bool.decide_and, Bool.and_eq_true, decide_eq_true_eq] at hb
  obtain ⟨-, -, hb⟩ := hb
  have hx := f.binding hc _ hb
  unfold ToolResultAdmission.bindingForToolCall at hb hx
  split at hb
  · rename_i he
    rw [if_pos he] at hx
    exact absurd hx (by decide)
  · rename_i he
    exact .binding (fun h => he (.inl h)) hb

theorem mem_matchingCandidates {arguments : List (String × Json)} (hm : f.arguments = some arguments) :
    c ∈ matchingCandidates platform admissions nativeTurnId f arguments ↔ admissions[c.2]? = some c.1 ∧
      c.1.providerTurnId = nativeTurnId ∧ f.fits platform c.1 ∧ c.1.receiptMarker ≠ "" := by
  simp only [matchingCandidates, List.mem_filter, List.mem_zipIdx_iff_getElem?, ToolFact.fits, hm]
  simp

/-- Every admission waits in the current turn, with a receipt of its own. -/
def Waiting (nativeTurnId : String) (admissions : List ToolResultAdmission) : Prop :=
  ∀ a ∈ admissions, a.providerTurnId = nativeTurnId ∧ a.correlationReceipt ≠ ""

theorem receiptMarker_ne {a : ToolResultAdmission} (h : a.correlationReceipt ≠ "") : a.receiptMarker ≠ "" := by
  intro he
  have hl := congrArg String.toList he
  simp [ToolResultAdmission.receiptMarker, h] at hl

/-- Where all admissions wait, every one that fits is a candidate. -/
theorem mem_candidates_of_fits {arguments : List (String × Json)} (hm : f.arguments = some arguments)
    (hw : Waiting nativeTurnId admissions) {a : ToolResultAdmission} (ha : a ∈ admissions)
    (hf : f.fits platform a) :
    ∃ i, (a, i) ∈ matchingCandidates platform admissions nativeTurnId f arguments := by
  obtain ⟨i, hi⟩ := List.mem_iff_getElem?.1 ha
  exact ⟨i, (mem_matchingCandidates hm).2 ⟨hi, (hw a ha).1, hf, receiptMarker_ne (hw a ha).2⟩⟩

theorem eq_of_single {α : Type} {l : List α} (h : l.length = 1) {x y : α} (hx : x ∈ l) (hy : y ∈ l) : x = y := by
  obtain ⟨z, rfl⟩ := List.length_eq_one_iff.1 h
  rw [List.mem_singleton] at hx hy
  exact hx.trans hy.symm

theorem evidence_of_candidate (hw : Waiting nativeTurnId admissions)
    (h : c ∈ candidates platform admissions nativeTurnId f) : Evidence platform admissions f c.1 := by
  unfold candidates at h
  split at h
  · rename_i hc
    have hb : c.1.providerTurnId = nativeTurnId ∧ f.binds platform c.1 := by
      simpa using (List.mem_filter.1 h).2
    exact evidence_of_binds hc hb.2
  · split at h
    · cases h
    · rename_i arguments hm
      have hfits := ((mem_matchingCandidates hm).1 (mem_reportedCandidates h)).2.2.1
      simp only [reportedCandidates] at h
      split at h
      · rename_i ho
        refine .onlyMatch hfits ho.2.1 ?_
        intro b hb hf
        obtain ⟨i, hi⟩ := mem_candidates_of_fits hm hw hb hf
        exact congrArg Prod.fst (eq_of_single ho.2.2 hi h)
      · exact .marker hfits (List.mem_filter.1 h).2

/-- A result that fits several admissions and names none leaves no candidate. -/
theorem candidates_of_ambiguous (hw : Waiting nativeTurnId admissions) {a b : ToolResultAdmission}
    (ha : a ∈ admissions) (hb : b ∈ admissions) (hab : a ≠ b) (hfa : f.fits platform a)
    (hfb : f.fits platform b) (hn : ∀ c ∈ admissions, f.names platform c = false) :
    candidates platform admissions nativeTurnId f = [] := by
  unfold candidates
  split
  · rename_i hc
    refine List.filter_eq_nil_iff.2 ?_
    intro c hcm hp
    have hu := hn c.1 (List.mem_of_getElem? (List.mem_zipIdx_iff_getElem?.1 hcm))
    simp only [ToolFact.names, hc, if_true] at hu
    simp [hu] at hp
  · rename_i hc
    split
    · rfl
    · rename_i arguments hm
      obtain ⟨i, hi⟩ := mem_candidates_of_fits hm hw ha hfa
      obtain ⟨j, hj⟩ := mem_candidates_of_fits hm hw hb hfb
      have hone : ¬ (matchingCandidates platform admissions nativeTurnId f arguments).length = 1 :=
        fun h => hab (congrArg Prod.fst (eq_of_single h hi hj))
      simp only [reportedCandidates, hone, and_false, if_false]
      refine List.filter_eq_nil_iff.2 ?_
      intro c hcm hs
      have hu := hn c.1 (List.mem_of_getElem? ((mem_matchingCandidates hm).1 hcm).1)
      simp only [ToolFact.names, hc] at hu
      simp [hs] at hu

end Selection

namespace Manager
variable {m : Manager} {platform : Platform}

theorem Sound.waiting (h : m.Sound) : Waiting m.nativeTurnId m.continuationAdmissions :=
  fun a ha => (h.staged a ha).2

section Fired
variable (m platform)

theorem fired_of_view {m m' : Manager} (h : m'.view = m.view) : m'.fired = m.fired := by
  have hv := congrArg Manager.fired h
  exact hv

theorem publishEvent_fired (e : HarnessEvent) (sink : SinkOutcome) : (m.publishEvent e sink).fired = m.fired := by
  unfold Manager.publishEvent
  split
  · rfl
  · cases sink <;> rfl

theorem publishTerminal_fired (e : HarnessEvent) (turn : Nat) (d : Delivery) :
    (m.publishTerminal e turn d).fired = m.fired := by
  unfold Manager.publishTerminal
  have hp : (if m.hasSink ∧ d.sink = SinkOutcome.persisted then m.persist e else m).fired = m.fired := by
    split <;> rfl
  dsimp only
  generalize (if m.hasSink ∧ d.sink = SinkOutcome.persisted then m.persist e else m) = m' at hp
  split <;> exact hp

theorem retireRuntimeLocked_fired (preserveSession : Bool) :
    (m.retireRuntimeLocked preserveSession).fired = m.fired := by
  cases preserveSession <;> rfl

theorem handleRuntimeExit_fired (e : HarnessEvent) (r : Reading) :
    (m.handleRuntimeExit platform e r).fired = m.fired := by
  unfold Manager.handleRuntimeExit
  dsimp only
  generalize hm : (if (m.publishEvent e (.ofReader r.observes)).resumeUnconfirmed then _ else _ : Manager) = m'
  have hf : m'.fired = m.fired := by
    rw [← m.publishEvent_fired e (.ofReader r.observes), ← hm]
    split <;> rfl
  split
  · exact hf
  · exact (m'.publishTerminal_fired _ _ _).trans hf

theorem finishTurn_fired (e : HarnessEvent) (turn : Nat) (r : Reading) :
    (m.finishTurn platform e turn r).fired = m.fired := by
  unfold Manager.finishTurn
  split
  · dsimp only
    split
    · exact publishTerminal_fired m.confirmSession e turn _
    · split
      · exact publishTerminal_fired _ _ turn r.delivery
      · exact m.publishTerminal_fired e turn _
  · exact m.publishTerminal_fired e turn _

theorem dispatchEvent_fired (e : HarnessEvent) (r : Reading) :
    (m.dispatchEvent platform e r).fired = m.fired := by
  unfold Manager.dispatchEvent
  split
  · exact m.handleRuntimeExit_fired platform e r
  · split
    · split
      · exact m.finishTurn_fired platform e _ r
      · exact m.publishEvent_fired e _
    · exact m.publishEvent_fired e _

theorem startTurn_fired (record : Option Recovery) (a : OpenAttempt) (beforeStart : Bool)
    (outcome : StartOutcome) : (m.startTurn record a beforeStart outcome).fired = m.fired := by
  unfold Manager.startTurn
  split
  · rfl
  · have hopen : (if m.opened then (m, true) else m.openLocked true a).1.fired = m.fired := by
      split
      · rfl
      · exact fired_of_view (m.openLocked_view true a)
    generalize (if m.opened then (m, true) else m.openLocked true a) = o at hopen
    dsimp only
    split
    · exact hopen
    · rw [← hopen]
      cases outcome <;> rfl

theorem steerTurn_fired (turn : Nat) (outcome : SteerOutcome) : (m.steerTurn turn outcome).fired = m.fired := by
  unfold steerTurn
  split
  · rfl
  · cases outcome with
    | ambiguous d =>
      rw [retireRuntimeLocked_fired]
      exact m.publishTerminal_fired _ turn d
    | raised => rfl
    | unsupported => rfl
    | accepted => rfl
    | rejected => rfl

theorem resolvePermission_fired (turn : Nat) (permission : String) (accepted : Bool) :
    (m.resolvePermission turn permission accepted).fired = m.fired := by
  unfold resolvePermission
  split <;> rfl

theorem abandonTurn_fired (turn : Nat) (reason : String) (retryable : Bool) (d : Delivery) :
    (m.abandonTurn turn reason retryable d).fired = m.fired := by
  unfold abandonTurn
  split
  · exact m.publishTerminal_fired _ turn d
  · rfl

theorem timeoutTurn_fired (turn : Nat) (d : Delivery) : (m.timeoutTurn turn d).fired = m.fired := by
  unfold timeoutTurn
  split
  · rfl
  · rw [retireRuntimeLocked_fired]
    exact m.publishTerminal_fired _ turn d

theorem retireRuntime_fired (preserveSession : Bool) : (m.retireRuntime preserveSession).fired = m.fired := by
  unfold retireRuntime
  split
  · rfl
  · exact m.retireRuntimeLocked_fired preserveSession

theorem reloadResources_fired (preserveSession cleaned : Bool) (a : OpenAttempt) :
    (m.reloadResources preserveSession cleaned a).fired = m.fired := by
  unfold reloadResources
  split
  · rfl
  · split
    · rw [fired_of_view (openLocked_view _ preserveSession a)]
      exact m.retireRuntimeLocked_fired preserveSession
    · exact m.retireRuntimeLocked_fired preserveSession

theorem rolloverNativeSession_fired (cleaned : Bool) (a : OpenAttempt) :
    (m.rolloverNativeSession cleaned a).fired = m.fired := by
  unfold rolloverNativeSession
  split
  · rfl
  · split
    · rw [fired_of_view (openLocked_view _ false a)]
      rfl
    · rfl

theorem close_fired (d : Delivery) : (m.close d).fired = m.fired := by
  unfold close
  split
  · rfl
  · dsimp only
    split
    · exact publishTerminal_fired _ _ _ d
    · rfl

theorem registerContinuation_fired (r : Registration) : (m.registerContinuation platform r).fired = m.fired := by
  unfold registerContinuation
  split
  · rfl
  · split <;> rfl

theorem failRuntime_fired (reason : String) (d : Delivery) : (m.failRuntime reason d).fired = m.fired := by
  unfold failRuntime
  split
  · exact m.publishTerminal_fired _ _ d
  · rfl

theorem superviseAutonomous_fired (recovering stopped : Bool) (d : Delivery) :
    (m.superviseAutonomous recovering stopped d).fired = m.fired := by
  unfold superviseAutonomous
  split
  · rfl
  · dsimp only
    split
    · rfl
    · split
      · exact publishTerminal_fired _ _ _ d
      · rfl

end Fired

/-- The record of a continuation that fires. -/
def firingOf (platform : Platform) (m : Manager) (e : DriverEvent) (a : ToolResultAdmission) : Firing :=
  ⟨a.callback, a.planningCycleKey, m.nativeSessionId, e.nativeTurnId,
    (e.nativeDiagnostic.map (·.toolCallId platform)).getD ""⟩

theorem observe_selected (e : DriverEvent) (e' : HarnessEvent) :
    (m.observeAutonomousActivity platform e').selected platform e = m.selected platform e := by
  unfold observeAutonomousActivity
  split
  · rfl
  · dsimp only
    split <;> rfl

theorem observe_nativeSessionId (e : HarnessEvent) :
    (m.observeAutonomousActivity platform e).nativeSessionId = m.nativeSessionId := by
  unfold observeAutonomousActivity
  split
  · rfl
  · dsimp only
    split <;> rfl

/-- An event fires the continuation it selects, and no other. -/
theorem routeEvent_fired (m : Manager) (platform : Platform) (native : DriverEvent) (r : Reading) :
    (m.routeEvent platform native r).fired = match m.selected platform native with
      | none => m.fired
      | some (a, _) => m.firingOf platform native a :: m.fired := by
  have hsame : ∀ e, ((m.observeAutonomousActivity platform e).admitMatchingToolResult platform native).fired =
      match m.selected platform native with
        | none => m.fired
        | some (a, _) => m.firingOf platform native a :: m.fired := by
    intro e
    have hf := fired_of_view (m.observeAutonomousActivity_view platform e)
    unfold admitMatchingToolResult
    rw [observe_selected]
    cases m.selected platform native with
    | none => exact hf
    | some c => simp only [firingOf, hf, observe_nativeSessionId]
  unfold Manager.routeEvent
  dsimp only
  split
  · exact hsame _
  · rw [dispatchEvent_fired, fired_of_view (notePermission_view platform _ _)]
    exact hsame _

theorem readEvent_fired (platform : Platform) (native : DriverEvent) (r : Reading) :
    (m.readEvent platform native r).fired = m.fired ∨ ∃ a index, m.selected platform native = some (a, index) ∧
      (m.readEvent platform native r).fired = m.firingOf platform native a :: m.fired := by
  unfold Manager.readEvent
  split
  · left
    unfold consumeSession
    dsimp only
    rw [publishEvent_fired]
    split <;> rfl
  · unfold consumeEvent
    dsimp only
    split
    · rename_i hk
      left
      have hsel : ∀ m : Manager, m.selected platform native = none := by
        intro m
        unfold selected
        cases native.nativeDiagnostic with
        | none => rfl
        | some f => simp [hk]
      cases ha : (m.learnDriver native).adoptDriverTurn native r.recoveryRequired with
      | none => rfl
      | some m' =>
        simp only [routeEvent_fired, hsel]
        unfold adoptDriverTurn at ha
        split at ha
        · cases ha
        · split at ha
          · cases ha
          · cases ha
            rfl
    · have hroute : ((m.learnDriver native).routeEvent platform native r).fired =
          match m.selected platform native with
            | none => m.fired
            | some (a, _) => m.firingOf platform native a :: m.fired :=
        (m.learnDriver native).routeEvent_fired platform native r
      cases hsel : m.selected platform native with
      | none =>
        rw [hsel] at hroute
        exact .inl hroute
      | some c =>
        rw [hsel] at hroute
        exact .inr ⟨c.1, c.2, rfl, hroute⟩

/-- Only events fire continuations. -/
theorem step_fired (platform : Platform) (s : Step) (hs : ∀ native r, s ≠ .readEvent native r) :
    (step platform m s).fired = m.fired := by
  cases s with
  | «open» resume a => exact fired_of_view (m.openLocked_view resume a)
  | startTurn record a beforeStart outcome => exact m.startTurn_fired record a beforeStart outcome
  | steerTurn turn outcome => exact m.steerTurn_fired turn outcome
  | cancelTurn turn => rfl
  | resolvePermission turn permission accepted => exact m.resolvePermission_fired turn permission accepted
  | abandonTurn turn reason retryable d => exact m.abandonTurn_fired turn reason retryable d
  | timeoutTurn turn d => exact m.timeoutTurn_fired turn d
  | retireRuntime preserveSession => exact m.retireRuntime_fired preserveSession
  | reloadResources preserveSession cleaned a => exact m.reloadResources_fired preserveSession cleaned a
  | rolloverNativeSession cleaned a => exact m.rolloverNativeSession_fired cleaned a
  | close d => exact m.close_fired d
  | waitTerminal turn => rfl
  | registerContinuation r => exact m.registerContinuation_fired platform r
  | clearContinuations => rfl
  | readEvent native r => exact absurd rfl (hs native r)
  | failRuntime reason d => exact m.failRuntime_fired reason d
  | superviseAutonomous recovering stopped d => exact m.superviseAutonomous_fired recovering stopped d

/-- What a selected admission says about the event. -/
theorem selected_iff {native : DriverEvent} {c : ToolResultAdmission × Nat} :
    m.selected platform native = some c ↔ ∃ f, native.nativeDiagnostic = some f ∧
      native.kind = .toolCompleted ∧ native.nativeSessionId = m.nativeSessionId ∧
      native.nativeTurnId = m.nativeTurnId ∧ f.isResult ∧
      selectAdmission platform m.continuationAdmissions native.nativeTurnId f = some c := by
  unfold selected
  cases native.nativeDiagnostic with
  | none => simp
  | some f =>
    simp only [Option.ite_none_right_eq_some, Option.some.injEq, exists_eq_left', and_assoc]

end Manager

section Runs
variable (platform : Platform) (hasSink : Bool) (driverName nativeSessionId : String)

/-- Continuations, in every run: none fires twice; one fires only on the result of a tool that
did not fail, reported for the manager's session and the active turn, which is the one it was
registered in, and for a reason of its own; and a result that fits several and names none
fires none. -/
theorem continuation_admission (steps : List Step) :
    let m := Machine.run (step platform) (.initial hasSink driverName nativeSessionId) steps
    (m.fired.map (·.callback.id)).Nodup ∧
      (∀ s, (step platform m s).fired = m.fired ∨ ∃ native r f a, s = .readEvent native r ∧
        (step platform m s).fired = m.firingOf platform native a :: m.fired ∧
        native.nativeDiagnostic = some f ∧ native.kind = .toolCompleted ∧ f.isResult ∧
        native.nativeSessionId = m.nativeSessionId ∧ native.nativeTurnId = m.nativeTurnId ∧
        a ∈ m.continuationAdmissions ∧ a.providerTurnId = m.nativeTurnId ∧
        m.activeTurn = some a.callback.turn ∧ Evidence platform m.continuationAdmissions f a) ∧
      ∀ native r f a b, native.nativeDiagnostic = some f → a ∈ m.continuationAdmissions →
        b ∈ m.continuationAdmissions → a.callback.id ≠ b.callback.id → f.fits platform a →
        f.fits platform b → (∀ c ∈ m.continuationAdmissions, f.names platform c = false) →
        (step platform m (.readEvent native r)).fired = m.fired := by
  intro m
  have h : m.Sound := sound_run platform hasSink driverName nativeSessionId steps
  refine ⟨(List.nodup_append.1 h.distinct).2.1, ?_, ?_⟩
  · intro s
    by_cases hs : ∃ native r, s = .readEvent native r
    · obtain ⟨native, r, rfl⟩ := hs
      rcases m.readEvent_fired platform native r with hf | ⟨a, index, hsel, hf⟩
      · exact .inl hf
      · have hm := List.mem_of_getElem? (Manager.selected_get hsel)
        obtain ⟨f, hd, hk, hsn, htn, hr, hc⟩ := Manager.selected_iff.1 hsel
        rw [htn] at hc
        have hev := evidence_of_candidate h.waiting (mostSpecific_mem hc)
        have hst := h.staged a hm
        exact .inr ⟨native, r, f, a, rfl, hf, hd, hk, hr, hsn, htn, hm, hst.2.1, hst.1, hev⟩
    · exact .inl (Manager.step_fired platform s fun native r he => hs ⟨native, r, he⟩)
  · intro native r f a b hd ha hb hab hfa hfb hn
    rcases m.readEvent_fired platform native r with hf | ⟨a', index, hsel, hf⟩
    · exact hf
    · obtain ⟨f', hd', hk, hsn, htn, hr, hc⟩ := Manager.selected_iff.1 hsel
      rw [hd] at hd'
      cases hd'
      have hne : a ≠ b := fun he => hab (by rw [he])
      rw [htn, selectAdmission, candidates_of_ambiguous h.waiting ha hb hne hfa hfb hn] at hc
      cases hc

end Runs
end PuffoAgent.Runtime
