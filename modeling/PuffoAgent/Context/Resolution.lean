import PuffoAgent.Context.Controller
import Mathlib.Data.List.Chain

/-! Resolving a plan against the context of the provider: it is replanned, shrunk or kept over a rollover until it is
admitted or given up. -/
namespace PuffoAgent.Context
open Relational Effects
open Inbox (PlannedTurn)

/-- `OUTPUT_TOOL_RESERVE_TOKENS`. -/
def outputToolReserveTokens : Int := 4096

/-- `PlannedTurn.candidate`. -/
def candidateOf (planned : PlannedTurn) : AdmissionCandidate where
  planningCycleKey := planned.planningCycleKey
  formattedBatchTokens := planned.formattedTokens
  wrapperOverheadTokens := planned.wrapperOverheadTokens
  outputToolReserveTokens := outputToolReserveTokens
  payload := some planned
  minimumFormattedBatchTokens := (planned.formattedBlocks.head?.map Inbox.conservativeTokenEstimate).getD 0

/-- What the runtime is built with. -/
structure Runtime where
  host : Text.Host
  caps : Inbox.Caps
  formatter : Projection.StoredMessage → String
  estimator : String → Int
  half : Int → Int
  maxContextDecisions : Nat

/-- A notice that is planned under given ids, which count where they are not empty. -/
def underIds (turnId planningCycleKey : String) (planned : PlannedTurn) : PlannedTurn :=
  { planned with
    turnId := if turnId ≠ "" then turnId else planned.turnId
    planningCycleKey := if planningCycleKey ≠ "" then planningCycleKey else planned.planningCycleKey }

/-- `_replacement_candidate`. -/
def replacementCandidate (previous : AdmissionCandidate) (answer : Answer) : AdmissionCandidate :=
  ((answer.plan.map (underIds ((previous.payload.map (·.turnId)).getD "") previous.planningCycleKey)).map candidateOf).getD
    previous

/-- What a resolution returns, what it reports as degraded and the session that it moved the turn to; beside these, every
plan that was decided on with its decision. -/
structure Resolution where
  plan : Option PlannedTurn
  degraded : Option String
  rolledSession : Option (Option String)
  decided : List (PlannedTurn × ContextDecision)

section Resolve
variable (runtime : Runtime)

/-- The plan of all items but the last. -/
def shrinkPlan (planned : PlannedTurn) : ContextM (Option PlannedTurn) :=
  Proc.perform fun w c => match w.raises with
    | some e => (.error (.raised e), c)
    | none =>
      match Inbox.planBounded runtime.host runtime.caps runtime.formatter runtime.estimator none planned.turnId
          planned.planningCycleKey w.quarantined planned.items.dropLast planned.items.dropLast with
      | .error (.valueError e) => (.error (.raised e), c)
      | .ok shrunk => (.ok shrunk, c.called .plan)

def getProviderSessionId : ContextM (Option String) := call none (fun _ => .session) (·.session)

/-- The loop of `_resolve_context_plan`, with the decisions that are left. -/
def resolveWithin (rolled : Option (Option String)) (decided : List (PlannedTurn × ContextDecision)) (planned : PlannedTurn) :
    Nat → ContextM Resolution
  | 0 => return ⟨none, some "context decision budget exhausted", rolled, decided⟩
  | left + 1 => do
    let decision ← decide runtime.half (some replacementCandidate) (candidateOf planned)
    let decided := decided ++ [(planned, decision)]
    match decision.outcome with
    | .admitted => return ⟨some planned, none, rolled, decided⟩
    | .replan =>
      match decision.candidate.payload with
      | none => return ⟨none, some "context replan did not return a planned turn", rolled, decided⟩
      | some replacement => resolveWithin rolled decided replacement left
    | .shrink =>
      if planned.items.length ≤ 1 then return ⟨none, some decision.diagnostic, rolled, decided⟩
      else do
        let shrunk ← shrinkPlan runtime planned
        match shrunk with
        | none => return ⟨none, none, rolled, decided⟩
        | some shrunk => resolveWithin rolled decided shrunk left
    | .rollover =>
      if rolled.isSome then return ⟨none, some "provider rollover re-evaluation was exhausted", rolled, decided⟩
      else do
        let session ← getProviderSessionId
        resolveWithin (some session) decided planned left
    | .degraded => return ⟨none, some decision.diagnostic, rolled, decided⟩

/-- `_resolve_context_plan`. -/
def resolveContextPlan (planned : PlannedTurn) : ContextM Resolution :=
  resolveWithin runtime none [] planned runtime.maxContextDecisions

/-- A call of the controller. The caller sees what it raises. -/
inductive Op
  | decide (callback : Option Replan) (candidate : AdmissionCandidate)
  | resolve (planned : PlannedTurn)

def perform : Op → ContextM Unit
  | .decide callback candidate => do
    let _ ← Proc.caught (decide runtime.half callback candidate)
    return ()
  | .resolve planned => do
    let _ ← Proc.caught (resolveContextPlan runtime planned)
    return ()

def performAll : List Op → ContextM Unit
  | [] => return ()
  | op :: ops => do
    perform runtime op
    performAll ops

end Resolve
section Keeping
variable {runtime : Runtime}

theorem keeps_shrinkPlan {planned : PlannedTurn} : Proc.Keeps Controller.Bounded (shrinkPlan runtime planned) := by
  refine Proc.does_perform (fun _ hc => hc) fun w c hc => ?_
  cases hr : w.raises with
  | some e => exact hc
  | none =>
    dsimp only
    cases Inbox.planBounded runtime.host runtime.caps runtime.formatter runtime.estimator none planned.turnId
        planned.planningCycleKey w.quarantined planned.items.dropLast planned.items.dropLast with
    | error e => exact hc
    | ok shrunk => exact hc.called rfl

theorem keeps_resolveWithin {rolled : Option (Option String)} {decided : List (PlannedTurn × ContextDecision)}
    {planned : PlannedTurn} (left : Nat) :
    Proc.Keeps Controller.Bounded (resolveWithin runtime rolled decided planned left) := by
  induction left generalizing rolled decided planned with
  | zero => exact Proc.does_pure fun _ hc => hc
  | succ left ih =>
    have hdone : ∀ r : Resolution, Proc.Keeps Controller.Bounded (pure r : ContextM Resolution) :=
      fun r => Proc.does_pure fun _ hc => hc
    refine keeps_decide.bind fun decision => ?_
    cases decision.outcome with
    | admitted => exact hdone _
    | degraded => exact hdone _
    | replan =>
      cases decision.candidate.payload with
      | none => exact hdone _
      | some replacement => exact ih
    | shrink =>
      refine .ite (fun _ => hdone _) fun _ => keeps_shrinkPlan.bind fun shrunk => ?_
      cases shrunk with
      | none => exact hdone _
      | some shrunk => exact ih
    | rollover =>
      refine .ite (fun _ => hdone _) fun _ => ?_
      exact Proc.Does.bind (keeps_call (fun _ h => by cases h) fun _ => rfl) fun session => ih

theorem keeps_performAll (ops : List Op) : Proc.Keeps Controller.Bounded (performAll runtime ops) := by
  induction ops with
  | nil => exact Proc.does_pure fun _ hc => hc
  | cons op ops ih =>
    refine Proc.Does.bind (Q := fun _ => Controller.Bounded) ?_ fun _ => ih
    cases op with
    | decide callback candidate =>
      exact Proc.Does.bind (Q := fun _ => Controller.Bounded) (Proc.Does.caught keeps_decide) fun _ =>
        Proc.does_pure fun _ hc => hc
    | resolve planned =>
      exact Proc.Does.bind (Q := fun _ => Controller.Bounded) (Proc.Does.caught (keeps_resolveWithin _)) fun _ =>
        Proc.does_pure fun _ hc => hc

theorem bounded_start : ({} : Controller).Bounded := ⟨fun _ => Nat.zero_le 1, fun _ => Nat.le_refl 0, fun _ => Nat.zero_le 2,
  fun _ => Nat.zero_le 1, fun _ _ => rfl, fun _ _ => rfl⟩

end Keeping
section Freshness
variable {runtime : Runtime} {planned : PlannedTurn}

/-- The plan that is decided on after a decision. A replan keeps the plan only where nothing is pending any more, and a
rollover always keeps it. -/
def Follows (runtime : Runtime) (planned : PlannedTurn) (decision : ContextDecision) (next : PlannedTurn) : Prop :=
  match decision.outcome with
  | .admitted | .degraded => False
  | .replan => next = planned ∨ ∃ noticed, next = underIds planned.turnId planned.planningCycleKey noticed
  | .shrink => ∃ quarantined, Inbox.planBounded runtime.host runtime.caps runtime.formatter runtime.estimator none
      planned.turnId planned.planningCycleKey quarantined planned.items.dropLast planned.items.dropLast = .ok (some next)
  | .rollover => next = planned

/-- The plans that were decided on, from the first to the next one. -/
inductive Leads (runtime : Runtime) (first : PlannedTurn) : List (PlannedTurn × ContextDecision) → PlannedTurn → Prop
  | start : Leads runtime first [] first
  | next {decided : List (PlannedTurn × ContextDecision)} {planned next : PlannedTurn} {decision : ContextDecision} :
      Leads runtime first decided planned → Follows runtime planned decision next →
        Leads runtime first (decided ++ [(planned, decision)]) next

/-- A plan is returned only when the last decision admitted it, and the provider was asked for nothing since. -/
def Admits (runtime : Runtime) (first : PlannedTurn) (r : Resolution) (c : Controller) : Prop :=
  ∀ plan, r.plan = some plan → ∃ decided decision, r.decided = decided ++ [(plan, decision)] ∧
    Leads runtime first decided plan ∧
      (first.planningCycleKey ≠ "" → ∀ d ∈ r.decided, d.1.planningCycleKey = first.planningCycleKey) ∧
        decision.outcome = .admitted ∧ decision.candidate = candidateOf plan ∧
          c.calls.head? = some (.snapshot decision.snapshot) ∧ decision.snapshot.usedTokens + (candidateOf plan).projectedTokens ≤ softTarget runtime.half decision.snapshot

theorem payload_replacementCandidate {answer : Answer} {next : PlannedTurn}
    (h : (replacementCandidate (candidateOf planned) answer).payload = some next) :
    next = planned ∨ ∃ noticed, next = underIds planned.turnId planned.planningCycleKey noticed := by
  cases hp : answer.plan with
  | none =>
    rw [replacementCandidate, hp] at h
    exact .inl (Option.some.inj h).symm
  | some noticed =>
    rw [replacementCandidate, hp] at h
    exact .inr ⟨noticed, (Option.some.inj h).symm⟩

theorem Follows.key {decision : ContextDecision} {next : PlannedTurn} (h : Follows runtime planned decision next)
    (hkey : planned.planningCycleKey ≠ "") : next.planningCycleKey = planned.planningCycleKey := by
  unfold Follows at h
  split at h
  · exact h.elim
  · exact h.elim
  · obtain rfl | ⟨noticed, rfl⟩ := h
    · rfl
    · exact if_pos hkey
  · obtain ⟨quarantined, hplanned⟩ := h
    exact (Inbox.ids_planBounded hplanned).2
  · rw [h]

/-- Every plan on the way has the planning cycle key of the first, so that the bounds of one key are those of a resolution. -/
theorem Leads.key {first : PlannedTurn} {decided : List (PlannedTurn × ContextDecision)} (h : Leads runtime first decided planned)
    (hkey : first.planningCycleKey ≠ "") : planned.planningCycleKey = first.planningCycleKey ∧
      ∀ d ∈ decided, d.1.planningCycleKey = first.planningCycleKey := by
  induction h with
  | start => exact ⟨rfl, fun _ hd => absurd hd List.not_mem_nil⟩
  | @next decided planned next decision _ hfollows ih =>
    have hplanned : planned.planningCycleKey ≠ "" := by
      rw [ih.1]
      exact hkey
    refine ⟨(hfollows.key hplanned).trans ih.1, fun d hd => ?_⟩
    rcases List.mem_append.1 hd with hd | hd
    · exact ih.2 d hd
    · rw [List.mem_singleton.1 hd]
      exact ih.1

theorem does_shrinkPlan {P : Controller → Prop} : Proc.Does P (shrinkPlan runtime planned)
    (fun r _ => ∃ quarantined, Inbox.planBounded runtime.host runtime.caps runtime.formatter runtime.estimator none
      planned.turnId planned.planningCycleKey quarantined planned.items.dropLast planned.items.dropLast = .ok r)
    (fun _ _ => True) fun _ => True := by
  refine Proc.does_perform (fun _ _ => trivial) fun w c _ => ?_
  cases hr : w.raises with
  | some e => trivial
  | none =>
    dsimp only
    cases hp : Inbox.planBounded runtime.host runtime.caps runtime.formatter runtime.estimator none planned.turnId
        planned.planningCycleKey w.quarantined planned.items.dropLast planned.items.dropLast with
    | error e => trivial
    | ok shrunk => exact ⟨w.quarantined, hp⟩

theorem does_resolveWithin {P : Controller → Prop} {first : PlannedTurn} {rolled : Option (Option String)}
    {decided : List (PlannedTurn × ContextDecision)} (left : Nat) (h : Leads runtime first decided planned) :
    Proc.Does P (resolveWithin runtime rolled decided planned left) (Admits runtime first) (fun _ _ => True) fun _ => True := by
  induction left generalizing P rolled decided planned with
  | zero => exact Proc.does_pure fun _ _ _ hplan => by cases hplan
  | succ left ih =>
    have hnone : ∀ {P : Controller → Prop} {r : Resolution}, r.plan = none →
        Proc.Does P (pure r : ContextM Resolution) (Admits runtime first) (fun _ _ => True) fun _ => True :=
      fun hr => Proc.does_pure fun _ _ _ hplan => by rw [hr] at hplan; cases hplan
    refine (@does_decide runtime.half _ _ _).bind fun decision => ?_
    cases houtcome : decision.outcome with
    | admitted =>
      refine Proc.does_pure fun c hc plan hplan => ?_
      cases hplan
      obtain ⟨hcandidate, hlast, hfits⟩ := hc.admitted houtcome
      refine ⟨decided, decision, rfl, h, fun hkey d hd => ?_, houtcome, hcandidate, hlast, hfits⟩
      rcases List.mem_append.1 hd with hd | hd
      · exact (h.key hkey).2 d hd
      · rw [List.mem_singleton.1 hd]
        exact (h.key hkey).1
    | degraded => exact hnone rfl
    | replan =>
      cases hpayload : decision.candidate.payload with
      | none => exact hnone rfl
      | some replacement =>
        intro t ht
        obtain ⟨answer, hanswer⟩ := ht.replan houtcome
        rw [hanswer] at hpayload
        refine ih (P := fun _ => True) (h.next ?_) t trivial
        rw [Follows, houtcome]
        exact payload_replacementCandidate hpayload
    | shrink =>
      refine .ite (fun _ => hnone rfl) fun _ => does_shrinkPlan.bind fun shrunk => ?_
      cases shrunk with
      | none => exact hnone rfl
      | some shrunk =>
        intro t ht
        refine ih (P := fun _ => True) (h.next ?_) t trivial
        rw [Follows, houtcome]
        exact ht
    | rollover =>
      refine .ite (fun _ => hnone rfl) fun _ => ?_
      refine Proc.Does.bind (Q := fun _ _ => True) (does_call (fun _ _ => trivial) (fun _ _ _ => trivial)
        fun _ _ _ => trivial) fun session => ih (h.next ?_)
      rw [Follows, houtcome]

/-- Under every key the calls of the provider are bounded over any run; a decision ends and admits only below the soft
target; and a resolution returns only the plan of its last decision, which it admitted. -/
theorem resolution_bounded (runtime : Runtime) :
    (∀ (ops : List Op) (answers : List Answer) (key : String),
      ((performAll runtime ops).leaves answers {}).completions key ≤ 1 ∧
        ((performAll runtime ops).leaves answers {}).failures key ≤ 2 ∧
          ((performAll runtime ops).leaves answers {}).rolloverAttempts key ≤ 1) ∧
    (∀ callback candidate, Proc.Takes 9 (fun _ => True) (decide runtime.half callback candidate) fun _ _ => True) ∧
    (∀ callback candidate, Proc.Does (fun _ => True) (decide runtime.half callback candidate)
      (Decides runtime.half callback candidate) (fun _ _ => True) fun _ => True) ∧
    (∀ planned, Proc.Does (fun _ => True) (resolveContextPlan runtime planned) (Admits runtime planned)
      (fun _ _ => True) fun _ => True) := by
  refine ⟨fun ops answers key => ?_, fun _ _ => takes_decide, fun _ _ => does_decide, fun _ => does_resolveWithin _ .start⟩
  have hbounded := (@keeps_performAll runtime ops).leaves bounded_start answers
  exact ⟨hbounded.completions key, (hbounded.failures key).trans (hbounded.fewFailures key), hbounded.rollovers key⟩

end Freshness
section Kept

def plainRuntime : Runtime where
  host := Text.asciiHost
  caps := Inbox.standardCaps
  formatter := Projection.messageText Text.asciiHost
  estimator := Inbox.conservativeTokenEstimate
  half window := window / 2
  maxContextDecisions := 12

def noticeTurn : PlannedTurn where
  turnId := "turn_1"
  planningCycleKey := "notice_1"
  messageIds := []
  items := []
  routes := []
  targets := [["dm", "@ann"]]
  pendingTargets := [["dm", "@ann"]]
  targetSummary := ""
  formattedBlocks := []
  providerInput := "[pending message_count=1]"
  formattedTokens := 0
  wrapperOverheadTokens := 25
  formattedBytes := 0
  wrapperOverheadBytes := 25
  moreAvailable := true
  requiresEncryption := false

/-- A provider that can only roll over, with so many tokens used. -/
def rollingAnswer (usedTokens : Int) : Answer where
  raises := none
  snapshot := ⟨usedTokens, 200000⟩
  capabilities := ⟨false, true⟩
  control := ⟨true, ""⟩
  session := some "session_2"
  plan := none
  quarantined := []

/-- A plan that was computed before a rollover is returned after it. -/
theorem rollover_keeps_plan : ¬ ∀ (planned : PlannedTurn) (t t' : Ongoing Answer Controller) (r : Resolution),
    resolveContextPlan plainRuntime planned t = .ok r t' → ∀ plan, r.plan = some plan →
      ∀ d ∈ r.decided, d.1 = plan → d.2.outcome ≠ .rollover := by
  intro h
  refine h noticeTurn ⟨{}, [rollingAnswer 150000, rollingAnswer 150000, rollingAnswer 150000, rollingAnswer 0,
    rollingAnswer 0, rollingAnswer 0]⟩ _ _ rfl noticeTurn rfl _ List.mem_cons_self rfl rfl

end Kept
end PuffoAgent.Context
