import PuffoAgent.Effects.Interrupted
import PuffoAgent.Inbox.Batches

/-! The context controller: what it decides of a candidate, and what it asks of the provider on the way. -/
namespace PuffoAgent.Context
open Relational Effects
open Inbox (PlannedTurn)

structure ContextSnapshot where
  usedTokens : Int
  contextWindow : Int
  deriving DecidableEq

structure ContextCapabilities where
  nativeCompaction : Bool
  rollover : Bool
  deriving DecidableEq

/-- `CompactionResult` and `RolloverResult`. -/
structure ControlResult where
  completed : Bool
  diagnostic : String
  deriving DecidableEq

/-- `AdmissionCandidate`; a payload that is no planned turn is `none`. -/
structure AdmissionCandidate where
  planningCycleKey : String
  formattedBatchTokens : Int
  wrapperOverheadTokens : Int
  outputToolReserveTokens : Int
  payload : Option PlannedTurn
  minimumFormattedBatchTokens : Int

def AdmissionCandidate.projectedTokens (candidate : AdmissionCandidate) : Int :=
  candidate.formattedBatchTokens + candidate.wrapperOverheadTokens + candidate.outputToolReserveTokens

/-- `DecisionOutcome`. -/
inductive Outcome
  | admitted
  | replan
  | shrink
  | rollover
  | degraded
  deriving DecidableEq

structure ContextDecision where
  outcome : Outcome
  candidate : AdmissionCandidate
  snapshot : ContextSnapshot
  projectedTokens : Int
  diagnostic : String

/-- What was asked of the provider and of the planner. A compaction that raises has no result. -/
inductive Call
  | snapshot (answer : ContextSnapshot)
  | capabilities (answer : ContextCapabilities)
  | compaction (key : String) (completed : Option Bool)
  | rollover (key : String)
  | session
  | plan
  deriving DecidableEq

/-- The memory of the controller, and the calls so far, the last one first. -/
structure Controller where
  successfulCompactions : List String := []
  failedCompactions : String → Nat := fun _ => 0
  rollovers : List String := []
  calls : List Call := []

/-- One answer of the world. A call reads the field that it asks for, unless it raises. -/
structure Answer where
  raises : Option String
  snapshot : ContextSnapshot
  capabilities : ContextCapabilities
  control : ControlResult
  session : Option String
  plan : Option PlannedTurn
  quarantined : List (Option (List Projection.StoredMessage))

abbrev ContextM := Proc Answer Controller String

section Calls

def Controller.called (c : Controller) (call : Call) : Controller := { c with calls := call :: c.calls }

/-- A call, as it is logged where it raises and where it returns. -/
def call (failed : Option Call) (made : Answer → Call) (answer : Answer → α) : ContextM α :=
  Proc.perform fun w c => match w.raises with
    | some e => (.error (.raised e), (failed.elim c c.called))
    | none => (.ok (answer w), c.called (made w))

def getContextSnapshot : ContextM ContextSnapshot := call none (fun w => .snapshot w.snapshot) (·.snapshot)

def getContextCapabilities : ContextM ContextCapabilities := call none (fun w => .capabilities w.capabilities) (·.capabilities)

def compactContext (key : String) : ContextM ControlResult :=
  call (some (.compaction key none)) (fun w => .compaction key (some w.control.completed)) (·.control)

def rolloverContext (key : String) : ContextM ControlResult :=
  call (some (.rollover key)) (fun _ => .rollover key) (·.control)

end Calls
section Decide
variable (half : Int → Int)

def projection (snapshot : ContextSnapshot) (candidate : AdmissionCandidate) : Int :=
  snapshot.usedTokens + candidate.projectedTokens

/-- `soft_target`, where `half` is `int(window * SOFT_TARGET_FRACTION)`. -/
def softTarget (snapshot : ContextSnapshot) : Int := half snapshot.contextWindow

def Controller.compacted (c : Controller) (key : String) : Controller :=
  { c with successfulCompactions := key :: c.successfulCompactions }

def Controller.compactionFailed (c : Controller) (key : String) : Controller :=
  { c with failedCompactions := fun k => if k = key then c.failedCompactions key + 1 else c.failedCompactions k }

def Controller.rolledOver (c : Controller) (key : String) : Controller := { c with rollovers := key :: c.rollovers }

def Controller.mayCompact (c : Controller) (key : String) : Bool :=
  key ∉ c.successfulCompactions ∧ c.failedCompactions key < 2

abbrev Replan := AdmissionCandidate → Answer → AdmissionCandidate

/-- `callback(candidate) if callback else candidate`. -/
def replanned (callback : Option Replan) (candidate : AdmissionCandidate) : ContextM AdmissionCandidate :=
  match callback with
  | some callback => call none (fun _ => .plan) (callback candidate)
  | none => return candidate

def replanDecision (callback : Option Replan) (candidate : AdmissionCandidate) (diagnostic : String) :
    ContextM ContextDecision := do
  let refreshed ← getContextSnapshot
  let replacement ← replanned callback candidate
  return ⟨.replan, replacement, refreshed, projection refreshed replacement, diagnostic⟩

/-- The loop of compactions. It would not end where it runs out of fuel. -/
def compactWhile (callback : Option Replan) (candidate : AdmissionCandidate) (nativeCompaction : Bool) :
    Nat → ContextM (Option ContextDecision)
  | 0 => throw .cut
  | fuel + 1 => do
    let may ← Proc.look (·.mayCompact candidate.planningCycleKey)
    if nativeCompaction ∧ may then do
      let compact ← compactContext candidate.planningCycleKey
      if compact.completed then do
        Proc.change (·.compacted candidate.planningCycleKey)
        let decision ← replanDecision callback candidate compact.diagnostic
        return some decision
      else do
        Proc.change (·.compactionFailed candidate.planningCycleKey)
        compactWhile callback candidate nativeCompaction fuel
    else return none

def degradedText : String := "context cannot be brought below the soft target with bounded controls"

/-- What is left when no compaction helps. -/
def withoutCompaction (candidate : AdmissionCandidate) (snapshot : ContextSnapshot) (capabilities : ContextCapabilities) :
    ContextM ContextDecision :=
  let target := softTarget half snapshot
  let fixed := snapshot.usedTokens + candidate.wrapperOverheadTokens + candidate.outputToolReserveTokens
  let minimum := max 0 candidate.minimumFormattedBatchTokens
  let shrunk := { candidate with formattedBatchTokens := minimum }
  let degraded : ContextDecision := ⟨.degraded, candidate, snapshot, projection snapshot candidate, degradedText⟩
  if fixed + minimum ≤ target ∧ minimum < candidate.formattedBatchTokens then
    return ⟨.shrink, shrunk, snapshot, projection snapshot shrunk, "candidate reduction can satisfy the soft target"⟩
  else do
    let rollovers ← Proc.look (·.rollovers)
    if capabilities.rollover ∧ candidate.planningCycleKey ∉ rollovers ∧ target < fixed + minimum then do
      Proc.change (·.rolledOver candidate.planningCycleKey)
      let rolled ← rolloverContext candidate.planningCycleKey
      if rolled.completed then do
        let refreshed ← getContextSnapshot
        return ⟨.rollover, candidate, refreshed, projection refreshed candidate, rolled.diagnostic⟩
      else return degraded
    else return degraded

/-- `ContextController.decide`. -/
def decide (callback : Option Replan) (candidate : AdmissionCandidate) : ContextM ContextDecision := do
  let snapshot ← getContextSnapshot
  if projection snapshot candidate ≤ softTarget half snapshot then
    return ⟨.admitted, candidate, snapshot, projection snapshot candidate, ""⟩
  else do
    let capabilities ← getContextCapabilities
    let compacted ← compactWhile callback candidate capabilities.nativeCompaction 3
    match compacted with
    | some decision => return decision
    | none => withoutCompaction half candidate snapshot capabilities

end Decide
section Bounds
variable {half : Int → Int} {callback : Option Replan} {candidate : AdmissionCandidate} {c : Controller} {key : String}

def Controller.completions (c : Controller) (key : String) : Nat := c.calls.count (.compaction key (some true))

def Controller.failures (c : Controller) (key : String) : Nat := c.calls.count (.compaction key (some false))

def Controller.rolloverAttempts (c : Controller) (key : String) : Nat := c.calls.count (.rollover key)

/-- Under every key at most one compaction completes, two fail and one rollover is tried. -/
structure Controller.Bounded (c : Controller) : Prop where
  completions : ∀ key, c.completions key ≤ 1
  failures : ∀ key, c.failures key ≤ c.failedCompactions key
  fewFailures : ∀ key, c.failedCompactions key ≤ 2
  rollovers : ∀ key, c.rolloverAttempts key ≤ 1
  uncompacted : ∀ key, key ∉ c.successfulCompactions → c.completions key = 0
  unrolled : ∀ key, key ∉ c.rollovers → c.rolloverAttempts key = 0

/-- A call that changes the context of the provider. -/
def Call.isControl : Call → Bool
  | .compaction _ (some _) | .rollover _ => true
  | _ => false

section Counts
variable {call : Call} {k : String}

@[simp] theorem completions_called : (c.called call).completions k =
    c.completions k + if call = .compaction k (some true) then 1 else 0 := by
  simp [Controller.completions, Controller.called, List.count_cons]

@[simp] theorem failures_called : (c.called call).failures k =
    c.failures k + if call = .compaction k (some false) then 1 else 0 := by
  simp [Controller.failures, Controller.called, List.count_cons]

@[simp] theorem rolloverAttempts_called : (c.called call).rolloverAttempts k =
    c.rolloverAttempts k + if call = .rollover k then 1 else 0 := by
  simp [Controller.rolloverAttempts, Controller.called, List.count_cons]

@[simp] theorem completions_compacted : (c.compacted key).completions k = c.completions k := rfl

@[simp] theorem failures_compacted : (c.compacted key).failures k = c.failures k := rfl

@[simp] theorem rolloverAttempts_compacted : (c.compacted key).rolloverAttempts k = c.rolloverAttempts k := rfl

@[simp] theorem completions_compactionFailed : (c.compactionFailed key).completions k = c.completions k := rfl

@[simp] theorem failures_compactionFailed : (c.compactionFailed key).failures k = c.failures k := rfl

@[simp] theorem rolloverAttempts_compactionFailed :
    (c.compactionFailed key).rolloverAttempts k = c.rolloverAttempts k := rfl

@[simp] theorem completions_rolledOver : (c.rolledOver key).completions k = c.completions k := rfl

@[simp] theorem failures_rolledOver : (c.rolledOver key).failures k = c.failures k := rfl

@[simp] theorem rolloverAttempts_rolledOver : (c.rolledOver key).rolloverAttempts k = c.rolloverAttempts k := rfl

@[simp] theorem failedCompactions_called : (c.called call).failedCompactions = c.failedCompactions := rfl

@[simp] theorem failedCompactions_compacted : (c.compacted key).failedCompactions = c.failedCompactions := rfl

@[simp] theorem failedCompactions_rolledOver : (c.rolledOver key).failedCompactions = c.failedCompactions := rfl

@[simp] theorem failedCompactions_compactionFailed : (c.compactionFailed key).failedCompactions k =
    if k = key then c.failedCompactions key + 1 else c.failedCompactions k := rfl

end Counts

theorem Controller.Bounded.called (h : c.Bounded) {call : Call} (hcall : call.isControl = false) : (c.called call).Bounded := by
  have hne : ∀ other : Call, other.isControl = true → call ≠ other := by
    rintro other hother rfl
    rw [hcall] at hother
    cases hother
  have hcompaction := fun k b => hne (.compaction k (some b)) rfl
  have hrollover := fun k => hne (.rollover k) rfl
  exact {
    completions := fun k => by simpa [hcompaction] using h.completions k
    failures := fun k => by simpa [hcompaction] using h.failures k
    fewFailures := h.fewFailures
    rollovers := fun k => by simpa [hrollover] using h.rollovers k
    uncompacted := fun k hk => by simpa [hcompaction] using h.uncompacted k hk
    unrolled := fun k hk => by simpa [hrollover] using h.unrolled k hk }

theorem Controller.Bounded.compacted (h : c.Bounded) (hmay : c.mayCompact key = true) :
    ((c.called (.compaction key (some true))).compacted key).Bounded := by
  simp only [Controller.mayCompact, decide_eq_true_eq] at hmay
  have hnone := h.uncompacted key hmay.1
  refine ⟨fun k => ?_, fun k => ?_, h.fewFailures, fun k => ?_, fun k hk => ?_, fun k hk => ?_⟩
  · by_cases he : key = k
    · subst he
      simp [hnone]
    · simpa [he] using h.completions k
  · simpa using h.failures k
  · simpa using h.rollovers k
  · have hne : key ≠ k := fun he => hk (he ▸ List.mem_cons_self)
    simpa [hne] using h.uncompacted k fun hmem => hk (List.mem_cons_of_mem _ hmem)
  · simpa using h.unrolled k hk

theorem Controller.Bounded.compactionFailed (h : c.Bounded) (hmay : c.mayCompact key = true) :
    ((c.called (.compaction key (some false))).compactionFailed key).Bounded := by
  simp only [Controller.mayCompact, decide_eq_true_eq] at hmay
  refine ⟨fun k => ?_, fun k => ?_, fun k => ?_, fun k => ?_, fun k hk => ?_, fun k hk => ?_⟩
  · simpa using h.completions k
  · have hk := h.failures k
    by_cases he : key = k
    · subst he
      simpa using hk
    · simpa [he, Ne.symm he] using hk
  · have hk := h.fewFailures k
    by_cases he : key = k
    · subst he
      simpa using Nat.succ_le_of_lt hmay.2
    · simpa [Ne.symm he] using hk
  · simpa using h.rollovers k
  · simpa using h.uncompacted k hk
  · simpa using h.unrolled k hk

theorem Controller.Bounded.noted (h : c.Bounded) : (c.rolledOver key).Bounded where
  completions := h.completions
  failures := h.failures
  fewFailures := h.fewFailures
  rollovers := h.rollovers
  uncompacted := h.uncompacted
  unrolled k hk := h.unrolled k fun hmem => hk (List.mem_cons_of_mem _ hmem)

theorem Controller.Bounded.rolledOver (h : c.Bounded) (hkey : key ∉ c.rollovers) :
    ((c.rolledOver key).called (.rollover key)).Bounded := by
  have hnone := h.unrolled key hkey
  refine ⟨fun k => ?_, fun k => ?_, h.fewFailures, fun k => ?_, fun k hk => ?_, fun k hk => ?_⟩
  · simpa using h.completions k
  · simpa using h.failures k
  · by_cases he : key = k
    · subst he
      simp [hnone]
    · simpa [he] using h.rollovers k
  · simpa using h.uncompacted k hk
  · have hne : key ≠ k := fun he => hk (he ▸ List.mem_cons_self)
    simpa [hne] using h.unrolled k fun hmem => hk (List.mem_cons_of_mem _ hmem)

end Bounds
section Rules
variable {P : Controller → Prop} {Q : α → Controller → Prop} {E : String → Controller → Prop} {C : Controller → Prop}
  {failed : Option Call} {made : Answer → Call} {answer : Answer → α}

theorem does_call (hcut : ∀ c, P c → C c) (hraise : ∀ e c, P c → E e (failed.elim c c.called))
    (hok : ∀ w c, P c → Q (answer w) (c.called (made w))) : Proc.Does P (call failed made answer) Q E C := by
  refine Proc.does_perform hcut fun w c hc => ?_
  cases hr : w.raises with
  | none => exact hok w c hc
  | some e => exact hraise e c hc

theorem takes_call (hok : ∀ w c, P c → Q (answer w) (c.called (made w))) : Proc.Takes 1 P (call failed made answer) Q := by
  refine Proc.takes_perform fun w c hc => ?_
  cases hr : w.raises with
  | none => exact hok w c hc
  | some e => trivial

end Rules
section Keeping
variable {half : Int → Int} {callback : Option Replan} {candidate : AdmissionCandidate}

theorem keeps_call {failed : Option Call} {made : Answer → Call} {answer : Answer → α}
    (hfailed : ∀ call ∈ failed, call.isControl = false) (hmade : ∀ w, (made w).isControl = false) :
    Proc.Keeps Controller.Bounded (call failed made answer) := by
  refine does_call (fun _ hc => hc) (fun _ c hc => ?_) fun w c hc => hc.called (hmade w)
  cases failed with
  | none => exact hc
  | some call => exact hc.called (hfailed call rfl)

theorem keeps_getContextSnapshot : Proc.Keeps Controller.Bounded getContextSnapshot :=
  keeps_call (fun _ h => by cases h) fun _ => rfl

theorem keeps_replanned : Proc.Keeps Controller.Bounded (replanned callback candidate) := by
  unfold replanned
  cases callback with
  | none => exact Proc.does_pure fun _ hc => hc
  | some callback => exact keeps_call (fun _ h => by cases h) fun _ => rfl

theorem keeps_replanDecision (diagnostic : String) :
    Proc.Keeps Controller.Bounded (replanDecision callback candidate diagnostic) :=
  keeps_getContextSnapshot.bind fun _ => keeps_replanned.bind fun _ => Proc.does_pure fun _ hc => hc

theorem keeps_compactWhile (nativeCompaction : Bool) (fuel : Nat) :
    Proc.Keeps Controller.Bounded (compactWhile callback candidate nativeCompaction fuel) := by
  induction fuel with
  | zero => exact Proc.does_cut fun _ hc => hc
  | succ fuel ih =>
    rw [compactWhile]
    refine Proc.Does.look fun may => .ite (fun hmay => ?_) fun _ => Proc.does_pure fun _ hc => hc.1
    refine Proc.Does.bind (Q := fun compact c' => ∃ c : Controller, c.Bounded ∧ c.mayCompact candidate.planningCycleKey = true ∧
      c' = c.called (.compaction candidate.planningCycleKey (some compact.completed))) ?_ fun compact => ?_
    · exact does_call (fun _ hc => hc.1) (fun _ _ hc => hc.1.called rfl)
        fun _ c hc => ⟨c, hc.1, hc.2.trans hmay.2, rfl⟩
    · refine .ite (fun hcompleted => ?_) fun hfailed => ?_
      · refine (Proc.does_change ?_).bind fun _ => (keeps_replanDecision _).bind fun _ => Proc.does_pure fun _ hc => hc
        rintro _ ⟨c, hc, hcompact, rfl⟩
        rw [hcompleted]
        exact hc.compacted hcompact
      · refine (Proc.does_change ?_).bind fun _ => ih
        rintro _ ⟨c, hc, hcompact, rfl⟩
        rw [Bool.not_eq_true] at hfailed
        rw [hfailed]
        exact hc.compactionFailed hcompact

theorem keeps_withoutCompaction (snapshot : ContextSnapshot) (capabilities : ContextCapabilities) :
    Proc.Keeps Controller.Bounded (withoutCompaction half candidate snapshot capabilities) := by
  unfold withoutCompaction
  refine .ite (fun _ => Proc.does_pure fun _ hc => hc) fun _ => Proc.Does.look fun rollovers => .ite (fun hmay => ?_)
    fun _ => Proc.does_pure fun _ hc => hc.1
  refine Proc.Does.bind (Q := fun _ c' => ∃ c : Controller, c.Bounded ∧ candidate.planningCycleKey ∉ c.rollovers ∧
    c' = c.rolledOver candidate.planningCycleKey) (Proc.does_change ?_) fun _ => ?_
  · rintro c ⟨hc, rfl⟩
    exact ⟨c, hc, hmay.2.1, rfl⟩
  · refine Proc.Does.bind (Q := fun _ => Controller.Bounded) (does_call ?_ ?_ ?_) fun rolled => .ite (fun _ => ?_) fun _ => ?_
    · rintro _ ⟨c, hc, -, rfl⟩
      exact hc.noted
    · rintro _ _ ⟨c, hc, hkey, rfl⟩
      exact hc.rolledOver hkey
    · rintro _ _ ⟨c, hc, hkey, rfl⟩
      exact hc.rolledOver hkey
    · exact keeps_getContextSnapshot.bind fun _ => Proc.does_pure fun _ hc => hc
    · exact Proc.does_pure fun _ hc => hc

/-- However the world answers, no decision breaks the bounds. -/
theorem keeps_decide : Proc.Keeps Controller.Bounded (decide half callback candidate) := by
  refine keeps_getContextSnapshot.bind fun snapshot => .ite (fun _ => Proc.does_pure fun _ hc => hc) fun _ => ?_
  refine Proc.Does.bind (keeps_call (fun _ h => by cases h) fun _ => rfl) fun capabilities =>
    (keeps_compactWhile _ _).bind fun compacted => ?_
  cases compacted with
  | some decision => exact Proc.does_pure fun _ hc => hc
  | none => exact keeps_withoutCompaction snapshot capabilities

end Keeping
section Decisions
variable {half : Int → Int} {callback : Option Replan} {candidate : AdmissionCandidate}

/-- What the callback may answer. -/
def Replaces (callback : Option Replan) (candidate replacement : AdmissionCandidate) : Prop :=
  match callback with
  | none => replacement = candidate
  | some callback => ∃ answer, replacement = callback candidate answer

/-- What a decision says of its candidate, in the state it is made in. -/
structure Decides (half : Int → Int) (callback : Option Replan) (candidate : AdmissionCandidate) (decision : ContextDecision)
    (c : Controller) : Prop where
  admitted : decision.outcome = .admitted → decision.candidate = candidate ∧
    c.calls.head? = some (.snapshot decision.snapshot) ∧
      decision.snapshot.usedTokens + candidate.projectedTokens ≤ softTarget half decision.snapshot
  replan : decision.outcome = .replan → Replaces callback candidate decision.candidate

theorem does_getContextSnapshot {P : Controller → Prop} : Proc.Does P getContextSnapshot
    (fun snapshot c => c.calls.head? = some (.snapshot snapshot)) (fun _ _ => True) fun _ => True :=
  does_call (fun _ _ => trivial) (fun _ _ _ => trivial) fun _ _ _ => rfl

theorem does_replanDecision {P : Controller → Prop} (diagnostic : String) :
    Proc.Does P (replanDecision callback candidate diagnostic) (Decides half callback candidate) (fun _ _ => True) fun _ => True := by
  refine does_getContextSnapshot.bind fun refreshed => ?_
  refine Proc.Does.bind (Q := fun replacement _ => Replaces callback candidate replacement) ?_ fun replacement =>
    Proc.does_pure fun c hc => ⟨nofun, fun _ => hc⟩
  unfold replanned
  cases callback with
  | none => exact Proc.does_pure fun _ _ => rfl
  | some callback => exact does_call (fun _ _ => trivial) (fun _ _ _ => trivial) fun w _ _ => ⟨w, rfl⟩

theorem does_compactWhile {P : Controller → Prop} (nativeCompaction : Bool) (fuel : Nat) :
    Proc.Does P (compactWhile callback candidate nativeCompaction fuel)
      (fun r c => ∀ decision, r = some decision → Decides half callback candidate decision c) (fun _ _ => True) fun _ => True := by
  induction fuel generalizing P with
  | zero => exact Proc.does_cut fun _ _ => trivial
  | succ fuel ih =>
    rw [compactWhile]
    refine Proc.Does.look fun may => .ite (fun _ => ?_) fun _ => Proc.does_pure fun _ _ _ h => by cases h
    refine Proc.Does.bind (Q := fun _ _ => True) (does_call (fun _ _ => trivial) (fun _ _ _ => trivial) fun _ _ _ => trivial)
      fun compact => .ite (fun _ => ?_) fun _ => ?_
    · refine Proc.Does.bind (Q := fun _ _ => True) (Proc.does_change fun _ _ => trivial) fun _ =>
        (@does_replanDecision half _ _ _ _).bind fun decision => Proc.does_pure fun c hc _ h => ?_
      cases h
      exact hc
    · exact Proc.Does.bind (Q := fun _ _ => True) (Proc.does_change fun _ _ => trivial) fun _ => ih

theorem does_withoutCompaction {P : Controller → Prop} (snapshot : ContextSnapshot) (capabilities : ContextCapabilities) :
    Proc.Does P (withoutCompaction half candidate snapshot capabilities) (Decides half callback candidate) (fun _ _ => True)
      fun _ => True := by
  unfold withoutCompaction
  refine .ite (fun _ => Proc.does_pure fun _ _ => ⟨nofun, nofun⟩) fun _ =>
    Proc.Does.look fun rollovers => .ite (fun _ => ?_) fun _ => Proc.does_pure fun _ _ => ⟨nofun, nofun⟩
  refine Proc.Does.bind (Q := fun _ _ => True) (Proc.does_change fun _ _ => trivial) fun _ =>
    Proc.Does.bind (Q := fun _ _ => True) (does_call (fun _ _ => trivial) (fun _ _ _ => trivial) fun _ _ _ => trivial)
      fun rolled => .ite (fun _ => ?_) fun _ => Proc.does_pure fun _ _ => ⟨nofun, nofun⟩
  exact does_getContextSnapshot.bind fun _ => Proc.does_pure fun _ _ => ⟨nofun, nofun⟩

theorem does_decide {P : Controller → Prop} :
    Proc.Does P (decide half callback candidate) (Decides half callback candidate) (fun _ _ => True) fun _ => True := by
  refine does_getContextSnapshot.bind fun snapshot => .ite (fun hfits => ?_) fun _ => ?_
  · exact Proc.does_pure fun c hc => ⟨fun _ => ⟨rfl, hc, hfits⟩, nofun⟩
  · refine Proc.Does.bind (Q := fun _ _ => True) (does_call (fun _ _ => trivial) (fun _ _ _ => trivial) fun _ _ _ => trivial)
      fun capabilities => (@does_compactWhile half _ _ _ _ _).bind fun compacted => ?_
    cases compacted with
    | some decision => exact Proc.does_pure fun _ hc => hc decision rfl
    | none => exact does_withoutCompaction snapshot capabilities

end Decisions
section Ending
variable {half : Int → Int} {callback : Option Replan} {candidate : AdmissionCandidate}

theorem takes_getContextSnapshot {P : Controller → Prop} : Proc.Takes 1 P getContextSnapshot fun _ _ => True :=
  takes_call fun _ _ _ => trivial

theorem takes_replanDecision {P : Controller → Prop} (diagnostic : String) :
    Proc.Takes 2 P (replanDecision callback candidate diagnostic) fun _ _ => True := by
  refine takes_getContextSnapshot.bind (n := 1) fun refreshed => ?_
  refine Proc.Takes.bind (m := 1) (n := 0) (Q := fun _ _ => True) ?_ fun _ => Proc.takes_pure fun _ _ => trivial
  unfold replanned
  cases callback with
  | none => exact (Proc.takes_pure fun _ _ => trivial).mono (Nat.zero_le 1) (fun _ h => h) fun _ _ h => h
  | some callback => exact takes_call fun _ _ _ => trivial

/-- Two more failures at the most end the loop, so that it never runs out of fuel. -/
theorem takes_compactWhile (nativeCompaction : Bool) (fuel : Nat) :
    Proc.Takes (fuel + 2) (fun c => 0 < fuel ∧ 3 ≤ c.failedCompactions candidate.planningCycleKey + fuel)
      (compactWhile callback candidate nativeCompaction fuel) fun _ _ => True := by
  induction fuel with
  | zero => exact Proc.takes_absurd fun _ h => Nat.lt_irrefl 0 h.1
  | succ fuel ih =>
    rw [compactWhile]
    refine Proc.Takes.look fun may => .ite (fun hmay => ?_) fun _ =>
      (Proc.takes_pure fun _ _ => trivial).mono (Nat.zero_le _) (fun _ h => h) fun _ _ h => h
    refine (Proc.Takes.bind (m := 1) (n := fuel + 2) (Q := fun _ c => 0 < fuel ∧
      2 ≤ c.failedCompactions candidate.planningCycleKey + fuel) (takes_call ?_) fun compact => .ite (fun _ => ?_) fun _ => ?_).mono
        (by omega) (fun _ h => h) fun _ _ h => h
    · rintro w c ⟨⟨-, hfuel⟩, hc⟩
      simp only [hmay.2, Controller.mayCompact, decide_eq_true_eq] at hc
      rw [failedCompactions_called]
      omega
    · refine (Proc.Takes.bind (m := 0) (n := 2) (Q := fun _ _ => True) (Proc.takes_change fun _ _ => trivial) fun _ =>
        Proc.Takes.bind (m := 2) (n := 0) (takes_replanDecision _) fun _ => Proc.takes_pure fun _ _ => trivial).mono
          (by omega) (fun _ h => h) fun _ _ h => h
    · refine (Proc.Takes.bind (m := 0) (Proc.takes_change ?_) fun _ => ih).mono (by omega) (fun _ h => h) fun _ _ h => h
      rintro c ⟨hpos, hfuel⟩
      rw [failedCompactions_compactionFailed, if_pos rfl]
      omega

theorem takes_withoutCompaction {P : Controller → Prop} (snapshot : ContextSnapshot) (capabilities : ContextCapabilities) :
    Proc.Takes 2 P (withoutCompaction half candidate snapshot capabilities) fun _ _ => True := by
  have hnone : ∀ {P : Controller → Prop} {decision : ContextDecision},
      Proc.Takes 2 P (pure decision : ContextM ContextDecision) fun _ _ => True :=
    (Proc.takes_pure fun _ _ => trivial).mono (Nat.zero_le 2) (fun _ h => h) fun _ _ h => h
  unfold withoutCompaction
  refine .ite (fun _ => hnone) fun _ => Proc.Takes.look fun rollovers => .ite (fun _ => ?_) fun _ => hnone
  refine Proc.Takes.bind (m := 0) (Q := fun _ _ => True) (Proc.takes_change fun _ _ => trivial) fun _ =>
    Proc.Takes.bind (m := 1) (n := 1) (Q := fun _ _ => True) (takes_call fun _ _ _ => trivial) fun rolled =>
      .ite (fun _ => ?_) fun _ => ?_
  · exact takes_getContextSnapshot.bind (n := 0) fun _ => Proc.takes_pure fun _ _ => trivial
  · exact (Proc.takes_pure fun _ _ => trivial).mono (Nat.zero_le 1) (fun _ h => h) fun _ _ h => h

/-- A decision ends after nine calls at the most. -/
theorem takes_decide {P : Controller → Prop} : Proc.Takes 9 P (decide half callback candidate) fun _ _ => True := by
  refine Proc.Takes.bind (m := 1) (n := 8) takes_getContextSnapshot fun snapshot => .ite (fun _ => ?_) fun _ => ?_
  · exact (Proc.takes_pure fun _ _ => trivial).mono (Nat.zero_le 8) (fun _ h => h) fun _ _ h => h
  · refine Proc.Takes.bind (m := 1) (n := 7) (Q := fun _ _ => True) (takes_call fun _ _ _ => trivial) fun capabilities => ?_
    refine Proc.Takes.bind (m := 5) (n := 2) (Q := fun _ _ => True)
      ((takes_compactWhile _ 3).mono (Nat.le_refl 5) (fun _ _ => by omega) fun _ _ h => h) fun compacted => ?_
    cases compacted with
    | some decision => exact (Proc.takes_pure fun _ _ => trivial).mono (Nat.zero_le 2) (fun _ h => h) fun _ _ h => h
    | none => exact takes_withoutCompaction snapshot capabilities

end Ending
end PuffoAgent.Context
