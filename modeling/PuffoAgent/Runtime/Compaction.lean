import PuffoAgent.Machine.Run
import PuffoAgent.Runtime.Manager

/-! Compactions: what the drivers report of them, and the one future of the manager that every caller waits for. -/
namespace PuffoAgent.Runtime
open Machine Text

/-- `COMPACTION_STARTED`, `COMPACTION_COMPLETED` and `COMPACTION_FAILED`. -/
def compactionStarted : EventKind := .other "compaction.started"

def compactionCompleted : EventKind := .other "compaction.completed"

def compactionFailed : EventKind := .other "compaction.failed"

section Drivers
variable (host : Host) (toInt : Json → Option Int) (classify : String → String)

def isObject : Option Json → Bool
  | some (.obj _) => true
  | _ => false

/-- `_nonnegative_int`, where `toInt` is `int(value)` and has no value where that raises. -/
def nonnegativeInt (value : Option Json) : Int :=
  match value with
  | none | some (.bool _) => 0
  | some value => if value.truthy then max 0 ((toInt value).getD 0) else 0

/-- `_failure_code`. -/
def failureCode (message : Option Json) : String :=
  match message with
  | some (.str message) => if strip message = "" then "provider_error" else classify message
  | _ => "provider_error"

/-- `_compaction_end_data`. -/
def compactionEndData (frame : Json) : Json :=
  let aborted := (frame.member "aborted").any Json.truthy
  let data := [("reason", Json.str (host.text (frame.member "reason"))),
    ("will_retry", .bool ((frame.member "willRetry").any Json.truthy)), ("aborted", .bool aborted)]
  match frame.member "result" with
  | some (.obj result) => .obj (data ++ [("outcome", .str "succeeded"),
      ("tokens_before", .int (nonnegativeInt toInt ((Json.obj result).member "tokensBefore"))),
      ("estimated_tokens_after", .int (nonnegativeInt toInt ((Json.obj result).member "estimatedTokensAfter")))])
  | _ =>
    if aborted then .obj (data ++ [("outcome", .str "cancelled")])
    else .obj (data ++ [("outcome", .str "failed"),
      ("failure_code", .str (failureCode classify (frame.member "errorMessage")))])

/-- What the drivers read of the provider before they report a compaction. -/
inductive DriverFrame
  | pi (frame : Json)
  | codexItem (completed : Bool) (params : Json)
  | claudeSystem (frame : Json)
  | opencode (operationRef : String) (summarized : Except String Unit)

def compactionEvent (driver : String) (kind : EventKind) (data : Json) : DriverEvent :=
  ⟨kind, driver, none, "", "", data, none⟩

/-- The compaction events that a frame is translated to. -/
def compactionEvents : DriverFrame → List DriverEvent
  | .pi frame =>
    if host.text (frame.member "type") = "compaction_start" then
      [compactionEvent "pi" compactionStarted (.obj [("reason", .str (host.text (frame.member "reason")))])]
    else if host.text (frame.member "type") = "compaction_end" then
      [compactionEvent "pi" compactionCompleted (compactionEndData host toInt classify frame)]
    else []
  | .codexItem completed params =>
    if isObject (params.member "item") ∧
        host.text ((params.member "item").bind (·.member "type")) = "contextCompaction" then
      [compactionEvent "codex" (if completed then compactionCompleted else compactionStarted) (.obj [])]
    else []
  | .claudeSystem frame =>
    if host.text (frame.member "subtype") = "status" ∧ host.text (frame.member "status") = "compacting" then
      [compactionEvent "claude-code" compactionStarted (.obj [])]
    else if host.text (frame.member "subtype") = "compact_boundary" then
      [compactionEvent "claude-code" compactionCompleted (.obj [])]
    else []
  | .opencode operationRef summarized =>
    [compactionEvent "opencode" compactionStarted (.obj [("operation_ref", .str operationRef)]),
      match summarized with
      | .ok _ => compactionEvent "opencode" compactionCompleted (.obj [("operation_ref", .str operationRef)])
      | .error diagnostic => compactionEvent "opencode" compactionFailed
          (.obj [("operation_ref", .str operationRef), ("diagnostic", .str diagnostic)])]

end Drivers

structure CompactionResult where
  completed : Bool
  providerSessionId : Option String
  diagnostic : String

/-- A future of the manager, with the event that resolved it. -/
inductive Future
  | pending
  | resolved (report : DriverEvent)
  | failed (reason : String)

/-- What a call of `compact_context` returned or raised, with the event that resolved the future it waited for. -/
structure Returned where
  call : Nat
  result : Except String CompactionResult
  report : Option DriverEvent

structure Compactions where
  closed : Bool := false
  outstanding : Option Nat := none
  futures : Nat → Future := fun _ => .pending
  nextFuture : Nat := 0
  nextCall : Nat := 0
  waiting : List (Nat × Nat) := []
  returned : List Returned := []

/-- How `driver.compact` ends. -/
inductive CompactAnswer
  | raises (e : String)
  | unsupported (diagnostic : String)
  | receipt

inductive CompactionStep
  | call (answer : CompactAnswer)
  | event (native : DriverEvent)
  | fails (reason : String)
  | close
  | timeout (call : Nat) (session : Option String)
  | wake (call : Nat) (session : Option String)

namespace Compactions
variable (host : Host) (waitSeconds : String) (s : Compactions)

def settle (outcome : Future) : Compactions :=
  match s.outstanding with
  | none => s
  | some future =>
    { s with
      outstanding := none
      futures := fun f => if f = future then (match s.futures future with | .pending => outcome | done => done) else s.futures f }

/-- `_resolve_compaction_locked`, for the event that is consumed. -/
def resolveCompaction (native : DriverEvent) : Compactions := s.settle (.resolved native)

/-- `_fail_compaction_locked`. -/
def failCompaction (reason : String) : Compactions := s.settle (.failed reason)

/-- What `_consume_event_locked` does with the outstanding compaction. -/
def consumeEvent (native : DriverEvent) : Compactions :=
  if native.kind = compactionCompleted then s.resolveCompaction native
  else if native.kind = compactionFailed then
    s.failCompaction (let diagnostic := host.text (native.data.member "diagnostic")
      if diagnostic ≠ "" then diagnostic else "provider compaction failed")
  else if native.kind = .runtimeExited then s.failCompaction "runtime exited"
  else s

def returns (call : Nat) (result : Except String CompactionResult) (report : Option DriverEvent) : Compactions :=
  { s with waiting := s.waiting.filter (·.1 ≠ call), returned := s.returned ++ [⟨call, result, report⟩] }

/-- `compact_context`, up to the future that it waits for. -/
def compactContext (answer : CompactAnswer) : Compactions :=
  let called := { s with nextCall := s.nextCall + 1 }
  if s.closed then called.returns s.nextCall (.error "runtime is closed") none
  else match s.outstanding with
    | some future => { called with waiting := s.waiting ++ [(s.nextCall, future)] }
    | none =>
      match answer with
      | .raises e => called.returns s.nextCall (.error e) none
      | .unsupported diagnostic => called.returns s.nextCall (.ok ⟨false, none, diagnostic⟩) none
      | .receipt => { called with
          outstanding := some s.nextFuture
          nextFuture := s.nextFuture + 1
          waiting := s.waiting ++ [(s.nextCall, s.nextFuture)] }

def awaited (call : Nat) : Option Nat := (s.waiting.find? (·.1 = call)).map (·.2)

/-- A waiter whose future is still pending gives up. -/
def timeout (call : Nat) (session : Option String) : Compactions :=
  match s.awaited call with
  | none => s
  | some future =>
    match s.futures future with
    | .pending => s.returns call (.ok ⟨false, session,
        "compaction accepted; no completion event within " ++ waitSeconds ++ "s"⟩) none
    | _ => s

/-- A waiter goes on once its future is done. -/
def wake (call : Nat) (session : Option String) : Compactions :=
  match s.awaited call with
  | none => s
  | some future =>
    match s.futures future with
    | .pending => s
    | .resolved report => s.returns call (.ok ⟨true, session, "compaction completed"⟩) (some report)
    | .failed reason => s.returns call (.ok ⟨false, none, reason⟩) none

def close : Compactions := if s.closed then s else { s with closed := true }.failCompaction "runtime is closed"

def step : CompactionStep → Compactions
  | .call answer => s.compactContext answer
  | .event native => s.consumeEvent host native
  | .fails reason => s.failCompaction reason
  | .close => s.close
  | .timeout call session => s.timeout waitSeconds call session
  | .wake call session => s.wake call session

end Compactions
section Honesty
variable {host : Host} {waitSeconds : String} {s : Compactions}

/-- A completion that does not say that the compaction failed or was cancelled. -/
def reportsSuccess (native : DriverEvent) : Bool :=
  native.kind = compactionCompleted ∧ asText (native.data.member "outcome") ≠ some "failed" ∧
    asText (native.data.member "outcome") ≠ some "cancelled"

/-- A completed compaction is one that the provider reported as such. -/
def Compactions.Honest (s : Compactions) : Prop :=
  ∀ r ∈ s.returned, ∀ result, r.result = .ok result → result.completed = true →
    ∃ report, r.report = some report ∧ reportsSuccess report = true

/-- No completion that reports a failure is consumed while a compaction is outstanding. -/
def Reported (s : Compactions) : CompactionStep → Prop
  | .event native => native.kind = compactionCompleted → s.outstanding.isSome = true → reportsSuccess native = true
  | _ => True

structure Compactions.Inv (s : Compactions) : Prop where
  futures : ∀ f report, s.futures f = .resolved report → reportsSuccess report = true
  honest : s.Honest

theorem Compactions.Inv.settle (h : s.Inv) {outcome : Future}
    (houtcome : s.outstanding.isSome = true → ∀ report, outcome = .resolved report → reportsSuccess report = true) :
    (s.settle outcome).Inv := by
  unfold Compactions.settle
  cases hout : s.outstanding with
  | none => exact h
  | some future =>
    refine ⟨fun f report hf => ?_, h.honest⟩
    dsimp only at hf
    by_cases he : f = future
    · rw [if_pos he] at hf
      cases hfuture : s.futures future with
      | pending =>
        rw [hfuture] at hf
        exact houtcome (by rw [hout]; rfl) report hf
      | resolved report' =>
        rw [hfuture] at hf
        cases hf
        exact h.futures future _ hfuture
      | failed reason =>
        rw [hfuture] at hf
        cases hf
    · rw [if_neg he] at hf
      exact h.futures f report hf

theorem Compactions.Inv.fail (h : s.Inv) (reason : String) : (s.failCompaction reason).Inv :=
  h.settle fun _ report he => by cases he

theorem Compactions.Inv.returns (h : s.Inv) {call : Nat} {result : Except String CompactionResult} {report : Option DriverEvent}
    (hresult : ∀ r, result = .ok r → r.completed = true → ∃ e, report = some e ∧ reportsSuccess e = true) :
    (s.returns call result report).Inv := by
  refine ⟨h.futures, fun r hr => ?_⟩
  rcases List.mem_append.1 hr with hr | hr
  · exact h.honest r hr
  · rw [List.mem_singleton.1 hr]
    exact hresult

theorem Compactions.Inv.consumeEvent (h : s.Inv) {native : DriverEvent}
    (hreported : native.kind = compactionCompleted → s.outstanding.isSome = true → reportsSuccess native = true) :
    (s.consumeEvent host native).Inv := by
  unfold Compactions.consumeEvent
  split
  · rename_i hkind
    refine h.settle fun hsome report he => ?_
    cases he
    exact hreported hkind hsome
  · split
    · exact h.fail _
    · split
      · exact h.fail _
      · exact h

theorem Compactions.Inv.compactContext (h : s.Inv) (answer : CompactAnswer) : (s.compactContext answer).Inv := by
  have hcalled : Compactions.Inv { s with nextCall := s.nextCall + 1 } := ⟨h.futures, h.honest⟩
  unfold Compactions.compactContext
  dsimp only
  split
  · exact hcalled.returns fun _ he => by cases he
  · split
    · exact ⟨h.futures, h.honest⟩
    · split
      · exact hcalled.returns fun _ he => by cases he
      · exact hcalled.returns fun r he hc => by cases he; cases hc
      · exact ⟨h.futures, h.honest⟩

theorem Compactions.Inv.wake (h : s.Inv) (call : Nat) (session : Option String) : (s.wake call session).Inv := by
  unfold Compactions.wake
  split
  · exact h
  · split
    · exact h
    · rename_i report hfuture
      exact h.returns fun _ _ _ => ⟨report, rfl, h.futures _ _ hfuture⟩
    · exact h.returns fun r he hc => by cases he; cases hc

theorem Compactions.Inv.timeout (h : s.Inv) (call : Nat) (session : Option String) : (s.timeout waitSeconds call session).Inv := by
  unfold Compactions.timeout
  split
  · exact h
  · split
    · exact h.returns fun r he hc => by cases he; cases hc
    · exact h

theorem Compactions.Inv.step (h : s.Inv) {op : CompactionStep} (hop : Reported s op) : (s.step host waitSeconds op).Inv := by
  cases op with
  | call answer => exact h.compactContext answer
  | event native => exact h.consumeEvent hop
  | fails reason => exact h.fail reason
  | close =>
    change (s.close).Inv
    unfold Compactions.close
    split
    · exact h
    · exact Compactions.Inv.fail (s := { s with closed := true }) ⟨h.futures, h.honest⟩ _
  | timeout call session => exact h.timeout call session
  | wake call session => exact h.wake call session

end Honesty
section Reports
variable {host : Host} {toInt : Json → Option Int} {classify : String → String}

theorem outcome_compactionEndData (frame : Json) :
    asText ((compactionEndData host toInt classify frame).member "outcome") =
      some (if isObject (frame.member "result") then "succeeded"
        else if (frame.member "aborted").any Json.truthy then "cancelled" else "failed") := by
  unfold compactionEndData
  cases hresult : frame.member "result" with
  | none => cases (frame.member "aborted").any Json.truthy <;> rfl
  | some result =>
    cases result with
    | obj members => rfl
    | _ => cases (frame.member "aborted").any Json.truthy <;> rfl

/-- Every completion that a driver reports is a success, but for the ends of Pi without a result. -/
theorem reportsSuccess_of_driver (frame : DriverFrame) {native : DriverEvent}
    (h : native ∈ compactionEvents host toInt classify frame) (hkind : native.kind = compactionCompleted) :
    reportsSuccess native = true ↔ ∀ piFrame, frame = .pi piFrame → isObject (piFrame.member "result") = true := by
  have hplain : ∀ {driver kind data}, native = compactionEvent driver kind data →
      asText (data.member "outcome") = none → reportsSuccess native = true := by
    rintro driver kind data rfl hdata
    simp only [reportsSuccess, decide_eq_true_eq]
    exact ⟨hkind, by rw [show (compactionEvent driver kind data).data = data from rfl, hdata]; decide⟩
  cases frame with
  | pi piFrame =>
    have hall : (∀ f, DriverFrame.pi piFrame = .pi f → isObject (f.member "result") = true) ↔
        isObject (piFrame.member "result") = true :=
      ⟨fun hf => hf _ rfl, by rintro hf _ ⟨⟩; exact hf⟩
    rw [hall]
    rw [compactionEvents] at h
    split at h
    · rw [List.mem_singleton.1 h] at hkind
      exact absurd hkind (show compactionStarted ≠ compactionCompleted by decide)
    · split at h
      · rw [List.mem_singleton.1 h]
        simp only [reportsSuccess, decide_eq_true_eq, compactionEvent, outcome_compactionEndData]
        cases isObject (piFrame.member "result") with
        | true => simp
        | false => cases (piFrame.member "aborted").any Json.truthy <;> simp
      · cases h
  | codexItem completed params =>
    refine iff_of_true ?_ (by rintro _ ⟨⟩)
    rw [compactionEvents] at h
    split at h
    · exact hplain (List.mem_singleton.1 h) rfl
    · cases h
  | claudeSystem frame =>
    refine iff_of_true ?_ (by rintro _ ⟨⟩)
    rw [compactionEvents] at h
    split at h
    · exact hplain (List.mem_singleton.1 h) rfl
    · split at h
      · exact hplain (List.mem_singleton.1 h) rfl
      · cases h
  | opencode operationRef summarized =>
    refine iff_of_true ?_ (by rintro _ ⟨⟩)
    cases summarized with
    | ok u =>
      rcases List.mem_cons.1 h with h | h
      · exact hplain h rfl
      · exact hplain (List.mem_singleton.1 h) rfl
    | error diagnostic =>
      rcases List.mem_cons.1 h with h | h
      · exact hplain h rfl
      · exact hplain (List.mem_singleton.1 h) rfl

/-- In every run where no completion that reports a failure is consumed while a compaction is outstanding, every completed
result is one that the provider reported; the only such completions are the ends of Pi without a result. -/
theorem compaction_honest (host : Host) (toInt : Json → Option Int) (classify : String → String) (waitSeconds : String)
    (steps : List CompactionStep) (h : Along (Compactions.step host waitSeconds) Reported {} steps) :
    Throughout (Compactions.step host waitSeconds) Compactions.Honest {} steps ∧
      ∀ frame, ∀ native ∈ compactionEvents host toInt classify frame, native.kind = compactionCompleted →
        (reportsSuccess native = true ↔ ∀ piFrame, frame = .pi piFrame → isObject (piFrame.member "result") = true) := by
  have hstart : Compactions.Inv {} := ⟨nofun, nofun⟩
  exact ⟨h.throughout hstart (fun _ _ hop (hs : Compactions.Inv _) => hs.step hop) fun _ (hs : Compactions.Inv _) => hs.honest,
    fun frame _ hn hkind => reportsSuccess_of_driver frame hn hkind⟩

/-- An end of Pi that was aborted. -/
def abortedEnd : Json := .obj [("type", .str "compaction_end"), ("reason", .str "manual"), ("result", .null), ("aborted", .bool true)]

/-- A call, the event of a frame and the wake-up of the caller. -/
def awaitedFrame (frame : Json) : List CompactionStep :=
  [.call .receipt] ++ (compactionEvents asciiHost (fun _ => none) id (.pi frame)).map .event ++ [.wake 0 (some "session_1")]

theorem compaction_honest_succeeded :
    Throughout (Compactions.step asciiHost "120") Compactions.Honest {}
      (awaitedFrame (.obj [("type", .str "compaction_end"), ("result", .obj [("tokensBefore", .int 9)])])) :=
  (compaction_honest asciiHost (fun _ => none) id "120"
    (awaitedFrame (.obj [("type", .str "compaction_end"), ("result", .obj [("tokensBefore", .int 9)])]))
    ⟨trivial, fun _ _ => rfl, trivial, trivial⟩).1

/-- The caller of an aborted compaction is told that it completed. -/
theorem aborted_reported_completed : ∃ native, compactionEvents asciiHost (fun _ => none) id (.pi abortedEnd) = [native] ∧
    asText (native.data.member "outcome") = some "cancelled" ∧
      ¬ Throughout (Compactions.step asciiHost "120") Compactions.Honest {} (awaitedFrame abortedEnd) := by
  refine ⟨_, rfl, rfl, fun h => ?_⟩
  obtain ⟨report, hreport, hsuccess⟩ := h.last _ List.mem_cons_self _ rfl rfl
  cases hreport
  exact absurd hsuccess (by decide)

end Reports
end PuffoAgent.Runtime
