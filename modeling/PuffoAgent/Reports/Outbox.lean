import PuffoAgent.Relational.Table
import PuffoAgent.Text.Python
import Mathlib.Data.List.Sort
import Mathlib.Data.String.Basic

/-! The outbox of processing reports, one row for each run, and the dispatcher that uploads it. An
upload works on the rows it selected, while results keep coming in. -/
namespace PuffoAgent.Reports
open Relational Text

/-- What is reported of a run. -/
structure RunResult where
  runId : String
  messageId : String
  succeeded : Bool
  errorText : Option String
  deriving DecidableEq, Repr

structure ProcessingReport extends RunResult where
  createdAtMs : Int
  retryCount : Nat := 0
  nextAttemptAtMs : Int
  isolated : Bool := false
  deriving DecidableEq, Repr

/-- `stored_version`. -/
def ProcessingReport.storedVersion (r : ProcessingReport) : RunResult × Int := (r.toRunResult, r.createdAtMs)

abbrev ReportOutbox := Table ProcessingReport String (·.runId)

def batchSize : Nat := 50

def retentionMs : Int := 7 * 24 * 60 * 60 * 1000

/-- `PROCESSING_REPORT_RETRY_DELAYS_MS`, and the parked one after them. -/
def retryDelayMs : Nat → Int
  | 0 => 60000
  | 1 => 300000
  | 2 => 600000
  | _ => 60 * 60 * 1000

section Normalize
variable (str : Json → String)

inductive ReportError where
  | missing
  | value (message : String)
  deriving DecidableEq, Repr

/-- `_normalize_report`. -/
def normalizeReport (value : List (String × Json)) : Except ReportError RunResult :=
  let member key := (Json.obj value).member key
  match member "run_id", member "message_id", member "succeeded" with
  | some runId, some messageId, some succeeded =>
    match runId with
    | .str runId =>
      if ¬ (1 ≤ runId.length ∧ runId.length ≤ 1024) then .error (.value "processing run_id must be 1-1024 characters")
      else match messageId with
        | .str messageId =>
          if messageId = "" then .error (.value "processing report ids must be non-empty")
          else match succeeded with
            | .bool succeeded => .ok ⟨runId, messageId, succeeded, match member "error_text" with
                | none => none
                | some .null => none
                | some (.str text) => some (String.ofList (text.toList.take 1024))
                | some v => some (String.ofList ((str v).toList.take 1024))⟩
            | _ => .error (.value "processing report succeeded must be a boolean")
        | _ => .error (.value "processing report ids must be non-empty")
    | _ => .error (.value "processing run_id must be 1-1024 characters")
  | _, _, _ => .error .missing

end Normalize

namespace ReportOutbox

/-- The upsert of one result. -/
def upsert (nowMs : Int) (t : ReportOutbox) (v : RunResult) : ReportOutbox :=
  match t.get? v.runId with
  | none => t.put { v with createdAtMs := nowMs, nextAttemptAtMs := nowMs }
  | some row =>
    if row.messageId = v.messageId ∧ (row.succeeded ≠ v.succeeded ∨ row.errorText ≠ v.errorText) then
      t.put { v with createdAtMs := nowMs, nextAttemptAtMs := nowMs }
    else t

/-- The first run that is given a second, different result. -/
def firstConflict (seen : List RunResult) : List RunResult → Option String
  | [] => none
  | v :: vs => if seen.any fun w => w.runId = v.runId ∧ w ≠ v then some v.runId else firstConflict (v :: seen) vs

/-- The transaction of `enqueue_processing_reports`; `none` is its rollback. -/
def enqueueAll (nowMs : Int) (t : ReportOutbox) (values : List RunResult) : Option ReportOutbox :=
  let after := values.foldl (upsert nowMs) t
  if values.all fun v => (after.get? v.runId).any (·.toRunResult = v) then some after else none

/-- `enqueue_processing_reports`. -/
def enqueue (str : Json → String) (nowMs : Int) (t : ReportOutbox) (reports : List (List (String × Json))) :
    Except ReportError (List RunResult) × ReportOutbox :=
  match reports.mapM (normalizeReport str) with
  | .error e => (.error e, t)
  | .ok [] => (.ok [], t)
  | .ok values => match firstConflict [] values with
    | some runId => (.error (.value ("processing run " ++ runId ++ " has conflicting results")), t)
    | none => match enqueueAll nowMs t values with
      | none => (.error (.value "processing run is bound to another result"), t)
      | some after => (.ok values, after)

/-- `_cleanup_processing_reports_unlocked`. -/
def cleanup (nowMs : Int) (t : ReportOutbox) : ReportOutbox := t.delete (·.createdAtMs < nowMs - retentionMs)

/-- `ORDER BY created_at_ms, run_id`. -/
def dueOrder (r q : ProcessingReport) : Prop := r.createdAtMs < q.createdAtMs ∨ (r.createdAtMs = q.createdAtMs ∧ r.runId ≤ q.runId)

instance : DecidableRel dueOrder := fun _ _ => inferInstanceAs (Decidable (_ ∨ _))

def due (nowMs : Int) (forceAll isolated : Bool) (t : ReportOutbox) : List ProcessingReport :=
  (t.select fun r => r.isolated = isolated ∧ (forceAll = true ∨ r.nextAttemptAtMs ≤ nowMs)).insertionSort dueOrder

/-- `due_processing_reports`: an isolated report goes alone. -/
def dueReports (nowMs : Int) (forceAll : Bool) (t : ReportOutbox) : List ProcessingReport :=
  match (t.due nowMs forceAll true).take 1 with
  | [] => (t.due nowMs forceAll false).take batchSize
  | alone => alone

/-- The row is still the one that was selected. -/
def selected (reports : List ProcessingReport) (r : ProcessingReport) : Bool :=
  r.storedVersion ∈ reports.map (·.storedVersion)

/-- `acknowledge_processing_reports`. -/
def acknowledge (t : ReportOutbox) (reports : List ProcessingReport) : ReportOutbox := t.delete (selected reports)

/-- `retry_processing_reports`. -/
def retry (nowMs : Int) (t : ReportOutbox) (reports : List ProcessingReport) : ReportOutbox :=
  t.update (selected reports)
    (fun r => { r with nextAttemptAtMs := nowMs + retryDelayMs r.retryCount, retryCount := r.retryCount + 1 })
    fun _ => rfl

/-- `isolate_processing_reports`. -/
def isolate (nowMs : Int) (t : ReportOutbox) (reports : List ProcessingReport) : ReportOutbox :=
  t.update (selected reports) (fun r => { r with isolated := true, nextAttemptAtMs := nowMs }) fun _ => rfl

end ReportOutbox

/-- What the request came to. -/
inductive Answer where
  | httpError (status : Int)
  | failed
  | response (value : Json)
  | cancelled

section Validate
variable (str : Json → String)

inductive Verdict where
  | accepted
  | refused
  | raised
  deriving DecidableEq, Repr

/-- `str(row.get("run_id", ""))`; `none` is the `AttributeError` of a row that is no dict. -/
def rowRunId : Json → Option String
  | .obj members => some (match (Json.obj members).member "run_id" with
    | none => ""
    | some (.str s) => s
    | some v => str v)
  | _ => none

/-- `_validate_acknowledgement`. -/
def validateAcknowledgement (response : Json) (expected : List String) : Verdict :=
  match response.member "runs" with
  | some (.arr runs) =>
    match runs.mapM (rowRunId str) with
    | none => .raised
    | some acknowledged =>
      if acknowledged.length ≠ expected.length ∨ ¬ (acknowledged ⊆ expected ∧ expected ⊆ acknowledged) then .refused
      else .accepted
  | _ => .refused

end Validate

/-- The uploads are the batches of `flush_once` whose answer is awaited, with the time each began. -/
structure Dispatcher where
  outbox : ReportOutbox := .empty
  uploads : List (Int × List ProcessingReport) := []

inductive Op where
  | enqueue (nowMs : Int) (reports : List (List (String × Json)))
  | flush (nowMs : Int) (forceAll : Bool)
  | answer (upload : Nat) (answer : Answer)

namespace Dispatcher
variable (str : Json → String)

/-- `flush_once` up to its request. -/
def flush (nowMs : Int) (forceAll : Bool) (d : Dispatcher) : Dispatcher :=
  let outbox := d.outbox.cleanup nowMs
  match outbox.dueReports nowMs forceAll with
  | [] => { d with outbox := outbox }
  | reports => { outbox := outbox, uploads := d.uploads ++ [(nowMs, reports)] }

def retriable (status : Int) : Bool := status ∈ [401, 408, 425, 429] ∨ 500 ≤ status

/-- The rest of `_send`. -/
def settle (nowMs : Int) (reports : List ProcessingReport) (outbox : ReportOutbox) : Answer → ReportOutbox
  | .httpError status =>
    if retriable status then outbox.retry nowMs reports
    else match reports with
      | [report] => outbox.acknowledge [report]
      | reports => outbox.isolate nowMs reports
  | .failed => outbox.retry nowMs reports
  | .response value => match validateAcknowledgement str value (reports.map (·.runId)) with
    | .accepted => outbox.acknowledge reports
    | .refused => outbox.retry nowMs reports
    | .raised => outbox
  | .cancelled => outbox

def step (d : Dispatcher) : Op → Dispatcher
  | .enqueue nowMs reports => { d with outbox := (d.outbox.enqueue str nowMs reports).2 }
  | .flush nowMs forceAll => d.flush nowMs forceAll
  | .answer upload answer => match d.uploads[upload]? with
    | none => d
    | some (nowMs, reports) =>
      { outbox := settle str nowMs reports d.outbox answer, uploads := d.uploads.eraseIdx upload }

end Dispatcher
end PuffoAgent.Reports
