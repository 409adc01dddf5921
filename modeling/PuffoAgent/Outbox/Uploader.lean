import PuffoAgent.Outbox.Queue
import PuffoAgent.Machine.Run

/-! The serial uploader over the outbox. An attempt that reached the network is in flight until its
response arrives, and events are enqueued meanwhile. -/
namespace PuffoAgent.Outbox
open Machine Text

/-- The body of a response, as far as it can be had. -/
inductive Body where
  | undecodable
  | text (s : String)
  | value (v : Json)

/-- What the transport gave; a status that is no number is `none`. -/
inductive RawResponse where
  | raised
  | answered (status : Option Int) (body : Body)

inductive Response where
  | failed
  | malformed (status : Option Int)
  | decoded (status : Int) (payload : List (String × Json))

/-- `_decode_response`. -/
def decodeResponse : RawResponse → Response
  | .raised => .failed
  | .answered status body =>
    let payload := match body with
      | .undecodable => none
      | .text s => Json.loads s
      | .value v => some v
    match payload, status with
    | some (.obj members), some status => .decoded status members
    | some (.obj _), none => .failed
    | _, status => .malformed status

structure UploadResult where
  state : String
  count : Nat := 0
  errorCode : String := ""
  deriving DecidableEq, Repr

structure Budget where
  batchRows : Nat := 50
  batchBytes : Nat := 256 * 1024

/-- The outbox and its uploader. `inflight` is the batch whose response is awaited. -/
structure Uploader where
  outbox : RuntimeEventOutbox := .empty
  isolateHead : Bool := false
  degradedError : String := ""
  inflight : Option (List OutboxRow) := none

def appendBody (rows : List OutboxRow) : String := "\x7b\"events\":[" ++ ",".intercalate (rows.map (·.eventJson)) ++ "]\x7d"

namespace Uploader

def retry (u : Uploader) (rows : List OutboxRow) (errorCode : String) : Uploader × UploadResult :=
  ({ u with outbox := u.outbox.incrementRetries (rows.map (·.sequence)) }, ⟨"retry", 0, errorCode⟩)

def degrade (u : Uploader) (errorCode : String) : Uploader × UploadResult :=
  ({ u with degradedError := errorCode }, ⟨"degraded", 0, errorCode⟩)

/-- `_reject_acknowledgement`. -/
def rejectAcknowledgement (u : Uploader) (rows : List OutboxRow) (status : Option Int) : Uploader × UploadResult :=
  if status.any fun status => 200 ≤ status ∧ status < 300 then u.degrade "malformed_response"
  else u.retry rows "malformed_response"

/-- `_isolate_or_discard`. -/
def isolateOrDiscard (u : Uploader) (rows : List OutboxRow) (errorCode : String) : Uploader × UploadResult :=
  match rows with
  | [head] => ({ u with degradedError := errorCode, outbox := u.outbox.discard head, isolateHead := false },
      ⟨"discarded", 0, errorCode⟩)
  | _ => ({ u with degradedError := errorCode, isolateHead := true }, ⟨"retry", 0, errorCode⟩)

/-- `upload_once` up to the call of the transport. -/
def attempt (budget : Budget) (u : Uploader) : Uploader × UploadResult :=
  match u.outbox.takePrefix (if u.isolateHead then 1 else budget.batchRows) budget.batchBytes with
  | [] => (u, ⟨"idle", 0, ""⟩)
  | head :: rows =>
    if budget.batchBytes < byteLen (appendBody (head :: rows)) then
      ({ u with degradedError := "body_too_large", outbox := u.outbox.discard head }, ⟨"discarded", 0, "body_too_large"⟩)
    else ({ u with inflight := some (head :: rows) }, ⟨"awaiting", 0, ""⟩)

section Answer
variable (str : Json → String)

/-- `str(value)`. -/
def strOf : Json → String
  | .str s => s
  | v => str v

/-- `[str(item["event_id"]) for item in payload["accepted"]]`. -/
def acceptedIds (payload : List (String × Json)) : Option (List String) :=
  match field "accepted" payload with
  | .arr items => items.mapM fun item => (item.member "event_id").map (strOf str)
  | .str s => if s = "" then some [] else none
  | .obj [] => some []
  | _ => none

def degradedChannel : List Int := [401, 403, 404, 405]

/-- The rest of `upload_once`, on a decoded response. -/
def settle (u : Uploader) (rows : List OutboxRow) (status : Int) (payload : List (String × Json)) : Uploader × UploadResult :=
  let httpError := "http_" ++ toString status
  if status = 429 ∨ 500 ≤ status then u.retry rows httpError
  else if status ∈ degradedChannel then u.degrade httpError
  else if status < 200 ∨ 300 ≤ status then u.isolateOrDiscard rows httpError
  else match acceptedIds str payload with
    | none => u.rejectAcknowledgement rows status
    | some ids =>
      if ids.length ≠ rows.length then u.rejectAcknowledgement rows status
      else match u.outbox.acknowledge rows ids with
        | none => u.rejectAcknowledgement rows status
        | some outbox => ({ u with outbox := outbox, degradedError := "", isolateHead := false },
            ⟨"uploaded", rows.length, ""⟩)

/-- The response to the batch in flight. -/
def respond (u : Uploader) (rows : List OutboxRow) (raw : RawResponse) : Uploader × UploadResult :=
  let u := { u with inflight := none }
  match decodeResponse raw with
  | .failed => u.retry rows "transport"
  | .malformed status => u.rejectAcknowledgement rows status
  | .decoded status payload => u.settle str rows status payload

end Answer
end Uploader

/-- What can happen to the outbox. A response or a cancellation reaches the attempt in flight. -/
inductive Op where
  | enqueue (event : RuntimeEvent) (terminal : Option Bool)
  | attempt
  | respond (raw : RawResponse)
  | cancelled
  | restart

namespace Uploader
variable (str : Json → String) (limits : Limits) (budget : Budget)

def step (u : Uploader) : Op → Uploader × UploadResult
  | .enqueue event terminal => ({ u with outbox := (u.outbox.enqueue limits event terminal).2 }, ⟨"", 0, ""⟩)
  | .attempt => if u.inflight.isSome then (u, ⟨"", 0, ""⟩) else u.attempt budget
  | .respond raw => match u.inflight with
    | none => (u, ⟨"", 0, ""⟩)
    | some rows => u.respond str rows raw
  | .cancelled => ({ u with inflight := none }, ⟨"", 0, ""⟩)
  | .restart => ({ outbox := u.outbox.reopen str }, ⟨"", 0, ""⟩)

end Uploader
end PuffoAgent.Outbox
