import PuffoAgent.Relational.Table
import PuffoAgent.Text.Python

/-! The cloud bridge client on one connection: the requests that wait for a reply, the
registers in which `_route_frame` finds their futures, and the server's side of the socket. -/
namespace PuffoAgent.Bridge
open Relational Text

/-- The replies without a client ref, each kind with its queue of waiters. -/
inductive Fifo where
  | ackResult
  | spaces
  | invites
  deriving DecidableEq, Repr

/-- The replies with a client ref: `_send_acks` and `_decide_waiters`. -/
inductive Keyed where
  | send
  | decideInvitation
  deriving DecidableEq, Repr

inductive Call where
  | fifo (queue : Fifo)
  | keyed (table : Keyed) (clientRef : String)
  deriving DecidableEq, Repr

/-- The kind of a request. The server answers each kind in order. -/
inductive Lane where
  | fifo (queue : Fifo)
  | keyed (table : Keyed)
  deriving DecidableEq, Repr

def Call.lane : Call → Lane
  | .fifo queue => .fifo queue
  | .keyed table _ => .keyed table

/-- A future. A reply is known by the request it answers; an error reply is the exception
`BridgeError`. -/
inductive Future where
  | pending
  | reply (answers : Nat) (error : Bool)
  | cancelled
  | closed
  deriving DecidableEq, Repr

/-- Where a request is: in `send_json`, in `wait_for`, in `wait_for` with a timeout or a
cancellation on its way, or over, with the reply it was given. -/
inductive Stage where
  | writing
  | waiting
  | interrupted
  | ended (reply : Option Nat)
  deriving DecidableEq, Repr

structure Request where
  call : Call
  stage : Stage
  written : Bool
  future : Future
  deriving DecidableEq, Repr

abbrev Waiters := Table (String × Nat) String Prod.fst

/-- The client and the requests that the server has not answered yet. A request is known by
its place among all requests of the connection. -/
structure Client where
  closed : Bool
  requests : List Request
  queues : Fifo → List Nat
  tables : Keyed → Waiters
  unanswered : Lane → List Nat

def Client.initial : Client := ⟨false, [], fun _ => [], fun _ => .empty, fun _ => []⟩

/-- A future is completed once. -/
def Request.complete (future : Future) (r : Request) : Request :=
  if r.future = .pending then { r with future := future } else r

namespace Client
variable (s : Client)

def modify (i : Nat) (f : Request → Request) : Client := { s with requests := s.requests.modify i f }

def withQueue (queue : Fifo) (waiters : List Nat) : Client :=
  { s with queues := Function.update s.queues queue waiters }

def withTable (table : Keyed) (waiters : Waiters) : Client :=
  { s with tables := Function.update s.tables table waiters }

def withUnanswered (lane : Lane) (ids : List Nat) : Client :=
  { s with unanswered := Function.update s.unanswered lane ids }

/-- The future's place in its register. -/
def register (i : Nat) : Call → Client
  | .fifo queue => s.withQueue queue (s.queues queue ++ [i])
  | .keyed table clientRef => s.withTable table ((s.tables table).assign (clientRef, i))

/-- `_require_ws`, the future, its registration and the call of `send_json`. -/
def request (call : Call) : Client :=
  if s.closed then s
  else
    let i := s.requests.length
    let s := s.register i call
    let s := s.withUnanswered call.lane (s.unanswered call.lane ++ [i])
    { s with requests := s.requests ++ [⟨call, .writing, false, .pending⟩] }

/-- `send_send`. -/
def sendSend (clientRef : Option String) (hex : String) : Client :=
  match clientRef with
  | some clientRef => if strip clientRef = "" then s else s.request (.keyed .send clientRef)
  | none => s.request (.keyed .send ("r_" ++ hex))

/-- `send_ack`. -/
def sendAck : Client := s.request (.fifo .ackResult)

/-- `send_list_spaces`. -/
def sendListSpaces : Client := s.request (.fifo .spaces)

/-- `send_list_invites`. -/
def sendListInvites : Client := s.request (.fifo .invites)

/-- `send_decide_invitation`. -/
def sendDecideInvitation (invitationEventId decision clientRef : String) : Client :=
  if invitationEventId = "" then s
  else if decision ≠ "accept" ∧ decision ≠ "reject" then s
  else if strip clientRef = "" then s
  else s.request (.keyed .decideInvitation clientRef)

def isWritten (i : Nat) : Bool := s.requests[i]?.any (·.written)

/-- The socket hands the oldest frame of a kind to the server. -/
def transmit (lane : Lane) : Client :=
  match (s.unanswered lane).find? (fun i => !s.isWritten i) with
  | some i => s.modify i fun r => { r with written := true }
  | none => s

/-- `send_json` raises or is cancelled, before or after the frame went out. -/
def abortWrite (i : Nat) : Client :=
  match s.requests[i]? with
  | some r =>
    if r.stage = .writing then
      let s := s.modify i fun r => { r with stage := .ended none }
      if r.written then s
      else s.withUnanswered r.call.lane ((s.unanswered r.call.lane).filter (· ≠ i))
    else s
  | none => s

/-- `send_json` returns and `wait_for` begins. -/
def endWrite (i : Nat) : Client :=
  match s.requests[i]? with
  | some r => if r.stage = .writing ∧ r.written then s.modify i fun r => { r with stage := .waiting } else s
  | none => s

/-- The timeout of `wait_for`, or a cancellation of its caller. -/
def interrupt (i : Nat) : Client :=
  match s.requests[i]? with
  | some r =>
    if r.stage = .waiting then s.modify i fun r => { r.complete .cancelled with stage := .interrupted } else s
  | none => s

/-- `_discard_waiter`. -/
def discardWaiter (queue : Fifo) (i : Nat) : Client := s.withQueue queue ((s.queues queue).filter (· ≠ i))

/-- `pop(client_ref, None)`. -/
def popWaiter (table : Keyed) (clientRef : String) : Client :=
  s.withTable table ((s.tables table).delete (·.1 = clientRef))

/-- The `except` of the requests without a client ref and the `finally` of the others. -/
def cleanUp (i : Nat) (interrupted : Bool) : Call → Client
  | .fifo queue => if interrupted then s.discardWaiter queue i else s
  | .keyed table clientRef => s.popWaiter table clientRef

/-- The request is over. -/
def finish (i : Nat) (r : Request) (reply : Option Nat) : Client :=
  (s.cleanUp i (r.stage = .interrupted) r.call).modify i fun r => { r with stage := .ended reply }

/-- The task that awaits the future runs again. -/
def resume (i : Nat) : Client :=
  match s.requests[i]? with
  | some r =>
    match r.stage, r.future with
    | .waiting, .reply answers _ => s.finish i r (some answers)
    | .waiting, .cancelled | .waiting, .closed => s.finish i r none
    | .interrupted, _ => s.finish i r none
    | _, _ => s
  | none => s

end Client

inductive FrameKind where
  | ping
  | ack
  | ackResult
  | spaces
  | invites
  | decideInvitationResult
  | error
  | other
  deriving DecidableEq, Repr

structure Frame where
  kind : FrameKind
  clientRef : Option String
  deriving DecidableEq, Repr

/-- The reply to a request. -/
def replyFrame (error : Bool) : Call → Frame
  | .fifo .ackResult => ⟨.ackResult, none⟩
  | .fifo .spaces => ⟨.spaces, none⟩
  | .fifo .invites => ⟨.invites, none⟩
  | .keyed .send clientRef => ⟨if error then .error else .ack, some clientRef⟩
  | .keyed .decideInvitation clientRef => ⟨if error then .error else .decideInvitationResult, some clientRef⟩

namespace Client
variable (s : Client)

/-- The waiter at the head of a queue. -/
def routeFifo (queue : Fifo) (future : Future) : Client :=
  match s.queues queue with
  | [] => s
  | i :: waiters => (s.withQueue queue waiters).modify i (.complete future)

/-- The waiter under a client ref, if there is one. -/
def routeKeyed (table : Keyed) (clientRef : Option String) (future : Future) : Option Client :=
  match clientRef with
  | none => none
  | some clientRef =>
    if clientRef = "" then none
    else match (s.tables table).get? clientRef with
      | none => none
      | some waiter => some ((s.popWaiter table clientRef).modify waiter.2 (.complete future))

/-- `_route_frame`, and whether the frame was consumed. -/
def routeFrame (frame : Frame) (answers : Nat) : Client × Bool :=
  match frame.kind with
  | .ping => (s, true)
  | .ack => ((s.routeKeyed .send frame.clientRef (.reply answers false)).getD s, true)
  | .ackResult => (s.routeFifo .ackResult (.reply answers false), true)
  | .spaces => (s.routeFifo .spaces (.reply answers false), true)
  | .invites => (s.routeFifo .invites (.reply answers false), true)
  | .decideInvitationResult =>
    ((s.routeKeyed .decideInvitation frame.clientRef (.reply answers false)).getD s, true)
  | .error =>
    match s.routeKeyed .send frame.clientRef (.reply answers true) with
    | some s => (s, true)
    | none =>
      match s.routeKeyed .decideInvitation frame.clientRef (.reply answers true) with
      | some s => (s, true)
      | none => (s, false)
  | .other => (s, false)

/-- The reply to the oldest request of a kind arrives, once the server has the request. -/
def answer (lane : Lane) (error : Bool) : Client :=
  match s.unanswered lane with
  | [] => s
  | i :: rest =>
    match s.requests[i]? with
    | some r =>
      if r.written ∧ !s.closed then
        ((s.withUnanswered lane rest).routeFrame (replyFrame error r.call) i).1
      else s
    | none => s

/-- The future stands in one of the registers. -/
def isWaiter (i : Nat) : Bool :=
  [Fifo.ackResult, .spaces, .invites].any (fun queue => i ∈ s.queues queue) ||
    [Keyed.send, .decideInvitation].any fun table => (s.tables table).rows.any (·.2 = i)

/-- `close`, once the socket is closed. -/
def close : Client where
  closed := true
  requests := s.requests.mapIdx fun i r => if s.isWaiter i then r.complete .closed else r
  queues _ := []
  tables _ := .empty
  unanswered := s.unanswered

end Client

/-- What befalls the client: calls of its requests, what becomes of their writes and waits,
replies and other frames, and its end. -/
inductive Event where
  | sendSend (clientRef : Option String) (hex : String)
  | sendAck
  | sendListSpaces
  | sendListInvites
  | sendDecideInvitation (invitationEventId decision clientRef : String)
  | transmit (lane : Lane)
  | abortWrite (i : Nat)
  | endWrite (i : Nat)
  | interrupt (i : Nat)
  | resume (i : Nat)
  | answer (lane : Lane) (error : Bool)
  | keepalive
  | message
  | close
  deriving DecidableEq, Repr

def step (s : Client) : Event → Client
  | .sendSend clientRef hex => s.sendSend clientRef hex
  | .sendAck => s.sendAck
  | .sendListSpaces => s.sendListSpaces
  | .sendListInvites => s.sendListInvites
  | .sendDecideInvitation invitationEventId decision clientRef =>
    s.sendDecideInvitation invitationEventId decision clientRef
  | .transmit lane => s.transmit lane
  | .abortWrite i => s.abortWrite i
  | .endWrite i => s.endWrite i
  | .interrupt i => s.interrupt i
  | .resume i => s.resume i
  | .answer lane error => s.answer lane error
  | .keepalive => (s.routeFrame ⟨.ping, none⟩ 0).1
  | .message => (s.routeFrame ⟨.other, none⟩ 0).1
  | .close => s.close

end PuffoAgent.Bridge
