import PuffoAgent.Credentials.Filed
import PuffoAgent.Credentials.Ledger
import PuffoAgent.Text.Utf8
import Mathlib.Logic.Function.Basic

/-! Acting on filed replies. Several passes over the same messages are suspended at the server
in any order, and a process can die in the middle of one. -/
namespace PuffoAgent.Credentials
open Relational Text

section Reader

structure HeldCredential where
  id : String
  type : String
  index : Nat
  version : Int
  expireAt : Option Int
  value : List UInt8

/-- `_expired`. -/
def HeldCredential.expired (h : HeldCredential) (now : Int) : Bool := h.expireAt.any (· ≤ now)

/-- The memory of `AgentCredentials` and of `CloudAgentCredentials`. -/
structure CredentialReader where
  held : Table HeldCredential String (·.id)
  generation : Nat

/-- What comes of one request to the server: 403, 404 or 410; an error, or a response that does not
open as what was asked for; or the credential asked for. -/
inductive FetchAnswer
  | gone
  | raises (name : String)
  | opened (version : Int) (expireAt : Option Int) (value : List UInt8)

namespace CredentialReader

/-- `_invalidate`, `_drop` and `forget` of one credential. -/
def forget (c : CredentialReader) (type : String) (index : Nat) : CredentialReader :=
  ⟨c.held.delete fun h => h.type = type ∧ h.index = index, c.generation + 1⟩

/-- `get` from the answer on. The cache held nothing when it asked, at the given generation. -/
def received (credentialId : String → Nat → String) (c : CredentialReader) (type : String) (index generation : Nat)
    (now : Int) : FetchAnswer → CredentialReader × Except String (Option HeldCredential)
  | .gone => (c.forget type index, .ok none)
  | .raises name => (c, .error name)
  | .opened version expireAt value =>
    let held := ⟨credentialId type index, type, index, version, expireAt, value⟩
    if generation ≠ c.generation ∨ held.expired now = true then (c, .ok none)
    else match c.held.get? held.id with
      | some current =>
        if held.version < current.version then (c, .ok (if current.expired now then none else some current))
        else ({ c with held := c.held.put held }, .ok (some held))
      | none => ({ c with held := c.held.put held }, .ok (some held))

end CredentialReader
end Reader

section Placement

/-- An entry of `plan_credentials.json`. -/
structure StoredCredential where
  key : String
  type : String
  index : Nat
  version : Int
  value : String
  fingerprint : String
  placedAt : Int
  label : String
  exported : Bool

abbrev CredentialStore := Table StoredCredential String (·.key)

def heldPrefix : String := "held:"

/-- The store key of a credential. -/
def storeKey (type : String) (index : Nat) (aliasName : String) : String :=
  if type ≠ typeCustomized then type
  else if isAlias aliasName then "alias:" ++ aliasName
  else heldPrefix ++ type ++ ":" ++ toString index

/-- `place`. The write may fail with an error of its own. -/
def place (fingerprint : List UInt8 → String) (store : CredentialStore) (held : HeldCredential) (aliasName : String)
    (now : Int) (fault : Option String) : Except String CredentialStore :=
  match decodeStrict held.value, fault with
  | none, _ => .error "UnicodeDecodeError"
  | some _, some name => .error name
  | some value, none => .ok <| store.put {
      key := storeKey held.type held.index aliasName
      type := held.type
      index := held.index
      version := held.version
      value := value
      fingerprint := fingerprint held.value
      placedAt := now
      label := aliasName
      exported := ¬ startsWith (storeKey held.type held.index aliasName) heldPrefix }

end Placement

section Passes

/-- What the replies are read from of a stored message. -/
structure Row where
  envelopeKind : String
  senderSlug : String
  content : Json

structure Reply where
  row : Row
  filed : Filed

/-- Where a pass stands, with the items still to be scanned; an item of another type than a row
is none. A pass is suspended at `listing` and `fetching` only. -/
inductive Location
  | scanning (items : List (Option Row))
  | claimed (reply : Reply) (items : List (Option Row))
  | listing (reply : Reply) (items : List (Option Row))
  | fetching (reply : Reply) (items : List (Option Row)) (generation : Nat)
  | placing (reply : Reply) (items : List (Option Row)) (held : HeldCredential)
  | settling (reply : Reply) (items : List (Option Row)) (held : HeldCredential)

def Location.suspended : Location → Bool
  | .listing .. | .fetching .. => true
  | _ => false

/-- The reply a pass has claimed the request of. -/
def Location.reply : Location → Option Reply
  | .scanning _ => none
  | .claimed reply _ | .listing reply _ | .fetching reply _ _ | .placing reply _ _ | .settling reply _ _ => some reply

/-- What the server listed and what was placed. -/
inductive Event
  | listed (type : String) (indices : List Int)
  | placed (reply : Reply) (held : HeldCredential)

/-- `held` of a reader: an error, the rows, or rows whose indices are no keys of a set. -/
inductive ListAnswer
  | raises (name : String)
  | rows (indices : List Int)
  | unhashable

/-- The process and its files. The pass that runs is the only one that can take a step; `log`
has the latest event first. -/
structure Daemon where
  ledger : RequestLedger
  store : CredentialStore
  reader : Option CredentialReader
  passes : Nat → Option Location
  running : Option Nat
  reloads : List String
  log : List Event

namespace Daemon

def goto (d : Daemon) (k : Nat) (loc : Location) : Daemon :=
  { d with passes := Function.update d.passes k (some loc), running := if loc.suspended then none else some k }

def leave (d : Daemon) (k : Nat) : Daemon := { d with passes := Function.update d.passes k none, running := none }

/-- Settle the request of a reply as failed and go on with the next item. -/
def fail (d : Daemon) (k : Nat) (reply : Reply) (items : List (Option Row)) (detail : String) : Daemon :=
  { d with ledger := d.ledger.settle reply.filed.requestId false none none detail }.goto k (.scanning items)

section Steps
variable (owner : String)

/-- One item of the loop of `handle_filed_replies`, up to the claim. -/
def scan (d : Daemon) (k : Nat) : List (Option Row) → Daemon
  | [] => d.leave k
  | none :: items => d.goto k (.scanning items)
  | some row :: items =>
    if row.envelopeKind ≠ "dm" ∨ row.senderSlug ≠ owner then d.goto k (.scanning items)
    else match parseFiledReply (messageText row.content) with
      | .skipped => d.goto k (.scanning items)
      | .raises => d.leave k
      | .reply filed =>
        match d.ledger.claim filed.requestId with
        | (_, false) => d.goto k (.scanning items)
        | (ledger, true) => { d with ledger := ledger }.goto k (.claimed ⟨row, filed⟩ items)

/-- The checks between the claim and the first question to the server. -/
def check (d : Daemon) (k : Nat) (reply : Reply) (items : List (Option Row)) : Daemon :=
  match d.ledger.get reply.filed.requestId with
  | none => d.leave k
  | some req =>
    if req.type ≠ reply.filed.type then d.fail k reply items "filed type differs from the requested type"
    else if d.reader.isNone then d.fail k reply items "this agent cannot read credentials"
    else d.goto k (.listing reply items)

/-- `_confirm_and_fetch` from the list to the fetch. -/
def confirm (d : Daemon) (k : Nat) (reply : Reply) (items : List (Option Row)) : ListAnswer → Daemon
  | .raises name => d.fail k reply items ("list failed: " ++ name)
  | .unhashable => d.leave k
  | .rows indices =>
    let d := { d with log := .listed reply.filed.type indices :: d.log }
    if (reply.filed.index : Int) ∉ indices then d.fail k reply items "not listed for this agent by the server"
    else
      let reader := d.reader.map (·.forget reply.filed.type reply.filed.index)
      { d with reader := reader }.goto k (.fetching reply items (reader.elim 0 (·.generation)))

variable (credentialId : String → Nat → String)

/-- The rest of `_confirm_and_fetch`, and what is made of its result. -/
def fetch (d : Daemon) (k : Nat) (reply : Reply) (items : List (Option Row)) (generation : Nat) (now : Int)
    (answer : FetchAnswer) : Daemon :=
  match d.reader with
  | none => d.leave k
  | some reader =>
    let (reader, result) := reader.received credentialId reply.filed.type reply.filed.index generation now answer
    let d := { d with reader := some reader }
    match result with
    | .error name => d.fail k reply items ("fetch failed: " ++ name)
    | .ok none => d.fail k reply items "not distributed to this agent"
    | .ok (some held) =>
      if held.version < reply.filed.version then
        { d with ledger := d.ledger.release reply.filed.requestId }.goto k (.scanning items)
      else d.goto k (.placing reply items held)

variable (fingerprint : List UInt8 → String)

/-- The placement of `_place_and_settle`. -/
def placeValue (d : Daemon) (k : Nat) (reply : Reply) (items : List (Option Row)) (held : HeldCredential) (now : Int)
    (fault : Option String) : Daemon :=
  match place fingerprint d.store held ((d.ledger.get reply.filed.requestId).elim "" (·.aliasName)) now fault with
  | .error name => d.fail k reply items ("placement failed: " ++ name)
  | .ok store => { d with store := store, log := .placed reply held :: d.log }.goto k (.settling reply items held)

/-- The rest of `_place_and_settle`. -/
def settlePlaced (d : Daemon) (k : Nat) (reply : Reply) (items : List (Option Row)) (held : HeldCredential)
    (reload : Bool) : Daemon :=
  { d with
    ledger := d.ledger.settle reply.filed.requestId true (some held.index) (some held.version) ""
    reloads := if reload then d.reloads ++ ["credential placed: " ++ held.type] else d.reloads }.goto k (.scanning items)

/-- A new process on the same files: `recover_in_flight` runs before any pass. -/
def restart (d : Daemon) : Daemon :=
  { d with
    ledger := (RequestLedger.load d.ledger.file).recoverInFlight
    reader := d.reader.map fun _ => ⟨.empty, 0⟩
    passes := fun _ => none
    running := none }

end Steps

/-- The steps of one pass. -/
inductive PassStep
  | scan
  | check
  | listed (answer : ListAnswer)
  | fetched (now : Int) (answer : FetchAnswer)
  | place (now : Int) (fault : Option String)
  | settle (reload : Bool)
  | cancel

/-- Whether the step takes a pass up again that is suspended. -/
def PassStep.resumes : PassStep → Bool
  | .listed _ | .fetched .. | .cancel => true
  | _ => false

/-- What can happen. `read` is another user of the reader, and `undelivered` the tool whose
request could not be sent. -/
inductive Step
  | issue (uuid type reason aliasName : String) (now : Int)
  | undelivered (requestId : String)
  | read (type : String) (index generation : Nat) (now : Int) (answer : FetchAnswer)
  | begin (k : Nat) (items : List (Option Row))
  | pass (k : Nat) (s : PassStep)
  | restart

variable (owner : String) (credentialId : String → Nat → String) (fingerprint : List UInt8 → String)

/-- The step of a pass that fits its location. -/
def advance (d : Daemon) (k : Nat) : PassStep → Location → Option Daemon
  | .scan, .scanning items => some (d.scan owner k items)
  | .check, .claimed reply items => some (d.check k reply items)
  | .listed answer, .listing reply items => some (d.confirm k reply items answer)
  | .fetched now answer, .fetching reply items generation =>
    some (d.fetch credentialId k reply items generation now answer)
  | .place now fault, .placing reply items held => some (d.placeValue fingerprint k reply items held now fault)
  | .settle reload, .settling reply items held => some (d.settlePlaced k reply items held reload)
  | .cancel, .listing _ _ | .cancel, .fetching _ _ _ => some (d.leave k)
  | _, _ => none

/-- A step, if it can be taken: a pass that runs comes first, and a new request draws a new id. -/
def step (d : Daemon) : Step → Option Daemon
  | .restart => some d.restart
  | .issue uuid type reason aliasName now =>
    if d.running.isSome ∨ (d.ledger.get uuid).isSome then none
    else some { d with ledger := d.ledger.issue uuid type reason aliasName now }
  | .undelivered requestId =>
    if d.running.isSome then none
    else some { d with ledger := d.ledger.settle requestId false none none "the request DM could not be sent" }
  | .read type index generation now answer =>
    if d.running.isSome then none
    else some { d with reader := d.reader.map fun c => (c.received credentialId type index generation now answer).1 }
  | .begin k items =>
    if d.running.isSome ∨ (d.passes k).isSome then none
    else if d.ledger.pending.isEmpty then some d
    else some (d.goto k (.scanning items))
  | .pass k s =>
    if d.running = (if s.resumes then none else some k) then
      (d.passes k).bind (d.advance owner credentialId fingerprint k s)
    else none

def run (d : Daemon) (steps : List Step) : Option Daemon := steps.foldlM (step owner credentialId fingerprint) d

/-- A first process on whatever the files hold. -/
def boot (file : Json) (store : CredentialStore) (reads : Bool) : Daemon :=
  ⟨(RequestLedger.load file).recoverInFlight, store, if reads then some ⟨.empty, 0⟩ else none, fun _ => none, none, [], []⟩

end Daemon
end Passes
end PuffoAgent.Credentials
