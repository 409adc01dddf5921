import PuffoAgent.Outbox.Migration
import Mathlib.Algebra.GroupWithZero.Nat

/-! The durable outbox of runtime events: capacity, prefixes, and the removals. -/
namespace PuffoAgent.Outbox
open Text

structure OutboxRow where
  sequence : Nat
  eventId : String
  eventType : String
  eventJson : String
  byteCount : Nat
  retryCount : Nat := 0
  deriving DecidableEq, Repr

/-- `len(text.encode("utf-8"))`. -/
def byteLen (text : String) : Nat := text.utf8ByteSize

structure Limits where
  maxRows : Nat := 10000
  maxBytes : Nat := 16 * 1024 * 1024
  terminalReserveRows : Nat := 1
  terminalReserveBytes : Nat := 2048

/-- The `events` table, by sequence. `lastSequence` is what `AUTOINCREMENT` gave out last. -/
structure RuntimeEventOutbox where
  rows : List OutboxRow
  lastSequence : Nat
  ordered : rows.Pairwise (·.sequence < ·.sequence)
  bounded : ∀ r ∈ rows, r.sequence ≤ lastSequence
  distinct : (rows.map (·.eventId)).Nodup
  sized : ∀ r ∈ rows, r.byteCount = byteLen r.eventJson

/-- Whether an event ends its turn, unless the caller says so. -/
def isTerminal (event : RuntimeEvent) (terminal : Option Bool) : Bool := terminal.getD (event.type = "turn.finished")

inductive OutboxError where
  | capacity
  | reused
  | unencodable
  deriving DecidableEq, Repr

namespace RuntimeEventOutbox

def empty : RuntimeEventOutbox := ⟨[], 0, .nil, nofun, .nil, nofun⟩

/-- `DELETE FROM events` where `p`. -/
def delete (o : RuntimeEventOutbox) (p : OutboxRow → Bool) : RuntimeEventOutbox where
  rows := o.rows.filter (¬ p ·)
  lastSequence := o.lastSequence
  ordered := o.ordered.filter _
  bounded r hr := o.bounded r (List.mem_of_mem_filter hr)
  distinct := o.distinct.sublist (List.filter_sublist.map _)
  sized r hr := o.sized r (List.mem_of_mem_filter hr)

/-- A row of the next sequence. -/
def append (o : RuntimeEventOutbox) (eventId eventType eventJson : String) (h : eventId ∉ o.rows.map (·.eventId)) : RuntimeEventOutbox where
  rows := o.rows ++ [⟨o.lastSequence + 1, eventId, eventType, eventJson, byteLen eventJson, 0⟩]
  lastSequence := o.lastSequence + 1
  ordered := by
    refine List.pairwise_append.2 ⟨o.ordered, List.pairwise_singleton _ _, fun r hr q hq => ?_⟩
    rw [List.mem_singleton.1 hq]
    exact Nat.lt_succ_of_le (o.bounded r hr)
  bounded r hr := by
    rcases List.mem_append.1 hr with hr | hr
    · exact Nat.le_succ_of_le (o.bounded r hr)
    · rw [List.mem_singleton.1 hr]
  distinct := by
    rw [List.map_append, List.nodup_append]
    refine ⟨o.distinct, List.pairwise_singleton _ _, fun id hid id' hid' heq => h ?_⟩
    obtain rfl := List.mem_singleton.1 hid'
    exact heq ▸ hid
  sized r hr := by
    rcases List.mem_append.1 hr with hr | hr
    · exact o.sized r hr
    · rw [List.mem_singleton.1 hr]

/-- A pass over the rows that keeps sequence and id of those it keeps. -/
def mapRows (o : RuntimeEventOutbox) (f : OutboxRow → Option OutboxRow)
    (hf : ∀ r q, f r = some q → q.sequence = r.sequence ∧ q.eventId = r.eventId)
    (hsize : ∀ r q, f r = some q → r.byteCount = byteLen r.eventJson → q.byteCount = byteLen q.eventJson) :
    RuntimeEventOutbox where
  rows := o.rows.filterMap f
  lastSequence := o.lastSequence
  ordered := List.pairwise_filterMap.2 <| o.ordered.imp fun hlt q hq q' hq' => by
    rw [(hf _ q hq).1, (hf _ q' hq').1]
    exact hlt
  bounded q hq := by
    obtain ⟨r, hr, hfr⟩ := List.mem_filterMap.1 hq
    rw [(hf r q hfr).1]
    exact o.bounded r hr
  distinct := by
    refine List.pairwise_map.2 (List.pairwise_filterMap.2 ?_)
    refine (List.pairwise_map.1 o.distinct).imp fun hne q hq q' hq' => ?_
    rw [(hf _ q hq).2, (hf _ q' hq').2]
    exact hne
  sized q hq := by
    obtain ⟨r, hr, hfr⟩ := List.mem_filterMap.1 hq
    exact hsize r q hfr (o.sized r hr)

/-- `usage`. -/
def usage (o : RuntimeEventOutbox) : Nat × Nat := (o.rows.length, (o.rows.map (·.byteCount)).sum)

section Capacity
variable (limits : Limits)

/-- `_fits_turn` on the current usage. -/
def canStartTurn (o : RuntimeEventOutbox) (estimatedStartBytes : Nat) : Bool :=
  o.usage.1 + 2 + limits.terminalReserveRows ≤ limits.maxRows ∧
    o.usage.2 + estimatedStartBytes + limits.terminalReserveBytes ≤ limits.maxBytes

/-- `require_turn_capacity`. -/
def requireTurnCapacity (o : RuntimeEventOutbox) (estimatedStartBytes : Nat) : Except OutboxError Unit :=
  if o.canStartTurn limits estimatedStartBytes then .ok () else .error .capacity

def rowLimit (isTerminal : Bool) : Int :=
  limits.maxRows - if isTerminal then 0 else limits.terminalReserveRows

def byteLimit (isTerminal : Bool) : Int :=
  limits.maxBytes - if isTerminal then 0 else limits.terminalReserveBytes

/-- `_insert`. -/
def insert (o : RuntimeEventOutbox) (event : RuntimeEvent) (encoded : String) (isTerminal : Bool) : Except OutboxError Nat × RuntimeEventOutbox :=
  if rowLimit limits isTerminal < o.usage.1 + 1 ∨ byteLimit limits isTerminal < o.usage.2 + byteLen encoded then
    (.error .capacity, o)
  else if h : event.eventId ∈ o.rows.map (·.eventId) then
    match o.rows.find? (·.eventId = event.eventId) with
    | some row => if row.eventJson ≠ encoded then (.error .reused, o) else (.ok row.sequence, o)
    | none => (.error .reused, o)
  else (.ok (o.lastSequence + 1), o.append event.eventId event.type encoded h)

/-- `enqueue`. -/
def enqueue (o : RuntimeEventOutbox) (event : RuntimeEvent) (terminal : Option Bool) : Except OutboxError Nat × RuntimeEventOutbox :=
  match event.canonicalBytes? with
  | none => (.error .unencodable, o)
  | some encoded => o.insert limits event encoded (isTerminal event terminal)

end Capacity

section Removal

/-- The loop of `_prefix`: `total` bytes are spent, `started` says whether a row is taken. -/
def selectPrefix (maxBytes : Nat) (total : Nat) (started : Bool) : List OutboxRow → List OutboxRow
  | [] => []
  | row :: rows =>
    let added := byteLen row.eventJson + if started then 1 else 0
    if maxBytes < total + added then (if started then [] else [row])
    else row :: selectPrefix maxBytes (total + added) true rows

/-- `prefix`. -/
def takePrefix (o : RuntimeEventOutbox) (maxRows maxBytes : Nat) : List OutboxRow :=
  selectPrefix maxBytes (byteLen "\x7b\"events\":[]\x7d") false (o.rows.take maxRows)

def retried (sequences : List Nat) (r : OutboxRow) : OutboxRow :=
  if r.sequence ∈ sequences then { r with retryCount := r.retryCount + 1 } else r

/-- `increment_retries`. -/
def incrementRetries (o : RuntimeEventOutbox) (sequences : List Nat) : RuntimeEventOutbox :=
  o.mapRows (fun r => some (retried sequences r))
    (fun r q h => by obtain rfl := Option.some.inj h; unfold retried; split <;> exact ⟨rfl, rfl⟩)
    (fun r q h => by obtain rfl := Option.some.inj h; unfold retried; split <;> exact id)

/-- `acknowledge`; `none` is its `ValueError`. -/
def acknowledge (o : RuntimeEventOutbox) (rows : List OutboxRow) (acceptedIds : List String) : Option RuntimeEventOutbox :=
  if acceptedIds ≠ rows.map (·.eventId) then none
  else match rows.head?, rows.getLast? with
    | some first, some last =>
      let inside := fun r : OutboxRow => decide (first.sequence ≤ r.sequence ∧ r.sequence ≤ last.sequence)
      if (o.rows.filter inside).map (·.eventId) ≠ acceptedIds then none else some (o.delete inside)
    | _, _ => some o

/-- `discard`. -/
def discard (o : RuntimeEventOutbox) (row : OutboxRow) : RuntimeEventOutbox := o.delete (·.sequence = row.sequence)

end Removal

section Opening
variable (str : Json → String)

/-- What `_migrate_metadata_only_rows` makes of a row. -/
def migrateRow (row : OutboxRow) : Option OutboxRow :=
  match (Json.loads row.eventJson).bind (metadataOnlyEvent str) with
  | none => none
  | some event =>
    if event.type ≠ row.eventType then none
    else some { row with eventJson := event.canonicalText, byteCount := byteLen event.canonicalText }

theorem migrateRow_eq_some {r q : OutboxRow} : migrateRow str r = some q ↔
    ∃ event, (Json.loads r.eventJson).bind (metadataOnlyEvent str) = some event ∧ event.type = r.eventType ∧
      { r with eventJson := event.canonicalText, byteCount := byteLen event.canonicalText } = q := by
  unfold migrateRow
  split
  case h_1 hnone => simp [hnone]
  case h_2 event hsome => simp [hsome]

/-- The outbox reopened over its file. -/
def reopen (o : RuntimeEventOutbox) : RuntimeEventOutbox :=
  o.mapRows (migrateRow str)
    (fun r q h => by obtain ⟨event, -, -, rfl⟩ := (migrateRow_eq_some str).1 h; exact ⟨rfl, rfl⟩)
    (fun r q h => by obtain ⟨event, -, -, rfl⟩ := (migrateRow_eq_some str).1 h; exact fun _ => rfl)

end Opening
end RuntimeEventOutbox
end PuffoAgent.Outbox
