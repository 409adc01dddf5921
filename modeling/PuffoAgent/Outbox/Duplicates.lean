import PuffoAgent.Outbox.Fifo
import Mathlib.Data.List.Nodup

/-! Enqueuing an event that is stored already. -/
namespace PuffoAgent.Outbox
open Machine Text

namespace RuntimeEventOutbox
variable (limits : Limits) (o : RuntimeEventOutbox) (event : RuntimeEvent) (terminal : Option Bool)

/-- The capacity check of `_insert` lets the text through. -/
def HasRoom (encoded : String) (isTerminal : Bool) : Prop :=
  ((o.usage.1 + 1 : Nat) : Int) ≤ rowLimit limits isTerminal ∧
    ((o.usage.2 + byteLen encoded : Nat) : Int) ≤ byteLimit limits isTerminal

/-- A stored event is accepted again and any other event of its id is refused, and neither
changes anything. -/
structure Idempotent : Prop where
  repeated : ∀ r ∈ o.rows, r.eventId = event.eventId → event.canonicalBytes? = some r.eventJson →
    o.enqueue limits event terminal = (.ok r.sequence, o)
  conflicting : ∀ r ∈ o.rows, r.eventId = event.eventId → event.canonicalBytes? ≠ some r.eventJson →
    ∃ e, o.enqueue limits event terminal = (.error e, o)

variable {limits o event terminal}

theorem find?_stored {r : OutboxRow} (hr : r ∈ o.rows) {eventId : String} (he : r.eventId = eventId) :
    o.rows.find? (·.eventId = eventId) = some r := by
  cases hf : o.rows.find? (·.eventId = eventId) with
  | none => exact absurd (by simpa using he) (List.find?_eq_none.mp hf r hr)
  | some q =>
    have hq : q.eventId = eventId := by simpa using List.find?_some hf
    rw [List.inj_on_of_nodup_map o.distinct (List.mem_of_find?_eq_some hf) hr (hq.trans he.symm)]

theorem insert_full {encoded : String} {isTerminal : Bool} (h : ¬ HasRoom limits o encoded isTerminal) :
    o.insert limits event encoded isTerminal = (.error .capacity, o) := by
  rw [HasRoom, not_and_or, Int.not_le, Int.not_le] at h
  rw [insert, if_pos (by exact_mod_cast h)]

/-- With room, the stored row decides. -/
theorem insert_stored {encoded : String} {isTerminal : Bool} (h : HasRoom limits o encoded isTerminal) {r : OutboxRow}
    (hr : r ∈ o.rows) (he : r.eventId = event.eventId) : o.insert limits event encoded isTerminal =
      if r.eventJson ≠ encoded then (.error .reused, o) else (.ok r.sequence, o) := by
  have hfree : ¬ (rowLimit limits isTerminal < o.usage.1 + 1 ∨
      byteLimit limits isTerminal < o.usage.2 + byteLen encoded) := by
    rw [not_or, Int.not_lt, Int.not_lt]
    exact_mod_cast h
  rw [insert, if_neg hfree, dif_pos (List.mem_map.mpr ⟨r, hr, he⟩)]
  split
  · rename_i row hrow
    rw [find?_stored hr he] at hrow
    rw [← Option.some.inj hrow]
  · rename_i hnone
    rw [find?_stored hr he] at hnone
    cases hnone

theorem enqueue_encoded {encoded : String} (h : event.canonicalBytes? = some encoded) :
    o.enqueue limits event terminal = o.insert limits event encoded (isTerminal event terminal) := by
  rw [enqueue, h]

/-- Other content is refused, for want of room or because the id is taken. -/
theorem enqueue_conflicting {r : OutboxRow} (hr : r ∈ o.rows) (he : r.eventId = event.eventId)
    (hne : event.canonicalBytes? ≠ some r.eventJson) : ∃ e, o.enqueue limits event terminal = (.error e, o) := by
  cases hb : event.canonicalBytes? with
  | none => exact ⟨.unencodable, by rw [enqueue, hb]⟩
  | some encoded =>
    rw [enqueue_encoded hb]
    by_cases hroom : HasRoom limits o encoded (isTerminal event terminal)
    · refine ⟨.reused, ?_⟩
      rw [insert_stored hroom hr he, if_pos fun heq => hne (by rw [hb, heq])]
    · exact ⟨.capacity, insert_full hroom⟩

theorem idempotent_iff : Idempotent limits o event terminal ↔
    ∀ r ∈ o.rows, r.eventId = event.eventId → event.canonicalBytes? = some r.eventJson →
      HasRoom limits o r.eventJson (isTerminal event terminal) := by
  constructor
  · intro h r hr he hb
    by_contra hroom
    have hok := h.repeated r hr he hb
    rw [enqueue_encoded hb, insert_full hroom] at hok
    cases hok
  · intro h
    refine ⟨fun r hr he hb => ?_, fun r hr he hne => enqueue_conflicting hr he hne⟩
    rw [enqueue_encoded hb, insert_stored (h r hr he hb) hr he, if_neg (not_not.mpr rfl)]

end RuntimeEventOutbox

/-- In every reachable state, enqueuing is idempotent for an event exactly if the outbox still
has room for the stored text a second time: the capacity check comes before the id is looked up. -/
theorem enqueue_idempotent_iff (str : Json → String) (limits : Limits) (budget : Budget) (ops : List Op)
    (event : RuntimeEvent) (terminal : Option Bool) :
    let o := (run (Trace.step str limits budget) {} ops).uploader.outbox
    o.Idempotent limits event terminal ↔
      ∀ r ∈ o.rows, r.eventId = event.eventId → event.canonicalBytes? = some r.eventJson →
        o.HasRoom limits r.eventJson (isTerminal event terminal) :=
  RuntimeEventOutbox.idempotent_iff

/-- With two rows, one of them kept for the end of the turn, the same event is refused. -/
theorem full_outbox_refuses_duplicate :
    let o := (run (Trace.step (fun _ => "") { maxRows := 2 } {}) {} [.enqueue untimed none]).uploader.outbox
    o.rows.map (fun r => (r.eventId, some r.eventJson)) = [(untimed.eventId, untimed.canonicalBytes?)] ∧
      (o.enqueue { maxRows := 2 } untimed none).1 = .error .capacity ∧
      ¬ o.Idempotent { maxRows := 2 } untimed none := by
  intro o
  have hrows : o.rows = [⟨1, untimed.eventId, untimed.type, untimed.canonicalText, byteLen untimed.canonicalText, 0⟩] := by
    decide +kernel
  have hb : untimed.canonicalBytes? = some untimed.canonicalText := by decide +kernel
  have hfull : (o.enqueue { maxRows := 2 } untimed none).1 = .error .capacity := by decide +kernel
  refine ⟨by rw [hrows, hb]; rfl, hfull, fun h => ?_⟩
  have hok := h.repeated _ (by rw [hrows]; exact List.mem_singleton_self _) rfl hb
  rw [hok] at hfull
  cases hfull

end PuffoAgent.Outbox
