import PuffoAgent.Outbox.Effects
import PuffoAgent.Machine.Ledger

/-! Rows leave the outbox in the order they entered it, and each for a reason. -/
namespace PuffoAgent.Outbox
open Machine Text
open RuntimeEventOutbox (retried migrateRow migrateRow_eq_some)

abbrev Uploader.rows (u : Uploader) : List OutboxRow := u.outbox.rows

/-- What identifies a stored event, whatever happens to its content. -/
structure RowIdent where
  sequence : Nat
  eventId : String
  eventType : String
  deriving DecidableEq, Repr

def OutboxRow.ident (r : OutboxRow) : RowIdent := ⟨r.sequence, r.eventId, r.eventType⟩

/-- A row apart from its count of retries. -/
def OutboxRow.content (r : OutboxRow) : OutboxRow := { r with retryCount := 0 }

/-- The row holds a metadata-only event of its type. -/
def OutboxRow.Recognised (str : Json → String) (r : OutboxRow) : Prop :=
  ∃ event, (Json.loads r.eventJson).bind (metadataOnlyEvent str) = some event ∧ event.type = r.eventType

/-- The row was stored from an event in the metadata-only form. -/
def OutboxRow.Plain (r : OutboxRow) : Prop :=
  ∃ event : RuntimeEvent, event.occurredAt ≠ "" ∧ MetadataOnly event.type event.payload ∧
    r.eventType = event.type ∧ r.eventJson = event.canonicalText

section Outcomes
variable (str : Json → String) (limits : Limits) (budget : Budget)

/-- What an operation makes of the stored rows. -/
def Outcome (u u' : Uploader) : Op → Prop
  | .enqueue event _ => u'.rows = u.rows ∨ ∃ r, u'.rows = u.rows ++ [r] ∧ u.outbox.lastSequence < r.sequence ∧
      r.eventId = event.eventId ∧ r.eventType = event.type ∧ r.eventJson = event.canonicalText
  | .attempt => u'.rows = u.rows ∨ ∃ head rest, u.rows = head :: rest ∧ u'.rows = rest ∧
      budget.batchBytes < byteLen (appendBody [head])
  | .respond raw => u'.rows.map (·.content) = u.rows.map (·.content) ∨
      (∃ batch rest, u.inflight = some batch ∧ u.rows = batch ++ rest ∧ u'.rows = rest ∧
        Accepts str raw (batch.map (·.eventId))) ∨
      ∃ head rest, u.inflight = some [head] ∧ u.rows = head :: rest ∧ u'.rows = rest ∧ Rejects raw
  | .cancelled => u'.rows = u.rows
  | .restart => (u'.rows.map (·.ident)).Sublist (u.rows.map (·.ident)) ∧
      (∀ r ∈ u.rows, r.Recognised str → r.ident ∈ u'.rows.map (·.ident)) ∧ ∀ r ∈ u.rows, r.Plain → r ∈ u'.rows

variable {str limits budget} {u : Uploader}

/-- The batch in flight is the head of the outbox. -/
def InFlight (u : Uploader) : Prop := ∀ batch, u.inflight = some batch → batch ≠ [] ∧ batch <+: u.rows

theorem content_retried (sequences : List Nat) (r : OutboxRow) : (retried sequences r).content = r.content := by
  unfold retried
  split <;> rfl

theorem content_incrementRetries (o : RuntimeEventOutbox) (sequences : List Nat) :
    (o.incrementRetries sequences).rows.map (·.content) = o.rows.map (·.content) := by
  rw [rows_incrementRetries, List.map_map]
  exact List.map_congr_left fun r _ => content_retried sequences r

theorem canonicalBytes_eq {e : EventFields} {encoded : String} (h : e.canonicalBytes? = some encoded) :
    e.canonicalText = encoded := by
  unfold EventFields.canonicalBytes? at h
  split at h
  · exact Option.some.inj h
  · cases h

theorem enqueue_outcome (event : RuntimeEvent) (terminal : Option Bool) :
    Outcome str budget u (u.step str limits budget (.enqueue event terminal)).1 (.enqueue event terminal) := by
  simp only [Outcome, Uploader.step, Uploader.rows, RuntimeEventOutbox.enqueue]
  split
  · exact .inl rfl
  · rename_i encoded hencoded
    obtain rfl := canonicalBytes_eq hencoded
    unfold RuntimeEventOutbox.insert
    split
    · exact .inl rfl
    · split
      · split
        · split <;> exact .inl rfl
        · exact .inl rfl
      · exact .inr ⟨_, rfl, Nat.lt_succ_self _, rfl, rfl, rfl⟩

theorem attempt_outcome : Outcome str budget u (u.step str limits budget .attempt).1 .attempt := by
  simp only [Outcome, Uploader.step, Uploader.attempt]
  split
  · exact .inl rfl
  · split
    · exact .inl rfl
    · rename_i head rows htake
      split
      case isTrue hbig =>
        obtain rfl := oversized_alone htake hbig
        obtain ⟨rest, hrest⟩ := htake ▸ takePrefix_prefix (o := u.outbox) _ _
        exact .inr ⟨head, rest, hrest.symm, discard_head hrest.symm, hbig⟩
      case isFalse => exact .inl rfl

theorem respond_outcome (hi : InFlight u) (raw : RawResponse) :
    Outcome str budget u (u.step str limits budget (.respond raw)).1 (.respond raw) := by
  simp only [Outcome, Uploader.step]
  split
  · exact .inl rfl
  · rename_i batch hbatch
    obtain ⟨hne, rest, hrest⟩ := hi batch hbatch
    have hans := @respond_answered str u batch hne raw
    generalize (u.respond str batch raw).2 = result at hans
    simp only [Uploader.rows]
    generalize (u.respond str batch raw).1.outbox = o' at hans ⊢
    cases hans with
    | acknowledged haccepts hack _ =>
      obtain ⟨-, first, last, hfirst, hlast, rfl⟩ := acknowledge_eq_some hack hne
      exact .inr (.inl ⟨batch, rest, hbatch, hrest.symm, delete_between hrest.symm hfirst hlast, haccepts⟩)
    | rejected head halone hrejects _ =>
      subst halone
      exact .inr (.inr ⟨head, rest, hbatch, hrest.symm, discard_head hrest.symm, hrejects⟩)
    | retried => exact .inl (content_incrementRetries _ _)
    | kept => exact .inl rfl

theorem plain_migrates {r : OutboxRow} (hsize : r.byteCount = byteLen r.eventJson) (h : r.Plain) :
    migrateRow str r = some r := by
  obtain ⟨event, hocc, hm, htype, hjson⟩ := h
  obtain ⟨event', hread, htype', htext⟩ := metadataOnlyEvent_kept str event hocc hm
  refine (migrateRow_eq_some str).2 ⟨event', ?_, htype'.trans htype.symm, ?_⟩
  · rw [hjson, EventFields.canonicalText, Json.loads_dumpsSorted, Option.bind_some, hread]
  · rw [htext, ← hjson, ← hsize]

theorem migrated_ident (rows : List OutboxRow) :
    ((rows.filterMap (migrateRow str)).map (·.ident)).Sublist (rows.map (·.ident)) := by
  induction rows with
  | nil => exact List.Sublist.refl _
  | cons r rows ih =>
    rw [List.filterMap_cons]
    split
    · exact ih.trans (List.sublist_cons_self _ _)
    · rename_i q hq
      obtain ⟨event, -, -, rfl⟩ := (migrateRow_eq_some str).1 hq
      exact ih.cons_cons _

theorem restart_outcome : Outcome str budget u (u.step str limits budget .restart).1 .restart := by
  simp only [Outcome, Uploader.step]
  refine ⟨migrated_ident u.rows, fun r hr h => ?_, fun r hr hplain => ?_⟩
  · obtain ⟨event, hread, htype⟩ := h
    refine List.mem_map.2 ⟨_, List.mem_filterMap.2 ⟨r, hr, (migrateRow_eq_some str).2 ⟨event, hread, htype, rfl⟩⟩, rfl⟩
  · exact List.mem_filterMap.2 ⟨r, hr, plain_migrates (u.outbox.sized r hr) hplain⟩

theorem step_outcome (hi : InFlight u) (op : Op) : Outcome str budget u (u.step str limits budget op).1 op := by
  cases op with
  | enqueue event terminal => exact enqueue_outcome event terminal
  | attempt => exact attempt_outcome
  | respond raw => exact respond_outcome hi raw
  | cancelled => exact rfl
  | restart => exact restart_outcome

end Outcomes

inductive Departure where
  | acknowledged
  | discarded
  | unrecognised
  deriving DecidableEq, Repr

/-- A run of the outbox, with the rows that entered it and those that left it. -/
structure Trace where
  uploader : Uploader := {}
  enqueued : List OutboxRow := []
  departed : List (OutboxRow × Departure) := []

def Op.isRestart : Op → Bool
  | .restart => true
  | _ => false

def reason (op : Op) (result : UploadResult) : Departure :=
  if op.isRestart then .unrecognised else if result.state = "uploaded" then .acknowledged else .discarded

namespace Trace
variable (str : Json → String) (limits : Limits) (budget : Budget)

def step (t : Trace) (op : Op) : Trace :=
  let after := t.uploader.step str limits budget op
  { uploader := after.1
    enqueued := t.enqueued ++ after.1.rows.filter fun r => r.ident ∉ t.uploader.rows.map (·.ident)
    departed := t.departed ++ (t.uploader.rows.filter fun r => r.ident ∉ after.1.rows.map (·.ident)).map
      fun r => (r, reason op after.2) }

/-- What was acknowledged or discarded, in the order it left. -/
def served (t : Trace) : List RowIdent :=
  (t.departed.filter (·.2 ≠ .unrecognised)).map (·.1.ident)

/-- What a restart did not recognise. -/
def withdrawn (t : Trace) : List RowIdent :=
  (t.departed.filter (·.2 = .unrecognised)).map (·.1.ident)

/-- Rows leave in the order of their events, and what happens next treats them as it should. -/
structure Fifo (t : Trace) : Prop where
  log : (t.enqueued.map (·.ident)).filter (· ∉ t.withdrawn) = t.served ++ t.uploader.rows.map (·.ident)
  inflight : ∀ batch, t.uploader.inflight = some batch → batch ≠ [] ∧ batch <+: t.uploader.rows
  outcome : ∀ op, Outcome str budget t.uploader (t.uploader.step str limits budget op).1 op

structure Inv (t : Trace) : Prop where
  ledger : Balanced (t.enqueued.map (·.ident)) t.served t.withdrawn (t.uploader.rows.map (·.ident))
  inflight : InFlight t.uploader
  past : ∀ r ∈ t.enqueued, r.sequence ≤ t.uploader.outbox.lastSequence

variable {str limits budget}

theorem respond_inflight (u : Uploader) (rows : List OutboxRow) (raw : RawResponse) :
    (u.respond str rows raw).1.inflight = none := by
  have hreject : ∀ u : Uploader, ∀ status, (u.rejectAcknowledgement rows status).1.inflight = u.inflight := by
    intro u status
    unfold Uploader.rejectAcknowledgement
    split <;> rfl
  unfold Uploader.respond Uploader.settle Uploader.isolateOrDiscard
  dsimp only
  repeat' split
  all_goals first
    | rfl
    | exact hreject _ _

theorem inflight_step {u : Uploader} (hi : InFlight u) (op : Op) : InFlight (u.step str limits budget op).1 := by
  cases op with
  | enqueue event terminal =>
    intro batch hbatch
    obtain ⟨hne, hprefix⟩ := hi batch hbatch
    rcases @enqueue_outcome str limits budget u event terminal with h | ⟨r, h, -⟩
    · exact ⟨hne, h ▸ hprefix⟩
    · exact ⟨hne, h ▸ hprefix.trans (List.prefix_append _ _)⟩
  | attempt =>
    simp only [Uploader.step, Uploader.attempt]
    split
    · exact hi
    · rename_i hidle
      have hnone : u.inflight = none := by simpa using hidle
      split
      · exact hi
      · rename_i head rows htake
        split
        · intro batch hbatch
          exact absurd (hnone.symm.trans hbatch) nofun
        · intro batch hbatch
          obtain rfl := Option.some.inj hbatch
          exact ⟨List.cons_ne_nil _ _, htake ▸ takePrefix_prefix _ _⟩
  | respond raw =>
    simp only [Uploader.step]
    split
    · exact hi
    · intro batch hbatch
      exact absurd (hbatch.symm.trans (respond_inflight u _ raw)) nofun
  | cancelled => exact nofun
  | restart => exact nofun

theorem lastSequence_le {u : Uploader} (hi : InFlight u) (op : Op) :
    u.outbox.lastSequence ≤ (u.step str limits budget op).1.outbox.lastSequence := by
  cases op with
  | enqueue event terminal =>
    simp only [Uploader.step, RuntimeEventOutbox.enqueue, RuntimeEventOutbox.insert]
    repeat' split
    all_goals first
      | exact le_rfl
      | exact Nat.le_succ _
  | attempt =>
    simp only [Uploader.step, Uploader.attempt]
    repeat' split
    all_goals exact le_rfl
  | respond raw =>
    simp only [Uploader.step]
    split
    · exact le_rfl
    · rename_i batch hbatch
      obtain ⟨hne, -⟩ := hi batch hbatch
      have hans := @respond_answered str u batch hne raw
      generalize (u.respond str batch raw).2 = result at hans
      generalize (u.respond str batch raw).1.outbox = o' at hans ⊢
      cases hans with
      | acknowledged haccepts hack _ =>
        obtain ⟨-, first, last, -, -, rfl⟩ := acknowledge_eq_some hack hne
        exact le_rfl
      | _ => exact le_rfl
  | cancelled => exact le_rfl
  | restart => exact le_rfl

theorem content_ident {rows rows' : List OutboxRow} (h : rows'.map (·.content) = rows.map (·.content)) :
    rows'.map (·.ident) = rows.map (·.ident) := by
  have hmap := congrArg (List.map OutboxRow.ident) h
  rwa [List.map_map, List.map_map] at hmap

/-- Apart from a restart, the queue gains at its end and loses at its head. -/
theorem moved_of_outcome {t : Trace} (h : t.Inv) {u' : Uploader} {op : Op} (hop : op.isRestart = false)
    (hout : Outcome str budget t.uploader u' op) :
    u'.rows.map (·.ident) = t.uploader.rows.map (·.ident) ∨
      (∃ x, x ∉ t.enqueued.map (·.ident) ∧ u'.rows.map (·.ident) = t.uploader.rows.map (·.ident) ++ [x]) ∨
      ∃ gone, t.uploader.rows.map (·.ident) = gone ++ u'.rows.map (·.ident) := by
  have gone : ∀ batch rest, t.uploader.rows = batch ++ rest → u'.rows = rest →
      t.uploader.rows.map (·.ident) = batch.map (·.ident) ++ u'.rows.map (·.ident) := by
    rintro batch rest hrows rfl
    rw [hrows, List.map_append]
  cases op with
  | enqueue event terminal =>
    rcases hout with hrows | ⟨r, hrows, hfresh, -⟩
    · exact .inl (by rw [hrows])
    · refine .inr (.inl ⟨r.ident, fun hmem => ?_, by rw [hrows, List.map_append]; rfl⟩)
      obtain ⟨q, hq, heq⟩ := List.mem_map.1 hmem
      have hseq : q.sequence = r.sequence := congrArg RowIdent.sequence heq
      exact absurd (h.past q hq) (Nat.not_le.2 (hseq ▸ hfresh))
  | attempt =>
    rcases hout with hrows | ⟨head, rest, hrows, hrest, -⟩
    · exact .inl (by rw [hrows])
    · exact .inr (.inr ⟨_, gone [head] rest hrows hrest⟩)
  | respond raw =>
    rcases hout with hrows | ⟨batch, rest, -, hrows, hrest, -⟩ | ⟨head, rest, -, hrows, hrest, -⟩
    · exact .inl (content_ident hrows)
    · exact .inr (.inr ⟨_, gone batch rest hrows hrest⟩)
    · exact .inr (.inr ⟨_, gone [head] rest hrows hrest⟩)
  | cancelled => exact .inl (congrArg _ hout)
  | restart => cases hop

section Books
variable {t : Trace} {op : Op}

theorem map_filter_ident (rows rows' : List OutboxRow) :
    (rows.filter fun r => r.ident ∉ rows'.map (·.ident)).map (·.ident) =
      (rows.map (·.ident)).filter (· ∉ rows'.map (·.ident)) := by
  rw [List.filter_map]
  rfl

theorem step_enqueued : (t.step str limits budget op).enqueued.map (·.ident) = t.enqueued.map (·.ident) ++
    ((t.step str limits budget op).uploader.rows.map (·.ident)).filter (· ∉ t.uploader.rows.map (·.ident)) := by
  rw [← map_filter_ident, ← List.map_append]
  rfl

/-- The departures of one step carry one reason. -/
theorem departed_filter (rows : List OutboxRow) (d : Departure) (p : Departure → Bool) :
    ((rows.map fun r => (r, d)).filter fun e => p e.2).map (·.1.ident) = if p d then rows.map (·.ident) else [] := by
  cases hp : p d <;> simp [List.filter_map, Function.comp_def, hp]

theorem reason_unrecognised (op : Op) (result : UploadResult) : reason op result = .unrecognised ↔ op.isRestart = true := by
  unfold reason
  split
  · exact iff_of_true rfl ‹_›
  · split <;> exact iff_of_false nofun ‹_›

theorem step_served : (t.step str limits budget op).served = t.served ++ if op.isRestart then [] else
    (t.uploader.rows.map (·.ident)).filter (· ∉ (t.step str limits budget op).uploader.rows.map (·.ident)) := by
  rw [served, step, List.filter_append, List.map_append, departed_filter _ _ fun d => decide (d ≠ .unrecognised),
    map_filter_ident]
  refine congrArg (t.served ++ ·) ?_
  cases hop : op.isRestart <;> simp [reason_unrecognised, hop]

theorem step_withdrawn : (t.step str limits budget op).withdrawn = t.withdrawn ++ if op.isRestart then
    (t.uploader.rows.map (·.ident)).filter (· ∉ (t.step str limits budget op).uploader.rows.map (·.ident)) else [] := by
  rw [withdrawn, step, List.filter_append, List.map_append, departed_filter _ _ fun d => decide (d = .unrecognised),
    map_filter_ident]
  refine congrArg (t.withdrawn ++ ·) ?_
  cases hop : op.isRestart <;> simp [reason_unrecognised, hop]

end Books

theorem Inv.step {t : Trace} (h : t.Inv) (op : Op) : (t.step str limits budget op).Inv := by
  have hout := @step_outcome str limits budget t.uploader h.inflight op
  refine ⟨?_, inflight_step h.inflight op, ?_⟩
  · rw [step_enqueued, step_served, step_withdrawn]
    cases hop : op.isRestart with
    | true =>
      obtain rfl : op = .restart := by cases op <;> first | rfl | cases hop
      simp only [if_true, List.append_nil]
      exact h.ledger.withdrawn hout.1
    | false =>
      simp only [Bool.false_eq_true, if_false, List.append_nil]
      exact h.ledger.moved (moved_of_outcome h hop hout)
  · intro r hr
    rcases List.mem_append.1 hr with hr | hr
    · exact (h.past r hr).trans (lastSequence_le h.inflight op)
    · exact (t.uploader.step str limits budget op).1.outbox.bounded r (List.mem_of_mem_filter hr)

theorem inv_run (ops : List Op) : (run (Trace.step str limits budget) {} ops).Inv :=
  run_invariant ⟨.start, nofun, nofun⟩ (fun _ op h => h.step op) ops

end Trace

/-- Along every run, events leave in the order they were enqueued: by an exact acknowledgement of
the batch in flight, by the rejection of one event alone, as a head too long for any request, or at
a restart when they are no metadata-only events of their type. -/
theorem outbox_fifo (str : Json → String) (limits : Limits) (budget : Budget) (ops : List Op) :
    Trace.Fifo str limits budget (run (Trace.step str limits budget) {} ops) :=
  have h := Trace.inv_run ops
  ⟨h.ledger.balance, h.inflight, fun op => step_outcome h.inflight op⟩

/-- A valid event without a time, which no reopened outbox recognises. -/
def untimed : RuntimeEvent :=
  ⟨{ eventId := "evt_1", agentId := "a", sessionRef := "s", turnRef := "t", type := "turn.started", occurredAt := "",
      payload := [] }, by decide⟩

/-- It leaves at the restart, without any attempt to upload it. -/
theorem untimed_leaves : ¬ ∀ ops : List Op,
    ∀ d ∈ (run (Trace.step (fun _ => "") {} {}) {} ops).departed, d.2 = .acknowledged ∨ d.2 = .discarded := by
  intro h
  have hleft : (run (Trace.step (fun _ => "") {} {}) {} [.enqueue untimed none, .restart]).departed.map (·.2) =
      [.unrecognised] := by decide +kernel
  obtain ⟨d, hd, hreason⟩ := List.mem_map.1 (hleft ▸ List.mem_singleton_self _)
  rcases h _ d hd with hacked | hdiscarded
  · exact absurd (hreason.symm.trans hacked) nofun
  · exact absurd (hreason.symm.trans hdiscarded) nofun

end PuffoAgent.Outbox
