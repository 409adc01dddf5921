import PuffoAgent.Outbox.Fifo
import Mathlib.Algebra.Order.BigOperators.Group.List

/-! The room kept for the end of a turn: a turn that was let start can always say how it ended. -/
namespace PuffoAgent.Outbox
open Machine Text

/-- The outbox of a daemon that runs one turn at a time. -/
structure Daemon where
  uploader : Uploader := {}
  inTurn : Bool := false

inductive Activity where
  | start (estimatedStartBytes : Nat)
  | offer (event : RuntimeEvent) (terminal : Option Bool)
  | finish (event : RuntimeEvent) (terminal : Option Bool)
  | attempt
  | respond (raw : RawResponse)
  | cancelled

namespace Daemon
variable (str : Json → String) (limits : Limits) (budget : Budget)

def upload (d : Daemon) (op : Op) : Daemon := { d with uploader := (d.uploader.step str limits budget op).1 }

def step (d : Daemon) : Activity → Daemon
  | .start estimatedStartBytes => match d.uploader.outbox.requireTurnCapacity limits estimatedStartBytes with
    | .ok () => { d with inTurn := true }
    | .error _ => d
  | .offer event terminal => d.upload str limits budget (.enqueue event terminal)
  | .finish event terminal => { d.upload str limits budget (.enqueue event terminal) with inTurn := false }
  | .attempt => d.upload str limits budget .attempt
  | .respond raw => d.upload str limits budget (.respond raw)
  | .cancelled => d.upload str limits budget .cancelled

/-- Turns do not overlap, only a started turn ends, and its last event fits the reserve. -/
def Admissible (d : Daemon) : Activity → Prop
  | .start _ => d.inTurn = false
  | .offer event terminal => isTerminal event terminal = false
  | .finish event terminal => d.inTurn = true ∧ isTerminal event terminal = true ∧
      byteLen event.canonicalText ≤ limits.terminalReserveBytes
  | _ => True

instance (d : Daemon) : (a : Activity) → Decidable (d.Admissible limits a)
  | .start _ => inferInstanceAs (Decidable (d.inTurn = false))
  | .offer event terminal => inferInstanceAs (Decidable (isTerminal event terminal = false))
  | .finish event terminal => inferInstanceAs (Decidable (d.inTurn = true ∧ isTerminal event terminal = true ∧
      byteLen event.canonicalText ≤ limits.terminalReserveBytes))
  | .attempt => inferInstanceAs (Decidable True)
  | .respond _ => inferInstanceAs (Decidable True)
  | .cancelled => inferInstanceAs (Decidable True)

def Within (o : RuntimeEventOutbox) : Prop := o.usage.1 ≤ limits.maxRows ∧ o.usage.2 ≤ limits.maxBytes

/-- There is room for a last event. -/
def Reserved (o : RuntimeEventOutbox) : Prop :=
  o.usage.1 + limits.terminalReserveRows ≤ limits.maxRows ∧ o.usage.2 + limits.terminalReserveBytes ≤ limits.maxBytes

structure Inv (d : Daemon) : Prop where
  inflight : InFlight d.uploader
  within : Within limits d.uploader.outbox
  reserved : d.inTurn = true → Reserved limits d.uploader.outbox

variable {str limits budget}

/-- What an enqueue makes of the usage: it stays, or grows by the event within the limits. -/
theorem usage_enqueue (o : RuntimeEventOutbox) (event : RuntimeEvent) (terminal : Option Bool) :
    (o.enqueue limits event terminal).2.usage = o.usage ∨
      ((o.enqueue limits event terminal).2.usage = (o.usage.1 + 1, o.usage.2 + byteLen event.canonicalText) ∧
        ((o.usage.1 + 1 : Nat) : Int) ≤ RuntimeEventOutbox.rowLimit limits (isTerminal event terminal) ∧
        ((o.usage.2 + byteLen event.canonicalText : Nat) : Int) ≤
          RuntimeEventOutbox.byteLimit limits (isTerminal event terminal)) := by
  unfold RuntimeEventOutbox.enqueue
  split
  · exact .inl rfl
  · rename_i encoded hencoded
    obtain rfl := canonicalBytes_eq hencoded
    unfold RuntimeEventOutbox.insert
    split
    · exact .inl rfl
    · rename_i hroom
      split
      · split
        · split <;> exact .inl rfl
        · exact .inl rfl
      · refine .inr ⟨?_, ?_⟩
        · simp [RuntimeEventOutbox.usage, RuntimeEventOutbox.append]
        · rw [not_or, Int.not_lt, Int.not_lt] at hroom
          exact_mod_cast hroom

/-- Uploads only free room. -/
theorem usage_upload {u u' : Uploader} {op : Op} (h : Outcome str budget u u' op)
    (hop : op = .attempt ∨ (∃ raw, op = .respond raw) ∨ op = .cancelled) :
    u'.outbox.usage.1 ≤ u.outbox.usage.1 ∧ u'.outbox.usage.2 ≤ u.outbox.usage.2 := by
  have hsub : (u'.rows.map (·.byteCount)).Sublist (u.rows.map (·.byteCount)) := by
    have htail : ∀ batch rest, u.rows = batch ++ rest → u'.rows = rest →
        (u'.rows.map (·.byteCount)).Sublist (u.rows.map (·.byteCount)) := by
      rintro batch rest hrows rfl
      rw [hrows, List.map_append]
      exact List.sublist_append_right _ _
    rcases hop with rfl | ⟨raw, rfl⟩ | rfl
    · rcases h with hrows | ⟨head, rest, hrows, hrest, -⟩
      · rw [hrows]
      · exact htail [head] rest hrows hrest
    · rcases h with hrows | ⟨batch, rest, -, hrows, hrest, -⟩ | ⟨head, rest, -, hrows, hrest, -⟩
      · have hcount := congrArg (List.map OutboxRow.byteCount) hrows
        rw [List.map_map, List.map_map] at hcount
        exact (show u'.rows.map (·.byteCount) = u.rows.map (·.byteCount) from hcount) ▸ List.Sublist.refl _
      · exact htail batch rest hrows hrest
      · exact htail [head] rest hrows hrest
    · rw [show u'.rows = u.rows from h]
  exact ⟨by simpa [RuntimeEventOutbox.usage] using hsub.length_le, hsub.sum_le_sum fun _ _ => Nat.zero_le _⟩

theorem reserved_of_started {o : RuntimeEventOutbox} {estimated : Nat}
    (h : o.requireTurnCapacity limits estimated = .ok ()) : Reserved limits o := by
  unfold RuntimeEventOutbox.requireTurnCapacity at h
  split at h
  case isFalse => cases h
  case isTrue hfits =>
    simp only [RuntimeEventOutbox.canStartTurn, decide_eq_true_eq] at hfits
    exact ⟨by omega, by omega⟩

/-- Progress leaves the reserve alone. -/
theorem offer_kept {o : RuntimeEventOutbox} {event : RuntimeEvent} {terminal : Option Bool} (hw : Within limits o)
    (hterminal : isTerminal event terminal = false) : Within limits (o.enqueue limits event terminal).2 ∧
      (Reserved limits o → Reserved limits (o.enqueue limits event terminal).2) := by
  rcases usage_enqueue o event terminal with h | ⟨h, hrows, hbytes⟩
  · rw [Within, Reserved, Reserved, h]
    exact ⟨hw, id⟩
  · simp only [RuntimeEventOutbox.rowLimit, RuntimeEventOutbox.byteLimit, hterminal, Bool.false_eq_true,
      if_false] at hrows hbytes
    simp only [Within, Reserved, h]
    omega

theorem finish_within {o : RuntimeEventOutbox} {event : RuntimeEvent} {terminal : Option Bool} (hw : Within limits o) :
    Within limits (o.enqueue limits event terminal).2 := by
  rcases usage_enqueue o event terminal with h | ⟨h, hrows, hbytes⟩
  · rw [Within, h]
    exact hw
  · simp only [RuntimeEventOutbox.rowLimit, RuntimeEventOutbox.byteLimit] at hrows hbytes
    rw [Within, h]
    split at hrows <;> dsimp only at * <;> omega

theorem Inv.step {d : Daemon} (h : d.Inv limits) (a : Activity)
    (ha : d.Admissible limits a) : (d.step str limits budget a).Inv limits := by
  have hflight : ∀ op, InFlight (d.uploader.step str limits budget op).1 := fun op => Trace.inflight_step h.inflight op
  have hupload : ∀ op, (op = .attempt ∨ (∃ raw, op = .respond raw) ∨ op = .cancelled) →
      (d.upload str limits budget op).Inv limits := by
    intro op hop
    obtain ⟨hrows, hbytes⟩ := usage_upload (@step_outcome str limits budget d.uploader h.inflight op) hop
    refine ⟨hflight op, ⟨hrows.trans h.within.1, hbytes.trans h.within.2⟩, fun hin => ?_⟩
    obtain ⟨hrows', hbytes'⟩ := h.reserved hin
    exact ⟨(Nat.add_le_add_right hrows _).trans hrows', (Nat.add_le_add_right hbytes _).trans hbytes'⟩
  cases a with
  | start estimatedStartBytes =>
    simp only [Daemon.step]
    split
    · rename_i hstart
      exact ⟨h.inflight, h.within, fun _ => reserved_of_started hstart⟩
    · exact h
  | offer event terminal =>
    obtain ⟨hwithin, hreserved⟩ := offer_kept h.within ha
    exact ⟨hflight _, hwithin, fun hin => hreserved (h.reserved hin)⟩
  | finish event terminal => exact ⟨hflight _, finish_within h.within, nofun⟩
  | attempt => exact hupload _ (.inl rfl)
  | respond raw => exact hupload _ (.inr (.inl ⟨raw, rfl⟩))
  | cancelled => exact hupload _ (.inr (.inr rfl))

/-- In a turn the last event fits. -/
theorem Inv.finish_fits (hr : 1 ≤ limits.terminalReserveRows) {d : Daemon} (h : d.Inv limits) {event : RuntimeEvent}
    {terminal : Option Bool} (ha : d.Admissible limits (.finish event terminal)) :
    (d.uploader.outbox.enqueue limits event terminal).1 ≠ .error .capacity := by
  obtain ⟨hin, hterminal, hsize⟩ := ha
  obtain ⟨hrows, hbytes⟩ := h.reserved hin
  unfold RuntimeEventOutbox.enqueue
  split
  · intro hfull
    cases hfull
  · rename_i encoded hencoded
    obtain rfl := canonicalBytes_eq hencoded
    have hroom : ¬ (RuntimeEventOutbox.rowLimit limits (isTerminal event terminal) < d.uploader.outbox.usage.1 + 1 ∨
        RuntimeEventOutbox.byteLimit limits (isTerminal event terminal) <
          d.uploader.outbox.usage.2 + byteLen event.canonicalText) := by
      rw [hterminal]
      simp only [RuntimeEventOutbox.rowLimit, RuntimeEventOutbox.byteLimit, if_true]
      omega
    rw [RuntimeEventOutbox.insert, if_neg hroom]
    repeat' split
    all_goals
      intro hfull
      cases hfull

end Daemon

/-- Along every run in which turns do not overlap and end with an event that fits the reserve, the
outbox stays within its limits and the end of a started turn is never refused for capacity. The
reserve has a row, as by default. -/
theorem terminal_reserved (str : Json → String) (limits : Limits) (budget : Budget)
    (hr : 1 ≤ limits.terminalReserveRows) (run' : List Activity)
    (h : Along (Daemon.step str limits budget) (Daemon.Admissible limits) {} run') :
    Daemon.Within limits (run (Daemon.step str limits budget) {} run').uploader.outbox ∧
      ∀ event terminal, (run (Daemon.step str limits budget) {} run').Admissible limits (.finish event terminal) →
        ((run (Daemon.step str limits budget) {} run').uploader.outbox.enqueue limits event terminal).1 ≠
          .error .capacity := by
  have hinv : Daemon.Inv limits _ := h.invariant ⟨nofun, ⟨Nat.zero_le _, Nat.zero_le _⟩, nofun⟩
    fun d a ha hd => hd.step a ha
  exact ⟨hinv.within, fun event terminal ha => hinv.finish_fits hr ha⟩

/-- How the turn of `untimed` ends. -/
def succeeded : RuntimeEvent :=
  ⟨{ eventId := "evt_2", agentId := "a", sessionRef := "s", turnRef := "t", type := "turn.finished",
      occurredAt := "2026-07-30T12:00:01Z", payload := [("outcome", .str "succeeded")] }, by decide⟩

/-- An outbox with room for three small rows lets one turn start, and takes in its end. -/
theorem terminal_reserved_small :
    let limits : Limits := { maxRows := 3, maxBytes := 600, terminalReserveBytes := 300 }
    let after := run (Daemon.step (fun _ => "") limits {}) {} [.start 100, .offer untimed none]
    Daemon.Within limits after.uploader.outbox ∧
      (after.uploader.outbox.enqueue limits succeeded none).1 ≠ .error .capacity := by
  intro limits after
  obtain ⟨hwithin, hends⟩ := terminal_reserved (fun _ => "") limits {} (by decide) [.start 100, .offer untimed none]
    (by decide +kernel)
  exact ⟨hwithin, hends succeeded none (by decide +kernel)⟩

end PuffoAgent.Outbox
