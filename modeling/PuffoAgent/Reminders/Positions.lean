import PuffoAgent.Store.Positions
import PuffoAgent.Reminders.Transitions

/-! Reminder transactions leave every message in its place, but for the delivery, which
enqueues one local event. -/
namespace PuffoAgent.Reminders
open Relational Stmt Sql Store Text

theorem Commits.still {op : Op} {s s' : Tables} (h : Commits op s s') : Still s s' := by
  rw [h.others]
  exact still_of_messages rfl rfl rfl

/-- The event takes the next local position. -/
theorem places_enqueue {host : Host} {reminder : ReminderRow} {nowMs clockMs : Int} {s s' : Tables} {u : Unit}
    (h : enqueueReminder host reminder nowMs clockMs s = .ok u s') : Positioned s s' := by
  rcases enqueueReminder_ok h with ⟨payload, -, -, h⟩ | ⟨-, rfl⟩
  · exact places_insertLocalEvent rfl h
  · exact .still (Std.Refl.refl s')

theorem places_deliverClaimed (host : Host) (reminderId : String) (nowMs selectNowMs clockMs finalNowMs : Int) :
    Places (deliverClaimedReminder host reminderId nowMs selectNowMs clockMs finalNowMs) := by
  refine Leaves.read (places_transaction fun s a s' h => ?_) _
  obtain ⟨reminder, t, u, -, he, -, rfl⟩ := deliverClaimedReminderBody_ok h
  exact (places_enqueue he).trans_messages rfl rfl rfl

theorem Op.perform_places (host : Host) (op : Op) : Places (op.perform host) := by
  cases op with
  | deliverClaimed => exact (places_deliverClaimed _ _ _ _ _ _).discard
  | _ => exact (Op.perform_commits host rfl).mono fun _ _ _ h => .still h.still

theorem step_positioned (host : Host) (s : Tables) (op : Op) : Positioned s (step host s op) := by
  rcases (op.perform_places host).after s with h | ⟨-, -, h⟩
  · rw [step, h]
    exact .still (Std.Refl.refl s)
  · exact h

end PuffoAgent.Reminders
