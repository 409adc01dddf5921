import Mathlib.Data.List.Induction

/-! Logs that only grow, and in which what stands before an entry has to license it. -/
namespace PuffoAgent.Machine

variable {α : Type} {P : List α → α → Prop} {log : List α} {x : α}

/-- Every entry is licensed by the entries before it. -/
def Licensed (P : List α → α → Prop) (log : List α) : Prop :=
  ∀ before x after, log = before ++ x :: after → P before x

theorem licensed_nil : Licensed P [] := by
  intro before x after h
  cases before <;> cases h

theorem licensed_snoc : Licensed P (log ++ [x]) ↔ Licensed P log ∧ P log x := by
  constructor
  · intro h
    refine ⟨fun before y after hl => ?_, h log x [] rfl⟩
    exact h before y (after ++ [x]) (by rw [hl, List.append_assoc, List.cons_append])
  · rintro ⟨h, hx⟩ before y after hl
    induction after using List.reverseRecOn with
    | nil =>
      obtain ⟨rfl, he⟩ := List.append_inj' hl rfl
      cases he
      exact hx
    | append_singleton after z _ =>
      rw [← List.cons_append, ← List.append_assoc] at hl
      exact h before y after (List.append_inj' hl rfl).1

theorem Licensed.append (h : Licensed P log) (hx : P log x) : Licensed P (log ++ [x]) := licensed_snoc.2 ⟨h, hx⟩

/-- What an entry is licensed by stands before it. -/
theorem Licensed.of_mem (h : Licensed P log) (hx : x ∈ log) :
    ∃ before after, log = before ++ x :: after ∧ P before x := by
  obtain ⟨before, after, rfl⟩ := List.append_of_mem hx
  exact ⟨before, after, rfl, h before x after rfl⟩

end PuffoAgent.Machine
