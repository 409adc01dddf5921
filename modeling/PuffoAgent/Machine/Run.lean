import Mathlib.Data.List.Basic

/-! Runs of a deterministic machine: the invariant rule, and the same rule for
the runs whose steps all meet a condition. -/
namespace PuffoAgent.Machine

variable {σ ω : Type} (step : σ → ω → σ)

def run (s : σ) (ops : List ω) : σ := ops.foldl step s

/-- Every step of the run from `s` meets `ok`. -/
def Along (ok : σ → ω → Prop) : σ → List ω → Prop
  | _, [] => True
  | s, op :: ops => ok s op ∧ Along ok (step s op) ops

instance {ok : σ → ω → Prop} [∀ s op, Decidable (ok s op)] :
    (s : σ) → (ops : List ω) → Decidable (Along step ok s ops)
  | _, [] => inferInstanceAs (Decidable True)
  | s, op :: ops =>
    have : Decidable (Along step ok (step s op) ops) := instDecidableAlong (step s op) ops
    inferInstanceAs (Decidable (ok s op ∧ Along step ok (step s op) ops))

@[simp]
theorem run_nil (s : σ) : run step s [] = s := rfl

@[simp]
theorem run_cons (s : σ) (op : ω) (ops : List ω) :
    run step s (op :: ops) = run step (step s op) ops := rfl

theorem run_append (s : σ) (ops ops' : List ω) :
    run step s (ops ++ ops') = run step (run step s ops) ops' := List.foldl_append

variable {step}

theorem along_append {ok : σ → ω → Prop} {s : σ} {ops ops' : List ω} :
    Along step ok s (ops ++ ops') ↔ Along step ok s ops ∧ Along step ok (run step s ops) ops' := by
  induction ops generalizing s with
  | nil => simp [Along]
  | cons op ops ih => simp [Along, ih, and_assoc]

/-- An invariant that every admissible step keeps holds after every admissible run. -/
theorem Along.invariant {ok : σ → ω → Prop} {Inv : σ → Prop} {s : σ} {ops : List ω}
    (h : Along step ok s ops) (hs : Inv s)
    (hstep : ∀ s op, ok s op → Inv s → Inv (step s op)) : Inv (run step s ops) := by
  induction ops generalizing s with
  | nil => exact hs
  | cons op ops ih => exact ih h.2 (hstep s op h.1 hs)

theorem run_invariant {Inv : σ → Prop} {s : σ} (hs : Inv s)
    (hstep : ∀ s op, Inv s → Inv (step s op)) (ops : List ω) : Inv (run step s ops) := by
  induction ops generalizing s with
  | nil => exact hs
  | cons op ops ih => exact ih (hstep s op hs)

/-- What no step raises and the counted steps lower is used up when there have been as many of them. -/
theorem rank_run {rank : σ → Nat} {counted : ω → Bool} (hle : ∀ s op, rank (step s op) ≤ rank s)
    (hlt : ∀ s op, counted op = true → rank s ≠ 0 → rank (step s op) < rank s) (s : σ) (ops : List ω)
    (h : rank s ≤ ops.countP counted) : rank (run step s ops) = 0 := by
  induction ops generalizing s with
  | nil => exact Nat.le_zero.1 h
  | cons op ops ih =>
    apply ih
    have hno := hle s op
    rw [List.countP_cons] at h
    split at h
    · rename_i hc
      by_cases hz : rank s = 0
      · omega
      · have hless := hlt s op hc hz
        omega
    · omega

/-- What is never lost again is gained by exactly one step of the run. -/
theorem gained_once {E : σ → Prop} (keep : ∀ s op, E s → E (step s op)) {s : σ} {ops : List ω} (h : ¬ E s)
    (h' : E (run step s ops)) :
    ∃! i, i < ops.length ∧ ¬ E (run step s (ops.take i)) ∧ E (run step s (ops.take (i + 1))) := by
  induction ops generalizing s with
  | nil => exact absurd h' h
  | cons op ops ih =>
    by_cases hop : E (step s op)
    · refine ⟨0, ⟨Nat.succ_pos _, h, by simpa using hop⟩, fun j ⟨_, hj, _⟩ => ?_⟩
      cases j with
      | zero => rfl
      | succ j => exact absurd (run_invariant hop keep (ops.take j)) (by simpa using hj)
    · obtain ⟨i, ⟨hi, hn, hg⟩, unique⟩ := ih hop h'
      refine ⟨i + 1, ⟨Nat.succ_lt_succ hi, by simpa using hn, by simpa using hg⟩, fun j ⟨hj, hjn, hjg⟩ => ?_⟩
      cases j with
      | zero => exact absurd (by simpa using hjg) hop
      | succ j => rw [unique j ⟨Nat.lt_of_succ_lt_succ hj, by simpa using hjn, by simpa using hjg⟩]

/-- Conditions that agree wherever the invariant of the admissible steps holds agree along
every run. -/
theorem along_congr {ok ok' : σ → ω → Prop} {Inv : σ → Prop} {s : σ} (hs : Inv s)
    (hstep : ∀ s op, ok s op → Inv s → Inv (step s op)) (h : ∀ s op, Inv s → (ok s op ↔ ok' s op))
    (ops : List ω) : Along step ok s ops ↔ Along step ok' s ops := by
  induction ops generalizing s with
  | nil => exact Iff.rfl
  | cons op ops ih =>
    by_cases hok : ok s op
    · exact and_congr (h s op hs) (ih (hstep s op hok hs))
    · exact iff_of_false (fun ha => hok ha.1) fun ha => hok ((h s op hs).mpr ha.1)

/-- Every state of the run from `s` satisfies `P`. -/
def Throughout (step : σ → ω → σ) (P : σ → Prop) : σ → List ω → Prop
  | s, [] => P s
  | s, op :: ops => P s ∧ Throughout step P (step s op) ops

theorem Throughout.head {P : σ → Prop} {s : σ} {ops : List ω} (h : Throughout step P s ops) : P s := by
  cases ops with
  | nil => exact h
  | cons op ops => exact h.1

theorem Throughout.last {P : σ → Prop} {s : σ} {ops : List ω} (h : Throughout step P s ops) : P (run step s ops) := by
  induction ops generalizing s with
  | nil => exact h
  | cons op ops ih => exact ih h.2

/-- What an invariant of the admissible steps implies holds in every state of an admissible run. -/
theorem Along.throughout {ok : σ → ω → Prop} {Inv P : σ → Prop} {s : σ} {ops : List ω}
    (h : Along step ok s ops) (hs : Inv s) (hstep : ∀ s op, ok s op → Inv s → Inv (step s op))
    (hp : ∀ s, Inv s → P s) : Throughout step P s ops := by
  induction ops generalizing s with
  | nil => exact hp s hs
  | cons op ops ih => exact ⟨hp s hs, ih h.2 (hstep s op h.1 hs)⟩

/-- Two properties that hold under an invariant and fail together where it is lost hold
throughout the same runs. -/
theorem throughout_iff {Inv P Q : σ → Prop} (hp : ∀ s, Inv s → P s ∧ Q s)
    (hstep : ∀ s op, Inv s → Inv (step s op) ∨ (¬ P (step s op) ∧ ¬ Q (step s op)))
    {s : σ} (hs : Inv s) (ops : List ω) : Throughout step P s ops ↔ Throughout step Q s ops := by
  induction ops generalizing s with
  | nil => exact iff_of_true (hp s hs).1 (hp s hs).2
  | cons op ops ih =>
    rcases hstep s op hs with hi | ⟨hnp, hnq⟩
    · exact and_congr (iff_of_true (hp s hs).1 (hp s hs).2) (ih hi)
    · exact iff_of_false (fun h => hnp h.2.head) (fun h => hnq h.2.head)

/-- Some step of the history, taken after the prefix `h`, satisfies `P h op`. -/
def Past (P : List ω → ω → Prop) (hist : List ω) : Prop :=
  ∃ h op h', hist = h ++ op :: h' ∧ P h op

theorem Past.imp {P Q : List ω → ω → Prop} {hist : List ω} (h : Past P hist)
    (hpq : ∀ h op, P h op → Q h op) : Past Q hist := by
  obtain ⟨h₁, op, h₂, rfl, hp⟩ := h
  exact ⟨h₁, op, h₂, rfl, hpq h₁ op hp⟩

theorem Past.later {P : List ω → ω → Prop} {hist : List ω} (h : Past P hist) (op : ω) :
    Past P (hist ++ [op]) := by
  obtain ⟨h₁, op₁, h₂, rfl, hp⟩ := h
  exact ⟨h₁, op₁, h₂ ++ [op], by simp, hp⟩

theorem Past.now {P : List ω → ω → Prop} {hist : List ω} {op : ω} (h : P hist op) :
    Past P (hist ++ [op]) := ⟨hist, op, [], rfl, h⟩

end PuffoAgent.Machine
