import Mathlib.Data.List.Basic
import Mathlib.Data.List.Perm.Subperm

/-! The ledger of a queue from which entries may also be withdrawn: apart from those, what entered
is what was served and then what still stands. -/
namespace PuffoAgent.Machine

variable {α : Type} [DecidableEq α]

structure Balanced (entered served withdrawn standing : List α) : Prop where
  balance : entered.filter (· ∉ withdrawn) = served ++ standing
  once : entered.Nodup
  known : withdrawn ⊆ entered

namespace Balanced
variable {E S W Q : List α}

theorem start : Balanced ([] : List α) [] [] [] := ⟨rfl, .nil, nofun⟩

theorem standing_sub (h : Balanced E S W Q) : Q ⊆ E := by
  intro x hx
  have hx : x ∈ E.filter (· ∉ W) := h.balance ▸ List.mem_append_right S hx
  exact List.mem_of_mem_filter hx

theorem push {x : α} (h : Balanced E S W Q) (hx : x ∉ E) : Balanced (E ++ [x]) S W (Q ++ [x]) where
  balance := by
    rw [List.filter_append, h.balance, List.filter_eq_self.2 (by simpa using fun hw => hx (h.known hw)),
      List.append_assoc]
  once := List.nodup_append.2 ⟨h.once, List.pairwise_singleton _ _, fun y hy z hz heq => hx (by
    rwa [← List.mem_singleton.1 hz, ← heq])⟩
  known := List.Subset.trans h.known (List.subset_append_left _ _)

theorem serve {G Q' : List α} (h : Balanced E S W Q) (hq : Q = G ++ Q') : Balanced E (S ++ G) W Q' where
  balance := by rw [h.balance, hq, List.append_assoc]
  once := h.once
  known := h.known

/-- Picking the members of a sublist out of a list without repetitions gives the sublist. -/
theorem filter_sublist {Q Q' : List α} (h : Q'.Sublist Q) (hn : Q.Nodup) : Q.filter (· ∈ Q') = Q' := by
  have hpicked : Q'.Sublist (Q.filter (· ∈ Q')) := by
    have hmine := h.filter (· ∈ Q')
    rwa [List.filter_eq_self.2 fun x hx => decide_eq_true hx] at hmine
  have hsub : Q.filter (· ∈ Q') ⊆ Q' := fun x hx => of_decide_eq_true (List.mem_filter.1 hx).2
  exact (hpicked.eq_of_length_le (List.subperm_of_subset (hn.filter _) hsub).length_le).symm

theorem withdraw {Q' : List α} (h : Balanced E S W Q) (hq : Q'.Sublist Q) :
    Balanced E S (W ++ Q.filter (· ∉ Q')) Q' where
  balance := by
    have hnd : (S ++ Q).Nodup := h.balance ▸ h.once.filter _
    obtain ⟨-, hQ, hcross⟩ := List.nodup_append.1 hnd
    have hboth : E.filter (· ∉ W ++ Q.filter (· ∉ Q')) = (E.filter (· ∉ W)).filter (· ∉ Q.filter (· ∉ Q')) := by
      rw [List.filter_filter]
      refine List.filter_congr fun x _ => ?_
      by_cases hw : x ∈ W <;> simp [hw]
    have hserved : S.filter (· ∉ Q.filter (· ∉ Q')) = S :=
      List.filter_eq_self.2 fun x hx => by
        simpa using .inl fun hxq => hcross x hx x hxq rfl
    have hstanding : Q.filter (· ∉ Q.filter (· ∉ Q')) = Q' := by
      rw [← filter_sublist hq hQ]
      refine List.filter_congr fun x hx => ?_
      by_cases hxq : x ∈ Q' <;> simp [hx, hxq, hq, hQ, filter_sublist]
    rw [hboth, h.balance, List.filter_append, hserved, hstanding]
  once := h.once
  known := List.append_subset.2 ⟨h.known, fun x hx => h.standing_sub (List.mem_of_mem_filter hx)⟩

theorem filter_notMem_of_subset {l l' : List α} (h : l ⊆ l') : l.filter (· ∉ l') = [] :=
  List.filter_eq_nil_iff.2 fun _ hx => by simpa using h hx

/-- The queue before and after a move, with what it took in and gave out read off. -/
theorem moved {Q' : List α} (h : Balanced E S W Q)
    (hq : Q' = Q ∨ (∃ x, x ∉ E ∧ Q' = Q ++ [x]) ∨ ∃ G, Q = G ++ Q') :
    Balanced (E ++ Q'.filter (· ∉ Q)) (S ++ Q.filter (· ∉ Q')) W Q' := by
  have hnd : Q.Nodup := (List.nodup_append.1 (h.balance ▸ h.once.filter _ : (S ++ Q).Nodup)).2.1
  rcases hq with rfl | ⟨x, hx, rfl⟩ | ⟨G, rfl⟩
  · rw [filter_notMem_of_subset (List.Subset.refl _), List.append_nil, List.append_nil]
    exact h
  · have hxq : x ∉ Q := fun hmem => hx (h.standing_sub hmem)
    have hin : (Q ++ [x]).filter (· ∉ Q) = [x] := by
      rw [List.filter_append, filter_notMem_of_subset (List.Subset.refl _), List.nil_append]
      simp [hxq]
    have hout : Q.filter (· ∉ Q ++ [x]) = [] := filter_notMem_of_subset (List.subset_append_left _ _)
    rw [hin, hout, List.append_nil]
    exact h.push hx
  · obtain ⟨-, -, hcross⟩ := List.nodup_append.1 hnd
    have hin : Q'.filter (· ∉ G ++ Q') = [] := filter_notMem_of_subset (List.subset_append_right _ _)
    have hout : (G ++ Q').filter (· ∉ Q') = G := by
      rw [List.filter_append, List.filter_eq_self.2 fun x hx => by simpa using fun hq => hcross x hx x hq rfl,
        filter_notMem_of_subset (List.Subset.refl _), List.append_nil]
    rw [hin, hout, List.append_nil]
    exact h.serve rfl

theorem withdrawn {Q' : List α} (h : Balanced E S W Q) (hq : Q'.Sublist Q) :
    Balanced (E ++ Q'.filter (· ∉ Q)) S (W ++ Q.filter (· ∉ Q')) Q' := by
  have hin : Q'.filter (· ∉ Q) = [] := filter_notMem_of_subset hq.subset
  rw [hin, List.append_nil]
  exact h.withdraw hq

end Balanced
end PuffoAgent.Machine
