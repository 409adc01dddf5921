import Mathlib.Data.List.Infix
import Mathlib.Data.List.Nodup
import Mathlib.Order.Basic
import Mathlib.Order.Lattice
import Mathlib.Order.RelClasses

/-! The first entry of each key of a list, and the longest part of it that fits, taken entry by entry. -/
namespace PuffoAgent.Sequences

section Firsts
variable {α κ : Type} [DecidableEq κ]

/-- The entries whose keys were not seen before. -/
def firstsFrom (key : α → κ) (seen : List κ) : List α → List α
  | [] => []
  | a :: as => if key a ∈ seen then firstsFrom key seen as else a :: firstsFrom key (key a :: seen) as

/-- The first entry of each key, in the order of the list. -/
def firsts (key : α → κ) : List α → List α
  | [] => []
  | a :: as => a :: (firsts key as).filter fun b => key b ≠ key a

variable {key : α → κ} {seen : List κ} {as bs : List α}

theorem firstsFrom_eq : firstsFrom key seen as = (firsts key as).filter fun b => key b ∉ seen := by
  induction as generalizing seen with
  | nil => rfl
  | cons a as ih =>
    rw [firstsFrom, firsts]
    by_cases ha : key a ∈ seen
    · rw [if_pos ha, ih, List.filter_cons_of_neg (by simpa using ha), List.filter_filter]
      refine List.filter_congr fun b _ => ?_
      by_cases hb : key b = key a
      · simp [hb, ha]
      · simp [hb]
    · rw [if_neg ha, ih, List.filter_cons_of_pos (by simpa using ha), List.filter_filter]
      refine congrArg _ (List.filter_congr fun b _ => ?_)
      simp [Bool.and_comm]

theorem firstsFrom_nil : firstsFrom key [] as = firsts key as := by
  rw [firstsFrom_eq]
  exact List.filter_eq_self.2 fun b _ => by simp

theorem firsts_sublist : List.Sublist (firsts key as) as := by
  induction as with
  | nil => exact List.Sublist.refl _
  | cons a as ih => exact (List.filter_sublist.trans ih).cons_cons a

@[simp] theorem head?_firsts (key : α → κ) : (firsts key as).head? = as.head? := by
  cases as <;> rfl

theorem firsts_ne_nil (key : α → κ) (h : as ≠ []) : firsts key as ≠ [] := by
  cases as with
  | nil => exact absurd rfl h
  | cons a as => exact List.cons_ne_nil _ _

theorem nodup_firsts : ((firsts key as).map key).Nodup := by
  induction as with
  | nil => exact List.nodup_nil
  | cons a as ih =>
    rw [firsts, List.map_cons, List.nodup_cons]
    refine ⟨?_, (List.Sublist.map key List.filter_sublist).nodup ih⟩
    rw [List.mem_map]
    rintro ⟨b, hb, he⟩
    simp [he] at hb

/-- Entries of keys that differ all stay. -/
theorem firsts_of_nodup (h : (as.map key).Nodup) : firsts key as = as := by
  induction as with
  | nil => rfl
  | cons a as ih =>
    rw [List.map_cons, List.nodup_cons] at h
    rw [firsts, ih h.2, List.filter_eq_self.2 fun b hb => ?_]
    have hne : key b ≠ key a := fun he => h.1 (he ▸ List.mem_map_of_mem hb)
    simp [hne]

/-- In a list from the greatest entry down, the first entry of a key is the greatest. -/
theorem firsts_eq_filter {β : Type} [LinearOrder β] {order : α → β} (h : as.Pairwise fun a b => order b < order a) :
    firsts key as = as.filter fun a => as.all fun b => key b = key a → order b ≤ order a := by
  induction as with
  | nil => rfl
  | cons a as ih =>
    obtain ⟨ha, has⟩ := List.pairwise_cons.1 h
    have hgreatest : (a :: as).all (fun b => key b = key a → order b ≤ order a) = true := by
      rw [List.all_eq_true]
      intro b hb
      rcases List.mem_cons.1 hb with rfl | hb
      · simp
      · simp [(ha b hb).le]
    rw [firsts, ih has, List.filter_cons, if_pos hgreatest, List.filter_filter]
    refine congrArg _ (List.filter_congr fun b hb => ?_)
    have hlt : ¬ order a ≤ order b := not_le.2 (ha b hb)
    by_cases he : key a = key b
    · simp [he, hlt]
    · simp [he, Ne.symm he]

/-- Two predicates select the same leading keys iff both hold of all that either selects. -/
theorem firstsFrom_agree {p q : α → Bool} {n : Nat} :
    (firstsFrom key seen (as.filter p)).take n = (firstsFrom key seen (as.filter q)).take n ↔
      ∀ a ∈ (firstsFrom key seen (as.filter fun a => p a || q a)).take n, p a ∧ q a := by
  induction as generalizing seen n with
  | nil => simp [firstsFrom]
  | cons a as ih =>
    by_cases hnone : (p a || q a) = false
    · obtain ⟨hp, hq⟩ := Bool.or_eq_false_iff.1 hnone
      rw [List.filter_cons_of_neg (by simp [hp]), List.filter_cons_of_neg (by simp [hq]),
        List.filter_cons_of_neg (by simp [hp, hq])]
      exact ih
    · have hor : (p a || q a) = true := eq_true_of_ne_false hnone
      rw [List.filter_cons (p := fun a => p a || q a), if_pos hor]
      by_cases hs : key a ∈ seen
      · have hskip (r : α → Bool) : firstsFrom key seen ((a :: as).filter r) = firstsFrom key seen (as.filter r) := by
          by_cases hr : r a = true
          · rw [List.filter_cons_of_pos hr, firstsFrom, if_pos hs]
          · rw [List.filter_cons_of_neg hr]
        rw [hskip, hskip, firstsFrom, if_pos hs]
        exact ih
      · cases n with
        | zero => simp
        | succ n =>
          have habsent {r : α → Bool} (hr : ¬ r a = true) (k : Nat) :
              a ∉ (firstsFrom key seen ((a :: as).filter r)).take k := by
            intro hmem
            have hmem := List.mem_of_mem_take hmem
            rw [firstsFrom_eq] at hmem
            exact hr (List.of_mem_filter (firsts_sublist.subset (List.mem_of_mem_filter hmem)))
          have htaken {r : α → Bool} (hr : r a = true) :
              (firstsFrom key seen ((a :: as).filter r)).take (n + 1) =
                a :: (firstsFrom key (key a :: seen) (as.filter r)).take n := by
            rw [List.filter_cons_of_pos hr, firstsFrom, if_neg hs, List.take_succ_cons]
          rw [firstsFrom, if_neg hs, List.take_succ_cons, List.forall_mem_cons]
          by_cases hp : p a = true
          · by_cases hq : q a = true
            · rw [htaken hp, htaken hq, List.cons.injEq, and_iff_right rfl, ih]
              simp [hp, hq]
            · -- only one of the lists holds the entry
              refine iff_of_false (fun he => habsent hq (n + 1) ?_) fun hall => hq hall.1.2
              rw [← he, htaken hp]
              exact List.mem_cons_self
          · have hq : q a = true := by simpa [hp] using hor
            refine iff_of_false (fun he => habsent hp (n + 1) ?_) fun hall => hp hall.1.1
            rw [he, htaken hq]
            exact List.mem_cons_self

theorem firsts_agree {p q : α → Bool} {n : Nat} :
    (firsts key (as.filter p)).take n = (firsts key (as.filter q)).take n ↔
      ∀ a ∈ (firsts key (as.filter fun a => p a || q a)).take n, p a ∧ q a := by
  simpa only [firstsFrom_nil] using @firstsFrom_agree α κ _ key [] as p q n

theorem find?_agree {p q : α → Bool} :
    as.find? p = as.find? q ↔ ∀ a ∈ as.find? fun a => p a || q a, p a ∧ q a := by
  induction as with
  | nil => simp
  | cons a as ih =>
    cases hp : p a <;> cases hq : q a
    · simpa [hp, hq] using ih
    · refine iff_of_false (fun he => ?_) fun hall => ?_
      · have hfound : (a :: as).find? p = some a := he.trans (List.find?_cons_of_pos hq)
        exact absurd (List.find?_some hfound) (by simp [hp])
      · exact absurd (hall a (List.find?_cons_of_pos (by simp [hq]))).1 (by simp [hp])
    · refine iff_of_false (fun he => ?_) fun hall => ?_
      · have hfound : (a :: as).find? q = some a := he.symm.trans (List.find?_cons_of_pos hp)
        exact absurd (List.find?_some hfound) (by simp [hq])
      · exact absurd (hall a (List.find?_cons_of_pos (by simp [hp]))).2 (by simp [hq])
    · simp [hp, hq]

end Firsts

section Longest
variable {α : Type}

/-- What is taken until the next entry does not fit. -/
def grow (fits : List α → Bool) (taken : List α) : List α → List α
  | [] => taken
  | a :: as => if fits (taken ++ [a]) then grow fits (taken ++ [a]) as else taken

/-- A part of the list that fits, and with it every part of the list that does. -/
def Longest (fits : List α → Bool) (as taken : List α) : Prop :=
  taken <+: as ∧ fits taken = true ∧ ∀ p, p <+: as → fits p = true → p <+: taken

variable {fits : List α → Bool} {taken as : List α}

theorem prefix_grow : taken <+: grow fits taken as := by
  induction as generalizing taken with
  | nil => exact List.prefix_refl _
  | cons a as ih =>
    rw [grow]
    split
    · exact (List.prefix_append _ _).trans ih
    · exact List.prefix_refl _

theorem Longest.unique {other : List α} (h : Longest fits as taken) (h' : Longest fits as other) : taken = other := by
  have hle := h'.2.2 _ h.1 h.2.1
  exact hle.eq_of_length (Nat.le_antisymm hle.length_le (h.2.2 _ h'.1 h'.2.1).length_le)

theorem longest_grow (hclosed : ∀ p q, p <+: q → fits q = true → fits p = true) (h : fits taken = true) :
    Longest fits (taken ++ as) (grow fits taken as) := by
  induction as generalizing taken with
  | nil =>
    rw [grow, List.append_nil]
    exact ⟨List.prefix_refl _, h, fun p hp _ => hp⟩
  | cons a as ih =>
    rw [grow]
    by_cases ha : fits (taken ++ [a]) = true
    · rw [if_pos ha, List.append_cons]
      exact ih ha
    · rw [if_neg ha]
      refine ⟨List.prefix_append _ _, h, fun p hp hfits => ?_⟩
      rcases List.prefix_or_prefix_of_prefix hp (List.prefix_append taken _) with hle | hle
      · exact hle
      · obtain ⟨rest, rfl⟩ := hle
        cases rest with
        | nil => rw [List.append_nil]
        | cons b rest =>
          -- a longer part would hold the entry that does not fit
          rw [List.prefix_append_right_inj, List.cons_prefix_cons] at hp
          rw [hp.1] at hfits
          refine absurd (hclosed _ _ ?_ hfits) ha
          exact ⟨rest, by rw [List.append_assoc, List.singleton_append]⟩

end Longest
end PuffoAgent.Sequences
