import Mathlib.Data.List.Basic

/-! Replies without a name are matched to their requests by position. Two queues are aligned
when every entry that still counts stands at the same place in both. -/
namespace PuffoAgent.Machine

variable {α : Type} {live live' : α → Prop} {xs ys : List α} {a : α}

def Aligned (live : α → Prop) (xs ys : List α) : Prop :=
  ∀ a, live a → ∀ n : Nat, xs[n]? = some a ↔ ys[n]? = some a

/-- What stands behind the first `a`. -/
def behind [DecidableEq α] (a : α) (xs : List α) : List α := (xs.dropWhile (· ≠ a)).tail

theorem getElem?_append_of_notMem {b : α} (h : b ∉ ys) (n : Nat) : (xs ++ ys)[n]? = some b ↔ xs[n]? = some b := by
  rw [List.getElem?_append]
  split
  · exact Iff.rfl
  · rename_i hn
    constructor
    · exact fun he => absurd (List.mem_of_getElem? he) h
    · intro he
      have := (List.getElem?_eq_some_iff.1 he).1
      omega

theorem filter_ne_of_notMem [DecidableEq α] (h : a ∉ xs) : xs.filter (· ≠ a) = xs := by
  refine List.filter_eq_self.2 fun b hb => ?_
  have hne : b ≠ a := fun he => h (he ▸ hb)
  simpa using hne

theorem behind_append [DecidableEq α] (h : a ∉ xs) : behind a (xs ++ a :: ys) = ys := by
  rw [behind, List.dropWhile_append_of_pos]
  · simp
  · intro b hb
    have hne : b ≠ a := fun he => h (he ▸ hb)
    simpa using hne

namespace Aligned

theorem nil : Aligned live [] [] := fun _ _ _ => Iff.rfl

theorem symm (h : Aligned live xs ys) : Aligned live ys xs := fun a ha n => (h a ha n).symm

theorem mono (h : Aligned live xs ys) (hl : ∀ a, live' a → live a) : Aligned live' xs ys :=
  fun a ha n => h a (hl a ha) n

theorem tail (h : Aligned live xs ys) : Aligned live xs.tail ys.tail := by
  intro a ha n
  rw [List.getElem?_tail, List.getElem?_tail]
  exact h a ha (n + 1)

theorem head (h : Aligned live xs ys) (ha : live a) : xs.head? = some a ↔ ys.head? = some a := by
  rw [List.head?_eq_getElem?, List.head?_eq_getElem?]
  exact h a ha 0

theorem mem (h : Aligned live xs ys) (ha : live a) (hm : a ∈ ys) : a ∈ xs := by
  obtain ⟨n, hn⟩ := List.mem_iff_getElem?.1 hm
  exact List.mem_of_getElem? ((h a ha n).2 hn)

/-- An entry of neither may come to count. -/
theorem extend (h : Aligned live xs ys) (hx : a ∉ xs) (hy : a ∉ ys) (hl : ∀ b, live' b → b = a ∨ live b) :
    Aligned live' xs ys := by
  intro b hb n
  rcases hl b hb with rfl | hb
  · constructor
    · exact fun hn => absurd (List.mem_of_getElem? hn) hx
    · exact fun hn => absurd (List.mem_of_getElem? hn) hy
  · exact h b hb n

/-- A new entry takes the same place in both when they are equally long. -/
theorem append (h : Aligned live xs ys) (hlen : xs.length = ys.length) : Aligned live (xs ++ [a]) (ys ++ [a]) := by
  intro b hb n
  rw [List.getElem?_append, List.getElem?_append, ← hlen]
  split
  · exact h b hb n
  · exact Iff.rfl

/-- An entry is taken out of one of them, with nothing behind it that counts. -/
theorem discard [DecidableEq α] (h : Aligned live xs ys) (hb : ∀ b ∈ behind a xs, ¬live b)
    (hl : ∀ b, live' b → live b ∧ b ≠ a) : Aligned live' (xs.filter (· ≠ a)) ys := by
  intro b hlive n
  obtain ⟨hlive, hne⟩ := hl b hlive
  rw [← h b hlive n]
  by_cases hm : a ∈ xs
  · obtain ⟨front, rear, rfl, hfront⟩ := List.eq_append_cons_of_mem hm
    rw [behind_append hfront] at hb
    have hrear : b ∉ rear := fun hc => hb b hc hlive
    have hcons : b ∉ a :: rear := by
      intro hc
      rcases List.mem_cons.1 hc with he | hc
      · exact hne he
      · exact hrear hc
    have hkept : b ∉ rear.filter (· ≠ a) := fun hc => hrear (List.mem_filter.1 hc).1
    rw [List.filter_append, filter_ne_of_notMem hfront, List.filter_cons_of_neg (by simp),
      getElem?_append_of_notMem hkept, getElem?_append_of_notMem hcons]
  · rw [filter_ne_of_notMem hm]

end Aligned
end PuffoAgent.Machine
