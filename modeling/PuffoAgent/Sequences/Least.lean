import Mathlib.Order.Bounds.Image
import Mathlib.Data.List.Sort

/-! The least element of a set that may be empty, as an optional value. -/
namespace PuffoAgent.Sequences

variable {α β : Type*} [LinearOrder α] [LinearOrder β]

/-- `o` is the least element of `S`, and `none` if there is nothing in it. -/
def LeastOf (S : Set α) : Option α → Prop
  | none => S = ∅
  | some a => IsLeast S a

theorem LeastOf.mem {S : Set α} {o : Option α} {a : α} (h : LeastOf S o) (ha : a ∈ S) :
    ∃ b, o = some b ∧ b ≤ a := by
  cases o with
  | none => exact absurd ha (by rw [show S = ∅ from h]; exact Set.notMem_empty a)
  | some b => exact ⟨b, rfl, h.2 ha⟩

theorem LeastOf.map {S : Set α} {o : Option α} {f : α → β} (hf : Monotone f) (h : LeastOf S o) :
    LeastOf (f '' S) (o.map f) := by
  cases o with
  | none =>
    rw [show S = ∅ from h]
    exact Set.image_empty f
  | some a => exact hf.map_isLeast h

/-- A further element is met by the smaller of the two. -/
theorem LeastOf.insert {S : Set α} {o : Option α} (h : LeastOf S o) (a : α) :
    LeastOf (Insert.insert a S) (some (o.elim a (min · a))) := by
  cases o with
  | none =>
    rw [show S = ∅ from h]
    exact ⟨Set.mem_insert a ∅, fun b hb => (Set.mem_singleton_iff.mp (by simpa using hb)).ge⟩
  | some b =>
    change IsLeast (Insert.insert a S) (min b a)
    rw [min_comm]
    exact IsLeast.insert a h

/-- The head of a list whose keys do not fall. -/
theorem leastOf_head {γ : Type*} {f : γ → α} {xs : List γ} (h : xs.Pairwise fun x y => f x ≤ f y) :
    LeastOf {t | ∃ x ∈ xs, f x = t} (xs.head?.map f) := by
  cases xs with
  | nil =>
    refine Set.eq_empty_iff_forall_notMem.mpr ?_
    rintro t ⟨x, hx, -⟩
    cases hx
  | cons x xs =>
    refine ⟨⟨x, List.mem_cons_self, rfl⟩, ?_⟩
    rintro t ⟨y, hy, rfl⟩
    rcases List.mem_cons.mp hy with rfl | hy
    · exact le_rfl
    · exact List.rel_of_pairwise_cons h hy

end PuffoAgent.Sequences
