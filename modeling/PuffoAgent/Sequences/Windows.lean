import Mathlib.Data.List.DropRight
import Mathlib.Data.List.Sort

/-! Windows of a sorted list: what a bound and a limit select of it, and walks from window to
window by the keys that each offers. -/
namespace PuffoAgent.Sequences

section Sorting
variable {α β : Type} [LinearOrder β] {order : α → β} {xs ys l r : List α} {a : α}

/-- In the order of the keys, no two of which are equal. -/
def Ascending (order : α → β) (xs : List α) : Prop := xs.Pairwise fun a b => order a < order b

theorem Ascending.eq_of_perm (h : Ascending order xs) (h' : Ascending order ys) (hp : xs.Perm ys) : xs = ys :=
  List.Perm.eq_of_pairwise (fun _ _ _ _ hab hba => absurd hba hab.asymm) h h' hp

theorem ascending_sort (h : (xs.map order).Nodup) :
    Ascending order (xs.insertionSort fun a b => order a ≤ order b) := by
  have hperm := List.perm_insertionSort (fun a b => order a ≤ order b) xs
  have hne := List.pairwise_map.1 ((hperm.map order).nodup_iff.2 h)
  exact (hne.and (List.pairwise_insertionSort (fun a b => order a ≤ order b) xs)).imp
    fun ⟨hne, hle⟩ => lt_of_le_of_ne hle hne

theorem sort_desc (h : (xs.map order).Nodup) :
    xs.insertionSort (fun a b => order b ≤ order a) = (xs.insertionSort fun a b => order a ≤ order b).reverse := by
  have hperm := List.perm_insertionSort (fun a b => order b ≤ order a) xs
  have hne := List.pairwise_map.1 ((hperm.map order).nodup_iff.2 h)
  have hdesc : (xs.insertionSort fun a b => order b ≤ order a).Pairwise fun a b => order b < order a :=
    (hne.and (List.pairwise_insertionSort (fun a b => order b ≤ order a) xs)).imp
      fun ⟨hne, hle⟩ => lt_of_le_of_ne hle hne.symm
  rw [← List.reverse_eq_iff]
  refine Ascending.eq_of_perm (List.pairwise_reverse.2 hdesc) (ascending_sort h) ?_
  exact (List.reverse_perm _).trans (hperm.trans (List.perm_insertionSort _ xs).symm)

theorem sort_filter (h : (xs.map order).Nodup) (p : α → Bool) :
    (xs.filter p).insertionSort (fun a b => order a ≤ order b) =
      (xs.insertionSort fun a b => order a ≤ order b).filter p := by
  refine Ascending.eq_of_perm (ascending_sort (h.sublist (List.filter_sublist.map order)))
    ((ascending_sort h).filter p) ?_
  exact (List.perm_insertionSort _ _).trans ((List.perm_insertionSort _ xs).symm.filter p)

theorem Ascending.below (h : Ascending order (l ++ a :: r)) : (l ++ a :: r).filter (fun b => order b < order a) = l := by
  obtain ⟨-, hr, hlr⟩ := List.pairwise_append.1 h
  have hl : l.filter (fun b => order b < order a) = l :=
    List.filter_eq_self.2 fun b hb => by simpa using hlr b hb a List.mem_cons_self
  have hout : (a :: r).filter (fun b => order b < order a) = [] := by
    refine List.filter_eq_nil_iff.2 fun b hb => ?_
    rcases List.mem_cons.1 hb with rfl | hb
    · simp
    · simpa using ((List.pairwise_cons.1 hr).1 b hb).le
  rw [List.filter_append, hl, hout, List.append_nil]

theorem Ascending.above (h : Ascending order (l ++ a :: r)) : (l ++ a :: r).filter (fun b => order a < order b) = r := by
  obtain ⟨-, hr, hlr⟩ := List.pairwise_append.1 h
  have hl : l.filter (fun b => order a < order b) = [] :=
    List.filter_eq_nil_iff.2 fun b hb => by simpa using (hlr b hb a List.mem_cons_self).le
  have hin : r.filter (fun b => order a < order b) = r :=
    List.filter_eq_self.2 fun b hb => by simpa using (List.pairwise_cons.1 hr).1 b hb
  rw [List.filter_append, hl, List.nil_append, List.filter_cons_of_neg (by simp), hin]

end Sorting

section Walks
variable {α ω κ ε : Type}

/-- From a window by the keys that are offered, until none is. -/
inductive Onward (read : κ → Except ε ω) (next : ω → Option κ) : ω → List ω → Prop
  | done {w : ω} (h : next w = none) : Onward read next w []
  | more {w w' : ω} {ws : List ω} {k : κ} (h : next w = some k) (hr : read k = .ok w')
      (hw : Onward read next w' ws) : Onward read next w (w' :: ws)

/-- Windows of at most `n` rows. At a window, `taken` has been walked through and `rest` is left;
the key that is offered names the last row taken, and is accepted if that row is good. -/
structure Chunked (read : κ → Except ε ω) (next : ω → Option κ) (rows : ω → List α) (good : α → Prop) (n : Nat)
    (At : ω → List α → List α → Prop) : Prop where
  stop : ∀ w taken, At w taken [] → next w = none
  go : ∀ w taken a rest, At w (taken ++ [a]) rest → rest ≠ [] → good a → ∃ k w', next w = some k ∧ read k = .ok w' ∧
    rows w' = rest.take n ∧ At w' (taken ++ [a] ++ rest.take n) (rest.drop n)
  stuck : ∀ w taken a rest k, At w (taken ++ [a]) rest → rest ≠ [] → ¬ good a → next w = some k → ∃ e, read k = .error e

variable {read : κ → Except ε ω} {next : ω → Option κ} {rows : ω → List α} {good : α → Prop} {n : Nat}
  {At : ω → List α → List α → Prop} {w : ω} {ws : List ω} {taken rest : List α}

/-- The step of a walk that goes on. -/
theorem Chunked.step (h : Chunked read next rows good n At) (hw : At w taken rest) (ht : taken ≠ []) {w' : ω} {k : κ}
    (hk : next w = some k) (hr : read k = .ok w') :
    good (taken.getLast ht) ∧ rest ≠ [] ∧ rows w' = rest.take n ∧ At w' (taken ++ rest.take n) (rest.drop n) := by
  have hrest : rest ≠ [] := by
    rintro rfl
    rw [h.stop w taken hw] at hk
    cases hk
  have hlast : taken.dropLast ++ [taken.getLast ht] = taken := List.dropLast_append_getLast ht
  rw [← hlast] at hw
  have hgood : good (taken.getLast ht) := by
    by_contra hbad
    obtain ⟨e, he⟩ := h.stuck _ _ _ _ k hw hrest hbad hk
    cases hr.symm.trans he
  obtain ⟨k', v, hk', hv, hrows, hat⟩ := h.go _ _ _ _ hw hrest hgood
  obtain rfl : k = k' := Option.some.inj (hk.symm.trans hk')
  obtain rfl : w' = v := Except.ok.inj (hr.symm.trans hv)
  rw [hlast] at hat
  exact ⟨hgood, hrest, hrows, hat⟩

/-- A walk that shows all that is left ends with nothing left. -/
theorem Chunked.last (h : Chunked read next rows good n At) (hw : At w taken rest) (ht : taken ≠ [])
    (hon : Onward read next w ws) (hflat : ws.flatMap rows = rest) :
    At ((w :: ws).getLast (List.cons_ne_nil w ws)) (taken ++ rest) [] := by
  induction hon generalizing taken rest with
  | done hn =>
    obtain rfl : [] = rest := hflat
    simpa using hw
  | @more w w' ws k hk hr _ ih =>
    obtain ⟨-, -, hrows, hat⟩ := h.step hw ht hk hr
    rw [List.flatMap_cons, hrows, ← List.take_append_drop n rest, List.take_append_drop] at hflat
    have hrest : ws.flatMap rows = rest.drop n :=
      List.append_cancel_left (hflat.trans (List.take_append_drop n rest).symm)
    have hend := ih hat (by simp [ht]) hrest
    rw [List.append_assoc, List.take_append_drop] at hend
    rwa [List.getLast_cons (List.cons_ne_nil w' ws)]

/-- What every window of a walk is. -/
theorem Chunked.every (h : Chunked read next rows good n At) (hw : At w taken rest) (ht : taken ≠ [])
    (hon : Onward read next w ws) : ∀ v ∈ w :: ws, ∃ taken rest, At v taken rest := by
  induction hon generalizing taken rest with
  | done hn =>
    intro v hv
    obtain rfl := List.mem_singleton.1 hv
    exact ⟨taken, rest, hw⟩
  | more hk hr _ ih =>
    obtain ⟨-, -, -, hat⟩ := h.step hw ht hk hr
    intro v hv
    rcases List.mem_cons.1 hv with rfl | hv
    · exact ⟨taken, rest, hw⟩
    · exact ih hat (by simp [ht]) v hv

/-- A walk shows all that is left iff the last row of each of its windows is good. -/
theorem Chunked.onward_iff (h : Chunked read next rows good n At) (hn : 0 < n) (hw : At w taken rest) (ht : taken ≠ []) :
    (∃ ws, Onward read next w ws ∧ ws.flatMap rows = rest) ↔
      ∀ l a b r, taken ++ rest = l ++ a :: b :: r → taken.length ≤ l.length + 1 → n ∣ l.length + 1 - taken.length →
        good a := by
  induction hlen : rest.length using Nat.strong_induction_on generalizing w taken rest with
  | _ m ih =>
    subst hlen
    by_cases hrest : rest = []
    · subst hrest
      refine iff_of_true ⟨[], .done (h.stop w taken hw), rfl⟩ fun l a b r he hle _ => ?_
      have := congrArg List.length he
      simp only [List.append_nil, List.length_append, List.length_cons] at this
      omega
    · have hpos : 0 < rest.length := List.length_pos_iff.2 hrest
      have hnext {v : ω} (hat : At v (taken ++ rest.take n) (rest.drop n)) :=
        ih (rest.drop n).length (by rw [List.length_drop]; omega) hat (by simp [ht]) rfl
      have hlast : taken.dropLast ++ [taken.getLast ht] = taken := List.dropLast_append_getLast ht
      have hlen : (taken ++ rest.take n).length = taken.length + min n rest.length := by
        rw [List.length_append, List.length_take]
      rw [List.append_assoc, List.take_append_drop] at hnext
      constructor
      · rintro ⟨ws, hon, hflat⟩ l a b r he hle hdvd
        cases hon with
        | done _ => exact absurd hflat.symm hrest
        | more hk hr hon =>
          obtain ⟨hgood, -, hrows, hat⟩ := h.step hw ht hk hr
          rw [List.flatMap_cons, hrows] at hflat
          have hcut := (hnext hat).1 ⟨_, hon, List.append_cancel_left (hflat.trans (List.take_append_drop n rest).symm)⟩
          have htotal := congrArg List.length he
          simp only [List.length_append, List.length_cons] at htotal
          by_cases heq : taken.length = l.length + 1
          · have hhead : taken = l ++ [a] := by
              have := congrArg (List.take (l.length + 1)) he
              rw [← heq, List.take_left] at this
              rw [this, heq, List.take_length_add_append]
              rfl
            subst hhead
            simpa using hgood
          · obtain ⟨q, hq⟩ := hdvd
            obtain ⟨q, rfl⟩ : ∃ q', q = q' + 1 := ⟨q - 1, by
              have : q ≠ 0 := fun h0 => by subst h0; omega
              omega⟩
            rw [Nat.mul_succ] at hq
            refine hcut l a b r he (by rw [hlen]; omega) ⟨q, ?_⟩
            rw [hlen]
            omega
      · intro hcut
        obtain ⟨b, r, rfl⟩ := List.exists_cons_of_ne_nil hrest
        have hlen' : taken.dropLast.length + 1 = taken.length := by
          simpa only [List.length_append, List.length_singleton] using congrArg List.length hlast
        have hgood : good (taken.getLast ht) := by
          refine hcut taken.dropLast (taken.getLast ht) b r ?_ hlen'.ge ?_
          · conv_lhs => rw [← hlast]
            simp
          · rw [hlen', Nat.sub_self]
            exact ⟨0, (Nat.mul_zero n).symm⟩
        obtain ⟨k, v, hk, hr, hrows, hat⟩ := h.go w taken.dropLast (taken.getLast ht) (b :: r) (by rwa [hlast]) hrest hgood
        rw [hlast] at hat
        obtain ⟨ws, hon, hflat⟩ := (hnext hat).2 fun l a b' r' he hle hdvd => by
          have htotal := congrArg List.length he
          simp only [List.length_append, List.length_cons] at htotal
          rw [hlen] at hle hdvd
          simp only [List.length_cons] at hle hdvd
          refine hcut l a b' r' he (by omega) ?_
          obtain ⟨q, hq⟩ := hdvd
          refine ⟨q + 1, ?_⟩
          rw [Nat.mul_succ, ← hq]
          omega
        exact ⟨v :: ws, .more hk hr hon, by rw [List.flatMap_cons, hrows, hflat, List.take_append_drop]⟩

/-- Pages that are read from a bound until one is empty show all that lies beyond the bound. -/
theorem onward_pages (ε : Type) (next : ω → Option κ) (rows : ω → List α) (page : κ → ω) (beyond : κ → List α)
    (hempty : ∀ k, beyond k = [] → next (page k) = none ∧ rows (page k) = [])
    (hstep : ∀ k, beyond k ≠ [] → ∃ k', next (page k) = some k' ∧ rows (page k) ≠ [] ∧
      rows (page k) ++ beyond k' = beyond k) (k : κ) :
    ∃ ws, Onward (fun k => (.ok (page k) : Except ε ω)) next (page k) ws ∧ (page k :: ws).flatMap rows = beyond k := by
  induction hlen : (beyond k).length using Nat.strong_induction_on generalizing k with
  | _ m ih =>
    subst hlen
    by_cases hk : beyond k = []
    · obtain ⟨hnone, hrows⟩ := hempty k hk
      exact ⟨[], .done hnone, by simp [hrows, hk]⟩
    · obtain ⟨k', hnext, hne, hsplit⟩ := hstep k hk
      have hshort : (beyond k').length < (beyond k).length := by
        have := congrArg List.length hsplit
        have := List.length_pos_iff.2 hne
        simp only [List.length_append] at *
        omega
      obtain ⟨ws, hon, hflat⟩ := ih _ hshort k' rfl
      exact ⟨page k' :: ws, .more hnext rfl hon, by rw [List.flatMap_cons, hflat, hsplit]⟩

end Walks
end PuffoAgent.Sequences
