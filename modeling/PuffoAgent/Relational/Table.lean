import Mathlib.Data.List.Nodup
import Mathlib.Data.List.Find
import Mathlib.Data.Finset.Card

/-! Keyed tables. A primary key is unique by construction, so a lookup by key
describes a table completely and every statement acts on lookups pointwise. -/
namespace PuffoAgent.Relational

section Rel
variable {α : Type} {R S : α → α → Prop} {a b c : Option α}

theorem rel_mono (h : Option.Rel R a b) (hs : ∀ x y, R x y → S x y) : Option.Rel S a b := by
  cases h with
  | none => exact .none
  | some h => exact .some (hs _ _ h)

theorem rel_refl (hr : ∀ x, R x x) (a : Option α) : Option.Rel R a a := by
  cases a with
  | none => exact .none
  | some x => exact .some (hr x)

theorem rel_trans (ht : ∀ x y z, R x y → R y z → R x z) (h : Option.Rel R a b)
    (h' : Option.Rel R b c) : Option.Rel R a c := by
  cases h with
  | none => exact h'
  | some h =>
    cases h' with
    | some h' => exact .some (ht _ _ _ h h')

variable {β : Type} {T : α → β → Prop}

theorem rel_some_left {x : α} {b : Option β} (h : Option.Rel T (some x) b) : ∃ y, b = some y ∧ T x y := by
  cases h with
  | some h => exact ⟨_, rfl, h⟩

theorem rel_some_right {y : β} (h : Option.Rel T a (some y)) : ∃ x, a = some x ∧ T x y := by
  cases h with
  | some h => exact ⟨_, rfl, h⟩

end Rel

/-- The rows of a relation in insertion order, with a unique primary key. -/
structure Table (α κ : Type) (key : α → κ) where
  rows : List α
  nodup : (rows.map key).Nodup

namespace Table
variable {α κ : Type} {key : α → κ}

def empty : Table α κ key := ⟨[], List.nodup_nil⟩

theorem ext_rows {t t' : Table α κ key} (h : t.rows = t'.rows) : t = t' := by
  cases t
  cases t'
  simpa using h

/-- `SELECT ... WHERE p`, in insertion order. -/
def select (t : Table α κ key) (p : α → Bool) : List α := t.rows.filter p

/-- `UPDATE ... SET f WHERE p`. The primary key is never written. -/
def update (t : Table α κ key) (p : α → Bool) (f : α → α) (hf : ∀ a, key (f a) = key a) :
    Table α κ key where
  rows := t.rows.map (fun a => if p a then f a else a)
  nodup := by
    have he : key ∘ (fun a => if p a then f a else a) = key := by
      funext a
      simp only [Function.comp_apply]
      split
      · exact hf a
      · rfl
    rw [List.map_map, he]
    exact t.nodup

/-- `DELETE ... WHERE p`. -/
def delete (t : Table α κ key) (p : α → Bool) : Table α κ key :=
  ⟨t.rows.filter (fun a => !p a), t.nodup.sublist (List.filter_sublist.map key)⟩

/-- Keep the `cap` youngest rows. -/
def evict (t : Table α κ key) (cap : Nat) : Table α κ key :=
  ⟨t.rows.drop (t.rows.length - cap), t.nodup.sublist ((List.drop_sublist _ _).map key)⟩

section Lookup
variable [DecidableEq κ]

def get? (t : Table α κ key) (k : κ) : Option α := t.rows.find? (fun a => key a = k)

/-- `INSERT`: refused when the primary key is taken. -/
def insert? (t : Table α κ key) (a : α) : Option (Table α κ key) :=
  if h : key a ∈ t.rows.map key then none
  else some ⟨t.rows ++ [a], by
    rw [List.map_append]
    exact t.nodup.append (List.nodup_singleton _) (by simpa using h)⟩

/-- `INSERT OR IGNORE`. -/
def insertOrIgnore (t : Table α κ key) (a : α) : Table α κ key := (t.insert? a).getD t

/-- `INSERT OR REPLACE`, and the assignment to a key of a dictionary. -/
def assign (t : Table α κ key) (a : α) : Table α κ key := (t.delete (key · = key a)).insertOrIgnore a

/-- The assignment to a key of a dictionary, which keeps the place of the key. -/
def put (t : Table α κ key) (a : α) : Table α κ key :=
  (t.update (key · = key a) (fun b => if key b = key a then a else b) (by grind)).insertOrIgnore a

/-- The primary keys of the rows that satisfy `p`. -/
def keysWhere (t : Table α κ key) (p : α → Bool) : Finset κ := ((t.select p).map key).toFinset

omit [DecidableEq κ] in
theorem eq_of_key_eq (t : Table α κ key) {a b : α} (ha : a ∈ t.rows) (hb : b ∈ t.rows)
    (h : key a = key b) : a = b := List.inj_on_of_nodup_map t.nodup ha hb h

@[grind →]
theorem get?_key {t : Table α κ key} {k : κ} {a : α} (h : t.get? k = some a) : key a = k := by
  simpa using List.find?_some h

@[grind →]
theorem mem_of_get? {t : Table α κ key} {k : κ} {a : α} (h : t.get? k = some a) : a ∈ t.rows :=
  List.mem_of_find?_eq_some h

theorem get?_of_mem {t : Table α κ key} {a : α} (h : a ∈ t.rows) : t.get? (key a) = some a := by
  cases hg : t.get? (key a) with
  | none => simpa using List.find?_eq_none.mp hg a h
  | some b => rw [t.eq_of_key_eq (mem_of_get? hg) h (get?_key hg)]

theorem mem_iff_get? {t : Table α κ key} {a : α} : a ∈ t.rows ↔ t.get? (key a) = some a :=
  ⟨get?_of_mem, mem_of_get?⟩

theorem get?_eq_none_iff {t : Table α κ key} {k : κ} : t.get? k = none ↔ k ∉ t.rows.map key := by
  simp [get?, List.find?_eq_none]

@[simp]
theorem get?_empty (k : κ) : (empty : Table α κ key).get? k = none := rfl

/-- Rewriting rows in place, without touching their keys, rewrites lookups. -/
theorem get?_of_rows_map {t t' : Table α κ key} {g : α → α} (h : t'.rows = t.rows.map g)
    (hg : ∀ a ∈ t.rows, key (g a) = key a) (k : κ) : t'.get? k = (t.get? k).map g := by
  simp only [get?, h, List.find?_map]
  congr 1
  refine List.find?_congr ?_
  intro a ha
  simp only [Function.comp_apply, hg a ha]

@[simp]
theorem get?_update (t : Table α κ key) (p : α → Bool) (f : α → α)
    (hf : ∀ a, key (f a) = key a) (k : κ) :
    (t.update p f hf).get? k = (t.get? k).map (fun a => if p a then f a else a) := by
  refine get?_of_rows_map rfl ?_ k
  intro a _
  split
  · exact hf a
  · rfl

@[simp]
theorem get?_delete (t : Table α κ key) (p : α → Bool) (k : κ) :
    (t.delete p).get? k = (t.get? k).filter (fun a => !p a) := by
  cases hg : t.get? k with
  | none =>
    rw [get?_eq_none_iff] at hg
    simp only [Option.filter_none, get?_eq_none_iff]
    exact fun h => hg ((List.filter_sublist.map key).subset h)
  | some a =>
    have hm := mem_of_get? hg
    obtain rfl := get?_key hg
    cases hp : p a with
    | false =>
      have hd : a ∈ (t.delete p).rows := by simp [delete, hm, hp]
      rw [get?_of_mem hd, Option.filter, hp]
      rfl
    | true =>
      simp only [Option.filter, hp, Bool.not_true, Bool.false_eq_true, if_false,
        get?_eq_none_iff, List.mem_map, not_exists, not_and]
      intro b hb hk
      simp only [delete, List.mem_filter, Bool.not_eq_true'] at hb
      rw [t.eq_of_key_eq hb.1 hm hk, hp] at hb
      exact absurd hb.2 (by simp)

theorem get?_of_get?_evict {t : Table α κ key} {cap : Nat} {k : κ} {a : α}
    (h : (t.evict cap).get? k = some a) : t.get? k = some a := by
  have hm : a ∈ t.rows := (List.drop_sublist _ _).subset (mem_of_get? h)
  rw [← get?_key h]
  exact get?_of_mem hm

theorem insert?_eq_some {t t' : Table α κ key} {a : α} :
    t.insert? a = some t' ↔ t.get? (key a) = none ∧ t'.rows = t.rows ++ [a] := by
  unfold insert?
  split
  · rename_i h
    simp [get?_eq_none_iff, h]
  · rename_i h
    simp only [Option.some.injEq, get?_eq_none_iff, h, not_false_iff, true_and]
    constructor
    · rintro rfl; rfl
    · exact fun he => ext_rows he.symm

theorem rows_insertOrIgnore {t : Table α κ key} {a : α} (h : t.get? (key a) = none) :
    (t.insertOrIgnore a).rows = t.rows ++ [a] := by
  have hn := get?_eq_none_iff.1 h
  simp [insertOrIgnore, insert?, hn]

theorem get?_append {t t' : Table α κ key} {a : α} (h : t'.rows = t.rows ++ [a]) (k : κ) :
    t'.get? k = (t.get? k).or (if key a = k then some a else none) := by
  simp only [get?, h, List.find?_append, List.find?_singleton, decide_eq_true_eq]

theorem get?_insert {t t' : Table α κ key} {a : α} (h : t.insert? a = some t') (k : κ) :
    t'.get? k = if key a = k then some a else t.get? k := by
  obtain ⟨hn, hr⟩ := insert?_eq_some.mp h
  rw [get?_append hr]
  split
  · rename_i he
    rw [← he, hn, Option.none_or]
  · rw [Option.or_none]

theorem get?_insertOrIgnore (t : Table α κ key) (a : α) (k : κ) :
    (t.insertOrIgnore a).get? k =
      if key a = k ∧ t.get? k = none then some a else t.get? k := by
  unfold insertOrIgnore
  cases h : t.insert? a with
  | some t' =>
    have hn := (insert?_eq_some.mp h).1
    rw [Option.getD_some, get?_insert h]
    by_cases hk : key a = k
    · subst hk; simp [hn]
    · simp [hk]
  | none =>
    rw [Option.getD_none, if_neg]
    rintro ⟨rfl, hn⟩
    obtain ⟨t', ht⟩ : ∃ t', t.insert? a = some t' := by
      rw [get?_eq_none_iff] at hn
      exact ⟨_, dif_neg hn⟩
    simp [h] at ht

@[simp]
theorem get?_assign (t : Table α κ key) (a : α) (k : κ) :
    (t.assign a).get? k = if key a = k then some a else t.get? k := by
  rw [assign, get?_insertOrIgnore, get?_delete]
  cases hg : t.get? k with
  | none => simp
  | some b =>
    have hb : key b = k := get?_key hg
    by_cases hk : key a = k
    · simp [Option.filter, hb, hk]
    · simp [Option.filter, hb, hk, Ne.symm hk]

@[simp]
theorem get?_put (t : Table α κ key) (a : α) (k : κ) :
    (t.put a).get? k = if key a = k then some a else t.get? k := by
  rw [put, get?_insertOrIgnore, get?_update]
  cases hg : t.get? k with
  | none => simp
  | some b =>
    have hb : key b = k := get?_key hg
    by_cases hk : key a = k
    · simp [hb, hk]
    · simp [hb, hk, Ne.symm hk]

theorem rows_put_of_new {t : Table α κ key} {a : α} (h : t.get? (key a) = none) : (t.put a).rows = t.rows ++ [a] := by
  have hsame : (t.update (key · = key a) (fun b => if key b = key a then a else b) (by grind)).rows = t.rows := by
    refine (List.map_congr_left fun b hb => ?_).trans (List.map_id _)
    have hne : key b ≠ key a := fun he => get?_eq_none_iff.1 h (he ▸ List.mem_map_of_mem hb)
    simp [hne]
  rw [put, rows_insertOrIgnore, hsame]
  rw [get?_update, h, Option.map_none]

/-- The entry of a key and those of the others. -/
theorem rows_put_perm (t : Table α κ key) (a : α) : (t.put a).rows.Perm (a :: (t.delete (key · = key a)).rows) := by
  have hnew : a ∉ (t.delete (key · = key a)).rows := by simp [delete]
  refine (List.perm_ext_iff_of_nodup (t.put a).nodup.of_map
    (List.nodup_cons.2 ⟨hnew, (t.delete (key · = key a)).nodup.of_map⟩)).2 fun b => ?_
  rw [mem_iff_get?, get?_put, List.mem_cons, mem_iff_get?, get?_delete]
  by_cases hk : key a = key b
  · rw [if_pos hk]
    constructor
    · rintro ⟨⟩
      exact .inl rfl
    · rintro (rfl | hb)
      · rfl
      · rw [Option.filter_eq_some_iff] at hb
        simp [hk] at hb
  · rw [if_neg hk]
    constructor
    · intro hb
      exact .inr (Option.filter_eq_some_iff.2 ⟨hb, by simp [Ne.symm hk]⟩)
    · rintro (rfl | hb)
      · exact absurd rfl hk
      · exact (Option.filter_eq_some_iff.1 hb).1

/-- A dictionary that is filled key by key holds the entries in their order. -/
theorem rows_foldl_put {t : Table α κ key} {as : List α} (h : (t.rows.map key ++ as.map key).Nodup) :
    (as.foldl put t).rows = t.rows ++ as := by
  induction as generalizing t with
  | nil => simp
  | cons a as ih =>
    have hnew : t.get? (key a) = none := by
      rw [get?_eq_none_iff]
      exact fun hm => (List.nodup_append.1 h).2.2 _ hm _ List.mem_cons_self rfl
    have hrows := rows_put_of_new hnew
    rw [List.foldl_cons, ih (by simpa [hrows] using h), hrows, List.append_assoc]
    rfl

/-- What only the row of one key has. -/
theorem flatMap_of_key {β : Type} {t : Table α κ key} {f : α → List β} {k : κ}
    (hf : ∀ a ∈ t.rows, key a ≠ k → f a = []) : t.rows.flatMap f = ((t.get? k).map f).getD [] := by
  obtain ⟨rows, nodup⟩ := t
  induction rows with
  | nil => rfl
  | cons a rows ih =>
    obtain ⟨ha, nodup⟩ := List.nodup_cons.1 nodup
    have ih := ih nodup fun b hb => hf b (List.mem_cons_of_mem _ hb)
    rw [get?] at ih ⊢
    by_cases hk : key a = k
    · have hnone : rows.find? (fun b => decide (key b = k)) = none :=
        List.find?_eq_none.2 fun b hb => by
          have : key b ≠ key a := fun he => ha (he ▸ List.mem_map_of_mem hb)
          simpa [← hk] using this
      rw [hnone] at ih
      simp [hk, ih]
    · simpa [hk, hf a List.mem_cons_self hk] using ih

theorem mem_keysWhere {t : Table α κ key} {p : α → Bool} {k : κ} :
    k ∈ t.keysWhere p ↔ ∃ a, t.get? k = some a ∧ p a = true := by
  simp only [keysWhere, select, List.mem_toFinset, List.mem_map, List.mem_filter]
  constructor
  · rintro ⟨a, ⟨ha, hp⟩, rfl⟩
    exact ⟨a, get?_of_mem ha, hp⟩
  · rintro ⟨a, hg, hp⟩
    exact ⟨a, ⟨mem_of_get? hg, hp⟩, get?_key hg⟩

theorem card_keysWhere (t : Table α κ key) (p : α → Bool) :
    (t.keysWhere p).card = (t.select p).length := by
  rw [keysWhere, List.toFinset_card_of_nodup, List.length_map]
  exact t.nodup.sublist (List.filter_sublist.map key)

theorem rel_of_rows_map {R : α → α → Prop} {t t' : Table α κ key} {g : α → α}
    (h : t'.rows = t.rows.map g) (hg : ∀ a ∈ t.rows, key (g a) = key a)
    (step : ∀ a ∈ t.rows, R a (g a)) (k : κ) : Option.Rel R (t.get? k) (t'.get? k) := by
  rw [get?_of_rows_map h hg]
  cases hk : t.get? k with
  | none => exact .none
  | some a => exact .some (step a (mem_of_get? hk))

/-- When as many rows change as there are ids, every id names such a row. -/
theorem all_of_select_length {t : Table α κ key} {p : α → Bool} {ids : List κ}
    (h : (t.select fun a => decide (key a ∈ ids ∧ p a = true)).length = ids.length) :
    ids.Nodup ∧ ∀ k ∈ ids, ∃ a, t.get? k = some a ∧ p a = true := by
  rw [← card_keysWhere] at h
  have hsub : t.keysWhere (fun a => decide (key a ∈ ids ∧ p a = true)) ⊆ ids.toFinset := by
    intro k hk
    obtain ⟨a, hg, hp⟩ := mem_keysWhere.mp hk
    obtain rfl := get?_key hg
    exact List.mem_toFinset.mpr (of_decide_eq_true hp).1
  have hcard : ids.toFinset.card = ids.length :=
    le_antisymm (List.toFinset_card_le ids) (h ▸ Finset.card_le_card hsub)
  have heq := Finset.eq_of_subset_of_card_le hsub (by omega)
  refine ⟨Multiset.toFinset_card_eq_card_iff_nodup.mp hcard, ?_⟩
  intro k hk
  obtain ⟨a, hg, hp⟩ := mem_keysWhere.mp (heq ▸ List.mem_toFinset.mpr hk)
  exact ⟨a, hg, (of_decide_eq_true hp).2⟩

theorem select_length_le {t : Table α κ key} {p : α → Bool} (ids : List κ) :
    (t.select fun a => decide (key a ∈ ids ∧ p a = true)).length ≤ ids.length := by
  rw [← card_keysWhere]
  refine le_trans (Finset.card_le_card ?_) (List.toFinset_card_le ids)
  intro k hk
  obtain ⟨a, hg, hp⟩ := mem_keysWhere.mp hk
  obtain rfl := get?_key hg
  exact List.mem_toFinset.mpr (of_decide_eq_true hp).1

/-- When every id names such a row, as many rows change as there are ids. -/
theorem select_length_of_all {t : Table α κ key} {p : α → Bool} {ids : List κ} (nodup : ids.Nodup)
    (h : ∀ k ∈ ids, ∃ a, t.get? k = some a ∧ p a = true) :
    (t.select fun a => decide (key a ∈ ids ∧ p a = true)).length = ids.length := by
  rw [← card_keysWhere, ← List.toFinset_card_of_nodup nodup]
  congr 1
  ext k
  rw [mem_keysWhere, List.mem_toFinset]
  constructor
  · rintro ⟨a, hg, hp⟩
    exact get?_key hg ▸ (of_decide_eq_true hp).1
  · intro hk
    obtain ⟨a, hg, hp⟩ := h k hk
    exact ⟨a, hg, decide_eq_true ⟨(get?_key hg).symm ▸ hk, hp⟩⟩

theorem select_key_length_le_one {t : Table α κ key} {p : α → Bool} (k : κ) :
    (t.select fun a => decide (key a = k ∧ p a = true)).length ≤ 1 := by
  have h := select_length_le (t := t) (p := p) [k]
  simpa only [List.mem_singleton, List.length_singleton] using h

theorem exists_of_select_key_length {t : Table α κ key} {p : α → Bool} {k : κ}
    (h : (t.select fun a => decide (key a = k ∧ p a = true)).length = 1) :
    ∃ a, t.get? k = some a ∧ p a = true := by
  have h' : (t.select fun a => decide (key a ∈ [k] ∧ p a = true)).length = [k].length := by
    simpa only [List.mem_singleton, List.length_singleton] using h
  exact (all_of_select_length h').2 k (List.mem_singleton_self k)

omit [DecidableEq κ] in
theorem rows_update_of_select_nil {t : Table α κ key} {p : α → Bool} {f : α → α}
    (h : t.select p = []) : t.rows.map (fun a => if p a = true then f a else a) = t.rows := by
  refine (List.map_congr_left ?_).trans (List.map_id t.rows)
  intro a ha
  rw [if_neg, id]
  intro hp
  have : a ∈ t.select p := List.mem_filter.mpr ⟨ha, hp⟩
  rw [h] at this
  cases this

/-- A row that is updated keeps its place. -/
theorem rows_update_at {t : Table α κ key} {before after : List α} {a : α} {f : α → α} (hf : ∀ a, key (f a) = key a)
    (h : t.rows = before ++ a :: after) : (t.update (key · = key a) f hf).rows = before ++ f a :: after := by
  have hnodup := t.nodup
  rw [h, List.map_append, List.map_cons, List.nodup_append, List.nodup_cons] at hnodup
  obtain ⟨-, ⟨hafter, -⟩, hbefore⟩ := hnodup
  have hother {as : List α} (has : ∀ b ∈ as, key b ≠ key a) :
      as.map (fun b => if decide (key b = key a) = true then f b else b) = as := by
    refine (List.map_congr_left fun b hb => ?_).trans (List.map_id as)
    rw [if_neg (by simpa using has b hb), id]
  change t.rows.map _ = _
  rw [h, List.map_append, List.map_cons, if_pos (decide_eq_true rfl)]
  rw [hother fun b hb => hbefore _ (List.mem_map_of_mem hb) _ List.mem_cons_self,
    hother fun b hb he => hafter (he ▸ List.mem_map_of_mem hb)]

end Lookup
end Table
end PuffoAgent.Relational
