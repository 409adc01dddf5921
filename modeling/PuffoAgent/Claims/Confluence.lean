import PuffoAgent.Claims.Rules
import Mathlib.Data.List.Perm.Basic

/-! When the standings of a set of items do not depend on the order they arrive in. -/
namespace PuffoAgent.Claims
open Relation

section Paths
variable {κ : Type} {R T : κ → κ → Prop}

/-- A path that starts on a cycle stays on it. -/
theorem on_cycle (hT : Relator.RightUnique T) (hR : ∀ {a b}, R a b → T a b) {a b : κ} (hc : TransGen R a a)
    (hp : TransGen T a b) : TransGen R a b ∧ TransGen R b a := by
  have hstep {x y : κ} (hx : TransGen R x a) (hy : T x y) : R x y ∧ TransGen R y a := by
    obtain ⟨y', hxy, hya⟩ := TransGen.head'_iff.1 hx
    obtain rfl := hT (hR hxy) hy
    rcases reflTransGen_iff_eq_or_transGen.1 hya with rfl | hya
    · exact ⟨hxy, hc⟩
    · exact ⟨hxy, hya⟩
  induction hp with
  | single h =>
    obtain ⟨hab, hba⟩ := hstep hc h
    exact ⟨.single hab, hba⟩
  | tail _ h ih =>
    obtain ⟨hbc, hca⟩ := hstep ih.2 h
    exact ⟨ih.1.tail hbc, hca⟩

/-- A path that leaves a cycle at no point ends nowhere. -/
theorem not_cycle_of_end (hT : Relator.RightUnique T) {a b : κ} (hb : ∀ c, ¬ T b c) (hp : ReflTransGen T a b) :
    ¬ TransGen T a a := by
  intro hc
  have hbb : TransGen T b a := by
    rcases reflTransGen_iff_eq_or_transGen.1 hp with rfl | hab
    · exact hc
    · exact (on_cycle hT id hc hab).2
  obtain ⟨c, hbc, -⟩ := TransGen.head'_iff.1 hbb
  exact hb c hbc

theorem cycle_next (hT : Relator.RightUnique T) {a b : κ} (hab : T a b) (hc : TransGen T a a) : TransGen T b b := by
  obtain ⟨h, h'⟩ := on_cycle hT id hc (.single hab)
  exact h'.trans h

end Paths

namespace Rules
variable {κ : Type} (rules : Rules κ)

/-- `a` claims `b`, both in `S`. -/
def Link (S : Set κ) (a b : κ) : Prop := a ∈ S ∧ b ∈ S ∧ rules.claim a = some b

/-- Both checks agree on a claimed item and on what lies above it, and no item claims its
way onto a cycle. -/
structure Orderly (M : Set κ) : Prop where
  agree : ∀ {k a}, rules.Link M k a → (rules.passes (rules.claim a).isSome k a ↔ rules.admits k a)
  accepted : ∀ {k a x}, rules.Link M k a → rules.admits k a → rules.Link M a x → rules.admits a x
  above : ∀ {k a x}, rules.Link M k a → rules.admits k a → TransGen (rules.Link M) a x →
    rules.passes (rules.claim x).isSome k x ∧ (rules.claim x = none → rules.admits k x)
  closed : ∀ {k a}, rules.Link M k a → rules.admits k a → TransGen (rules.Link M) a a →
    TransGen (rules.Link M) a k

/-- The standing of `k` once the items of `S` are stored, whatever their order. -/
inductive Stands (S : Set κ) : κ → Standing κ → Prop where
  | free {k} : rules.claim k = none → Stands S k .free
  | missing {k p} : rules.claim k = some p → p ∉ S → Stands S k (.unverified p)
  | dropped {k p} : rules.claim k = some p → p ∈ S →
    (rules.admits k p = false ∨ TransGen (rules.Link S) k k) → Stands S k .free
  | hung {k p st} : rules.claim k = some p → p ∈ S → rules.admits k p → ¬ TransGen (rules.Link S) k k →
    Stands S p st → Stands S k (st.under p)

variable {rules} {S M : Set κ} {k p r v : κ} {st st' : Standing κ}

/-- Where every claimed item claims nothing itself, it is enough that the checks agree. -/
theorem orderly_of_flat (hr : ∀ {k a}, rules.Link M k a → rules.claim a = none)
    (ha : ∀ {k a}, rules.Link M k a → (rules.passes false k a ↔ rules.admits k a)) : rules.Orderly M := by
  have hend {k a b : κ} (hl : rules.Link M k a) : ¬ TransGen (rules.Link M) a b := by
    intro hp
    obtain ⟨c, hac, -⟩ := TransGen.head'_iff.1 hp
    exact absurd ((hr hl).symm.trans hac.2.2) nofun
  exact {
    agree := fun hl => by simpa [hr hl] using ha hl
    accepted := fun hl _ hax => absurd (.single hax) (hend hl)
    above := fun hl _ hp => absurd hp (hend hl)
    closed := fun hl _ hp => absurd hp (hend hl) }

theorem Link.mono (h : S ⊆ M) {a b : κ} (hl : rules.Link S a b) : rules.Link M a b := ⟨h hl.1, h hl.2.1, hl.2.2⟩

theorem path_mono (h : S ⊆ M) {a b : κ} (hp : TransGen (rules.Link S) a b) : TransGen (rules.Link M) a b :=
  TransGen.mono (fun _ _ hl => Link.mono h hl) _ _ hp

theorem link_unique : Relator.RightUnique (rules.Link S) := fun _ _ _ hb hc => Option.some.inj (hb.2.2.symm.trans hc.2.2)

theorem Stands.unique (h : rules.Stands S k st) (h' : rules.Stands S k st') : st = st' := by
  induction h generalizing st' with
  | free hc => cases h' <;> first | rfl | simp_all
  | missing hc hp => cases h' <;> simp_all
  | dropped hc hp hd =>
    cases h' with
    | free | dropped => rfl
    | missing hc' hp' => simp_all
    | hung hc' _ ha' hcy' => simp_all
  | hung hc hp ha hcy hs ih =>
    cases h' with
    | free hc' => simp_all
    | missing hc' hp' => simp_all
    | dropped hc' _ hd' => simp_all
    | hung hc' _ _ _ hs' =>
      obtain rfl := Option.some.inj (hc.symm.trans hc')
      rw [ih hs']

theorem Stands.claim_ne_none (h : rules.Stands S k st) (hst : st ≠ .free) : rules.claim k ≠ none := by
  cases h with
  | free | dropped => exact absurd rfl hst
  | missing hc | hung hc => simp [hc]

/-- Only what is free can lie on a cycle. -/
theorem Stands.acyclic (h : rules.Stands S k st) (hst : st ≠ .free) : ¬ TransGen (rules.Link S) k k := by
  cases h with
  | free | dropped => exact absurd rfl hst
  | missing hc hp =>
    intro hcy
    obtain ⟨c, ⟨-, hcS, hkc⟩, -⟩ := TransGen.head'_iff.1 hcy
    obtain rfl := Option.some.inj (hc.symm.trans hkc)
    exact hp hcS
  | hung _ _ _ hcy => exact hcy

/-- A free item with an admitted claimant claims nothing itself, unless both lie on a cycle. -/
theorem Stands.root_or_cycle (ho : rules.Orderly M) (hS : S ⊆ M) (hl : rules.Link M k p) (ha : rules.admits k p)
    (h : rules.Stands S p .free) : rules.claim p = none ∨ TransGen (rules.Link S) p k := by
  generalize hst : Standing.free = st at h
  cases h with
  | free hc => exact .inl hc
  | missing => cases hst
  | dropped hc hp hd =>
    rcases hd with hd | hcy
    · simp [ho.accepted hl ha ⟨hl.2.1, hS hp, hc⟩] at hd
    · exact .inr (on_cycle link_unique (Link.mono hS) hcy (ho.closed hl ha (path_mono hS hcy))).1
  | hung => exact absurd hst.symm (Standing.under_ne_free _ _)

theorem Stands.verified_root (ho : rules.Orderly M) (hS : S ⊆ M) (hk : k ∈ S)
    (h : rules.Stands S k (.verified r)) : rules.claim r = none ∧ TransGen (rules.Link S) k r := by
  generalize hst : Standing.verified r = st at h
  induction h with
  | free | missing | dropped => cases hst
  | @hung k p st hc hp ha hcy hs ih =>
    have hl : rules.Link S k p := ⟨hk, hp, hc⟩
    cases st with
    | free =>
      obtain rfl := Standing.verified.inj hst
      rcases hs.root_or_cycle ho hS (hl.mono hS) ha with hn | hpk
      · exact ⟨hn, .single hl⟩
      · exact absurd (hpk.head hl) hcy
    | verified q =>
      obtain ⟨hn, hpr⟩ := ih hp hst
      exact ⟨hn, hpr.head hl⟩
    | unverified q => cases hst

/-- The chain of claims that ends at a missing root. -/
theorem Stands.unverified_root (hk : k ∈ S) (h : rules.Stands S k (.unverified r)) :
    r ∉ S ∧ ∃ b ∈ S, ReflTransGen (rules.Link S) k b ∧ rules.claim b = some r := by
  generalize hst : Standing.unverified r = st at h
  induction h with
  | free | dropped => cases hst
  | missing hc hp =>
    obtain rfl := Standing.unverified.inj hst
    exact ⟨hp, _, hk, .refl, hc⟩
  | @hung k p st hc hp ha hcy hs ih =>
    cases st with
    | free => cases hst
    | verified q => cases hst
    | unverified q =>
      obtain ⟨hr, b, hb, hpb, hbr⟩ := ih hp hst
      exact ⟨hr, b, hb, .head ⟨hk, hp, hc⟩ hpb, hbr⟩

section Arrival

/-- The shelf holds the items of `S`, each where it belongs. -/
structure Reflects (S : Set κ) (s : Shelf κ) : Prop where
  mem_iff : ∀ {k}, k ∈ S ↔ (s k).isSome
  stands : ∀ {k st}, s k = some st → rules.Stands S k st

variable {s : Shelf κ}

theorem Reflects.eq_none (h : rules.Reflects S s) (hk : k ∉ S) : s k = none := by
  simpa [h.mem_iff] using hk

theorem Reflects.exists_stands (h : rules.Reflects S s) (hk : k ∈ S) : ∃ st, s k = some st ∧ rules.Stands S k st := by
  obtain ⟨st, hs⟩ := Option.isSome_iff_exists.1 (h.mem_iff.1 hk)
  exact ⟨st, hs, h.stands hs⟩

/-- An admitted claimant hangs where the item it claims does. -/
theorem Reflects.resolve_eq (ho : rules.Orderly M) (hS : S ⊆ M) (h : rules.Reflects S s) (hv : v ∈ M)
    (hc : rules.claim v = some p) (hp : p ∈ S) (ha : rules.admits v p) (hs : s p = some st) :
    rules.resolve s v = st.under p := by
  simp only [resolve, hc, hs, ha, if_true]
  cases st with
  | free => rfl
  | verified r =>
    obtain ⟨hn, hpr⟩ := (h.stands hs).verified_root ho hS hp
    have hadm := (ho.above ⟨hv, hS hp, hc⟩ ha (path_mono hS hpr)).2 hn
    have hr : r ∈ S := by
      obtain ⟨c, -, -, hr, -⟩ := TransGen.tail'_iff.1 hpr
      exact hr
    obtain ⟨st, hst⟩ := Option.isSome_iff_exists.1 (h.mem_iff.1 hr)
    simp [adopt, hst, hadm, Standing.under]
  | unverified r =>
    have hr := h.eq_none ((h.stands hs).unverified_root hp).1
    simp [adopt, hr, Standing.under]

/-- An item that some stored item rightly claims is free exactly when it claims nothing. -/
theorem Reflects.hasRoot_resolve (ho : rules.Orderly M) (hS : S ⊆ M) (h : rules.Reflects S s) (hv : v ∈ M) {b : κ}
    (hb : b ∈ S) (hc : rules.claim b = some v) (ha : rules.admits b v) :
    (rules.resolve s v).hasRoot = (rules.claim v).isSome := by
  cases hq : rules.claim v with
  | none => simp [resolve, hq]
  | some q =>
    by_cases hqS : q ∈ S
    · have hav := ho.accepted ⟨hS hb, hv, hc⟩ ha ⟨hv, hS hqS, hq⟩
      obtain ⟨st, hs⟩ := Option.isSome_iff_exists.1 (h.mem_iff.1 hqS)
      rw [h.resolve_eq ho hS hv hq hqS hav hs]
      cases st <;> rfl
    · simp [resolve, hq, h.eq_none hqS]

/-- A chain of claims that ends, still ends there when another item arrives. -/
theorem Stands.acyclic_insert (ho : rules.Orderly M) (hS : S ⊆ M) (hk : k ∈ S) (h : rules.Stands S k st)
    (hne : st ≠ .free) (hnv : st ≠ .unverified v) : ¬ TransGen (rules.Link (insert v S)) k k := by
  have hsub : S ⊆ insert v S := Set.subset_insert v S
  cases st with
  | free => exact absurd rfl hne
  | verified r =>
    obtain ⟨hn, hkr⟩ := h.verified_root ho hS hk
    exact not_cycle_of_end link_unique (fun c hl => by simp [hl.2.2] at hn) (path_mono hsub hkr).to_reflTransGen
  | unverified r =>
    obtain ⟨hr, b, -, hkb, hbr⟩ := h.unverified_root hk
    refine not_cycle_of_end link_unique (fun c hl => ?_) (ReflTransGen.mono (fun _ _ hl => Link.mono hsub hl) _ _ hkb)
    obtain rfl := Option.some.inj (hbr.symm.trans hl.2.2)
    rcases hl.2.1 with rfl | hc
    · exact hnv rfl
    · exact hr hc

/-- What does not wait for `v` stays as it is when `v` arrives. -/
theorem Stands.keep (hv : v ∉ S) (ho : rules.Orderly M) (hS : S ⊆ M) (hk : k ∈ S) (h : rules.Stands S k st)
    (hnv : st ≠ .unverified v) : rules.Stands (insert v S) k st := by
  have hsub : S ⊆ insert v S := Set.subset_insert v S
  induction h with
  | free hc => exact .free hc
  | missing hc hp =>
    refine .missing hc ?_
    rintro (rfl | hp')
    · exact hnv rfl
    · exact hp hp'
  | dropped hc hp hd => exact .dropped hc (.inr hp) (hd.imp_right (path_mono hsub))
  | @hung k p st hc hp ha hcy hs ih =>
    have hst : st ≠ .unverified v := by
      rintro rfl
      exact hnv rfl
    exact .hung hc (.inr hp) ha
      ((Stands.hung hc hp ha hcy hs).acyclic_insert ho hS hk (Standing.under_ne_free p st) hnv) (ih hp hst)

/-- A chain of claims that is missing `v` is closed by a claim of `v` on it. -/
theorem Stands.closes (hk : k ∈ S) (h : rules.Stands S k (.unverified v)) (hc : rules.claim v = some k) :
    TransGen (rules.Link (insert v S)) v v := by
  have hsub : S ⊆ insert v S := Set.subset_insert v S
  obtain ⟨-, b, hb, hkb, hbv⟩ := h.unverified_root hk
  have hvk : rules.Link (insert v S) v k := ⟨.inl rfl, .inr hk, hc⟩
  have hbv : rules.Link (insert v S) b v := ⟨.inr hb, .inl rfl, hbv⟩
  exact .head' hvk (.tail (ReflTransGen.mono (fun _ _ hl => Link.mono hsub hl) _ _ hkb) hbv)

variable [DecidableEq κ]

/-- The item that arrives gets its own standing, and loses it again if it closes a cycle. -/
theorem Reflects.arrives (hv : v ∉ S) (ho : rules.Orderly M) (hS : S ⊆ M) (h : rules.Reflects S s) (hvM : v ∈ M) :
    (rules.resolve s v ≠ .unverified v → rules.Stands (insert v S) v (rules.resolve s v)) ∧
      (rules.resolve s v = .unverified v → TransGen (rules.Link (insert v S)) v v) := by
  cases hc : rules.claim v with
  | none =>
    have hown : rules.resolve s v = .free := by simp [resolve, hc]
    rw [hown]
    exact ⟨fun _ => .free hc, nofun⟩
  | some p =>
    by_cases hp : p ∈ S
    · obtain ⟨st, hs, hst⟩ := h.exists_stands hp
      cases ha : rules.admits v p with
      | false =>
        have hown : rules.resolve s v = .free := by simp [resolve, hc, hs, ha]
        rw [hown]
        exact ⟨fun _ => .dropped hc (.inr hp) (.inl ha), nofun⟩
      | true =>
        have hl : rules.Link M v p := ⟨hvM, hS hp, hc⟩
        rw [h.resolve_eq ho hS hvM hc hp ha hs]
        constructor
        · intro hne
          have hst' : st ≠ .unverified v := by
            rintro rfl
            exact hne rfl
          refine .hung hc (.inr hp) ha (fun hcy => ?_) (hst.keep hv ho hS hp hst')
          have hcy := cycle_next link_unique ⟨.inl rfl, .inr hp, hc⟩ hcy
          by_cases hf : st = .free
          · subst hf
            rcases hst.root_or_cycle ho hS hl ha with hn | hpv
            · obtain ⟨c, ⟨-, -, hpc⟩, -⟩ := TransGen.head'_iff.1 hcy
              cases hn.symm.trans hpc
            · obtain ⟨c, -, -, hvS, -⟩ := TransGen.tail'_iff.1 hpv
              exact hv hvS
          · exact hst.acyclic_insert ho hS hp hf hst' hcy
        · intro he
          have hst' : st = .unverified v := by
            cases st with
            | free => cases he
            | verified r => cases he
            | unverified r => exact he
          subst hst'
          exact hst.closes hp hc
    · have hown : rules.resolve s v = .unverified p := by simp [resolve, hc, h.eq_none hp]
      rw [hown]
      constructor
      · intro hne
        refine .missing hc ?_
        rintro (rfl | hp')
        · exact hne rfl
        · exact hp hp'
      · intro he
        obtain rfl := Standing.unverified.inj he
        exact .single ⟨.inl rfl, .inl rfl, hc⟩

end Arrival

section Waiting
variable (ho : rules.Orderly M) (hS : S ⊆ M) (hvM : v ∈ M)
include ho hS hvM

/-- A chain of claims that waits for `v` reaches it by a claim that `v` will admit. -/
theorem Stands.exists_claimant (hk : k ∈ S) (h : rules.Stands S k (.unverified v))
    (hd : rules.claim k = some v → rules.admits k v) : ∃ b ∈ S, rules.claim b = some v ∧ rules.admits b v := by
  generalize hst : Standing.unverified v = st at h
  induction h with
  | free | dropped => cases hst
  | missing hc =>
    obtain rfl := Standing.unverified.inj hst
    exact ⟨_, hk, hc, hd hc⟩
  | @hung k p st hc hp ha hcy hs ih =>
    exact ih hp (fun hpv => ho.accepted ⟨hS hk, hS hp, hc⟩ ha ⟨hS hp, hvM, hpv⟩) (Standing.under_eq_unverified hst.symm).symm

theorem Stands.passes (hk : k ∈ S) (h : rules.Stands S k (.unverified v))
    (hd : rules.claim k = some v → rules.admits k v) : rules.passes (rules.claim v).isSome k v := by
  generalize hst : Standing.unverified v = st at h
  cases h with
  | free | dropped => cases hst
  | missing hc =>
    obtain rfl := Standing.unverified.inj hst
    exact (ho.agree ⟨hS hk, hvM, hc⟩).2 (hd hc)
  | hung hc hp ha _ hs =>
    obtain rfl := Standing.under_eq_unverified hst.symm
    obtain ⟨-, b, hb, hpb, hbv⟩ := hs.unverified_root hp
    have hpv : TransGen (rules.Link M) _ v :=
      .tail' (ReflTransGen.mono (fun _ _ hl => Link.mono hS hl) _ _ hpb) ⟨hS hb, hvM, hbv⟩
    exact (ho.above ⟨hS hk, hS hp, hc⟩ ha hpv).1

variable {s : Shelf κ} [DecidableEq κ]

/-- What waits for `v`, at the end of a chain that `v` will admit, hangs where `v` does. -/
theorem Stands.hands_down (hv : v ∉ S) (hr : rules.Reflects S s) (hk : k ∈ S)
    (h : rules.Stands S k (.unverified v)) (hd : rules.claim k = some v → rules.admits k v) :
    rules.Stands (insert v S) k ((rules.resolve s v).handDown v) := by
  obtain ⟨b, hb, hbv, hba⟩ := h.exists_claimant ho hS hvM hk hd
  have hroot := hr.hasRoot_resolve ho hS hvM hb hbv hba
  have hS' : insert v S ⊆ M := Set.insert_subset hvM hS
  obtain ⟨harr, hclose⟩ := hr.arrives hv ho hS hvM
  generalize hst : Standing.unverified v = st at h
  by_cases hown : rules.resolve s v = .unverified v
  · -- `v` closes a cycle, and whatever claims its way to `v` lies on it
    have hcy := hclose hown
    rw [hown, Standing.handDown_self]
    induction h with
    | free | dropped => cases hst
    | missing hc =>
      obtain rfl := Standing.unverified.inj hst
      have hback := ho.closed ⟨hS hk, hvM, hc⟩ (hd hc) (path_mono hS' hcy)
      exact .dropped hc (.inl rfl) (.inr ((on_cycle link_unique (Link.mono hS') hcy hback).1.head ⟨.inr hk, .inl rfl, hc⟩))
    | @hung k p st hc hp ha _ hs ih =>
      have hst := (Standing.under_eq_unverified hst.symm).symm
      have hl : rules.Link M k p := ⟨hS hk, hS hp, hc⟩
      have hfree := ih hp (fun hpv => ho.accepted hl ha ⟨hS hp, hvM, hpv⟩) hst
      rcases hfree.root_or_cycle ho hS' hl ha with hn | hpk
      · exact absurd hn (hs.claim_ne_none (by rw [← hst]; exact nofun))
      · exact .dropped hc (.inr hp) (.inr (hpk.head ⟨.inr hk, .inr hp, hc⟩))
  · rw [Standing.handDown_of_ne hown]
    induction h with
    | free | dropped => cases hst
    | missing hc =>
      obtain rfl := Standing.unverified.inj hst
      refine .hung hc (.inl rfl) (hd hc) (fun hcy => ?_) (harr hown)
      have hcy := cycle_next link_unique ⟨.inr hk, .inl rfl, hc⟩ hcy
      by_cases hf : rules.resolve s v = .free
      · obtain ⟨c, ⟨-, -, hvc⟩, -⟩ := TransGen.head'_iff.1 hcy
        rw [hf, hvc] at hroot
        cases hroot
      · exact (harr hown).acyclic hf hcy
    | @hung k p st hc hp ha _ hs ih =>
      have hst := (Standing.under_eq_unverified hst.symm).symm
      have hps := ih hp (fun hpv => ho.accepted ⟨hS hk, hS hp, hc⟩ ha ⟨hS hp, hvM, hpv⟩) hst
      have hne := Standing.under_ne_free v (rules.resolve s v)
      rw [← Standing.under_of_ne (p := p) hne]
      exact .hung hc (.inr hp) ha
        (fun hcy => hps.acyclic hne (cycle_next link_unique ⟨.inr hk, .inr hp, hc⟩ hcy)) hps

theorem Stands.settles (hv : v ∉ S) (hr : rules.Reflects S s) (hk : k ∈ S) (h : rules.Stands S k st) :
    rules.Stands (insert v S) k (rules.settle v (rules.resolve s v) k st) := by
  by_cases hst : st = .unverified v
  · subst hst
    rw [settle_unverified]
    by_cases hd : rules.claim k = some v → rules.admits k v
    · obtain ⟨b, hb, hbv, hba⟩ := h.exists_claimant ho hS hvM hk hd
      rw [if_pos (by rw [hr.hasRoot_resolve ho hS hvM hb hbv hba]; exact h.passes ho hS hvM hk hd)]
      exact h.hands_down ho hS hvM hv hr hk hd
    · obtain ⟨hc, ha⟩ := Classical.not_imp.1 hd
      have hpass : ¬ rules.passes (rules.resolve s v).hasRoot k v := by
        intro hp
        refine ha ((ho.agree ⟨hS hk, hvM, hc⟩).1 ?_)
        cases hq : rules.claim v with
        | none => simpa [resolve, hq] using hp
        | some q =>
          cases hb : (rules.resolve s v).hasRoot with
          | false =>
            rw [hb] at hp
            exact rules.passes_of_root hp
          | true =>
            rw [hb] at hp
            exact hp
      rw [if_neg hpass]
      exact .dropped hc (.inl rfl) (.inl (by simpa using ha))
  · rw [rules.settle_of_ne hst]
    exact h.keep hv ho hS hk hst

theorem Reflects.file (hv : v ∉ S) (h : rules.Reflects S s) : rules.Reflects (insert v S) (rules.file s v) where
  mem_iff {k} := by rw [file_isSome, ← h.mem_iff]; rfl
  stands {k st} hs := by
    by_cases hkv : k = v
    · subst hkv
      rw [file_self] at hs
      obtain rfl := Option.some.inj hs
      obtain ⟨harr, hclose⟩ := h.arrives hv ho hS hvM
      by_cases hown : rules.resolve s k = .unverified k
      · have hcy := hclose hown
        obtain ⟨c, ⟨-, hcS, hc⟩, -⟩ := TransGen.head'_iff.1 hcy
        have hfree : rules.settle k (rules.resolve s k) k (.unverified k) = .free := by
          rw [settle_unverified, hown, Standing.handDown_self, ite_self]
        rw [hown] at hfree ⊢
        rw [hfree]
        exact .dropped hc hcS (.inr hcy)
      · rw [rules.settle_of_ne hown]
        exact harr hown
    · rw [rules.file_of_ne hkv] at hs
      obtain ⟨st', hs', rfl⟩ := Option.map_eq_some_iff.1 hs
      exact (h.stands hs').settles ho hS hvM hv h (h.mem_iff.2 (by simp [hs']))

end Waiting

section Runs
variable {s : Shelf κ} {ks ks' : List κ}

theorem reflects_empty : rules.Reflects ∅ (fun _ => none : Shelf κ) := ⟨by simp, nofun⟩

/-- A verified root passes both checks. -/
theorem Stands.verified_fits (ho : rules.Orderly M) (hS : S ⊆ M) (hk : k ∈ S) (h : rules.Stands S k (.verified r)) :
    rules.claim r = none ∧ rules.passes false k r ∧ rules.admits k r := by
  obtain ⟨hn, -⟩ := h.verified_root ho hS hk
  generalize hst : Standing.verified r = st at h
  cases h with
  | free | missing | dropped => cases hst
  | @hung _ p st hc hp ha hcy hs =>
    have hl : rules.Link M k p := ⟨hS hk, hS hp, hc⟩
    cases st with
    | free =>
      obtain rfl := Standing.verified.inj hst
      exact ⟨hn, by simpa [hn] using (ho.agree hl).2 ha, ha⟩
    | verified q =>
      obtain rfl := Standing.verified.inj hst
      obtain ⟨-, hpr⟩ := hs.verified_root ho hS hp
      obtain ⟨hpass, hadm⟩ := ho.above hl ha (path_mono hS hpr)
      exact ⟨hn, by simpa [hn] using hpass, hadm hn⟩
    | unverified q => cases hst

variable [DecidableEq κ]

/-- Filing any order of the items of an orderly set puts each of them where it belongs. -/
theorem Reflects.fileAll (ho : rules.Orderly M) (hn : ks.Nodup) (hM : ∀ k ∈ ks, k ∈ M) (hS : S ⊆ M)
    (hks : ∀ k ∈ ks, k ∉ S) (h : rules.Reflects S s) :
    rules.Reflects (S ∪ {k | k ∈ ks}) (rules.fileAll s ks) := by
  induction ks generalizing S s with
  | nil => simpa [Rules.fileAll] using h
  | cons v ks ih =>
    obtain ⟨hv, hn⟩ := List.nodup_cons.1 hn
    have hvM := hM v List.mem_cons_self
    have hrest : ∀ k ∈ ks, k ∉ insert v S := by
      rintro k hk (rfl | hkS)
      · exact hv hk
      · exact hks k (List.mem_cons_of_mem _ hk) hkS
    have := ih hn (fun k hk => hM k (List.mem_cons_of_mem _ hk)) (Set.insert_subset hvM hS) hrest
      (h.file ho hS hvM (hks v List.mem_cons_self))
    have hset : insert v S ∪ {k | k ∈ ks} = S ∪ {k | k ∈ v :: ks} := by
      ext k
      simp [or_left_comm, or_assoc]
    rw [← hset]
    exact this

/-- The order the items arrive in does not matter. -/
theorem fileAll_perm (ho : rules.Orderly {k | k ∈ ks}) (hn : ks.Nodup) (hp : ks.Perm ks') :
    rules.fileAll (fun _ => none) ks = rules.fileAll (fun _ => none) ks' := by
  have h := reflects_empty.fileAll ho hn (fun _ hk => hk) (Set.empty_subset _) (fun _ _ => Set.notMem_empty _)
  have h' := reflects_empty.fileAll ho (hp.nodup_iff.1 hn) (fun _ hk => hp.mem_iff.2 hk) (Set.empty_subset _)
    (fun _ _ => Set.notMem_empty _)
  have hset : (∅ ∪ {k | k ∈ ks'} : Set κ) = ∅ ∪ {k | k ∈ ks} := by
    ext k
    simp [hp.mem_iff]
  rw [hset] at h'
  funext k
  by_cases hk : k ∈ (∅ ∪ {k | k ∈ ks} : Set κ)
  · obtain ⟨st, hs, hst⟩ := h.exists_stands hk
    obtain ⟨st', hs', hst'⟩ := h'.exists_stands hk
    rw [hs, hs', hst.unique hst']
  · rw [h.eq_none hk, h'.eq_none hk]

end Runs
end Rules
end PuffoAgent.Claims
