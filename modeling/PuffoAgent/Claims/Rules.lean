import Mathlib.Logic.Relation
import Mathlib.Data.Set.Insert

/-! Items that claim another item as their root. A claim on a stored item is resolved when
the claimant arrives, a claim on a missing one is settled when the missing item does. -/
namespace PuffoAgent.Claims
open Relation

/-- Where an item hangs. An unverified root has not been seen yet. -/
inductive Standing (κ : Type) where
  | free
  | verified (root : κ)
  | unverified (root : κ)
  deriving DecidableEq, Repr

/-- What an item claims, and the two checks of a claim. The deferred one is told whether
the claimed item has a root of its own, which makes it no stricter. -/
structure Rules (κ : Type) where
  claim : κ → Option κ
  admits : κ → κ → Bool
  passes : Bool → κ → κ → Bool
  passes_of_root : ∀ {k v}, passes false k v → passes true k v

/-- The standings of the items that are stored. -/
abbrev Shelf (κ : Type) := κ → Option (Standing κ)

namespace Standing
variable {κ : Type}

def hasRoot : Standing κ → Bool
  | .free => false
  | .verified _ | .unverified _ => true

/-- What a claimant of the stored item `p` takes from it. -/
def under (p : κ) : Standing κ → Standing κ
  | .free => .verified p
  | st => st

@[simp] theorem hasRoot_free : (free : Standing κ).hasRoot = false := rfl
@[simp] theorem hasRoot_verified (r : κ) : (verified r).hasRoot = true := rfl
@[simp] theorem hasRoot_unverified (r : κ) : (unverified r).hasRoot = true := rfl

theorem under_of_ne {p : κ} {st : Standing κ} (h : st ≠ .free) : st.under p = st := by
  cases st <;> first | rfl | exact absurd rfl h

theorem under_ne_free (p : κ) (st : Standing κ) : st.under p ≠ .free := by
  cases st <;> exact nofun

theorem under_eq_unverified {p r : κ} {st : Standing κ} (h : st.under p = .unverified r) : st = .unverified r := by
  cases st with
  | free | verified q => cases h
  | unverified q => exact h

variable [DecidableEq κ]

/-- What a claimant of `v` takes from it. A claim that would come back to `v` is dropped. -/
def handDown (v : κ) : Standing κ → Standing κ
  | .free => .verified v
  | .verified r => .verified r
  | .unverified r => if r = v then .free else .unverified r

theorem handDown_of_ne {v : κ} {st : Standing κ} (h : st ≠ .unverified v) : st.handDown v = st.under v := by
  cases st with
  | free | verified r => rfl
  | unverified r => exact if_neg fun he => h (congrArg Standing.unverified he)

theorem handDown_self (v : κ) : (unverified v : Standing κ).handDown v = .free := if_pos rfl

end Standing

namespace Rules
variable {κ : Type} (rules : Rules κ)

/-- The root `r` that the item claimed by `k` hangs from. -/
def adopt (s : Shelf κ) (k r : κ) : Standing κ :=
  match s r with
  | none => .unverified r
  | some _ => if rules.admits k r then .verified r else .free

/-- The standing of an item that arrives. -/
def resolve (s : Shelf κ) (k : κ) : Standing κ :=
  match rules.claim k with
  | none => .free
  | some p => match s p with
    | none => .unverified p
    | some st =>
      if rules.admits k p then
        match st with
        | .free => .verified p
        | .verified r | .unverified r => rules.adopt s k r
      else .free

/-- The root of an arriving item is what it claims, or the root of that. -/
theorem resolve_root {s : Shelf κ} {k r : κ} (h : rules.resolve s k = .verified r ∨ rules.resolve s k = .unverified r) :
    ∃ p, rules.claim k = some p ∧ (r = p ∨ s p = some (.verified r) ∨ s p = some (.unverified r)) := by
  have hadopt {q : κ} (h : rules.adopt s k q = .verified r ∨ rules.adopt s k q = .unverified r) : q = r := by
    unfold adopt at h
    split at h
    · simpa using h
    · split at h
      · simpa using h
      · simp at h
  unfold resolve at h
  split at h
  · simp at h
  · rename_i p hp
    refine ⟨p, hp, ?_⟩
    split at h
    · have hpr : p = r := by simpa using h
      exact .inl hpr.symm
    · rename_i st hs
      split at h
      · cases st with
        | free =>
          have hpr : p = r := by simpa using h
          exact .inl hpr.symm
        | verified q => exact .inr (.inl (hadopt h ▸ hs))
        | unverified q => exact .inr (.inr (hadopt h ▸ hs))
      · simp at h

section Sound

/-- A verified root is stored and has none of its own; an unverified one is not stored. -/
structure Sound (s : Shelf κ) : Prop where
  verified : ∀ {k r}, s k = some (.verified r) → s r = some .free
  unverified : ∀ {k r}, s k = some (.unverified r) → s r = none

theorem sound_empty : Sound (fun _ => none : Shelf κ) := ⟨nofun, nofun⟩

variable {rules} {s : Shelf κ} {v : κ}

theorem Sound.resolve_verified (h : Sound s) {r : κ} (hr : rules.resolve s v = .verified r) : s r = some .free := by
  unfold resolve at hr
  split at hr
  · cases hr
  · split at hr
    · cases hr
    · rename_i p _ st hp
      split at hr
      · cases st with
        | free =>
          obtain rfl := Standing.verified.inj hr
          exact hp
        | verified q =>
          have hq := h.verified hp
          simp only [adopt, hq] at hr
          split at hr
          · obtain rfl := Standing.verified.inj hr
            exact hq
          · cases hr
        | unverified q => simp [adopt, h.unverified hp] at hr
      · cases hr

theorem Sound.resolve_unverified (h : Sound s) {r : κ} (hr : rules.resolve s v = .unverified r) : s r = none := by
  unfold resolve at hr
  split at hr
  · cases hr
  · split at hr
    · rename_i hp
      obtain rfl := Standing.unverified.inj hr
      exact hp
    · rename_i p _ st hp
      split at hr
      · cases st with
        | free => cases hr
        | verified q =>
          simp only [adopt, h.verified hp] at hr
          split at hr <;> cases hr
        | unverified q =>
          have hq := h.unverified hp
          simp only [adopt, hq] at hr
          obtain rfl := Standing.unverified.inj hr
          exact hq
      · cases hr

end Sound

section File
variable [DecidableEq κ]

/-- The deferred check of `k`, when `v` has arrived with the standing `own`. -/
def settle (v : κ) (own : Standing κ) (k : κ) : Standing κ → Standing κ
  | .unverified r =>
    if r = v then (if rules.passes own.hasRoot k v then own.handDown v else .free) else .unverified r
  | st => st

/-- Item `v` arrives. -/
def file (s : Shelf κ) (v : κ) : Shelf κ := fun k =>
  (Function.update s v (some (rules.resolve s v)) k).map (rules.settle v (rules.resolve s v) k)

def fileAll (s : Shelf κ) (ks : List κ) : Shelf κ := ks.foldl rules.file s

theorem settle_unverified_ne {v r : κ} (own : Standing κ) (k : κ) (h : r ≠ v) :
    rules.settle v own k (.unverified r) = .unverified r := if_neg h

theorem settle_unverified (v : κ) (own : Standing κ) (k : κ) :
    rules.settle v own k (.unverified v) = if rules.passes own.hasRoot k v then own.handDown v else .free :=
  if_pos rfl

theorem settle_of_ne {v : κ} {own st : Standing κ} {k : κ} (h : st ≠ .unverified v) :
    rules.settle v own k st = st := by
  cases st with
  | free | verified r => rfl
  | unverified r => exact rules.settle_unverified_ne own k fun he => h (he ▸ rfl)

theorem file_self (s : Shelf κ) (v : κ) :
    rules.file s v v = some (rules.settle v (rules.resolve s v) v (rules.resolve s v)) := by
  simp [file]

theorem file_of_ne {s : Shelf κ} {k v : κ} (h : k ≠ v) :
    rules.file s v k = (s k).map (rules.settle v (rules.resolve s v) k) := by
  simp [file, h]

theorem file_isSome {s : Shelf κ} {k v : κ} : (rules.file s v k).isSome ↔ k = v ∨ (s k).isSome := by
  by_cases h : k = v
  · simp [h, file_self]
  · simp [h, rules.file_of_ne h]

variable {rules} {s : Shelf κ} {v : κ}

theorem file_free {k : κ} (hv : s v = none) (hk : s k = some .free) : rules.file s v k = some .free := by
  have hne : k ≠ v := by
    rintro rfl
    rw [hv] at hk
    cases hk
  rw [rules.file_of_ne hne, hk]
  rfl

/-- What a settled item is, it was before or takes from the item that arrived. -/
theorem settle_cases {own st st' : Standing κ} {k : κ} (h : rules.settle v own k st = st') (hst : st' ≠ .free) :
    (st = st' ∧ st ≠ .unverified v) ∨ (st = .unverified v ∧ rules.passes own.hasRoot k v ∧ own.handDown v = st') := by
  by_cases hs : st = .unverified v
  · subst hs
    rw [settle_unverified] at h
    split at h
    · exact .inr ⟨rfl, ‹_›, h⟩
    · exact absurd h.symm hst
  · exact .inl ⟨by rw [← h, rules.settle_of_ne hs], hs⟩

/-- Where a stored item's standing comes from. -/
theorem file_cases {k : κ} {st : Standing κ} (h : rules.file s v k = some st) (hst : st ≠ .free) :
    (st ≠ .unverified v ∧ (s k = some st ∨ (k = v ∧ rules.resolve s v = st))) ∨
      (rules.passes (rules.resolve s v).hasRoot k v ∧ (rules.resolve s v).handDown v = st) := by
  by_cases hk : k = v
  · subst hk
    rw [file_self] at h
    rcases settle_cases (Option.some.inj h) hst with ⟨he, hne⟩ | ⟨-, hp, he⟩
    · exact .inl ⟨he ▸ hne, .inr ⟨rfl, he⟩⟩
    · exact .inr ⟨hp, he⟩
  · rw [rules.file_of_ne hk] at h
    obtain ⟨st', hs, he⟩ := Option.map_eq_some_iff.1 h
    rcases settle_cases he hst with ⟨rfl, hne⟩ | ⟨-, hp, he⟩
    · exact .inl ⟨hne, .inl hs⟩
    · exact .inr ⟨hp, he⟩

theorem Sound.file (h : Sound s) (hv : s v = none) : Sound (rules.file s v) where
  verified {k r} hk := by
    rcases file_cases hk nofun with ⟨-, hs | ⟨-, ho⟩⟩ | ⟨-, ho⟩
    · exact file_free hv (h.verified hs)
    · exact file_free hv (h.resolve_verified ho)
    · cases hown : rules.resolve s v with
      | free =>
        rw [hown] at ho
        obtain rfl := Standing.verified.inj ho
        rw [file_self, hown]
        rfl
      | verified q =>
        rw [hown] at ho
        obtain rfl := Standing.verified.inj ho
        exact file_free hv (h.resolve_verified hown)
      | unverified q =>
        rw [hown, Standing.handDown] at ho
        split at ho <;> cases ho
  unverified {k r} hk := by
    have hmissing (hr : s r = none) (hne : r ≠ v) : rules.file s v r = none := by
      rw [rules.file_of_ne hne, hr]
      rfl
    rcases file_cases hk nofun with ⟨hne, hs | ⟨-, ho⟩⟩ | ⟨-, ho⟩
    · exact hmissing (h.unverified hs) fun he => hne (he ▸ rfl)
    · exact hmissing (h.resolve_unverified ho) fun he => hne (he ▸ rfl)
    · cases hown : rules.resolve s v with
      | free | verified q =>
        rw [hown] at ho
        cases ho
      | unverified q =>
        rw [hown, Standing.handDown] at ho
        split at ho
        · cases ho
        · obtain rfl := Standing.unverified.inj ho
          exact hmissing (h.resolve_unverified hown) ‹_›

end File
end Rules
end PuffoAgent.Claims
