import Mathlib.Logic.Function.Basic

/-! Directories whose names are hard links: a file stays as long as someone has it open, and two names may link to one
file. -/
namespace PuffoAgent.Files

/-- The files by their numbers, and what the names link to. -/
structure Links (ν α : Type) where
  files : List α
  name : ν → Option Nat
  linked : ∀ n i, name n = some i → i < files.length

namespace Links
variable {ν α : Type}

def empty : Links ν α := ⟨[], fun _ => none, fun _ _ h => by cases h⟩

/-- The open file `i` changes. -/
def change (t : Links ν α) (i : Nat) (f : α → α) : Links ν α where
  files := t.files.modify i f
  name := t.name
  linked := by
    intro m j hm
    rw [List.length_modify]
    exact t.linked m j hm

theorem change_other {t : Links ν α} {i j : Nat} (f : α → α) (h : i ≠ j) : (t.change i f).files[j]? = t.files[j]? :=
  List.getElem?_modify_ne f t.files h

theorem change_self {t : Links ν α} {a : α} {i : Nat} (f : α → α) (h : t.files[i]? = some a) :
    (t.change i f).files[i]? = some (f a) := by
  simp [change, h]

variable [DecidableEq ν]

/-- A new file under a name that nothing has, as `open` makes it with `O_EXCL`. -/
def create (t : Links ν α) (n : ν) (a : α) : Option (Links ν α) :=
  if (t.name n).isSome then none
  else some {
    files := t.files ++ [a]
    name := Function.update t.name n (some t.files.length)
    linked := by
      intro m i hm
      rw [List.length_append, List.length_singleton]
      rw [Function.update_apply] at hm
      split at hm
      · cases hm
        exact Nat.lt_succ_self _
      · exact Nat.lt_succ_of_lt (t.linked m i hm) }

/-- `link`; `none` where there is nothing to link to or the name is taken. -/
def link (t : Links ν α) (source target : ν) : Option (Links ν α) :=
  if (t.name target).isSome ∨ (t.name source).isNone then none
  else some {
    files := t.files
    name := Function.update t.name target (t.name source)
    linked := by
      intro m i hm
      rw [Function.update_apply] at hm
      split at hm
      · exact t.linked source i hm
      · exact t.linked m i hm }

def unlink (t : Links ν α) (n : ν) : Links ν α where
  files := t.files
  name := Function.update t.name n none
  linked := by
    intro m i hm
    rw [Function.update_apply] at hm
    split at hm
    · cases hm
    · exact t.linked m i hm

section Facts
variable {t t' : Links ν α} {n m : ν} {a : α}

theorem create_eq_some (h : t.create n a = some t') :
    t.name n = none ∧ t'.files = t.files ++ [a] ∧ t'.name = Function.update t.name n (some t.files.length) := by
  unfold create at h
  split at h
  · cases h
  · rename_i hn
    cases h
    exact ⟨by simpa using hn, rfl, rfl⟩

theorem link_eq_some (h : t.link n m = some t') :
    t.name m = none ∧ (∃ i, t.name n = some i) ∧ t'.files = t.files ∧ t'.name = Function.update t.name m (t.name n) := by
  unfold link at h
  split at h
  · cases h
  · rename_i hn
    cases h
    obtain ⟨hm, hs⟩ := not_or.1 hn
    exact ⟨by simpa using hm, Option.ne_none_iff_exists'.1 (by simpa using hs), rfl, rfl⟩

end Facts

end Links
end PuffoAgent.Files
