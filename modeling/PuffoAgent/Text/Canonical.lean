import PuffoAgent.Text.JsonParse
import Mathlib.Data.String.Basic

/-! JSON with sorted keys: one text for all the ways to write a value down. -/
namespace PuffoAgent.Text

namespace Entries
variable {κ ν : Type} [LinearOrder κ]

def Sorted (es : List (κ × ν)) : Prop := es.Pairwise (·.1 < ·.1)

/-- A further entry before those of `es`, which win where the keys agree. -/
def place (k : κ) (v : ν) : List (κ × ν) → List (κ × ν)
  | [] => [(k, v)]
  | e :: es => if k < e.1 then (k, v) :: e :: es else if k = e.1 then e :: es else e :: place k v es

variable {k : κ} {v : ν} {es : List (κ × ν)}

theorem mem_place (hs : Sorted es) (e : κ × ν) :
    e ∈ place k v es ↔ e ∈ es ∨ (e = (k, v) ∧ ∀ f ∈ es, f.1 ≠ k) := by
  induction es with
  | nil => simp [place]
  | cons f es ih =>
    obtain ⟨hf, hs⟩ := List.pairwise_cons.1 hs
    unfold place
    split
    case isTrue hlt =>
      have hfresh : ∀ g ∈ f :: es, g.1 ≠ k := by
        intro g hg
        rcases List.mem_cons.1 hg with rfl | hg
        · exact hlt.ne'
        · exact (hlt.trans (hf g hg)).ne'
      rw [List.mem_cons, or_comm]
      exact or_congr_right ⟨fun h => ⟨h, hfresh⟩, And.left⟩
    case isFalse hge =>
      split
      case isTrue heq =>
        refine ⟨.inl, fun h => h.resolve_right fun ⟨_, hfresh⟩ => ?_⟩
        exact hfresh f List.mem_cons_self heq.symm
      case isFalse hne =>
        rw [List.mem_cons, ih hs, List.mem_cons, or_assoc, List.forall_mem_cons]
        exact or_congr_right (or_congr_right (and_congr_right fun _ => (and_iff_right (Ne.symm hne)).symm))

theorem sorted_place (hs : Sorted es) : Sorted (place k v es) := by
  induction es with
  | nil => exact List.pairwise_singleton _ _
  | cons f es ih =>
    obtain ⟨hf, hs'⟩ := List.pairwise_cons.1 hs
    unfold place
    split
    case isTrue hlt =>
      refine List.pairwise_cons.2 ⟨fun g hg => ?_, hs⟩
      rcases List.mem_cons.1 hg with rfl | hg
      · exact hlt
      · exact hlt.trans (hf g hg)
    case isFalse hge =>
      split
      case isTrue => exact hs
      case isFalse hne =>
        refine List.pairwise_cons.2 ⟨fun g hg => ?_, ih hs'⟩
        rcases (mem_place hs' g).1 hg with hg | ⟨rfl, _⟩
        · exact hf g hg
        · exact lt_of_le_of_ne (not_lt.1 hge) (Ne.symm hne)

theorem place_of_lt (h : ∀ e ∈ es, k < e.1) : place k v es = (k, v) :: es := by
  cases es with
  | nil => rfl
  | cons e es => exact if_pos (h e List.mem_cons_self)

/-- Sorted entries are determined by what they contain. -/
theorem Sorted.ext {es' : List (κ × ν)} (hs : Sorted es) (hs' : Sorted es') (h : ∀ e, e ∈ es ↔ e ∈ es') :
    es = es' := by
  have hnd : ∀ {l : List (κ × ν)}, Sorted l → l.Nodup := fun hl => hl.imp fun hlt heq => hlt.ne (by rw [heq])
  refine List.Perm.eq_of_pairwise (fun e f _ _ hef hfe => ?_) hs hs' ((List.perm_ext_iff_of_nodup (hnd hs) (hnd hs')).2 h)
  exact absurd hfe hef.asymm

end Entries

namespace Json

mutual
/-- The value with the members of its objects sorted; the last of equal keys stays. -/
def sortKeys : Json → Json
  | .arr items => .arr (sortItems items)
  | .obj members => .obj (sortMembers members)
  | v => v

def sortItems : List Json → List Json
  | [] => []
  | v :: vs => sortKeys v :: sortItems vs

def sortMembers : List (String × Json) → List (String × Json)
  | [] => []
  | (k, v) :: ms => Entries.place k (sortKeys v) (sortMembers ms)
end

/-- `json.dumps(value, ensure_ascii=False, separators=(",", ":"), sort_keys=True)`. -/
def dumpsSorted (value : Json) : String := value.sortKeys.dumps

theorem sorted_sortMembers (ms : List (String × Json)) : Entries.Sorted (sortMembers ms) := by
  induction ms with
  | nil => exact .nil
  | cons m ms ih => exact Entries.sorted_place ih

theorem member_cons (key : String) (m : String × Json) (ms : List (String × Json)) :
    (Json.obj (m :: ms)).member key =
      ((Json.obj ms).member key).or (if m.1 = key then some m.2 else none) := by
  unfold member
  simp only [List.reverse_cons, List.find?_append]
  cases ms.reverse.find? (·.1 = key) with
  | some _ => rfl
  | none => by_cases h : m.1 = key <;> simp [h]

/-- Sorting keeps what the object says, value by value. -/
theorem mem_sortMembers (ms : List (String × Json)) (key : String) (v : Json) :
    (key, v) ∈ sortMembers ms ↔ ((Json.obj ms).member key).map sortKeys = some v := by
  induction ms generalizing v with
  | nil => simp [sortMembers, member]
  | cons m ms ih =>
    obtain ⟨k, w⟩ := m
    have hfresh : (∀ f ∈ sortMembers ms, f.1 ≠ key) ↔ (Json.obj ms).member key = none := by
      rw [← Option.map_eq_none_iff (f := sortKeys), Option.eq_none_iff_forall_ne_some]
      exact ⟨fun h u hu => h _ ((ih u).2 hu) rfl, fun h f hf hk => h f.2 ((ih f.2).1 (by rw [← hk]; exact hf))⟩
    rw [sortMembers, Entries.mem_place (sorted_sortMembers ms), ih, member_cons]
    cases hm : (Json.obj ms).member key with
    | some u =>
      refine ⟨fun h => h.resolve_right ?_, .inl⟩
      rintro ⟨heq, hk⟩
      obtain ⟨rfl, _⟩ := Prod.mk.inj heq
      exact absurd (hm.symm.trans (hfresh.1 hk)) nofun
    | none =>
      by_cases hk : k = key
      · subst hk
        rw [if_pos rfl, Option.map_none]
        refine ⟨fun h => ?_, fun h => .inr ⟨?_, hfresh.2 hm⟩⟩
        · rw [(Prod.mk.inj (h.resolve_left nofun).1).2]; rfl
        · rw [Option.some.inj h]
      · simp [hk, Ne.symm hk]

theorem member_sortKeys (ms : List (String × Json)) (key : String) :
    (Json.obj ms).sortKeys.member key = ((Json.obj ms).member key).map sortKeys := by
  have hs := sorted_sortMembers ms
  have hmem := mem_sortMembers ms key
  rw [sortKeys, member]
  cases hf : (sortMembers ms).reverse.find? (·.1 = key) with
  | none =>
    symm
    rw [Option.map_none, Option.eq_none_iff_forall_ne_some]
    intro v hv
    have := List.find?_eq_none.1 hf (key, v) (List.mem_reverse.2 ((hmem v).2 hv))
    simp at this
  | some m =>
    have hk : m.1 = key := by simpa using List.find?_some hf
    refine ((hmem m.2).1 ?_).symm
    rw [← hk]
    exact List.mem_reverse.1 (List.mem_of_find?_eq_some hf)

/-- Objects with the same members sort to the same object. -/
theorem sortKeys_obj_congr {ms ms' : List (String × Json)}
    (h : ∀ key, ((Json.obj ms).member key).map sortKeys = ((Json.obj ms').member key).map sortKeys) :
    (Json.obj ms).sortKeys = (Json.obj ms').sortKeys := by
  rw [sortKeys, sortKeys]
  refine congrArg Json.obj ((sorted_sortMembers ms).ext (sorted_sortMembers ms') fun ⟨key, v⟩ => ?_)
  rw [mem_sortMembers, mem_sortMembers, h]

theorem sortMembers_of_sorted {ms : List (String × Json)} (hs : Entries.Sorted ms)
    (h : ∀ m ∈ ms, m.2.sortKeys = m.2) : sortMembers ms = ms := by
  induction ms with
  | nil => rfl
  | cons m ms ih =>
    obtain ⟨hm, hs⟩ := List.pairwise_cons.1 hs
    obtain ⟨hv, h⟩ := List.forall_mem_cons.1 h
    rw [sortMembers, ih hs h, hv, Entries.place_of_lt hm]

mutual
/-- By recursion on the value, as `sortKeys` itself. -/
theorem sortKeys_idem : (v : Json) → v.sortKeys.sortKeys = v.sortKeys
  | .arr items => by rw [sortKeys, sortKeys, sortItems_idem items]
  | .obj members => by
    rw [sortKeys, sortKeys, sortMembers_of_sorted (sorted_sortMembers members) (values_sorted members)]
  | .null => rfl
  | .bool _ => rfl
  | .int _ => rfl
  | .float _ => rfl
  | .str _ => rfl

theorem sortItems_idem : (vs : List Json) → sortItems (sortItems vs) = sortItems vs
  | [] => rfl
  | v :: vs => by rw [sortItems, sortItems, sortKeys_idem v, sortItems_idem vs]

theorem values_sorted : (ms : List (String × Json)) → ∀ m ∈ sortMembers ms, m.2.sortKeys = m.2
  | [] => nofun
  | (k, v) :: ms => fun m hm => by
    rcases (Entries.mem_place (sorted_sortMembers ms) m).1 hm with hm | ⟨rfl, _⟩
    · exact values_sorted ms m hm
    · exact sortKeys_idem v
end

/-- A sorted text reads back as the sorted value. -/
theorem loads_dumpsSorted (v : Json) : loads v.dumpsSorted = some v.sortKeys := loads_dumps _

end Json
end PuffoAgent.Text
