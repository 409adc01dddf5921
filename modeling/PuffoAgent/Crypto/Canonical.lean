import PuffoAgent.Text.JsonParse
import PuffoAgent.Text.Python
import Mathlib.Data.List.Sort
import Mathlib.Data.List.Lex
import Mathlib.Data.List.Perm.Basic
import Mathlib.Data.List.Pairwise

/-! The canonical bytes that are signed: one value, one byte string. -/
namespace PuffoAgent.Crypto
open Text Text.Json

section Order

/-- The UTF-16 code units of a character. -/
def codeUnits (c : Char) : List Nat :=
  if c.toNat < 0x10000 then [c.toNat]
  else [0xd800 + (c.toNat - 0x10000) / 0x400, 0xdc00 + (c.toNat - 0x10000) % 0x400]

def utf16 (s : String) : List Nat := s.toList.flatMap codeUnits

def littleEndian (us : List Nat) : List Nat := us.flatMap fun u => [u % 256, u / 256]

/-- `list(s.encode("utf-16-le"))`: of every unit the low byte comes first. -/
def utf16SortKey (s : String) : List Nat := littleEndian (utf16 s)

/-- `sorted(value.keys(), key=_utf16_sort_key)`, with what belongs to each key. -/
def sortByKey {α : Type} (members : List (String × α)) : List (String × α) :=
  members.insertionSort fun m m' => utf16SortKey m.1 ≤ utf16SortKey m'.1

theorem codeUnits_append_inj {c d : Char} {us vs : List Nat} (h : codeUnits c ++ us = codeUnits d ++ vs) :
    c = d ∧ us = vs := by
  have hc := toNat_valid c
  have hd := toNat_valid d
  unfold codeUnits at h
  split at h <;> split at h
  case isTrue.isTrue =>
    obtain ⟨hn, hs⟩ := List.cons.inj h
    exact ⟨Char.toNat_inj.1 hn, hs⟩
  case isTrue.isFalse =>
    obtain ⟨hn, -⟩ := List.cons.inj h
    omega
  case isFalse.isTrue =>
    obtain ⟨hn, -⟩ := List.cons.inj h
    omega
  case isFalse.isFalse =>
    obtain ⟨hhigh, h⟩ := List.cons.inj h
    obtain ⟨hlow, hs⟩ := List.cons.inj h
    exact ⟨Char.toNat_inj.1 (by omega), hs⟩

theorem flatMap_codeUnits_inj {cs ds : List Char} (h : cs.flatMap codeUnits = ds.flatMap codeUnits) : cs = ds := by
  have empty : ∀ (c : Char) (cs : List Char), (c :: cs).flatMap codeUnits ≠ [] := by
    intro c cs
    simp only [List.flatMap_cons, codeUnits]
    split <;> exact nofun
  induction cs generalizing ds with
  | nil =>
    cases ds with
    | nil => rfl
    | cons d ds => exact absurd h.symm (empty d ds)
  | cons c cs ih =>
    cases ds with
    | nil => exact absurd h (empty c cs)
    | cons d ds =>
      rw [List.flatMap_cons, List.flatMap_cons] at h
      obtain ⟨rfl, hrest⟩ := codeUnits_append_inj h
      rw [ih hrest]

theorem utf16_inj {s t : String} : utf16 s = utf16 t ↔ s = t :=
  ⟨fun h => String.toList_inj.1 (flatMap_codeUnits_inj h), congrArg utf16⟩

/-- The first units that differ are the smaller on the left, their low bytes the smaller on the right. -/
def Crossed : List Nat → List Nat → Prop
  | u :: us, v :: vs => if u = v then Crossed us vs else u < v ∧ v % 256 < u % 256
  | _, _ => False

theorem crossed_cons (u v : Nat) (us vs : List Nat) : Crossed (u :: us) (v :: vs) ↔
    if u = v then Crossed us vs else u < v ∧ v % 256 < u % 256 := Iff.rfl

theorem Crossed.lt {us vs : List Nat} (h : Crossed us vs) : us < vs := by
  induction us generalizing vs with
  | nil => exact h.elim
  | cons u us ih =>
    cases vs with
    | nil => exact h.elim
    | cons v vs =>
      rw [List.cons_lt_cons_iff]
      rw [crossed_cons] at h
      split at h
      case isTrue huv => exact .inr ⟨huv, ih h⟩
      case isFalse huv => exact .inl h.1

/-- The bytes are in the order of the units, except where the units cross. -/
theorem littleEndian_lt_iff (us vs : List Nat) :
    littleEndian us < littleEndian vs ↔ (us < vs ∧ ¬ Crossed us vs) ∨ Crossed vs us := by
  unfold littleEndian
  induction us generalizing vs with
  | nil => cases vs <;> simp [Crossed]
  | cons u us ih =>
    cases vs with
    | nil => simp [Crossed]
    | cons v vs =>
      simp only [List.flatMap_cons, List.cons_append, List.nil_append, List.cons_lt_cons_iff, ih,
        crossed_cons]
      by_cases huv : u = v
      · subst huv
        simp
      · rw [if_neg huv, if_neg (Ne.symm huv)]
        omega

theorem littleEndian_inj {us vs : List Nat} (h : littleEndian us = littleEndian vs) : us = vs := by
  rcases lt_trichotomy us vs with hlt | heq | hlt
  · by_cases hc : Crossed us vs
    · exact absurd ((littleEndian_lt_iff vs us).2 (.inr hc)) (h ▸ lt_irrefl _)
    · exact absurd ((littleEndian_lt_iff us vs).2 (.inl ⟨hlt, hc⟩)) (h ▸ lt_irrefl _)
  · exact heq
  · by_cases hc : Crossed vs us
    · exact absurd ((littleEndian_lt_iff us vs).2 (.inr hc)) (h ▸ lt_irrefl _)
    · exact absurd ((littleEndian_lt_iff vs us).2 (.inl ⟨hlt, hc⟩)) (h ▸ lt_irrefl _)

theorem utf16SortKey_inj {s t : String} : utf16SortKey s = utf16SortKey t ↔ s = t :=
  ⟨fun h => utf16_inj.1 (littleEndian_inj h), congrArg utf16SortKey⟩

section Members
variable {α β : Type}

theorem sortByKey_perm (ms : List (String × α)) : (sortByKey ms).Perm ms := List.perm_insertionSort _ ms

theorem sortByKey_pairwise (ms : List (String × α)) :
    (sortByKey ms).Pairwise fun m m' => utf16SortKey m.1 ≤ utf16SortKey m'.1 := by
  have : Std.Total fun m m' : String × α => utf16SortKey m.1 ≤ utf16SortKey m'.1 := ⟨fun m m' => le_total _ _⟩
  have : IsTrans (String × α) fun m m' => utf16SortKey m.1 ≤ utf16SortKey m'.1 := ⟨fun _ _ _ => le_trans⟩
  exact List.pairwise_insertionSort _ ms

/-- What belongs to the keys has no part in their order. -/
theorem sortByKey_map (f : α → β) (ms : List (String × α)) :
    sortByKey (ms.map (Prod.map id f)) = (sortByKey ms).map (Prod.map id f) :=
  (List.map_insertionSort _ _ (Prod.map id f) ms fun _ _ _ _ => Iff.rfl).symm

/-- Of two entries in a list one comes first. -/
theorem related_of_pairwise {r : α → α → Prop} {l : List α} (h : l.Pairwise r) {a b : α} (ha : a ∈ l) (hb : b ∈ l)
    (hne : a ≠ b) : r a b ∨ r b a := by
  have hsym : Std.Symm fun a b => r a b ∨ r b a := ⟨fun _ _ => Or.symm⟩
  have hboth : l.Pairwise fun a b => r a b ∨ r b a := h.imp Or.inl
  exact hboth.forall ha hb hne

/-- The members of a dict have one order. -/
theorem sortByKey_congr {ms ns : List (String × α)} (hd : (ms.map (·.1)).Nodup) (hp : ms.Perm ns) :
    sortByKey ms = sortByKey ns := by
  have hperm : (sortByKey ms).Perm (sortByKey ns) :=
    ((sortByKey_perm ms).trans hp).trans (sortByKey_perm ns).symm
  refine List.Perm.eq_of_pairwise (fun m m' hm hm' hle hge => ?_) (sortByKey_pairwise ms) (sortByKey_pairwise ns) hperm
  have hkey : m.1 = m'.1 := utf16SortKey_inj.1 (le_antisymm hle hge)
  have hm := (sortByKey_perm ms).mem_iff.1 hm
  have hm' := hp.mem_iff.2 ((sortByKey_perm ns).mem_iff.1 hm')
  exact List.inj_on_of_nodup_map hd hm hm' hkey

end Members

end Order
section Write

/-- `int(f)`, which raises on a float that is not finite, and `f == n`. -/
structure Floats where
  int : FloatText → Option Int
  eqInt : FloatText → Int → Bool

def Floats.format (floats : Floats) (f : FloatText) : Option String := do
  let n ← floats.int f
  if floats.eqInt f n ∧ ¬ (floats.eqInt f 0 ∧ startsWith f.text "-") then return toString n else return f.text

/-- A host that converts no float. -/
def noFloats : Floats := ⟨fun _ => none, fun _ _ => false⟩

variable (floats : Floats)

mutual
/-- What `_write` adds to the buffer, as the text whose UTF-8 it is; `none` where it raises. -/
def write : Json → Option String
  | .null => some "null"
  | .bool b => some (if b then "true" else "false")
  | .int n => some (toString n)
  | .float f => floats.format f
  | .str s => some (quoteWith escapeChar s)
  | .arr items => do
    let parts ← writeItems items
    return "[" ++ ",".intercalate parts ++ "]"
  | .obj members => do
    let parts ← writeMembers members
    return "\x7b" ++ ",".intercalate ((sortByKey parts).map fun m => quoteWith escapeChar m.1 ++ ":" ++ m.2) ++ "\x7d"

def writeItems : List Json → Option (List String)
  | [] => some []
  | v :: vs => do
    let part ← write v
    let parts ← writeItems vs
    return part :: parts

/-- Every key with what is written for its value. -/
def writeMembers : List (String × Json) → Option (List (String × String))
  | [] => some []
  | (k, v) :: ms => do
    let part ← write v
    let parts ← writeMembers ms
    return (k, part) :: parts
end

def canonicalize (value : Json) : Option ByteArray := (write floats value).map String.toUTF8

/-- The members that a signature covers. -/
def stripped (members : List (String × Json)) : List (String × Json) :=
  members.filter fun m => m.1 ∉ ["signature", "self_signature"]

def canonicalizeForSigning : Json → Option ByteArray
  | .obj members => canonicalize floats (.obj (stripped members))
  | value => canonicalize floats value

theorem writeMembers_keys {ms : List (String × Json)} {parts : List (String × String)}
    (h : writeMembers floats ms = some parts) : parts.map (·.1) = ms.map (·.1) := by
  induction ms generalizing parts with
  | nil =>
    obtain rfl := Option.some.inj h
    rfl
  | cons m ms ih =>
    simp only [writeMembers, Option.bind_eq_bind, Option.bind_eq_some_iff, Option.pure_def] at h
    obtain ⟨part, -, rest, hrest, heq⟩ := h
    obtain rfl := Option.some.inj heq
    rw [List.map_cons, List.map_cons, ih hrest]

/-- The members are written in the order of their keys' code units as long as no two keys cross. -/
theorem written_in_order_iff {ms : List (String × Json)} (hd : (ms.map (·.1)).Nodup) {parts : List (String × String)}
    (hw : writeMembers floats ms = some parts) :
    (sortByKey parts).Pairwise (fun m m' => utf16 m.1 < utf16 m'.1) ↔
      ∀ k ∈ ms.map (·.1), ∀ k' ∈ ms.map (·.1), ¬ Crossed (utf16 k) (utf16 k') := by
  rw [← writeMembers_keys floats hw] at hd ⊢
  have hkeys : ∀ m ∈ sortByKey parts, m.1 ∈ parts.map (·.1) :=
    fun m hm => List.mem_map_of_mem ((sortByKey_perm parts).mem_iff.1 hm)
  have hne : (sortByKey parts).Pairwise fun m m' => m.1 ≠ m'.1 :=
    List.pairwise_map.1 (((sortByKey_perm parts).map Prod.fst).nodup_iff.2 hd)
  constructor
  · intro hord k hk k' hk' hc
    obtain ⟨m, hm, rfl⟩ := List.mem_map.1 hk
    obtain ⟨m', hm', rfl⟩ := List.mem_map.1 hk'
    -- whichever of the two is written first, one of the two orders is broken
    have hmm' : m ≠ m' := fun heq => lt_irrefl _ (heq ▸ hc.lt)
    have hin : ∀ {m}, m ∈ parts → m ∈ sortByKey parts := (sortByKey_perm parts).mem_iff.2
    rcases related_of_pairwise (hord.and (sortByKey_pairwise parts)) (hin hm) (hin hm') hmm' with ⟨-, hle⟩ | ⟨hlt, -⟩
    · exact absurd ((littleEndian_lt_iff _ _).2 (.inr hc)) (not_lt.2 hle)
    · exact absurd hlt hc.lt.asymm
  · intro hfree
    refine ((sortByKey_pairwise parts).and hne).imp_of_mem fun {m m'} hm hm' ⟨hle, hkk⟩ => ?_
    have hlt := lt_of_le_of_ne hle fun h => hkk (utf16SortKey_inj.1 h)
    rcases (littleEndian_lt_iff _ _).1 hlt with h | h
    · exact h.1
    · exact absurd h (hfree _ (hkeys m' hm') _ (hkeys m hm))

theorem written_in_order_ascii : (sortByKey [("b", "1"), ("a", "2")]).Pairwise (fun m m' => utf16 m.1 < utf16 m'.1) ↔
    ∀ k ∈ ["b", "a"], ∀ k' ∈ ["b", "a"], ¬ Crossed (utf16 k) (utf16 k') :=
  @written_in_order_iff noFloats [("b", .int 1), ("a", .int 2)] (by decide) _ rfl

/-- `a` is U+0061 and comes before `Ā`, U+0100, but is written after it. -/
theorem low_byte_first : ¬ ∀ (floats : Floats) (ms : List (String × Json)) (parts : List (String × String)),
    (ms.map (·.1)).Nodup → writeMembers floats ms = some parts →
      (sortByKey parts).Pairwise fun m m' => utf16 m.1 < utf16 m'.1 := by
  intro h
  have hord := h noFloats [("a", .int 1), ("Ā", .int 2)] _ (by decide) rfl
  revert hord
  decide

end Write
end PuffoAgent.Crypto
