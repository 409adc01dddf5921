import PuffoAgent.Text.Python
import PuffoAgent.Text.Utf8
import Mathlib.Data.List.DropRight
import Mathlib.Data.List.Infix
import Mathlib.Algebra.GroupWithZero.Nat

/-! Line endings, sizes and the exact replacement of a part of a text. -/
namespace PuffoAgent.Text

section Sizes
variable {xs ys : List Char} {s t : String}

/-- `len(text.encode("utf-8"))`. -/
def byteSize (s : String) : Nat := (encodeUtf8 s.toList).length

@[simp] theorem encodeUtf8_append : encodeUtf8 (xs ++ ys) = encodeUtf8 xs ++ encodeUtf8 ys := List.flatMap_append

@[simp] theorem byteSize_empty : byteSize "" = 0 := rfl

@[simp] theorem byteSize_append : byteSize (s ++ t) = byteSize s + byteSize t := by simp [byteSize]

theorem byteSize_intercalate {sep : String} {parts : List String} : byteSize (sep.intercalate parts) =
    (parts.map byteSize).sum + (parts.length - 1) * byteSize sep := by
  cases parts with
  | nil => simp
  | cons part parts =>
    induction parts generalizing part with
    | nil => simp
    | cons next parts ih =>
      have hrec := ih next
      simp only [String.intercalate_cons_cons, byteSize_append, hrec, List.map_cons, List.sum_cons, List.length_cons,
        Nat.add_sub_cancel, Nat.add_mul, Nat.one_mul]
      omega

/-- A text of characters that none is replaced stays as it is. -/
theorem escapeWith_eq_self {f : Char → String} (h : ∀ c ∈ s.toList, f c = c.toString) : escapeWith f s = s := by
  have hjoin : ∀ cs : List Char, (∀ c ∈ cs, f c = c.toString) → (String.join (cs.map f)).toList = cs := by
    intro cs hcs
    rw [String.toList_join, List.flatMap_map]
    induction cs with
    | nil => rfl
    | cons c cs ih =>
      rw [List.flatMap_cons, ih fun d hd => hcs d (List.mem_cons_of_mem _ hd), hcs c List.mem_cons_self]
      simp
  rw [escapeWith, ← String.toList_inj, hjoin _ h]

theorem encodeUtf8_injective : Function.Injective encodeUtf8 := by
  intro xs ys h
  rw [← decodeReplace_encodeUtf8 xs, h, decodeReplace_encodeUtf8]

theorem decodeStrict_eq_some {bytes : List UInt8} : decodeStrict bytes = some s ↔ bytes = encodeUtf8 s.toList := by
  constructor
  · intro h
    simp only [decodeStrict] at h
    split at h
    · rename_i he
      cases h
      rw [String.toList_ofList, he]
    · cases h
  · rintro rfl
    rw [decodeStrict_encodeUtf8, String.ofList_toList]

end Sizes

section LineEndings
variable {xs ys : List Char}

/-- Universal newlines: what a file opened as text is read as. -/
def universal : List Char → List Char
  | [] => []
  | '\r' :: '\n' :: cs => '\n' :: universal cs
  | '\r' :: cs => '\n' :: universal cs
  | c :: cs => c :: universal cs

example : universal ['a', '\r', '\n', '\r', 'b'] = ['a', '\n', '\n', 'b'] := by simp [universal]

def universalText (s : String) : String := String.ofList (universal s.toList)

theorem universal_cons {c : Char} (h : c ≠ '\r') : universal (c :: xs) = c :: universal xs := by
  rw [universal] <;> simp_all

theorem universal_return (h : xs.head? ≠ some '\n') : universal ('\r' :: xs) = '\n' :: universal xs := by
  rw [universal]
  rintro cs rfl
  exact h rfl

theorem universal_of_notMem (h : '\r' ∉ xs) : universal xs = xs := by
  induction xs with
  | nil => rfl
  | cons c cs ih =>
    obtain ⟨hc, hcs⟩ := not_or.1 (mt List.mem_cons.2 h)
    rw [universal_cons (Ne.symm hc), ih hcs]

theorem return_notMem_universal : '\r' ∉ universal xs := by
  fun_induction universal xs with
  | case1 => simp
  | case2 cs ih => simp [ih]
  | case3 cs _ ih => simp [ih]
  | case4 c cs _ hc ih => simp [ih, Ne.symm hc]

theorem universal_eq_self_iff : universal xs = xs ↔ '\r' ∉ xs :=
  ⟨fun h => h ▸ return_notMem_universal, universal_of_notMem⟩

theorem size_universal_le : (encodeUtf8 (universal xs)).length ≤ (encodeUtf8 xs).length := by
  fun_induction universal xs with
  | case1 => exact Nat.le_refl _
  | case2 cs ih =>
    have hr : (String.utf8EncodeChar '\r').length = 1 := rfl
    simp only [encodeUtf8, List.flatMap_cons, List.length_append] at ih ⊢
    omega
  | case3 cs _ ih =>
    have hr : (String.utf8EncodeChar '\r').length = 1 := rfl
    have hn : (String.utf8EncodeChar '\n').length = 1 := rfl
    simp only [encodeUtf8, List.flatMap_cons, List.length_append] at ih ⊢
    omega
  | case4 c cs _ _ ih =>
    simp only [encodeUtf8, List.flatMap_cons, List.length_append] at ih ⊢
    omega

/-- Only a return before a line feed makes the parts read otherwise than the whole. -/
theorem universal_append (h : xs.getLast? = some '\r' → ys.head? ≠ some '\n') :
    universal (xs ++ ys) = universal xs ++ universal ys := by
  fun_induction universal xs with
  | case1 => rfl
  | case2 cs ih =>
    have hcs : cs.getLast? = some '\r' → ys.head? ≠ some '\n' := fun he => h (by
      rw [List.getLast?_cons_cons, List.getLast?_cons, he]
      rfl)
    rw [List.cons_append, List.cons_append, universal, ih hcs, List.cons_append]
  | case3 cs hn ih =>
    have hcs : cs.getLast? = some '\r' → ys.head? ≠ some '\n' := fun he => h (by
      rw [List.getLast?_cons, he]
      rfl)
    have hhead : (cs ++ ys).head? ≠ some '\n' := by
      cases cs with
      | nil => exact h rfl
      | cons d ds =>
        intro he
        cases he
        exact hn ds rfl
    rw [List.cons_append, universal_return hhead, ih hcs, List.cons_append]
  | case4 c cs _ hc ih =>
    have hcs : cs.getLast? = some '\r' → ys.head? ≠ some '\n' := fun he => h (by
      rw [List.getLast?_cons, he]
      rfl)
    rw [List.cons_append, universal_cons hc, ih hcs, List.cons_append]

end LineEndings

section Blanks
variable {xs ys : List Char}

def trim (cs : List Char) : List Char := ((cs.dropWhile isSpace).reverse.dropWhile isSpace).reverse

theorem strip_eq (s : String) : strip s = String.ofList (trim s.toList) := rfl

theorem dropWhile_universal : (universal xs).dropWhile isSpace = universal (xs.dropWhile isSpace) := by
  fun_induction universal xs with
  | case1 => rfl
  | case2 cs ih =>
    have hr : isSpace '\r' = true := rfl
    have hn : isSpace '\n' = true := rfl
    simp only [List.dropWhile_cons, hr, hn, ↓reduceIte, ih]
  | case3 cs _ ih =>
    have hr : isSpace '\r' = true := rfl
    have hn : isSpace '\n' = true := rfl
    simp only [List.dropWhile_cons, hr, hn, ↓reduceIte, ih]
  | case4 c cs _ hc ih =>
    rw [List.dropWhile_cons, List.dropWhile_cons]
    split
    · exact ih
    · rw [universal_cons hc]

theorem isSpace_universal (h : ∀ c ∈ xs, isSpace c = true) : ∀ c ∈ universal xs, isSpace c = true := by
  rw [← List.dropWhile_eq_nil_iff] at h ⊢
  rw [dropWhile_universal, h, universal]

/-- The blanks at the end go alone. -/
theorem rdropWhile_append (hy : ∀ c ∈ ys, isSpace c = true) :
    (xs ++ ys).rdropWhile isSpace = xs.rdropWhile isSpace := by
  induction ys using List.reverseRecOn with
  | nil => rw [List.append_nil]
  | append_singleton ys c ih =>
    rw [← List.append_assoc, List.rdropWhile_concat_pos _ _ _ (hy c (by simp)), ih fun d hd => hy d (by simp [hd])]

theorem rdropWhile_universal : (universal xs).rdropWhile isSpace = universal (xs.rdropWhile isSpace) := by
  induction xs using List.reverseRecOn with
  | nil => rfl
  | append_singleton cs c ih =>
    have hn : isSpace '\n' = true := rfl
    have hr : isSpace '\r' = true := rfl
    by_cases hc : isSpace c = true
    · rw [List.rdropWhile_concat_pos _ _ _ hc, ← ih]
      by_cases hbreak : cs.getLast? = some '\r' ∧ c = '\n'
      · -- the two are read as one line feed
        obtain ⟨hlast, rfl⟩ := hbreak
        obtain ⟨ds, rfl⟩ := List.getLast?_eq_some_iff.1 hlast
        rw [List.append_assoc, @universal_append ds (['\r'] ++ ['\n']) fun _ he => by simp at he,
          @universal_append ds ['\r'] fun _ he => by simp at he]
        rw [rdropWhile_append (isSpace_universal (by simp [hr, hn])), rdropWhile_append (isSpace_universal (by simp [hr]))]
      · rw [universal_append fun hlast he => hbreak ⟨hlast, by simpa using he⟩,
          rdropWhile_append (isSpace_universal (by simp [hc]))]
    · have hsingle : universal [c] = [c] := universal_of_notMem (by
        rw [List.mem_singleton]
        rintro rfl
        exact hc hr)
      have hcat : universal (cs ++ [c]) = universal cs ++ [c] := by
        rw [universal_append, hsingle]
        rintro - he
        cases he
        exact hc hn
      rw [List.rdropWhile_concat_neg _ _ _ hc, hcat, List.rdropWhile_concat_neg _ _ _ hc]

theorem trim_universal : trim (universal xs) = universal (trim xs) := by
  have h := @rdropWhile_universal (xs.dropWhile isSpace)
  rwa [← dropWhile_universal] at h

theorem strip_universalText (s : String) : strip (universalText s) = universalText (strip s) := by
  simp only [strip_eq, universalText, String.toList_ofList, trim_universal]

theorem byteSize_universalText_le (s : String) : byteSize (universalText s) ≤ byteSize s := by
  rw [byteSize, universalText, String.toList_ofList]
  exact size_universal_le

@[simp] theorem universalText_empty : universalText "" = "" := rfl

end Blanks
section Replacing
variable {α : Type} [DecidableEq α] {old new cs p q : List α}

/-- The matches after `skip` more characters. They do not overlap. -/
def countFrom (old : List α) : Nat → List α → Nat
  | _, [] => 0
  | skip + 1, _ :: cs => countFrom old skip cs
  | 0, c :: cs => if old.isPrefixOf (c :: cs) then countFrom old (old.length - 1) cs + 1 else countFrom old 0 cs

/-- `text.count(old)`, of a part that is not empty. -/
def count (old cs : List α) : Nat := countFrom old 0 cs

def replaceFrom (old new : List α) : Nat → List α → List α
  | _, [] => []
  | skip + 1, _ :: cs => replaceFrom old new skip cs
  | 0, c :: cs =>
    if old.isPrefixOf (c :: cs) then new ++ replaceFrom old new (old.length - 1) cs else c :: replaceFrom old new 0 cs

/-- `text.replace(old, new)`, of a part that is not empty. -/
def replace (old new cs : List α) : List α := replaceFrom old new 0 cs

theorem countFrom_eq (skip : Nat) (cs : List α) : countFrom old skip cs = count old (cs.drop skip) := by
  induction cs generalizing skip with
  | nil => rw [List.drop_nil, count, countFrom, countFrom]
  | cons c cs ih =>
    cases skip with
    | zero => rfl
    | succ skip => exact ih skip

theorem replaceFrom_eq (skip : Nat) (cs : List α) : replaceFrom old new skip cs = replace old new (cs.drop skip) := by
  induction cs generalizing skip with
  | nil => rw [List.drop_nil, replace, replaceFrom, replaceFrom]
  | cons c cs ih =>
    cases skip with
    | zero => rfl
    | succ skip => exact ih skip

omit [DecidableEq α] in
/-- What comes after a part that is not empty. -/
theorem drop_of_cons_eq {c : α} (hne : old ≠ []) (h : c :: cs = old ++ q) : cs.drop (old.length - 1) = q := by
  cases old with
  | nil => exact absurd rfl hne
  | cons d ds =>
    obtain ⟨-, rfl⟩ := List.cons.inj h
    exact List.drop_left

theorem count_append (hne : old ≠ []) : count old (old ++ q) = count old q + 1 := by
  cases h : old ++ q with
  | nil => simp [hne] at h
  | cons c cs =>
    rw [count, countFrom, if_pos (by simp [← h]), countFrom_eq, drop_of_cons_eq hne h.symm]

theorem replace_append (hne : old ≠ []) : replace old new (old ++ q) = new ++ replace old new q := by
  cases h : old ++ q with
  | nil => simp [hne] at h
  | cons c cs =>
    rw [replace, replaceFrom, if_pos (by simp [← h]), replaceFrom_eq, drop_of_cons_eq hne h.symm]

theorem count_cons {c : α} (h : ¬ old <+: c :: cs) : count old (c :: cs) = count old cs := by
  rw [count, countFrom, if_neg (by simpa using h), count]

theorem replace_cons {c : α} (h : ¬ old <+: c :: cs) : replace old new (c :: cs) = c :: replace old new cs := by
  rw [replace, replaceFrom, if_neg (by simpa using h), replace]

/-- The first match, or there is none. -/
theorem first_match (hne : old ≠ []) (cs : List α) :
    (count old cs = 0 ∧ (∀ new, replace old new cs = cs) ∧ ¬ old <:+: cs) ∨
      ∃ p q, cs = p ++ (old ++ q) ∧ (∀ p' q', cs = p' ++ (old ++ q') → p <+: p') ∧ count old cs = count old q + 1 ∧
        ∀ new, replace old new cs = p ++ (new ++ replace old new q) := by
  induction cs with
  | nil => exact .inl ⟨rfl, fun _ => rfl, fun h => hne (List.infix_nil.1 h)⟩
  | cons c cs ih =>
    by_cases hp : old <+: c :: cs
    · obtain ⟨q, hq⟩ := hp
      refine .inr ⟨[], q, hq.symm, fun p' q' _ => List.nil_prefix, ?_, fun new => ?_⟩
      · rw [← hq, count_append hne]
      · rw [← hq, replace_append hne, List.nil_append]
    · rcases ih with ⟨hcount, hreplace, hnone⟩ | ⟨p, q, hcs, hfirst, hcount, hreplace⟩
      · refine .inl ⟨by rw [count_cons hp, hcount], fun new => by rw [replace_cons hp, hreplace], fun h => ?_⟩
        rcases List.infix_cons_iff.1 h with h | h
        · exact hp h
        · exact hnone h
      · refine .inr ⟨c :: p, q, by rw [hcs]; rfl, fun p' q' h => ?_, by rw [count_cons hp, hcount], fun new => ?_⟩
        · cases p' with
          | nil => exact absurd ⟨q', h.symm⟩ hp
          | cons d p' =>
            obtain ⟨rfl, htail⟩ := List.cons.inj h
            exact (List.prefix_cons_inj c).2 (hfirst p' q' htail)
        · rw [replace_cons hp, hreplace]
          rfl

/-- A part is at one place only. -/
def Once (old cs p q : List α) : Prop := cs = p ++ (old ++ q) ∧ ∀ p' q', cs = p' ++ (old ++ q') → p' = p

def Several (old cs : List α) : Prop := ∃ p q p' q', cs = p ++ (old ++ q) ∧ cs = p' ++ (old ++ q') ∧ p ≠ p'

theorem Once.count (hne : old ≠ []) (h : Once old cs p q) : Text.count old cs = 1 := by
  obtain ⟨hcs, honly⟩ := h
  rcases first_match hne cs with ⟨-, -, hnone⟩ | ⟨p₁, q₁, hcs₁, -, hcount, -⟩
  · exact absurd ⟨p, q, by rw [hcs, List.append_assoc]⟩ hnone
  · rcases first_match hne q₁ with ⟨hzero, -, -⟩ | ⟨p₂, q₂, hq₁, -, -, -⟩
    · rw [hcount, hzero]
    · -- a second match would be at another place
      have hfirst := honly p₁ q₁ hcs₁
      have hsecond := honly (p₁ ++ (old ++ p₂)) q₂ (by rw [hcs₁, hq₁]; simp only [List.append_assoc])
      have hlen := congrArg List.length (hfirst.trans hsecond.symm)
      have hpos := List.length_pos_iff.2 hne
      simp only [List.length_append] at hlen
      omega

theorem Once.replace (hne : old ≠ []) (h : Once old cs p q) (new : List α) : Text.replace old new cs = p ++ (new ++ q) := by
  have hone := h.count hne
  obtain ⟨hcs, honly⟩ := h
  rcases first_match hne cs with ⟨hzero, -, -⟩ | ⟨p₁, q₁, hcs₁, -, hcount, hreplace⟩
  · omega
  · obtain rfl := honly p₁ q₁ hcs₁
    obtain rfl : q₁ = q := List.append_cancel_left (List.append_cancel_left (hcs₁.symm.trans hcs))
    rcases first_match hne q₁ with ⟨-, hsame, -⟩ | ⟨_, _, -, -, hmore, -⟩
    · rw [hreplace, hsame]
    · omega

/-- A single match is the one that is replaced. -/
theorem match_of_count_eq_one (hne : old ≠ []) (h : count old cs = 1) :
    ∃ p q, cs = p ++ (old ++ q) ∧ ∀ new, replace old new cs = p ++ (new ++ q) := by
  rcases first_match hne cs with ⟨hzero, -, -⟩ | ⟨p, q, hcs, -, hcount, hreplace⟩
  · omega
  · rcases first_match hne q with ⟨-, hsame, -⟩ | ⟨_, _, -, -, hmore, -⟩
    · exact ⟨p, q, hcs, fun new => by rw [hreplace, hsame]⟩
    · omega

end Replacing
end PuffoAgent.Text
