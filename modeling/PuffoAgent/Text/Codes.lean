import Mathlib.Data.List.Basic
import Mathlib.Logic.Function.Basic

/-! Codes that are told from what follows them, lists that a separator joins, and the lines of a text. -/
namespace PuffoAgent.Text.Codes

section Delimited
variable {α γ : Type} {ends : List γ → Prop} {code : α → List γ}

/-- What is coded can be told, and so can what follows it, where that ends the code. -/
def Delimited (ends : List γ → Prop) (code : α → List γ) : Prop :=
  ∀ a b r s, ends r → ends s → code a ++ r = code b ++ s → a = b ∧ r = s

/-- A code that is read back. -/
theorem Delimited.of_read (read : List γ → Option (α × List γ))
    (h : ∀ a r, ends r → read (code a ++ r) = some (a, r)) : Delimited ends code := by
  intro a b r s hr hs he
  have hread := h a r hr
  rw [he, h b s hs] at hread
  cases hread
  exact ⟨rfl, rfl⟩

theorem Delimited.injective (h : Delimited ends code) (hnil : ends []) : Function.Injective code := by
  intro a b he
  exact (h a b [] [] hnil hnil (by rw [he])).1

/-- Entries up to a closing mark that begins none of them. -/
theorem Delimited.closed {close : γ} (h : Delimited (fun _ => True) code)
    (hhead : ∀ a, ∃ c cs, code a = c :: cs ∧ c ≠ close) :
    Delimited (fun _ => True) fun as : List α => as.flatMap code ++ [close] := by
  intro as bs r s _ _ he
  simp only [List.append_assoc] at he
  induction as generalizing bs with
  | nil =>
    cases bs with
    | nil => exact ⟨rfl, (List.cons.inj he).2⟩
    | cons b bs =>
      obtain ⟨c, cs, hb, hc⟩ := hhead b
      rw [List.flatMap_cons, hb] at he
      exact absurd (List.cons.inj he).1.symm hc
  | cons a as ih =>
    cases bs with
    | nil =>
      obtain ⟨c, cs, ha, hc⟩ := hhead a
      rw [List.flatMap_cons, ha] at he
      exact absurd (List.cons.inj he).1 hc
    | cons b bs =>
      rw [List.flatMap_cons, List.flatMap_cons, List.append_assoc, List.append_assoc] at he
      obtain ⟨rfl, hrest⟩ := h a b _ _ trivial trivial he
      obtain ⟨rfl, hr⟩ := ih bs hrest
      exact ⟨rfl, hr⟩

/-- Nothing follows, or the separator does. -/
def Separated (sep : γ) (r : List γ) : Prop := ∀ c ∈ r.head?, c = sep

theorem separated_led {sep : γ} (as : List α) : Separated sep (as.flatMap fun a => sep :: code a) := by
  cases as with
  | nil => nofun
  | cons a as =>
    intro c hc
    cases hc
    rfl

/-- Entries that the separator leads are told from each other. -/
theorem Delimited.led {sep : γ} (h : Delimited (Separated sep) code) :
    Function.Injective fun as : List α => as.flatMap fun a => sep :: code a := by
  intro as bs he
  induction as generalizing bs with
  | nil =>
    cases bs with
    | nil => rfl
    | cons b bs => cases he
  | cons a as ih =>
    cases bs with
    | nil => cases he
    | cons b bs =>
      simp only [List.flatMap_cons, List.cons_append, List.cons.injEq, true_and] at he
      obtain ⟨rfl, hrest⟩ := h a b _ _ (separated_led as) (separated_led bs) he
      rw [ih hrest]

theorem intercalate_cons {sep : γ} (part : List γ) (parts : List (List γ)) :
    [sep].intercalate (part :: parts) = part ++ parts.flatMap (sep :: ·) := by
  induction parts generalizing part with
  | nil => simp
  | cons next parts ih => rw [List.intercalate_cons_cons, ih next, List.flatMap_cons, List.append_assoc]; rfl

/-- Joined entries are told from each other. -/
theorem Delimited.joined {sep : γ} (h : Delimited (Separated sep) code) (hne : ∀ a, code a ≠ []) :
    Function.Injective fun as : List α => [sep].intercalate (as.map code) := by
  intro as bs he
  cases as with
  | nil =>
    cases bs with
    | nil => rfl
    | cons b bs =>
      simp only [List.map_cons, intercalate_cons] at he
      exact absurd (List.append_eq_nil_iff.1 he.symm).1 (hne b)
  | cons a as =>
    cases bs with
    | nil =>
      simp only [List.map_cons, intercalate_cons] at he
      exact absurd (List.append_eq_nil_iff.1 he).1 (hne a)
    | cons b bs =>
      simp only [List.map_cons, intercalate_cons, List.flatMap_map] at he
      obtain ⟨rfl, hrest⟩ := h a b _ _ (separated_led as) (separated_led bs) he
      rw [h.led hrest]

/-- What stands before the first mark, and what after it. -/
theorem append_mark_inj {mark : γ} {xs ys r s : List γ} (hx : mark ∉ xs) (hy : mark ∉ ys)
    (h : xs ++ mark :: r = ys ++ mark :: s) : xs = ys ∧ r = s := by
  induction xs generalizing ys with
  | nil =>
    cases ys with
    | nil => exact ⟨rfl, (List.cons.inj h).2⟩
    | cons y ys => exact absurd ((List.cons.inj h).1 ▸ List.mem_cons_self) hy
  | cons x xs ih =>
    cases ys with
    | nil => exact absurd ((List.cons.inj h).1 ▸ List.mem_cons_self) hx
    | cons y ys =>
      obtain ⟨rfl, hrest⟩ := List.cons.inj h
      obtain ⟨rfl, hr⟩ := ih (fun hm => hx (List.mem_cons_of_mem _ hm)) (fun hm => hy (List.mem_cons_of_mem _ hm)) hrest
      exact ⟨rfl, hr⟩

end Delimited

section Lines

/-- The characters that end a line: the line feed and the carriage return, and no printable one. -/
structure LineBreaks where
  breaks : Char → Bool
  newline : breaks '\n'
  carriageReturn : breaks '\r'
  unprintable : ∀ c, breaks c → c.toNat < 0x20 ∨ 0x7f ≤ c.toNat

variable (sep : LineBreaks)

/-- The lines of a text. A carriage return and the line feed after it end one line. -/
def splitLines : List Char → List (List Char)
  | [] => []
  | '\r' :: '\n' :: cs => [] :: splitLines cs
  | c :: cs =>
    if sep.breaks c then [] :: splitLines cs
    else match splitLines cs with
      | [] => [[c]]
      | line :: lines => (c :: line) :: lines

variable {sep} {line : List Char} {lines : List (List Char)}

/-- No line holds a break. -/
theorem splitLines_unbroken {cs : List Char} : ∀ line ∈ splitLines sep cs, ∀ c ∈ line, sep.breaks c = false := by
  fun_induction splitLines sep cs with
  | case1 => nofun
  | case2 cs ih =>
    intro line hline
    rcases List.mem_cons.1 hline with rfl | hline
    · nofun
    · exact ih line hline
  | case3 c cs _ hc ih =>
    intro line hline
    rcases List.mem_cons.1 hline with rfl | hline
    · nofun
    · exact ih line hline
  | case4 c cs _ hc hnil ih =>
    intro line hline d hd
    rw [List.mem_singleton.1 hline] at hd
    rw [List.mem_singleton.1 hd]
    exact eq_false_of_ne_true hc
  | case5 c cs _ hc first rest hsplit ih =>
    intro line hline d hd
    rw [hsplit] at ih
    rcases List.mem_cons.1 hline with rfl | hline
    · rcases List.mem_cons.1 hd with rfl | hd
      · exact eq_false_of_ne_true hc
      · exact ih first List.mem_cons_self d hd
    · exact ih line (List.mem_cons_of_mem _ hline) d hd

theorem splitLines_cons {c : Char} {cs : List Char} (hc : sep.breaks c = false) :
    splitLines sep (c :: cs) = match splitLines sep cs with
      | [] => [[c]]
      | line :: lines => (c :: line) :: lines := by
  rw [splitLines.eq_def]
  split
  · rename_i he
    cases he
  · rename_i he
    obtain ⟨rfl, rfl⟩ := List.cons.inj he
    rw [sep.carriageReturn] at hc
    cases hc
  · rename_i he
    obtain ⟨rfl, rfl⟩ := List.cons.inj he
    rw [if_neg (by simp [hc])]

theorem splitLines_newline (sep : LineBreaks) (cs : List Char) : splitLines sep ('\n' :: cs) = [] :: splitLines sep cs := by
  rw [splitLines.eq_def]
  exact if_pos sep.newline

/-- An unbroken start of a text is the start of its first line. -/
theorem splitLines_append (h : ∀ c ∈ line, sep.breaks c = false) {cs : List Char} {first : List Char}
    {rest : List (List Char)} (hcs : splitLines sep cs = first :: rest) :
    splitLines sep (line ++ cs) = (line ++ first) :: rest := by
  induction line with
  | nil => exact hcs
  | cons c line ih =>
    rw [List.cons_append, splitLines_cons (h c List.mem_cons_self), ih fun d hd => h d (List.mem_cons_of_mem _ hd)]
    rfl

theorem splitLines_single (h : ∀ c ∈ line, sep.breaks c = false) (hne : line ≠ []) : splitLines sep line = [line] := by
  obtain ⟨start, c, rfl⟩ : ∃ start c, line = start ++ [c] := ⟨_, _, (List.dropLast_append_getLast hne).symm⟩
  have hlast : splitLines sep [c] = [[c]] := splitLines_cons (h c (by simp))
  exact splitLines_append (fun d hd => h d (by simp [hd])) hlast

/-- The lines that are joined come back iff none of them holds a break. -/
theorem splitLines_joined (hne : ∀ line ∈ lines, line ≠ []) :
    splitLines sep (['\n'].intercalate lines) = lines ↔ ∀ line ∈ lines, ∀ c ∈ line, sep.breaks c = false := by
  constructor
  · intro h line hline
    rw [← h] at hline
    exact splitLines_unbroken line hline
  · intro h
    cases lines with
    | nil => rfl
    | cons line lines =>
      rw [intercalate_cons]
      induction lines generalizing line with
      | nil =>
        rw [List.flatMap_nil, List.append_nil]
        exact splitLines_single (h line List.mem_cons_self) (hne line List.mem_cons_self)
      | cons next lines ih =>
        have hrest := ih next (fun l hl => hne l (List.mem_cons_of_mem _ hl)) fun l hl => h l (List.mem_cons_of_mem _ hl)
        rw [List.flatMap_cons, List.cons_append]
        have hbreak := splitLines_newline sep (next ++ lines.flatMap ('\n' :: ·))
        rw [hrest] at hbreak
        rw [splitLines_append (h line List.mem_cons_self) hbreak, List.append_nil]

theorem joined_eq_nil (hne : ∀ line ∈ lines, line ≠ []) (h : ['\n'].intercalate lines = []) : lines = [] := by
  cases lines with
  | nil => rfl
  | cons line lines =>
    rw [intercalate_cons] at h
    exact absurd (List.append_eq_nil_iff.1 h).1 (hne line List.mem_cons_self)

/-- Lines without a line feed are told from their join. -/
theorem joined_lines_injective {others : List (List Char)} (h : ∀ line ∈ lines, '\n' ∉ line) (hne : ∀ line ∈ lines, line ≠ [])
    (h' : ∀ line ∈ others, '\n' ∉ line) (hne' : ∀ line ∈ others, line ≠ [])
    (he : ['\n'].intercalate lines = ['\n'].intercalate others) : lines = others := by
  by_cases hnil : lines = []
  · subst hnil
    exact (joined_eq_nil hne' he.symm).symm
  · have hnil' : others ≠ [] := by
      rintro rfl
      exact hnil (joined_eq_nil hne he)
    rw [← List.splitOn_intercalate '\n' h hnil, he, List.splitOn_intercalate '\n' h' hnil']

end Lines
end PuffoAgent.Text.Codes
