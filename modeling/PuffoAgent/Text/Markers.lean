import PuffoAgent.Text.Editing

/-! The part of a text between two markers, of which none overlaps a shift of itself. -/
namespace PuffoAgent.Text

section Cutting
variable {α : Type} [DecidableEq α] {marker cs before after : List α}

/-- `text.partition(marker)`, of a marker that is not empty. -/
def cut (marker : List α) : List α → Option (List α × List α)
  | [] => none
  | c :: cs =>
    if marker.isPrefixOf (c :: cs) then some ([], (c :: cs).drop marker.length)
    else (cut marker cs).map fun p => (c :: p.1, p.2)

/-- The first symbol of the marker does not come back in it. -/
def Sharp (marker : List α) : Prop := ∃ c cs, marker = c :: cs ∧ c ∉ cs

omit [DecidableEq α] in
theorem Sharp.ne_nil (h : Sharp marker) : marker ≠ [] := by
  obtain ⟨c, cs, rfl, -⟩ := h
  exact List.cons_ne_nil c cs

omit [DecidableEq α] in
/-- A sharp marker that begins in the text before it ends there. -/
theorem Sharp.prefix_of_append (h : Sharp marker) (hne : before ≠ []) (hp : marker <+: before ++ (marker ++ after)) :
    marker <+: before := by
  obtain ⟨c, cs, rfl, hc⟩ := h
  rcases List.prefix_or_prefix_of_prefix hp (List.prefix_append before _) with hb | ⟨r, hr⟩
  · exact hb
  · cases r with
    | nil => exact ⟨[], by rw [← hr, List.append_nil, List.append_nil]⟩
    | cons d r =>
      have hp' : d :: r <+: (c :: cs) ++ after := by
        rwa [← List.prefix_append_right_inj before, hr]
      obtain ⟨rfl, -⟩ := List.cons_prefix_cons.mp hp'
      cases before with
      | nil => exact absurd rfl hne
      | cons b before =>
        obtain ⟨-, rfl⟩ := List.cons.inj hr
        exact absurd (by simp) hc

theorem cut_of_prefixed (h : marker <+: cs) (hne : marker ≠ []) : cut marker cs = some ([], cs.drop marker.length) := by
  cases cs with
  | nil => exact absurd (List.prefix_nil.mp h) hne
  | cons c cs => rw [cut, if_pos (List.isPrefixOf_iff_prefix.mpr h)]

theorem cut_cons {c : α} (h : ¬ marker <+: c :: cs) :
    cut marker (c :: cs) = (cut marker cs).map fun p => (c :: p.1, p.2) := by
  rw [cut, if_neg (mt List.isPrefixOf_iff_prefix.mp h)]

theorem eq_of_cut (h : cut marker cs = some (before, after)) : cs = before ++ (marker ++ after) := by
  induction cs generalizing before with
  | nil => cases h
  | cons c cs ih =>
    by_cases hp : marker <+: c :: cs
    · rw [cut, if_pos (List.isPrefixOf_iff_prefix.mpr hp)] at h
      cases h
      obtain ⟨r, hr⟩ := hp
      rw [← hr, List.drop_left, List.nil_append]
    · rw [cut_cons hp] at h
      obtain ⟨⟨b, a⟩, hb, he⟩ := Option.map_eq_some_iff.mp h
      cases he
      rw [ih hb, List.cons_append]

theorem cut_eq_none (hne : marker ≠ []) : cut marker cs = none ↔ ¬ marker <:+: cs := by
  induction cs with
  | nil => exact ⟨fun _ h => hne (List.infix_nil.mp h), fun _ => rfl⟩
  | cons c cs ih =>
    rw [List.infix_cons_iff, not_or]
    by_cases hp : marker <+: c :: cs
    · rw [cut_of_prefixed hp hne]
      exact iff_of_false nofun fun h => h.1 hp
    · rw [cut_cons hp, Option.map_eq_none_iff, ih]
      exact ⟨fun h => ⟨hp, h⟩, And.right⟩

/-- The text is cut at the first marker. -/
theorem cut_eq_some (hs : Sharp marker) : cut marker cs = some (before, after) ↔
    cs = before ++ (marker ++ after) ∧ ¬ marker <:+: before := by
  constructor
  · intro h
    refine ⟨eq_of_cut h, ?_⟩
    induction cs generalizing before with
    | nil => cases h
    | cons c cs ih =>
      by_cases hp : marker <+: c :: cs
      · rw [cut_of_prefixed hp hs.ne_nil] at h
        cases h
        exact fun hi => hs.ne_nil (List.infix_nil.mp hi)
      · have hcs := eq_of_cut h
        rw [cut_cons hp] at h
        obtain ⟨⟨b, a⟩, hb, he⟩ := Option.map_eq_some_iff.mp h
        cases he
        rw [List.infix_cons_iff, not_or]
        refine ⟨fun hpre => hp ?_, ih hb⟩
        rw [hcs]
        exact hpre.trans (List.prefix_append _ _)
  · rintro ⟨rfl, hno⟩
    induction before with
    | nil => rw [List.nil_append, cut_of_prefixed (List.prefix_append _ _) hs.ne_nil, List.drop_left]
    | cons b before ih =>
      rw [List.infix_cons_iff, not_or] at hno
      have hp : ¬ marker <+: b :: (before ++ (marker ++ after)) := fun hp =>
        hno.1 (hs.prefix_of_append (List.cons_ne_nil b before) hp)
      rw [List.cons_append, cut_cons hp, ih hno.2]
      rfl

end Cutting

section Occurrences
variable {α : Type} {marker xs ys : List α} {c : α}

/-- A marker does not reach over a symbol that it lacks. -/
theorem infix_append_cons_iff (hc : c ∉ marker) : marker <:+: xs ++ c :: ys ↔ marker <:+: xs ∨ marker <:+: ys := by
  constructor
  · rintro ⟨p, q, h⟩
    obtain ⟨r, rfl, -⟩ | ⟨r, hr, hys⟩ := List.append_eq_append_iff.mp h
    · exact .inl ⟨p, r, rfl⟩
    · cases r with
      | nil => exact .inl ⟨p, [], by rw [List.append_nil, hr, List.append_nil]⟩
      | cons d r =>
        obtain ⟨rfl, rfl⟩ := List.cons.inj hys
        obtain ⟨u, -, rfl⟩ | ⟨u, rfl, hu⟩ := List.append_eq_append_iff.mp hr
        · exact absurd (by simp) hc
        · cases u with
          | nil => exact absurd (List.nil_append marker ▸ hu ▸ List.mem_cons_self) hc
          | cons e u =>
            obtain ⟨-, rfl⟩ := List.cons.inj hu
            exact .inr ⟨u, q, rfl⟩
  · rintro (⟨p, q, rfl⟩ | ⟨p, q, rfl⟩)
    · exact ⟨p, q ++ c :: ys, by simp⟩
    · exact ⟨xs ++ c :: p, q, by simp⟩

/-- A marker does not begin in a text that lacks its first symbol. -/
theorem infix_append_left_iff (hc : marker.head? = some c) (hxs : c ∉ xs) : marker <:+: xs ++ ys ↔ marker <:+: ys := by
  induction xs with
  | nil => rw [List.nil_append]
  | cons x xs ih =>
    obtain ⟨hx, hxs⟩ := not_or.mp (mt List.mem_cons.mpr hxs)
    rw [List.cons_append, List.infix_cons_iff, ih hxs, or_iff_right]
    rintro ⟨r, hr⟩
    cases marker with
    | nil => cases hc
    | cons d marker =>
      cases hc
      exact hx (List.cons.inj hr).1

/-- Nor does it end in one that lacks its last symbol. -/
theorem infix_append_right_iff (hc : marker.getLast? = some c) (hys : c ∉ ys) : marker <:+: xs ++ ys ↔ marker <:+: xs := by
  rw [← List.reverse_infix, List.reverse_append, infix_append_left_iff (by rwa [List.head?_reverse]) (by simpa using hys),
    List.reverse_infix]

end Occurrences

section Enclosed
variable {α : Type} [DecidableEq α] {opening closing cs before between after : List α}

/-- What stands before, in and after the first match of `opening.*?closing`, where the dot is any symbol. -/
def enclosed (opening closing cs : List α) : Option (List α × List α × List α) :=
  (cut opening cs).bind fun p => (cut closing p.2).map fun q => (p.1, q.1, q.2)

theorem enclosed_eq_some (ho : Sharp opening) (hc : Sharp closing) :
    enclosed opening closing cs = some (before, between, after) ↔
      cs = before ++ (opening ++ (between ++ (closing ++ after))) ∧ ¬ opening <:+: before ∧ ¬ closing <:+: between := by
  unfold enclosed
  rw [Option.bind_eq_some_iff]
  constructor
  · rintro ⟨⟨b, rest⟩, hb, h⟩
    obtain ⟨⟨m, a⟩, hm, he⟩ := Option.map_eq_some_iff.mp h
    cases he
    obtain ⟨rfl, hbefore⟩ := (cut_eq_some ho).mp hb
    obtain ⟨rfl, hbetween⟩ := (cut_eq_some hc).mp hm
    exact ⟨rfl, hbefore, hbetween⟩
  · rintro ⟨hcs, hbefore, hbetween⟩
    exact ⟨_, (cut_eq_some ho).mpr ⟨hcs, hbefore⟩, Option.map_eq_some_iff.mpr
      ⟨_, (cut_eq_some hc).mpr ⟨rfl, hbetween⟩, rfl⟩⟩

end Enclosed

section LineEndings
variable {marker opening closing cs ys : List Char}

/-- A marker within a line. -/
def Unbroken (marker : List Char) : Prop := '\r' ∉ marker ∧ '\n' ∉ marker

theorem universal_append_marker (h : Unbroken marker) : universal (marker ++ ys) = marker ++ universal ys := by
  rw [universal_append, universal_of_notMem h.1]
  intro hlast
  exact absurd (List.mem_of_getLast? hlast) h.1

theorem prefix_of_universal (h : cs <+: universal cs ++ ys) : '\r' ∉ cs := by
  fun_induction universal cs with
  | case1 => exact List.not_mem_nil
  | case2 cs ih => exact absurd (List.cons_prefix_cons.mp h).1 (by decide)
  | case3 cs hn ih => exact absurd (List.cons_prefix_cons.mp h).1 (by decide)
  | case4 c cs hn hc ih =>
    rw [List.mem_cons, not_or]
    exact ⟨Ne.symm hc, ih (List.cons_prefix_cons.mp h).2⟩

theorem exists_universal_return : ∃ rest, universal ('\r' :: cs) = '\n' :: rest := by
  cases cs with
  | nil => exact ⟨[], rfl⟩
  | cons d cs =>
    by_cases hd : d = '\n'
    · subst hd
      exact ⟨universal cs, rfl⟩
    · exact ⟨_, universal_return (by simpa using hd)⟩

theorem universal_eq_nil (h : universal cs = []) : cs = [] := by
  cases cs with
  | nil => rfl
  | cons c cs =>
    by_cases hc : c = '\r'
    · obtain ⟨rest, hrest⟩ := @exists_universal_return cs
      rw [hc, hrest] at h
      cases h
    · rw [universal_cons hc] at h
      cases h

/-- A text that ends another one after its line endings were rewritten had none to rewrite. -/
theorem suffix_of_universal (hlast : ys.getLast? ≠ some '\r') (h : cs <:+ ys ++ universal cs) : '\r' ∉ cs := by
  rcases List.suffix_or_suffix_of_suffix h (List.suffix_append ys (universal cs)) with hs | ⟨r, hr⟩
  · exact fun hmem => return_notMem_universal (hs.subset hmem)
  · have hsuffix : r <:+ ys := by
      obtain ⟨u, hu⟩ := h
      have hwhole : (u ++ r) ++ universal cs = ys ++ universal cs := by rw [List.append_assoc, hr, hu]
      exact ⟨u, List.append_cancel_right hwhole⟩
    have hparts : universal cs = universal r ++ universal cs := by
      have hwhole := congrArg universal hr
      rw [universal_append, universal_of_notMem return_notMem_universal] at hwhole
      · exact hwhole.symm
      · intro he
        obtain ⟨u, rfl⟩ := hsuffix
        exact absurd (by rw [List.getLast?_append, he]; rfl) hlast
    rw [← hr, universal_eq_nil (List.append_left_eq_self.mp hparts.symm), List.nil_append]
    exact return_notMem_universal

theorem prefix_universal_iff (h : Unbroken marker) : marker <+: universal cs ↔ marker <+: cs := by
  constructor
  · intro hp
    induction marker generalizing cs with
    | nil => exact List.nil_prefix
    | cons m marker ih =>
      obtain ⟨-, hreturn⟩ := not_or.mp (mt List.mem_cons.mpr h.1)
      obtain ⟨hm, hline⟩ := not_or.mp (mt List.mem_cons.mpr h.2)
      cases cs with
      | nil => exact absurd (List.prefix_nil.mp hp) (List.cons_ne_nil m marker)
      | cons c cs =>
        by_cases hc : c = '\r'
        · obtain ⟨rest, hrest⟩ := @exists_universal_return cs
          rw [hc, hrest] at hp
          exact absurd (List.cons_prefix_cons.mp hp).1.symm hm
        · rw [universal_cons hc] at hp
          obtain ⟨he, htail⟩ := List.cons_prefix_cons.mp hp
          exact List.cons_prefix_cons.mpr ⟨he, ih ⟨hreturn, hline⟩ htail⟩
  · rintro ⟨r, rfl⟩
    rw [universal_append_marker h]
    exact List.prefix_append marker _

theorem not_prefix_cons {c : Char} (hne : marker ≠ []) (hc : c ∉ marker) : ¬ marker <+: c :: cs := by
  intro hp
  cases marker with
  | nil => exact hne rfl
  | cons m marker => exact hc (List.mem_cons.mpr (.inl (List.cons_prefix_cons.mp hp).1.symm))

/-- Line endings do not move what is cut. -/
theorem cut_universal (h : Unbroken marker) (hne : marker ≠ []) :
    cut marker (universal cs) = (cut marker cs).map (Prod.map universal universal) := by
  fun_induction universal cs with
  | case1 => rfl
  | case2 cs ih =>
    rw [cut_cons (not_prefix_cons hne h.2), cut_cons (not_prefix_cons hne h.1), cut_cons (not_prefix_cons hne h.2), ih]
    cases cut marker cs <;> rfl
  | case3 cs hn ih =>
    rw [cut_cons (not_prefix_cons hne h.2), cut_cons (not_prefix_cons hne h.1), ih]
    cases hcut : cut marker cs with
    | none => rfl
    | some p =>
      have hhead : p.1.head? ≠ some '\n' := by
        intro hhead
        obtain ⟨b, hb⟩ := List.head?_eq_some_iff.mp hhead
        have hcs := eq_of_cut hcut
        rw [hb] at hcs
        exact hn _ hcs
      simp only [Option.map_some, universal_return hhead, Prod.map]
  | case4 c cs hn hc ih =>
    by_cases hp : marker <+: c :: cs
    · have hp' : marker <+: c :: universal cs := by
        rw [← universal_cons hc, prefix_universal_iff h]
        exact hp
      obtain ⟨r, hr⟩ := hp
      rw [cut_of_prefixed hp' hne, cut_of_prefixed ⟨r, hr⟩ hne, ← universal_cons hc, ← hr, universal_append_marker h]
      simp [universal]
    · have hp' : ¬ marker <+: c :: universal cs := by
        rw [← universal_cons hc, prefix_universal_iff h]
        exact hp
      rw [cut_cons hp', cut_cons hp, ih]
      cases cut marker cs with
      | none => rfl
      | some p => simp only [Option.map_some, Prod.map, universal_cons hc]

theorem enclosed_universal (ho : Unbroken opening) (hc : Unbroken closing) (hno : opening ≠ []) (hnc : closing ≠ []) :
    enclosed opening closing (universal cs) =
      (enclosed opening closing cs).map (Prod.map universal (Prod.map universal universal)) := by
  rw [enclosed, cut_universal ho hno, enclosed]
  cases cut opening cs with
  | none => rfl
  | some p =>
    simp only [Option.map_some, Option.bind_some, Prod.map_snd, cut_universal hc hnc]
    cases cut closing p.2 <;> rfl

end LineEndings
end PuffoAgent.Text
