import PuffoAgent.Memory.Store
import Mathlib.Algebra.BigOperators.Group.Finset.Basic
import Mathlib.Algebra.Order.BigOperators.Group.Finset
import Mathlib.Algebra.GroupWithZero.Nat

/-! Every memory tree that the store leaves behind compiles to a briefing. The budget is a sum over the topics, to
which each write adds no more than it was charged for. -/
namespace PuffoAgent.Memory
open Relational Files Text Effects

section Budget
variable {t t' : Files.Tree Bytes} {name body : String} {names : List String} {read : Entries}

def IsTopicName (name : String) : Prop := suffix name = ".md" ∧ startsWith name "." = false

/-- What a file is read as, if there is one and it is a text. -/
def textOf (t : Files.Tree Bytes) (name : String) : String :=
  (((t.fileAt [briefingDir, name]).bind decodeStrict).map universalText).getD ""

def weight (name body : String) : Nat :=
  if body = "" then 0
  else if name = profileBriefingName then byteSize body + 2
  else byteSize (section' (stem name, body)) + 2

def cost (read : Entries) : Nat :=
  weight profileBriefingName read.profile + (read.entries.map fun e => byteSize (section' e) + 2).sum

theorem weight_empty : weight name "" = 0 := rfl

theorem weight_le {body' : String} (h : byteSize body ≤ byteSize body') (hne : body' = "" → body = "") :
    weight name body ≤ weight name body' := by
  unfold weight
  by_cases hb : body = ""
  · rw [if_pos hb]
    exact Nat.zero_le _
  · rw [if_neg hb, if_neg (mt hne hb)]
    split
    · omega
    · simp only [section', byteSize_append]
      omega

theorem byteSize_joinWith {part : String} {parts : List String} :
    byteSize (joinWith "\n\n" (part :: parts)) + 2 = ((part :: parts).map fun p => byteSize p + 2).sum := by
  have hsep : byteSize "\n\n" = 2 := rfl
  induction parts generalizing part with
  | nil => simp [joinWith]
  | cons next parts ih =>
    rw [joinWith, byteSize_append, byteSize_append, hsep, Nat.add_assoc, ih, List.map_cons (a := part), List.sum_cons]
    simp

/-- The joined text has a separator less than it has parts. -/
theorem byteSize_composeBriefing {n : Nat} : byteSize (composeBriefing read) ≤ n ↔ cost read ≤ n + 2 := by
  have hcost : cost read = ((briefingParts read).map fun p => byteSize p + 2).sum := by
    unfold cost briefingParts weight
    split <;> simp [Function.comp_def]
  rw [hcost, composeBriefing]
  cases briefingParts read with
  | nil => simp [joinWith]
  | cons part parts => rw [← byteSize_joinWith]; omega

theorem cost_add {r : Entries} (h : name = profileBriefingName → r.profile = "") :
    cost (r.add name body) = cost r + weight name (strip body) := by
  unfold Entries.add
  by_cases hb : strip body = ""
  · rw [if_pos hb, weight, if_pos hb, Nat.add_zero]
  · rw [if_neg hb]
    by_cases hn : name = profileBriefingName
    · subst hn
      simp only [if_pos, cost, h rfl, weight_empty]
      omega
    · simp only [if_neg hn, cost, List.map_append, List.sum_append, weight, if_neg hb]
      simp only [List.map_cons, List.map_nil, List.sum_singleton]
      omega

theorem profile_add {r : Entries} (h : name ≠ profileBriefingName) : (r.add name body).profile = r.profile := by
  unfold Entries.add
  rw [if_neg h]
  split <;> rfl

theorem profile_add_self {r : Entries} : (r.add profileBriefingName body).profile =
    if strip body = "" then r.profile else strip body := by
  unfold Entries.add
  rw [if_pos rfl]
  split <;> rfl

/-- The entries of some names. -/
def collect (t : Files.Tree Bytes) (names : List String) (r : Entries) : Entries :=
  names.foldl (fun r name => r.add name (textOf t name)) r

theorem cost_collect {r : Entries} (hn : names.Nodup) (h : profileBriefingName ∈ names → r.profile = "") :
    cost (collect t names r) = cost r + (names.map fun name => weight name (strip (textOf t name))).sum := by
  induction names generalizing r with
  | nil => rfl
  | cons name names ih =>
    obtain ⟨hnot, hn⟩ := List.nodup_cons.1 hn
    have hadd : cost (r.add name (textOf t name)) = cost r + weight name (strip (textOf t name)) :=
      cost_add fun he => h (by simp [he])
    have hprofile : profileBriefingName ∈ names → (r.add name (textOf t name)).profile = "" := by
      intro hm
      rw [profile_add fun he : name = _ => hnot (he ▸ hm)]
      exact h (List.mem_cons_of_mem _ hm)
    rw [collect, List.foldl_cons, ← collect, ih hn hprofile, hadd, List.map_cons, List.sum_cons, Nat.add_assoc]

/-- What is collected of names that differ, apart from the profile. -/
theorem entries_collect {r : Entries} : (collect t names r).entries = r.entries ++ names.filterMap fun name =>
    if strip (textOf t name) = "" ∨ name = profileBriefingName then none
    else some (stem name, strip (textOf t name)) := by
  induction names generalizing r with
  | nil => simp [collect]
  | cons name names ih =>
    rw [collect, List.foldl_cons, ← collect, ih, List.filterMap_cons]
    unfold Entries.add
    by_cases hb : strip (textOf t name) = ""
    · rw [if_pos hb, if_pos (.inl hb)]
    · by_cases hn : name = profileBriefingName
      · rw [if_neg hb, if_pos hn, if_pos (.inr hn)]
      · rw [if_neg hb, if_neg hn, if_neg (not_or.2 ⟨hb, hn⟩)]
        simp

theorem profile_collect {r : Entries} : (collect t names r).profile =
    if profileBriefingName ∈ names ∧ strip (textOf t profileBriefingName) ≠ "" then strip (textOf t profileBriefingName)
    else r.profile := by
  induction names generalizing r with
  | nil => simp [collect]
  | cons name names ih =>
    rw [collect, List.foldl_cons, ← collect, ih]
    by_cases hn : name = profileBriefingName
    · subst hn
      rw [profile_add_self]
      by_cases hb : strip (textOf t profileBriefingName) = "" <;> simp [hb]
    · rw [profile_add hn]
      simp [Ne.symm hn]

theorem readTopics_eq {enforce : Bool} {r : Entries}
    (h : ∀ name ∈ names, ∃ bytes s, t.content [briefingDir, name] = some bytes ∧ t.fileAt [briefingDir, name] = some bytes ∧
      decodeStrict bytes = some s ∧ (enforce = true → byteSize (universalText s) ≤ perFileLimit)) :
    readTopics t enforce names r = .ok (collect t names r) := by
  induction names generalizing r with
  | nil => rfl
  | cons name names ih =>
    obtain ⟨bytes, s, hcontent, hfile, hs, hsize⟩ := h name List.mem_cons_self
    have htext : textOf t name = universalText s := by simp [textOf, hfile, hs]
    have hread : readText bytes = .ok (universalText s) := by simp [readText, hs]
    have hnot : ¬ (enforce = true ∧ byteSize (universalText s) > perFileLimit) := by
      rintro ⟨he, hlarge⟩
      have := hsize he
      omega
    rw [readTopics, hcontent, Option.getD_some, hread]
    simp only [bind, Except.bind]
    rw [if_neg hnot, ih fun n hn => h n (List.mem_cons_of_mem _ hn), ← htext, collect, collect, List.foldl_cons]

end Budget
section Topics
variable {t t' : Files.Tree Bytes} {name body : String}

theorem IsTopicName.ne_up (h : IsTopicName name) : name ≠ ".." := by
  rintro rfl
  exact absurd h.2 (by decide)

theorem IsTopicName.path (h : IsTopicName name) : ".." ∉ [briefingDir, name] := by
  simp only [List.mem_cons, List.not_mem_nil, or_false, not_or]
  exact ⟨by decide, Ne.symm h.ne_up⟩

theorem isBriefingTopic_iff :
    isBriefingTopic t name = true ↔ IsTopicName name ∧ (t.fileAt [briefingDir, name]).isSome := by
  unfold isBriefingTopic
  rw [decide_eq_true_iff, Bool.not_eq_true]
  constructor
  · rintro ⟨hfile, hname⟩
    exact ⟨hname, by rwa [← Tree.isFile_of_notMem (IsTopicName.path hname)]⟩
  · rintro ⟨hname, hfile⟩
    exact ⟨by rwa [Tree.isFile_of_notMem hname.path], hname⟩

theorem briefingNames_perm : (briefingNames t).Perm ((t.children [briefingDir]).filter (isBriefingTopic t)) := by
  have hsort := List.mergeSort_perm ((t.children [briefingDir]).filter (isBriefingTopic t)) (fun a b => a ≤ b)
  simp only [briefingNames]
  split
  · rename_i hmem
    exact (List.perm_cons_erase hmem).symm.trans hsort
  · exact hsort

theorem nodup_briefingNames : (briefingNames t).Nodup :=
  briefingNames_perm.nodup_iff.2 (Tree.nodup_children.filter _)

theorem mem_briefingNames : name ∈ briefingNames t ↔ IsTopicName name ∧ (t.fileAt [briefingDir, name]).isSome := by
  rw [briefingNames_perm.mem_iff, List.mem_filter, isBriefingTopic_iff]
  constructor
  · exact And.right
  · intro h
    refine ⟨Tree.mem_children.2 fun hnone => ?_, h⟩
    obtain ⟨bytes, hbytes⟩ := Option.isSome_iff_exists.1 h.2
    rw [Tree.fileAt_eq_some] at hbytes
    rw [List.singleton_append, hbytes] at hnone
    cases hnone

/-- What the joined topics come to, a separator after each. -/
def budget (t : Files.Tree Bytes) : Nat := ∑ name ∈ (briefingNames t).toFinset, weight name (strip (textOf t name))

theorem budget_eq : budget t = ((briefingNames t).map fun name => weight name (strip (textOf t name))).sum :=
  List.sum_toFinset _ nodup_briefingNames

/-- Each topic is a text within its limit, and together they are within theirs. -/
structure Sound (t : Files.Tree Bytes) : Prop where
  readable : ∀ name, IsTopicName name → ∀ bytes, t.fileAt [briefingDir, name] = some bytes →
    ∃ s, decodeStrict bytes = some s ∧ byteSize (universalText s) ≤ perFileLimit
  within : budget t ≤ totalLimit + 2

/-- Topics that are texts are read. -/
theorem read_eq {enforce : Bool} (h : ∀ name, IsTopicName name → ∀ bytes, t.fileAt [briefingDir, name] = some bytes →
    ∃ s, decodeStrict bytes = some s ∧ (enforce = true → byteSize (universalText s) ≤ perFileLimit)) :
    readBriefingEntries t enforce = .ok (collect t (briefingNames t) {}) := by
  unfold readBriefingEntries
  split
  · refine readTopics_eq fun name hname => ?_
    obtain ⟨htopic, hfile⟩ := mem_briefingNames.1 hname
    obtain ⟨bytes, hbytes⟩ := Option.isSome_iff_exists.1 hfile
    obtain ⟨s, hs, hsize⟩ := h name htopic bytes hbytes
    exact ⟨bytes, s, by rw [Tree.content_of_notMem htopic.path, hbytes], hbytes, hs, hsize⟩
  · rename_i hdir
    have hnone : briefingNames t = [] := by
      rw [List.eq_nil_iff_forall_not_mem]
      intro name hname
      obtain ⟨bytes, hbytes⟩ := Option.isSome_iff_exists.1 (mem_briefingNames.1 hname).2
      rw [Tree.fileAt_eq_some] at hbytes
      exact hdir (Tree.dirAt_iff.2 (t.rooted [briefingDir] name _ hbytes))
    rw [hnone]
    rfl

theorem readTopics_texts {enforce : Bool} {names : List String} {r r' : Entries}
    (h : readTopics t enforce names r = .ok r') : ∀ name ∈ names, ∃ s, decodeStrict ((t.content [briefingDir, name]).getD []) = some s := by
  induction names generalizing r with
  | nil => simp
  | cons name names ih =>
    obtain ⟨text, htext, h⟩ := except_bind_ok_iff.1 h
    have hname : ∃ s, decodeStrict ((t.content [briefingDir, name]).getD []) = some s := by
      unfold readText at htext
      split at htext
      · exact ⟨_, by assumption⟩
      · cases htext
    split at h
    · cases h
    · intro n hn
      rcases List.mem_cons.1 hn with rfl | hn
      · exact hname
      · exact ih h n hn

/-- Topics that are read are texts. -/
theorem texts_of_read {enforce : Bool} {read : Entries} (h : readBriefingEntries t enforce = .ok read) (hname : IsTopicName name)
    {bytes : Bytes} (hbytes : t.fileAt [briefingDir, name] = some bytes) : ∃ s, decodeStrict bytes = some s := by
  have hmem : name ∈ briefingNames t := mem_briefingNames.2 ⟨hname, by rw [hbytes]; rfl⟩
  unfold readBriefingEntries at h
  split at h
  · obtain ⟨s, hs⟩ := readTopics_texts h name hmem
    rw [Tree.content_of_notMem hname.path, hbytes] at hs
    exact ⟨s, hs⟩
  · rename_i hdir
    exact absurd (Tree.dirAt_iff.2 (t.rooted [briefingDir] name _ (Tree.fileAt_eq_some.1 hbytes))) hdir

theorem Sound.read (h : Sound t) (enforce : Bool) :
    readBriefingEntries t enforce = .ok (collect t (briefingNames t) {}) :=
  read_eq fun name hname bytes hbytes =>
    let ⟨s, hs, hsize⟩ := h.readable name hname bytes hbytes
    ⟨s, hs, fun _ => hsize⟩

/-- What is sound compiles. -/
theorem Sound.compiles (h : Sound t) :
    compileBriefing t = .ok (composeBriefing (collect t (briefingNames t) {})) := by
  have hcost : cost (collect t (briefingNames t) {}) = budget t := by
    rw [cost_collect nodup_briefingNames fun _ => rfl, budget_eq]
    exact Nat.zero_add _
  have hsize := byteSize_composeBriefing.2 (hcost.trans_le h.within)
  unfold compileBriefing
  rw [h.read]
  simp only [bind, Except.bind]
  rw [if_neg (by omega)]
  rfl

theorem sound_empty : Sound Tree.empty where
  readable name _ bytes h := by
    rw [Tree.fileAt_eq_some] at h
    cases h
  within := by
    have hnone : briefingNames (Tree.empty : Files.Tree Bytes) = [] := by
      rw [List.eq_nil_iff_forall_not_mem]
      intro name hname
      exact absurd (mem_briefingNames.1 hname).2 (by
          simp [Files.Tree.fileAt, Files.Tree.empty, Files.Tree.node, nodeOf, Table.empty, Table.get?])
    rw [budget, hnone]
    exact Nat.zero_le _

/-- A tree whose topics are topics of a sound one is sound. -/
theorem Sound.fewer (h : Sound t) (hfewer : ∀ name, IsTopicName name →
    t'.fileAt [briefingDir, name] = t.fileAt [briefingDir, name] ∨ t'.fileAt [briefingDir, name] = none) : Sound t' where
  readable name hname bytes hbytes := by
    rcases hfewer name hname with hsame | hnone
    · exact h.readable name hname bytes (hsame ▸ hbytes)
    · rw [hnone] at hbytes
      cases hbytes
  within := by
    have hkept : ∀ name ∈ (briefingNames t').toFinset, t'.fileAt [briefingDir, name] = t.fileAt [briefingDir, name] := by
      intro name hname
      obtain ⟨htopic, hfile⟩ := mem_briefingNames.1 (List.mem_toFinset.1 hname)
      refine (hfewer name htopic).resolve_right fun hnone => ?_
      rw [hnone] at hfile
      cases hfile
    have hsub : (briefingNames t').toFinset ⊆ (briefingNames t).toFinset := by
      intro name hname
      have hsame := hkept name hname
      rw [List.mem_toFinset, mem_briefingNames] at hname ⊢
      rwa [← hsame]
    calc budget t' = ∑ name ∈ (briefingNames t').toFinset, weight name (strip (textOf t name)) :=
          Finset.sum_congr rfl fun name hname => by simp only [textOf, hkept name hname]
      _ ≤ budget t := Finset.sum_le_sum_of_subset hsub
      _ ≤ totalLimit + 2 := h.within

section Charges

theorem stem_inj {name name' : String} (h : IsTopicName name) (h' : IsTopicName name') (he : stem name = stem name') :
    name = name' := by
  have hmd : (".md" : String) ≠ "" := by decide
  rw [@stem_append_suffix name (by rwa [h.1]), @stem_append_suffix name' (by rwa [h'.1]), he, h.1, h'.1]

theorem nodup_entries : ((collect t (briefingNames t) {}).entries.map Prod.fst).Nodup := by
  rw [entries_collect, List.nil_append, List.Nodup, List.pairwise_map, List.pairwise_filterMap]
  refine nodup_briefingNames.imp_of_mem fun hmem hmem' hne e he e' he' heq => hne ?_
  split at he
  · cases he
  · split at he'
    · cases he'
    · cases he
      cases he'
      exact stem_inj (mem_briefingNames.1 hmem).1 (mem_briefingNames.1 hmem').1 heq

theorem rows_entryMap : (entryMap (collect t (briefingNames t) {}).entries).rows = (collect t (briefingNames t) {}).entries := by
  rw [entryMap, Table.rows_foldl_put]
  · rfl
  · simpa [Table.empty] using nodup_entries

theorem entries_erase_profile :
    (collect t ((briefingNames t).erase profileBriefingName) {}).entries = (collect t (briefingNames t) {}).entries := by
  rw [entries_collect, entries_collect, nodup_briefingNames.erase_eq_filter, List.filterMap_filter]
  refine congrArg _ (List.filterMap_congr fun n _ => ?_)
  by_cases hn : n = profileBriefingName <;> simp [hn]

theorem entries_erase (hname : IsTopicName name) (hne : name ≠ profileBriefingName) :
    (collect t ((briefingNames t).erase name) {}).entries =
      (collect t (briefingNames t) {}).entries.filter fun e => !decide (e.1 = stem name) := by
  rw [entries_collect, entries_collect, nodup_briefingNames.erase_eq_filter, List.filterMap_filter, List.nil_append,
    List.nil_append, List.filter_filterMap]
  refine List.filterMap_congr fun n hn => ?_
  have hstem : stem n = stem name ↔ n = name :=
    ⟨stem_inj (mem_briefingNames.1 hn).1 hname, fun he => he ▸ rfl⟩
  by_cases he : n = name
  · subst he
    by_cases hb : strip (textOf t n) = "" <;> simp [hb, hne, Option.filter_some]
  · by_cases hb : strip (textOf t n) = "" ∨ n = profileBriefingName <;> simp [hb, he, hstem, Option.filter_some]

theorem cost_eq_of_perm {profile : String} {es es' : List (String × String)} (h : es.Perm es') :
    cost ⟨profile, es⟩ = cost ⟨profile, es'⟩ := by
  unfold cost
  rw [(h.map _).sum_eq]

theorem cost_cons {profile : String} {e : String × String} {es : List (String × String)} :
    cost ⟨profile, e :: es⟩ = cost ⟨profile, es⟩ + (byteSize (section' e) + 2) := by
  simp only [cost, List.map_cons, List.sum_cons]
  omega

/-- What is simulated costs what the other topics do and the new body. -/
theorem cost_simulated (hname : IsTopicName name) :
    cost (simulated (collect t (briefingNames t) {}) name body) =
      cost (collect t ((briefingNames t).erase name) {}) + weight name (strip body) := by
  have hsort : ∀ m : Table (String × String) String Prod.fst, (simulated.sortItems m).Perm m.rows :=
    fun m => List.mergeSort_perm _ _
  by_cases hp : name = profileBriefingName
  · subst hp
    have hnone : (collect t ((briefingNames t).erase profileBriefingName) {}).profile = "" := by
      rw [profile_collect, if_neg fun h => nodup_briefingNames.not_mem_erase h.1]
    rw [simulated, if_pos rfl, cost_eq_of_perm (hsort _), rows_entryMap, ← entries_erase_profile]
    simp only [cost, hnone, weight_empty]
    omega
  · have hprofile : (collect t ((briefingNames t).erase name) {}).profile = (collect t (briefingNames t) {}).profile := by
      simp only [profile_collect, List.mem_erase_of_ne (Ne.symm hp)]
    have hrest : cost (collect t ((briefingNames t).erase name) {}) = cost ⟨(collect t (briefingNames t) {}).profile,
        ((entryMap (collect t (briefingNames t) {}).entries).delete fun e => e.1 = stem name).rows⟩ := by
      rw [← hprofile, Table.delete]
      simp only
      rw [rows_entryMap, ← entries_erase hname hp]
    rw [hrest, simulated, if_neg hp]
    by_cases hb : strip body = ""
    · rw [if_neg (not_not_intro hb), cost_eq_of_perm (hsort _), weight, if_pos hb, Nat.add_zero]
    · rw [if_pos hb, cost_eq_of_perm ((hsort _).trans (Table.rows_put_perm _ _)), cost_cons, weight, if_neg hb, if_neg hp]

theorem cost_rest : cost (collect t ((briefingNames t).erase name) {}) =
    ∑ n ∈ (briefingNames t).toFinset.erase name, weight n (strip (textOf t n)) := by
  have herase : ((briefingNames t).erase name).toFinset = (briefingNames t).toFinset.erase name := by
    ext n
    simp [nodup_briefingNames.mem_erase_iff]
  rw [cost_collect (nodup_briefingNames.erase name) fun _ => rfl, ← herase,
    List.sum_toFinset _ (nodup_briefingNames.erase name)]
  exact Nat.zero_add _

/-- The other topics do not change with one. -/
theorem rest_eq (hfiles : ∀ n, n ≠ name → t'.fileAt [briefingDir, n] = t.fileAt [briefingDir, n]) :
    (briefingNames t').toFinset.erase name = (briefingNames t).toFinset.erase name ∧
      ∑ n ∈ (briefingNames t').toFinset.erase name, weight n (strip (textOf t' n)) =
        ∑ n ∈ (briefingNames t).toFinset.erase name, weight n (strip (textOf t n)) := by
  have hnames : (briefingNames t').toFinset.erase name = (briefingNames t).toFinset.erase name := by
    ext n
    rw [Finset.mem_erase, Finset.mem_erase, List.mem_toFinset, List.mem_toFinset, mem_briefingNames, mem_briefingNames]
    by_cases hn : n = name
    · simp [hn]
    · rw [hfiles n hn]
  refine ⟨hnames, ?_⟩
  rw [hnames]
  refine Finset.sum_congr rfl fun n hn => ?_
  simp only [textOf, hfiles n (Finset.ne_of_mem_erase hn)]

/-- A topic that is written within both limits. -/
theorem Sound.written (h : Sound t) (hname : IsTopicName name) (hsize : byteSize body ≤ perFileLimit)
    (htotal : byteSize (composeBriefing (simulated (collect t (briefingNames t) {}) name body)) ≤ totalLimit)
    (hfiles : ∀ n, t'.fileAt [briefingDir, n] =
      if n = name then some (encodeUtf8 body.toList) else t.fileAt [briefingDir, n]) : Sound t' where
  readable n hn bytes hbytes := by
    rw [hfiles] at hbytes
    split at hbytes
    · cases hbytes
      exact ⟨body, by rw [decodeStrict_encodeUtf8, String.ofList_toList], (byteSize_universalText_le body).trans hsize⟩
    · exact h.readable n hn bytes hbytes
  within := by
    have htext : textOf t' name = universalText body := by
      simp [textOf, hfiles, decodeStrict_encodeUtf8]
    have hmem : name ∈ (briefingNames t').toFinset := by
      rw [List.mem_toFinset, mem_briefingNames, hfiles, if_pos rfl]
      exact ⟨hname, rfl⟩
    -- the line endings only make it smaller
    have hcharged : weight name (strip (textOf t' name)) ≤ weight name (strip body) := by
      rw [htext, strip_universalText]
      exact weight_le (byteSize_universalText_le _) fun he => by rw [he, universalText_empty]
    have hrest := (rest_eq fun n hn => (hfiles n).trans (if_neg hn)).2
    rw [byteSize_composeBriefing, cost_simulated hname, cost_rest] at htotal
    rw [budget, ← Finset.add_sum_erase _ _ hmem, hrest]
    omega

end Charges
end Topics
section Paths
variable {scope : Scope} {logical : Logical} {path : String}

/-- What the grammar of logical paths promises. -/
structure Logical.Valid (logical : Logical) (scope : Scope) : Prop where
  visible : ∀ part ∈ logical.parts, startsWith part "." = false
  area : ∃ rest, rest ≠ [] ∧ logical.parts = scope.dirName :: rest
  flat : scope = .briefing → logical.parts.length = 2
  ending : suffix logical.name = ".md"

theorem checkSegments_ok {segments : List String} (h : checkSegments path segments = .ok ()) :
    ∀ part ∈ segments, startsWith part "." = false := by
  induction segments with
  | nil => simp
  | cons segment segments ih =>
    unfold checkSegments at h
    split at h
    · cases h
    · split at h
      · cases h
      · split at h
        · cases h
        · rename_i hvisible
          intro part hpart
          rcases List.mem_cons.1 hpart with rfl | hrest
          · simpa using hvisible
          · exact ih h part hrest

theorem scopeOf_ok {segments : List String} (h : scopeOf path segments = .ok (scope, logical)) :
    logical = ⟨path, segments⟩ ∧ (∃ rest, rest ≠ [] ∧ segments = scope.dirName :: rest) ∧
      (scope = .briefing → segments.length = 2) := by
  unfold scopeOf at h
  split at h
  · cases h
  · rename_i hlen
    split at h
    · cases h
    · rename_i found hfound
      split at h
      · cases h
      · rename_i hflat
        cases h
        refine ⟨rfl, ?_, fun hb => by_contra fun hne => hflat ⟨hb, hne⟩⟩
        have hdir : scope.dirName = segments.headD "" := by simpa using List.find?_some hfound
        cases segments with
        | nil => simp at hlen
        | cons segment rest =>
          refine ⟨rest, fun he => hlen (by simp [he]), ?_⟩
          rw [hdir]
          rfl

theorem validateWritePath_ok {maintenance : Bool} (h : validateWritePath maintenance path = .ok (scope, logical)) :
    logical.Valid scope := by
  obtain ⟨⟨s, l⟩, hlogical, h⟩ := except_bind_ok_iff.1 h
  obtain ⟨⟨⟩, hwritable, h⟩ := except_bind_ok_iff.1 h
  cases h
  unfold validateLogicalPath at hlogical
  split at hlogical
  · cases hlogical
  · split at hlogical
    · cases hlogical
    · split at hlogical
      · cases hlogical
      · obtain ⟨⟨⟩, hsegments, hscope⟩ := except_bind_ok_iff.1 hlogical
        obtain ⟨rfl, harea, hflat⟩ := scopeOf_ok hscope
        refine ⟨checkSegments_ok hsegments, harea, hflat, ?_⟩
        unfold checkWritable at hwritable
        split at hwritable
        · cases hwritable
        · split at hwritable
          · cases hwritable
          · split at hwritable
            · cases hwritable
            · rename_i hsuffix
              exact not_not.1 hsuffix

variable (h : logical.Valid scope)
include h

theorem Logical.Valid.up : ".." ∉ logical.parts := fun hmem => absurd (h.visible _ hmem) (by decide)

theorem Logical.Valid.parts_eq : logical.parts = logical.parts.dropLast ++ [logical.name] := by
  obtain ⟨rest, hrest, hparts⟩ := h.area
  have hne : logical.parts ≠ [] := by simp [hparts]
  rw [Logical.name, List.getLastD_eq_getLast?, List.getLast?_eq_some_getLast hne, Option.getD_some,
    List.dropLast_append_getLast]

theorem Logical.Valid.topic : IsTopicName logical.name := by
  refine ⟨h.ending, h.visible _ ?_⟩
  rw [h.parts_eq]
  exact List.mem_append_right _ (List.mem_singleton_self _)

theorem Logical.Valid.briefing (hs : scope = .briefing) : logical.parts = [briefingDir, logical.name] := by
  obtain ⟨rest, -, hparts⟩ := h.area
  have hlen := h.flat hs
  have hname := h.parts_eq
  subst hs
  rw [hparts] at hlen hname ⊢
  match rest with
  | [] => simp at hlen
  | [part] =>
    have hpart : part = logical.name := by simpa using hname
    rw [hpart]
    rfl
  | _ :: _ :: _ => simp at hlen

/-- No other scope is the one that is compiled. -/
theorem Logical.Valid.elsewhere (hs : scope ≠ .briefing) (name : String) : [briefingDir, name] ≠ logical.parts := by
  obtain ⟨rest, -, hparts⟩ := h.area
  rw [hparts]
  intro he
  have hdir := (List.cons.inj he).1
  cases scope with
  | briefing => exact hs rfl
  | _ => exact absurd hdir (by decide)

end Paths
section Steps
variable {α β : Type} {t t' : Files.Tree Bytes} {Q : α → Files.Tree Bytes → Prop}
  {E : Failure → Files.Tree Bytes → Prop} {C : Files.Tree Bytes → Prop}

theorem observe_bind {f : Files.Tree Bytes → β} {g : β → Task α} (hE : ∀ text, E (.os text) t) (hC : C t)
    (hg : Proc.Does (· = t) (g (f t)) Q E C) : Proc.Does (· = t) (observe f >>= g) Q E C := by
  refine Proc.Does.bind (Q := fun b s => s = t ∧ b = f t) (Proc.does_perform (fun s hs => hs ▸ hC) fun w s hs => ?_)
    fun b s ⟨hs, hb⟩ => ?_
  · subst hs
    cases w with
    | fails e => exact hE _
    | _ => exact ⟨rfl, rfl⟩
  · subst hb
    exact hg s hs

theorem demand_bind {x : Except Failure β} {g : β → Task α} (hE : ∀ e, x = .error e → E e t)
    (hg : ∀ b, x = .ok b → Proc.Does (· = t) (g b) Q E C) : Proc.Does (· = t) (demand x >>= g) Q E C := by
  cases x with
  | ok b =>
    refine Proc.Does.bind (Q := fun b' s => s = t ∧ b' = b) (Proc.does_pure fun s hs => ⟨hs, rfl⟩) fun b' s ⟨hs, hb⟩ => ?_
    subst hb
    exact hg _ rfl s hs
  | error e =>
    refine Proc.Does.bind (Q := fun _ _ => False) (Proc.does_raise fun s hs => ?_) fun _ s hs => hs.elim
    rw [hs]
    exact hE e rfl

theorem check_bind {x : Except StoreError β} {g : β → Task α} (hE : ∀ e, x = .error e → E (.store e) t)
    (hg : ∀ b, x = .ok b → Proc.Does (· = t) (g b) Q E C) : Proc.Does (· = t) (check x >>= g) Q E C := by
  refine demand_bind (fun e he => ?_) fun b hb => hg b ?_
  · cases x with
    | ok _ => cases he
    | error e' =>
      cases he
      exact hE e' rfl
  · cases x with
    | ok _ => exact congrArg Except.ok (Except.ok.inj hb)
    | error e => cases hb

theorem refuse_bind {p : Prop} [Decidable p] {e : StoreError} {g : Unit → Task α} (hE : p → E (.store e) t)
    (hg : ¬ p → Proc.Does (· = t) (g ()) Q E C) : Proc.Does (· = t) (refuse p e >>= g) Q E C := by
  refine Proc.Does.bind (Q := fun _ s => s = t ∧ ¬ p) (Proc.does_refuse (fun hp s hs => hs ▸ hE hp) fun hp s hs => ⟨hs, hp⟩)
    fun _ s ⟨hs, hp⟩ => hg hp s hs

/-- Every file is as it was, but for a temporary one that may be left over. -/
def Kept (t t' : Files.Tree Bytes) : Prop :=
  ∀ q, t'.fileAt q = t.fileAt q ∨ (t.fileAt q = none ∧ ∃ dir s, q = dir ++ [tempName tempStart s])

/-- A sound tree stays sound. -/
def Fine (t t' : Files.Tree Bytes) : Prop := Sound t → Sound t'

theorem kept_refl : Kept t t := fun _ => .inl rfl

theorem fine_refl : Fine t t := id

theorem not_topic_temp (s : String) : ¬ IsTopicName (tempName tempStart s) := by
  rintro ⟨-, hvisible⟩
  have hdot : startsWith (tempName tempStart s) "." = true := by
    simp only [startsWith, tempName, tempStart, String.toList_append]
    rfl
  rw [hdot] at hvisible
  cases hvisible

theorem Kept.fine (h : Kept t t') : Fine t t' := fun hs => hs.fewer fun name hname => by
  rcases h [briefingDir, name] with hsame | ⟨-, dir, s, htemp⟩
  · exact .inl hsame
  · have hlast := congrArg List.getLast? htemp
    rw [List.getLast?_concat] at hlast
    obtain rfl : name = tempName tempStart s := by simpa using hlast
    exact absurd hname (not_topic_temp s)

/-- The lengths are within the limits, also those that the compiled tree would have. -/
def Charged (t : Files.Tree Bytes) (scope : Scope) (logical : Logical) (body : String) : Prop :=
  byteSize body ≤ fileLimit scope ∧ (scope = .briefing → ∀ read, readBriefingEntries t false = .ok read →
    byteSize (composeBriefing (simulated read logical.name body)) ≤ totalLimit)

variable {scope : Scope} {logical : Logical} {body : String}

theorem validateSize_bind {g : Nat → Task α} (hE : ∀ e, E e t) (hC : C t)
    (hg : Charged t scope logical body → Proc.Does (· = t) (g (byteSize body)) Q E C) :
    Proc.Does (· = t) (validateSize scope logical body >>= g) Q E C := by
  unfold validateSize
  rw [bind_assoc]
  refine check_bind (fun _ _ => hE _) fun _ hfile => ?_
  have hsize : byteSize body ≤ fileLimit scope := by
    unfold validateFileSize at hfile
    split at hfile
    · cases hfile
    · omega
  split
  · simp only [bind_assoc, pure_bind]
    refine observe_bind (fun _ => hE _) hC (demand_bind (fun _ _ => hE _) fun read hread => check_bind (fun _ _ => hE _) fun _ htotal =>
      hg ⟨hsize, fun _ read' hread' => ?_⟩)
    obtain rfl : read' = read := Except.ok.inj (hread'.symm.trans hread)
    simp only [validateBriefingTotal] at htotal
    split at htotal
    · cases htotal
    · omega
  · rename_i hscope
    rw [pure_bind]
    exact hg ⟨hsize, fun h => absurd h hscope⟩

/-- A charged write keeps a tree sound. -/
theorem Charged.fine (h : Charged t scope logical body) (hv : logical.Valid scope)
    (hfiles : ∀ q, t'.fileAt q = if q = logical.parts then some (encodeUtf8 body.toList) else t.fileAt q) : Fine t t' := by
  intro hs
  by_cases hscope : scope = .briefing
  · refine hs.written hv.topic ?_ (h.2 hscope _ (hs.read false)) fun n => ?_
    · have hsize := h.1
      rwa [hscope] at hsize
    · rw [hfiles, hv.briefing hscope]
      simp
  · refine hs.fewer fun n _ => .inl ?_
    rw [hfiles, if_neg (hv.elsewhere hscope n)]

theorem does_writeAtomic (hv : logical.Valid scope) (t : Files.Tree Bytes) :
    Proc.Does (· = t) (writeAtomic (physicalPath logical) body)
      (fun _ t' => ∀ q, t'.fileAt q = if q = logical.parts then some (encodeUtf8 body.toList) else t.fileAt q)
      (fun _ => Kept t) (Kept t) := by
  have hsettle : settle logical.parts = logical.parts := settle_of_notMem hv.up
  have hne : ∀ s, settle (physicalPath logical) ≠ settle (physicalPath logical).dropLast ++ [tempName tempStart s] := by
    intro s he
    have hlast := congrArg List.getLast? he
    rw [physicalPath, hsettle, List.getLast?_concat, hv.parts_eq, List.getLast?_concat] at hlast
    exact not_topic_temp s (Option.some.inj hlast ▸ hv.topic)
  have hleft : ∀ t', (∀ q, t'.fileAt q = t.fileAt q ∨ (t.fileAt q = none ∧
      ∃ s, q = settle (physicalPath logical).dropLast ++ [tempName tempStart s])) → Kept t t' :=
    fun t' h q => (h q).imp_right fun ⟨hnone, s, hq⟩ => ⟨hnone, _, s, hq⟩
  refine (does_atomicWrite hne).mono (fun _ t' h q => ?_) (fun _ t' h => hleft t' h) fun t' h => hleft t' h
  rw [h.1, physicalPath, hsettle]

theorem does_markBriefingDirty {P : Files.Tree Bytes → Prop} {E : Failure → Files.Tree Bytes → Prop} :
    Proc.Does P (markBriefingDirty scope) (fun _ => P) E P :=
  .ite (fun _ => Proc.does_perform (fun _ h => h) fun _ _ h => h) fun _ => Proc.does_pure fun _ h => h

theorem does_writeChanged {changed : Bool} (hv : logical.Valid scope) (h : Charged t scope logical body) :
    Proc.Does (· = t) (writeChanged changed scope logical body) (fun _ => Fine t) (fun _ => Kept t) (Fine t) := by
  refine .ite (fun _ => ?_) fun _ => Proc.does_pure fun s hs => hs ▸ fine_refl
  refine Proc.Does.bind (((does_writeAtomic hv t).mono (fun _ t' hfiles => h.fine hv hfiles) (fun _ _ he => he)
    fun t' hk => hk.fine)) fun _ => does_markBriefingDirty

end Steps
section Operations
variable {t : Files.Tree Bytes} {maintenance : Bool} {path : String}

/-- What every operation does to a tree: it keeps it sound, and where it raises it leaves every file as it was. -/
def Careful (t : Files.Tree Bytes) (x : Task Result) : Prop :=
  Proc.Does (· = t) x (fun _ => Fine t) (fun _ => Kept t) (Fine t)

theorem careful_start {g : Scope × Logical → Task Result}
    (h : ∀ scope logical, logical.Valid scope → Careful t (g (scope, logical))) :
    Careful t (lock >>= fun _ => check (validateWritePath maintenance path) >>= g) :=
  observe_bind (fun _ => kept_refl) fine_refl (check_bind (fun _ _ => kept_refl) fun at' hat => h at'.1 at'.2 (validateWritePath_ok hat))

theorem careful_write {scope : Scope} {logical : Logical} {body : String} {changed : Bool} {r : Nat → Result}
    (hv : logical.Valid scope) :
    Careful t (validateSize scope logical body >>= fun size =>
      writeChanged changed scope logical body >>= fun _ => pure (r size)) :=
  validateSize_bind (fun _ => kept_refl) fine_refl fun hcharged =>
    Proc.Does.bind (does_writeChanged hv hcharged) fun _ => Proc.does_pure fun _ h => h

theorem careful_createMemoryFile {body : String} : Careful t (createMemoryFile maintenance path body) := by
  refine careful_start fun scope logical hv => ?_
  refine observe_bind (fun _ => kept_refl) fine_refl (refuse_bind (fun _ => kept_refl) fun _ => ?_)
  exact careful_write hv

/-- An existing file is read. -/
theorem careful_read {logical : Logical} {g : String → Task Result} (h : ∀ text, Careful t (g text)) :
    Careful t (isFile (physicalPath logical) >>= fun there => refuse (there = false) (notFound logical) >>= fun _ =>
      readTextAt (physicalPath logical) >>= g) := by
  refine observe_bind (fun _ => kept_refl) fine_refl (refuse_bind (fun _ => kept_refl) fun _ => ?_)
  unfold readTextAt
  rw [bind_assoc]
  exact observe_bind (fun _ => kept_refl) fine_refl (demand_bind (fun _ _ => kept_refl) fun text _ => h text)

theorem careful_patchMemoryFile {patches : List Patch} : Careful t (patchMemoryFile maintenance path patches) :=
  careful_start fun _ _ hv => careful_read fun _ => check_bind (fun _ _ => kept_refl) fun _ _ => careful_write hv

theorem careful_appendMemoryFile {text : String} : Careful t (appendMemoryFile maintenance path text) :=
  careful_start fun _ _ hv => careful_read fun _ => careful_write hv

theorem careful_putMemoryFile {body : String} : Careful t (putMemoryFile maintenance path body) := by
  refine careful_start fun scope logical hv => ?_
  refine validateSize_bind (fun _ => kept_refl) fine_refl fun hcharged => ?_
  unfold holdsText
  rw [bind_assoc]
  refine observe_bind (fun _ => kept_refl) fine_refl ?_
  have hwrite : ∀ same : Bool, Careful t (writeChanged (!same) scope logical body >>= fun _ =>
      pure ⟨logical.path, !same, some (byteSize body)⟩) :=
    fun same => Proc.Does.bind (does_writeChanged hv hcharged) fun _ => Proc.does_pure fun _ h => h
  split
  · unfold readTextAt
    simp only [bind_assoc, pure_bind]
    exact observe_bind (fun _ => kept_refl) fine_refl (demand_bind (fun _ _ => kept_refl) fun text _ => hwrite (text = body))
  · rw [pure_bind]
    exact hwrite false

theorem careful_deleteMemoryFile : Careful t (deleteMemoryFile maintenance path) := by
  refine careful_start fun scope logical hv => ?_
  refine refuse_bind (fun _ => kept_refl) fun _ => observe_bind (fun _ => kept_refl) fine_refl ?_
  refine refuse_bind (fun _ => kept_refl) fun _ => refuse_bind (fun _ => kept_refl) fun hdir => ?_
  refine Proc.Does.bind (Q := fun _ => Fine t) (does_attempt (fun s hs => hs ▸ fine_refl) (fun _ s hs => hs ▸ kept_refl)
    fun s t' hs ht => ?_) fun _ => Proc.Does.bind does_markBriefingDirty fun _ => Proc.does_pure fun _ h => h
  subst hs
  cases ht
  have hsettle : settle (physicalPath logical) = logical.parts := settle_of_notMem hv.up
  rw [physicalPath, Tree.get_of_notMem hv.up] at hdir
  refine fun hs => hs.fewer fun name _ => ?_
  rw [Tree.fileAt_remove (by rwa [hsettle]), hsettle]
  split
  · exact .inr rfl
  · exact .inl rfl

theorem careful_task (op : Operation) : Careful t (op.task maintenance) := by
  cases op with
  | create path body => exact careful_createMemoryFile
  | patch path patches => exact careful_patchMemoryFile
  | append path text => exact careful_appendMemoryFile
  | put path body => exact careful_putMemoryFile
  | delete path => exact careful_deleteMemoryFile

theorem fine_after (t : Files.Tree Bytes) (c : Call) : Fine t (c.after t) := by
  have h := @careful_task t c.maintenance c.operation
  have hfine := h.mono (fun _ _ hq => hq) (fun _ _ hk => hk.fine) fun _ hc => hc
  exact Proc.leaves_of_meets (hfine.meets.pre fun o ho => by rw [ho])

theorem sound_run (calls : List Call) {t : Files.Tree Bytes} (h : Sound t) : Sound (calls.foldl Call.after t) := by
  induction calls generalizing t with
  | nil => exact h
  | cons c calls ih => exact ih (fine_after t c h)

theorem kept_of_raise {c : Call} {e : Failure} {o : Ongoing (Answer Unit) (Files.Tree Bytes)}
    (h : c.run t = .error (.raised e) o) : Kept t (c.after t) := by
  have hc := @careful_task t c.maintenance c.operation ⟨t, c.answers⟩ rfl
  unfold Call.run at h
  rw [h] at hc
  unfold Call.after Proc.leaves Stmt.left
  rw [h]
  exact hc

/-- Whatever calls are made on an empty tree, also such as fail or are cut, the briefing compiles; and a call that
raises leaves every file as it was. -/
theorem briefing_always_compiles (calls : List Call) :
    (∃ briefing, compileBriefing (calls.foldl Call.after Tree.empty) = .ok briefing) ∧
      ∀ before c rest, calls = before ++ c :: rest → ∀ e o, c.run (before.foldl Call.after Tree.empty) = .error (.raised e) o →
        Kept (before.foldl Call.after Tree.empty) ((before ++ [c]).foldl Call.after Tree.empty) := by
  constructor
  · exact ⟨_, (sound_run calls sound_empty).compiles⟩
  · intro before c rest _ e o hraised
    rw [List.foldl_append]
    exact kept_of_raise hraised

/-- A text that is one byte too long for a briefing. -/
def oversized : String := String.ofList (List.replicate (perFileLimit + 1) 'a')

theorem byteSize_oversized : byteSize oversized = perFileLimit + 1 := by
  have ha : (String.utf8EncodeChar 'a').length = 1 := rfl
  rw [oversized, byteSize, String.toList_ofList, encodeUtf8, List.length_flatMap, List.map_replicate, ha]
  simp

def putTopic (body : String) : Call :=
  ⟨false, .put "briefing/topic.md" body, [.done, .done, .done, .done, .done, .drawn "1", .done, .done]⟩

theorem putTopic_oversized (t : Files.Tree Bytes) : ∃ o, (putTopic oversized).run t =
    .error (.raised (.store (tooLargeFile "briefing/topic.md" (byteSize oversized)))) o := by
  have hsize : validateFileSize .briefing ⟨"briefing/topic.md", ["briefing", "topic.md"]⟩ (byteSize oversized) =
      .error (tooLargeFile "briefing/topic.md" (byteSize oversized)) := by
    rw [validateFileSize, if_pos (by rw [byteSize_oversized]; exact Nat.lt_succ_self _), if_pos rfl]
    rfl
  have hpath : validateWritePath false "briefing/topic.md" =
      .ok (.briefing, ⟨"briefing/topic.md", ["briefing", "topic.md"]⟩) := by rfl
  have hok : check (validateWritePath false "briefing/topic.md") =
      pure (.briefing, ⟨"briefing/topic.md", ["briefing", "topic.md"]⟩) := by rw [hpath]; rfl
  have hrun : (putTopic oversized).run t = putMemoryFile false "briefing/topic.md" oversized
      ⟨t, [.done, .done, .done, .done, .done, .drawn "1", .done, .done]⟩ := rfl
  rw [hrun, putMemoryFile, hok]
  simp only [pure_bind, validateSize, hsize]
  exact ⟨_, rfl⟩

/-- A topic is put, and a put of a longer text over it is refused: the topic still has its line. -/
theorem briefing_always_compiles_refused :
    ((putTopic "a line").after .empty).fileAt ["briefing", "topic.md"] = some (encodeUtf8 "a line".toList) ∧
      Kept ((putTopic "a line").after .empty) ((putTopic oversized).after ((putTopic "a line").after .empty)) := by
  obtain ⟨o, ho⟩ := putTopic_oversized ([putTopic "a line"].foldl Call.after .empty)
  have hkept := (briefing_always_compiles [putTopic "a line", putTopic oversized]).2 [putTopic "a line"] _ [] rfl _ o ho
  rw [List.foldl_append, List.foldl_cons, List.foldl_cons, List.foldl_nil, List.foldl_nil] at hkept
  exact ⟨by decide +kernel, hkept⟩

end Operations
end PuffoAgent.Memory
