import PuffoAgent.Relational.Table
import Mathlib.Data.List.Infix

/-! Trees of directories and files, and paths that are walked part by part. -/
namespace PuffoAgent.Files
open Relational

section Paths

/-- An absolute path. A part may be `..`. -/
abbrev Path := List String

/-- One part of a walk. The parent of the root is the root. -/
def advance (at' : Path) (part : String) : Path := if part = ".." then at'.dropLast else at' ++ [part]

/-- Where a path leads. -/
def settle (p : Path) : Path := p.foldl advance []

variable {p q : Path} {part : String}

@[simp] theorem settle_nil : settle [] = [] := rfl

theorem settle_append : settle (p ++ q) = q.foldl advance (settle p) := List.foldl_append

theorem settle_concat : settle (p ++ [part]) = advance (settle p) part := settle_append

theorem settle_concat_of_ne (h : part ≠ "..") : settle (p ++ [part]) = settle p ++ [part] := by
  rw [settle_concat, advance, if_neg h]

theorem settle_append_of_notMem (h : ".." ∉ q) : settle (p ++ q) = settle p ++ q := by
  induction q generalizing p with
  | nil => simp
  | cons part q ih =>
    obtain ⟨hpart, hq⟩ := not_or.1 (mt List.mem_cons.2 h)
    rw [List.append_cons, ih hq, settle_concat_of_ne (Ne.symm hpart), ← List.append_cons]

/-- A path without `..` leads where it says. -/
theorem settle_of_notMem (h : ".." ∉ p) : settle p = p := settle_append_of_notMem (p := []) h

/-- Where the last dot of a name parts it, unless it is its first or its last character. -/
def dotted (name : String) : Option (List Char × List Char) :=
  let tail := name.toList.reverse.takeWhile (· ≠ '.')
  let rest := name.toList.reverse.dropWhile (· ≠ '.')
  if tail.isEmpty ∨ rest.length ≤ 1 then none else some (rest.tail.reverse, tail.reverse)

/-- `PurePath.suffix`, of a name. -/
def suffix (name : String) : String := (dotted name).elim "" fun p => String.ofList ('.' :: p.2)

/-- `PurePath.stem`, of a name. -/
def stem (name : String) : String := (dotted name).elim name fun p => String.ofList p.1

theorem dotted_eq_some {name : String} {p : List Char × List Char} (h : dotted name = some p) :
    name.toList = p.1 ++ '.' :: p.2 := by
  have hsplit := List.takeWhile_append_dropWhile (p := (· ≠ '.')) (l := name.toList.reverse)
  have hhead := List.head?_dropWhile_not (· ≠ '.') name.toList.reverse
  simp only [dotted] at h
  generalize name.toList.reverse.takeWhile (· ≠ '.') = tail at h hsplit
  generalize name.toList.reverse.dropWhile (· ≠ '.') = rest at h hsplit hhead
  split at h
  · cases h
  · rename_i hdots
    cases h
    cases rest with
    | nil => simp at hdots
    | cons c rest =>
      obtain rfl : c = '.' := by simpa using hhead
      have hall := congrArg List.reverse hsplit
      simpa using hall.symm

/-- A name with a suffix is its stem and the suffix. -/
theorem stem_append_suffix {name : String} (h : suffix name ≠ "") : name = stem name ++ suffix name := by
  unfold suffix at h
  cases hd : dotted name with
  | none => exact absurd (by simp [hd]) h
  | some p =>
    apply String.toList_inj.1
    rw [dotted_eq_some hd, stem, suffix, hd]
    simp

end Paths

section Trees
variable {α : Type}

inductive Node (α : Type)
  | dir
  | file (content : α)
  deriving DecidableEq

def Node.isDir : Node α → Bool
  | .dir => true
  | .file _ => false

def Node.content : Node α → Option α
  | .dir => none
  | .file a => some a

def nodeOf (table : Table (Path × Node α) Path Prod.fst) (p : Path) : Option (Node α) :=
  if p = [] then some .dir else (table.get? p).map Prod.snd

/-- What there is is in a directory. -/
structure Tree (α : Type) where
  table : Table (Path × Node α) Path Prod.fst
  rooted : ∀ p part n, nodeOf table (p ++ [part]) = some n → nodeOf table p = some .dir

namespace Tree

def empty : Tree α := ⟨Table.empty, fun p part n h => by simp [nodeOf] at h⟩

def node (t : Tree α) (p : Path) : Option (Node α) := nodeOf t.table p

def dirAt (t : Tree α) (p : Path) : Bool := (t.node p).any Node.isDir

variable {t t' : Tree α} {p q r : Path} {n : Node α} {a : α}

@[simp] theorem node_nil : t.node [] = some .dir := rfl

theorem dirAt_iff : t.dirAt p = true ↔ t.node p = some .dir := by
  unfold dirAt
  cases t.node p with
  | none => simp
  | some n => cases n <;> simp [Node.isDir]

/-- The directories above what is there. -/
theorem node_above (h : q <+: p) (hne : q ≠ p) (hp : t.node p ≠ none) : t.node q = some .dir := by
  obtain ⟨rest, rfl⟩ := h
  induction rest using List.reverseRecOn with
  | nil => exact absurd (List.append_nil q).symm hne
  | append_singleton rest part ih =>
    have hdir : t.node (q ++ rest) = some .dir := by
      obtain ⟨n, hn⟩ := Option.ne_none_iff_exists'.1 hp
      rw [← List.append_assoc] at hn
      exact t.rooted _ part n hn
    cases rest with
    | nil => rwa [List.append_nil] at hdir
    | cons c rest => exact ih (by simp) (by rw [hdir]; nofun)

/-- A path leads somewhere when all its parts but the last are walked through directories. -/
def reaches (t : Tree α) (p : Path) : Bool := p.inits.all fun r => r = p ∨ t.dirAt (settle r)

theorem reaches_iff : t.reaches p = true ↔ ∀ r, r <+: p → r ≠ p → t.node (settle r) = some .dir := by
  unfold reaches
  rw [List.all_eq_true]
  constructor
  · intro h r hr hne
    rcases of_decide_eq_true (h r ((List.mem_inits r p).2 hr)) with he | hd
    · exact absurd he hne
    · exact dirAt_iff.1 hd
  · intro h r hr
    rw [decide_eq_true_iff]
    by_cases he : r = p
    · exact .inl he
    · exact .inr (dirAt_iff.2 (h r ((List.mem_inits r p).1 hr) he))

/-- What a path leads to. -/
def get (t : Tree α) (p : Path) : Option (Node α) := if t.reaches p then t.node (settle p) else none

def isFile (t : Tree α) (p : Path) : Bool := (t.get p).any fun n => !n.isDir

def content (t : Tree α) (p : Path) : Option α := (t.get p).bind Node.content

/-- The file at a place, which is not walked to. -/
def fileAt (t : Tree α) (p : Path) : Option α := (t.node p).bind Node.content

theorem fileAt_eq_some : t.fileAt p = some a ↔ t.node p = some (.file a) := by
  unfold fileAt
  cases t.node p with
  | none => simp
  | some n => cases n <;> simp [Node.content]

/-- Where no path leads, nothing is. -/
theorem node_below_none (h : t.get p = none) (hp : ".." ∉ p) (hq : p <+: q) : t.node q = none := by
  by_contra hnode
  have hreaches : t.reaches p = true := reaches_iff.2 fun r hr hne => by
    rw [settle_of_notMem fun hmem => hp (hr.subset hmem)]
    refine node_above (hr.trans hq) (fun he => hne (List.IsPrefix.eq_of_length_le hr ?_)) hnode
    exact he ▸ hq.length_le
  rw [get, if_pos hreaches, settle_of_notMem hp] at h
  by_cases he : p = q
  · exact hnode (he ▸ h)
  · rw [node_above hq he hnode] at h
    cases h

/-- Where no `..` is walked, a path leads to what is at its place. -/
theorem get_of_notMem (hp : ".." ∉ p) : t.get p = t.node p := by
  cases h : t.get p with
  | none => exact (node_below_none h hp (List.prefix_refl p)).symm
  | some n =>
    unfold get at h
    split at h
    · rwa [settle_of_notMem hp, eq_comm] at h
    · cases h

theorem isFile_of_notMem (hp : ".." ∉ p) : t.isFile p = (t.fileAt p).isSome := by
  rw [isFile, fileAt, get_of_notMem hp]
  cases t.node p with
  | none => rfl
  | some n => cases n <;> rfl

theorem content_of_notMem (hp : ".." ∉ p) : t.content p = t.fileAt p := by rw [content, fileAt, get_of_notMem hp]

/-- The names in a directory. -/
def children (t : Tree α) (p : Path) : List String :=
  t.table.rows.filterMap fun e => if e.1.dropLast = p then e.1.getLast? else none

theorem mem_children {name : String} : name ∈ t.children p ↔ t.node (p ++ [name]) ≠ none := by
  have hnode : t.node (p ++ [name]) = (t.table.get? (p ++ [name])).map Prod.snd := by simp [node, nodeOf]
  rw [hnode, ne_eq, Option.map_eq_none_iff, Table.get?_eq_none_iff, not_not]
  unfold children
  rw [List.mem_filterMap, List.mem_map]
  constructor
  · rintro ⟨e, he, hlast⟩
    split at hlast
    · rename_i hdrop
      refine ⟨e, he, ?_⟩
      obtain ⟨parent, hparent⟩ := List.getLast?_eq_some_iff.1 hlast
      rw [hparent, List.dropLast_concat] at hdrop
      rw [hparent, hdrop]
    · cases hlast
  · rintro ⟨e, he, hkey⟩
    exact ⟨e, he, by simp [hkey]⟩

theorem nodup_children : (t.children p).Nodup := by
  unfold children
  have hkeys : (t.table.rows.filterMap fun e => if e.1.dropLast = p then e.1.getLast? else none) =
      (t.table.rows.map Prod.fst).filterMap fun q => if q.dropLast = p then q.getLast? else none := by
    rw [List.filterMap_map]
    rfl
  rw [hkeys]
  refine List.Nodup.filterMap (fun q q' name hq hq' => ?_) t.table.nodup
  split at hq
  · rename_i hdrop
    split at hq'
    · rename_i hdrop'
      obtain ⟨parent, rfl⟩ := List.getLast?_eq_some_iff.1 hq
      obtain ⟨parent', rfl⟩ := List.getLast?_eq_some_iff.1 hq'
      rw [List.dropLast_concat] at hdrop hdrop'
      rw [hdrop, hdrop']
    · cases hq'
  · cases hq

section Changes

/-- A new directory, or a file where there is none or another file. -/
def insert (t : Tree α) (p : Path) (n : Node α) : Option (Tree α) :=
  if h : p ≠ [] ∧ t.dirAt p.dropLast = true ∧ t.dirAt p = false then
    some {
      table := t.table.put (p, n)
      rooted := by
        obtain ⟨hne, hparent, hnot⟩ := h
        intro q part m hm
        have hother : nodeOf (t.table.put (p, n)) q = t.node q ∨ q = p := by
          by_cases hq : q = p
          · exact .inr hq
          · exact .inl (by simp [node, nodeOf, Table.get?_put, Ne.symm hq])
        by_cases hp : q ++ [part] = p
        · rw [← hp, List.dropLast_concat, dirAt_iff] at hparent
          rcases hother with he | rfl
          · rw [he, hparent]
          · simp at hp
        · have hold : t.node (q ++ [part]) = some m := by
            simpa [node, nodeOf, Table.get?_put, Ne.symm hp] using hm
          have hdir := t.rooted q part m hold
          rcases hother with he | rfl
          · exact he.trans hdir
          · rw [dirAt_iff.2 hdir] at hnot
            cases hnot }
  else none

theorem insert_eq_some (h : t.insert p n = some t') :
    p ≠ [] ∧ t.node p.dropLast = some .dir ∧ t.node p ≠ some .dir ∧
      ∀ q, t'.node q = if q = p then some n else t.node q := by
  unfold insert at h
  split at h
  · rename_i hc
    obtain ⟨hne, hparent, hnot⟩ := hc
    cases h
    refine ⟨hne, dirAt_iff.1 hparent, fun hd => by simp [dirAt_iff.2 hd] at hnot, fun q => ?_⟩
    by_cases hq : q = p
    · subst hq
      simp [node, nodeOf, hne]
    · simp [node, nodeOf, Table.get?_put, hq, Ne.symm hq]
  · cases h

/-- A directory takes what is new, or replaces a file. -/
theorem exists_insert (hne : p ≠ []) (hparent : t.node p.dropLast = some .dir) (hnot : t.node p ≠ some .dir) :
    ∃ t', t.insert p n = some t' := by
  unfold insert
  rw [dif_pos ⟨hne, dirAt_iff.2 hparent, Bool.eq_false_iff.2 fun h => hnot (dirAt_iff.1 h)⟩]
  exact ⟨_, rfl⟩

/-- What stays of a directory that is removed, as far as the removal gets: with a path the directories above it. -/
def stays (q : Path) (kept : Path → Bool) (p : Path) : Bool := p.inits.all fun r => q.isPrefixOf r → kept r

theorem stays_iff {kept : Path → Bool} : stays q kept p = true ↔ ∀ r, r <+: p → q <+: r → kept r = true := by
  unfold stays
  rw [List.all_eq_true]
  simp only [decide_eq_true_iff, List.isPrefixOf_iff_prefix, List.mem_inits]

/-- The removal of what is at a place and below. The root stays. -/
def prune (t : Tree α) (q : Path) (kept : Path → Bool) : Tree α where
  table := t.table.delete fun e => !stays q kept e.1
  rooted := by
    have hnode : ∀ p m, nodeOf (t.table.delete fun e => !stays q kept e.1) p = some m →
        t.node p = some m ∧ (p ≠ [] → stays q kept p = true) := by
      intro p m hm
      unfold nodeOf at hm
      unfold node nodeOf
      split at hm
      · rename_i hp
        exact ⟨by rwa [if_pos hp], fun hne => absurd hp hne⟩
      · rename_i hp
        rw [if_neg hp]
        obtain ⟨e, he, rfl⟩ := Option.map_eq_some_iff.1 hm
        rw [Table.get?_delete, Option.filter_eq_some_iff] at he
        obtain rfl := Table.get?_key he.1
        exact ⟨by rw [he.1]; rfl, fun _ => by simpa using he.2⟩
    intro p part m hm
    obtain ⟨hold, hstays⟩ := hnode _ m hm
    have hdir := t.rooted p part m hold
    unfold nodeOf at hdir ⊢
    split
    · rfl
    · rename_i hp
      rw [if_neg hp] at hdir
      obtain ⟨e, he, hen⟩ := Option.map_eq_some_iff.1 hdir
      have hkey := Table.get?_key he
      have hall := stays_iff.1 (hstays (by simp))
      have hp' : stays q kept p = true :=
        stays_iff.2 fun r hr hq => hall r (hr.trans (List.prefix_append p [part])) hq
      rw [Table.get?_delete, he, Option.filter_some, if_pos (by simp [hkey, hp']), Option.map_some, hen]

theorem node_prune {kept : Path → Bool} (hp : p ≠ []) :
    (t.prune q kept).node p = if stays q kept p then t.node p else none := by
  unfold node nodeOf prune
  rw [if_neg hp, if_neg hp, Table.get?_delete]
  cases he : t.table.get? p with
  | none => simp
  | some e =>
    have hkey := Table.get?_key he
    subst hkey
    cases hs : stays q kept e.1 <;> simp [hs, Option.filter_some]

/-- Nothing changes elsewhere. -/
theorem node_prune_elsewhere {kept : Path → Bool} (h : ¬ q <+: p) : (t.prune q kept).node p = t.node p := by
  by_cases hp : p = []
  · subst hp
    rfl
  · rw [node_prune hp, if_pos (stays_iff.2 fun r hr hq => absurd (hq.trans hr) h)]

/-- `os.mkdir`, where a directory that is there already is none the worse. -/
def mkdir (t : Tree α) (p : Path) : Option (Tree α) :=
  if t.reaches p then
    match t.node (settle p) with
    | none => t.insert (settle p) .dir
    | some .dir => some t
    | some (.file _) => none
  else none

theorem mkdir_eq_some (h : t.mkdir p = some t') : t' = t ∨ (t.node (settle p) = none ∧
    ∀ q, t'.node q = if q = settle p then some .dir else t.node q) := by
  unfold mkdir at h
  split at h
  · split at h
    · rename_i hnone
      exact .inr ⟨hnone, (insert_eq_some h).2.2.2⟩
    · cases h
      exact .inl rfl
    · cases h
  · cases h

theorem fileAt_mkdir (h : t.mkdir p = some t') (q : Path) : t'.fileAt q = t.fileAt q := by
  rcases mkdir_eq_some h with rfl | ⟨hnone, hall⟩
  · rfl
  · unfold fileAt
    rw [hall]
    split
    · rename_i he
      subst he
      rw [hnone]
      rfl
    · rfl

/-- A file, in the place of the one that is there. -/
def write (t : Tree α) (p : Path) (a : α) : Option (Tree α) :=
  if t.reaches p then t.insert (settle p) (.file a) else none

/-- What is written is a file of a directory, under the last part of its path. -/
theorem write_eq_some (h : t.write p a = some t') : ∃ parent name, p = parent ++ [name] ∧
    settle p = settle parent ++ [name] ∧ t.node (settle parent) = some .dir ∧ t.node (settle p) ≠ some .dir ∧
      ∀ q, t'.node q = if q = settle p then some (.file a) else t.node q := by
  unfold write at h
  split at h
  · rename_i hreaches
    obtain ⟨hne, -, hnot, hall⟩ := insert_eq_some h
    cases p using List.reverseRecOn with
    | nil => exact absurd rfl hne
    | append_singleton parent name =>
      have hparent := reaches_iff.1 hreaches parent (List.prefix_append _ _) (by simp)
      refine ⟨parent, name, rfl, ?_, hparent, hnot, hall⟩
      by_cases hup : name = ".."
      · have hsettle : settle (parent ++ [name]) = (settle parent).dropLast := by
          rw [settle_concat, advance, if_pos hup]
        rw [hsettle] at hne hnot
        refine absurd (node_above (List.dropLast_prefix _) (fun he => ?_) (by rw [hparent]; nofun)) hnot
        have hlen := congrArg List.length he
        rw [List.length_dropLast] at hlen
        have hzero : (settle parent).length = 0 := by omega
        rw [List.length_eq_zero_iff.1 hzero] at hne
        exact hne rfl
      · exact settle_concat_of_ne hup
  · cases h

theorem fileAt_write (h : t.write p a = some t') (q : Path) :
    t'.fileAt q = if q = settle p then some a else t.fileAt q := by
  obtain ⟨parent, name, -, -, -, -, hall⟩ := write_eq_some h
  unfold fileAt
  rw [hall]
  by_cases hq : q = settle p
  · rw [if_pos hq, if_pos hq]
    rfl
  · rw [if_neg hq, if_neg hq]

theorem reaches_of_dir {name : String} (hp : ".." ∉ p) (h : t.node p = some .dir) : t.reaches (p ++ [name]) = true := by
  refine reaches_iff.2 fun r hr hne => ?_
  obtain hr := (List.prefix_concat_iff.1 hr).resolve_left hne
  rw [settle_of_notMem fun hmem => hp (hr.subset hmem)]
  by_cases he : r = p
  · exact he ▸ h
  · exact node_above hr he (by rw [h]; nofun)

theorem exists_write {name : String} (hp : ".." ∉ p ++ [name]) (h : t.node p = some .dir)
    (hnot : t.node (p ++ [name]) ≠ some .dir) : ∃ t', t.write (p ++ [name]) a = some t' := by
  unfold write
  rw [if_pos (reaches_of_dir (fun hmem => hp (List.mem_append_left _ hmem)) h), settle_of_notMem hp]
  exact exists_insert (by simp) (by rwa [List.dropLast_concat]) hnot

/-- Nothing is kept. -/
def remove (t : Tree α) (p : Path) : Tree α := t.prune (settle p) fun _ => false

theorem node_remove (hp : p ≠ []) : (t.remove q).node p = if settle q <+: p then none else t.node p := by
  unfold remove
  split
  · rename_i h
    rw [node_prune hp, if_neg]
    intro hstays
    exact Bool.false_ne_true (stays_iff.1 hstays p (List.prefix_refl p) h)
  · rename_i h
    exact node_prune_elsewhere h

/-- The removal of a file is that of nothing else. -/
theorem fileAt_remove (h : t.node (settle q) ≠ some .dir) (p : Path) :
    (t.remove q).fileAt p = if p = settle q then none else t.fileAt p := by
  have hne : settle q ≠ [] := fun he => h (he ▸ rfl)
  by_cases hp : p = []
  · subst hp
    rw [if_neg (Ne.symm hne)]
    rfl
  unfold fileAt
  rw [node_remove hp]
  by_cases hsame : p = settle q
  · rw [if_pos hsame, if_pos (hsame ▸ List.prefix_refl _)]
    rfl
  · rw [if_neg hsame]
    split
    · rename_i hprefix
      cases hn : t.node p with
      | none => rfl
      | some n => exact absurd (node_above hprefix (Ne.symm hsame) (by rw [hn]; nofun)) h
    · rfl

/-- What is at a place and below, the upper parts first. -/
def below (t : Tree α) (p : Path) : List (Path × Node α) :=
  (t.table.rows.filter fun e => p.isPrefixOf e.1).mergeSort fun e e' => e.1.length ≤ e'.1.length

def graftOne (src dst : Path) (kept : Path → Bool) (t : Tree α) (e : Path × Node α) : Tree α :=
  if kept e.1 then (t.insert (dst ++ e.1.drop src.length) e.2).getD t else t

/-- A copy of what is at `src` to `dst`, as far as it gets. -/
def graft (t : Tree α) (src dst : Path) (kept : Path → Bool) : Tree α := (t.below src).foldl (graftOne src dst kept) t

/-- `os.rename` of a directory to a place where nothing is. -/
def rename (t : Tree α) (src dst : Path) : Option (Tree α) :=
  if t.reaches src ∧ t.dirAt (settle src) ∧ t.reaches dst ∧ t.dirAt (settle dst).dropLast ∧ (t.node (settle dst)).isNone ∧
      ¬ settle src <+: settle dst then
    some ((t.graft (settle src) (settle dst) fun _ => true).prune (settle src) fun _ => false)
  else none

end Changes

end Tree
end Trees
end PuffoAgent.Files
