import PuffoAgent.Files.Tree
import PuffoAgent.Effects.Interrupted
import Mathlib.Algebra.Order.BigOperators.Group.List
import Mathlib.Algebra.Order.Group.Nat

/-! Directories that are made and files that are written step by step, each step of which can fail or be the last. -/
namespace PuffoAgent.Files
open Relational Effects

section Procedures
variable {α β ε : Type}

/-- How the world answers an effect on a tree. `reply` is any other answer. -/
inductive Answer (β : Type)
  | done
  | fails (e : String)
  | drawn (name : String)
  | partly (kept : Path → Bool)
  | reply (b : β)

def Answer.text : Answer β → String
  | .fails e => e
  | _ => "refused"

abbrev Task (β α ε : Type) := Proc (Answer β) (Tree α) ε

/-- A change that the file system makes or refuses. `os` is the error that it raises. -/
def attempt (os : String → ε) (f : Tree α → Option (Tree α)) : Task β α ε Unit := Proc.perform fun a t =>
  match a, f t with
  | .done, some t' => (.ok (), t')
  | a, _ => (.error (.raised (os a.text)), t)

def mkdirs (os : String → ε) : List Path → Task β α ε Unit
  | [] => pure ()
  | p :: ps => do
    attempt os (·.mkdir p)
    mkdirs os ps

/-- `Path.mkdir` with the directories above. -/
def ensureDirectory (os : String → ε) (p : Path) : Task β α ε Unit := mkdirs os p.inits

/-- The name of a temporary file. -/
def tempName (start drawn : String) : String := start ++ drawn ++ ".tmp"

/-- `tempfile.mkstemp`, and what is written to it. -/
def createTemp (os : String → ε) (dir : Path) (start : String) (a : α) : Task β α ε Path := Proc.perform fun w t =>
  match w with
  | .drawn s =>
    if (t.get (dir ++ [tempName start s])).isSome then (.error (.raised (os w.text)), t)
    else
      match t.write (dir ++ [tempName start s]) a with
      | some t' => (.ok (dir ++ [tempName start s]), t')
      | none => (.error (.raised (os w.text)), t)
  | _ => (.error (.raised (os w.text)), t)

/-- `os.replace`. When it fails the temporary file is removed, if that does not fail too. -/
def replace (os : String → ε) (tmp p : Path) (a : α) : Task β α ε Unit := Proc.perform fun w t =>
  match w, t.write p a with
  | .done, some t' => (.ok (), t'.remove tmp)
  | .partly _, _ => (.error (.raised (os w.text)), t)
  | _, _ => (.error (.raised (os w.text)), t.remove tmp)

/-- A file is written whole, or its place is left as it is. -/
def atomicWrite (os : String → ε) (start : String) (p : Path) (a : α) : Task β α ε Unit := do
  ensureDirectory os p.dropLast
  let tmp ← createTemp os p.dropLast start a
  replace os tmp p a

end Procedures

section Frames
variable {α β ε : Type} {S R : Path → Prop} {t₀ t t' : Tree α} {p : Path} {os : String → ε}

/-- Outside of `S` nothing changes, but for directories that are made at places in `R`. -/
def Confined (S R : Path → Prop) (t₀ t : Tree α) : Prop :=
  ∀ q, ¬ S q → t.node q = t₀.node q ∨ (R q ∧ t₀.node q = none ∧ t.node q = some .dir)

theorem Confined.refl : Confined S R t₀ t₀ := fun _ _ => .inl rfl

theorem Confined.step (h : Confined S R t₀ t) (hs : ∀ q, ¬ S q → t'.node q = t.node q) : Confined S R t₀ t' := by
  intro q hq
  rw [hs q hq]
  exact h q hq

theorem Confined.mkdir (h : Confined S R t₀ t) (hm : t.mkdir p = some t') (hp : S (settle p) ∨ R (settle p)) :
    Confined S R t₀ t' := by
  rcases Tree.mkdir_eq_some hm with rfl | ⟨hnone, hall⟩
  · exact h
  · intro q hq
    rw [hall]
    split
    · rename_i he
      subst he
      rcases h _ hq with hsame | ⟨-, -, hdir⟩
      · exact .inr ⟨hp.resolve_left hq, hsame.symm.trans hnone, rfl⟩
      · rw [hnone] at hdir
        cases hdir
    · exact h q hq

theorem Confined.dir (h : Confined S R t₀ t) (hp : ¬ S p) (hd : t₀.node p = some .dir) : t.node p = some .dir := by
  rcases h p hp with hsame | ⟨-, -, hdir⟩
  · exact hsame.trans hd
  · exact hdir

/-- A path that does not come across `S` leads to what it led to. -/
theorem Confined.get (h : Confined S R t₀ t) (hp : ∀ r, r <+: p → ¬ S (settle r)) (hget : t₀.get p ≠ none) : t.get p ≠ none := by
  unfold Tree.get at hget ⊢
  split at hget
  · rename_i hreaches
    rw [if_pos (Tree.reaches_iff.2 fun r hr hne => h.dir (hp r hr) (Tree.reaches_iff.1 hreaches r hr hne))]
    rcases h _ (hp p (List.prefix_refl p)) with hsame | ⟨-, hnone, -⟩
    · rwa [hsame]
    · exact absurd hnone hget
  · exact absurd rfl hget

theorem does_attempt {P : Tree α → Prop} {Q : Unit → Tree α → Prop} {E : ε → Tree α → Prop} {C : Tree α → Prop}
    {f : Tree α → Option (Tree α)} (hcut : ∀ t, P t → C t) (hE : ∀ text t, P t → E (os text) t)
    (hQ : ∀ t t', P t → f t = some t' → Q () t') : Proc.Does P (attempt os f : Task β α ε Unit) Q E C := by
  refine Proc.does_perform hcut fun a t ht => ?_
  cases hf : f t with
  | none => cases a <;> exact hE _ t ht
  | some t' =>
    cases a with
    | done => exact hQ t t' ht hf
    | _ => exact hE _ t ht

theorem keeps_attempt {I : Tree α → Prop} {f : Tree α → Option (Tree α)} (h : ∀ t t', I t → f t = some t' → I t') :
    Proc.Keeps I (attempt os f : Task β α ε Unit) := does_attempt (fun _ ht => ht) (fun _ _ ht => ht) h

theorem keeps_mkdirs {ps : List Path} {I : Tree α → Prop} (h : ∀ p ∈ ps, ∀ t t', I t → t.mkdir p = some t' → I t') :
    Proc.Keeps I (mkdirs os ps : Task β α ε Unit) := by
  induction ps with
  | nil => exact Proc.does_pure fun _ ht => ht
  | cons p ps ih =>
    exact Proc.Does.bind (keeps_attempt (h p List.mem_cons_self)) fun _ => ih fun q hq => h q (List.mem_cons_of_mem p hq)

theorem tempName_ne {start drawn : String} : tempName start drawn ≠ ".." := by
  intro h
  have hlen := congrArg (fun s => s.toList.length) h
  simp only [tempName, String.toList_append, List.length_append] at hlen
  have htmp : (".tmp" : String).toList.length = 4 := rfl
  have hup : (".." : String).toList.length = 2 := rfl
  omega

/-- Directories that are made change no file. -/
theorem keeps_ensureDirectory_files {t : Tree α} :
    Proc.Keeps (·.fileAt = t.fileAt) (ensureDirectory os p : Task β α ε Unit) :=
  keeps_mkdirs fun _ _ _ _ ht hm => (funext fun q => Tree.fileAt_mkdir hm q).trans ht

/-- What is there stays, a file a file and a directory a directory. -/
def Tree.Grows (t t' : Tree α) : Prop := ∀ q b, (t.node q).map Node.isDir = some b → (t'.node q).map Node.isDir = some b

theorem Tree.Grows.trans {t'' : Tree α} (h : t.Grows t') (h' : t'.Grows t'') : t.Grows t'' :=
  fun q b hq => h' q b (h q b hq)

theorem Tree.grows_mkdir (h : t.mkdir p = some t') : t.Grows t' ∧ (t'.node (settle p)).map Node.isDir = some true := by
  unfold Tree.mkdir at h
  split at h
  · split at h
    · rename_i hnone
      have hall := (Tree.insert_eq_some h).2.2.2
      refine ⟨fun q b hq => ?_, by rw [hall, if_pos rfl]; rfl⟩
      rw [hall, if_neg]
      · exact hq
      · rintro rfl
        rw [hnone] at hq
        cases hq
    · rename_i hdir
      cases h
      exact ⟨fun _ _ hq => hq, by rw [hdir]; rfl⟩
    · cases h
  · cases h

theorem does_mkdirs {ps : List Path} {t : Tree α} :
    Proc.Does (· = t) (mkdirs os ps : Task β α ε Unit)
      (fun _ t' => t.Grows t' ∧ ∀ p ∈ ps, (t'.node (settle p)).map Node.isDir = some true) (fun _ _ => True) fun _ => True := by
  induction ps generalizing t with
  | nil =>
    refine Proc.does_pure fun s hs => ⟨fun _ _ hq => ?_, nofun⟩
    rwa [hs]
  | cons p ps ih =>
    refine Proc.Does.bind (Q := fun _ t' => t.Grows t' ∧ (t'.node (settle p)).map Node.isDir = some true)
      (does_attempt (fun _ _ => trivial) (fun _ _ _ => trivial) fun t₁ t' ht hm => ht ▸ Tree.grows_mkdir hm)
      fun _ => Proc.Does.from fun t₁ ht => ?_
    refine ih.mono (fun _ t' h => ⟨ht.1.trans h.1, ?_⟩) (fun _ _ h => h) fun _ h => h
    exact List.forall_mem_cons.2 ⟨h.1 _ _ ht.2, h.2⟩

/-- The temporary file is the only thing that is new. -/
theorem does_createTemp {dir : Path} {start : String} {a : α} {t : Tree α} :
    Proc.Does (· = t) (createTemp os dir start a : Task β α ε Path)
      (fun tmp t' => ∃ s, tmp = dir ++ [tempName start s] ∧ t.node (settle tmp) = none ∧
        ∀ q, t'.node q = if q = settle tmp then some (.file a) else t.node q)
      (fun _ t' => t' = t) (fun t' => t' = t) := by
  refine Proc.does_perform (fun _ hs => hs) fun w t₁ ht => ?_
  subst ht
  cases w with
  | drawn s =>
    by_cases hthere : (t₁.get (dir ++ [tempName start s])).isSome
    · simp only [if_pos hthere]
    · simp only [if_neg hthere]
      cases hw : t₁.write (dir ++ [tempName start s]) a with
      | none => rfl
      | some t₂ =>
        obtain ⟨-, -, -, -, -, -, hall⟩ := Tree.write_eq_some hw
        refine ⟨s, rfl, ?_, hall⟩
        have hreaches : t₁.reaches (dir ++ [tempName start s]) = true := by
          unfold Tree.write at hw
          split at hw
          · assumption
          · cases hw
        have hget := Option.not_isSome_iff_eq_none.1 hthere
        rwa [Tree.get, if_pos hreaches] at hget
  | _ => rfl

/-- The temporary file takes its place, is removed or is left over. -/
theorem does_replace {tmp : Path} {a : α} {t : Tree α} (hother : settle tmp ≠ settle p) (hfresh : t.node (settle tmp) = none) :
    Proc.Does (fun t' => ∀ q, t'.node q = if q = settle tmp then some (.file a) else t.node q)
      (replace os tmp p a : Task β α ε Unit)
      (fun _ t' => (∀ q, t'.fileAt q = if q = settle p then some a else t.fileAt q) ∧ t.Grows t')
      (fun _ t' => ∀ q, t'.fileAt q = t.fileAt q ∨ q = settle tmp)
      (fun t' => ∀ q, t'.fileAt q = t.fileAt q ∨ q = settle tmp) := by
  have hnone : t.fileAt (settle tmp) = none := by rw [Tree.fileAt, hfresh, Option.bind_none]
  have hfiles : ∀ t' : Tree α, (∀ q, t'.node q = if q = settle tmp then some (.file a) else t.node q) →
      ∀ q, t'.fileAt q = if q = settle tmp then some a else t.fileAt q := by
    intro t' ht q
    rw [Tree.fileAt, ht]
    split <;> rfl
  have hleft : ∀ t' : Tree α, (∀ q, t'.node q = if q = settle tmp then some (.file a) else t.node q) →
      ∀ q, t'.fileAt q = t.fileAt q ∨ q = settle tmp := by
    intro t' ht q
    rw [hfiles t' ht]
    split
    · rename_i he
      exact .inr he
    · exact .inl rfl
  refine Proc.does_perform hleft fun w t₁ ht => ?_
  have hnotDir : t₁.node (settle tmp) ≠ some .dir := by
    rw [ht, if_pos rfl]
    intro hdir
    cases hdir
  have hremoved : ∀ q, (t₁.remove tmp).fileAt q = t.fileAt q ∨ q = settle tmp := by
    intro q
    rw [Tree.fileAt_remove hnotDir, hfiles t₁ ht]
    split
    · rename_i he
      exact .inr he
    · exact .inl rfl
  cases hw : t₁.write p a with
  | none => cases w <;> first | exact hleft t₁ ht | exact hremoved
  | some t₂ =>
    cases w with
    | done =>
      obtain ⟨-, -, -, -, -, hnot, hall⟩ := Tree.write_eq_some hw
      refine ⟨fun q => ?_, fun q b hq => ?_⟩
      · rw [Tree.fileAt_remove (by rw [hall, if_neg hother]; exact hnotDir), Tree.fileAt_write hw, hfiles t₁ ht]
        by_cases hp : q = settle p
        · rw [if_pos hp, if_neg (hp ▸ Ne.symm hother), if_pos hp]
        · rw [if_neg hp, if_neg hp]
          split
          · rename_i he
            exact he ▸ hnone.symm
          · rfl
      · -- nothing was where the temporary file is, nor below
        have hapart : ¬ settle tmp <+: q := by
          intro hle
          have hthere : t.node q ≠ none := fun he => by rw [he] at hq; cases hq
          by_cases he : settle tmp = q
          · exact hthere (he ▸ hfresh)
          · rw [Tree.node_above hle he hthere] at hfresh
            cases hfresh
        have hne : q ≠ settle tmp := fun he => hapart (he ▸ List.prefix_refl q)
        have hold : t₁.node q = t.node q := by rw [ht, if_neg hne]
        rw [Tree.remove, Tree.node_prune_elsewhere hapart, hall]
        split
        · rename_i he
          rw [← he, hold] at hnot
          cases hn : t.node q with
          | none =>
            rw [hn] at hq
            cases hq
          | some n =>
            rw [hn] at hnot hq
            cases n with
            | dir => exact absurd rfl hnot
            | file a' => exact hq
        · rwa [hold]
    | partly kept => exact hleft t₁ ht
    | _ => exact hremoved

/-- What a write does: on success one file is written and the way to it is there, else no file changes but a temporary one that is
left over. -/
theorem does_atomicWrite {start : String} {a : α} {t : Tree α}
    (hne : ∀ s, settle p ≠ settle p.dropLast ++ [tempName start s]) :
    Proc.Does (· = t) (atomicWrite os start p a : Task β α ε Unit)
      (fun _ t' => (∀ q, t'.fileAt q = if q = settle p then some a else t.fileAt q) ∧ t.Grows t' ∧
        ∀ r, r <+: p.dropLast → (t'.node (settle r)).map Node.isDir = some true)
      (fun _ t' => ∀ q, t'.fileAt q = t.fileAt q ∨ (t.fileAt q = none ∧ ∃ s, q = settle p.dropLast ++ [tempName start s]))
      (fun t' => ∀ q, t'.fileAt q = t.fileAt q ∨ (t.fileAt q = none ∧ ∃ s, q = settle p.dropLast ++ [tempName start s])) := by
  refine Proc.Does.bind (((keeps_ensureDirectory_files.pre fun s hs => by rw [hs]).and does_mkdirs).mono (fun _ _ hq => hq)
    (fun _ t' he q => .inl (congrFun he.1 q)) fun t' hc q => .inl (congrFun hc.1 q)) fun _ => Proc.Does.from fun t₁ ht₁ => ?_
  obtain ⟨hsame, hgrows, hdirs⟩ := ht₁
  refine Proc.Does.bind (does_createTemp.mono (fun _ _ hq => hq) (fun _ t' he q => .inl (by rw [he, hsame]))
    fun t' hc q => .inl (by rw [hc, hsame])) fun tmp => Proc.Does.from fun t₂ ht₂ => ?_
  obtain ⟨s, htmp, hfresh, hall⟩ := ht₂
  have hplace : settle tmp = settle p.dropLast ++ [tempName start s] := by rw [htmp, settle_concat_of_ne tempName_ne]
  have hnone : t.fileAt (settle tmp) = none := by rw [← hsame, Tree.fileAt, hfresh, Option.bind_none]
  have hleft : ∀ t' : Tree α, (∀ q, t'.fileAt q = t₁.fileAt q ∨ q = settle tmp) →
      ∀ q, t'.fileAt q = t.fileAt q ∨ (t.fileAt q = none ∧ ∃ s, q = settle p.dropLast ++ [tempName start s]) := by
    intro t' h q
    rcases h q with he | he
    · exact .inl (by rw [he, hsame])
    · exact .inr ⟨he ▸ hnone, s, he.trans hplace⟩
  have hother : settle tmp ≠ settle p := fun he => hne s (he.symm.trans hplace)
  refine ((does_replace hother hfresh).pre fun t' ht' => by rw [ht']; exact hall).mono (fun _ t' h => ⟨?_, hgrows.trans h.2, ?_⟩)
    (fun _ => hleft) hleft
  · rw [← hsame]
    exact h.1
  · exact fun r hr => h.2 _ _ (hdirs r ((List.mem_inits r _).2 hr))

end Frames

/-- What is raised is raised by the file system. -/
theorem raises_atomicWrite {α β ε : Type} {os : String → ε} {start : String} {p : Path} {a : α} :
    Proc.Does (fun _ => True) (atomicWrite os start p a : Task β α ε Unit) (fun _ _ => True)
      (fun e _ => ∃ text, e = os text) fun _ => True := by
  have hdirs : ∀ ps : List Path, Proc.Does (fun _ => True) (mkdirs os ps : Task β α ε Unit) (fun _ _ => True)
      (fun e _ => ∃ text, e = os text) fun _ => True := by
    intro ps
    induction ps with
    | nil => exact Proc.does_pure fun _ _ => trivial
    | cons p ps ih =>
      exact Proc.Does.bind (does_attempt (fun _ _ => trivial) (fun text _ _ => ⟨text, rfl⟩) fun _ _ _ _ => trivial) fun _ => ih
  refine Proc.Does.bind (hdirs _) fun _ => Proc.Does.bind (Q := fun _ _ => True)
    (Proc.does_perform (fun _ _ => trivial) fun w t _ => ?_) fun tmp => Proc.does_perform (fun _ _ => trivial) fun w t _ => ?_
  · cases w with
    | drawn s =>
      by_cases hthere : (t.get (p.dropLast ++ [tempName start s])).isSome
      · simp only [if_pos hthere]
        exact ⟨_, rfl⟩
      · simp only [if_neg hthere]
        cases t.write (p.dropLast ++ [tempName start s]) a with
        | none => exact ⟨_, rfl⟩
        | some t' => trivial
    | _ => exact ⟨_, rfl⟩
  · cases w <;> cases t.write p a <;> first | trivial | exact ⟨_, rfl⟩

section Possible
variable {α β ε : Type} {t t' : Tree α} {p : Path} {os : String → ε}

theorem can_attempt {f : Tree α → Option (Tree α)} (h : f t = some t') :
    Proc.Can (attempt os f : Task β α ε Unit) t () t' :=
  Proc.can_perform (w := .done) (by rw [h])

theorem can_mkdirs_append {ps qs : List Path} {t'' : Tree α} (hp : Proc.Can (mkdirs os ps : Task β α ε Unit) t () t')
    (hq : Proc.Can (mkdirs os qs : Task β α ε Unit) t' () t'') :
    Proc.Can (mkdirs os (ps ++ qs) : Task β α ε Unit) t () t'' := by
  have happend : ∀ ps : List Path, (mkdirs os (ps ++ qs) : Task β α ε Unit) = mkdirs os ps >>= fun _ => mkdirs os qs := by
    intro ps
    induction ps with
    | nil => rfl
    | cons p ps ih =>
      rw [List.cons_append, mkdirs, mkdirs, bind_assoc]
      exact congrArg _ (funext fun _ => ih)
  rw [happend]
  exact hp.bind hq

theorem not_concat_prefix {part : String} : ¬ p ++ [part] <+: p := by
  intro h
  have hlen := h.length_le
  rw [List.length_append, List.length_singleton] at hlen
  omega

theorem can_mkdir (h : t.mkdir p = some t') : Proc.Can (mkdirs os [p] : Task β α ε Unit) t () t' :=
  (can_attempt h).bind Proc.can_pure

/-- Where no file is in the way, the directories of a path can be made. -/
theorem can_ensureDirectory (hp : ".." ∉ p) (hclear : ∀ r, r <+: p → t.fileAt r = none) :
    ∃ t', Proc.Can (ensureDirectory os p : Task β α ε Unit) t () t' ∧ t'.node p = some .dir ∧
      ∀ q, ¬ q <+: p → t'.node q = t.node q := by
  induction p using List.reverseRecOn with
  | nil => exact ⟨t, can_mkdir rfl, rfl, fun _ _ => rfl⟩
  | append_singleton p part ih =>
    obtain ⟨t₁, hcan, hdir, hother⟩ := ih (fun hmem => hp (List.mem_append_left _ hmem)) fun r hr =>
      hclear r (hr.trans (List.prefix_append _ _))
    have hnode : t₁.node (p ++ [part]) = t.node (p ++ [part]) := hother _ fun h =>
      not_concat_prefix h
    have hstep : ∃ t', t₁.mkdir (p ++ [part]) = some t' ∧ t'.node (p ++ [part]) = some .dir ∧
        ∀ q, q ≠ p ++ [part] → t'.node q = t₁.node q := by
      have hfile := hclear _ (List.prefix_refl _)
      unfold Tree.mkdir
      rw [if_pos (Tree.reaches_of_dir (fun hmem => hp (List.mem_append_left _ hmem)) hdir), settle_of_notMem hp, hnode]
      cases hn : t.node (p ++ [part]) with
      | none =>
        obtain ⟨t', ht'⟩ := t₁.exists_insert (p := p ++ [part]) (n := .dir) (by simp) (by rwa [List.dropLast_concat])
          (by rw [hnode, hn]; nofun)
        have hall := (Tree.insert_eq_some ht').2.2.2
        exact ⟨t', ht', by rw [hall, if_pos rfl], fun q hq => by rw [hall, if_neg hq]⟩
      | some n =>
        cases n with
        | dir => exact ⟨t₁, rfl, hnode.trans hn, fun _ _ => rfl⟩
        | file a =>
          rw [Tree.fileAt_eq_some.2 hn] at hfile
          cases hfile
    obtain ⟨t', hmk, hdir', hsame⟩ := hstep
    refine ⟨t', ?_, hdir', fun q hq => ?_⟩
    · have hinits : (p ++ [part]).inits = p.inits ++ [p ++ [part]] := by simp [List.inits_append]
      rw [ensureDirectory, hinits]
      exact can_mkdirs_append hcan (can_mkdir hmk)
    · rw [hsame q fun he => hq (he ▸ List.prefix_refl _), hother q fun h => hq (h.trans (List.prefix_append _ _))]

theorem exists_fresh (t : Tree α) (p : Path) (start : String) : ∃ s, t.node (p ++ [tempName start s]) = none := by
  refine ⟨String.ofList (List.replicate ((t.children p).map String.length).sum 'a'), by_contra fun h => ?_⟩
  have hmem := List.mem_map_of_mem (f := String.length) (Tree.mem_children.2 h)
  have hle := List.le_sum_of_mem hmem
  have htmp : (".tmp" : String).length = 4 := rfl
  simp only [tempName, String.length_append, htmp, String.length_ofList, List.length_replicate] at hle
  omega

/-- A file can be written where nothing is in the way. -/
theorem can_atomicWrite {start name : String} {a : α} (hp : ".." ∉ p ++ [name]) (hclear : ∀ r, r <+: p → t.fileAt r = none)
    (hnot : t.node (p ++ [name]) ≠ some .dir) :
    ∃ t', Proc.Can (atomicWrite os start (p ++ [name]) a : Task β α ε Unit) t () t' := by
  have hparent : ".." ∉ p := fun hmem => hp (List.mem_append_left _ hmem)
  obtain ⟨t₁, hcan, hdir, hother⟩ := @can_ensureDirectory α β ε t p os hparent hclear
  obtain ⟨s, hs⟩ := exists_fresh t₁ p start
  have htemp : ".." ∉ p ++ [tempName start s] := by
    rw [List.mem_append, List.mem_singleton]
    rintro (h | h)
    · exact hparent h
    · exact tempName_ne h.symm
  have hfresh : ¬ (t₁.get (p ++ [tempName start s])).isSome := by rw [Tree.get_of_notMem htemp, hs]; nofun
  obtain ⟨t₂, ht₂⟩ := Tree.exists_write (a := a) htemp hdir (by rw [hs]; nofun)
  have hdir₂ : t₂.node p = some .dir := by
    obtain ⟨-, -, -, -, -, -, hall⟩ := Tree.write_eq_some ht₂
    rw [hall, settle_of_notMem htemp, if_neg (by simp), hdir]
  have hnot₂ : t₂.node (p ++ [name]) ≠ some .dir := by
    obtain ⟨-, -, -, -, -, -, hall⟩ := Tree.write_eq_some ht₂
    rw [hall]
    split
    · nofun
    · rw [hother _ not_concat_prefix]
      exact hnot
  obtain ⟨t₃, ht₃⟩ := Tree.exists_write (a := a) hp hdir₂ hnot₂
  refine ⟨t₃.remove (p ++ [tempName start s]), ?_⟩
  unfold atomicWrite
  rw [List.dropLast_concat]
  refine hcan.bind (Proc.Can.bind (show Proc.Can _ t₁ (p ++ [tempName start s]) t₂ from Proc.can_perform (w := .drawn s) ?_)
    (Proc.can_perform (w := .done) ?_))
  · simp only [if_neg hfresh, ht₂]
  · simp only [ht₃]

end Possible
end PuffoAgent.Files
