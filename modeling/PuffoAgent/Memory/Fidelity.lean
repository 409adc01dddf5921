import PuffoAgent.Memory.Compiles

/-! What the store does to a text, compared with what it returns when the text is read. It reads the bytes that are
there, but changes the text with its line endings rewritten. -/
namespace PuffoAgent.Memory
open Relational Files Text Effects

section Reading
variable {t t' : Files.Tree Bytes} {maintenance : Bool} {path body : String} {scope : Scope} {logical : Logical}
  {bytes : Bytes}

/-- The body that is returned when the file is read. -/
def ReadsAs (t : Files.Tree Bytes) (path body : String) : Prop :=
  (∃ r, Proc.Can (readMemoryFile path) t r t) ∧ ∀ answers r o, readMemoryFile path ⟨t, answers⟩ = .ok r o → r.body = body

theorem readResult_text (h : byteSize body ≤ fileLimit scope) :
    (readResult scope logical (encodeUtf8 body.toList)).body = body := by
  have htake : (encodeUtf8 body.toList).take (fileLimit scope + 1) = encodeUtf8 body.toList :=
    List.take_of_length_le (Nat.le_succ_of_le h)
  have hnot : ¬ (encodeUtf8 body.toList).length > fileLimit scope := Nat.not_lt.2 h
  simp only [readResult, htake, if_neg hnot, decodeStrict_encodeUtf8, String.ofList_toList]

theorem validateLogicalPath_of_write (h : validateWritePath maintenance path = .ok (scope, logical)) :
    validateLogicalPath path = .ok (scope, logical) := by
  obtain ⟨at', hlogical, h⟩ := except_bind_ok_iff.1 h
  obtain ⟨⟨⟩, -, h⟩ := except_bind_ok_iff.1 h
  cases h
  exact hlogical

theorem can_observe {α : Type} (f : Files.Tree Bytes → α) : Proc.Can (observe f) t (f t) t :=
  Proc.can_perform (w := .done) rfl

theorem can_check {α : Type} {x : Except StoreError α} {a : α} (h : x = .ok a) : Proc.Can (check x) t a t := by
  subst h
  exact Proc.can_pure

theorem can_refuse {p : Prop} [Decidable p] {e : StoreError} (h : ¬ p) : Proc.Can (refuse p e) t () t := by
  unfold refuse Proc.refuse
  rw [if_neg h]
  exact Proc.can_pure

theorem does_readMemoryFile (h : validateWritePath maintenance path = .ok (scope, logical)) :
    Proc.Does (· = t) (readMemoryFile path)
      (fun r _ => ∃ bytes, t.fileAt logical.parts = some bytes ∧ r = readResult scope logical bytes)
      (fun _ _ => True) fun _ => True := by
  have hup := (validateWritePath_ok h).up
  unfold readMemoryFile
  rw [validateLogicalPath_of_write h]
  refine check_bind (fun _ _ => trivial) fun at' hat => ?_
  cases hat
  refine observe_bind (fun _ => trivial) trivial (refuse_bind (fun _ => trivial) fun hthere => ?_)
  refine observe_bind (fun _ => trivial) trivial (Proc.does_pure fun s hs => ?_)
  rw [physicalPath, Tree.isFile_of_notMem hup, Bool.not_eq_false, Option.isSome_iff_exists] at hthere
  obtain ⟨bytes, hbytes⟩ := hthere
  exact ⟨bytes, hbytes, by rw [physicalPath, Tree.content_of_notMem hup, hbytes, Option.getD_some]⟩

theorem readsAs_iff (h : validateWritePath maintenance path = .ok (scope, logical))
    (hfile : t.fileAt logical.parts = some bytes) :
    ReadsAs t path body ↔ (readResult scope logical bytes).body = body := by
  have hup := (validateWritePath_ok h).up
  have hcan : Proc.Can (readMemoryFile path) t (readResult scope logical bytes) t := by
    unfold readMemoryFile
    refine (can_check (validateLogicalPath_of_write h)).bind ((can_observe _).bind ((can_refuse ?_).bind ?_))
    · rw [physicalPath, Tree.isFile_of_notMem hup, hfile]
      exact fun hfalse => by cases hfalse
    · refine Proc.Can.bind (can_observe _) ?_
      rw [physicalPath, Tree.content_of_notMem hup, hfile]
      exact Proc.can_pure
  constructor
  · rintro ⟨-, hall⟩
    obtain ⟨answers, o, hrun, -⟩ := hcan.exists_run
    exact hall answers _ o hrun
  · rintro rfl
    refine ⟨⟨_, hcan⟩, fun answers r o hrun => ?_⟩
    have hread := does_readMemoryFile (t := t) h ⟨t, answers⟩ rfl
    rw [hrun] at hread
    obtain ⟨bytes', hbytes', rfl⟩ := hread
    rw [Option.some.inj (hbytes'.symm.trans hfile)]

/-- A text that was written is read back. -/
theorem readsAs_written (h : validateWritePath maintenance path = .ok (scope, logical))
    (hfile : t.fileAt logical.parts = some (encodeUtf8 body.toList)) (hsize : byteSize body ≤ fileLimit scope) {text : String} :
    ReadsAs t path text ↔ body = text := by
  rw [readsAs_iff h hfile, readResult_text hsize]

end Reading
section Outcomes
variable {t t' : Files.Tree Bytes} {maintenance : Bool} {path body : String} {scope : Scope} {logical : Logical}

/-- The file holds a text. -/
def Holds (t : Files.Tree Bytes) (logical : Logical) (s : String) : Prop :=
  t.fileAt logical.parts = some (encodeUtf8 s.toList)

/-- What file there is is a text. -/
def IsText (t : Files.Tree Bytes) (logical : Logical) : Prop :=
  ∀ bytes, t.fileAt logical.parts = some bytes → ∃ s, decodeStrict bytes = some s

theorem Holds.isText {s : String} (h : Holds t logical s) : IsText t logical := fun bytes hbytes => ⟨s, by
  rw [← Option.some.inj (h.symm.trans hbytes), decodeStrict_encodeUtf8, String.ofList_toList]⟩

theorem Holds.unique {s s' : String} (h : Holds t logical s) (h' : Holds t logical s') : s = s' :=
  String.toList_inj.1 (encodeUtf8_injective (Option.some.inj (h.symm.trans h')))

/-- One file holds a text, the others what they held. -/
def Wrote (t : Files.Tree Bytes) (logical : Logical) (body : String) (t' : Files.Tree Bytes) : Prop :=
  ∀ q, t'.fileAt q = if q = logical.parts then some (encodeUtf8 body.toList) else t.fileAt q

/-- The sizes that the store checks before it writes a text. -/
def Fits (t : Files.Tree Bytes) (scope : Scope) (logical : Logical) (body : String) : Prop :=
  byteSize body ≤ fileLimit scope ∧ (scope = .briefing → ∃ read, readBriefingEntries t false = .ok read ∧
    byteSize (composeBriefing (simulated read logical.name body)) ≤ totalLimit)

/-- Only the file system refuses what fits. -/
def Outside (fits : Prop) (e : Failure) : Prop := fits → ∃ text, e = .os text

theorem wrote_writeChanged {changed : Bool} {E : Failure → Prop} (hv : logical.Valid scope) (hE : ∀ text, E (.os text)) :
    Proc.Does (· = t) (writeChanged changed scope logical body)
      (fun _ t' => if changed = true then Wrote t logical body t' else t' = t) (fun e _ => E e) fun _ => True := by
  refine .ite (fun hchanged => ?_) fun hnot => Proc.does_pure fun s hs => by rwa [if_neg hnot]
  simp only [if_pos hchanged]
  refine Proc.Does.bind (Q := fun _ => Wrote t logical body) ?_ fun _ =>
    (does_markBriefingDirty (E := fun e _ => E e)).mono (fun _ _ hq => hq) (fun _ _ he => he) fun _ _ => trivial
  refine ((does_writeAtomic hv t).and (raises_atomicWrite.pre fun _ _ => trivial)).mono ?_ ?_ fun _ _ => trivial
  · exact fun _ _ hq => hq.1
  · rintro e _ ⟨-, text, rfl⟩
    exact hE text

/-- The sizes are checked, and what is raised then is raised by the file system. -/
theorem fits_validateSize {α : Type} {Q : α → Files.Tree Bytes → Prop} {E : Failure → Prop} {g : Nat → Task α}
    (hE : ∀ e, Outside (Fits t scope logical body) e → E e)
    (hg : byteSize body ≤ fileLimit scope → Proc.Does (· = t) (g (byteSize body)) Q (fun e _ => E e) fun _ => True) :
    Proc.Does (· = t) (validateSize scope logical body >>= g) Q (fun e _ => E e) fun _ => True := by
  unfold validateSize
  rw [bind_assoc]
  have hfile : ∀ e, validateFileSize scope logical (byteSize body) = .error e → fileLimit scope < byteSize body := by
    intro e he
    unfold validateFileSize at he
    split at he
    · assumption
    · cases he
  have hfits : ∀ u, validateFileSize scope logical (byteSize body) = .ok u → byteSize body ≤ fileLimit scope := by
    intro u hu
    unfold validateFileSize at hu
    split at hu
    · cases hu
    · omega
  refine check_bind (fun e he => hE _ fun hf => absurd hf.1 (Nat.not_le.2 (hfile e he))) fun u hu => ?_
  split
  · rename_i hscope
    simp only [bind_assoc, pure_bind]
    refine observe_bind (fun text => hE _ fun _ => ⟨text, rfl⟩) trivial (demand_bind (fun e he => hE _ fun hf => ?_)
      fun read hread => check_bind (fun e he => hE _ fun hf => ?_) fun _ _ => hg (hfits u hu))
    · obtain ⟨read, hread, -⟩ := hf.2 hscope
      rw [hread] at he
      cases he
    · obtain ⟨read', hread', htotal⟩ := hf.2 hscope
      obtain rfl := Except.ok.inj (hread.symm.trans hread')
      simp only [validateBriefingTotal, if_neg (Nat.not_lt.2 htotal)] at he
      cases he
  · rw [pure_bind]
    exact hg (hfits u hu)

section Calls
variable (hok : validateWritePath maintenance path = .ok (scope, logical))
include hok

theorem outcome_start {α : Type} {g : Scope × Logical → Task α} {Q : α → Files.Tree Bytes → Prop}
    {E : Failure → Files.Tree Bytes → Prop}
    (hE : ∀ text, E (.os text) t) (hg : Proc.Does (· = t) (g (scope, logical)) Q E fun _ => True) :
    Proc.Does (· = t) (lock >>= fun _ => check (validateWritePath maintenance path) >>= g) Q E fun _ => True := by
  refine observe_bind hE trivial (check_bind (fun e he => ?_) fun at' hat => ?_)
  · rw [hok] at he
    cases he
  · obtain rfl := Except.ok.inj (hok.symm.trans hat)
    exact hg

/-- The text that is there is read with its line endings rewritten. -/
theorem outcome_read {α : Type} {g : String → Task α} {Q : α → Files.Tree Bytes → Prop}
    {E : Failure → Files.Tree Bytes → Prop}
    (hE : ∀ e, ((∃ s, Holds t logical s) → ∃ text, e = .os text) → E e t)
    (hg : ∀ s, Holds t logical s →
      Proc.Does (· = t) (g (universalText s)) Q E fun _ => True) :
    Proc.Does (· = t) (isFile (physicalPath logical) >>= fun there => refuse (there = false) (notFound logical) >>= fun _ =>
      readTextAt (physicalPath logical) >>= g) Q E fun _ => True := by
  have hup := (validateWritePath_ok hok).up
  have hos : ∀ text, E (.os text) t := fun text => hE _ fun _ => ⟨text, rfl⟩
  refine observe_bind hos trivial (refuse_bind (fun hno => hE _ fun ⟨s, hs⟩ => ?_) fun hthere => ?_)
  · rw [physicalPath, Tree.isFile_of_notMem hup, show t.fileAt logical.parts = _ from hs] at hno
    cases hno
  · rw [physicalPath, Tree.isFile_of_notMem hup, Bool.not_eq_false, Option.isSome_iff_exists] at hthere
    obtain ⟨bytes, hbytes⟩ := hthere
    unfold readTextAt
    rw [bind_assoc]
    refine observe_bind hos trivial ?_
    rw [physicalPath, Tree.content_of_notMem hup, hbytes, Option.getD_some]
    refine demand_bind (fun e he => hE e fun ⟨s, hs⟩ => ?_) fun text htext => ?_
    · obtain rfl := Option.some.inj (hbytes.symm.trans hs)
      rw [readText, decodeStrict_encodeUtf8] at he
      cases he
    · unfold readText at htext
      split at htext
      · rename_i s hs
        cases htext
        exact hg s (hbytes.trans (congrArg some (decodeStrict_eq_some.1 hs)))
      · cases htext

theorem outcome_rewrite {original text : String} {E : Failure → Prop}
    (hE : ∀ e, Outside (Fits t scope logical text) e → E e) :
    Proc.Does (· = t) (validateSize scope logical text >>= fun size =>
        writeChanged (text ≠ original) scope logical text >>= fun _ =>
          pure (⟨logical.path, text ≠ original, some size⟩ : Result))
      (fun _ t' => byteSize text ≤ fileLimit scope ∧ if text = original then t' = t else Wrote t logical text t')
      (fun e _ => E e) fun _ => True := by
  refine fits_validateSize hE fun hsize => Proc.Does.bind
    (wrote_writeChanged (validateWritePath_ok hok) fun text => hE _ fun _ => ⟨text, rfl⟩) fun _ =>
      Proc.does_pure fun t' ht' => ⟨hsize, ?_⟩
  by_cases h : text = original
  · rw [if_neg (by simp [h])] at ht'
    rwa [if_pos h]
  · rw [if_pos (by simp [h])] at ht'
    rwa [if_neg h]

theorem outcome_create : Proc.Does (· = t) (createMemoryFile maintenance path body)
    (fun _ t' => byteSize body ≤ fileLimit scope ∧ Wrote t logical body t') (fun _ _ => True) fun _ => True := by
  refine outcome_start hok (fun _ => trivial) (observe_bind (fun _ => trivial) trivial (refuse_bind (fun _ => trivial)
    fun _ => fits_validateSize (fun _ _ => trivial) fun hsize => ?_))
  exact Proc.Does.bind (wrote_writeChanged (validateWritePath_ok hok) fun _ => trivial) fun _ =>
    Proc.does_pure fun t' ht' => ⟨hsize, ht'⟩

theorem outcome_append {text : String} : Proc.Does (· = t) (appendMemoryFile maintenance path text)
    (fun _ t' => ∃ s, Holds t logical s ∧
      byteSize (universalText s ++ text) ≤ fileLimit scope ∧
      if universalText s ++ text = universalText s then t' = t else Wrote t logical (universalText s ++ text) t')
    (fun _ _ => True) fun _ => True :=
  outcome_start hok (fun _ => trivial) (outcome_read hok (fun _ _ => trivial) fun s hs =>
    (outcome_rewrite hok fun _ _ => trivial).mono (fun _ _ hq => ⟨s, hs, hq⟩) (fun _ _ he => he) fun _ _ => trivial)

theorem outcome_patch {patch : Patch} : Proc.Does (· = t) (patchMemoryFile maintenance path [patch])
    (fun _ t' => ∃ s text, Holds t logical s ∧
      applyPatch logical (universalText s) patch = .ok text ∧ byteSize text ≤ fileLimit scope ∧
      if text = universalText s then t' = t else Wrote t logical text t')
    (fun e _ => Outside (∃ s text, Holds t logical s ∧
      applyPatch logical (universalText s) patch = .ok text ∧ Fits t scope logical text) e) fun _ => True := by
  refine outcome_start hok (fun text _ => ⟨text, rfl⟩) (outcome_read hok (fun e he hp => ?_) fun s hs => ?_)
  · obtain ⟨s, -, hs, -⟩ := hp
    exact he ⟨s, hs⟩
  · rw [List.foldlM_cons]
    simp only [List.foldlM_nil, bind_pure]
    refine check_bind (fun e he hp => ?_) fun text htext => (outcome_rewrite hok fun e he hp => ?_).mono
      (fun _ _ hq => ⟨s, text, hs, htext, hq⟩) (fun _ _ he => he) fun _ _ => trivial
    · obtain ⟨s', text, hs', htext, -⟩ := hp
      rw [hs'.unique hs, he] at htext
      cases htext
    · obtain ⟨s', text', hs', htext', hfits⟩ := hp
      rw [hs'.unique hs, htext] at htext'
      cases htext'
      exact he hfits

theorem outcome_put : Proc.Does (· = t) (putMemoryFile maintenance path body)
    (fun r t' => byteSize body ≤ fileLimit scope ∧
      IsText t logical ∧
      ((∃ s, Holds t logical s ∧ universalText s = body ∧ r.changed = false ∧ t' = t) ∨
        ((∀ s, Holds t logical s → universalText s ≠ body) ∧ r.changed = true ∧
          Wrote t logical body t'))) (fun _ _ => True) fun _ => True := by
  refine outcome_start hok (fun _ => trivial) (fits_validateSize (fun _ _ => trivial) fun hsize => ?_)
  have hup := (validateWritePath_ok hok).up
  have hwrite : ∀ same : Bool, IsText t logical →
      (same = true → ∃ s, Holds t logical s ∧ universalText s = body) →
      (same = false → ∀ s, Holds t logical s → universalText s ≠ body) →
      Proc.Does (· = t) (writeChanged (!same) scope logical body >>= fun _ =>
          pure (⟨logical.path, !same, some (byteSize body)⟩ : Result))
        (fun r t' => byteSize body ≤ fileLimit scope ∧
          IsText t logical ∧
          ((∃ s, Holds t logical s ∧ universalText s = body ∧ r.changed = false ∧ t' = t) ∨
            ((∀ s, Holds t logical s → universalText s ≠ body) ∧ r.changed = true ∧ Wrote t logical body t')))
        (fun _ _ => True) fun _ => True := by
    intro same htexts hsame hother
    refine Proc.Does.bind (wrote_writeChanged (validateWritePath_ok hok) fun _ => trivial) fun _ =>
      Proc.does_pure fun t' ht' => ⟨hsize, htexts, ?_⟩
    cases same with
    | true =>
      obtain ⟨s, hs, htext⟩ := hsame rfl
      exact .inl ⟨s, hs, htext, rfl, ht'⟩
    | false => exact .inr ⟨hother rfl, rfl, ht'⟩
  unfold holdsText
  rw [bind_assoc]
  refine observe_bind (fun _ => trivial) trivial ?_
  rw [physicalPath, Tree.isFile_of_notMem hup]
  cases hfile : t.fileAt logical.parts with
  | none =>
    rw [Option.isSome_none, if_neg Bool.false_ne_true, pure_bind]
    refine hwrite false (fun bytes hbytes => ?_) (fun h => absurd h Bool.false_ne_true) fun _ s hs => ?_
    · rw [hfile] at hbytes
      cases hbytes
    · rw [Holds, hfile] at hs
      cases hs
  | some bytes =>
    rw [Option.isSome_some, if_pos rfl]
    unfold readTextAt
    simp only [bind_assoc, pure_bind]
    refine observe_bind (fun _ => trivial) trivial ?_
    rw [Tree.content_of_notMem hup, hfile, Option.getD_some]
    refine demand_bind (fun _ _ => trivial) fun text htext => ?_
    unfold readText at htext
    split at htext
    · rename_i s hs
      cases htext
      have hholds : Holds t logical s := hfile.trans (congrArg some (decodeStrict_eq_some.1 hs))
      refine hwrite _ hholds.isText (fun h => ⟨s, hholds, of_decide_eq_true h⟩) fun h s' hs' => ?_
      rw [hs'.unique hholds]
      exact of_decide_eq_false h
    · cases htext

end Calls
section Possible

/-- Nothing is in the way of a file. -/
def Clear (t : Files.Tree Bytes) (logical : Logical) : Prop :=
  (∀ r, r <+: logical.parts.dropLast → t.fileAt r = none) ∧ t.node logical.parts ≠ some .dir

theorem can_writeChanged {changed : Bool} (hv : logical.Valid scope) (h : Clear t logical) :
    ∃ t', Proc.Can (writeChanged changed scope logical body) t () t' := by
  unfold writeChanged
  cases changed with
  | false => exact ⟨t, Proc.can_pure⟩
  | true =>
    have hparts := hv.parts_eq
    have hup := hv.up
    rw [hparts] at hup
    obtain ⟨t', hcan⟩ := can_atomicWrite (β := Unit) (a := encodeUtf8 body.toList) hup h.1 (by rw [← hparts]; exact h.2)
    refine ⟨t', Proc.Can.bind (f := fun _ => markBriefingDirty scope) (show Proc.Can (writeAtomic _ _) t () t' from ?_) ?_⟩
    · unfold writeAtomic physicalPath
      rw [hparts]
      exact hcan
    · unfold markBriefingDirty
      split
      · exact Proc.can_perform (w := .done) rfl
      · exact Proc.can_pure

theorem can_validateSize (h : Fits t scope logical body) : Proc.Can (validateSize scope logical body) t (byteSize body) t := by
  have hfile : validateFileSize scope logical (byteSize body) = .ok () := by
    unfold validateFileSize
    rw [if_neg (Nat.not_lt.2 h.1)]
    rfl
  unfold validateSize
  refine (can_check hfile).bind ?_
  split
  · rename_i hscope
    obtain ⟨read, hread, htotal⟩ := h.2 hscope
    refine Proc.Can.bind (can_observe _) ?_
    rw [hread]
    refine Proc.Can.bind (show Proc.Can (demand (.ok read)) t read t from Proc.can_pure)
      (Proc.Can.bind (a := ()) (can_check ?_) Proc.can_pure)
    · simp only [validateBriefingTotal, if_neg (Nat.not_lt.2 htotal)]
      rfl
  · exact Proc.can_pure

/-- A file that is written again is charged as before. -/
theorem Fits.again (hv : logical.Valid scope) (h : Fits t scope logical body) (hw : Wrote t logical body t') :
    Fits t' scope logical body := by
  refine ⟨h.1, fun hscope => ?_⟩
  obtain ⟨read, hread, htotal⟩ := h.2 hscope
  have hread₀ : readBriefingEntries t false = .ok (collect t (briefingNames t) {}) :=
    read_eq fun name hname bytes hbytes =>
      let ⟨s, hs⟩ := texts_of_read hread hname hbytes
      ⟨s, hs, nofun⟩
  obtain rfl := Except.ok.inj (hread.symm.trans hread₀)
  have hfiles : ∀ n, t'.fileAt [briefingDir, n] =
      if n = logical.name then some (encodeUtf8 body.toList) else t.fileAt [briefingDir, n] := by
    intro n
    rw [hw, hv.briefing hscope]
    simp
  have hread' : readBriefingEntries t' false = .ok (collect t' (briefingNames t') {}) := by
    refine read_eq fun name hname bytes hbytes => ?_
    rw [hfiles] at hbytes
    split at hbytes
    · cases hbytes
      exact ⟨body, by rw [decodeStrict_encodeUtf8, String.ofList_toList], nofun⟩
    · obtain ⟨s, hs⟩ := texts_of_read hread hname hbytes
      exact ⟨s, hs, nofun⟩
  refine ⟨_, hread', ?_⟩
  rw [byteSize_composeBriefing, cost_simulated hv.topic, cost_rest] at htotal ⊢
  rwa [(rest_eq fun n hn => (hfiles n).trans (if_neg hn)).2]

theorem Clear.again (hv : logical.Valid scope) (h : Clear t logical) (hw : Wrote t logical body t') : Clear t' logical := by
  constructor
  · intro r hr
    rw [hw, if_neg, h.1 r hr]
    rintro rfl
    have hlen := hr.length_le
    rw [hv.parts_eq, List.dropLast_concat, List.length_append, List.length_singleton] at hlen
    omega
  · have hfile := hw logical.parts
    rw [if_pos rfl, Tree.fileAt_eq_some] at hfile
    rw [hfile]
    nofun

variable (hok : validateWritePath maintenance path = .ok (scope, logical))
include hok

theorem can_start {α : Type} {g : Scope × Logical → Task α} {a : α} (h : Proc.Can (g (scope, logical)) t a t') :
    Proc.Can (lock >>= fun _ => check (validateWritePath maintenance path) >>= g) t a t' :=
  (can_observe _).bind ((can_check hok).bind h)

theorem can_read {α : Type} {g : String → Task α} {s : String} {a : α} (hs : Holds t logical s)
    (h : Proc.Can (g (universalText s)) t a t') :
    Proc.Can (isFile (physicalPath logical) >>= fun there => refuse (there = false) (notFound logical) >>= fun _ =>
      readTextAt (physicalPath logical) >>= g) t a t' := by
  have hup := (validateWritePath_ok hok).up
  have hfile : t.fileAt logical.parts = some (encodeUtf8 s.toList) := hs
  refine (can_observe _).bind ((can_refuse ?_).bind (Proc.Can.bind (show Proc.Can _ t (universalText s) t from ?_) h))
  · rw [physicalPath, Tree.isFile_of_notMem hup, hfile]
    exact fun hfalse => by cases hfalse
  · unfold readTextAt
    refine (can_observe _).bind ?_
    rw [physicalPath, Tree.content_of_notMem hup, hfile, Option.getD_some, readText, decodeStrict_encodeUtf8, String.ofList_toList]
    exact Proc.can_pure

theorem can_rewrite {original text : String} (hfits : Fits t scope logical text) (hclear : Clear t logical) :
    ∃ r t', Proc.Can (validateSize scope logical text >>= fun size =>
        writeChanged (text ≠ original) scope logical text >>= fun _ =>
          pure (⟨logical.path, text ≠ original, some size⟩ : Result)) t r t' := by
  obtain ⟨t', hwrite⟩ : ∃ t', Proc.Can (writeChanged (text ≠ original) scope logical text) t () t' :=
    can_writeChanged (validateWritePath_ok hok) hclear
  exact ⟨_, t', (can_validateSize hfits).bind (hwrite.bind Proc.can_pure)⟩

theorem can_append {s text : String} (hs : Holds t logical s) (hfits : Fits t scope logical (universalText s ++ text))
    (hclear : Clear t logical) : ∃ r t', Proc.Can (appendMemoryFile maintenance path text) t r t' := by
  obtain ⟨r, t', h⟩ := @can_rewrite _ _ _ _ _ hok (universalText s) _ hfits hclear
  exact ⟨r, t', can_start hok (can_read hok hs h)⟩

theorem can_patch {s text : String} {patch : Patch} (hs : Holds t logical s)
    (hpatch : applyPatch logical (universalText s) patch = .ok text) (hfits : Fits t scope logical text)
    (hclear : Clear t logical) : ∃ r t', Proc.Can (patchMemoryFile maintenance path [patch]) t r t' := by
  obtain ⟨r, t', h⟩ := @can_rewrite _ _ _ _ _ hok (universalText s) _ hfits hclear
  refine ⟨r, t', can_start hok (can_read hok hs ((can_check ?_).bind h))⟩
  rw [List.foldlM_cons, hpatch]
  rfl

theorem can_put (hfits : Fits t scope logical body) (hclear : Clear t logical)
    (htext : IsText t logical) :
    ∃ r t', Proc.Can (putMemoryFile maintenance path body) t r t' := by
  have hup := (validateWritePath_ok hok).up
  have hholds : ∃ same, Proc.Can (holdsText (physicalPath logical) body) t same t := by
    unfold holdsText
    cases hfile : t.fileAt logical.parts with
    | none =>
      refine ⟨false, Proc.Can.bind (can_observe _) ?_⟩
      rw [physicalPath, Tree.isFile_of_notMem hup, hfile]
      exact Proc.can_pure
    | some bytes =>
      obtain ⟨s, hs⟩ := htext bytes hfile
      refine ⟨universalText s = body, Proc.Can.bind (can_observe _) ?_⟩
      rw [physicalPath, Tree.isFile_of_notMem hup, hfile]
      refine Proc.Can.bind (show Proc.Can (readTextAt _) t (universalText s) t from ?_) Proc.can_pure
      unfold readTextAt
      refine (can_observe _).bind ?_
      rw [Tree.content_of_notMem hup, hfile, Option.getD_some, readText, hs]
      exact Proc.can_pure
  obtain ⟨same, hsame⟩ := hholds
  obtain ⟨t', hwrite⟩ : ∃ t', Proc.Can (writeChanged (!same) scope logical body) t () t' :=
    can_writeChanged (validateWritePath_ok hok) hclear
  exact ⟨_, t', can_start hok ((can_validateSize hfits).bind (hsame.bind (hwrite.bind Proc.can_pure)))⟩

end Possible
end Outcomes
/-- A change of the text at one path. -/
inductive Edit
  | create (body : String)
  | put (body : String)
  | append (text : String)
  | patch (patch : Patch)

def Edit.task (maintenance : Bool) (path : String) : Edit → Task Result
  | .create body => createMemoryFile maintenance path body
  | .put body => putMemoryFile maintenance path body
  | .append text => appendMemoryFile maintenance path text
  | .patch p => patchMemoryFile maintenance path [p]

/-- What the store writes, by the text that it reads. -/
def Writes (t : Files.Tree Bytes) (logical : Logical) (text : String) : Edit → Prop
  | .create body | .put body => text = body
  | .append added => ∃ s, Holds t logical s ∧ text = universalText s ++ added
  | .patch p => ∃ s, Holds t logical s ∧ applyPatch logical (universalText s) p = .ok text

section Fidelity
variable (t : Files.Tree Bytes) (maintenance : Bool) (path : String) (scope : Scope) (logical : Logical)

/-- What the text is to be, by the text that was returned before. -/
def Intended (text : String) : Edit → Prop
  | .create body | .put body => text = body
  | .append added => ∃ before, ReadsAs t path before ∧ text = before ++ added
  | .patch p => ∃ before pre post, ReadsAs t path before ∧ p.oldText ≠ "" ∧
      Once p.oldText.toList before.toList pre post ∧ text = String.ofList (pre ++ (p.newText.toList ++ post))

/-- The text that is read afterwards is the one that was meant; a patch of the only occurrence succeeds, and one of
several is refused; a text that is put again changes nothing. -/
structure Faithful (edit : Edit) : Prop where
  intended : ∀ text, Intended t path text edit → ∀ answers r o, edit.task maintenance path ⟨t, answers⟩ = .ok r o →
    ReadsAs o.state path text
  succeeds : ∀ p text, edit = .patch p → Intended t path text edit →
    (∃ r t', Proc.Can (edit.task maintenance path) t r t') ∧
      ∀ answers e o, edit.task maintenance path ⟨t, answers⟩ = .error (.raised e) o → ∃ reason, e = .os reason
  refuses : ∀ p before, edit = .patch p → ReadsAs t path before → p.oldText ≠ "" →
    Several p.oldText.toList before.toList → ∀ answers r o, edit.task maintenance path ⟨t, answers⟩ ≠ .ok r o
  idempotent : ∀ body, edit = .put body → ∀ answers r o, edit.task maintenance path ⟨t, answers⟩ = .ok r o →
    ∀ answers' r' o', edit.task maintenance path ⟨o.state, answers'⟩ = .ok r' o' →
      r'.changed = false ∧ ∀ q, o'.state.fileAt q = o.state.fileAt q

/-- The texts that are changed as they are read. -/
def Plain : Edit → Prop
  | .create _ => True
  | .put body => IsText t logical →
      '\r' ∉ body.toList ∧ ∀ s, Holds t logical s → universalText s = body → s = body
  | .append text => ∀ s, Holds t logical s → text = "" ∨ '\r' ∉ s.toList
  | .patch p => p.oldText ≠ "" → ∀ before, ReadsAs t path before →
      (∀ pre post, Once p.oldText.toList before.toList pre post → Holds t logical before ∧
        ('\r' ∉ before.toList ∨ p.newText = p.oldText ∧ count p.oldText.toList (universal before.toList) = 1)) ∧
      (Several p.oldText.toList before.toList → Holds t logical before →
        count p.oldText.toList (universal before.toList) ≠ 1)

/-- An edit of a path that is written to, within the sizes that the store checks. -/
structure Editable (edit : Edit) : Prop where
  ok : validateWritePath maintenance path = .ok (scope, logical)
  clear : Clear t logical
  size : ∀ bytes, t.fileAt logical.parts = some bytes → bytes.length ≤ fileLimit scope
  fits : ∀ text, Writes t logical text edit → Fits t scope logical text

variable {t maintenance path scope logical}

theorem Editable.reads {edit : Edit} (h : Editable t maintenance path scope logical edit) {s : String} (hs : Holds t logical s)
    {text : String} : ReadsAs t path text ↔ s = text :=
  readsAs_written h.ok hs (h.size _ hs)

theorem applyPatch_ok {original text : String} {p : Patch} : applyPatch logical original p = .ok text ↔
    p.oldText ≠ "" ∧ count p.oldText.toList original.toList = 1 ∧
      text = String.ofList (replace p.oldText.toList p.newText.toList original.toList) := by
  unfold applyPatch
  by_cases hold : p.oldText = ""
  · rw [if_pos hold]
    exact ⟨nofun, fun h => absurd hold h.1⟩
  · rw [if_neg hold]
    by_cases hzero : count p.oldText.toList original.toList = 0
    · simp only [if_pos hzero]
      exact ⟨nofun, fun h => by omega⟩
    · by_cases hmany : count p.oldText.toList original.toList > 1
      · simp only [if_neg hzero, if_pos hmany]
        exact ⟨nofun, fun h => by omega⟩
      · simp only [if_neg hzero, if_neg hmany]
        constructor
        · intro h
          cases h
          exact ⟨hold, by omega, rfl⟩
        · rintro ⟨-, -, rfl⟩
          rfl

theorem returned {α : Type} {x : Task α} {Q : α → Files.Tree Bytes → Prop} {E : Failure → Files.Tree Bytes → Prop}
    {C : Files.Tree Bytes → Prop}
    (h : Proc.Does (· = t) x Q E C) {answers : List (Answer Unit)} {r : α}
    {o : Ongoing (Answer Unit) (Files.Tree Bytes)}
    (hrun : x ⟨t, answers⟩ = .ok r o) : Q r o.state := by
  have hq := h ⟨t, answers⟩ rfl
  rwa [hrun] at hq

theorem wrote_holds {body : String} {t' : Files.Tree Bytes} (h : Wrote t logical body t') : Holds t' logical body :=
  (h logical.parts).trans (if_pos rfl)

theorem universalText_eq_self_iff {s : String} : universalText s = s ↔ '\r' ∉ s.toList := by
  rw [← universal_eq_self_iff, universalText, ← String.toList_inj, String.toList_ofList]

theorem return_notMem_universalText (s : String) : '\r' ∉ (universalText s).toList := by
  rw [universalText, String.toList_ofList]
  exact return_notMem_universal

section Create
variable {body : String} (h : Editable t maintenance path scope logical (.create body))
include h

theorem faithful_create : Faithful t maintenance path (.create body) where
  intended text htext answers r o hrun := by
    obtain ⟨hsize, hwrote⟩ := returned (outcome_create h.ok) hrun
    exact (readsAs_written h.ok (wrote_holds hwrote) hsize).2 (Eq.symm htext)
  succeeds _ _ he := by cases he
  refuses _ _ he := by cases he
  idempotent _ he := by cases he

end Create

section Put
variable {body : String} (h : Editable t maintenance path scope logical (.put body))
include h

theorem plain_of_put (hf : Faithful t maintenance path (.put body)) : Plain t path logical (.put body) := by
  intro htext
  have hfits := h.fits body rfl
  obtain ⟨r, t', hcan⟩ := can_put h.ok hfits h.clear htext
  obtain ⟨answers, o, hrun, rfl⟩ := hcan.exists_run
  have hreads := hf.intended body rfl answers r o hrun
  obtain ⟨hsize, -, ⟨s, hs, huniv, -, hsame⟩ | ⟨hother, -, hwrote⟩⟩ := returned (outcome_put h.ok) hrun
  · refine ⟨huniv ▸ return_notMem_universalText s, fun s' hs' _ => ?_⟩
    rw [hsame] at hreads
    exact (h.reads hs').1 hreads
  · refine ⟨?_, fun s hs he => absurd he (hother s hs)⟩
    -- the second time the text is compared with itself as it is read
    have hholds := wrote_holds hwrote
    obtain ⟨r', t'', hcan'⟩ := can_put h.ok (hfits.again (validateWritePath_ok h.ok) hwrote)
      (h.clear.again (validateWritePath_ok h.ok) hwrote) hholds.isText
    obtain ⟨answers', o', hrun', -⟩ := hcan'.exists_run
    have hno := (hf.idempotent body rfl answers r o hrun answers' r' o' hrun').1
    obtain ⟨-, -, ⟨s, hs, huniv, -, -⟩ | ⟨-, hyes, -⟩⟩ := returned (outcome_put h.ok) hrun'
    · exact huniv ▸ return_notMem_universalText s
    · rw [hno] at hyes
      cases hyes

theorem faithful_put (hp : Plain t path logical (.put body)) : Faithful t maintenance path (.put body) where
  intended text htext answers r o hrun := by
    subst htext
    obtain ⟨hsize, htexts, ⟨s, hs, huniv, -, hsame⟩ | ⟨-, -, hwrote⟩⟩ := returned (outcome_put h.ok) hrun
    · rw [hsame]
      exact (h.reads hs).2 ((hp htexts).2 s hs huniv)
    · exact (readsAs_written h.ok (wrote_holds hwrote) hsize).2 rfl
  succeeds _ _ he := by cases he
  refuses _ _ he := by cases he
  idempotent body' he answers r o hrun answers' r' o' hrun' := by
    cases he
    obtain ⟨-, htexts, hfirst⟩ := returned (outcome_put h.ok) hrun
    have hthere : ∃ s, Holds o.state logical s ∧ universalText s = body := by
      rcases hfirst with ⟨s, hs, huniv, -, hsame⟩ | ⟨-, -, hwrote⟩
      · exact ⟨s, hsame ▸ hs, huniv⟩
      · exact ⟨body, wrote_holds hwrote, universalText_eq_self_iff.2 (hp htexts).1⟩
    obtain ⟨s, hs, huniv⟩ := hthere
    obtain ⟨-, -, ⟨_, -, -, hno, hsame⟩ | ⟨hother, -, -⟩⟩ := returned (outcome_put h.ok) hrun'
    · exact ⟨hno, fun q => by rw [hsame]⟩
    · exact absurd huniv (hother s hs)

end Put

section Append
variable {added : String} (h : Editable t maintenance path scope logical (.append added))
include h

theorem plain_of_append (hf : Faithful t maintenance path (.append added)) : Plain t path logical (.append added) := by
  intro s hs
  obtain ⟨r, t', hcan⟩ := can_append h.ok hs (h.fits _ ⟨s, hs, rfl⟩) h.clear
  obtain ⟨answers, o, hrun, rfl⟩ := hcan.exists_run
  have hreads := hf.intended (s ++ added) ⟨s, (h.reads hs).2 rfl, rfl⟩ answers r o hrun
  obtain ⟨s', hs', hsize, hwrote⟩ := returned (outcome_append h.ok) hrun
  obtain rfl := hs'.unique hs
  split at hwrote
  · rename_i hsame
    left
    have hlen := congrArg String.length hsame
    rw [String.length_append] at hlen
    exact String.length_eq_zero_iff.1 (by omega)
  · right
    have heq := (readsAs_written h.ok (wrote_holds hwrote) hsize).1 hreads
    exact universalText_eq_self_iff.1 ((String.append_left_inj added).1 heq)

theorem faithful_append (hp : Plain t path logical (.append added)) : Faithful t maintenance path (.append added) where
  intended text htext answers r o hrun := by
    obtain ⟨before, hbefore, rfl⟩ := htext
    obtain ⟨s, hs, hsize, hwrote⟩ := returned (outcome_append h.ok) hrun
    obtain rfl := (h.reads hs).1 hbefore
    rcases hp s hs with hempty | hplain
    · rw [hempty, String.append_empty] at hwrote ⊢
      rw [if_pos rfl] at hwrote
      rw [hwrote]
      exact (h.reads hs).2 rfl
    · rw [universalText_eq_self_iff.2 hplain] at hwrote hsize
      split at hwrote
      · rename_i hsame
        rw [hwrote]
        exact (h.reads hs).2 hsame.symm
      · exact (readsAs_written h.ok (wrote_holds hwrote) hsize).2 rfl
  succeeds _ _ he := by cases he
  refuses _ _ he := by cases he
  idempotent _ he := by cases he

end Append

section Patch
variable {p : Patch} (h : Editable t maintenance path scope logical (.patch p))
include h

theorem plain_of_patch (hf : Faithful t maintenance path (.patch p)) : Plain t path logical (.patch p) := by
  intro hold before hbefore
  constructor
  · intro pre post honce
    have hintended : Intended t path (String.ofList (pre ++ (p.newText.toList ++ post))) (.patch p) :=
      ⟨before, pre, post, hbefore, hold, honce, rfl⟩
    obtain ⟨⟨r, t', hcan⟩, -⟩ := hf.succeeds p _ rfl hintended
    obtain ⟨answers, o, hrun, rfl⟩ := hcan.exists_run
    have hreads := hf.intended _ hintended answers r o hrun
    obtain ⟨s, text, hs, hpatch, hsize, hwrote⟩ := returned (outcome_patch h.ok) hrun
    obtain rfl := (h.reads hs).1 hbefore
    obtain ⟨-, hone, htext⟩ := applyPatch_ok.1 hpatch
    refine ⟨hs, or_iff_not_imp_left.2 fun hreturn => ?_⟩
    rw [universalText, String.toList_ofList] at hone htext
    obtain ⟨pre', post', huniv, hreplace⟩ := match_of_count_eq_one (mt String.toList_eq_nil_iff.1 hold) hone
    rw [hreplace] at htext
    split at hwrote
    · rw [hwrote] at hreads
      have hlist : s.toList = pre ++ (p.newText.toList ++ post) := by
        rw [(h.reads hs).1 hreads, String.toList_ofList]
      have hnew := List.append_cancel_left (hlist.symm.trans honce.1)
      exact ⟨String.toList_inj.1 (List.append_cancel_right hnew), hone⟩
    · -- the returns of the old text are lost, and are not in what was put in its place
      have hlist : pre' ++ (p.newText.toList ++ post') = pre ++ (p.newText.toList ++ post) := by
        have heq := (readsAs_written h.ok (wrote_holds hwrote) hsize).1 hreads
        rwa [htext, ← String.toList_inj, String.toList_ofList, String.toList_ofList] at heq
      have hcount := congrArg (List.count '\r') hlist
      have hnone : '\r' ∉ pre' ++ (p.oldText.toList ++ post') := huniv ▸ return_notMem_universal
      simp only [List.mem_append, not_or] at hnone
      obtain ⟨hpre, hold', hpost⟩ := hnone
      simp only [List.count_append, List.count_eq_zero_of_not_mem hpre, List.count_eq_zero_of_not_mem hpost] at hcount
      refine absurd ?_ hreturn
      rw [honce.1]
      simp only [List.mem_append, not_or]
      exact ⟨List.count_eq_zero.1 (by omega), hold', List.count_eq_zero.1 (by omega)⟩
  · intro hseveral hs hone
    have hpatch : applyPatch logical (universalText before) p = .ok
        (String.ofList (replace p.oldText.toList p.newText.toList (universalText before).toList)) :=
      applyPatch_ok.2 ⟨hold, by rwa [universalText, String.toList_ofList], rfl⟩
    obtain ⟨r, t', hcan⟩ := can_patch h.ok hs hpatch (h.fits _ ⟨before, hs, hpatch⟩) h.clear
    obtain ⟨answers, o, hrun, -⟩ := hcan.exists_run
    exact hf.refuses p before rfl hbefore hold hseveral answers r o hrun

theorem faithful_patch (hp : Plain t path logical (.patch p)) : Faithful t maintenance path (.patch p) where
  intended text htext answers r o hrun := by
    obtain ⟨before, pre, post, hbefore, hold, honce, rfl⟩ := htext
    obtain ⟨hs, hcases⟩ := (hp hold before hbefore).1 pre post honce
    obtain ⟨s, text, hs', hpatch, hsize, hwrote⟩ := returned (outcome_patch h.ok) hrun
    obtain rfl := hs'.unique hs
    obtain ⟨-, hone, rfl⟩ := applyPatch_ok.1 hpatch
    have hne := mt String.toList_eq_nil_iff.1 hold
    rcases hcases with hreturn | ⟨hnew, -⟩
    · rw [universalText_eq_self_iff.2 hreturn, honce.replace hne] at hwrote hsize
      split at hwrote
      · rename_i hsame
        rw [hwrote]
        exact (h.reads hs).2 hsame.symm
      · exact (readsAs_written h.ok (wrote_holds hwrote) hsize).2 rfl
    · obtain ⟨pre', post', huniv, hreplace⟩ := match_of_count_eq_one hne hone
      rw [hreplace, hnew, ← huniv, String.ofList_toList, if_pos rfl] at hwrote
      rw [hwrote, hnew, ← honce.1, String.ofList_toList]
      exact (h.reads hs).2 rfl
  succeeds p' text he htext := by
    cases he
    obtain ⟨before, pre, post, hbefore, hold, honce, -⟩ := htext
    obtain ⟨hs, hcases⟩ := (hp hold before hbefore).1 pre post honce
    have hone : count p.oldText.toList (universalText before).toList = 1 := by
      rw [universalText, String.toList_ofList]
      rcases hcases with hreturn | ⟨-, hone⟩
      · rw [universal_of_notMem hreturn]
        exact honce.count (mt String.toList_eq_nil_iff.1 hold)
      · exact hone
    have hpatch : applyPatch logical (universalText before) p = .ok _ := applyPatch_ok.2 ⟨hold, hone, rfl⟩
    have hfits := h.fits _ ⟨before, hs, hpatch⟩
    refine ⟨can_patch h.ok hs hpatch hfits h.clear, fun answers e o hrun => ?_⟩
    have herror := @outcome_patch t maintenance path scope logical h.ok p ⟨t, answers⟩ rfl
    rw [show patchMemoryFile maintenance path [p] ⟨t, answers⟩ = _ from hrun] at herror
    exact herror ⟨before, _, hs, hpatch, hfits⟩
  refuses p' before he hbefore hold hseveral answers r o hrun := by
    cases he
    obtain ⟨s, text, hs, hpatch, -, -⟩ := returned (outcome_patch h.ok) hrun
    obtain rfl := (h.reads hs).1 hbefore
    obtain ⟨-, hone, -⟩ := applyPatch_ok.1 hpatch
    rw [universalText, String.toList_ofList] at hone
    exact (hp hold s hbefore).2 hseveral hs hone
  idempotent _ he := by cases he

end Patch

/-- The store does what was meant, by the text as it is read, exactly with the texts that it changes as they are read. -/
theorem text_faithful_iff {edit : Edit} (h : Editable t maintenance path scope logical edit) :
    Faithful t maintenance path edit ↔ Plain t path logical edit := by
  cases edit with
  | create body => exact ⟨fun _ => trivial, fun _ => faithful_create h⟩
  | put body => exact ⟨plain_of_put h, faithful_put h⟩
  | append added => exact ⟨plain_of_append h, faithful_append h⟩
  | patch p => exact ⟨plain_of_patch h, faithful_patch h⟩

end Fidelity

section Returns

/-- A note whose two lines end as they do on another system. -/
def note : Files.Tree Bytes :=
  ((Tree.empty.mkdir ["notes"]).bind fun t => t.write ["notes", "a.md"] (encodeUtf8 "a\r\nb".toList)).getD Tree.empty

def notePath : Logical := ⟨"notes/a.md", ["notes", "a.md"]⟩

theorem note_holds : Holds note notePath "a\r\nb" := by rfl

theorem note_editable : Editable note false "notes/a.md" .notes notePath (.append "c") where
  ok := by rfl
  clear := by
    refine ⟨fun r hr => ?_, by decide +kernel⟩
    have hmem := (List.mem_inits r _).2 hr
    have hr' : r = [] ∨ r = ["notes"] := by simpa [notePath] using hmem
    rcases hr' with rfl | rfl <;> rfl
  size bytes hbytes := by
    rw [← Option.some.inj (note_holds.symm.trans hbytes)]
    decide +kernel
  fits text htext := by
    obtain ⟨s, hs, rfl⟩ := htext
    rw [hs.unique note_holds]
    exact ⟨by decide +kernel, nofun⟩

/-- The lines that were there are changed. -/
theorem append_rewrites_lines : ¬ Faithful note false "notes/a.md" (.append "c") := fun hf => by
  rcases plain_of_append note_editable hf _ note_holds with h | h
  · exact absurd h (by decide)
  · exact absurd h (by decide)

theorem text_faithful_iff_note : Faithful note false "notes/a.md" (.append "c") ↔
    Plain note "notes/a.md" notePath (.append "c") := text_faithful_iff note_editable

end Returns
end PuffoAgent.Memory
