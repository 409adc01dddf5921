import PuffoAgent.Crypto.BackupKey

/-! The key for the backups is one: whatever the processes do that open it at the same time, every call that returns a key
returns the same, which is in place from then on. -/
namespace PuffoAgent.Crypto
open Files Machine

section Custody
variable {slug : String} {calls : Nat → KeyCall} {t t' : Links String KeyFile} {s : KeyDirectory}

theorem temporaryPath_ne (slug : String) (call : KeyCall) : temporaryPath slug call ≠ keyFileName slug := by
  intro h
  have hlen := congrArg String.length h
  simp only [temporaryPath, String.length_append] at hlen
  have hdot : ".".length = 1 := rfl
  omega

/-- The key is in place. -/
def Held (slug : String) (t : Links String KeyFile) (key : List UInt8) : Prop :=
  ∃ i f, t.name (keyFileName slug) = some i ∧ t.files[i]? = some f ∧ f.bytes = key

/-- What is in place stays in place. -/
def Stable (slug : String) (t t' : Links String KeyFile) : Prop :=
  ∀ i, t.name (keyFileName slug) = some i → t'.name (keyFileName slug) = some i ∧ t'.files[i]? = t.files[i]?

theorem Stable.trans {t'' : Links String KeyFile} (h : Stable slug t t') (h' : Stable slug t' t'') : Stable slug t t'' := by
  intro i hi
  obtain ⟨hi', hf⟩ := h i hi
  obtain ⟨hi'', hf'⟩ := h' i hi'
  exact ⟨hi'', hf'.trans hf⟩

theorem Held.later {key : List UInt8} (h : Held slug t key) (hs : Stable slug t t') : Held slug t' key := by
  obtain ⟨i, f, hi, hf, hk⟩ := h
  obtain ⟨hi', hf'⟩ := hs i hi
  exact ⟨i, f, hi', hf'.trans hf, hk⟩

/-- The file that a process is making, and how much of the key it has. -/
def Stage.written : Stage → Option (Nat × Nat)
  | .fchmod i => some (i, 0)
  | .writing i n => some (i, n)
  | .fsync i | .linking i => some (i, 32)
  | _ => none

/-- What a process may rely on where it stands. `fresh` is whether there was no key at first. -/
def Stage.Fits (slug : String) (fresh : Prop) (key : List UInt8) (t : Links String KeyFile) : Stage → Prop
  | .lstat last => last = true → ∃ i, t.name (keyFileName slug) = some i
  | .opening _ before => t.name (keyFileName slug) = some before
  | .fstat _ before i => t.name (keyFileName slug) = some before ∧ i = before
  | .reading _ i read => t.name (keyFileName slug) = some i ∧
    ∃ f, t.files[i]? = some f ∧ read = f.bytes.take read.length ∧ read.length ≤ 32
  | .writing _ n => n < 32
  | .publishing => Held slug t key
  | .unlinking (.ok k) | .finished (.ok k) => Held slug t k ∧ k.length = 32
  | .unlinking (.error e) | .finished (.error e) => fresh → e = .os ∨ e = .taken ∨ messageBackupDekPath slug = .error e
  | _ => True

theorem Stage.Fits.later {fresh : Prop} {key : List UInt8} {stage : Stage} (h : stage.Fits slug fresh key t)
    (hs : Stable slug t t') : stage.Fits slug fresh key t' := by
  cases stage with
  | lstat last =>
    intro hl
    obtain ⟨i, hi⟩ := h hl
    exact ⟨i, (hs i hi).1⟩
  | opening last before => exact (hs before h).1
  | fstat last before i => exact ⟨(hs before h.1).1, h.2⟩
  | reading last i read =>
    obtain ⟨hi, f, hf, hread⟩ := h
    exact ⟨(hs i hi).1, f, (hs i hi).2.trans hf, hread⟩
  | publishing => exact Held.later h hs
  | unlinking outcome | finished outcome =>
    cases outcome with
    | ok k => exact ⟨h.1.later hs, h.2⟩
    | error e => exact h
  | creating | fchmod | writing | fsync | linking | crashed => exact h

/-- What every run keeps, from the links `t₀` on. -/
structure KeyDirectory.Sound (slug : String) (calls : Nat → KeyCall) (t₀ : Links String KeyFile) (s : KeyDirectory) : Prop where
  stable : Stable slug t₀ s.links
  /-- A process has what it writes under a name of its own, and nobody else has the file. -/
  own : ∀ c i n, (s.stage c).written = some (i, n) → s.links.name (temporaryPath slug (calls c)) = some i ∧
    s.links.files[i]? = some ⟨true, false, (calls c).key.take n⟩ ∧ s.links.name (keyFileName slug) ≠ some i
  apart : ∀ c c' i n n', (s.stage c).written = some (i, n) → (s.stage c').written = some (i, n') → c = c'
  whole : t₀.name (keyFileName slug) = none → ∀ i, s.links.name (keyFileName slug) = some i →
    ∃ c, s.links.files[i]? = some ⟨true, false, (calls c).key⟩
  fits : ∀ c, (s.stage c).Fits slug (t₀.name (keyFileName slug) = none) (calls c).key s.links

section Moves
variable {t₀ : Links String KeyFile} {c : Nat} {stage : Stage}

/-- One process moves on. -/
theorem KeyDirectory.Sound.move (h : s.Sound slug calls t₀) (hs : Stable slug s.links t')
    (hothers : ∀ c' i n, c' ≠ c → (s.stage c').written = some (i, n) → t'.name (temporaryPath slug (calls c')) = some i ∧
      t'.files[i]? = s.links.files[i]? ∧ t'.name (keyFileName slug) ≠ some i)
    (hmine : ∀ i n, stage.written = some (i, n) → (t'.name (temporaryPath slug (calls c)) = some i ∧
      t'.files[i]? = some ⟨true, false, (calls c).key.take n⟩ ∧ t'.name (keyFileName slug) ≠ some i) ∧
      ∀ c' n', c' ≠ c → (s.stage c').written ≠ some (i, n'))
    (hwhole : ∀ i, t'.name (keyFileName slug) = some i → s.links.name (keyFileName slug) = some i ∨
      ∃ c, t'.files[i]? = some ⟨true, false, (calls c).key⟩)
    (hfits : stage.Fits slug (t₀.name (keyFileName slug) = none) (calls c).key t') :
    KeyDirectory.Sound slug calls t₀ ⟨t', Function.update s.stage c stage⟩ where
  stable := h.stable.trans hs
  own := by
    intro c' i n hw
    dsimp only at hw
    rw [Function.update_apply] at hw
    split at hw
    · rename_i hc
      subst hc
      exact (hmine i n hw).1
    · rename_i hc
      obtain ⟨hname, hfile, hpath⟩ := hothers c' i n hc hw
      exact ⟨hname, hfile.trans (h.own c' i n hw).2.1, hpath⟩
  apart := by
    intro c₁ c₂ i n n' h₁ h₂
    dsimp only at h₁ h₂
    rw [Function.update_apply] at h₁ h₂
    split at h₁
    · rename_i hc₁
      split at h₂
      · rename_i hc₂
        exact hc₁.trans hc₂.symm
      · rename_i hc₂
        exact absurd h₂ ((hmine i n h₁).2 c₂ n' hc₂)
    · rename_i hc₁
      split at h₂
      · exact absurd h₁ ((hmine i n' h₂).2 c₁ n hc₁)
      · exact h.apart c₁ c₂ i n n' h₁ h₂
  whole := by
    intro hfresh i hi
    rcases hwhole i hi with hold | hnew
    · obtain ⟨c', hc'⟩ := h.whole hfresh i hold
      exact ⟨c', (hs i hold).2.trans hc'⟩
    · exact hnew
  fits := by
    intro c'
    dsimp only
    rw [Function.update_apply]
    split
    · rename_i hc
      subst hc
      exact hfits
    · exact (h.fits c').later hs

/-- The files stay as they are. -/
theorem KeyDirectory.Sound.restage (h : s.Sound slug calls t₀) (c : Nat)
    (hw : ∀ i n, stage.written = some (i, n) → (s.stage c).written = some (i, n))
    (hfits : stage.Fits slug (t₀.name (keyFileName slug) = none) (calls c).key s.links) :
    KeyDirectory.Sound slug calls t₀ ⟨s.links, Function.update s.stage c stage⟩ := by
  refine h.move (fun i hi => ⟨hi, rfl⟩) (fun c' i n _ hn => ?_) (fun i n hn => ⟨h.own c i n (hw i n hn), ?_⟩)
    (fun i hi => .inl hi) hfits
  · obtain ⟨hname, -, hpath⟩ := h.own c' i n hn
    exact ⟨hname, rfl, hpath⟩
  · intro c' n' hc hn'
    exact hc (h.apart c' c i n' n hn' (hw i n hn))

/-- The outcome of a read is what `leave` makes of it. -/
theorem fits_leave {last : Bool} {outcome : Except KeyError (List UInt8)} {fresh : Prop} {key : List UInt8}
    (h : (Stage.finished outcome).Fits slug fresh key t) : (Stage.leave last outcome).Fits slug fresh key t := by
  unfold Stage.leave
  split
  · cases outcome <;> exact h
  · exact h

theorem leave_written {last : Bool} {outcome : Except KeyError (List UInt8)} : (Stage.leave last outcome).written = none := by
  unfold Stage.leave
  split <;> rfl

theorem absent_written {last : Bool} : (Stage.absent last).written = none := by
  unfold Stage.absent
  split <;> rfl

/-- Where there was no key at first, the one in place is whole and private. -/
theorem KeyDirectory.Sound.private_ (h : s.Sound slug calls t₀) (hfresh : t₀.name (keyFileName slug) = none) {i : Nat}
    {f : KeyFile} (hi : s.links.name (keyFileName slug) = some i) (hf : s.links.files[i]? = some f) :
    f.regular = true ∧ f.exposed = false ∧ f.bytes.length = 32 := by
  obtain ⟨c, hc⟩ := h.whole hfresh i hi
  obtain rfl := Option.some.inj (hf.symm.trans hc)
  exact ⟨rfl, rfl, (calls c).sized⟩

theorem fits_absent {last : Bool} {fresh : Prop} {key : List UInt8} (hl : last = true → ∃ i, t.name (keyFileName slug) = some i)
    (hn : t.name (keyFileName slug) = none) : (Stage.absent last).Fits slug fresh key t := by
  unfold Stage.absent
  split
  · rename_i hlast
    obtain ⟨i, hi⟩ := hl hlast
    rw [hn] at hi
    cases hi
  · trivial

/-- What has been read is checked at its end. -/
theorem fits_sized {fresh : Prop} {key read : List UInt8} {i : Nat} {f : KeyFile}
    (hi : t.name (keyFileName slug) = some i) (hf : t.files[i]? = some f)
    (hread : read = f.bytes ∨ 32 < read.length ∧ read.length ≤ f.bytes.length) (hsized : fresh → f.bytes.length = 32) :
    (Stage.finished (sized read)).Fits slug fresh key t := by
  unfold sized
  split
  · rename_i hlen
    intro hfresh
    have hwhole := hsized hfresh
    rcases hread with rfl | ⟨hlong, hle⟩
    · exact absurd hwhole hlen
    · omega
  · rename_i hlen
    refine ⟨⟨i, f, hi, hf, ?_⟩, not_not.1 hlen⟩
    rcases hread with rfl | ⟨hlong, -⟩
    · rfl
    · omega

theorem KeyDirectory.Sound.fits_readStep (h : s.Sound slug calls t₀) {fresh : Prop}
    (hfresh : fresh ↔ t₀.name (keyFileName slug) = none) {key : List UInt8} (count : Nat)
    (hfits : stage.Fits slug fresh key s.links) : (readStep slug s.links count stage).Fits slug fresh key s.links := by
  cases stage with
  | lstat last =>
    rw [readStep]
    split
    · exact fits_absent hfits ‹_›
    · rename_i i hi
      split
      · rename_i hnone
        have hlt := s.links.linked _ i hi
        rw [List.getElem?_eq_getElem hlt] at hnone
        cases hnone
      · rename_i f hf
        split
        · rename_i hregular
          refine fits_leave fun hf' => ?_
          rw [(h.private_ (hfresh.1 hf') hi hf).1] at hregular
          cases hregular
        split
        · rename_i hexposed
          refine fits_leave fun hf' => ?_
          rw [(h.private_ (hfresh.1 hf') hi hf).2.1] at hexposed
          cases hexposed
        · exact hi
  | opening last before =>
    have hbefore : s.links.name (keyFileName slug) = some before := hfits
    rw [readStep]
    rw [hbefore]
    exact ⟨hbefore, rfl⟩
  | fstat last before i =>
    obtain ⟨hi, rfl⟩ : s.links.name (keyFileName slug) = some before ∧ i = before := hfits
    rw [readStep]
    have hlt := s.links.linked _ i hi
    split
    · rename_i hnone
      rw [List.getElem?_eq_getElem hlt] at hnone
      cases hnone
    · rename_i f hf
      split
      · rename_i hbad
        refine fits_leave fun hf' => ?_
        obtain ⟨hregular, hexposed, -⟩ := h.private_ (hfresh.1 hf') hi hf
        simp [hregular, hexposed] at hbad
      · exact ⟨hi, f, hf, rfl, Nat.zero_le _⟩
  | reading last i read =>
    obtain ⟨hi, f, hf, hread, hlen⟩ : s.links.name (keyFileName slug) = some i ∧
      ∃ f, s.links.files[i]? = some f ∧ read = f.bytes.take read.length ∧ read.length ≤ 32 := hfits
    have hsized (hf' : fresh) : f.bytes.length = 32 := (h.private_ (hfresh.1 hf') hi hf).2.2
    have hle : read.length ≤ f.bytes.length := by
      have := congrArg List.length hread
      rw [List.length_take] at this
      omega
    rw [readStep]
    rw [hf, Option.map_some, Option.getD_some]
    generalize hchunk : (f.bytes.drop read.length).take (max 1 (min count 64)) = chunk
    have hjoin : read ++ chunk = f.bytes.take (read ++ chunk).length := by
      have hsplit : read ++ chunk <+: f.bytes := by
        rw [← hchunk, hread, List.length_take, Nat.min_eq_left hle]
        nth_rewrite 3 [← List.take_append_drop read.length f.bytes]
        exact (List.prefix_append_right_inj _).2 (List.take_prefix _ _)
      exact List.prefix_iff_eq_take.1 hsplit
    split
    · rename_i hempty
      refine fits_leave (fits_sized hi hf (.inl ?_) hsized)
      have hend : f.bytes.drop read.length = [] := by
        rw [hempty, List.take_eq_nil_iff] at hchunk
        exact hchunk.resolve_left (by omega)
      rw [hread, List.take_of_length_le (by simpa using hend)]
    split
    · rename_i hlong
      refine fits_leave (fits_sized hi hf (.inr ⟨hlong, ?_⟩) hsized)
      have := congrArg List.length hjoin
      rw [List.length_take] at this
      omega
    · rename_i hshort
      exact ⟨hi, f, hf, hjoin, Nat.not_lt.1 hshort⟩
  | creating | fchmod | writing | fsync | linking | publishing | unlinking | finished | crashed => exact hfits

theorem readStep_written {count : Nat} : (readStep slug t count stage).written = none ∨ readStep slug t count stage = stage := by
  cases stage with
  | lstat last =>
    refine .inl ?_
    rw [readStep]
    split
    · exact absent_written
    · split
      · exact absent_written
      · split
        · exact leave_written
        · split
          · exact leave_written
          · rfl
  | opening last before =>
    refine .inl ?_
    rw [readStep]
    split
    · exact absent_written
    · rfl
  | fstat last before i =>
    refine .inl ?_
    rw [readStep]
    split
    · exact leave_written
    · split
      · exact leave_written
      · rfl
  | reading last i read =>
    refine .inl ?_
    rw [readStep]
    split
    · exact leave_written
    · split
      · exact leave_written
      · rfl
  | creating | fchmod | writing | fsync | linking | publishing | unlinking | finished | crashed => exact .inr rfl

section Writes
variable (hnames : Function.Injective fun c => temporaryPath slug (calls c))
include hnames

theorem temporaryPath_ne_of_ne {c c' : Nat} (h : c' ≠ c) : temporaryPath slug (calls c') ≠ temporaryPath slug (calls c) :=
  fun he => h (hnames he)

/-- A process makes a file under a name of its own. -/
theorem KeyDirectory.Sound.create (h : s.Sound slug calls t₀)
    (ht : s.links.create (temporaryPath slug (calls c)) ⟨true, false, []⟩ = some t') :
    KeyDirectory.Sound slug calls t₀ ⟨t', Function.update s.stage c (.fchmod s.links.files.length)⟩ := by
  obtain ⟨hnone, hfiles, hname⟩ := Links.create_eq_some ht
  have hpath : t'.name (keyFileName slug) = s.links.name (keyFileName slug) := by
    rw [hname, Function.update_of_ne (temporaryPath_ne _ _).symm]
  have hold (i : Nat) (hi : i < s.links.files.length) : t'.files[i]? = s.links.files[i]? := by
    rw [hfiles, List.getElem?_append_left hi]
  have hnew : s.links.name (keyFileName slug) ≠ some s.links.files.length := fun hi =>
    Nat.lt_irrefl _ (s.links.linked _ _ hi)
  refine h.move (fun i hi => ⟨hpath.trans hi, hold i (s.links.linked _ i hi)⟩) (fun c' i n hc hw => ?_)
    (fun i n hw => ?_) (fun i hi => .inl (hpath.symm.trans hi)) trivial
  · obtain ⟨hn, -, hp⟩ := h.own c' i n hw
    refine ⟨?_, hold i (s.links.linked _ i hn), by rwa [hpath]⟩
    rw [hname, Function.update_of_ne (temporaryPath_ne_of_ne hnames hc)]
    exact hn
  · cases hw
    refine ⟨⟨?_, ?_, by rwa [hpath]⟩, fun c' n' _ hw' => ?_⟩
    · rw [hname, Function.update_self]
    · rw [hfiles, List.getElem?_append_right (Nat.le_refl _), Nat.sub_self]
      rfl
    · exact Nat.lt_irrefl _ (s.links.linked _ _ (h.own c' _ n' hw').1)

omit hnames in
/-- A process changes the file that it makes. -/
theorem KeyDirectory.Sound.change (h : s.Sound slug calls t₀) {i n m : Nat} (hw : (s.stage c).written = some (i, n))
    {f : KeyFile → KeyFile} (hf : f ⟨true, false, (calls c).key.take n⟩ = ⟨true, false, (calls c).key.take m⟩)
    (hm : ∀ j k, stage.written = some (j, k) → j = i ∧ k = m)
    (hfits : ∀ t', stage.Fits slug (t₀.name (keyFileName slug) = none) (calls c).key t') :
    KeyDirectory.Sound slug calls t₀ ⟨s.links.change i f, Function.update s.stage c stage⟩ := by
  obtain ⟨hname, hfile, hpath⟩ := h.own c i n hw
  have hkeep (j : Nat) (hj : s.links.name (keyFileName slug) = some j) :
      (s.links.change i f).files[j]? = s.links.files[j]? := by
    refine Links.change_other f ?_
    rintro rfl
    exact hpath hj
  refine h.move (fun j hj => ⟨hj, hkeep j hj⟩) (fun c' j k hc hk => ?_) (fun j k hk => ?_) (fun j hj => .inl hj) (hfits _)
  · obtain ⟨hn, -, hp⟩ := h.own c' j k hk
    refine ⟨hn, Links.change_other f ?_, hp⟩
    rintro rfl
    exact hc (h.apart c' c i k n hk hw)
  · obtain ⟨rfl, rfl⟩ := hm j k hk
    refine ⟨⟨hname, ?_, hpath⟩, fun c' n' hc hw' => hc (h.apart c' c j n' n hw' hw)⟩
    rw [Links.change_self f hfile, hf]

omit hnames in
/-- The key is linked into place, where there is none. -/
theorem KeyDirectory.Sound.link (h : s.Sound slug calls t₀) {i : Nat} (hw : (s.stage c).written = some (i, 32))
    (ht : s.links.link (temporaryPath slug (calls c)) (keyFileName slug) = some t') :
    KeyDirectory.Sound slug calls t₀ ⟨t', Function.update s.stage c .publishing⟩ := by
  obtain ⟨hnone, -, hfiles, hname⟩ := Links.link_eq_some ht
  obtain ⟨hn, hfile, -⟩ := h.own c i 32 hw
  have hkey : (calls c).key.take 32 = (calls c).key := List.take_of_length_le (Nat.le_of_eq (calls c).sized)
  have hpath : t'.name (keyFileName slug) = some i := by rw [hname, Function.update_self, hn]
  have hfile' : t'.files[i]? = some ⟨true, false, (calls c).key⟩ := by rw [hfiles, hfile, hkey]
  refine h.move (fun j hj => ?_) (fun c' j k hc hk => ?_) (fun j k hk => ?_) (fun j hj => ?_)
    ⟨i, _, hpath, hfile', rfl⟩
  · rw [hnone] at hj
    cases hj
  · obtain ⟨hn', -, -⟩ := h.own c' j k hk
    refine ⟨?_, by rw [hfiles], fun hj => ?_⟩
    · rw [hname, Function.update_of_ne (temporaryPath_ne _ _)]
      exact hn'
    · obtain rfl := Option.some.inj (hpath.symm.trans hj)
      exact hc (h.apart c' c i k 32 hk hw)
  · cases hk
  · obtain rfl := Option.some.inj (hpath.symm.trans hj)
    exact .inr ⟨c, hfile'⟩

theorem KeyDirectory.Sound.unlink (h : s.Sound slug calls t₀) {outcome : Except KeyError (List UInt8)}
    (hfits : (Stage.finished outcome).Fits slug (t₀.name (keyFileName slug) = none) (calls c).key s.links) :
    KeyDirectory.Sound slug calls t₀ ⟨s.links.unlink (temporaryPath slug (calls c)), Function.update s.stage c (.finished outcome)⟩ := by
  have hpath : (s.links.unlink (temporaryPath slug (calls c))).name (keyFileName slug) =
      s.links.name (keyFileName slug) := Function.update_of_ne (temporaryPath_ne _ _).symm _ _
  have hs : Stable slug s.links (s.links.unlink (temporaryPath slug (calls c))) := fun i hi => ⟨hpath.trans hi, rfl⟩
  refine h.move hs (fun c' i n hc hw => ?_) (fun i n hw => ?_) (fun i hi => .inl (hpath.symm.trans hi)) (hfits.later hs)
  · obtain ⟨hn, -, hp⟩ := h.own c' i n hw
    exact ⟨(Function.update_of_ne (temporaryPath_ne_of_ne hnames hc) _ _).trans hn, rfl, by rwa [hpath]⟩
  · cases hw

omit hnames in
theorem KeyDirectory.Sound.read (h : s.Sound slug calls t₀) (c count : Nat) :
    KeyDirectory.Sound slug calls t₀ ⟨s.links, Function.update s.stage c (readStep slug s.links count (s.stage c))⟩ := by
  refine h.restage c (fun i n hw => ?_) (h.fits_readStep Iff.rfl count (h.fits c))
  rcases @readStep_written slug s.links (s.stage c) count with hnone | hsame
  · rw [hnone] at hw
    cases hw
  · rwa [hsame] at hw

theorem KeyDirectory.Sound.workStep (h : s.Sound slug calls t₀) (c count : Nat) :
    KeyDirectory.Sound slug calls t₀ ⟨(workStep slug (calls c) s.links count (s.stage c)).1,
      Function.update s.stage c (workStep slug (calls c) s.links count (s.stage c)).2⟩ := by
  have hfits := h.fits c
  cases hstage : s.stage c with
  | creating =>
    rw [Crypto.workStep]
    split
    · exact h.restage c (fun i n hw => by cases hw) fun _ => .inr (.inl rfl)
    · exact h.create hnames ‹_›
  | fchmod i =>
    exact h.change (by rw [hstage]; rfl) rfl (fun j k hw => by cases hw; exact ⟨rfl, rfl⟩) fun _ => (by decide : 0 < 32)
  | writing i n =>
    rw [hstage] at hfits
    have hlt : n < 32 := hfits
    rw [Crypto.workStep]
    generalize hchunk : ((calls c).key.drop n).take count = chunk
    have hjoin : (calls c).key.take n ++ chunk = (calls c).key.take (n + chunk.length) := by
      rw [← hchunk, List.length_take, List.take_add]
      congr 1
      rw [List.take_eq_take_min]
    dsimp only
    split
    · exact h.restage c (fun i n hw => by cases hw) fun _ => .inl rfl
    split
    · rename_i hmore
      rw [(calls c).sized] at hmore
      exact h.change (by rw [hstage]; rfl) (congrArg (KeyFile.mk true false) hjoin)
        (fun j k hw => by cases hw; exact ⟨rfl, rfl⟩) fun _ => hmore
    · rename_i hdone
      rw [(calls c).sized] at hdone
      refine h.change (by rw [hstage]; rfl) (m := 32) (congrArg (KeyFile.mk true false) ?_)
        (fun j k hw => by cases hw; exact ⟨rfl, rfl⟩) fun _ => trivial
      rw [hjoin, List.take_of_length_le (by rw [(calls c).sized]; omega),
        List.take_of_length_le (Nat.le_of_eq (calls c).sized)]
  | fsync i =>
    refine h.restage c (fun j n hw => ?_) trivial
    rw [hstage]
    exact hw
  | linking i =>
    rw [Crypto.workStep]
    split
    · rename_i htaken
      exact h.restage c (fun i n hw => by cases hw) fun _ => Option.isSome_iff_exists.1 htaken
    · rename_i hfree
      obtain ⟨hn, -, -⟩ := h.own c i 32 (by rw [hstage]; rfl)
      split
      · rename_i hlink
        unfold Links.link at hlink
        simp [hfree, hn] at hlink
      · exact @KeyDirectory.Sound.link _ _ _ _ _ c h i (by rw [hstage]; rfl) ‹_›
  | publishing =>
    rw [hstage] at hfits
    exact h.restage c (fun i n hw => by cases hw) ⟨hfits, (calls c).sized⟩
  | unlinking outcome =>
    rw [hstage] at hfits
    refine h.unlink hnames ?_
    cases outcome <;> exact hfits
  | lstat | opening | fstat | reading | finished | crashed =>
    have hread := h.read c count
    rw [hstage] at hread
    exact hread

end Writes

end Moves

section Runs
variable {t₀ : Links String KeyFile}

theorem KeyDirectory.Sound.failStep (h : s.Sound slug calls t₀) (c : Nat) :
    KeyDirectory.Sound slug calls t₀ ⟨s.links, Function.update s.stage c (failStep (calls c) (s.stage c))⟩ := by
  have hfits := h.fits c
  cases hstage : s.stage c with
  | lstat | opening | fstat | reading =>
    refine h.restage c (fun i n hw => ?_) (fits_leave fun _ => .inl rfl)
    rw [Crypto.failStep, leave_written] at hw
    cases hw
  | creating | fchmod | writing | fsync | linking => exact h.restage c (fun i n hw => by cases hw) fun _ => .inl rfl
  | publishing =>
    rw [hstage] at hfits
    exact h.restage c (fun i n hw => by cases hw) ⟨hfits, (calls c).sized⟩
  | unlinking outcome => exact h.restage c (fun i n hw => by cases hw) fun _ => .inl rfl
  | finished outcome =>
    rw [hstage] at hfits
    exact h.restage c (fun i n hw => by cases hw) hfits
  | crashed => exact h.restage c (fun i n hw => by cases hw) trivial

theorem KeyDirectory.Sound.step (hnames : Function.Injective fun c => temporaryPath slug (calls c))
    (h : s.Sound slug calls t₀) (e : Nat × Reply) : (s.step slug calls e).Sound slug calls t₀ := by
  unfold KeyDirectory.step
  split
  · exact h
  · exact h
  · split
    · exact h.workStep hnames e.1 _
    · exact h.failStep e.1
    · exact h.restage e.1 (fun i n hw => by cases hw) trivial

theorem firstStage_written : (firstStage slug).written = none := by
  unfold firstStage
  split <;> rfl

theorem firstStage_fits {fresh : Prop} {key : List UInt8} : (firstStage slug).Fits slug fresh key t := by
  unfold firstStage
  split
  · nofun
  · rename_i e he
    exact fun _ => .inr (.inr he)

theorem sound_start (links : Links String KeyFile) : (KeyDirectory.start slug links).Sound slug calls links where
  stable := fun i hi => ⟨hi, rfl⟩
  own := fun c i n hw => by
    rw [show (KeyDirectory.start slug links).stage c = firstStage slug from rfl, firstStage_written] at hw
    cases hw
  apart := fun c c' i n n' hw => by
    rw [show (KeyDirectory.start slug links).stage c = firstStage slug from rfl, firstStage_written] at hw
    cases hw
  whole := fun hfresh i hi => by
    rw [show (KeyDirectory.start slug links).links = links from rfl, hfresh] at hi
    cases hi
  fits := fun _ => firstStage_fits

/-- A run may be taken up where it stands. -/
theorem KeyDirectory.Sound.rebase (h : s.Sound slug calls t₀) : s.Sound slug calls s.links where
  stable := fun i hi => ⟨hi, rfl⟩
  own := h.own
  apart := h.apart
  whole := fun hfresh i hi => by
    rw [hfresh] at hi
    cases hi
  fits := by
    intro c
    have hfresh (hn : s.links.name (keyFileName slug) = none) : t₀.name (keyFileName slug) = none := by
      cases hi : t₀.name (keyFileName slug) with
      | none => rfl
      | some i => exact (h.stable i hi).1.symm.trans hn
    have hfits := h.fits c
    cases hstage : s.stage c with
    | unlinking outcome | finished outcome =>
      rw [hstage] at hfits
      cases outcome with
      | ok k => exact hfits
      | error e => exact fun hn => hfits (hfresh hn)
    | lstat | opening | fstat | reading | creating | fchmod | writing | fsync | linking | publishing | crashed =>
      rw [hstage] at hfits
      exact hfits

theorem KeyDirectory.Sound.run (hnames : Function.Injective fun c => temporaryPath slug (calls c))
    (h : s.Sound slug calls t₀) (events : List (Nat × Reply)) : (run (KeyDirectory.step slug calls) s events).Sound slug calls t₀ :=
  run_invariant h (fun _ e hs => hs.step hnames e) events

theorem held_inj {k k' : List UInt8} (h : Held slug t k) (h' : Held slug t k') : k = k' := by
  obtain ⟨i, f, hi, hf, rfl⟩ := h
  obtain ⟨j, g, hj, hg, rfl⟩ := h'
  obtain rfl := Option.some.inj (hi.symm.trans hj)
  rw [Option.some.inj (hf.symm.trans hg)]

/-- A key that one call has returned is in place from then on, and no other call, before or after, returns another: in
whatever order the processes go on, and whichever of their system calls fail or are their last. -/
theorem backup_key_stays (slug : String) (calls : Nat → KeyCall)
    (hnames : Function.Injective fun c => temporaryPath slug (calls c)) (links : Links String KeyFile)
    (events later : List (Nat × Reply)) (c : Nat) (k : List UInt8)
    (hk : (Machine.run (KeyDirectory.step slug calls) (.start slug links) events).stage c = .finished (.ok k)) :
    k.length = 32 ∧ Held slug (Machine.run (KeyDirectory.step slug calls) (.start slug links) (events ++ later)).links k ∧
      ∀ c' k', (Machine.run (KeyDirectory.step slug calls) (.start slug links) (events ++ later)).stage c' = .finished (.ok k') →
        k' = k := by
  have hsound := (@sound_start slug calls links).run hnames events
  have hfits := hsound.fits c
  rw [hk] at hfits
  have hafter := hsound.rebase.run hnames later
  rw [run_append]
  have hheld := hfits.1.later hafter.stable
  refine ⟨hfits.2, hheld, fun c' k' hk' => ?_⟩
  have hfits' := hafter.fits c'
  rw [hk'] at hfits'
  exact held_inj hfits'.1 hheld

/-- Calls with keys of one byte, repeated, and temporary files of different lengths. -/
def sampleCalls (n : Nat) : KeyCall := ⟨7, String.ofList (List.replicate n 'a'), List.replicate 32 (UInt8.ofNat n), rfl⟩

theorem sampleCalls_injective (slug : String) : Function.Injective fun c => temporaryPath slug (sampleCalls c) := by
  intro m n h
  have hlen := congrArg String.length h
  simpa [temporaryPath, sampleCalls, String.length_append] using hlen

/-- One process that makes the key. -/
def sampleEvents : List (Nat × Reply) := List.replicate 8 (0, .works 32)

/-- A second process that comes after the first. -/
theorem backup_key_stays_second : (List.replicate 32 (0 : UInt8)).length = 32 ∧
    Held "a" (Machine.run (KeyDirectory.step "a" sampleCalls) (.start "a" .empty) (sampleEvents ++ [(1, .works 0), (2, .fails)])).links
      (List.replicate 32 0) ∧
    ∀ c' k', (Machine.run (KeyDirectory.step "a" sampleCalls) (.start "a" .empty)
      (sampleEvents ++ [(1, .works 0), (2, .fails)])).stage c' = .finished (.ok k') → k' = List.replicate 32 0 :=
  backup_key_stays "a" sampleCalls (sampleCalls_injective "a") .empty sampleEvents _ 0 _ (by decide +kernel)

/-- Where there is no key at first, what is in place at any time is the whole key of one of the calls, private to its
owner, and calls fail for the system's errors only, or because their slug has no path. -/
theorem backup_key_whole (slug : String) (calls : Nat → KeyCall)
    (hnames : Function.Injective fun c => temporaryPath slug (calls c)) (links : Links String KeyFile)
    (hfresh : links.name (keyFileName slug) = none) (events : List (Nat × Reply)) :
    (∀ i, (run (KeyDirectory.step slug calls) (.start slug links) events).links.name (keyFileName slug) = some i →
      ∃ c, (run (KeyDirectory.step slug calls) (.start slug links) events).links.files[i]? = some ⟨true, false, (calls c).key⟩) ∧
    ∀ c e, (run (KeyDirectory.step slug calls) (.start slug links) events).stage c = .finished (.error e) →
      e = .os ∨ e = .taken ∨ messageBackupDekPath slug = .error e := by
  have hsound := (@sound_start slug calls links).run hnames events
  refine ⟨hsound.whole hfresh, fun c e he => ?_⟩
  have hfits := hsound.fits c
  rw [he] at hfits
  exact hfits hfresh

/-- One process makes the key, one dies over a key of its own, and one reads what is in place. -/
def racingEvents : List (Nat × Reply) :=
  [(1, .works 0), (1, .works 0), (1, .works 0), (1, .works 20)] ++ sampleEvents ++ [(1, .crashes)] ++
    List.replicate 5 (2, .works 64)

theorem backup_key_whole_race :
    (∀ i, (run (KeyDirectory.step "a" sampleCalls) (.start "a" .empty) racingEvents).links.name (keyFileName "a") = some i →
      ∃ c, (run (KeyDirectory.step "a" sampleCalls) (.start "a" .empty) racingEvents).links.files[i]? =
        some ⟨true, false, (sampleCalls c).key⟩) ∧
    ∀ c e, (run (KeyDirectory.step "a" sampleCalls) (.start "a" .empty) racingEvents).stage c = .finished (.error e) →
      e = .os ∨ e = .taken ∨ messageBackupDekPath "a" = .error e :=
  backup_key_whole "a" sampleCalls (sampleCalls_injective "a") .empty rfl _

end Runs

section Progress

/-- What is left for a process that finds no key. -/
def makes (last : Bool) : Nat := if last then 0 else 73

/-- How many system calls a process has before it at most. -/
def Stage.rank : Stage → Nat
  | .lstat last => makes last + 37
  | .opening last _ => makes last + 36
  | .fstat last _ _ => makes last + 35
  | .reading last _ key => makes last + 2 + (32 - key.length)
  | .creating => 74
  | .fchmod _ => 73
  | .writing _ n => 40 + (32 - n)
  | .fsync _ => 39
  | .linking _ => 38
  | .publishing => 2
  | .unlinking _ => 1
  | .finished _ | .crashed => 0

def Stage.over : Stage → Bool
  | .finished _ | .crashed => true
  | _ => false

theorem over_of_rank {stage : Stage} (h : stage.rank = 0) : stage.over = true := by
  cases stage with
  | finished | crashed => rfl
  | lstat | opening | fstat | reading | writing => simp [Stage.rank] at h
  | creating | fchmod | fsync | linking | publishing | unlinking => cases h

theorem rank_leave (last : Bool) (outcome : Except KeyError (List UInt8)) : (Stage.leave last outcome).rank ≤ 1 := by
  cases last
  · exact Nat.zero_le _
  · exact Nat.le_refl _

theorem rank_absent (last : Bool) : (Stage.absent last).rank ≤ makes last + 1 := by
  cases last <;> exact Nat.le_refl _

theorem rank_lstat (last : Bool) (count : Nat) : (readStep slug t count (.lstat last)).rank < makes last + 37 := by
  have hleave (outcome : Except KeyError (List UInt8)) := rank_leave last outcome
  have habsent := rank_absent last
  rw [readStep]
  split
  · omega
  · split
    · omega
    · split
      · exact Nat.lt_of_le_of_lt (hleave _) (by omega)
      · split
        · exact Nat.lt_of_le_of_lt (hleave _) (by omega)
        · exact Nat.lt_succ_self _

theorem rank_opening (last : Bool) (before count : Nat) : (readStep slug t count (.opening last before)).rank < makes last + 36 := by
  have habsent := rank_absent last
  rw [readStep]
  split
  · omega
  · exact Nat.lt_succ_self _

theorem rank_fstat (last : Bool) (before i count : Nat) : (readStep slug t count (.fstat last before i)).rank < makes last + 35 := by
  have hleave (outcome : Except KeyError (List UInt8)) := rank_leave last outcome
  rw [readStep]
  split
  · exact Nat.lt_of_le_of_lt (hleave _) (by omega)
  · split
    · exact Nat.lt_of_le_of_lt (hleave _) (by omega)
    · exact Nat.lt_succ_self _

theorem rank_reading (last : Bool) (i count : Nat) (key : List UInt8) :
    (readStep slug t count (.reading last i key)).rank < makes last + 2 + (32 - key.length) := by
  have hleave (outcome : Except KeyError (List UInt8)) := rank_leave last outcome
  rw [readStep]
  split
  · exact Nat.lt_of_le_of_lt (hleave _) (by omega)
  · rename_i hsome
    have hpos := List.length_pos_of_ne_nil hsome
    split
    · exact Nat.lt_of_le_of_lt (hleave _) (by omega)
    · rename_i hshort
      rw [List.length_append] at hshort
      rw [Stage.rank, List.length_append]
      omega

theorem rank_writing (call : KeyCall) (i n count : Nat) : (workStep slug call t count (.writing i n)).2.rank < 40 + (32 - n) := by
  have hsized := call.sized
  rw [workStep]
  generalize hchunk : (call.key.drop n).take count = chunk
  dsimp only
  split
  · exact Nat.lt_of_lt_of_le (by decide : 1 < 40) (Nat.le_add_right _ _)
  · rename_i hsome
    have hpos := List.length_pos_of_ne_nil hsome
    split
    · rw [Stage.rank]
      omega
    · exact Nat.lt_of_lt_of_le (by decide : 39 < 40) (Nat.le_add_right _ _)

theorem rank_workStep (call : KeyCall) (count : Nat) {stage : Stage} (h : stage.over = false) :
    (workStep slug call t count stage).2.rank < stage.rank := by
  cases stage with
  | lstat last => exact @rank_lstat slug t last count
  | opening last before => exact @rank_opening slug t last before count
  | fstat last before i => exact @rank_fstat slug t last before i count
  | reading last i key => exact @rank_reading slug t last i count key
  | creating =>
    rw [workStep]
    split
    · exact (by decide : 1 < 74)
    · exact (by decide : 73 < 74)
  | fchmod i => exact (by decide : 72 < 73)
  | writing i n => exact rank_writing call i n count
  | fsync i => exact (by decide : 38 < 39)
  | linking i =>
    rw [workStep]
    split
    · exact (by decide : 37 < 38)
    · split
      · exact (by decide : 1 < 38)
      · exact (by decide : 2 < 38)
  | publishing => exact (by decide : 1 < 2)
  | unlinking outcome => exact (by decide : 0 < 1)
  | finished | crashed => cases h

theorem rank_failStep (call : KeyCall) {stage : Stage} (h : stage.over = false) : (failStep call stage).rank < stage.rank := by
  cases stage with
  | lstat last | opening last | fstat last | reading last =>
    refine Nat.lt_of_le_of_lt (rank_leave last (.error .os)) ?_
    rw [Stage.rank]
    omega
  | writing i n => exact Nat.lt_of_lt_of_le (by decide : 1 < 40) (Nat.le_add_right _ _)
  | creating => exact (by decide : 1 < 74)
  | fchmod i => exact (by decide : 1 < 73)
  | fsync i => exact (by decide : 1 < 39)
  | linking i => exact (by decide : 1 < 38)
  | publishing => exact (by decide : 1 < 2)
  | unlinking outcome => exact (by decide : 0 < 1)
  | finished | crashed => cases h

theorem rank_of_over {stage : Stage} (h : stage.over = true) : stage.rank = 0 := by
  cases stage with
  | finished | crashed => rfl
  | lstat | opening | fstat | reading | creating | fchmod | writing | fsync | linking | publishing | unlinking => cases h

theorem step_over {e : Nat × Reply} (h : (s.stage e.1).over = true) : s.step slug calls e = s := by
  unfold KeyDirectory.step
  cases hstage : s.stage e.1 with
  | finished | crashed => rfl
  | lstat | opening | fstat | reading | creating | fchmod | writing | fsync | linking | publishing | unlinking =>
    rw [hstage] at h
    cases h

theorem rank_firstStage : (firstStage slug).rank ≤ 110 := by
  unfold firstStage
  split
  · exact Nat.le_refl _
  · exact Nat.zero_le _

theorem step_stage (slug : String) (calls : Nat → KeyCall) (s : KeyDirectory) (e : Nat × Reply) (c : Nat) :
    ((s.step slug calls e).stage c).rank ≤ (s.stage c).rank ∧
      (e.1 = c → (s.stage c).rank ≠ 0 → ((s.step slug calls e).stage c).rank < (s.stage c).rank) := by
  have hnext (t' : Links String KeyFile) (next : Stage) (hless : next.rank < (s.stage e.1).rank) :
      ((⟨t', Function.update s.stage e.1 next⟩ : KeyDirectory).stage c).rank ≤ (s.stage c).rank ∧ (e.1 = c → (s.stage c).rank ≠ 0 →
        ((⟨t', Function.update s.stage e.1 next⟩ : KeyDirectory).stage c).rank < (s.stage c).rank) := by
    dsimp only
    rw [Function.update_apply]
    split
    · rename_i hc
      subst hc
      exact ⟨Nat.le_of_lt hless, fun _ _ => hless⟩
    · rename_i hc
      exact ⟨Nat.le_refl _, fun he => absurd he.symm hc⟩
  cases hover : (s.stage e.1).over with
  | true =>
    rw [step_over hover]
    exact ⟨Nat.le_refl _, fun he hz => absurd (he ▸ rank_of_over hover) hz⟩
  | false =>
    unfold KeyDirectory.step
    split
    · rename_i hstage
      rw [hstage] at hover
      cases hover
    · rename_i hstage
      rw [hstage] at hover
      cases hover
    · split
      · exact hnext _ _ (rank_workStep _ _ hover)
      · exact hnext _ _ (rank_failStep _ hover)
      · refine hnext _ _ (Nat.pos_of_ne_zero fun hz => ?_)
        rw [over_of_rank hz] at hover
        cases hover

/-- Nobody waits for another: a process that has made 110 system calls is through, whatever the others do. -/
theorem backup_key_waits_for_none (slug : String) (calls : Nat → KeyCall) (links : Links String KeyFile)
    (events : List (Nat × Reply)) (c : Nat) (h : 110 ≤ events.countP (·.1 = c)) :
    ((run (KeyDirectory.step slug calls) (.start slug links) events).stage c).over = true := by
  apply over_of_rank
  refine @rank_run _ _ (KeyDirectory.step slug calls) (fun s => (s.stage c).rank) (fun e => e.1 = c)
    (fun s e => (step_stage slug calls s e c).1) (fun s e he => ?_) _ events
    (Nat.le_trans rank_firstStage h)
  exact (step_stage slug calls s e c).2 (by simpa using he)

/-- A process that makes the key while another fails. -/
theorem backup_key_waits_for_none_made : ((run (KeyDirectory.step "a" sampleCalls) (.start "a" .empty)
    ((1, .fails) :: List.replicate 110 (0, .works 32))).stage 0).over = true :=
  backup_key_waits_for_none "a" sampleCalls .empty _ 0 (by simp)

end Progress

end Custody

end PuffoAgent.Crypto
