import PuffoAgent.Memory.Fidelity
import PuffoAgent.Text.Markers

/-! The managed block of the profile briefing, and the text of the user around it. -/
namespace PuffoAgent.Memory
open Relational Files Text Effects

def profileManagedBegin : String := "<!-- puffo:managed-profile -->"
def profileManagedEnd : String := "<!-- /puffo:managed-profile -->"

structure Profile where
  agentId : String := ""
  displayName : String := ""
  role : String := ""
  roleShort : String := ""
  soul : String := ""
  puffoHandle : String := ""

section Rendering

def Profile.handle (p : Profile) : String := if p.puffoHandle ≠ "" then p.puffoHandle else p.agentId

def Profile.name (p : Profile) : String :=
  if p.displayName ≠ "" then p.displayName else if p.handle ≠ "" then p.handle else "agent"

def Profile.identity (p : Profile) : String :=
  "You are " ++ p.name ++ (if p.handle ≠ "" then " (agent `" ++ p.handle ++ "`)" else "") ++ "."

def Profile.lines (p : Profile) : List String :=
  ["# " ++ p.name, "", p.identity] ++
    (if p.role ≠ "" then ["", "Role: " ++ p.role] else []) ++
    (if p.roleShort ≠ "" then ["Role (short): " ++ p.roleShort] else []) ++
    (if strip p.soul ≠ "" then ["", "## Soul", "", strip p.soul] else [])

def renderProfileBriefing (p : Profile) : String := joinWith "\n" p.lines ++ "\n"

def profileBlock (p : Profile) : String :=
  profileManagedBegin ++ "\n" ++ renderProfileBriefing p ++ profileManagedEnd ++ "\n"

/-- `text.rstrip("\n")`. -/
def rstripLines (text : String) : String := String.ofList (text.toList.rdropWhile (· = '\n'))

/-- `_MANAGED_BLOCK_RE.search`. -/
def managedBlock (text : String) : Option (List Char × List Char × List Char) :=
  enclosed profileManagedBegin.toList profileManagedEnd.toList text.toList

/-- The block takes the place of the first one in the text, or goes before it all. -/
def updatedText (block text : String) : String :=
  match managedBlock text with
  | some (before, _, after) => String.ofList before ++ rstripLines block ++ String.ofList after
  | none => block ++ "\n" ++ text

end Rendering

section Syncing

def profilePath : Path := [briefingDir, profileBriefingName]

def importsIndexSeed : String :=
  "# Imports index\n\nProvenance of content imported into this agent's memory. Reserved —\n" ++
    "maintained by the platform; one entry per import.\n"

def ensureScope (sub : String) : Task Unit := do
  match ← observe fun t => t.get [sub] with
  | some .dir => pure ()
  | some (.file _) => Proc.raise (.store (storeError "memory_invalid_path" sub "Memory scope roots must be real directories."))
  | none => attempt .os (·.mkdir [sub])

/-- `Path.write_text`: the file is opened, which empties it, and then written. -/
def writeText (p : Path) (body : String) : Task Unit := do
  attempt .os (·.write p [])
  attempt .os (·.write p (encodeUtf8 body.toList))

def ensureMemoryTree : Task Unit := do
  ensureScope briefingDir
  ensureScope notesDir
  ensureScope recollectionDir
  ensureScope importsDir
  if ← observe fun t => (t.get [importsDir, "index.md"]).isSome then pure ()
  else writeText [importsDir, "index.md"] importsIndexSeed

def readProfile : Task String := do
  match ← observe fun t => t.get profilePath with
  | some (.file bytes) => demand (readText bytes)
  | _ => Proc.raise (.os "not a file")

def syncProfileBriefing (p : Profile) : Task Unit := do
  ensureMemoryTree
  let there ← observe fun t => (t.get profilePath).isSome
  let text ← if there then some <$> readProfile else pure none
  let _ ← putMemoryFile false "briefing/profile.md" (text.elim (profileBlock p) (updatedText (profileBlock p)))
  pure ()

/-- The profile briefing as a text, when there is one. -/
def Has (t : Files.Tree Bytes) (file : Option String) : Prop :=
  t.fileAt profilePath = file.map fun s => encodeUtf8 s.toList

/-- What a file is after it was synced: what is read as it should be is left alone. -/
def synced (p : Profile) : Option String → String
  | none => profileBlock p
  | some s =>
    if universalText s = updatedText (profileBlock p) (universalText s) then s
    else updatedText (profileBlock p) (universalText s)

variable {p : Profile} {file : Option String}

def profileLogical : Logical := ⟨"briefing/profile.md", profilePath⟩

theorem validate_profilePath : validateWritePath false "briefing/profile.md" = .ok (.briefing, profileLogical) := by rfl

theorem keeps_ensureScope {sub : String} : Proc.Keeps (Has · file) (ensureScope sub) := by
  unfold ensureScope
  refine Proc.Does.bind (Q := fun _ t => Has t file) (Proc.does_perform (fun _ h => h) fun w t ht => ?_) fun node => ?_
  · cases w <;> exact ht
  · match node with
    | some .dir => exact Proc.does_pure fun _ h => h
    | some (.file _) => exact Proc.does_raise fun _ h => h
    | none => exact keeps_attempt fun t t' ht hm => (Tree.fileAt_mkdir hm profilePath).trans ht

theorem keeps_writeText {q : Path} {body : String} (hq : profilePath ≠ settle q) :
    Proc.Keeps (Has · file) (writeText q body) := by
  have hwrite (bytes : Bytes) : Proc.Keeps (Has · file) (attempt .os (·.write q bytes) : Task Unit) :=
    keeps_attempt fun t t' ht hw => (Tree.fileAt_write hw profilePath).trans ((if_neg hq).trans ht)
  exact Proc.Does.bind (hwrite _) fun _ => hwrite _

theorem keeps_ensureMemoryTree : Proc.Keeps (Has · file) ensureMemoryTree := by
  refine Proc.Does.bind keeps_ensureScope fun _ => Proc.Does.bind keeps_ensureScope fun _ =>
    Proc.Does.bind keeps_ensureScope fun _ => Proc.Does.bind keeps_ensureScope fun _ => ?_
  refine Proc.Does.bind (Q := fun _ t => Has t file) (Proc.does_perform (fun _ h => h) fun w t ht => ?_) fun there =>
    Proc.Does.ite (fun _ => Proc.does_pure fun _ h => h) fun _ => keeps_writeText (by decide)
  cases w <;> exact ht

theorem Has.kept {t t' : Files.Tree Bytes} (h : Has t file) (hk : Kept t t') : Has t' file := by
  rcases hk profilePath with hsame | ⟨-, dir, temp, htemp⟩
  · exact hsame.trans h
  · have hlast := congrArg List.getLast? htemp
    rw [List.getLast?_concat] at hlast
    exact absurd (Option.some.inj hlast ▸ (validateWritePath_ok validate_profilePath).topic) (not_topic_temp temp)

theorem outcome_putProfile {t : Files.Tree Bytes} {body : String} (h : Has t file) :
    Proc.Does (· = t) (putMemoryFile false "briefing/profile.md" body)
      (fun _ t' => Has t' (some (if file.map universalText = some body then file.getD "" else body)))
      (fun _ t' => Has t' file) fun _ => True := by
  have hcareful : Careful t (putMemoryFile false "briefing/profile.md" body) := careful_putMemoryFile
  have hput := (@outcome_put t _ _ body _ _ validate_profilePath).and hcareful
  refine hput.mono (fun r t' hq => ?_) (fun _ t' he => h.kept he.2) fun _ _ => trivial
  obtain ⟨⟨-, -, ⟨s, hs, huniv, -, rfl⟩ | ⟨hother, -, hwrote⟩⟩, -⟩ := hq
  · have hfile : file.map (fun s => encodeUtf8 s.toList) = some (encodeUtf8 s.toList) := h.symm.trans hs
    obtain ⟨s', rfl, hs'⟩ := Option.map_eq_some_iff.mp hfile
    obtain rfl := String.toList_inj.mp (encodeUtf8_injective hs')
    rw [Option.map_some, huniv, if_pos rfl]
    exact h
  · rw [if_neg]
    · exact wrote_holds hwrote
    · intro hfile
      obtain ⟨s, rfl, huniv⟩ := Option.map_eq_some_iff.mp hfile
      exact hother s h huniv

/-- A run that returns leaves the synced text, and one that raises the text that was there. -/
theorem outcome_sync : Proc.Does (Has · file) (syncProfileBriefing p) (fun _ t => Has t (some (synced p file)))
    (fun _ t => Has t file) fun _ => True := by
  refine Proc.Does.bind (keeps_ensureMemoryTree.mono (fun _ _ h => h) (fun _ _ h => h) fun _ _ => trivial) fun _ => ?_
  refine Proc.Does.from fun t ht => observe_bind (fun _ => ht) trivial ?_
  have hget : t.get profilePath = t.node profilePath := Tree.get_of_notMem (by decide)
  have hput (text : Option String) (htext : text = file.map universalText) :
      Proc.Does (· = t) (putMemoryFile false "briefing/profile.md" (text.elim (profileBlock p) (updatedText (profileBlock p))) >>=
        fun _ => pure ()) (fun _ t' => Has t' (some (synced p file))) (fun _ t' => Has t' file) fun _ => True := by
    refine Proc.Does.bind (outcome_putProfile ht) fun _ => Proc.does_pure fun t' ht' => ?_
    subst htext
    cases file with
    | none => exact ht'
    | some s =>
      simp only [Option.map_some, Option.elim_some, Option.some.injEq, Option.getD_some] at ht'
      exact ht'
  cases hnode : t.node profilePath with
  | none =>
    have hfile : file.map (fun s => encodeUtf8 s.toList) = none := by
      rw [← show t.fileAt profilePath = _ from ht, Tree.fileAt, hnode, Option.bind_none]
    rw [hget, hnode]
    exact hput none (by rw [Option.map_eq_none_iff.mp hfile]; rfl)
  | some node =>
    rw [hget, hnode]
    simp only [Option.isSome_some, if_true, readProfile, map_eq_pure_bind, bind_assoc]
    refine observe_bind (fun _ => ht) trivial ?_
    rw [hget, hnode]
    cases node with
    | dir => exact Proc.Does.bind (Q := fun _ _ => False) (Proc.does_raise fun s hs => hs ▸ ht) fun _ s hs => hs.elim
    | file bytes =>
      have hfile : file.map (fun s => encodeUtf8 s.toList) = some bytes := by
        rw [← show t.fileAt profilePath = _ from ht, Tree.fileAt_eq_some, hnode]
      obtain ⟨s, rfl, rfl⟩ := Option.map_eq_some_iff.mp hfile
      have hread : readText (encodeUtf8 s.toList) = .ok (universalText s) := by
        rw [readText, decodeStrict_encodeUtf8, String.ofList_toList]
      dsimp only
      rw [hread]
      refine demand_bind (fun e he => by cases he) fun text htext => ?_
      cases htext
      rw [pure_bind]
      exact hput _ rfl

end Syncing
section Markers

theorem sharp_begin : Sharp profileManagedBegin.toList :=
  ⟨'<', "!-- puffo:managed-profile -->".toList, by decide, by decide⟩

theorem sharp_end : Sharp profileManagedEnd.toList :=
  ⟨'<', "!-- /puffo:managed-profile -->".toList, by decide, by decide⟩

theorem unbroken_begin : Unbroken profileManagedBegin.toList := ⟨by decide, by decide⟩

theorem unbroken_end : Unbroken profileManagedEnd.toList := ⟨by decide, by decide⟩

theorem managedBlock_eq_some {text : String} {before between after : List Char} :
    managedBlock text = some (before, between, after) ↔
      text.toList = before ++ (profileManagedBegin.toList ++ (between ++ (profileManagedEnd.toList ++ after))) ∧
        ¬ profileManagedBegin.toList <:+: before ∧ ¬ profileManagedEnd.toList <:+: between :=
  enclosed_eq_some sharp_begin sharp_end

theorem managedBlock_universal (text : String) : managedBlock (universalText text) =
    (managedBlock text).map (Prod.map universal (Prod.map universal universal)) := by
  rw [managedBlock, universalText, String.toList_ofList,
    enclosed_universal unbroken_begin unbroken_end sharp_begin.ne_nil sharp_end.ne_nil]
  rfl

/-- What stands between the markers. -/
def framed (p : Profile) : List Char := '\n' :: (renderProfileBriefing p).toList

/-- The block of a profile within a text. -/
def placed (p : Profile) (before after : List Char) : List Char :=
  before ++ (profileManagedBegin.toList ++ (framed p ++ (profileManagedEnd.toList ++ after)))

variable {p : Profile}

theorem toList_profileBlock : (profileBlock p).toList = placed p [] ['\n'] := by
  have hline : ("\n" : String).toList = ['\n'] := rfl
  simp only [profileBlock, String.toList_append, placed, framed, hline, List.append_assoc, List.nil_append, List.cons_append]

theorem toList_rstripLines : (rstripLines (profileBlock p)).toList = placed p [] [] := by
  have hend : profileManagedEnd.toList = "<!-- /puffo:managed-profile --".toList ++ ['>'] := by decide
  have hplaced : placed p [] [] = (profileManagedBegin.toList ++ (framed p ++ "<!-- /puffo:managed-profile --".toList)) ++ ['>'] := by
    simp only [placed, hend, List.append_nil, List.nil_append, List.append_assoc]
  have hline : placed p [] ['\n'] = placed p [] [] ++ ['\n'] := by
    simp only [placed, List.append_nil, List.nil_append, List.append_assoc]
  rw [rstripLines, String.toList_ofList, toList_profileBlock, hline, List.rdropWhile_concat_pos _ _ _ (by decide), hplaced,
    List.rdropWhile_concat_neg _ _ _ (by decide)]

theorem toList_updatedText {text : String} {before between after : List Char}
    (h : managedBlock text = some (before, between, after)) :
    (updatedText (profileBlock p) text).toList = placed p before after := by
  rw [updatedText, h]
  simp only [String.toList_append, String.toList_ofList, toList_rstripLines, placed, List.nil_append, List.append_nil,
    List.append_assoc]

theorem toList_updatedText_of_none {text : String} (h : managedBlock text = none) :
    (updatedText (profileBlock p) text).toList = placed p [] ('\n' :: '\n' :: text.toList) := by
  have hline : ("\n" : String).toList = ['\n'] := rfl
  rw [updatedText, h]
  simp only [String.toList_append, toList_profileBlock, placed, hline, List.nil_append, List.append_assoc, List.cons_append]

/-- A text with a block is left alone when its block is read as the one of the profile. -/
theorem synced_block {text : String} {before between after : List Char}
    (h : managedBlock text = some (before, between, after)) : (synced p (some text)).toList =
      if universal between = framed p then text.toList else placed p (universal before) (universal after) := by
  have hread : managedBlock (universalText text) = some (universal before, universal between, universal after) := by
    rw [managedBlock_universal, h]
    rfl
  have htext := (managedBlock_eq_some.mp hread).1
  have hiff : universalText text = updatedText (profileBlock p) (universalText text) ↔ universal between = framed p := by
    rw [← String.toList_inj, toList_updatedText hread, htext, placed]
    simp
  rw [synced]
  by_cases hsame : universal between = framed p
  · rw [if_pos (hiff.mpr hsame), if_pos hsame]
  · rw [if_neg (mt hiff.mp hsame), if_neg hsame, toList_updatedText hread]

theorem synced_plain {text : String} (h : managedBlock text = none) :
    (synced p (some text)).toList = placed p [] ('\n' :: '\n' :: universal text.toList) := by
  have hread : managedBlock (universalText text) = none := by
    rw [managedBlock_universal, h]
    rfl
  have hupdated := toList_updatedText_of_none (p := p) hread
  have hne : universalText text ≠ updatedText (profileBlock p) (universalText text) := by
    intro he
    have hlen := congrArg (fun s => s.toList.length) he
    simp only [hupdated, placed, List.length_append, List.length_cons] at hlen
    omega
  rw [synced, if_neg hne, hupdated, universalText, String.toList_ofList]

end Markers
section Lossless
variable {a b : Profile} {before after : List Char}

/-- The texts of a profile that are shown in its block. -/
def Profile.shown (p : Profile) : List String := [p.name, p.handle, p.role, p.roleShort, strip p.soul]

theorem end_infix_joinWith {lines : List String} : profileManagedEnd.toList <:+: (joinWith "\n" lines).toList ↔
    ∃ line ∈ lines, profileManagedEnd.toList <:+: line.toList := by
  induction lines with
  | nil => simp [joinWith, sharp_end.ne_nil]
  | cons line lines ih =>
    cases lines with
    | nil => simp [joinWith]
    | cons next lines =>
      have hline : ("\n" : String).toList = ['\n'] := rfl
      rw [joinWith, String.toList_append, String.toList_append, hline, List.append_assoc, List.singleton_append,
        infix_append_cons_iff unbroken_end.2, ih]
      · exact (List.exists_mem_cons_iff (profileManagedEnd.toList <:+: String.toList ·) line (next :: lines)).symm
      · exact List.cons_ne_nil next lines

theorem end_infix_literal {literal text : String} (h : '<' ∉ literal.toList) :
    profileManagedEnd.toList <:+: (literal ++ text).toList ↔ profileManagedEnd.toList <:+: text.toList := by
  rw [String.toList_append, infix_append_left_iff (c := '<') (by decide) h]

theorem end_infix_closed {text literal : String} (h : '>' ∉ literal.toList) :
    profileManagedEnd.toList <:+: (text ++ literal).toList ↔ profileManagedEnd.toList <:+: text.toList := by
  rw [String.toList_append, infix_append_right_iff (c := '>') (by decide) h]

theorem end_not_infix_empty : ¬ profileManagedEnd.toList <:+: ("" : String).toList :=
  fun h => sharp_end.ne_nil (List.infix_nil.mp h)

theorem end_infix_identity (p : Profile) : profileManagedEnd.toList <:+: p.identity.toList ↔
    profileManagedEnd.toList <:+: p.name.toList ∨ profileManagedEnd.toList <:+: p.handle.toList := by
  rw [Profile.identity, end_infix_closed (by decide)]
  by_cases hhandle : p.handle = ""
  · rw [if_neg (not_not.mpr hhandle), hhandle, String.append_empty, end_infix_literal (by decide),
      or_iff_left end_not_infix_empty]
  · have hparts : ("You are " ++ p.name ++ (" (agent `" ++ p.handle ++ "`)")).toList =
        ("You are " ++ p.name ++ " ").toList ++ '(' :: ("agent `" ++ (p.handle ++ "`)")).toList := by
      simp [String.toList_append]
    rw [if_pos hhandle, hparts, infix_append_cons_iff (by decide), end_infix_closed (by decide),
      end_infix_literal (by decide), end_infix_literal (by decide), end_infix_closed (by decide)]

/-- The end marker is in the block only when it is in one of the texts that are shown. -/
theorem end_infix_render (p : Profile) : profileManagedEnd.toList <:+: (renderProfileBriefing p).toList ↔
    ∃ text ∈ p.shown, profileManagedEnd.toList <:+: text.toList := by
  rw [renderProfileBriefing, end_infix_closed (by decide), end_infix_joinWith, Profile.lines]
  have hoptional (text : String) (lines : List String) (h : (∃ line ∈ lines, profileManagedEnd.toList <:+: line.toList) ↔
      profileManagedEnd.toList <:+: text.toList) :
      (∃ line ∈ (if text ≠ "" then lines else []), profileManagedEnd.toList <:+: line.toList) ↔
        profileManagedEnd.toList <:+: text.toList := by
    by_cases htext : text = ""
    · rw [if_neg (not_not.mpr htext), htext]
      exact iff_of_false (by simp) end_not_infix_empty
    · rw [if_pos htext, h]
  have hrole := hoptional p.role ["", "Role: " ++ p.role] (by
    simp only [List.exists_mem_cons_iff, end_not_infix_empty, end_infix_literal (show '<' ∉ ("Role: " : String).toList by decide)]
    simp)
  have hshort := hoptional p.roleShort ["Role (short): " ++ p.roleShort] (by
    simp only [List.exists_mem_cons_iff, end_infix_literal (show '<' ∉ ("Role (short): " : String).toList by decide)]
    simp)
  have hsoul := hoptional (strip p.soul) ["", "## Soul", "", strip p.soul] (by
    have hheading : ¬ profileManagedEnd.toList <:+: ("## Soul" : String).toList := by decide
    simp only [List.exists_mem_cons_iff, end_not_infix_empty, hheading]
    simp)
  have hhead : (∃ line ∈ ["# " ++ p.name, "", p.identity], profileManagedEnd.toList <:+: line.toList) ↔
      profileManagedEnd.toList <:+: p.name.toList ∨ profileManagedEnd.toList <:+: p.handle.toList := by
    simp only [List.exists_mem_cons_iff, end_not_infix_empty, end_infix_identity,
      end_infix_literal (show '<' ∉ ("# " : String).toList by decide)]
    simp
  have happend (xs ys : List String) : (∃ line ∈ xs ++ ys, profileManagedEnd.toList <:+: line.toList) ↔
      (∃ line ∈ xs, profileManagedEnd.toList <:+: line.toList) ∨ ∃ line ∈ ys, profileManagedEnd.toList <:+: line.toList := by
    simp only [List.mem_append, or_and_right, exists_or]
  rw [happend, happend, happend, hhead, hrole, hshort, hsoul, Profile.shown]
  simp only [List.exists_mem_cons_iff, or_assoc]
  simp

theorem end_infix_framed (p : Profile) : profileManagedEnd.toList <:+: framed p ↔
    ∃ text ∈ p.shown, profileManagedEnd.toList <:+: text.toList := by
  rw [← end_infix_render, framed, List.infix_cons_iff, or_iff_right]
  exact not_prefix_cons sharp_end.ne_nil unbroken_end.2


theorem end_infix_universal {cs : List Char} : profileManagedEnd.toList <:+: universal cs ↔ profileManagedEnd.toList <:+: cs := by
  rw [← not_iff_not, ← cut_eq_none sharp_end.ne_nil, ← cut_eq_none sharp_end.ne_nil,
    cut_universal unbroken_end sharp_end.ne_nil, Option.map_eq_none_iff]

/-- A block without an end marker in it is found and replaced. -/
theorem synced_placed (hb : ¬ profileManagedBegin.toList <:+: before) (hend : ¬ profileManagedEnd.toList <:+: framed a)
    (hbefore : '\r' ∉ before) (hafter : '\r' ∉ after) {text : String} (htext : text.toList = placed a before after) :
    (synced b (some text)).toList =
      if universal (framed a) = framed b then placed a before after else placed b before after := by
  rw [synced_block (managedBlock_eq_some.mpr ⟨htext, hb, hend⟩), htext, universal_of_notMem hbefore,
    universal_of_notMem hafter]

/-- What follows an end marker in the block is left in the text. -/
theorem synced_grows (hb : ¬ profileManagedBegin.toList <:+: before) (hend : profileManagedEnd.toList <:+: framed a)
    (hbefore : '\r' ∉ before) (hafter : '\r' ∉ after) {text : String} (htext : text.toList = placed a before after) :
    synced a (some text) ≠ text := by
  obtain ⟨⟨first, rest⟩, hcut⟩ : ∃ p, cut profileManagedEnd.toList (framed a) = some p :=
    Option.ne_none_iff_exists'.mp fun hnone => (cut_eq_none sharp_end.ne_nil).mp hnone hend
  obtain ⟨hframed, hfirst⟩ := (cut_eq_some sharp_end).mp hcut
  have hblock : managedBlock text = some (before, first, rest ++ (profileManagedEnd.toList ++ after)) := by
    refine managedBlock_eq_some.mpr ⟨?_, hb, hfirst⟩
    rw [htext, placed, hframed]
    simp only [List.append_assoc]
  have hother : universal first ≠ framed a := fun he => hfirst (end_infix_universal.mp (he ▸ hend))
  intro he
  have hlist := congrArg String.toList he
  rw [synced_block hblock, if_neg hother, htext, universal_of_notMem hbefore, placed, placed] at hlist
  have hrest : universal (rest ++ (profileManagedEnd.toList ++ after)) = after := by
    iterate 4 replace hlist := List.append_cancel_left hlist
    exact hlist
  have hhead : (profileManagedEnd.toList ++ after).head? ≠ some '\n' := by
    rw [List.head?_append, show profileManagedEnd.toList.head? = some '<' by decide, Option.some_or]
    decide
  rw [universal_append fun _ => hhead, universal_append_marker unbroken_end, universal_of_notMem hafter] at hrest
  have hlen := congrArg List.length hrest
  have hpos := List.length_pos_iff.mpr sharp_end.ne_nil
  simp only [List.length_append] at hlen
  omega

/-- The text of the user: what is before and after the block, or all of it. -/
def userText (file : Option String) : List Char × List Char :=
  match file with
  | none => ([], [])
  | some s =>
    match managedBlock s with
    | some (before, _, after) => (before, after)
    | none => ([], s.toList)

/-- The last profile that was synced counts, once is enough, and the text of the user stays. -/
structure Lossless (a b : Profile) (file : Option String) : Prop where
  last : synced b (some (synced a file)) = synced b file
  twice : synced a (some (synced a file)) = synced a file
  kept : ∃ managed, (synced a file).toList = (userText file).1 ++ (managed ++ (userText file).2)

/-- One text is the other one with its line endings rewritten, and not the same. -/
def Respelled (cs ds : List Char) : Prop := universal cs = ds ∧ cs ≠ ds

/-- What the file is to the profile whose block it gets. -/
def Plainly (a b : Profile) (file : Option String) : Prop :=
  match file with
  | none => ¬ Respelled (framed a) (framed b)
  | some s =>
    match managedBlock s with
    | none => '\r' ∉ s.toList ∧ ¬ Respelled (framed a) (framed b)
    | some (before, between, after) => universal between = framed a ∨
        ('\r' ∉ before ∧ '\r' ∉ after ∧
          (between = framed a ∨ (¬ Respelled (framed a) (framed b) ∧ ¬ Respelled between (framed b))))

/-- The texts of a profile do not close its block, and no line ending is rewritten. -/
def Clean (a b : Profile) (file : Option String) : Prop :=
  (∀ text ∈ a.shown, ¬ profileManagedEnd.toList <:+: text.toList) ∧ Plainly a b file

theorem not_respelled_iff {cs ds : List Char} : ¬ Respelled cs ds ↔ (universal cs = ds → cs = ds) := by
  rw [Respelled, not_and, not_not]

theorem end_framed_iff : ¬ profileManagedEnd.toList <:+: framed a ↔
    ∀ text ∈ a.shown, ¬ profileManagedEnd.toList <:+: text.toList := by
  rw [end_infix_framed]
  simp only [not_exists, not_and]

theorem placed_inj : placed a before after = placed b before after ↔ framed a = framed b := by
  simp [placed]

theorem begin_not_infix_nil : ¬ profileManagedBegin.toList <:+: [] := fun h => sharp_begin.ne_nil (List.infix_nil.mp h)

section Placed
variable {file : Option String} (hb : ¬ profileManagedBegin.toList <:+: before) (hbefore : '\r' ∉ before)
  (hafter : '\r' ∉ after) (hsynced : (synced a file).toList = placed a before after)
include hb hbefore hafter hsynced

theorem twice_iff : synced a (some (synced a file)) = synced a file ↔ ¬ profileManagedEnd.toList <:+: framed a := by
  constructor
  · exact fun h hend => synced_grows hb hend hbefore hafter hsynced h
  · intro hend
    rw [← String.toList_inj, synced_placed hb hend hbefore hafter hsynced, hsynced, ite_self]

theorem last_iff (hend : ¬ profileManagedEnd.toList <:+: framed a) : synced b (some (synced a file)) = synced b file ↔
    (synced b file).toList = if universal (framed a) = framed b then placed a before after else placed b before after := by
  rw [← String.toList_inj, synced_placed hb hend hbefore hafter hsynced, eq_comm]

end Placed

/-- What stands before the text of the user does not end in a return. -/
theorem getLast_placed (h : '\r' ∉ after) : (placed a before after).getLast? ≠ some '\r' := by
  have hne : profileManagedEnd.toList ++ after ≠ [] := by simp [sharp_end.ne_nil]
  intro hlast
  rw [placed, ← List.append_assoc, ← List.append_assoc, List.getLast?_append_of_ne_nil _ hne] at hlast
  rcases List.mem_append.mp (List.mem_of_getLast? hlast) with hmem | hmem
  · exact unbroken_end.1 hmem
  · exact h hmem

theorem placed_append {more : List Char} : placed a before (after ++ more) = placed a before after ++ more := by
  simp only [placed, List.append_assoc]

/-- A file that had no block is lossless when its text and the two profiles have plain line endings. -/
theorem lossless_new {file : Option String} (huser : userText file = ([], (file.getD "").toList)) {gap : List Char}
    (hgap : '\r' ∉ gap) (hsynced : ∀ p : Profile, (synced p file).toList = placed p [] (gap ++ universal (file.getD "").toList)) :
    Lossless a b file ↔ ¬ profileManagedEnd.toList <:+: framed a ∧ '\r' ∉ (file.getD "").toList ∧
      ¬ Respelled (framed a) (framed b) := by
  have hafter : '\r' ∉ gap ++ universal (file.getD "").toList := by
    rw [List.mem_append, not_or]
    exact ⟨hgap, return_notMem_universal⟩
  have hlast (hend : ¬ profileManagedEnd.toList <:+: framed a) :
      synced b (some (synced a file)) = synced b file ↔ ¬ Respelled (framed a) (framed b) := by
    rw [last_iff begin_not_infix_nil List.not_mem_nil hafter (hsynced a) hend, hsynced b, not_respelled_iff]
    by_cases he : universal (framed a) = framed b
    · rw [if_pos he, placed_inj]
      exact ⟨fun h _ => h.symm, fun h => (h he).symm⟩
    · rw [if_neg he]
      exact iff_of_true rfl fun h => absurd h he
  have hkept : (∃ managed, (synced a file).toList = (userText file).1 ++ (managed ++ (userText file).2)) ↔
      '\r' ∉ (file.getD "").toList := by
    rw [huser, hsynced, placed_append]
    constructor
    · rintro ⟨managed, h⟩
      exact suffix_of_universal (getLast_placed hgap) ⟨managed, h.symm⟩
    · intro h
      exact ⟨placed a [] gap, by rw [universal_of_notMem h, List.nil_append]⟩
  have htwice := twice_iff begin_not_infix_nil List.not_mem_nil hafter (hsynced a)
  exact ⟨fun h => ⟨htwice.mp h.twice, hkept.mp h.kept, (hlast (htwice.mp h.twice)).mp h.last⟩,
    fun ⟨hend, hreturn, hspelled⟩ => ⟨(hlast hend).mpr hspelled, htwice.mpr hend, hkept.mpr hreturn⟩⟩

section Block
variable {s : String} {between : List Char} (hblock : managedBlock s = some (before, between, after))
include hblock

/-- A block that is read as the one of the profile is left alone. -/
theorem lossless_same (hsame : universal between = framed a) : Lossless a b (some s) := by
  have hsynced : synced a (some s) = s := by rw [← String.toList_inj, synced_block hblock, if_pos hsame]
  refine ⟨by rw [hsynced], by rw [hsynced, hsynced], profileManagedBegin.toList ++ (between ++ profileManagedEnd.toList), ?_⟩
  rw [hsynced, userText, hblock, (managedBlock_eq_some.mp hblock).1]
  simp only [List.append_assoc]

theorem kept_block (hother : universal between ≠ framed a) :
    (∃ managed, (synced a (some s)).toList = (userText (some s)).1 ++ (managed ++ (userText (some s)).2)) ↔
      '\r' ∉ before ∧ '\r' ∉ after := by
  rw [synced_block hblock, if_neg hother, userText, hblock]
  constructor
  · rintro ⟨managed, h⟩
    constructor
    · exact prefix_of_universal ⟨managed ++ after, h.symm⟩
    · have hparts : placed a (universal before) [] ++ universal after = before ++ (managed ++ after) := by
        rw [← placed_append, List.nil_append]
        exact h
      exact suffix_of_universal (getLast_placed List.not_mem_nil) ⟨before ++ managed, by rw [hparts, List.append_assoc]⟩
  · rintro ⟨hbefore, hafter⟩
    refine ⟨placed a [] [], ?_⟩
    rw [universal_of_notMem hbefore, universal_of_notMem hafter]
    simp only [placed, List.append_assoc, List.nil_append]

theorem lossless_block (hother : universal between ≠ framed a) : Lossless a b (some s) ↔
    ¬ profileManagedEnd.toList <:+: framed a ∧ '\r' ∉ before ∧ '\r' ∉ after ∧
      (between = framed a ∨ (¬ Respelled (framed a) (framed b) ∧ ¬ Respelled between (framed b))) := by
  obtain ⟨htext, hb, -⟩ := managedBlock_eq_some.mp hblock
  have hkept := kept_block hblock hother
  by_cases hreturn : '\r' ∉ before ∧ '\r' ∉ after
  · obtain ⟨hbefore, hafter⟩ := hreturn
    have hsynced (p : Profile) : (synced p (some s)).toList =
        if universal between = framed p then s.toList else placed p before after := by
      rw [synced_block hblock, universal_of_notMem hbefore, universal_of_notMem hafter]
    have hplaced : (synced a (some s)).toList = placed a before after := by rw [hsynced, if_neg hother]
    have htwice := twice_iff hb hbefore hafter hplaced
    have hlast (hend : ¬ profileManagedEnd.toList <:+: framed a) :
        synced b (some (synced a (some s))) = synced b (some s) ↔
          between = framed a ∨ (¬ Respelled (framed a) (framed b) ∧ ¬ Respelled between (framed b)) := by
      rw [last_iff hb hbefore hafter hplaced hend, hsynced, not_respelled_iff, not_respelled_iff]
      have hblocks (p : Profile) : s.toList = placed p before after ↔ between = framed p := by
        rw [htext, placed]
        simp
      by_cases hread : universal between = framed b <;> by_cases hspelled : universal (framed a) = framed b
      · rw [if_pos hread, if_pos hspelled, hblocks]
        exact ⟨.inl, fun h => h.elim id fun ⟨ha, hm⟩ => (hm hread).trans (ha hspelled).symm⟩
      · rw [if_pos hread, if_neg hspelled, hblocks]
        refine ⟨fun h => .inr ⟨fun he => absurd he hspelled, fun _ => h⟩, fun h => h.elim (fun he => ?_) fun h => h.2 hread⟩
        exact absurd (he ▸ hread) hspelled
      · rw [if_neg hread, if_pos hspelled, placed_inj]
        refine ⟨fun h => .inr ⟨fun _ => h.symm, fun he => absurd he hread⟩, fun h => h.elim (fun he => ?_) fun h => (h.1 hspelled).symm⟩
        exact absurd (he ▸ hspelled) hread
      · rw [if_neg hread, if_neg hspelled]
        exact iff_of_true rfl (.inr ⟨fun he => absurd he hspelled, fun he => absurd he hread⟩)
    exact ⟨fun h => ⟨htwice.mp h.twice, hbefore, hafter, (hlast (htwice.mp h.twice)).mp h.last⟩,
      fun ⟨hend, _, _, hspelled⟩ => ⟨(hlast hend).mpr hspelled, htwice.mpr hend, hkept.mpr ⟨hbefore, hafter⟩⟩⟩
  · exact iff_of_false (fun h => hreturn (hkept.mp h.kept)) fun h => hreturn ⟨h.2.1, h.2.2.1⟩

end Block

/-- Syncing does what it should exactly with clean texts, where a run of the daemon does what `synced` says. -/
theorem profile_sync_iff (a b : Profile) (file : Option String) :
    (∀ (p : Profile) (f : Option String), Proc.Does (Has · f) (syncProfileBriefing p)
      (fun _ t => Has t (some (synced p f))) (fun _ t => Has t f) fun _ => True) ∧
    (Lossless a b file ↔ Clean a b file) := by
  refine ⟨fun p f => outcome_sync, ?_⟩
  rw [Clean, ← end_framed_iff]
  cases file with
  | none =>
    have hnone : ((none : Option String).getD "").toList = [] := rfl
    have hsynced (p : Profile) : (synced p none).toList = placed p [] (['\n'] ++ universal (Option.getD none "").toList) := by
      rw [hnone, synced, toList_profileBlock]
      rfl
    rw [lossless_new rfl (by decide) hsynced, hnone]
    exact and_congr_right fun _ => ⟨And.right, fun h => ⟨List.not_mem_nil, h⟩⟩
  | some s =>
    rw [Plainly]
    cases hblock : managedBlock s with
    | none =>
      have huser : userText (some s) = ([], s.toList) := by rw [userText, hblock]
      have hsynced (p : Profile) : (synced p (some s)).toList =
          placed p [] (['\n', '\n'] ++ universal (Option.getD (some s) "").toList) := by
        rw [synced_plain hblock]
        rfl
      exact lossless_new huser (by decide) hsynced
    | some parts =>
      obtain ⟨before, between, after⟩ := parts
      by_cases hsame : universal between = framed a
      · have hend : ¬ profileManagedEnd.toList <:+: framed a := fun h =>
          (managedBlock_eq_some.mp hblock).2.2 (end_infix_universal.mp (hsame ▸ h))
        exact iff_of_true (lossless_same hblock hsame) ⟨hend, .inl hsame⟩
      · rw [lossless_block hblock hsame]
        exact and_congr_right fun _ => (or_iff_right hsame).symm

/-- A profile whose soul quotes the marker. -/
def quotingProfile : Profile := { soul := "<!-- /puffo:managed-profile -->" }

/-- What follows the marker in the soul stays in the file, once more with each start. -/
theorem marker_in_soul_grows : ¬ Lossless quotingProfile quotingProfile none := fun h => by
  have hsynced : (synced quotingProfile none).toList = placed quotingProfile [] ['\n'] := by rw [synced, toList_profileBlock]
  have hend := (twice_iff begin_not_infix_nil List.not_mem_nil (by decide) hsynced).mp h.twice
  refine hend ((end_infix_framed quotingProfile).mpr ⟨strip quotingProfile.soul, by simp [Profile.shown], ?_⟩)
  decide +kernel

end Lossless
end PuffoAgent.Memory
