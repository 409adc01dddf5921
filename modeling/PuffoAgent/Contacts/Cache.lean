import Mathlib.Data.Finset.Sort
import PuffoAgent.Machine.Run
import PuffoAgent.Text.Python
import Mathlib.Data.String.Basic
import Mathlib.Order.RelClasses

/-! The contact cache: refreshes that replace both sets from two server reads, decisions that are noted meanwhile, and
the local state of a keyless transport. -/
namespace PuffoAgent.Contacts
open Text Machine

section Answers

/-- `answer.get(key) or []`, as a list of entries; `none` where reading or iterating it raises. -/
def entriesOf (key : String) : Json → Option (List Json)
  | .obj members => match Json.member key (.obj members) with
    | some (.arr entries) => some entries
    | some value => if value.truthy then none else some []
    | none => some []
  | _ => none

/-- The slug that `entry.get(key, "")` adds to a set, if it is one; `none` where it raises. -/
def slugOf (key : String) : Json → Option (List String)
  | .obj members => match Json.member key (.obj members) with
    | some (.str slug) => some [slug]
    | some (.arr _) | some (.obj _) => none
    | _ => some []
  | _ => none

/-- The slug of a blocked user; entries with another target are left out. -/
def blockedOf : Json → Option (List String)
  | .obj members => match Json.member "target" (.obj members) with
    | some (.str "user") => slugOf "id" (.obj members)
    | _ => some []
  | _ => none

def peerSlugs (answer : Json) : Option (Finset String) := do
  let entries ← entriesOf "entries" answer
  let slugs ← entries.mapM (slugOf "peer_slug")
  return slugs.flatten.toFinset.erase ""

def blockedUsers (answer : Json) : Option (Finset String) := do
  let blocks ← entriesOf "blocks" answer
  let slugs ← blocks.mapM blockedOf
  return slugs.flatten.toFinset.erase ""

end Answers
section Cache

/-- What reading the local state gives: no file, an error, or a value. -/
inductive LocalState where
  | absent
  | unreadable
  | parsed (raw : Json)

/-- `ContactCache`; slugs are strings, so other members of its sets are left out. -/
structure ContactCache where
  keyless : Bool
  localStatePath : Bool
  allow : Finset String := ∅
  block : Finset String := ∅
  hydrated : Bool := false
  localStateLoaded : Bool := false

/-- The two sets at the end of a refresh; a malformed answer raises where it is read. -/
def ContactCache.replace (c : ContactCache) (allow block : Json) : ContactCache :=
  match peerSlugs allow with
  | none => c
  | some allow => match blockedUsers block with
    | none => { c with allow }
    | some block => { c with allow, block, hydrated := true }

variable (host : Host)

/-- The set that an entry of the local state lists, where it is a list. -/
def localSet (raw : Option Json) (known : Finset String) : Finset String :=
  match raw with
  | some (.arr entries) => ((entries.filter Json.truthy).map host.str).toFinset.erase ""
  | _ => known

/-- What `_ensure_local_state` makes of the file. -/
def ContactCache.load (c : ContactCache) : LocalState → ContactCache
  | .absent | .unreadable => c
  | .parsed (.obj members) =>
    let allow := localSet host (Json.member "allow" (.obj members)) c.allow
    let block := localSet host (Json.member "block" (.obj members)) c.block
    { c with allow := allow \ block, block }
  | .parsed _ => { c with allow := c.allow \ c.block }

/-- `_ensure_local_state`. -/
def ContactCache.ensureLocalState (c : ContactCache) (file : LocalState) : ContactCache :=
  if c.localStateLoaded ∨ c.localStatePath = false then c
  else if c.keyless then { c with localStateLoaded := true }.load host file
  else { c with localStateLoaded := true }

/-- The value that `_persist_local_state` writes. -/
def ContactCache.document (c : ContactCache) : Json :=
  .obj [("allow", .arr ((c.allow.sort (· ≤ ·)).map .str)), ("block", .arr ((c.block.sort (· ≤ ·)).map .str))]

/-- What a decision leaves behind, and whether it raised. -/
structure Noted where
  cache : ContactCache
  file : LocalState
  raised : Bool

/-- `_persist_or_rollback`; the file is replaced as a whole or not at all. -/
def ContactCache.persistOrRollback (c before : ContactCache) (file : LocalState) (writes : Bool) : Noted :=
  if c.localStatePath = false ∨ c.keyless = false then ⟨c, file, false⟩
  else if writes then ⟨c, .parsed c.document, false⟩
  else ⟨{ c with allow := before.allow, block := before.block }, file, true⟩

/-- `note_allowed`. -/
def ContactCache.noteAllowed (c : ContactCache) (file : LocalState) (slug : String) (writes : Bool) : Noted :=
  if slug = "" then ⟨c, file, false⟩
  else
    let before := c.ensureLocalState host file
    let after := { before with
      allow := insert slug before.allow
      block := if before.keyless then before.block.erase slug else before.block }
    if before.keyless ∧ (slug ∈ before.block ∨ slug ∉ before.allow) then after.persistOrRollback before file writes
    else ⟨after, file, false⟩

/-- `note_blocked`. -/
def ContactCache.noteBlocked (c : ContactCache) (file : LocalState) (slug : String) (blocked writes : Bool) : Noted :=
  if slug = "" then ⟨c, file, false⟩
  else
    let before := c.ensureLocalState host file
    if blocked then
      let after := { before with
        allow := if before.keyless then before.allow.erase slug else before.allow
        block := insert slug before.block }
      if before.keyless ∧ (slug ∈ before.allow ∨ slug ∉ before.block) then after.persistOrRollback before file writes
      else ⟨after, file, false⟩
    else if slug ∈ before.block then
      let after := { before with block := before.block.erase slug }
      if before.keyless then after.persistOrRollback before file writes else ⟨after, file, false⟩
    else ⟨before, file, false⟩

end Cache
section Steps

/-- The read that a refresh is suspended at, and the answers that it has. -/
inductive Flight where
  | allowlists
  | blocklists (allow : Json)

/-- A cache with its file and the refreshes in flight. -/
structure Process where
  cache : ContactCache
  file : LocalState
  flights : Nat → Option Flight

/-- A cache as a start of the process makes it. -/
def Process.opened (keyless localStatePath : Bool) (file : LocalState) : Process :=
  ⟨{ keyless, localStatePath }, file, fun _ => none⟩

inductive Event where
  /-- A call of `refresh`, by itself or by a question about a slug. -/
  | refresh (id : Nat)
  /-- The server answers the read of a refresh, or the read raises. -/
  | answer (id : Nat) (answer : Option Json)
  /-- `is_allowed` or `is_blocked`, up to the refresh that it may begin. -/
  | ask (slug : String)
  | noteAllowed (slug : String) (writes : Bool)
  | noteBlocked (slug : String) (blocked writes : Bool)
  | restart

variable (host : Host)

def Process.settle (w : Process) (noted : Noted) : Process := { w with cache := noted.cache, file := noted.file }

/-- An answer reaches its refresh. -/
def Process.answered (w : Process) (id : Nat) (answer : Option Json) : Process :=
  match w.flights id, answer with
  | none, _ => w
  | some _, none => { w with flights := Function.update w.flights id none }
  | some .allowlists, some allow => { w with flights := Function.update w.flights id (some (.blocklists allow)) }
  | some (.blocklists allow), some block =>
    { w with cache := w.cache.replace allow block, flights := Function.update w.flights id none }

def Process.step (w : Process) : Event → Process
  | .refresh id =>
    if w.cache.keyless ∨ (w.flights id).isSome then w
    else { w with flights := Function.update w.flights id (some .allowlists) }
  | .answer id answer => w.answered id answer
  | .ask slug => if slug = "" then w else { w with cache := w.cache.ensureLocalState host w.file }
  | .noteAllowed slug writes => w.settle (w.cache.noteAllowed host w.file slug writes)
  | .noteBlocked slug blocked writes => w.settle (w.cache.noteBlocked host w.file slug blocked writes)
  | .restart => .opened w.cache.keyless w.cache.localStatePath w.file

/-- The state after `events`. -/
def Process.after (w : Process) (events : List Event) : Process := run (Process.step host) w events

end Steps
section Decisions

/-- A decision about a slug that was noted. -/
inductive Decision where
  | allowed (slug : String)
  | blocked (slug : String) (isBlocked : Bool)

namespace Decision

def slug : Decision → String
  | .allowed slug | .blocked slug _ => slug

def note (writes : Bool) : Decision → Event
  | .allowed slug => .noteAllowed slug writes
  | .blocked slug isBlocked => .noteBlocked slug isBlocked writes

def inForce : Decision → ContactCache → Bool
  | .allowed slug, c => slug ∈ c.allow
  | .blocked slug isBlocked, c => decide (slug ∈ c.block) = isBlocked

/-- A later decision takes the place of this one, or a restart that of the cache. -/
def SupersededBy : Decision → Event → Prop
  | _, .restart => True
  | .allowed slug, .noteAllowed slug' _ => slug' = slug
  | .blocked slug _, .noteBlocked slug' _ _ => slug' = slug
  | _, _ => False

/-- What the two answers of a refresh say of a decision, if they replace its set. -/
def listed : Decision → Json → Json → Option Bool
  | .allowed slug, allow, _ => (peerSlugs allow).map fun slugs => slug ∈ slugs
  | .blocked slug isBlocked, allow, block =>
    (peerSlugs allow).bind fun _ => (blockedUsers block).map fun slugs => decide (slug ∈ slugs) = isBlocked

/-- What the answers of a refresh that ends with an event say of a decision. -/
def answeredBy (d : Decision) (w : Process) : Event → Option Bool
  | .answer id (some block) => match w.flights id with
    | some (.blocklists allow) => d.listed allow block
    | _ => none
  | _ => none

variable (host : Host)

/-- The last answers that replace the set of a decision agree with it, or `agrees` where there are none. -/
def stands (d : Decision) : Process → List Event → Bool → Bool
  | _, [], agrees => agrees
  | w, e :: events, agrees => stands d (w.step host e) events ((d.answeredBy w e).getD agrees)

/-- On a signed cache, a decision is noted while a refresh is in flight that ends with `last`; none supersedes it. -/
structure NotedInFlight (d : Decision) (w : Process) (id : Nat) (writes : Bool) (events : List Event)
    (answer : Option Json) : Prop where
  signed : w.cache.keyless = false
  named : d.slug ≠ ""
  inFlight : (w.flights id).isSome
  unrevised : ∀ e ∈ events, ¬ d.SupersededBy e
  pending : ((w.after host (d.note writes :: events)).flights id).isSome
  ends : (w.after host (d.note writes :: events ++ [.answer id answer])).flights id = none

end Decision
variable {host : Host} {c : ContactCache} {w : Process} {file : LocalState} {d : Decision} {slug : String}
  {writes : Bool} {events : List Event}

theorem ensureLocalState_signed (host : Host) (h : c.keyless = false) (file : LocalState) :
    ∃ loaded, c.ensureLocalState host file = { c with localStateLoaded := loaded } := by
  rw [ContactCache.ensureLocalState]
  split_ifs with hloaded hkeyless
  · exact ⟨c.localStateLoaded, rfl⟩
  · rw [h] at hkeyless
    cases hkeyless
  · exact ⟨true, rfl⟩

theorem noteAllowed_signed (host : Host) (h : c.keyless = false) (file : LocalState) (hslug : slug ≠ "") (writes : Bool) :
    ∃ loaded, (c.noteAllowed host file slug writes).cache =
      { c with allow := insert slug c.allow, localStateLoaded := loaded } := by
  obtain ⟨loaded, hensure⟩ := ensureLocalState_signed host h file
  refine ⟨loaded, ?_⟩
  rw [ContactCache.noteAllowed, if_neg hslug, hensure]
  simp [h]

theorem noteBlocked_signed (host : Host) (h : c.keyless = false) (file : LocalState) (hslug : slug ≠ "") (blocked writes : Bool) :
    ∃ loaded, (c.noteBlocked host file slug blocked writes).cache =
      { c with block := if blocked then insert slug c.block else c.block.erase slug, localStateLoaded := loaded } := by
  obtain ⟨loaded, hensure⟩ := ensureLocalState_signed host h file
  refine ⟨loaded, ?_⟩
  rw [ContactCache.noteBlocked, if_neg hslug, hensure]
  cases blocked with
  | true => simp [h]
  | false =>
    by_cases hmem : slug ∈ c.block
    · simp [h, hmem]
    · simp [hmem]

theorem replace_keyless (c : ContactCache) (allow block : Json) : (c.replace allow block).keyless = c.keyless := by
  rw [ContactCache.replace]
  split
  · rfl
  · split <;> rfl

/-- At the end of a refresh, its answers decide where they replace the set. -/
theorem inForce_replace (d : Decision) (c : ContactCache) (allow block : Json) :
    d.inForce (c.replace allow block) = (d.listed allow block).getD (d.inForce c) := by
  rw [ContactCache.replace]
  cases hallow : peerSlugs allow with
  | none => cases d <;> simp [Decision.listed, hallow]
  | some slugs =>
    cases hblock : blockedUsers block with
    | none => cases d <;> simp [Decision.listed, Decision.inForce, hallow, hblock]
    | some blocks => cases d <;> simp [Decision.listed, Decision.inForce, hallow, hblock]

theorem step_signed (h : w.cache.keyless = false) (e : Event) : (w.step host e).cache.keyless = false := by
  cases e with
  | refresh id =>
    rw [Process.step]
    split_ifs <;> exact h
  | answer id answer =>
    rw [Process.step]
    unfold Process.answered
    split
    · exact h
    · exact h
    · exact h
    · exact (replace_keyless _ _ _).trans h
  | ask slug =>
    obtain ⟨loaded, hensure⟩ := ensureLocalState_signed host h w.file
    rw [Process.step]
    split_ifs
    · exact h
    · rw [hensure]
      exact h
  | noteAllowed slug writes =>
    by_cases hslug : slug = ""
    · simpa [Process.step, Process.settle, ContactCache.noteAllowed, hslug] using h
    · obtain ⟨loaded, hnoted⟩ := noteAllowed_signed host h w.file hslug writes
      rw [Process.step, Process.settle, hnoted]
      exact h
  | noteBlocked slug blocked writes =>
    by_cases hslug : slug = ""
    · simpa [Process.step, Process.settle, ContactCache.noteBlocked, hslug] using h
    · obtain ⟨loaded, hnoted⟩ := noteBlocked_signed host h w.file hslug blocked writes
      rw [Process.step, Process.settle, hnoted]
      exact h
  | restart => exact h

/-- On a signed cache only answers and later decisions change whether a decision is in force. -/
theorem step_inForce (h : w.cache.keyless = false) {e : Event} (he : ¬ d.SupersededBy e) :
    d.inForce (w.step host e).cache = (d.answeredBy w e).getD (d.inForce w.cache) := by
  cases e with
  | refresh id =>
    rw [Process.step]
    split_ifs <;> rfl
  | answer id reply =>
    rw [Process.step]
    cases hflight : w.flights id with
    | none => cases reply <;> simp [Process.answered, Decision.answeredBy, hflight]
    | some flight =>
      cases flight with
      | allowlists => cases reply <;> simp [Process.answered, Decision.answeredBy, hflight]
      | blocklists allow => cases reply <;> simp [Process.answered, Decision.answeredBy, hflight, inForce_replace]
  | ask slug =>
    obtain ⟨loaded, hensure⟩ := ensureLocalState_signed host h w.file
    rw [Process.step]
    split_ifs
    · rfl
    · rw [hensure]
      cases d <;> rfl
  | noteAllowed slug writes =>
    by_cases hslug : slug = ""
    · simp [Process.step, Process.settle, ContactCache.noteAllowed, hslug, Decision.answeredBy]
    · obtain ⟨loaded, hnoted⟩ := noteAllowed_signed host h w.file hslug writes
      rw [Process.step, Process.settle, hnoted]
      cases d with
      | allowed slug' =>
        have hne : slug' ≠ slug := fun heq => he heq.symm
        simp [Decision.inForce, Decision.answeredBy, hne]
      | blocked slug' blocked => rfl
  | noteBlocked slug blocked writes =>
    by_cases hslug : slug = ""
    · simp [Process.step, Process.settle, ContactCache.noteBlocked, hslug, Decision.answeredBy]
    · obtain ⟨loaded, hnoted⟩ := noteBlocked_signed host h w.file hslug blocked writes
      rw [Process.step, Process.settle, hnoted]
      cases d with
      | allowed slug' => rfl
      | blocked slug' blocked' =>
        have hne : slug' ≠ slug := fun heq => he heq.symm
        cases blocked <;> simp [Decision.inForce, Decision.answeredBy, hne]
  | restart => exact absurd trivial he

/-- Until it is superseded, a decision is in force as the last answers that replace its set say. -/
theorem run_inForce (h : w.cache.keyless = false) (hevents : ∀ e ∈ events, ¬ d.SupersededBy e) :
    d.inForce (w.after host events).cache = d.stands host w events (d.inForce w.cache) := by
  induction events generalizing w with
  | nil => rfl
  | cons e events ih =>
    rw [Decision.stands, ← step_inForce h (hevents e List.mem_cons_self)]
    exact ih (step_signed h e) fun e' he' => hevents e' (List.mem_cons_of_mem e he')

/-- A decision is in force as soon as it is noted. -/
theorem note_inForce (host : Host) (h : w.cache.keyless = false) (hslug : d.slug ≠ "") (writes : Bool) :
    d.inForce (w.step host (d.note writes)).cache = true := by
  cases d with
  | allowed slug =>
    change slug ≠ "" at hslug
    obtain ⟨loaded, hnoted⟩ := noteAllowed_signed host h w.file hslug writes
    change Decision.inForce (.allowed slug) (w.cache.noteAllowed host w.file slug writes).cache = true
    rw [hnoted]
    simp [Decision.inForce]
  | blocked slug blocked =>
    change slug ≠ "" at hslug
    obtain ⟨loaded, hnoted⟩ := noteBlocked_signed host h w.file hslug blocked writes
    change Decision.inForce (.blocked slug blocked) (w.cache.noteBlocked host w.file slug blocked writes).cache = true
    rw [hnoted]
    cases blocked <;> simp [Decision.inForce]

end Decisions
section Keyless
variable {host : Host} {c before : ContactCache} {w : Process} {file : LocalState} {slug : String} {writes : Bool}

/-- The two sets exclude each other on a keyless cache. -/
structure Apart (c : ContactCache) : Prop where
  keyless : c.keyless = true
  disjoint : Disjoint c.allow c.block

/-- What a keyless cache with a path answers from after a restart. -/
def reloaded (host : Host) (file : LocalState) : ContactCache :=
  ({ keyless := true, localStatePath := true } : ContactCache).ensureLocalState host file

/-- A loaded cache holds what is in its file. -/
structure Mirrors (host : Host) (file : LocalState) (c : ContactCache) : Prop extends Apart c where
  path : c.localStatePath = true
  loaded : c.localStateLoaded = true
  named : "" ∉ c.allow ∧ "" ∉ c.block
  sets : c.allow = (reloaded host file).allow ∧ c.block = (reloaded host file).block

theorem Apart.ensure (h : Apart c) (file : LocalState) : Apart (c.ensureLocalState host file) := by
  rw [ContactCache.ensureLocalState]
  split_ifs
  · exact h
  · unfold ContactCache.load
    split
    · exact ⟨h.keyless, h.disjoint⟩
    · exact ⟨h.keyless, h.disjoint⟩
    · exact ⟨h.keyless, Finset.sdiff_disjoint⟩
    · exact ⟨h.keyless, Finset.sdiff_disjoint⟩
  · exact ⟨h.keyless, h.disjoint⟩

theorem Apart.persist (h : Apart c) (hbefore : Apart before) (file : LocalState) (writes : Bool) :
    Apart (c.persistOrRollback before file writes).cache := by
  rw [ContactCache.persistOrRollback]
  split_ifs
  · exact h
  · exact h
  · exact ⟨h.keyless, hbefore.disjoint⟩

theorem Apart.insert_allow (h : Apart c) (slug : String) :
    Apart { c with allow := insert slug c.allow, block := c.block.erase slug } := by
  refine ⟨h.keyless, Finset.disjoint_left.mpr fun a ha hb => ?_⟩
  obtain ⟨hne, hblock⟩ := Finset.mem_erase.mp hb
  obtain rfl | hallow := Finset.mem_insert.mp ha
  · exact hne rfl
  · exact Finset.disjoint_left.mp h.disjoint hallow hblock

theorem Apart.insert_block (h : Apart c) (slug : String) :
    Apart { c with allow := c.allow.erase slug, block := insert slug c.block } := by
  refine ⟨h.keyless, Finset.disjoint_left.mpr fun a ha hb => ?_⟩
  obtain ⟨hne, hallow⟩ := Finset.mem_erase.mp ha
  obtain rfl | hblock := Finset.mem_insert.mp hb
  · exact hne rfl
  · exact Finset.disjoint_left.mp h.disjoint hallow hblock

theorem Apart.erase_block (h : Apart c) (slug : String) : Apart { c with block := c.block.erase slug } :=
  ⟨h.keyless, h.disjoint.mono_right (Finset.erase_subset slug c.block)⟩

/-- An allow on a keyless cache: the sets change and are persisted, or nothing does. -/
theorem noteAllowed_keyless (h : (c.ensureLocalState host file).keyless = true) (hslug : slug ≠ "") :
    c.noteAllowed host file slug writes =
      let before := c.ensureLocalState host file
      if slug ∈ before.block ∨ slug ∉ before.allow then
        { before with allow := insert slug before.allow, block := before.block.erase slug }.persistOrRollback before
          file writes
      else ⟨before, file, false⟩ := by
  rw [ContactCache.noteAllowed, if_neg hslug]
  generalize c.ensureLocalState host file = before at h
  obtain ⟨keyless, path, allow, block, hydrated, loaded⟩ := before
  obtain rfl : keyless = true := h
  simp only [if_true, true_and]
  split_ifs with hchanged
  · rfl
  · obtain ⟨hblock, hallow⟩ := not_or.mp hchanged
    rw [Finset.insert_eq_of_mem (not_not.mp hallow), Finset.erase_eq_of_notMem hblock]

/-- A block on a keyless cache, and the end of one. -/
theorem noteBlocked_keyless (h : (c.ensureLocalState host file).keyless = true) (hslug : slug ≠ "") (blocked : Bool) :
    c.noteBlocked host file slug blocked writes =
      let before := c.ensureLocalState host file
      if blocked then
        if slug ∈ before.allow ∨ slug ∉ before.block then
          { before with allow := before.allow.erase slug, block := insert slug before.block }.persistOrRollback before
            file writes
        else ⟨before, file, false⟩
      else if slug ∈ before.block then
        { before with block := before.block.erase slug }.persistOrRollback before file writes
      else ⟨before, file, false⟩ := by
  rw [ContactCache.noteBlocked, if_neg hslug]
  generalize c.ensureLocalState host file = before at h
  obtain ⟨keyless, path, allow, block, hydrated, loaded⟩ := before
  obtain rfl : keyless = true := h
  simp only [if_true, true_and]
  split_ifs with hblocked hchanged
  · rfl
  · obtain ⟨hallow, hblock⟩ := not_or.mp hchanged
    rw [Finset.insert_eq_of_mem (not_not.mp hblock), Finset.erase_eq_of_notMem hallow]
  · rfl
  · rfl

theorem Apart.noteAllowed (h : Apart c) (file : LocalState) (slug : String) (writes : Bool) :
    Apart (c.noteAllowed host file slug writes).cache := by
  have hensured : Apart (c.ensureLocalState host file) := h.ensure file
  by_cases hslug : slug = ""
  · rw [ContactCache.noteAllowed, if_pos hslug]
    exact h
  · rw [noteAllowed_keyless hensured.keyless hslug]
    dsimp only
    split_ifs
    · exact (hensured.insert_allow slug).persist hensured file writes
    · exact hensured

theorem Apart.noteBlocked (h : Apart c) (file : LocalState) (slug : String) (blocked writes : Bool) :
    Apart (c.noteBlocked host file slug blocked writes).cache := by
  have hensured : Apart (c.ensureLocalState host file) := h.ensure file
  by_cases hslug : slug = ""
  · rw [ContactCache.noteBlocked, if_pos hslug]
    exact h
  · rw [noteBlocked_keyless hensured.keyless hslug]
    dsimp only
    split_ifs
    · exact (hensured.insert_block slug).persist hensured file writes
    · exact hensured
    · exact (hensured.erase_block slug).persist hensured file writes
    · exact hensured

/-- A keyless cache has no refresh in flight. -/
structure Quiet (w : Process) : Prop where
  apart : Apart w.cache
  idle : ∀ id, w.flights id = none

theorem Quiet.answered (h : Quiet w) (id : Nat) (answer : Option Json) : w.answered id answer = w := by
  rw [Process.answered.eq_def, h.idle id]

theorem Quiet.refresh (h : Quiet w) (id : Nat) : w.step host (.refresh id) = w := by
  rw [Process.step, if_pos (.inl h.apart.keyless)]

theorem Quiet.step (h : Quiet w) (e : Event) : Quiet (w.step host e) := by
  cases e with
  | refresh id =>
    rw [h.refresh]
    exact h
  | answer id answer =>
    rw [Process.step, h.answered]
    exact h
  | ask slug =>
    rw [Process.step]
    split_ifs
    · exact h
    · exact ⟨h.apart.ensure w.file, h.idle⟩
  | noteAllowed slug writes => exact ⟨h.apart.noteAllowed w.file slug writes, h.idle⟩
  | noteBlocked slug blocked writes => exact ⟨h.apart.noteBlocked w.file slug blocked writes, h.idle⟩
  | restart => exact ⟨⟨h.apart.keyless, Finset.disjoint_empty_left _⟩, fun _ => rfl⟩

theorem quiet_opened (path : Bool) (file : LocalState) : Quiet (.opened true path file) :=
  ⟨⟨rfl, Finset.disjoint_empty_left _⟩, fun _ => rfl⟩

theorem localSet_written (host : Host) {slugs : Finset String} (h : "" ∉ slugs) (known : Finset String) :
    localSet host (some (.arr ((slugs.sort (· ≤ ·)).map .str))) known = slugs := by
  ext slug
  simp only [localSet, Finset.mem_erase, List.mem_toFinset, List.mem_map, List.mem_filter]
  constructor
  · rintro ⟨-, entry, ⟨⟨slug', hslug, rfl⟩, -⟩, rfl⟩
    rw [host.str_str]
    exact (Finset.mem_sort _).mp hslug
  · intro hslug
    have hne : slug ≠ "" := fun heq => h (heq ▸ hslug)
    refine ⟨hne, .str slug, ⟨⟨slug, (Finset.mem_sort _).mpr hslug, rfl⟩, ?_⟩, host.str_str slug⟩
    exact decide_eq_true hne

/-- What is written is read back. -/
theorem reloaded_document (host : Host) (hdisjoint : Disjoint c.allow c.block) (hnamed : "" ∉ c.allow ∧ "" ∉ c.block) :
    (reloaded host (.parsed c.document)).allow = c.allow ∧ (reloaded host (.parsed c.document)).block = c.block := by
  have hallow := localSet_written host hnamed.1 ∅
  have hblock := localSet_written host hnamed.2 ∅
  constructor
  · change localSet host (some (.arr ((c.allow.sort (· ≤ ·)).map .str))) ∅ \
      localSet host (some (.arr ((c.block.sort (· ≤ ·)).map .str))) ∅ = c.allow
    rw [hallow, hblock]
    exact hdisjoint.sdiff_eq_left
  · exact hblock

theorem localSet_named {raw : Option Json} {known : Finset String} (h : "" ∉ known) : "" ∉ localSet host raw known := by
  rw [localSet.eq_def]
  split
  · exact Finset.notMem_erase _ _
  · exact h

theorem reloaded_mirrors (host : Host) (file : LocalState) : Mirrors host file (reloaded host file) where
  toApart := Apart.ensure ⟨rfl, Finset.disjoint_empty_left _⟩ file
  path := by cases file with
    | absent => rfl
    | unreadable => rfl
    | parsed raw => cases raw <;> rfl
  loaded := by cases file with
    | absent => rfl
    | unreadable => rfl
    | parsed raw => cases raw <;> rfl
  named := by
    have hempty : "" ∉ (∅ : Finset String) := Finset.notMem_empty _
    cases file with
    | absent => exact ⟨hempty, hempty⟩
    | unreadable => exact ⟨hempty, hempty⟩
    | parsed raw =>
      cases raw with
      | obj members => exact ⟨fun h => localSet_named hempty (Finset.mem_sdiff.mp h).1, localSet_named hempty⟩
      | _ => exact ⟨hempty, hempty⟩
  sets := ⟨rfl, rfl⟩

theorem Mirrors.ensure (h : Mirrors host file c) : c.ensureLocalState host file = c := by
  rw [ContactCache.ensureLocalState, if_pos (.inl h.loaded)]

/-- A write that fails restores the sets that the file holds, and one that succeeds makes the file hold the new ones. -/
theorem Mirrors.persist (h : Mirrors host file before) (hc : Apart c) (hpath : c.localStatePath = true)
    (hloaded : c.localStateLoaded = true) (hnamed : "" ∉ c.allow ∧ "" ∉ c.block) (writes : Bool) :
    Mirrors host (c.persistOrRollback before file writes).file (c.persistOrRollback before file writes).cache := by
  rw [ContactCache.persistOrRollback, if_neg (by simp [hpath, hc.keyless])]
  split_ifs
  · obtain ⟨hallow, hblock⟩ := reloaded_document host hc.disjoint hnamed
    exact ⟨hc, hpath, hloaded, hnamed, hallow.symm, hblock.symm⟩
  · exact ⟨⟨hc.keyless, h.disjoint⟩, hpath, hloaded, h.named, h.sets⟩

theorem Mirrors.noteAllowed (h : Mirrors host file (c.ensureLocalState host file)) (hslug : slug ≠ "") (writes : Bool) :
    Mirrors host (c.noteAllowed host file slug writes).file (c.noteAllowed host file slug writes).cache := by
  rw [noteAllowed_keyless h.keyless hslug]
  dsimp only
  split_ifs
  · refine h.persist (h.insert_allow slug) h.path h.loaded ⟨?_, ?_⟩ writes
    · simp [h.named.1, Ne.symm hslug]
    · simp [h.named.2]
  · exact h

theorem Mirrors.noteBlocked (h : Mirrors host file (c.ensureLocalState host file)) (hslug : slug ≠ "")
    (blocked writes : Bool) :
    Mirrors host (c.noteBlocked host file slug blocked writes).file
      (c.noteBlocked host file slug blocked writes).cache := by
  rw [noteBlocked_keyless h.keyless hslug]
  dsimp only
  split_ifs
  · refine h.persist (h.insert_block slug) h.path h.loaded ⟨?_, ?_⟩ writes
    · simp [h.named.1]
    · simp [h.named.2, Ne.symm hslug]
  · exact h
  · refine h.persist (h.erase_block slug) h.path h.loaded ⟨h.named.1, ?_⟩ writes
    simp [h.named.2]
  · exact h

/-- A keyless cache with a path has not read its file yet, or holds what is in it. -/
structure Kept (host : Host) (w : Process) : Prop extends Quiet w where
  held : w.cache = { keyless := true, localStatePath := true } ∨ Mirrors host w.file w.cache

/-- From its first use on, the cache holds what is in the file. -/
theorem Kept.ensure (h : Kept host w) : Mirrors host w.file (w.cache.ensureLocalState host w.file) := by
  obtain hfresh | hmirrors := h.held
  · rw [hfresh]
    exact reloaded_mirrors host w.file
  · rw [hmirrors.ensure]
    exact hmirrors

theorem Kept.step (h : Kept host w) (e : Event) : Kept host (w.step host e) := by
  refine ⟨h.toQuiet.step e, ?_⟩
  cases e with
  | refresh id =>
    rw [h.refresh]
    exact h.held
  | answer id answer =>
    rw [Process.step, h.answered]
    exact h.held
  | ask slug =>
    rw [Process.step]
    split_ifs
    · exact h.held
    · exact .inr h.ensure
  | noteAllowed slug writes =>
    by_cases hslug : slug = ""
    · rw [Process.step, Process.settle, ContactCache.noteAllowed, if_pos hslug]
      exact h.held
    · exact .inr (h.ensure.noteAllowed hslug writes)
  | noteBlocked slug blocked writes =>
    by_cases hslug : slug = ""
    · rw [Process.step, Process.settle, ContactCache.noteBlocked, if_pos hslug]
      exact h.held
    · exact .inr (h.ensure.noteBlocked hslug blocked writes)
  | restart =>
    have hkeyless := h.apart.keyless
    have hpath : w.cache.localStatePath = true := by
      obtain hfresh | hmirrors := h.held
      · rw [hfresh]
      · exact hmirrors.path
    rw [Process.step, hkeyless, hpath]
    exact .inl rfl

theorem kept_opened (host : Host) (file : LocalState) : Kept host (.opened true true file) := ⟨quiet_opened true file, .inl rfl⟩

end Keyless

/-- A decision that is noted on a signed cache while a refresh is in flight is in force at the end of that refresh if
and only if the last answers that replaced its set agree with it. On a keyless cache the two sets are disjoint after
every run, and with a path the cache answers from what a restart would load. -/
theorem contact_decisions_kept (host : Host) :
    (∀ (d : Decision) w id writes events answer, d.NotedInFlight host w id writes events answer →
      (d.inForce (w.after host (d.note writes :: events ++ [.answer id answer])).cache = true ↔
        d.stands host (w.step host (d.note writes)) (events ++ [.answer id answer]) true = true)) ∧
    ∀ path file events, let w := (Process.opened true path file).after host events
      Disjoint w.cache.allow w.cache.block ∧
      (path = true →
        (w.cache.ensureLocalState host w.file).allow = (reloaded host w.file).allow ∧
        (w.cache.ensureLocalState host w.file).block = (reloaded host w.file).block) := by
  refine ⟨fun d w id writes events answer h => ?_, fun path file events => ⟨?_, ?_⟩⟩
  · have hsuperseded : ∀ e ∈ events ++ [Event.answer id answer], ¬ d.SupersededBy e := by
      intro e he
      obtain he | he := List.mem_append.mp he
      · exact h.unrevised e he
      · rw [List.mem_singleton.mp he]
        cases d <;> exact not_false
    rw [← note_inForce host h.signed h.named writes, ← run_inForce (step_signed h.signed _) hsuperseded]
    exact Iff.rfl
  · exact (run_invariant (quiet_opened path file) (fun w e h => h.step e) events).apart.disjoint
  · rintro rfl
    exact (run_invariant (kept_opened host file) (fun w e h => h.step e) events).ensure.sets

/-- A refresh of a signed cache that has its answer about allows. -/
def refreshing : Process :=
  (Process.opened false false .absent).after asciiHost [.refresh 0, .answer 0 (some (.obj [("entries", .arr [])]))]

/-- An answer that no one is blocked. -/
def noBlocks : Json := .obj [("blocks", .arr [])]

/-- An answer that mallory is blocked. -/
def malloryBlocked : Json := .obj [("blocks", .arr [.obj [("target", .str "user"), ("id", .str "mallory")]])]

theorem block_noted_in_flight (block : Json) :
    Decision.NotedInFlight asciiHost (.blocked "mallory" true) refreshing 0 true [] (some block) where
  signed := rfl
  named := by decide
  inFlight := rfl
  unrevised := fun e he => absurd he List.not_mem_nil
  pending := rfl
  ends := rfl

/-- A block that is noted between the two reads of a refresh is not in force when the refresh ends. -/
theorem block_lost :
    Decision.NotedInFlight asciiHost (.blocked "mallory" true) refreshing 0 true [] (some noBlocks) ∧
      Decision.inForce (.blocked "mallory" true)
        (refreshing.after asciiHost [.noteBlocked "mallory" true true, .answer 0 (some noBlocks)]).cache = false :=
  ⟨block_noted_in_flight noBlocks, by decide +kernel⟩

/-- A block that the server answers with stays in force. -/
theorem contact_decisions_kept_answered :
    Decision.inForce (.blocked "mallory" true)
      (refreshing.after asciiHost [.noteBlocked "mallory" true true, .answer 0 (some malloryBlocked)]).cache = true :=
  ((contact_decisions_kept asciiHost).1 _ refreshing 0 true [] _ (block_noted_in_flight malloryBlocked)).mpr
    (by decide +kernel)

end PuffoAgent.Contacts
