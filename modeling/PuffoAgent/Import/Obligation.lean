import PuffoAgent.Effects.Interrupted

/-! Importing an agent replaces its device. The device it had is owed a revoke, and
`pending_revoke.json` is to remember that. -/
namespace PuffoAgent.Import
open Relational Effects

section Folders

/-- `pending_revoke.json`, or what is left of it when its write is cut off. -/
inductive Marker
  | names (oldDeviceId lastError : String)
  | torn

/-- What the import and its retry read of an agent's directory. `importedFrom` is in no file: it is
the device that the identity in the directory replaced. -/
structure Folder where
  yml : Bool := false
  running : Bool := false
  deviceId : Option String := none
  marker : Option Marker := none
  importedFrom : Option String := none

/-- One agent on this machine, `agents/.import-staging/<id>` and `agents/<id>`, and the devices whose
revoke the server has acknowledged. -/
structure Site where
  staging : Option Folder
  agent : Option Folder
  acked : List String

/-- How the world answers an effect. One that is done by halves then raises, or ends the process. -/
inductive Answer
  | done
  | fails (e : String)
  | half (e : Option String)
  | enrolled (deviceId : String)
  | acked (thenCut : Bool)

abbrev Task := Proc Answer Site String

structure OldIdentity where
  deviceId : String
  serverUrl : String

/-- The unpacked files of one agent: the identity that can be read from them, or why there is none. -/
structure Bundle where
  identity : Except String OldIdentity
  marker : Option Marker := none

inductive Result
  | imported (newDeviceId oldDeviceId : String)
  | importedPendingRevoke (newDeviceId oldDeviceId detail : String)
  | revoked (oldDeviceId : String)
  | skipped (detail : String)
  | failed (detail : String)

def stopped (e : Option String) : Stop String := e.elim .cut .raised

end Folders

section Effects

/-- An effect that is done or raises without a trace. -/
def attempt (f : Site → Site) : Task Unit := Proc.perform fun w s =>
  match w with
  | .done => (.ok (), f s)
  | .fails e => (.error (.raised e), s)
  | _ => (.error (.raised "unexpected"), s)

/-- `_cleanup_staging`, which ignores errors. -/
def cleanupStaging : Task Unit := do
  let isSome ← Proc.look (·.staging.isSome)
  if isSome then
    Proc.perform fun w s =>
      match w with
      | .done => (.ok (), { s with staging := none })
      | _ => (.ok (), s)
  else pure ()

/-- `_write_unpacked_private` and `sanitize_staged_agent`. -/
def writeUnpackedPrivate (b : Bundle) : Task Unit := do
  let isSome ← Proc.look (·.staging.isSome)
  Proc.refuse isSome "staging destination already exists"
  Proc.perform fun w s =>
    match w with
    | .done => (.ok (), { s with staging := some {
        yml := true
        deviceId := b.identity.toOption.map (·.deviceId)
        marker := b.marker } })
    | .half e => (.error (stopped e), { s with staging := some {} })
    | .fails e => (.error (.raised e), s)
    | _ => (.error (.raised "unexpected"), s)

/-- `_load_old_identity`. -/
def loadOldIdentity (b : Bundle) : Task OldIdentity :=
  match b.identity with
  | .ok old => pure old
  | .error e => Proc.raise e

/-- `_enroll_new_device`, with the id of the new device. -/
def enrollNewDevice : Task String := Proc.perform fun w s =>
  match w with
  | .enrolled deviceId => (.ok deviceId, s)
  | .fails e => (.error (.raised e), s)
  | _ => (.error (.raised "unexpected"), s)

/-- `_write_new_identity`: the identity, the session of a registered subkey and `agent.yml`. -/
def writeNewIdentity (newDeviceId : String) (subkey : Bool) : Task Unit := do
  attempt fun s => { s with staging := s.staging.map ({ · with deviceId := some newDeviceId }) }
  if subkey then do
    attempt id
    attempt id
  else attempt id

/-- `_commit_staging`. A move that is no rename copies, and can stop half way. -/
def commitStaging (oldDeviceId : String) : Task Unit := do
  let isSome ← Proc.look (·.agent.isSome)
  Proc.refuse isSome "agent dir appeared during import"
  Proc.perform fun w s =>
    let moved := s.staging.map ({ · with importedFrom := some oldDeviceId })
    match w with
    | .done => (.ok (), { s with staging := none, agent := moved })
    | .half e => (.error (stopped e), { s with agent := moved })
    | .fails e => (.error (.raised e), s)
    | _ => (.error (.raised "unexpected"), s)

/-- `_revoke_old_device`: the server acknowledges, or an error is raised that leaves open whether it
revoked the device. -/
def revokeOldDevice (oldDeviceId : String) : Task Unit := Proc.perform fun w s =>
  match w with
  | .acked thenCut => (if thenCut then .error .cut else .ok (), { s with acked := oldDeviceId :: s.acked })
  | .fails e => (.error (.raised e), s)
  | _ => (.error (.raised "unexpected"), s)

def Site.mark (s : Site) (m : Marker) : Site := { s with agent := some { s.agent.getD {} with marker := some m } }

/-- `_write_pending_revoke`, which writes the file in place. -/
def writePendingRevoke (oldDeviceId lastError : String) : Task Unit := Proc.perform fun w s =>
  match w with
  | .done => (.ok (), s.mark (.names oldDeviceId lastError))
  | .half e => (.error (stopped e), s.mark .torn)
  | .fails e => (.error (.raised e), s)
  | _ => (.error (.raised "unexpected"), s)

/-- `_set_state_running`. -/
def setStateRunning : Task Unit := attempt fun s => { s with agent := s.agent.map ({ · with running := true }) }

end Effects

section Import

/-- An import that is given up before anything is committed. -/
def abandon (detail : String) : Task (Result ⊕ String × String) := do
  cleanupStaging
  return .inl (.failed detail)

/-- The new device, and its identity in the staging directory. -/
def enrol (old : OldIdentity) : Task (Result ⊕ String × String) := do
  match (← Proc.caught enrollNewDevice) with
  | .error e => abandon ("enrollment failed: " ++ e)
  | .ok newDeviceId => do
    let subkey ← Proc.caught (attempt id)
    writeNewIdentity newDeviceId subkey.isOk
    return .inr (old.deviceId, newDeviceId)

/-- The import of an agent that is not there. -/
def stage (b : Bundle) : Task (Result ⊕ String × String) := do
  cleanupStaging
  writeUnpackedPrivate b
  let old ← loadOldIdentity b
  if old.serverUrl = "" then abandon "bundle missing server_url" else enrol old

/-- `_import_one` up to the commit: a result, or the old and the new device. -/
def prepare (b : Bundle) : Task (Result ⊕ String × String) := do
  match (← Proc.look (·.agent)) with
  | some a =>
    if a.yml then
      return .inl (.skipped (if a.marker.isSome then
        "agent already exists on this daemon — pending revoke; run `puffo-agent agent revoke-pending`"
      else "agent already exists on this daemon"))
    else stage b
  | none => stage b

/-- The rest of `_import_one`. -/
def conclude (oldDeviceId newDeviceId : String) : Task Result := do
  commitStaging oldDeviceId
  match (← Proc.caught (revokeOldDevice oldDeviceId)) with
  | .ok () =>
    let _ ← Proc.caught setStateRunning
    return .imported newDeviceId oldDeviceId
  | .error e =>
    writePendingRevoke oldDeviceId e
    let _ ← Proc.caught setStateRunning
    return .importedPendingRevoke newDeviceId oldDeviceId ("new device active; old revoke failed: " ++ e)

/-- `_import_one`. -/
def importOne (b : Bundle) : Task Result := do
  match (← prepare b) with
  | .inl result => return result
  | .inr (oldDeviceId, newDeviceId) => conclude oldDeviceId newDeviceId

/-- The body of the loop of `import_bundle`. -/
def importAgent (b : Bundle) : Task Result := Proc.rescue (importOne b) fun e => do
  cleanupStaging
  return .failed e

/-- `revoke_pending` for the device that the marker names. -/
def retryRevoke (oldDeviceId : String) : Task Result := do
  -- the configuration and the identity of the agent
  attempt id
  match (← Proc.caught (revokeOldDevice oldDeviceId)) with
  | .error e => do
    writePendingRevoke oldDeviceId e
    return .failed ("revoke retry failed: " ++ e)
  | .ok () => do
    let _ ← Proc.caught (attempt fun s => { s with agent := s.agent.map ({ · with marker := none }) })
    return .revoked oldDeviceId

/-- `revoke_pending`. -/
def revokePending : Task Result := do
  match (← Proc.look (·.agent)) with
  | none => return .failed "agent not found"
  | some a =>
    if a.yml = false then return .failed "agent not found"
    else match a.marker with
      | none => return .skipped "no pending revoke"
      | some .torn => Proc.raise "pending_revoke.json is unreadable"
      | some (.names oldDeviceId _) => retryRevoke oldDeviceId

end Import

section Purpose

/-- The device an imported identity replaced is revoked for sure, or the marker names it. -/
def Site.Obliged (s : Site) : Prop :=
  ∀ a old, s.agent = some a → a.importedFrom = some old → old ∉ s.acked → ∃ e, a.marker = some (.names old e)

/-- After the commit the revoke is acknowledged, or fails and its marker is written. -/
def Revoked : List Answer → Prop
  | .acked _ :: _ => True
  | _ :: .done :: _ => True
  | _ => False

/-- A commit that is done is followed by what settles the revoke; none is done by halves. -/
def Settled : List Answer → Prop
  | .done :: answers => Revoked answers
  | .half _ :: _ => False
  | _ => True

/-- A marker is not rewritten by halves. -/
def KeepsMarker : List Answer → Prop
  | .done :: .acked _ :: _ => True
  | .done :: _ :: .half _ :: _ => False
  | _ => True

/-- An import of the agent, or a `revoke_pending` for it, with the answers it gets. -/
inductive Attempt
  | importing (b : Bundle) (answers : List Answer)
  | revoking (answers : List Answer)

def Site.after (s : Site) : Attempt → Site
  | .importing b answers => (importAgent b).leaves answers s
  | .revoking answers => revokePending.leaves answers s

def Site.run (s : Site) (attempts : List Attempt) : Site := attempts.foldl Site.after s

/-- The attempt is not interrupted where the obligation is in no file. -/
def Attempt.Unbroken (s : Site) : Attempt → Prop
  | .importing b answers => ∀ devices t, prepare b ⟨s, answers⟩ = .ok (.inr devices) t → s.agent = none → Settled t.answers
  | .revoking answers => KeepsMarker answers

/-- Every attempt of a run is. -/
def AllUnbroken (s : Site) : List Attempt → Prop
  | [] => True
  | a :: attempts => a.Unbroken s ∧ AllUnbroken (s.after a) attempts

end Purpose

section Preparation
variable {a : Option Folder} {acked : List String}

/-- The agent's directory and the acknowledgements are as given. -/
def Site.Is (a : Option Folder) (acked : List String) (s : Site) : Prop := s.agent = a ∧ s.acked = acked

/-- What is staged has an `agent.yml`. -/
def Site.Staged (s : Site) : Prop := ∀ f, s.staging = some f → f.yml = true

theorem does_attempt {f : Site → Site} {P : Site → Prop} (h : ∀ s, P s → P (f s)) :
    Proc.Does P (attempt f) (fun _ => P) (fun _ => P) P := by
  refine Proc.does_perform (fun _ hs => hs) fun w s hs => ?_
  cases w with
  | done => exact h s hs
  | _ => exact hs

theorem does_cleanupStaging {P : Site → Prop} (h : ∀ s, P s → P { s with staging := none }) :
    Proc.Does P cleanupStaging (fun _ => P) (fun _ => P) P := by
  refine Proc.Does.look fun isSome => .ite (fun _ => ?_) fun _ => ?_
  · refine Proc.does_perform (fun _ hs => hs.1) fun w s hs => ?_
    cases w with
    | done => exact h s hs.1
    | _ => exact hs.1
  · exact Proc.does_pure fun _ hs => hs.1

theorem does_writeUnpackedPrivate (b : Bundle) : Proc.Does (Site.Is a acked) (writeUnpackedPrivate b)
    (fun _ s => s.Is a acked ∧ s.Staged) (fun _ => Site.Is a acked) (Site.Is a acked) := by
  refine Proc.Does.look fun isSome => Proc.Does.bind (Q := fun _ => Site.Is a acked)
    (Proc.does_refuse (fun _ _ hs => hs.1) fun _ _ hs => hs.1) fun _ => ?_
  refine Proc.does_perform (fun _ hs => hs) fun w s hs => ?_
  cases w with
  | done => exact ⟨hs, fun f hf => by cases hf; rfl⟩
  | half e => cases e <;> exact hs
  | _ => exact hs

theorem does_writeNewIdentity (newDeviceId : String) (subkey : Bool) :
    Proc.Does (fun s => s.Is a acked ∧ s.Staged) (writeNewIdentity newDeviceId subkey)
      (fun _ s => s.Is a acked ∧ s.Staged) (fun _ s => s.Is a acked ∧ s.Staged) (fun s => s.Is a acked ∧ s.Staged) := by
  refine (does_attempt ?_).bind fun _ => .ite (fun _ => ?_) fun _ => does_attempt fun _ h => h
  · rintro s ⟨his, hstaged⟩
    refine ⟨his, fun f hf => ?_⟩
    obtain ⟨g, hg, rfl⟩ := Option.map_eq_some_iff.1 hf
    exact hstaged g hg
  · exact (does_attempt fun _ h => h).bind fun _ => does_attempt fun _ h => h

/-- What `prepare` ends in: it touches the staging directory only. -/
def Prepared (a : Option Folder) (acked : List String) (r : Result ⊕ String × String) (s : Site) : Prop :=
  s.Is a acked ∧ ∀ devices, r = .inr devices → s.Staged

theorem does_abandon (detail : String) :
    Proc.Does (Site.Is a acked) (abandon detail) (Prepared a acked) (fun _ => Site.Is a acked) (Site.Is a acked) :=
  (does_cleanupStaging fun _ hs => hs).bind fun _ => Proc.does_pure fun _ hs => ⟨hs, nofun⟩

theorem does_enrol (old : OldIdentity) : Proc.Does (fun s => s.Is a acked ∧ s.Staged) (enrol old) (Prepared a acked)
    (fun _ => Site.Is a acked) (Site.Is a acked) := by
  refine Proc.Does.bind (Q := fun _ s => s.Is a acked ∧ s.Staged) (Proc.Does.caught ?_) fun r => ?_
  · refine Proc.does_perform (fun _ hs => hs.1) fun w s hs => ?_
    cases w <;> exact hs
  · cases r with
    | error e => exact (does_abandon _).pre fun _ hs => hs.1
    | ok newDeviceId =>
      refine Proc.Does.bind (Q := fun _ s => s.Is a acked ∧ s.Staged) (Proc.Does.caught ?_) fun subkey => ?_
      · exact (does_attempt fun _ hs => hs).mono (fun _ _ hs => hs) (fun _ _ hs => hs) fun _ hs => hs.1
      · refine Proc.Does.bind ((does_writeNewIdentity newDeviceId _).mono (fun _ _ hs => hs) (fun _ _ hs => hs.1)
          fun _ hs => hs.1) fun _ => ?_
        exact Proc.does_pure fun _ hs => ⟨hs.1, fun _ _ => hs.2⟩

theorem does_stage (b : Bundle) :
    Proc.Does (Site.Is a acked) (stage b) (Prepared a acked) (fun _ => Site.Is a acked) (Site.Is a acked) := by
  refine (does_cleanupStaging fun _ hs => hs).bind fun _ => (does_writeUnpackedPrivate b).bind fun _ => ?_
  refine Proc.Does.bind (Q := fun _ s => s.Is a acked ∧ s.Staged) ?_ fun old => ?_
  · unfold loadOldIdentity
    split
    · exact Proc.does_pure fun _ hs => hs
    · exact Proc.does_raise fun _ hs => hs.1
  · exact .ite (fun _ => (does_abandon _).pre fun _ hs => hs.1) fun _ => does_enrol old

theorem does_prepare (b : Bundle) :
    Proc.Does (Site.Is a acked) (prepare b) (Prepared a acked) (fun _ => Site.Is a acked) (Site.Is a acked) := by
  refine Proc.Does.look fun agent => ?_
  have hstage := (@does_stage a acked b).pre fun s (hs : s.Is a acked ∧ s.agent = agent) => hs.1
  split
  · exact .ite (fun _ => Proc.does_pure fun _ hs => ⟨hs.1, nofun⟩) fun _ => hstage
  · exact hstage

end Preparation

section Obligation

/-- The invariant: an imported agent is complete, and its old device is not forgotten. -/
def Site.Sound (s : Site) : Prop :=
  s.Obliged ∧ ∀ a old, s.agent = some a → a.importedFrom = some old → a.yml = true

/-- The site after the commit, as long as the old device is in no file. -/
def Site.Committed (old : String) (s : Site) : Prop :=
  ∀ a, s.agent = some a → a.importedFrom = some old ∧ a.yml = true

theorem Site.Committed.sound {s : Site} {old : String} (h : s.Committed old) (hacked : old ∈ s.acked) : s.Sound := by
  constructor
  · intro a old' ha hfrom hnot
    rw [(h a ha).1] at hfrom
    exact absurd (Option.some.inj hfrom ▸ hacked) hnot
  · exact fun a _ ha _ => (h a ha).2

theorem Site.Committed.marked {s : Site} {old : String} (h : s.Committed old) (e : String) :
    (s.mark (.names old e)).Sound := by
  cases ha : s.agent with
  | none =>
    have hfrom : ∀ a old', (s.mark (.names old e)).agent = some a → a.importedFrom ≠ some old' := by
      rintro a old' ⟨⟩
      rw [ha]
      nofun
    exact ⟨fun a old' ha' hf => absurd hf (hfrom a old' ha'), fun a old' ha' hf => absurd hf (hfrom a old' ha')⟩
  | some a =>
    obtain ⟨hfrom, hyml⟩ := h a ha
    constructor
    · rintro b old' ⟨⟩ hfrom' -
      rw [ha, Option.getD_some, hfrom] at hfrom'
      exact ⟨e, congrArg (fun o => some (Marker.names o e)) (Option.some.inj hfrom')⟩
    · rintro b old' ⟨⟩ -
      rw [ha, Option.getD_some]
      exact hyml

theorem sound_of_agent {s s' : Site} (h : s.Sound) (ha : s'.agent = s.agent) (hk : s'.acked = s.acked) : s'.Sound := by
  unfold Site.Sound Site.Obliged at *
  rw [ha, hk]
  exact h

theorem meets_setStateRunning (r : Result) : Stmt.Meets (fun t => t.state.Sound)
    (do let _ ← Proc.caught setStateRunning; return r) (fun _ t => t.state.Sound) (fun _ t => t.state.Sound) := by
  refine Stmt.Meets.bind (Q := fun _ t => t.state.Sound) ?_ fun _ => Stmt.meets_pure fun _ hs => hs
  refine Proc.Does.meets (Proc.Does.caught (does_attempt fun s hs => ?_))
  constructor
  · intro a old ha hfrom hnot
    obtain ⟨b, hb, rfl⟩ := Option.map_eq_some_iff.1 ha
    exact hs.1 b old hb hfrom hnot
  · intro a old ha hfrom
    obtain ⟨b, hb, rfl⟩ := Option.map_eq_some_iff.1 ha
    exact hs.2 b old hb hfrom

theorem meets_commitStaging (old : String) : Stmt.Meets
    (fun t => t.state.Sound ∧ t.state.Staged ∧ (t.state.agent = none → Settled t.answers)) (commitStaging old)
    (fun _ t => t.state.Committed old ∧ Revoked t.answers) (fun _ t => t.state.Sound) := by
  refine Stmt.Meets.query_bind fun isSome => Stmt.Meets.bind (Q := fun _ t => t.state.Sound ∧ t.state.Staged ∧
    Settled t.answers) ?_ fun _ => ?_
  · refine Stmt.Meets.ite (fun _ => Stmt.meets_throw fun t ht => ht.1.1) fun hnone => Stmt.meets_pure fun t ht => ?_
    obtain ⟨⟨hs, hstaged, hsettled⟩, rfl⟩ := ht
    exact ⟨hs, hstaged, hsettled (by simpa using hnone)⟩
  · refine Proc.meets_perform (fun s hs => hs.1) fun w ws s hs => ?_
    obtain ⟨hs, hstaged, hsettled⟩ := hs
    cases w with
    | done =>
      refine ⟨fun a ha => ?_, hsettled⟩
      obtain ⟨f, hf, rfl⟩ := Option.map_eq_some_iff.1 ha
      exact ⟨rfl, hstaged f hf⟩
    | half e => exact absurd hsettled not_false
    | _ => exact hs

/-- A commit that is answered as it has to be leaves the old device revoked or marked. -/
theorem meets_conclude (old newDeviceId : String) : Stmt.Meets
    (fun t => t.state.Sound ∧ t.state.Staged ∧ (t.state.agent = none → Settled t.answers)) (conclude old newDeviceId)
    (fun _ t => t.state.Sound) (fun _ t => t.state.Sound) := by
  refine (meets_commitStaging old).bind fun _ => ?_
  refine Stmt.Meets.bind (Q := fun r t => match r with
    | .ok () => t.state.Sound
    | .error _ => t.state.Committed old ∧ ∃ rest, t.answers = .done :: rest) (Proc.meets_caught ?_) fun r => ?_
  · refine Proc.meets_perform (fun s hs => absurd hs.2 not_false) fun w ws s hs => ?_
    obtain ⟨hcommitted, hrevoked⟩ := hs
    cases w with
    | acked thenCut =>
      have hsound : ({ s with acked := old :: s.acked } : Site).Sound :=
        Site.Committed.sound hcommitted List.mem_cons_self
      cases thenCut <;> exact hsound
    | _ =>
      refine ⟨hcommitted, ?_⟩
      match ws, hrevoked with
      | .done :: rest, _ => exact ⟨rest, rfl⟩
  · cases r with
    | ok => exact meets_setStateRunning _
    | error e =>
      refine Stmt.Meets.bind (Q := fun _ t => t.state.Sound) (Proc.meets_perform ?_ ?_) fun _ => meets_setStateRunning _
      · rintro s ⟨-, rest, hrest⟩
        cases hrest
      · rintro w ws s ⟨hcommitted, rest, hrest⟩
        cases hrest
        exact hcommitted.marked e

theorem sound_importAgent {s : Site} {b : Bundle} {answers : List Answer} (h : s.Sound)
    (hunbroken : (Attempt.importing b answers).Unbroken s) : ((importAgent b).leaves answers s).Sound := by
  have hone : Stmt.Meets (· = ⟨s, answers⟩) (importOne b) (fun _ t => t.state.Sound) (fun _ t => t.state.Sound) := by
    refine Stmt.Meets.bind (Q := fun r t => prepare b ⟨s, answers⟩ = .ok r t ∧ Prepared s.agent s.acked r t.state) ?_ fun r => ?_
    · rintro _ rfl
      have hprepare := does_prepare b ⟨s, answers⟩ (⟨rfl, rfl⟩ : s.Is s.agent s.acked)
      cases hp : prepare b ⟨s, answers⟩ with
      | ok r t =>
        rw [hp] at hprepare
        exact ⟨rfl, hprepare⟩
      | error e t =>
        rw [hp] at hprepare
        cases e <;> exact sound_of_agent h hprepare.1 hprepare.2
    · cases r with
      | inl result => exact Stmt.meets_pure fun t ht => sound_of_agent h ht.2.1.1 ht.2.1.2
      | inr devices =>
        refine (meets_conclude devices.1 devices.2).pre fun t ht => ?_
        obtain ⟨hp, his, hstaged⟩ := ht
        exact ⟨sound_of_agent h his.1 his.2, hstaged devices rfl, fun hnone => hunbroken devices t hp (his.1 ▸ hnone)⟩
  refine Proc.leaves_of_meets (Stmt.Meets.tryCatch hone fun e => ?_)
  cases e with
  | cut => exact Stmt.meets_throw fun _ ht => ht
  | raised e =>
    refine Stmt.Meets.bind (Q := fun _ t => t.state.Sound) ?_ fun _ => Stmt.meets_pure fun _ ht => ht
    exact Proc.Does.meets (does_cleanupStaging fun s hs => sound_of_agent hs rfl rfl)

/-- A site whose marker names a device. -/
def Site.Marks (d : String) (s : Site) : Prop := ∃ a e, s.agent = some a ∧ a.marker = some (.names d e)

theorem Site.Marks.rewritten {s : Site} {d : String} (h : s.Sound) (hd : s.Marks d) (e : String) :
    (s.mark (.names d e)).Sound := by
  obtain ⟨a, e₀, ha, hm⟩ := hd
  constructor
  · rintro b old ⟨⟩ hfrom hnot
    rw [ha, Option.getD_some] at hfrom
    obtain ⟨e₁, he₁⟩ := h.1 a old ha hfrom hnot
    rw [hm] at he₁
    cases he₁
    exact ⟨e, rfl⟩
  · rintro b old ⟨⟩ hfrom
    rw [ha, Option.getD_some] at hfrom ⊢
    exact h.2 a old ha hfrom

theorem Site.Marks.removed {s : Site} {d : String} (h : s.Sound) (hd : s.Marks d) (hacked : d ∈ s.acked) :
    ({ s with agent := s.agent.map ({ · with marker := none }) } : Site).Sound := by
  obtain ⟨a, e₀, ha, hm⟩ := hd
  constructor
  · intro b old hb hfrom hnot
    obtain ⟨a', ha', rfl⟩ := Option.map_eq_some_iff.1 hb
    obtain ⟨e₁, he₁⟩ := h.1 a' old ha' hfrom hnot
    obtain rfl : a = a' := Option.some.inj (ha.symm.trans ha')
    rw [hm] at he₁
    cases he₁
    exact absurd hacked hnot
  · intro b old hb hfrom
    obtain ⟨a', ha', rfl⟩ := Option.map_eq_some_iff.1 hb
    exact h.2 a' old ha' hfrom

theorem meets_retryRevoke (d : String) : Stmt.Meets
    (fun t => t.state.Sound ∧ t.state.Marks d ∧ KeepsMarker t.answers) (retryRevoke d) (fun _ t => t.state.Sound)
    (fun _ t => t.state.Sound) := by
  refine Stmt.Meets.bind (Q := fun _ t => t.state.Sound ∧ t.state.Marks d ∧ KeepsMarker (.done :: t.answers))
    (Proc.meets_perform (fun s hs => hs.1) fun w ws s hs => ?_) fun _ => ?_
  · cases w with
    | done => exact hs
    | _ => exact hs.1
  refine Stmt.Meets.bind (Q := fun r t => t.state.Sound ∧ t.state.Marks d ∧ match r with
    | .ok () => d ∈ t.state.acked
    | .error _ => ∀ e rest, t.answers ≠ .half e :: rest) (Proc.meets_caught ?_) fun r => ?_
  · refine Proc.meets_perform (fun s hs => hs.1) fun w ws s hs => ?_
    obtain ⟨hsound, hmarks, hkeeps⟩ := hs
    have hhalf : (∀ b, w ≠ .acked b) → ∀ e rest, ws ≠ .half e :: rest := by
      rintro hw e rest rfl
      cases w <;> first | exact hkeeps | exact hw _ rfl
    cases w with
    | acked thenCut =>
      have hacked : ({ s with acked := d :: s.acked } : Site).Sound :=
        ⟨fun a old ha hfrom hnot => hsound.1 a old ha hfrom fun hm => hnot (List.mem_cons_of_mem d hm), hsound.2⟩
      cases thenCut with
      | true => exact hacked
      | false => exact ⟨hacked, hmarks, List.mem_cons_self⟩
    | _ => exact ⟨hsound, hmarks, hhalf nofun⟩
  · cases r with
    | error e =>
      refine Stmt.Meets.bind (Q := fun _ t => t.state.Sound) (Proc.meets_perform (fun s hs => hs.1) fun w ws s hs => ?_)
        fun _ => Stmt.meets_pure fun _ hs => hs
      obtain ⟨hsound, hmarks, hhalf⟩ := hs
      cases w with
      | done => exact hmarks.rewritten hsound e
      | half e' => exact absurd rfl (hhalf e' ws)
      | _ => exact hsound
    | ok u =>
      refine Stmt.Meets.bind (Q := fun _ t => t.state.Sound) (Proc.meets_caught ?_) fun _ => Stmt.meets_pure fun _ hs => hs
      refine Proc.meets_perform (fun s hs => hs.1) fun w ws s hs => ?_
      obtain ⟨hsound, hmarks, hacked⟩ := hs
      cases w with
      | done => exact hmarks.removed hsound hacked
      | _ => exact hsound

theorem sound_revokePending {s : Site} {answers : List Answer} (h : s.Sound) (hkeeps : KeepsMarker answers) :
    (revokePending.leaves answers s).Sound := by
  refine Proc.leaves_of_meets (Stmt.Meets.query_bind fun agent => ?_)
  have hstill : ∀ t : Ongoing Answer Site, t = ⟨s, answers⟩ ∧ t.state.agent = agent → t.state.Sound := by
    rintro _ ⟨rfl, -⟩
    exact h
  split
  · exact Stmt.meets_pure hstill
  rename_i a
  refine Stmt.Meets.ite (fun _ => Stmt.meets_pure hstill) fun _ => ?_
  split
  · exact Stmt.meets_pure hstill
  · exact Stmt.meets_throw hstill
  · rename_i d e hmarker
    refine (meets_retryRevoke d).pre ?_
    rintro _ ⟨rfl, ha⟩
    exact ⟨h, ⟨a, e, ha, hmarker⟩, hkeeps⟩

theorem sound_run {s : Site} {attempts : List Attempt} (h : s.Sound) (hunbroken : AllUnbroken s attempts) :
    (s.run attempts).Sound := by
  induction attempts generalizing s with
  | nil => exact h
  | cons a attempts ih =>
    refine ih ?_ hunbroken.2
    cases a with
    | importing b answers => exact sound_importAgent h hunbroken.1
    | revoking answers => exact sound_revokePending h hunbroken.1

/-- An agent that is there is not imported again. -/
theorem importAgent_skips {s : Site} {a : Folder} (ha : s.agent = some a) (hyml : a.yml = true) (b : Bundle)
    (answers : List Answer) : (importAgent b).leaves answers s = s := by
  have hprepare : ∃ r, prepare b ⟨s, answers⟩ = .ok (.inl r) ⟨s, answers⟩ := by
    unfold prepare Proc.look
    rw [Stmt.query_bind_run]
    simp only [ha, hyml, ↓reduceIte]
    exact ⟨_, rfl⟩
  obtain ⟨r, hr⟩ := hprepare
  have hone : importOne b ⟨s, answers⟩ = .ok r ⟨s, answers⟩ := Stmt.bind_ok_iff.2 ⟨_, _, hr, rfl⟩
  have hall : importAgent b ⟨s, answers⟩ = .ok r ⟨s, answers⟩ := by
    change EStateM.tryCatch _ _ _ = _
    unfold EStateM.tryCatch
    rw [hone]
  unfold Proc.leaves Stmt.left
  rw [hall]

/-- There is a marker still, or the device is acknowledged. -/
def Site.Remembers (d : String) (s : Site) : Prop := (∃ a, s.agent = some a ∧ a.marker ≠ none) ∨ d ∈ s.acked

theorem Site.Marks.remembers {s : Site} {d : String} (h : s.Marks d) : s.Remembers d := by
  obtain ⟨a, e, ha, hm⟩ := h
  exact .inl ⟨a, ha, by simp [hm]⟩

theorem does_retryRevoke (d : String) : Proc.Does (Site.Marks d) (retryRevoke d) (fun _ => Site.Remembers d)
    (fun _ => Site.Remembers d) (Site.Remembers d) := by
  refine Proc.Does.bind ((does_attempt fun _ hs => hs).mono (fun _ _ hs => hs) (fun _ _ hs => hs.remembers)
    fun _ hs => hs.remembers) fun _ => ?_
  refine Proc.Does.bind (Q := fun r s => match r with
    | .ok () => d ∈ s.acked
    | .error _ => s.Marks d) (Proc.Does.caught ?_) fun r => ?_
  · refine Proc.does_perform (fun _ hs => hs.remembers) fun w s hs => ?_
    cases w with
    | acked thenCut =>
      cases thenCut with
      | true => exact .inr List.mem_cons_self
      | false => exact List.mem_cons_self
    | _ => exact hs
  · cases r with
    | error e =>
      refine Proc.Does.bind (Q := fun _ => Site.Remembers d) (Proc.does_perform (fun _ hs => hs.remembers) fun w s hs => ?_)
        fun _ => Proc.does_pure fun _ hs => hs
      cases w with
      | done => exact .inl ⟨_, rfl, nofun⟩
      | half e' =>
        have htorn : (s.mark .torn).Remembers d := .inl ⟨_, rfl, nofun⟩
        cases e' <;> exact htorn
      | _ => exact hs.remembers
    | ok u =>
      refine Proc.Does.bind (Q := fun _ s => d ∈ s.acked) (Proc.Does.caught ?_) fun _ => Proc.does_pure fun _ hs => .inr hs
      have hacked : ∀ s : Site, d ∈ s.acked → d ∈ ({ s with agent := s.agent.map ({ · with marker := none }) } : Site).acked :=
        fun _ hs => hs
      exact (does_attempt hacked).mono (fun _ _ hs => hs) (fun _ _ hs => hs) fun _ hs => Or.inr hs

/-- The marker is gone only when the server acknowledged the device it named. -/
theorem revokePending_remembers {s : Site} {d : String} (hd : s.Marks d) (answers : List Answer) :
    (revokePending.leaves answers s).Remembers d := by
  refine Proc.leaves_of_meets (Stmt.Meets.query_bind fun agent => ?_)
  have hstill : ∀ t : Ongoing Answer Site, t = ⟨s, answers⟩ ∧ t.state.agent = agent → t.state.Remembers d := by
    rintro _ ⟨rfl, -⟩
    exact hd.remembers
  split
  · exact Stmt.meets_pure hstill
  rename_i a
  refine Stmt.Meets.ite (fun _ => Stmt.meets_pure hstill) fun _ => ?_
  split
  · exact Stmt.meets_pure hstill
  · exact Stmt.meets_throw hstill
  · rename_i d' e hmarker
    by_cases hsame : d' = d
    · subst hsame
      refine Stmt.Meets.pre (does_retryRevoke d').meets ?_
      rintro _ ⟨rfl, -⟩
      exact hd
    · intro t ht
      obtain ⟨rfl, ha⟩ := ht
      obtain ⟨b, e', hb, hm⟩ := hd
      obtain rfl : a = b := Option.some.inj (ha.symm.trans hb)
      rw [hmarker] at hm
      cases hm
      exact absurd rfl hsame

/-- However often an agent is imported and its revoke retried, in a run without the interruptions that leave the
obligation in no file: the old device of an imported identity is acknowledged as revoked or named by the
marker; importing the agent again changes nothing; and a retry removes a marker only for a device that
the server acknowledged. -/
theorem old_device_remembered (s : Site) (hstart : ∀ a, s.agent = some a → a.importedFrom = none)
    (attempts : List Attempt) (hunbroken : AllUnbroken s attempts) :
    (s.run attempts).Obliged ∧
      (∀ a old, (s.run attempts).agent = some a → a.importedFrom = some old →
        ∀ b answers, (s.run attempts).after (.importing b answers) = s.run attempts) ∧
      ∀ d answers, (s.run attempts).Marks d → ((s.run attempts).after (.revoking answers)).Remembers d := by
  have hsound : s.Sound := by
    refine ⟨fun a old ha hfrom => ?_, fun a old ha hfrom => ?_⟩ <;> rw [hstart a ha] at hfrom <;> cases hfrom
  obtain ⟨hobliged, hyml⟩ := sound_run hsound hunbroken
  exact ⟨hobliged, fun a old ha hfrom b answers => importAgent_skips ha (hyml a old ha hfrom) b answers,
    fun d answers hd => revokePending_remembers hd answers⟩

/-- Nothing on this machine yet, and a bundle of one agent. -/
def emptySite : Site := ⟨none, none, []⟩

def oneBundle : Bundle := ⟨.ok ⟨"dev_old", "https://server"⟩, none⟩

/-- An import that is killed while it asks for the revoke, right after the commit. -/
def killedImport : Attempt := .importing oneBundle [.done, .enrolled "dev_new", .done, .done, .done, .done, .done]

/-- It leaves the new identity in place, nothing acknowledged and no marker. -/
theorem killed_import_forgets : ¬ ∀ (s : Site) (attempts : List Attempt), (∀ a, s.agent = some a → a.importedFrom = none) →
    (s.run attempts).Obliged := by
  intro h
  obtain ⟨e, he⟩ := h emptySite [killedImport] nofun ⟨true, false, some "dev_new", none, some "dev_old"⟩ "dev_old" rfl rfl nofun
  cases he

/-- An import whose revoke fails, and a retry that succeeds. -/
def retriedImport : List Attempt :=
  [.importing oneBundle [.done, .enrolled "dev_new", .done, .done, .done, .done, .done, .fails "503", .done, .done],
    .revoking [.done, .acked false, .done]]

theorem old_device_remembered_retried : AllUnbroken emptySite retriedImport ∧ (emptySite.run retriedImport).Obliged ∧
    (emptySite.run retriedImport).acked = ["dev_old"] := by
  have hunbroken : AllUnbroken emptySite retriedImport := by
    refine ⟨fun devices t ht _ => ?_, trivial, trivial⟩
    cases ht
    trivial
  exact ⟨hunbroken, (old_device_remembered emptySite nofun retriedImport hunbroken).1, rfl⟩

end Obligation
end PuffoAgent.Import
