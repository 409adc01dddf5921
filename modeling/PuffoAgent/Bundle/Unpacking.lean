import PuffoAgent.Files.Writing
import PuffoAgent.Text.JsonParse
import PuffoAgent.Text.Python
import PuffoAgent.Text.Utf8

/-! Importing an archive, path by path. The ids of the manifest, the names of the entries and the slug of the identity
become parts of paths. -/
namespace PuffoAgent.Bundle
open Relational Effects Files Text

section Archive

abbrev Bytes := List UInt8

/-- What the import reads of an identity file. The slug is the text that file names are made of. -/
structure StoredIdentity where
  slug : String
  deviceId : String
  serverUrl : String

/-- The formats that are not the import's own: texts of parsed values, identity files, `agent.yml` and the marker. -/
structure Codec where
  str : Json → String
  repr : Json → String
  floatIsOne : FloatText → Bool
  readIdentity : Bytes → Except String StoredIdentity
  patchDevice : Bytes → String → Except String Bytes
  setRunning : Bytes → Except String Bytes
  pendingRevoke : String → String → Bytes

/-- An id of the manifest and the files below it. -/
structure AgentFiles where
  id : Json
  files : List (String × Bytes)

def hashable : Json → Bool
  | .arr _ | .obj _ => false
  | _ => true

def sameId : Json → Json → Bool
  | .str a, .str b => a = b
  | _, _ => false

end Archive

section Paths

/-- The parts of a path that `pathlib` keeps. -/
def parts (text : String) : List String := (split text '/').filter fun s => s ≠ "" ∧ s ≠ "."

/-- `base / text`. -/
def join (base : Path) (text : String) : Path := if startsWith text "/" then parts text else base ++ parts text

variable (home : Path)

def agentsDir : Path := home ++ ["agents"]

def stagingRoot : Path := agentsDir home ++ [".import-staging"]

/-- `staging_dir`. -/
def stagingDir (id : String) : Path := join (stagingRoot home) id

/-- `agent_dir`. -/
def agentDir (id : String) : Path := join (agentsDir home) id

/-- `agent_yml_path`. -/
def agentYml (id : String) : Path := agentDir home id ++ ["agent.yml"]

/-- `pending_revoke_path`. -/
def pendingRevokePath (id : String) : Path := agentDir home id ++ [".puffo-agent", "pending_revoke.json"]

end Paths

section Staging

/-- What the server answers: the new device and its identity file, the session of its subkey, or the revoke. -/
inductive Reply
  | enrolled (deviceId : String) (identity : Bytes)
  | registered (session : Bytes)
  | revoked

abbrev FileTask := Files.Task Reply Bytes String

/-- `OSError`, by its text. -/
def osError (e : String) : String := e

def fileExists (p : Path) : FileTask Bool := Proc.look fun t => (t.get p).isSome

/-- `_cleanup_staging`, which ignores errors, also half way. -/
def removeStaging (stage : Path) : FileTask Unit := do
  let there ← fileExists stage
  if there then
    Proc.perform fun a t =>
      match a with
      | .done => (.ok (), if t.dirAt (settle stage) then t.remove stage else t)
      | .partly kept => (.ok (), if t.dirAt (settle stage) then t.prune (settle stage) kept else t)
      | _ => (.ok (), t)
  else pure ()

/-- `_atomic_write_private`. -/
def atomicWritePrivate (p : Path) (data : Bytes) : FileTask Unit :=
  atomicWrite osError ("." ++ p.getLast?.getD "" ++ ".") p data

def writeFiles (dest : Path) : List (String × Bytes) → FileTask Unit
  | [] => pure ()
  | (rel, data) :: files => do
    ensureDirectory osError (join dest rel).dropLast
    atomicWritePrivate (join dest rel) data
    writeFiles dest files

/-- `_write_unpacked_private`. -/
def writeUnpacked (files : List (String × Bytes)) (dest : Path) : FileTask Unit := do
  let there ← fileExists dest
  Proc.refuse there "staging destination already exists"
  ensureDirectory osError dest.dropLast
  ensureDirectory osError dest
  writeFiles dest files

/-- `SANITIZE_PATHS`. -/
def sanitizePaths : List (List String) := [["runtime.json"], ["cli_session.json"], ["messages.db"],
  [".puffo-agent", "restart.flag"], [".puffo-agent", "archive.flag"], [".puffo-agent", "delete.flag"],
  [".puffo-agent", "current_turn.json"], ["workspace", ".puffo-agent", "refresh_agent.flag"],
  ["workspace", ".puffo-agent", "refresh_host_sync.flag"], ["workspace", ".puffo-agent", "refresh_session.flag"],
  ["workspace", ".puffo-agent", "refresh_model.flag"], ["workspace", ".puffo-agent", "refresh_runtime.flag"],
  ["workspace", ".claude", ".credentials.json"]]

/-- `sanitize_staged_agent`. -/
def sanitize (stage : Path) : List (List String) → FileTask Unit
  | [] => pure ()
  | rel :: rels => do
    Proc.perform fun a t =>
      match a with
      | .done => (.ok (), if t.isFile (stage ++ rel) then t.remove (stage ++ rel) else t)
      | _ => (.ok (), t)
    sanitize stage rels

def isIdentityName (name : String) : Bool := suffix name = ".json" ∧ ¬ ".session".toList <:+: name.toList

/-- The identity that can be read from the staged keys. -/
def stagedIdentity (codec : Codec) (stage : Path) (t : Files.Tree Bytes) : Except String StoredIdentity :=
  if t.get (stage ++ ["keys"]) |>.any Node.isDir then
    match (t.children (settle (stage ++ ["keys"]))).filter isIdentityName with
    | [name] =>
      match t.content (stage ++ ["keys", name]) with
      | some data => codec.readIdentity data
      | none => .error "unreadable identity"
    | names => .error s!"expected exactly one identity JSON in keys/, found {names.length}"
  else .error "bundle missing keys/ directory"

/-- `_load_old_identity`. -/
def readStagedIdentity (codec : Codec) (stage : Path) : FileTask StoredIdentity := Proc.perform fun a t =>
  match a with
  | .fails e => (.error (.raised e), t)
  | _ => ((stagedIdentity codec stage t).mapError .raised, t)

end Staging

section Identity

def backupDekName (slug : String) : String := slug ++ ".message-backup-dek-v1"

/-- The files of the staged keys that are replaced. -/
def unlinkKeys (keys : Path) (slug : String) : List String → FileTask Unit
  | [] => pure ()
  | name :: names => do
    attempt osError fun t =>
      some (if t.isFile (keys ++ [name]) ∧ name ∉ ["registered-agents.json", backupDekName slug] then
        t.remove (keys ++ [name]) else t)
    unlinkKeys keys slug names

/-- A file that is read, changed and written back. -/
def rewrite (p : Path) (f : Bytes → Except String Bytes) : FileTask Unit := do
  match (← Proc.look (·.content p)) with
  | none => Proc.raise "no such file"
  | some data =>
    match f data with
    | .error e => Proc.raise e
    | .ok data => atomicWritePrivate p data

def writeSession (keys : Path) (slug : String) : Option Bytes → FileTask Unit
  | none => pure ()
  | some session => atomicWritePrivate (join keys (slug ++ ".session.json")) session

/-- `_write_new_identity`. -/
def writeIdentity (codec : Codec) (stage : Path) (slug newDeviceId : String) (identity : Bytes) (session : Option Bytes) :
    FileTask Unit := do
  let keys := stage ++ ["keys"]
  let dek ← Proc.look (·.get (join keys (backupDekName slug)))
  Proc.refuse (dek.any Node.isDir) "bundle message backup key is not a regular file"
  Proc.refuse (dek.any fun n => n.content.any fun data => data.length ≠ 32) "bundle message backup key has invalid length"
  let names ← Proc.look fun t => t.children (settle keys)
  unlinkKeys keys slug names
  atomicWritePrivate (join keys (slug ++ ".json")) identity
  writeSession keys slug session
  rewrite (stage ++ ["agent.yml"]) fun data => codec.patchDevice data newDeviceId

/-- `shutil.move` of a directory: a rename, or a copy that stops half way. -/
def move (src dst : Path) : FileTask Unit := Proc.perform fun a t =>
  let real := if (t.get dst).any Node.isDir then dst ++ [src.getLast?.getD ""] else dst
  match a, t.rename src real with
  | .done, some t' => (.ok (), t')
  | .partly kept, _ => (.error (.raised a.text), if t.reaches real then t.graft (settle src) (settle real) kept else t)
  | _, _ => (.error (.raised a.text), t)

/-- `_commit_staging`. -/
def commit (stage target : Path) : FileTask Unit := do
  let there ← fileExists target
  Proc.refuse there "agent dir appeared during import"
  ensureDirectory osError target.dropLast
  move stage target

end Identity

section Bundle
variable (codec : Codec) (home : Path)

/-- `_enroll_new_device`. -/
def enrollDevice : FileTask (String × Bytes) := Proc.perform fun a t =>
  match a with
  | .reply (.enrolled deviceId identity) => (.ok (deviceId, identity), t)
  | _ => (.error (.raised a.text), t)

/-- `_register_new_device_subkey`. -/
def registerSubkey : FileTask Bytes := Proc.perform fun a t =>
  match a with
  | .reply (.registered session) => (.ok session, t)
  | _ => (.error (.raised a.text), t)

/-- `_revoke_old_device`. -/
def revokeDevice : FileTask Unit := Proc.perform fun a t =>
  match a with
  | .reply .revoked => (.ok (), t)
  | _ => (.error (.raised a.text), t)

/-- `_write_pending_revoke`, in place. -/
def markPending (id oldDeviceId lastError : String) : FileTask Unit := do
  ensureDirectory osError (pendingRevokePath home id).dropLast
  Proc.perform fun a t =>
    match a with
    | .done => (.ok (), (t.write (pendingRevokePath home id) (codec.pendingRevoke oldDeviceId lastError)).getD t)
    | .partly _ => (.error (.raised a.text), (t.write (pendingRevokePath home id) []).getD t)
    | _ => (.error (.raised a.text), t)

/-- `_set_state_running`. -/
def setRunning (id : String) : FileTask Unit := rewrite (agentYml home id) codec.setRunning

inductive Result
  | imported (newDeviceId oldDeviceId : String)
  | importedPendingRevoke (newDeviceId oldDeviceId detail : String)
  | skipped (detail : String)
  | failed (detail : String)

/-- An import that is given up before anything is committed. -/
def abandon (stage : Path) (detail : String) : FileTask Result := do
  removeStaging stage
  return .failed detail

/-- The rest of `_import_one`, from the commit on. -/
def conclude (id : String) (old : StoredIdentity) (newDeviceId : String) : FileTask Result := do
  commit (stagingDir home id) (agentDir home id)
  match (← Proc.caught revokeDevice) with
  | .ok () => do
    let _ ← Proc.caught (setRunning codec home id)
    return .imported newDeviceId old.deviceId
  | .error e => do
    markPending codec home id old.deviceId e
    let _ ← Proc.caught (setRunning codec home id)
    return .importedPendingRevoke newDeviceId old.deviceId ("new device active; old revoke failed: " ++ e)

/-- The import of a staged agent. -/
def importStaged (id : String) (old : StoredIdentity) : FileTask Result := do
  match (← Proc.caught enrollDevice) with
  | .error e => abandon (stagingDir home id) ("enrollment failed: " ++ e)
  | .ok (newDeviceId, identity) => do
    let session ← Proc.caught registerSubkey
    writeIdentity codec (stagingDir home id) old.slug newDeviceId identity session.toOption
    conclude codec home id old newDeviceId

/-- The import of an agent that is not there. -/
def importNew (id : String) (files : List (String × Bytes)) : FileTask Result := do
  removeStaging (stagingDir home id)
  writeUnpacked files (stagingDir home id)
  sanitize (stagingDir home id) sanitizePaths
  let old ← readStagedIdentity codec (stagingDir home id)
  if old.serverUrl = "" then abandon (stagingDir home id) "bundle missing server_url"
  else importStaged codec home id old

/-- `_import_one`. -/
def importOne (id : String) (files : List (String × Bytes)) : FileTask Result := do
  let there ← fileExists (agentYml home id)
  if there then do
    let pending ← fileExists (pendingRevokePath home id)
    return .skipped (if pending then
      "agent already exists on this daemon — pending revoke; run `puffo-agent agent revoke-pending`"
    else "agent already exists on this daemon")
  else importNew codec home id files

/-- One turn of the loop of `import_bundle`. An id that is no text cannot be joined to a path, there or in the clean-up. -/
def importAgent (agent : AgentFiles) : FileTask Result :=
  match agent.id with
  | .str id => Proc.rescue (importOne codec home id agent.files) fun e => abandon (stagingDir home id) e
  | _ => Proc.raise "unsupported operand type(s) for /"

end Bundle
end PuffoAgent.Bundle
