import PuffoAgent.Effects.Interrupted
import Mathlib.Data.List.Infix

/-! Bringing an archived agent back on this machine. Every read, write and server call is an effect
that can fail or be the last one. -/
namespace PuffoAgent.Unarchive
open Effects

section Directory

structure Identity where
  deviceId : String
  rootSecretKey : String
  deviceSigningSecretKey : String
  kemSecretKey : String
  serverUrl : String
  deriving DecidableEq

/-- The signed certificates of a restore request and their secrets. -/
structure Staged where
  deviceId : String
  subkeyId : String
  deviceSigning : String
  kem : String
  subkey : String
  deriving DecidableEq

structure Session where
  subkeyId : String
  subkeySecretKey : String
  deriving DecidableEq

/-- `pending_revoke.json`: what an archive leaves about its own device, what an import or a restore owes, or what
is neither. A device that is missing or no text is the empty text. -/
inductive RevokeMarker
  | archiveSelf
  | owes (oldDeviceId lastError : String)
  | notObject
  | garbled
  deriving DecidableEq

/-- `unarchive.json`. -/
structure State where
  staged : Option Staged := none
  oldDeviceId : Option String := none
  earlierDeviceId : Option String := none
  earlierSettled : Bool := false
  asIs : Bool := false
  restoredFrom : Option String := none
  lastError : Option (String × String) := none
  deriving DecidableEq

/-- `unarchive-done.json`. -/
structure Done where
  restoredFrom : Option String
  deviceId : String
  oldDeviceId : Option String := none
  oldDeviceRevokePending : Bool := false
  deriving DecidableEq

structure Yml where
  state : String
  deviceId : String
  serverUrl : String
  deriving DecidableEq

/-- The files of an agent's directory that a restore reads or writes. An identity that cannot be read is `none`. -/
structure Dir where
  yml : Yml
  identity : Option Identity
  session : Option Session := none
  retired : List Identity := []
  state : Option State := none
  marker : Option RevokeMarker := none
  done : Option Done := none
  archiveFlag : Bool := true
  deriving DecidableEq

inductive Place
  | archived
  | live
  deriving DecidableEq

/-- The directory, under `archived/` or under `agents/`, and what passed between the agent and the server: the requests
posted, whether one was accepted, whether the server confirmed the device on disk, and the devices whose revoke
it acknowledged. -/
structure World where
  place : Place
  dir : Dir
  posted : List Staged := []
  accepted : Bool := false
  confirmed : Bool := false
  acked : List String := []
  deriving DecidableEq

/-- The agent, the name of its archive and the number of other archives it has. -/
structure Target where
  agentId : String
  name : String
  others : Nat := 0

end Directory

section Effects

/-- `UnarchiveError`, or any other exception. -/
inductive Failure
  | unarchive (code message : String)
  | other (message : String)
  deriving DecidableEq

/-- How the world answers an effect. -/
inductive Answer
  | done
  | fails (e : String)
  | unreadable
  | present
  | drawn (s : Staged)
  | http (status : Nat) (text : String)
  | device (known revoked : Bool)
  | unrevoked (e : String)
  deriving DecidableEq

abbrev Task := Proc Answer World Failure

def Answer.text : Answer → String
  | .fails e => e
  | _ => "unexpected"

/-- A change of the directory that is done or leaves no trace. -/
def change (f : Dir → Dir) : Task Unit := Proc.perform fun a w =>
  match a with
  | .done => (.ok (), { w with dir := f w.dir })
  | _ => (.error (.raised (.other a.text)), w)

/-- A read that raises `archive_unreadable` when it fails. -/
def read {α : Type} (what : String) (f : Dir → Except Failure α) : Task α := Proc.perform fun a w =>
  match a with
  | .fails e => (.error (.raised (.unarchive "archive_unreadable" (what ++ " unreadable: " ++ e))), w)
  | _ => ((f w.dir).mapError .raised, w)

/-- `_load_state`. -/
def loadState : Task State := read "unarchive state" fun d => .ok (d.state.getD {})

/-- `_save_state`. -/
def saveState (st : State) : Task Unit := change ({ · with state := some st })

/-- `_load_identity`. -/
def loadIdentity : Task Identity := read "archived agent" fun d =>
  d.identity.elim (.error (.unarchive "archive_unreadable" "archived agent unreadable")) .ok

/-- `_earlier_obligation`, of the marker that is read. -/
def earlierDevice (oldDeviceId : String) : Option RevokeMarker → Except Failure (Option String)
  | none => .ok none
  | some .archiveSelf => .ok none
  | some .garbled => .error (.unarchive "archive_unreadable" "pending_revoke.json unreadable")
  | some .notObject => .error (.unarchive "archive_unreadable" "pending_revoke.json is not an object")
  | some (.owes earlier _) =>
    if earlier = "" then .error (.unarchive "archive_unreadable" "pending_revoke.json names no device")
    else .ok (if earlier = oldDeviceId then none else some earlier)

/-- `_earlier_obligation`. -/
def earlierObligation (oldDeviceId : String) : Task (Option String) :=
  read "pending_revoke.json" fun d => earlierDevice oldDeviceId d.marker

/-- The keys and certificates of a new device. -/
def mint : Task Staged := Proc.perform fun a w =>
  match a with
  | .drawn s => (.ok s, w)
  | _ => (.error (.raised (.other a.text)), w)

def busy (status : Nat) : Bool := status = 408 ∨ status = 429 ∨ 500 ≤ status

def notArchived (status : Nat) (text : String) : Bool := status = 409 ∧ "not archived".toList <:+: text.toList

/-- What `_post_restore` raises for a response that is no acceptance. -/
def refusal (status : Nat) (text : String) : Failure :=
  if busy status then .unarchive "restore_pending" s!"server busy (HTTP {status}); retry"
  else if notArchived status text then
    .unarchive "not_archived_on_server" "the server does not consider this agent archived"
  else .unarchive "restore_rejected"
    (s!"server refused the restore (HTTP {status}): " ++ String.ofList (text.toList.take 300))

/-- `_post_restore`. -/
def postRestore (s : Staged) : Task Unit := Proc.perform fun a w =>
  match a with
  | .http status text =>
    if status = 200 ∨ status = 201 then (.ok (), { w with posted := s :: w.posted, accepted := true })
    else (.error (.raised (refusal status text)), { w with posted := s :: w.posted })
  | .fails e => (.error (.raised (.unarchive "restore_pending" ("server unreachable: " ++ e))),
      { w with posted := s :: w.posted })
  | _ => (.error (.raised (.other a.text)), w)

/-- What `_device_status` raises for a response that is no status. -/
def statusRefusal (status : Nat) (text : String) : Failure :=
  if status = 200 then .unarchive "restore_pending" "unreadable device status"
  else if busy status then .unarchive "restore_pending" s!"server busy (HTTP {status}); retry"
  else .unarchive "restore_rejected"
    (s!"server refused the device status (HTTP {status}): " ++ String.ofList (text.toList.take 300))

/-- `_device_status`: known and revoked, as the server has it. -/
def deviceStatus : Task (Bool × Bool) := Proc.perform fun a w =>
  match a with
  | .device known revoked => (.ok (known, revoked), { w with confirmed := w.confirmed || (known && !revoked) })
  | .http status text => (.error (.raised (statusRefusal status text)), w)
  | .fails e => (.error (.raised (.unarchive "restore_pending" ("server unreachable: " ++ e))), w)
  | _ => (.error (.raised (.other a.text)), w)

/-- `_revoke_old_device`: an error or the empty text. A device that was revoked before counts as revoked. -/
def revokeOldDevice (oldDeviceId : String) : Task String := Proc.perform fun a w =>
  match a with
  | .done => (.ok "", { w with acked := oldDeviceId :: w.acked })
  | .unrevoked e =>
    if "NOT_IMPROVING".toList <:+: e.toList then (.ok "", { w with acked := oldDeviceId :: w.acked }) else (.ok e, w)
  | _ => (.ok "unexpected", w)

/-- `_write_revoke_obligation`. -/
def writeRevokeObligation (oldDeviceId lastError : String) : Task Unit :=
  change ({ · with marker := some (.owes oldDeviceId lastError) })

def unlinkMarker : Task Unit := change ({ · with marker := none })

/-- `_prepare_yml`. -/
def prepareYml (newDeviceId : String) : Task Unit :=
  change fun d => { d with yml := { d.yml with state := "paused", deviceId := newDeviceId } }

/-- A file of `keys/retired`, named by its device. -/
def retire (i : Identity) (retired : List Identity) : List Identity := i :: retired.filter (·.deviceId ≠ i.deviceId)

/-- The identity that `_install_identity` saves. -/
def Identity.onDevice (i : Identity) (s : Staged) : Identity :=
  { i with deviceId := s.deviceId, deviceSigningSecretKey := s.deviceSigning, kemSecretKey := s.kem }

/-- An identity that is replaced is kept. -/
def keepRetired (i : Identity) (s : Staged) : Task Unit :=
  if i.deviceId ≠ s.deviceId then change fun d => { d with retired := retire i d.retired } else pure ()

/-- `_install_identity`. -/
def installIdentity (i : Identity) (s : Staged) : Task Unit := do
  keepRetired i s
  change ({ · with identity := some (i.onDevice s) })
  change ({ · with session := some ⟨s.subkeyId, s.subkey⟩ })

/-- `_stop_worker`. -/
def stopWorker : Task Unit := Proc.perform fun a w =>
  match a with
  | .done => (.ok (), w)
  | _ => (.error (.raised (.unarchive "restore_pending" "the agent's worker did not stop; retry")), w)

/-- `_move_back`. -/
def moveBack (t : Target) : Task Unit := Proc.perform fun a w =>
  match a with
  | .done => (.ok (), { w with place := .live })
  | .present => (.error (.raised (.unarchive "agent_exists" s!"agent '{t.agentId}' appeared during unarchive")), w)
  | _ => (.error (.raised (.other a.text)), w)

/-- `_write_done`. -/
def writeDone (d : Done) : Task Unit := Proc.perform fun a w =>
  match a with
  | .done => (.ok (), { w with dir := { w.dir with done := some d } })
  | .fails e => (.error (.raised (.unarchive "restore_pending" ("could not record completion: " ++ e))), w)
  | _ => (.error (.raised (.other a.text)), w)

/-- `_discard_state`. -/
def discardState : Task Unit := change ({ · with state := none })

/-- `_report_paused`. -/
def reportPaused : Task Bool := Proc.perform fun a w => (.ok (decide (a = .done)), w)

end Effects

section Restore

structure Restored where
  deviceId : String
  restoredFrom : Option String
  mode : String
  oldDeviceRevokePending : Bool
  statusReported : Bool
  deriving DecidableEq

inductive Reply
  | restored (r : Restored)
  | failed (code message : String)
  deriving DecidableEq

/-- What `_restore` works on once its request is staged. -/
structure Job where
  identity : Identity
  state : State
  oldDeviceId : String
  staged : Staged

/-- An obligation of an earlier import is noted before anything else. -/
def noteEarlier (st : State) (oldDeviceId : String) : Task State :=
  if st.earlierDeviceId.isSome then pure st
  else do
    match (← earlierObligation oldDeviceId) with
    | none => return st
    | some earlier => do
      let noted := { st with earlierDeviceId := some earlier, oldDeviceId := some oldDeviceId }
      saveState noted
      return noted

/-- `_staged_request`, with the state it leaves. -/
def stagedRequest (st : State) : Task (State × Staged) :=
  match st.staged with
  | some s => pure (st, s)
  | none => do
    let s ← mint
    saveState { st with staged := some s }
    return ({ st with staged := some s }, s)

/-- `_restore` up to the request. -/
def stage : Task Job := do
  let identity ← loadIdentity
  let ymlUrl ← Proc.look (·.dir.yml.serverUrl)
  Proc.refuse (identity.serverUrl = "" ∧ ymlUrl = "") (.unarchive "archive_unreadable" "archived agent has no server_url")
  let st ← loadState
  let oldDeviceId := (st.oldDeviceId.filter (· ≠ "")).getD identity.deviceId
  let noted ← noteEarlier st oldDeviceId
  let (ready, staged) ← stagedRequest noted
  return ⟨identity, ready, oldDeviceId, staged⟩

/-- `_finish_as_is`. -/
def finishAsIs (deviceId restoredFrom : String) : Task Reply := do
  let owed ← Proc.look (·.dir.marker.isSome)
  writeDone { restoredFrom := some restoredFrom, deviceId, oldDeviceRevokePending := owed }
  discardState
  let reported ← reportPaused
  return .restored ⟨deviceId, some restoredFrom, "restored", owed, reported⟩

/-- The archive's own marker goes, any other stays. -/
def dropArchiveMarker : Task Unit := do
  let marker ← read "pending_revoke.json" fun d =>
    if d.marker = some .garbled then .error (.unarchive "archive_unreadable" "pending_revoke.json unreadable") else .ok d.marker
  if marker = some .archiveSelf then unlinkMarker else pure ()

/-- `_restore_unrevoked`: the device on disk is still valid, and the agent comes back as it is. -/
def restoreUnrevoked (t : Target) (i : Identity) : Task Reply := do
  let (known, revoked) ← deviceStatus
  Proc.refuse (¬ known ∨ revoked) (.unarchive "restore_rejected"
    ("the server does not consider this agent archived; its device is " ++
      (if revoked then "revoked" else "unknown to the server") ++
      ", so it can only return on a new device once the server shows it archived"))
  let st ← loadState
  saveState { st with asIs := true, restoredFrom := some t.name }
  change ({ · with archiveFlag := false })
  dropArchiveMarker
  prepareYml i.deviceId
  moveBack t
  finishAsIs i.deviceId t.name

/-- The old device is noted in `unarchive.json`. -/
def noteOld (st : State) (oldDeviceId : String) : Task State :=
  if st.oldDeviceId.isSome then pure st
  else do
    saveState { st with oldDeviceId := some oldDeviceId }
    return { st with oldDeviceId := some oldDeviceId }

/-- The obligation for the old device, unless its place is taken by an earlier one. -/
def obligeOld (st : State) (oldDeviceId newDeviceId : String) : Task Unit :=
  if oldDeviceId ≠ newDeviceId ∧ ¬ (st.earlierDeviceId.isSome ∧ ¬ st.earlierSettled) then
    writeRevokeObligation oldDeviceId "unarchive: revoke not yet attempted"
  else pure ()

/-- The marker after the revoke of an earlier device. -/
def passMarkerOn (oldDeviceId newDeviceId : String) : Task Unit :=
  if oldDeviceId ≠ newDeviceId then writeRevokeObligation oldDeviceId "unarchive: revoke not yet attempted"
  else unlinkMarker

def State.settled (st : State) : State := { st with earlierSettled := true }

/-- The revoke that an earlier import owes. -/
def settleEarlier (st : State) (oldDeviceId newDeviceId : String) : Task State :=
  match st.earlierDeviceId with
  | none => pure st
  | some earlier =>
    if st.earlierSettled then pure st
    else do
      let error ← revokeOldDevice earlier
      Proc.refuse (error ≠ "") (.unarchive "restore_pending"
        s!"an earlier device ({earlier}) is still owed a revoke: {error}; retry")
      saveState st.settled
      passMarkerOn oldDeviceId newDeviceId
      return st.settled

/-- The marker after the revoke of the old device. -/
def closeMarker (oldDeviceId error : String) : Task Unit :=
  if error ≠ "" then writeRevokeObligation oldDeviceId error else unlinkMarker

/-- The revoke of the old device, with its error. -/
def settleOld (oldDeviceId newDeviceId : String) : Task String :=
  if oldDeviceId ≠ newDeviceId then do
    let error ← revokeOldDevice oldDeviceId
    closeMarker oldDeviceId error
    return error
  else pure ""

/-- An agent in place is paused, and its worker gone, before its keys change. -/
def pauseInPlace (inPlace : Bool) (deviceId : String) : Task Unit :=
  if inPlace then do
    prepareYml deviceId
    stopWorker
  else pure ()

/-- The name of the archive travels with the directory. -/
def unflag (t : Target) (inPlace : Bool) (st : State) : Task State :=
  if inPlace then pure st
  else do
    change ({ · with archiveFlag := false })
    saveState { st with restoredFrom := some t.name }
    return { st with restoredFrom := some t.name }

def leaveArchive (t : Target) (inPlace : Bool) : Task Unit := if inPlace then pure () else moveBack t

/-- The last steps of `_restore`. -/
def bringBack (t : Target) (inPlace : Bool) (job : Job) (st : State) (revokeError : String) : Task Reply := do
  let st ← unflag t inPlace st
  prepareYml job.staged.deviceId
  leaveArchive t inPlace
  writeDone ⟨st.restoredFrom, job.staged.deviceId, some job.oldDeviceId, revokeError ≠ ""⟩
  discardState
  let reported ← reportPaused
  return .restored ⟨job.staged.deviceId, st.restoredFrom, if st.restoredFrom.isSome then "restored" else "in_place",
    revokeError ≠ "", reported⟩

/-- `_restore` after the server accepted the new device. -/
def replace (t : Target) (inPlace : Bool) (job : Job) : Task Reply := do
  pauseInPlace inPlace job.identity.deviceId
  let st ← noteOld job.state job.oldDeviceId
  obligeOld st job.oldDeviceId job.staged.deviceId
  installIdentity job.identity job.staged
  let st ← settleEarlier st job.oldDeviceId job.staged.deviceId
  let revokeError ← settleOld job.oldDeviceId job.staged.deviceId
  bringBack t inPlace job st revokeError

/-- `_restore`. -/
def restore (t : Target) (inPlace : Bool) : Task Reply := do
  let job ← stage
  match (← Proc.caught (postRestore job.staged)) with
  | .ok () => replace t inPlace job
  | .error (.unarchive code message) =>
    if code ≠ "not_archived_on_server" ∨ inPlace then Proc.raise (.unarchive code message)
    else restoreUnrevoked t job.identity
  | .error (.other message) => Proc.raise (.other message)

end Restore

section Attempts

/-- `_record_failure`. The directory may have moved meanwhile. -/
def recordFailure (place : Place) (code message : String) : Task Unit := do
  let now ← Proc.look (·.place)
  if now = place then do
    let st ← Proc.perform fun a w =>
      match a with
      | .unreadable => (.ok {}, w)
      | _ => (.ok (w.dir.state.getD {}), w)
    let _ ← Proc.caught (saveState { st with lastError := some (code, message) })
    pure ()
  else pure ()

def guarded (place : Place) (x : Task Reply) : Task Reply := Proc.rescue x fun
  | .unarchive code message => do
    recordFailure place code message
    return .failed code message
  | .other message => Proc.raise (.other message)

/-- `_already_restored`. -/
def alreadyRestored (t : Target) (named : Bool) : Task (Option Reply) := do
  let found ← Proc.perform fun a w =>
    match a with
    | .unreadable => (.ok none, w)
    | _ => (.ok (w.dir.done.filter fun d => d.deviceId = w.dir.yml.deviceId ∧ w.dir.yml.state = "paused" ∧
        (named = false ∨ d.restoredFrom = some t.name)), w)
  match found with
  | none => return none
  | some d => do
    let reported ← reportPaused
    let owed ← Proc.look (·.dir.marker.isSome)
    return some (.restored ⟨d.deviceId, d.restoredFrom, "already_restored", owed, reported⟩)

/-- The agent is on this machine: an interrupted restore, or one in place. -/
def resume (t : Target) (named : Bool) : Task Reply := do
  let st ← loadState
  Proc.refuse (named ∧ st.restoredFrom ≠ some t.name)
    (.unarchive "agent_exists" s!"agent '{t.agentId}' is on this machine; not restoring an archive over it")
  if st.asIs then do
    let deviceId ← Proc.perform fun a w =>
      match a with
      | .fails e => (.error (.raised (.other e)), w)
      | _ => (.ok w.dir.yml.deviceId, w)
    match st.restoredFrom with
    | some restoredFrom => finishAsIs deviceId restoredFrom
    | none => Proc.raise (.other "'restored_from'")
  else restore t true

/-- `_unarchive_locked`, for a request that names this archive or none. -/
def unarchive (t : Target) (named : Bool) : Task Reply := do
  match (← Proc.look (·.place)) with
  | .live => do
    match (← alreadyRestored t named) with
    | some reply => return reply
    | none => guarded .live (resume t named)
  | .archived =>
    if named = false ∧ t.others ≠ 0 then
      return .failed "archive_ambiguous" s!"{t.others + 1} archives of '{t.agentId}'; choose one"
    else guarded .archived (restore t false)

structure Attempt where
  named : Bool
  answers : List Answer

/-- What an attempt answers, if it was not cut and no exception left it. -/
def World.answered (t : Target) (w : World) (a : Attempt) : Option Reply :=
  match unarchive t a.named ⟨w, a.answers⟩ with
  | .ok r _ => some r
  | .error _ _ => none

def World.after (t : Target) (w : World) (a : Attempt) : World := (unarchive t a.named).leaves a.answers w

def World.run (t : Target) (w : World) (attempts : List Attempt) : World := attempts.foldl (World.after t) w

/-- The archive as it lies there before the first attempt. -/
def World.start (d : Dir) : World := { place := .archived, dir := d }

end Attempts
end PuffoAgent.Unarchive
