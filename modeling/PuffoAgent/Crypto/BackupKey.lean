import PuffoAgent.Files.Links
import PuffoAgent.Machine.Run

/-! The key that protects an agent's backups: every process that opens it for the first time draws one of its own, and
one of them is linked into place. The calls of all processes interleave at their system calls, any of which may fail or
be the last of its process. -/
namespace PuffoAgent.Crypto
open Files Machine

/-- A file in the key directory. `exposed` is whether `st_mode & 0o077` is set. -/
structure KeyFile where
  regular : Bool
  exposed : Bool
  bytes : List UInt8
  deriving DecidableEq

inductive KeyError where
  | invalidOwner
  | notRegular
  | unsafePermissions
  | changed
  | invalidLength
  | missing
  | taken
  | os
  deriving DecidableEq

/-- What one call of `load_or_create_message_backup_dek` draws. -/
structure KeyCall where
  pid : Nat
  drawn : String
  key : List UInt8
  sized : key.length = 32

def keyFileName (slug : String) : String := slug ++ ".message-backup-dek-v1"

/-- `_message_backup_dek_path`. -/
def messageBackupDekPath (slug : String) : Except KeyError String :=
  if slug = "" ∨ '/' ∈ slug.toList ∨ '\\' ∈ slug.toList ∨ slug = "." ∨ slug = ".." then .error .invalidOwner
  else .ok (keyFileName slug)

def temporaryPath (slug : String) (call : KeyCall) : String :=
  "." ++ keyFileName slug ++ "." ++ toString call.pid ++ "." ++ call.drawn ++ ".tmp"

/-- The system call that a process makes next. A read is the `last` one after another process has been faster. -/
inductive Stage where
  | lstat (last : Bool)
  | opening (last : Bool) (before : Nat)
  | fstat (last : Bool) (before opened : Nat)
  | reading (last : Bool) (file : Nat) (key : List UInt8)
  | creating
  | fchmod (file : Nat)
  | writing (file written : Nat)
  | fsync (file : Nat)
  | linking (file : Nat)
  | publishing
  | unlinking (outcome : Except KeyError (List UInt8))
  | finished (outcome : Except KeyError (List UInt8))
  | crashed
  deriving DecidableEq

/-- How the system answers. A read or write that works moves `count` bytes, if there are as many. -/
inductive Reply where
  | works (count : Nat)
  | fails
  | crashes

section Step
variable (slug : String)

/-- The end of `_read_private_32_byte_key`; only the last read is under the `finally`. -/
def Stage.leave (last : Bool) (outcome : Except KeyError (List UInt8)) : Stage :=
  if last then .unlinking outcome else .finished outcome

/-- There is no key file: before anything has been drawn, one is made. -/
def Stage.absent (last : Bool) : Stage := if last then .unlinking (.error .missing) else .creating

/-- The length check of a key that has been read. -/
def sized (key : List UInt8) : Except KeyError (List UInt8) := if key.length ≠ 32 then .error .invalidLength else .ok key

/-- One system call that works, of a process that reads. -/
def readStep (t : Links String KeyFile) (count : Nat) : Stage → Stage
  | .lstat last =>
    match t.name (keyFileName slug) with
    | none => .absent last
    | some i => match t.files[i]? with
      | none => .absent last
      | some f =>
        if f.regular = false then .leave last (.error .notRegular)
        else if f.exposed then .leave last (.error .unsafePermissions)
        else .opening last i
  | .opening last before =>
    match t.name (keyFileName slug) with
    | none => .absent last
    | some i => .fstat last before i
  | .fstat last before i =>
    match t.files[i]? with
    | none => .leave last (.error .changed)
    | some f =>
      if f.regular = false ∨ i ≠ before ∨ f.exposed then .leave last (.error .changed)
      else .reading last i []
  | .reading last i key =>
    let chunk := (((t.files[i]?.map (·.bytes)).getD []).drop key.length).take (max 1 (min count 64))
    if chunk = [] then .leave last (sized key)
    else if 32 < (key ++ chunk).length then .leave last (sized (key ++ chunk))
    else .reading last i (key ++ chunk)
  | stage => stage

/-- One system call that works. -/
def workStep (call : KeyCall) (t : Links String KeyFile) (count : Nat) : Stage → Links String KeyFile × Stage
  | .creating =>
    match t.create (temporaryPath slug call) ⟨true, false, []⟩ with
    | none => (t, .unlinking (.error .taken))
    | some t' => (t', .fchmod t.files.length)
  | .fchmod i => (t.change i ({ · with exposed := false }), .writing i 0)
  | .writing i written =>
    let chunk := (call.key.drop written).take count
    if chunk = [] then (t, .unlinking (.error .os))
    else
      let t' := t.change i fun f => { f with bytes := f.bytes ++ chunk }
      if written + chunk.length < call.key.length then (t', .writing i (written + chunk.length)) else (t', .fsync i)
  | .fsync i => (t, .linking i)
  | .linking _ =>
    if (t.name (keyFileName slug)).isSome then (t, .lstat true)
    else match t.link (temporaryPath slug call) (keyFileName slug) with
      | none => (t, .unlinking (.error .missing))
      | some t' => (t', .publishing)
  | .publishing => (t, .unlinking (.ok call.key))
  | .unlinking outcome => (t.unlink (temporaryPath slug call), .finished outcome)
  | stage => (t, readStep slug t count stage)

/-- What a process does when a system call of its own raises. -/
def failStep (call : KeyCall) : Stage → Stage
  | .lstat last | .opening last _ | .fstat last _ _ | .reading last _ _ => .leave last (.error .os)
  | .creating | .fchmod _ | .writing _ _ | .fsync _ | .linking _ => .unlinking (.error .os)
  | .publishing => .unlinking (.ok call.key)
  | .unlinking _ => .finished (.error .os)
  | stage => stage

/-- Where a call begins: a name that is no key owner's is refused before the first system call. -/
def firstStage : Stage :=
  match messageBackupDekPath slug with
  | .ok _ => .lstat false
  | .error e => .finished (.error e)

structure KeyDirectory where
  links : Links String KeyFile
  stage : Nat → Stage

namespace KeyDirectory

def start (links : Links String KeyFile) : KeyDirectory := ⟨links, fun _ => firstStage slug⟩

variable (calls : Nat → KeyCall)

/-- A process that has finished or crashed does nothing. -/
def step (s : KeyDirectory) (e : Nat × Reply) : KeyDirectory :=
  match s.stage e.1 with
  | .finished _ | .crashed => s
  | stage => match e.2 with
    | .works count =>
      let next := workStep slug (calls e.1) s.links count stage
      ⟨next.1, Function.update s.stage e.1 next.2⟩
    | .fails => ⟨s.links, Function.update s.stage e.1 (failStep (calls e.1) stage)⟩
    | .crashes => ⟨s.links, Function.update s.stage e.1 .crashed⟩

end KeyDirectory
end Step

end PuffoAgent.Crypto
