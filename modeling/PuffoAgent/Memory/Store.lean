import PuffoAgent.Memory.Briefing

/-! The operations of the memory store on logical paths. -/
namespace PuffoAgent.Memory
open Relational Files Text Effects

inductive Scope
  | briefing
  | notes
  | recollection
  | imports
  deriving DecidableEq

def Scope.dirName : Scope → String
  | .briefing => briefingDir
  | .notes => notesDir
  | .recollection => recollectionDir
  | .imports => importsDir

def Scope.ofName (name : String) : Option Scope :=
  [Scope.briefing, .notes, .recollection, .imports].find? fun s => s.dirName = name

def fileLimit : Scope → Nat
  | .briefing => perFileLimit
  | .notes => 64 * 1024
  | .recollection => 128 * 1024
  | .imports => 128 * 1024

section Paths

def pathSuggestion : String :=
  "Use a relative logical memory path like notes/topic.md under briefing/, notes/, recollection/, or imports/."

def storeError (code path suggestion : String) : StoreError where
  code := code
  path := path
  suggestion := suggestion

def invalidPath (path suggestion : String) : StoreError := storeError "memory_invalid_path" path suggestion

/-- `^[A-Za-z]:`. -/
def startsWithDrive (path : String) : Bool :=
  match path.toList with
  | c :: ':' :: _ => c.isAlpha
  | _ => false

/-- A `PurePosixPath` of a text that is normalised already. -/
structure Logical where
  path : String
  parts : List String

def Logical.name (logical : Logical) : String := logical.parts.getLastD ""

def checkSegments (path : String) : List String → Except StoreError Unit
  | [] => pure ()
  | segment :: segments =>
    if segment = "" then throw (invalidPath path pathSuggestion)
    else if segment = "." ∨ segment = ".." then
      throw (invalidPath path ("Path traversal is not allowed. " ++ pathSuggestion))
    else if startsWith segment "." then
      throw (invalidPath path ("Hidden path segments are not allowed. " ++ pathSuggestion))
    else checkSegments path segments

def scopeOf (path : String) (segments : List String) : Except StoreError (Scope × Logical) :=
  if segments.length < 2 then
    throw (invalidPath path ("Memory files live inside a memory area. " ++ pathSuggestion))
  else
    match Scope.ofName (segments.headD "") with
    | none => throw (storeError "memory_path_out_of_scope" path
        "Memory paths must start with briefing/, notes/, recollection/, or imports/.")
    | some scope =>
      if scope = .briefing ∧ segments.length ≠ 2 then
        throw (invalidPath path "briefing/ is flat: use briefing/<topic>.md.")
      else pure (scope, ⟨path, segments⟩)

def validateLogicalPath (path : String) : Except StoreError (Scope × Logical) :=
  if path = "" then throw (invalidPath "" pathSuggestion)
  else if '\x00' ∈ path.toList ∨ '\\' ∈ path.toList then throw (invalidPath path pathSuggestion)
  else if startsWith path "/" ∨ startsWithDrive path then
    throw (invalidPath path ("Memory paths are relative, not absolute. " ++ pathSuggestion))
  else do
    checkSegments path (split path '/')
    scopeOf path (split path '/')

/-- The scopes that are written to, and where only maintenance writes. -/
def checkWritable (maintenance : Bool) (scope : Scope) (logical : Logical) : Except StoreError Unit :=
  if scope = .imports then
    throw (storeError "memory_scope_readonly" logical.path
      "imports/ is importer-owned and read-only; put your own content in notes/.")
  else if scope = .recollection ∧ !maintenance then
    throw (storeError "memory_scope_readonly" logical.path
      "recollection/ writes need the explicit maintenance scope; ordinary turns should write notes/.")
  else if suffix logical.name ≠ ".md" then
    throw (invalidPath logical.path "Memory write targets must end in .md.")
  else pure ()

def validateWritePath (maintenance : Bool) (path : String) : Except StoreError (Scope × Logical) := do
  let at' ← validateLogicalPath path
  checkWritable maintenance at'.1 at'.2
  pure at'

/-- Below the root, which is the root of the tree. -/
def physicalPath (logical : Logical) : Path := logical.parts

end Paths

section Sizes

def validateFileSize (scope : Scope) (logical : Logical) (size : Nat) : Except StoreError Unit :=
  if size > fileLimit scope then
    throw (if scope = .briefing then tooLargeFile logical.path size else {
      code := "memory_file_too_large"
      path := logical.path
      size := some size
      limit := some (fileLimit scope)
      suggestion := "Split this file, or move detail into another memory area." })
  else pure ()

/-- `dict(entries)`. -/
def entryMap (entries : List (String × String)) : Table (String × String) String Prod.fst :=
  entries.foldl Table.put Table.empty

/-- The entries of the tree as they would be with this body. -/
def simulated (read : Entries) (name body : String) : Entries :=
  if name = profileBriefingName then ⟨strip body, sortItems (entryMap read.entries)⟩
  else if strip body ≠ "" then ⟨read.profile, sortItems ((entryMap read.entries).put (stem name, strip body))⟩
  else ⟨read.profile, sortItems ((entryMap read.entries).delete fun e => e.1 = stem name)⟩
where
  /-- `sorted(entry_map.items())`, of keys that differ. -/
  sortItems (m : Table (String × String) String Prod.fst) : List (String × String) :=
    m.rows.mergeSort fun e e' => e.1 ≤ e'.1

def validateBriefingTotal (logical : Logical) (body : String) (read : Entries) : Except StoreError Unit :=
  let total := byteSize (composeBriefing (simulated read logical.name body))
  if total > totalLimit then
    throw {
      code := "memory_briefing_too_large"
      path := logical.path
      size := some total
      limit := some totalLimit
      suggestion := "This write would push the compiled briefing over budget; move topics to memory/notes/ first."
      briefing := true }
  else pure ()

end Sizes

section Operations

abbrev Task (α : Type) := Files.Task Unit Bytes Failure α

/-- A look at the tree, which the file system may refuse. -/
def observe {α : Type} (f : Files.Tree Bytes → α) : Task α := Proc.perform fun w t =>
  match w with
  | .fails e => (.error (.raised (.os e)), t)
  | _ => (.ok (f t), t)

def demand {α : Type} : Except Failure α → Task α
  | .ok a => pure a
  | .error e => Proc.raise e

def check {α : Type} (x : Except StoreError α) : Task α := demand (x.mapError .store)

def refuse (p : Prop) [Decidable p] (e : StoreError) : Task Unit := Proc.refuse p (.store e)

/-- The lock is outside of the root. -/
def lock : Task Unit := observe fun _ => ()

def isFile (p : Path) : Task Bool := observe fun t => t.isFile p

def readTextAt (p : Path) : Task String := do
  let bytes ← observe fun t => (t.content p).getD []
  demand (readText bytes)

def validateSize (scope : Scope) (logical : Logical) (body : String) : Task Nat := do
  check (validateFileSize scope logical (byteSize body))
  if scope = .briefing then
    let read ← observe fun t => readBriefingEntries t false
    let read ← demand read
    check (validateBriefingTotal logical body read)
    pure (byteSize body)
  else pure (byteSize body)

def tempStart : String := ".puffo-mem-"

def writeAtomic (p : Path) (body : String) : Task Unit :=
  atomicWrite .os tempStart p (encodeUtf8 body.toList)

/-- The flag that asks for a new prompt is outside of the root. That it cannot be written is not an error. -/
def markBriefingDirty (scope : Scope) : Task Unit :=
  if scope = .briefing then Proc.perform fun _ t => (.ok (), t) else pure ()

structure Result where
  path : String
  changed : Bool
  size : Option Nat
  deriving DecidableEq

/-- What is written when it is another text than before. -/
def writeChanged (changed : Bool) (scope : Scope) (logical : Logical) (body : String) : Task Unit :=
  if changed then do
    writeAtomic (physicalPath logical) body
    markBriefingDirty scope
  else pure ()

def createMemoryFile (maintenance : Bool) (path body : String) : Task Result := do
  lock
  let (scope, logical) ← check (validateWritePath maintenance path)
  let there ← observe fun t => (t.get (physicalPath logical)).isSome
  refuse (there = true) (storeError "memory_file_exists" logical.path
    "The file already exists; change it with patch_memory_file or append_memory_file.")
  let size ← validateSize scope logical body
  writeChanged true scope logical body
  pure ⟨logical.path, true, some size⟩

def notFound (logical : Logical) : StoreError :=
  storeError "memory_file_not_found" logical.path "Create the file with create_memory_file first."

structure Patch where
  oldText : String
  newText : String

def applyPatch (logical : Logical) (text : String) (patch : Patch) : Except StoreError String :=
  if patch.oldText = "" then
    throw (storeError "memory_invalid_arguments" logical.path
      "old_text must be non-empty text that appears exactly once in the file.")
  else
    let matched := count patch.oldText.toList text.toList
    if matched = 0 then
      throw (storeError "memory_patch_no_match" logical.path
        "old_text was not found; read the file again and patch exact current text.")
    else if matched > 1 then
      throw (storeError "memory_patch_multiple_matches" logical.path
        "old_text matched more than once; include more surrounding context so it matches exactly once.")
    else pure (String.ofList (replace patch.oldText.toList patch.newText.toList text.toList))

def patchMemoryFile (maintenance : Bool) (path : String) (patches : List Patch) : Task Result := do
  lock
  let (scope, logical) ← check (validateWritePath maintenance path)
  let there ← isFile (physicalPath logical)
  refuse (there = false) (notFound logical)
  let original ← readTextAt (physicalPath logical)
  let text ← check (patches.foldlM (applyPatch logical) original)
  let size ← validateSize scope logical text
  writeChanged (text ≠ original) scope logical text
  pure ⟨logical.path, text ≠ original, some size⟩

def appendMemoryFile (maintenance : Bool) (path text : String) : Task Result := do
  lock
  let (scope, logical) ← check (validateWritePath maintenance path)
  let there ← isFile (physicalPath logical)
  refuse (there = false) (notFound logical)
  let original ← readTextAt (physicalPath logical)
  let size ← validateSize scope logical (original ++ text)
  writeChanged (original ++ text ≠ original) scope logical (original ++ text)
  pure ⟨logical.path, original ++ text ≠ original, some size⟩

/-- Whether there is a file of this text. -/
def holdsText (p : Path) (body : String) : Task Bool := do
  let there ← isFile p
  if there then do
    let text ← readTextAt p
    pure (text = body)
  else pure false

def putMemoryFile (maintenance : Bool) (path body : String) : Task Result := do
  lock
  let (scope, logical) ← check (validateWritePath maintenance path)
  let size ← validateSize scope logical body
  let same ← holdsText (physicalPath logical) body
  writeChanged (!same) scope logical body
  pure ⟨logical.path, !same, some size⟩

def deleteMemoryFile (maintenance : Bool) (path : String) : Task Result := do
  lock
  let (scope, logical) ← check (validateWritePath maintenance path)
  refuse (scope = .briefing ∧ logical.name = profileBriefingName) (storeError "memory_scope_readonly" logical.path
    "briefing/profile.md is the managed profile briefing and cannot be deleted; patch it instead.")
  let found ← observe fun t => t.get (physicalPath logical)
  refuse (found = none) (storeError "memory_file_not_found" logical.path "Nothing to delete at this path.")
  refuse (found = some .dir) (invalidPath logical.path "Only regular memory files can be deleted.")
  attempt .os fun t => some (t.remove (physicalPath logical))
  markBriefingDirty scope
  pure ⟨logical.path, true, none⟩

structure ReadResult where
  path : String
  scope : Scope
  size : Nat
  truncated : Bool
  lossy : Bool
  body : String

/-- What is returned of the bytes of a file. -/
def readResult (scope : Scope) (logical : Logical) (bytes : Bytes) : ReadResult :=
  let data := bytes.take (fileLimit scope + 1)
  if bytes.length > fileLimit scope then
    ⟨logical.path, scope, bytes.length, true, false, String.ofList (decodeIgnore none (data.take (fileLimit scope)))⟩
  else
    match decodeStrict data with
    | some body => ⟨logical.path, scope, bytes.length, false, false, body⟩
    | none => ⟨logical.path, scope, bytes.length, false, true, String.ofList (decodeReplace none data)⟩

def readMemoryFile (path : String) : Task ReadResult := do
  let (scope, logical) ← check (validateLogicalPath path)
  let there ← isFile (physicalPath logical)
  refuse (there = false) (storeError "memory_file_not_found" logical.path
    "Check the path with get_memory_file_status, or create the file with create_memory_file.")
  let bytes ← observe fun t => (t.content (physicalPath logical)).getD []
  pure (readResult scope logical bytes)

inductive Operation
  | create (path body : String)
  | patch (path : String) (patches : List Patch)
  | append (path text : String)
  | put (path body : String)
  | delete (path : String)

def Operation.task (maintenance : Bool) : Operation → Task Result
  | .create path body => createMemoryFile maintenance path body
  | .patch path patches => patchMemoryFile maintenance path patches
  | .append path text => appendMemoryFile maintenance path text
  | .put path body => putMemoryFile maintenance path body
  | .delete path => deleteMemoryFile maintenance path

/-- A call, and what the world answers to it. -/
structure Call where
  maintenance : Bool
  operation : Operation
  answers : List (Answer Unit)

def Call.run (c : Call) (t : Files.Tree Bytes) :
    EStateM.Result (Stop Failure) (Ongoing (Answer Unit) (Files.Tree Bytes)) Result :=
  c.operation.task c.maintenance ⟨t, c.answers⟩

/-- The tree that a call leaves behind. -/
def Call.after (t : Files.Tree Bytes) (c : Call) : Files.Tree Bytes :=
  (c.operation.task c.maintenance).leaves c.answers t

end Operations
end PuffoAgent.Memory
