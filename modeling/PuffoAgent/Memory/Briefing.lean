import PuffoAgent.Text.Editing
import PuffoAgent.Files.Writing

/-! The briefing that is compiled from the files of a memory tree, whose root is the memory root. -/
namespace PuffoAgent.Memory
open Relational Files Text

abbrev Bytes := List UInt8

def briefingDir : String := "briefing"
def notesDir : String := "notes"
def recollectionDir : String := "recollection"
def importsDir : String := "imports"

def perFileLimit : Nat := 16 * 1024
def totalLimit : Nat := 64 * 1024

def profileBriefingName : String := "profile.md"

/-- `MemoryStoreError`. With `briefing` it is a `BriefingCompileError`. -/
structure StoreError where
  code : String
  path : String
  size : Option Nat := none
  limit : Option Nat := none
  suggestion : String
  briefing : Bool := false
  deriving DecidableEq

/-- What is raised: an error of the store, one of the file system, or bytes that are no text. -/
inductive Failure
  | store (e : StoreError)
  | os (text : String)
  | decode
  deriving DecidableEq

/-- `Path.read_text`, of the bytes that are there. -/
def readText (bytes : Bytes) : Except Failure String :=
  match decodeStrict bytes with
  | some s => .ok (universalText s)
  | none => .error .decode

section Compiling

def isBriefingTopic (t : Files.Tree Bytes) (name : String) : Bool :=
  t.isFile [briefingDir, name] ∧ suffix name = ".md" ∧ ¬ startsWith name "."

/-- The topics in the order of their names, the profile before all others. -/
def briefingNames (t : Files.Tree Bytes) : List String :=
  let names := ((t.children [briefingDir]).filter (isBriefingTopic t)).mergeSort fun a b => a ≤ b
  if profileBriefingName ∈ names then profileBriefingName :: names.erase profileBriefingName else names

structure Entries where
  profile : String := ""
  entries : List (String × String) := []

def tooLargeFile (path : String) (size : Nat) : StoreError where
  code := "memory_file_too_large"
  path := path
  size := some size
  limit := some perFileLimit
  suggestion := "Trim this briefing topic; move detail to memory/notes/ (searchable, not injected)."
  briefing := true

/-- The body of one topic goes to the others, unless it is blank. -/
def Entries.add (read : Entries) (name body : String) : Entries :=
  if strip body = "" then read
  else if name = profileBriefingName then { read with profile := strip body }
  else { read with entries := read.entries ++ [(stem name, strip body)] }

def readTopics (t : Files.Tree Bytes) (enforcePerFile : Bool) : List String → Entries → Except Failure Entries
  | [], read => pure read
  | name :: names, read => do
    let body ← readText ((t.content [briefingDir, name]).getD [])
    if enforcePerFile ∧ byteSize body > perFileLimit then
      throw (.store (tooLargeFile (briefingDir ++ "/" ++ name) (byteSize body)))
    else readTopics t enforcePerFile names (read.add name body)

def readBriefingEntries (t : Files.Tree Bytes) (enforcePerFile : Bool) : Except Failure Entries :=
  if t.dirAt [briefingDir] then readTopics t enforcePerFile (briefingNames t) {} else pure {}

def section' (e : String × String) : String := "### " ++ e.1 ++ "\n\n" ++ e.2

def briefingParts (read : Entries) : List String :=
  (if read.profile = "" then [] else [read.profile]) ++ read.entries.map section'

/-- `sep.join(parts)`. -/
def joinWith (sep : String) : List String → String
  | [] => ""
  | [part] => part
  | part :: parts => part ++ sep ++ joinWith sep parts

def composeBriefing (read : Entries) : String := joinWith "\n\n" (briefingParts read)

def compileBriefing (t : Files.Tree Bytes) : Except Failure String := do
  let read ← readBriefingEntries t true
  if byteSize (composeBriefing read) > totalLimit then
    throw (.store {
      code := "memory_briefing_too_large"
      path := briefingDir
      size := some (byteSize (composeBriefing read))
      limit := some totalLimit
      suggestion := "The compiled briefing exceeds the total budget; move topics to memory/notes/ or trim them."
      briefing := true })
  else pure (composeBriefing read)

end Compiling
end PuffoAgent.Memory
