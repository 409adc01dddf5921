import Mathlib.Data.List.Infix
import PuffoAgent.Text.Python
import PuffoAgent.Ingress.Envelope

/-! Admissions of tool results: what a registered continuation waits for, and which of them
the result of a tool call selects. -/
namespace PuffoAgent.Runtime
open Text

/-- `repr`, `int` and SHA-256 of the platform, beside its `str`. `int` has no value where it
raises `TypeError` or `ValueError`. -/
structure Platform where
  host : Host
  repr : Json → String
  toInt : Json → Option Int
  sha256 : List UInt8 → String

/-- `str(tool_name or "")` without the prefix of the Puffo tools. -/
def normalizeToolName (name : String) : String :=
  if startsWith name "mcp__puffo__" then String.ofList (name.toList.drop 12) else name

/-- The value is the public default of this argument. -/
def isOptionalDefault (name : String) (value : Json) : Bool :=
  match value with
  | .str s => (name = "root_id" ∧ s = "") ∨ (name = "visibility_level" ∧ s = "default")
  | .bool b => name = "send_anyway" ∧ ¬ b
  | .int n => name = "send_anyway" ∧ n = 0
  | .float f => name = "send_anyway" ∧ (f.text = "0.0" ∨ f.text = "-0.0")
  | _ => false

example : isOptionalDefault "root_id" (.str "") = true := by simp [isOptionalDefault]

section Sorted
variable {α : Type}

/-- Insert in the order of the keys. -/
def insertSorted (name : String) (value : α) : List (String × α) → List (String × α)
  | [] => [(name, value)]
  | (k, v) :: ms =>
    if k < name then (k, v) :: insertSorted name value ms else (name, value) :: (k, v) :: ms

end Sorted

mutual
/-- The value with the keys of every object in order. -/
def sortKeys : Json → Json
  | .arr items => .arr (sortItems items)
  | .obj members => .obj (sortMembers members)
  | value => value

def sortItems : List Json → List Json
  | [] => []
  | v :: vs => sortKeys v :: sortItems vs

def sortMembers : List (String × Json) → List (String × Json)
  | [] => []
  | (k, v) :: ms => insertSorted k (sortKeys v) (sortMembers ms)
end

/-- `json.dumps(value, sort_keys=True, separators=(",", ":"))`. -/
def dumpsSorted (value : Json) : String := (sortKeys value).dumpsAscii

section Arguments
variable (platform : Platform)

/-- `limit` is compared as the history tools apply it. -/
def normalizeArgument (name : String) (value : Json) : Json :=
  if name = "limit" then
    match platform.toInt value with
    | some n => .int (max 1 (min n 200))
    | none => value
  else value

def normalizeToolArguments (arguments : List (String × Json)) : List (String × String) :=
  ((arguments.filter fun m => ¬ isOptionalDefault m.1 m.2).map fun m =>
    (m.1, dumpsSorted (normalizeArgument platform m.1 m.2))).foldr (fun m => insertSorted m.1 m.2) []

end Arguments

/-- A callback: the number of its registration and the turn that was active then. -/
structure Callback where
  id : Nat
  turn : Nat
  deriving DecidableEq, Repr

structure ToolResultAdmission where
  callback : Callback
  planningCycleKey : String
  providerTurnId : String
  channelId : String
  toolNames : List String
  toolArguments : List (String × String)
  correlationReceipt : String
  deriving DecidableEq

/-- The arguments of `register_continuation`. Both that register a callback, `stage_held_send_result` and
`_register_visible_read`, have the receipt from `uuid4().hex`, so it is never empty. -/
structure Registration where
  planningCycleKey : String
  channelId : String
  toolNames : List String
  toolArguments : List (String × Json)
  correlationReceipt : String
  receipt_ne : correlationReceipt ≠ ""

namespace ToolResultAdmission
variable (platform : Platform)

def build (callback : Callback) (providerTurnId : String) (r : Registration) : ToolResultAdmission where
  callback := callback
  planningCycleKey := r.planningCycleKey
  providerTurnId := providerTurnId
  channelId := r.channelId
  toolNames := (r.toolNames.filter (· ≠ "")).map normalizeToolName
  toolArguments := normalizeToolArguments platform r.toolArguments
  correlationReceipt := r.correlationReceipt

variable (a : ToolResultAdmission)

def receiptMarker : String :=
  if a.correlationReceipt = "" then ""
  else "[" ++ "puffo:model-visible-read:" ++ a.correlationReceipt ++ "]"

/-- Bind one call of the provider to the receipt of this admission. -/
def bindingForToolCall (toolCallId : String) : String :=
  if toolCallId = "" ∨ a.correlationReceipt = "" then ""
  else platform.sha256 (Ingress.utf8 toolCallId ++ 0 :: Ingress.utf8 a.correlationReceipt)

/-- `matches`. -/
def matchesCall (toolName : String) (arguments : List (String × Json)) : Bool :=
  let semanticToolName := normalizeToolName toolName
  if a.toolNames ≠ [] ∧ semanticToolName ∉ a.toolNames then false
  else if a.channelId ≠ "" ∧ platform.host.text ((Json.obj arguments).member "channel") ≠ a.channelId then
    false
  else if a.toolArguments = [] then true
  else
    let observed := normalizeToolArguments platform arguments
    if semanticToolName = "send_message" ∨ semanticToolName = "send_message_with_attachments" then
      a.toolArguments = observed
    else a.toolArguments.all (· ∈ observed)

def matchSpecificity : Nat := a.toolArguments.length + if a.channelId = "" then 0 else 1

end ToolResultAdmission

/-- `value is True`. -/
def isTrue : Option Json → Bool
  | some (.bool true) => true
  | _ => false

/-- What `_post_commit_admission` accepts as a binding. -/
def isBinding (binding : String) : Bool :=
  binding.length = 64 ∧ binding.toList.all (· ∈ "0123456789abcdef".toList)

/-- A fact of a driver about a tool call. Only `_post_commit_admission` of the ACP driver makes committed ones, and only
when the binding is 64 hexadecimal digits. -/
structure ToolFact where
  fact : Json
  binding : isTrue (fact.member "provider_context_committed") →
    ∀ b, asText (fact.member "admission_binding") = some b → isBinding b

namespace ToolFact
variable (platform : Platform) (f : ToolFact)

/-- The result of a tool that did not fail. -/
def isResult : Bool :=
  asText (f.fact.member "_puffo_internal") = some "tool_result" ∧ ¬ isTrue (f.fact.member "is_error")

def toolName : String := platform.host.text (f.fact.member "tool_name")

def toolCallId : String := platform.host.text (f.fact.member "tool_call_id")

def committed : Bool := isTrue (f.fact.member "provider_context_committed")

/-- `fact.get("arguments")`, when it is a dict. -/
def arguments : Option (List (String × Json)) :=
  match f.fact.member "arguments" with
  | some (.obj members) => some members
  | _ => none

/-- The committed result names this admission by its binding. -/
def binds (a : ToolResultAdmission) : Bool :=
  a.toolNames ≠ [] ∧ normalizeToolName (f.toolName platform) ∈ a.toolNames ∧
    asText (f.fact.member "admission_binding") = some (a.bindingForToolCall platform (f.toolCallId platform))

/-- The marker of this admission stands in the result. -/
def shows (a : ToolResultAdmission) : Bool :=
  a.receiptMarker.toList <:+: (platform.repr ((f.fact.member "result").getD .null)).toList

def omitted : Bool := isTrue (f.fact.member "result_omitted")

end ToolFact

/-- `max(candidates, key=match_specificity)`: the first of the most specific ones. -/
def mostSpecific : List (ToolResultAdmission × Nat) → Option (ToolResultAdmission × Nat)
  | [] => none
  | c :: cs =>
    match mostSpecific cs with
    | none => some c
    | some d => if c.1.matchSpecificity < d.1.matchSpecificity then some d else some c

section Select
variable (platform : Platform) (admissions : List ToolResultAdmission) (nativeTurnId : String)

/-- The admissions of the turn that the call matches, with their places. -/
def matchingCandidates (f : ToolFact) (arguments : List (String × Json)) :
    List (ToolResultAdmission × Nat) :=
  admissions.zipIdx.filter fun c => c.1.providerTurnId = nativeTurnId ∧
    c.1.matchesCall platform (f.toolName platform) arguments ∧ c.1.receiptMarker ≠ ""

def committedCandidates (f : ToolFact) : List (ToolResultAdmission × Nat) :=
  admissions.zipIdx.filter fun c => c.1.providerTurnId = nativeTurnId ∧ f.binds platform c.1

/-- The marker decides; a result the provider left out decides only for a single match. -/
def reportedCandidates (f : ToolFact) (arguments : List (String × Json)) :
    List (ToolResultAdmission × Nat) :=
  let candidates := matchingCandidates platform admissions nativeTurnId f arguments
  let shown := candidates.filter fun c => f.shows platform c.1
  if shown = [] ∧ f.omitted ∧ candidates.length = 1 then candidates else shown

/-- The candidates a result leaves. -/
def candidates (f : ToolFact) : List (ToolResultAdmission × Nat) :=
  if f.committed then committedCandidates platform admissions nativeTurnId f
  else match f.arguments with
    | none => []
    | some arguments => reportedCandidates platform admissions nativeTurnId f arguments

/-- The admission a result selects. -/
def selectAdmission (f : ToolFact) : Option (ToolResultAdmission × Nat) :=
  mostSpecific (candidates platform admissions nativeTurnId f)

end Select

theorem mostSpecific_mem {cs : List (ToolResultAdmission × Nat)} {c : ToolResultAdmission × Nat}
    (h : mostSpecific cs = some c) : c ∈ cs := by
  induction cs generalizing c with
  | nil => cases h
  | cons b cs ih =>
    simp only [mostSpecific] at h
    cases hm : mostSpecific cs with
    | none =>
      rw [hm] at h
      cases h
      exact List.mem_cons_self
    | some d =>
      simp only [hm] at h
      split at h
      · cases h
        exact List.mem_cons_of_mem _ (ih hm)
      · cases h
        exact List.mem_cons_self

section Selected
variable {platform : Platform} {admissions : List ToolResultAdmission} {nativeTurnId : String} {f : ToolFact}

theorem mem_reportedCandidates {arguments : List (String × Json)} {c : ToolResultAdmission × Nat}
    (h : c ∈ reportedCandidates platform admissions nativeTurnId f arguments) :
    c ∈ matchingCandidates platform admissions nativeTurnId f arguments := by
  simp only [reportedCandidates] at h
  split at h
  · exact h
  · exact (List.mem_filter.1 h).1

/-- A candidate is one of the admissions, at its place. -/
theorem candidates_get {c : ToolResultAdmission × Nat}
    (h : c ∈ candidates platform admissions nativeTurnId f) : admissions[c.2]? = some c.1 := by
  unfold candidates at h
  split at h
  · exact List.mem_zipIdx_iff_getElem?.1 (List.mem_filter.1 h).1
  · split at h
    · cases h
    · exact List.mem_zipIdx_iff_getElem?.1 (List.mem_filter.1 (mem_reportedCandidates h)).1

end Selected
end PuffoAgent.Runtime
