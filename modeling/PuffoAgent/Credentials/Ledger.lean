import PuffoAgent.Relational.Table
import PuffoAgent.Text.Python

/-! The ledger of the credential requests an agent issued, and the file it is kept in. -/
namespace PuffoAgent.Credentials
open Relational Text

section Requests

inductive RequestState
  | pending
  | inFlight
  | placed
  | failed
  deriving DecidableEq

def RequestState.text : RequestState → String
  | .pending => "pending"
  | .inFlight => "in_flight"
  | .placed => "placed"
  | .failed => "failed"

def RequestState.ofText (text : String) : Option RequestState :=
  [.pending, .inFlight, .placed, .failed].find? (·.text = text)

structure CredentialRequest where
  requestId : String
  type : String
  reason : String
  aliasName : String := ""
  issuedAt : Int := 0
  state : RequestState := .pending
  index : Option Int := none
  version : Option Int := none
  detail : String := ""

def intOrNull (value : Option Int) : Json := value.elim .null .int

namespace CredentialRequest

/-- `placed` and `failed` are final. -/
def final (r : CredentialRequest) : Bool := r.state = .placed ∨ r.state = .failed

/-- `to_dict`. -/
def toDict (r : CredentialRequest) : List (String × Json) :=
  [("request_id", .str r.requestId), ("type", .str r.type), ("reason", .str r.reason), ("alias", .str r.aliasName),
    ("issued_at", .int r.issuedAt), ("state", .str r.state.text), ("index", intOrNull r.index),
    ("version", intOrNull r.version), ("detail", .str r.detail)]

def textField (item : Json) (key default : String) : Option String :=
  match item.member key with
  | none => some default
  | some (.str s) => some s
  | some _ => none

def intField (item : Json) (key : String) : Option (Option Int) :=
  match item.member key with
  | none | some .null => some none
  | some (.int n) => some (some n)
  | some _ => none

/-- One item of the file; three fields have no default. An item with another type in a field was
not written by the ledger. -/
def ofDict (item : Json) : Option CredentialRequest := do
  return {
    requestId := ← asText (item.member "request_id")
    type := ← asText (item.member "type")
    reason := ← asText (item.member "reason")
    aliasName := ← textField item "alias" ""
    issuedAt := ((← intField item "issued_at").getD 0)
    state := ← RequestState.ofText (← textField item "state" "pending")
    index := ← intField item "index"
    version := ← intField item "version"
    detail := ← textField item "detail" "" }

theorem ofText_text (state : RequestState) : RequestState.ofText state.text = some state := by
  cases state <;> rfl

theorem intField_intOrNull {item : Json} {key : String} {value : Option Int}
    (h : item.member key = some (intOrNull value)) : intField item key = some value := by
  unfold intField
  rw [h]
  cases value <;> rfl

/-- What is written is read back. -/
theorem ofDict_toDict (r : CredentialRequest) : ofDict (.obj r.toDict) = some r := by
  have hindex : intField (.obj r.toDict) "index" = some r.index := intField_intOrNull rfl
  have hversion : intField (.obj r.toDict) "version" = some r.version := intField_intOrNull rfl
  have hstate : textField (.obj r.toDict) "state" "pending" = some r.state.text := rfl
  unfold ofDict
  simp only [hindex, hversion, hstate, ofText_text, Option.bind_eq_bind, Option.bind_some]
  rfl

end CredentialRequest
end Requests

section Ledger

abbrev Requests := Table CredentialRequest String (·.requestId)

/-- The requests in memory and the value in the file. -/
structure RequestLedger where
  items : Requests
  file : Json

namespace RequestLedger

/-- What `_save` writes. -/
def payload (items : Requests) : Json :=
  .obj [("version", .int 1), ("requests", .arr (items.rows.map fun r => .obj r.toDict))]

/-- The items of the file that can be read, one after the other. -/
def loaded : Json → Requests
  | .obj members =>
    match (Json.obj members).member "requests" with
    | some (.arr items) => (items.filterMap CredentialRequest.ofDict).foldl Table.put .empty
    | _ => .empty
  | _ => .empty

/-- `_load`, of a new process. -/
def load (file : Json) : RequestLedger := ⟨loaded file, file⟩

/-- `_save`. -/
def save (items : Requests) : RequestLedger := ⟨items, payload items⟩

/-- `issue`. -/
def issue (l : RequestLedger) (uuid credentialType reason aliasName : String) (now : Int) : RequestLedger :=
  save (l.items.put { requestId := uuid, type := credentialType, reason := reason, aliasName := aliasName, issuedAt := now })

/-- `get`. -/
def get (l : RequestLedger) (requestId : String) : Option CredentialRequest := l.items.get? requestId

/-- `pending`. -/
def pending (l : RequestLedger) : List CredentialRequest := l.items.select (·.state = .pending)

/-- Write one request that is in one of some states. -/
def rewrite (l : RequestLedger) (requestId : String) (states : List RequestState)
    (f : CredentialRequest → CredentialRequest) (hf : ∀ r, (f r).requestId = r.requestId) : RequestLedger :=
  match l.get requestId with
  | some r => if r.state ∈ states then save (l.items.update (·.requestId = requestId) f hf) else l
  | none => l

/-- `claim`. -/
def claim (l : RequestLedger) (requestId : String) : RequestLedger × Bool :=
  match l.get requestId with
  | some r =>
    if r.state ≠ .pending then (l, false)
    else (save (l.items.update (·.requestId = requestId) ({ · with state := .inFlight }) fun _ => rfl), true)
  | none => (l, false)

/-- `release`. -/
def release (l : RequestLedger) (requestId : String) : RequestLedger :=
  l.rewrite requestId [.inFlight] ({ · with state := .pending }) fun _ => rfl

/-- `recover_in_flight`. -/
def recoverInFlight (l : RequestLedger) : RequestLedger :=
  if l.items.select (·.state = .inFlight) = [] then l
  else save (l.items.update (·.state = .inFlight) ({ · with state := .pending }) fun _ => rfl)

/-- `settle`, as placed or as failed. -/
def settle (l : RequestLedger) (requestId : String) (asPlaced : Bool) (index version : Option Int) (detail : String) :
    RequestLedger :=
  l.rewrite requestId [.pending, .inFlight]
    (fun r => { r with state := if asPlaced then .placed else .failed, index := index, version := version, detail := detail })
    fun _ => rfl

section Effects
variable {l : RequestLedger} {rid : String}

/-- The file says what is in memory. -/
def InSync (l : RequestLedger) : Prop := loaded l.file = l.items

theorem loaded_payload (items : Requests) : loaded (payload items) = items := by
  have hread : (items.rows.map fun r => Json.obj r.toDict).filterMap CredentialRequest.ofDict = items.rows := by
    rw [List.filterMap_map, show CredentialRequest.ofDict ∘ (fun r => Json.obj r.toDict) = some from
      funext CredentialRequest.ofDict_toDict, List.filterMap_some]
  have hload : loaded (payload items) =
      ((items.rows.map fun r => Json.obj r.toDict).filterMap CredentialRequest.ofDict).foldl Table.put .empty := rfl
  rw [hload, hread]
  exact Table.ext_rows (Table.rows_foldl_put items.nodup)

theorem inSync_save (items : Requests) : InSync (save items) := loaded_payload items

/-- Nothing is forgotten, no request changes its type, and a final one does not change at all. -/
def Kept (l l' : RequestLedger) : Prop :=
  ∀ rid r, l.get rid = some r → ∃ r', l'.get rid = some r' ∧ r'.type = r.type ∧ (r.final = true → r' = r)

theorem Kept.refl (l : RequestLedger) : Kept l l := fun _ r h => ⟨r, h, rfl, fun _ => rfl⟩

theorem Kept.trans {l' l'' : RequestLedger} (h : Kept l l') (h' : Kept l' l'') : Kept l l'' := by
  intro rid r hr
  obtain ⟨r', hr', ht, hf⟩ := h rid r hr
  obtain ⟨r'', hr'', ht', hf'⟩ := h' rid r' hr'
  refine ⟨r'', hr'', ht'.trans ht, fun hfinal => ?_⟩
  obtain rfl := hf hfinal
  exact hf' hfinal

theorem get_rewrite {states : List RequestState} {f : CredentialRequest → CredentialRequest}
    (hf : ∀ r, (f r).requestId = r.requestId) (k : String) : (l.rewrite rid states f hf).get k =
      if k = rid then (l.get k).map (fun r => if r.state ∈ states then f r else r) else l.get k := by
  unfold rewrite
  by_cases hk : k = rid
  · subst hk
    cases hr : l.get k with
    | none => simpa using hr
    | some r =>
      have hid : r.requestId = k := Table.get?_key hr
      by_cases hs : r.state ∈ states
      · simp only [hs, if_pos]
        unfold get save
        rw [Table.get?_update, show l.items.get? k = some r from hr]
        simp [hid, hs]
      · simpa [hs] using hr
  · rw [if_neg hk]
    cases hr : l.get rid with
    | none => rfl
    | some r =>
      simp only
      split
      · unfold get save
        rw [Table.get?_update]
        cases ho : l.items.get? k with
        | none => rfl
        | some o =>
          have hid : o.requestId = k := Table.get?_key ho
          simp [hid, hk]
      · rfl

theorem inSync_rewrite {states : List RequestState} {f : CredentialRequest → CredentialRequest}
    (hf : ∀ r, (f r).requestId = r.requestId) (h : InSync l) : InSync (l.rewrite rid states f hf) := by
  unfold rewrite
  split
  · split
    · exact inSync_save _
    · exact h
  · exact h

theorem kept_rewrite {states : List RequestState} {f : CredentialRequest → CredentialRequest}
    (hf : ∀ r, (f r).requestId = r.requestId) (htype : ∀ r, (f r).type = r.type)
    (hstates : ∀ r : CredentialRequest, r.state ∈ states → r.final = false) : Kept l (l.rewrite rid states f hf) := by
  intro k r hr
  rw [get_rewrite, hr]
  by_cases hk : k = rid
  · rw [Option.map_some]
    refine ⟨_, if_pos hk, ?_, fun hfinal => ?_⟩
    · split
      · exact htype r
      · rfl
    · rw [if_neg fun hs => absurd (hstates r hs) (by simp [hfinal])]
  · exact ⟨r, if_neg hk, rfl, fun _ => rfl⟩

theorem claim_of_true {l' : RequestLedger} (h : l.claim rid = (l', true)) :
    ∃ r, l.get rid = some r ∧ r.state = .pending ∧
      l' = l.rewrite rid [.pending] ({ · with state := .inFlight }) fun _ => rfl := by
  unfold claim at h
  unfold rewrite
  cases hr : l.get rid with
  | none => simp [hr] at h
  | some r =>
    rw [hr] at h
    simp only at h
    split at h
    · simp at h
    · rename_i hs
      have hpending : r.state = .pending := by simpa using hs
      obtain ⟨rfl, -⟩ := Prod.mk.inj h
      exact ⟨r, rfl, hpending, by simp [hpending]⟩

theorem get_recoverInFlight (k : String) : (l.recoverInFlight).get k =
    (l.get k).map fun r => if r.state = .inFlight then { r with state := .pending } else r := by
  unfold recoverInFlight
  split
  case isTrue hnone =>
    cases hr : l.get k with
    | none => rfl
    | some r =>
      have hs : r.state ≠ .inFlight := fun hs => by
        have hmem : r ∈ l.items.select (·.state = .inFlight) := List.mem_filter.2 ⟨Table.mem_of_get? hr, by simp [hs]⟩
        rw [hnone] at hmem
        cases hmem
      simp [hs]
  case isFalse =>
    unfold get save
    rw [Table.get?_update]
    simp only [decide_eq_true_eq]

theorem inSync_recoverInFlight (h : InSync l) : InSync l.recoverInFlight := by
  unfold recoverInFlight
  split
  · exact h
  · exact inSync_save _

theorem kept_recoverInFlight : Kept l l.recoverInFlight := by
  intro k r hr
  rw [get_recoverInFlight, hr, Option.map_some]
  refine ⟨_, rfl, ?_, fun hfinal => ?_⟩
  · split <;> rfl
  · rw [if_neg]
    intro hs
    simp [CredentialRequest.final, hs] at hfinal

theorem get_issue {uuid credentialType reason aliasName : String} {now : Int} (k : String) :
    (l.issue uuid credentialType reason aliasName now).get k =
      if uuid = k then some ⟨uuid, credentialType, reason, aliasName, now, .pending, none, none, ""⟩ else l.get k :=
  Table.get?_put ..

theorem kept_issue {uuid credentialType reason aliasName : String} {now : Int} (h : l.get uuid = none) :
    Kept l (l.issue uuid credentialType reason aliasName now) := by
  intro k r hr
  refine ⟨r, ?_, rfl, fun _ => rfl⟩
  rw [get_issue, if_neg, hr]
  rintro rfl
  rw [hr] at h
  cases h

/-- A new process reads what the last one wrote. -/
theorem load_file (h : InSync l) : load l.file = l := by
  unfold load
  rw [h]

end Effects

end RequestLedger
end Ledger
end PuffoAgent.Credentials
