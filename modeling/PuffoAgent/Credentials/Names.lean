import PuffoAgent.Credentials.Replies

/-! The names of custom credentials: what the ledger of requests says about a row of the server's list, and what a
placement settles in it. -/
namespace PuffoAgent.Credentials
open Relational Text

section Rows

/-- A row of the server's list. -/
structure CredentialRow where
  type : String
  index : Nat
  version : Int
  aliasName : String

/-- `state in ("pending", "in_flight")`. -/
def CredentialRequest.isOpen (r : CredentialRequest) : Bool := r.state = .pending ∨ r.state = .inFlight

/-- `_alias_from_ledger`; no ledger is one without requests. -/
def aliasFromLedger (l : RequestLedger) (credentialType : String) (index : Nat) : String :=
  match l.items.rows.find? fun r => r.type = credentialType ∧ r.index = some (index : Int) ∧ isAlias r.aliasName with
  | some r => r.aliasName
  | none =>
    match l.items.rows.filter fun r => r.type = credentialType ∧ r.isOpen ∧ isAlias r.aliasName with
    | [r] => r.aliasName
    | _ => ""

/-- The alias under which a row is placed. -/
def CredentialRow.name (row : CredentialRow) (l : RequestLedger) : String :=
  if row.type = typeCustomized then
    let own := aliasFromLedger l row.type row.index
    if own ≠ "" then own else if isAlias row.aliasName then row.aliasName else ""
  else row.aliasName

/-- The key that a row is looked up under. -/
def CredentialRow.key (row : CredentialRow) (l : RequestLedger) : String :=
  if row.type = typeCustomized then
    if row.name l ≠ "" then "alias:" ++ row.name l else heldPrefix ++ row.type ++ ":" ++ toString row.index
  else row.type

/-- The first request that a placement settles. -/
def requestFor (l : RequestLedger) (credentialType : String) (index : Nat) : Option CredentialRequest :=
  l.items.rows.find? fun r => r.type = credentialType ∧ r.isOpen ∧
    (credentialType ≠ typeCustomized ∨ r.aliasName = aliasFromLedger l credentialType index)

/-- `_record_placement`. -/
def recordPlacement (repr : String → String) (l : RequestLedger) (row : CredentialRow) (version : Int) (name : String) :
    RequestLedger :=
  match requestFor l row.type row.index with
  | none => l
  | some r =>
    let claimed := if r.state = .pending then (l.claim r.requestId).1 else l
    claimed.settle r.requestId true (some (row.index : Int)) (some version)
      (if name ≠ "" ∨ row.type ≠ typeCustomized then ""
        else "no variable exported (label " ++ repr row.aliasName ++ ")")

end Rows
section Names

/-- A usable name that the agent asks for, and the index that it was settled with. -/
structure Ask where
  name : String
  index : Option Int
  isOpen : Bool

namespace Ask

/-- The name of a custom credential: the one that was settled for it, else the only one that is open. -/
def nameOf (asks : List Ask) (index : Nat) : String :=
  match asks.find? (·.index = some (index : Int)) with
  | some a => a.name
  | none =>
    match asks.filter (·.isOpen) with
    | [a] => a.name
    | _ => ""

/-- The first open ask for a name is settled. -/
def give (name : String) (index : Nat) : List Ask → List Ask
  | [] => []
  | a :: asks => if a.isOpen ∧ a.name = name then ⟨name, some index, false⟩ :: asks else a :: give name index asks

theorem give_of_none {name : String} {index : Nat} {asks : List Ask} (h : ∀ a ∈ asks, ¬ (a.isOpen = true ∧ a.name = name)) :
    give name index asks = asks := by
  induction asks with
  | nil => rfl
  | cons a asks ih =>
    obtain ⟨ha, hasks⟩ := List.forall_mem_cons.mp h
    rw [give, if_neg ha, ih hasks]

theorem give_append {name : String} {index : Nat} {before after : List Ask} {a : Ask}
    (h : ∀ a ∈ before, ¬ (a.isOpen = true ∧ a.name = name)) (ha : a.isOpen = true ∧ a.name = name) :
    give name index (before ++ a :: after) = before ++ ⟨name, some index, false⟩ :: after := by
  induction before with
  | nil => rw [List.nil_append, give, if_pos ha, List.nil_append]
  | cons b before ih =>
    obtain ⟨hb, hbefore⟩ := List.forall_mem_cons.mp h
    rw [List.cons_append, give, if_neg hb, ih hbefore, List.cons_append]

end Ask

/-- The requests for a custom credential under a usable name. -/
def CredentialRequest.isNamed (r : CredentialRequest) : Bool := r.type = typeCustomized ∧ isAlias r.aliasName

def CredentialRequest.ask (r : CredentialRequest) : Ask := ⟨r.aliasName, r.index, r.isOpen⟩

/-- The names that a ledger asks for. -/
def RequestLedger.asks (l : RequestLedger) : List Ask := (l.items.rows.filter (·.isNamed)).map (·.ask)

/-- The asks once a row has been placed. -/
def CredentialRow.settles (row : CredentialRow) (asks : List Ask) : List Ask :=
  if row.type = typeCustomized then Ask.give (Ask.nameOf asks row.index) row.index asks else asks

variable {l : RequestLedger} {row : CredentialRow}

theorem aliasFromLedger_asks (l : RequestLedger) (index : Nat) :
    aliasFromLedger l typeCustomized index = Ask.nameOf l.asks index := by
  have hfind : l.asks.find? (·.index = some (index : Int)) = (l.items.rows.find? fun r =>
      r.type = typeCustomized ∧ r.index = some (index : Int) ∧ isAlias r.aliasName).map (·.ask) := by
    rw [RequestLedger.asks, List.find?_map, List.find?_filter]
    congr 2
    funext r
    simp [CredentialRequest.isNamed, CredentialRequest.ask, and_comm, and_left_comm]
  have hopen : l.asks.filter (·.isOpen) = (l.items.rows.filter fun r =>
      r.type = typeCustomized ∧ r.isOpen ∧ isAlias r.aliasName).map (·.ask) := by
    rw [RequestLedger.asks, List.filter_map, List.filter_filter]
    congr 2
    funext r
    simp [CredentialRequest.isNamed, CredentialRequest.ask, Bool.and_left_comm]
  rw [aliasFromLedger, Ask.nameOf, hfind, hopen]
  cases l.items.rows.find? fun r => r.type = typeCustomized ∧ r.index = some (index : Int) ∧ isAlias r.aliasName with
  | some r => rfl
  | none =>
    cases l.items.rows.filter fun r => r.type = typeCustomized ∧ r.isOpen ∧ isAlias r.aliasName with
    | nil => rfl
    | cons r rest => cases rest <;> rfl

/-- A request that is rewritten keeps its place. -/
theorem rows_rewrite_at {states : List RequestState} {f : CredentialRequest → CredentialRequest}
    (hf : ∀ r, (f r).requestId = r.requestId) {before after : List CredentialRequest} {r : CredentialRequest}
    (h : l.items.rows = before ++ r :: after) (hs : r.state ∈ states) :
    (l.rewrite r.requestId states f hf).items.rows = before ++ f r :: after := by
  have hget : l.get r.requestId = some r := Table.get?_of_mem (h ▸ List.mem_append_right _ List.mem_cons_self)
  rw [RequestLedger.rewrite, hget]
  dsimp only
  rw [if_pos hs]
  exact Table.rows_update_at hf h

theorem rows_claim_at {before after : List CredentialRequest} {r : CredentialRequest}
    (h : l.items.rows = before ++ r :: after) (hs : r.state = .pending) :
    (l.claim r.requestId).1.items.rows = before ++ { r with state := .inFlight } :: after := by
  have hget : l.get r.requestId = some r := Table.get?_of_mem (h ▸ List.mem_append_right _ List.mem_cons_self)
  rw [RequestLedger.claim, hget]
  dsimp only
  rw [if_neg (not_not.mpr hs)]
  change (l.items.update (·.requestId = r.requestId) ({ · with state := .inFlight }) fun _ => rfl).rows = _
  exact Table.rows_update_at _ h

theorem rows_settle_at {before after : List CredentialRequest} {r : CredentialRequest} {index version : Option Int}
    {detail : String} (h : l.items.rows = before ++ r :: after) (hs : r.state ∈ [.pending, .inFlight]) :
    (l.settle r.requestId true index version detail).items.rows =
      before ++ { r with state := .placed, index := index, version := version, detail := detail } :: after :=
  rows_rewrite_at _ h hs

/-- A placement settles the first request that is due to it. -/
theorem rows_recordPlacement (repr : String → String) (version : Int) (name : String) {r : CredentialRequest}
    (h : requestFor l row.type row.index = some r) : ∃ before after settled, l.items.rows = before ++ r :: after ∧
      (recordPlacement repr l row version name).items.rows = before ++ settled :: after ∧
      (∀ a ∈ before, ¬ (a.type = row.type ∧ a.isOpen = true ∧
        (row.type ≠ typeCustomized ∨ a.aliasName = aliasFromLedger l row.type row.index))) ∧
      settled.type = r.type ∧ settled.ask = ⟨r.aliasName, some row.index, false⟩ := by
  obtain ⟨hr, before, after, hrows, hbefore⟩ := List.find?_eq_some_iff_append.mp h
  have hopen : r.state = .pending ∨ r.state = .inFlight := of_decide_eq_true (of_decide_eq_true hr).2.1
  have hbefore (a) (ha : a ∈ before) := of_decide_eq_false (Bool.not_eq_eq_eq_not.mp (hbefore a ha))
  rw [recordPlacement, h]
  dsimp only
  obtain hstate | hstate := hopen
  · rw [if_pos hstate]
    exact ⟨before, after, _, hrows,
      @rows_settle_at _ _ _ { r with state := .inFlight } _ _ _ (rows_claim_at hrows hstate) (by simp), hbefore, rfl, rfl⟩
  · rw [if_neg (by simp [hstate])]
    exact ⟨before, after, _, hrows, rows_settle_at hrows (by simp [hstate]), hbefore, rfl, rfl⟩

theorem asks_append (before after : List CredentialRequest) (r : CredentialRequest) :
    ((before ++ r :: after).filter (·.isNamed)).map (·.ask) = (before.filter (·.isNamed)).map (·.ask) ++
      ((if r.isNamed then [r.ask] else []) ++ (after.filter (·.isNamed)).map (·.ask)) := by
  rw [List.filter_append, List.map_append, List.filter_cons]
  split <;> rfl

/-- To the asks, a placement is what the row settles. -/
theorem asks_recordPlacement (repr : String → String) (l : RequestLedger) (row : CredentialRow) (version : Int) (name : String) :
    (recordPlacement repr l row version name).asks = row.settles l.asks := by
  cases hreq : requestFor l row.type row.index with
  | none =>
    have hsame : recordPlacement repr l row version name = l := by rw [recordPlacement, hreq]
    rw [hsame, CredentialRow.settles]
    split
    · rename_i hcustom
      refine (Ask.give_of_none fun a ha => ?_).symm
      obtain ⟨r, hr, rfl⟩ := List.mem_map.mp ha
      obtain ⟨hmem, hnamed⟩ := List.mem_filter.mp hr
      have hnamed : r.type = typeCustomized ∧ isAlias r.aliasName = true := of_decide_eq_true hnamed
      rw [← aliasFromLedger_asks, ← hcustom]
      intro ha
      exact List.find?_eq_none.mp hreq r hmem (decide_eq_true ⟨hnamed.1.trans hcustom.symm, ha.1, .inr ha.2⟩)
    · rfl
  | some r =>
    obtain ⟨before, after, settled, hrows, hrows', hbefore, htype, hask⟩ := rows_recordPlacement repr version name hreq
    obtain ⟨hr, hopen, hname⟩ : r.type = row.type ∧ r.isOpen = true ∧
        (row.type ≠ typeCustomized ∨ r.aliasName = aliasFromLedger l row.type row.index) := by
      simpa using List.find?_some hreq
    have halias : settled.aliasName = r.aliasName := congrArg Ask.name hask
    have hnamed : settled.isNamed = r.isNamed := by rw [CredentialRequest.isNamed, CredentialRequest.isNamed, htype, halias]
    have hasks : l.asks = (before.filter (·.isNamed)).map (·.ask) ++
        ((if r.isNamed then [r.ask] else []) ++ (after.filter (·.isNamed)).map (·.ask)) := by
      rw [RequestLedger.asks, hrows, asks_append]
    have hother {a : Ask} {rs : List CredentialRequest} (ha : a ∈ (rs.filter (·.isNamed)).map (·.ask)) :
        ∃ q ∈ rs, q.ask = a ∧ q.type = typeCustomized ∧ isAlias q.aliasName = true := by
      obtain ⟨q, hq, rfl⟩ := List.mem_map.mp ha
      obtain ⟨hmem, hnamed⟩ := List.mem_filter.mp hq
      exact ⟨q, hmem, rfl, of_decide_eq_true hnamed⟩
    rw [RequestLedger.asks, hrows', asks_append, hnamed, hask, CredentialRow.settles]
    by_cases hcustom : row.type = typeCustomized
    · have hname : r.aliasName = aliasFromLedger l row.type row.index := hname.resolve_left (not_not.mpr hcustom)
      rw [if_pos hcustom, ← aliasFromLedger_asks, ← hcustom, ← hname, hasks]
      by_cases hr : r.isNamed = true
      · rw [if_pos hr, if_pos hr]
        refine (Ask.give_append (fun a ha hasked => ?_) (show r.ask.isOpen = true ∧ r.ask.name = r.aliasName from ⟨hopen, rfl⟩)).symm
        obtain ⟨q, hq, rfl, hcustom', -⟩ := hother ha
        exact hbefore q hq ⟨hcustom'.trans hcustom.symm, hasked.1, .inr (hasked.2.trans hname)⟩
      · -- a request without a usable name is not asked for
        rw [if_neg hr, if_neg hr]
        refine (Ask.give_of_none fun a ha hasked => hr ?_).symm
        have halias : isAlias a.name = true := by
          obtain ha | ha := List.mem_append.mp ha
          · obtain ⟨q, -, rfl, -, halias⟩ := hother ha
            exact halias
          · obtain ⟨q, -, rfl, -, halias⟩ := hother ha
            exact halias
        rw [CredentialRequest.isNamed, ← hasked.2]
        exact decide_eq_true ⟨‹r.type = row.type›.trans hcustom, halias⟩
    · have hr : r.isNamed = false := by
        rw [CredentialRequest.isNamed, hr]
        simp [hcustom]
      rw [if_neg hcustom, hasks, hr]
      rfl

end Names
section Aliases
variable {l : RequestLedger} {row : CredentialRow}

theorem isAlias_aliasFromLedger (l : RequestLedger) (credentialType : String) (index : Nat)
    (h : aliasFromLedger l credentialType index ≠ "") : isAlias (aliasFromLedger l credentialType index) = true := by
  rw [aliasFromLedger] at h ⊢
  split at h
  · next r hr =>
    have hr : r.type = credentialType ∧ r.index = some (index : Int) ∧ isAlias r.aliasName = true := by
      simpa using List.find?_some hr
    exact hr.2.2
  · split at h
    · next r hr =>
      have hmem : r ∈ [r] := List.mem_singleton_self r
      rw [← hr] at hmem
      exact (of_decide_eq_true (List.mem_filter.mp hmem).2).2.2
    · exact absurd rfl h

theorem CredentialRow.isAlias_name (hcustom : row.type = typeCustomized) (h : row.name l ≠ "") :
    isAlias (row.name l) = true := by
  rw [CredentialRow.name, if_pos hcustom] at h ⊢
  dsimp only at h ⊢
  split_ifs at h ⊢ with hown halias
  · exact isAlias_aliasFromLedger l row.type row.index hown
  · exact halias
  · exact absurd rfl h

/-- A row is placed under the key that it is looked up under. -/
theorem CredentialRow.storeKey_name (row : CredentialRow) (l : RequestLedger) :
    storeKey row.type row.index (row.name l) = row.key l := by
  rw [storeKey, CredentialRow.key]
  by_cases hcustom : row.type = typeCustomized
  · rw [if_neg (not_not.mpr hcustom), if_pos hcustom]
    by_cases hname : row.name l = ""
    · rw [hname]
      rfl
    · rw [if_pos (CredentialRow.isAlias_name hcustom hname), if_pos hname]
  · rw [if_pos hcustom, if_neg hcustom]

end Aliases
end PuffoAgent.Credentials
