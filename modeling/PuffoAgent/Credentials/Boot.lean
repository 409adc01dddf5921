import PuffoAgent.Credentials.Names

/-! The reconcile at boot: every credential that the server lists is placed, unless it is in its place already. -/
namespace PuffoAgent.Credentials
open Relational Text

section Boot

/-- `value == number` of a parsed value. -/
structure Numbers where
  equals : Json → Int → Bool
  equals_int : ∀ m n, equals (.int m) n = decide (m = n)

/-- The dictionary that `read_store` gives. -/
abbrev Stored := String → Option Json

/-- An entry as `place` writes it. -/
def StoredCredential.toDict (c : StoredCredential) : Json :=
  .obj [("type", .str c.type), ("index", .int c.index), ("version", .int c.version), ("value", .str c.value),
    ("fingerprint", .str c.fingerprint), ("placed_at", .int c.placedAt), ("label", .str c.label),
    ("exported", .bool c.exported)]

/-- What the daemon holds while it reconciles, and how many credentials it has placed. -/
structure Boot where
  store : Stored
  ledger : RequestLedger
  placed : Nat

/-- A credential that the server hands out and whose value is a text. -/
structure Served where
  version : Int
  value : List UInt8
  text : String

variable (numbers : Numbers) (fingerprint : List UInt8 → String)

/-- `_already_placed` of `stored.get(key) or {}`; `none` where the entry has no fields to get. -/
def alreadyPlaced (current : Option Json) (index : Nat) (version : Int) : Option Bool :=
  match current with
  | none => some false
  | some (.obj members) =>
    let data := Json.obj members
    some <| match data.member "value" with
      | some (.str value) => (data.member "version").any (numbers.equals · version) ∧
          (data.member "index").any (numbers.equals · index) ∧
          asText (data.member "fingerprint") = some (fingerprint (encodeUtf8 value.toList))
      | _ => false
  | some value => if value.truthy then none else some false

/-- The answers of the server to a fetch, after the cached copy was dropped; `none` where it raises or gives none. -/
abbrev Answers := String → Nat → Option (Int × List UInt8)

/-- What is fetched for a row, if it can be placed. -/
def Answers.served (answers : Answers) (row : CredentialRow) : Option Served :=
  (answers row.type row.index).bind fun (version, value) =>
    (decodeStrict value).map fun text => ⟨version, value, text⟩

/-- The entry of a row. -/
def placedEntry (row : CredentialRow) (served : Served) (name : String) (now : Int) : StoredCredential where
  key := storeKey row.type row.index name
  type := row.type
  index := row.index
  version := served.version
  value := served.text
  fingerprint := fingerprint served.value
  placedAt := now
  label := name
  exported := ¬ startsWith (storeKey row.type row.index name) heldPrefix

variable (repr : String → String) (answers : Answers) (now : Int) (stored : Stored)

/-- One row of `reconcile_at_boot`; `stored` is what the store held at its start. -/
def reconcileRow (b : Boot) (row : CredentialRow) : Option Boot :=
  match alreadyPlaced numbers fingerprint (stored (row.key b.ledger)) row.index row.version with
  | none => none
  | some true => some b
  | some false => match answers.served row with
    | none => some b
    | some served =>
      let entry := placedEntry fingerprint row served (row.name b.ledger) now
      some {
        store := Function.update b.store entry.key (some entry.toDict)
        ledger := recordPlacement repr b.ledger row served.version (row.name b.ledger)
        placed := b.placed + 1 }

/-- The loop of `reconcile_at_boot`. -/
def reconcileRows (rows : List CredentialRow) (b : Boot) : Option Boot :=
  rows.foldlM (reconcileRow numbers fingerprint repr answers now stored) b

/-- `reconcile_at_boot` on what the server lists. -/
def reconcileAtBoot (rows : List CredentialRow) (store : Stored) (l : RequestLedger) : Option Boot :=
  reconcileRows numbers fingerprint repr answers now store rows ⟨store, l, 0⟩

end Boot
section Landing
variable (numbers : Numbers) (fingerprint : List UInt8 → String) (answers : Answers) (stored : Stored)

/-- A row that is not in its place and can be. -/
structure Due (row : CredentialRow) (key : String) (served : Served) : Prop where
  missing : alreadyPlaced numbers fingerprint (stored key) row.index row.version = some false
  served : answers.served row = some served

/-- The entry of a row is intact, at the version that is listed or at a newer one that is served; where the row was
due, it is the credential that was served. -/
structure InPlace (store : Stored) (row : CredentialRow) (key : String) (served : Served) : Prop where
  intact : ∃ version, alreadyPlaced numbers fingerprint (store key) row.index version = some true ∧
    (version = row.version ∨ version = served.version ∧ row.version < served.version)
  value : Due numbers fingerprint answers stored row key served → ∃ data, store key = some data ∧
    data.member "type" = some (.str row.type) ∧ data.member "value" = some (.str served.text)

/-- What a row is due to be placed with under a key. -/
def CredentialRow.due (row : CredentialRow) (key : String) : Option Served :=
  if alreadyPlaced numbers fingerprint (stored key) row.index row.version = some false then answers.served row else none

/-- The key of a row among the names that are asked for. -/
def CredentialRow.keyAmong (row : CredentialRow) (asks : List Ask) : String :=
  if row.type = typeCustomized then
    let own := Ask.nameOf asks row.index
    let name := if own ≠ "" then own else if isAlias row.aliasName then row.aliasName else ""
    if name ≠ "" then "alias:" ++ name else heldPrefix ++ row.type ++ ":" ++ toString row.index
  else row.type

/-- The asks that a row of the list leaves. -/
def leaves (asks : List Ask) (row : CredentialRow) : List Ask :=
  if (row.due numbers fingerprint answers stored (row.keyAmong asks)).isSome then row.settles asks else asks

/-- The last row of a list that is due under a key. -/
def lastDue (key : String) : List Ask → List CredentialRow → Option (CredentialRow × Served)
  | _, [] => none
  | asks, row :: rows => (lastDue key (leaves numbers fingerprint answers stored asks row) rows).or
      (if row.keyAmong asks = key then (row.due numbers fingerprint answers stored key).map (row, ·) else none)

/-- The key that a row has when all names have been given. -/
def CredentialRow.lastKey (row : CredentialRow) (asks : List Ask) (rows : List CredentialRow) : String :=
  row.keyAmong (rows.foldl (leaves numbers fingerprint answers stored) asks)

/-- The last row that is due under a row's key is the same credential; where none is, the row is there already. -/
structure Lands (asks : List Ask) (rows : List CredentialRow) (r : CredentialRow) : Prop where
  same : ∀ q ∈ lastDue numbers fingerprint answers stored (r.lastKey numbers fingerprint answers stored asks rows) asks rows,
    (answers.served r).isSome → q.1.index = r.index ∧ q.2.version = r.version ∧
      ((r.due numbers fingerprint answers stored (r.lastKey numbers fingerprint answers stored asks rows)).isSome →
        q.1.type = r.type)
  held : lastDue numbers fingerprint answers stored (r.lastKey numbers fingerprint answers stored asks rows) asks rows = none →
    ∃ placed, alreadyPlaced numbers fingerprint (stored (r.lastKey numbers fingerprint answers stored asks rows))
      r.index r.version = some placed ∧ ((answers.served r).isSome → placed = true)

end Landing
section Entries
variable {numbers : Numbers} {fingerprint : List UInt8 → String} {answers : Answers} {row : CredentialRow} {served : Served}
  {current : Option Json} {index index' : Nat} {version version' : Int}

theorem Answers.served_encode (h : answers.served row = some served) : encodeUtf8 served.text.toList = served.value := by
  obtain ⟨⟨version, value⟩, -, hvalue⟩ := Option.bind_eq_some_iff.mp h
  obtain ⟨text, htext, rfl⟩ := Option.map_eq_some_iff.mp hvalue
  rw [decodeStrict] at htext
  split_ifs at htext with hencode
  cases htext
  rw [String.toList_ofList]
  exact hencode

/-- An entry is intact at its own version and index only. -/
theorem alreadyPlaced_entry (h : answers.served row = some served) (name : String) (now : Int) :
    alreadyPlaced numbers fingerprint (some (placedEntry fingerprint row served name now).toDict) index version =
      some (decide (served.version = version ∧ row.index = index)) := by
  change some (decide ((some (Json.int served.version)).any (numbers.equals · version) ∧
    (some (Json.int row.index)).any (numbers.equals · index) ∧
    some (fingerprint served.value) = some (fingerprint (encodeUtf8 served.text.toList)))) = _
  rw [Answers.served_encode h]
  simp only [Option.any_some, numbers.equals_int, decide_eq_true_eq, Int.natCast_inj, and_true]

/-- What a credential is looked up by once it is written. -/
theorem alreadyPlaced_entry_iff (h : answers.served row = some served) (name : String) (now : Int) :
    alreadyPlaced numbers fingerprint (some (placedEntry fingerprint row served name now).toDict) index version = some true ↔
      served.version = version ∧ row.index = index := by
  rw [alreadyPlaced_entry h, Option.some.injEq, decide_eq_true_eq]

/-- The dictionary that a store of placed credentials is. -/
def CredentialStore.dict (store : CredentialStore) : Stored := fun key => (store.get? key).map (·.toDict)

/-- A placement is that of the passes over replies. -/
theorem place_dict {store : CredentialStore} {held : HeldCredential} {now : Int} (l : RequestLedger)
    (htype : held.type = row.type) (hindex : held.index = row.index) (hversion : held.version = served.version)
    (hvalue : held.value = served.value) (h : answers.served row = some served) :
    ∃ store', place fingerprint store held (row.name l) now none = .ok store' ∧ store'.dict =
      Function.update store.dict (row.key l) (some (placedEntry fingerprint row served (row.name l) now).toDict) := by
  have hdecode : decodeStrict held.value = some served.text := by
    rw [hvalue, ← Answers.served_encode h, decodeStrict_encodeUtf8, String.ofList_toList]
  refine ⟨store.put (placedEntry fingerprint row served (row.name l) now), ?_, ?_⟩
  · rw [place.eq_def, hdecode, placedEntry, htype, hindex, hversion, hvalue]
  · funext key
    rw [CredentialStore.dict, Table.get?_put, Function.update_apply]
    change (if storeKey row.type row.index (row.name l) = key then _ else _ : Option StoredCredential).map _ = _
    rw [CredentialRow.storeKey_name]
    by_cases hkey : key = row.key l
    · rw [if_pos hkey.symm, if_pos hkey]
      rfl
    · rw [if_neg (Ne.symm hkey), if_neg hkey]
      rfl

end Entries
section Runs
variable {numbers : Numbers} {fingerprint : List UInt8 → String} {repr : String → String} {answers : Answers} {now : Int}
  {stored : Stored} {b b' : Boot} {row : CredentialRow} {rows : List CredentialRow} {key : String}

/-- What one row does: nothing, or it is due and is placed. -/
theorem reconcileRow_cases (h : reconcileRow numbers fingerprint repr answers now stored b row = some b') :
    (b' = b ∧ ∀ s, ¬ Due numbers fingerprint answers stored row (row.key b.ledger) s) ∨
    ∃ s, Due numbers fingerprint answers stored row (row.key b.ledger) s ∧
      b' = ⟨Function.update b.store (row.key b.ledger)
          (some (placedEntry fingerprint row s (row.name b.ledger) now).toDict),
        recordPlacement repr b.ledger row s.version (row.name b.ledger), b.placed + 1⟩ := by
  rw [reconcileRow] at h
  split at h
  · cases h
  · next hplaced =>
    cases h
    refine .inl ⟨rfl, fun s hs => ?_⟩
    rw [hs.missing] at hplaced
    cases hplaced
  · next hmissing =>
    split at h
    · next hunserved =>
      cases h
      refine .inl ⟨rfl, fun s hs => ?_⟩
      rw [hs.served] at hunserved
      cases hunserved
    · next s hserved =>
      cases h
      refine .inr ⟨s, ⟨hmissing, hserved⟩, ?_⟩
      rw [← CredentialRow.storeKey_name]
      rfl

theorem reconcileRow_defined (h : reconcileRow numbers fingerprint repr answers now stored b row = some b') :
    alreadyPlaced numbers fingerprint (stored (row.key b.ledger)) row.index row.version ≠ none := by
  intro hnone
  rw [reconcileRow, hnone] at h
  cases h

theorem due_eq_some {s : Served} : row.due numbers fingerprint answers stored key = some s ↔
    Due numbers fingerprint answers stored row key s := by
  rw [CredentialRow.due]
  split
  · rename_i hmissing
    exact ⟨fun hserved => ⟨hmissing, hserved⟩, fun h => h.served⟩
  · rename_i hplaced
    exact ⟨nofun, fun h => absurd h.missing hplaced⟩

theorem key_asks (row : CredentialRow) (l : RequestLedger) : row.key l = row.keyAmong l.asks := by
  rw [CredentialRow.key, CredentialRow.keyAmong]
  split
  · rename_i hcustom
    rw [CredentialRow.name, if_pos hcustom, hcustom, aliasFromLedger_asks]
  · rfl

/-- What one row does to the names that are asked for and to the entry under a key. -/
theorem reconcileRow_leaves (h : reconcileRow numbers fingerprint repr answers now stored b row = some b') (key : String) :
    b'.ledger.asks = leaves numbers fingerprint answers stored b.ledger.asks row ∧
    ((if row.keyAmong b.ledger.asks = key then row.due numbers fingerprint answers stored key else none) = none ∧
        b'.store key = b.store key ∨
      ∃ s name, (if row.keyAmong b.ledger.asks = key then row.due numbers fingerprint answers stored key else none) = some s ∧
        answers.served row = some s ∧ b'.store key = some (placedEntry fingerprint row s name now).toDict) := by
  obtain ⟨rfl, hnone⟩ | ⟨s, hdue, rfl⟩ := reconcileRow_cases h
  · have hnone : row.due numbers fingerprint answers stored (row.key b'.ledger) = none :=
      Option.eq_none_iff_forall_not_mem.mpr fun s hs => hnone s (due_eq_some.mp hs)
    rw [key_asks] at hnone
    refine ⟨by rw [leaves, hnone]; rfl, .inl ⟨?_, rfl⟩⟩
    split
    · rename_i hkey
      exact hkey ▸ hnone
    · rfl
  · rw [key_asks] at hdue ⊢
    have hsome := due_eq_some.mpr hdue
    refine ⟨by rw [leaves, hsome, asks_recordPlacement]; rfl, ?_⟩
    by_cases hkey : row.keyAmong b.ledger.asks = key
    · subst hkey
      exact .inr ⟨s, _, by rw [if_pos rfl, hsome], hdue.served, Function.update_self ..⟩
    · exact .inl ⟨if_neg hkey, Function.update_of_ne (Ne.symm hkey) ..⟩

theorem reconcileRows_cons (h : reconcileRows numbers fingerprint repr answers now stored (row :: rows) b = some b') :
    ∃ b₁, reconcileRow numbers fingerprint repr answers now stored b row = some b₁ ∧
      reconcileRows numbers fingerprint repr answers now stored rows b₁ = some b' := by
  rw [reconcileRows, List.foldlM_cons] at h
  exact Option.bind_eq_some_iff.mp h

/-- The names that a run leaves asked for. -/
theorem reconcileRows_asks (h : reconcileRows numbers fingerprint repr answers now stored rows b = some b') :
    b'.ledger.asks = rows.foldl (leaves numbers fingerprint answers stored) b.ledger.asks := by
  induction rows generalizing b with
  | nil =>
    cases h
    rfl
  | cons row rows ih =>
    obtain ⟨b₁, hrow, hrows⟩ := reconcileRows_cons h
    rw [ih hrows, (reconcileRow_leaves hrow "").1, List.foldl_cons]

/-- What a run leaves under a key: the entry of the last row that was due there, or what was there. -/
theorem reconcileRows_store (h : reconcileRows numbers fingerprint repr answers now stored rows b = some b') (key : String) :
    (lastDue numbers fingerprint answers stored key b.ledger.asks rows = none ∧ b'.store key = b.store key) ∨
    ∃ q s name, lastDue numbers fingerprint answers stored key b.ledger.asks rows = some (q, s) ∧
      answers.served q = some s ∧ b'.store key = some (placedEntry fingerprint q s name now).toDict := by
  induction rows generalizing b with
  | nil =>
    cases h
    exact .inl ⟨rfl, rfl⟩
  | cons row rows ih =>
    obtain ⟨b₁, hrow, hrows⟩ := reconcileRows_cons h
    obtain ⟨hasks, hstep⟩ := reconcileRow_leaves hrow key
    have ih := ih hrows
    rw [hasks] at ih
    obtain ⟨hlast, hstore⟩ | ⟨q, s, name, hlast, hserved, hstore⟩ := ih
    · rw [lastDue, hlast, Option.none_or, hstore]
      obtain ⟨hnone, hsame⟩ | ⟨s, name, hdue, hserved, hplaced⟩ := hstep
      · refine .inl ⟨?_, hsame⟩
        split
        · rename_i hkey
          rw [if_pos hkey] at hnone
          rw [hnone]
          rfl
        · rfl
      · refine .inr ⟨row, s, name, ?_, hserved, hplaced⟩
        split
        · rename_i hkey
          rw [if_pos hkey] at hdue
          rw [hdue]
          rfl
        · rename_i hkey
          rw [if_neg hkey] at hdue
          cases hdue
    · exact .inr ⟨q, s, name, by rw [lastDue, hlast, Option.some_or], hserved, hstore⟩

/-- A run never takes its count back, and one that places nothing changes nothing. -/
theorem reconcileRows_placed (h : reconcileRows numbers fingerprint repr answers now stored rows b = some b') :
    b.placed ≤ b'.placed ∧ (b'.placed = b.placed →
      b' = b ∧ ∀ r ∈ rows, alreadyPlaced numbers fingerprint (stored (r.key b.ledger)) r.index r.version ≠ none ∧
        ∀ s, ¬ Due numbers fingerprint answers stored r (r.key b.ledger) s) := by
  induction rows generalizing b with
  | nil =>
    cases h
    exact ⟨le_rfl, fun _ => ⟨rfl, fun r hr => absurd hr List.not_mem_nil⟩⟩
  | cons row rows ih =>
    obtain ⟨b₁, hrow, hrows⟩ := reconcileRows_cons h
    obtain ⟨hle, hsame⟩ := ih hrows
    obtain ⟨rfl, hrest⟩ | ⟨s, hdue, rfl⟩ := reconcileRow_cases hrow
    · refine ⟨hle, fun hplaced => ?_⟩
      obtain ⟨rfl, hnone⟩ := hsame hplaced
      exact ⟨rfl, List.forall_mem_cons.mpr ⟨⟨reconcileRow_defined hrow, hrest⟩, hnone⟩⟩
    · exact ⟨(Nat.le_succ _).trans hle, fun hplaced => absurd (hplaced ▸ hle) (Nat.not_succ_le_self _)⟩

/-- Where no row stops the loop or is due, the run changes nothing. -/
theorem reconcileRows_idle (h : ∀ r ∈ rows,
    alreadyPlaced numbers fingerprint (stored (r.key b.ledger)) r.index r.version ≠ none ∧
      ∀ s, ¬ Due numbers fingerprint answers stored r (r.key b.ledger) s) :
    reconcileRows numbers fingerprint repr answers now stored rows b = some b := by
  induction rows with
  | nil => rfl
  | cons row rows ih =>
    obtain ⟨⟨hdefined, hrest⟩, hrows⟩ := List.forall_mem_cons.mp h
    have hrow : reconcileRow numbers fingerprint repr answers now stored b row = some b := by
      rw [reconcileRow]
      split
      · next hnone => exact absurd hnone hdefined
      · rfl
      · next hmissing =>
        split
        · rfl
        · next s hserved => exact absurd ⟨hmissing, hserved⟩ (hrest s)
    rw [reconcileRows, List.foldlM_cons, hrow]
    exact ih hrows

theorem Answers.served_congr {r q : CredentialRow} (htype : r.type = q.type) (hindex : r.index = q.index) :
    answers.served r = answers.served q := by
  rw [Answers.served, Answers.served, htype, hindex]

end Runs
section Idempotence
variable (numbers : Numbers) (fingerprint : List UInt8 → String) (repr : String → String) (answers : Answers)

/-- What is to hold after a run that began with `stored` and left `b`: every row that is served is in its place, and
another run with the same answers places nothing and changes nothing. -/
structure Reconciled (later : Int) (stored : Stored) (rows : List CredentialRow) (b : Boot) : Prop where
  inPlace : ∀ r ∈ rows, ∀ s, answers.served r = some s →
    InPlace numbers fingerprint answers stored b.store r (r.key b.ledger) s
  again : reconcileAtBoot numbers fingerprint repr answers later rows b.store b.ledger = some ⟨b.store, b.ledger, 0⟩

variable {numbers fingerprint repr answers} {now later : Int} {rows : List CredentialRow} {stored : Stored} {l : RequestLedger}
  {b : Boot} {r : CredentialRow} {key : String} {s : Served}

/-- The key of a row after a run. -/
theorem lastKey_eq (h : reconcileAtBoot numbers fingerprint repr answers now rows stored l = some b) (r : CredentialRow) :
    r.key b.ledger = r.lastKey numbers fingerprint answers stored l.asks rows := by
  rw [key_asks, reconcileRows_asks h]
  rfl

theorem Reconciled.lands (hreconciled : Reconciled numbers fingerprint repr answers later stored rows b)
    (h : reconcileAtBoot numbers fingerprint repr answers now rows stored l = some b) (hr : r ∈ rows) :
    Lands numbers fingerprint answers stored l.asks rows r := by
  obtain ⟨-, hagain⟩ := (reconcileRows_placed hreconciled.again).2 rfl
  obtain ⟨hdefined, hnone⟩ := hagain r hr
  have hkey := lastKey_eq h r
  rw [hkey] at hdefined hnone
  have hplaced (hserved : (answers.served r).isSome) : alreadyPlaced numbers fingerprint
      (b.store (r.lastKey numbers fingerprint answers stored l.asks rows)) r.index r.version = some true := by
    obtain ⟨s, hs⟩ := Option.isSome_iff_exists.mp hserved
    cases hfound : alreadyPlaced numbers fingerprint
        (b.store (r.lastKey numbers fingerprint answers stored l.asks rows)) r.index r.version with
    | none => exact absurd hfound hdefined
    | some placed =>
      cases placed with
      | false => exact absurd ⟨hfound, hs⟩ (hnone s)
      | true => rfl
  obtain ⟨hlast, hstore⟩ | ⟨q, s, name, hlast, hserved, hstore⟩ :=
    reconcileRows_store h (r.lastKey numbers fingerprint answers stored l.asks rows)
  · constructor
    · intro q hq
      rw [hlast] at hq
      cases hq
    · intro _
      rw [hstore] at hdefined hplaced
      obtain ⟨placed, hfound⟩ := Option.ne_none_iff_exists'.mp hdefined
      exact ⟨placed, hfound, fun hserved => Option.some.inj (hfound.symm.trans (hplaced hserved))⟩
  · constructor
    · intro q' hq' hserved'
      rw [hlast] at hq'
      cases hq'
      have hplaced := hplaced hserved'
      rw [hstore, alreadyPlaced_entry_iff hserved] at hplaced
      refine ⟨hplaced.2, hplaced.1, fun hdue => ?_⟩
      obtain ⟨s', hs'⟩ := Option.isSome_iff_exists.mp hdue
      have hdue := due_eq_some.mp hs'
      have hin := hreconciled.inPlace r hr s' hdue.served
      rw [hkey] at hin
      obtain ⟨data, hdata, htype, -⟩ := hin.value hdue
      obtain rfl := Option.some.inj (hstore.symm.trans hdata)
      exact Json.str.inj (Option.some.inj htype)
    · intro hlast'
      rw [hlast] at hlast'
      cases hlast'

/-- The entry of a row that lands. -/
theorem Lands.inPlace (hlands : Lands numbers fingerprint answers stored l.asks rows r)
    (h : reconcileAtBoot numbers fingerprint repr answers now rows stored l = some b) (hserved : answers.served r = some s) :
    alreadyPlaced numbers fingerprint (b.store (r.key b.ledger)) r.index r.version = some true ∧
      (Due numbers fingerprint answers stored r (r.key b.ledger) s → ∃ data, b.store (r.key b.ledger) = some data ∧
        data.member "type" = some (.str r.type) ∧ data.member "value" = some (.str s.text)) := by
  rw [lastKey_eq h r]
  have hsome : (answers.served r).isSome := by rw [hserved]; rfl
  obtain ⟨hlast, hstore⟩ | ⟨q, s', name, hlast, hserved', hstore⟩ :=
    reconcileRows_store h (r.lastKey numbers fingerprint answers stored l.asks rows)
  · obtain ⟨placed, hfound, hplaced⟩ := hlands.held hlast
    rw [hplaced hsome] at hfound
    refine ⟨by rw [hstore]; exact hfound, fun hdue => ?_⟩
    rw [hdue.missing] at hfound
    cases hfound
  · obtain ⟨hindex, hversion, htype⟩ := hlands.same (q, s') hlast hsome
    rw [hstore, alreadyPlaced_entry_iff hserved']
    refine ⟨⟨hversion, hindex⟩, fun hdue => ?_⟩
    have htype := htype (by rw [due_eq_some.mpr hdue]; rfl)
    rw [Answers.served_congr htype hindex, hserved] at hserved'
    obtain rfl := Option.some.inj hserved'
    refine ⟨_, rfl, ?_, rfl⟩
    rw [← htype]
    rfl

/-- Nothing stops a second run over rows that land. -/
theorem Lands.defined (hlands : Lands numbers fingerprint answers stored l.asks rows r)
    (h : reconcileAtBoot numbers fingerprint repr answers now rows stored l = some b) :
    alreadyPlaced numbers fingerprint (b.store (r.key b.ledger)) r.index r.version ≠ none := by
  rw [lastKey_eq h r]
  obtain ⟨hlast, hstore⟩ | ⟨q, s, name, hlast, hserved, hstore⟩ :=
    reconcileRows_store h (r.lastKey numbers fingerprint answers stored l.asks rows)
  · obtain ⟨placed, hfound, -⟩ := hlands.held hlast
    rw [hstore, hfound]
    nofun
  · rw [hstore, alreadyPlaced_entry hserved]
    nofun

/-- A successful run reconciles if and only if every row lands. -/
theorem reconcile_idempotent_iff (h : reconcileAtBoot numbers fingerprint repr answers now rows stored l = some b) :
    Reconciled numbers fingerprint repr answers later stored rows b ↔
      ∀ r ∈ rows, Lands numbers fingerprint answers stored l.asks rows r := by
  constructor
  · exact fun hreconciled r hr => hreconciled.lands h hr
  · intro hlands
    constructor
    · intro r hr s hserved
      obtain ⟨hplaced, hvalue⟩ := (hlands r hr).inPlace h hserved
      exact ⟨⟨r.version, hplaced, .inl rfl⟩, hvalue⟩
    · apply reconcileRows_idle
      intro r hr
      refine ⟨(hlands r hr).defined h, fun s hdue => ?_⟩
      have hplaced := ((hlands r hr).inPlace h hdue.served).1
      rw [hdue.missing] at hplaced
      cases hplaced

/-- Integers equal integers only. -/
def plainNumbers : Numbers where
  equals
    | .int m, n => m = n
    | _, _ => false
  equals_int _ _ := rfl

/-- The server hands out version 1 of anything. -/
def firstVersions : Answers := fun _ _ => some (1, [104, 105])

def boot (rows : List CredentialRow) (store : Stored) (l : RequestLedger) : Option Boot :=
  reconcileAtBoot plainNumbers (fun _ => "00000000") (fun s => s) firstVersions 0 rows store l

/-- A plan token of each of two indexes. -/
def twoTokens : List CredentialRow := [⟨typeClaudeToken, 0, 1, ""⟩, ⟨typeClaudeToken, 1, 1, ""⟩]

/-- Two custom credentials, the second of which has its name from a settled request. -/
def twoCustom : List CredentialRow := [⟨typeCustomized, 1, 1, "my label"⟩, ⟨typeCustomized, 0, 1, "my label"⟩]

/-- A settled request for FOO, and open requests for FOO and BAR. -/
def ambiguousRequests : RequestLedger :=
  ((((RequestLedger.load .null).issue "1" typeCustomized "" "FOO" 0).settle "1" true (some 0) (some 1) "").issue "2"
    typeCustomized "" "FOO" 0).issue "3" typeCustomized "" "BAR" 0

/-- Two tokens take each other's place at every boot, and a custom credential is placed again where the other has
settled one of two requests that it could have come from. -/
theorem second_boot_places :
    ((boot twoTokens (fun _ => none) (RequestLedger.load .null)).bind fun b => boot twoTokens b.store b.ledger).map
      (·.placed) = some 1 ∧
    ((boot twoCustom (fun _ => none) ambiguousRequests).bind fun b => boot twoCustom b.store b.ledger).map
      (·.placed) = some 1 := by
  decide +kernel

/-- A plan token, a custom credential that a settled request names, and one that takes the last name asked for. -/
def namedRows : List CredentialRow :=
  [⟨typeClaudeToken, 0, 1, ""⟩, ⟨typeCustomized, 0, 1, "my label"⟩, ⟨typeCustomized, 1, 1, "my label"⟩]

theorem reconcile_idempotent_iff_named : ∃ b, boot namedRows (fun _ => none) ambiguousRequests = some b ∧
    Reconciled plainNumbers (fun _ => "00000000") (fun s => s) firstVersions 0 (fun _ => none) namedRows b := by
  obtain ⟨b, hb⟩ := Option.isSome_iff_exists.mp (show (boot namedRows (fun _ => none) ambiguousRequests).isSome from
    by decide +kernel)
  refine ⟨b, hb, (reconcile_idempotent_iff hb).mpr fun r hr => ?_⟩
  simp only [namedRows, List.mem_cons, List.not_mem_nil, or_false] at hr
  obtain rfl | rfl | rfl := hr
  · exact ⟨by decide +kernel, by decide +kernel⟩
  · exact ⟨by decide +kernel, by decide +kernel⟩
  · exact ⟨by decide +kernel, by decide +kernel⟩

end Idempotence
end PuffoAgent.Credentials
