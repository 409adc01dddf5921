import PuffoAgent.Inbox.Walk
import PuffoAgent.Inbox.Withholding

/-! The thread root of an outbound send: the walk up the local thread chain, its scope checks and
its limit. -/
namespace PuffoAgent.Sending
open Relational Store Text Projection Inbox

section Reading

/-- The reads of a data client. A lookup of one message or a read of a thread may fail. -/
structure DataClient where
  tables : Tables
  lookupFails : String → Bool
  threadFails : String → Bool

inductive Lookup where
  | found (m : MessageRow)
  | missing
  | failed

/-- `get_message_by_envelope`, which withholds gated rows. -/
def DataClient.lookup (dc : DataClient) (id : String) : Lookup :=
  if dc.lookupFails id then .failed
  else match getVisibleMessageByEnvelope dc.tables id with
    | some m => .found m.row
    | none => .missing

/-- `get_thread_messages(root_id, limit=1)`. -/
def DataClient.thread (dc : DataClient) (rootId : String) : Option (List StoredMessage) :=
  if dc.threadFails rootId then none
  else (getThreadMessages dc.tables rootId { limit := 1 }).toOption

/-- `_outgoing_root_claimant`. -/
def DataClient.claimant (dc : DataClient) (rootId : String) : Option MessageRow :=
  (((dc.thread rootId).getD []).find? fun m => m.row.envelopeId ≠ rootId).map (·.row)

/-- The row that a lookup answers with. -/
def DataClient.row (dc : DataClient) (id : String) : Option MessageRow :=
  match dc.lookup id with
  | .found m => some m
  | _ => none

inductive Read where
  | lookup (id : String)
  | thread (id : String)
  deriving DecidableEq, Repr

end Reading
section Scope

/-- Where a send goes. -/
structure Destination where
  selfSlug : String
  channelId : Option String
  spaceId : Option String
  dmPeer : Option String

/-- The other party of a direct message. -/
def Destination.peer (d : Destination) (m : MessageRow) : Option String :=
  if m.senderSlug = d.selfSlug then m.recipientSlug else some m.senderSlug

/-- What `_validate_outgoing_root_scope` lets pass. -/
def Destination.admits (d : Destination) (m : MessageRow) : Bool :=
  match d.dmPeer with
  | some peer => m.envelopeKind = "dm" ∧ d.peer m = some peer
  | none => m.channelId = d.channelId ∧
      (d.spaceId.getD "" = "" ∨ m.spaceId.getD "" = "" ∨ m.spaceId = d.spaceId)

variable (repr : Option String → String)

/-- The message of the `RuntimeError` for another conversation. -/
def scopeError (d : Destination) (m : MessageRow) (rootId : String) : String :=
  match d.dmPeer with
  | some peer => "thread_root_id " ++ rootId ++ " does not belong to this DM with @" ++ peer ++
      "; pass a root from this conversation or omit root_id to start a new thread."
  | none => "thread_root_id " ++ rootId ++ " belongs to channel " ++ repr m.channelId ++ ", not this send's channel " ++
      repr d.channelId ++ "; pass a root from the current channel or omit root_id to start a new thread."

/-- `_validate_outgoing_root_scope`. -/
def validateScope (d : Destination) (m : MessageRow) (rootId : String) : Except String Unit :=
  if d.admits m then .ok () else .error (scopeError repr d m rootId)

/-- A row that the daemon made up: its sender is `system`, or it is its own thread root. -/
def isDaemonLocal (m : MessageRow) (current : String) : Bool := m.senderSlug = "system" ∨ m.threadRootId = some current

end Scope
section Notes
variable (rootId : String)

def failedNote : String :=
  "\nnote: thread_root_id " ++ rootId ++ " could not be verified (local cache lookup failed); sent as top-level."

def missingNote : String :=
  "\nnote: thread_root_id " ++ rootId ++ " not in local cache; sent as top-level. Agents can only reply in threads " ++
    "whose root is in their own local message store."

def systemNote : String :=
  "\nnote: thread_root_id " ++ rootId ++ " refers to a local system message that doesn't exist on the server; sent " ++
    "as a new top-level message."

def correctedNote (current : String) : String :=
  "\nnote: root_id " ++ rootId ++ " was a reply, not a root — auto-corrected to " ++ current ++
    ". Pass the metadata block's thread_root_id, not post_id."

def cycleReason : String := "cycle detected in thread chain"

def depthReason : String := "chain deeper than 8 levels"

def corruptNote (reason : String) : String :=
  "\nnote: could not resolve root_id " ++ rootId ++ " to a true thread root (" ++ reason ++ "); sent as-is. The relay's " ++
    "thread chain looks corrupt — please flag this to the operator and pass the metadata block's thread_root_id directly."

end Notes
section Resolving

/-- `_RESOLVE_ROOT_MAX_DEPTH`. -/
def resolveRootMaxDepth : Nat := 8

/-- What a resolution has read and what comes of it: a root, or none, with a note; or an error. -/
structure Resolution where
  reads : List Read
  result : Except String (Option String × String)

def Resolution.after (read : Read) (r : Resolution) : Resolution := { r with reads := read :: r.reads }

variable (repr : Option String → String) (dc : DataClient) (d : Destination) (rootId : String)

/-- `_resolve_missing_outgoing_root`. -/
def resolveMissingOutgoingRoot (current note : String) : Resolution :=
  .after (.thread current) <| match dc.claimant current with
    | none => ⟨[], .ok (none, note)⟩
    | some claimant => match validateScope repr d claimant rootId with
      | .error e => ⟨[], .error e⟩
      | .ok () => ⟨[], .ok (some current, "")⟩

/-- The loop of `_resolve_outgoing_root`. -/
def walkRoot : Nat → String → List String → Bool → Resolution
  | 0, _, _, _ => ⟨[], .ok (some rootId, corruptNote rootId depthReason)⟩
  | n + 1, current, seen, walked =>
    if current ∈ seen then ⟨[], .ok (some rootId, corruptNote rootId cycleReason)⟩
    else .after (.lookup current) <| match dc.lookup current with
      | .failed => resolveMissingOutgoingRoot repr dc d rootId current (failedNote rootId)
      | .missing => resolveMissingOutgoingRoot repr dc d rootId current (missingNote rootId)
      | .found m => match validateScope repr d m rootId with
        | .error e => ⟨[], .error e⟩
        | .ok () =>
          if isDaemonLocal m current then ⟨[], .ok (none, systemNote rootId)⟩
          else match m.threadRootId with
            | none => ⟨[], .ok (some current, if walked then correctedNote rootId current else "")⟩
            | some parent => walkRoot n parent (current :: seen) true

/-- `_resolve_outgoing_root`. -/
def resolveOutgoingRoot : Resolution :=
  if strip rootId = "" then ⟨[], .ok (none, "")⟩
  else walkRoot repr dc d rootId resolveRootMaxDepth rootId [] false

end Resolving
section Chains
variable {row : String → Option MessageRow} {seen : List String}

/-- The stored messages up a thread chain, at most `n` of them. -/
def chainFrom (row : String → Option MessageRow) : Nat → String → List MessageRow
  | 0, _ => []
  | n + 1, id => match row id with
    | none => []
    | some m => m :: m.threadRootId.elim [] (chainFrom row n)

/-- Every id of a set that the chain does not leave has a message with a property. -/
theorem chainFrom_closed (p : MessageRow → Prop)
    (h : ∀ id ∈ seen, ∃ m parent, row id = some m ∧ p m ∧ m.threadRootId = some parent ∧ parent ∈ seen)
    (n : Nat) {id : String} (hid : id ∈ seen) : ∀ m ∈ chainFrom row n id, p m := by
  induction n generalizing id with
  | zero => exact fun m hm => absurd hm List.not_mem_nil
  | succ n ih =>
    obtain ⟨m, parent, hrow, hp, hparent, hmem⟩ := h id hid
    simp only [chainFrom, hrow, hparent, Option.elim_some, List.forall_mem_cons]
    exact ⟨hp, ih hmem⟩

end Chains
section Resolved
variable {repr : Option String → String} {dc : DataClient} {d : Destination} {rootId root note current : String}
  {seen : List String} {walked : Bool} {n : Nat} {m : MessageRow}

theorem row_of_found (h : dc.lookup current = .found m) : dc.row current = some m := by
  rw [DataClient.row, h]

theorem row_of_unread (h : ∀ m, dc.lookup current ≠ .found m) : dc.row current = none := by
  rw [DataClient.row]
  split
  · next m hm => exact absurd hm (h m)
  · rfl

theorem validateScope_ok_iff : validateScope repr d m rootId = .ok () ↔ d.admits m = true := by
  rw [validateScope]
  split_ifs with h
  · exact iff_of_true rfl h
  · exact iff_of_false nofun h

/-- A claimant is a stored reply that claims the root. -/
theorem claimant_claims (h : dc.claimant current = some m) :
    m ∈ dc.tables.messages.rows ∧ m.threadRootId = some current := by
  obtain ⟨stored, hfind, rfl⟩ := Option.map_eq_some_iff.mp h
  have hne : stored.row.envelopeId ≠ current := by simpa using List.find?_some hfind
  have hmem := List.mem_of_find?_eq_some hfind
  rw [DataClient.thread] at hmem
  split_ifs at hmem
  · exact absurd hmem List.not_mem_nil
  · rw [getThreadMessages] at hmem
    split_ifs at hmem
    · exact absurd hmem List.not_mem_nil
    · exact absurd hmem List.not_mem_nil
    · obtain ⟨m, hm, rfl⟩ := List.mem_map.mp hmem
      obtain ⟨hrows, hselected⟩ := List.mem_filter.mp (mem_page hm)
      have hthread : m.envelopeId = current ∨ m.threadRootId = some current :=
        of_decide_eq_true (of_decide_eq_true hselected).1
      exact ⟨hrows, hthread.resolve_left hne⟩

/-- A message that the walk went past. -/
structure Passed (d : Destination) (id : String) (m : MessageRow) : Prop where
  inScope : d.admits m = true
  notLocal : isDaemonLocal m id = false

/-- What a root that is returned has been checked for. -/
structure Checked (dc : DataClient) (d : Destination) (rootId root note : String) : Prop where
  /-- A root that could not be read is claimed by a reply in the destination. -/
  claimed : dc.row root = none → ∃ m ∈ dc.tables.messages.rows, m.threadRootId = some root ∧ d.admits m = true
  /-- A root that was read has no thread root of its own, unless the chain is reported corrupt. -/
  resolved : note ≠ corruptNote rootId cycleReason → note ≠ corruptNote rootId depthReason →
    ∀ m, dc.row root = some m → m.threadRootId = none
  notLocal : ∀ m, dc.row root = some m → isDaemonLocal m root = false

/-- The walk has gone past the messages of `seen`, each of which leads to another or to where it is. -/
structure Climbing (dc : DataClient) (d : Destination) (rootId current : String) (seen : List String) : Prop where
  start : rootId = current ∨ rootId ∈ seen
  passed : ∀ id ∈ seen, ∃ m parent, dc.row id = some m ∧ Passed d id m ∧ m.threadRootId = some parent ∧
    (parent ∈ seen ∨ parent = current)

/-- The walk goes up from a message that it passes. -/
theorem Climbing.up (h : Climbing dc d rootId current seen) {parent : String} (hrow : dc.row current = some m)
    (hm : Passed d current m) (hparent : m.threadRootId = some parent) :
    Climbing dc d rootId parent (current :: seen) where
  start := .inr (List.mem_cons.mpr h.start)
  passed := by
    intro id hid
    obtain rfl | hid := List.mem_cons.mp hid
    · exact ⟨m, parent, hrow, hm, hparent, .inr rfl⟩
    · obtain ⟨m', parent', hrow', hm', hparent', hnext⟩ := h.passed id hid
      exact ⟨m', parent', hrow', hm', hparent', .inl (List.mem_cons.mpr hnext.symm)⟩

/-- Back at a message that it has seen, the walk has passed the whole chain. -/
theorem Climbing.cycle (h : Climbing dc d rootId current seen) (hmem : current ∈ seen) (n : Nat) :
    ∀ m ∈ chainFrom dc.row n current, d.admits m = true := by
  refine chainFrom_closed (fun m => d.admits m = true) (fun id hid => ?_) n hmem
  obtain ⟨m, parent, hrow, hm, hparent, hnext⟩ := h.passed id hid
  refine ⟨m, parent, hrow, hm.inScope, hparent, ?_⟩
  obtain hnext | rfl := hnext
  · exact hnext
  · exact hmem

/-- The root that the send was given is checked once the walk has left it. -/
theorem Climbing.corrupt (h : Climbing dc d rootId current seen) (hmem : rootId ∈ seen)
    (hnote : note = corruptNote rootId cycleReason ∨ note = corruptNote rootId depthReason) :
    Checked dc d rootId rootId note := by
  obtain ⟨m, parent, hrow, hm, -, -⟩ := h.passed rootId hmem
  constructor
  · intro hnone
    rw [hrow] at hnone
    cases hnone
  · intro hcycle hdepth
    exact (hnote.elim hcycle hdepth).elim
  · intro m' hm'
    obtain rfl : m = m' := Option.some.inj (hrow.symm.trans hm')
    exact hm.notLocal

theorem resolveMissing_checked {missing : String} (hrow : dc.row current = none)
    (h : (resolveMissingOutgoingRoot repr dc d rootId current missing).result = .ok (some root, note)) :
    Checked dc d rootId root note := by
  rw [resolveMissingOutgoingRoot, Resolution.after] at h
  split at h
  · cases h
  · next claimant hclaimant =>
    split at h
    · cases h
    · next hscope =>
      cases h
      obtain ⟨hmem, hroot⟩ := claimant_claims hclaimant
      constructor
      · exact fun _ => ⟨claimant, hmem, hroot, validateScope_ok_iff.mp hscope⟩
      · intro _ _ m hm
        rw [hrow] at hm
        cases hm
      · intro m hm
        rw [hrow] at hm
        cases hm

theorem resolveMissing_reads (missing : String) :
    (resolveMissingOutgoingRoot repr dc d rootId current missing).reads.length = 1 := by
  rw [resolveMissingOutgoingRoot, Resolution.after]
  split
  · rfl
  · split <;> rfl

/-- Each round of the walk reads one message, and the last may read a thread. -/
theorem walkRoot_reads (n : Nat) (current : String) (seen : List String) (walked : Bool) :
    (walkRoot repr dc d rootId n current seen walked).reads.length ≤ n + 1 := by
  induction n generalizing current seen walked with
  | zero => exact Nat.zero_le _
  | succ n ih =>
    rw [walkRoot]
    by_cases hseen : current ∈ seen
    · rw [if_pos hseen]
      exact Nat.zero_le _
    · rw [if_neg hseen, Resolution.after, List.length_cons]
      apply Nat.succ_le_succ
      split
      · rw [resolveMissing_reads]
        omega
      · rw [resolveMissing_reads]
        omega
      · split
        · exact Nat.zero_le _
        · next m _ _ _ =>
          by_cases hlocal : isDaemonLocal m current = true
          · rw [if_pos hlocal]
            exact Nat.zero_le _
          · rw [if_neg hlocal]
            split
            · exact Nat.zero_le _
            · exact ih _ _ _

/-- The root of a walk is checked, and the chain above it is in the destination. -/
theorem walkRoot_checked (hclimb : Climbing dc d rootId current seen) (hstart : n = 0 → rootId ∈ seen)
    (h : (walkRoot repr dc d rootId n current seen walked).result = .ok (some root, note)) :
    (∀ m ∈ chainFrom dc.row n current, d.admits m = true) ∧ Checked dc d rootId root note := by
  induction n generalizing current seen walked with
  | zero =>
    cases h
    exact ⟨fun m hm => absurd hm List.not_mem_nil, hclimb.corrupt (hstart rfl) (.inr rfl)⟩
  | succ n ih =>
    rw [walkRoot] at h
    by_cases hseen : current ∈ seen
    · rw [if_pos hseen] at h
      cases h
      refine ⟨hclimb.cycle hseen _, hclimb.corrupt ?_ (.inl rfl)⟩
      obtain rfl | hroot := hclimb.start
      · exact hseen
      · exact hroot
    · rw [if_neg hseen, Resolution.after] at h
      have hunread (hrow : dc.row current = none) : ∀ m ∈ chainFrom dc.row (n + 1) current, d.admits m = true := by
        rw [chainFrom, hrow]
        exact fun m hm => absurd hm List.not_mem_nil
      split at h
      · next hfailed =>
        have hrow : dc.row current = none := row_of_unread (by simp [hfailed])
        exact ⟨hunread hrow, resolveMissing_checked hrow h⟩
      · next hmissing =>
        have hrow : dc.row current = none := row_of_unread (by simp [hmissing])
        exact ⟨hunread hrow, resolveMissing_checked hrow h⟩
      · next m hfound =>
        have hrow := row_of_found hfound
        split at h
        · cases h
        · next hscope =>
          have hadmits := validateScope_ok_iff.mp hscope
          by_cases hlocal : isDaemonLocal m current = true
          · rw [if_pos hlocal] at h
            cases h
          · have hpassed : Passed d current m := ⟨hadmits, Bool.eq_false_iff.mpr hlocal⟩
            rw [if_neg hlocal] at h
            rw [chainFrom, hrow]
            split at h
            · next hroot =>
              cases h
              simp only [hroot, Option.elim_none, List.forall_mem_singleton]
              refine ⟨hadmits, ?_, ?_, ?_⟩
              · intro hnone
                rw [hrow] at hnone
                cases hnone
              · intro _ _ m' hm'
                obtain rfl : m = m' := Option.some.inj (hrow.symm.trans hm')
                exact hroot
              · intro m' hm'
                obtain rfl : m = m' := Option.some.inj (hrow.symm.trans hm')
                exact hpassed.notLocal
            · next parent hparent =>
              have hup := hclimb.up hrow hpassed hparent
              obtain ⟨hchain, hchecked⟩ := ih hup (fun _ => List.mem_cons.mpr hclimb.start.symm.symm) h
              simp only [hparent, Option.elim_some, List.forall_mem_cons]
              exact ⟨⟨hadmits, hchain⟩, hchecked⟩

/-- A resolution reads at most eight messages and one thread. A root that it returns is checked, and every message
that the lookup answers up the chain of the given root is in the destination. -/
theorem resolved_root_in_scope (repr : Option String → String) (dc : DataClient) (d : Destination) (rootId : String) :
    (resolveOutgoingRoot repr dc d rootId).reads.length ≤ resolveRootMaxDepth + 1 ∧
    ∀ root note, (resolveOutgoingRoot repr dc d rootId).result = .ok (some root, note) →
      (∀ m ∈ chainFrom dc.row resolveRootMaxDepth rootId, d.admits m = true) ∧ Checked dc d rootId root note := by
  rw [resolveOutgoingRoot]
  split_ifs with hblank
  · exact ⟨Nat.zero_le _, fun root note h => by cases h⟩
  · refine ⟨walkRoot_reads _ _ _ _, fun root note h => ?_⟩
    have hclimb : Climbing dc d rootId rootId [] := ⟨.inl rfl, fun id hid => absurd hid List.not_mem_nil⟩
    exact walkRoot_checked hclimb nofun h

end Resolved
section Withheld

/-- A reply of alice that waits for her approval, and a later one to it that is readable. -/
def withheldThread : List Write :=
  [.store (.storeReceipt { directMessage "g" with threadRootId := "x" } 1 .foreignDmGated "" 0 0),
    .store (.storeReceipt { directMessage "r" with threadRootId := "g" } 2 .eligible "" 0 0)]

def withheldClient : DataClient := ⟨after bareHost withheldThread, fun _ => false, fun _ => false⟩

def toAlice : Destination := ⟨"bot", none, none, some "alice"⟩

/-- A reply that is stored but withheld is returned as a root where another reply claims it. -/
theorem withheld_reply_resolved :
    (resolveOutgoingRoot (fun _ => "None") withheldClient toAlice "g").result = .ok (some "g", "") ∧
      (withheldClient.tables.messages.get? "g").any (·.threadRootId = some "x") = true := by
  refine ⟨?_, by decide +kernel⟩
  obtain ⟨a, ha, rfl⟩ : ∃ a, (resolveOutgoingRoot (fun _ => "None") withheldClient toAlice "g").result = .ok a ∧
      a = (some "g", "") := exists_ok (by decide +kernel)
  exact ha

end Withheld
end PuffoAgent.Sending
