import PuffoAgent.Store.Schema
import Mathlib.Data.Prod.Lex
import Mathlib.Data.List.Sort
import Mathlib.Data.String.Basic

/-! Inbox notices: the pending queue, the singleton notice row and the record of
which pending rows the accepting provider session has been told about. -/
namespace PuffoAgent.Store
open Relational Stmt Sql

/-- `MessageStore.NOTICE_WINDOW_MS`. -/
def noticeWindowMs : Int := 3000

/-- The `WHERE` clause of `_get_pending_unlocked`. -/
def MessageRow.isListed (m : MessageRow) : Bool :=
  m.isPending ∧
    ((m.receiptDisposition = some .eligible ∧ m.serverSeq.isSome) ∨
     (m.receiptDisposition = some .localRuntime ∧ m.serverSeq.isNone ∧ m.localOrdinal.isSome))

/-- `_inbox_order`, compared lexicographically. -/
def inboxOrder (m : MessageRow) : Int ×ₗ ℕ ×ₗ ℕ ×ₗ String :=
  toLex (m.serverSeq.getD (m.afterServerSeq.getD 0),
    toLex (if m.serverSeq.isSome then 0 else 1, toLex (m.localOrdinal.getD 0, m.envelopeId)))

def getPending (s : Tables) : List MessageRow :=
  (s.messages.select (·.isListed)).insertionSort (fun a b => inboxOrder a ≤ inboxOrder b)

/-- The envelope ids of the PENDING rows. -/
def Tables.pendingIds (s : Tables) : Finset String := s.messages.keysWhere (·.isPending)

/-- `pending_count` as `_refresh_notice_state` counts it. -/
def pendingCount (s : Tables) : Nat := s.countMessages (·.isPending)

def refreshedGeneration (s : Tables) : Nat :=
  s.noticeState.generation + (if pendingCount s = s.noticeState.pendingCount then 0 else 1)

def refreshedDeadline (now : Int) (activatedAt : Option Int) (s : Tables) : Option Int :=
  if pendingCount s = 0 then none
  else if s.noticeState.pendingCount = 0 then some (activatedAt.getD now + noticeWindowMs)
  else s.noticeState.firstPendingDeadlineMs

/-- The contributions that both deletions of `_refresh_notice_state` leave. -/
def refreshedContributions (s : Tables) :
    Table NoticeContributionRow String NoticeContributionRow.envelopeId :=
  (if pendingCount s = 0 then .empty else s.noticeContributions).delete (fun c =>
    c.envelopeId ∉ (s.messages.select (·.isPending)).map (·.envelopeId))

/-- Contributions to one provider session. -/
def contributedTo (session : String)
    (contributions : Table NoticeContributionRow String NoticeContributionRow.envelopeId) : Nat :=
  (contributions.select (·.providerSessionId = session)).length

def refreshedDelivered (s : Tables) : Nat :=
  match s.noticeState.lastDeliveredProviderSessionId.filter (· ≠ "") with
  | some session =>
    if 0 < pendingCount s ∧ contributedTo session (refreshedContributions s) = pendingCount s
    then refreshedGeneration s else s.noticeState.lastDeliveredGeneration
  | none => s.noticeState.lastDeliveredGeneration

/-- `_refresh_notice_state`, inside the caller's transaction. -/
def refreshNoticeState (now : Int) (activatedAt : Option Int) (s : Tables) : Tables :=
  { s with
    noticeContributions := refreshedContributions s
    noticeState := { s.noticeState with
      generation := refreshedGeneration s
      pendingCount := pendingCount s
      firstPendingDeadlineMs := refreshedDeadline now activatedAt s
      lastDeliveredGeneration := refreshedDelivered s } }

/-- The contributions once the pending ids have been accepted by a session. -/
def contributionsAfter (s : Tables) (session : String) (pendingIds : List String) :
    Table NoticeContributionRow String NoticeContributionRow.envelopeId :=
  pendingIds.foldl (fun t e => t.insertOrIgnore ⟨e, session⟩)
    (if s.noticeState.lastDeliveredProviderSessionId = some session
      then s.noticeContributions else .empty)

/-- The writes of `_mark_notice_delivered_unlocked`. The ids are inserted in table
order: the source sorts them, which no reader of the table observes. -/
def recordNotice (s : Tables) (generation : Nat) (session : String) (pendingIds : List String) :
    Tables :=
  { s with
    noticeContributions := contributionsAfter s session pendingIds
    noticeState := { s.noticeState with
      lastDeliveredGeneration :=
        if contributedTo session (contributionsAfter s session pendingIds) = s.noticeState.pendingCount
        then s.noticeState.generation else min generation (s.noticeState.generation - 1)
      lastDeliveredProviderSessionId := some session } }

/-- The ids among `messageIds` that are still pending. -/
def stillPending (s : Tables) (messageIds : List String) : List String :=
  (s.messages.select (fun m => m.envelopeId ∈ messageIds ∧ m.isPending)).map (·.envelopeId)

/-- Whether some pending id gains a contribution: `total_changes` grew. -/
def addsContribution (s : Tables) (session : String) (pendingIds : List String) : Bool :=
  pendingIds.any fun e => s.noticeState.lastDeliveredProviderSessionId ≠ some session ∨
    s.noticeContributions.get? e = none

/-- `_mark_notice_delivered_unlocked`. -/
def markNoticeDeliveredUnlocked (s : Tables) (generation : Nat) (session : String)
    (messageIds : List String) (turnId : Option String) : Bool × Tables :=
  if messageIds = [] then (false, s)
  else if turnId.any (fun t => ¬ ∃ r ∈ s.turnRuns.rows,
      r.turnId = t ∧ r.state = .inTurn ∧ r.providerSessionId = some session) then (false, s)
  else if generation > s.noticeState.generation ∨ s.noticeState.pendingCount = 0 then (false, s)
  else if stillPending s messageIds = [] then (false, s)
  else (addsContribution s session (stillPending s messageIds),
    recordNotice s generation session (stillPending s messageIds))

def markNoticeDelivered (generation : Int) (providerSessionId : Option String)
    (messageIds : Option (List String)) (turnId : Option String) : StoreM Bool :=
  match providerSessionId with
  | none => return false
  | some session =>
    if generation < 0 ∨ session = "" then return false
    else transaction do
      let ids ← query fun s => messageIds.getD ((getPending s).map (·.envelopeId))
      if ids = [] ∨ ¬ ids.Nodup then return .rollback false
      else do
        let marked ← query fun s => markNoticeDeliveredUnlocked s generation.toNat session
          ids turnId
        exec fun _ => marked.2
        return .commit marked.1

def releaseNoticeDelivery (providerSessionId : Option String)
    (messageIds : Option (List String)) : StoreM Bool :=
  match providerSessionId with
  | none => return false
  | some session =>
    if session = "" then return false
    else transaction do
      let current ← query (·.noticeState.lastDeliveredProviderSessionId)
      if current ≠ some session then return .rollback false
      else if messageIds.any (fun ids => ids = [] ∨ ¬ ids.Nodup) then return .rollback false
      else do
        let deleted ← query fun s => s.noticeContributions.select fun c =>
          c.providerSessionId = session ∧ messageIds.all (fun ids => c.envelopeId ∈ ids)
        exec fun s => { s with noticeContributions := s.noticeContributions.delete fun c =>
          c.providerSessionId = session ∧ messageIds.all (fun ids => c.envelopeId ∈ ids) }
        exec fun s => if deleted = [] then s else { s with noticeState := { s.noticeState with
          lastDeliveredGeneration := s.noticeState.generation - 1 } }
        return .commit (deleted ≠ [])

end PuffoAgent.Store
