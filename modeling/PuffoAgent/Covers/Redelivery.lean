import PuffoAgent.Covers.Completion
import PuffoAgent.Store.Requeue

/-! A row is redelivered at most once while it is stored, and by the normal completion only
when no cover of it was on record as the completion looked. -/
namespace PuffoAgent.Covers
open Relational Sql Store Projection Text Machine

section Completions
variable {s : Tables} {turnId : String} {session : Option String} {now : Int}

theorem completeTurn_does (processed renotice : List String) (turnId : String) (processedAt : Option Int)
    (session : Option String) (now : Int) :
    Does (fun s _ s' => TurnCompletion processed renotice turnId s s')
      (completeTurn processed renotice turnId processedAt session now) := by
  refine (Does.read (does_transaction (E := fun s _ s' => TurnCompletion processed renotice turnId s s')
    ?_ ?_) fun _ => getTurnRun turnId).mono ?_
  · exact fun s _ s' h => (completeTurnBody_ok h).1
  · intro s _ t h
    obtain ⟨u, he⟩ := completeTurnBody_commits h
    cases he
  · rintro s - s' ⟨_, h, -⟩
    exact h

theorem step_markProcessed (ids : List String) (turnId : String) (session : Option String) (now : Int)
    (s : Tables) : Store.step s (.markProcessed ids turnId none session now) = s ∨
      TurnCompletion ids [] turnId s (Store.step s (.markProcessed ids turnId none session now)) := by
  have h : Does (fun s _ s' => TurnCompletion ids [] turnId s s')
      (markProcessed ids turnId none session now) :=
    (exactIds_does ids).bind_of_read fun _ => completeTurn_does ids [] turnId none session now
  rcases h.discard.after s with he | ⟨-, -, -, hc⟩
  · exact .inl he
  · exact .inr hc

theorem step_completeTurnWithRenotice (processed renotice : List String) (turnId : String)
    (session : Option String) (now : Int) (s : Tables) :
    Store.step s (.completeTurnWithRenotice processed renotice turnId session now) = s ∨
      TurnCompletion processed renotice turnId s
        (Store.step s (.completeTurnWithRenotice processed renotice turnId session now)) ∧
      "" ∉ renotice := by
  have hrest : Does (fun s _ s' => TurnCompletion processed renotice turnId s s' ∧ "" ∉ renotice) (do
      Stmt.raiseIf (renotice = []) (.valueError "renotice_ids must be non-empty; use mark_processed")
      exactIds renotice
      Stmt.raiseIf (∃ e ∈ processed, e ∈ renotice) (conflict "processed and renotice ids overlap")
      completeTurn processed renotice turnId none session now) := by
    refine Does.raiseIf fun _ => ?_
    rw [exactIds, bind_assoc]
    refine Does.raiseIf fun named => Does.raiseIf fun _ => Does.raiseIf fun _ => ?_
    exact (completeTurn_does processed renotice turnId none session now).mono
      fun _ _ _ h => ⟨h, fun he => named (.inr he)⟩
  have h : Does (fun s _ s' => TurnCompletion processed renotice turnId s s' ∧ "" ∉ renotice)
      (completeTurnWithRenotice processed renotice turnId session now) := by
    rw [completeTurnWithRenotice]
    split_ifs
    · exact hrest
    · exact (exactIds_does processed).bind_of_read fun _ => hrest
  rcases h.discard.after s with he | ⟨-, -, -, hc⟩
  · exact .inl he
  · exact .inr hc

/-- The fallback sends back the rows that were never redelivered, whoever sent or covered them. -/
theorem step_completeTurnRenoticeUnrenotified (turnId : String) (session : Option String) (now : Int)
    (s : Tables) :
    Store.step s (.completeTurnRenoticeUnrenotified turnId session now) = s ∨
      ∃ processed renotice, TurnCompletion processed renotice turnId s
        (Store.step s (.completeTurnRenoticeUnrenotified turnId session now)) ∧
      ∀ k ∈ renotice, ∃ m, s.messages.get? k = some m ∧ m.renotified = false := by
  set unrenotified := s.messages.select fun m => m.envelopeId ∈ turnMessageIds s turnId ∧ ¬ m.renotified
    with hu
  set renotice := (turnMessageIds s turnId).filter (· ∈ unrenotified.map (·.envelopeId)) with hr
  set processed := (turnMessageIds s turnId).filter (· ∉ unrenotified.map (·.envelopeId))
  have h := ((completeTurn_does processed renotice turnId none session now).map
    fun _ => renotice).discard.after s
  rcases h with he | ⟨-, -, _, _, hc, -⟩
  · exact .inl he
  · refine .inr ⟨processed, renotice, hc, fun k hk => ?_⟩
    obtain ⟨m, hm, rfl⟩ := List.mem_map.mp (of_decide_eq_true (List.mem_filter.mp hk).2)
    obtain ⟨hmem, hp⟩ := List.mem_filter.mp hm
    exact ⟨m, Table.get?_of_mem hmem, by simpa using (of_decide_eq_true hp).2⟩

end Completions

/-- A finalization of the turn may send the row back: while the turn is active the row is
its member and was never redelivered. -/
def Unspent (s : Tables) (turnId k : String) : Prop :=
  (s.turnRuns.get? turnId).isSome ∧ (s.isActive turnId →
    s.isMember turnId k ∧ ∃ m, s.messages.get? k = some m ∧ m.renotified = false)

section Rows
variable {licence : Licence} {s s' : Tables} {t k : String}

theorem Unspent.later (hu : Unspent s t k) (hs : Ownership s) (h : Ledger licence s s') :
    Unspent s' t k := by
  obtain ⟨known, was⟩ := h.run_kept hu.1
  refine ⟨known, fun active => ?_⟩
  obtain ⟨member, m, hg, hr⟩ := hu.2 (was active)
  have member' := h.isMember member
  obtain ⟨m', hg', hin⟩ := ((h.ownership hs).holds t k).mpr ⟨active, member'⟩
  rcases h.moved hg with ⟨gone, -⟩ | ⟨m₁, hg₁, moved⟩
  · rw [gone] at hg'
    cases hg'
  · obtain rfl := Option.some.inj (hg₁.symm.trans hg')
    exact ⟨member', m₁, hg₁, moved.unspent hin hr⟩

end Rows

section Reads
variable {host : Host} {aliases : List String} {s : Tables} {turnId : String} {session : Option String}

theorem getInTurnMessages_spec {m : StoredMessage} (h : m ∈ getInTurnMessages turnId session s) :
    s.isActive turnId ∧ s.isMember turnId m.row.envelopeId ∧
      s.messages.get? m.row.envelopeId = some m.row := by
  unfold getInTurnMessages at h
  split at h
  · rename_i session run hrun
    split_ifs at h with hc
    · cases h
    · obtain ⟨row, hrow, rfl⟩ := List.mem_map.mp h
      obtain ⟨hids, -⟩ := List.mem_filter.mp hrow
      obtain ⟨k, hk, hg⟩ := List.mem_filterMap.mp hids
      have hkey : row.envelopeId = k := Table.get?_key hg
      rw [not_or, not_not, not_not] at hc
      refine ⟨by rw [Tables.isActive, hrun, Option.map_some, hc.2], ?_, ?_⟩
      · rw [← mem_turnMessageIds]
        exact hkey ▸ hk
      · exact hkey ▸ hg
  · cases h

theorem candidateIds_cons {m : StoredMessage} {rows : List StoredMessage} {ids : List String}
    (h : candidateIds host aliases (m :: rows) = .ok ids) :
    ∃ rest, candidateIds host aliases rows = .ok rest ∧
      (ids = rest ∨ m.row.renotified = false ∧ ids = m.row.envelopeId :: rest) := by
  rw [candidateIds] at h
  split_ifs at h with hr
  · exact ⟨ids, h, .inl rfl⟩
  · cases ht : senderType host aliases m with
    | error e => simp [ht, bind, Except.bind] at h
    | ok type =>
      cases hrest : candidateIds host aliases rows with
      | error e => simp [ht, hrest, bind, Except.bind] at h
      | ok rest =>
        simp only [ht, hrest, bind, Except.bind, pure, Except.pure, Except.ok.injEq] at h
        refine ⟨rest, rfl, ?_⟩
        split_ifs at h
        · exact .inl h.symm
        · exact .inr ⟨by simpa using hr, h.symm⟩

theorem candidateIds_spec {rows : List StoredMessage} {ids : List String}
    (h : candidateIds host aliases rows = .ok ids) {k : String} (hk : k ∈ ids) :
    ∃ m ∈ rows, m.row.envelopeId = k ∧ m.row.renotified = false := by
  induction rows generalizing ids with
  | nil =>
    cases h
    cases hk
  | cons m rows ih =>
    obtain ⟨rest, hrest, hids⟩ := candidateIds_cons h
    have hk : k ∈ rest ∨ m.row.renotified = false ∧ m.row.envelopeId = k := by grind
    rcases hk with hk | ⟨hr, rfl⟩
    · obtain ⟨m', hm', hr⟩ := ih hrest hk
      exact ⟨m', List.mem_cons_of_mem m hm', hr⟩
    · exact ⟨m, List.mem_cons_self, rfl, hr⟩

theorem getInTurnMessages_nodup (turnId : String) (session : Option String) (s : Tables) :
    ((getInTurnMessages turnId session s).map (·.row.envelopeId)).Nodup := by
  have keys : (((turnMessageIds s turnId).filterMap s.messages.get?).map (·.envelopeId)).Sublist
      (turnMessageIds s turnId) := by
    induction turnMessageIds s turnId with
    | nil => exact .slnil
    | cons k ids ih =>
      cases hg : s.messages.get? k with
      | none => simpa [hg] using ih.cons k
      | some m =>
        obtain rfl : m.envelopeId = k := Table.get?_key hg
        simpa [hg] using ih.cons_cons m.envelopeId
  unfold getInTurnMessages
  split
  · split_ifs
    · exact List.nodup_nil
    · rw [List.map_map]
      exact (turnMessageIds_nodup s turnId).sublist ((List.filter_sublist.map _).trans keys)
  · exact List.nodup_nil

theorem candidateIds_sublist {rows : List StoredMessage} {ids : List String}
    (h : candidateIds host aliases rows = .ok ids) : ids.Sublist (rows.map (·.row.envelopeId)) := by
  induction rows generalizing ids with
  | nil =>
    cases h
    exact .slnil
  | cons m rows ih =>
    obtain ⟨rest, hrest, rfl | ⟨-, rfl⟩⟩ := candidateIds_cons h
    · exact (ih hrest).cons _
    · exact (ih hrest).cons_cons _

end Reads

/-- The turn a call finalizes. -/
def Finalization.turnId? : Finalization → Option String
  | .idle => none
  | .reconciling turnId | .classified turnId _ _ | .failed turnId | .reconciled turnId _ _ => some turnId

/-- The ids a call may still send back. -/
def Finalization.selected : Finalization → List String
  | .classified _ _ candidates => candidates
  | .reconciled _ _ renoticeIds => renoticeIds
  | _ => []

/-- What a call has selected, each id once, was never redelivered. -/
structure Finalization.Sound (s : Tables) (f : Finalization) : Prop where
  once : f.selected.Nodup
  unspent : ∀ turnId, f.turnId? = some turnId → ∀ k ∈ f.selected, Unspent s turnId k

/-- The runtime after the events, from an empty database. -/
def reached (host : Host) (enabled : Bool) (aliases : List String) (events : List Event) : Runtime :=
  run (Runtime.step host) (Runtime.initial enabled aliases) events

structure Runtime.Sound (rt : Runtime) : Prop where
  sound : Store.Sound rt.tables
  finalizations : ∀ task, (rt.finalizations task).Sound rt.tables

section Invariant
variable {host : Host} {rt : Runtime} {task : Nat} {turnId : String}

theorem Finalization.sound_of_nil {s : Tables} {f : Finalization} (h : f.selected = []) : f.Sound s := by
  refine ⟨h ▸ List.nodup_nil, fun turnId _ k hk => ?_⟩
  rw [h] at hk
  cases hk

theorem Runtime.Sound.put (h : rt.Sound) (task : Nat) {f : Finalization} (hf : f.Sound rt.tables) :
    (rt.put task f).Sound := by
  refine ⟨h.sound, fun task' => ?_⟩
  by_cases ht : task' = task
  · simpa [Runtime.put, ht] using hf
  · simpa [Runtime.put, ht] using h.finalizations task'

theorem Runtime.Sound.store (h : rt.Sound) (op : Op) :
    ({ rt with tables := Store.step rt.tables op } : Runtime).Sound where
  sound := (step_effect rt.tables op).ledger.sound h.sound
  finalizations task := ⟨(h.finalizations task).once, fun turnId ht k hk =>
    ((h.finalizations task).unspent turnId ht k hk).later h.sound.owned (step_effect rt.tables op).ledger⟩

theorem reconciliationFailed_selected (rt : Runtime) (turnId : String) :
    (rt.reconciliationFailed turnId).selected = [] := by
  rw [Runtime.reconciliationFailed]
  split <;> rfl

theorem classify_sound (rt : Runtime) (turnId : String) (session : Option String) :
    (rt.classify host turnId session).Sound rt.tables := by
  simp only [Runtime.classify]
  split
  · exact Finalization.sound_of_nil (reconciliationFailed_selected rt turnId)
  · exact Finalization.sound_of_nil rfl
  · rename_i candidates _ hc
    refine ⟨(getInTurnMessages_nodup turnId session rt.tables).sublist (candidateIds_sublist hc), fun turnId' ht k hk => ?_⟩
    obtain rfl := Option.some.inj ht
    obtain ⟨m, hm, rfl, hr⟩ := candidateIds_spec hc hk
    obtain ⟨active, member, hg⟩ := getInTurnMessages_spec hm
    obtain ⟨run, hrun, -⟩ := Option.map_eq_some_iff.mp active
    exact ⟨by simp [hrun], fun _ => ⟨member, m.row, hg, hr⟩⟩

theorem reconcile_sound {rows candidates : List String}
    (h : (Finalization.classified turnId rows candidates).Sound rt.tables) :
    (rt.reconcile turnId rows candidates).Sound rt.tables := by
  simp only [Runtime.reconcile]
  split
  · exact ⟨h.once.filter _, fun turnId' ht k hk => h.unspent turnId' ht k (List.mem_filter.mp hk).1⟩
  · exact Finalization.sound_of_nil rfl

theorem fallBack_sound (h : rt.Sound) (session : Option String) (fault : Option Fault) (now : Int) :
    (rt.fallBack task turnId session fault now).Sound := by
  have plain : (Finalization.reconciled turnId [] []).Sound rt.tables := Finalization.sound_of_nil rfl
  have idle : Finalization.idle.Sound rt.tables := Finalization.sound_of_nil rfl
  cases fault with
  | some fault =>
    cases fault with
    | beforeCommit => exact h.put task plain
    | afterCommit => exact (h.put task plain).store _
  | none =>
    refine (h.put task ?_).store _
    split
    · exact idle
    · exact plain

theorem step_sound (h : rt.Sound) (e : Event) : (rt.step host e).Sound := by
  cases e with
  | store op other => exact h.store op
  | begin task turnId =>
    simp only [Runtime.step]
    split
    · exact h.put _ (Finalization.sound_of_nil rfl)
    · exact h
  | readRows task session fails =>
    simp only [Runtime.step]
    split
    · refine h.put _ ?_
      split
      · exact Finalization.sound_of_nil (reconciliationFailed_selected rt _)
      · exact classify_sound rt _ session
    · exact h
  | readCovered task fails =>
    simp only [Runtime.step]
    split
    · rename_i turnId rows candidates ht
      refine h.put _ ?_
      split
      · exact Finalization.sound_of_nil (reconciliationFailed_selected rt _)
      · exact reconcile_sound (ht ▸ h.finalizations task)
    · exact h
  | fallBack task session fault now =>
    simp only [Runtime.step]
    split
    · exact fallBack_sound h session fault now
    · exact h
  | complete task session ids fails now =>
    have idle : (rt.put task .idle).Sound := h.put _ (Finalization.sound_of_nil rfl)
    simp only [Runtime.step]
    split
    · split
      · exact idle
      · exact idle.store _
    · exact h
  | restart enabled aliases => exact ⟨h.sound, fun _ => Finalization.sound_of_nil rfl⟩

theorem sound_initial (enabled : Bool) (aliases : List String) : (Runtime.initial enabled aliases).Sound :=
  ⟨sound_run [], fun _ => Finalization.sound_of_nil rfl⟩

theorem sound_reached (host : Host) (enabled : Bool) (aliases : List String) (events : List Event) :
    (reached host enabled aliases events).Sound :=
  run_invariant (sound_initial enabled aliases) (fun _ e h => step_sound h e) events

end Invariant

/-- The call that an event completes. -/
def Event.completes : Event → Option Nat
  | .fallBack task .. | .complete task .. => some task
  | _ => none

/-- The event completes a call and puts the row back from its turn to the waiting rows. -/
def Redelivers (host : Host) (k : String) (rt : Runtime) (e : Event) : Prop :=
  e.completes.isSome ∧ ∃ m m', rt.tables.messages.get? k = some m ∧ m.processingState = some .inTurn ∧
    (rt.step host e).tables.messages.get? k = some m' ∧ m'.processingState = some .pending

/-- What a call sends back: a row it selected, or any row that was never redelivered when
its reads have failed. -/
structure Licensed (rt : Runtime) (task : Nat) (turnId k : String) : Prop where
  once : ∃ m, rt.tables.messages.get? k = some m ∧ m.renotified = false
  selected : rt.finalizations task = .failed turnId ∨
    k ≠ "" ∧ ∃ rows renoticeIds, rt.finalizations task = .reconciled turnId rows renoticeIds ∧ k ∈ renoticeIds

section Settlement
variable {host : Host} {rt : Runtime} {task : Nat} {e : Event} {k : String}

theorem fallBack_settles {turnId : String} (ht : rt.finalizations task = .failed turnId)
    (session : Option String) (fault : Option Fault) (now : Int) :
    (rt.fallBack task turnId session fault now).tables = rt.tables ∨
      ∃ processed renotice, TurnCompletion processed renotice turnId rt.tables
        (rt.fallBack task turnId session fault now).tables ∧ ∀ k ∈ renotice, Licensed rt task turnId k := by
  have settled : Store.step rt.tables (.completeTurnRenoticeUnrenotified turnId session now) = rt.tables ∨
      ∃ processed renotice, TurnCompletion processed renotice turnId rt.tables
        (Store.step rt.tables (.completeTurnRenoticeUnrenotified turnId session now)) ∧
        ∀ k ∈ renotice, Licensed rt task turnId k := by
    rcases step_completeTurnRenoticeUnrenotified turnId session now rt.tables with
      same | ⟨processed, renotice, completion, once⟩
    · exact .inl same
    · exact .inr ⟨processed, renotice, completion, fun k hk => ⟨once k hk, .inl ht⟩⟩
  cases fault with
  | none => exact settled
  | some fault =>
    cases fault with
    | beforeCommit => exact .inl rfl
    | afterCommit => exact settled

theorem completion_settles (h : rt.Sound) {turnId : String} {rows renoticeIds : List String}
    (ht : rt.finalizations task = .reconciled turnId rows renoticeIds) (session : Option String)
    (ids : List String) (now : Int) :
    Store.step rt.tables (Runtime.completion turnId rows renoticeIds session ids now) = rt.tables ∨
      ∃ processed renotice, TurnCompletion processed renotice turnId rt.tables
        (Store.step rt.tables (Runtime.completion turnId rows renoticeIds session ids now)) ∧
        ∀ k ∈ renotice, Licensed rt task turnId k := by
  rw [Runtime.completion]
  split
  · rcases step_markProcessed ids turnId session now rt.tables with same | completion
    · exact .inl same
    · exact .inr ⟨ids, [], completion, fun k hk => absurd hk List.not_mem_nil⟩
  · rcases step_completeTurnWithRenotice (ids.filter (· ∉ renoticeIds)) renoticeIds turnId session now
      rt.tables with same | ⟨completion, named⟩
    · exact .inl same
    · refine .inr ⟨_, _, completion, fun k hk => ⟨?_, .inr ⟨?_, rows, renoticeIds, ht, hk⟩⟩⟩
      · have unspent : Unspent rt.tables turnId k := (h.finalizations task).unspent turnId (by rw [ht]; rfl) k
          (by rw [ht]; exact hk)
        exact (unspent.2 completion.was).2
      · rintro rfl
        exact named hk

/-- A completion changes nothing, or it ends the turn of its call. -/
theorem step_settles (host : Host) (h : rt.Sound) (he : e.completes = some task) :
    (rt.step host e).tables = rt.tables ∨ ∃ turnId processed renotice,
      (rt.finalizations task).turnId? = some turnId ∧
      TurnCompletion processed renotice turnId rt.tables (rt.step host e).tables ∧
      ∀ k ∈ renotice, Licensed rt task turnId k := by
  cases e with
  | fallBack task' session fault now =>
    obtain rfl := Option.some.inj he
    simp only [Runtime.step]
    split
    · rename_i turnId ht
      refine (fallBack_settles ht session fault now).imp id ?_
      rintro ⟨processed, renotice, completion, licensed⟩
      exact ⟨turnId, processed, renotice, by rw [ht]; rfl, completion, licensed⟩
    · exact .inl rfl
  | complete task' session ids fails now =>
    obtain rfl := Option.some.inj he
    simp only [Runtime.step]
    split
    · rename_i turnId rows renoticeIds ht
      split
      · exact .inl rfl
      · refine (completion_settles h ht session ids now).imp id ?_
        rintro ⟨processed, renotice, completion, licensed⟩
        exact ⟨turnId, processed, renotice, by rw [ht]; rfl, completion, licensed⟩
    · exact .inl rfl
  | store | begin | readRows | readCovered | restart => cases he

/-- The call stands at the event, its store call does not fail for a reason of its own, and the turn is
open to it: it is active, of the session that is named, and its members are the ids that are given. -/
def Event.accepted (rt : Runtime) : Event → Prop
  | .fallBack task session fault _ => ∃ turnId, rt.finalizations task = .failed turnId ∧
      fault ≠ some .beforeCommit ∧ rt.tables.isOpenTo turnId session
  | .complete task session ids fails _ => ∃ turnId rows renoticeIds,
      rt.finalizations task = .reconciled turnId rows renoticeIds ∧ fails = false ∧
      rt.tables.isOpenTo turnId session ∧ ids ≠ [] ∧ ids.Nodup ∧ ∀ k, rt.tables.isMember turnId k ↔ k ∈ ids
  | _ => False

/-- A row that a completion puts back was licensed, and its one redelivery is spent. -/
theorem redelivers_licensed (h : rt.Sound) (hr : Redelivers host k rt e) :
    (∃ task turnId, e.completes = some task ∧ Licensed rt task turnId k) ∧
      ∃ m', (rt.step host e).tables.messages.get? k = some m' ∧ m'.renotified = true := by
  obtain ⟨hc, m, m', hg, hin, hg', hp⟩ := hr
  obtain ⟨task, he⟩ := Option.isSome_iff_exists.mp hc
  have changed : (rt.step host e).tables.messages.get? k ≠ rt.tables.messages.get? k := by
    intro same
    rw [hg', hg] at same
    obtain rfl := Option.some.inj same
    rw [hin] at hp
    cases hp
  rcases step_settles host h he with same | ⟨turnId, processed, renotice, -, completion, licensed⟩
  · exact absurd (by rw [same]) changed
  · by_cases hk : k ∈ processed ++ renotice
    · rcases List.mem_append.mp hk with hk | hk
      · obtain ⟨m₁, -, -, at_, hg₁⟩ := completion.completed k hk
        obtain rfl := Option.some.inj (hg₁.symm.trans hg')
        cases hp
      · obtain ⟨m₁, -, -, hg₁⟩ := completion.renoticed k hk
        exact ⟨⟨task, turnId, he, licensed k hk⟩, m₁.renoticed, hg₁, rfl⟩
    · exact absurd (completion.others k hk) changed

end Settlement

section Once
variable {host : Host} {rt : Runtime} {k : String}

end Once

section Reading
variable {host : Host} {rt : Runtime} {task : Nat} {turnId k : String} {rows renoticeIds : List String}

@[simp]
theorem put_finalizations (rt : Runtime) (task task' : Nat) (f : Finalization) :
    (rt.put task f).finalizations task' = if task' = task then f else rt.finalizations task' := by
  simp [Runtime.put, Function.update_apply]

theorem mem_reconcile {candidates : List String} (hk : k ∈ renoticeIds) (named : k ≠ "")
    (h : rt.reconcile turnId rows candidates = .reconciled turnId rows renoticeIds) :
    ¬ Covered rt.tables k := by
  intro covered
  simp only [Runtime.reconcile, Finalization.reconciled.injEq, true_and] at h
  subst h
  split at hk
  · obtain ⟨hc, hn⟩ := List.mem_filter.mp hk
    refine of_decide_eq_true hn (List.mem_filter.mpr ⟨List.mem_filter.mpr ⟨hc, ?_⟩, ?_⟩)
    · exact decide_eq_true named
    · exact decide_eq_true covered
  · cases hk

theorem reconciliationFailed_reconciled {turnId' : String}
    (h : rt.reconciliationFailed turnId' = .reconciled turnId rows renoticeIds) : renoticeIds = [] := by
  have := reconciliationFailed_selected rt turnId'
  rwa [h] at this

theorem classify_reconciled {turnId' : String} {session : Option String}
    (h : rt.classify host turnId' session = .reconciled turnId rows renoticeIds) : renoticeIds = [] := by
  simp only [Runtime.classify] at h
  split at h
  · exact reconciliationFailed_reconciled h
  · injection h with _ _ hr
    exact hr.symm
  · cases h

theorem fallBack_reconciled {task' : Nat} {turnId' : String} {session : Option String}
    {fault : Option Fault} {now : Int}
    (h : (rt.fallBack task' turnId' session fault now).finalizations task =
      .reconciled turnId rows renoticeIds) :
    rt.finalizations task = .reconciled turnId rows renoticeIds ∨ renoticeIds = [] := by
  by_cases ht : task = task'
  · right
    cases fault with
    | none =>
      simp only [Runtime.fallBack, put_finalizations, if_pos ht] at h
      split at h
      · cases h
      · injection h with _ _ hr
        exact hr.symm
    | some fault =>
      cases fault <;>
      · simp only [Runtime.fallBack, put_finalizations, if_pos ht] at h
        injection h with _ _ hr
        exact hr.symm
  · left
    cases fault with
    | none => simpa only [Runtime.fallBack, put_finalizations, if_neg ht] using h
    | some fault => cases fault <;> simpa only [Runtime.fallBack, put_finalizations, if_neg ht] using h

/-- A call stands where it stood, or it has just looked for covers. -/
theorem step_reconciled (e : Event) (hk : k ∈ renoticeIds) (named : k ≠ "")
    (h : (rt.step host e).finalizations task = .reconciled turnId rows renoticeIds) :
    rt.finalizations task = .reconciled turnId rows renoticeIds ∨
      e = .readCovered task false ∧ ¬ Covered rt.tables k := by
  have empty (hn : renoticeIds = []) : False := by
    rw [hn] at hk
    cases hk
  cases e with
  | store op other => exact .inl h
  | restart enabled aliases => cases h
  | begin task' turnId' =>
    simp only [Runtime.step] at h
    split at h
    · rw [put_finalizations] at h
      split_ifs at h with ht
      exact .inl h
    · exact .inl h
  | readRows task' session fails =>
    simp only [Runtime.step] at h
    split at h
    · rw [put_finalizations] at h
      split_ifs at h with ht hf
      · exact (empty (reconciliationFailed_reconciled h)).elim
      · exact (empty (classify_reconciled h)).elim
      · exact .inl h
    · exact .inl h
  | readCovered task' fails =>
    simp only [Runtime.step] at h
    split at h
    · rw [put_finalizations] at h
      split_ifs at h with ht hf
      · exact (empty (reconciliationFailed_reconciled h)).elim
      · obtain ⟨rfl, rfl, -⟩ := Finalization.reconciled.inj h
        refine .inr ⟨?_, mem_reconcile hk named h⟩
        rw [ht, Bool.eq_false_iff.mpr hf]
      · exact .inl h
    · exact .inl h
  | fallBack task' session fault now =>
    simp only [Runtime.step] at h
    split at h
    · exact .inl ((fallBack_reconciled h).resolve_right empty)
    · exact .inl h
  | complete task' session ids fails now =>
    have stands (h : (rt.put task' .idle).finalizations task = .reconciled turnId rows renoticeIds) :
        rt.finalizations task = .reconciled turnId rows renoticeIds := by
      rw [put_finalizations] at h
      split_ifs at h with ht
      exact h
    simp only [Runtime.step] at h
    split at h
    · split at h
      · exact .inl (stands h)
      · exact .inl (stands h)
    · exact .inl h

/-- A call that means to send a row back has looked for covers at some point of the run,
found none of the row, and stands there since. -/
theorem looked_before (host : Host) (start : Runtime) (idle : start.finalizations task = .idle)
    (events : List Event) (hk : k ∈ renoticeIds) (named : k ≠ "")
    (h : (run (Runtime.step host) start events).finalizations task = .reconciled turnId rows renoticeIds) :
    ∃ before after, events = before ++ .readCovered task false :: after ∧
      ¬ Covered (run (Runtime.step host) start before).tables k ∧
      ∀ p, p <+: after → (run (Runtime.step host) start (before ++ .readCovered task false :: p)).finalizations
        task = .reconciled turnId rows renoticeIds := by
  induction events using List.reverseRecOn with
  | nil =>
    rw [run_nil, idle] at h
    cases h
  | append_singleton events e ih =>
    have hlast := h
    rw [run_append, run_cons, run_nil] at h
    rcases step_reconciled e hk named h with stood | ⟨rfl, uncovered⟩
    · obtain ⟨before, after, rfl, uncovered, stands⟩ := ih stood
      refine ⟨before, after ++ [e], by simp, uncovered, fun p hp => ?_⟩
      rcases List.prefix_concat_iff.mp hp with rfl | hp
      · rwa [List.append_assoc, List.cons_append] at hlast
      · exact stands p hp
    · refine ⟨events, [], rfl, uncovered, fun p hp => ?_⟩
      rwa [List.prefix_nil.mp hp]

end Reading

/-- A completion that puts a row back is the fallback of a call whose reads failed, on a row
never redelivered before, or belongs to a call that found no cover of the row on record when
it looked, and has stood there since. -/
theorem covered_not_redelivered (host : Host) (enabled : Bool) (aliases : List String)
    (events : List Event) (e : Event) (k : String)
    (h : Redelivers host k (reached host enabled aliases events) e) :
    ∃ task turnId, e.completes = some task ∧
      (((reached host enabled aliases events).finalizations task = .failed turnId ∧
        ∃ m, (reached host enabled aliases events).tables.messages.get? k = some m ∧
          m.renotified = false) ∨
      ∃ rows renoticeIds before after, events = before ++ .readCovered task false :: after ∧
        ¬ Covered (reached host enabled aliases before).tables k ∧
        ∀ p, p <+: after →
          (reached host enabled aliases (before ++ .readCovered task false :: p)).finalizations task =
            .reconciled turnId rows renoticeIds) := by
  obtain ⟨⟨task, turnId, he, licensed⟩, -⟩ := redelivers_licensed (sound_reached host enabled aliases events) h
  refine ⟨task, turnId, he, ?_⟩
  rcases licensed.selected with failed | ⟨named, rows, renoticeIds, stands, hk⟩
  · exact .inl ⟨failed, licensed.once⟩
  · exact .inr ⟨rows, renoticeIds, looked_before host _ rfl events hk named stands⟩

/-- A message is read in a turn and answered, and the turn then ends with failing reads. -/
def answeredEvents : List Event :=
  [.store (.storeReceipt ⟨"env-1", "channel", "alice", some "ch-1", some "sp-1", none, "text/plain",
      .str "hi", 1, none, none, false, true⟩ 7 .eligible "eligible" 1 1) rfl,
    .store (.startTurn "turn-1" (some "session-1") none none [] 2) rfl,
    .store (.admitMessages ["env-1"] "turn-1" (some "session-1") none 3) rfl,
    .store (.addMessageCovers ["env-1"] .send (some "env-2") none (some "turn-1") 4) rfl,
    .begin 0 "turn-1", .readRows 0 (some "session-1") true]

/-- The same message without an answer, up to the completion of its turn. -/
def silentEvents : List Event :=
  answeredEvents.take 3 ++ [.begin 0 "turn-1", .readRows 0 (some "session-1") false, .readCovered 0 false]

theorem redelivers_of_states {host : Host} {k : String} {rt : Runtime} {e : Event}
    (hc : e.completes.isSome)
    (before : (rt.tables.messages.get? k).map (·.processingState) = some (some .inTurn))
    (after : ((rt.step host e).tables.messages.get? k).map (·.processingState) = some (some .pending)) :
    Redelivers host k rt e := by
  obtain ⟨m, hm, hs⟩ := Option.map_eq_some_iff.mp before
  obtain ⟨m', hm', hs'⟩ := Option.map_eq_some_iff.mp after
  exact ⟨hc, m, m', hm, hs, hm', hs'⟩

/-- The fallback puts an answered row back. -/
theorem answered_row_redelivered :
    Covered (reached asciiHost true [] answeredEvents).tables "env-1" ∧
      Redelivers asciiHost "env-1" (reached asciiHost true [] answeredEvents)
        (.fallBack 0 (some "session-1") none 5) :=
  ⟨by decide +kernel, redelivers_of_states rfl (by decide +kernel) (by decide +kernel)⟩

/-- A message that nobody answers is put back by the normal completion. -/
theorem covered_not_redelivered_silent :
    ∃ task turnId, (Event.complete 0 (some "session-1") ["env-1"] false 5).completes = some task ∧
      (((reached asciiHost true [] silentEvents).finalizations task = .failed turnId ∧
        ∃ m, (reached asciiHost true [] silentEvents).tables.messages.get? "env-1" = some m ∧
          m.renotified = false) ∨
      ∃ rows renoticeIds before after, silentEvents = before ++ .readCovered task false :: after ∧
        ¬ Covered (reached asciiHost true [] before).tables "env-1" ∧
        ∀ p, p <+: after →
          (reached asciiHost true [] (before ++ .readCovered task false :: p)).finalizations task =
            .reconciled turnId rows renoticeIds) :=
  covered_not_redelivered asciiHost true [] silentEvents _ "env-1"
    (redelivers_of_states rfl (by decide +kernel) (by decide +kernel))

end PuffoAgent.Covers
