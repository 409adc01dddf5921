import PuffoAgent.Store.Ownership
import PuffoAgent.Store.Turnless

/-! Settling a turn: an active turn can always be put back with the rows it holds, and a turn
that has ended stays in the state it ended in. -/
namespace PuffoAgent.Store
open Relational Stmt Sql Machine

/-- Ownership, and no member without a name. -/
structure Sound (s : Tables) : Prop where
  owned : Ownership s
  named : ∀ t, ¬ s.isMember t ""

section Runs
variable {licence : Licence} {s s' : Tables}

theorem Ledger.sound (h : Ledger licence s s') (hs : Sound s) : Sound s' := by
  refine ⟨h.ownership hs.owned, fun t => ?_⟩
  cases h with
  | aside _ _ members => rw [isMember_of_eq members]; exact hs.named t
  | arrived _ _ _ _ _ _ _ members => rw [isMember_of_eq members]; exact hs.named t
  | swept _ _ _ members => rw [isMember_of_eq members]; exact hs.named t
  | opened _ _ _ _ _ members => rw [isMember_of_eq members]; exact hs.named t
  | admitted turnId ids first at_ _ _ _ _ _ _ members named =>
    rw [isMember_admitted members]
    rintro (hm | ⟨-, hm⟩)
    · exact hs.named t hm
    · exact named hm
  | ended _ _ _ _ _ _ _ members => rw [isMember_of_eq members]; exact hs.named t

theorem sound_run (ops : List Op) : Sound (run step Tables.empty ops) := by
  refine run_invariant ⟨ownership_empty, fun t hm => ?_⟩ (fun s op => (step_effect s op).ledger.sound) ops
  simp [Tables.isMember, Tables.empty, Table.empty] at hm

/-- The state of a turn on record. -/
def Tables.turnState (s : Tables) (turnId : String) : Option TurnState := (s.turnRuns.get? turnId).map (·.state)

/-- A turn that has ended keeps its state. -/
theorem Ledger.turnState_kept (h : Ledger licence s s') {t : String} {state : TurnState}
    (hs : s.turnState t = some state) (hne : state ≠ .inTurn) : s'.turnState t = some state := by
  have idle : ¬ s.isActive t := fun ha => hne (Option.some.inj (hs.symm.trans ha))
  have same (hr : s'.turnRuns.get? t = s.turnRuns.get? t) : s'.turnState t = some state := by
    rw [Tables.turnState, hr]
    exact hs
  cases h with
  | aside _ runs => exact (runs t).trans hs
  | arrived _ _ _ _ _ _ runs => exact (runs t).trans hs
  | swept _ _ runs => exact (runs t).trans hs
  | opened turnId free active _ runs =>
    refine same (runs t ?_)
    rintro rfl
    simp [Tables.turnState, free] at hs
  | admitted turnId ids first at_ nodup pending run active runs =>
    refine same (runs t ?_)
    rintro rfl
    rcases run with ⟨free, -⟩ | ⟨was, -⟩
    · simp [Tables.turnState, free] at hs
    · exact idle was
  | ended turnId was known now runs =>
    refine same (runs t ?_)
    rintro rfl
    exact idle was

theorem turnState_run {ops : List Op} {t : String} {state : TurnState} (hs : s.turnState t = some state)
    (hne : state ≠ .inTurn) : (run step s ops).turnState t = some state :=
  have keep (s : Tables) (op : Op) (hs : s.turnState t = some state) : (step s op).turnState t = some state :=
    (step_effect s op).ledger.turnState_kept hs hne
  @run_invariant _ _ step (fun s => s.turnState t = some state) s hs keep ops

/-- The turn has ended. -/
def Tables.hasEnded (s : Tables) (turnId : String) : Prop :=
  ∃ state, s.turnState turnId = some state ∧ state ≠ .inTurn

/-- A turn that a run ends is ended by exactly one of its operations. -/
theorem hasEnded_once {ops : List Op} {t : String} (unended : ¬ s.hasEnded t) (ended : (run step s ops).hasEnded t) :
    ∃! i, i < ops.length ∧ ¬ (run step s (ops.take i)).hasEnded t ∧ (run step s (ops.take (i + 1))).hasEnded t :=
  gained_once (E := fun s : Tables => s.hasEnded t) (fun s op ⟨state, hs, hne⟩ => ⟨state, (step_effect s op).ledger.turnState_kept hs hne, hne⟩) unended ended

end Runs

/-- The turn that an admission joins or opens is active after it. -/
theorem admitMessages_active (ids : List String) (turnId : String) (session : Option String)
    (modelVisibleAt : Option Int) (now : Int) :
    Does (fun _ _ s' => s'.isActive turnId) (admitMessages ids turnId session modelVisibleAt now) := by
  refine (exactIds_does ids).bind_of_read fun _ => Does.raiseIf fun _ => (Does.read (does_transaction
    (E := fun _ _ s' => s'.isActive turnId) ?_ ?_) fun _ s => getTurnRun turnId s).mono fun _ _ _ ⟨_, he, _⟩ => he
  · intro s u s' h
    simp only [admitMessagesBody, query_bind_ok_iff, raiseIf_bind_ok_iff] at h
    obtain ⟨-, h⟩ := h
    obtain ⟨first, t, hj, h⟩ := bind_ok_iff.mp h
    obtain ⟨_, t', hi, h⟩ := bind_ok_iff.mp h
    simp only [updateExactRows_bind_ok_iff, exec_bind_ok_iff, pure_ok_iff] at h
    obtain ⟨-, -, rfl⟩ := h
    have runs : t'.turnRuns = t.turnRuns := by rw [(insertMembers_ok hi).1]
    change (t'.turnRuns.get? turnId).map TurnRunRow.state = _
    rw [runs]
    exact (joinTurn_ok hj).2.1
  · intro s u s' h
    simp only [admitMessagesBody, query_bind_ok_iff, raiseIf_bind_ok_iff] at h
    obtain ⟨-, h⟩ := h
    obtain ⟨first, t, -, h⟩ := bind_ok_iff.mp h
    obtain ⟨_, t', -, h⟩ := bind_ok_iff.mp h
    simp only [updateExactRows_bind_ok_iff, exec_bind_ok_iff, pure_ok_iff, reduceCtorEq, false_and, and_false] at h

section Return
variable {s : Tables} {turnId : String}

theorem transaction_returns {α : Type} {body : BodyM (Finish α)} {a : α} {s' : Tables}
    (h : body s = .ok (.commit a) s') : transaction body ⟨s, none⟩ = .ok a ⟨s', none⟩ := by
  rw [transaction_run, h]

theorem turnMessageIds_nodup (s : Tables) (turnId : String) : (turnMessageIds s turnId).Nodup := by
  have keys : ((s.members turnId).map TurnRunMessageRow.key).Nodup :=
    s.turnRunMessages.nodup.sublist (List.filter_sublist.map _)
  have paired : (s.members turnId).map TurnRunMessageRow.key =
      ((s.members turnId).map (·.envelopeId)).map (turnId, ·) := by
    rw [List.map_map]
    refine List.map_congr_left fun r hr => ?_
    have ht : r.turnId = turnId := of_decide_eq_true (List.mem_filter.mp hr).2
    rw [TurnRunMessageRow.key, ht]
    rfl
  rw [paired] at keys
  exact ((List.perm_insertionSort _ _).map _).nodup_iff.mpr keys.of_map

theorem turnMessageIds_of_eq {s' : Tables} (h : s'.turnRunMessages = s.turnRunMessages) (turnId : String) :
    turnMessageIds s' turnId = turnMessageIds s turnId := by
  rw [turnMessageIds, members_of_eq h, turnMessageIds]

/-- The turn has ended in the given state; the other turns and all members are as they were. -/
structure Finished (turnId : String) (state : TurnState) (s s' : Tables) : Prop where
  now : s'.turnState turnId = some state
  runs : ∀ t, t ≠ turnId → s'.turnRuns.get? t = s.turnRuns.get? t
  members : s'.turnRunMessages = s.turnRunMessages

/-- An update that finds its turn returns. -/
theorem updateTurnRun_returns (p : TurnRunRow → Bool) (f : TurnRunRow → TurnRunRow)
    (hf : ∀ r, (f r).turnId = r.turnId) (message : String) {r : TurnRunRow}
    (hg : s.turnRuns.get? turnId = some r) (hp : p r = true) :
    ∃ s', updateTurnRun turnId p f hf message s = .ok () s' := by
  refine ⟨{ s with turnRuns := s.turnRuns.update (fun r => r.turnId = turnId ∧ p r) f hf }, ?_⟩
  simp only [updateTurnRun, query_bind_ok_iff, exec_bind_ok_iff, raiseIf_ok_iff, and_true, ne_eq, not_not]
  have one := Table.select_length_of_all (t := s.turnRuns) (p := p) (List.nodup_singleton turnId)
    fun k hk => ⟨r, by rw [List.mem_singleton.mp hk, hg], hp⟩
  simpa only [List.mem_singleton, List.length_singleton] using one

theorem finishTurnRun_returns (state : TurnState) (completed : Int) (message : String) (ha : s.isActive turnId) :
    ∃ s', finishTurnRun turnId state completed message s = .ok () s' ∧ Finished turnId state s s' := by
  obtain ⟨r, hg, hst⟩ := Option.map_eq_some_iff.mp ha
  obtain ⟨s', h⟩ := updateTurnRun_returns (·.state = .inTurn)
    (fun r => { r with state := state, completedAt := some completed }) (fun _ => rfl) message hg
    (decide_eq_true hst)
  obtain ⟨⟨q, -, -, hq⟩, others, rest⟩ := updateTurnRun_ok h
  exact ⟨s', h, by rw [Tables.turnState, hq]; rfl, others, by rw [rest]⟩

/-- Both statements of a requeue together reach every id. -/
theorem requeue_counts {as bs : List String} (f : MessageRow → MessageRow)
    (hf : ∀ m, (f m).envelopeId = m.envelopeId) (nodup : as.Nodup) (nodup' : bs.Nodup) (hdisj : as.Disjoint bs)
    (held : ∀ k ∈ as ++ bs, ∃ m, s.messages.get? k = some m ∧ m.isInTurn turnId = true) :
    s.countMessages (fun m => m.envelopeId ∈ as ∧ m.isInTurn turnId) +
      (s.updateMessages (fun m => m.envelopeId ∈ as ∧ m.isInTurn turnId) f hf).countMessages
        (fun m => m.envelopeId ∈ bs ∧ m.isInTurn turnId) = as.length + bs.length := by
  have first : s.countMessages (fun m => m.envelopeId ∈ as ∧ m.isInTurn turnId) = as.length :=
    Table.select_length_of_all nodup fun k hk => held k (List.mem_append_left _ hk)
  have second : (s.updateMessages (fun m => m.envelopeId ∈ as ∧ m.isInTurn turnId) f hf).countMessages
      (fun m => m.envelopeId ∈ bs ∧ m.isInTurn turnId) = bs.length := by
    refine Table.select_length_of_all nodup' fun k hk => ?_
    obtain ⟨m, hg, hp⟩ := held k (List.mem_append_right _ hk)
    refine ⟨m, ?_, hp⟩
    rw [get?_update_isInTurn, hg, Option.map_some, if_neg fun h => hdisj h.1 hk]
  rw [first, second]

theorem requeueMessagesBody_returns (hs : Sound s) (ha : s.isActive turnId) (now : Int) :
    ∃ s', requeueMessagesBody (turnMessageIds s turnId) turnId now s = .ok (.commit ()) s' ∧
      Finished turnId .requeued s s' := by
  set ids := turnMessageIds s turnId with hids
  set covered := ids.filter fun e => decide (e ∈ s.messageCovers.rows.map (·.coveredEnvelopeId)) with hcov
  set as := ids.filter fun e => decide (e ∈ covered) with has
  set bs := ids.filter fun e => decide (e ∉ covered) with hbs
  have nodup : ids.Nodup := turnMessageIds_nodup s turnId
  have hdisj : as.Disjoint bs := by
    intro k hk hk'
    exact of_decide_eq_true (List.mem_filter.mp hk').2 (of_decide_eq_true (List.mem_filter.mp hk).2)
  have hlen : as.length + bs.length = ids.length := by
    simpa [has, hbs] using (ids.length_eq_length_filter_add (fun e => decide (e ∈ covered))).symm
  have held (k : String) (hk : k ∈ as ++ bs) :
      ∃ m, s.messages.get? k = some m ∧ m.isInTurn turnId = true := by
    refine (hs.owned.holds turnId k).mpr ⟨ha, mem_turnMessageIds.mp ?_⟩
    rcases List.mem_append.mp hk with hk | hk
    · exact (List.mem_filter.mp hk).1
    · exact (List.mem_filter.mp hk).1
  have counts := requeue_counts (MessageRow.settled now) (MessageRow.settled_envelopeId now)
    (nodup.filter _) (nodup.filter _) hdisj held
  set t : Tables := (s.updateMessages (fun m => m.envelopeId ∈ as ∧ m.isInTurn turnId)
    (MessageRow.settled now) (MessageRow.settled_envelopeId now)).updateMessages
      (fun m => m.envelopeId ∈ bs ∧ m.isInTurn turnId) MessageRow.requeued MessageRow.requeued_envelopeId with ht
  obtain ⟨s', hfin, finished⟩ := finishTurnRun_returns (s := t) .requeued now "turn is not active" ha
  refine ⟨refreshNoticeState now none s', ?_, finished.now, finished.runs, finished.members⟩
  simp only [requeueMessagesBody, updateRows, bind_assoc, pure_bind, query_bind_ok_iff,
    exec_bind_ok_iff, raiseIf_bind_ok_iff]
  refine ⟨by simp [hids], not_not.mpr (counts.trans hlen), ?_⟩
  exact bind_ok_iff.mpr ⟨(), s', hfin, rfl⟩

/-- An active turn with rows can be put back. -/
theorem requeueMessages_returns (hs : Sound s) (ha : s.isActive turnId) (hne : turnMessageIds s turnId ≠ [])
    (now : Int) : ∃ s', (Op.requeueMessages (turnMessageIds s turnId) turnId now).perform ⟨s, none⟩ =
      .ok () ⟨s', none⟩ ∧ Finished turnId .requeued s s' := by
  obtain ⟨s', hb, finished⟩ := requeueMessagesBody_returns hs ha now
  have named : "" ∉ turnMessageIds s turnId := fun h => hs.named turnId (mem_turnMessageIds.mp h)
  refine ⟨s', ?_, finished⟩
  simp only [Op.perform, Store.requeueMessages, exactIds, bind_assoc, raiseIf_bind_ok_iff]
  refine ⟨by simp [hne, named], not_not.mpr (turnMessageIds_nodup s turnId), ?_⟩
  exact bind_ok_iff.mpr ⟨(), _, transaction_returns hb, rfl⟩

/-- The turn is active and is of the provider session, where one is named. -/
def Tables.isOpenTo (s : Tables) (turnId : String) (session : Option String) : Prop :=
  s.isActive turnId ∧ ∀ p ∈ session, (s.turnRuns.get? turnId).bind (·.providerSessionId) = some p

/-- An active turn without rows can be ended. -/
theorem finalizeEmptyTurn_returns {state : TurnState} (hst : state ≠ .inTurn) (ha : s.isActive turnId)
    (hempty : turnMessageIds s turnId = []) (now : Int) :
    ∃ s', (Op.finalizeEmptyTurn turnId state now).perform ⟨s, none⟩ = .ok () ⟨s', none⟩ ∧
      Finished turnId state s s' := by
  obtain ⟨r, hg, hr⟩ := Option.map_eq_some_iff.mp ha
  have none_ : s.members turnId = [] := by
    refine List.eq_nil_iff_forall_not_mem.mpr fun m hm => ?_
    have : m.envelopeId ∈ turnMessageIds s turnId :=
      mem_turnMessageIds.mpr (isMember_iff.mpr (List.mem_map_of_mem hm))
    rw [hempty] at this
    cases this
  obtain ⟨s', h⟩ := updateTurnRun_returns (fun r => r.state = .inTurn ∧ s.members turnId = [])
    (fun r => { r with state := state, completedAt := some now }) (fun _ => rfl)
    "Turn is not active and empty" hg
    (decide_eq_true ⟨hr, none_⟩)
  obtain ⟨⟨q, -, -, hq⟩, others, rest⟩ := updateTurnRun_ok h
  refine ⟨s', ?_, by rw [Tables.turnState, hq]; rfl, others, by rw [rest]⟩
  simp only [Op.perform, Store.finalizeEmptyTurn, bind_assoc, raiseIf_bind_ok_iff]
  refine ⟨hst, bind_ok_iff.mpr ⟨(), ⟨s', none⟩, transaction_returns (a := ()) ?_, rfl⟩⟩
  rw [query_bind_ok_iff]
  exact bind_ok_iff.mpr ⟨(), s', h, rfl⟩

/-- A notice can always be released, and turns are as they were. -/
theorem releaseNoticeDelivery_returns (session : Option String) : ∃ s',
    (Op.releaseNoticeDelivery session none).perform ⟨s, none⟩ = .ok () ⟨s', none⟩ ∧ SameTurns s s' := by
  have same : Leaves SameTurns (Op.releaseNoticeDelivery session none).perform := perform_sameTurns rfl
  have returns : ∃ a c, Store.releaseNoticeDelivery session none ⟨s, none⟩ = .ok a c := by
    unfold Store.releaseNoticeDelivery
    cases session with
    | none => exact ⟨false, _, rfl⟩
    | some session =>
      by_cases hn : session = ""
      · exact ⟨false, ⟨s, none⟩, by simp only [if_pos hn]; rfl⟩
      · simp only [if_neg hn, transaction_run, query_bind_run]
        by_cases hc : s.noticeState.lastDeliveredProviderSessionId = some session
        · rw [if_neg (not_not.mpr hc)]
          exact ⟨_, _, rfl⟩
        · rw [if_pos hc]
          exact ⟨_, _, rfl⟩
  obtain ⟨a, c, hr⟩ := returns
  have perform : (Op.releaseNoticeDelivery session none).perform ⟨s, none⟩ = .ok () c :=
    bind_ok_iff.mpr ⟨a, c, hr, rfl⟩
  obtain ⟨closed, hsame⟩ := same.ok perform
  refine ⟨c.tables, ?_, hsame⟩
  rw [perform, ← closed]

end Return
end PuffoAgent.Store
