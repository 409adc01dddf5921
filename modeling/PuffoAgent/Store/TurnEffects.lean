import PuffoAgent.Store.ReceiptEffects

/-! The effects of the operations on turns and of the notice calls. -/
namespace PuffoAgent.Store
open Relational Stmt Sql

section Statements
variable {β : Type} {s s' : Tables} {b : β} {g : Unit → BodyM β}

/-- One active turn changed, and nothing else. -/
structure RunChanged (turnId : String) (p : TurnRunRow → Bool) (f : TurnRunRow → TurnRunRow)
    (s s' : Tables) : Prop where
  changed : ∃ r, s.turnRuns.get? turnId = some r ∧ p r = true ∧ s'.turnRuns.get? turnId = some (f r)
  others : ∀ t, t ≠ turnId → s'.turnRuns.get? t = s.turnRuns.get? t
  rest : s' = { s with turnRuns := s'.turnRuns }

theorem updateTurnRun_ok {turnId message : String} {p : TurnRunRow → Bool}
    {f : TurnRunRow → TurnRunRow} {hf : ∀ r, (f r).turnId = r.turnId} {u : Unit}
    (h : updateTurnRun turnId p f hf message s = .ok u s') : RunChanged turnId p f s s' := by
  simp only [updateTurnRun, query_bind_ok_iff, exec_bind_ok_iff, raiseIf_ok_iff, not_not] at h
  obtain ⟨hc, rfl⟩ := h
  obtain ⟨r, hg, hp⟩ := Table.exists_of_select_key_length hc
  have hk : r.turnId = turnId := Table.get?_key hg
  refine ⟨⟨r, hg, hp, ?_⟩, fun t ht => ?_, rfl⟩
  · simp [hg, hp, hk]
  · rw [Table.get?_update]
    cases hq : s.turnRuns.get? t with
    | none => rfl
    | some q =>
      have hqk : q.turnId = t := Table.get?_key hq
      have hne : q.turnId ≠ turnId := hqk ▸ ht
      simp [hne]

theorem insertTurnRun_ok {turnId : String} {session : Option String} {startedAt : Int} {u : Unit}
    (h : insertTurnRun turnId session startedAt s = .ok u s') :
    s.turnRuns.get? turnId = none ∧ s'.isActive turnId ∧
      (∀ t, t ≠ turnId → s'.turnRuns.get? t = s.turnRuns.get? t) ∧
      s' = { s with turnRuns := s'.turnRuns } := by
  unfold insertTurnRun at h
  rw [tryExec_ok_iff] at h
  obtain ⟨turnRuns, hi, rfl⟩ := Option.map_eq_some_iff.mp h
  refine ⟨(Table.insert?_eq_some.mp hi).1, ?_, fun t ht => ?_, rfl⟩
  · rw [Tables.isActive, Table.get?_insert hi, if_pos rfl]
    rfl
  · rw [Table.get?_insert hi, if_neg (Ne.symm ht)]

theorem updateExactRows_bind_ok_iff {ids : List String} {p : MessageRow → Bool}
    {f : MessageRow → MessageRow} {hf : ∀ m, (f m).envelopeId = m.envelopeId} {message : String} :
    (updateExactRows ids p f hf message >>= g) s = .ok b s' ↔
      s.countMessages (fun m => m.envelopeId ∈ ids ∧ p m) = ids.length ∧
        g () (s.updateMessages (fun m => m.envelopeId ∈ ids ∧ p m) f hf) = .ok b s' := by
  simp only [updateExactRows, updateRows, bind_assoc, pure_bind, query_bind_ok_iff,
    exec_bind_ok_iff, raiseIf_bind_ok_iff, not_not]

theorem insertMember?_rows {row : TurnRunMessageRow} (h : s.insertMember? row = some s') :
    s' = { s with turnRunMessages := s'.turnRunMessages } ∧
      s'.turnRunMessages.rows = s.turnRunMessages.rows ++ [row] := by
  unfold Tables.insertMember? at h
  split at h
  · cases h
  · obtain ⟨members, hi, rfl⟩ := Option.map_eq_some_iff.mp h
    exact ⟨rfl, (Table.insert?_eq_some.mp hi).2⟩

/-- The loop appends one membership row for each id, with consecutive ordinals. -/
theorem insertMembers_ok {turnId : String} {ids : List String} {first : Nat} {u : Unit}
    (h : insertMembers turnId first ids s = .ok u s') :
    s' = { s with turnRunMessages := s'.turnRunMessages } ∧
      s'.turnRunMessages.rows = s.turnRunMessages.rows ++
        ids.mapIdx (fun i e => ⟨turnId, e, first + i⟩) := by
  induction ids generalizing first s with
  | nil =>
    obtain ⟨-, rfl⟩ := pure_ok_iff.mp h
    simp
  | cons e ids ih =>
    simp only [insertMembers, tryExec_bind_ok_iff] at h
    obtain ⟨t, hi, h⟩ := h
    obtain ⟨ht, hr⟩ := insertMember?_rows hi
    obtain ⟨hs, hr'⟩ := ih h
    refine ⟨by rw [hs, ht], ?_⟩
    rw [hr', hr, List.mapIdx_cons, List.append_assoc]
    simp only [Nat.add_zero, List.singleton_append, Nat.add_assoc, Nat.add_comm 1]

theorem markNoticeDeliveredUnlocked_frame (s : Tables) (generation : Nat) (session : String)
    (ids : List String) (turnId : Option String) :
    (markNoticeDeliveredUnlocked s generation session ids turnId).2.messages = s.messages ∧
    (markNoticeDeliveredUnlocked s generation session ids turnId).2.turnRuns = s.turnRuns ∧
    (markNoticeDeliveredUnlocked s generation session ids turnId).2.turnRunMessages =
      s.turnRunMessages ∧
    (markNoticeDeliveredUnlocked s generation session ids turnId).2.channelContextState =
      s.channelContextState := by
  unfold markNoticeDeliveredUnlocked
  split_ifs <;> exact ⟨rfl, rfl, rfl, rfl⟩

end Statements

section Runs
variable {s s' t : Tables} {licence : Licence}

theorem has_then_getTurnRun {x : StoreM Unit} {licence : Tables → Licence} (h : Has licence x)
    (turnId : String) : Has licence (do let _ ← x; read (getTurnRun turnId)) := by
  refine (Does.read h fun _ s => getTurnRun turnId s).mono ?_
  rintro s - s' ⟨_, he, -⟩
  exact he

theorem Noticed.of_same (hm : s'.messages = s.messages) (hs : s'.noticeState = s.noticeState)
    (hc : s'.noticeContributions = s.noticeContributions) : Noticed s s' :=
  .silent (pendingIds_of_messages hm) hs hc

/-- A marked notice leaves the pending set alone. -/
theorem Noticed.of_mark {generation : Nat} {session : String} {ids : List String}
    {turnId : Option String} (hn : session ≠ "")
    (hm : s'.messages = s.messages)
    (hs : s'.noticeState = (markNoticeDeliveredUnlocked s generation session ids turnId).2.noticeState)
    (hc : s'.noticeContributions =
      (markNoticeDeliveredUnlocked s generation session ids turnId).2.noticeContributions) :
    Noticed s s' := .marked generation session ids turnId hn (pendingIds_of_messages hm) hs hc

theorem claimNotice_ok {noticeGeneration : Option Int} {session : Option String}
    {ids : List String} {u : Unit} (h : claimNotice noticeGeneration session ids s = .ok u s') :
    Noticed s s' ∧ s'.messages = s.messages ∧ s'.turnRuns = s.turnRuns ∧
      s'.turnRunMessages = s.turnRunMessages ∧ s'.channelContextState = s.channelContextState := by
  unfold claimNotice at h
  cases noticeGeneration with
  | none =>
    obtain ⟨-, rfl⟩ := pure_ok_iff.mp h
    exact ⟨.of_same rfl rfl rfl, rfl, rfl, rfl, rfl⟩
  | some generation =>
    cases hf : session.filter (· ≠ "") with
    | none =>
      simp only [hf] at h
      obtain ⟨-, rfl⟩ := pure_ok_iff.mp h
      exact ⟨.of_same rfl rfl rfl, rfl, rfl, rfl, rfl⟩
    | some name =>
      simp only [hf, query_bind_ok_iff, exec_bind_ok_iff, raiseIf_ok_iff] at h
      obtain ⟨-, rfl⟩ := h
      have hne : name ≠ "" := by simpa using (Option.filter_eq_some_iff.mp hf).2
      obtain ⟨fm, fr, fx, fc⟩ := markNoticeDeliveredUnlocked_frame s generation.toNat name ids none
      exact ⟨.of_mark hne fm rfl rfl, fm, fr, fx, fc⟩

theorem Noticed.congr (h : Noticed s t) (hm : s'.messages = t.messages)
    (hs : s'.noticeState = t.noticeState)
    (hc : s'.noticeContributions = t.noticeContributions) : Noticed s s' := by
  have hp := pendingIds_of_messages hm
  cases h with
  | silent p st c => exact .silent (hp.trans p) (hs.trans st) (hc.trans c)
  | refreshed now act u st c p p' st' c' =>
    exact .refreshed now act u st c p (hp.trans p') (hs.trans st') (hc.trans c')
  | marked generation session ids turnId named p st c =>
    exact .marked generation session ids turnId named (hp.trans p) (hs.trans st) (hc.trans c)
  | released session q named p c st =>
    exact .released session q named (hp.trans p) (hc.trans c) (hs.trans st)

theorem startTurn_has (turnId : String) (session : Option String) (startedAt : Option Int)
    (noticeGeneration : Option Int) (ids : List String) (now : Int) :
    Has (fun _ => {}) (startTurn turnId session startedAt noticeGeneration ids now) := by
  refine Does.raiseIf fun _ => Does.raiseIf fun _ => has_then_getTurnRun (has_transaction ?_) turnId
  intro s u s' h
  obtain ⟨_, t, hc, h⟩ := bind_ok_iff.mp h
  obtain ⟨_, t', hi, h⟩ := bind_ok_iff.mp h
  obtain ⟨-, rfl⟩ := pure_ok_iff.mp h
  obtain ⟨hn, fm, fr, fx, fc⟩ := claimNotice_ok hc
  obtain ⟨hfree, hact, hruns, hrest⟩ := insertTurnRun_ok hi
  rw [fr] at hfree hruns
  rw [hrest] at hact hruns ⊢
  exact ⟨.opened turnId hfree hact fm hruns fx, hn.congr rfl rfl rfl, Licence.context_of_eq _ fc⟩

theorem isMember_iff {turnId envelopeId : String} :
    s.isMember turnId envelopeId ↔ envelopeId ∈ (s.members turnId).map (·.envelopeId) := by
  simp only [Tables.isMember, Tables.members, Table.select, List.mem_map, List.mem_filter,
    decide_eq_true_eq]
  constructor
  · rintro ⟨r, hr, ht, he⟩
    exact ⟨r, ⟨hr, ht⟩, he⟩
  · rintro ⟨r, ⟨hr, ht⟩, he⟩
    exact ⟨r, hr, ht, he⟩

theorem mem_turnMessageIds {turnId envelopeId : String} :
    envelopeId ∈ turnMessageIds s turnId ↔ s.isMember turnId envelopeId := by
  rw [isMember_iff, turnMessageIds]
  simp only [List.mem_map, List.mem_insertionSort]

theorem finalizeEmptyTurn_has (turnId : String) (state : TurnState) (now : Int) :
    Has (fun _ => {}) (finalizeEmptyTurn turnId state now) := by
  refine Does.raiseIf fun hst => has_then_getTurnRun (has_transaction ?_) turnId
  intro s u s' h
  rw [query_bind_ok_iff] at h
  obtain ⟨_, t, hu, h⟩ := bind_ok_iff.mp h
  obtain ⟨-, rfl⟩ := pure_ok_iff.mp h
  obtain ⟨⟨r, hg, hp, hg'⟩, hruns, hrest⟩ := updateTurnRun_ok hu
  simp only [decide_eq_true_eq] at hp
  have hnone (k : String) : ¬ s.isMember turnId k := by
    rw [isMember_iff, hp.2]
    exact List.not_mem_nil
  rw [hrest] at hg' ⊢
  refine ⟨.ended turnId ?_ ?_ ?_ hruns (fun k hk => absurd hk (hnone k)) (fun k _ => rfl) rfl,
    .of_same rfl rfl rfl, fun _ => .inl rfl⟩
  · simp [Tables.isActive, hg, hp.1]
  · rw [hg']
    rfl
  · simp [Tables.isActive, hg', hst]

/-- A transfer changes the session of a turn and nothing else. -/
theorem transferTurnSession_does (turnId : String) (fromSession : Option String) (toSession : String) :
    Does (fun s _ s' => s.sameRuns s' ∧ s' = { s with turnRuns := s'.turnRuns })
      (transferTurnSession turnId fromSession toSession) := by
  refine Does.raiseIf fun _ => Does.raiseIf fun _ => (Does.read (does_transaction
    (E := fun s _ s' => s.sameRuns s' ∧ s' = { s with turnRuns := s'.turnRuns }) ?_ fun s _ _ _ =>
      ⟨fun _ => rfl, rfl⟩) fun _ s => getTurnRun turnId s).mono fun s _ s' ⟨_, he, _⟩ => he
  intro s u s' h
  obtain ⟨_, t, hu, h⟩ := bind_ok_iff.mp h
  obtain ⟨-, rfl⟩ := pure_ok_iff.mp h
  obtain ⟨⟨r, hg, hp, hg'⟩, hruns, hrest⟩ := updateTurnRun_ok hu
  refine ⟨fun k => ?_, hrest⟩
  by_cases hk : k = turnId
  · rw [hk, hg', hg]
    rfl
  · rw [hruns k hk]

theorem transferTurnSession_has (turnId : String) (fromSession : Option String) (toSession : String) :
    Has (fun _ => {}) (transferTurnSession turnId fromSession toSession) := by
  refine (transferTurnSession_does turnId fromSession toSession).mono fun s _ s' ⟨runs, rest⟩ => ?_
  rw [rest] at runs ⊢
  exact ⟨.aside (fun k => rel_refl Aside.refl _) runs rfl, .of_same rfl rfl rfl, fun _ => .inl rfl⟩

theorem joinTurn_ok {ids : List String} {turnId : String} {session : Option String} {at_ : Int}
    {first : Nat} (h : joinTurn ids turnId session at_ s = .ok first s') :
    ((s.turnRuns.get? turnId = none ∧ first = 0) ∨
        (s.isActive turnId ∧ first = nextMemberOrdinal s turnId)) ∧
      s'.isActive turnId ∧ (∀ k, k ≠ turnId → s'.turnRuns.get? k = s.turnRuns.get? k) ∧
      s' = { s with turnRuns := s'.turnRuns } := by
  simp only [joinTurn, query_bind_ok_iff] at h
  cases hg : s.turnRuns.get? turnId with
  | none =>
    simp only [hg] at h
    obtain ⟨_, t, hi, h⟩ := bind_ok_iff.mp h
    obtain ⟨rfl, rfl⟩ := pure_ok_iff.mp h
    obtain ⟨-, hact, hruns, hrest⟩ := insertTurnRun_ok hi
    exact ⟨.inl ⟨rfl, rfl⟩, hact, hruns, hrest⟩
  | some run =>
    simp only [hg, query_bind_ok_iff, raiseIf_bind_ok_iff, not_not] at h
    obtain ⟨-, hst, -, h⟩ := h
    cases h
    have ha : s.isActive turnId := by rw [Tables.isActive, hg, Option.map_some, hst]
    exact ⟨.inr ⟨ha, rfl⟩, ha, fun _ _ => rfl, rfl⟩

theorem exactIds_does (ids : List String) : Does (fun s _ s' => s' = s) (exactIds ids) :=
  Does.raiseIf fun _ => does_raiseIf

theorem admitMessagesBody_effect {ids : List String} {turnId : String} {session : Option String}
    {at_ now : Int} {u : Unit} (named : "" ∉ ids)
    (h : admitMessagesBody ids turnId session at_ now s = .ok (.commit u) s') :
    Effect licence s s' := by
  simp only [admitMessagesBody, query_bind_ok_iff, raiseIf_bind_ok_iff] at h
  obtain ⟨-, h⟩ := h
  obtain ⟨first, t, hj, h⟩ := bind_ok_iff.mp h
  obtain ⟨_, t', hi, h⟩ := bind_ok_iff.mp h
  simp only [updateExactRows_bind_ok_iff, exec_bind_ok_iff, pure_ok_iff] at h
  obtain ⟨hc, -, rfl⟩ := h
  obtain ⟨hfirst, hact, hruns, hrest⟩ := joinTurn_ok hj
  obtain ⟨hrest', hmem⟩ := insertMembers_ok hi
  have hm : t'.messages = s.messages := by rw [hrest', hrest]
  have hr : t'.turnRuns = t.turnRuns := by rw [hrest']
  obtain ⟨hnodup, hpend⟩ := Table.all_of_select_length hc
  rw [hm] at hpend
  constructor
  · refine .admitted turnId ids first at_ hnodup hpend hfirst ?_ ?_ ?_ ?_ named
    · change (t'.turnRuns.get? turnId).map TurnRunRow.state = _
      rw [hr]
      exact hact
    · intro k hk
      change t'.turnRuns.get? k = _
      rw [hr]
      exact hruns k hk
    · intro k
      rw [refreshNoticeState_messages, get?_updateMessages, hm]
      refine Option.map_congr fun m hg => ?_
      have hk : m.envelopeId = k := Table.get?_key hg
      by_cases hin : k ∈ ids
      · obtain ⟨m', hg', hp⟩ := hpend k hin
        obtain rfl := Option.some.inj (hg.symm.trans hg')
        rw [if_pos (by simp [hk, hin, hp]), if_pos hin]
      · rw [if_neg (by simp [hk, hin]), if_neg hin]
    · change t'.turnRunMessages.rows = _
      rw [hmem, hrest]
  · refine .of_refresh now none ?_ (fun k => .inl ?_) (.inr ?_)
    · change t'.noticeState = _
      rw [hrest', hrest]
    · change t'.noticeContributions.get? k = _
      rw [hrest', hrest]
    · rw [← pendingIds_of_messages hm]
      apply pendingIds_map_subset rfl
      · intro m _
        split <;> rfl
      · intro m hp
        split at hp
        · simp [MessageRow.isPending, MessageRow.admitted] at hp
        · exact hp
  · refine licence.context_of_eq ?_
    change t'.channelContextState = _
    rw [hrest', hrest]

theorem admitMessages_has (ids : List String) (turnId : String) (session : Option String)
    (modelVisibleAt : Option Int) (now : Int) :
    Has (fun _ => {}) (admitMessages ids turnId session modelVisibleAt now) := by
  rw [admitMessages, exactIds, bind_assoc]
  refine Does.raiseIf fun named => Does.raiseIf fun _ => Does.raiseIf fun _ => ?_
  exact has_then_getTurnRun
    (has_transaction fun _ _ _ => admitMessagesBody_effect fun he => named (.inr he)) turnId

theorem finishTurnRun_ok {turnId message : String} {state : TurnState} {completed : Int} {u : Unit}
    (hst : state ≠ .inTurn) (h : finishTurnRun turnId state completed message s = .ok u s') :
    s.isActive turnId ∧ (s'.turnRuns.get? turnId).isSome ∧ ¬ s'.isActive turnId ∧
      (∀ k, k ≠ turnId → s'.turnRuns.get? k = s.turnRuns.get? k) ∧
      s' = { s with turnRuns := s'.turnRuns } := by
  obtain ⟨⟨r, hg, hp, hg'⟩, hruns, hrest⟩ := updateTurnRun_ok h
  refine ⟨?_, by rw [hg']; rfl, ?_, hruns, hrest⟩
  · rw [Tables.isActive, hg, Option.map_some, of_decide_eq_true hp]
  · rw [Tables.isActive, hg', Option.map_some]
    simpa using hst

/-- Rows of the turn that a statement has moved on, and the ids it was given. -/
theorem get?_update_isInTurn {ids : List String} {turnId : String} {f : MessageRow → MessageRow}
    {hf : ∀ m, (f m).envelopeId = m.envelopeId} (k : String) :
    (s.updateMessages (fun m => m.envelopeId ∈ ids ∧ m.isInTurn turnId) f hf).messages.get? k =
      (s.messages.get? k).map (fun m => if k ∈ ids ∧ m.isInTurn turnId then f m else m) := by
  rw [get?_updateMessages]
  refine Option.map_congr fun m hg => ?_
  have hk : m.envelopeId = k := Table.get?_key hg
  simp only [hk, decide_eq_true_eq]

theorem not_isPending_of_isInTurn {m : MessageRow} {turnId : String} (h : m.isInTurn turnId = true) :
    m.isPending = false := by
  simp only [MessageRow.isInTurn, decide_eq_true_eq] at h
  simp [MessageRow.isPending, h.1]

/-- Rows that leave a turn were not pending, so the pending set only grows. -/
theorem pendingIds_subset_update_isInTurn {ids : List String} {turnId : String}
    {f : MessageRow → MessageRow} {hf : ∀ m, (f m).envelopeId = m.envelopeId} :
    s.pendingIds ⊆
      (s.updateMessages (fun m => m.envelopeId ∈ ids ∧ m.isInTurn turnId) f hf).pendingIds := by
  apply pendingIds_subset_map rfl
  · intro m _
    split
    · exact hf m
    · rfl
  · intro m hp
    split
    · rename_i hd
      rw [not_isPending_of_isInTurn (of_decide_eq_true hd).2] at hp
      cases hp
    · exact hp

section Partition
variable {as bs : List String} {turnId : String} {f g : MessageRow → MessageRow}
  {hf : ∀ m, (f m).envelopeId = m.envelopeId} {hg : ∀ m, (g m).envelopeId = m.envelopeId}
  (hdisj : as.Disjoint bs)
  (hin : ∀ k ∈ as ++ bs, ∃ m, s.messages.get? k = some m ∧ m.isInTurn turnId = true)
  (hm : t.messages = ((s.updateMessages (fun m => m.envelopeId ∈ as ∧ m.isInTurn turnId) f hf
    ).updateMessages (fun m => m.envelopeId ∈ bs ∧ m.isInTurn turnId) g hg).messages)
include hm

theorem pendingIds_subset_partition : s.pendingIds ⊆ t.pendingIds := by
  rw [pendingIds_of_messages hm]
  exact pendingIds_subset_update_isInTurn.trans pendingIds_subset_update_isInTurn

include hdisj hin

/-- Both ends of a turn split its rows in two and move each part on. -/
theorem get?_partition :
    (∀ k ∈ as, ∃ m, s.messages.get? k = some m ∧ m.isInTurn turnId = true ∧
      t.messages.get? k = some (f m)) ∧
    (∀ k ∈ bs, ∃ m, s.messages.get? k = some m ∧ m.isInTurn turnId = true ∧
      t.messages.get? k = some (g m)) ∧
    ∀ k, k ∉ as ++ bs → t.messages.get? k = s.messages.get? k := by
  refine ⟨fun k hk => ?_, fun k hk => ?_, fun k hk => ?_⟩
  · obtain ⟨m, hs, hp⟩ := hin k (List.mem_append_left _ hk)
    have hm₁ : (if k ∈ as ∧ m.isInTurn turnId = true then f m else m) = f m := if_pos ⟨hk, hp⟩
    refine ⟨m, hs, hp, ?_⟩
    rw [hm, get?_update_isInTurn, get?_update_isInTurn, hs, Option.map_some, Option.map_some, hm₁,
      if_neg fun h => hdisj hk h.1]
  · obtain ⟨m, hs, hp⟩ := hin k (List.mem_append_right _ hk)
    have hm₁ : (if k ∈ as ∧ m.isInTurn turnId = true then f m else m) = m :=
      if_neg fun h => hdisj h.1 hk
    refine ⟨m, hs, hp, ?_⟩
    rw [hm, get?_update_isInTurn, get?_update_isInTurn, hs, Option.map_some, Option.map_some, hm₁,
      if_pos ⟨hk, hp⟩]
  · rw [List.mem_append, not_or] at hk
    rw [hm, get?_update_isInTurn, get?_update_isInTurn]
    cases s.messages.get? k with
    | none => rfl
    | some m =>
      have hm₁ : (if k ∈ as ∧ m.isInTurn turnId = true then f m else m) = m :=
        if_neg fun h => hk.1 h.1
      rw [Option.map_some, Option.map_some, hm₁, if_neg fun h => hk.2 h.1]

theorem ended_of_partition
    (ha : ∀ m, m.envelopeId ∈ as → m.isInTurn turnId = true → Ended licence m (f m))
    (hb : ∀ m, m.envelopeId ∈ bs → m.isInTurn turnId = true → Ended licence m (g m)) :
    (∀ k ∈ as ++ bs, ∃ m m', s.messages.get? k = some m ∧ m.isInTurn turnId ∧ Ended licence m m' ∧
      t.messages.get? k = some m') ∧
    (∀ k, k ∉ as ++ bs → t.messages.get? k = s.messages.get? k) ∧ s.pendingIds ⊆ t.pendingIds := by
  obtain ⟨left, right, others⟩ := get?_partition hdisj hin hm
  refine ⟨fun k hk => ?_, others, pendingIds_subset_partition hm⟩
  rcases List.mem_append.mp hk with hk | hk
  · obtain ⟨m, hs, hp, ht⟩ := left k hk
    have hkey : m.envelopeId = k := Table.get?_key hs
    exact ⟨m, f m, hs, hp, ha m (hkey ▸ hk) hp, ht⟩
  · obtain ⟨m, hs, hp, ht⟩ := right k hk
    have hkey : m.envelopeId = k := Table.get?_key hs
    exact ⟨m, g m, hs, hp, hb m (hkey ▸ hk) hp, ht⟩

end Partition

/-- Contributions of rows that were not pending may be dropped. -/
theorem contributions_delete {ids : List String} (h : ∀ k ∈ ids, k ∉ s.pendingIds) (k : String) :
    (s.noticeContributions.delete (·.envelopeId ∈ ids)).get? k = s.noticeContributions.get? k ∨
      ((s.noticeContributions.delete (·.envelopeId ∈ ids)).get? k = none ∧ k ∉ s.pendingIds) := by
  rw [Table.get?_delete]
  cases hg : s.noticeContributions.get? k with
  | none => exact .inl rfl
  | some c =>
    have hk : c.envelopeId = k := Table.get?_key hg
    by_cases hin : k ∈ ids
    · exact .inr ⟨by simp [Option.filter, hk, hin], h k hin⟩
    · exact .inl (by simp [Option.filter, hk, hin])

theorem not_mem_pendingIds_of_isInTurn {k turnId : String}
    (h : ∃ m, s.messages.get? k = some m ∧ m.isInTurn turnId = true) : k ∉ s.pendingIds := by
  intro hk
  obtain ⟨m, hg, hp⟩ := h
  obtain ⟨m', hg', hp'⟩ := mem_pendingIds.mp hk
  obtain rfl := Option.some.inj (hg.symm.trans hg')
  rw [not_isPending_of_isInTurn hp] at hp'
  cases hp'

/-- What a completion does to the turn and its rows. -/
structure TurnCompletion (processed renotice : List String) (turnId : String) (s s' : Tables) : Prop where
  was : s.isActive turnId
  known : (s'.turnRuns.get? turnId).isSome
  now : ¬ s'.isActive turnId
  runs : ∀ t, t ≠ turnId → s'.turnRuns.get? t = s.turnRuns.get? t
  ids : ∀ k, s.isMember turnId k ↔ k ∈ processed ++ renotice
  completed : ∀ k ∈ processed, ∃ m, s.messages.get? k = some m ∧ m.isInTurn turnId = true ∧
    ∃ at_, s'.messages.get? k = some (m.completed at_)
  renoticed : ∀ k ∈ renotice, ∃ m, s.messages.get? k = some m ∧ m.isInTurn turnId = true ∧
    s'.messages.get? k = some m.renoticed
  others : ∀ k, k ∉ processed ++ renotice → s'.messages.get? k = s.messages.get? k
  members : s'.turnRunMessages = s.turnRunMessages

theorem TurnCompletion.ledger {processed renotice : List String} {turnId : String}
    (h : TurnCompletion processed renotice turnId s s') : Ledger licence s s' := by
  refine .ended turnId h.was h.known h.now h.runs (fun k hk => ?_)
    (fun k hk => h.others k (mt (h.ids k).mpr hk)) h.members
  rcases List.mem_append.mp ((h.ids k).mp hk) with hk | hk
  · obtain ⟨m, hs, hp, at_, hs'⟩ := h.completed k hk
    exact ⟨m, _, hs, hp, .completed m at_, hs'⟩
  · obtain ⟨m, hs, hp, hs'⟩ := h.renoticed k hk
    exact ⟨m, _, hs, hp, .renoticed m, hs'⟩

theorem completeTurnBody_commits {processed renotice : List String} {turnId : String} {completed now : Int}
    {session : Option String} {finish : Finish Unit}
    (h : completeTurnBody processed renotice turnId completed session now s = .ok finish s') :
    ∃ u, finish = .commit u := by
  simp only [completeTurnBody, query_bind_ok_iff, raiseIf_bind_ok_iff] at h
  obtain ⟨-, -, -, h⟩ := h
  obtain ⟨-, t₁, -, h⟩ := bind_ok_iff.mp h
  obtain ⟨-, t₂, -, h⟩ := bind_ok_iff.mp h
  obtain ⟨-, t₃, -, h⟩ := bind_ok_iff.mp h
  simp only [exec_bind_ok_iff, pure_ok_iff] at h
  exact ⟨_, h.1.symm⟩

theorem completeTurnBody_ok {processed renotice : List String} {turnId : String}
    {completed now : Int} {session : Option String} {u : Unit}
    (h : completeTurnBody processed renotice turnId completed session now s = .ok (.commit u) s') :
    TurnCompletion processed renotice turnId s s' ∧ Noticed s s' ∧
      s'.channelContextState = s.channelContextState := by
  simp only [completeTurnBody, renoticeRows, query_bind_ok_iff, raiseIf_bind_ok_iff,
    updateExactRows_bind_ok_iff, bind_assoc, exec_bind_ok_iff, not_or, not_not] at h
  obtain ⟨-, ⟨-, hids⟩, hc, -, -, h⟩ := h
  obtain ⟨_, t, hfin, h⟩ := bind_ok_iff.mp h
  simp only [exec_bind_ok_iff, pure_ok_iff] at h
  obtain ⟨-, rfl⟩ := h
  obtain ⟨hact, hknown, hnow, hruns, hrest⟩ := finishTurnRun_ok (by decide) hfin
  obtain ⟨hnodup, hin⟩ := Table.all_of_select_length hc
  have hdisj := List.disjoint_of_nodup_append hnodup
  obtain ⟨hprocessed, hrenoticed, hothers⟩ := get?_partition (t := t) hdisj hin (by rw [hrest])
  have hpending := pendingIds_subset_partition (s := s) (t := t) (by rw [hrest])
  refine ⟨⟨hact, hknown, hnow, hruns, fun k => ?_, fun k hk => ?_, hrenoticed, hothers, ?_⟩, ?_, ?_⟩
  · rw [← mem_turnMessageIds, ← List.mem_toFinset, hids, List.mem_toFinset]
  · obtain ⟨m, hs, hp, ht⟩ := hprocessed k hk
    exact ⟨m, hs, hp, completed, ht⟩
  · rw [refreshNoticeState_turnRunMessages, hrest]
    rfl
  · refine .of_refresh now none (by rw [hrest]; rfl) ?_ (.inl hpending)
    rw [hrest]
    exact contributions_delete fun k hk => not_mem_pendingIds_of_isInTurn
      (hin k (List.mem_append_right _ hk))
  · change t.channelContextState = _
    rw [hrest]
    rfl

theorem completeTurnBody_effect {processed renotice : List String} {turnId : String}
    {completed now : Int} {session : Option String} {u : Unit}
    (h : completeTurnBody processed renotice turnId completed session now s = .ok (.commit u) s') :
    Effect licence s s' := by
  obtain ⟨completion, noticed, context⟩ := completeTurnBody_ok h
  exact ⟨completion.ledger, noticed, licence.context_of_eq context⟩

theorem completeTurn_has (processed renotice : List String) (turnId : String)
    (processedAt : Option Int) (session : Option String) (now : Int) :
    Has (fun _ => {}) (completeTurn processed renotice turnId processedAt session now) :=
  has_then_getTurnRun (has_transaction fun _ _ _ => completeTurnBody_effect) turnId

theorem markProcessed_has (ids : List String) (turnId : String) (processedAt : Option Int)
    (session : Option String) (now : Int) :
    Has (fun _ => {}) (markProcessed ids turnId processedAt session now) :=
  (exactIds_does ids).bind_of_read fun _ => completeTurn_has ids [] turnId processedAt session now

/-- The checks of `complete_turn_with_renotice` write nothing. -/
theorem completeTurnWithRenotice_does {E : Tables → Option TurnRun → Tables → Prop} {processed renotice : List String}
    {turnId : String} {session : Option String} {now : Int}
    (h : Does E (completeTurn processed renotice turnId none session now)) :
    Does E (completeTurnWithRenotice processed renotice turnId session now) := by
  have hrest : Does E (do
      raiseIf (renotice = []) (.valueError "renotice_ids must be non-empty; use mark_processed")
      exactIds renotice
      raiseIf (∃ e ∈ processed, e ∈ renotice) (conflict "processed and renotice ids overlap")
      completeTurn processed renotice turnId none session now) :=
    Does.raiseIf fun _ => (exactIds_does renotice).bind_of_read fun _ => Does.raiseIf fun _ => h
  unfold completeTurnWithRenotice
  split_ifs
  · exact hrest
  · exact (exactIds_does processed).bind_of_read fun _ => hrest

theorem completeTurnWithRenotice_has (processed renotice : List String) (turnId : String)
    (session : Option String) (now : Int) :
    Has (fun _ => {}) (completeTurnWithRenotice processed renotice turnId session now) :=
  completeTurnWithRenotice_does (completeTurn_has processed renotice turnId none session now)

theorem completeTurnRenoticeUnrenotified_has (turnId : String) (session : Option String)
    (now : Int) :
    Has (fun _ => {}) (completeTurnRenoticeUnrenotified turnId session now) := by
  refine does_read.bind_of_read fun memberIds => does_read.bind_of_read fun unrenotified => ?_
  refine (Does.read (completeTurn_has _ _ turnId none session now) fun _ _ =>
    memberIds.filter (· ∈ unrenotified.map (·.envelopeId))).mono ?_
  rintro s - s' ⟨_, he, -⟩
  exact he

/-- When the two statements together change as many rows as there are ids, every
id named a row of the turn before either ran. -/
theorem isInTurn_of_partition {as bs : List String} {turnId : String} {f : MessageRow → MessageRow}
    {hf : ∀ m, (f m).envelopeId = m.envelopeId} (hdisj : as.Disjoint bs)
    (hc : s.countMessages (fun m => m.envelopeId ∈ as ∧ m.isInTurn turnId) +
      (s.updateMessages (fun m => m.envelopeId ∈ as ∧ m.isInTurn turnId) f hf).countMessages
        (fun m => m.envelopeId ∈ bs ∧ m.isInTurn turnId) = as.length + bs.length) :
    ∀ k ∈ as ++ bs, ∃ m, s.messages.get? k = some m ∧ m.isInTurn turnId = true := by
  have hle : s.countMessages (fun m => m.envelopeId ∈ as ∧ m.isInTurn turnId) ≤ as.length :=
    Table.select_length_le as
  have hle' : (s.updateMessages (fun m => m.envelopeId ∈ as ∧ m.isInTurn turnId) f hf).countMessages
      (fun m => m.envelopeId ∈ bs ∧ m.isInTurn turnId) ≤ bs.length := Table.select_length_le bs
  have hca : s.countMessages (fun m => m.envelopeId ∈ as ∧ m.isInTurn turnId) = as.length := by omega
  have hcb : (s.updateMessages (fun m => m.envelopeId ∈ as ∧ m.isInTurn turnId) f hf).countMessages
      (fun m => m.envelopeId ∈ bs ∧ m.isInTurn turnId) = bs.length := by omega
  intro k hk
  rcases List.mem_append.mp hk with hk | hk
  · exact (Table.all_of_select_length hca).2 k hk
  · obtain ⟨m, hg, hp⟩ := (Table.all_of_select_length hcb).2 k hk
    rw [get?_update_isInTurn] at hg
    obtain ⟨m', hg', rfl⟩ := Option.map_eq_some_iff.mp hg
    rw [if_neg fun h => hdisj h.1 hk] at hp
    exact ⟨m', hg', hp⟩

/-- A requeue takes back the rows of the turn that nobody has covered. -/
def requeueLicence (ids : List String) (turnId : String) (s : Tables) : Licence where
  requeues m := m.envelopeId ∈ ids ∧ m.isInTurn turnId = true ∧
    m.envelopeId ∉ s.messageCovers.rows.map (·.coveredEnvelopeId)

theorem requeueMessagesBody_effect {ids : List String} {turnId : String} {now : Int} {u : Unit}
    (h : requeueMessagesBody ids turnId now s = .ok (.commit u) s') :
    Effect (requeueLicence ids turnId s) s s' := by
  simp only [requeueMessagesBody, updateRows, bind_assoc, pure_bind, query_bind_ok_iff,
    exec_bind_ok_iff, raiseIf_bind_ok_iff, not_or, not_not] at h
  obtain ⟨⟨-, hids⟩, hc, h⟩ := h
  obtain ⟨_, t, hfin, h⟩ := bind_ok_iff.mp h
  simp only [exec_bind_ok_iff, pure_ok_iff] at h
  obtain ⟨-, rfl⟩ := h
  obtain ⟨hact, hknown, hnow, hruns, hrest⟩ := finishTurnRun_ok (by decide) hfin
  set covered := ids.filter fun e => decide (e ∈ s.messageCovers.rows.map (·.coveredEnvelopeId))
    with hcov
  set as := ids.filter (fun e => decide (e ∈ covered)) with has
  set bs := ids.filter (fun e => decide (e ∉ covered)) with hbs
  have hdisj : as.Disjoint bs := by
    intro k ha hb
    exact of_decide_eq_true (List.mem_filter.mp hb).2 (of_decide_eq_true (List.mem_filter.mp ha).2)
  have hmember (k : String) : s.isMember turnId k ↔ k ∈ as ++ bs := by
    rw [← mem_turnMessageIds, ← List.mem_toFinset, hids, List.mem_toFinset]
    simp only [has, hbs, List.mem_append, List.mem_filter, decide_eq_true_eq]
    tauto
  have hlen : as.length + bs.length = ids.length := by
    simpa [has, hbs] using (ids.length_eq_length_filter_add (fun e => decide (e ∈ covered))).symm
  have hin := isInTurn_of_partition hdisj (hc.trans hlen.symm)
  have hback (m : MessageRow) (hb : m.envelopeId ∈ bs) (hp : m.isInTurn turnId = true) :
      Ended (requeueLicence ids turnId s) m m.requeued := by
    simp only [hbs, hcov, List.mem_filter, decide_eq_true_eq] at hb
    exact .requeued m ⟨hb.1, hp, fun hc => hb.2 ⟨hb.1, hc⟩⟩
  obtain ⟨hrows, hothers, hpending⟩ := ended_of_partition (t := t)
    hdisj hin (by rw [hrest]) (fun m _ _ => Ended.settled m now) hback
  constructor
  · refine .ended turnId hact hknown hnow hruns (fun k hk => hrows k ((hmember k).mp hk))
      (fun k hk => hothers k (mt (hmember k).mpr hk)) ?_
    rw [refreshNoticeState_turnRunMessages, hrest]
    rfl
  · refine .of_refresh now none (by rw [hrest]; rfl) (fun k => .inl ?_) (.inl hpending)
    rw [hrest]
    rfl
  · refine Licence.context_of_eq _ ?_
    change t.channelContextState = _
    rw [hrest]
    rfl

theorem requeueMessages_has (ids : List String) (turnId : String) (now : Int) :
    Has (requeueLicence ids turnId) (requeueMessages ids turnId now) :=
  (exactIds_does ids).bind_of_read fun _ =>
    has_then_getTurnRun (has_transaction fun _ _ _ => requeueMessagesBody_effect) turnId

theorem addMessageCovers_has (ids : List String) (source : CoverSource)
    (byEnvelopeId note turnId : Option String) (now : Int) :
    Has (fun _ => {}) (addMessageCovers ids source byEnvelopeId note turnId now) := by
  unfold addMessageCovers
  refine Does.ite (does_pure Effect.refl) (has_transaction ?_)
  intro s r s' h
  simp only [addMessageCoversBody, query_bind_ok_iff] at h
  split_ifs at h
  · obtain ⟨-, rfl⟩ := pure_ok_iff.mp h
    exact Effect.refl _
  · simp only [exec_bind_ok_iff, pure_ok_iff] at h
    obtain ⟨-, rfl⟩ := h
    apply Effect.of_update_refresh
    · rfl
    · exact ⟨rfl, rfl, rfl, rfl, rfl⟩
    · intro m hmem hm
      simp only [MessageRow.isShownPending, decide_eq_true_eq] at hm
      exact .covered m now hm.2.1
    · refine .inr fun m _ hp => ?_
      simp [MessageRow.isPending, MessageRow.covered] at hp

/-- The baseline the call asks for. -/
def baselineLicence (spaceId channelId : String) (seq : Int) : Licence where
  rebases row := row.key = (spaceId, channelId) ∧ row.contextBaselineSeq = seq ∧ 0 ≤ seq

theorem setContextBaseline_has (spaceId channelId : String) (seq : Int) (updatedAt : Option Int)
    (now : Int) : Has (fun _ => baselineLicence spaceId channelId seq)
      (setContextBaseline spaceId channelId seq updatedAt now) := by
  refine Does.raiseIf fun hneg => has_transaction ?_
  intro s u s' h
  simp only [exec_bind_ok_iff, pure_ok_iff] at h
  obtain ⟨-, rfl⟩ := h
  refine ⟨.aside (fun k => rel_refl Aside.refl _) (fun _ => rfl) rfl, .of_same rfl rfl rfl, ?_⟩
  intro c
  rw [Table.get?_insertOrIgnore, Table.get?_delete]
  by_cases hc : c = (spaceId, channelId)
  · have hnone : (s.channelContextState.get? c).filter
        (fun row => !decide (row.key = (spaceId, channelId))) = none := by
      rw [Option.filter_eq_none_iff]
      intro row hg
      have hk : row.key = c := Table.get?_key hg
      simp [hk, hc]
    rw [if_pos ⟨hc.symm, hnone⟩]
    exact .inr ⟨_, rfl, rfl, rfl, not_lt.mp hneg⟩
  · rw [if_neg fun h => hc h.1.symm]
    left
    cases hg : s.channelContextState.get? c with
    | none => rfl
    | some row =>
      have hk : row.key = c := Table.get?_key hg
      simp [Option.filter, hk, hc]

end Runs

section Notices

theorem markNoticeDelivered_has (generation : Int) (session : Option String)
    (messageIds : Option (List String)) (turnId : Option String) :
    Has (fun _ => {}) (markNoticeDelivered generation session messageIds turnId) := by
  unfold markNoticeDelivered
  cases session with
  | none => exact does_pure Effect.refl
  | some name =>
    by_cases hv : generation < 0 ∨ name = ""
    · simp only [if_pos hv]
      exact does_pure Effect.refl
    simp only [if_neg hv]
    refine has_transaction ?_
    intro s b s' h
    rw [query_bind_ok_iff] at h
    split_ifs at h
    · simp [pure_ok_iff] at h
    · simp only [query_bind_ok_iff, exec_bind_ok_iff, pure_ok_iff] at h
      obtain ⟨-, rfl⟩ := h
      obtain ⟨fm, fr, fx, fc⟩ := markNoticeDeliveredUnlocked_frame s generation.toNat name
        (messageIds.getD ((getPending s).map (·.envelopeId))) turnId
      refine ⟨.aside (fun k => ?_) (Tables.sameRuns_of_eq fr) fx,
        .of_mark (fun he => hv (.inr he)) fm rfl rfl, Licence.context_of_eq _ fc⟩
      rw [fm]
      exact rel_refl Aside.refl _

theorem releaseNoticeDelivery_has (session : Option String) (messageIds : Option (List String)) :
    Has (fun _ => {}) (releaseNoticeDelivery session messageIds) := by
  unfold releaseNoticeDelivery
  cases session with
  | none => exact does_pure Effect.refl
  | some name =>
    refine Does.ite (does_pure Effect.refl) (has_transaction ?_)
    intro s b s' h
    rw [query_bind_ok_iff] at h
    split_ifs at h with hs hi
    · simp [pure_ok_iff] at h
    · simp [pure_ok_iff] at h
    · simp only [query_bind_ok_iff, exec_bind_ok_iff, pure_ok_iff] at h
      obtain ⟨-, rfl⟩ := h
      have hn : s.noticeState.lastDeliveredProviderSessionId = some name := not_not.mp hs
      split_ifs with hd
      · refine ⟨.aside (fun k => rel_refl Aside.refl _) (fun _ => rfl) rfl,
          .released name _ hn rfl rfl ?_, fun _ => .inl rfl⟩
        rw [if_pos hd]
      · refine ⟨.aside (fun k => rel_refl Aside.refl _) (fun _ => rfl) rfl,
          .released name _ hn rfl rfl ?_, fun _ => .inl rfl⟩
        rw [if_neg hd]

end Notices
end PuffoAgent.Store
