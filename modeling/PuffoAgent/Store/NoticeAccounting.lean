import PuffoAgent.Store.Operations

/-! Notice accounting: the generation counter and the contribution table say the same
about which pending rows the accepting session has been told of. -/
namespace PuffoAgent.Store
open Relational Machine

/-- What the notice row and the contributions say about a set of pending ids. -/
structure NoticeInv (pending : Finset String) (state : InboxNoticeState)
    (contributions : Table NoticeContributionRow String NoticeContributionRow.envelopeId) : Prop where
  counted : state.pendingCount = pending.card
  waiting : ∀ k c, contributions.get? k = some c → k ∈ pending
  session : ∀ k c, contributions.get? k = some c →
    state.lastDeliveredProviderSessionId = some c.providerSessionId
  named : state.lastDeliveredProviderSessionId ≠ some ""
  deadline : state.firstPendingDeadlineMs.isSome ↔ pending.Nonempty
  started : pending.Nonempty → 0 < state.generation
  bound : state.lastDeliveredGeneration ≤ state.generation
  delivered : ∀ session, state.lastDeliveredProviderSessionId = some session → pending.Nonempty →
    (state.lastDeliveredGeneration = state.generation ↔
      ∀ k ∈ pending, (contributions.get? k).isSome)

def Tables.noticeInv (s : Tables) : Prop :=
  NoticeInv s.pendingIds s.noticeState s.noticeContributions

section Counting
variable {pending : Finset String} {session : String}
  {contributions : Table NoticeContributionRow String NoticeContributionRow.envelopeId}

/-- Contributions to the recorded session are as many as the pending rows exactly
when every pending row has one. -/
theorem contributedTo_eq_iff (waiting : ∀ k c, contributions.get? k = some c → k ∈ pending)
    (all : ∀ k c, contributions.get? k = some c → c.providerSessionId = session) :
    contributedTo session contributions = pending.card ↔
      ∀ k ∈ pending, (contributions.get? k).isSome := by
  rw [contributedTo, ← Table.card_keysWhere]
  have hsub : contributions.keysWhere (·.providerSessionId = session) ⊆ pending := by
    intro k hk
    obtain ⟨c, hg, -⟩ := Table.mem_keysWhere.mp hk
    exact waiting k c hg
  constructor
  · intro h k hk
    rw [← Finset.eq_of_subset_of_card_le hsub h.ge] at hk
    obtain ⟨c, hg, -⟩ := Table.mem_keysWhere.mp hk
    rw [hg]
    rfl
  · intro h
    congr 1
    refine Finset.Subset.antisymm hsub ?_
    intro k hk
    obtain ⟨c, hg⟩ := Option.isSome_iff_exists.mp (h k hk)
    exact Table.mem_keysWhere.mpr ⟨c, hg, by simpa using all k c hg⟩

end Counting

section Refresh
variable {s t : Tables} {now : Int} {activatedAt : Option Int}

theorem pendingCount_eq (t : Tables) : pendingCount t = t.pendingIds.card :=
  (Table.card_keysWhere _ _).symm

theorem pendingCount_eq_zero : pendingCount t = 0 ↔ ¬ t.pendingIds.Nonempty := by
  rw [pendingCount_eq, Finset.card_eq_zero, Finset.not_nonempty_iff_eq_empty]

/-- After a refresh exactly the contributions of pending rows are left. -/
theorem get?_refreshedContributions (t : Tables) (k : String) :
    (refreshedContributions t).get? k =
      if k ∈ t.pendingIds then t.noticeContributions.get? k else none := by
  have hmem (k : String) : k ∈ (t.messages.select (·.isPending)).map (·.envelopeId) ↔
      k ∈ t.pendingIds := by
    simp [Tables.pendingIds, Table.keysWhere]
  rw [refreshedContributions, Table.get?_delete]
  simp only [hmem]
  by_cases hz : pendingCount t = 0
  · have hk : k ∉ t.pendingIds := fun hk => pendingCount_eq_zero.mp hz ⟨k, hk⟩
    rw [if_pos hz, if_neg hk, Table.get?_empty]
    rfl
  · rw [if_neg hz]
    cases hg : t.noticeContributions.get? k with
    | none => simp
    | some c =>
      have hk : c.envelopeId = k := Table.get?_key hg
      by_cases hin : k ∈ t.pendingIds <;> simp [Option.filter, hk, hin]

section Step
variable (hs : s.noticeInv) (state : t.noticeState = s.noticeState)
  (contributions : ∀ k, t.noticeContributions.get? k = s.noticeContributions.get? k ∨
    (t.noticeContributions.get? k = none ∧ k ∉ s.pendingIds))
  (pending : s.pendingIds ⊆ t.pendingIds ∨ t.pendingIds ⊆ s.pendingIds)
include hs

include contributions in
/-- Only rows that were not pending lose their contribution, and those had none. -/
theorem get?_contributions (k : String) :
    t.noticeContributions.get? k = s.noticeContributions.get? k := by
  rcases contributions k with h | ⟨hn, hk⟩
  · exact h
  · cases hg : s.noticeContributions.get? k with
    | none => exact hn
    | some c => exact absurd (hs.waiting k c hg) hk

include state pending in
/-- One operation moves pending rows one way, so an equal count is an equal set. -/
theorem refreshedGeneration_eq : refreshedGeneration t =
    s.noticeState.generation + if t.pendingIds = s.pendingIds then 0 else 1 := by
  have heq : pendingCount t = t.noticeState.pendingCount ↔ t.pendingIds = s.pendingIds := by
    rw [state, pendingCount_eq, hs.counted]
    refine ⟨fun h => ?_, fun h => by rw [h]⟩
    rcases pending with hsub | hsub
    · exact (Finset.eq_of_subset_of_card_le hsub h.le).symm
    · exact Finset.eq_of_subset_of_card_le hsub h.ge
  rw [refreshedGeneration, state]
  simp only [← state, heq]

omit hs in
include state in
/-- A refresh catches the delivered generation up, or leaves it. -/
theorem refreshedDelivered_cases : refreshedDelivered t = refreshedGeneration t ∨
    refreshedDelivered t = s.noticeState.lastDeliveredGeneration := by
  unfold refreshedDelivered
  rw [← state]
  split
  · split
    · exact .inl rfl
    · exact .inr rfl
  · exact .inr rfl

include state in
theorem refreshedDelivered_eq {session : String}
    (hn : s.noticeState.lastDeliveredProviderSessionId = some session) :
    refreshedDelivered t =
      if 0 < pendingCount t ∧ contributedTo session (refreshedContributions t) = pendingCount t
      then refreshedGeneration t else s.noticeState.lastDeliveredGeneration := by
  have hne : session ≠ "" := fun h => hs.named (h ▸ hn)
  have hf : s.noticeState.lastDeliveredProviderSessionId.filter (· ≠ "") = some session := by
    rw [hn]
    simp [Option.filter, hne]
  unfold refreshedDelivered
  rw [state, hf]

include state contributions pending

theorem NoticeInv.refresh (now : Int) (activatedAt : Option Int) :
    NoticeInv t.pendingIds (refreshNoticeState now activatedAt t).noticeState
      (refreshedContributions t) := by
  have hgen := refreshedGeneration_eq hs state pending
  have hget (k : String) (c : NoticeContributionRow)
      (hg : (refreshedContributions t).get? k = some c) :
      k ∈ t.pendingIds ∧ s.noticeContributions.get? k = some c := by
    rw [get?_refreshedContributions] at hg
    split at hg
    · rename_i hk
      exact ⟨hk, get?_contributions hs contributions k ▸ hg⟩
    · cases hg
  have hlast : (refreshNoticeState now activatedAt t).noticeState.lastDeliveredProviderSessionId =
      s.noticeState.lastDeliveredProviderSessionId := by
    change t.noticeState.lastDeliveredProviderSessionId = _
    rw [state]
  constructor
  · exact pendingCount_eq t
  · exact fun k c hg => (hget k c hg).1
  · intro k c hg
    rw [hlast]
    exact hs.session k c (hget k c hg).2
  · rw [hlast]
    exact hs.named
  · change (refreshedDeadline now activatedAt t).isSome ↔ _
    unfold refreshedDeadline
    split_ifs with hz ho
    · simpa using pendingCount_eq_zero.mp hz
    · simpa using not_not.mp (mt pendingCount_eq_zero.mpr hz)
    · have hne := not_not.mp (mt pendingCount_eq_zero.mpr hz)
      rw [state, hs.counted, Finset.card_eq_zero, ← Finset.not_nonempty_iff_eq_empty, not_not] at ho
      rw [state]
      exact iff_of_true (hs.deadline.mpr ho) hne
  · intro hne
    change 0 < refreshedGeneration t
    rw [hgen]
    split
    · rename_i he
      exact hs.started (he ▸ hne)
    · omega
  · change refreshedDelivered t ≤ refreshedGeneration t
    rcases refreshedDelivered_cases state with h | h
    · exact h.le
    · have := hs.bound
      omega
  · intro session hn hne
    rw [hlast] at hn
    change refreshedDelivered t = refreshedGeneration t ↔ _
    have hpos : 0 < pendingCount t := by
      rw [pendingCount_eq]
      exact hne.card_pos
    have hall := contributedTo_eq_iff (fun k c hg => (hget k c hg).1)
      fun k c hg => Option.some.inj ((hs.session k c (hget k c hg).2).symm.trans hn)
    rw [← pendingCount_eq] at hall
    rw [refreshedDelivered_eq hs state hn]
    by_cases hc : contributedTo session (refreshedContributions t) = pendingCount t
    · rw [if_pos ⟨hpos, hc⟩]
      exact iff_of_true rfl (hall.mp hc)
    · rw [if_neg fun h => hc h.2]
      refine iff_of_false ?_ (mt hall.mpr hc)
      intro heq
      have hb := hs.bound
      rw [hgen] at heq
      split at heq
      · rename_i he
        refine hc (hall.mpr fun k hk => ?_)
        rw [get?_refreshedContributions, if_pos hk, get?_contributions hs contributions k]
        exact (hs.delivered session hn (he ▸ hne)).mp (by omega) k (he ▸ hk)
      · omega

end Step
end Refresh

section Mark
variable {s : Tables} {generation : Nat} {session : String} {ids : List String}

theorem get?_foldl_insertOrIgnore
    (t : Table NoticeContributionRow String NoticeContributionRow.envelopeId) (k : String) :
    (ids.foldl (fun t e => t.insertOrIgnore ⟨e, session⟩) t).get? k =
      (t.get? k).or (if k ∈ ids then some ⟨k, session⟩ else none) := by
  induction ids generalizing t with
  | nil => simp
  | cons e ids ih =>
    rw [List.foldl_cons, ih, Table.get?_insertOrIgnore]
    cases hg : t.get? k with
    | some c => simp
    | none =>
      by_cases he : e = k
      · subst he
        simp
      · simp [he, Ne.symm he]

theorem mem_stillPending {k : String} : k ∈ stillPending s ids → k ∈ s.pendingIds := by
  intro h
  simp only [stillPending, Table.select, List.mem_map, List.mem_filter, decide_eq_true_eq] at h
  obtain ⟨m, ⟨hm, -, hp⟩, rfl⟩ := h
  exact mem_pendingIds.mpr ⟨m, Table.get?_of_mem hm, hp⟩

/-- Marking pending rows as told, also from a stale snapshot, keeps the accounting. -/
theorem NoticeInv.record (hs : s.noticeInv) (named : session ≠ "")
    (hids : ∀ k ∈ ids, k ∈ s.pendingIds) (hne : ids ≠ []) :
    NoticeInv s.pendingIds (recordNotice s generation session ids).noticeState
      (contributionsAfter s session ids) := by
  have hpend : s.pendingIds.Nonempty := by
    obtain ⟨k, hk⟩ := List.exists_mem_of_ne_nil ids hne
    exact ⟨k, hids k hk⟩
  have hget (k : String) (c : NoticeContributionRow)
      (hg : (contributionsAfter s session ids).get? k = some c) :
      k ∈ s.pendingIds ∧ c.providerSessionId = session := by
    rw [contributionsAfter, get?_foldl_insertOrIgnore] at hg
    split at hg
    · rename_i hlast
      cases ho : s.noticeContributions.get? k with
      | some c₀ =>
        rw [ho, Option.some_or] at hg
        cases hg
        exact ⟨hs.waiting k c ho, Option.some.inj ((hs.session k c ho).symm.trans hlast)⟩
      | none =>
        rw [ho, Option.none_or] at hg
        split at hg
        · rename_i hk
          cases hg
          exact ⟨hids k hk, rfl⟩
        · cases hg
    · rw [Table.get?_empty, Option.none_or] at hg
      split at hg
      · rename_i hk
        cases hg
        exact ⟨hids k hk, rfl⟩
      · cases hg
  have hall := contributedTo_eq_iff (fun k c hg => (hget k c hg).1) fun k c hg => (hget k c hg).2
  have hpos := hs.started hpend
  have hmin : min generation (s.noticeState.generation - 1) < s.noticeState.generation :=
    lt_of_le_of_lt (min_le_right _ _) (by omega)
  constructor
  · exact hs.counted
  · exact fun k c hg => (hget k c hg).1
  · exact fun k c hg => congrArg some (hget k c hg).2.symm
  · exact fun h => named (Option.some.inj h)
  · exact hs.deadline
  · exact hs.started
  · change (if _ then _ else _) ≤ s.noticeState.generation
    split
    · exact le_rfl
    · exact hmin.le
  · intro name hn _
    change (if _ then _ else _) = s.noticeState.generation ↔ _
    rw [hs.counted]
    split
    · rename_i hc
      exact iff_of_true rfl (hall.mp hc)
    · rename_i hc
      exact iff_of_false hmin.ne (mt hall.mpr hc)

theorem NoticeInv.mark {turnId : Option String} (hs : s.noticeInv) (named : session ≠ "") :
    NoticeInv s.pendingIds (markNoticeDeliveredUnlocked s generation session ids turnId).2.noticeState
      (markNoticeDeliveredUnlocked s generation session ids turnId).2.noticeContributions := by
  unfold markNoticeDeliveredUnlocked
  split_ifs with hi ht hg hn
  · exact hs
  · exact hs
  · exact hs
  · exact hs
  · exact NoticeInv.record hs named (fun k => mem_stillPending) hn

/-- Releasing evidence reopens the notice exactly when some evidence was released. -/
theorem NoticeInv.release {p : NoticeContributionRow → Bool} (hs : s.noticeInv) :
    NoticeInv s.pendingIds
      (if s.noticeContributions.select p = [] then s.noticeState
        else { s.noticeState with lastDeliveredGeneration := s.noticeState.generation - 1 })
      (s.noticeContributions.delete p) := by
  have hget (k : String) (c : NoticeContributionRow)
      (hg : (s.noticeContributions.delete p).get? k = some c) :
      s.noticeContributions.get? k = some c := by
    rw [Table.get?_delete] at hg
    exact (Option.filter_eq_some_iff.mp hg).1
  split_ifs with hd
  · have hsame : s.noticeContributions.delete p = s.noticeContributions := by
      refine Table.ext_rows (List.filter_eq_self.mpr fun c hc => ?_)
      simpa using List.filter_eq_nil_iff.mp hd c hc
    rw [hsame]
    exact hs
  · obtain ⟨c, hc⟩ := List.exists_mem_of_ne_nil _ hd
    obtain ⟨hmem, hp⟩ := List.mem_filter.mp hc
    have hgc := Table.get?_of_mem hmem
    have hpos := hs.started ⟨_, hs.waiting _ _ hgc⟩
    refine ⟨hs.counted, fun k c hg => hs.waiting k c (hget k c hg),
      fun k c hg => hs.session k c (hget k c hg), hs.named, hs.deadline, hs.started, ?_, ?_⟩
    · change s.noticeState.generation - 1 ≤ s.noticeState.generation
      omega
    · intro session _ _
      change s.noticeState.generation - 1 = s.noticeState.generation ↔ _
      refine iff_of_false (by omega) fun h => ?_
      have hsome := h c.envelopeId (hs.waiting _ _ hgc)
      rw [Table.get?_delete, hgc] at hsome
      simp [Option.filter, hp] at hsome

end Mark

section Runs
variable {s s' : Tables}

theorem Noticed.noticeInv (h : Noticed s s') (hs : s.noticeInv) : s'.noticeInv := by
  unfold Tables.noticeInv
  cases h with
  | silent pending state contributions =>
    rw [pending, state, contributions]
    exact hs
  | refreshed now activatedAt t state contributions pending pending' state' contributions' =>
    rw [pending', state', contributions']
    exact NoticeInv.refresh hs state contributions pending now activatedAt
  | marked generation session ids turnId named pending state contributions =>
    rw [pending, state, contributions]
    exact NoticeInv.mark hs named
  | released session p named pending contributions state =>
    rw [pending, state, contributions]
    exact NoticeInv.release hs

theorem Noticed.generation_le (h : Noticed s s') :
    s.noticeState.generation ≤ s'.noticeState.generation := by
  cases h with
  | silent pending state => rw [state]
  | refreshed now activatedAt t state contributions pending pending' state' =>
    rw [state', ← state]
    exact Nat.le_add_right _ _
  | marked generation session ids turnId named pending state =>
    rw [state]
    unfold markNoticeDeliveredUnlocked
    split_ifs <;> exact le_rfl
  | released session p named pending contributions state =>
    rw [state]
    split_ifs <;> exact le_rfl

theorem noticeInv_run (ops : List Op) : (run step Tables.empty ops).noticeInv := by
  refine run_invariant ?_ (fun s op hs => (step_effect s op).noticed.noticeInv hs) ops
  have hp : Tables.empty.pendingIds = ∅ := rfl
  unfold Tables.noticeInv
  rw [hp]
  constructor <;> simp [Tables.empty]

theorem generation_run (s : Tables) (ops : List Op) :
    s.noticeState.generation ≤ (run step s ops).noticeState.generation := by
  induction ops generalizing s with
  | nil => exact le_rfl
  | cons op ops ih => exact ((step_effect s op).noticed.generation_le).trans (ih (step s op))

/-- In every reachable state contributions belong to pending rows and to the session
recorded last, the deadline is set exactly while rows wait, generations only grow, and
the recorded generation is current exactly when every waiting row was told. -/
theorem inbox_notice_accounting (ops : List Op) :
    (∀ c ∈ (run step Tables.empty ops).noticeContributions.rows,
      c.envelopeId ∈ (run step Tables.empty ops).pendingIds ∧
      (run step Tables.empty ops).noticeState.lastDeliveredProviderSessionId =
        some c.providerSessionId) ∧
    ((run step Tables.empty ops).noticeState.firstPendingDeadlineMs.isSome ↔
      (run step Tables.empty ops).pendingIds.Nonempty) ∧
    (∀ ops', (run step Tables.empty ops).noticeState.generation ≤
      (run step Tables.empty (ops ++ ops')).noticeState.generation) ∧
    (∀ session, (run step Tables.empty ops).pendingIds.Nonempty →
      (run step Tables.empty ops).noticeState.lastDeliveredProviderSessionId = some session →
      ((run step Tables.empty ops).noticeState.lastDeliveredGeneration =
          (run step Tables.empty ops).noticeState.generation ↔
        ∀ k ∈ (run step Tables.empty ops).pendingIds,
          (⟨k, session⟩ : NoticeContributionRow) ∈
            (run step Tables.empty ops).noticeContributions.rows)) := by
  have hs := noticeInv_run ops
  refine ⟨fun c hc => ?_, hs.deadline, fun ops' => ?_, fun session hne hn => ?_⟩
  · have hg := Table.get?_of_mem hc
    exact ⟨hs.waiting _ _ hg, hs.session _ _ hg⟩
  · rw [run_append]
    exact generation_run _ ops'
  · rw [hs.delivered session hn hne]
    refine forall₂_congr fun k hk => ⟨fun h => ?_, fun h => ?_⟩
    · obtain ⟨c, hg⟩ := Option.isSome_iff_exists.mp h
      have hkey : c.envelopeId = k := Table.get?_key hg
      have hsession := Option.some.inj ((hs.session k c hg).symm.trans hn)
      rw [← hkey, ← hsession]
      exact Table.mem_of_get? hg
    · have hg := Table.get?_of_mem h
      exact Option.isSome_of_mem hg

end Runs
end PuffoAgent.Store
