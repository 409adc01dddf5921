import PuffoAgent.Store.Operations

/-! Turn ownership: the rows a turn holds, its membership rows and its run agree in
every reachable state. -/
namespace PuffoAgent.Store
open Relational Machine

/-- Only a row in a turn, or one that a turn has completed, names a turn. -/
structure MessageRow.Owned (m : MessageRow) : Prop where
  waiting : m.processingState = some .pending ∨ m.processingState = none → m.processingTurnId = none
  owned : m.processingState = some .inTurn → m.processingTurnId.isSome

/-- The turn holds the message. -/
def Tables.holds (s : Tables) (turnId envelopeId : String) : Prop :=
  ∃ m, s.messages.get? envelopeId = some m ∧ m.isInTurn turnId = true

structure Ownership (s : Tables) : Prop where
  holds : ∀ t k, s.holds t k ↔ s.isActive t ∧ s.isMember t k
  known : ∀ t k, s.isMember t k → (s.turnRuns.get? t).isSome
  ordinals : ∀ t, (s.members t).map (·.ordinal) = List.range (s.members t).length

section Rows
variable {licence : Licence} {m m' : MessageRow} {turnId : String}

theorem isInTurn_iff :
    m.isInTurn turnId = true ↔ m.processingState = some .inTurn ∧ m.processingTurnId = some turnId :=
  decide_eq_true_iff

theorem Aside.owned (h : Aside licence m m') (hm : m.Owned) : m'.Owned := by
  cases h with
  | rethreaded | sequenced | gated | backfilled | classified | denied => exact ⟨hm.waiting, hm.owned⟩
  | releasedLocal _ _ _ _ _ _ hg =>
    simp only [MessageRow.isGated, decide_eq_true_eq, Option.isNone_iff_eq_none] at hg
    exact ⟨fun _ => hm.waiting (.inr hg.2), by simp⟩
  | released _ _ _ _ hg =>
    simp only [MessageRow.isGated, decide_eq_true_eq, Option.isNone_iff_eq_none] at hg
    exact ⟨fun _ => hm.waiting (.inr hg.2), by simp⟩
  | quarantined => exact ⟨fun _ => rfl, by simp⟩
  | covered => exact ⟨fun _ => rfl, by simp [MessageRow.covered]⟩

/-- A move aside neither takes a row into a turn nor out of one. -/
theorem Aside.isInTurn (h : Aside licence m m') : m'.isInTurn turnId = m.isInTurn turnId := by
  cases h with
  | rethreaded | sequenced | gated | backfilled | classified | denied => rfl
  | releasedLocal _ _ _ _ _ _ hg =>
    simp only [MessageRow.isGated, decide_eq_true_eq, Option.isNone_iff_eq_none] at hg
    simp [MessageRow.isInTurn, hg.2]
  | released _ _ _ _ hg =>
    simp only [MessageRow.isGated, decide_eq_true_eq, Option.isNone_iff_eq_none] at hg
    simp [MessageRow.isInTurn, hg.2]
  | quarantined _ hp =>
    simp only [MessageRow.isPending, decide_eq_true_eq] at hp
    simp [MessageRow.isInTurn, hp]
  | covered _ hp =>
    simp only [MessageRow.isPending, decide_eq_true_eq] at hp
    simp [MessageRow.isInTurn, MessageRow.covered, hp]

theorem Ended.owned (h : Ended licence m m') : m'.Owned := by
  cases h with
  | completed => exact ⟨by simp [MessageRow.completed], by simp [MessageRow.completed]⟩
  | renoticed => exact ⟨fun _ => rfl, by simp [MessageRow.renoticed]⟩
  | settled => exact ⟨fun _ => rfl, by simp [MessageRow.settled]⟩
  | requeued => exact ⟨fun _ => rfl, by simp [MessageRow.requeued]⟩

theorem Ended.not_isInTurn (h : Ended licence m m') : m'.isInTurn turnId = false := by
  cases h <;> simp [MessageRow.isInTurn, MessageRow.completed, MessageRow.renoticed,
    MessageRow.settled, MessageRow.requeued]

theorem Arrival.owned (h : Arrival m) : m.Owned := by
  refine ⟨fun _ => h.turn, fun hp => ?_⟩
  rcases h.listed with hn | hl
  · rw [hn] at hp
    cases hp
  · simp [MessageRow.isListed, MessageRow.isPending, hp] at hl

theorem Arrival.not_isInTurn (h : Arrival m) : m.isInTurn turnId = false := by
  simp [MessageRow.isInTurn, h.turn]

end Rows

section Holding
variable {licence : Licence} {s s' : Tables}

theorem holds_of_rel {k : String}
    (h : Option.Rel (Aside licence) (s.messages.get? k) (s'.messages.get? k)) (t : String) :
    s'.holds t k ↔ s.holds t k := by
  constructor
  · rintro ⟨m', hg, hp⟩
    obtain ⟨m, hs, ha⟩ := rel_some_right (hg ▸ h)
    exact ⟨m, hs, ha.isInTurn ▸ hp⟩
  · rintro ⟨m, hg, hp⟩
    obtain ⟨m', hs, ha⟩ := rel_some_left (hg ▸ h)
    exact ⟨m', hs, ha.isInTurn.symm ▸ hp⟩

theorem isActive_of_sameRuns (h : s.sameRuns s') (t : String) : s'.isActive t ↔ s.isActive t := by
  rw [Tables.isActive, h t, Tables.isActive]

theorem known_of_sameRuns (h : s.sameRuns s') (t : String) :
    (s'.turnRuns.get? t).isSome ↔ (s.turnRuns.get? t).isSome := by
  have := congrArg Option.isSome (h t)
  simpa using this

theorem members_of_eq (h : s'.turnRunMessages = s.turnRunMessages) (t : String) :
    s'.members t = s.members t := by
  rw [Tables.members, h, Tables.members]

theorem isMember_of_eq (h : s'.turnRunMessages = s.turnRunMessages) (t k : String) :
    s'.isMember t k ↔ s.isMember t k := by
  rw [Tables.isMember, h, Tables.isMember]

/-- The frame: no row changes hands, no turn changes state, no membership changes. -/
theorem Ownership.frame (hs : Ownership s) (holds : ∀ t k, s'.holds t k ↔ s.holds t k)
    (runs : s.sameRuns s') (members : s'.turnRunMessages = s.turnRunMessages) : Ownership s' where
  holds t k := by
    rw [holds, hs.holds, isActive_of_sameRuns runs, isMember_of_eq members]
  known t k h := by
    rw [known_of_sameRuns runs]
    exact hs.known t k ((isMember_of_eq members t k).mp h)
  ordinals t := by
    rw [members_of_eq members]
    exact hs.ordinals t

theorem Ownership.arrived (hs : Ownership s) {m : MessageRow} (shape : Arrival m)
    (free : s.messages.get? m.envelopeId = none) (stored : s'.messages.get? m.envelopeId = some m)
    (rows : ∀ k, k ≠ m.envelopeId →
      Option.Rel (Aside licence) (s.messages.get? k) (s'.messages.get? k))
    (runs : s.sameRuns s') (members : s'.turnRunMessages = s.turnRunMessages) : Ownership s' := by
  refine hs.frame (fun t k => ?_) runs members
  by_cases hk : k = m.envelopeId
  · simp [Tables.holds, hk, stored, free, shape.not_isInTurn]
  · exact holds_of_rel (rows k hk) t

theorem Ownership.swept (hs : Ownership s) {cutoff : Int}
    (rows : s'.messages = s.messages.delete (·.isExpired cutoff)) (runs : s.sameRuns s')
    (members : s'.turnRunMessages = s.turnRunMessages) : Ownership s' := by
  have hget (k : String) (m : MessageRow) : s'.messages.get? k = some m ↔
      s.messages.get? k = some m ∧ m.isExpired cutoff = false := by
    rw [rows, Table.get?_delete, Option.filter_eq_some_iff, Bool.not_eq_true']
  refine hs.frame (fun t k => ?_) runs members
  constructor
  · rintro ⟨m, hg, hp⟩
    exact ⟨m, ((hget k m).mp hg).1, hp⟩
  · rintro ⟨m, hg, hp⟩
    refine ⟨m, (hget k m).mpr ⟨hg, ?_⟩, hp⟩
    simp [MessageRow.isExpired, (isInTurn_iff.mp hp).1]

theorem Ownership.opened (hs : Ownership s) {turnId : String}
    (free : s.turnRuns.get? turnId = none) (messages : s'.messages = s.messages)
    (runs : ∀ t, t ≠ turnId → s'.turnRuns.get? t = s.turnRuns.get? t)
    (members : s'.turnRunMessages = s.turnRunMessages) : Ownership s' := by
  have hnone (k : String) : ¬ s.isMember turnId k := by
    intro h
    have := hs.known turnId k h
    simp [free] at this
  refine ⟨fun t k => ?_, fun t k h => ?_, fun t => ?_⟩
  · have hh : s'.holds t k ↔ s.holds t k := by rw [Tables.holds, messages, Tables.holds]
    rw [hh, hs.holds, isMember_of_eq members]
    by_cases ht : t = turnId
    · simp [ht, hnone k]
    · rw [Tables.isActive, Tables.isActive, runs t ht]
  · rw [isMember_of_eq members] at h
    have ht : t ≠ turnId := fun ht => hnone k (ht ▸ h)
    rw [runs t ht]
    exact hs.known t k h
  · rw [members_of_eq members]
    exact hs.ordinals t

theorem Ownership.ended (hs : Ownership s) {turnId : String}
    (known : (s'.turnRuns.get? turnId).isSome) (now : ¬ s'.isActive turnId)
    (runs : ∀ t, t ≠ turnId → s'.turnRuns.get? t = s.turnRuns.get? t)
    (rows : ∀ k, s.isMember turnId k → ∃ m m', s.messages.get? k = some m ∧ m.isInTurn turnId ∧
      Ended licence m m' ∧ s'.messages.get? k = some m')
    (others : ∀ k, ¬ s.isMember turnId k → s'.messages.get? k = s.messages.get? k)
    (members : s'.turnRunMessages = s.turnRunMessages) : Ownership s' := by
  refine ⟨fun t k => ?_, fun t k h => ?_, fun t => ?_⟩
  · rw [isMember_of_eq members]
    by_cases hk : s.isMember turnId k
    · obtain ⟨m, m', hg, hp, he, hg'⟩ := rows k hk
      have hno : ¬ s'.holds t k := by simp [Tables.holds, hg', he.not_isInTurn]
      refine ⟨fun h => absurd h hno, fun ⟨ha, hm⟩ => ?_⟩
      have ht : t ≠ turnId := fun ht => now (ht ▸ ha)
      rw [Tables.isActive, runs t ht] at ha
      obtain ⟨m₁, hg₁, hp₁⟩ := (hs.holds t k).mpr ⟨ha, hm⟩
      obtain rfl := Option.some.inj (hg.symm.trans hg₁)
      have he₁ := (isInTurn_iff.mp hp).2.symm.trans (isInTurn_iff.mp hp₁).2
      exact absurd (Option.some.inj he₁).symm ht
    · have hh : s'.holds t k ↔ s.holds t k := by rw [Tables.holds, others k hk, Tables.holds]
      rw [hh, hs.holds]
      by_cases ht : t = turnId
      · subst ht
        simp [hk]
      · rw [Tables.isActive, Tables.isActive, runs t ht]
  · rw [isMember_of_eq members] at h
    by_cases ht : t = turnId
    · rw [ht]
      exact known
    · rw [runs t ht]
      exact hs.known t k h
  · rw [members_of_eq members]
    exact hs.ordinals t

/-- With ordinals `0, 1, ...` the next ordinal is the number of members. -/
theorem nextMemberOrdinal_eq {t : String}
    (h : (s.members t).map (·.ordinal) = List.range (s.members t).length) :
    nextMemberOrdinal s t = (s.members t).length := by
  have hr (n : Nat) : (List.range n).foldl (fun a b => max a (b + 1)) 0 = n := by
    induction n with
    | zero => rfl
    | succ n ih => rw [List.range_succ, List.foldl_append, ih]; simp
  calc nextMemberOrdinal s t
      = ((s.members t).map (·.ordinal)).foldl (fun a b => max a (b + 1)) 0 := by
        rw [nextMemberOrdinal, List.foldl_map]
    _ = (s.members t).length := by rw [h, hr]

section Admission
variable {turnId : String} {ids : List String} {first : Nat}
  (members : s'.turnRunMessages.rows = s.turnRunMessages.rows ++
    ids.mapIdx (fun i e => ⟨turnId, e, first + i⟩))
include members

theorem isMember_admitted (t k : String) :
    s'.isMember t k ↔ s.isMember t k ∨ (t = turnId ∧ k ∈ ids) := by
  simp only [Tables.isMember, members, List.mem_append, List.mem_mapIdx]
  constructor
  · rintro ⟨r, hr | ⟨i, hi, rfl⟩, rfl, rfl⟩
    · exact .inl ⟨r, hr, rfl, rfl⟩
    · exact .inr ⟨rfl, List.getElem_mem hi⟩
  · rintro (⟨r, hr, ht, hk⟩ | ⟨rfl, hk⟩)
    · exact ⟨r, .inl hr, ht, hk⟩
    · obtain ⟨i, hi, rfl⟩ := List.getElem_of_mem hk
      exact ⟨_, .inr ⟨i, hi, rfl⟩, rfl, rfl⟩

theorem members_admitted (t : String) :
    s'.members t = s.members t ++
      if t = turnId then ids.mapIdx (fun i e => ⟨turnId, e, first + i⟩) else [] := by
  simp only [Tables.members, Table.select, members, List.filter_append]
  congr 1
  split
  · rename_i ht
    rw [List.filter_eq_self]
    intro r hr
    obtain ⟨i, hi, rfl⟩ := List.mem_mapIdx.mp hr
    simp [ht]
  · rename_i ht
    rw [List.filter_eq_nil_iff]
    intro r hr
    obtain ⟨i, hi, rfl⟩ := List.mem_mapIdx.mp hr
    simpa using Ne.symm ht

end Admission

theorem Ownership.admitted (hs : Ownership s) {turnId : String} {ids : List String} {first : Nat}
    {at_ : Int} (pending : ∀ e ∈ ids, ∃ m, s.messages.get? e = some m ∧ m.isPending)
    (run : (s.turnRuns.get? turnId = none ∧ first = 0) ∨
      (s.isActive turnId ∧ first = nextMemberOrdinal s turnId))
    (active : s'.isActive turnId)
    (runs : ∀ t, t ≠ turnId → s'.turnRuns.get? t = s.turnRuns.get? t)
    (rows : ∀ k, s'.messages.get? k =
      (s.messages.get? k).map (fun m => if k ∈ ids then m.admitted turnId at_ else m))
    (members : s'.turnRunMessages.rows = s.turnRunMessages.rows ++
      ids.mapIdx (fun i e => ⟨turnId, e, first + i⟩)) : Ownership s' := by
  have hfree (h : s.turnRuns.get? turnId = none) (k : String) : ¬ s.isMember turnId k := by
    intro hm
    have := hs.known turnId k hm
    simp [h] at this
  refine ⟨fun t k => ?_, fun t k h => ?_, fun t => ?_⟩
  · rw [isMember_admitted members]
    by_cases hk : k ∈ ids
    · obtain ⟨m, hg, hp⟩ := pending k hk
      have hno : ¬ s.holds t k := by
        rintro ⟨m₁, hg₁, hp₁⟩
        obtain rfl := Option.some.inj (hg.symm.trans hg₁)
        rw [not_isPending_of_isInTurn hp₁] at hp
        cases hp
      have hh : s'.holds t k ↔ turnId = t := by
        simp [Tables.holds, rows, hg, hk, isInTurn_iff, MessageRow.admitted]
      rw [hh]
      by_cases ht : t = turnId
      · simp [ht, hk, active]
      · have ha : s'.isActive t ↔ s.isActive t := by rw [Tables.isActive, runs t ht, Tables.isActive]
        rw [hs.holds, ← ha] at hno
        simpa [ht, Ne.symm ht] using hno
    · have hh : s'.holds t k ↔ s.holds t k := by simp [Tables.holds, rows, hk]
      rw [hh, hs.holds]
      by_cases ht : t = turnId
      · subst ht
        rcases run with ⟨hn, -⟩ | ⟨ha, -⟩
        · simp [hfree hn, hk]
        · simp [ha, active, hk]
      · rw [Tables.isActive, Tables.isActive, runs t ht]
        simp [ht]
  · rcases (isMember_admitted members t k).mp h with h | ⟨rfl, -⟩
    · by_cases ht : t = turnId
      · rw [ht]
        exact Option.isSome_of_mem (Option.map_eq_some_iff.mp active).choose_spec.1
      · rw [runs t ht]
        exact hs.known t k h
    · exact Option.isSome_of_mem (Option.map_eq_some_iff.mp active).choose_spec.1
  · rw [members_admitted members]
    split
    · rename_i ht
      subst ht
      have hfirst : first = (s.members t).length := by
        rcases run with ⟨hn, rfl⟩ | ⟨-, rfl⟩
        · have : s.members t = [] := by
            rw [List.eq_nil_iff_forall_not_mem]
            intro r hr
            exact hfree hn r.envelopeId (isMember_iff.mpr (List.mem_map_of_mem hr))
          rw [this]
          rfl
        · exact nextMemberOrdinal_eq (hs.ordinals t)
      rw [List.map_append, hs.ordinals, List.length_append, List.length_mapIdx, List.range_add, hfirst]
      congr 1
      refine List.ext_getElem (by simp) fun i h₁ h₂ => by simp
    · rw [List.append_nil]
      exact hs.ordinals t

/-- One step keeps the ownership invariant, whichever effect it has. -/
theorem Ledger.ownership (h : Ledger licence s s') (hs : Ownership s) : Ownership s' := by
  cases h with
  | aside rows runs members =>
    exact hs.frame (fun t k => holds_of_rel (rows k) t) runs members
  | arrived m shape filed free stored rows runs members =>
    exact hs.arrived shape free stored rows runs members
  | swept cutoff rows runs members => exact hs.swept rows runs members
  | opened turnId free active messages runs members => exact hs.opened free messages runs members
  | admitted turnId ids first at_ nodup pending run active runs rows members =>
    exact hs.admitted pending run active runs rows members
  | ended turnId was known now runs rows others members =>
    exact hs.ended known now runs rows others members

end Holding

section Turns
variable {licence : Licence} {s s' : Tables} {m m' : MessageRow} {t k : String}

/-- A row that stays in its turn keeps its one redelivery. -/
theorem Moved.unspent (h : Moved licence m m') (hin : m'.isInTurn t = true) (hr : m.renotified = false) :
    m'.renotified = false := by
  cases h with
  | aside ha => cases ha <;> exact hr
  | admitted => exact hr
  | ended t' hp he =>
    rw [he.not_isInTurn] at hin
    cases hin

/-- A turn on record stays on record, and is never active again once it has ended. -/
theorem Ledger.run_kept (h : Ledger licence s s') (hk : (s.turnRuns.get? t).isSome) :
    (s'.turnRuns.get? t).isSome ∧ (s'.isActive t → s.isActive t) := by
  have same (hr : s'.turnRuns.get? t = s.turnRuns.get? t) :
      (s'.turnRuns.get? t).isSome ∧ (s'.isActive t → s.isActive t) := by
    rw [Tables.isActive, Tables.isActive, hr]
    exact ⟨hk, id⟩
  have busy {t' : String} (ha : s'.isActive t') : (s'.turnRuns.get? t').isSome := by
    obtain ⟨run, hr, -⟩ := Option.map_eq_some_iff.mp ha
    simp [hr]
  cases h with
  | aside _ runs => exact ⟨(known_of_sameRuns runs t).mpr hk, (isActive_of_sameRuns runs t).mp⟩
  | arrived _ _ _ _ _ _ runs => exact ⟨(known_of_sameRuns runs t).mpr hk, (isActive_of_sameRuns runs t).mp⟩
  | swept _ _ runs => exact ⟨(known_of_sameRuns runs t).mpr hk, (isActive_of_sameRuns runs t).mp⟩
  | opened turnId free active _ runs =>
    by_cases ht : t = turnId
    · simp [ht, free] at hk
    · exact same (runs t ht)
  | admitted turnId ids first at_ nodup pending run active runs =>
    by_cases ht : t = turnId
    · rcases run with ⟨free, -⟩ | ⟨was, -⟩
      · simp [ht, free] at hk
      · exact ⟨ht ▸ busy active, fun _ => ht ▸ was⟩
    · exact same (runs t ht)
  | ended turnId was known now runs =>
    by_cases ht : t = turnId
    · exact ⟨ht ▸ known, fun ha => absurd (ht ▸ ha) now⟩
    · exact same (runs t ht)

theorem Ledger.isMember (h : Ledger licence s s') (hm : s.isMember t k) : s'.isMember t k := by
  cases h with
  | aside _ _ members => exact (isMember_of_eq members t k).mpr hm
  | arrived _ _ _ _ _ _ _ members => exact (isMember_of_eq members t k).mpr hm
  | swept _ _ _ members => exact (isMember_of_eq members t k).mpr hm
  | opened _ _ _ _ _ members => exact (isMember_of_eq members t k).mpr hm
  | admitted _ _ _ _ _ _ _ _ _ _ members => exact (isMember_admitted members t k).mpr (.inl hm)
  | ended _ _ _ _ _ _ _ members => exact (isMember_of_eq members t k).mpr hm

end Turns

section Settled
variable {licence : Licence} {s s' : Tables} {k : String} {m : MessageRow}

theorem Aside.processed {m' : MessageRow} (h : Aside licence m m')
    (hp : m.processingState = some .processed) : m'.processingState = some .processed := by
  cases h with
  | rethreaded | sequenced | gated | backfilled | classified | denied => exact hp
  | releasedLocal _ _ _ _ _ _ hg => simp [MessageRow.isGated, hp] at hg
  | released _ _ _ _ hg => simp [MessageRow.isGated, hp] at hg
  | quarantined _ hw => simp [MessageRow.isPending, hp] at hw
  | covered => rfl

/-- A processed row stays processed, or retention deletes it. -/
theorem Ledger.processed (h : Ledger licence s s') (hg : s.messages.get? k = some m)
    (hp : m.processingState = some .processed) :
    s'.messages.get? k = none ∨
      ∃ m', s'.messages.get? k = some m' ∧ m'.processingState = some .processed := by
  cases h with
  | aside rows =>
    obtain ⟨m', hg', ha⟩ := rel_some_left (hg ▸ rows k)
    exact .inr ⟨m', hg', ha.processed hp⟩
  | arrived row shape filed free stored rows =>
    have hk : k ≠ row.envelopeId := by
      rintro rfl
      rw [free] at hg
      cases hg
    obtain ⟨m', hg', ha⟩ := rel_some_left (hg ▸ rows k hk)
    exact .inr ⟨m', hg', ha.processed hp⟩
  | swept cutoff rows =>
    rw [rows, Table.get?_delete, hg]
    cases he : m.isExpired cutoff with
    | true => exact .inl (by simp [Option.filter, he])
    | false => exact .inr ⟨m, by simp [Option.filter, he], hp⟩
  | opened turnId free active messages => exact .inr ⟨m, messages ▸ hg, hp⟩
  | admitted turnId ids first at_ nodup pending run active runs rows =>
    by_cases hk : k ∈ ids
    · obtain ⟨m₁, hg₁, hw⟩ := pending k hk
      obtain rfl := Option.some.inj (hg.symm.trans hg₁)
      simp [MessageRow.isPending, hp] at hw
    · exact .inr ⟨m, by rw [rows, hg, Option.map_some, if_neg hk], hp⟩
  | ended turnId was known now runs rows others =>
    by_cases hk : s.isMember turnId k
    · obtain ⟨m₁, _, hg₁, ht, -⟩ := rows k hk
      obtain rfl := Option.some.inj (hg.symm.trans hg₁)
      simp [isInTurn_iff, hp] at ht
    · exact .inr ⟨m, (others k hk).trans hg, hp⟩

theorem processed_run (ops : List Op) (hg : s.messages.get? k = some m)
    (hp : m.processingState = some .processed) :
    (∃ ops', ops' <+: ops ∧ (run step s ops').messages.get? k = none) ∨
      ∃ m', (run step s ops).messages.get? k = some m' ∧
        m'.processingState = some .processed := by
  induction ops generalizing s m with
  | nil => exact .inr ⟨m, hg, hp⟩
  | cons op ops ih =>
    rcases (step_effect s op).ledger.processed hg hp with hn | ⟨m', hg', hp'⟩
    · exact .inl ⟨[op], by simp, hn⟩
    · rcases ih hg' hp' with ⟨ops', hpre, hn⟩ | hr
      · exact .inl ⟨op :: ops', by simpa using hpre, hn⟩
      · exact .inr hr

end Settled

theorem ownership_empty : Ownership Tables.empty where
  holds t k := by simp [Tables.holds, Tables.isActive, Tables.empty]
  known t k h := by simp [Tables.isMember, Tables.empty, Table.empty] at h
  ordinals t := by simp [Tables.members, Table.select, Tables.empty, Table.empty]

theorem ownership_run (ops : List Op) : Ownership (run step Tables.empty ops) :=
  run_invariant ownership_empty (fun s op hs => (step_effect s op).ledger.ownership hs) ops

theorem owned_run (ops : List Op) : AllRows MessageRow.Owned (run step Tables.empty ops) := by
  refine run_invariant (allRows_empty _) (fun s op hs => ?_) ops
  refine (step_effect s op).ledger.allRows hs (fun m => Arrival.owned)
    (fun m m' => Aside.owned) (fun m turnId at_ _ _ => ?_) fun m m' turnId _ he _ => he.owned
  exact ⟨by simp [MessageRow.admitted], by simp [MessageRow.admitted]⟩

/-- In every reachable state a row is in a turn exactly when that turn is active and
has it as a member, waiting rows name no turn, ordinals count from zero, processed
rows stay processed while they are stored, and a call that raises changes nothing. -/
theorem inbox_turn_ownership (ops : List Op) :
    (∀ t k, (∃ m, (run step Tables.empty ops).messages.get? k = some m ∧
        m.processingState = some .inTurn ∧ m.processingTurnId = some t) ↔
      (run step Tables.empty ops).isActive t ∧ (run step Tables.empty ops).isMember t k) ∧
    (∀ t t' k, (run step Tables.empty ops).isActive t → (run step Tables.empty ops).isMember t k →
      (run step Tables.empty ops).isActive t' → (run step Tables.empty ops).isMember t' k → t = t') ∧
    (∀ k m, (run step Tables.empty ops).messages.get? k = some m →
      m.processingState = some .inTurn → ∃ t, m.processingTurnId = some t) ∧
    (∀ k m, (run step Tables.empty ops).messages.get? k = some m →
      m.processingState = some .pending → m.processingTurnId = none) ∧
    (∀ t, ((run step Tables.empty ops).members t).map (·.ordinal) =
      List.range ((run step Tables.empty ops).members t).length) ∧
    (∀ k m ops', (run step Tables.empty ops).messages.get? k = some m →
      m.processingState = some .processed →
      (∃ p, p <+: ops' ∧ (run step Tables.empty (ops ++ p)).messages.get? k = none) ∨
        ∃ m', (run step Tables.empty (ops ++ ops')).messages.get? k = some m' ∧
          m'.processingState = some .processed) ∧
    (∀ (op : Op) e c, op.perform ⟨run step Tables.empty ops, none⟩ = .error e c →
      c = ⟨run step Tables.empty ops, none⟩) := by
  have hs := ownership_run ops
  have hholds (t k : String) : (∃ m, (run step Tables.empty ops).messages.get? k = some m ∧
      m.processingState = some .inTurn ∧ m.processingTurnId = some t) ↔
      (run step Tables.empty ops).holds t k := by
    simp only [Tables.holds, isInTurn_iff]
  refine ⟨fun t k => by rw [hholds, hs.holds], ?_, ?_, ?_, hs.ordinals, ?_, fun op e c => perform_error⟩
  · intro t t' k ha hm ha' hm'
    obtain ⟨m, hg, hp⟩ := (hs.holds t k).mpr ⟨ha, hm⟩
    obtain ⟨m', hg', hp'⟩ := (hs.holds t' k).mpr ⟨ha', hm'⟩
    obtain rfl := Option.some.inj (hg.symm.trans hg')
    exact Option.some.inj ((isInTurn_iff.mp hp).2.symm.trans (isInTurn_iff.mp hp').2)
  · intro k m hg hp
    exact Option.isSome_iff_exists.mp ((owned_run ops k m hg).owned hp)
  · exact fun k m hg hp => (owned_run ops k m hg).waiting (.inl hp)
  · intro k m ops' hg hp
    simp only [run_append]
    exact processed_run ops' hg hp

end PuffoAgent.Store
