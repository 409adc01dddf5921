import PuffoAgent.Covers.Redelivery
import PuffoAgent.Freshness.Soundness

/-! A row that a completion sends back keeps the time at which the model saw it, but it
waits again, and so it ends the prefix that the store proves visible. -/
namespace PuffoAgent.Freshness
open Store Relational Machine Sql

/-- The sequence ends a prefix of rows above the baseline that the turn may pass. -/
structure Reaches (rows : List (Int × MessageRow)) (turnId : String) (baseline candidateSeq : Option Int)
    (seq : Int) : Prop where
  known : ∃ row ∈ rows, row.1 = seq
  above : ∀ b, baseline = some b → b < seq
  within : ∀ c, candidateSeq = some c → seq ≤ c
  passed : ∀ row ∈ rows, (∀ b, baseline = some b → b < row.1) → row.1 ≤ seq →
    admissible turnId candidateSeq row = true

section Scan
variable {turnId : String} {baseline candidateSeq : Option Int} {rows : List (Int × MessageRow)} {seq : Int}

theorem safePrefix_le {q : Int} (h : ∀ row ∈ rows, q < row.1) (hp : rows.Pairwise fun a b => a.1 < b.1) :
    ∃ t, safePrefix turnId baseline candidateSeq (some q) rows = some t ∧ q ≤ t := by
  induction rows generalizing q with
  | nil => exact ⟨q, rfl, le_rfl⟩
  | cons first rows ih =>
    obtain ⟨hfirst, hrest⟩ := List.pairwise_cons.mp hp
    have hq : q < first.1 := h first List.mem_cons_self
    rw [safePrefix]
    split_ifs
    · exact ih (fun row hrow => h row (List.mem_cons_of_mem _ hrow)) hrest
    · exact ⟨q, rfl, le_rfl⟩
    · obtain ⟨t, ht, hle⟩ := ih hfirst hrest
      exact ⟨t, ht, by omega⟩
    · exact ⟨q, rfl, le_rfl⟩

theorem safePrefix_reaches {safe : Option Int} (hp : rows.Pairwise fun a b => a.1 < b.1)
    (h : safePrefix turnId baseline candidateSeq safe rows = some seq) :
    safe = some seq ∨ Reaches rows turnId baseline candidateSeq seq := by
  induction rows generalizing safe with
  | nil => exact .inl h
  | cons first rows ih =>
    obtain ⟨hfirst, hrest⟩ := List.pairwise_cons.mp hp
    rw [safePrefix] at h
    split_ifs at h with hskip hcand hadm
    · obtain ⟨b, hbase, hskip⟩ := (Option.any_eq_true _ _).mp hskip
      rcases ih hrest h with hs | ⟨⟨row, hrow, he⟩, habove, hwithin, hpassed⟩
      · exact .inl hs
      · refine .inr ⟨⟨row, List.mem_cons_of_mem _ hrow, he⟩, habove, hwithin, fun r hr hb hle => ?_⟩
        rcases List.mem_cons.mp hr with rfl | hr
        · have := hb b hbase
          simp only [decide_eq_true_eq] at hskip
          omega
        · exact hpassed r hr hb hle
    · exact .inl h
    · rcases ih hrest h with hs | ⟨⟨row, hrow, he⟩, habove, hwithin, hpassed⟩
      · cases hs
        refine .inr ⟨⟨first, List.mem_cons_self, rfl⟩, fun b hb => ?_, fun c hc => ?_, fun r hr hb hle => ?_⟩
        · simpa [hb] using hskip
        · simpa [hc] using hcand
        · rcases List.mem_cons.mp hr with rfl | hr
          · exact hadm
          · have := hfirst r hr
            omega
      · refine .inr ⟨⟨row, List.mem_cons_of_mem _ hrow, he⟩, habove, hwithin, fun r hr hb hle => ?_⟩
        rcases List.mem_cons.mp hr with rfl | hr
        · exact hadm
        · exact hpassed r hr hb hle
    · exact .inl h

theorem Reaches.safePrefix (safe : Option Int) (h : Reaches rows turnId baseline candidateSeq seq)
    (hp : rows.Pairwise fun a b => a.1 < b.1) :
    ∃ t, Freshness.safePrefix turnId baseline candidateSeq safe rows = some t ∧ seq ≤ t := by
  obtain ⟨⟨row, hrow, rfl⟩, habove, hwithin, hpassed⟩ := h
  induction rows generalizing safe with
  | nil => cases hrow
  | cons first rows ih =>
    obtain ⟨hfirst, hrest⟩ := List.pairwise_cons.mp hp
    have hle : first.1 ≤ row.1 := by
      rcases List.mem_cons.mp hrow with rfl | hrow
      · exact le_rfl
      · exact (hfirst row hrow).le
    have hlater (hrow : row ∈ rows) (safe : Option Int) :
        ∃ t, Freshness.safePrefix turnId baseline candidateSeq safe rows = some t ∧ row.1 ≤ t :=
      ih safe hrest hrow fun r hr => hpassed r (List.mem_cons_of_mem _ hr)
    rw [Freshness.safePrefix]
    split_ifs with hskip hcand hadm
    · obtain ⟨b, hbase, hskip⟩ := (Option.any_eq_true _ _).mp hskip
      rcases List.mem_cons.mp hrow with rfl | hrow
      · have := habove b hbase
        simp only [decide_eq_true_eq] at hskip
        omega
      · exact hlater hrow _
    · obtain ⟨c, hc, hlt⟩ := (Option.any_eq_true _ _).mp hcand
      have := hwithin c hc
      simp only [decide_eq_true_eq] at hlt
      omega
    · rcases List.mem_cons.mp hrow with rfl | hrow
      · exact safePrefix_le hfirst hrest
      · exact hlater hrow _
    · refine absurd (hpassed first List.mem_cons_self (fun b hb => ?_) hle) hadm
      simpa [hb] using hskip

end Scan

section Completion
variable {s s' : Tables} {processed renotice : List String} {turnId : String}

/-- Whatever a completion sends back, it could have completed. -/
theorem completeTurnBody_plain {completed now : Int} {session : Option String} {u : Unit}
    (h : completeTurnBody processed renotice turnId completed session now s = .ok (.commit u) s') :
    ∃ p, completeTurnBody (processed ++ renotice) [] turnId completed session now s = .ok (.commit ()) p := by
  simp only [completeTurnBody, renoticeRows, finishTurnRun, updateTurnRun, Stmt.query_bind_ok_iff,
    Stmt.raiseIf_bind_ok_iff, updateExactRows_bind_ok_iff, bind_assoc, Stmt.exec_bind_ok_iff, List.append_nil,
    Stmt.pure_ok_iff, not_not, not_or] at h ⊢
  obtain ⟨howner, hids, hc, -, -, hrun, -⟩ := h
  exact ⟨_, howner, hids, hc, hc, by simp [Tables.countMessages, Table.select], hrun, trivial, rfl⟩

theorem completeTurn_body {processedAt : Option Int} {session : Option String} {now : Int} {r : Option TurnRun}
    (h : completeTurn processed renotice turnId processedAt session now ⟨s, none⟩ = .ok r ⟨s', none⟩) :
    ∃ u, completeTurnBody processed renotice turnId (processedAt.getD now) session now s = .ok (.commit u) s' := by
  obtain ⟨u, c, ht, hr⟩ := Stmt.bind_ok_iff.mp h
  have hc : c = ⟨s', none⟩ := by
    injection hr
  rw [transaction_run] at ht
  cases hb : completeTurnBody processed renotice turnId (processedAt.getD now) session now s with
  | error e t =>
    rw [hb] at ht
    cases ht
  | ok finish t =>
    obtain ⟨u, rfl⟩ := completeTurnBody_commits hb
    rw [hb, hc] at ht
    cases ht
    exact ⟨u, rfl⟩

/-- The tables after the same rows were completed. -/
theorem completeTurn_plain {processedAt : Option Int} {session : Option String} {now : Int} {r : Option TurnRun}
    (h : completeTurn processed renotice turnId processedAt session now ⟨s, none⟩ = .ok r ⟨s', none⟩) :
    ∃ u, completeTurnBody (processed ++ renotice) [] turnId (processedAt.getD now) session now s =
      .ok (.commit u) ((completeTurn (processed ++ renotice) [] turnId processedAt session now).after s) := by
  obtain ⟨u, hb⟩ := completeTurn_body h
  obtain ⟨p, hp⟩ := completeTurnBody_plain hb
  refine ⟨(), ?_⟩
  have hrun : completeTurn (processed ++ renotice) [] turnId processedAt session now ⟨s, none⟩ =
      .ok (getTurnRun turnId p) ⟨p, none⟩ := by
    refine Stmt.bind_ok_iff.mpr ⟨(), ⟨p, none⟩, ?_, rfl⟩
    rw [transaction_run, hp]
  rw [Sql.after, hrun]
  exact hp

theorem TurnCompletion.stays (h : TurnCompletion processed renotice turnId s s') (k : String) :
    Option.Rel Stays (s.messages.get? k) (s'.messages.get? k) := by
  by_cases hk : k ∈ processed ++ renotice
  · rcases List.mem_append.mp hk with hk | hk
    · obtain ⟨m, hg, -, at_, hg'⟩ := h.completed k hk
      rw [hg, hg']
      exact .some ⟨rfl, fun _ _ => rfl⟩
    · obtain ⟨m, hg, -, hg'⟩ := h.renoticed k hk
      rw [hg, hg']
      exact .some ⟨rfl, fun _ _ => rfl⟩
  · rw [h.others k hk]
    cases s.messages.get? k with
    | none => exact .none
    | some m => exact .some (.refl m)

theorem Sequenced.stays (h : Sequenced s) (hs : ∀ k, Option.Rel Stays (s.messages.get? k) (s'.messages.get? k)) :
    Sequenced s' where
  positive k m seq hg hq := by
    obtain ⟨m₀, hg₀, hst⟩ := rel_some_right (hg ▸ hs k)
    exact h.positive k m₀ seq hg₀ (hst.sequence ▸ hq)
  unique k k' m m' seq hg hg' hq hq' := by
    obtain ⟨m₀, hg₀, hst⟩ := rel_some_right (hg ▸ hs k)
    obtain ⟨m₁, hg₁, hst'⟩ := rel_some_right (hg' ▸ hs k')
    exact h.unique k k' m₀ m₁ seq hg₀ hg₁ (hst.sequence ▸ hq) (hst'.sequence ▸ hq')

end Completion

/-- A row in a turn has been shown to the model. -/
theorem visible_run (ops : List Store.Op) :
    AllRows (fun m => m.processingState = some .inTurn → m.modelVisibleAt.isSome = true)
      (run Store.step Tables.empty ops) := by
  refine run_invariant (allRows_empty _) (fun s op hs => ?_) ops
  refine (step_effect s op).ledger.allRows hs (fun m hm hp => ?_) (fun m m' ha hm hp => ?_)
    (fun m turnId at_ _ _ _ => rfl) fun m m' turnId hin he hm hp => ?_
  · rcases hm.listed with hl | hl
    · rw [hl] at hp
      cases hp
    · simp [MessageRow.isListed, MessageRow.isPending, hp] at hl
  · cases ha <;> simp_all [MessageRow.sequenced, MessageRow.gated, denied, MessageRow.covered]
  · cases he <;> simp_all [MessageRow.completed, MessageRow.renoticed, MessageRow.settled, MessageRow.requeued]

theorem sequenced_run (ops : List Store.Op) : Sequenced (run Store.step Tables.empty ops) := by
  have hempty : Sequenced Tables.empty := by
    constructor
    · intro k m seq hg
      simp [Tables.empty] at hg
    · intro k k' m m' seq hg
      simp [Tables.empty] at hg
  exact run_invariant hempty (fun s op hs => sequenced_store hs op) ops

/-- The first boundary does not lie behind the second. -/
def AtMost (a b : Option Int) : Prop := ∀ t, a = some t → ∃ t', b = some t' ∧ t ≤ t'

/-- The row is in the channel, above its baseline and below the candidate, and a later turn
would pass every row of the channel before it once the turn is completed. -/
def Exposed (s : Tables) (spaceId channelId turnId laterTurnId : String) (candidateSeq : Option Int) (k : String) : Prop :=
  ∃ m seq, s.messages.get? k = some m ∧ inChannel spaceId channelId m = true ∧ m.serverSeq = some seq ∧
    Above s spaceId channelId seq ∧ m.receiptDisposition ≠ some .terminal ∧
    (∀ c, candidateSeq = some c → seq < c) ∧
    ∀ k' m' seq', s.messages.get? k' = some m' → inChannel spaceId channelId m' = true → m'.serverSeq = some seq' →
      Above s spaceId channelId seq' → seq' < seq →
      m'.isInTurn turnId = true ∨ admissible laterTurnId candidateSeq (seq', m') = true

section Later
variable {s s' p : Tables} {processed renotice : List String} {turnId laterTurnId spaceId channelId : String}
  {candidateSeq : Option Int} {seq : Int}

theorem reaches_iff (h : Sequenced s) :
    AtMost (some seq) (getModelVisibleThroughSeq s spaceId channelId laterTurnId candidateSeq) ↔
      ∃ t, seq ≤ t ∧ Reaches (channelRows s spaceId channelId) laterTurnId (contextBaseline s spaceId channelId)
        candidateSeq t := by
  constructor
  · intro hle
    obtain ⟨t, ht, hle⟩ := hle seq rfl
    rcases safePrefix_reaches (channelRows_pairwise h) ht with hn | hr
    · cases hn
    · exact ⟨t, hle, hr⟩
  · rintro ⟨t, hle, hr⟩ q hq
    cases hq
    obtain ⟨t', ht', hle'⟩ := hr.safePrefix none (channelRows_pairwise h)
    exact ⟨t', ht', hle.trans hle'⟩

/-- A row that the completion has not sent back is passed after it as it is after the plain one. -/
theorem TurnCompletion.admissible_iff (h : TurnCompletion processed renotice turnId s s')
    (hp : TurnCompletion (processed ++ renotice) [] turnId s p) {k : String} (hk : k ∉ renotice)
    {m' mp : MessageRow} (hg' : s'.messages.get? k = some m') (hgp : p.messages.get? k = some mp) :
    admissible laterTurnId candidateSeq (seq, m') = admissible laterTurnId candidateSeq (seq, mp) := by
  by_cases hpr : k ∈ processed
  · obtain ⟨m, hg, -, at_, hc⟩ := h.completed k hpr
    obtain ⟨m₁, hg₁, -, at₁, hc₁⟩ := hp.completed k (List.mem_append_left _ hpr)
    obtain rfl := Option.some.inj (hg.symm.trans hg₁)
    obtain rfl := Option.some.inj (hg'.symm.trans hc)
    obtain rfl := Option.some.inj (hgp.symm.trans hc₁)
    rfl
  · have hno : k ∉ processed ++ renotice := by simp [hpr, hk]
    rw [h.others k hno] at hg'
    rw [hp.others k (by simpa using hno)] at hgp
    obtain rfl := Option.some.inj (hg'.symm.trans hgp)
    rfl

theorem admissible_completed (laterTurnId : String) (candidateSeq : Option Int) (seq at_ : Int) {m : MessageRow}
    (hv : m.modelVisibleAt.isSome = true) :
    admissible laterTurnId candidateSeq (seq, m.completed at_) = true := by
  simp only [admissible, decide_eq_true_eq]
  exact .inr (.inr ⟨hv, .inl rfl⟩)

theorem admissible_renoticed {m : MessageRow} :
    admissible laterTurnId candidateSeq (seq, m.renoticed) = true ↔
      m.receiptDisposition = some .terminal ∨ candidateSeq = some seq := by
  simp [admissible, MessageRow.renoticed]

/-- After the plain completion a later turn reaches an exposed row. -/
theorem Exposed.reaches {k : String} (hs : Sequenced s) (hown : Ownership s)
    (hvis : AllRows (fun m => m.processingState = some .inTurn → m.modelVisibleAt.isSome = true) s)
    (hp : TurnCompletion (processed ++ renotice) [] turnId s p) (hk : k ∈ renotice)
    (hbase : contextBaseline p spaceId channelId = contextBaseline s spaceId channelId)
    (he : Exposed s spaceId channelId turnId laterTurnId candidateSeq k) :
    ∃ m seq, s.messages.get? k = some m ∧ inChannel spaceId channelId m = true ∧ m.serverSeq = some seq ∧
      Above s spaceId channelId seq ∧ m.receiptDisposition ≠ some .terminal ∧ candidateSeq ≠ some seq ∧
      Reaches (channelRows p spaceId channelId) laterTurnId (contextBaseline p spaceId channelId) candidateSeq seq := by
  obtain ⟨m, seq, hg, hc, hq, ha, hterm, hcand, hbefore⟩ := he
  refine ⟨m, seq, hg, hc, hq, ha, hterm, fun h => absurd (hcand seq h) (by omega), ?_, ?_, fun c h => (hcand c h).le, ?_⟩
  · obtain ⟨m₁, hg₁, -, at_, hgp⟩ := hp.completed k (List.mem_append_right _ hk)
    obtain rfl := Option.some.inj (hg.symm.trans hg₁)
    exact ⟨(seq, m.completed at_), mem_channelRows.mpr ⟨Table.mem_of_get? hgp, hc, hq⟩, rfl⟩
  · rw [hbase]
    exact ha
  · intro row hrow habove hle
    obtain ⟨hmem, hcrow, hqrow⟩ := mem_channelRows.mp hrow
    have hgrow := Table.get?_of_mem hmem
    by_cases hin : row.2.envelopeId ∈ processed ++ renotice
    · obtain ⟨m₀, hg₀, hturn, at_, hgp⟩ := hp.completed _ hin
      have hrow₂ : row.2 = m₀.completed at_ := Option.some.inj (hgrow.symm.trans hgp)
      have hadm := admissible_completed laterTurnId candidateSeq row.1 at_ (hvis _ m₀ hg₀ (isInTurn_iff.mp hturn).1)
      rw [← hrow₂] at hadm
      exact hadm
    · have hgs : s.messages.get? row.2.envelopeId = some row.2 := by
        rw [← hp.others _ (by simpa using hin)]
        exact hgrow
      have hne : row.1 ≠ seq := by
        intro heq
        have := hs.unique _ _ _ _ _ hgs hg hqrow (heq ▸ hq)
        exact hin (List.mem_append_right _ (this ▸ hk))
      rw [hbase] at habove
      rcases hbefore _ row.2 row.1 hgs hcrow hqrow habove (by omega) with hturn | hadm
      · refine absurd ?_ hin
        have := (hp.ids row.2.envelopeId).mp ((hown.holds turnId _).mp ⟨row.2, hgs, hturn⟩).2
        simpa using this
      · exact hadm

/-- A later turn passes every row it would pass after the plain completion, as long as no row
that was sent back is exposed. -/
theorem Reaches.renoticed (h : TurnCompletion processed renotice turnId s s')
    (hp : TurnCompletion (processed ++ renotice) [] turnId s p)
    (hbase : contextBaseline p spaceId channelId = contextBaseline s spaceId channelId)
    (hbase' : contextBaseline s' spaceId channelId = contextBaseline s spaceId channelId)
    (hno : ∀ k ∈ renotice, ¬ Exposed s spaceId channelId turnId laterTurnId candidateSeq k)
    (hr : Reaches (channelRows p spaceId channelId) laterTurnId (contextBaseline p spaceId channelId) candidateSeq seq) :
    Reaches (channelRows s' spaceId channelId) laterTurnId (contextBaseline s' spaceId channelId) candidateSeq seq := by
  obtain ⟨⟨row, hrow, heq⟩, habove, hwithin, hpassed⟩ := hr
  have hrel (k : String) : Option.Rel Stays (s.messages.get? k) (s'.messages.get? k) := TurnCompletion.stays h k
  have hrelp (k : String) : Option.Rel Stays (s.messages.get? k) (p.messages.get? k) := TurnCompletion.stays hp k
  -- every row of the channel after one completion is there after the other
  have hrows {k : String} {m' : MessageRow} (hg' : s'.messages.get? k = some m') :
      ∃ m mp, s.messages.get? k = some m ∧ p.messages.get? k = some mp ∧ Stays m m' ∧ Stays m mp := by
    obtain ⟨m, hg, hst⟩ := rel_some_right (hg' ▸ hrel k)
    obtain ⟨mp, hgp, hstp⟩ := rel_some_left (hg ▸ hrelp k)
    exact ⟨m, mp, hg, hgp, hst, hstp⟩
  refine ⟨?_, by rw [hbase', ← hbase]; exact habove, hwithin, fun row' hrow' habove' hle => ?_⟩
  · obtain ⟨hmem, hc, hq⟩ := mem_channelRows.mp hrow
    obtain ⟨m, hg, hstp⟩ := rel_some_right (Table.get?_of_mem hmem ▸ hrelp row.2.envelopeId)
    obtain ⟨m', hg', hst⟩ := rel_some_left (hg ▸ hrel row.2.envelopeId)
    refine ⟨(row.1, m'), mem_channelRows.mpr ⟨Table.mem_of_get? hg', ?_, ?_⟩, heq⟩
    · rw [hst.channel, ← hstp.channel]
      exact hc
    · rw [hst.sequence, ← hstp.sequence]
      exact hq
  · obtain ⟨hmem', hc', hq'⟩ := mem_channelRows.mp hrow'
    obtain ⟨m, mp, hg, hgp, hst, hstp⟩ := hrows (Table.get?_of_mem hmem')
    have hpass {k : String} {m mp : MessageRow} {q : Int} (hg : s.messages.get? k = some m)
        (hgp : p.messages.get? k = some mp) (hstp : Stays m mp) (hc : inChannel spaceId channelId m = true)
        (hq : m.serverSeq = some q) (ha : Above s spaceId channelId q) (hle : q ≤ seq) :
        admissible laterTurnId candidateSeq (q, mp) = true :=
      hpassed (q, mp) (mem_channelRows.mpr ⟨Table.mem_of_get? hgp, (hstp.channel _ _).trans hc, hstp.sequence.trans hq⟩)
        (by rw [hbase]; exact ha) hle
    have hc : inChannel spaceId channelId m = true := (hst.channel _ _).symm.trans hc'
    have hq : m.serverSeq = some row'.1 := hst.sequence.symm.trans hq'
    have ha : Above s spaceId channelId row'.1 := by rw [Above, ← hbase']; exact habove'
    by_cases hk : row'.2.envelopeId ∈ renotice
    · obtain ⟨m₁, hg₁, -, hg'⟩ := h.renoticed _ hk
      obtain rfl := Option.some.inj (hg.symm.trans hg₁)
      have hrow₂ : row'.2 = m.renoticed := Option.some.inj ((Table.get?_of_mem hmem').symm.trans hg')
      by_contra hadm
      have hrow₃ : row' = (row'.1, m.renoticed) := by rw [← hrow₂]
      rw [hrow₃, admissible_renoticed, not_or] at hadm
      refine hno _ hk ⟨m, row'.1, hg, hc, hq, ha, hadm.1, fun c hcand => ?_, ?_⟩
      · have := hwithin c hcand
        have : row'.1 ≠ c := fun he => hadm.2 (by rw [hcand, he])
        omega
      · intro k₀ m₀ q₀ hg₀ hc₀ hq₀ ha₀ hlt
        obtain ⟨mp₀, hgp₀, hstp₀⟩ := rel_some_left (hg₀ ▸ hrelp k₀)
        by_cases hin : k₀ ∈ processed ++ renotice
        · obtain ⟨m₂, hg₂, hturn, -⟩ := hp.completed k₀ hin
          obtain rfl := Option.some.inj (hg₀.symm.trans hg₂)
          exact .inl hturn
        · have hadm₀ := hpass hg₀ hgp₀ hstp₀ hc₀ hq₀ ha₀ (by omega)
          rw [hp.others k₀ (by simpa using hin)] at hgp₀
          obtain rfl := Option.some.inj (hg₀.symm.trans hgp₀)
          exact .inr hadm₀
    · have hadm := hpass hg hgp hstp hc hq ha hle
      rw [← TurnCompletion.admissible_iff h hp hk (Table.get?_of_mem hmem') hgp] at hadm
      exact hadm

end Later

/-- Sending rows back leaves a later turn's boundary where completing them would, exactly
when none of them stands next in its channel. -/
theorem renotice_freshness_iff (ops : List Store.Op) (processed renotice : List String) (turnId : String)
    (processedAt : Option Int) (session : Option String) (now : Int) (r : Option TurnRun) (s' : Tables)
    (h : completeTurn processed renotice turnId processedAt session now ⟨run Store.step Tables.empty ops, none⟩ =
      .ok r ⟨s', none⟩) (spaceId channelId laterTurnId : String) (candidateSeq : Option Int) :
    AtMost
      (getModelVisibleThroughSeq ((completeTurn (processed ++ renotice) [] turnId processedAt session now).after
        (run Store.step Tables.empty ops)) spaceId channelId laterTurnId candidateSeq)
      (getModelVisibleThroughSeq s' spaceId channelId laterTurnId candidateSeq) ↔
    ∀ k ∈ renotice, ¬ Exposed (run Store.step Tables.empty ops) spaceId channelId turnId laterTurnId candidateSeq k := by
  obtain ⟨_, hb⟩ := completeTurn_body h
  obtain ⟨_, hbp⟩ := completeTurn_plain h
  generalize (completeTurn (processed ++ renotice) [] turnId processedAt session now).after
    (run Store.step Tables.empty ops) = p at hbp ⊢
  have hs := sequenced_run ops
  have hown := ownership_run ops
  have hvis := visible_run ops
  generalize run Store.step Tables.empty ops = s at *
  obtain ⟨hc, -, hctx⟩ := completeTurnBody_ok hb
  obtain ⟨hcp, -, hctxp⟩ := completeTurnBody_ok hbp
  have hbase : contextBaseline p spaceId channelId = contextBaseline s spaceId channelId := by
    rw [contextBaseline, hctxp, contextBaseline]
  have hbase' : contextBaseline s' spaceId channelId = contextBaseline s spaceId channelId := by
    rw [contextBaseline, hctx, contextBaseline]
  have hs' : Sequenced s' := hs.stays (TurnCompletion.stays hc)
  have hsp : Sequenced p := hs.stays (TurnCompletion.stays hcp)
  constructor
  · intro hle k hk he
    obtain ⟨m, seq, hg, hch, hq, ha, hterm, hcand, hreach⟩ := he.reaches hs hown hvis hcp hk hbase
    obtain ⟨t, ht, hseq⟩ := (reaches_iff hsp).mpr ⟨seq, le_rfl, hreach⟩ seq rfl
    obtain ⟨t', ht', htt⟩ := hle t ht
    obtain ⟨t'', hle'', hr⟩ := (reaches_iff hs').mp (fun q hq => ⟨t', ht', by cases hq; exact htt⟩)
    obtain ⟨m₁, hg₁, -, hg'⟩ := hc.renoticed k hk
    obtain rfl := Option.some.inj (hg.symm.trans hg₁)
    have hadm := hr.passed (seq, m.renoticed) (mem_channelRows.mpr ⟨Table.mem_of_get? hg', hch, hq⟩)
      (by rw [hbase']; exact ha) (hseq.trans hle'')
    rcases admissible_renoticed.mp hadm with h | h
    · exact hterm h
    · exact hcand h
  · intro hno t ht
    obtain ⟨t', hle, hr⟩ := (reaches_iff hsp).mp (fun q hq => ⟨t, ht, by cases hq; exact le_rfl⟩ : AtMost (some t) _)
    obtain ⟨q, hq, hle'⟩ := (reaches_iff hs').mpr ⟨t', le_rfl, hr.renoticed hc hcp hbase hbase' hno⟩ t' rfl
    exact ⟨q, hq, hle.trans hle'⟩

/-- Two messages of a channel in one turn. -/
def turnOfTwo : List Store.Op :=
  [.storeReceipt (channelPayload "m1") 1 .eligible "" 1 1, .storeReceipt (channelPayload "m2") 2 .eligible "" 1 1,
    .admitMessages ["m1", "m2"] "turn" none none 2]

/-- The first of them is sent back: the next turn proves nothing of the channel. -/
theorem renotice_lowers_boundary :
    (∃ r c, completeTurn ["m2"] ["m1"] "turn" none none 3 ⟨run Store.step Tables.empty turnOfTwo, none⟩ = .ok r c) ∧
    ¬ AtMost
      (getModelVisibleThroughSeq ((completeTurn ["m2", "m1"] [] "turn" none none 3).after
        (run Store.step Tables.empty turnOfTwo)) "sp" "ch" "later" none)
      (getModelVisibleThroughSeq ((completeTurn ["m2"] ["m1"] "turn" none none 3).after
        (run Store.step Tables.empty turnOfTwo)) "sp" "ch" "later" none) := by
  refine ⟨⟨_, _, rfl⟩, fun h => ?_⟩
  have hplain : getModelVisibleThroughSeq ((completeTurn ["m2", "m1"] [] "turn" none none 3).after
      (run Store.step Tables.empty turnOfTwo)) "sp" "ch" "later" none = some 2 := by decide
  have hrenoticed : getModelVisibleThroughSeq ((completeTurn ["m2"] ["m1"] "turn" none none 3).after
      (run Store.step Tables.empty turnOfTwo)) "sp" "ch" "later" none = none := by decide
  obtain ⟨t, ht, -⟩ := h 2 hplain
  rw [hrenoticed] at ht
  cases ht

/-- A message of each of two channels in one turn. -/
def turnOfBoth : List Store.Op :=
  [.storeReceipt (channelPayload "m1") 1 .eligible "" 1 1,
    .storeReceipt { channelPayload "m2" with channelId := some "other" } 2 .eligible "" 1 1,
    .admitMessages ["m1", "m2"] "turn" none none 2]

/-- The message of one channel is sent back: the other is proven as far as before. -/
theorem renotice_freshness_elsewhere :
    ∃ r s', completeTurn ["m2"] ["m1"] "turn" none none 3 ⟨run Store.step Tables.empty turnOfBoth, none⟩ =
        .ok r ⟨s', none⟩ ∧ getModelVisibleThroughSeq s' "sp" "other" "later" none = some 2 ∧
      AtMost
        (getModelVisibleThroughSeq ((completeTurn ["m2", "m1"] [] "turn" none none 3).after
          (run Store.step Tables.empty turnOfBoth)) "sp" "other" "later" none)
        (getModelVisibleThroughSeq s' "sp" "other" "later" none) := by
  refine ⟨_, _, rfl, by decide, (renotice_freshness_iff turnOfBoth ["m2"] ["m1"] "turn" none none 3 _ _ rfl "sp" "other"
    "later" none).mpr ?_⟩
  rintro k hk ⟨m, seq, hg, hc, -⟩
  rw [List.mem_singleton.mp hk] at hg
  have hother : ((run Store.step Tables.empty turnOfBoth).messages.get? "m1").all
      (fun m => ¬ inChannel "sp" "other" m) = true := by decide
  rw [hg] at hother
  simp [hc] at hother

end PuffoAgent.Freshness
