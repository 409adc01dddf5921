import PuffoAgent.Freshness.Boundary

/-! The boundary covers no row the model has not been shown, in the runs where no step hides
one under the cached value. -/
namespace PuffoAgent.Freshness
open Store Relational Machine Stmt Sql

/-- The model has been shown the row, or never has to be. -/
def Shown (m : MessageRow) : Prop :=
  m.modelVisibleAt.isSome = true ∨ m.receiptDisposition = some .terminal

/-- The sequence is above the baseline of the channel. -/
def Above (s : Tables) (spaceId channelId : String) (seq : Int) : Prop :=
  ∀ b, contextBaseline s spaceId channelId = some b → b < seq

/-- Every stored row of the channel above the baseline and up to `t` is shown. -/
def ShownThrough (s : Tables) (spaceId channelId : String) (t : Int) : Prop :=
  ∀ k m seq, s.messages.get? k = some m → inChannel spaceId channelId m = true →
    m.serverSeq = some seq → Above s spaceId channelId seq → seq ≤ t → Shown m

/-- What the boundary reports is shown. -/
def Runtime.Fresh (rt : Runtime) : Prop :=
  ∀ spaceId channelId t, rt.getActiveTurnThroughSeq spaceId channelId = some t →
    ShownThrough rt.tables spaceId channelId t

/-- Sequences are positive and belong to one row each. -/
structure Sequenced (s : Tables) : Prop where
  positive : ∀ k m seq, s.messages.get? k = some m → m.serverSeq = some seq → 0 < seq
  unique : ∀ k k' m m' seq, s.messages.get? k = some m → s.messages.get? k' = some m' →
    m.serverSeq = some seq → m'.serverSeq = some seq → k = k'

section Rows
variable {licence : Licence} {m m' : MessageRow}

/-- The row stayed in its channel, under its sequence. -/
structure Stays (m m' : MessageRow) : Prop where
  sequence : m'.serverSeq = m.serverSeq
  channel : ∀ spaceId channelId, inChannel spaceId channelId m' = inChannel spaceId channelId m

theorem Stays.refl (m : MessageRow) : Stays m m := ⟨rfl, fun _ _ => rfl⟩

/-- A row that is sequenced after a move was already so, and stays shown. -/
theorem Aside.sequenced {seq : Int} (h : Aside licence m m') (hs : m'.serverSeq = some seq) :
    licence.files m' ∨ (Stays m m' ∧ (Shown m → Shown m')) := by
  cases h with
  | rethreaded => exact .inr ⟨⟨rfl, fun _ _ => rfl⟩, id⟩
  | sequenced seq reason hl hf => exact .inl hf
  | gated seq reason hd hp hf => exact .inl hf
  | backfilled seq hn hl hf => exact .inl hf
  | classified d reason hn hd =>
    rw [hn] at hs
    cases hs
  | releasedLocal reason ordinal frontier contentType content hn hg =>
    rw [hn] at hs
    cases hs
  | released reason contentType content hn hg =>
    refine .inr ⟨⟨rfl, fun _ _ => rfl⟩, ?_⟩
    rintro (hv | ht)
    · exact .inl hv
    · simp [MessageRow.isGated, ht] at hg
  | denied hg => exact .inr ⟨⟨rfl, fun _ _ => rfl⟩, fun _ => .inr rfl⟩
  | quarantined reason hp => exact .inr ⟨⟨rfl, fun _ _ => rfl⟩, fun _ => .inr rfl⟩
  | covered now hp =>
    refine .inr ⟨⟨rfl, fun _ _ => rfl⟩, fun _ => .inl ?_⟩
    simp [MessageRow.covered]

theorem Ended.stays (h : Ended licence m m') :
    Stays m m' ∧ (Shown m → Shown m' ∨
      (licence.requeues m ∧ m.receiptDisposition ≠ some .terminal)) := by
  cases h with
  | completed => exact ⟨⟨rfl, fun _ _ => rfl⟩, .inl⟩
  | renoticed => exact ⟨⟨rfl, fun _ _ => rfl⟩, .inl⟩
  | settled => exact ⟨⟨rfl, fun _ _ => rfl⟩, .inl⟩
  | requeued hr =>
    refine ⟨⟨rfl, fun _ _ => rfl⟩, fun _ => ?_⟩
    by_cases ht : m.receiptDisposition = some .terminal
    · exact .inl (.inr ht)
    · exact .inr ⟨hr, ht⟩

end Rows

section Ledger
variable {licence : Licence} {s s' : Tables} {k : String} {m' : MessageRow} {seq : Int}

/-- Where a sequenced row of the tables after a step comes from. -/
theorem Ledger.sequenced (h : Ledger licence s s') (hg : s'.messages.get? k = some m')
    (hs : m'.serverSeq = some seq) :
    licence.files m' ∨ ∃ m, s.messages.get? k = some m ∧ Stays m m' ∧
      (Shown m → Shown m' ∨ (licence.requeues m ∧ m.receiptDisposition ≠ some .terminal)) := by
  have aside {m : MessageRow} (hm : s.messages.get? k = some m) (ha : Aside licence m m') :
      licence.files m' ∨ ∃ m, s.messages.get? k = some m ∧ Stays m m' ∧
        (Shown m → Shown m' ∨ (licence.requeues m ∧ m.receiptDisposition ≠ some .terminal)) :=
    (Aside.sequenced ha hs).imp_right fun ⟨hst, hsh⟩ => ⟨m, hm, hst, fun h => .inl (hsh h)⟩
  have same (hm : s.messages.get? k = some m') :
      licence.files m' ∨ ∃ m, s.messages.get? k = some m ∧ Stays m m' ∧
        (Shown m → Shown m' ∨ (licence.requeues m ∧ m.receiptDisposition ≠ some .terminal)) :=
    .inr ⟨m', hm, Stays.refl m', .inl⟩
  cases h with
  | aside rows =>
    obtain ⟨m, hm, ha⟩ := rel_some_right (hg ▸ rows k)
    exact aside hm ha
  | arrived row shape filed free stored rows =>
    by_cases hk : k = row.envelopeId
    · rw [hk, stored] at hg
      obtain rfl := Option.some.inj hg
      obtain hn | hf := filed
      · rw [hn] at hs
        cases hs
      · exact .inl hf
    · obtain ⟨m, hm, ha⟩ := rel_some_right (hg ▸ rows k hk)
      exact aside hm ha
  | swept cutoff rows =>
    rw [rows, Table.get?_delete, Option.filter_eq_some_iff] at hg
    exact same hg.1
  | opened turnId free active messages => exact same (messages ▸ hg)
  | admitted turnId ids first at_ nodup pending run active runs rows =>
    rw [rows, Option.map_eq_some_iff] at hg
    obtain ⟨m, hm, rfl⟩ := hg
    refine .inr ⟨m, hm, ?_⟩
    split
    · exact ⟨⟨rfl, fun _ _ => rfl⟩, fun _ => .inl (.inl rfl)⟩
    · exact ⟨Stays.refl m, .inl⟩
  | ended turnId was known now runs rows others =>
    by_cases hk : s.isMember turnId k
    · obtain ⟨m, m₁, hm, hp, he, hm₁⟩ := rows k hk
      obtain rfl := Option.some.inj (hm₁.symm.trans hg)
      exact .inr ⟨m, hm, Ended.stays he⟩
    · exact same (others k hk ▸ hg)

end Ledger

section Scan
variable {s : Tables} {spaceId channelId turnId : String} {candidateSeq : Option Int} {t : Int}

/-- Every row of the prefix that the scan passes is admissible. -/
theorem safePrefix_admissible {baseline safe : Option Int} {rows : List (Int × MessageRow)}
    (hp : rows.Pairwise fun a b => a.1 < b.1)
    (hsafe : ∀ q, safe = some q → ∀ row ∈ rows, q < row.1)
    (h : safePrefix turnId baseline candidateSeq safe rows = some t) :
    ∀ row ∈ rows, (∀ b, baseline = some b → b < row.1) → row.1 ≤ t →
      admissible turnId candidateSeq row = true := by
  induction rows generalizing safe with
  | nil =>
    intro row hrow
    cases hrow
  | cons first rows ih =>
    obtain ⟨hfirst, hrest⟩ := List.pairwise_cons.mp hp
    intro row hrow hb hle
    simp only [safePrefix] at h
    split_ifs at h with hskip hcand hadm
    · obtain ⟨b, hbase, hskip⟩ := (Option.any_eq_true _ _).mp hskip
      rcases List.mem_cons.mp hrow with rfl | hrow
      · have := hb b hbase
        simp only [decide_eq_true_eq] at hskip
        omega
      · exact ih hrest (fun q hq r hr => hsafe q hq r (List.mem_cons_of_mem _ hr)) h row hrow hb hle
    · exact absurd (hsafe t h row hrow) (by omega)
    · rcases List.mem_cons.mp hrow with rfl | hrow
      · exact hadm
      · refine ih hrest ?_ h row hrow hb hle
        rintro q hq r hr
        cases hq
        exact hfirst r hr
    · exact absurd (hsafe t h row hrow) (by omega)

theorem mem_channelRows {row : Int × MessageRow} :
    row ∈ channelRows s spaceId channelId ↔
      row.2 ∈ s.messages.rows ∧ inChannel spaceId channelId row.2 = true ∧
        row.2.serverSeq = some row.1 := by
  simp only [channelRows, List.mem_insertionSort, List.mem_filterMap]
  constructor
  · rintro ⟨m, hm, hr⟩
    split_ifs at hr with hc
    obtain ⟨q, hq, rfl⟩ := Option.map_eq_some_iff.mp hr
    exact ⟨hm, hc, hq⟩
  · rintro ⟨hm, hc, hq⟩
    exact ⟨row.2, hm, by rw [if_pos hc, hq]; rfl⟩

/-- The rows of a channel come in strictly increasing order. -/
theorem channelRows_pairwise (h : Sequenced s) :
    (channelRows s spaceId channelId).Pairwise fun a b => a.1 < b.1 := by
  have hne : (channelRows s spaceId channelId).Pairwise fun a b => a.1 ≠ b.1 := by
    refine (List.Perm.pairwise_iff (fun h => Ne.symm h) (List.perm_insertionSort _ _)).mpr ?_
    rw [List.pairwise_filterMap]
    have hkeys : s.messages.rows.Pairwise fun a b => a.envelopeId ≠ b.envelopeId :=
      List.pairwise_map.mp s.messages.nodup
    refine hkeys.imp_of_mem ?_
    intro a b ha hb hk ra hra rb hrb he
    split_ifs at hra hrb
    obtain ⟨qa, hqa, rfl⟩ := Option.map_eq_some_iff.mp hra
    obtain ⟨qb, hqb, rfl⟩ := Option.map_eq_some_iff.mp hrb
    cases he
    exact hk (h.unique _ _ a b qa (Table.get?_of_mem ha) (Table.get?_of_mem hb) hqa hqb)
  refine (hne.and (List.pairwise_insertionSort _ _)).imp ?_
  rintro a b ⟨hn, hle⟩
  omega

/-- A row below what the store proves is shown, or it is the candidate. -/
theorem getModelVisibleThroughSeq_shown (h : Sequenced s)
    (hp : getModelVisibleThroughSeq s spaceId channelId turnId candidateSeq = some t)
    {k : String} {m : MessageRow} {seq : Int} (hg : s.messages.get? k = some m)
    (hc : inChannel spaceId channelId m = true) (hs : m.serverSeq = some seq)
    (ha : Above s spaceId channelId seq) (hle : seq ≤ t) :
    admissible turnId candidateSeq (seq, m) = true :=
  safePrefix_admissible (channelRows_pairwise h) (fun q hq => by cases hq) hp (seq, m)
    (mem_channelRows.mpr ⟨Table.mem_of_get? hg, hc, hs⟩) ha hle

theorem shown_of_admissible {m : MessageRow} {seq : Int}
    (h : admissible turnId candidateSeq (seq, m) = true) : Shown m ∨ candidateSeq = some seq := by
  simp only [admissible, decide_eq_true_eq] at h
  obtain ht | hc | ⟨hv, -⟩ := h
  · exact .inl (.inr ht)
  · exact .inr hc
  · exact .inl (.inl hv)

theorem shownThrough_of_proven (h : Sequenced s)
    (hp : getModelVisibleThroughSeq s spaceId channelId turnId none = some t) :
    ShownThrough s spaceId channelId t := by
  intro k m seq hg hc hs ha hle
  obtain hm | hn := shown_of_admissible (getModelVisibleThroughSeq_shown h hp hg hc hs ha hle)
  · exact hm
  · cases hn

end Scan

section Hiding

/-- The cache reports the channel as read up to `seq`. -/
def Runtime.Caches (rt : Runtime) (spaceId channelId : String) (seq : Int) : Prop :=
  ∃ t, rt.throughByChannel (spaceId, channelId) = some t ∧ seq ≤ t

/-- The ids are the members of a turn that is active. -/
def Requeueable (s : Tables) (ids : List String) (turnId : String) : Prop :=
  s.isActive turnId ∧ (turnMessageIds s turnId).length = ids.length ∧ (turnMessageIds s turnId).toFinset = ids.toFinset

/-- The steps that leave an unshown row under the cached boundary: a receipt that files one
there, late or back-filled; a requeue of rows there; a baseline lowered below one; and an
advance to a candidate that is one. -/
def Op.hides (rt : Runtime) : Op → Prop
  | .store (.storeReceipt payload seq disposition _ _ _) => ∃ spaceId channelId,
    rt.Caches spaceId channelId seq ∧ Above rt.tables spaceId channelId seq ∧ 0 < seq ∧
    (∀ m ∈ rt.tables.messages.rows, m.serverSeq ≠ some seq) ∧
    ((rt.tables.messages.get? payload.envelopeId = none ∧ payload.envelopeKind ≠ "dm" ∧
        payload.spaceId = some spaceId ∧ payload.channelId = some channelId ∧
        disposition ≠ .terminal) ∨
      ∃ m, rt.tables.messages.get? payload.envelopeId = some m ∧ m.serverSeq = none ∧
        inChannel spaceId channelId m = true ∧ ¬ Shown m)
  | .store (.requeueMessages ids turnId _) => Requeueable rt.tables ids turnId ∧ ∃ spaceId channelId k m seq,
    rt.tables.messages.get? k = some m ∧ inChannel spaceId channelId m = true ∧
    m.serverSeq = some seq ∧ Above rt.tables spaceId channelId seq ∧
    rt.Caches spaceId channelId seq ∧ m.receiptDisposition ≠ some .terminal ∧
    m.envelopeId ∈ ids ∧ m.isInTurn turnId = true ∧
    m.envelopeId ∉ rt.tables.messageCovers.rows.map (·.coveredEnvelopeId)
  | .store (.setContextBaseline spaceId channelId baseline _ _) => 0 ≤ baseline ∧ ∃ k m seq,
    rt.tables.messages.get? k = some m ∧ inChannel spaceId channelId m = true ∧
    m.serverSeq = some seq ∧ baseline < seq ∧ rt.Caches spaceId channelId seq ∧ ¬ Shown m
  | .advance spaceId channelId seq => rt.turnId ≠ "" ∧
    (∃ k m, rt.tables.messages.get? k = some m ∧ inChannel spaceId channelId m = true ∧
      m.serverSeq = some seq ∧ Above rt.tables spaceId channelId seq ∧ ¬ Shown m) ∧
    ∀ k m q, rt.tables.messages.get? k = some m → inChannel spaceId channelId m = true →
      m.serverSeq = some q → Above rt.tables spaceId channelId q → q < seq →
      admissible rt.turnId (some seq) (q, m) = true
  | _ => False

/-- The invariant of the runs that hide nothing. -/
structure Runtime.Sound (rt : Runtime) : Prop where
  sequenced : Sequenced rt.tables
  cached : ∀ spaceId channelId t, rt.throughByChannel (spaceId, channelId) = some t →
    ShownThrough rt.tables spaceId channelId t

theorem sound_idle : Runtime.idle.Sound := by
  refine ⟨⟨fun k m seq hg => ?_, fun k k' m m' seq hg => ?_⟩, nofun⟩
  · cases hg
  · cases hg

theorem Runtime.Sound.fresh {rt : Runtime} (h : rt.Sound) : rt.Fresh := by
  intro spaceId channelId t ht
  unfold Runtime.getActiveTurnThroughSeq at ht
  split_ifs at ht
  split at ht
  case h_1 persisted advanced hp ha =>
    obtain rfl := Option.some.inj ht
    rcases max_choice persisted advanced with hm | hm
    · rw [hm]
      exact shownThrough_of_proven h.sequenced hp
    · rw [hm]
      exact h.cached spaceId channelId advanced ha
  case h_2 persisted hp ha =>
    obtain rfl := Option.some.inj ht
    exact shownThrough_of_proven h.sequenced hp
  case h_3 hp => exact h.cached spaceId channelId t ht

end Hiding

section Store
variable {s : Tables} {op : Store.Op} {m : MessageRow}

/-- Only a receipt files rows under a new sequence. -/
theorem files_iff (h : (op.licence s).files m) :
    ∃ payload seq disposition reason receivedAt now,
      op = .storeReceipt payload seq disposition reason receivedAt now ∧
        Filed s payload seq disposition m := by
  cases op <;> first | exact h.elim | exact ⟨_, _, _, _, _, _, rfl, h⟩

/-- Only a requeue takes rows back. -/
theorem requeues_iff (h : (op.licence s).requeues m) :
    ∃ ids turnId now, op = .requeueMessages ids turnId now ∧ m.envelopeId ∈ ids ∧
      m.isInTurn turnId = true ∧ m.envelopeId ∉ s.messageCovers.rows.map (·.coveredEnvelopeId) := by
  cases op <;> first | exact h.elim | exact ⟨_, _, _, rfl, h⟩

/-- Only a call for it moves a baseline. -/
theorem rebases_iff {row : ChannelContextRow} (h : (op.licence s).rebases row) :
    ∃ spaceId channelId seq updatedAt now,
      op = .setContextBaseline spaceId channelId seq updatedAt now ∧
        row.key = (spaceId, channelId) ∧ row.contextBaselineSeq = seq ∧ 0 ≤ seq := by
  cases op <;> first | exact h.elim | exact ⟨_, _, _, _, _, rfl, h⟩

theorem sequenced_store (h : Sequenced s) (op : Store.Op) : Sequenced (Store.step s op) := by
  have hl := (step_effect s op).ledger
  constructor
  · intro k m seq hg hs
    obtain hf | ⟨m₀, hg₀, hst, -⟩ := Ledger.sequenced hl hg hs
    · obtain ⟨payload, q, disposition, _, _, _, -, hf⟩ := files_iff hf
      rw [hf.sequence] at hs
      obtain rfl := Option.some.inj hs
      exact hf.positive
    · exact h.positive k m₀ seq hg₀ (hst.sequence ▸ hs)
  · intro k k' m m' seq hg hg' hs hs'
    have hk : m.envelopeId = k := Table.get?_key hg
    have hk' : m'.envelopeId = k' := Table.get?_key hg'
    obtain hf | ⟨m₀, hg₀, hst, -⟩ := Ledger.sequenced hl hg hs <;>
      obtain hf' | ⟨m₀', hg₀', hst', -⟩ := Ledger.sequenced hl hg' hs'
    · obtain ⟨payload, q, disposition, _, _, _, rfl, hf⟩ := files_iff hf
      rw [← hk, ← hk', hf.envelope, Filed.envelope hf']
    · obtain ⟨payload, q, disposition, _, _, _, -, hf⟩ := files_iff hf
      rw [hf.sequence] at hs
      refine absurd ?_ (hf.free m₀' (Table.mem_of_get? hg₀'))
      rw [hs, ← hst'.sequence, hs']
    · obtain ⟨payload, q, disposition, _, _, _, -, hf'⟩ := files_iff hf'
      rw [hf'.sequence] at hs'
      refine absurd ?_ (hf'.free m₀ (Table.mem_of_get? hg₀))
      rw [hs', ← hst.sequence, hs]
    · exact h.unique k k' m₀ m₀' seq hg₀ hg₀' (hst.sequence ▸ hs) (hst'.sequence ▸ hs')

/-- The baseline of a channel is as it was, or the step asked for another. -/
theorem contextBaseline_store (s : Tables) (op : Store.Op) (spaceId channelId : String) :
    contextBaseline (Store.step s op) spaceId channelId = contextBaseline s spaceId channelId ∨
      ∃ baseline updatedAt now,
        op = .setContextBaseline spaceId channelId baseline updatedAt now ∧ 0 ≤ baseline ∧
        contextBaseline (Store.step s op) spaceId channelId = some baseline := by
  unfold contextBaseline
  obtain he | ⟨row, hg, hr⟩ := (step_effect s op).context (spaceId, channelId)
  · rw [he]
    exact .inl rfl
  · obtain ⟨space, channel, baseline, updatedAt, now, hop, hk, hb, hpos⟩ := rebases_iff hr
    have hkey : row.key = (spaceId, channelId) := Table.get?_key hg
    obtain ⟨rfl, rfl⟩ := Prod.mk.inj (hk.symm.trans hkey)
    refine .inr ⟨baseline, updatedAt, now, hop, hpos, ?_⟩
    rw [hg, Option.map_some, hb]

variable {rt : Runtime} {spaceId channelId : String} {seq : Int}

/-- A filed row that lands under the cache is shown, unless the receipt hides it. -/
theorem shown_of_filed {payload : Payload} {disposition : ReceiptDisposition} {reason : String}
    {receivedAt now : Int} (hf : Filed rt.tables payload seq disposition m)
    (hc : inChannel spaceId channelId m = true) (ha : Above rt.tables spaceId channelId seq)
    (ht : rt.Caches spaceId channelId seq)
    (hop : ¬ (Op.store (.storeReceipt payload seq disposition reason receivedAt now)).hides rt) :
    Shown m := by
  by_contra hm
  refine hop ⟨spaceId, channelId, ht, ha, hf.positive, hf.free, ?_⟩
  simp only [inChannel, decide_eq_true_eq] at hc ⊢
  obtain ⟨hn, hkind, hspace, hchannel, hd⟩ | ⟨m₀, hg, hs, hkind, hspace, hchannel, hv, ht⟩ := hf.row
  · rw [hkind, hspace, hchannel] at hc
    refine .inl ⟨hn, hc.1, hc.2.1, hc.2.2, ?_⟩
    rintro rfl
    exact hm (.inr hd)
  · rw [hkind, hspace, hchannel] at hc
    refine .inr ⟨m₀, hg, hs, hc, ?_⟩
    rintro (hv₀ | ht₀)
    · exact hm (.inl (hv ▸ hv₀))
    · exact hm (.inr (ht ht₀))

/-- Another requeue is refused. -/
theorem requeueMessages_requeueable (ids : List String) (turnId : String) (now : Int) :
    Does (fun s _ _ => Requeueable s ids turnId) (requeueMessages ids turnId now) := by
  refine (exactIds_does ids).bind_of_read fun _ => (Does.read (does_transaction
    (E := fun s _ _ => Requeueable s ids turnId) ?_ ?_) fun _ s => getTurnRun turnId s).mono fun _ _ _ ⟨_, he, _⟩ => he
  all_goals
    intro s u s' h
    simp only [requeueMessagesBody, updateRows, bind_assoc, pure_bind, query_bind_ok_iff, exec_bind_ok_iff,
      raiseIf_bind_ok_iff] at h
    obtain ⟨hids, -, h⟩ := h
    obtain ⟨_, t, hfin, -⟩ := bind_ok_iff.mp h
    obtain ⟨hlength, hset⟩ := not_or.mp hids
    exact ⟨(finishTurnRun_ok (by decide) hfin).1, not_not.mp hlength, not_not.mp hset⟩

theorem sound_store (h : rt.Sound) (hop : ¬ (Op.store op).hides rt) :
    (step rt (.store op)).Sound := by
  refine ⟨sequenced_store h.sequenced op, ?_⟩
  intro spaceId channelId t ht k m seq hg hc hs ha hle
  have hcache : rt.Caches spaceId channelId seq := ⟨t, ht, hle⟩
  obtain hb | ⟨baseline, updatedAt, now, rfl, hpos, hb⟩ :=
    contextBaseline_store rt.tables op spaceId channelId
  · have habove : Above rt.tables spaceId channelId seq := fun b hb' => ha b (hb.trans hb')
    obtain hf | ⟨m₀, hg₀, hst, hsh⟩ := Ledger.sequenced (step_effect rt.tables op).ledger hg hs
    · obtain ⟨payload, q, disposition, reason, receivedAt, now, rfl, hf⟩ := files_iff hf
      obtain rfl := Option.some.inj (hf.sequence.symm.trans hs)
      exact shown_of_filed hf hc habove hcache hop
    · have hc₀ := (hst.channel spaceId channelId).symm.trans hc
      have hs₀ := hst.sequence.symm.trans hs
      obtain hm | ⟨hr, hterm⟩ := hsh (h.cached spaceId channelId t ht k m₀ seq hg₀ hc₀ hs₀ habove hle)
      · exact hm
      · obtain ⟨ids, turnId, now, rfl, hids, hin, hcov⟩ := requeues_iff hr
        rcases (requeueMessages_requeueable ids turnId now).discard.after rt.tables with hsame | ⟨-, -, -, hrequeue⟩
        · have hg' : rt.tables.messages.get? k = some m := hsame ▸ hg
          exact h.cached spaceId channelId t ht k m seq hg' hc hs habove hle
        · exact absurd ⟨hrequeue, spaceId, channelId, k, m₀, seq, hg₀, hc₀, hs₀, habove, hcache, hterm, hids,
            hin, hcov⟩ hop
  · obtain hf | ⟨m₀, hg₀, hst, hsh⟩ := Ledger.sequenced (step_effect rt.tables _).ledger hg hs
    · exact hf.elim
    · by_contra hm
      refine hop ⟨hpos, k, m₀, seq, hg₀, (hst.channel spaceId channelId).symm.trans hc,
        hst.sequence.symm.trans hs, ha baseline hb, hcache, fun hm₀ => ?_⟩
      obtain hm' | ⟨hr, -⟩ := hsh hm₀
      · exact hm hm'
      · exact hr.elim

end Store

section Boundary
variable {rt : Runtime} {spaceId channelId : String} {seq : Int}

theorem sound_setThrough (h : rt.Sound) (hs : ShownThrough rt.tables spaceId channelId seq) :
    (rt.setThrough spaceId channelId seq).Sound := by
  refine ⟨h.sequenced, fun space channel t ht => ?_⟩
  simp only [Runtime.setThrough] at ht
  split_ifs at ht with hk
  · obtain ⟨rfl, rfl⟩ := Prod.mk.inj hk
    obtain rfl := Option.some.inj ht
    exact hs
  · exact h.cached space channel t ht

theorem sound_prove (h : rt.Sound) (turnId spaceId channelId : String) :
    (rt.proveRow turnId spaceId channelId).Sound := by
  unfold Runtime.proveRow
  split
  · rename_i proven hp
    exact sound_setThrough h (shownThrough_of_proven h.sequenced hp)
  · exact h

/-- What an advance proves is shown: the candidate itself is, or an earlier row stops it. -/
theorem shownThrough_of_candidate {t : Int} (h : rt.Sound) (hturn : rt.turnId ≠ "")
    (hop : ¬ (Op.advance spaceId channelId seq).hides rt)
    (hp : getModelVisibleThroughSeq rt.tables spaceId channelId rt.turnId (some seq) = some t) :
    ShownThrough rt.tables spaceId channelId t := by
  intro k m q hg hc hs ha hle
  obtain hm | hq := shown_of_admissible
    (getModelVisibleThroughSeq_shown h.sequenced hp hg hc hs ha hle)
  · exact hm
  · obtain rfl := Option.some.inj hq
    by_contra hm
    refine hop ⟨hturn, ⟨k, m, hg, hc, hs, ha, hm⟩, ?_⟩
    intro k' m' q hg' hc' hs' ha' hlt
    exact getModelVisibleThroughSeq_shown h.sequenced hp hg' hc' hs' ha' (by omega)

theorem shownThrough_of_unknown (h : Sequenced rt.tables)
    (hn : ¬ hasKnownChannelRowsAboveBaseline rt.tables spaceId channelId = true) :
    ShownThrough rt.tables spaceId channelId seq := by
  intro k m q hg hc hs ha hle
  refine absurd ?_ hn
  rw [hasKnownChannelRowsAboveBaseline, List.any_eq_true]
  refine ⟨(q, m), mem_channelRows.mpr ⟨Table.mem_of_get? hg, hc, hs⟩, ?_⟩
  have hpos := h.positive k m q hg hs
  cases hb : contextBaseline rt.tables spaceId channelId with
  | none =>
    simp only [Option.getD_none, decide_eq_true_eq]
    omega
  | some b => exact decide_eq_true (ha b hb)

theorem sound_advance (h : rt.Sound) (hop : ¬ (Op.advance spaceId channelId seq).hides rt) :
    (rt.advanceActiveTurnThroughSeq spaceId channelId seq).Sound := by
  unfold Runtime.advanceActiveTurnThroughSeq
  by_cases hturn : rt.turnId = ""
  · rw [if_pos hturn]
    exact h
  · rw [if_neg hturn]
    split
    · rename_i proven hp
      exact sound_setThrough h (shownThrough_of_candidate h hturn hop hp)
    · split_ifs with hk
      · exact h
      · exact sound_setThrough h (shownThrough_of_unknown h.sequenced hk)

theorem sound_step (h : rt.Sound) {op : Op} (hop : ¬ op.hides rt) : (step rt op).Sound := by
  cases op with
  | store op => exact sound_store h hop
  | prove turnId spaceId channelId => exact sound_prove h turnId spaceId channelId
  | advance spaceId channelId seq => exact sound_advance h hop
  | activate turnId => exact ⟨h.sequenced, h.cached⟩
  | clear => exact ⟨h.sequenced, nofun⟩

/-- In a run that hides no row under the cache, the boundary that the turn reports covers
no stored row the model has not been shown. -/
theorem boundary_fresh (ops : List Op)
    (h : Along step (fun rt op => ¬ op.hides rt) Runtime.idle ops) :
    ∀ spaceId channelId t,
      (run step Runtime.idle ops).getActiveTurnThroughSeq spaceId channelId = some t →
      ShownThrough (run step Runtime.idle ops).tables spaceId channelId t :=
  (h.invariant sound_idle fun _ _ hop hs => sound_step hs hop).fresh

/-- A channel message as the server delivers it. -/
def channelPayload (envelopeId : String) : Payload where
  envelopeId := envelopeId
  senderSlug := "alice"
  spaceId := some "sp"
  channelId := some "ch"
  content := .str "hi"
  sentAt := 1

/-- A turn reads the message with sequence 10. -/
def readRun : List Op :=
  [.store (.storeReceipt (channelPayload "m10") 10 .eligible "" 1 1), .activate "turn"] ++
    admitInboxPage [{ payloadValues (channelPayload "m10") 1 with serverSeq := some 10 }] "turn" none 2

/-- Then the message with sequence 8 arrives. -/
def lateRun : List Op :=
  readRun ++ [.store (.storeReceipt (channelPayload "m8") 8 .eligible "" 3 3)]

theorem boundary_covers_late_row :
    (run step Runtime.idle lateRun).getActiveTurnThroughSeq "sp" "ch" = some 10 ∧
    (∃ m, (run step Runtime.idle lateRun).tables.messages.get? "m8" = some m ∧
      inChannel "sp" "ch" m = true ∧ m.serverSeq = some 8 ∧ m.processingState = some .pending ∧
      m.modelVisibleAt = none ∧ m.receiptDisposition = some .eligible) ∧
    contextBaseline (run step Runtime.idle lateRun).tables "sp" "ch" = none := by
  refine ⟨by decide, ?_, by decide⟩
  refine ⟨{ payloadValues (channelPayload "m8") 3 with
    serverSeq := some 8
    receiptDisposition := some .eligible
    receiptReason := some ""
    processingState := some .pending }, ?_⟩
  decide

/-- Before that the run meets the condition, and the boundary is the message it read. -/
theorem boundary_fresh_read :
    Along step (fun rt op => ¬ op.hides rt) Runtime.idle readRun ∧
    (run step Runtime.idle readRun).getActiveTurnThroughSeq "sp" "ch" = some 10 ∧
    ShownThrough (run step Runtime.idle readRun).tables "sp" "ch" 10 := by
  have halong : Along step (fun rt op => ¬ op.hides rt) Runtime.idle readRun := by
    refine ⟨?_, id, id, id, trivial⟩
    rintro ⟨spaceId, channelId, ⟨t, ht, -⟩, -⟩
    cases ht
  have hb : (run step Runtime.idle readRun).getActiveTurnThroughSeq "sp" "ch" = some 10 := by decide
  exact ⟨halong, hb, boundary_fresh readRun halong "sp" "ch" 10 hb⟩

end Boundary
end PuffoAgent.Freshness
