import PuffoAgent.Freshness.Held
import PuffoAgent.Freshness.Soundness
import PuffoAgent.Inbox.Withholding

/-! The rows that are offered for a held send and the rows that are admitted with it: every
admission was offered before, and an offer is admitted unless a processed, foreign or
unclassified row lies in its interval. -/
namespace PuffoAgent.Freshness
open Store Relational Machine Projection Inbox

section Interval
variable {s : Tables} {turnId : String} {ids : List String} {head : HeldHead} {m : MessageRow}

/-- The row lies in the channel between the shown prefix and the watermark. -/
structure HeldHead.Spans (head : HeldHead) (afterSeq : Int) (m : MessageRow) : Prop where
  space : m.spaceId = some head.spaceId
  channel : m.channelId = some head.channelId
  sequence : ∃ seq, m.serverSeq = some seq ∧ afterSeq < seq ∧ seq ≤ head.latestSeq

theorem spans_iff {afterSeq : Int} : head.Spans afterSeq m ↔ m.spaceId = some head.spaceId ∧
    m.channelId = some head.channelId ∧ m.serverSeq.any (fun q => afterSeq < q ∧ q ≤ head.latestSeq) = true := by
  constructor
  · rintro ⟨hs, hc, seq, hq, hlt, hle⟩
    exact ⟨hs, hc, by simp [hq, hlt, hle]⟩
  · rintro ⟨hs, hc, hq⟩
    obtain ⟨seq, hq, hb⟩ := (Option.any_eq_true _ _).mp hq
    exact ⟨hs, hc, seq, hq, of_decide_eq_true hb⟩

/-- A bounded read that is not full has every row of its interval. -/
theorem mem_heldRows {afterSeq : Int} {spaceId channelId : String} {throughSeq : Int}
    (h : (getHeldReconsiderationRows s spaceId channelId afterSeq throughSeq 51).length ≤ 50) {id : String} :
    id ∈ (getHeldReconsiderationRows s spaceId channelId afterSeq throughSeq 51).map (·.row.envelopeId) ↔
      ∃ m, s.messages.get? id = some m ∧
        HeldHead.Spans ⟨spaceId, channelId, throughSeq, ""⟩ afterSeq m := by
  set p : MessageRow → Bool := fun m => m.spaceId = some spaceId ∧ m.channelId = some channelId ∧
    m.serverSeq.any fun q => afterSeq < q ∧ q ≤ throughSeq with hp
  have hrows : getHeldReconsiderationRows s spaceId channelId afterSeq throughSeq 51 =
      (((s.messages.select p).insertionSort fun a b => sequenceOrder a ≤ sequenceOrder b).take 51).map rowToMsg := rfl
  rw [hrows] at h ⊢
  rw [List.length_map, List.length_take, List.length_insertionSort] at h
  rw [List.take_of_length_le (by rw [List.length_insertionSort]; omega), List.map_map, List.mem_map]
  constructor
  · rintro ⟨m, hm, rfl⟩
    obtain ⟨hmem, hpm⟩ := mem_select ((List.mem_insertionSort _).mp hm)
    exact ⟨m, Table.get?_of_mem hmem, spans_iff.mpr (by simpa [hp] using hpm)⟩
  · rintro ⟨m, hg, hm⟩
    refine ⟨m, (List.mem_insertionSort _).mpr (List.mem_filter.mpr ⟨Table.mem_of_get? hg, ?_⟩), Table.get?_key hg⟩
    simpa [hp] using spans_iff.mp hm

/-- What an admission accepts. -/
theorem loadHeldAdmissionRows_ok_iff : (∃ rows, loadHeldAdmissionRows s turnId ids head = .ok rows) ↔
    ∃ watermark, s.messages.get? head.latestEnvelopeId = some watermark ∧ head.marks watermark = true ∧
      (∀ id ∈ ids, ∃ m, s.messages.get? id = some m ∧ m.spaceId = some head.spaceId ∧
        m.channelId = some head.channelId ∧ m.serverSeq.any (· ≤ head.latestSeq) = true ∧
        heldAdmissible m turnId = true) ∧
      (head.latestEnvelopeId ∈ ids ∨ heldProof watermark turnId = true) := by
  unfold loadHeldAdmissionRows
  constructor
  · rintro ⟨rows, h⟩
    split at h
    · cases h
    · rename_i watermark hw
      obtain ⟨hg, hmark⟩ := Option.filter_eq_some_iff.mp hw
      have hid : watermark.envelopeId = head.latestEnvelopeId := Table.get?_key hg
      dsimp only at h
      split_ifs at h with hlost hcrossed hproof
      simp only [not_or, Bool.not_eq_true, Bool.not_eq_false, List.any_eq_false, decide_eq_true_eq, not_not,
        Option.isNone_eq_false_iff] at hlost hcrossed
      rw [hid, not_and_or, not_not, not_not] at hproof
      refine ⟨watermark, hg, hmark, fun id hid => ?_, hproof⟩
      obtain ⟨m, hm⟩ := Option.isSome_iff_exists.mp (hlost.1 id hid)
      have hrow : m ∈ ids.filterMap s.messages.get? := List.mem_filterMap.mpr ⟨id, hid, hm⟩
      obtain ⟨hspace, hchannel, hseq⟩ := hlost.2 m hrow
      exact ⟨m, hm, hspace, hchannel, hseq, hcrossed m hrow⟩
  · rintro ⟨watermark, hg, hmark, hrows, hproof⟩
    have hw : (s.messages.get? head.latestEnvelopeId).filter head.marks = some watermark :=
      Option.filter_eq_some_iff.mpr ⟨hg, hmark⟩
    have hid : watermark.envelopeId = head.latestEnvelopeId := Table.get?_key hg
    have hrow (m : MessageRow) (hm : m ∈ ids.filterMap s.messages.get?) : m.spaceId = some head.spaceId ∧
        m.channelId = some head.channelId ∧ m.serverSeq.any (· ≤ head.latestSeq) = true ∧
        heldAdmissible m turnId = true := by
      obtain ⟨id, hid, hg⟩ := List.mem_filterMap.mp hm
      obtain ⟨m', hg', h⟩ := hrows id hid
      obtain rfl := Option.some.inj (hg.symm.trans hg')
      exact h
    rw [hw]
    dsimp only
    rw [if_neg, if_neg, if_neg]
    · exact ⟨_, rfl⟩
    · rw [hid]
      rintro ⟨hn, hp⟩
      exact hproof.elim hn hp
    · simp only [Bool.not_eq_true, Bool.not_eq_false, List.any_eq_false, decide_eq_true_eq]
      exact fun m hm => (hrow m hm).2.2.2
    · simp only [not_or, Bool.not_eq_true, Bool.not_eq_false, List.any_eq_false, decide_eq_true_eq, not_not,
        Option.isNone_eq_false_iff]
      refine ⟨fun id hid => ?_, fun m hm => ⟨(hrow m hm).1, (hrow m hm).2.1, (hrow m hm).2.2.1⟩⟩
      obtain ⟨m, hm, -⟩ := hrows id hid
      rw [hm]
      rfl

end Interval
section Records

/-- Evidence is kept of offers only, under the identity it was made for, and only what was
offered is admitted. -/
structure HeldRuntime.Recorded (rt : HeldRuntime) : Prop where
  evidence : ∀ key e, rt.evidence key = some e →
    e ∈ rt.offered ∧ key = (e.activeTurnId, e.providerSessionId, e.head)
  staged : ∀ a ∈ rt.staged, a.request = a.evidence ∧ a.evidence ∈ rt.offered
  accepted : ∀ e ∈ rt.accepted, e ∈ rt.offered

variable {rt rt' : HeldRuntime}

theorem HeldRuntime.Recorded.same (h : rt.Recorded) (he : rt'.evidence = rt.evidence) (hs : rt'.staged = rt.staged)
    (ho : rt'.offered = rt.offered) (ha : rt'.accepted = rt.accepted) : rt'.Recorded := by
  refine ⟨?_, ?_, ?_⟩
  · rw [he, ho]
    exact h.evidence
  · rw [hs, ho]
    exact h.staged
  · rw [ha, ho]
    exact h.accepted

/-- Dropping evidence is harmless. -/
theorem HeldRuntime.Recorded.dropped (h : rt.Recorded) (he : ∀ key e, rt'.evidence key = some e →
    rt.evidence key = some e) (hs : rt'.staged = rt.staged) (ho : rt'.offered = rt.offered)
    (ha : rt'.accepted = rt.accepted) : rt'.Recorded := by
  refine ⟨fun key e hk => ?_, ?_, ?_⟩
  · rw [ho]
    exact h.evidence key e (he key e hk)
  · rw [hs, ho]
    exact h.staged
  · rw [ha, ho]
    exact h.accepted

theorem recordAdmissionEvidence_recorded (h : rt.Recorded) (head : HeldHead) (session : String)
    (rows : List StoredMessage) (staging : HeldStaging) :
    (rt.recordAdmissionEvidence head session rows staging).Recorded := by
  refine ⟨fun key e hk => ?_, fun a ha => ?_, fun e he => ?_⟩
  · simp only [HeldRuntime.recordAdmissionEvidence, HeldRuntime.setHeld] at hk ⊢
    split_ifs at hk with hkey
    · obtain rfl := Option.some.inj hk
      exact ⟨List.mem_append_right _ (List.mem_singleton_self _), hkey⟩
    · obtain ⟨ho, hkey⟩ := h.evidence key e hk
      exact ⟨List.mem_append_left _ ho, hkey⟩
  · obtain ⟨hr, ho⟩ := h.staged a ha
    exact ⟨hr, List.mem_append_left _ ho⟩
  · exact List.mem_append_left _ (h.accepted e he)

theorem query_recorded (h : rt.Recorded) (head : HeldHead) (session : Option String) :
    (rt.queryHeldMessages head session).1.Recorded := by
  unfold HeldRuntime.queryHeldMessages HeldRuntime.rejectQuery
  dsimp only
  split
  · exact h.same rfl rfl rfl rfl
  split
  · exact h.same rfl rfl rfl rfl
  split
  · exact h.same rfl rfl rfl rfl
  · exact recordAdmissionEvidence_recorded h head _ _ _

theorem stage_recorded (h : rt.Recorded) (head : HeldHead) (correlationKey : String) :
    (rt.stageHeldSendResult head correlationKey).Recorded := by
  unfold HeldRuntime.stageHeldSendResult
  dsimp only
  split_ifs
  · exact h
  split
  · exact h
  rename_i evidence hk
  obtain ⟨ho, hkey⟩ := h.evidence _ evidence hk
  obtain ⟨hturn, hsession, hhead⟩ : rt.turnId = evidence.activeTurnId ∧
      rt.providerSessionId.getD "" = evidence.providerSessionId ∧ head = evidence.head := by simpa using hkey
  have hstaged (rt' : HeldRuntime) (he : rt'.evidence = rt.evidence) (hs : rt'.staged = rt.staged ++
      [⟨false, correlationKey, rt.turnId, rt.providerSessionId.getD "", evidence, evidence.displayedIds,
        head.spaceId, head.channelId, head.latestSeq⟩]) (ho' : rt'.offered = rt.offered)
      (ha : rt'.accepted = rt.accepted) : rt'.Recorded := by
    refine ⟨by rw [he, ho']; exact h.evidence, fun a hm => ?_, by rw [ha, ho']; exact h.accepted⟩
    rw [ho']
    rcases List.mem_append.mp (hs ▸ hm) with hold | hnew
    · exact h.staged a hold
    · obtain rfl := List.mem_singleton.mp hnew
      refine ⟨?_, ho⟩
      rw [StagedAdmission.request, hturn, hsession, hhead]
  split
  · exact hstaged _ rfl rfl rfl rfl
  · exact hstaged _ rfl rfl rfl rfl

theorem admit_recorded (h : rt.Recorded) (i : Nat) (event : ProviderAdmissionEvent) (now : Int) :
    (rt.admitHeldRecovery i event now).Recorded := by
  unfold HeldRuntime.admitHeldRecovery
  split
  · exact h
  rename_i a hk
  obtain ⟨hrequest, ho⟩ := h.staged a (List.mem_of_getElem? hk)
  split_ifs
  · exact h
  split
  · exact h
  have taken : HeldRuntime.Recorded { rt with
      staged := rt.staged.set i { a with fired := true }
      accepted := rt.accepted ++ [a.request] } := by
    refine ⟨h.evidence, fun b hb => ?_, fun e he => ?_⟩
    · rcases List.mem_or_eq_of_mem_set hb with hold | rfl
      · exact h.staged b hold
      · exact ⟨hrequest, ho⟩
    · rcases List.mem_append.mp he with hold | hnew
      · exact h.accepted e hold
      · obtain rfl := List.mem_singleton.mp hnew
        rw [hrequest]
        exact ho
  have kept {key key' : String × String × HeldHead} {e : HeldAdmissionEvidence}
      (hk : (if key = key' then none else rt.evidence key) = some e) : rt.evidence key = some e := by
    split_ifs at hk
    exact hk
  dsimp only
  split_ifs
  · exact taken.dropped (fun key e hk => kept hk) rfl rfl rfl
  · split
    · exact taken.same rfl rfl rfl rfl
    · exact taken.dropped (fun key e hk => kept hk) rfl rfl rfl

theorem HeldRuntime.Recorded.step (h : rt.Recorded) (op : HeldOp) : (rt.step op).Recorded := by
  cases op with
  | runtime op => exact h.same rfl rfl rfl rfl
  | bind providerSessionId providerTurnId => exact h.same rfl rfl rfl rfl
  | query head session => exact query_recorded h head session
  | stage head correlationKey => exact stage_recorded h head correlationKey
  | admits i event now => exact admit_recorded h i event now
  | clear =>
    refine h.dropped (fun key e hk => ?_) rfl rfl rfl
    simp only [HeldRuntime.step, HeldRuntime.clearTerminalTurn] at hk
    split_ifs at hk
    exact hk

end Records
section Tables
variable (rt : HeldRuntime)

theorem advance_tables (rt : Runtime) (spaceId channelId : String) (seq : Int) :
    (rt.advanceActiveTurnThroughSeq spaceId channelId seq).tables = rt.tables := by
  unfold Runtime.advanceActiveTurnThroughSeq
  repeat' split
  all_goals rfl

theorem step_tables (rt : Runtime) (op : Op) :
    (step rt op).tables = rt.tables ∨ ∃ o, (step rt op).tables = Store.step rt.tables o := by
  cases op with
  | store o => exact .inr ⟨o, rfl⟩
  | prove turnId spaceId channelId =>
    refine .inl ?_
    simp only [step, Runtime.proveRow]
    split <;> rfl
  | advance spaceId channelId seq => exact .inl (advance_tables rt spaceId channelId seq)
  | activate turnId | clear => exact .inl rfl

theorem query_tables (head : HeldHead) (session : Option String) :
    (rt.queryHeldMessages head session).1.tables = rt.tables ∧
      (rt.queryHeldMessages head session).1.turnId = rt.turnId := by
  unfold HeldRuntime.queryHeldMessages
  dsimp only
  split
  · exact ⟨rfl, rfl⟩
  split
  · exact ⟨rfl, rfl⟩
  split <;> exact ⟨rfl, rfl⟩

theorem stage_tables (head : HeldHead) (correlationKey : String) :
    (rt.stageHeldSendResult head correlationKey).tables = rt.tables := by
  unfold HeldRuntime.stageHeldSendResult
  dsimp only
  repeat' split
  all_goals rfl

theorem admit_tables (i : Nat) (event : ProviderAdmissionEvent) (now : Int) :
    (rt.admitHeldRecovery i event now).tables = rt.tables ∨
      ∃ o, (rt.admitHeldRecovery i event now).tables = Store.step rt.tables o := by
  unfold HeldRuntime.admitHeldRecovery
  split
  · exact .inl rfl
  rename_i a _
  split
  · exact .inl rfl
  split
  · exact .inl rfl
  rename_i rows _
  dsimp only
  split
  · exact .inl (advance_tables _ _ _ _)
  · refine .inr ⟨.admitMessages ((rows.filter (·.row.isPending)).map (·.row.envelopeId)) a.activeTurnId
      (some a.providerSessionId) none now, ?_⟩
    rw [Store.step, Sql.after]
    split
    · rename_i e c hrun
      rw [hrun]
    · rename_i u c hrun
      rw [hrun]
      exact advance_tables _ _ _ _

theorem HeldRuntime.step_tables (op : HeldOp) :
    (rt.step op).tables = rt.tables ∨ ∃ o, (rt.step op).tables = Store.step rt.tables o := by
  cases op with
  | runtime op => exact Freshness.step_tables rt.toRuntime op
  | bind | clear => exact .inl rfl
  | query head session => exact .inl (query_tables rt head session).1
  | stage head correlationKey => exact .inl (stage_tables rt head correlationKey)
  | admits i event now => exact admit_tables rt i event now

theorem sequenced_held (h : Sequenced rt.tables) (op : HeldOp) : Sequenced (rt.step op).tables := by
  rcases rt.step_tables op with he | ⟨o, he⟩
  · rw [he]
    exact h
  · rw [he]
    exact sequenced_store h o

end Tables
section Agreement
variable {rt : HeldRuntime} {head : HeldHead} {session : String}

/-- The query returns rows, so a proof too. -/
def HeldRuntime.Offers (rt : HeldRuntime) (head : HeldHead) (session : String) : Prop :=
  (rt.queryHeldMessages head (some session)).2 ≠ []

/-- The rows of the query are accepted when they are presented at once. -/
def HeldRuntime.Accepts (rt : HeldRuntime) (head : HeldHead) (session : String) : Prop :=
  ∃ evidence rows, (rt.queryHeldMessages head (some session)).1.evidence (rt.turnId, session, head) = some evidence ∧
    loadHeldAdmissionRows (rt.queryHeldMessages head (some session)).1.tables rt.turnId evidence.displayedIds head =
      .ok rows

/-- No row above the shown prefix and up to the watermark has been processed, is held by
another turn or has no state, unless it is terminal; and a watermark that the prefix passes
over, as a direct message or under the baseline, is proof by itself. -/
structure HeldRuntime.Recoverable (rt : HeldRuntime) (head : HeldHead) : Prop where
  interval : ∀ k m, rt.tables.messages.get? k = some m → head.Spans (rt.afterSeq head) m →
    m.receiptDisposition ≠ some .terminal → m.processingState ≠ some .processed ∧ m.processingState ≠ none ∧
      (m.processingState = some .inTurn → m.processingTurnId = some rt.turnId)
  watermark : ∀ m, rt.tables.messages.get? head.latestEnvelopeId = some m → head.latestSeq ≤ rt.afterSeq head →
    m.envelopeKind = "dm" ∨ ¬ Above rt.tables head.spaceId head.channelId head.latestSeq →
    heldProof m rt.turnId = true

theorem heldAdmissible_iff {m : MessageRow} {turnId : String} : heldAdmissible m turnId = true ↔
    (m.receiptDisposition ≠ some .terminal → m.processingState ≠ some .processed ∧ m.processingState ≠ none ∧
      (m.processingState = some .inTurn → m.processingTurnId = some turnId)) := by
  simp only [heldAdmissible, MessageRow.isPending, MessageRow.isInTurn, decide_eq_true_eq]
  by_cases hd : m.receiptDisposition = some .terminal
  · simp [hd]
  · cases hp : m.processingState with
    | none => simp [hd]
    | some state => cases state <;> simp [hd]

/-- What a query that returns rows leaves to be presented. -/
theorem offers_evidence (h : rt.Offers head session) :
    (∃ m, rt.tables.messages.get? head.latestEnvelopeId = some m ∧ head.marks m = true) ∧
    (getHeldReconsiderationRows rt.tables head.spaceId head.channelId (rt.afterSeq head) head.latestSeq 51).length ≤ 50 ∧
    ∃ evidence, (rt.queryHeldMessages head (some session)).1.evidence (rt.turnId, session, head) = some evidence ∧
      evidence.displayedIds = (getHeldReconsiderationRows rt.tables head.spaceId head.channelId (rt.afterSeq head)
        head.latestSeq 51).map (·.row.envelopeId) := by
  unfold HeldRuntime.Offers at h
  unfold HeldRuntime.queryHeldMessages at h ⊢
  dsimp only at h ⊢
  split at h
  · exact absurd rfl h
  rename_i hturn
  split at h
  · exact absurd rfl h
  rename_i hmark
  split at h
  · exact absurd rfl h
  rename_i hfull
  rw [if_neg hturn, if_neg hmark, if_neg hfull]
  rw [not_not] at hmark
  exact ⟨(Option.any_eq_true _ _).mp hmark, not_lt.mp hfull, _, if_pos rfl, rfl⟩

/-- The watermark that the shown prefix has reached is proof by itself, or it was passed over. -/
theorem heldProof_of_shown (hs : Sequenced rt.tables) {m : MessageRow}
    (hg : rt.tables.messages.get? head.latestEnvelopeId = some m) (hm : head.marks m = true)
    (hle : head.latestSeq ≤ rt.afterSeq head) (hkind : m.envelopeKind ≠ "dm")
    (ha : Above rt.tables head.spaceId head.channelId head.latestSeq) : heldProof m rt.turnId = true := by
  simp only [HeldHead.marks, decide_eq_true_eq] at hm
  obtain ⟨hseq, hspace, hchannel⟩ := hm
  have hpos := hs.positive _ m _ hg hseq
  have hc : inChannel head.spaceId head.channelId m = true := decide_eq_true ⟨hkind, hspace, hchannel⟩
  unfold HeldRuntime.afterSeq at hle
  cases hp : getModelVisibleThroughSeq rt.tables head.spaceId head.channelId rt.turnId none with
  | none =>
    rw [hp, Option.getD_none] at hle
    omega
  | some t =>
    rw [hp, Option.getD_some] at hle
    have hadm := getModelVisibleThroughSeq_shown hs hp hg hc hseq ha hle
    simp only [admissible, decide_eq_true_eq, reduceCtorEq, false_or] at hadm
    simp only [heldProof, decide_eq_true_eq]
    rcases hadm with ht | ⟨hv, -⟩
    · exact .inl ht
    · exact .inr (.inr hv)

theorem accepts_iff (hs : Sequenced rt.tables) (h : rt.Offers head session) :
    rt.Accepts head session ↔ rt.Recoverable head := by
  obtain ⟨⟨w, hw, hmark⟩, hfull, evidence, he, hids⟩ := offers_evidence h
  have hmem (id : String) : id ∈ evidence.displayedIds ↔ ∃ m, rt.tables.messages.get? id = some m ∧
      head.Spans (rt.afterSeq head) m := by
    rw [hids, mem_heldRows hfull]
    exact exists_congr fun m => and_congr_right fun _ => ⟨fun hm => ⟨hm.1, hm.2, hm.3⟩, fun hm => ⟨hm.1, hm.2, hm.3⟩⟩
  have hwatermark : head.latestEnvelopeId ∈ evidence.displayedIds ↔ rt.afterSeq head < head.latestSeq := by
    have hm := hmark
    simp only [HeldHead.marks, decide_eq_true_eq] at hm
    obtain ⟨hseq, hspace, hchannel⟩ := hm
    rw [hmem]
    constructor
    · rintro ⟨m, hg, hm⟩
      obtain rfl := Option.some.inj (hw.symm.trans hg)
      obtain ⟨seq, hq, hlt, -⟩ := hm.sequence
      obtain rfl := Option.some.inj (hseq.symm.trans hq)
      exact hlt
    · exact fun hlt => ⟨w, hw, hspace, hchannel, head.latestSeq, hseq, hlt, le_rfl⟩
  have hload : rt.Accepts head session ↔ ∃ rows,
      loadHeldAdmissionRows rt.tables rt.turnId evidence.displayedIds head = .ok rows := by
    unfold HeldRuntime.Accepts
    rw [(query_tables rt head (some session)).1]
    constructor
    · rintro ⟨evidence', rows, he', hl⟩
      obtain rfl := Option.some.inj (he.symm.trans he')
      exact ⟨rows, hl⟩
    · exact fun ⟨rows, hl⟩ => ⟨evidence, rows, he, hl⟩
  rw [hload, loadHeldAdmissionRows_ok_iff]
  constructor
  · rintro ⟨w', hw', -, hrows, hproof⟩
    obtain rfl := Option.some.inj (hw.symm.trans hw')
    refine ⟨fun k m hg hm => ?_, fun m hg hle _ => ?_⟩
    · obtain ⟨m', hg', -, -, -, hadm⟩ := hrows k ((hmem k).mpr ⟨m, hg, hm⟩)
      obtain rfl := Option.some.inj (hg.symm.trans hg')
      exact heldAdmissible_iff.mp hadm
    · obtain rfl := Option.some.inj (hw.symm.trans hg)
      rw [hwatermark] at hproof
      exact hproof.resolve_left (not_lt.mpr hle)
  · intro hr
    refine ⟨w, hw, hmark, fun id hid => ?_, ?_⟩
    · obtain ⟨m, hg, hm⟩ := (hmem id).mp hid
      obtain ⟨seq, hq, -, hle⟩ := hm.sequence
      exact ⟨m, hg, hm.space, hm.channel, by simp [hq, hle], heldAdmissible_iff.mpr (hr.interval id m hg hm)⟩
    · rw [hwatermark]
      by_cases hle : head.latestSeq ≤ rt.afterSeq head
      · refine .inr ?_
        by_cases hk : w.envelopeKind = "dm"
        · exact hr.watermark w hw hle (.inl hk)
        · by_cases ha : Above rt.tables head.spaceId head.channelId head.latestSeq
          · exact heldProof_of_shown hs hw hmark hle hk ha
          · exact hr.watermark w hw hle (.inr ha)
      · exact .inl (not_le.mp hle)

/-- In every run, an admission was offered before; and an offer is accepted when it is
presented at once, if and only if it is recoverable. -/
theorem held_admission_iff (ops : List HeldOp) (head : HeldHead) (session : String) :
    (((run HeldRuntime.step .idle ops).Offers head session → (run HeldRuntime.step .idle ops).Accepts head session) ∧
      ∀ e ∈ (run HeldRuntime.step .idle ops).accepted, e ∈ (run HeldRuntime.step .idle ops).offered) ↔
    ((run HeldRuntime.step .idle ops).Offers head session → (run HeldRuntime.step .idle ops).Recoverable head) := by
  have hstep (rt : HeldRuntime) (op : HeldOp) (h : Sequenced rt.tables) : Sequenced (rt.step op).tables :=
    sequenced_held rt h op
  have hs : Sequenced (run HeldRuntime.step .idle ops).tables :=
    @run_invariant _ _ HeldRuntime.step (fun rt => Sequenced rt.tables) .idle sound_idle.sequenced hstep ops
  have hr : (run HeldRuntime.step .idle ops).Recorded :=
    run_invariant ⟨nofun, nofun, nofun⟩ (fun _ op h => h.step op) ops
  rw [and_iff_left hr.accepted]
  exact imp_congr_right fun h => accepts_iff hs h

/-- A turn processes the second message of the channel, and the next turn sends while the
first and the third wait. -/
def passedOver : List HeldOp := [
  .runtime (.store (.storeReceipt (channelPayload "m5") 5 .eligible "" 1 1)),
  .runtime (.store (.storeReceipt { channelPayload "m6" with threadRootId := some "m0" } 6 .eligible "" 1 1)),
  .runtime (.store (.startTurn "t1" (some "s") none none [] 2)),
  .runtime (.store (.admitMessages ["m6"] "t1" (some "s") none 2)),
  .runtime (.store (.markProcessed ["m6"] "t1" none (some "s") 3)),
  .runtime (.store (.storeReceipt (channelPayload "m7") 7 .eligible "" 4 4)),
  .runtime (.store (.startTurn "t2" (some "s") none none [] 5)),
  .runtime (.activate "t2"), .bind (some "s") (some "p")]

def headSeven : HeldHead := ⟨"sp", "ch", 7, "m7"⟩

/-- Three rows are offered, and refused for the one that was processed. -/
theorem processed_row_refused :
    ((run HeldRuntime.step .idle passedOver).tables.messages.get? "m6").bind (·.processingState) = some .processed ∧
    (run HeldRuntime.step .idle passedOver).Offers headSeven "s" ∧
      ¬ (run HeldRuntime.step .idle passedOver).Accepts headSeven "s" := by
  have hids : ((((run HeldRuntime.step .idle passedOver).queryHeldMessages headSeven (some "s")).1.evidence
      ("t2", "s", headSeven)).map (·.displayedIds)) = some ["m5", "m6", "m7"] := by decide +kernel
  have hload : (loadHeldAdmissionRows ((run HeldRuntime.step .idle passedOver).queryHeldMessages headSeven
      (some "s")).1.tables "t2" ["m5", "m6", "m7"] headSeven).toOption.isNone = true := by decide +kernel
  have hturn : (run HeldRuntime.step .idle passedOver).turnId = "t2" := by decide +kernel
  refine ⟨by decide +kernel, ?_, ?_⟩
  · have hlen : ((run HeldRuntime.step .idle passedOver).queryHeldMessages headSeven (some "s")).2.length = 3 := by
      decide +kernel
    exact fun h => absurd (congrArg List.length h) (by rw [hlen]; decide)
  · rintro ⟨evidence, rows, he, hl⟩
    rw [hturn] at he hl
    rw [he] at hids
    have hd : evidence.displayedIds = ["m5", "m6", "m7"] := Option.some.inj hids
    rw [hd] at hl
    rw [hl] at hload
    cases hload

end Agreement
end PuffoAgent.Freshness
