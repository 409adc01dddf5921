import PuffoAgent.Approvals.Flow

/-! What holds of the approval records in every run: the groups agree, answers stand, and
a record leaves only by an ACK that follows its applied transition. -/
namespace PuffoAgent.Approvals
open Relational Store Text

abbrev Records := Table KeylessDmApproval String KeylessDmApproval.envelopeId

namespace KeylessDmApproval

/-- Two records agree on their prompt and its answer. -/
structure Shares (r r' : KeylessDmApproval) : Prop where
  envelope : r.promptEnvelopeId = r'.promptEnvelopeId
  thread : r.promptThreadId = r'.promptThreadId
  decision : r.decision = r'.decision
  clientRef : r.operatorSlug ≠ "" → r.promptClientRef = r'.promptClientRef

theorem Shares.refl (r : KeylessDmApproval) : r.Shares r := ⟨rfl, rfl, rfl, fun _ => rfl⟩

theorem Shares.symm {r r' : KeylessDmApproval} (h : r.Shares r') (hg : r.SameGroup r') : r'.Shares r :=
  ⟨h.envelope.symm, h.thread.symm, h.decision.symm, fun ho => (h.clientRef (by rwa [hg.1])).symm⟩

/-- No prompt and no answer. -/
def Lone (r : KeylessDmApproval) : Prop :=
  r.promptEnvelopeId = none ∧ r.promptThreadId = none ∧ r.decision = .pending

end KeylessDmApproval

/-- The records of every group agree, those that are applied were answered and reported so, and
those held without an operator were never asked about. -/
structure Coherent (applied : List (String × Decision)) (t : Records) : Prop where
  grouped : ∀ id id' r r', t.get? id = some r → t.get? id' = some r' → r.SameGroup r' → r.Shares r'
  done : ∀ id r, t.get? id = some r → r.phase = .applied → r.decision ≠ .pending ∧ (id, r.decision) ∈ applied
  lone : ∀ id r, t.get? id = some r → r.operatorSlug = "" → r.Lone

namespace Coherent
variable {applied : List (String × Decision)} {t : Records}

theorem empty (applied : List (String × Decision)) : Coherent applied .empty :=
  ⟨fun _ _ _ _ h => (by cases h), fun _ _ h => (by cases h), fun _ _ h => (by cases h)⟩

theorem mono (h : Coherent applied t) {applied' : List (String × Decision)} (ha : applied ⊆ applied') :
    Coherent applied' t :=
  ⟨h.grouped, fun id r hr hp => ⟨(h.done id r hr hp).1, ha (h.done id r hr hp).2⟩, h.lone⟩

/-- A new record that agrees with its group. -/
theorem insert (h : Coherent applied t) {r : KeylessDmApproval} (hp : r.phase = .pending)
    (hl : r.operatorSlug = "" → r.Lone)
    (hs : ∀ id r', t.get? id = some r' → r'.SameGroup r → r'.Shares r) :
    Coherent applied (t.insertOrIgnore r) := by
  constructor
  · intro id id' a a' ha ha' hg
    rw [Table.get?_insertOrIgnore] at ha ha'
    split at ha <;> split at ha'
    · cases ha
      cases ha'
      exact .refl r
    · cases ha
      exact (hs id' a' ha' ⟨hg.1.symm, hg.2.symm⟩).symm ⟨hg.1.symm, hg.2.symm⟩
    · cases ha'
      exact hs id a ha hg
    · exact h.grouped id id' a a' ha ha' hg
  · intro id a ha hph
    rw [Table.get?_insertOrIgnore] at ha
    split at ha
    · cases ha
      rw [hp] at hph
      cases hph
    · exact h.done id a ha hph
  · intro id a ha ho
    rw [Table.get?_insertOrIgnore] at ha
    split at ha
    · cases ha
      exact hl ho
    · exact h.lone id a ha ho

theorem delete (h : Coherent applied t) (p : KeylessDmApproval → Bool) : Coherent applied (t.delete p) := by
  have sub : ∀ id r, (t.delete p).get? id = some r → t.get? id = some r := by
    intro id r hr
    rw [Table.get?_delete, Option.filter_eq_some_iff] at hr
    exact hr.1
  exact ⟨fun id id' r r' hr hr' => h.grouped id id' r r' (sub id r hr) (sub id' r' hr'),
    fun id r hr => h.done id r (sub id r hr), fun id r hr => h.lone id r (sub id r hr)⟩

/-- A change that treats the records of a group alike. -/
theorem update (h : Coherent applied t) {p : KeylessDmApproval → Bool} {f : KeylessDmApproval → KeylessDmApproval}
    (hf : ∀ r, (f r).envelopeId = r.envelopeId)
    (hg : ∀ r, (f r).operatorSlug = r.operatorSlug ∧ (f r).senderSlug = r.senderSlug)
    (hs : ∀ r r', r.SameGroup r' → r.Shares r' → (if p r then f r else r).Shares (if p r' then f r' else r'))
    (hd : ∀ id r, t.get? id = some r → p r → (f r).phase = .applied →
      (f r).decision ≠ .pending ∧ (id, (f r).decision) ∈ applied)
    (hl : ∀ id r, t.get? id = some r → p r → r.operatorSlug = "" → (f r).Lone) :
    Coherent applied (t.update p f hf) := by
  have hgroup : ∀ r, (if p r then f r else r).operatorSlug = r.operatorSlug ∧
      (if p r then f r else r).senderSlug = r.senderSlug := by
    intro r
    split
    · exact hg r
    · exact ⟨rfl, rfl⟩
  constructor
  · intro id id' a a' ha ha' hsame
    rw [Table.get?_update] at ha ha'
    obtain ⟨r, hr, rfl⟩ := Option.map_eq_some_iff.1 ha
    obtain ⟨r', hr', rfl⟩ := Option.map_eq_some_iff.1 ha'
    have hsg : r.SameGroup r' := by
      have h1 := hsame.1
      have h2 := hsame.2
      rw [(hgroup r).1, (hgroup r').1] at h1
      rw [(hgroup r).2, (hgroup r').2] at h2
      exact ⟨h1, h2⟩
    exact hs r r' hsg (h.grouped id id' r r' hr hr' hsg)
  · intro id a ha hph
    rw [Table.get?_update] at ha
    obtain ⟨r, hr, rfl⟩ := Option.map_eq_some_iff.1 ha
    split at hph
    · rename_i hp
      simp only [hp, if_true]
      exact hd id r hr hp hph
    · rename_i hp
      simp only [hp, Bool.false_eq_true, if_false]
      exact h.done id r hr hph
  · intro id a ha ho
    rw [Table.get?_update] at ha
    obtain ⟨r, hr, rfl⟩ := Option.map_eq_some_iff.1 ha
    rw [(hgroup r).1] at ho
    split
    · rename_i hp
      exact hl id r hr hp ho
    · exact h.lone id r hr ho

end Coherent

namespace Flow

structure Sound (m : Flow) : Prop where
  synced : m.pending.Synced codec
  coherent : Coherent m.applied m.pending.memory
  finals : ∀ id approved, .finalize id approved ∈ m.tasks → ∀ r, m.record? id = some r → r.decision = decisionOf approved
  acks : ∀ id tasks, m.tasks = .ack id :: tasks → ∃ r, m.record? id = some r ∧ r.phase = .applied
  later : ∀ id, .ack id ∉ m.tasks.tail
  prompts : ∀ r operatorSlug, .sendPrompt r operatorSlug ∈ m.tasks → operatorSlug ≠ ""

theorem Sound.initial (operatorSlug : String) (tables : Tables) : Sound (initial operatorSlug tables) where
  synced := rfl
  coherent := .empty []
  finals _ _ h := by cases h
  acks _ _ h := by cases h
  later _ h := by cases h
  prompts _ _ h := by cases h

/-- What one step does to a record, to the ACKs and to the transitions of the store. -/
structure Moves (m m' : Flow) : Prop where
  kept : ∀ id r r', m.record? id = some r → m'.record? id = some r' → r.decision ≠ .pending → r'.decision = r.decision
  removed : ∀ id r, m.record? id = some r → m'.record? id = none → m'.acknowledged = id :: m.acknowledged
  sent : m'.acked = m.acked ∨ ∃ id r, m'.acked = id :: m.acked ∧ m.record? id = some r ∧ r.phase = .applied
  answered : m'.applied = m.applied ∨ ∃ id r approved, m.record? id = some r ∧
    m'.applied = (id, decisionOf approved) :: m.applied ∧ Answered (verdictOf approved) id r.serverSeq m'.tables

variable {m m' : Flow}

/-- A step that leaves the records as they are and sends nothing. -/
theorem Moves.still (h : m'.pending.memory = m.pending.memory) (ha : m'.acked = m.acked)
    (hp : m'.applied = m.applied) : Moves m m' := by
  have hr : ∀ id, m'.record? id = m.record? id := fun id => by rw [record?, record?, h]
  refine ⟨?_, ?_, .inl ha, .inl hp⟩
  · intro id r r' hm hm' _
    rw [hr, hm] at hm'
    cases hm'
    rfl
  · intro id r hm hm'
    rw [hr, hm] at hm'
    cases hm'

theorem persistThen_cases (m : Flow) (rows : Records) (persists : Bool) (next : Flow → Flow) :
    m.persistThen rows persists next = m ∨
      m.persistThen rows persists next = next { m with pending := ⟨rows, codec.save rows⟩ } := by
  cases persists with
  | true => exact .inr rfl
  | false => exact .inl rfl

section Edits
variable (m)

theorem record?_promptGroup (operatorSlug senderSlug promptEnvelope promptThread id : String)
    {r' : KeylessDmApproval}
    (h : (m.promptGroup operatorSlug senderSlug promptEnvelope promptThread).get? id = some r') :
    ∃ r, m.record? id = some r ∧ r'.decision = r.decision ∧ r'.phase = r.phase := by
  rw [promptGroup, Table.get?_update] at h
  obtain ⟨r, hr, rfl⟩ := Option.map_eq_some_iff.1 h
  refine ⟨r, hr, ?_⟩
  split <;> exact ⟨rfl, rfl⟩

theorem record?_markApplied (envelopeId id : String) {r' : KeylessDmApproval}
    (h : (m.markApplied envelopeId).get? id = some r') :
    ∃ r, m.record? id = some r ∧ r'.decision = r.decision := by
  rw [markApplied, Table.get?_update] at h
  obtain ⟨r, hr, rfl⟩ := Option.map_eq_some_iff.1 h
  refine ⟨r, hr, ?_⟩
  split <;> rfl

theorem record?_decideMatched (threadRootId : String) (decision : Decision) (id : String)
    {r' : KeylessDmApproval} (h : (m.decideMatched threadRootId decision).get? id = some r') :
    ∃ r, m.record? id = some r ∧ r'.decision =
      if isPromptOf threadRootId r ∧ r.decision = .pending then decision else r.decision := by
  rw [decideMatched, Table.get?_update] at h
  obtain ⟨r, hr, rfl⟩ := Option.map_eq_some_iff.1 h
  refine ⟨r, hr, ?_⟩
  by_cases hp : isPromptOf threadRootId r ∧ r.decision = .pending <;> simp [hp]

variable {m}

theorem Sound.promptGroup (h : m.Sound) {operatorSlug : String} (ho : operatorSlug ≠ "")
    (senderSlug promptEnvelope promptThread : String) :
    Coherent m.applied (m.promptGroup operatorSlug senderSlug promptEnvelope promptThread) := by
  refine h.coherent.update _ (fun _ => ⟨rfl, rfl⟩) ?_ ?_ ?_
  · intro r r' hg hs
    have hiff : (r.operatorSlug = operatorSlug ∧ r.senderSlug = senderSlug) ↔
        (r'.operatorSlug = operatorSlug ∧ r'.senderSlug = senderSlug) := by rw [hg.1, hg.2]
    by_cases hp : r.operatorSlug = operatorSlug ∧ r.senderSlug = senderSlug
    · rw [if_pos (decide_eq_true hp), if_pos (decide_eq_true (hiff.1 hp))]
      exact ⟨rfl, rfl, hs.decision, hs.clientRef⟩
    · simp only [hp, mt hiff.2 hp, decide_false, Bool.false_eq_true, if_false]
      exact hs
  · intro id r hr _ hph
    exact h.coherent.done id r hr hph
  · intro id r _ hp he
    have hop := (of_decide_eq_true hp).1
    rw [he] at hop
    exact absurd hop.symm ho

theorem Sound.decideMatched (h : m.Sound) (threadRootId : String) (decision : Decision) :
    Coherent m.applied (m.decideMatched threadRootId decision) := by
  refine h.coherent.update _ (fun _ => ⟨rfl, rfl⟩) ?_ ?_ ?_
  · intro r r' _ hs
    have hiff : (isPromptOf threadRootId r ∧ r.decision = .pending) ↔
        (isPromptOf threadRootId r' ∧ r'.decision = .pending) := by
      simp only [isPromptOf, hs.envelope, hs.thread, hs.decision]
    by_cases hp : isPromptOf threadRootId r ∧ r.decision = .pending
    · rw [if_pos (decide_eq_true hp), if_pos (decide_eq_true (hiff.1 hp))]
      exact ⟨hs.envelope, hs.thread, rfl, hs.clientRef⟩
    · simp only [hp, mt hiff.2 hp, decide_false, Bool.false_eq_true, if_false]
      exact hs
  · intro id r hr hp hph
    have hopen := (h.coherent.done id r hr hph).1
    exact absurd (of_decide_eq_true hp).2 hopen
  · intro id r hr hp ho
    have hl := h.coherent.lone id r hr ho
    have hm := (of_decide_eq_true hp).1
    simp [isPromptOf, hl.1, hl.2.1] at hm

theorem Sound.markApplied (h : m.Sound) {envelopeId : String} {r : KeylessDmApproval}
    (hr : m.record? envelopeId = some r) (hd : r.decision ≠ .pending)
    {applied : List (String × Decision)} (ha : m.applied ⊆ applied) (hm : (envelopeId, r.decision) ∈ applied) :
    Coherent applied (m.markApplied envelopeId) := by
  refine (h.coherent.mono ha).update _ (fun _ => ⟨rfl, rfl⟩) ?_ ?_ ?_
  · intro a a' _ hs
    split <;> split <;> exact ⟨hs.envelope, hs.thread, hs.decision, hs.clientRef⟩
  · intro id a hida hp _
    have hid : id = envelopeId := by
      rw [← Table.get?_key hida]
      simpa using hp
    subst hid
    have : a = r := Option.some.inj (hida.symm.trans hr)
    subst this
    exact ⟨hd, hm⟩
  · exact fun id a hida _ ho => h.coherent.lone id a hida ho

end Edits

section Steps

/-- A step that is sound, with what it does. -/
def Good (m m' : Flow) : Prop := m'.Sound ∧ Moves m m'

theorem Sound.good_refl (h : m.Sound) : Good m m := ⟨h, .still rfl rfl rfl⟩

/-- Other tasks, none of them an ACK, that finalize records by their answers. -/
theorem Sound.withTasks (h : m.Sound) {tasks : List Task} (ha : ∀ id, .ack id ∉ tasks)
    (hp : ∀ r operatorSlug, .sendPrompt r operatorSlug ∈ tasks → operatorSlug ≠ "")
    (hf : ∀ id approved, .finalize id approved ∈ tasks → ∀ r, m.record? id = some r → r.decision = decisionOf approved) :
    (m.withTasks tasks).Sound := by
  refine ⟨h.synced, h.coherent, hf, ?_, fun id hm => ha id (List.mem_of_mem_tail hm), hp⟩
  intro id ts he
  refine absurd ?_ (ha id)
  rw [show tasks = .ack id :: ts from he]
  exact List.mem_cons_self

/-- The head task is taken. -/
theorem Sound.tail (h : m.Sound) {task : Task} {tasks : List Task} (ht : m.tasks = task :: tasks) :
    (m.withTasks tasks).Sound := by
  have hsub : ∀ t, t ∈ tasks → t ∈ m.tasks := fun t hm => by rw [ht]; exact List.mem_cons_of_mem _ hm
  exact h.withTasks (fun id hm => h.later id (by rwa [ht])) (fun r op hm => h.prompts r op (hsub _ hm))
    fun id approved hm => h.finals id approved (hsub _ hm)

/-- The records change and the tasks that are left still fit them. -/
theorem Sound.edited (h : m.Sound) {rows : Records} (hc : Coherent m.applied rows) (ha : ∀ id, .ack id ∉ m.tasks)
    (hd : ∀ id r', rows.get? id = some r' → ∃ r, m.record? id = some r ∧ r'.decision = r.decision) :
    Sound { m with pending := ⟨rows, codec.save rows⟩ } := by
  refine ⟨rfl, hc, ?_, ?_, fun id hm => ha id (List.mem_of_mem_tail hm), h.prompts⟩
  · intro id approved hm r' hr'
    obtain ⟨r, hr, he⟩ := hd id r' hr'
    rw [he]
    exact h.finals id approved hm r hr
  · intro id ts he
    refine absurd ?_ (ha id)
    rw [show m.tasks = .ack id :: ts from he]
    exact List.mem_cons_self

theorem get?_insertOrIgnore_of_some {t : Records} {id : String} {r a : KeylessDmApproval} (h : t.get? id = some r) :
    (t.insertOrIgnore a).get? id = some r := by
  rw [Table.get?_insertOrIgnore, h]
  simp

/-- A record is added and nothing else happens. -/
theorem Moves.added {rows : Records} {a : KeylessDmApproval} (hrows : rows = m.pending.memory.insertOrIgnore a)
    (tasks : List Task) : Moves m { m with pending := ⟨rows, codec.save rows⟩, tasks := tasks } := by
  have hget : ∀ id r, m.record? id = some r → rows.get? id = some r :=
    fun id r hr => by rw [hrows]; exact get?_insertOrIgnore_of_some hr
  refine ⟨?_, ?_, .inl rfl, .inl rfl⟩
  · intro id r r' hr hr' _
    have := hget id r hr
    rw [show rows.get? id = some r' from hr'] at this
    cases this
    rfl
  · intro id r hr hn
    have := hget id r hr
    rw [show rows.get? id = none from hn] at this
    cases this

/-- The records keep their places and their answers. -/
theorem Moves.edited {rows : Records}
    (hd : ∀ id r', rows.get? id = some r' → ∃ r, m.record? id = some r ∧ (r.decision ≠ .pending → r'.decision = r.decision))
    (hk : ∀ id r, m.record? id = some r → (rows.get? id).isSome) (tasks : List Task) :
    Moves m { m with pending := ⟨rows, codec.save rows⟩, tasks := tasks } := by
  refine ⟨?_, ?_, .inl rfl, .inl rfl⟩
  · intro id r r' hr hr' hp
    obtain ⟨r₀, hr₀, he⟩ := hd id r' hr'
    rw [hr] at hr₀
    cases hr₀
    exact he hp
  · intro id r hr hn
    have := hk id r hr
    rw [show rows.get? id = none from hn] at this
    cases this

theorem isSome_update {t : Records} {p : KeylessDmApproval → Bool} {f : KeylessDmApproval → KeylessDmApproval}
    (hf : ∀ r, (f r).envelopeId = r.envelopeId) {id : String} {r : KeylessDmApproval} (h : t.get? id = some r) :
    ((t.update p f hf).get? id).isSome := by
  rw [Table.get?_update, h]
  rfl

theorem isSome_markApplied (envelopeId : String) {id : String} {r : KeylessDmApproval} (h : m.record? id = some r) :
    ((m.markApplied envelopeId).get? id).isSome := isSome_update _ h

theorem good_sendPrompt (h : m.Sound) (ha : ∀ id, .ack id ∉ m.tasks) (record : KeylessDmApproval)
    {operatorSlug : String} (ho : operatorSlug ≠ "") (e : Effects) : Good m (m.sendPrompt record operatorSlug e) := by
  unfold sendPrompt
  split
  · exact h.good_refl
  · dsimp only
    rcases m.persistThen_cases _ e.persists id with he | he
    · rw [he]
      exact h.good_refl
    · rw [he]
      refine ⟨h.edited (h.promptGroup ho ..) ha ?_, Moves.edited ?_ ?_ m.tasks⟩
      · intro id r' hr'
        obtain ⟨r, hr, hd, -⟩ := m.record?_promptGroup _ _ _ _ id hr'
        exact ⟨r, hr, hd⟩
      · intro id r' hr'
        obtain ⟨r, hr, hd, -⟩ := m.record?_promptGroup _ _ _ _ id hr'
        exact ⟨r, hr, fun _ => hd⟩
      · exact fun id r hr => isSome_update _ hr

theorem Sound.join_shares (h : m.Sound) (r : KeylessDmApproval) (id : String) (r' : KeylessDmApproval)
    (hr' : m.record? id = some r') (hg : r'.SameGroup (m.join r)) : r'.Shares (m.join r) := by
  unfold join at hg ⊢
  split at hg
  · rename_i hn
    have := List.find?_eq_none.1 hn r' (Table.mem_of_get? hr')
    exact absurd (decide_eq_true ⟨hg.1, hg.2⟩) this
  · rename_i base hb
    have hbase := m.pending.memory.get?_of_mem (List.mem_of_find?_eq_some hb)
    have hbg : base.operatorSlug = r.operatorSlug ∧ base.senderSlug = r.senderSlug := by
      simpa using List.find?_some hb
    have hs := h.coherent.grouped _ _ _ _ hr' hbase ⟨hg.1.trans hbg.1.symm, hg.2.trans hbg.2.symm⟩
    exact ⟨hs.envelope, hs.thread, hs.decision, hs.clientRef⟩

theorem join_operatorSlug (r : KeylessDmApproval) : (m.join r).operatorSlug = r.operatorSlug := by
  unfold join
  split <;> rfl

theorem join_phase (r : KeylessDmApproval) : (m.join r).phase = r.phase := by
  unfold join
  split <;> rfl

theorem join_envelopeId (r : KeylessDmApproval) : (m.join r).envelopeId = r.envelopeId := by
  unfold join
  split <;> rfl

theorem mem_firstTasks {r : KeylessDmApproval} {joined : Bool} {task : Task} (h : task ∈ firstTasks r joined) :
    task = .sendPrompt r r.operatorSlug ∨
      ∃ approved, task = .finalize r.envelopeId approved ∧ r.decision = decisionOf approved := by
  unfold firstTasks at h
  split at h
  · split at h
    · rename_i hd
      rw [List.mem_singleton] at h
      exact .inr ⟨true, h, hd⟩
    · rename_i hd
      rw [List.mem_singleton] at h
      exact .inr ⟨false, h, hd⟩
    · cases h
  · rw [List.mem_singleton] at h
    exact .inl h

theorem good_recordGatedDm (h : m.Sound) (ht : m.tasks = []) (held : Held) (persists : Bool) :
    Good m (m.recordGatedDm held persists) := by
  have hnone : ∀ task, task ∉ m.tasks := by
    intro task
    rw [ht]
    exact List.not_mem_nil
  unfold recordGatedDm
  split
  · exact h.good_refl
  · rename_i hfresh
    have hfree : m.record? held.envelopeId = none := by simpa using hfresh
    dsimp only
    split
    · rename_i ho
      rcases m.persistThen_cases (m.pending.memory.insertOrIgnore (m.newRecord held)) persists id with he | he
      · rw [he]
        exact h.good_refl
      · rw [he]
        refine ⟨⟨rfl, h.coherent.insert rfl (fun _ => ⟨rfl, rfl, rfl⟩) ?_, ?_, ?_, ?_, ?_⟩, Moves.added rfl m.tasks⟩
        · intro id r' hr' hg
          have hl := h.coherent.lone id r' hr' (hg.1.trans ho)
          exact ⟨hl.1, hl.2.1, hl.2.2, fun hne => absurd (hg.1.trans ho) hne⟩
        · exact fun id approved hm => absurd hm (hnone _)
        · exact fun id ts he => absurd (ht.symm.trans he) (by simp)
        · exact fun id hm => hnone _ (List.mem_of_mem_tail hm)
        · exact fun r op hm => absurd hm (hnone _)
    · rename_i ho
      generalize hj : (m.records.any _) = joined
      generalize hr : m.join (m.newRecord held) = r
      have hop : r.operatorSlug = m.operatorSlug := by rw [← hr]; exact join_operatorSlug _
      have hid : r.envelopeId = held.envelopeId := by rw [← hr]; exact join_envelopeId _
      have hph : r.phase = .pending := by rw [← hr]; exact join_phase _
      have hsh : ∀ id r', m.record? id = some r' → r'.SameGroup r → r'.Shares r := by
        rw [← hr]
        exact h.join_shares _
      rcases m.persistThen_cases (m.pending.memory.insertOrIgnore r) persists
        (fun m => m.withTasks (firstTasks r joined)) with he | he
      · rw [he]
        exact h.good_refl
      · rw [he]
        refine ⟨⟨rfl, h.coherent.insert hph (fun hne => absurd (hop.symm.trans hne) ho) hsh, ?_, ?_, ?_, ?_⟩,
          Moves.added rfl _⟩
        · intro id approved hm r' hr'
          rcases mem_firstTasks hm with hb | ⟨approved', hb, hd⟩
          · cases hb
          · cases hb
            have hget : (m.pending.memory.insertOrIgnore r).get? r.envelopeId = some r' := hr'
            rw [Table.get?_insertOrIgnore] at hget
            rw [hid, show m.pending.memory.get? held.envelopeId = none from hfree] at hget
            simp at hget
            rw [← hget]
            exact hd
        · intro id ts hts
          have hm : .ack id ∈ firstTasks r joined := by
            rw [show firstTasks r joined = .ack id :: ts from hts]
            exact List.mem_cons_self
          rcases mem_firstTasks hm with hb | ⟨_, hb, -⟩ <;> cases hb
        · intro id hm
          rcases mem_firstTasks (List.mem_of_mem_tail hm) with hb | ⟨_, hb, -⟩ <;> cases hb
        · intro r' op hm
          rcases mem_firstTasks hm with hb | ⟨_, hb, -⟩
          · cases hb
            rw [hop]
            exact ho
          · cases hb

theorem decisionOf_ne_pending (approved : Bool) : decisionOf approved ≠ .pending := by
  cases approved <;> decide

/-- A reply that does not conflict gives the answer that is already there. -/
theorem terminal_eq {terminal : List Decision} {decision : Decision}
    (h : ¬ (terminal.dedup.length > 1 ∨ (terminal ≠ [] ∧ decision ∉ terminal))) :
    ∀ x ∈ terminal, x = decision := by
  intro x hx
  have hmem : decision ∈ terminal := by
    by_contra hn
    exact h (.inr ⟨List.ne_nil_of_mem hx, hn⟩)
  have hlen : terminal.dedup.length = 1 := by
    have hpos := List.length_pos_of_mem (List.mem_dedup.2 hx)
    have := mt Or.inl h
    omega
  obtain ⟨y, hy⟩ := List.length_eq_one_iff.1 hlen
  have hx' := List.mem_dedup.2 hx
  have hd' := List.mem_dedup.2 hmem
  rw [hy, List.mem_singleton] at hx' hd'
  exact hx'.trans hd'.symm

section Reply
variable {threadRootId : String} {approved : Bool}

theorem mem_matched {r : KeylessDmApproval} :
    r ∈ m.matched threadRootId ↔ m.record? r.envelopeId = some r ∧ isPromptOf threadRootId r := by
  rw [matched, List.mem_filter]
  exact and_congr_left fun _ => ⟨Table.get?_of_mem, Table.mem_of_get?⟩

/-- The answer in which a reply without conflict ends. -/
theorem resolved_eq (h : ∀ x ∈ m.terminal threadRootId, x = decisionOf approved) :
    decide ((m.terminal threadRootId).head?.getD (decisionOf approved) = .approved) = approved := by
  have hhead : (m.terminal threadRootId).head?.getD (decisionOf approved) = decisionOf approved := by
    cases hh : (m.terminal threadRootId).head? with
    | none => rfl
    | some x => exact h x (List.mem_of_head? hh)
  rw [hhead]
  cases approved <;> rfl

theorem decision_of_matched (h : ∀ x ∈ m.terminal threadRootId, x = decisionOf approved) {r : KeylessDmApproval}
    (hr : r ∈ m.matched threadRootId) (hd : r.decision ≠ .pending) : r.decision = decisionOf approved :=
  h r.decision (List.mem_filter.2 ⟨List.mem_map_of_mem hr, by simpa using hd⟩)

/-- The tasks of a reply, once every record it matched has its answer. -/
theorem Sound.replyTasks (h : m.Sound) (ids : List String)
    (hd : ∀ id ∈ ids, ∀ r, m.record? id = some r → r.decision = decisionOf approved) :
    (m.withTasks (ids.map fun id => .finalize id approved)).Sound := by
  refine h.withTasks ?_ ?_ ?_
  · intro id hm
    obtain ⟨_, _, he⟩ := List.mem_map.1 hm
    cases he
  · intro r op hm
    obtain ⟨_, _, he⟩ := List.mem_map.1 hm
    cases he
  · intro id a hm r hr
    obtain ⟨id', hid, he⟩ := List.mem_map.1 hm
    cases he
    exact hd id hid r hr

theorem good_handleReply (h : m.Sound) (ht : m.tasks = []) (host : Host) (text : String)
    (persists : Bool) : Good m (m.handleReply host threadRootId text persists) := by
  have hack : ∀ id, .ack id ∉ m.tasks := by
    intro id
    rw [ht]
    exact List.not_mem_nil
  unfold handleReply
  split
  · exact h.good_refl
  · rename_i approved _
    dsimp only
    split
    · exact h.good_refl
    · rename_i hc
      have hall := terminal_eq (fun hn => hc (.inr hn))
      have htasks : ((m.matched threadRootId).map fun r => Task.finalize r.envelopeId
          (decide ((m.terminal threadRootId).head?.getD (decisionOf approved) = .approved))) =
          ((m.matched threadRootId).map (·.envelopeId)).map fun id => .finalize id approved := by
        rw [resolved_eq hall, List.map_map]
        rfl
      rw [htasks]
      split
      · rcases m.persistThen_cases (m.decideMatched threadRootId (decisionOf approved)) persists
          (fun m' => m'.withTasks (((m.matched threadRootId).map (·.envelopeId)).map
            fun id => .finalize id approved)) with he | he
        · rw [he]
          exact h.good_refl
        · rw [he]
          have hs : Sound { m with pending := ⟨m.decideMatched threadRootId (decisionOf approved),
              codec.save (m.decideMatched threadRootId (decisionOf approved))⟩ } := by
            refine ⟨rfl, h.decideMatched threadRootId _, ?_, ?_, ?_, ?_⟩
            · exact fun id a hm => absurd hm (by rw [ht]; exact List.not_mem_nil)
            · exact fun id ts he => absurd (ht.symm.trans he) (by simp)
            · exact fun id hm => hack id (List.mem_of_mem_tail hm)
            · exact h.prompts
          refine ⟨hs.replyTasks _ ?_, Moves.edited ?_ ?_ _⟩
          · intro id hid r' hr'
            obtain ⟨r, hr, rfl⟩ := List.mem_map.1 hid
            obtain ⟨r₀, hr₀, hd⟩ := m.record?_decideMatched threadRootId _ r.envelopeId hr'
            rw [(mem_matched.1 hr).1] at hr₀
            cases hr₀
            rw [hd]
            split
            · rfl
            · rename_i hp
              refine decision_of_matched hall hr ?_
              exact fun hpend => hp ⟨(mem_matched.1 hr).2, hpend⟩
          · intro id r' hr'
            obtain ⟨r, hr, hd⟩ := m.record?_decideMatched threadRootId _ id hr'
            refine ⟨r, hr, fun hne => ?_⟩
            rw [hd, if_neg (fun hp => hne hp.2)]
          · exact fun id r hr => isSome_update _ hr
      · rename_i hany
        refine ⟨h.replyTasks _ ?_, .still rfl rfl rfl⟩
        intro id hid r' hr'
        obtain ⟨r, hr, rfl⟩ := List.mem_map.1 hid
        obtain rfl : r = r' := Option.some.inj ((mem_matched.1 hr).1.symm.trans hr')
        refine decision_of_matched hall hr ?_
        intro hp
        exact hany (List.any_eq_true.2 ⟨r, hr, decide_eq_true hp⟩)

end Reply

theorem good_resume (h : m.Sound) : Good m m.resume := by
  refine ⟨h.withTasks ?_ ?_ ?_, .still rfl rfl rfl⟩
  · intro id hm
    rcases List.mem_append.1 hm with hm | hm
    · obtain ⟨r, _, he⟩ := List.mem_filterMap.1 hm
      split at he <;> cases he
    · rw [List.mem_singleton] at hm
      cases hm
  · intro r op hm
    rcases List.mem_append.1 hm with hm | hm
    · obtain ⟨r, _, he⟩ := List.mem_filterMap.1 hm
      split at he <;> cases he
    · rw [List.mem_singleton] at hm
      cases hm
  · intro id approved hm r hr
    rcases List.mem_append.1 hm with hm | hm
    · obtain ⟨r', hr', he⟩ := List.mem_filterMap.1 hm
      have hget := m.pending.memory.get?_of_mem ((List.mem_mergeSort).1 hr')
      split at he
      · rename_i hd
        cases he
        rw [show m.pending.memory.get? r'.envelopeId = some r from hr] at hget
        cases hget
        exact hd
      · rename_i hd
        cases he
        rw [show m.pending.memory.get? r'.envelopeId = some r from hr] at hget
        cases hget
        exact hd
      · cases he
    · rw [List.mem_singleton] at hm
      cases hm

theorem mem_missingPrompts {task : Task} (h : task ∈ m.missingPrompts) :
    ∃ r, task = .sendPrompt r m.operatorSlug ∧ m.operatorSlug ≠ "" := by
  unfold missingPrompts at h
  obtain ⟨r, hr, rfl⟩ := List.mem_map.1 h
  have hw := (List.mem_filter.1 (List.mem_filter.1 (List.mem_filter.1 hr).1).1).2
  exact ⟨r, rfl, (of_decide_eq_true hw).2.1⟩

theorem Sound.promptMissing (h : m.Sound) {tasks : List Task} (ht : m.tasks = .promptMissing :: tasks) :
    (m.withTasks (m.missingPrompts ++ tasks)).Sound := by
  have hs := h.tail ht
  have hack : ∀ id, .ack id ∉ tasks := fun id hm => h.later id (by rwa [ht])
  refine h.withTasks ?_ ?_ ?_
  · intro id hm
    rcases List.mem_append.1 hm with hm | hm
    · obtain ⟨_, he, _⟩ := mem_missingPrompts hm
      cases he
    · exact hack id hm
  · intro r op hm
    rcases List.mem_append.1 hm with hm | hm
    · obtain ⟨_, he, hne⟩ := mem_missingPrompts hm
      cases he
      exact hne
    · exact hs.prompts r op hm
  · intro id approved hm
    rcases List.mem_append.1 hm with hm | hm
    · obtain ⟨_, he, _⟩ := mem_missingPrompts hm
      cases he
    · exact hs.finals id approved hm

/-- The transition touches the store alone, and counts when the store reports it applied. -/
theorem applyLocalTransition_cases (r : KeylessDmApproval) (approved : Bool) (e : Effects) :
    ((m.applyLocalTransition r approved e).2 = false ∧
      ∃ tables, (m.applyLocalTransition r approved e).1 = { m with tables := tables }) ∨
    ((m.applyLocalTransition r approved e).2 = true ∧ ∃ tables, (m.applyLocalTransition r approved e).1 =
        { m with tables := tables, applied := (r.envelopeId, decisionOf approved) :: m.applied } ∧
      Answered (verdictOf approved) r.envelopeId r.serverSeq tables) := by
  have hfits : (verdictOf approved).Fits r.envelopeId := by
    cases approved
    · trivial
    · exact fun h => by cases h
  unfold applyLocalTransition
  split
  · exact .inl ⟨rfl, m.tables, rfl⟩
  · dsimp only
    obtain ⟨result, tables, hrun, -, hans⟩ := localTransition_spec r.serverSeq e.now m.tables hfits
    have hafter : (localTransition (verdictOf approved) r.envelopeId r.serverSeq e.now).after m.tables = tables := by
      rw [Sql.after, hrun]
    have hrep : reported (localTransition (verdictOf approved) r.envelopeId r.serverSeq e.now) m.tables =
        some result.status := by
      rw [reported, hrun]
    rw [hafter, hrep]
    split
    · rename_i ha
      exact .inr ⟨rfl, tables, rfl, hans (by simpa using ha)⟩
    · exact .inl ⟨rfl, tables, rfl⟩

theorem Sound.ackNext (h : m.Sound) {id : String} {r : KeylessDmApproval} (hr : m.record? id = some r)
    (hp : r.phase = .applied) (ha : ∀ id, .ack id ∉ m.tasks) : (m.withTasks (.ack id :: m.tasks)).Sound := by
  refine ⟨h.synced, h.coherent, ?_, ?_, ha, ?_⟩
  · intro id' approved hm
    rcases List.mem_cons.1 hm with he | hm
    · cases he
    · exact h.finals id' approved hm
  · intro id' ts he
    cases he
    exact ⟨r, hr, hp⟩
  · intro r' op hm
    rcases List.mem_cons.1 hm with he | hm
    · cases he
    · exact h.prompts r' op hm

/-- The store alone has changed. -/
theorem Sound.withStore (h : m.Sound) (tables : Tables) {applied : List (String × Decision)} (ha : m.applied ⊆ applied) :
    Sound { m with tables := tables, applied := applied } :=
  ⟨h.synced, h.coherent.mono ha, h.finals, h.acks, h.later, h.prompts⟩

theorem good_finalizeRecord (h : m.Sound) (ha : ∀ id, .ack id ∉ m.tasks) (id : String) (approved : Bool)
    (hd : ∀ r, m.record? id = some r → r.decision = decisionOf approved) (e : Effects) :
    Good m (m.finalizeRecord id approved e) := by
  unfold finalizeRecord
  split
  · exact h.good_refl
  · rename_i r hr
    split
    · rename_i hp
      exact ⟨h.ackNext hr hp ha, .still rfl rfl rfl⟩
    · obtain rfl : r.envelopeId = id := Table.get?_key hr
      rcases m.applyLocalTransition_cases r approved e with ⟨hf, tables, hm⟩ | ⟨ht, tables, hm, hans⟩
      · simp only [hf, hm, Bool.false_eq_true, if_false]
        exact ⟨h.withStore tables (List.Subset.refl _), .still rfl rfl rfl⟩
      · simp only [ht, hm, if_true]
        have hdec := hd r hr
        have hsub : m.applied ⊆ (r.envelopeId, decisionOf approved) :: m.applied := List.subset_cons_self _ _
        have hs := h.withStore tables hsub
        have hc : Coherent ((r.envelopeId, decisionOf approved) :: m.applied) (m.markApplied r.envelopeId) := by
          refine h.markApplied hr ?_ hsub ?_
          · rw [hdec]
            exact decisionOf_ne_pending approved
          · rw [hdec]
            exact List.mem_cons_self
        have hmoves : ∀ m' : Flow, (∀ id r', m'.record? id = some r' → ∃ r, m.record? id = some r ∧ r'.decision = r.decision) →
            (∀ id r, m.record? id = some r → (m'.record? id).isSome) → m'.acked = m.acked →
            m'.applied = (r.envelopeId, decisionOf approved) :: m.applied → m'.tables = tables → Moves m m' := by
          intro m' hk hsome hack happ htab
          refine ⟨?_, ?_, .inl hack, .inr ⟨r.envelopeId, r, approved, hr, happ, by rw [htab]; exact hans⟩⟩
          · intro id a a' hra hra' _
            obtain ⟨a₀, ha₀, he⟩ := hk id a' hra'
            rw [hra] at ha₀
            cases ha₀
            exact he
          · intro id a hra hn
            have := hsome id a hra
            rw [hn] at this
            cases this
        rcases persistThen_cases { m with tables := tables, applied := (r.envelopeId, decisionOf approved) :: m.applied }
          (m.markApplied r.envelopeId) e.persists
          (fun m => m.withTasks (.ack r.envelopeId :: m.tasks)) with he | he
        · refine ⟨(congrArg Sound he).mpr hs, ?_⟩
          refine (congrArg (Moves m) he).mpr (hmoves _ ?_ ?_ rfl rfl rfl)
          · exact fun id r' hr' => ⟨r', hr', rfl⟩
          · exact fun id a hra => Option.isSome_iff_exists.2 ⟨a, hra⟩
        · have hedit := hs.edited hc ha
            fun id r' hr' => m.record?_markApplied r.envelopeId id hr'
          have hget : (m.markApplied r.envelopeId).get? r.envelopeId = some { r with phase := .applied } := by
            rw [markApplied, Table.get?_update, show m.pending.memory.get? r.envelopeId = some r from hr]
            simp
          refine ⟨(congrArg Sound he).mpr (hedit.ackNext hget rfl ha), ?_⟩
          refine (congrArg (Moves m) he).mpr (hmoves _ ?_ ?_ rfl rfl rfl)
          · exact fun id r' hr' => m.record?_markApplied r.envelopeId id hr'
          · exact fun id a hra => isSome_markApplied r.envelopeId hra

theorem good_sendAck (h : m.Sound) {id : String} {r : KeylessDmApproval} (hr : m.record? id = some r)
    (hp : r.phase = .applied) (ha : ∀ id, .ack id ∉ m.tasks) (e : Effects) : Good m (m.sendAck id e) := by
  have hsent : ∀ m' : Flow, m'.acked = id :: m.acked → m'.applied = m.applied →
      m'.pending.memory = m.pending.memory → Moves m m' := by
    intro m' hack happ hmem
    have hstill : Moves m { m' with acked := m.acked } := .still hmem rfl happ
    obtain ⟨hk, hrem, -, -⟩ := hstill
    exact ⟨hk, fun id' r' hr' hn => hrem id' r' hr' hn, .inr ⟨id, r, hack, hr, hp⟩, .inl happ⟩
  unfold sendAck
  dsimp only
  split
  · rcases persistThen_cases { m with acked := id :: m.acked, acknowledged := id :: m.acknowledged }
      (m.pending.memory.delete (·.envelopeId = id)) e.persists (fun m => m) with he | he
    · refine ⟨(congrArg Sound he).mpr ⟨h.synced, h.coherent, h.finals, h.acks, h.later, h.prompts⟩, ?_⟩
      exact (congrArg (Moves m) he).mpr (hsent _ rfl rfl rfl)
    · have hsub : ∀ id' r', (m.pending.memory.delete (·.envelopeId = id)).get? id' = some r' → m.record? id' = some r' := by
        intro id' r' hr'
        rw [Table.get?_delete, Option.filter_eq_some_iff] at hr'
        exact hr'.1
      have hs : Sound { m with acked := id :: m.acked, acknowledged := id :: m.acknowledged } :=
        ⟨h.synced, h.coherent, h.finals, h.acks, h.later, h.prompts⟩
      refine ⟨(congrArg Sound he).mpr (hs.edited (h.coherent.delete _) ha fun id' r' hr' => ⟨r', hsub id' r' hr', rfl⟩),
        (congrArg (Moves m) he).mpr ⟨?_, ?_, .inr ⟨id, r, rfl, hr, hp⟩, .inl rfl⟩⟩
      · intro id' a a' hra hra' _
        have := hsub id' a' hra'
        rw [hra] at this
        cases this
        rfl
      · intro id' a hra hn
        have hid : id' = id := by
          by_contra hne
          have hkeep : (m.pending.memory.delete (·.envelopeId = id)).get? id' = some a := by
            rw [Table.get?_delete, Option.filter_eq_some_iff]
            have hkey := Table.get?_key hra
            exact ⟨hra, by simp [hkey, hne]⟩
          rw [show (m.pending.memory.delete (·.envelopeId = id)).get? id' = none from hn] at hkeep
          cases hkeep
        subst hid
        rfl
  · exact ⟨⟨h.synced, h.coherent, h.finals, h.acks, h.later, h.prompts⟩, hsent _ rfl rfl rfl⟩

/-- What a step does after the head task was taken, it does from the state before. -/
theorem Good.of_tail {tasks : List Task} (h : Good (m.withTasks tasks) m') : Good m m' :=
  ⟨h.1, h.2.kept, h.2.removed, h.2.sent, h.2.answered⟩

theorem good_advance (h : m.Sound) (e : Effects) : Good m (m.advance e) := by
  unfold advance
  split
  · exact h.good_refl
  · rename_i record op tasks ht
    have hack : ∀ id, .ack id ∉ tasks := fun id hm => h.later id (by rwa [ht])
    have hop := h.prompts record op (by rw [ht]; exact List.mem_cons_self)
    exact (good_sendPrompt (h.tail ht) hack record hop e).of_tail
  · rename_i id approved tasks ht
    have hack : ∀ id, .ack id ∉ tasks := fun id hm => h.later id (by rwa [ht])
    have hd := h.finals id approved (by rw [ht]; exact List.mem_cons_self)
    exact (good_finalizeRecord (h.tail ht) hack id approved hd e).of_tail
  · rename_i id tasks ht
    have hack : ∀ id, .ack id ∉ tasks := fun id hm => h.later id (by rwa [ht])
    obtain ⟨r, hr, hp⟩ := h.acks id tasks ht
    exact (good_sendAck (h.tail ht) hr hp hack e).of_tail
  · rename_i tasks ht
    exact ⟨h.promptMissing ht, .still rfl rfl rfl⟩

theorem Sound.step (h : m.Sound) (host : Host) (e : Event) : Good m (step host m e) := by
  cases e with
  | gated held persists =>
    simp only [Approvals.step]
    split
    · rename_i ht
      exact good_recordGatedDm h (by simpa using ht) held persists
    · exact h.good_refl
  | reply threadRootId text persists =>
    simp only [Approvals.step]
    split
    · rename_i ht
      exact good_handleReply h (by simpa using ht) host text persists
    · exact h.good_refl
  | resume =>
    simp only [Approvals.step]
    split
    · exact good_resume h
    · exact h.good_refl
  | advance effects => exact good_advance h effects
  | interrupt =>
    exact ⟨h.withTasks (fun _ hm => by cases hm) (fun _ _ hm => by cases hm) (fun _ _ hm => by cases hm),
      .still rfl rfl rfl⟩
  | restart operatorSlug =>
    simp only [Approvals.step, h.synced.restart]
    exact ⟨⟨h.synced, h.coherent, fun _ _ hm => (by cases hm), fun _ _ he => (by cases he),
      fun _ hm => (by cases hm), fun _ _ hm => (by cases hm)⟩, .still rfl rfl rfl⟩
  | store op => exact ⟨h.withStore _ (List.Subset.refl _), .still rfl rfl rfl⟩

end Steps
end Flow

theorem sound_run (host : Host) (operatorSlug : String) (tables : Tables) (events : List Event) :
    (Machine.run (step host) (.initial operatorSlug tables) events).Sound :=
  Machine.run_invariant (.initial operatorSlug tables) (fun _ e h => (h.step host e).1) events

/-- The approval protocol, in every run and whatever comes next. The document on disk holds
the records in memory. The records of one operator and sender agree on their prompt and its
answer. An answer does not change. An envelope is acknowledged only while its record stands at
`applied` on disk, after the store reported the transition of its answer. A record goes only
with its acknowledgement, and a transition counts as applied only when its row is answered. -/
theorem approval_protocol (host : Host) (operatorSlug : String) (tables : Tables) (events : List Event)
    (e : Event) :
    let m := Machine.run (step host) (.initial operatorSlug tables) events
    let m' := step host m e
    codec.load m.pending.file = m.pending.memory ∧
      (∀ r ∈ m.records, ∀ r' ∈ m.records, r.operatorSlug = r'.operatorSlug → r.senderSlug = r'.senderSlug →
        r.promptEnvelopeId = r'.promptEnvelopeId ∧ r.promptThreadId = r'.promptThreadId ∧
        r.decision = r'.decision ∧ (r.operatorSlug ≠ "" → r.promptClientRef = r'.promptClientRef)) ∧
      (∀ id r r', m.record? id = some r → m'.record? id = some r' → r.decision ≠ .pending →
        r'.decision = r.decision) ∧
      (m'.acked = m.acked ∨ ∃ id r, m'.acked = id :: m.acked ∧ (codec.load m.pending.file).get? id = some r ∧
        r.phase = .applied ∧ r.decision ≠ .pending ∧ (id, r.decision) ∈ m.applied) ∧
      (∀ id r, m.record? id = some r → m'.record? id = none → m'.acknowledged = id :: m.acknowledged) ∧
      (m'.applied = m.applied ∨ ∃ id r approved, m.record? id = some r ∧
        m'.applied = (id, decisionOf approved) :: m.applied ∧
        Answered (verdictOf approved) id r.serverSeq m'.tables) := by
  intro m m'
  have h : m.Sound := sound_run host operatorSlug tables events
  obtain ⟨-, hmoves⟩ := h.step host e
  have hload : codec.load m.pending.file = m.pending.memory := by rw [h.synced, codec.load_save]
  refine ⟨hload, ?_, hmoves.kept, ?_, hmoves.removed, hmoves.answered⟩
  · intro r hr r' hr' ho hs
    have hshare := h.coherent.grouped _ _ r r' (Table.get?_of_mem hr) (Table.get?_of_mem hr') ⟨ho, hs⟩
    exact ⟨hshare.envelope, hshare.thread, hshare.decision, hshare.clientRef⟩
  · rcases hmoves.sent with hs | ⟨id, r, hs, hr, hp⟩
    · exact .inl hs
    · have hdone := h.coherent.done id r hr hp
      exact .inr ⟨id, r, hs, by rw [hload]; exact hr, hp, hdone.1, hdone.2⟩

end PuffoAgent.Approvals
