import PuffoAgent.Invitations.Flow

/-! What holds of the invitation records in every run: one decision under one reference, on
disk before it is sent; one prompt reference; and a terminal record stays as it is. -/
namespace PuffoAgent.Invitations
open Relational Text

namespace KeylessInvitation

/-- The phase says how far the record is: an open one has no answer, a decided one has its
answer and the reference of its frames. -/
structure Wf (r : KeylessInvitation) : Prop where
  undecided : r.phase = .unsent ∨ r.phase = .awaitingReply → r.decision = .pending ∧ r.decisionClientRef = none
  decided : r.phase = .decided ∨ r.phase = .terminal → r.decision ≠ .pending ∧ r.decisionClientRef.isSome
  unsent : r.phase = .unsent → r.promptEnvelopeId = none

variable {r : KeylessInvitation}

theorem Wf.phase_of_ref (h : r.Wf) (hr : r.decisionClientRef.isSome) : r.phase = .decided ∨ r.phase = .terminal := by
  cases hp : r.phase with
  | unsent => simp [(h.undecided (.inl hp)).2] at hr
  | awaitingReply => simp [(h.undecided (.inr hp)).2] at hr
  | decided => exact .inl rfl
  | terminal => exact .inr rfl

theorem Wf.phase_of_decision (h : r.Wf) (hr : r.decision ≠ .pending) : r.phase = .decided ∨ r.phase = .terminal := by
  cases hp : r.phase with
  | unsent => exact absurd (h.undecided (.inl hp)).1 hr
  | awaitingReply => exact absurd (h.undecided (.inr hp)).1 hr
  | decided => exact .inl rfl
  | terminal => exact .inr rfl

end KeylessInvitation

namespace Flow

/-- The record stands, with this answer under this reference. -/
def Decides (m : Flow) (f : DecisionFrame) : Prop :=
  ∃ r, m.record? f.eventId = some r ∧ r.decision = f.decision ∧ r.decisionClientRef = some f.clientRef

/-- The record stands, under this prompt reference. -/
def Asks (m : Flow) (f : PromptFrame) : Prop :=
  ∃ r, m.record? f.eventId = some r ∧ r.promptClientRef = f.clientRef

/-- The prompt has an answer. -/
def Answers (m : Flow) (threadRootId : String) : Prop :=
  ∃ id r, m.record? id = some r ∧ isPromptOf threadRootId r ∧ r.decision ≠ .pending

structure Sound (m : Flow) : Prop where
  synced : m.pending.Synced codec
  wf : ∀ id r, m.record? id = some r → r.Wf
  decisions : ∀ f ∈ m.decisions, m.Decides f
  prompts : ∀ f ∈ m.prompts, m.Asks f
  transmits : ∀ id d ref tasks, m.tasks = .transmit id d ref :: tasks → m.Decides ⟨id, d, ref⟩ ∧
    ∀ r, m.record? id = some r → r.phase ≠ .terminal
  later : ∀ id d ref, .transmit id d ref ∉ m.tasks.tail
  auto : ∀ id, .sendDecision id true ∈ m.tasks → ∀ r, m.record? id = some r → r.decision ≠ .reject
  answers : ∀ thread, .answer thread ∈ m.tasks → m.Answers thread ∧ ∀ seen, .retire seen ∉ m.tasks

theorem Sound.initial (operatorSlug : String) (autoAcceptSpace : Bool) :
    Sound (initial operatorSlug autoAcceptSpace) where
  synced := rfl
  wf _ _ h := by cases h
  decisions _ h := by cases h
  prompts _ h := by cases h
  transmits _ _ _ _ h := by cases h
  later _ _ _ h := by cases h
  auto _ h := by cases h
  answers _ h := by cases h

/-- A terminal record stays as it is, and a record that stays keeps its prompt. -/
structure Keeps (m m' : Flow) : Prop where
  terminal : ∀ id r, m.record? id = some r → r.phase = .terminal → m'.record? id = some r
  asked : ∀ id r r', m.record? id = some r → m'.record? id = some r' → r.promptEnvelopeId.isSome →
    r'.promptEnvelopeId = r.promptEnvelopeId

/-- What one step does to a record, to the frames and to the answers. -/
structure Moves (m m' : Flow) : Prop where
  kept : Keeps m m'
  decision : (∀ f ∈ m'.decisions, f ∈ m.decisions) ∨ ∃ f, m'.decisions = f :: m.decisions ∧ m.Decides f
  decisionKept : ∀ f ∈ m.decisions, f ∈ m'.decisions ∨ m'.record? f.eventId = none
  prompt : (∀ f ∈ m'.prompts, f ∈ m.prompts) ∨ ∃ f r, m'.prompts = f :: m.prompts ∧ m.record? f.eventId = some r ∧
    r.promptClientRef = f.clientRef ∧ r.promptEnvelopeId = none
  promptKept : ∀ f ∈ m.prompts, f ∈ m'.prompts ∨ m'.record? f.eventId = none
  answer : m'.answered = m.answered ∨ ∃ thread, m'.answered = thread :: m.answered ∧ m.Answers thread

variable {m m' : Flow}

theorem persistThen_cases (m : Flow) (rows : Records) (persists : Bool) (next : Flow → Flow) :
    m.persistThen rows persists next = m ∨
      m.persistThen rows persists next = next { m with pending := ⟨rows, codec.save rows⟩ } := by
  cases persists with
  | true => exact .inr rfl
  | false => exact .inl rfl

/-- A step that sends nothing and lets every terminal record stand. -/
structure Quiet (m m' : Flow) : Prop where
  kept : Keeps m m'
  decisions : m'.decisions = m.decisions
  prompts : m'.prompts = m.prompts
  answered : m'.answered = m.answered

/-- Every record that stood stands as it was. -/
theorem Keeps.of_record? (h : ∀ id r, m.record? id = some r → m'.record? id = some r) : Keeps m m' := by
  refine ⟨fun id r hr _ => h id r hr, fun id r r' hr hr' _ => ?_⟩
  cases (h id r hr).symm.trans hr'
  rfl

theorem Keeps.of_pending (h : m'.pending = m.pending) : Keeps m m' :=
  .of_record? fun id r hr => by rw [record?, h]; exact hr

theorem Quiet.refl (m : Flow) : Quiet m m := ⟨.of_pending rfl, rfl, rfl, rfl⟩

theorem Quiet.moves (h : Quiet m m') : Moves m m' where
  kept := ⟨h.kept.terminal, h.kept.asked⟩
  decision := .inl fun _ hf => h.decisions ▸ hf
  decisionKept _ hf := .inl (h.decisions ▸ hf)
  prompt := .inl fun _ hf => h.prompts ▸ hf
  promptKept _ hf := .inl (h.prompts ▸ hf)
  answer := .inl h.answered

/-- A decision frame is sent, and its outcome may be filed. -/
theorem Quiet.decided {f : DecisionFrame} (hf : m.Decides f)
    (h : Quiet { m with decisions := f :: m.decisions } m') : Moves m m' where
  kept := ⟨h.kept.terminal, h.kept.asked⟩
  decision := .inr ⟨f, h.decisions, hf⟩
  decisionKept _ hm := .inl (h.decisions ▸ List.mem_cons_of_mem _ hm)
  prompt := .inl fun _ hm => h.prompts ▸ hm
  promptKept _ hm := .inl (h.prompts ▸ hm)
  answer := .inl h.answered

/-- A prompt is sent, and its ACK may be filed. -/
theorem Quiet.prompted {f : PromptFrame} {r : KeylessInvitation} (hr : m.record? f.eventId = some r)
    (hc : r.promptClientRef = f.clientRef) (he : r.promptEnvelopeId = none)
    (h : Quiet { m with prompts := f :: m.prompts } m') : Moves m m' where
  kept := ⟨h.kept.terminal, h.kept.asked⟩
  decision := .inl fun _ hm => h.decisions ▸ hm
  decisionKept _ hm := .inl (h.decisions ▸ hm)
  prompt := .inr ⟨f, r, h.prompts, hr, hc, he⟩
  promptKept _ hm := .inl (h.prompts ▸ List.mem_cons_of_mem _ hm)
  answer := .inl h.answered

def Good (m m' : Flow) : Prop := m'.Sound ∧ Moves m m'

theorem Sound.good_refl (h : m.Sound) : Good m m := ⟨h, (Quiet.refl m).moves⟩

section Tasks
variable {task : Task} {tasks : List Task}

/-- Other tasks: no frame among them, and none that the records do not fit. -/
theorem Sound.withTasks (h : m.Sound) (ht : ∀ id d ref, .transmit id d ref ∉ tasks)
    (ha : ∀ id, .sendDecision id true ∈ tasks → ∀ r, m.record? id = some r → r.decision ≠ .reject)
    (hr : ∀ thread, .answer thread ∈ tasks → m.Answers thread ∧ ∀ seen, .retire seen ∉ tasks) :
    (m.withTasks tasks).Sound := by
  refine ⟨h.synced, h.wf, h.decisions, h.prompts, ?_, ?_, ha, hr⟩
  · intro id d ref ts he
    refine absurd ?_ (ht id d ref)
    rw [show tasks = .transmit id d ref :: ts from he]
    exact List.mem_cons_self
  · exact fun id d ref hm => ht id d ref (List.mem_of_mem_tail hm)

theorem Sound.tail_transmit (h : m.Sound) (ht : m.tasks = task :: tasks) (id : String) (d : Decision) (ref : String) :
    .transmit id d ref ∉ tasks := fun hm => h.later id d ref (by rwa [ht])

/-- The head task is taken. -/
theorem Sound.tail (h : m.Sound) (ht : m.tasks = task :: tasks) : (m.withTasks tasks).Sound := by
  have hsub : ∀ t, t ∈ tasks → t ∈ m.tasks := fun t hm => by rw [ht]; exact List.mem_cons_of_mem _ hm
  refine h.withTasks (h.tail_transmit ht) (fun id hm => h.auto id (hsub _ hm)) ?_
  intro thread hm
  obtain ⟨hans, hret⟩ := h.answers thread (hsub _ hm)
  exact ⟨hans, fun seen hs => hret seen (hsub _ hs)⟩

theorem Good.of_tail (h : Good (m.withTasks tasks) m') : Good m m' :=
  ⟨h.1, ⟨h.2.kept.terminal, h.2.kept.asked⟩, h.2.decision, h.2.decisionKept, h.2.prompt, h.2.promptKept, h.2.answer⟩

end Tasks

section Rewrite
variable {id : String} {r : KeylessInvitation} {f : KeylessInvitation → KeylessInvitation}

theorem get?_rewrite (m : Flow) (hf : ∀ r, (f r).invitationEventId = r.invitationEventId) (id' : String) :
    (m.rewrite id f hf).get? id' = if id' = id then (m.record? id').map f else m.record? id' := by
  rw [rewrite, Table.get?_update]
  cases hr : m.pending.memory.get? id' with
  | none => simp [record?, hr]
  | some r =>
    have hk := Table.get?_key hr
    by_cases he : id' = id
    · subst he
      simp [record?, hr, hk]
    · simp [record?, hr, hk, he]

/-- A change that an active record may meet: it keeps its prompt reference, and once it has an
answer it keeps that, its reference and its prompt. -/
structure Advances (r r' : KeylessInvitation) : Prop where
  active : r.phase ≠ .terminal
  wf : r'.Wf
  clientRef : r'.promptClientRef = r.promptClientRef
  envelope : r.promptEnvelopeId.isSome → r'.promptEnvelopeId = r.promptEnvelopeId
  decided : r.decisionClientRef.isSome → r'.decision = r.decision ∧ r'.decisionClientRef = r.decisionClientRef ∧
    r'.promptEnvelopeId = r.promptEnvelopeId ∧ r'.promptThreadId = r.promptThreadId

variable (hf : ∀ r, (f r).invitationEventId = r.invitationEventId)

theorem record?_rewritten (hr : m.record? id = some r) {id' : String} {r' : KeylessInvitation}
    (h : (m.rewrite id f hf).get? id' = some r') : (id' = id ∧ r' = f r) ∨ (id' ≠ id ∧ m.record? id' = some r') := by
  rw [get?_rewrite] at h
  split at h
  · rename_i he
    subst he
    rw [hr] at h
    cases h
    exact .inl ⟨rfl, rfl⟩
  · rename_i he
    exact .inr ⟨he, h⟩

theorem get?_rewrite_self (hr : m.record? id = some r) : (m.rewrite id f hf).get? id = some (f r) := by
  rw [get?_rewrite, if_pos rfl, hr]
  rfl

theorem rewritten_of_record? (hr : m.record? id = some r) {id' : String} {a : KeylessInvitation}
    (h : m.record? id' = some a) :
    ∃ a', (m.rewrite id f hf).get? id' = some a' ∧ ((id' = id ∧ a = r ∧ a' = f r) ∨ a' = a) := by
  by_cases he : id' = id
  · subst he
    have : a = r := Option.some.inj (h.symm.trans hr)
    subst this
    exact ⟨f a, get?_rewrite_self hf hr, .inl ⟨rfl, rfl, rfl⟩⟩
  · exact ⟨a, by rw [get?_rewrite, if_neg he, h], .inr rfl⟩

theorem Sound.rewritten (h : m.Sound) (hr : m.record? id = some r) (hadv : Advances r (f r))
    (ht : ∀ id d ref, .transmit id d ref ∉ m.tasks)
    (ha : .sendDecision id true ∈ m.tasks → (f r).decision ≠ .reject) :
    Sound { m with pending := ⟨m.rewrite id f hf, codec.save (m.rewrite id f hf)⟩ } := by
  refine ⟨rfl, ?_, ?_, ?_, ?_, ?_, ?_, ?_⟩
  · intro id' r' hr'
    rcases record?_rewritten hf hr hr' with ⟨-, rfl⟩ | ⟨-, hold⟩
    · exact hadv.wf
    · exact h.wf id' r' hold
  · intro fr hfr
    obtain ⟨a, haa, hd, href⟩ := h.decisions fr hfr
    obtain ⟨a', ha', ⟨-, rfl, rfl⟩ | rfl⟩ := rewritten_of_record? hf hr haa
    · obtain ⟨h1, h2, -, -⟩ := hadv.decided (by rw [href]; rfl)
      exact ⟨_, ha', h1.trans hd, h2.trans href⟩
    · exact ⟨_, ha', hd, href⟩
  · intro fr hfr
    obtain ⟨a, haa, href⟩ := h.prompts fr hfr
    obtain ⟨a', ha', ⟨-, rfl, rfl⟩ | rfl⟩ := rewritten_of_record? hf hr haa
    · exact ⟨_, ha', hadv.clientRef.trans href⟩
    · exact ⟨_, ha', href⟩
  · intro id' d ref ts he
    refine absurd ?_ (ht id' d ref)
    rw [show m.tasks = .transmit id' d ref :: ts from he]
    exact List.mem_cons_self
  · exact fun id' d ref hm => ht id' d ref (List.mem_of_mem_tail hm)
  · intro id' hm r' hr'
    rcases record?_rewritten hf hr hr' with ⟨rfl, rfl⟩ | ⟨-, hold⟩
    · exact ha hm
    · exact h.auto id' hm r' hold
  · intro thread hm
    obtain ⟨⟨id', a, haa, hprompt, hd⟩, hret⟩ := h.answers thread hm
    refine ⟨?_, hret⟩
    obtain ⟨a', ha', ⟨-, rfl, rfl⟩ | rfl⟩ := rewritten_of_record? hf hr haa
    · have hphase := (h.wf _ _ hr).phase_of_decision hd
      obtain ⟨h1, -, h3, h4⟩ := hadv.decided ((h.wf _ _ hr).decided hphase).2
      refine ⟨id', _, ha', ?_, by rw [h1]; exact hd⟩
      simpa only [isPromptOf, h3, h4] using hprompt
    · exact ⟨id', _, ha', hprompt, hd⟩

/-- The other records, and all that was sent, stay. -/
theorem Quiet.rewritten (hr : m.record? id = some r) (hadv : Advances r (f r)) (tasks : List Task) :
    Quiet m { m with pending := ⟨m.rewrite id f hf, codec.save (m.rewrite id f hf)⟩, tasks := tasks } := by
  refine ⟨⟨fun id' a haa ht => ?_, fun id' a b haa hb hs => ?_⟩, rfl, rfl, rfl⟩
  · obtain ⟨a', ha', ⟨-, rfl, -⟩ | rfl⟩ := rewritten_of_record? hf hr haa
    · exact absurd ht hadv.active
    · exact ha'
  · obtain ⟨a', ha', ⟨-, rfl, rfl⟩ | rfl⟩ := rewritten_of_record? hf hr haa
    · cases ha'.symm.trans hb
      exact hadv.envelope hs
    · cases ha'.symm.trans hb
      rfl

/-- A record that is rewritten as the last thing a task does. -/
theorem Sound.persist_rewrite (h : m.Sound) (hr : m.record? id = some r) (hadv : Advances r (f r))
    (ht : ∀ id d ref, .transmit id d ref ∉ m.tasks)
    (ha : .sendDecision id true ∈ m.tasks → (f r).decision ≠ .reject) (persists : Bool) :
    (m.persistThen (m.rewrite id f hf) persists fun m => m).Sound ∧
      Quiet m (m.persistThen (m.rewrite id f hf) persists fun m => m) := by
  rcases m.persistThen_cases (m.rewrite id f hf) persists (fun m => m) with he | he
  · rw [he]
    exact ⟨h, .refl m⟩
  · rw [he]
    exact ⟨h.rewritten hf hr hadv ht ha, .rewritten hf hr hadv m.tasks⟩

end Rewrite
section Steps
variable {tasks : List Task}

/-- A step that only plans other tasks. -/
theorem Sound.good_withTasks (h : m.Sound) (ht : ∀ id d ref, .transmit id d ref ∉ tasks)
    (ha : ∀ id, .sendDecision id true ∈ tasks → ∀ r, m.record? id = some r → r.decision ≠ .reject)
    (hr : ∀ thread, .answer thread ∈ tasks → m.Answers thread ∧ ∀ seen, .retire seen ∉ tasks) :
    Good m (m.withTasks tasks) :=
  ⟨h.withTasks ht ha hr, Quiet.moves ⟨.of_pending rfl, rfl, rfl, rfl⟩⟩

theorem good_reconcile (h : m.Sound) (invites : Json) : Good m (m.reconcile invites) := by
  unfold reconcile
  split
  · exact h.good_refl
  · rename_i items _
    split
    · exact h.good_refl
    · refine h.good_withTasks ?_ ?_ ?_
      · intro id d ref hm
        simp at hm
      · intro id hm
        simp at hm
      · intro thread hm
        simp at hm

theorem good_resume (h : m.Sound) : Good m m.resume := by
  unfold resume
  refine h.good_withTasks ?_ ?_ ?_
  · intro id d ref hm
    split at hm <;> simp at hm
  · intro id hm
    split at hm <;> simp at hm
  · intro thread hm
    split at hm <;> simp at hm

theorem good_interrupt (h : m.Sound) : Good m (m.withTasks []) :=
  h.good_withTasks (fun _ _ _ hm => by cases hm) (fun _ hm => by cases hm) (fun _ hm => by cases hm)

theorem record?_adopted {invite : Invite} {e : Effects} {id : String} {r : KeylessInvitation}
    (h : (m.pending.memory.insertOrIgnore (newRecord invite e)).get? id = some r) :
    m.record? id = some r ∨ r = newRecord invite e := by
  rw [Table.get?_insertOrIgnore] at h
  split at h
  · exact .inr (Option.some.inj h).symm
  · exact .inl h

theorem adopted_of_record? {invite : Invite} {e : Effects} {id : String} {r : KeylessInvitation}
    (h : m.record? id = some r) : (m.pending.memory.insertOrIgnore (newRecord invite e)).get? id = some r := by
  rw [Table.get?_insertOrIgnore, show m.pending.memory.get? id = some r from h]
  simp

theorem newRecord_wf (invite : Invite) (e : Effects) : (newRecord invite e).Wf where
  undecided _ := ⟨rfl, rfl⟩
  decided hp := by rcases hp with hp | hp <;> cases hp
  unsent _ := rfl

/-- A record is added, unsent and undecided. -/
theorem Sound.adopted (h : m.Sound) (ht : ∀ id d ref, .transmit id d ref ∉ m.tasks) (invite : Invite) (e : Effects)
    {rows : Records} (hrows : rows = m.pending.memory.insertOrIgnore (newRecord invite e)) :
    Sound { m with pending := ⟨rows, codec.save rows⟩ } := by
  have hget : ∀ id r, m.record? id = some r → rows.get? id = some r :=
    fun id r hr => by rw [hrows]; exact adopted_of_record? hr
  have hinv : ∀ id r, rows.get? id = some r → m.record? id = some r ∨ r = newRecord invite e :=
    fun id r hr => record?_adopted (by rwa [hrows] at hr)
  refine ⟨rfl, ?_, ?_, ?_, ?_, ?_, ?_, ?_⟩
  · intro id r hr
    rcases hinv id r hr with hold | rfl
    · exact h.wf id r hold
    · exact newRecord_wf invite e
  · intro f hf
    obtain ⟨r, hr, hd⟩ := h.decisions f hf
    exact ⟨r, hget _ r hr, hd⟩
  · intro f hf
    obtain ⟨r, hr, hd⟩ := h.prompts f hf
    exact ⟨r, hget _ r hr, hd⟩
  · intro id d ref ts he
    refine absurd ?_ (ht id d ref)
    rw [show m.tasks = .transmit id d ref :: ts from he]
    exact List.mem_cons_self
  · exact fun id d ref hm => ht id d ref (List.mem_of_mem_tail hm)
  · intro id hm r hr
    rcases hinv id r hr with hold | rfl
    · exact h.auto id hm r hold
    · exact fun hd => by cases hd
  · intro thread hm
    obtain ⟨⟨id, r, hr, hp, hd⟩, hret⟩ := h.answers thread hm
    exact ⟨⟨id, r, hget id r hr, hp, hd⟩, hret⟩

theorem good_adopt (h : m.Sound) (ht : ∀ id d ref, .transmit id d ref ∉ m.tasks) (invite : Invite) (e : Effects) :
    Good m (m.adopt invite e) := by
  unfold adopt
  split
  · exact h.good_refl
  · rename_i hnone
    have hn : m.record? invite.eventId = none := by simpa using hnone
    dsimp only
    generalize hnext : (if m.operatorSlug = "" then ([] : List Task)
      else if m.autoAccept invite.value = true then [.sendDecision invite.eventId true]
      else [.sendPrompt invite.eventId]) = next
    have hkind : ∀ t ∈ next, t = .sendDecision invite.eventId true ∨ t = .sendPrompt invite.eventId := by
      intro t hm
      rw [← hnext] at hm
      split at hm
      · cases hm
      · split at hm
        · exact .inl (List.mem_singleton.1 hm)
        · exact .inr (List.mem_singleton.1 hm)
    rcases m.persistThen_cases (m.pending.memory.insertOrIgnore (newRecord invite e)) e.persists
      (fun m => m.withTasks (next ++ m.tasks)) with he | he
    · rw [he]
      exact h.good_refl
    · rw [he]
      have hs := h.adopted ht invite e rfl
      refine ⟨hs.withTasks ?_ ?_ ?_, Quiet.moves ⟨.of_record? fun _ _ hr => adopted_of_record? hr, rfl, rfl, rfl⟩⟩
      · intro id d ref hm
        rcases List.mem_append.1 hm with hm | hm
        · rcases hkind _ hm with hm | hm <;> cases hm
        · exact ht id d ref hm
      · intro id hm r hr
        rcases List.mem_append.1 hm with hm | hm
        · rcases hkind _ hm with hm | hm
          · cases hm
            rcases record?_adopted hr with hold | rfl
            · rw [hn] at hold
              cases hold
            · exact fun hd => by cases hd
          · cases hm
        · exact hs.auto id hm r hr
      · intro thread hm
        rcases List.mem_append.1 hm with hm | hm
        · rcases hkind _ hm with hm | hm <;> cases hm
        · obtain ⟨hans, hret⟩ := hs.answers thread hm
          refine ⟨hans, fun seen hm' => ?_⟩
          rcases List.mem_append.1 hm' with hm' | hm'
          · rcases hkind _ hm' with hm' | hm' <;> cases hm'
          · exact hret seen hm'

theorem record?_retired {seen : List String} {id : String} {r : KeylessInvitation} :
    (m.pending.memory.delete (isGone seen)).get? id = some r ↔ m.record? id = some r ∧ ¬isGone seen r := by
  rw [Table.get?_delete, Option.filter_eq_some_iff]
  simp [record?]

theorem good_retire (h : m.Sound) (ht : ∀ id d ref, .transmit id d ref ∉ m.tasks)
    (ha : ∀ thread, .answer thread ∉ m.tasks) (seen : List String) (e : Effects) : Good m (m.retire seen e) := by
  unfold retire
  dsimp only
  split
  · rcases m.persistThen_cases (m.pending.memory.delete (isGone seen)) e.persists _ with he | he
    · rw [he]
      exact h.good_refl
    · rw [he]
      have hremains {id : String} (hs : ((m.pending.memory.delete (isGone seen)).get? id).isSome) {r : KeylessInvitation}
          (hr : m.record? id = some r) : (m.pending.memory.delete (isGone seen)).get? id = some r := by
        obtain ⟨r', hr'⟩ := Option.isSome_iff_exists.1 hs
        cases (record?_retired.1 hr').1.symm.trans hr
        exact hr'
      have hkept {β : Type} (id : β → String) (fs : List β) (f : β) (hf : f ∈ fs) :
          f ∈ fs.filter (fun f => ((m.pending.memory.delete (isGone seen)).get? (id f)).isSome) ∨
            (m.pending.memory.delete (isGone seen)).get? (id f) = none := by
        cases hg : (m.pending.memory.delete (isGone seen)).get? (id f) with
        | none => exact .inr rfl
        | some r => exact .inl (List.mem_filter.2 ⟨hf, by rw [hg]; rfl⟩)
      refine ⟨⟨rfl, ?_, ?_, ?_, ?_, ?_, ?_, ?_⟩, ⟨⟨?_, ?_⟩, .inl ?_, hkept _ _, .inl ?_, hkept _ _, .inl rfl⟩⟩
      · exact fun id r hr => h.wf id r (record?_retired.1 hr).1
      · intro f hf
        obtain ⟨hf, hs⟩ := List.mem_filter.1 hf
        obtain ⟨r, hr, hd⟩ := h.decisions f hf
        exact ⟨r, hremains hs hr, hd⟩
      · intro f hf
        obtain ⟨hf, hs⟩ := List.mem_filter.1 hf
        obtain ⟨r, hr, hd⟩ := h.prompts f hf
        exact ⟨r, hremains hs hr, hd⟩
      · intro id d ref ts he'
        refine absurd ?_ (ht id d ref)
        rw [show m.tasks = .transmit id d ref :: ts from he']
        exact List.mem_cons_self
      · exact fun id d ref hm => ht id d ref (List.mem_of_mem_tail hm)
      · exact fun id hm r hr => h.auto id hm r (record?_retired.1 hr).1
      · exact fun thread hm => absurd hm (ha thread)
      · intro id r hr hp
        exact record?_retired.2 ⟨hr, by simp [isGone, hp]⟩
      · intro id r r' hr hr' _
        cases (record?_retired.1 hr').1.symm.trans hr
        rfl
      · exact fun f hf => (List.mem_filter.1 hf).1
      · exact fun f hf => (List.mem_filter.1 hf).1
  · exact h.good_refl

theorem advances_prompted {r : KeylessInvitation} (h : r.Wf) (hp : r.phase = .unsent) (envelope thread : String) :
    Advances r (.prompted envelope thread r) := by
  obtain ⟨hd, href⟩ := h.undecided (.inl hp)
  refine ⟨?_, ⟨fun _ => ⟨hd, href⟩, ?_, ?_⟩, rfl, ?_, ?_⟩
  · intro he
    rw [hp] at he
    cases he
  · rintro (he | he) <;> cases he
  · intro he
    cases he
  · intro hs
    rw [h.unsent hp] at hs
    cases hs
  · intro hs
    rw [href] at hs
    cases hs

theorem good_sendPrompt (h : m.Sound) (ht : ∀ id d ref, .transmit id d ref ∉ m.tasks) (eventId : String)
    (e : Effects) : Good m (m.sendPrompt eventId e) := by
  unfold sendPrompt
  split
  · exact h.good_refl
  · rename_i r hr
    split
    · exact h.good_refl
    · rename_i hp
      have hp : r.phase = .unsent := not_not.1 hp
      have hwf := h.wf eventId r hr
      have hs : Sound { m with prompts := ⟨eventId, r.promptClientRef⟩ :: m.prompts } := by
        refine ⟨h.synced, h.wf, h.decisions, ?_, h.transmits, h.later, h.auto, h.answers⟩
        intro f hf
        rcases List.mem_cons.1 hf with rfl | hf
        · exact ⟨r, hr, rfl⟩
        · exact h.prompts f hf
      dsimp only
      split
      · exact ⟨hs, (Quiet.refl _).prompted hr rfl (hwf.unsent hp)⟩
      · generalize hthread : (if e.promptThread = "" then e.promptEnvelope else e.promptThread) = thread
        have hauto : (KeylessInvitation.prompted e.promptEnvelope thread r).decision ≠ .reject := by
          rw [show (KeylessInvitation.prompted e.promptEnvelope thread r).decision = r.decision from rfl,
            (hwf.undecided (.inl hp)).1]
          exact fun hd => by cases hd
        obtain ⟨hsound, hquiet⟩ := hs.persist_rewrite (f := .prompted e.promptEnvelope thread) (fun _ => rfl) hr
          (advances_prompted hwf hp e.promptEnvelope thread) ht (fun _ => hauto) e.persists
        exact ⟨hsound, hquiet.prompted hr rfl (hwf.unsent hp)⟩

theorem advances_decided {r : KeylessInvitation} (hp : r.phase ≠ .terminal) (hn : r.decisionClientRef = none)
    {decision : Decision} (hd : decision ≠ .pending) {clientRef : String} (hc : clientRef ≠ "") :
    Advances r (.decided decision clientRef hc r) := by
  refine ⟨hp, ⟨?_, fun _ => ⟨hd, rfl⟩, ?_⟩, rfl, fun _ => rfl, ?_⟩
  · rintro (he | he) <;> cases he
  · intro he
    cases he
  · intro hs
    rw [hn] at hs
    cases hs

theorem advances_resolved {r : KeylessInvitation} (hp : r.phase ≠ .terminal) (hd : r.decision ≠ .pending)
    (hs : r.decisionClientRef.isSome) (outcome : Outcome) : Advances r (.resolved outcome r) := by
  refine ⟨hp, ⟨?_, fun _ => ⟨hd, hs⟩, ?_⟩, rfl, fun _ => rfl, fun _ => ⟨rfl, rfl, rfl, rfl⟩⟩
  · rintro (he | he) <;> cases he
  · intro he
    cases he

theorem mem_matchingRecord {thread : String} {r : KeylessInvitation} (h : m.matchingRecord thread = some r) :
    m.record? r.invitationEventId = some r ∧ isPromptOf thread r :=
  ⟨Table.get?_of_mem (List.mem_of_find?_eq_some h), List.find?_some h⟩

theorem replyDecision_ne {host : Host} {text : String} {decision : Decision}
    (h : replyDecision host text = some decision) : decision ≠ .pending := by
  simp only [replyDecision] at h
  split at h
  · cases h
    exact fun he => by cases he
  · split at h
    · cases h
      exact fun he => by cases he
    · cases h

theorem Sound.ref_of_pending (h : m.Sound) {id : String} {r : KeylessInvitation} (hr : m.record? id = some r)
    (hd : r.decision = .pending) : r.decisionClientRef = none := by
  cases hc : r.decisionClientRef with
  | none => rfl
  | some c =>
    have hphase := (h.wf id r hr).phase_of_ref (by rw [hc]; rfl)
    exact absurd hd ((h.wf id r hr).decided hphase).1

theorem good_handleReply (host : Host) (h : m.Sound) (ht : m.tasks = []) (thread text : String) (e : Effects) :
    Good m (m.handleReply host thread text e) := by
  unfold handleReply
  split
  · rename_i decision r hdec hm
    obtain ⟨hr, hprompt⟩ := mem_matchingRecord hm
    split
    · rename_i hdone
      have hd : r.decision ≠ .pending := by
        rcases hdone with hp | hd
        · exact ((h.wf _ r hr).decided (.inr hp)).1
        · exact hd
      refine h.good_withTasks ?_ ?_ ?_
      · intro id d ref hm
        simp at hm
      · intro id hm
        simp at hm
      · intro thread' hm
        simp only [List.mem_singleton, Task.answer.injEq] at hm
        subst hm
        exact ⟨⟨_, r, hr, hprompt, hd⟩, by simp⟩
    · rename_i hopen
      obtain ⟨hp, hd⟩ := not_or.1 hopen
      have hd : r.decision = .pending := not_not.1 hd
      have hnone := h.ref_of_pending hr hd
      dsimp only
      split
      · rename_i c hc
        rw [hnone] at hc
        cases hc
      · have hadv := advances_decided hp hnone (replyDecision_ne hdec) e.decisionClientRef_ne
        rcases m.persistThen_cases (m.rewrite r.invitationEventId
          (.decided decision e.decisionClientRef e.decisionClientRef_ne) fun _ => rfl) e.persists
          (fun m => m.withTasks [.sendDecision r.invitationEventId false, .answer thread]) with he | he
        · rw [he]
          exact h.good_refl
        · rw [he]
          have hs := h.rewritten (f := .decided decision e.decisionClientRef e.decisionClientRef_ne) (fun _ => rfl) hr
            hadv (fun _ _ _ hm => by rw [ht] at hm; cases hm) (fun hm => by rw [ht] at hm; cases hm)
          refine ⟨hs.withTasks ?_ ?_ ?_, (Quiet.rewritten _ hr hadv _).moves⟩
          · intro id d ref hm
            simp at hm
          · intro id hm
            simp at hm
          · intro thread' hm
            have : thread' = thread := by simpa using hm
            subst this
            exact ⟨⟨_, _, get?_rewrite_self (f := .decided decision e.decisionClientRef
              e.decisionClientRef_ne) (fun _ => rfl) hr, hprompt, replyDecision_ne hdec⟩, by simp⟩
  · exact h.good_refl

/-- The frame of a decision that stands is planned. -/
theorem Sound.cons_transmit (h : m.Sound) (ht : ∀ id d ref, .transmit id d ref ∉ m.tasks) {f : DecisionFrame}
    (hd : m.Decides f) (hp : ∀ r, m.record? f.eventId = some r → r.phase ≠ .terminal) :
    (m.withTasks (.transmit f.eventId f.decision f.clientRef :: m.tasks)).Sound := by
  refine ⟨h.synced, h.wf, h.decisions, h.prompts, ?_, ht, ?_, ?_⟩
  · intro id d ref ts he
    cases (List.cons.inj he).1
    exact ⟨hd, hp⟩
  · intro id hm
    refine h.auto id (List.mem_of_ne_of_mem ?_ hm)
    exact fun he => by cases he
  · intro thread hm
    obtain ⟨hans, hret⟩ := h.answers thread (List.mem_of_ne_of_mem (fun he => by cases he) hm)
    exact ⟨hans, fun seen hm' => hret seen (List.mem_of_ne_of_mem (fun he => by cases he) hm')⟩

theorem good_sendDecision (h : m.Sound) (ht : ∀ id d ref, .transmit id d ref ∉ m.tasks) (eventId : String)
    (accepted : Bool) (ha : accepted → ∀ r, m.record? eventId = some r → r.decision ≠ .reject) (e : Effects) :
    Good m (m.sendDecision eventId accepted e) := by
  unfold sendDecision
  split
  · exact h.good_refl
  · rename_i r hr
    dsimp only
    have hwf := h.wf eventId r hr
    generalize hres : (if accepted = true then Decision.accept else r.decision) = resolved
    split
    · exact h.good_refl
    · rename_i hopen
      obtain ⟨hp, hd⟩ := not_or.1 hopen
      split
      · rename_i c hc
        have hne := (hwf.decided (hwf.phase_of_ref (by rw [hc]; rfl))).1
        have hsame : r.decision = resolved := by
          rw [← hres]
          split
          · rename_i hacc
            cases hrd : r.decision with
            | pending => exact absurd hrd hne
            | accept => rfl
            | reject => exact absurd hrd (ha hacc r hr)
          · rfl
        refine ⟨h.cons_transmit ht (f := ⟨eventId, resolved, c⟩) ⟨r, hr, hsame, hc⟩ ?_,
          Quiet.moves ⟨.of_pending rfl, rfl, rfl, rfl⟩⟩
        intro a haa
        cases hr.symm.trans haa
        exact hp
      · rename_i hc
        have hadv := advances_decided hp hc hd e.decisionClientRef_ne
        rcases m.persistThen_cases (m.rewrite eventId
          (.decided resolved e.decisionClientRef e.decisionClientRef_ne) fun _ => rfl) e.persists
          (fun m => m.withTasks (.transmit eventId resolved e.decisionClientRef :: m.tasks)) with he | he
        · rw [he]
          exact h.good_refl
        · rw [he]
          have hauto : .sendDecision eventId true ∈ m.tasks → resolved ≠ .reject := by
            intro hm
            rw [← hres]
            split
            · exact fun he => by cases he
            · exact h.auto eventId hm r hr
          have hs := h.rewritten (f := .decided resolved e.decisionClientRef e.decisionClientRef_ne) (fun _ => rfl) hr
            hadv ht hauto
          have hget := get?_rewrite_self (f := .decided resolved e.decisionClientRef e.decisionClientRef_ne)
            (fun _ => rfl) hr
          refine ⟨hs.cons_transmit ht (f := ⟨eventId, resolved, e.decisionClientRef⟩) ⟨_, hget, rfl, rfl⟩ ?_,
            (Quiet.rewritten _ hr hadv _).moves⟩
          intro a haa
          cases hget.symm.trans haa
          exact fun he => by cases he

theorem good_transmit (h : m.Sound) (ht : ∀ id d ref, .transmit id d ref ∉ m.tasks) {eventId : String}
    {decision : Decision} {clientRef : String} (hd : m.Decides ⟨eventId, decision, clientRef⟩)
    (hp : ∀ r, m.record? eventId = some r → r.phase ≠ .terminal) (e : Effects) :
    Good m (m.transmit eventId decision clientRef e) := by
  unfold transmit
  have hs : Sound { m with decisions := ⟨eventId, decision, clientRef⟩ :: m.decisions } := by
    refine ⟨h.synced, h.wf, ?_, h.prompts, h.transmits, h.later, h.auto, h.answers⟩
    intro f hf
    rcases List.mem_cons.1 hf with rfl | hf
    · exact hd
    · exact h.decisions f hf
  dsimp only
  split
  · exact ⟨hs, (Quiet.refl _).decided hd⟩
  · rename_i outcome _
    obtain ⟨r, hr, -, href⟩ := id hd
    have hsome : r.decisionClientRef.isSome := by rw [href]; rfl
    have hne := ((h.wf _ r hr).decided ((h.wf _ r hr).phase_of_ref hsome)).1
    obtain ⟨hsound, hquiet⟩ := hs.persist_rewrite (f := .resolved outcome) (fun _ => rfl) hr
      (advances_resolved (hp r hr) hne hsome outcome) ht (fun hm => h.auto eventId hm r hr) e.persists
    exact ⟨hsound, hquiet.decided hd⟩

theorem good_advance (h : m.Sound) (e : Effects) : Good m (m.advance e) := by
  unfold advance
  split
  · exact h.good_refl
  · rename_i invite tasks ht
    exact (good_adopt (h.tail ht) (h.tail_transmit ht) invite e).of_tail
  · rename_i seen tasks ht
    refine (good_retire (h.tail ht) (h.tail_transmit ht) ?_ seen e).of_tail
    intro thread hm
    refine (h.answers thread ?_).2 seen ?_
    · rw [ht]
      exact List.mem_cons_of_mem _ hm
    · rw [ht]
      exact List.mem_cons_self
  · rename_i id tasks ht
    exact (good_sendPrompt (h.tail ht) (h.tail_transmit ht) id e).of_tail
  · rename_i id accepted tasks ht
    refine (good_sendDecision (h.tail ht) (h.tail_transmit ht) id accepted ?_ e).of_tail
    intro hacc
    refine h.auto id ?_
    rw [ht, hacc]
    exact List.mem_cons_self
  · rename_i id decision clientRef tasks ht
    obtain ⟨hd, hp⟩ := h.transmits id decision clientRef tasks ht
    exact (good_transmit (h.tail ht) (h.tail_transmit ht) hd hp e).of_tail
  · rename_i thread tasks ht
    have hs := h.tail ht
    have hans := (h.answers thread (by rw [ht]; exact List.mem_cons_self)).1
    refine ⟨⟨hs.synced, hs.wf, hs.decisions, hs.prompts, hs.transmits, hs.later, hs.auto, hs.answers⟩, ?_⟩
    exact ⟨.of_pending rfl, .inl fun _ hf => hf, fun _ hf => .inl hf, .inl fun _ hf => hf, fun _ hf => .inl hf,
      .inr ⟨thread, rfl, hans⟩⟩

theorem good_step (host : Host) (h : m.Sound) (event : Event) : Good m (step host m event) := by
  cases event with
  | reconcile invites =>
    simp only [step]
    split
    · exact good_reconcile h invites
    · exact h.good_refl
  | reply thread text e =>
    simp only [step]
    split
    · rename_i ht
      exact good_handleReply host h (List.isEmpty_iff.1 ht) thread text e
    · exact h.good_refl
  | resume =>
    simp only [step]
    split
    · exact good_resume h
    · exact h.good_refl
  | advance e => exact good_advance h e
  | interrupt => exact good_interrupt h
  | restart operatorSlug autoAcceptSpace =>
    obtain ⟨hs, -⟩ := good_interrupt h
    simp only [step, h.synced.restart]
    refine ⟨⟨hs.synced, hs.wf, hs.decisions, hs.prompts, hs.transmits, hs.later, hs.auto, hs.answers⟩, ?_⟩
    exact Quiet.moves ⟨.of_pending rfl, rfl, rfl, rfl⟩

end Steps
end Flow

theorem sound_run (host : Host) (operatorSlug : String) (autoAcceptSpace : Bool) (events : List Event) :
    (Machine.run (step host) (.initial operatorSlug autoAcceptSpace) events).Sound := by
  have hstep : ∀ (m : Flow) (e : Event), m.Sound → (step host m e).Sound := fun _ e h => (Flow.good_step host h e).1
  exact Machine.run_invariant (Flow.Sound.initial operatorSlug autoAcceptSpace) hstep events

/-- The invitation protocol, in every run and whatever comes next. The document on disk holds
the records in memory. The decision frames of a record that stands agree, and a frame is sent
only for the answer and the reference that are on disk. Its prompts agree, and one is sent only
while no prompt envelope is on disk, where one stays as long as the record. A terminal record
does not change, a record's frames are forgotten only when it is retired, and a reply is answered
with `True` only when its prompt has an answer on disk. -/
theorem invitation_protocol (host : Host) (operatorSlug : String) (autoAcceptSpace : Bool) (events : List Event)
    (e : Event) :
    let m := Machine.run (step host) (.initial operatorSlug autoAcceptSpace) events
    let m' := step host m e
    let disk := codec.load m.pending.file
    disk = m.pending.memory ∧
      (∀ f ∈ m.decisions, ∀ f' ∈ m.decisions, f.eventId = f'.eventId →
        f.decision = f'.decision ∧ f.clientRef = f'.clientRef) ∧
      ((∀ f ∈ m'.decisions, f ∈ m.decisions) ∨ ∃ f r, m'.decisions = f :: m.decisions ∧
        disk.get? f.eventId = some r ∧ r.decision = f.decision ∧ r.decisionClientRef = some f.clientRef) ∧
      (∀ f ∈ m.prompts, ∀ f' ∈ m.prompts, f.eventId = f'.eventId → f.clientRef = f'.clientRef) ∧
      ((∀ f ∈ m'.prompts, f ∈ m.prompts) ∨ ∃ f r, m'.prompts = f :: m.prompts ∧
        disk.get? f.eventId = some r ∧ r.promptClientRef = f.clientRef ∧ r.promptEnvelopeId = none) ∧
      (∀ id r r', m.record? id = some r → m'.record? id = some r' → r.promptEnvelopeId.isSome →
        r'.promptEnvelopeId = r.promptEnvelopeId) ∧
      (∀ id r, m.record? id = some r → r.phase = .terminal → m'.record? id = some r) ∧
      (∀ f ∈ m.decisions, f ∈ m'.decisions ∨ m'.record? f.eventId = none) ∧
      (∀ f ∈ m.prompts, f ∈ m'.prompts ∨ m'.record? f.eventId = none) ∧
      (m'.answered = m.answered ∨ ∃ thread id r, m'.answered = thread :: m.answered ∧ disk.get? id = some r ∧
        (r.promptEnvelopeId = some thread ∨ r.promptThreadId = some thread) ∧ r.decision ≠ .pending) := by
  intro m m' disk
  have h : m.Sound := sound_run host operatorSlug autoAcceptSpace events
  obtain ⟨-, hmoves⟩ := Flow.good_step host h e
  have hdisk : disk = m.pending.memory := by rw [show disk = codec.load m.pending.file from rfl, h.synced, codec.load_save]
  refine ⟨hdisk, ?_, ?_, ?_, ?_, hmoves.kept.asked, hmoves.kept.terminal, hmoves.decisionKept, hmoves.promptKept, ?_⟩
  · intro f hf f' hf' he
    obtain ⟨r, hr, hd, href⟩ := h.decisions f hf
    obtain ⟨r', hr', hd', href'⟩ := h.decisions f' hf'
    rw [he] at hr
    cases hr.symm.trans hr'
    exact ⟨hd.symm.trans hd', Option.some.inj (href.symm.trans href')⟩
  · rcases hmoves.decision with hs | ⟨f, hs, r, hr, hd, href⟩
    · exact .inl hs
    · exact .inr ⟨f, r, hs, by rw [hdisk]; exact hr, hd, href⟩
  · intro f hf f' hf' he
    obtain ⟨r, hr, hc⟩ := h.prompts f hf
    obtain ⟨r', hr', hc'⟩ := h.prompts f' hf'
    rw [he] at hr
    cases hr.symm.trans hr'
    exact hc.symm.trans hc'
  · rcases hmoves.prompt with hs | ⟨f, r, hs, hr, hc, hn⟩
    · exact .inl hs
    · exact .inr ⟨f, r, hs, by rw [hdisk]; exact hr, hc, hn⟩
  · rcases hmoves.answer with hs | ⟨thread, hs, id, r, hr, hp, hd⟩
    · exact .inl hs
    · exact .inr ⟨thread, id, r, hs, by rw [hdisk]; exact hr, by simpa [Flow.isPromptOf] using hp, hd⟩

end PuffoAgent.Invitations
