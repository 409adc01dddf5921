import PuffoAgent.Sending.Reconsideration

/-! Held evidence across the teardown of a turn. A send reads the discard generation when it
has the lock of its channel; until then it is only on its way there. -/
namespace PuffoAgent.Sending
open Relational Text Machine

/-- The coordinator, every send that was started, and those that have not come to the lock of
their channel. -/
structure Intake where
  coordinator : Coordinator
  started : List Nat
  waiting : List Nat

/-- A send starts, ends before it has a channel's lock, or the coordinator takes a step. -/
inductive Event where
  | start (id : Nat)
  | quit (id : Nat)
  | op (op : Op)

namespace Intake

def idle : Intake := ⟨.idle, [], []⟩

/-- A waiting send takes the lock of its channel, if the lock is free. -/
def enter (m : Intake) (id : Nat) (request : SemanticSendRequest) (spaceId : String)
    (keyless : Bool) : Intake :=
  if id ∈ m.waiting then
    let c := m.coordinator.enter id request spaceId keyless
    { m with
      coordinator := c
      waiting := if (c.sends.get? id).isSome then m.waiting.filter (· ≠ id) else m.waiting }
  else m

def step (sha : Sha256) (m : Intake) : Event → Intake
  | .start id => if id ∈ m.started then m
    else { m with started := id :: m.started, waiting := id :: m.waiting }
  | .quit id => { m with waiting := m.waiting.filter (· ≠ id) }
  | .op (.enter id request spaceId keyless) => m.enter id request spaceId keyless
  | .op op => { m with coordinator := Sending.step sha m.coordinator op }

/-- The coordinator is torn down while no send is on its way to a lock. -/
def Calm (m : Intake) : Event → Prop
  | .op .discard => m.waiting = []
  | _ => True

instance (m : Intake) : (event : Event) → Decidable (m.Calm event)
  | .op .discard => inferInstanceAs (Decidable (m.waiting = []))
  | .op (.enter _ _ _ _) | .op (.resume _ _) | .op (.setActive _) | .op (.setSession _)
  | .op (.admitted _ _ _) | .start _ | .quit _ => inferInstanceAs (Decidable True)

/-- The state after `events`. -/
def after (sha : Sha256) (events : List Event) : Intake := run (step sha) idle events

end Intake

/-- The record was not there before, under any mark. -/
def Added (c c' : Coordinator) (held : HeldEvidence) : Prop :=
  c'.held.get? held.key = some held ∧ ∀ old, c.held.get? held.key = some old →
    held ≠ old ∧ held ≠ { old with synchronized := true }

/-- The key under which a resolved send records a held answer. -/
def Phase.heldKey? : Phase → Option HeldKey
  | .ready heldKey _ _ _ => some heldKey
  | .recording heldKey _ _ => some heldKey
  | .consuming heldKey _ _ => some heldKey
  | .supplementing heldKey _ => some heldKey
  | _ => none

/-- After `events` the send is resolved, under the turn that is active there. -/
structure Resolved (sha : Sha256) (id : Nat) (key : HeldKey) (events : List Event)
    (event : Event) : Prop where
  resumed : ∃ input, event = .op (.resume id input)
  unresolved : ∃ send, (Intake.after sha events).coordinator.sends.get? id = some send ∧
    send.phase.heldKey? = none
  identity : (Intake.after sha events).coordinator.turnIdentity = (key.sessionId, key.turnId)
  ready : ∃ send, (Intake.after sha (events ++ [event])).coordinator.sends.get? id = some send ∧
    send.phase.heldKey? = some key

variable {sha : Sha256} {m : Intake} {events : List Event}

section Steps

theorem Intake.after_snoc (sha : Sha256) (events : List Event) (event : Event) :
    after sha (events ++ [event]) = (after sha events).step sha event :=
  run_append (step sha) idle events [event]

/-- The coordinator of an intake takes the steps of a coordinator. -/
theorem Intake.step_coordinator (sha : Sha256) (m : Intake) (event : Event) :
    (m.step sha event).coordinator = m.coordinator ∨
      ∃ op, event = .op op ∧ (m.step sha event).coordinator = Sending.step sha m.coordinator op := by
  unfold step
  split
  · split_ifs <;> exact .inl rfl
  · exact .inl rfl
  · unfold enter
    split_ifs
    · exact .inr ⟨_, rfl, rfl⟩
    · exact .inl rfl
  · exact .inr ⟨_, rfl, rfl⟩

theorem step_heldGeneration (sha : Sha256) (c : Coordinator) (op : Op) :
    c.heldGeneration ≤ (step sha c op).heldGeneration := by
  cases op with
  | enter id request spaceId keyless =>
    simp only [step, Coordinator.enter]
    split_ifs <;> exact le_rfl
  | resume id input =>
    simp only [step]
    split
    · exact le_rfl
    · exact (writes_heldGeneration sha c _ input).ge
  | setActive active => exact le_rfl
  | setSession providerSessionId => exact le_rfl
  | admitted spaceId channelId throughSeq => exact le_rfl
  | discard => exact Nat.le_succ _

theorem Intake.step_started {id : Nat} (h : id ∈ m.started) (event : Event) :
    id ∈ (m.step sha event).started := by
  unfold step
  split
  · split_ifs
    · exact h
    · exact List.mem_cons_of_mem _ h
  · exact h
  · unfold enter
    split_ifs <;> exact h
  · exact h

/-- A send waits only from its start on. -/
theorem Intake.step_waiting {id : Nat} {event : Event} (h : id ∈ (m.step sha event).waiting) :
    id ∈ m.waiting ∨ id ∉ m.started ∧ id ∈ (m.step sha event).started := by
  unfold step at h ⊢
  split at h
  · split_ifs at h ⊢ with hs
    · exact .inl h
    · obtain rfl | hw := List.mem_cons.mp h
      · exact .inr ⟨hs, List.mem_cons_self⟩
      · exact .inl hw
  · exact .inl (List.mem_filter.mp h).1
  · unfold enter at h
    split_ifs at h with hw
    · simp only at h
      split_ifs at h
      · exact .inl (List.mem_filter.mp h).1
      · exact .inl h
    · exact .inl h
  · exact .inl h

/-- After a step a send is as it was, was waiting and has just entered, or was the one resumed. -/
theorem Intake.step_sends {event : Event} {id : Nat} {send' : Send}
    (h : (m.step sha event).coordinator.sends.get? id = some send') :
    m.coordinator.sends.get? id = some send' ∨
      (id ∈ m.waiting ∧ id ∉ (m.step sha event).waiting ∧ send'.phase = .resolving ∧
        send'.heldGeneration = (m.step sha event).coordinator.heldGeneration) ∨
      ∃ send input, event = .op (.resume id input) ∧ m.coordinator.sends.get? id = some send ∧
        send' = m.coordinator.resumed sha send input := by
  obtain hc | ⟨op, rfl, hc⟩ := m.step_coordinator sha event
  · exact .inl (hc ▸ h)
  · obtain hk | ⟨request, spaceId, keyless, rfl, rfl⟩ | ⟨send, input, rfl, hk, rfl⟩ :=
      Sending.step_sends (hc ▸ h)
    · exact .inl hk
    · by_cases hw : id ∈ m.waiting
      · have hs : m.step sha (.op (.enter id request spaceId keyless)) = ⟨_, m.started, _⟩ := if_pos hw
        rw [hs] at h ⊢
        simp only [h, Option.isSome_some, if_true]
        refine .inr (.inl ⟨hw, by simp, trivial, ?_⟩)
        unfold Coordinator.enter
        split_ifs <;> rfl
      · have hs : m.step sha (.op (.enter id request spaceId keyless)) = m := if_neg hw
        rw [hs] at h
        exact .inl h
    · obtain rfl := Table.get?_key hk
      exact .inr (.inr ⟨send, input, rfl, hk, rfl⟩)

end Steps

section Discards

/-- The sends of the coordinator were started, are past the way to their lock, and read a
generation that was there. -/
structure Intake.Sound (m : Intake) : Prop where
  waiting : ∀ id ∈ m.waiting, id ∈ m.started
  entered : ∀ id send, m.coordinator.sends.get? id = some send →
    id ∈ m.started ∧ id ∉ m.waiting ∧ send.heldGeneration ≤ m.coordinator.heldGeneration

/-- The send was started before the evidence was discarded: it does not enter any more, and
the generation it read is over. -/
structure Intake.Sealed (id : Nat) (m : Intake) : Prop where
  started : id ∈ m.started
  entered : id ∉ m.waiting
  stale : ∀ send, m.coordinator.sends.get? id = some send →
    send.heldGeneration < m.coordinator.heldGeneration

theorem Intake.step_heldGeneration (m : Intake) (event : Event) :
    m.coordinator.heldGeneration ≤ (m.step sha event).coordinator.heldGeneration := by
  obtain hc | ⟨op, -, hc⟩ := m.step_coordinator sha event
  · rw [hc]
  · rw [hc]
    exact Sending.step_heldGeneration sha _ op

theorem Intake.Sound.step (h : m.Sound) (event : Event) : (m.step sha event).Sound where
  waiting id hw := by
    obtain hw | ⟨-, hs⟩ := step_waiting hw
    · exact step_started (h.waiting id hw) event
    · exact hs
  entered id send' hs := by
    have past (hm : id ∈ m.started) (hw : id ∉ m.waiting) :
        id ∈ (m.step sha event).started ∧ id ∉ (m.step sha event).waiting := by
      refine ⟨step_started hm event, fun hn => ?_⟩
      obtain hn | ⟨hn, -⟩ := step_waiting hn
      · exact hw hn
      · exact hn hm
    obtain hk | ⟨hm, hw, -, hg⟩ | ⟨send, input, -, hk, rfl⟩ := step_sends hs
    · obtain ⟨hm, hw, hg⟩ := h.entered id send' hk
      exact ⟨(past hm hw).1, (past hm hw).2, hg.trans (m.step_heldGeneration event)⟩
    · exact ⟨step_started (h.waiting id hm) event, hw, hg.le⟩
    · obtain ⟨hm, hw, hg⟩ := h.entered id send hk
      rw [Coordinator.resumed_heldGeneration]
      exact ⟨(past hm hw).1, (past hm hw).2, hg.trans (m.step_heldGeneration event)⟩

theorem Intake.after_sound (sha : Sha256) (events : List Event) : (after sha events).Sound := by
  refine run_invariant ⟨fun id h => absurd h List.not_mem_nil, fun id send h => ?_⟩
    (fun m event h => h.step event) events
  cases h

/-- A discard that meets no waiting send seals every send that was started. -/
theorem Intake.Sound.discard (h : m.Sound) (hc : m.Calm (.op .discard)) {id : Nat}
    (hs : id ∈ m.started) : (m.step sha (.op .discard)).Sealed id where
  started := hs
  entered := by
    show id ∉ m.waiting
    rw [hc]
    exact List.not_mem_nil
  stale send hg := Nat.lt_succ_of_le (h.entered id send hg).2.2

theorem Intake.Sealed.step {id : Nat} (h : m.Sealed id) (event : Event) :
    (m.step sha event).Sealed id where
  started := step_started h.started event
  entered hw := by
    obtain hw | ⟨hn, -⟩ := step_waiting hw
    · exact h.entered hw
    · exact hn h.started
  stale send' hs := by
    obtain hk | ⟨hw, -⟩ | ⟨send, input, -, hk, rfl⟩ := step_sends hs
    · exact (h.stale send' hk).trans_le (m.step_heldGeneration event)
    · exact absurd hw h.entered
    · rw [Coordinator.resumed_heldGeneration]
      exact (h.stale send hk).trans_le (m.step_heldGeneration event)

/-- A record is added by the resumed send itself, at the end of its `POST`, in the generation
that it read. -/
theorem Intake.added_resumes {event : Event} {held : HeldEvidence}
    (h : Added m.coordinator (m.step sha event).coordinator held) :
    ∃ send input, event = .op (.resume send.id input) ∧
      m.coordinator.sends.get? send.id = some send ∧ send.phase.heldKey? = some held.key ∧
      send.heldGeneration = m.coordinator.heldGeneration := by
  obtain ⟨hg, hn⟩ := h
  obtain hc | ⟨op, rfl, hc⟩ := m.step_coordinator sha event
  · exact absurd rfl (hn held (hc ▸ hg)).1
  · obtain hk | ⟨-, -, old, -, -, -, hk, -, rfl⟩ | ⟨send, input, _, _, _, _, _, rfl, hs, hp, hgen, rfl⟩ :=
      step_held (hc ▸ hg)
    · exact absurd rfl (hn held hk).1
    · exact absurd rfl (hn old hk).2
    · exact ⟨send, input, rfl, hs, by rw [hp]; rfl, hgen⟩

theorem Intake.Sealed.adds_nothing {id : Nat} (h : m.Sealed id) (input : Coordinator.Input)
    (held : HeldEvidence) :
    ¬ Added m.coordinator (m.step sha (.op (.resume id input))).coordinator held := by
  intro ha
  obtain ⟨send, _, he, hs, -, hgen⟩ := added_resumes ha
  cases he
  exact absurd hgen (h.stale send hs).ne

end Discards

section Identity
variable {c : Coordinator} {send : Send} {input : Coordinator.Input} {key : HeldKey}

/-- A send gets its key in the step that resolves it, from the turn that is active there. -/
theorem resumed_heldKey (h : (c.resumed sha send input).phase.heldKey? = some key) :
    send.phase.heldKey? = some key ∨
      send.phase.heldKey? = none ∧ c.turnIdentity = (key.sessionId, key.turnId) := by
  unfold Coordinator.resumed at h
  split at h
  case h_1 hp =>
    unfold Coordinator.resolveSend at h
    split at h
    · cases h
    · split_ifs at h
      · cases h
      · cases h
      · cases h
      · cases h
        exact .inr ⟨by rw [hp]; rfl, rfl⟩
  case h_2 hp =>
    unfold Coordinator.snapshotSend at h
    split at h
    · cases h
    · split_ifs at h
      · cases h
      · cases h
      · split at h <;> cases h
  case h_3 hp =>
    split at h <;> cases h
  case h_4 hp =>
    unfold Coordinator.confirmSend at h
    split at h
    · cases h
    · split_ifs at h <;> cases h
  case h_5 hp =>
    unfold Coordinator.gradeSend at h
    split at h
    · cases h
    · split_ifs at h
      · cases h
      · cases h
        exact .inr ⟨by rw [hp]; rfl, rfl⟩
  case h_6 hp => exact .inl (by rw [hp]; exact h)
  case h_7 response hp =>
    rw [hp]
    cases response with
    | sent missing => exact .inl h
    | held seq envelopeId => exact .inl h
    | failed => cases h
    | formatMismatch changed =>
      simp only [Coordinator.answerSend] at h
      split_ifs at h
      · exact .inl h
      · cases h
  case h_8 => cases h
  case h_9 hp =>
    rw [hp]
    simp only at h
    split_ifs at h
    · exact .inl h
    · cases h
  case h_10 => cases h
  case h_11 =>
    unfold Coordinator.catchUpSend at h
    split at h <;> cases h
  case h_12 =>
    split at h <;> cases h
  case h_13 => exact .inl h

/-- In every run, a send with a key was resolved under it. -/
theorem after_resolved (sha : Sha256) (events : List Event) {id : Nat}
    (hs : (Intake.after sha events).coordinator.sends.get? id = some send)
    (hk : send.phase.heldKey? = some key) : Past (Resolved sha id key) events := by
  induction events using List.reverseRecOn generalizing id send with
  | nil => cases hs
  | append_singleton events event ih =>
    have hs' := hs
    rw [Intake.after_snoc] at hs
    obtain hg | ⟨-, -, hp, -⟩ | ⟨old, input, rfl, hg, rfl⟩ := Intake.step_sends hs
    · exact (ih hg hk).later event
    · rw [hp] at hk
      cases hk
    · obtain ho | ⟨hn, hi⟩ := resumed_heldKey hk
      · exact (ih hg ho).later _
      · exact .now ⟨⟨input, rfl⟩, ⟨old, hg, hn⟩, hi, ⟨_, hs', hk⟩⟩

end Identity

/-- In a run that tears the coordinator down only while no send is on its way to a lock, a
send that was started before a discard adds no record after it. Every record that is added
stands under the turn that was active when its send was resolved. -/
theorem discarded_sends_add_nothing (sha : Sha256) (events : List Event)
    (h : Along (Intake.step sha) Intake.Calm Intake.idle events) :
    (∀ before between rest id input held,
      events = before ++ .op .discard :: (between ++ .op (.resume id input) :: rest) →
      id ∈ (Intake.after sha before).started →
      ¬ Added (Intake.after sha (before ++ .op .discard :: between)).coordinator
        (Intake.after sha (before ++ .op .discard :: between ++ [.op (.resume id input)])).coordinator
        held) ∧
    (∀ before event rest held, events = before ++ event :: rest →
      Added (Intake.after sha before).coordinator (Intake.after sha (before ++ [event])).coordinator
        held →
      ∃ id input, event = .op (.resume id input) ∧ Past (Resolved sha id held.key) before) := by
  constructor
  · rintro before between rest id input held rfl hs
    rw [along_append] at h
    have hd : ((Intake.after sha before).step sha (.op .discard)).Sealed id :=
      (Intake.after_sound sha before).discard h.2.1 hs
    have hr : (Intake.after sha (before ++ .op .discard :: between)).Sealed id := by
      rw [Intake.after, run_append, run_cons]
      exact run_invariant hd (fun m event h => h.step event) between
    rw [Intake.after_snoc]
    exact hr.adds_nothing input held
  · rintro before event rest held - ha
    rw [Intake.after_snoc] at ha
    obtain ⟨send, input, rfl, hs, hk, -⟩ := Intake.added_resumes ha
    exact ⟨send.id, input, rfl, after_resolved sha before hs hk⟩

section Runs

/-- The send of a turn posts its message, and the turn ends before the answer. -/
def postedRun : List Event :=
  [.op (.setSession (some "s")), .op (.setActive (some ⟨"t", "s"⟩)), .start 0,
    .op (.enter 0 { destination := "ch", text := "hello" } "sp" false),
    .op (.resume 0 (.materialized (some []))), .op (.resume 0 .post),
    .op (.setSession none), .op (.setActive none)]

/-- The turn ends while its send is on the way to the lock. -/
def overtakenRun : List Event :=
  [.op (.setSession (some "s")), .op (.setActive (some ⟨"t", "s"⟩)), .start 0,
    .op (.setSession none), .op (.setActive none)]

/-- The send has the lock and posts. -/
def enteredRun : List Event :=
  [.op (.enter 0 { destination := "ch", text := "hello" } "sp" false),
    .op (.resume 0 (.materialized (some []))), .op (.resume 0 .post)]

/-- The answer of the transport. -/
def heldAnswer : Event := .op (.resume 0 (.response (.held (some 7) (some "e7"))))

theorem discarded_sends_add_nothing_posted :
    (((Intake.after parity (postedRun ++ .op .discard :: [heldAnswer])).coordinator.sends.get? 0).any
      (·.phase = .recording ⟨"s", "t", "sp", "ch"⟩ (some 7) (some "e7"))) ∧
    ∀ held, ¬ Added (Intake.after parity (postedRun ++ .op .discard :: [heldAnswer])).coordinator
      (Intake.after parity (postedRun ++ .op .discard :: [heldAnswer] ++
        [.op (.resume 0 .go)])).coordinator held := by
  have hc : Along (Intake.step parity) Intake.Calm Intake.idle
      (postedRun ++ .op .discard :: ([heldAnswer] ++ [.op (.resume 0 .go)])) := by decide +kernel
  have hs : 0 ∈ (Intake.after parity postedRun).started := by decide +kernel
  refine ⟨by decide +kernel, fun held => ?_⟩
  exact (discarded_sends_add_nothing parity _ hc).1 postedRun [heldAnswer] [] 0 .go held rfl hs

/-- The held answer of the send is recorded after the discard. -/
theorem overtaken_send_adds :
    ∃ before between id input held, id ∈ (Intake.after parity before).started ∧
      Added (Intake.after parity (before ++ .op .discard :: between)).coordinator
        (Intake.after parity (before ++ .op .discard :: between ++ [.op (.resume id input)])).coordinator
        held := by
  have hs : 0 ∈ (Intake.after parity overtakenRun).started := by decide +kernel
  have hn : (Intake.after parity (overtakenRun ++ .op .discard :: (enteredRun ++
      [heldAnswer]))).coordinator.held.rows = [] := by decide +kernel
  have hr : ((Intake.after parity (overtakenRun ++ .op .discard :: (enteredRun ++ [heldAnswer]) ++
      [.op (.resume 0 .go)])).coordinator.held.get? ⟨"", "", "sp", "ch"⟩).isSome = true := by
    decide +kernel
  obtain ⟨held, hg⟩ := Option.isSome_iff_exists.mp hr
  refine ⟨overtakenRun, enteredRun ++ [heldAnswer], 0, .go, held, hs, ?_, fun old ho => ?_⟩
  · rw [Table.get?_key hg]
    exact hg
  · have hm := Table.mem_of_get? ho
    rw [hn] at hm
    exact absurd hm List.not_mem_nil

end Runs
end PuffoAgent.Sending
