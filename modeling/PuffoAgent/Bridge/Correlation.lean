import PuffoAgent.Bridge.Client
import PuffoAgent.Machine.Alignment
import PuffoAgent.Machine.Run

/-! When every reply goes to the request it answers: as long as the places of the queues and
the client refs in use still say which request that is. -/
namespace PuffoAgent.Bridge
open Machine Relational Text

namespace Request

def isRunning (r : Request) : Bool :=
  match r.stage with
  | .ended _ => false
  | _ => true

/-- Its task waits and nobody has completed its future. -/
def isLive (r : Request) : Bool := r.isRunning && r.future = .pending

/-- The reply it has, or has returned, is its own. -/
def Own (i : Nat) (r : Request) : Prop :=
  (r.isRunning → ∀ answers error, r.future = .reply answers error → answers = i) ∧
    ∀ answers, r.stage = .ended (some answers) → answers = i

/-- A request only ages: it is not taken up again, and gets no reply but its own. -/
structure Ages (i : Nat) (r r' : Request) : Prop where
  call : r'.call = r.call
  live : r'.isLive → r.isLive
  running : r'.isRunning → r.isRunning
  own : r.Own i → r'.Own i

theorem Ages.refl (i : Nat) (r : Request) : r.Ages i r := ⟨rfl, id, id, id⟩

theorem isLive_iff {r : Request} : r.isLive ↔ r.isRunning ∧ r.future = .pending := by simp [isLive]

theorem Ages.ended {i : Nat} {reply : Option Nat} (h : ∀ answers, reply = some answers → answers = i) (r : Request) :
    r.Ages i { r with stage := .ended reply } := by
  refine ⟨rfl, ?_, ?_, fun _ => ⟨?_, ?_⟩⟩
  · intro hl
    simp [isLive, isRunning] at hl
  · intro hr
    simp [isRunning] at hr
  · intro hr
    simp [isRunning] at hr
  · intro answers he
    exact h answers (Stage.ended.inj he)

theorem isRunning_complete (future : Future) (r : Request) : (r.complete future).isRunning = r.isRunning := by
  unfold complete
  split <;> rfl

theorem not_isLive_complete {future : Future} (h : future ≠ .pending) (r : Request) :
    ¬(r.complete future).isLive := by
  rw [isLive_iff]
  rintro ⟨-, hp⟩
  unfold complete at hp
  split at hp
  · exact h hp
  · rename_i hn
    exact hn hp

/-- A future that is completed with the reply to its own request, if its task waits. -/
theorem Ages.complete {i : Nat} {r : Request} {future : Future} (hp : future ≠ .pending)
    (h : r.isLive → ∀ answers error, future = .reply answers error → answers = i) : r.Ages i (r.complete future) := by
  refine ⟨?_, ?_, ?_, fun hown => ⟨?_, ?_⟩⟩
  · unfold Request.complete
    split <;> rfl
  · exact fun hl => absurd hl (not_isLive_complete hp r)
  · rw [isRunning_complete]
    exact id
  · intro hrun answers error he
    rw [isRunning_complete] at hrun
    unfold Request.complete at he
    split at he
    · rename_i hpend
      exact h (isLive_iff.2 ⟨hrun, hpend⟩) answers error he
    · exact hown.1 hrun answers error he
  · intro answers he
    refine hown.2 answers ?_
    unfold Request.complete at he
    split at he <;> exact he

end Request

namespace Client
variable (s : Client)

def call? (i : Nat) : Option Call := s.requests[i]?.map (·.call)

def live (i : Nat) : Bool := s.requests[i]?.any (·.isLive)

def running (i : Nat) : Bool := s.requests[i]?.any (·.isRunning)

def Registered (i : Nat) : Call → Prop
  | .fifo queue => i ∈ s.queues queue
  | .keyed table clientRef => (s.tables table).get? clientRef = some (clientRef, i)

/-- Every reply that a request has is its own, and a request that waits still has its waiter
and its reply to come. -/
structure Correlated : Prop where
  own : ∀ (i : Nat) (r : Request), s.requests[i]? = some r → r.Own i
  awaited : ∀ (i : Nat) (r : Request), s.requests[i]? = some r → r.isLive → i ∈ s.unanswered r.call.lane
  registered : ∀ (i : Nat) (r : Request), s.requests[i]? = some r → r.isLive → s.Registered i r.call

/-- A new request fits when the registers cannot take its reply for another's: its queue is as
long as the list of unanswered requests, and its client ref is out of use. -/
def Fits : Call → Prop
  | .fifo queue => (s.queues queue).length = (s.unanswered (.fifo queue)).length
  | .keyed table clientRef =>
    ∀ i, s.call? i = some (.keyed table clientRef) → ¬s.running i ∧ i ∉ s.unanswered (.keyed table)

/-- No request of its kind that still waits stands behind `i`. -/
def Last (i : Nat) (ids : List Nat) : Prop := ∀ j ∈ behind i ids, ¬s.live j

/-- An error under this client ref is not taken for one of the other table. -/
def Unambiguous (i : Nat) (clientRef : String) : Keyed → Prop
  | .send => (s.tables .send).get? clientRef = none →
    ∀ w, (s.tables .decideInvitation).get? clientRef = some w → ¬s.live w.2
  | .decideInvitation => ∀ w, (s.tables .send).get? clientRef = some w → ¬s.live w.2 ∧ ¬s.live i

/-- The steps that keep the registers in order. -/
def Orderly (s : Client) : Event → Prop
  | .sendSend clientRef hex => s.closed ∨ s.Fits (.keyed .send (clientRef.getD ("r_" ++ hex)))
  | .sendAck => s.closed ∨ s.Fits (.fifo .ackResult)
  | .sendListSpaces => s.closed ∨ s.Fits (.fifo .spaces)
  | .sendListInvites => s.closed ∨ s.Fits (.fifo .invites)
  | .sendDecideInvitation _ _ clientRef => s.closed ∨ s.Fits (.keyed .decideInvitation clientRef)
  | .abortWrite i => ∀ (r : Request) (queue : Fifo), s.requests[i]? = some r → r.call = .fifo queue → r.written = false →
    s.Last i (s.unanswered (.fifo queue))
  | .resume i => ∀ (r : Request) (queue : Fifo), s.requests[i]? = some r → r.call = .fifo queue → r.stage = .interrupted →
    s.Last i (s.queues queue)
  | .answer (.keyed table) true => ∀ (i : Nat) (r : Request) (clientRef : String), (s.unanswered (.keyed table)).head? = some i →
    s.requests[i]? = some r → r.call = .keyed table clientRef → s.Unambiguous i clientRef table
  | _ => True

/-- What the orderly steps keep. -/
structure Sound : Prop where
  own : ∀ (i : Nat) (r : Request), s.requests[i]? = some r → r.Own i
  queued : ∀ queue i, i ∈ s.queues queue → s.call? i = some (.fifo queue)
  keyed : ∀ table clientRef w, (s.tables table).get? clientRef = some w → s.call? w.2 = some (.keyed table clientRef)
  named : ∀ i table clientRef, s.call? i = some (.keyed table clientRef) → clientRef ≠ ""
  asked : ∀ lane i, i ∈ s.unanswered lane → ∃ call, s.call? i = some call ∧ call.lane = lane
  awaited : ∀ i call, s.live i → s.call? i = some call → i ∈ s.unanswered call.lane
  aligned : ∀ queue, Aligned (s.live ·) (s.queues queue) (s.unanswered (.fifo queue))
  waits : ∀ i table clientRef, s.live i → s.call? i = some (.keyed table clientRef) →
    (s.tables table).get? clientRef = some (clientRef, i)
  single : ∀ i j table clientRef, s.call? i = some (.keyed table clientRef) → s.call? j = some (.keyed table clientRef) →
    s.running i ∨ i ∈ s.unanswered (.keyed table) → s.running j ∨ j ∈ s.unanswered (.keyed table) → i = j

variable {s}

theorem live_iff {i : Nat} : s.live i ↔ ∃ r, s.requests[i]? = some r ∧ r.isLive := Option.any_eq_true _ _

theorem running_iff {i : Nat} : s.running i ↔ ∃ r, s.requests[i]? = some r ∧ r.isRunning := Option.any_eq_true _ _

theorem running_of_live {i : Nat} (h : s.live i) : s.running i := by
  obtain ⟨r, hr, hl⟩ := live_iff.1 h
  exact running_iff.2 ⟨r, hr, (Request.isLive_iff.1 hl).1⟩

theorem call?_of_request {i : Nat} {r : Request} (h : s.requests[i]? = some r) : s.call? i = some r.call := by
  rw [call?, h]
  rfl

theorem Sound.initial : Sound .initial where
  own _ _ h := by cases h
  queued _ _ h := by cases h
  keyed _ _ _ h := by cases h
  named _ _ _ h := by cases h
  asked _ _ h := by cases h
  awaited _ _ h := by cases h
  aligned _ := .nil
  waits _ _ _ h := by cases h
  single _ _ _ _ h := by cases h

theorem Sound.correlated (h : s.Sound) : s.Correlated := by
  have hlive : ∀ (i : Nat) (r : Request), s.requests[i]? = some r → r.isLive → s.live i ∧ s.call? i = some r.call := by
    intro i r hr hl
    exact ⟨by rw [live, hr]; exact hl, by rw [call?, hr]; rfl⟩
  refine ⟨h.own, ?_, ?_⟩
  · intro i r hr hl
    obtain ⟨hl, hc⟩ := hlive i r hr hl
    exact h.awaited i r.call hl hc
  · intro i r hr hl
    obtain ⟨hl, hc⟩ := hlive i r hr hl
    cases hcall : r.call with
    | fifo queue =>
      have hm := h.awaited i r.call hl hc
      rw [hcall] at hm
      exact (h.aligned queue).mem hl hm
    | keyed table clientRef => exact h.waits i table clientRef hl (by rw [hc, hcall])

section Registers
variable (s)

theorem queues_withQueue (queue : Fifo) (waiters : List Nat) (queue' : Fifo) :
    (s.withQueue queue waiters).queues queue' = if queue' = queue then waiters else s.queues queue' :=
  Function.update_apply ..

theorem tables_withTable (table : Keyed) (waiters : Waiters) (table' : Keyed) :
    (s.withTable table waiters).tables table' = if table' = table then waiters else s.tables table' :=
  Function.update_apply ..

theorem unanswered_withUnanswered (lane : Lane) (ids : List Nat) (lane' : Lane) :
    (s.withUnanswered lane ids).unanswered lane' = if lane' = lane then ids else s.unanswered lane' :=
  Function.update_apply ..

theorem queues_withUnanswered (lane : Lane) (ids : List Nat) : (s.withUnanswered lane ids).queues = s.queues := rfl

theorem queues_modify (i : Nat) (f : Request → Request) : (s.modify i f).queues = s.queues := rfl

theorem unanswered_modify (i : Nat) (f : Request → Request) : (s.modify i f).unanswered = s.unanswered := rfl

end Registers

section Aging
variable {s' : Client} {i : Nat} {f : Request → Request}

/-- The requests have aged. -/
def Aged (s s' : Client) : Prop := ∀ i : Nat, Option.Rel (Request.Ages i) s.requests[i]? s'.requests[i]?

theorem Aged.refl (s : Client) : Aged s s := fun i => rel_refl (Request.Ages.refl i) _

theorem Aged.call? (h : Aged s s') (i : Nat) : s'.call? i = s.call? i := by
  unfold Client.call?
  have hi := h i
  generalize s.requests[i]? = a at hi ⊢
  generalize s'.requests[i]? = b at hi ⊢
  cases hi with
  | none => rfl
  | some hr => rw [Option.map_some, Option.map_some, hr.call]

theorem Aged.live (h : Aged s s') (hl : s'.live i) : s.live i := by
  obtain ⟨r', hr', hl⟩ := live_iff.1 hl
  obtain ⟨r, hr, ha⟩ := rel_some_right (hr' ▸ h i)
  exact live_iff.2 ⟨r, hr, ha.live hl⟩

theorem Aged.running (h : Aged s s') (hl : s'.running i) : s.running i := by
  obtain ⟨r', hr', hl⟩ := running_iff.1 hl
  obtain ⟨r, hr, ha⟩ := rel_some_right (hr' ▸ h i)
  exact running_iff.2 ⟨r, hr, ha.running hl⟩

theorem getElem?_modify (s : Client) (i : Nat) (f : Request → Request) (j : Nat) :
    (s.modify i f).requests[j]? = if i = j then s.requests[j]?.map f else s.requests[j]? := by
  simp only [modify, List.getElem?_modify]
  split <;> simp

theorem aged_modify (hs : s'.requests = (s.modify i f).requests)
    (hf : ∀ r, s.requests[i]? = some r → r.Ages i (f r)) : Aged s s' := by
  intro j
  rw [hs, getElem?_modify]
  split
  · rename_i he
    subst he
    cases hr : s.requests[i]? with
    | none => exact .none
    | some r => exact .some (hf r hr)
  · exact rel_refl (Request.Ages.refl j) _

/-- Requests age and leave the registers, those that wait apart. -/
theorem Sound.aged (h : s.Sound) (hr : Aged s s') (hq : ∀ queue, s'.queues queue ⊆ s.queues queue)
    (ht : ∀ table clientRef w, (s'.tables table).get? clientRef = some w → (s.tables table).get? clientRef = some w)
    (hu : ∀ lane, s'.unanswered lane ⊆ s.unanswered lane)
    (ha : ∀ i call, s'.live i → s.call? i = some call → i ∈ s.unanswered call.lane → i ∈ s'.unanswered call.lane)
    (hal : ∀ queue, Aligned (s'.live ·) (s'.queues queue) (s'.unanswered (.fifo queue)))
    (hw : ∀ i table clientRef, s'.live i → s.call? i = some (.keyed table clientRef) →
      (s.tables table).get? clientRef = some (clientRef, i) → (s'.tables table).get? clientRef = some (clientRef, i)) :
    s'.Sound := by
  refine ⟨?_, ?_, ?_, ?_, ?_, ?_, hal, ?_, ?_⟩
  · intro i r' hr'
    obtain ⟨r, hr, ha⟩ := rel_some_right (hr' ▸ hr i)
    exact ha.own (h.own i r hr)
  · intro queue i hm
    rw [hr.call?]
    exact h.queued queue i (hq queue hm)
  · intro table clientRef w hm
    rw [hr.call?]
    exact h.keyed table clientRef w (ht table clientRef w hm)
  · intro i table clientRef hc
    rw [hr.call?] at hc
    exact h.named i table clientRef hc
  · intro lane i hm
    rw [hr.call?]
    exact h.asked lane i (hu lane hm)
  · intro i call hl hc
    rw [hr.call?] at hc
    exact ha i call hl hc (h.awaited i call (hr.live hl) hc)
  · intro i table clientRef hl hc
    rw [hr.call?] at hc
    exact hw i table clientRef hl hc (h.waits i table clientRef (hr.live hl) hc)
  · intro i j table clientRef hi hj hoi hoj
    rw [hr.call?] at hi hj
    have hopen : ∀ i, s'.running i ∨ i ∈ s'.unanswered (.keyed table) →
        s.running i ∨ i ∈ s.unanswered (.keyed table) := by
      rintro i (hrun | hm)
      · exact .inl (hr.running hrun)
      · exact .inr (hu _ hm)
    exact h.single i j table clientRef hi hj (hopen i hoi) (hopen j hoj)

theorem Sound.modified (h : s.Sound) (hf : ∀ r, s.requests[i]? = some r → r.Ages i (f r)) : (s.modify i f).Sound := by
  have hr : Aged s (s.modify i f) := aged_modify rfl hf
  refine h.aged hr (fun _ => List.Subset.refl _) (fun _ _ _ hm => hm) (fun _ => List.Subset.refl _)
    (fun _ _ _ _ hm => hm) ?_ (fun _ _ _ _ _ hm => hm)
  exact fun queue => (h.aligned queue).mono fun _ => hr.live

/-- The list of unanswered requests of one kind shrinks. -/
theorem Sound.withUnanswered (h : s.Sound) {lane : Lane} {ids : List Nat} (hsub : ids ⊆ s.unanswered lane)
    (hkept : ∀ j, s.live j → j ∈ s.unanswered lane → j ∈ ids)
    (hal : ∀ queue, lane = .fifo queue → Aligned (s.live ·) (s.queues queue) ids) :
    (s.withUnanswered lane ids).Sound := by
  refine h.aged (Aged.refl s) (fun _ => List.Subset.refl _) (fun _ _ _ hm => hm) ?_ ?_ ?_ (fun _ _ _ _ _ hm => hm)
  · intro lane'
    rw [unanswered_withUnanswered]
    split
    · rename_i he
      exact he ▸ hsub
    · exact List.Subset.refl _
  · intro j call hl _ hm
    rw [unanswered_withUnanswered]
    split
    · rename_i he
      exact hkept j hl (he ▸ hm)
    · exact hm
  · intro queue
    rw [unanswered_withUnanswered]
    split
    · rename_i he
      exact hal queue he.symm
    · exact h.aligned queue

/-- A queue of waiters shrinks. -/
theorem Sound.withQueue (h : s.Sound) {queue : Fifo} {ids : List Nat} (hsub : ids ⊆ s.queues queue)
    (hal : Aligned (s.live ·) ids (s.unanswered (.fifo queue))) : (s.withQueue queue ids).Sound := by
  refine h.aged (Aged.refl s) ?_ (fun _ _ _ hm => hm) (fun _ => List.Subset.refl _) (fun _ _ _ _ hm => hm) ?_
    (fun _ _ _ _ _ hm => hm)
  · intro queue'
    rw [queues_withQueue]
    split
    · rename_i he
      exact he ▸ hsub
    · exact List.Subset.refl _
  · intro queue'
    rw [queues_withQueue]
    split
    · rename_i he
      exact he ▸ hal
    · exact h.aligned queue'

/-- Both ends of a queue move on. -/
theorem Sound.advanced (h : s.Sound) (queue : Fifo)
    (hkept : ∀ j, s.live j → j ∈ s.unanswered (.fifo queue) → j ∈ (s.unanswered (.fifo queue)).tail) :
    ((s.withQueue queue (s.queues queue).tail).withUnanswered (.fifo queue)
      (s.unanswered (.fifo queue)).tail).Sound := by
  refine h.aged (Aged.refl s) ?_ (fun _ _ _ hm => hm) ?_ ?_ ?_ (fun _ _ _ _ _ hm => hm)
  · intro queue'
    rw [queues_withUnanswered, queues_withQueue]
    split
    · rename_i he
      exact he ▸ List.tail_subset _
    · exact List.Subset.refl _
  · intro lane
    rw [unanswered_withUnanswered]
    split
    · rename_i he
      exact he ▸ List.tail_subset _
    · exact List.Subset.refl _
  · intro j call hl _ hm
    rw [unanswered_withUnanswered]
    split
    · rename_i he
      exact hkept j hl (he ▸ hm)
    · exact hm
  · intro queue'
    rw [unanswered_withUnanswered, queues_withUnanswered, queues_withQueue]
    by_cases he : queue' = queue
    · subst he
      rw [if_pos rfl, if_pos rfl]
      exact (h.aligned queue').tail
    · rw [if_neg he, if_neg (fun hl => he (Lane.fifo.inj hl))]
      exact h.aligned queue'

theorem get?_popWaiter (s : Client) (table : Keyed) (clientRef : String) (table' : Keyed) (clientRef' : String) :
    ((s.popWaiter table clientRef).tables table').get? clientRef' =
      if table' = table ∧ clientRef' = clientRef then none else (s.tables table').get? clientRef' := by
  rw [popWaiter, tables_withTable]
  by_cases ht : table' = table
  · subst ht
    rw [if_pos rfl, Table.get?_delete]
    cases hg : (s.tables table').get? clientRef' with
    | none => simp
    | some w =>
      have hk : w.1 = clientRef' := Table.get?_key hg
      by_cases hc : clientRef' = clientRef
      · simp [hk, hc]
      · simp [hk, hc]
  · rw [if_neg ht, if_neg (fun he => ht he.1)]

/-- The waiter under a client ref goes. -/
theorem Sound.popWaiter (h : s.Sound) {table : Keyed} {clientRef : String}
    (hfree : ∀ j, s.live j → s.call? j ≠ some (.keyed table clientRef)) : (s.popWaiter table clientRef).Sound := by
  refine h.aged (Aged.refl s) (fun _ => List.Subset.refl _) ?_ (fun _ => List.Subset.refl _) (fun _ _ _ _ hm => hm)
    h.aligned ?_
  · intro table' clientRef' w hm
    rw [get?_popWaiter] at hm
    split at hm
    · cases hm
    · exact hm
  · intro j table' clientRef' hl hc hm
    rw [get?_popWaiter, if_neg]
    · exact hm
    · rintro ⟨rfl, rfl⟩
      exact hfree j hl hc

end Aging
section Waits
variable {i : Nat} {r : Request}

theorem Sound.transmit (h : s.Sound) (lane : Lane) : (s.transmit lane).Sound := by
  unfold Client.transmit
  split
  · exact h.modified fun r _ => ⟨rfl, id, id, id⟩
  · exact h

theorem Sound.endWrite (h : s.Sound) (i : Nat) : (s.endWrite i).Sound := by
  unfold Client.endWrite
  split
  · rename_i r hr
    split
    · rename_i hw
      refine h.modified fun a ha => ?_
      cases hr.symm.trans ha
      have hrun : r.isRunning := by rw [Request.isRunning, hw.1]
      refine ⟨rfl, ?_, fun _ => hrun, fun hown => ⟨fun _ => hown.1 hrun, fun _ he => by cases he⟩⟩
      exact fun hl => Request.isLive_iff.2 ⟨hrun, (Request.isLive_iff.1 hl).2⟩
    · exact h
  · exact h

theorem Sound.interrupt (h : s.Sound) (i : Nat) : (s.interrupt i).Sound := by
  unfold Client.interrupt
  split
  · rename_i r hr
    split
    · rename_i hw
      refine h.modified fun a ha => ?_
      cases hr.symm.trans ha
      have hrun : r.isRunning := by rw [Request.isRunning, hw]
      have hrun' : (r.complete .cancelled).isRunning := by rw [Request.isRunning_complete, hrun]
      have hages : r.Ages i (r.complete .cancelled) :=
        .complete (fun he => by cases he) (fun _ _ _ he => by cases he)
      refine ⟨hages.call, ?_, fun _ => hrun, fun hown => ⟨fun _ => ?_, fun _ he => by cases he⟩⟩
      · intro hl
        have hp : (r.complete .cancelled).future = .pending := (Request.isLive_iff.1 hl).2
        refine absurd (Request.isLive_iff.2 ⟨hrun', hp⟩) (Request.not_isLive_complete ?_ r)
        exact fun he => by cases he
      · exact (hages.own hown).1 hrun'
    · exact h
  · exact h

theorem not_live_of_ended (s : Client) (i : Nat) (reply : Option Nat) :
    ¬(s.modify i fun r => { r with stage := .ended reply }).live i := by
  intro hl
  obtain ⟨r', hr', hl⟩ := live_iff.1 hl
  rw [getElem?_modify, if_pos rfl] at hr'
  obtain ⟨r, -, rfl⟩ := Option.map_eq_some_iff.1 hr'
  simp [Request.isLive, Request.isRunning] at hl

theorem Sound.abortWrite (h : s.Sound) (i : Nat) (ho : s.Orderly (.abortWrite i)) : (s.abortWrite i).Sound := by
  unfold Client.abortWrite
  split
  · rename_i r hr
    split
    · dsimp only
      have hages : ∀ a, s.requests[i]? = some a → a.Ages i { a with stage := .ended none } :=
        fun a _ => .ended (fun _ he => by cases he) a
      have hne : ∀ j, (s.modify i fun r => { r with stage := .ended none }).live j → j ≠ i := by
        rintro j hl rfl
        exact not_live_of_ended s j none hl
      split
      · exact h.modified hages
      · rename_i hw
        refine (h.modified hages).withUnanswered (fun _ hm => (List.mem_filter.1 hm).1) ?_ ?_
        · exact fun j hl hm => List.mem_filter.2 ⟨hm, by simpa using hne j hl⟩
        · intro queue hlane
          have hcall : r.call = .fifo queue := by
            cases hcall : r.call <;> rw [hcall] at hlane <;> cases hlane
            rfl
          have hlast := ho r queue hr hcall (by simpa using hw)
          rw [hlane]
          refine (((h.modified hages).aligned queue).symm.discard ?_ fun j hl => ⟨hl, hne j hl⟩).symm
          exact fun j hj hl => hlast j hj ((aged_modify rfl hages).live hl)
    · exact h
  · exact h

theorem Sound.cleanUp (h : s.Sound) {call : Call} (interrupted : Bool) (hi : ¬s.live i) 
    (hq : ∀ queue, call = .fifo queue → interrupted → s.Last i (s.queues queue))
    (hk : ∀ table clientRef, call = .keyed table clientRef → ∀ j, s.live j → s.call? j ≠ some (.keyed table clientRef)) :
    (s.cleanUp i interrupted call).Sound := by
  cases call with
  | fifo queue =>
    rw [Client.cleanUp]
    split
    · rename_i hint
      refine h.withQueue (fun _ hm => (List.mem_filter.1 hm).1) ((h.aligned queue).discard (hq queue rfl hint) ?_)
      rintro j hl
      exact ⟨hl, fun he => hi (he ▸ hl)⟩
    · exact h
  | keyed table clientRef => exact h.popWaiter (hk table clientRef rfl)

theorem Sound.finish (h : s.Sound) (hr : s.requests[i]? = some r) (hrun : r.isRunning) {reply : Option Nat}
    (hreply : ∀ answers, reply = some answers → answers = i)
    (hlast : ∀ queue, r.call = .fifo queue → r.stage = .interrupted → s.Last i (s.queues queue)) :
    (s.finish i r reply).Sound := by
  have hages : ∀ a, s.requests[i]? = some a → a.Ages i { a with stage := .ended reply } := fun a _ => .ended hreply a
  have hr' : Aged s (s.modify i fun r => { r with stage := .ended reply }) := aged_modify rfl hages
  have hs := h.modified hages
  have hcomm : s.finish i r reply =
      (s.modify i fun r => { r with stage := .ended reply }).cleanUp i (r.stage = .interrupted) r.call := by
    rw [Client.finish]
    cases r.call with
    | fifo queue =>
      simp only [Client.cleanUp]
      split <;> rfl
    | keyed table clientRef => rfl
  rw [hcomm]
  refine hs.cleanUp _ (not_live_of_ended s i reply) ?_ ?_
  · exact fun queue hc hint j hj hl => hlast queue hc (by simpa using hint) j hj (hr'.live hl)
  · intro table clientRef hc j hl hj
    rw [hr'.call?] at hj
    have hi : s.call? i = some (.keyed table clientRef) := by rw [call?_of_request hr, hc]
    have he : j = i := h.single j i table clientRef hj hi (.inl (running_of_live (hr'.live hl)))
      (.inl (running_iff.2 ⟨r, hr, hrun⟩))
    subst he
    exact not_live_of_ended s j reply hl

theorem Sound.resume (h : s.Sound) (i : Nat) (ho : s.Orderly (.resume i)) : (s.resume i).Sound := by
  unfold Client.resume
  split
  · rename_i r hr
    split
    · rename_i answers error hstage hfuture
      have hrun : r.isRunning := by rw [Request.isRunning, hstage]
      refine h.finish hr hrun ?_ (fun queue => ho r queue hr)
      intro a he
      cases he
      exact (h.own i r hr).1 hrun _ _ hfuture
    · rename_i hstage _
      exact h.finish hr (by rw [Request.isRunning, hstage]) (fun _ he => by cases he) (fun queue => ho r queue hr)
    · rename_i hstage _
      exact h.finish hr (by rw [Request.isRunning, hstage]) (fun _ he => by cases he) (fun queue => ho r queue hr)
    · rename_i hstage
      exact h.finish hr (by rw [Request.isRunning, hstage]) (fun _ he => by cases he) (fun queue => ho r queue hr)
    · exact h
  · exact h

end Waits
section Replies
variable {i : Nat}

theorem not_live_of_complete (s : Client) (i : Nat) {future : Future} (hp : future ≠ .pending) :
    ¬(s.modify i (.complete future)).live i := by
  intro hl
  obtain ⟨r', hr', hl⟩ := live_iff.1 hl
  rw [getElem?_modify, if_pos rfl] at hr'
  obtain ⟨r, -, rfl⟩ := Option.map_eq_some_iff.1 hr'
  exact Request.not_isLive_complete hp r hl

/-- A reply completes a future: that of the request it answers, or one that nobody waits for. -/
theorem ages_reply (s : Client) {i : Nat} {answers : Nat} (error : Bool) (h : s.live i → i = answers) (r : Request)
    (hr : s.requests[i]? = some r) : r.Ages i (r.complete (.reply answers error)) := by
  refine .complete (fun he => by cases he) fun hl a e he => ?_
  cases he
  exact (h (live_iff.2 ⟨r, hr, hl⟩)).symm

theorem Sound.routeFifo (h : s.Sound) {queue : Fifo} {rest : List Nat} {error : Bool}
    (hu : s.unanswered (.fifo queue) = i :: rest) :
    ((s.withUnanswered (.fifo queue) rest).routeFifo queue (.reply i error)).Sound := by
  have hal := h.aligned queue
  unfold Client.routeFifo
  split
  · rename_i hq
    have hq : s.queues queue = [] := hq
    refine h.withUnanswered ?_ ?_ ?_
    · rw [hu]
      exact List.subset_cons_self _ _
    · intro j hl hm
      rw [hu] at hm
      refine List.mem_of_ne_of_mem ?_ hm
      rintro rfl
      have := (hal.head hl).2 (by rw [hu]; rfl)
      rw [hq] at this
      cases this
    · intro queue' he
      cases he
      have := hal.tail
      rw [hu, hq] at this
      rw [hq]
      exact this
  · rename_i w ws hq
    have hq : s.queues queue = w :: ws := hq
    have hmatch : s.live w ∨ s.live i → w = i := by
      rintro (hl | hl)
      · have := (hal.head hl).1 (by rw [hq]; rfl)
        rw [hu] at this
        exact (Option.some.inj this).symm
      · have := (hal.head hl).2 (by rw [hu]; rfl)
        rw [hq] at this
        exact Option.some.inj this
    have hages := ages_reply s error fun hl => hmatch (.inl hl)
    have hkept : ∀ j, (s.modify w (.complete (.reply i error))).live j → j ∈ i :: rest → j ∈ rest := by
      intro j hl hm
      refine List.mem_of_ne_of_mem ?_ hm
      rintro rfl
      have hlive := (aged_modify rfl hages).live hl
      rw [hmatch (.inr hlive)] at hl
      exact not_live_of_complete s _ (fun he => by cases he) hl
    have hs := (h.modified hages).advanced queue
    rw [queues_modify, unanswered_modify, hq, hu] at hs
    exact hs hkept

/-- The reply to a request under a client ref that nobody waits for any more. -/
theorem Sound.dropped (h : s.Sound) {table : Keyed} {rest : List Nat}
    (hu : s.unanswered (.keyed table) = i :: rest) (hi : ¬s.live i) : (s.withUnanswered (.keyed table) rest).Sound := by
  refine h.withUnanswered ?_ ?_ (fun _ he => by cases he)
  · rw [hu]
    exact List.subset_cons_self _ _
  · intro j hl hm
    rw [hu] at hm
    refine List.mem_of_ne_of_mem ?_ hm
    rintro rfl
    exact hi hl

/-- The waiter under a client ref takes the reply. -/
theorem Sound.routedKeyed (h : s.Sound) {table table' : Keyed} {clientRef : String} {rest : List Nat} {error : Bool}
    {w : String × Nat} (hu : s.unanswered (.keyed table') = i :: rest)
    (hw : (s.tables table).get? clientRef = some w) (hmatch : s.live w.2 ∨ s.live i → w.2 = i) :
    (((s.withUnanswered (.keyed table') rest).popWaiter table clientRef).modify w.2
      (.complete (.reply i error))).Sound := by
  have hages := ages_reply s error fun hl => hmatch (.inl hl)
  have hne : ∀ j, (s.modify w.2 (.complete (.reply i error))).live j → j ≠ w.2 := by
    rintro j hl rfl
    exact not_live_of_complete s _ (fun he => by cases he) hl
  have hs : ((s.modify w.2 (.complete (.reply i error))).popWaiter table clientRef).Sound := by
    refine (h.modified hages).popWaiter fun j hl hc => hne j hl ?_
    rw [(aged_modify rfl hages).call?] at hc
    have := h.waits j table clientRef ((aged_modify rfl hages).live hl) hc
    rw [hw] at this
    rw [Option.some.inj this]
  refine hs.dropped hu fun hl => ?_
  refine hne i hl ?_
  exact (hmatch (.inr ((aged_modify rfl hages).live hl))).symm

theorem routeKeyed_of_ne (s : Client) (table : Keyed) {clientRef : String} (hne : clientRef ≠ "") (future : Future) :
    s.routeKeyed table (some clientRef) future = ((s.tables table).get? clientRef).map fun w =>
      (s.popWaiter table clientRef).modify w.2 (.complete future) := by
  simp only [routeKeyed, if_neg hne]
  split
  · rename_i hw
    rw [hw]
    rfl
  · rename_i w hw
    rw [hw]
    rfl

/-- The reply to a request under its client ref goes through the table of its kind. -/
theorem Sound.routeKeyed (h : s.Sound) {table : Keyed} {clientRef : String} {rest : List Nat} (error : Bool)
    (hu : s.unanswered (.keyed table) = i :: rest) (hc : s.call? i = some (.keyed table clientRef)) :
    (((s.withUnanswered (.keyed table) rest).routeKeyed table (some clientRef) (.reply i error)).getD
      (s.withUnanswered (.keyed table) rest)).Sound := by
  rw [routeKeyed_of_ne _ table (h.named i table clientRef hc)]
  cases hw : (s.tables table).get? clientRef with
  | none =>
    rw [show ((s.withUnanswered (.keyed table) rest).tables table).get? clientRef = none from hw]
    refine h.dropped hu fun hl => ?_
    rw [h.waits i table clientRef hl hc] at hw
    cases hw
  | some w =>
    rw [show ((s.withUnanswered (.keyed table) rest).tables table).get? clientRef = some w from hw]
    refine h.routedKeyed hu hw ?_
    rintro (hl | hl)
    · refine h.single w.2 i table clientRef (h.keyed table clientRef w hw) hc (.inl (running_of_live hl)) (.inr ?_)
      rw [hu]
      exact List.mem_cons_self
    · rw [h.waits i table clientRef hl hc] at hw
      cases hw
      rfl

/-- An error goes to the sends first. -/
theorem Sound.routeError (h : s.Sound) {table : Keyed} {clientRef : String} {rest : List Nat}
    (hu : s.unanswered (.keyed table) = i :: rest) (hc : s.call? i = some (.keyed table clientRef))
    (ho : s.Unambiguous i clientRef table) :
    ((s.withUnanswered (.keyed table) rest).routeFrame ⟨.error, some clientRef⟩ i).1.Sound := by
  have hne := h.named i table clientRef hc
  have hown := h.routeKeyed true hu hc
  unfold Client.routeFrame
  dsimp only
  rw [routeKeyed_of_ne _ _ hne] at hown
  rw [routeKeyed_of_ne _ _ hne, routeKeyed_of_ne _ _ hne]
  have htables : (s.withUnanswered (.keyed table) rest).tables = s.tables := rfl
  rw [htables] at hown ⊢
  cases table with
  | send =>
    cases hw : (s.tables .send).get? clientRef with
    | some w =>
      rw [hw] at hown
      exact hown
    | none =>
      cases hd : (s.tables .decideInvitation).get? clientRef with
      | none =>
        rw [hw] at hown
        exact hown
      | some w =>
        refine h.routedKeyed hu hd ?_
        rintro (hl | hl)
        · exact absurd hl (ho hw w hd)
        · rw [h.waits i .send clientRef hl hc] at hw
          cases hw
  | decideInvitation =>
    cases hw : (s.tables .send).get? clientRef with
    | some w =>
      refine h.routedKeyed hu hw ?_
      rintro (hl | hl)
      · exact absurd hl (ho w hw).1
      · exact absurd hl (ho w hw).2
    | none =>
      cases hd : (s.tables .decideInvitation).get? clientRef with
      | none =>
        rw [hd] at hown
        exact hown
      | some w =>
        rw [hd] at hown
        exact hown

theorem Sound.answer (h : s.Sound) (lane : Lane) (error : Bool) (ho : s.Orderly (.answer lane error)) :
    (s.answer lane error).Sound := by
  unfold Client.answer
  split
  · exact h
  · rename_i i rest hu
    split
    · rename_i r hr
      split
      · obtain ⟨call, hc, hlane⟩ := h.asked lane i (by rw [hu]; exact List.mem_cons_self)
        have hcall : r.call = call := Option.some.inj ((call?_of_request hr).symm.trans hc)
        rw [hcall]
        cases call with
        | fifo queue =>
          subst hlane
          cases queue <;> exact h.routeFifo hu
        | keyed table clientRef =>
          subst hlane
          have hu : s.unanswered (.keyed table) = i :: rest := hu
          cases error with
          | false =>
            cases table with
            | send => exact h.routeKeyed false hu hc
            | decideInvitation => exact h.routeKeyed false hu hc
          | true =>
            have hu' : s.Unambiguous i clientRef table := ho i r clientRef (by rw [hu]; rfl) hr hcall
            cases table with
            | send => exact h.routeError hu hc hu'
            | decideInvitation => exact h.routeError hu hc hu'
      · exact h
    · exact h

theorem isWaiter_of_live (h : s.Sound) (hl : s.live i) : s.isWaiter i := by
  obtain ⟨r, hr, hlive⟩ := live_iff.1 hl
  have hreg := h.correlated.registered i r hr hlive
  cases hcall : r.call with
  | fifo queue =>
    rw [hcall] at hreg
    have hm : i ∈ s.queues queue := hreg
    cases queue <;> simp [isWaiter, hm]
  | keyed table clientRef =>
    rw [hcall] at hreg
    have hm : (clientRef, i) ∈ (s.tables table).rows := Table.mem_of_get? hreg
    have hany : (s.tables table).rows.any (·.2 = i) := List.any_eq_true.2 ⟨_, hm, by simp⟩
    cases table <;> simp [isWaiter, hany]

theorem Sound.close (h : s.Sound) : s.close.Sound := by
  have hreq : ∀ j : Nat, s.close.requests[j]? =
      s.requests[j]?.map fun r => if s.isWaiter j then r.complete .closed else r := by
    intro j
    simp [Client.close, List.getElem?_mapIdx]
  have hr : Aged s s.close := by
    intro j
    rw [hreq]
    cases s.requests[j]? with
    | none => exact .none
    | some r =>
      refine .some ?_
      split
      · exact .complete (fun he => by cases he) (fun _ _ _ he => by cases he)
      · exact .refl j r
  have hdead : ∀ j, ¬s.close.live j := by
    intro j hl
    have hw := isWaiter_of_live h (hr.live hl)
    obtain ⟨r', hr', hl'⟩ := live_iff.1 hl
    rw [hreq, hw] at hr'
    obtain ⟨r, -, rfl⟩ := Option.map_eq_some_iff.1 hr'
    exact Request.not_isLive_complete (fun he => by cases he) r hl'
  refine h.aged hr (fun _ => List.nil_subset _) (fun _ _ _ hm => by cases hm) (fun _ => List.Subset.refl _) ?_ ?_ ?_
  · exact fun j _ hl => absurd hl (hdead j)
  · exact fun _ j hl => absurd hl (hdead j)
  · exact fun j _ _ hl => absurd hl (hdead j)

end Replies

section Requests
variable {s' : Client} {call : Call}

/-- A request is added. -/
def Grown (s s' : Client) (call : Call) : Prop := s'.requests = s.requests ++ [⟨call, .writing, false, .pending⟩]

theorem Grown.getElem? (h : Grown s s' call) (j : Nat) : s'.requests[j]? =
    if j = s.requests.length then some ⟨call, .writing, false, .pending⟩ else s.requests[j]? := by
  rw [h, List.getElem?_append]
  split
  · rename_i hlt
    rw [if_neg (Nat.ne_of_lt hlt)]
  · rename_i hge
    split
    · rename_i he
      simp [he]
    · rw [List.getElem?_eq_none (by simp; omega), List.getElem?_eq_none (by omega)]

theorem Grown.call? (h : Grown s s' call) (j : Nat) :
    s'.call? j = if j = s.requests.length then some call else s.call? j := by
  unfold Client.call?
  rw [h.getElem?]
  split <;> rfl

theorem Grown.live (h : Grown s s' call) {j : Nat} (hl : s'.live j) : j = s.requests.length ∨ s.live j := by
  unfold Client.live at hl ⊢
  rw [h.getElem?] at hl
  split at hl
  · rename_i he
    exact .inl he
  · exact .inr hl

theorem Grown.running (h : Grown s s' call) {j : Nat} (hl : s'.running j) : j = s.requests.length ∨ s.running j := by
  unfold Client.running at hl ⊢
  rw [h.getElem?] at hl
  split at hl
  · rename_i he
    exact .inl he
  · exact .inr hl

theorem call?_length (s : Client) : s.call? s.requests.length = none := by simp [call?]

theorem Grown.own (hg : Grown s s' call) (h : s.Sound) (j : Nat) (r : Request) (hr : s'.requests[j]? = some r) :
    r.Own j := by
  rw [hg.getElem?] at hr
  split at hr
  · cases hr
    exact ⟨fun _ _ _ he => (by cases he), fun _ he => (by cases he)⟩
  · exact h.own j r hr

/-- An entry of a register is not the new request. -/
theorem Grown.call?_of_some (hg : Grown s s' call) {j : Nat} {call' : Call} (hc : s.call? j = some call') :
    s'.call? j = some call' := by
  rw [hg.call?, if_neg]
  · exact hc
  · rintro rfl
    rw [call?_length] at hc
    cases hc

theorem Sound.notMem_queue (h : s.Sound) (queue : Fifo) : s.requests.length ∉ s.queues queue := by
  intro hm
  have := h.queued queue _ hm
  rw [call?_length] at this
  cases this

theorem Sound.notMem_unanswered (h : s.Sound) (lane : Lane) : s.requests.length ∉ s.unanswered lane := by
  intro hm
  obtain ⟨call, hc, -⟩ := h.asked lane _ hm
  rw [call?_length] at hc
  cases hc

/-- The list of unanswered requests after a new one. -/
theorem Grown.asked (hg : Grown s s' call) (h : s.Sound)
    (hu : s'.unanswered = (s.withUnanswered call.lane (s.unanswered call.lane ++ [s.requests.length])).unanswered)
    (lane : Lane) (i : Nat) (hm : i ∈ s'.unanswered lane) : ∃ call', s'.call? i = some call' ∧ call'.lane = lane := by
  have old : ∀ lane', i ∈ s.unanswered lane' → ∃ call', s'.call? i = some call' ∧ call'.lane = lane' := by
    intro lane' hm
    obtain ⟨call', hc, hl⟩ := h.asked lane' i hm
    exact ⟨call', hg.call?_of_some hc, hl⟩
  rw [hu, unanswered_withUnanswered] at hm
  split at hm
  · rename_i he
    subst he
    rcases List.mem_append.1 hm with hm | hm
    · exact old _ hm
    · cases List.mem_singleton.1 hm
      exact ⟨call, by rw [hg.call?, if_pos rfl], rfl⟩
  · exact old lane hm

theorem Grown.awaited (hg : Grown s s' call) (h : s.Sound)
    (hu : s'.unanswered = (s.withUnanswered call.lane (s.unanswered call.lane ++ [s.requests.length])).unanswered)
    (i : Nat) (call' : Call) (hl : s'.live i) (hc : s'.call? i = some call') : i ∈ s'.unanswered call'.lane := by
  rw [hu, unanswered_withUnanswered]
  rw [hg.call?] at hc
  split at hc
  · rename_i he
    cases hc
    rw [if_pos rfl, he]
    exact List.mem_append_right _ List.mem_cons_self
  · rename_i hne
    have hm := h.awaited i call' ((hg.live hl).resolve_left hne) hc
    split
    · rename_i he
      rw [he] at hm
      exact List.mem_append_left _ hm
    · exact hm

/-- A keyed request that is open after a new one is the new one, or was open before. -/
theorem Grown.opened (hg : Grown s s' call)
    (hu : s'.unanswered = (s.withUnanswered call.lane (s.unanswered call.lane ++ [s.requests.length])).unanswered)
    {j : Nat} {table : Keyed} {clientRef : String} (hc : s'.call? j = some (.keyed table clientRef))
    (ho : s'.running j ∨ j ∈ s'.unanswered (.keyed table)) :
    (j = s.requests.length ∧ call = .keyed table clientRef) ∨
      (s.call? j = some (.keyed table clientRef) ∧ (s.running j ∨ j ∈ s.unanswered (.keyed table))) := by
  rw [hg.call?] at hc
  split at hc
  · rename_i he
    exact .inl ⟨he, Option.some.inj hc⟩
  · rename_i hj
    refine .inr ⟨hc, ?_⟩
    rcases ho with hr | hm
    · exact .inl ((hg.running hr).resolve_left hj)
    · rw [hu, unanswered_withUnanswered] at hm
      split at hm
      · rename_i he
        rw [he]
        rcases List.mem_append.1 hm with hm | hm
        · exact .inr hm
        · exact absurd (List.mem_singleton.1 hm) hj
      · exact .inr hm

/-- A request that fits is the only open one under its client ref. -/
theorem Grown.single (hg : Grown s s' call) (h : s.Sound) (hfit : s.Fits call)
    (hu : s'.unanswered = (s.withUnanswered call.lane (s.unanswered call.lane ++ [s.requests.length])).unanswered)
    (i j : Nat) (table : Keyed) (clientRef : String) (hi : s'.call? i = some (.keyed table clientRef))
    (hj : s'.call? j = some (.keyed table clientRef)) (hoi : s'.running i ∨ i ∈ s'.unanswered (.keyed table))
    (hoj : s'.running j ∨ j ∈ s'.unanswered (.keyed table)) : i = j := by
  have hfree : ∀ j, call = .keyed table clientRef → s.call? j = some (.keyed table clientRef) →
      ¬(s.running j ∨ j ∈ s.unanswered (.keyed table)) := by
    rintro j rfl hc (hr | hm)
    · exact (hfit j hc).1 hr
    · exact (hfit j hc).2 hm
  rcases hg.opened hu hi hoi with ⟨rfl, he⟩ | ⟨hi, hoi⟩
  · rcases hg.opened hu hj hoj with ⟨rfl, -⟩ | ⟨hj, hoj⟩
    · rfl
    · exact absurd hoj (hfree j he hj)
  · rcases hg.opened hu hj hoj with ⟨rfl, he⟩ | ⟨hj, hoj⟩
    · exact absurd hoi (hfree i he hi)
    · exact h.single i j table clientRef hi hj hoi hoj

theorem Sound.requestFifo (h : s.Sound) {queue : Fifo} (hfit : s.Fits (.fifo queue))
    (hg : Grown s s' (.fifo queue)) (hq : s'.queues = (s.withQueue queue (s.queues queue ++ [s.requests.length])).queues)
    (ht : s'.tables = s.tables)
    (hu : s'.unanswered = (s.withUnanswered (.fifo queue)
      (s.unanswered (.fifo queue) ++ [s.requests.length])).unanswered) : s'.Sound := by
  have hkeyed : ∀ j table clientRef, s'.call? j = some (.keyed table clientRef) → j ≠ s.requests.length := by
    rintro j table clientRef hc rfl
    rw [hg.call?, if_pos rfl] at hc
    cases hc
  have hold : ∀ j table clientRef, s'.call? j = some (.keyed table clientRef) →
      s.call? j = some (.keyed table clientRef) := by
    intro j table clientRef hc
    have hne := hkeyed j table clientRef hc
    rwa [hg.call?, if_neg hne] at hc
  refine ⟨hg.own h, ?_, ?_, ?_, hg.asked h hu, hg.awaited h hu, ?_, ?_, hg.single h hfit hu⟩
  · intro queue' i hm
    rw [hq, queues_withQueue] at hm
    split at hm
    · rename_i he
      subst he
      rcases List.mem_append.1 hm with hm | hm
      · exact hg.call?_of_some (h.queued queue' i hm)
      · rw [List.mem_singleton.1 hm, hg.call?, if_pos rfl]
    · exact hg.call?_of_some (h.queued queue' i hm)
  · intro table clientRef w hw
    rw [ht] at hw
    exact hg.call?_of_some (h.keyed table clientRef w hw)
  · exact fun j table clientRef hc => h.named j table clientRef (hold j table clientRef hc)
  · intro queue'
    have hal : Aligned (s'.live ·) (s.queues queue') (s.unanswered (.fifo queue')) :=
      (h.aligned queue').extend (h.notMem_queue queue') (h.notMem_unanswered _) fun _ => hg.live
    rw [hq, hu, queues_withQueue, unanswered_withUnanswered]
    by_cases he : queue' = queue
    · subst he
      rw [if_pos rfl, if_pos rfl]
      exact hal.append hfit
    · rw [if_neg he, if_neg (fun hl => he (Lane.fifo.inj hl))]
      exact hal
  · intro j table clientRef hl hc
    rw [ht]
    exact h.waits j table clientRef ((hg.live hl).resolve_left (hkeyed j table clientRef hc)) (hold j table clientRef hc)

theorem Sound.requestKeyed (h : s.Sound) {table : Keyed} {clientRef : String} (hne : clientRef ≠ "")
    (hfit : s.Fits (.keyed table clientRef)) (hg : Grown s s' (.keyed table clientRef)) (hq : s'.queues = s.queues)
    (ht : s'.tables = (s.withTable table ((s.tables table).assign (clientRef, s.requests.length))).tables)
    (hu : s'.unanswered = (s.withUnanswered (.keyed table)
      (s.unanswered (.keyed table) ++ [s.requests.length])).unanswered) : s'.Sound := by
  have hget : ∀ table' clientRef', (s'.tables table').get? clientRef' = if table' = table ∧ clientRef' = clientRef
      then some (clientRef, s.requests.length) else (s.tables table').get? clientRef' := by
    intro table' clientRef'
    rw [ht, tables_withTable]
    by_cases he : table' = table
    · subst he
      simp [eq_comm]
    · simp [he]
  refine ⟨hg.own h, ?_, ?_, ?_, hg.asked h hu, hg.awaited h hu, ?_, ?_, hg.single h hfit hu⟩
  · intro queue i hm
    rw [hq] at hm
    exact hg.call?_of_some (h.queued queue i hm)
  · intro table' clientRef' w hw
    rw [hget] at hw
    split at hw
    · rename_i he
      cases hw
      rw [hg.call?, if_pos rfl, he.1, he.2]
    · exact hg.call?_of_some (h.keyed table' clientRef' w hw)
  · intro j table' clientRef' hc
    rw [hg.call?] at hc
    split at hc
    · cases hc
      exact hne
    · exact h.named j table' clientRef' hc
  · intro queue
    rw [hq, hu, unanswered_withUnanswered, if_neg (fun he => by cases he)]
    exact (h.aligned queue).extend (h.notMem_queue queue) (h.notMem_unanswered _) fun _ => hg.live
  · intro j table' clientRef' hl hc
    rw [hget]
    rw [hg.call?] at hc
    split at hc
    · rename_i he
      cases hc
      rw [if_pos ⟨rfl, rfl⟩, he]
    · rename_i hj
      have hl := (hg.live hl).resolve_left hj
      rw [if_neg]
      · exact h.waits j table' clientRef' hl hc
      · rintro ⟨rfl, rfl⟩
        exact (hfit j hc).1 (running_of_live hl)

theorem Sound.request (h : s.Sound) (hname : ∀ table clientRef, call = .keyed table clientRef → clientRef ≠ "")
    (hfit : s.closed ∨ s.Fits call) : (s.request call).Sound := by
  unfold Client.request
  split
  · exact h
  · rename_i hopen
    have hfit := hfit.resolve_left hopen
    cases call with
    | fifo queue => exact h.requestFifo hfit rfl rfl rfl rfl
    | keyed table clientRef => exact h.requestKeyed (hname table clientRef rfl) hfit rfl rfl rfl rfl

end Requests

theorem Sound.step (h : s.Sound) (e : Event) (ho : s.Orderly e) : (Bridge.step s e).Sound := by
  have fifo : ∀ queue table clientRef, Call.fifo queue = .keyed table clientRef → clientRef ≠ "" :=
    fun _ _ _ he => by cases he
  have ref : ∀ {clientRef : String}, strip clientRef ≠ "" → clientRef ≠ "" := by
    rintro clientRef hs rfl
    exact hs rfl
  cases e with
  | sendSend clientRef hex =>
    cases clientRef with
    | none =>
      refine h.request ?_ ho
      intro table clientRef he
      cases he
      simp
    | some clientRef =>
      simp only [Bridge.step, sendSend]
      split
      · exact h
      · rename_i hs
        refine h.request ?_ ho
        intro table clientRef' he
        cases he
        exact ref hs
  | sendAck => exact h.request (fifo _) ho
  | sendListSpaces => exact h.request (fifo _) ho
  | sendListInvites => exact h.request (fifo _) ho
  | sendDecideInvitation invitationEventId decision clientRef =>
    simp only [Bridge.step, sendDecideInvitation]
    split
    · exact h
    · split
      · exact h
      · split
        · exact h
        · rename_i hs
          refine h.request ?_ ho
          intro table clientRef' he
          cases he
          exact ref hs
  | transmit lane => exact h.transmit lane
  | abortWrite i => exact h.abortWrite i ho
  | endWrite i => exact h.endWrite i
  | interrupt i => exact h.interrupt i
  | resume i => exact h.resume i ho
  | answer lane error => exact h.answer lane error ho
  | keepalive => exact h
  | message => exact h
  | close => exact h.close

end Client

/-- In every run whose steps are orderly, every reply goes to the request it answers or is
dropped, no reply that a request waits for goes elsewhere, and no waiter is lost. -/
theorem replies_correlated (events : List Event) (h : Along step Client.Orderly .initial events) :
    Throughout step Client.Correlated .initial events :=
  h.throughout Client.Sound.initial (fun _ e ho hs => hs.step e ho) fun _ hs => hs.correlated

/-- Two ACKs at once, answered in order. -/
theorem replies_correlated_two_acks : Throughout step Client.Correlated .initial
    [.sendAck, .sendAck, .transmit (.fifo .ackResult), .transmit (.fifo .ackResult), .endWrite 0, .endWrite 1,
      .answer (.fifo .ackResult) false, .answer (.fifo .ackResult) false, .resume 1, .resume 0] := by
  refine replies_correlated _ ⟨.inr rfl, .inr rfl, trivial, trivial, trivial, trivial, trivial, trivial, ?_, ?_, trivial⟩
  · intro r queue hr _ hs
    obtain rfl := Option.some.inj (hr.symm.trans
      (show _ = some ⟨.fifo .ackResult, .waiting, true, .reply 1 false⟩ from rfl))
    cases hs
  · intro r queue hr _ hs
    obtain rfl := Option.some.inj (hr.symm.trans
      (show _ = some ⟨.fifo .ackResult, .waiting, true, .reply 0 false⟩ from rfl))
    cases hs

/-- An ACK times out, the next one starts, and the late reply completes it. -/
theorem late_reply_completes_next : ¬∀ events, Throughout step Client.Correlated .initial events := by
  intro h
  have hown := (h [.sendAck, .transmit (.fifo .ackResult), .endWrite 0, .interrupt 0, .resume 0, .sendAck,
    .transmit (.fifo .ackResult), .endWrite 1, .answer (.fifo .ackResult) false, .resume 1]).last.own 1
    ⟨.fifo .ackResult, .ended (some 0), true, .reply 0 false⟩ rfl
  have : 0 = 1 := hown.2 0 rfl
  omega

end PuffoAgent.Bridge
