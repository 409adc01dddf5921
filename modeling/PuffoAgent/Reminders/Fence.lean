import PuffoAgent.Reminders.SyncSteps
import PuffoAgent.Reminders.Merge

/-! Delivery of occurrences that the Server owns is fenced by each connect, as long as no
reconciliation and no lease of an earlier connection gets through. -/
namespace PuffoAgent.Reminders
open Relational Stmt Sql Store Text Machine

/-- The authorization names an occurrence that no local-only candidate has. -/
def ServerOwned (entry : List ReminderRow × Authorization) : Prop :=
  ∃ id ∈ entry.2.occurrenceIds, ∀ c ∈ entry.1, c.occurrenceId = id → c.isUnpreparedLocalOnly = false

instance (entry : List ReminderRow × Authorization) : Decidable (ServerOwned entry) :=
  inferInstanceAs (Decidable (∃ id ∈ entry.2.occurrenceIds,
    ∀ c ∈ entry.1, c.occurrenceId = id → c.isUnpreparedLocalOnly = false))

/-- What settling a claim without an authorization does. -/
structure Settles (s s' : SyncState) : Prop where
  claims : ∀ claim' ∈ s'.claims, ∃ claim ∈ s.claims, ∃ phase, claim' = { claim with phase := phase }
  returned : s'.returned = s.returned ∨
    ∃ candidates retryAfterMs, s'.returned = s.returned ++ [(candidates, ⟨[], retryAfterMs⟩)]

section Settling
variable {host : SyncHost} {s t : SyncState} {j : Nat} {claim : Claim}

theorem Settles.same (hc : t.claims = s.claims) (hr : t.returned = s.returned) : Settles s t where
  claims claim' hm := ⟨claim', hc ▸ hm, claim'.phase, rfl⟩
  returned := .inl hr

theorem setClaim_settles (hk : s.claims[j]? = some claim) (phase : ClaimPhase) :
    Settles s (s.setClaim j claim phase) where
  claims claim' hm := by
    rcases List.mem_or_eq_of_mem_set hm with hold | rfl
    · exact ⟨claim', hold, claim'.phase, rfl⟩
    · exact ⟨claim, List.mem_of_getElem? hk, phase, rfl⟩
  returned := .inl rfl

theorem retry_settles (hk : s.claims[j]? = some claim) : Settles s (s.retry j claim) where
  claims := (setClaim_settles hk .done).claims
  returned := .inr ⟨claim.candidates, some claim.retryAfterMs, rfl⟩

theorem resume_settles : Settles s (s.resume j) := by
  unfold SyncState.resume
  split
  · rename_i claim hk
    split
    · exact retry_settles hk
    · exact .same rfl rfl
  · exact .same rfl rfl

theorem release_settles (loop : Loop) : Settles s (s.release loop) := by
  unfold SyncState.release
  split
  · exact .same rfl rfl
  · split
    · exact .same rfl rfl
    · exact resume_settles

/-- What a state shares with the one it was made from. -/
theorem Settles.of_eq {s₁ : SyncState} (h : Settles s₁ t) (hc : s₁.claims = s.claims)
    (hr : s₁.returned = s.returned) : Settles s t where
  claims := hc ▸ h.claims
  returned := hr ▸ h.returned

theorem conclude_settles (i : Nat) (loop : Loop) : Settles s (s.conclude i loop) := by
  unfold SyncState.conclude
  dsimp only
  split
  · exact (release_settles loop).of_eq rfl rfl
  · exact (release_settles loop).of_eq rfl rfl
  · exact .same rfl rfl

theorem persistClaim_settles (hk : s.claims[j]? = some claim) (claimId : String) :
    Settles s (persistClaim host s j claim claimId) := by
  have hk' (tables : Tables) : ({ s with tables := tables } : SyncState).claims[j]? = some claim := hk
  unfold persistClaim
  split
  · exact (retry_settles (hk' _)).of_eq rfl rfl
  · dsimp only
    split
    · exact (retry_settles (hk' _)).of_eq rfl rfl
    · split
      · exact (retry_settles (hk' _)).of_eq rfl rfl
      · exact (setClaim_settles (hk' _) _).of_eq rfl rfl

theorem answerClaim_settles (hk : s.claims[j]? = some claim) (persisted : ReminderRow) (claimId : String)
    (answer : ClaimAnswer) : Settles s (answerClaim host s j claim persisted claimId answer) := by
  unfold answerClaim
  split
  · exact setClaim_settles hk _
  · exact retry_settles hk
  · split
    · exact retry_settles hk
    · exact setClaim_settles hk _
    · exact retry_settles hk
    · have hk' : ({ s with deliveryReady := false } : SyncState).claims[j]? = some claim := hk
      exact ⟨(setClaim_settles hk' .reconciling).claims, .inl rfl⟩

end Settling

/-- The row whose lease `acquire_reminder_delivery_claim` records. -/
def Leasable (s : Tables) (persisted : ReminderRow) (claimId : String) : Prop :=
  s.countReminders (fun r => r.occurrenceId = persisted.occurrenceId ∧ r.revision = persisted.revision ∧
    r.deliveryClaimId = some claimId ∧ r.isOpen ∧ ¬ r.snapshotConflict) = 1

instance (s : Tables) (persisted : ReminderRow) (claimId : String) : Decidable (Leasable s persisted claimId) := by
  unfold Leasable
  infer_instance

theorem acquire_run (s : Tables) (persisted : ReminderRow) (claimId : String) (leaseExpiresAtMs : Int) :
    ∃ c, acquireReminderDeliveryClaim persisted.occurrenceId persisted.revision claimId leaseExpiresAtMs ⟨s, none⟩ =
      .ok (decide (Leasable s persisted claimId)) c := by
  unfold acquireReminderDeliveryClaim
  rw [transaction_run]
  exact ⟨_, rfl⟩

/-- The claim is about to record a lease that it will get. -/
def Claim.Acquiring (claim : Claim) (s : Tables) (id : String) : Prop :=
  ∃ persisted claimId leaseExpiresAtMs, claim.phase = .acquiring persisted claimId leaseExpiresAtMs ∧
    Leasable s persisted claimId ∧ persisted.occurrenceId = id

/-- What an event does to the claims and to the authorizations. -/
inductive ClaimMove (s s' : SyncState) : SyncEvent → Prop
  | settled {e : SyncEvent} (settles : Settles s s') : ClaimMove s s' e
  | authorized {candidates : List ReminderRow} {nowMs : Int} {newClaimId : String} (authorization : Authorization)
    (locally : ¬ ServerOwned (candidates, authorization)) (claims : s'.claims = s.claims)
    (returned : s'.returned = s.returned ++ [(candidates, authorization)]) :
    ClaimMove s s' (.authorize candidates nowMs newClaimId)
  | claimed {candidates : List ReminderRow} {nowMs : Int} {newClaimId : String} (claim : Claim)
    (ready : s.deliveryReady = true) (begun : claim.begun = s.connects)
    (remote : ∀ c ∈ claim.candidates, c.isUnpreparedLocalOnly = false)
    (claims : s'.claims = s.claims ++ [claim]) (returned : s'.returned = s.returned) :
    ClaimMove s s' (.authorize candidates nowMs newClaimId)
  | acquired {j : Nat} (claim : Claim) (known : s.claims[j]? = some claim) (id : String)
    (acquiring : claim.Acquiring s.tables id) (retryAfterMs : Option Int)
    (claims : ∀ claim' ∈ s'.claims, ∃ claim ∈ s.claims, ∃ phase, claim' = { claim with phase := phase })
    (returned : s'.returned = s.returned ++ [(claim.candidates, ⟨[id], retryAfterMs⟩)]) :
    ClaimMove s s' (.acquire j)

section Inversion
variable {host : SyncHost} {s : SyncState}

theorem not_serverOwned_nil {candidates : List ReminderRow} {retryAfterMs : Option Int} :
    ¬ ServerOwned (candidates, ⟨[], retryAfterMs⟩) := by
  rintro ⟨id, hid, -⟩
  cases hid

theorem authorize_inl {candidates : List ReminderRow} {nowMs : Int} {newClaimId : String}
    {authorization : Authorization} (h : authorize s candidates nowMs newClaimId = .inl authorization) :
    ¬ ServerOwned (candidates, authorization) := by
  unfold authorize at h
  dsimp only at h
  split at h
  · cases h
    exact not_serverOwned_nil
  split at h
  · cases h
    exact not_serverOwned_nil
  split at h
  · cases h
    rintro ⟨id, hid, hall⟩
    obtain ⟨c, hc, rfl⟩ := List.mem_map.mp hid
    obtain ⟨hm, hl⟩ := List.mem_filter.mp hc
    exact absurd ((hall c hm rfl).symm.trans hl) (by decide)
  split at h
  · cases h
    exact not_serverOwned_nil
  split at h
  · cases h
    exact not_serverOwned_nil
  split at h
  · cases h
    exact not_serverOwned_nil
  · cases h

theorem authorize_inr {candidates : List ReminderRow} {nowMs : Int} {newClaimId : String} {claim : Claim}
    (h : authorize s candidates nowMs newClaimId = .inr claim) :
    s.deliveryReady = true ∧ claim.begun = s.connects ∧
      ∀ c ∈ claim.candidates, c.isUnpreparedLocalOnly = false := by
  unfold authorize at h
  dsimp only at h
  split at h
  · cases h
  split at h
  · cases h
  split at h
  · cases h
  rename_i hlocal
  split at h
  · cases h
  split at h
  · cases h
  rename_i hready
  split at h
  · cases h
  · cases h
    rw [not_not] at hlocal hready
    refine ⟨hready, rfl, fun c hc => ?_⟩
    exact Bool.eq_false_of_not_eq_true (List.filter_eq_nil_iff.mp (List.map_eq_nil_iff.mp hlocal) c hc)

theorem acquireClaim_move {j : Nat} {claim : Claim} (hk : s.claims[j]? = some claim) {persisted : ReminderRow}
    {claimId : String} {leaseExpiresAtMs : Int} (hp : claim.phase = .acquiring persisted claimId leaseExpiresAtMs) :
    ClaimMove s (acquireClaim s j claim persisted claimId leaseExpiresAtMs) (.acquire j) := by
  obtain ⟨c, hc⟩ := acquire_run s.tables persisted claimId leaseExpiresAtMs
  have hk' : ({ s with tables := c.tables } : SyncState).claims[j]? = some claim := hk
  simp only [acquireClaim, hc]
  by_cases hl : Leasable s.tables persisted claimId
  · simp only [hl, decide_true, not_true_eq_false, if_false]
    exact .acquired claim hk persisted.occurrenceId ⟨persisted, claimId, leaseExpiresAtMs, hp, hl, rfl⟩ _
      (setClaim_settles hk' .done).claims rfl
  · simp only [hl, decide_false, Bool.false_eq_true, not_false_eq_true, if_true]
    exact .settled ((retry_settles hk').of_eq rfl rfl)

/-- Every event is one of the moves. -/
theorem step_claimMove (host : SyncHost) (s : SyncState) (e : SyncEvent) : ClaimMove s (s.step host e) e := by
  have same : ClaimMove s s e := .settled (.same rfl rfl)
  cases e with
  | connected | reconcile | store op => exact .settled (.same rfl rfl)
  | respond i answer =>
    simp only [SyncState.step]
    split
    · split_ifs
      · exact .settled ((conclude_settles i _).of_eq rfl rfl)
      · exact same
    · exact same
  | apply i =>
    simp only [SyncState.step]
    split
    · split
      · exact .settled ((conclude_settles i _).of_eq rfl rfl)
      · exact same
    · exact same
  | authorize candidates nowMs newClaimId =>
    simp only [SyncState.step]
    split
    · rename_i authorization h
      exact .authorized authorization (authorize_inl h) rfl rfl
    · rename_i claim h
      obtain ⟨hready, hbegun, hremote⟩ := authorize_inr h
      exact .claimed claim hready hbegun hremote rfl rfl
  | persist j =>
    simp only [SyncState.step]
    split
    · rename_i claim hk
      split
      · exact .settled (persistClaim_settles hk _)
      · exact same
    · exact same
  | answer j answer =>
    simp only [SyncState.step]
    split
    · rename_i claim hk
      split
      · exact .settled (answerClaim_settles hk _ _ answer)
      · exact same
    · exact same
  | acquire j =>
    simp only [SyncState.step]
    split
    · rename_i claim hk
      split
      · rename_i persisted claimId leaseExpiresAtMs hp
        exact acquireClaim_move hk hp
      · exact same
    · exact same

end Inversion
section Completion
variable {host : SyncHost} {loop loop' : Loop}

theorem turn_finished {page : Page} : (loop.turn page).phase = .finished ↔ page.nextAfter = none := by
  unfold Loop.turn
  dsimp only
  split
  · rename_i h
    exact iff_of_true rfl h
  · rename_i h
    refine iff_of_false ?_ (by simp [h])
    split_ifs <;> simp

theorem proceed_finished {rows : List RemoteOccurrence} {page : Page} :
    (loop.proceed rows page).phase = .finished ↔ rows = [] ∧ page.nextAfter = none := by
  unfold Loop.proceed
  split_ifs with h
  · rw [turn_finished]
    exact (and_iff_right h).symm
  · exact iff_of_false (by simp) fun hn => h hn.1

theorem respond_finished {answer : Answer} : (loop.respond host answer).phase = .finished ↔
    ∃ response, answer = .page response ∧
      validatePage host loop.after loop.lastOccurrenceId response = .ok ⟨[], none⟩ := by
  unfold Loop.respond
  cases answer with
  | failed retryable | cancelled => simp
  | page response =>
    dsimp only
    cases hv : validatePage host loop.after loop.lastOccurrenceId response with
    | error e => simp [hv]
    | ok page =>
      dsimp only
      rw [proceed_finished]
      constructor
      · rintro ⟨hr, hn⟩
        exact ⟨response, rfl, by rw [hv]; cases page; simp_all⟩
      · rintro ⟨_, he, hp⟩
        cases he
        rw [hv] at hp
        cases hp
        exact ⟨rfl, rfl⟩

/-- The row is stored without an error. -/
def RemoteOccurrence.Stored (remote : RemoteOccurrence) (s : Tables) : Prop :=
  ∃ materialize result c, remote.materialize = .ok materialize ∧ materialize ⟨s, none⟩ = .ok result c

theorem apply_finished {remote : RemoteOccurrence} {rows : List RemoteOccurrence} {page : Page} {s : Tables} :
    (loop.apply remote rows page s).1.phase = .finished ↔
      rows = [] ∧ page.nextAfter = none ∧ remote.Stored s := by
  unfold Loop.apply RemoteOccurrence.Stored
  cases hm : remote.materialize with
  | error e => simp
  | ok materialize =>
    dsimp only
    cases hr : materialize ⟨s, none⟩ with
    | error e c => simp [hr]
    | ok result c => simp [proceed_finished, hr]

theorem turn_begun {page : Page} : (loop.turn page).begun = loop.begun := by
  unfold Loop.turn
  dsimp only
  split
  · rfl
  · split_ifs <;> rfl

theorem proceed_begun {rows : List RemoteOccurrence} {page : Page} :
    (loop.proceed rows page).begun = loop.begun := by
  unfold Loop.proceed
  split_ifs
  · exact turn_begun
  · rfl

/-- A reconciliation stays one of the connection it was begun on. -/
theorem Advance.begun (h : Advance host loop loop') : loop'.begun = loop.begun := by
  cases h with
  | responded answer =>
    unfold Loop.respond
    dsimp only
    split
    · rfl
    · rfl
    · split
      · rfl
      · exact proceed_begun
  | applied s =>
    unfold Loop.apply
    split
    · rfl
    · split
      · rfl
      · exact proceed_begun

end Completion

/-- A reconciliation that was begun since the latest connect has completed. -/
def Reconciled (s : SyncState) : Prop := ∃ loop ∈ s.loops, loop.begun = s.connects ∧ loop.phase = .finished

instance (s : SyncState) : Decidable (Reconciled s) :=
  inferInstanceAs (Decidable (∃ loop ∈ s.loops, loop.begun = s.connects ∧ loop.phase = .finished))

/-- The event does not complete a reconciliation of an earlier connection, nor record a
lease for an authorization of one, before a reconciliation of this connection is complete. -/
def Timely (host : SyncHost) (s : SyncState) : SyncEvent → Prop
  | .respond i (.page response) => ∀ loop, s.loops[i]? = some loop → loop.begun < s.connects →
      loop.phase = .fetching →
      validatePage host loop.after loop.lastOccurrenceId response = .ok ⟨[], none⟩ → Reconciled s
  | .apply i => ∀ loop remote page, s.loops[i]? = some loop → loop.begun < s.connects →
      loop.phase = .applying [remote] page → page.nextAfter = none → remote.Stored s.tables → Reconciled s
  | .acquire j => ∀ claim id, s.claims[j]? = some claim → claim.begun < s.connects →
      claim.Acquiring s.tables id → Reconciled s
  | _ => True

/-- What the fence promises of an event. -/
structure Fenced (host : SyncHost) (s : SyncState) (e : SyncEvent) : Prop where
  reopened : (s.step host e).deliveryReady = true → Reconciled (s.step host e)
  authorized : ∀ entry, (s.step host e).returned = s.returned ++ [entry] → ServerOwned entry → Reconciled s

/-- What holds as long as the fence does. -/
structure Guarded (s : SyncState) : Prop where
  ready : s.deliveryReady = true → Reconciled s
  loops : ∀ loop ∈ s.loops, loop.begun ≤ s.connects
  claims : ∀ claim ∈ s.claims, claim.begun ≤ s.connects ∧ (claim.begun = s.connects → Reconciled s) ∧
    ∀ c ∈ claim.candidates, c.isUnpreparedLocalOnly = false

section Fence
variable {host : SyncHost} {s : SyncState} {e : SyncEvent}

theorem step_connects (host : SyncHost) (s : SyncState) (e : SyncEvent) :
    (s.step host e).connects = s.connects ∨ e = .connected ∧ (s.step host e).deliveryReady = false ∧
      (s.step host e).connects = s.connects + 1 := by
  cases step_loopMove host s e with
  | connected loops closed connects => exact .inr ⟨rfl, closed, connects⟩
  | idle loops ready connects => exact .inl connects
  | began authorization loops ready connects => exact .inl connects
  | responded loop known fetching loops ready connects => exact .inl connects
  | applied loop known remote rows page applying loops ready connects => exact .inl connects

theorem Reconciled.step (h : Reconciled s) (hc : (s.step host e).connects = s.connects) : Reconciled (s.step host e) := by
  obtain ⟨loop, hm, hb, hf⟩ := h
  obtain ⟨i, hi⟩ := List.getElem?_of_mem hm
  obtain ⟨loop', hi', rfl | ha⟩ := (step_loopMove host s e).known hi
  · exact ⟨loop', List.mem_of_getElem? hi', hb.trans hc.symm, hf⟩
  · exact absurd hf ha.unfinished

/-- The fence holds again once delivery opens for a good reason. -/
theorem Guarded.step (h : Guarded s) (hr : (s.step host e).deliveryReady = true → Reconciled (s.step host e)) :
    Guarded (s.step host e) := by
  have hle : s.connects ≤ (s.step host e).connects := by
    rcases step_connects host s e with hc | ⟨-, -, hc⟩ <;> omega
  have hopen {n : Nat} (hn : n ≤ s.connects) (he : n = (s.step host e).connects)
      (hf : n = s.connects → Reconciled s) : Reconciled (s.step host e) := by
    have hc : (s.step host e).connects = s.connects := by omega
    exact (hf (by omega)).step hc
  have hkept {claim : Claim} (hm : claim ∈ s.claims) :
      claim.begun ≤ (s.step host e).connects ∧
        (claim.begun = (s.step host e).connects → Reconciled (s.step host e)) ∧
        ∀ c ∈ claim.candidates, c.isUnpreparedLocalOnly = false := by
    obtain ⟨hb, hf, hremote⟩ := h.claims claim hm
    exact ⟨hb.trans hle, fun he => hopen hb he hf, hremote⟩
  refine ⟨hr, fun loop hm => ?_, fun claim hm => ?_⟩
  · obtain ⟨i, hi⟩ := List.getElem?_of_mem hm
    rcases (step_loopMove host s e).origin hi with ⟨before, hb, rfl | ha⟩ | ⟨authorization, rfl⟩
    · exact (h.loops _ (List.mem_of_getElem? hb)).trans hle
    · rw [ha.begun]
      exact (h.loops _ (List.mem_of_getElem? hb)).trans hle
    · exact hle
  · cases step_claimMove host s e with
    | settled settles =>
      obtain ⟨before, hb, phase, rfl⟩ := settles.claims claim hm
      have hold := hkept hb
      exact hold
    | authorized authorization locally claims =>
      exact hkept (claims ▸ hm)
    | claimed made ready begun remote claims =>
      rcases List.mem_append.mp (claims ▸ hm) with hold | hnew
      · exact hkept hold
      · obtain rfl := List.mem_singleton.mp hnew
        exact ⟨begun.le.trans hle, fun he => hopen begun.le he fun _ => h.ready ready, remote⟩
    | acquired made known id acquiring retryAfterMs claims =>
      obtain ⟨before, hb, phase, rfl⟩ := claims claim hm
      have hold := hkept hb
      exact hold

/-- A step that finishes a reconciliation of an earlier connection. -/
theorem Timely.finishes (h : Timely host s e) {i : Nat} {loop loop' : Loop} (hk : s.loops[i]? = some loop)
    (hk' : (s.step host e).loops[i]? = some loop') (ha : Advance host loop loop')
    (hf : loop'.phase = .finished) (hb : loop.begun < s.connects) : Reconciled s := by
  have hne : loop' ≠ loop := by
    rintro rfl
    exact ha.unfinished hf
  have moved {j : Nat} {before after : Loop} (hl : (s.step host e).loops = s.loops.set j after)
      (hj : s.loops[j]? = some before) : j = i ∧ before = loop ∧ after = loop' := by
    rw [hl] at hk'
    by_cases he : j = i
    · subst he
      rw [List.getElem?_set_self (List.getElem?_eq_some_iff.mp hk).1] at hk'
      exact ⟨rfl, Option.some.inj (hj.symm.trans hk), Option.some.inj hk'⟩
    · rw [List.getElem?_set_ne he] at hk'
      exact absurd (Option.some.inj (hk'.symm.trans hk)) hne
  cases step_loopMove host s e with
  | connected loops | idle loops =>
    rw [loops] at hk'
    exact absurd (Option.some.inj (hk'.symm.trans hk)) hne
  | began authorization loops =>
    rw [loops, List.getElem?_append_left (List.getElem?_eq_some_iff.mp hk).1] at hk'
    exact absurd (Option.some.inj (hk'.symm.trans hk)) hne
  | responded before known fetching loops =>
    obtain ⟨rfl, rfl, rfl⟩ := moved loops known
    obtain ⟨response, rfl, hv⟩ := respond_finished.mp hf
    exact h before known hb fetching hv
  | applied before known remote rows page applying loops =>
    obtain ⟨rfl, rfl, rfl⟩ := moved loops known
    obtain ⟨rfl, hn, hs⟩ := apply_finished.mp hf
    exact h before remote page known hb applying hn hs

/-- Delivery is open after the step only if this connection is reconciled. -/
theorem Timely.reopened (h : Timely host s e) (hg : Guarded s)
    (hr : (s.step host e).deliveryReady = true) : Reconciled (s.step host e) := by
  rcases step_connects host s e with hc | ⟨-, hclosed, -⟩
  · cases hs : s.deliveryReady with
    | true => exact (hg.ready hs).step hc
    | false =>
      obtain ⟨i, loop, loop', hk, hk', ha, hf⟩ := (step_loopMove host s e).opens hs hr
      rcases (hg.loops loop (List.mem_of_getElem? hk)).lt_or_eq with hb | hb
      · exact (h.finishes hk hk' ha hf hb).step hc
      · exact ⟨loop', List.mem_of_getElem? hk', (ha.begun.trans hb).trans hc.symm, hf⟩
  · exact absurd (hclosed.symm.trans hr) (by decide)

theorem append_inj_entry {α : Type} {xs : List α} {a b : α} (h : xs ++ [a] = xs ++ [b]) : b = a :=
  (List.cons.inj (List.append_cancel_left h)).1.symm

theorem Timely.fenced (h : Timely host s e) (hg : Guarded s) : Fenced host s e where
  reopened := h.reopened hg
  authorized entry hr ho := by
    cases step_claimMove host s e with
    | settled settles =>
      rcases settles.returned with hs | ⟨candidates, retryAfterMs, hs⟩
      · exact absurd (hs.symm.trans hr) (by simp)
      · obtain rfl := append_inj_entry (hs.symm.trans hr)
        exact absurd ho not_serverOwned_nil
    | authorized authorization locally claims returned =>
      obtain rfl := append_inj_entry (returned.symm.trans hr)
      exact absurd ho locally
    | claimed made ready begun remote claims returned => exact absurd (returned.symm.trans hr) (by simp)
    | acquired claim known id acquiring =>
      obtain ⟨hb, hf, -⟩ := hg.claims claim (List.mem_of_getElem? known)
      rcases hb.lt_or_eq with hb | hb
      · exact h claim id known hb acquiring
      · exact hf hb

/-- A stale reconciliation that finishes here leaves only the others to rely on. -/
theorem reconciled_of_set {i : Nat} {loop loop' : Loop} (hl : (s.step host e).loops = s.loops.set i loop')
    (hc : (s.step host e).connects = s.connects) (hb : loop.begun < s.connects) (hk : loop'.begun = loop.begun)
    (h : Reconciled (s.step host e)) : Reconciled s := by
  obtain ⟨found, hm, hn, hf⟩ := h
  rcases List.mem_or_eq_of_mem_set (hl ▸ hm) with hold | rfl
  · exact ⟨found, hold, hn.trans hc, hf⟩
  · omega

theorem Fenced.timely (h : Fenced host s e) (hg : Guarded s) : Timely host s e := by
  cases e with
  | respond i answer =>
    cases answer with
    | failed retryable | cancelled => trivial
    | page response =>
      intro loop hk hb hf hv
      have hi : i < s.loops.length := (List.getElem?_eq_some_iff.mp hk).1
      obtain ⟨hl, hr, hc⟩ := conclude_loops { s with localOnlyDeliveryReleasedSinceConnect :=
        s.localOnlyDeliveryReleasedSinceConnect || loop.releases (.page response) } i
        (loop.respond host (.page response))
      have hs : s.step host (.respond i (.page response)) = SyncState.conclude { s with
          localOnlyDeliveryReleasedSinceConnect := s.localOnlyDeliveryReleasedSinceConnect ||
            loop.releases (.page response) } i (loop.respond host (.page response)) := by
        simp only [SyncState.step, hk, if_pos hf]
      have hdone := respond_finished.mpr ⟨response, rfl, hv⟩
      refine reconciled_of_set (by rw [hs]; exact hl) (by rw [hs]; exact hc) hb
        (Advance.responded (.page response) hf).begun (h.reopened ?_)
      rw [hs, hr, readyAfter, hdone]
  | apply i =>
    intro loop remote page hk hb ha hn hst
    obtain ⟨hl, hr, hc⟩ := conclude_loops { s with tables := (loop.apply remote [] page s.tables).2 } i
      (loop.apply remote [] page s.tables).1
    have hs : s.step host (.apply i) = SyncState.conclude { s with
        tables := (loop.apply remote [] page s.tables).2 } i (loop.apply remote [] page s.tables).1 := by
      simp only [SyncState.step, hk, ha]
    have hdone : (loop.apply remote [] page s.tables).1.phase = .finished := apply_finished.mpr ⟨rfl, hn, hst⟩
    have hmove : Advance host loop (loop.apply remote [] page s.tables).1 := .applied s.tables ha
    refine reconciled_of_set (by rw [hs]; exact hl) (by rw [hs]; exact hc) hb hmove.begun (h.reopened ?_)
    rw [hs, hr, readyAfter, hdone]
  | acquire j =>
    rintro claim id hk hb ⟨persisted, claimId, leaseExpiresAtMs, hp, hl, rfl⟩
    obtain ⟨c, hrun⟩ := acquire_run s.tables persisted claimId leaseExpiresAtMs
    have hs : (s.step host (.acquire j)).returned = s.returned ++ [(claim.candidates,
        ⟨[persisted.occurrenceId], if claim.others then some claim.nowMs else none⟩)] := by
      simp only [SyncState.step, hk, hp, acquireClaim, hrun, hl, decide_true, not_true_eq_false, if_false]
      rfl
    have hremote := (hg.claims claim (List.mem_of_getElem? hk)).2.2
    exact h.authorized _ hs ⟨persisted.occurrenceId, List.mem_singleton_self _, fun c hc _ => hremote c hc⟩
  | _ => trivial

/-- The fence holds at every step of a run exactly if every step is timely. -/
theorem reconnect_fence (host : SyncHost) (t : Tables) (es : List SyncEvent) :
    Along (SyncState.step host) (Timely host) { tables := t } es ↔
      Along (SyncState.step host) (Fenced host) { tables := t } es := by
  have hstart : Guarded { tables := t } := ⟨by simp, by simp, by simp⟩
  exact along_congr hstart (fun _ _ ht hg => hg.step (ht.reopened hg))
    (fun _ _ hg => ⟨fun ht => ht.fenced hg, fun hf => hf.timely hg⟩) es

def plainSyncHost : SyncHost where
  toHost := plainHost
  isDecimal := Char.isDigit
  fromIsoformat _ := some ⟨true, 0, some 90000⟩
  decryptReminderPayload _ _ _ _ := none

/-- The occurrence after its upload. -/
def uploadedStore : Tables :=
  run (Reminders.step plainHost) createdStore [.persistEnvelope "o1" "v1" [1], .acknowledge "o1" 1]

def uploadedReminder : ReminderRow :=
  acknowledged 1 (withEnvelope "v1" [1] (scheduledRow "r1" "o1" "dm:bob" "water the plants" 5 1))

def emptySnapshot : Json := .obj [("occurrences", .arr []), ("next_after", .null)]

def acquiredLease : Json := .obj [("occurrence_id", .str "o1"), ("revision", .int 1),
  ("lifecycle", .str "scheduled"), ("status", .str "acquired"), ("lease_expires_at", .str "1970-01-01T00:01:30Z")]

/-- A reconciliation that was waiting for its page when the transport connected again. -/
def staleSnapshot : List SyncEvent := [.reconcile, .connected, .respond 0 (.page emptySnapshot)]

def staleDelivery : List SyncEvent := staleSnapshot ++ [.authorize [uploadedReminder] 6 "c1", .persist 0,
  .answer 0 (.response acquiredLease 6), .acquire 0]

/-- Delivery opens and the occurrence is authorized, with no reconciliation since the connect. -/
theorem stale_snapshot_delivers :
    (run (SyncState.step plainSyncHost) { tables := uploadedStore } staleSnapshot).deliveryReady = true ∧
    ¬ Reconciled (run (SyncState.step plainSyncHost) { tables := uploadedStore } staleSnapshot) ∧
    (run (SyncState.step plainSyncHost) { tables := uploadedStore } staleDelivery).returned =
      [([uploadedReminder], ⟨["o1"], none⟩)] ∧
    ServerOwned ([uploadedReminder], ⟨["o1"], none⟩) ∧
    ¬ Reconciled (run (SyncState.step plainSyncHost) { tables := uploadedStore } staleDelivery) := by
  decide +kernel

end Fence
end PuffoAgent.Reminders
