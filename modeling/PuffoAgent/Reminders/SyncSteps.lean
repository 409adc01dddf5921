import PuffoAgent.Reminders.Sync

/-! What one event does to the reconciliations, to the claims and to delivery. -/
namespace PuffoAgent.Reminders
open Relational Stmt Sql Store Text

/-- One thing a reconciliation does: take an answer, or store a row. -/
inductive Advance (host : SyncHost) : Loop → Loop → Prop
  | responded {loop : Loop} (answer : Answer) (fetching : loop.phase = .fetching) :
    Advance host loop (loop.respond host answer)
  | applied {loop : Loop} {remote : RemoteOccurrence} {rows : List RemoteOccurrence} {page : Page} (s : Tables)
    (applying : loop.phase = .applying (remote :: rows) page) :
    Advance host loop (loop.apply remote rows page s).1

/-- The flag after a reconciliation has come to `phase`. -/
def readyAfter (ready : Bool) (loop : Loop) : Bool :=
  match loop.phase with
  | .finished => true
  | .raised e => ready && (loop.authorization.isSome || e = SyncError.cancelled)
  | _ => ready

/-- What an event does to reconciliations, readiness and connections. -/
inductive LoopMove (host : SyncHost) (s s' : SyncState) : SyncEvent → Prop
  | connected (loops : s'.loops = s.loops) (closed : s'.deliveryReady = false)
    (connects : s'.connects = s.connects + 1) : LoopMove host s s' .connected
  | idle {e : SyncEvent} (loops : s'.loops = s.loops) (ready : s'.deliveryReady = s.deliveryReady)
    (connects : s'.connects = s.connects) : LoopMove host s s' e
  | began {e : SyncEvent} (authorization : Option Nat)
    (loops : s'.loops = s.loops ++ [{ begun := s.connects, authorization := authorization }])
    (ready : s'.deliveryReady = true → s.deliveryReady = true) (connects : s'.connects = s.connects) :
    LoopMove host s s' e
  | responded {i : Nat} {answer : Answer} (loop : Loop) (known : s.loops[i]? = some loop)
    (fetching : loop.phase = .fetching) (loops : s'.loops = s.loops.set i (loop.respond host answer))
    (ready : s'.deliveryReady = readyAfter s.deliveryReady (loop.respond host answer))
    (connects : s'.connects = s.connects) : LoopMove host s s' (.respond i answer)
  | applied {i : Nat} (loop : Loop) (known : s.loops[i]? = some loop) (remote : RemoteOccurrence)
    (rows : List RemoteOccurrence) (page : Page) (applying : loop.phase = .applying (remote :: rows) page)
    (loops : s'.loops = s.loops.set i (loop.apply remote rows page s.tables).1)
    (ready : s'.deliveryReady = readyAfter s.deliveryReady (loop.apply remote rows page s.tables).1)
    (connects : s'.connects = s.connects) : LoopMove host s s' (.apply i)

section Parts
variable (s : SyncState) (j : Nat) (claim : Claim) (phase : ClaimPhase)

/-- What an event leaves alone that only settles a claim. -/
structure SameLoops (s s' : SyncState) : Prop where
  loops : s'.loops = s.loops
  ready : s'.deliveryReady = s.deliveryReady
  connects : s'.connects = s.connects

theorem resume_same : SameLoops s (s.resume j) := by
  unfold SyncState.resume
  split
  · split
    · exact ⟨rfl, rfl, rfl⟩
    · exact ⟨rfl, rfl, rfl⟩
  · exact ⟨rfl, rfl, rfl⟩

theorem release_same (loop : Loop) : SameLoops s (s.release loop) := by
  unfold SyncState.release
  split
  · exact ⟨rfl, rfl, rfl⟩
  · split
    · exact ⟨rfl, rfl, rfl⟩
    · exact resume_same s _

theorem conclude_loops (i : Nat) (loop : Loop) : (s.conclude i loop).loops = s.loops.set i loop ∧
    (s.conclude i loop).deliveryReady = readyAfter s.deliveryReady loop ∧
    (s.conclude i loop).connects = s.connects := by
  unfold SyncState.conclude readyAfter
  cases hp : loop.phase with
  | finished =>
    dsimp only
    exact ⟨(release_same _ loop).loops, (release_same _ loop).ready, (release_same _ loop).connects⟩
  | raised e =>
    dsimp only
    exact ⟨(release_same _ loop).loops, (release_same _ loop).ready, (release_same _ loop).connects⟩
  | fetching | applying => simp

theorem persistClaim_same (host : SyncHost) (claimId : String) :
    SameLoops s (persistClaim host s j claim claimId) := by
  unfold persistClaim
  repeat' split
  all_goals exact ⟨rfl, rfl, rfl⟩

theorem acquireClaim_same (persisted : ReminderRow) (claimId : String) (leaseExpiresAtMs : Int) :
    SameLoops s (acquireClaim s j claim persisted claimId leaseExpiresAtMs) := by
  unfold acquireClaim
  repeat' split
  all_goals exact ⟨rfl, rfl, rfl⟩

end Parts

theorem SameLoops.move {host : SyncHost} {s s' : SyncState} {e : SyncEvent} (h : SameLoops s s') :
    LoopMove host s s' e := .idle h.loops h.ready h.connects

theorem answerClaim_move (host : SyncHost) (s : SyncState) (j : Nat) (claim : Claim) (persisted : ReminderRow)
    (claimId : String) (answer : ClaimAnswer) (e : SyncEvent) :
    LoopMove host s (answerClaim host s j claim persisted claimId answer) e := by
  unfold answerClaim
  split
  · exact .idle rfl rfl rfl
  · exact .idle rfl rfl rfl
  · split
    · exact .idle rfl rfl rfl
    · exact .idle rfl rfl rfl
    · exact .idle rfl rfl rfl
    · exact .began (some j) rfl nofun rfl

/-- Every event is one of the moves. -/
theorem step_loopMove (host : SyncHost) (s : SyncState) (e : SyncEvent) : LoopMove host s (s.step host e) e := by
  cases e with
  | connected => exact .connected rfl rfl rfl
  | reconcile => exact .began none rfl id rfl
  | respond i answer =>
    simp only [SyncState.step]
    split
    · rename_i loop known
      split_ifs with hf
      · have h := conclude_loops { s with localOnlyDeliveryReleasedSinceConnect :=
          s.localOnlyDeliveryReleasedSinceConnect || loop.releases answer } i (loop.respond host answer)
        exact .responded loop known hf h.1 h.2.1 h.2.2
      · exact .idle rfl rfl rfl
    · exact .idle rfl rfl rfl
  | apply i =>
    simp only [SyncState.step]
    split
    · rename_i loop known
      split
      · rename_i remote rows page applying
        have h := conclude_loops { s with tables := (loop.apply remote rows page s.tables).2 } i
          (loop.apply remote rows page s.tables).1
        exact .applied loop known remote rows page applying h.1 h.2.1 h.2.2
      · exact .idle rfl rfl rfl
    · exact .idle rfl rfl rfl
  | authorize candidates nowMs newClaimId =>
    simp only [SyncState.step]
    split
    · exact .idle rfl rfl rfl
    · exact .idle rfl rfl rfl
  | persist j =>
    simp only [SyncState.step]
    repeat' split
    · exact (persistClaim_same s j _ host _).move
    all_goals exact .idle rfl rfl rfl
  | answer j answer =>
    simp only [SyncState.step]
    repeat' split
    · exact answerClaim_move host s j _ _ _ answer _
    all_goals exact .idle rfl rfl rfl
  | acquire j =>
    simp only [SyncState.step]
    repeat' split
    · exact (acquireClaim_same s j _ _ _ _).move
    all_goals exact .idle rfl rfl rfl
  | store op => exact .idle rfl rfl rfl

section Moves
variable {host : SyncHost} {s s' : SyncState} {e : SyncEvent} {i : Nat} {loop loop' : Loop}

theorem Advance.before (h : Advance host loop loop') : loop.ended = false := by
  cases h with
  | responded answer fetching => simp [Loop.ended, fetching]
  | applied s applying => simp [Loop.ended, applying]

theorem Advance.unfinished (h : Advance host loop loop') : loop.phase ≠ .finished := by
  intro hf
  have hb := h.before
  simp [Loop.ended, hf] at hb

/-- A reconciliation stays as it is or moves on. -/
theorem LoopMove.known (h : LoopMove host s s' e) (hk : s.loops[i]? = some loop) :
    ∃ loop', s'.loops[i]? = some loop' ∧ (loop' = loop ∨ Advance host loop loop') := by
  have hi : i < s.loops.length := (List.getElem?_eq_some_iff.mp hk).1
  have moved {j : Nat} {before after : Loop} (hj : s.loops[j]? = some before) (ha : Advance host before after)
      (hl : s'.loops = s.loops.set j after) :
      ∃ loop', s'.loops[i]? = some loop' ∧ (loop' = loop ∨ Advance host loop loop') := by
    by_cases he : j = i
    · subst he
      obtain rfl := Option.some.inj (hk.symm.trans hj)
      exact ⟨after, by rw [hl, List.getElem?_set_self hi], .inr ha⟩
    · exact ⟨loop, by rw [hl, List.getElem?_set_ne he, hk], .inl rfl⟩
  cases h with
  | connected loops | idle loops => exact ⟨loop, loops ▸ hk, .inl rfl⟩
  | began authorization loops =>
    refine ⟨loop, ?_, .inl rfl⟩
    rw [loops, List.getElem?_append_left hi, hk]
  | responded before known fetching loops => exact moved known (.responded _ fetching) loops
  | applied before known remote rows page applying loops => exact moved known (.applied _ applying) loops

/-- Where a reconciliation comes from. -/
theorem LoopMove.origin (h : LoopMove host s s' e) (hk : s'.loops[i]? = some loop') :
    (∃ loop, s.loops[i]? = some loop ∧ (loop' = loop ∨ Advance host loop loop')) ∨
      ∃ authorization, loop' = { begun := s.connects, authorization := authorization } := by
  have hknown {loop : Loop} (hi : s.loops[i]? = some loop) :
      ∃ loop, s.loops[i]? = some loop ∧ (loop' = loop ∨ Advance host loop loop') := by
    obtain ⟨loop₁, hk₁, hm⟩ := h.known hi
    obtain rfl := Option.some.inj (hk.symm.trans hk₁)
    exact ⟨loop, hi, hm⟩
  cases hi : s.loops[i]? with
  | some loop => exact .inl (hi ▸ hknown hi)
  | none =>
    have hlen := List.getElem?_eq_none_iff.mp hi
    have hlen' : i < s'.loops.length := (List.getElem?_eq_some_iff.mp hk).1
    cases h with
    | began authorization loops =>
      rw [loops, List.getElem?_append_right hlen, List.getElem?_singleton] at hk
      split_ifs at hk
      exact .inr ⟨authorization, (Option.some.inj hk).symm⟩
    | connected loops | idle loops => exact absurd (loops ▸ hlen') (not_lt.mpr hlen)
    | responded before known fetching loops | applied before known remote rows page applying loops =>
      rw [loops, List.length_set] at hlen'
      exact absurd hlen' (not_lt.mpr hlen)

theorem readyAfter_opens {ready : Bool} (h : readyAfter ready loop = true) (hr : ready = false) :
    loop.phase = .finished := by
  unfold readyAfter at h
  split at h <;> simp_all

/-- Delivery opens in the step in which a reconciliation finishes. -/
theorem LoopMove.opens (h : LoopMove host s s' e) (hc : s.deliveryReady = false) (ho : s'.deliveryReady = true) :
    ∃ (i : Nat) (loop loop' : Loop), s.loops[i]? = some loop ∧ s'.loops[i]? = some loop' ∧
      Advance host loop loop' ∧
      loop'.phase = .finished := by
  cases h with
  | connected loops closed => exact absurd (closed.symm.trans ho) (by decide)
  | idle loops ready => exact absurd (hc.symm.trans (ready.symm.trans ho)) (by decide)
  | began authorization loops ready => exact absurd (hc.symm.trans (ready ho)) (by decide)
  | responded loop known fetching loops ready =>
    refine ⟨_, loop, _, known, ?_, .responded _ fetching, readyAfter_opens (ready.symm.trans ho) hc⟩
    rw [loops, List.getElem?_set_self (List.getElem?_eq_some_iff.mp known).1]
  | applied loop known remote rows page applying loops ready =>
    refine ⟨_, loop, _, known, ?_, .applied _ applying, readyAfter_opens (ready.symm.trans ho) hc⟩
    rw [loops, List.getElem?_set_self (List.getElem?_eq_some_iff.mp known).1]

end Moves
end PuffoAgent.Reminders
