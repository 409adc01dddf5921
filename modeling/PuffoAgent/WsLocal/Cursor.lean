import PuffoAgent.WsLocal.Admission

/-! What a ws-local session does with the messages it is given: the cursor moves over the bundles in the order in which
they went out, and whatever has not come back is still in the queue. -/
namespace PuffoAgent.WsLocal
open Machine Text

variable {μ T : Type} {setup : Setup μ T} {s s' : Session μ T} {x : Seen μ T}

def Seen.sentBundle : Seen μ T → Option (Bundle μ)
  | .sent (.sendBundle b) => some b
  | _ => none

def Seen.ackedBundle : Seen μ T → Option (Bundle μ)
  | .acked b => some b
  | _ => none

def Seen.endedBundle : Seen μ T → Option (Bundle μ)
  | .ended b => some b
  | _ => none

/-- The bundles that went out. -/
def Session.sentBundles (s : Session μ T) : List (Bundle μ) := s.log.filterMap Seen.sentBundle

/-- The bundles that the cursor has moved past. -/
def Session.ackedBundles (s : Session μ T) : List (Bundle μ) := s.log.filterMap Seen.ackedBundle

/-- The bundles that the queue has given up to an end frame. -/
def Session.endedBundles (s : Session μ T) : List (Bundle μ) := s.log.filterMap Seen.endedBundle

section Trail

/-- A bundle that has ended and that the cursor has yet to move past. -/
def Wait.unsettled : Wait μ → Option (Bundle μ)
  | .beginEnd b | .endTurn b => some b
  | _ => none

/-- The bundles that went out: those behind the cursor, the one that is being closed and the one in flight. -/
def Session.Trail (s : Session μ T) : Prop :=
  ∃ rest, s.sentBundles = s.ackedBundles ++ s.wait.unsettled.toList ++ rest ∧
    (s.alive = true → rest = s.queue.inflight.toList)

theorem Session.Trail.keep (h : s.Trail) (hsent : s'.sentBundles = s.sentBundles) (hacked : s'.ackedBundles = s.ackedBundles)
    (hw : s'.wait.unsettled = s.wait.unsettled)
    (hq : s'.alive = true → s.alive = true ∧ s'.queue.inflight = s.queue.inflight) : s'.Trail := by
  obtain ⟨rest, hs, hrest⟩ := h
  refine ⟨rest, by rw [hsent, hacked, hw, hs], fun ha => ?_⟩
  obtain ⟨halive, hfl⟩ := hq ha
  rw [hrest halive, hfl]

/-- A session that is dead may stop anywhere. -/
theorem Session.Trail.dead (h : s.Trail) (hsent : s'.sentBundles = s.sentBundles) (hacked : s'.ackedBundles = s.ackedBundles)
    (hw : s'.wait.unsettled = none) (ha : s'.alive = false) : s'.Trail := by
  obtain ⟨rest, hs, -⟩ := h
  refine ⟨s.wait.unsettled.toList ++ rest, ?_, fun halive => ?_⟩
  · rw [hsent, hacked, hw, hs, Option.toList_none, List.append_nil, List.append_assoc]
  · rw [ha] at halive
    cases halive

theorem die_lists (setup : Setup μ T) (s : Session μ T) (reason : String) : (s.die setup reason).sentBundles = s.sentBundles ∧
    (s.die setup reason).ackedBundles = s.ackedBundles ∧ (s.die setup reason).endedBundles = s.endedBundles := by
  unfold Session.die
  split
  · exact ⟨rfl, rfl, rfl⟩
  · simp [Session.sentBundles, Session.ackedBundles, Session.endedBundles, Session.say, Session.rollback, Seen.sentBundle,
      Seen.ackedBundle, Seen.endedBundle]

theorem Session.Trail.stop (h : s.Trail) : (s.stop setup).Trail := by
  obtain ⟨hsent, hacked, -⟩ := die_lists setup s "connection closed"
  exact h.dead hsent hacked rfl (die_alive setup s _)

theorem Session.Trail.goOn (h : s.Trail) (hw : s.alive = true → s.wait.unsettled = none) : (s.goOn setup).Trail := by
  unfold Session.goOn
  split
  · rename_i ha
    exact h.keep rfl rfl (hw ha).symm fun ha => ⟨ha, rfl⟩
  · exact h.stop

theorem Session.Trail.die (h : s.Trail) (reason : String) : (s.die setup reason).Trail := by
  obtain ⟨hsent, hacked, -⟩ := die_lists setup s reason
  refine h.keep hsent hacked (by rw [die_wait]) fun ha => ?_
  rw [die_alive] at ha
  cases ha

/-- An entry that moves no bundle. -/
theorem Session.Trail.say (h : s.Trail) (hsent : x.sentBundle = none) (hacked : x.ackedBundle = none) : (s.say x).Trail := by
  refine h.keep ?_ ?_ rfl fun ha => ⟨ha, rfl⟩
  · simp [Session.sentBundles, Session.say, hsent]
  · simp [Session.ackedBundles, Session.say, hacked]

theorem Session.Trail.pump (h : s.Trail) : s.pump.Trail := by
  unfold Session.pump
  split
  · exact h
  · rename_i hnot
    obtain ⟨halive, hnone⟩ := not_or.1 hnot
    have halive : s.alive = true := by simpa using halive
    have hnone : s.queue.inflight = none := by simpa using hnone
    split
    · rename_i queue b hsend
      obtain ⟨-, -, -, rfl⟩ := nextToSend_eq hsend
      obtain ⟨rest, hs, hrest⟩ := h
      obtain rfl : rest = [] := by rw [hrest halive, hnone]; rfl
      refine ⟨[b], ?_, fun _ => rfl⟩
      have hone : Session.sentBundles (Session.say { s with queue := { s.queue with
          receiving := s.queue.receiving.delete (·.key = b.key), inflight := some b } } (.sent (.sendBundle b))) =
          s.sentBundles ++ [b] := by
        simp [Session.sentBundles, Session.say, Seen.sentBundle]
      have hacked : Session.ackedBundles (Session.say { s with queue := { s.queue with
          receiving := s.queue.receiving.delete (·.key = b.key), inflight := some b } } (.sent (.sendBundle b))) =
          s.ackedBundles := by
        simp [Session.ackedBundles, Session.say, Seen.ackedBundle]
      rw [hone, hacked, hs, List.append_nil]
      rfl
    · exact h

/-- The bundle in flight comes back. -/
theorem Session.Trail.close (h : s.Trail) {b : Bundle μ} (ha : s.alive = true) (hw : s.wait.unsettled = none)
    (hfl : s.queue.inflight = some b) (hsent : s'.sentBundles = s.sentBundles) (hacked : s'.ackedBundles = s.ackedBundles)
    (hw' : s'.wait.unsettled = some b) (hq : s'.queue.inflight = none) : s'.Trail := by
  obtain ⟨rest, hs, hrest⟩ := h
  refine ⟨[], ?_, fun _ => by rw [hq]; rfl⟩
  rw [hsent, hacked, hw', hs, hrest ha, hw, hfl]
  simp

/-- The cursor moves past the bundle that has ended. -/
theorem Session.Trail.settle (h : s.Trail) {b : Bundle μ} (hw : s.wait.unsettled = some b) : (s.turnEnded b).Trail := by
  obtain ⟨rest, hs, hrest⟩ := h
  refine ⟨rest, ?_, hrest⟩
  have hsent : (s.turnEnded b).sentBundles = s.sentBundles := by
    simp [Session.sentBundles, Session.turnEnded, Session.say, Seen.sentBundle]
  have hacked : (s.turnEnded b).ackedBundles = s.ackedBundles ++ [b] := by
    simp [Session.ackedBundles, Session.turnEnded, Session.say, Seen.ackedBundle]
  rw [hsent, hacked, hs, hw]
  simp [Session.turnEnded, Session.say, Wait.unsettled]

theorem Session.Trail.endTurn (h : s.Trail) {b : Bundle μ} (hw : s.wait.unsettled = some b) : (s.endTurn setup b).Trail := by
  refine Session.Trail.say ?_ rfl rfl
  exact h.keep rfl rfl hw.symm fun ha => ⟨ha, rfl⟩

section Handlers

theorem Session.Trail.onAck (h : s.Trail) (hw : s.wait = .recv) (bundleId : String) : (s.onAck setup bundleId).Trail := by
  have hrest : (s.goOn setup).Trail := h.goOn fun _ => by rw [hw]; rfl
  unfold Session.onAck
  split
  · split
    · refine Session.Trail.say (h.keep rfl rfl ?_ fun ha => ⟨ha, rfl⟩) rfl rfl
      rw [hw]
      rfl
    · exact hrest
  · exact hrest

theorem Session.Trail.onAdmittedFrame (h : s.Trail) (hw : s.wait = .recv) (bundleId turnId correlationKey : String) :
    (s.onAdmittedFrame setup bundleId turnId correlationKey).Trail := by
  have hrest : (s.goOn setup).Trail := h.goOn fun _ => by rw [hw]; rfl
  unfold Session.onAdmittedFrame
  split
  · split
    · refine h.keep rfl rfl ?_ fun ha => ⟨ha, rfl⟩
      rw [hw]
      rfl
    · exact hrest
  · exact hrest

theorem Session.Trail.onEnd (h : s.Trail) (hg : s.alive = false → s.queue.inflight = none) (hw : s.wait = .recv)
    (bundleId : String) : (s.onEnd setup bundleId).Trail := by
  have hopen : s.wait.unsettled = none := by rw [hw]; rfl
  have hrest : (s.goOn setup).Trail := h.goOn fun _ => hopen
  unfold Session.onEnd
  split
  · rename_i b hfl
    have halive : s.alive = true := by
      cases ha : s.alive with
      | true => rfl
      | false =>
        rw [hg ha] at hfl
        cases hfl
    split
    · exact hrest
    rename_i hid
    split
    · refine (h.say rfl rfl).keep rfl rfl ?_ fun ha => ⟨ha, rfl⟩
      exact hopen.symm
    have hack : (s.queue.ack bundleId).1.inflight = none := by
      rw [BundleQueue.ack, if_pos (by simpa [hfl] using hid)]
    -- from here on the bundle is back, whether its turn has been begun or not
    have hback (w : Wait μ) (hw' : w.unsettled = some b) :
        ({ s with queue := (s.queue.ack bundleId).1, wait := w }.say (.ended b) : Session μ T).Trail := by
      refine h.close halive hopen hfl ?_ ?_ hw' hack
      · simp [Session.sentBundles, Session.say, Seen.sentBundle]
      · simp [Session.ackedBundles, Session.say, Seen.ackedBundle]
    split
    · exact Session.Trail.say (hback (.beginEnd b) rfl) rfl rfl
    · exact Session.Trail.say (hback (.endTurn b) rfl) rfl rfl
  · exact hrest

theorem Session.Trail.runToolCall (h : s.Trail) (hw : s.wait = .recv) (commandId tool : String)
    (params : List (String × Json)) : (s.runToolCall setup commandId tool params).Trail := by
  have hopen : s.wait.unsettled = none := by rw [hw]; rfl
  unfold Session.runToolCall
  split
  · exact (h.say rfl rfl).keep rfl rfl hopen.symm fun ha => ⟨ha, rfl⟩
  · exact (h.say rfl rfl).goOn fun _ => hopen

theorem Session.Trail.receive (h : s.Trail) (hg : s.alive = false → s.queue.inflight = none) (hw : s.wait = .recv)
    (raw : String) : (s.receive setup raw).Trail := by
  unfold Session.receive
  generalize decodeInbound setup.host setup.floatIs raw = frame
  have hheard : ({ s with lastRx := s.clock }.say (.heard s.clock frame) : Session μ T).Trail :=
    (h.keep rfl rfl rfl fun ha => ⟨ha, rfl⟩).say rfl rfl
  cases frame with
  | error e => exact hheard.goOn fun _ => by rw [show (Session.wait _) = s.wait from rfl, hw]; rfl
  | ok frame =>
    cases frame with
    | ack bundleId => exact hheard.onAck hw bundleId
    | admitted bundleId turnId key => exact hheard.onAdmittedFrame hw bundleId turnId key
    | finish bundleId => exact hheard.onEnd hg hw bundleId
    | toolCall commandId tool params => exact hheard.runToolCall hw commandId tool params
    | ping => exact (hheard.say rfl rfl).goOn fun _ => by rw [show (Session.wait _) = s.wait from rfl, hw]; rfl
    | pong | connect => exact hheard.goOn fun _ => by rw [show (Session.wait _) = s.wait from rfl, hw]; rfl

theorem Session.Trail.admitted (h : s.Trail) {b : Bundle μ} {correlation : String} (hw : s.wait = .admitting b correlation) :
    (s.admitted setup b correlation).Trail := by
  have hopen : s.wait.unsettled = none := by rw [hw]; rfl
  have hnoted : ({ s with admissionCorrelations := correlation :: s.admissionCorrelations }.say (.admitted b correlation) :
      Session μ T).Trail := (h.keep rfl rfl rfl fun ha => ⟨ha, rfl⟩).say rfl rfl
  unfold Session.admitted
  split
  · exact hnoted.goOn fun _ => hopen
  · split
    · refine Session.Trail.say (hnoted.keep rfl rfl ?_ fun ha => ⟨ha, rfl⟩) rfl rfl
      exact hopen.symm
    · refine Session.Trail.goOn ?_ fun _ => hopen
      exact hnoted.keep rfl rfl rfl fun ha => ⟨ha, rfl⟩

theorem Session.Trail.began (h : s.Trail) (b : Bundle μ) (runId : String) :
    ({ s with inflightRunId := some runId }.say (.began b runId) : Session μ T).Trail :=
  Session.Trail.say (h.keep rfl rfl rfl fun ha => ⟨ha, rfl⟩) rfl rfl

theorem Session.Trail.begun (h : s.Trail) (hw : s.wait.unsettled = none) (b : Bundle μ) (runId : String) :
    (s.begun setup b runId).Trail := (h.began b runId).goOn fun _ => hw

theorem Session.Trail.answer (h : s.Trail) (runId : String) : (s.answer setup runId).Trail := by
  unfold Session.answer
  split
  · rename_i b hw
    exact h.begun (by rw [hw]; rfl) b runId
  · rename_i b hw
    exact h.begun (by rw [hw]; rfl) b runId
  · rename_i b correlation hw
    exact h.admitted hw
  · rename_i hw
    refine (h.die _).goOn fun _ => ?_
    rw [die_wait, hw]
    rfl
  · rename_i b hw
    refine (h.began b runId).endTurn ?_
    rw [show (Session.wait _) = s.wait from rfl, hw]
    rfl
  · rename_i b hw
    exact h.settle (by rw [hw]; rfl)
  · rename_i b hw
    refine Session.Trail.goOn (Session.Trail.pump (h.keep rfl rfl rfl fun ha => ⟨ha, rfl⟩)) fun _ => ?_
    rw [(pump_flags _).1, show (Session.wait _) = s.wait from rfl, hw]
    rfl
  · rename_i commandId result hw
    refine (h.say rfl rfl).goOn fun _ => ?_
    rw [show (Session.say _ _).wait = s.wait from rfl, hw]
    rfl
  · exact h

theorem Session.Trail.toolAnswer (h : s.Trail) (result : Except String Json) : (s.toolAnswer setup result).Trail := by
  unfold Session.toolAnswer
  split
  · rename_i commandId tool params hw
    have hopen : s.wait.unsettled = none := by rw [hw]; rfl
    cases result with
    | ok value =>
      have hshowing : ({ s with wait := .showing commandId value } : Session μ T).Trail :=
        h.keep rfl rfl hopen.symm fun ha => ⟨ha, rfl⟩
      exact hshowing.say rfl rfl
    | error reason => exact (h.say rfl rfl).goOn fun _ => hopen
  · exact h

theorem Session.Trail.enqueue (h : s.Trail) (rootId : String) (message : μ) (channelMeta : List (String × Json)) :
    (s.enqueue setup rootId message channelMeta).Trail :=
  h.keep rfl rfl rfl fun ha => ⟨ha, enqueue_inflight ..⟩

theorem Session.Trail.enqueueAll (messages : List μ) (h : s.Trail) (rootId : String) (channelMeta : List (String × Json)) :
    (messages.foldl (fun s message => s.enqueue setup rootId message channelMeta) s).Trail := by
  induction messages generalizing s with
  | nil => exact h
  | cons message messages ih => exact ih (h.enqueue rootId message channelMeta)

theorem Session.Trail.deliverPlanned (h : s.Trail) (planned : Planned μ) : (s.deliverPlanned setup planned).Trail := by
  unfold Session.deliverPlanned
  split
  · split
    · rename_i queue henq
      unfold BundleQueue.enqueueGlobal at henq
      split at henq
      · cases henq
      · cases henq
        exact Session.Trail.pump (h.keep rfl rfl rfl fun ha => ⟨ha, rfl⟩)
    · exact h
  · exact h

variable [AddCommGroup T] [LinearOrder T]

theorem Session.Trail.watchdogTick (h : s.Trail) (sent : Bool) : (s.watchdogTick setup sent).Trail := by
  unfold Session.watchdogTick
  split
  · exact h
  split
  · exact h.die _
  split
  · exact h.say rfl rfl
  · exact (h.say rfl rfl).die _

theorem Session.Trail.step (h : s.Trail) (hg : s.alive = false → s.queue.inflight = none) (e : Event μ T) :
    (s.step setup e).Trail := by
  cases e with
  | tick now =>
    rw [Session.step]
    split
    · exact h.keep rfl rfl rfl fun ha => ⟨ha, rfl⟩
    · exact h
  | deliver rootId message channelMeta => exact (h.enqueue rootId message channelMeta).pump
  | deliverBatch rootId messages channelMeta => exact (Session.Trail.enqueueAll messages h rootId channelMeta).pump
  | deliverPlanned planned => exact h.deliverPlanned planned
  | run =>
    rw [Session.step]
    split
    · rename_i hw
      have hpump : ({ s with lastRx := s.clock } : Session μ T).pump.Trail :=
        Session.Trail.pump (h.keep rfl rfl rfl fun ha => ⟨ha, rfl⟩)
      refine hpump.keep rfl rfl ?_ fun ha => ⟨ha, rfl⟩
      rw [(pump_flags _).1, show (Session.wait _) = s.wait from rfl, hw]
      rfl
    · exact h
  | receive raw =>
    rw [Session.step]
    split
    · rename_i hw
      exact h.receive hg hw raw
    · exact h
  | close =>
    rw [Session.step]
    split
    · exact h.stop
    · exact h
  | answer runId => exact h.answer runId
  | toolAnswer result => exact h.toolAnswer result
  | raise =>
    rw [Session.step]
    split
    · exact h
    · exact h
    · exact h.stop
  | watchdog sent =>
    rw [Session.step]
    split
    · exact h
    · exact h
    · exact h.watchdogTick sent

end Handlers

/-- The cursor moves over the bundles in the order in which they went out, and skips none. -/
theorem cursor_in_order [AddCommGroup T] [LinearOrder T] [IsOrderedAddMonoid T] (setup : Setup μ T)
    (hinj : Function.Injective setup.makeId) (now : T) (events : List (Event μ T)) :
    (run (Session.step setup) (.start now) events).ackedBundles <+: (run (Session.step setup) (.start now) events).sentBundles := by
  have hstart : (Session.start now : Session μ T).Sound setup ∧ (Session.start now : Session μ T).Trail :=
    ⟨sound_start now, [], rfl, fun _ => rfl⟩
  have hstep (s : Session μ T) (e : Event μ T) (h : s.Sound setup ∧ s.Trail) :
      (s.step setup e).Sound setup ∧ (s.step setup e).Trail := ⟨h.1.step hinj e, h.2.step h.1.wire.grounded e⟩
  obtain ⟨-, rest, hs, -⟩ :=
    @run_invariant _ _ (Session.step setup) (fun s => s.Sound setup ∧ s.Trail) _ hstart hstep events
  rw [hs, List.append_assoc]
  exact List.prefix_append _ _

/-- The cursor moves over the first of two bundles, and the second is in flight when the connection closes. -/
theorem cursor_in_order_close :
    (run (Session.step countedSetup) (.start 0) [.deliver "root" "m1" [], .run,
      .receive "\x7b\"type\": \"end\", \"bundle_id\": \"b\"\x7d", .answer "run1", .answer "", .deliver "root" "m2" [],
      .close]).ackedBundles <+:
    (run (Session.step countedSetup) (.start 0) [.deliver "root" "m1" [], .run,
      .receive "\x7b\"type\": \"end\", \"bundle_id\": \"b\"\x7d", .answer "run1", .answer "", .deliver "root" "m2" [],
      .close]).sentBundles :=
  cursor_in_order _ countedSetup_injective _ _

end Trail

section Refinement

/-- The messages that an event brings, with their roots. -/
def Event.messages : Event μ T → List (String × μ)
  | .deliver rootId message _ => [(rootId, message)]
  | .deliverBatch rootId messages _ => messages.map fun m => (rootId, m)
  | _ => []

/-- Where the messages of a session are: behind an end frame, with the tool, and in the queue. -/
def Session.held (s : Session μ T) : List (Bundle μ) := s.endedBundles ++ s.queue.inflight.toList ++ s.queue.receiving.rows

/-- The queue of the session, with what has gone in and what an end frame has taken out. -/
def Session.traced (s : Session μ T) (delivered : List (String × μ)) : Trace μ := ⟨s.queue, delivered, s.endedBundles⟩

/-- The queue of `s'` is that of `s` after calls by which the messages went in. -/
def Session.Follows (setup : Setup μ T) (ms : List (String × μ)) (s s' : Session μ T) : Prop :=
  ∃ ops : List (Op μ), ops.filterMap Op.message? = ms.map (·.2) ∧
    ∀ delivered, s'.traced (delivered ++ ms) = run (Trace.step setup.envelopeId) (s.traced delivered) ops

theorem follows_of_eq (hq : s'.queue = s.queue) (he : s'.endedBundles = s.endedBundles) : s.Follows setup [] s' := by
  refine ⟨[], rfl, fun delivered => ?_⟩
  rw [Session.traced, hq, he, List.append_nil]
  rfl

theorem Session.Follows.trans {s'' : Session μ T} {ms ms' : List (String × μ)} (h : s.Follows setup ms s')
    (h' : s'.Follows setup ms' s'') : s.Follows setup (ms ++ ms') s'' := by
  obtain ⟨ops, hm, hr⟩ := h
  obtain ⟨ops', hm', hr'⟩ := h'
  refine ⟨ops ++ ops', by rw [List.filterMap_append, hm, hm', List.map_append], fun delivered => ?_⟩
  rw [← List.append_assoc, hr', hr, run_append]

theorem follows_say (hx : x.endedBundle = none) : s.Follows setup [] (s.say x) :=
  follows_of_eq rfl (by simp [Session.endedBundles, Session.say, hx])

theorem follows_pump : s.Follows setup [] s.pump := by
  unfold Session.pump
  split
  · exact follows_of_eq rfl rfl
  · split
    · rename_i queue b hsend
      refine ⟨[.nextToSend], rfl, fun delivered => ?_⟩
      simp [Session.traced, Trace.step, hsend, Session.say, Session.endedBundles, Seen.endedBundle]
    · exact follows_of_eq rfl rfl

theorem follows_die (reason : String) : s.Follows setup [] (s.die setup reason) := by
  have hended := (die_lists setup s reason).2.2
  unfold Session.die at hended ⊢
  split
  · exact follows_of_eq rfl rfl
  · rename_i halive
    rw [if_neg halive] at hended
    refine ⟨[.rollback (setup.makeId s.ids)], rfl, fun delivered => ?_⟩
    rw [List.append_nil, Session.traced, hended]
    rfl

theorem follows_stop : s.Follows setup [] (s.stop setup) :=
  (follows_die "connection closed").trans (follows_of_eq rfl rfl)

theorem follows_goOn : s.Follows setup [] (s.goOn setup) := by
  unfold Session.goOn
  split
  · exact follows_of_eq rfl rfl
  · exact follows_stop

theorem follows_enqueue (rootId : String) (message : μ) (channelMeta : List (String × Json)) :
    s.Follows setup [(rootId, message)] (s.enqueue setup rootId message channelMeta) :=
  ⟨[.enqueue (setup.makeId s.ids) rootId message channelMeta], rfl, fun _ => rfl⟩

theorem follows_enqueueAll (setup : Setup μ T) (s : Session μ T) (rootId : String) (messages : List μ) (channelMeta : List (String × Json)) :
    s.Follows setup (messages.map fun m => (rootId, m))
      (messages.foldl (fun s message => s.enqueue setup rootId message channelMeta) s) := by
  induction messages generalizing s with
  | nil => exact follows_of_eq rfl rfl
  | cons message messages ih => exact (follows_enqueue rootId message channelMeta).trans (ih _)

section Frames

theorem follows_onEnd (bundleId : String) : s.Follows setup [] (s.onEnd setup bundleId) := by
  unfold Session.onEnd
  split
  · rename_i b hfl
    split
    · exact follows_goOn
    rename_i hid
    split
    · exact (follows_say rfl).trans (follows_of_eq rfl rfl)
    have hack : s.queue.ack bundleId = ({ s.queue with inflight := none }, some b) := by
      rw [BundleQueue.ack, if_pos (by simpa [hfl] using hid), hfl]
    have htaken : s.Follows setup [] ({ s with queue := (s.queue.ack bundleId).1 }.say (.ended b)) := by
      refine ⟨[.ack bundleId], rfl, fun delivered => ?_⟩
      simp [Session.traced, Trace.step, hack, Session.say, Session.endedBundles, Seen.endedBundle]
    split
    · exact htaken.trans (Session.Follows.trans (follows_of_eq rfl rfl) (follows_say rfl))
    · exact htaken.trans (Session.Follows.trans (follows_of_eq rfl rfl) (follows_say rfl))
  · exact follows_goOn

theorem follows_onAck (bundleId : String) : s.Follows setup [] (s.onAck setup bundleId) := by
  unfold Session.onAck
  split
  · split
    · exact Session.Follows.trans (follows_of_eq rfl rfl) (follows_say rfl)
    · exact follows_goOn
  · exact follows_goOn

theorem follows_onAdmittedFrame (bundleId turnId correlationKey : String) :
    s.Follows setup [] (s.onAdmittedFrame setup bundleId turnId correlationKey) := by
  unfold Session.onAdmittedFrame
  split
  · split
    · exact follows_of_eq rfl rfl
    · exact follows_goOn
  · exact follows_goOn

theorem follows_runToolCall (commandId tool : String) (params : List (String × Json)) :
    s.Follows setup [] (s.runToolCall setup commandId tool params) := by
  unfold Session.runToolCall
  split
  · exact (follows_say rfl).trans (follows_of_eq rfl rfl)
  · exact (follows_say rfl).trans follows_goOn

theorem follows_receive (raw : String) : s.Follows setup [] (s.receive setup raw) := by
  unfold Session.receive
  generalize decodeInbound setup.host setup.floatIs raw = frame
  have hheard : s.Follows setup [] ({ s with lastRx := s.clock }.say (.heard s.clock frame)) :=
    Session.Follows.trans (follows_of_eq rfl rfl) (follows_say rfl)
  refine hheard.trans ?_
  cases frame with
  | error e => exact follows_goOn
  | ok frame =>
    cases frame with
    | ack bundleId => exact follows_onAck bundleId
    | admitted bundleId turnId key => exact follows_onAdmittedFrame bundleId turnId key
    | finish bundleId => exact follows_onEnd bundleId
    | toolCall commandId tool params => exact follows_runToolCall commandId tool params
    | ping => exact (follows_say rfl).trans follows_goOn
    | pong | connect => exact follows_goOn

theorem follows_admitted (b : Bundle μ) (correlation : String) : s.Follows setup [] (s.admitted setup b correlation) := by
  have hnoted : s.Follows setup [] ({ s with admissionCorrelations := correlation :: s.admissionCorrelations }.say
      (.admitted b correlation)) := Session.Follows.trans (follows_of_eq rfl rfl) (follows_say rfl)
  unfold Session.admitted
  split
  · exact hnoted.trans follows_goOn
  · split
    · exact hnoted.trans (Session.Follows.trans (follows_of_eq rfl rfl) (follows_say rfl))
    · exact hnoted.trans (Session.Follows.trans (follows_of_eq rfl rfl) follows_goOn)

theorem follows_answer (runId : String) : s.Follows setup [] (s.answer setup runId) := by
  have hbegan (b : Bundle μ) : s.Follows setup [] ({ s with inflightRunId := some runId }.say (.began b runId)) :=
    Session.Follows.trans (follows_of_eq rfl rfl) (follows_say rfl)
  unfold Session.answer
  split
  · exact (hbegan _).trans follows_goOn
  · exact (hbegan _).trans follows_goOn
  · exact follows_admitted _ _
  · exact (follows_die _).trans follows_goOn
  · exact (hbegan _).trans (Session.Follows.trans (follows_of_eq rfl rfl) (follows_say rfl))
  · exact Session.Follows.trans (follows_of_eq rfl rfl) (follows_say rfl)
  · have hdown : s.Follows setup [] { s with inflightRunId := none, inflightAdmitted := false, admissionCorrelations := [] } :=
      follows_of_eq rfl rfl
    exact hdown.trans (follows_pump.trans follows_goOn)
  · exact (follows_say rfl).trans follows_goOn
  · exact follows_of_eq rfl rfl

theorem follows_toolAnswer (result : Except String Json) : s.Follows setup [] (s.toolAnswer setup result) := by
  unfold Session.toolAnswer
  split
  · cases result with
    | ok value => exact Session.Follows.trans (follows_of_eq rfl rfl) (follows_say rfl)
    | error reason => exact (follows_say rfl).trans follows_goOn
  · exact follows_of_eq rfl rfl

end Frames

variable [AddCommGroup T] [LinearOrder T]

theorem follows_watchdogTick (sent : Bool) : s.Follows setup [] (s.watchdogTick setup sent) := by
  unfold Session.watchdogTick
  split
  · exact follows_of_eq rfl rfl
  split
  · exact follows_die _
  split
  · exact follows_say rfl
  · exact (follows_say rfl).trans (follows_die _)

/-- Whatever happens to a session of a tool without planned turns is a run of its queue. -/
theorem follows_step (hv1 : v2Capabilities.all (· ∈ setup.capabilities) = false) (s : Session μ T) (e : Event μ T) :
    s.Follows setup e.messages (s.step setup e) := by
  cases e with
  | tick now =>
    rw [Session.step]
    split <;> exact follows_of_eq rfl rfl
  | deliver rootId message channelMeta => exact (follows_enqueue rootId message channelMeta).trans follows_pump
  | deliverBatch rootId messages channelMeta =>
    have hall := follows_enqueueAll setup s rootId messages channelMeta
    rw [Event.messages, ← List.append_nil (messages.map _)]
    exact hall.trans follows_pump
  | deliverPlanned planned =>
    rw [Session.step, Session.deliverPlanned, if_neg (by rw [hv1]; exact Bool.false_ne_true)]
    exact follows_of_eq rfl rfl
  | run =>
    rw [Session.step]
    split
    · have hran : s.Follows setup [] { s with lastRx := s.clock } := follows_of_eq rfl rfl
      exact hran.trans (follows_pump.trans (follows_of_eq rfl rfl))
    · exact follows_of_eq rfl rfl
  | receive raw =>
    rw [Session.step]
    split
    · exact follows_receive raw
    · exact follows_of_eq rfl rfl
  | close =>
    rw [Session.step]
    split
    · exact follows_stop
    · exact follows_of_eq rfl rfl
  | answer runId => exact follows_answer runId
  | toolAnswer result => exact follows_toolAnswer result
  | raise =>
    rw [Session.step]
    split
    · exact follows_of_eq rfl rfl
    · exact follows_of_eq rfl rfl
    · exact follows_stop
  | watchdog sent =>
    rw [Session.step]
    split
    · exact follows_of_eq rfl rfl
    · exact follows_of_eq rfl rfl
    · exact follows_watchdogTick sent

theorem follows_run (hv1 : v2Capabilities.all (· ∈ setup.capabilities) = false) (s : Session μ T) (events : List (Event μ T)) :
    s.Follows setup (events.flatMap Event.messages) (run (Session.step setup) s events) := by
  induction events generalizing s with
  | nil => exact follows_of_eq rfl rfl
  | cons e events ih => exact (follows_step hv1 s e).trans (ih _)

/-- A session whose tool takes no planned turns has every message of a root in one place, and in the order of arrival:
given back, then with the tool, then waiting. Failures, rollbacks and the end of the session lose, repeat and reorder
none of them, as long as no two have one envelope id. -/
theorem session_conserves (setup : Setup μ T) (hv1 : v2Capabilities.all (· ∈ setup.capabilities) = false) (now : T)
    (events : List (Event μ T)) (hd : ((events.flatMap Event.messages).map fun e => setup.envelopeId e.2).Nodup)
    (rootId : String) :
    (run (Session.step setup) (.start now) events).held.flatMap (·.under rootId) =
      ((events.flatMap Event.messages).filter (·.1 = rootId)).map (·.2) := by
  obtain ⟨ops, hm, hr⟩ := follows_run hv1 (.start now) events
  have hids : (Trace.ids setup.envelopeId (Trace.start : Trace μ) ++
      (ops.filterMap Op.message?).map setup.envelopeId).Nodup := by
    rw [hm, List.map_map]
    exact hd
  have hinv := (inv_start.run hids).1
  have hstart : (Session.start now : Session μ T).traced [] = Trace.start := rfl
  rw [← hstart, ← hr] at hinv
  exact hinv.inOrder rootId

/-- The connection closes with one bundle in flight and a message that arrived meanwhile. -/
theorem session_conserves_reconnect : (run (Session.step countedSetup) (.start 0) [.deliver "root" "m1" [], .run,
      .deliver "root" "m2" [], .close]).held.flatMap (·.under "root") = ["m1", "m2"] :=
  session_conserves countedSetup (by decide) 0
    [.deliver "root" "m1" [], .run, .deliver "root" "m2" [], .close] (by decide) "root"

end Refinement

end PuffoAgent.WsLocal
