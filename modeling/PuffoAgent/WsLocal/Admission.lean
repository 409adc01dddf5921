import PuffoAgent.WsLocal.Contract
import Mathlib.Algebra.Order.Group.Int

/-! Every run of a ws-local session keeps its contract, however the frames of the peer, the deliveries of the daemon, the
watchdog and the collaborators interleave. -/
namespace PuffoAgent.WsLocal
open Machine Text

variable {μ T : Type} [AddCommGroup T] [LinearOrder T] {setup : Setup μ T} {s : Session μ T} {x : Seen μ T}

section Steps
variable (hinj : Function.Injective setup.makeId)
include hinj

theorem Session.Sound.stop (h : s.Wire setup) (hp : s.lastRx ≤ s.clock) : (s.stop setup).Sound setup where
  wire := (h.die hinj _ fun hr => absurd hr (by decide)).congr rfl rfl rfl rfl le_rfl
  past := by
    obtain ⟨hclock, hrx⟩ := die_clocks setup s "connection closed"
    exact hrx.trans_le (hp.trans_eq hclock.symm)
  flags := fun ha => by
    have := die_alive setup s "connection closed"
    rw [show (s.stop setup).alive = (s.die setup "connection closed").alive from rfl, this] at ha
    cases ha
  at_ := trivial

/-- A handler returns: a living session waits for the next frame. -/
theorem Session.Sound.goOn (h : s.Wire setup) (hp : s.lastRx ≤ s.clock)
    (hf : s.alive = true → ({ s with wait := .recv } : Session μ T).Flags) : (s.goOn setup).Sound setup := by
  unfold Session.goOn
  split
  · rename_i ha
    exact ⟨h.congr rfl rfl rfl rfl le_rfl, hp, fun _ => hf ha, trivial⟩
  · exact Session.Sound.stop hinj h hp

omit hinj in
/-- An entry that is no turning point. -/
theorem Session.Sound.say (h : s.Sound setup) (hp : x.Plain) (hs : x.Silent) (hm : x.Mild)
    (ha : Allowed setup s.log x) : (s.say x).Sound setup :=
  ⟨h.wire.say hp ha, h.past, fun hal => (h.flags hal).say hs,
    h.at_.later rfl (.inr ⟨x, hm, rfl⟩) fun hal => ⟨hal, rfl, fun _ hb => hb⟩⟩

omit [AddCommGroup T] [LinearOrder T] hinj in
theorem pump_flags (s : Session μ T) : s.pump.wait = s.wait ∧ s.pump.inflightRunId = s.inflightRunId ∧
    s.pump.inflightAdmitted = s.inflightAdmitted := by
  unfold Session.pump
  split
  · exact ⟨rfl, rfl, rfl⟩
  · split <;> exact ⟨rfl, rfl, rfl⟩

omit hinj in
/-- Frames other than bundles. -/
theorem Session.Sound.frame (h : s.Sound setup) (frame : Outbound μ) (hf : ∀ b, frame ≠ .sendBundle b) :
    (s.say (.sent frame)).Sound setup := by
  cases frame with
  | sendBundle b => exact absurd rfl (hf b)
  | connected | error | toolResult | ping | pong => exact h.say trivial trivial trivial trivial

/-- The frame loop leaves a wait that has nothing to do with a turn. -/
theorem Session.Sound.rest (h : s.Sound setup) (hc : s.wait.closing = false)
    (hb : s.wait.beginning = none) : (s.goOn setup).Sound setup :=
  Session.Sound.goOn hinj h.wire h.past fun ha => (h.flags ha).rewait hc.symm (.inr hb)

theorem Session.Sound.die (h : s.Sound setup) (reason : String)
    (hl : reason = "liveness timeout" → ∀ t frame, Seen.heard t frame ∈ s.log → setup.ackTimeout < s.clock - t) :
    (s.die setup reason).Sound setup where
  wire := h.wire.die hinj reason hl
  past := by
    obtain ⟨hclock, hrx⟩ := die_clocks setup s reason
    exact hrx.trans_le (h.past.trans_eq hclock.symm)
  flags := fun ha => by
    rw [die_alive] at ha
    cases ha
  at_ := by
    refine h.at_.later (die_wait setup s reason) ?_ fun ha => ?_
    · unfold Session.die
      split
      · exact .inl rfl
      · exact .inr ⟨.dead s.clock reason, trivial, rfl⟩
    · rw [die_alive] at ha
      cases ha

section Deliveries

omit [AddCommGroup T] [LinearOrder T] hinj in
theorem enqueue_inflight (q : BundleQueue μ) (envelopeId : μ → String) (makeId rootId : String) (message : μ)
    (channelMeta : List (String × Json)) :
    (q.enqueue envelopeId makeId rootId message channelMeta).inflight = q.inflight := by
  unfold BundleQueue.enqueue
  split
  · split <;> rfl
  · rfl

theorem Session.Sound.enqueue (h : s.Sound setup) (rootId : String) (message : μ) (channelMeta : List (String × Json)) :
    (s.enqueue setup rootId message channelMeta).Sound setup := by
  have hq := enqueue_inflight s.queue setup.envelopeId (setup.makeId s.ids) rootId message channelMeta
  exact ⟨h.wire.enqueue hinj rootId message channelMeta, h.past, fun ha => (h.flags ha).requeue hq,
    h.at_.later rfl (.inl rfl) fun ha => ⟨ha, rfl, fun b hb => hq.trans hb⟩⟩

omit hinj in
theorem Session.Sound.pump (h : s.Sound setup) : s.pump.Sound setup where
  wire := h.wire.pump h.flags
  past := by
    unfold Session.pump
    split
    · exact h.past
    · split <;> exact h.past
  flags := by
    intro ha
    apply Session.Flags.pump
    apply h.flags
    unfold Session.pump at ha
    split at ha
    · exact ha
    · split at ha <;> exact ha
  at_ := by
    unfold Session.pump
    split
    · exact h.at_
    · rename_i hnot
      have hnone : s.queue.inflight = none := by simpa using (not_or.1 hnot).2
      split
      · rename_i queue b hsend
        refine h.at_.later rfl (.inr ⟨.sent (.sendBundle b), trivial, rfl⟩) fun ha => ⟨ha, rfl, fun c hc => ?_⟩
        rw [hnone] at hc
        cases hc
      · exact h.at_

theorem Session.Sound.enqueueAll (messages : List μ) (h : s.Sound setup) (rootId : String) (channelMeta : List (String × Json)) :
    (messages.foldl (fun s message => s.enqueue setup rootId message channelMeta) s).Sound setup := by
  induction messages generalizing s with
  | nil => exact h
  | cons message messages ih => exact ih (h.enqueue hinj rootId message channelMeta)

theorem Session.Sound.deliverPlanned (h : s.Sound setup) (planned : Planned μ) :
    (s.deliverPlanned setup planned).Sound setup := by
  unfold Session.deliverPlanned
  split
  · split
    · rename_i queue henq
      unfold BundleQueue.enqueueGlobal at henq
      split at henq
      · cases henq
      · rename_i hempty
        cases henq
        apply Session.Sound.pump
        exact ⟨h.wire.requeue (.inl rfl) (h.wire.numbered.put hinj rfl), h.past, fun ha => (h.flags ha).requeue rfl,
          h.at_.later rfl (.inl rfl) fun ha => ⟨ha, rfl, fun b hb => hb⟩⟩
    · exact h
  · exact h

end Deliveries

section Frames

theorem Session.Sound.onAck (h : s.Sound setup) (hw : s.wait = .recv) (bundleId : String) :
    (s.onAck setup bundleId).Sound setup := by
  have hrest : (s.goOn setup).Sound setup := h.rest hinj (by rw [hw]; rfl) (by rw [hw]; rfl)
  unfold Session.onAck
  split
  · rename_i b hfl
    split
    · rename_i hcond
      obtain ⟨-, hturn, hrun, -⟩ := hcond
      obtain ⟨hsent, hend⟩ := h.wire.flying b hfl
      have hback (ha : s.alive = true) := (h.flags ha).begun_back hrun (by rw [hw]; rfl)
      have hopen : ¬ Closed s.log b := fun hc => hend (ended_of_closed h.wire.licensed hc)
      refine ⟨?_, h.past, fun ha => ?_, List.mem_append_right _ (List.mem_singleton.2 rfl), fun _ => ⟨hfl, hturn⟩⟩
      · refine Session.Wire.say (h.wire.congr rfl rfl rfl rfl le_rfl) trivial ⟨hsent, hopen, fun hv => absurd hturn hv, ?_⟩
        intro hl hm
        exact hend (hback (h.wire.living.2 hl) b hm)
      · exact (h.flags ha).begin (by rw [hw]; rfl) rfl rfl hfl (hback ha)
    · exact hrest
  · exact hrest

theorem Session.Sound.onAdmittedFrame (h : s.Sound setup) (hw : s.wait = .recv) {now : T}
    {bundleId turnId correlationKey : String} (hturn : turnId ≠ "")
    (hheard : Seen.heard now (.ok (.admitted bundleId turnId correlationKey)) ∈ s.log) :
    (s.onAdmittedFrame setup bundleId turnId correlationKey).Sound setup := by
  have hrest : (s.goOn setup).Sound setup := h.rest hinj (by rw [hw]; rfl) (by rw [hw]; rfl)
  unfold Session.onAdmittedFrame
  split
  · rename_i b hfl
    split
    · rename_i hcond
      obtain ⟨rfl, rfl, hnew⟩ := hcond
      obtain ⟨hsent, hend⟩ := h.wire.flying b hfl
      refine ⟨h.wire.congr rfl rfl rfl rfl le_rfl, h.past, fun ha => ?_, ?_⟩
      · exact (h.flags ha).rewait (by rw [hw]; rfl) (.inr (by rw [hw]; rfl))
      · refine ⟨hsent, hturn, hend, fun hm => ?_, ⟨now, correlationKey, hheard, rfl⟩, fun _ => hfl⟩
        cases ha : s.alive with
        | false =>
          rw [h.wire.grounded ha] at hfl
          cases hfl
        | true =>
          rcases (h.flags ha).correlated b _ hm with hm | ⟨-, -, hm, -⟩
          · exact hend hm
          · exact hnew hm
    · exact hrest
  · exact hrest

section Closing

omit [AddCommGroup T] [LinearOrder T] hinj in
theorem runsFrom_messageId (first : Option String) (n : Nat) (eids : List String) :
    (Session.runsFrom setup first n eids).1.map (·.messageId) = eids.filter (· ≠ "") := by
  induction eids generalizing first n with
  | nil => rfl
  | cons eid eids ih =>
    unfold Session.runsFrom
    by_cases he : eid = ""
    · rw [if_pos he, ih, List.filter_cons_of_neg (by simp [he])]
    · rw [if_neg he, List.filter_cons_of_pos (by simp [he])]
      cases first with
      | none => exact congrArg (eid :: ·) (ih none (n + 1))
      | some runId => exact congrArg (eid :: ·) (ih none n)

omit [AddCommGroup T] [LinearOrder T] hinj in
/-- A batch is reported in full, under the run id of its first message. -/
theorem reports_runsFor {log : List (Seen μ T)} {b : Bundle μ}
    (h : Session.firstId setup b ≠ "" → ∃ runId, s.inflightRunId = some runId ∧ Seen.began b runId ∈ log) :
    Reports setup log b (s.runsFor setup b).1 := by
  refine ⟨runsFrom_messageId _ _ _, fun hfirst => ?_⟩
  obtain ⟨runId, hrun, hbegan⟩ := h hfirst
  refine ⟨runId, hbegan, fun hne => ?_⟩
  unfold Session.firstId at hfirst ⊢
  cases hm : b.messages with
  | nil =>
    rw [hm] at hfirst
    exact absurd rfl hfirst
  | cons m ms =>
    rw [hm] at hfirst
    have hfirst : setup.envelopeId m ≠ "" := hfirst
    have hrun' : s.inflightRunId.filter (· ≠ "") = some runId := by simp [hrun, Option.filter, hne]
    rw [Session.runsFor, hrun', hm, List.map_cons, Session.runsFrom, if_neg hfirst]
    rfl

omit hinj in
/-- The reporter is told of the end of a turn. -/
theorem Session.Sound.endTurn (h : s.Wire setup) (hp : s.lastRx ≤ s.clock) {b : Bundle μ} (hend : Seen.ended b ∈ s.log)
    (hopen : ¬ Closed s.log b) (hrep : Reports setup s.log b (s.runsFor setup b).1)
    (hf : s.alive = true → ({ s with wait := .endTurn b } : Session μ T).Flags) : (s.endTurn setup b).Sound setup := by
  refine ⟨?_, hp, fun ha => ?_, ?_⟩
  · exact Session.Wire.say (h.congr rfl rfl rfl rfl le_rfl) trivial ⟨hend, hopen, hrep⟩
  · have hflags := hf ha
    exact Session.Flags.say ⟨hflags.sent, hflags.begun, hflags.ran, hflags.shown, hflags.correlated⟩ trivial
  · refine ⟨⟨_, List.mem_append_right _ (List.mem_singleton.2 rfl)⟩, fun hm => ?_⟩
    rcases List.mem_append.1 hm with hm | hm
    · exact hopen (closed_of_acked h.licensed hm)
    · cases List.mem_singleton.1 hm

theorem Session.Sound.onEnd (h : s.Sound setup) (hw : s.wait = .recv) {now : T} {bundleId : String}
    (hheard : Seen.heard now (.ok (.finish bundleId)) ∈ s.log) : (s.onEnd setup bundleId).Sound setup := by
  have hcalm : s.wait.closing = false := by rw [hw]; rfl
  have hrest : (s.goOn setup).Sound setup := h.rest hinj hcalm (by rw [hw]; rfl)
  unfold Session.onEnd
  split
  · rename_i b hfl
    split
    · exact hrest
    rename_i hid
    obtain rfl : b.bundleId = bundleId := not_not.1 hid
    split
    · have hs := h.frame (.error "v2 bundle ended before explicit admission") fun b he => by cases he
      exact ⟨hs.wire.congr rfl rfl rfl rfl le_rfl, hs.past,
        fun ha => (hs.flags ha).rewait hcalm.symm (.inr (by rw [show (s.say _).wait = s.wait from rfl, hw]; rfl)), trivial⟩
    rename_i hadm
    have halive : s.alive = true := by
      cases ha : s.alive with
      | false =>
        rw [h.wire.grounded ha] at hfl
        cases hfl
      | true => rfl
    have hf := h.flags halive
    obtain ⟨hsent, hend⟩ := h.wire.flying b hfl
    have hopen : ¬ Closed s.log b := fun hc => hend (ended_of_closed h.wire.licensed hc)
    have hshown : b.turnId ≠ "" → WasAdmitted s.log b := by
      intro hv
      have hflag : s.inflightAdmitted = true := by simpa using not_and.1 hadm hv
      obtain ⟨c, hc, hwas⟩ := hf.shown hcalm hflag
      obtain rfl : b = c := Option.some.inj (hfl.symm.trans hc)
      exact hwas
    have hack : (s.queue.ack b.bundleId).1 = { s.queue with inflight := none } := by
      simp [BundleQueue.ack, hfl]
    -- the queue gives the bundle up, and everything that was sent is back
    have htaken : ({ s with queue := (s.queue.ack b.bundleId).1 }.say (.ended b) : Session μ T).Wire setup := by
      refine Session.Wire.note (h.wire.requeue (.inr (by rw [hack])) (by rw [hack]; exact h.wire.numbered))
        ⟨h.wire.living.1 halive, hsent, hend, hshown, now, hheard⟩ rfl (fun now reason he => by cases he) ?_
        fun t frame he => by cases he
      intro c hc
      rw [show (Session.queue _).inflight = none from congrArg BundleQueue.inflight hack] at hc
      cases hc
    have hback : ∀ c, WasSent (s.log ++ [.ended b]) c → Seen.ended c ∈ s.log ++ [Seen.ended b] := by
      intro c hc
      rcases List.mem_append.1 hc with hc | hc
      · rcases hf.sent c hc with hc | hc
        · exact List.mem_append_left _ hc
        · obtain rfl : b = c := Option.some.inj (hfl.symm.trans hc)
          exact List.mem_append_right _ (List.mem_singleton.2 rfl)
      · cases List.mem_singleton.1 hc
    have hmem : Seen.ended b ∈ s.log ++ [Seen.ended b] := List.mem_append_right _ (List.mem_singleton.2 rfl)
    have hopen' : ¬ Closed (s.log ++ [Seen.ended b]) b := not_closed_append hopen fun runs he => by cases he
    split
    · rename_i hbegin
      have hback' := hf.begun_back hbegin.1 (by rw [hw]; rfl) b
      have hwire : (Session.say { Session.say { s with queue := (s.queue.ack b.bundleId).1 } (.ended b) with
          wait := .beginEnd b } (.beginTurn b)).Wire setup := by
        refine Session.Wire.say (htaken.congr rfl rfl rfl rfl le_rfl) trivial
          ⟨List.mem_append_left _ hsent, hopen', fun hv => (hshown hv).imp fun c hc => List.mem_append_left _ hc, ?_⟩
        exact fun _ => notMem_append (fun hm => hend (hback' hm)) fun he => by cases he
      refine ⟨hwire, h.past, fun ha => flags_of_back hwire.licensed (fun c hc => ?_) rfl, List.mem_append_left _ hmem,
        List.mem_append_right _ (List.mem_singleton.2 rfl), not_closed_append hopen' fun runs he => by cases he⟩
      rcases List.mem_append.1 hc with hc | hc
      · exact List.mem_append_left _ (hback c hc)
      · cases List.mem_singleton.1 hc
    · rename_i hbegin
      refine Session.Sound.endTurn htaken h.past hmem hopen' (reports_runsFor fun hfirst => ?_)
        fun _ => flags_of_back htaken.licensed hback rfl
      cases hrun : s.inflightRunId with
      | none => exact absurd ⟨hrun, hfirst⟩ hbegin
      | some runId =>
        obtain ⟨c, hc, hbegan, -⟩ := hf.ran hcalm runId hrun
        obtain rfl : b = c := Option.some.inj (hfl.symm.trans hc)
        exact ⟨runId, rfl, List.mem_append_left _ hbegan⟩
  · exact hrest

end Closing

theorem Session.Sound.runToolCall (h : s.Sound setup) (hc : s.wait.closing = false) (hb : s.wait.beginning = none)
    (commandId tool : String) (params : List (String × Json)) : (s.runToolCall setup commandId tool params).Sound setup := by
  unfold Session.runToolCall
  split
  · have hs : (s.say (.toolCall tool params)).Sound setup := h.say trivial trivial trivial trivial
    exact ⟨hs.wire.congr rfl rfl rfl rfl le_rfl, hs.past, fun ha => (hs.flags ha).rewait hc.symm (.inr hb), trivial⟩
  · have hs := h.frame (.toolResult commandId (.error ("unknown tool: " ++ setup.repr (.str tool)))) fun b he => by
      cases he
    exact hs.rest hinj hc hb

theorem Session.Sound.dispatch (h : s.Sound setup) (hw : s.wait = .recv) {now : T} {frame : Inbound}
    (hheard : Seen.heard now (.ok frame) ∈ s.log)
    (hturn : ∀ bundleId turnId key, frame = .admitted bundleId turnId key → turnId ≠ "") :
    (s.dispatch setup frame).Sound setup := by
  have hcalm : s.wait.closing = false := by rw [hw]; rfl
  have hbegin : s.wait.beginning = none := by rw [hw]; rfl
  cases frame with
  | ack bundleId => exact h.onAck hinj hw bundleId
  | admitted bundleId turnId key => exact h.onAdmittedFrame hinj hw (hturn _ _ _ rfl) hheard
  | finish bundleId => exact h.onEnd hinj hw hheard
  | toolCall commandId tool params => exact h.runToolCall hinj hcalm hbegin commandId tool params
  | ping => exact (h.frame .pong fun b he => by cases he).rest hinj hcalm hbegin
  | pong | connect => exact h.rest hinj hcalm hbegin

theorem Session.Sound.receive (h : s.Sound setup) (hw : s.wait = .recv) (raw : String) :
    (s.receive setup raw).Sound setup := by
  have hcalm : s.wait.closing = false := by rw [hw]; rfl
  have hbegin : s.wait.beginning = none := by rw [hw]; rfl
  unfold Session.receive
  generalize hframe : decodeInbound setup.host setup.floatIs raw = frame
  have hs : ({ s with lastRx := s.clock }.say (.heard s.clock frame) : Session μ T).Sound setup := by
    refine ⟨?_, le_rfl, fun ha => ?_, ?_⟩
    · refine Session.Wire.note (h.wire.congr rfl rfl rfl rfl h.past) trivial rfl (fun now reason he => by cases he)
        (fun b _ he => by cases he) fun t f he => ?_
      cases he
      exact le_rfl
    · have hflags := h.flags ha
      exact Session.Flags.say ⟨hflags.sent, hflags.begun, hflags.ran, hflags.shown, hflags.correlated⟩ trivial
    · exact h.at_.later rfl (.inr ⟨.heard s.clock frame, trivial, rfl⟩) fun ha => ⟨ha, rfl, fun b hb => hb⟩
  cases frame with
  | error e => exact hs.rest hinj hcalm hbegin
  | ok frame =>
    refine hs.dispatch hinj hw (List.mem_append_right _ (List.mem_singleton.2 rfl)) fun bundleId turnId key he => ?_
    subst he
    exact decodeInbound_admitted hframe

end Frames

section Answers

theorem Session.Sound.begun (h : s.Sound setup) {b : Bundle μ} (hc : s.wait.closing = false)
    (hbegun : Seen.beginTurn b ∈ s.log)
    (hfl : s.alive = true → s.queue.inflight = some b ∧ (b.turnId ≠ "" → s.inflightAdmitted = true)) (runId : String) :
    (s.begun setup b runId).Sound setup := by
  refine Session.Sound.goOn hinj (Session.Wire.say (h.wire.congr rfl rfl rfl rfl le_rfl) trivial hbegun) h.past fun ha => ?_
  obtain ⟨hfl, hv⟩ := hfl ha
  have hflags := (h.flags ha).began runId hfl hv
  exact hflags.rewait hc.symm (.inl (Option.some_ne_none runId))

theorem Session.Sound.admitted (h : s.Sound setup) {b : Bundle μ} {correlation : String}
    (hw : s.wait = .admitting b correlation) : (s.admitted setup b correlation).Sound setup := by
  have hat := h.at_
  rw [hw] at hat
  obtain ⟨hsent, hturn, hend, hnew, ⟨now, key, hheard, hkey⟩, hfl⟩ := hat
  have hcalm : s.wait.closing = false := by rw [hw]; rfl
  have hbegin : s.wait.beginning = none := by rw [hw]; rfl
  have hwire : ({ s with admissionCorrelations := correlation :: s.admissionCorrelations }.say
      (.admitted b correlation) : Session μ T).Wire setup :=
    Session.Wire.say (h.wire.congr rfl rfl rfl rfl le_rfl) trivial ⟨hsent, hturn, hend, hnew, now, key, hheard, hkey⟩
  unfold Session.admitted
  split
  · rename_i hflag
    refine Session.Sound.goOn hinj hwire h.past fun ha => ?_
    exact ((h.flags ha).admits correlation s.inflightAdmitted hcalm (hfl ha) hflag).rewait hcalm.symm (.inr hbegin)
  · rename_i hflag
    have hadmits (ha : s.alive = true) := (h.flags ha).admits correlation true hcalm (hfl ha) rfl
    have hwas : WasAdmitted (s.log ++ [Seen.admitted b correlation]) b :=
      ⟨correlation, List.mem_append_right _ (List.mem_singleton.2 rfl)⟩
    split
    · have hopen : ¬ Closed (s.log ++ [Seen.admitted b correlation]) b :=
        not_closed_append (fun hc => hend (ended_of_closed h.wire.licensed hc)) fun runs he => by cases he
      -- an unadmitted bundle with a turn has no run id yet
      have hback (ha : s.alive = true) : ∀ c, Seen.beginTurn c ∈ s.log → Seen.ended c ∈ s.log := by
        refine (h.flags ha).begun_back ?_ hbegin
        cases hrun : s.inflightRunId with
        | none => rfl
        | some runId =>
          obtain ⟨c, hc, -, hv⟩ := (h.flags ha).ran hcalm runId hrun
          obtain rfl : b = c := Option.some.inj ((hfl ha).symm.trans hc)
          exact absurd (hv hturn) hflag
      have hback' (ha : s.alive = true) (c : Bundle μ) (hc : Seen.beginTurn c ∈ s.log ++ [Seen.admitted b correlation]) :
          Seen.ended c ∈ s.log ++ [Seen.admitted b correlation] := by
        rcases List.mem_append.1 hc with hc | hc
        · exact List.mem_append_left _ (hback ha c hc)
        · cases List.mem_singleton.1 hc
      refine ⟨?_, h.past, fun ha => (hadmits ha).begin hcalm rfl rfl (hfl ha) (hback' ha),
        List.mem_append_right _ (List.mem_singleton.2 rfl), fun ha => ⟨hfl ha, rfl⟩⟩
      refine Session.Wire.say (hwire.congr rfl rfl rfl rfl le_rfl) trivial
        ⟨List.mem_append_left _ hsent, hopen, fun _ => hwas, fun hl hm => ?_⟩
      have halive : s.alive = true := h.wire.living.2 hl.of_append
      rcases List.mem_append.1 (hback' halive b hm) with hm | hm
      · exact hend hm
      · cases List.mem_singleton.1 hm
    · refine Session.Sound.goOn hinj (hwire.congr rfl rfl rfl rfl le_rfl) h.past fun ha => ?_
      exact (hadmits ha).rewait hcalm.symm (.inr hbegin)

omit hinj in
theorem Session.Sound.endBegun (h : s.Sound setup) {b : Bundle μ} (hw : s.wait = .beginEnd b) (runId : String) :
    (s.endBegun setup b runId).Sound setup := by
  have hat := h.at_
  rw [hw] at hat
  obtain ⟨hend, hbegun, hopen⟩ := hat
  have hclosing : s.wait.closing = true := by rw [hw]; rfl
  have hmem : Seen.began b runId ∈ s.log ++ [Seen.began b runId] := List.mem_append_right _ (List.mem_singleton.2 rfl)
  have hwire : ({ s with inflightRunId := some runId }.say (.began b runId) : Session μ T).Wire setup :=
    Session.Wire.say (h.wire.congr rfl rfl rfl rfl le_rfl) trivial hbegun
  refine Session.Sound.endTurn hwire h.past (List.mem_append_left _ hend)
    (not_closed_append hopen fun runs he => by cases he) (reports_runsFor fun _ => ⟨runId, rfl, hmem⟩) fun ha => ?_
  have hflags := (h.flags ha).loosen hclosing (some runId) s.inflightAdmitted s.admissionCorrelations
  exact (hflags.say (x := .began b runId) trivial).rewait hclosing.symm (.inl (Option.some_ne_none runId))

omit hinj in
theorem Session.Sound.turnEnded (h : s.Sound setup) {b : Bundle μ} (hw : s.wait = .endTurn b) : (s.turnEnded b).Sound setup := by
  have hat := h.at_
  rw [hw] at hat
  have hclosing : s.wait.closing = true := by rw [hw]; rfl
  refine ⟨Session.Wire.say (h.wire.congr rfl rfl rfl rfl le_rfl) trivial hat, h.past, fun ha => ?_, trivial⟩
  exact Session.Flags.say ((h.flags ha).rewait hclosing.symm (.inr (by rw [hw]; rfl))) trivial

theorem Session.Sound.turnClosed (h : s.Sound setup) {b : Bundle μ} (hw : s.wait = .acking b) :
    (s.turnClosed setup).Sound setup := by
  have hclosing : s.wait.closing = true := by rw [hw]; rfl
  have hdown : ({ s with inflightRunId := none, inflightAdmitted := false, admissionCorrelations := [] } :
      Session μ T).Sound setup :=
    ⟨h.wire.congr rfl rfl rfl rfl le_rfl, h.past, fun ha => (h.flags ha).loosen hclosing none false [], by
      change Session.At _ s.wait
      rw [hw]
      trivial⟩
  have hpump := hdown.pump
  refine Session.Sound.goOn hinj hpump.wire hpump.past fun ha => ?_
  obtain ⟨hwait, hrun, hadm⟩ := pump_flags
    ({ s with inflightRunId := none, inflightAdmitted := false, admissionCorrelations := [] } : Session μ T)
  exact (hpump.flags ha).reopen (by rw [hwait]; exact hclosing) hrun hadm

end Answers

theorem Session.Sound.answer (h : s.Sound setup) (runId : String) : (s.answer setup runId).Sound setup := by
  have hat := h.at_
  unfold Session.answer
  split
  · rename_i b hw
    rw [hw] at hat
    exact h.begun hinj (by rw [hw]; rfl) hat.1 (fun ha => ⟨(hat.2 ha).1, fun hv => absurd (hat.2 ha).2 hv⟩) runId
  · rename_i b hw
    rw [hw] at hat
    exact h.begun hinj (by rw [hw]; rfl) hat.1 (fun ha => ⟨(hat.2 ha).1, fun _ => (hat.2 ha).2⟩) runId
  · rename_i b correlation hw
    exact h.admitted hinj hw
  · rename_i hw
    have hs := h.die hinj "v2 bundle ended before explicit admission" fun hr => absurd hr (by decide)
    exact hs.rest hinj (by rw [die_wait, hw]; rfl) (by rw [die_wait, hw]; rfl)
  · rename_i b hw
    exact h.endBegun hw runId
  · rename_i b hw
    exact h.turnEnded hw
  · rename_i b hw
    exact h.turnClosed hinj hw
  · rename_i commandId result hw
    have hs := h.frame (.toolResult commandId (.ok result)) fun b he => by cases he
    exact hs.rest hinj (by rw [show (s.say _).wait = s.wait from rfl, hw]; rfl)
      (by rw [show (s.say _).wait = s.wait from rfl, hw]; rfl)
  · exact h

theorem Session.Sound.toolAnswer (h : s.Sound setup) (result : Except String Json) :
    (s.toolAnswer setup result).Sound setup := by
  unfold Session.toolAnswer
  split
  · rename_i commandId tool params hw
    have hcalm : s.wait.closing = false := by rw [hw]; rfl
    have hbegin : s.wait.beginning = none := by rw [hw]; rfl
    cases result with
    | ok value =>
      have hs : (s.say (.toolResult tool params value)).Sound setup := h.say trivial trivial trivial trivial
      exact ⟨hs.wire.congr rfl rfl rfl rfl le_rfl, hs.past, fun ha => (hs.flags ha).rewait hcalm.symm (.inr hbegin), trivial⟩
    | error reason => exact (h.frame (.toolResult commandId (.error reason)) fun b he => by cases he).rest hinj hcalm hbegin
  · exact h

theorem Session.Sound.watchdogTick [IsOrderedAddMonoid T] (h : s.Sound setup) (sent : Bool) :
    (s.watchdogTick setup sent).Sound setup := by
  unfold Session.watchdogTick
  split
  · exact h
  split
  · rename_i hlate
    refine h.die hinj "liveness timeout" fun _ t frame hm => ?_
    exact lt_of_lt_of_le hlate (sub_le_sub_left (h.wire.heard t frame hm) s.clock)
  have hping := h.frame .ping fun b he => by cases he
  split
  · exact hping
  · exact hping.die hinj "send failed" fun hr => absurd hr (by decide)

omit hinj in
/-- Times may be noted anew while they stay in order. -/
theorem Session.Sound.retime (h : s.Sound setup) (clock lastRx : T) (hrx : s.lastRx ≤ lastRx) (hle : lastRx ≤ clock) :
    ({ s with clock := clock, lastRx := lastRx } : Session μ T).Sound setup := by
  refine ⟨h.wire.congr rfl rfl rfl rfl hrx, hle, fun ha => ?_, h.at_.later rfl (.inl rfl) fun ha => ⟨ha, rfl, fun b hb => hb⟩⟩
  have hflags := h.flags ha
  exact ⟨hflags.sent, hflags.begun, hflags.ran, hflags.shown, hflags.correlated⟩

theorem Session.Sound.step [IsOrderedAddMonoid T] (h : s.Sound setup) (e : Event μ T) : (s.step setup e).Sound setup := by
  cases e with
  | tick now =>
    rw [Session.step]
    split
    · rename_i hle
      exact h.retime now s.lastRx le_rfl (h.past.trans hle)
    · exact h
  | deliver rootId message channelMeta => exact (h.enqueue hinj rootId message channelMeta).pump
  | deliverBatch rootId messages channelMeta =>
    exact (Session.Sound.enqueueAll hinj messages h rootId channelMeta).pump
  | deliverPlanned planned => exact h.deliverPlanned hinj planned
  | run =>
    rw [Session.step]
    split
    · rename_i hw
      have hpump := (h.retime s.clock s.clock h.past le_rfl).pump
      obtain ⟨hwait, -, -⟩ := pump_flags ({ s with lastRx := s.clock } : Session μ T)
      have hidle : ({ s with lastRx := s.clock } : Session μ T).pump.wait = .idle := hwait.trans hw
      exact ⟨hpump.wire.congr rfl rfl rfl rfl le_rfl, hpump.past,
        fun ha => (hpump.flags ha).rewait (by rw [hidle]; rfl) (.inr (by rw [hidle]; rfl)), trivial⟩
    · exact h
  | receive raw =>
    rw [Session.step]
    split
    · rename_i hw
      exact h.receive hinj hw raw
    · exact h
  | close =>
    rw [Session.step]
    split
    · exact Session.Sound.stop hinj h.wire h.past
    · exact h
  | answer runId => exact h.answer hinj runId
  | toolAnswer result => exact h.toolAnswer hinj result
  | raise =>
    rw [Session.step]
    split
    · exact h
    · exact h
    · exact Session.Sound.stop hinj h.wire h.past
  | watchdog sent =>
    rw [Session.step]
    split
    · exact h
    · exact h
    · exact h.watchdogTick hinj sent

end Steps

theorem sound_start (now : T) : (Session.start now : Session μ T).Sound setup where
  wire := {
    licensed := licensed_nil
    living := ⟨fun _ _ _ hm => (List.not_mem_nil hm).elim, fun _ => rfl⟩
    grounded := fun _ => rfl
    heard := fun _ _ hm => (List.not_mem_nil hm).elim
    flying := fun _ hb => by cases hb
    numbered := ⟨List.nodup_nil, fun _ hm => (List.not_mem_nil hm).elim⟩ }
  past := le_rfl
  flags := fun _ => {
    sent := fun _ hm => (List.not_mem_nil hm).elim
    begun := fun _ hm => (List.not_mem_nil hm).elim
    ran := fun _ _ hr => by cases hr
    shown := fun _ ha => by cases ha
    correlated := fun _ _ hm => (List.not_mem_nil hm).elim }
  at_ := trivial

/-- Whatever the order of frames, deliveries, ticks and answers, and whatever fails: a bundle goes out only when every
bundle before it is back, is admitted only by a frame that names it and its turn, ends once, and not before it has been
admitted if it has a turn; its turn is begun once while the session lives, the reporter hears of the end with one run for
each named message, and only then, once, does the cursor move. A session dies once, and sends no bundle after it. -/
theorem session_keeps_contract [IsOrderedAddMonoid T] (setup : Setup μ T) (hinj : Function.Injective setup.makeId) (now : T)
    (events : List (Event μ T)) : Licensed (Allowed setup) (run (Session.step setup) (.start now) events).log :=
  (run_invariant (sound_start now) (fun _ e h => h.step hinj e) events).wire.licensed

/-- The setup of a v1 tool whose bundle ids count up in unary. -/
def countedSetup : Setup String Int where
  envelopeId m := m
  capabilities := []
  ackTimeout := 60
  tools := []
  makeId n := String.ofList (List.replicate (n + 1) 'b')
  makeRunId n := String.ofList (List.replicate (n + 1) 'r')
  host := asciiHost
  repr value := value.dumps
  floatIs _ _ := false

theorem countedSetup_injective : Function.Injective countedSetup.makeId := by
  intro m n h
  have hlen := congrArg (fun s : String => s.toList.length) h
  simpa [countedSetup] using hlen

/-- A turn that is begun, and a peer that falls silent. -/
theorem session_keeps_contract_silent : Licensed (Allowed countedSetup)
    (run (Session.step countedSetup) (.start 0) [.deliver "root" "m1" [], .run,
      .receive "\x7b\"type\": \"ack\", \"bundle_id\": \"b\"\x7d", .answer "run1", .tick 100, .watchdog true]).log :=
  session_keeps_contract _ countedSetup_injective _ _

end PuffoAgent.WsLocal
