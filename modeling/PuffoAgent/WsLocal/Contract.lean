import PuffoAgent.WsLocal.Conservation
import PuffoAgent.WsLocal.Session

/-! The contract of a ws-local session with its tool and its reporter: what has to have happened before a bundle goes
out, before its turn begins and ends, and before the cursor moves past it. -/
namespace PuffoAgent.WsLocal
open Machine Text

variable {μ T : Type}

/-- No death is on record. -/
def Living (log : List (Seen μ T)) : Prop := ∀ now reason, Seen.dead now reason ∉ log

def WasSent (log : List (Seen μ T)) (b : Bundle μ) : Prop := Seen.sent (.sendBundle b) ∈ log

def WasAdmitted (log : List (Seen μ T)) (b : Bundle μ) : Prop := ∃ correlation, Seen.admitted b correlation ∈ log

def Closed (log : List (Seen μ T)) (b : Bundle μ) : Prop := ∃ runs, Seen.endTurnBatch b runs ∈ log

section Contract
variable [AddCommGroup T] [LinearOrder T] (setup : Setup μ T)

/-- One run for every named message, the first under the id that the turn was begun with. -/
def Reports (log : List (Seen μ T)) (b : Bundle μ) (runs : List TurnRun) : Prop :=
  runs.map (·.messageId) = (b.messages.map setup.envelopeId).filter (· ≠ "") ∧
  (Session.firstId setup b ≠ "" → ∃ runId, Seen.began b runId ∈ log ∧
    (runId ≠ "" → runs.head? = some ⟨runId, Session.firstId setup b, true⟩))

/-- What must stand in the log before an entry. -/
def Allowed (past : List (Seen μ T)) : Seen μ T → Prop
  | .sent (.sendBundle b) =>
    Living past ∧ ∀ b', WasSent past b' → .ended b' ∈ past ∧ b'.bundleId ≠ b.bundleId
  | .admitted b correlation =>
    WasSent past b ∧ b.turnId ≠ "" ∧ .ended b ∉ past ∧ .admitted b correlation ∉ past ∧
    ∃ now key, .heard now (.ok (.admitted b.bundleId b.turnId key)) ∈ past ∧ correlation = Session.correlationOf key
  | .beginTurn b =>
    WasSent past b ∧ ¬ Closed past b ∧ (b.turnId ≠ "" → WasAdmitted past b) ∧ (Living past → .beginTurn b ∉ past)
  | .began b _ => .beginTurn b ∈ past
  | .ended b =>
    Living past ∧ WasSent past b ∧ .ended b ∉ past ∧ (b.turnId ≠ "" → WasAdmitted past b) ∧
    ∃ now, .heard now (.ok (.finish b.bundleId)) ∈ past
  | .endTurnBatch b runs => .ended b ∈ past ∧ ¬ Closed past b ∧ Reports setup past b runs
  | .acked b => Closed past b ∧ .acked b ∉ past
  | .dead now reason =>
    Living past ∧ (reason = "liveness timeout" → ∀ t frame, .heard t frame ∈ past → setup.ackTimeout < now - t)
  | _ => True

end Contract

section Logs
variable {log : List (Seen μ T)} {x : Seen μ T} {b : Bundle μ}

/-- The id of a bundle that goes out. -/
def Seen.sentId : Seen μ T → Option String
  | .sent (.sendBundle b) => some b.bundleId
  | _ => none

theorem WasSent.mem_sentId (h : WasSent log b) : b.bundleId ∈ log.filterMap Seen.sentId :=
  List.mem_filterMap.2 ⟨_, h, rfl⟩

theorem Living.of_append (h : Living (log ++ [x])) : Living log := fun now reason hd => h now reason (List.mem_append_left _ hd)

theorem Living.append (h : Living log) (hx : ∀ now reason, x ≠ .dead now reason) : Living (log ++ [x]) := by
  intro now reason hd
  rcases List.mem_append.1 hd with hd | hd
  · exact h now reason hd
  · exact hx now reason (List.mem_singleton.1 hd).symm

end Logs

section Numbered
variable {name : Nat → String} {n : Nat} {ids ids' : List String}

/-- Different names, all of them among the first `n` that were given out. -/
structure Numbered (name : Nat → String) (n : Nat) (ids : List String) : Prop where
  distinct : ids.Nodup
  given : ∀ id ∈ ids, ∃ k < n, id = name k

theorem Numbered.subperm (h : Numbered name n ids) (hs : ids'.Subperm ids) : Numbered name n ids' := by
  obtain ⟨l, hl, hsub⟩ := hs
  exact ⟨hl.nodup_iff.1 (h.distinct.sublist hsub), fun id hid => h.given id (hsub.subset (hl.mem_iff.2 hid))⟩

theorem Numbered.cons (hinj : Function.Injective name) (h : Numbered name n ids) : Numbered name (n + 1) (name n :: ids) := by
  constructor
  · refine List.nodup_cons.2 ⟨fun hm => ?_, h.distinct⟩
    obtain ⟨k, hk, he⟩ := h.given _ hm
    exact absurd (hinj he) (Nat.ne_of_gt hk)
  · intro id hid
    rcases List.mem_cons.1 hid with rfl | hid
    · exact ⟨n, Nat.lt_succ_self n, rfl⟩
    · obtain ⟨k, hk, he⟩ := h.given id hid
      exact ⟨k, Nat.lt_succ_of_lt hk, he⟩

end Numbered

section Rows
variable {q : BundleQueue μ} {b : Bundle μ} {sent : List String} {name : Nat → String} {n : Nat}

def rowIds (t : Relational.Table (Bundle μ) String Bundle.key) : List String := t.rows.map (·.bundleId)

/-- The bundle of a key and the others. -/
theorem rows_perm_of_get? {t : Relational.Table (Bundle μ) String Bundle.key} {k : String} (h : t.get? k = some b) :
    t.rows.Perm (b :: (t.delete (·.key = k)).rows) := by
  have hkey := Relational.Table.get?_key h
  have hnew : b ∉ (t.delete (·.key = k)).rows := by simp [Relational.Table.delete, hkey]
  refine (List.perm_ext_iff_of_nodup t.nodup.of_map (List.nodup_cons.2 ⟨hnew, (t.delete _).nodup.of_map⟩)).2 fun c => ?_
  rw [List.mem_cons]
  constructor
  · intro hc
    by_cases hck : c.key = k
    · exact .inl (t.eq_of_key_eq hc (Relational.Table.mem_of_get? h) (hck.trans hkey.symm))
    · exact .inr (List.mem_filter.2 ⟨hc, by simpa using hck⟩)
  · rintro (rfl | hc)
    · exact Relational.Table.mem_of_get? h
    · exact (List.mem_filter.1 hc).1

/-- A bundle that is put into the place of another keeps the ids where it keeps that one's. -/
theorem rowIds_replace {t : Relational.Table (Bundle μ) String Bundle.key} {c : Bundle μ} (h : t.get? c.key = some b)
    (hid : c.bundleId = b.bundleId) : (rowIds (t.put c)).Perm (rowIds t) := by
  refine ((Relational.Table.rows_put_perm t c).map _).trans (List.Perm.trans ?_ ((rows_perm_of_get? h).map _).symm)
  simp [hid]

theorem Numbered.put (hinj : Function.Injective name) (h : Numbered name n (sent ++ rowIds q.receiving))
    (hid : b.bundleId = name n) : Numbered name (n + 1) (sent ++ rowIds (q.receiving.put b)) := by
  have hsub : (sent ++ rowIds (q.receiving.delete (·.key = b.key))).Sublist (sent ++ rowIds q.receiving) :=
    (List.filter_sublist.map _).append_left sent
  refine ((h.subperm hsub.subperm).cons hinj).subperm (List.Perm.subperm ?_)
  have hput : (rowIds (q.receiving.put b)).Perm (name n :: rowIds (q.receiving.delete (·.key = b.key))) := by
    have := (Relational.Table.rows_put_perm q.receiving b).map (·.bundleId)
    rwa [List.map_cons, hid] at this
  exact (hput.append_left sent).trans List.perm_middle

theorem Numbered.replace (h : Numbered name n (sent ++ rowIds q.receiving)) {c : Bundle μ}
    (hg : q.receiving.get? c.key = some b) (hid : c.bundleId = b.bundleId) :
    Numbered name n (sent ++ rowIds (q.receiving.put c)) :=
  h.subperm ((rowIds_replace hg hid).append_left sent).subperm

/-- A bundle that is sent moves from the rows to the wire. -/
theorem Numbered.send (h : Numbered name n (sent ++ rowIds q.receiving)) (hb : b ∈ q.receiving.rows) :
    Numbered name n (sent ++ [b.bundleId] ++ rowIds (q.receiving.delete (·.key = b.key))) := by
  refine h.subperm (List.Perm.subperm ?_)
  have := (rows_perm_of_get? (Relational.Table.get?_of_mem hb)).map (·.bundleId)
  rw [List.append_assoc]
  exact (this.append_left sent).symm

end Rows

section State
variable {setup : Setup μ T} {s : Session μ T} {x : Seen μ T}

/-- The ids that are taken: those on the wire and those of the bundles that fill. -/
def Session.takenIds (s : Session μ T) : List String := s.log.filterMap Seen.sentId ++ rowIds s.queue.receiving

/-- A turn that has ended and whose books are not closed yet. -/
def Wait.closing : Wait μ → Bool
  | .beginEnd _ | .endTurn _ | .acking _ => true
  | _ => false

/-- The bundle in flight whose turn is being begun. -/
def Wait.beginning : Wait μ → Option (Bundle μ)
  | .beginAck b | .beginAdmitted b => some b
  | _ => none

/-- What the flags of a living session say about the bundle in flight. -/
structure Session.Flags (s : Session μ T) : Prop where
  sent : ∀ b, WasSent s.log b → Seen.ended b ∈ s.log ∨ s.queue.inflight = some b
  begun : ∀ b, Seen.beginTurn b ∈ s.log → Seen.ended b ∈ s.log ∨ (s.wait.closing = false ∧ s.queue.inflight = some b ∧
    (s.inflightRunId ≠ none ∨ s.wait.beginning = some b))
  ran : s.wait.closing = false → ∀ runId ∈ s.inflightRunId, ∃ b ∈ s.queue.inflight, Seen.began b runId ∈ s.log ∧
    (b.turnId ≠ "" → s.inflightAdmitted = true)
  shown : s.wait.closing = false → s.inflightAdmitted = true → ∃ b ∈ s.queue.inflight, WasAdmitted s.log b
  correlated : ∀ b correlation, Seen.admitted b correlation ∈ s.log → Seen.ended b ∈ s.log ∨
    (s.wait.closing = false ∧ s.queue.inflight = some b ∧ correlation ∈ s.admissionCorrelations ∧ s.inflightAdmitted = true)

/-- What has led the frame loop to where it stands. -/
def Session.At (s : Session μ T) : Wait μ → Prop
  | .beginAck b => Seen.beginTurn b ∈ s.log ∧ (s.alive = true → s.queue.inflight = some b ∧ b.turnId = "")
  | .admitting b correlation =>
    WasSent s.log b ∧ b.turnId ≠ "" ∧ Seen.ended b ∉ s.log ∧ Seen.admitted b correlation ∉ s.log ∧
    (∃ now key, Seen.heard now (.ok (.admitted b.bundleId b.turnId key)) ∈ s.log ∧
      correlation = Session.correlationOf key) ∧ (s.alive = true → s.queue.inflight = some b)
  | .beginAdmitted b =>
    Seen.beginTurn b ∈ s.log ∧ (s.alive = true → s.queue.inflight = some b ∧ s.inflightAdmitted = true)
  | .beginEnd b => Seen.ended b ∈ s.log ∧ Seen.beginTurn b ∈ s.log ∧ ¬ Closed s.log b
  | .endTurn b => Closed s.log b ∧ Seen.acked b ∉ s.log
  | _ => True

theorem mem_of_mem_say {y : Seen μ T} (hm : y ∈ (s.say x).log) (hne : y ≠ x) : y ∈ s.log :=
  (List.mem_append.1 hm).resolve_right fun he => hne (List.mem_singleton.1 he)

theorem takenIds_say (hx : x.sentId = none) : (s.say x).takenIds = s.takenIds := by
  simp [Session.takenIds, Session.say, hx]

theorem die_alive (setup : Setup μ T) (s : Session μ T) (reason : String) : (s.die setup reason).alive = false := by
  unfold Session.die
  split
  · assumption
  · rfl

theorem die_wait (setup : Setup μ T) (s : Session μ T) (reason : String) : (s.die setup reason).wait = s.wait := by
  unfold Session.die
  split <;> rfl

theorem die_clocks (setup : Setup μ T) (s : Session μ T) (reason : String) :
    (s.die setup reason).clock = s.clock ∧ (s.die setup reason).lastRx = s.lastRx := by
  unfold Session.die
  split <;> exact ⟨rfl, rfl⟩

section Flags

/-- Entries that say nothing about the turn of a bundle. -/
def Seen.Silent : Seen μ T → Prop
  | .sent (.sendBundle _) | .beginTurn _ | .admitted .. => False
  | _ => True

theorem Session.Flags.say (h : s.Flags) (hx : x.Silent) : (s.say x).Flags where
  sent := by
    intro b hb
    rcases List.mem_append.1 hb with hb | hb
    · exact (h.sent b hb).imp_left (List.mem_append_left _)
    · cases List.mem_singleton.1 hb
      exact hx.elim
  begun := by
    intro b hb
    rcases List.mem_append.1 hb with hb | hb
    · exact (h.begun b hb).imp_left (List.mem_append_left _)
    · cases List.mem_singleton.1 hb
      exact hx.elim
  ran := by
    intro hc runId hr
    obtain ⟨b, hb, hbegan, hv⟩ := h.ran hc runId hr
    exact ⟨b, hb, List.mem_append_left _ hbegan, hv⟩
  shown := by
    intro hc ha
    obtain ⟨b, hb, c, hadm⟩ := h.shown hc ha
    exact ⟨b, hb, c, List.mem_append_left _ hadm⟩
  correlated := by
    intro b c hb
    rcases List.mem_append.1 hb with hb | hb
    · exact (h.correlated b c hb).imp_left (List.mem_append_left _)
    · cases List.mem_singleton.1 hb
      exact hx.elim

/-- The frame loop goes from one wait to another without a turn being begun or closed. -/
theorem Session.Flags.rewait (h : s.Flags) {w : Wait μ} (hc : w.closing = s.wait.closing)
    (hb : s.inflightRunId ≠ none ∨ s.wait.beginning = none) :
    ({ s with wait := w } : Session μ T).Flags where
  sent := h.sent
  begun := by
    intro b hm
    refine (h.begun b hm).imp_right ?_
    rintro ⟨hclosing, hfl, hw⟩
    refine ⟨hc.trans hclosing, hfl, .inl ?_⟩
    rcases hb with hb | hb
    · exact hb
    · refine hw.resolve_right fun hw => ?_
      rw [hb] at hw
      cases hw
  ran := fun hclosing => h.ran (hc.symm.trans hclosing)
  shown := fun hclosing => h.shown (hc.symm.trans hclosing)
  correlated := by
    intro b c hm
    refine (h.correlated b c hm).imp_right ?_
    rintro ⟨hclosing, hrest⟩
    exact ⟨hc.trans hclosing, hrest⟩

theorem Session.Flags.requeue (h : s.Flags) {queue : BundleQueue μ} {ids : Nat} (hq : queue.inflight = s.queue.inflight) :
    ({ s with queue := queue, ids := ids } : Session μ T).Flags where
  sent := by simpa only [hq] using h.sent
  begun := by simpa only [hq] using h.begun
  ran := by simpa only [hq] using h.ran
  shown := by simpa only [hq] using h.shown
  correlated := by simpa only [hq] using h.correlated

/-- When a bundle goes out nothing is known of it yet. -/
theorem Session.Flags.pump (h : s.Flags) : s.pump.Flags := by
  unfold Session.pump
  split
  · exact h
  · rename_i hnot
    have hnone : s.queue.inflight = none := by simpa using (not_or.1 hnot).2
    split
    · rename_i queue b hsend
      obtain ⟨-, -, -, rfl⟩ := nextToSend_eq hsend
      refine ⟨?_, ?_, ?_, ?_, ?_⟩
      · intro c hc
        rcases List.mem_append.1 hc with hc | hc
        · refine .inl (List.mem_append_left _ ((h.sent c hc).resolve_right fun hi => ?_))
          rw [hnone] at hi
          cases hi
        · cases List.mem_singleton.1 hc
          exact .inr rfl
      · intro c hc
        replace hc := mem_of_mem_say hc nofun
        refine .inl (List.mem_append_left _ ((h.begun c hc).resolve_right fun hi => ?_))
        rw [hnone] at hi
        cases hi.2.1
      · intro hclosing runId hr
        obtain ⟨c, hc, -⟩ := h.ran hclosing runId hr
        rw [hnone] at hc
        cases hc
      · intro hclosing ha
        obtain ⟨c, hc, -⟩ := h.shown hclosing ha
        rw [hnone] at hc
        cases hc
      · intro c k hc
        replace hc := mem_of_mem_say hc nofun
        refine .inl (List.mem_append_left _ ((h.correlated c k hc).resolve_right fun hi => ?_))
        rw [hnone] at hi
        cases hi.2.1
    · exact h

/-- Nothing has been begun for the bundle in flight while no run id is set and none is awaited. -/
theorem Session.Flags.begun_back (h : s.Flags) (hr : s.inflightRunId = none) (hw : s.wait.beginning = none) (b : Bundle μ)
    (hb : Seen.beginTurn b ∈ s.log) : Seen.ended b ∈ s.log := by
  refine (h.begun b hb).resolve_right ?_
  rintro ⟨-, -, hrun | hwait⟩
  · exact hrun hr
  · rw [hw] at hwait
    cases hwait

/-- A turn is begun for the bundle in flight, before which none was. -/
theorem Session.Flags.begin (h : s.Flags) {b : Bundle μ} {w : Wait μ} (hc : s.wait.closing = false)
    (hcw : w.closing = false) (hw : w.beginning = some b) (hfl : s.queue.inflight = some b)
    (hfirst : ∀ c, Seen.beginTurn c ∈ s.log → Seen.ended c ∈ s.log) :
    ({ s with wait := w }.say (.beginTurn b) : Session μ T).Flags := by
  refine ⟨?_, ?_, ?_, ?_, ?_⟩
  · intro c hm
    exact (h.sent c (mem_of_mem_say hm nofun)).imp_left (List.mem_append_left _)
  · intro c hm
    rcases List.mem_append.1 hm with hm | hm
    · exact .inl (List.mem_append_left _ (hfirst c hm))
    · cases List.mem_singleton.1 hm
      exact .inr ⟨hcw, hfl, .inr hw⟩
  · intro _ runId hr
    obtain ⟨c, hcf, hbegan, hv⟩ := h.ran hc runId hr
    exact ⟨c, hcf, List.mem_append_left _ hbegan, hv⟩
  · intro _ ha
    obtain ⟨c, hcf, k, hadm⟩ := h.shown hc ha
    exact ⟨c, hcf, k, List.mem_append_left _ hadm⟩
  · intro c k hm
    replace hm := mem_of_mem_say hm nofun
    refine (h.correlated c k hm).imp (List.mem_append_left _) ?_
    rintro ⟨-, hrest⟩
    exact ⟨hcw, hrest⟩

/-- `begin_turn` has given a run id for the bundle in flight. -/
theorem Session.Flags.began (h : s.Flags) {b : Bundle μ} (runId : String) (hfl : s.queue.inflight = some b)
    (hv : b.turnId ≠ "" → s.inflightAdmitted = true) :
    ({ s with inflightRunId := some runId }.say (.began b runId) : Session μ T).Flags := by
  refine ⟨?_, ?_, ?_, ?_, ?_⟩
  · intro c hm
    exact (h.sent c (mem_of_mem_say hm nofun)).imp_left (List.mem_append_left _)
  · intro c hm
    replace hm := mem_of_mem_say hm nofun
    refine (h.begun c hm).imp (List.mem_append_left _) ?_
    rintro ⟨hclosing, hcf, -⟩
    exact ⟨hclosing, hcf, .inl (Option.some_ne_none runId)⟩
  · intro hclosing r hr
    obtain rfl : runId = r := Option.some.inj hr
    exact ⟨b, hfl, List.mem_append_right _ (List.mem_singleton.2 rfl), hv⟩
  · intro hclosing ha
    obtain ⟨c, hcf, k, hadm⟩ := h.shown hclosing ha
    exact ⟨c, hcf, k, List.mem_append_left _ hadm⟩
  · intro c k hm
    exact (h.correlated c k (mem_of_mem_say hm nofun)).imp_left (List.mem_append_left _)

/-- The bundle in flight has been admitted. -/
theorem Session.Flags.admits (h : s.Flags) {b : Bundle μ} (correlation : String) (flag : Bool) (hc : s.wait.closing = false)
    (hfl : s.queue.inflight = some b) (hflag : flag = true) :
    ({ s with admissionCorrelations := correlation :: s.admissionCorrelations, inflightAdmitted := flag }.say
      (.admitted b correlation) : Session μ T).Flags := by
  subst hflag
  refine ⟨?_, ?_, ?_, ?_, ?_⟩
  · intro c hm
    exact (h.sent c (mem_of_mem_say hm nofun)).imp_left (List.mem_append_left _)
  · intro c hm
    exact (h.begun c (mem_of_mem_say hm nofun)).imp_left (List.mem_append_left _)
  · intro hclosing runId hr
    obtain ⟨c, hcf, hbegan, -⟩ := h.ran hclosing runId hr
    exact ⟨c, hcf, List.mem_append_left _ hbegan, fun _ => rfl⟩
  · intro _ _
    exact ⟨b, hfl, correlation, List.mem_append_right _ (List.mem_singleton.2 rfl)⟩
  · intro c k hm
    rcases List.mem_append.1 hm with hm | hm
    · refine (h.correlated c k hm).imp (List.mem_append_left _) ?_
      rintro ⟨hclosing, hcf, hk, -⟩
      exact ⟨hclosing, hcf, List.mem_cons_of_mem _ hk, rfl⟩
    · cases List.mem_singleton.1 hm
      exact .inr ⟨hc, hfl, List.mem_cons_self, rfl⟩

/-- While a turn is being closed the flags are free. -/
theorem Session.Flags.loosen (h : s.Flags) (hc : s.wait.closing = true) (runId : Option String) (flag : Bool)
    (correlations : List String) :
    ({ s with
        inflightRunId := runId
        inflightAdmitted := flag
        admissionCorrelations := correlations } : Session μ T).Flags := by
  have hnot : s.wait.closing ≠ false := by simp [hc]
  refine ⟨h.sent, ?_, fun hclosing => absurd hclosing hnot, fun hclosing => absurd hclosing hnot, ?_⟩
  · intro c hm
    exact .inl ((h.begun c hm).resolve_right fun hr => hnot hr.1)
  · intro c k hm
    exact .inl ((h.correlated c k hm).resolve_right fun hr => hnot hr.1)

/-- The flags are down again when the turn is closed. -/
theorem Session.Flags.reopen (h : s.Flags) (hc : s.wait.closing = true) (hr : s.inflightRunId = none)
    (ha : s.inflightAdmitted = false) {w : Wait μ} : ({ s with wait := w } : Session μ T).Flags := by
  have hnot : s.wait.closing ≠ false := by simp [hc]
  refine ⟨h.sent, ?_, ?_, ?_, ?_⟩
  · intro c hm
    exact .inl ((h.begun c hm).resolve_right fun hr => hnot hr.1)
  · intro _ runId hrun
    rw [hr] at hrun
    cases hrun
  · intro _ hadm
    rw [ha] at hadm
    cases hadm
  · intro c k hm
    exact .inl ((h.correlated c k hm).resolve_right fun hr => hnot hr.1)

end Flags

section At

/-- Entries that admit and close nothing. -/
def Seen.Mild : Seen μ T → Prop
  | .ended _ | .admitted .. | .endTurnBatch .. | .acked _ => False
  | _ => True

theorem notMem_append {log : List (Seen μ T)} {y : Seen μ T} (h : y ∉ log) (hx : x ≠ y) : y ∉ log ++ [x] := by
  intro hm
  rcases List.mem_append.1 hm with hm | hm
  · exact h hm
  · exact hx (List.mem_singleton.1 hm).symm

theorem not_closed_append {log : List (Seen μ T)} {b : Bundle μ} (h : ¬ Closed log b)
    (hx : ∀ runs, x ≠ .endTurnBatch b runs) : ¬ Closed (log ++ [x]) b := by
  rintro ⟨runs, hm⟩
  exact notMem_append (fun hm => h ⟨runs, hm⟩) (hx runs) hm

/-- What the frame loop waits for stays so while others act: the log gains an entry that closes nothing, and a living
session keeps what is in flight. -/
theorem Session.At.later (h : s.At s.wait) {s' : Session μ T} (hw : s'.wait = s.wait)
    (hlog : s'.log = s.log ∨ ∃ x : Seen μ T, x.Mild ∧ s'.log = s.log ++ [x])
    (hkept : s'.alive = true → s.alive = true ∧ s'.inflightAdmitted = s.inflightAdmitted ∧
      ∀ b, s.queue.inflight = some b → s'.queue.inflight = some b) : s'.At s'.wait := by
  have hin : ∀ y ∈ s.log, y ∈ s'.log := by
    intro y hy
    rcases hlog with hlog | ⟨x, -, hlog⟩
    · rwa [hlog]
    · rw [hlog]
      exact List.mem_append_left _ hy
  have hout : ∀ y, y ∉ s.log → ¬ y.Mild → y ∉ s'.log := by
    intro y hy hx
    rcases hlog with hlog | ⟨x, hmild, hlog⟩
    · rwa [hlog]
    · rw [hlog]
      exact notMem_append hy fun he => hx (he ▸ hmild)
  have hopen : ∀ b, ¬ Closed s.log b → ¬ Closed s'.log b := by
    rintro b hc ⟨runs, hm⟩
    exact hout _ (fun hm => hc ⟨runs, hm⟩) id hm
  rw [hw]
  cases hwait : s.wait with
  | beginAck b =>
    rw [hwait] at h
    refine ⟨hin _ h.1, fun ha => ?_⟩
    obtain ⟨halive, -, hfl⟩ := hkept ha
    exact ⟨hfl b (h.2 halive).1, (h.2 halive).2⟩
  | admitting b correlation =>
    rw [hwait] at h
    obtain ⟨hsent, hturn, hend, hadm, ⟨now, key, hheard, hkey⟩, hfl⟩ := h
    refine ⟨hin _ hsent, hturn, hout _ hend id, hout _ hadm id,
      ⟨now, key, hin _ hheard, hkey⟩, fun ha => ?_⟩
    obtain ⟨halive, -, hkeep⟩ := hkept ha
    exact hkeep b (hfl halive)
  | beginAdmitted b =>
    rw [hwait] at h
    refine ⟨hin _ h.1, fun ha => ?_⟩
    obtain ⟨halive, hadm, hfl⟩ := hkept ha
    exact ⟨hfl b (h.2 halive).1, hadm.trans (h.2 halive).2⟩
  | beginEnd b =>
    rw [hwait] at h
    exact ⟨hin _ h.1, hin _ h.2.1, hopen b h.2.2⟩
  | endTurn b =>
    rw [hwait] at h
    obtain ⟨⟨runs, hm⟩, hacked⟩ := h
    exact ⟨⟨runs, hin _ hm⟩, hout _ hacked id⟩
  | idle | recv | refusing | acking | handling | showing | stopped => trivial

end At

end State

section Invariant
variable [AddCommGroup T] [LinearOrder T] {setup : Setup μ T} {s : Session μ T} {x : Seen μ T}

/-- The log is licensed, and the queue agrees with it. -/
structure Session.Wire (setup : Setup μ T) (s : Session μ T) : Prop where
  licensed : Licensed (Allowed setup) s.log
  living : s.alive = true ↔ Living s.log
  grounded : s.alive = false → s.queue.inflight = none
  heard : ∀ t frame, Seen.heard t frame ∈ s.log → t ≤ s.lastRx
  flying : ∀ b ∈ s.queue.inflight, WasSent s.log b ∧ Seen.ended b ∉ s.log
  numbered : Numbered setup.makeId s.ids s.takenIds

structure Session.Sound (setup : Setup μ T) (s : Session μ T) : Prop where
  wire : s.Wire setup
  past : s.lastRx ≤ s.clock
  flags : s.alive = true → s.Flags
  at_ : s.At s.wait

section Licences
variable {log : List (Seen μ T)} {b : Bundle μ}

theorem sent_of_ended (h : Licensed (Allowed setup) log) (hb : Seen.ended b ∈ log) : WasSent log b := by
  obtain ⟨before, after, rfl, -, hsent, -⟩ := h.of_mem hb
  exact List.mem_append_left _ hsent

theorem sent_of_beginTurn (h : Licensed (Allowed setup) log) (hb : Seen.beginTurn b ∈ log) : WasSent log b := by
  obtain ⟨before, after, rfl, hsent, -⟩ := h.of_mem hb
  exact List.mem_append_left _ hsent

theorem sent_of_admitted {correlation : String} (h : Licensed (Allowed setup) log)
    (hb : Seen.admitted b correlation ∈ log) : WasSent log b := by
  obtain ⟨before, after, rfl, hsent, -⟩ := h.of_mem hb
  exact List.mem_append_left _ hsent

theorem ended_of_closed (h : Licensed (Allowed setup) log) (hb : Closed log b) : Seen.ended b ∈ log := by
  obtain ⟨runs, hb⟩ := hb
  obtain ⟨before, after, rfl, hend, -⟩ := h.of_mem hb
  exact List.mem_append_left _ hend

theorem closed_of_acked (h : Licensed (Allowed setup) log) (hb : Seen.acked b ∈ log) : Closed log b := by
  obtain ⟨before, after, rfl, ⟨runs, hclosed⟩, -⟩ := h.of_mem hb
  exact ⟨runs, List.mem_append_left _ hclosed⟩

end Licences

section Wire

/-- Entries other than those that move bundles, end the session or tell when it has heard something. -/
def Seen.Plain : Seen μ T → Prop
  | .sent (.sendBundle _) | .ended _ | .dead .. | .heard .. => False
  | _ => True

omit [AddCommGroup T] [LinearOrder T] in
theorem Seen.Plain.unsent (h : x.Plain) : x.sentId = none := by
  cases x with
  | sent frame =>
    cases frame with
    | sendBundle b => exact h.elim
    | connected | error | toolResult | ping | pong => rfl
  | heard | admitted | beginTurn | began | ended | endTurnBatch | acked | toolCall | toolResult | dead => rfl

/-- The log gains an entry about nothing that is in flight. -/
theorem Session.Wire.note (h : s.Wire setup) (ha : Allowed setup s.log x) (hid : x.sentId = none)
    (hd : ∀ now reason, x ≠ .dead now reason) (he : ∀ b ∈ s.queue.inflight, x ≠ .ended b)
    (ht : ∀ t frame, x = .heard t frame → t ≤ s.lastRx) : (s.say x).Wire setup where
  licensed := h.licensed.append ha
  living := h.living.trans ⟨fun hl => hl.append hd, Living.of_append⟩
  grounded := h.grounded
  heard := by
    intro t frame hm
    rcases List.mem_append.1 hm with hm | hm
    · exact h.heard t frame hm
    · exact ht t frame (List.mem_singleton.1 hm).symm
  flying := by
    intro b hb
    obtain ⟨hsent, hend⟩ := h.flying b hb
    refine ⟨List.mem_append_left _ hsent, fun hm => ?_⟩
    rcases List.mem_append.1 hm with hm | hm
    · exact hend hm
    · exact he b hb (List.mem_singleton.1 hm).symm
  numbered := by
    rw [takenIds_say hid]
    exact h.numbered

theorem Session.Wire.say (h : s.Wire setup) (hx : x.Plain) (ha : Allowed setup s.log x) : (s.say x).Wire setup := by
  refine h.note ha hx.unsent ?_ ?_ ?_
  · rintro now reason rfl
    exact hx
  · rintro b - rfl
    exact hx
  · rintro t frame rfl
    exact hx.elim

/-- The queue has changed, but not what is in flight. -/
theorem Session.Wire.requeue (h : s.Wire setup) {queue : BundleQueue μ} {ids : Nat}
    (hf : queue.inflight = s.queue.inflight ∨ queue.inflight = none)
    (hn : Numbered setup.makeId ids (s.log.filterMap Seen.sentId ++ rowIds queue.receiving)) :
    ({ s with queue := queue, ids := ids } : Session μ T).Wire setup where
  licensed := h.licensed
  living := h.living
  grounded := by
    intro hd
    rcases hf with hf | hf
    · exact hf.trans (h.grounded hd)
    · exact hf
  heard := h.heard
  flying := by
    intro b hb
    rcases hf with hf | hf
    · exact h.flying b (hf ▸ hb)
    · rw [hf] at hb
      cases hb
  numbered := hn

theorem Session.Wire.enqueue (hinj : Function.Injective setup.makeId) (h : s.Wire setup) (rootId : String) (message : μ)
    (channelMeta : List (String × Json)) : (s.enqueue setup rootId message channelMeta).Wire setup := by
  have hn := h.numbered
  unfold Session.enqueue BundleQueue.enqueue
  cases hg : s.queue.receiving.get? rootId with
  | some b =>
    have hkey : b.key = rootId := Relational.Table.get?_key hg
    by_cases hr : BundleQueue.repeats setup.envelopeId b message
    · simp only [hr, if_true, Option.isSome_some]
      exact h
    · simp only [hr, Bool.false_eq_true, if_false, Option.isSome_some, if_true]
      exact h.requeue (.inl rfl) (hn.replace (b := b) (by rwa [← hkey] at hg) rfl)
  | none =>
    simp only [Option.isSome_none, Bool.false_eq_true, if_false]
    exact h.requeue (.inl rfl) (hn.put hinj rfl)

/-- A bundle goes out when every bundle before it has come back. -/
theorem Session.Wire.pump (h : s.Wire setup) (hf : s.alive = true → s.Flags) : s.pump.Wire setup := by
  unfold Session.pump
  split
  · exact h
  · rename_i hnot
    obtain ⟨halive, hnone⟩ := not_or.1 hnot
    have halive : s.alive = true := by simpa using halive
    have hnone : s.queue.inflight = none := by simpa using hnone
    split
    · rename_i queue b hsend
      obtain ⟨-, hb, -, rfl⟩ := nextToSend_eq hsend
      have hother : ∀ b', WasSent s.log b' → b'.bundleId ≠ b.bundleId := by
        intro b' hb' he
        have hd := (List.nodup_append.1 h.numbered.distinct).2.2
        exact hd _ hb'.mem_sentId _ (List.mem_map_of_mem hb) he
      have hback : ∀ b', WasSent s.log b' → Seen.ended b' ∈ s.log := by
        intro b' hb'
        refine ((hf halive).sent b' hb').resolve_right fun hi => ?_
        rw [hnone] at hi
        cases hi
      refine ⟨h.licensed.append ⟨h.living.1 halive, fun b' hb' => ⟨hback b' hb', hother b' hb'⟩⟩, ?_, ?_, ?_, ?_, ?_⟩
      · exact h.living.trans ⟨fun hl => hl.append (fun now reason he => by cases he), Living.of_append⟩
      · intro hd
        exact absurd (show s.alive = false from hd) (by simp [halive])
      · intro t frame hm
        replace hm := mem_of_mem_say hm nofun
        exact h.heard t frame hm
      · intro c hc
        obtain rfl : b = c := Option.some.inj hc
        refine ⟨List.mem_append_right _ (List.mem_singleton.2 rfl), fun hm => ?_⟩
        replace hm := mem_of_mem_say hm nofun
        exact hother b (sent_of_ended h.licensed hm) rfl
      · have := h.numbered.send hb
        simpa [Session.takenIds, Session.say, Seen.sentId] using this
    · exact h

/-- Flags, waits and clocks do not matter to the wire. -/
theorem Session.Wire.congr (h : s.Wire setup) {s' : Session μ T} (hlog : s'.log = s.log) (halive : s'.alive = s.alive)
    (hqueue : s'.queue = s.queue) (hids : s'.ids = s.ids) (hrx : s.lastRx ≤ s'.lastRx) : s'.Wire setup where
  licensed := by rw [hlog]; exact h.licensed
  living := by rw [halive, hlog]; exact h.living
  grounded := by rw [halive, hqueue]; exact h.grounded
  heard := by
    intro t frame hm
    rw [hlog] at hm
    exact (h.heard t frame hm).trans hrx
  flying := by rw [hqueue, hlog]; exact h.flying
  numbered := by
    have hids' : s'.takenIds = s.takenIds := by rw [Session.takenIds, hlog, hqueue, Session.takenIds]
    rw [hids, hids']
    exact h.numbered

theorem Session.Wire.rollback (hinj : Function.Injective setup.makeId) (h : s.Wire setup) : (s.rollback setup).Wire setup := by
  unfold Session.rollback BundleQueue.rollbackInflight
  cases hf : s.queue.inflight with
  | none =>
    simp only [Option.isSome_none, Bool.false_eq_true, if_false]
    exact h.requeue (.inl rfl) h.numbered
  | some stale =>
    simp only [Option.isSome_some, if_true]
    exact h.requeue (.inr rfl) (h.numbered.put hinj rfl)

theorem Session.Wire.die (hinj : Function.Injective setup.makeId) (h : s.Wire setup) (reason : String)
    (hl : reason = "liveness timeout" → ∀ t frame, Seen.heard t frame ∈ s.log → setup.ackTimeout < s.clock - t) :
    (s.die setup reason).Wire setup := by
  unfold Session.die
  split
  · exact h
  · rename_i halive
    have hliving : Living s.log := h.living.1 (by simpa using halive)
    have hr := h.rollback hinj
    have hground : (s.rollback setup).queue.inflight = none := by
      unfold Session.rollback BundleQueue.rollbackInflight
      cases hf : s.queue.inflight with
      | none => exact hf
      | some stale => rfl
    have hdead : ¬ Living (s.log ++ [Seen.dead s.clock reason]) := fun hd =>
      hd s.clock reason (List.mem_append_right _ (List.mem_singleton.2 rfl))
    refine ⟨h.licensed.append ⟨hliving, hl⟩, ⟨fun ha => absurd ha (by simp [Session.say]), fun hd => absurd hd hdead⟩,
      fun _ => hground, ?_, ?_, ?_⟩
    · intro t frame hm
      replace hm := mem_of_mem_say hm nofun
      exact h.heard t frame hm
    · intro b hb
      cases hground.symm.trans (show (s.rollback setup).queue.inflight = some b from hb)
    · have hunsent : List.filterMap Seen.sentId [(.dead s.clock reason : Seen μ T)] = [] := rfl
      have := hr.numbered
      rw [Session.takenIds] at this ⊢
      rw [Session.say, List.filterMap_append, hunsent, List.append_nil]
      exact this

end Wire

theorem flags_of_back (hl : Licensed (Allowed setup) s.log) (hback : ∀ b, WasSent s.log b → Seen.ended b ∈ s.log)
    (hc : s.wait.closing = true) : s.Flags := by
  have hnot : s.wait.closing ≠ false := by simp [hc]
  exact ⟨fun b hb => .inl (hback b hb), fun b hb => .inl (hback b (sent_of_beginTurn hl hb)),
    fun hclosing => absurd hclosing hnot, fun hclosing => absurd hclosing hnot,
    fun b c hb => .inl (hback b (sent_of_admitted hl hb))⟩

end Invariant

end PuffoAgent.WsLocal
