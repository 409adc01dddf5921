import PuffoAgent.Recovery.Settlement

/-! The recovery of a restarted runtime as a whole: it runs the joined turn again or unwinds it,
then puts back every turn that is still active. -/
namespace PuffoAgent.Recovery
open Relational Stmt Store Projection Text Machine

/-- The call failed with an exception that the resumed run can catch. -/
def Failure.isRaised (e : Failure) : Prop := ∃ message, e = .raised message

/-- The turn runs again: it is active, and the runtime knows the rows it holds. -/
structure Resumed (turnId : String) (w : Workspace) : Prop where
  clear : Clear w
  active : w.tables.isActive turnId
  turn : w.active.turnId = turnId
  ids : w.active.messageIds = turnMessageIds w.tables turnId

section Resumption
variable {env : Circumstances} {turnId : String} {E : Failure → Workspace → Prop}

theorem Resumed.ticked {w : Workspace} (h : Resumed turnId w) (ticks : Nat) :
    Resumed turnId { w with ticks := ticks } := ⟨⟨h.clear.sound, h.clear.clear⟩, h.active, h.turn, h.ids⟩

/-- What the turns and their members concern carries over to tables where they are the same. -/
theorem Resumed.moved {w : Workspace} (h : Resumed turnId w) {s' : Tables} (sound : Sound s')
    (runs : w.tables.sameRuns s') (members : s'.turnRunMessages = w.tables.turnRunMessages)
    (calls : List Op) (ticks : Nat) :
    Resumed turnId { w with tables := s', calls := calls, ticks := ticks } where
  clear := ⟨sound, h.clear.clear⟩
  active := (isActive_of_sameRuns runs turnId).mpr h.active
  turn := h.turn
  ids := h.ids.trans (turnMessageIds_of_eq members turnId).symm

theorem Resumed.returnable {run : TurnRun} {w : Workspace} (h : Resumed run.turnId w) (ids : List String) :
    Returnable run ids true w :=
  ⟨h.clear, fun _ => ⟨h.active, by rw [requeueIds, if_pos ⟨rfl, h.turn⟩, h.ids]⟩⟩

/-- An exception that strikes elsewhere is passed over. -/
theorem meets_elsewhere {P : Workspace → Prop} {x : StartupM Unit}
    (h : Meets P x (fun _ => P) fun e w => e.isRaised ∧ P w) : Meets P (elsewhere x) (fun _ => P) E := by
  refine Meets.tryCatch h fun e => ?_
  cases e with
  | raised message => exact meets_pure fun w hw => hw.2
  | crashed =>
    rintro w ⟨⟨message, h⟩, -⟩
    cases h
  | cancelled => exact meets_pure fun w hw => hw.2

variable (calm : env.Calm)
include calm

theorem call_clears (op : Op) : Meets (Resumed turnId) (call env op) (fun _ => Clear)
    fun e w => e.isRaised ∧ Resumed turnId w :=
  meets_call calm (fun _ _ _ hw _ sound => ⟨sound hw.clear.sound, hw.clear.clear⟩)
    fun _ hw _ => ⟨⟨_, rfl⟩, hw.ticked _⟩

theorem writeCurrentTurn_resumed (joined : Json) :
    Meets (Resumed turnId) (writeCurrentTurn env joined) (fun _ => Resumed turnId) E :=
  meets_written calm fun _ hw => ⟨⟨hw.clear.sound, hw.clear.clear⟩, hw.active, hw.turn, hw.ids⟩

theorem admitPage_resumed (ids : List String) (joined : Json) (now : Int) :
    Meets (Resumed turnId) (admitPage env ids joined now) (fun _ => Resumed turnId)
      fun e w => e.isRaised ∧ Resumed turnId w := by
  refine Meets.query_bind fun active => ?_
  refine Meets.bind (Q := fun _ w => Clear w ∧ w.tables.isActive turnId ∧ w.active.turnId = turnId ∧
    active.turnId = turnId) ?_ fun _ => Meets.bind (Q := fun _ => Resumed turnId) ?_ fun _ =>
      writeCurrentTurn_resumed calm joined
  · refine meets_call calm (fun w s' calls ⟨hw, ha⟩ hr sound => ?_) fun w hw _ => ⟨⟨_, rfl⟩, hw.1.ticked _⟩
    have same : active.turnId = turnId := ha ▸ hw.turn
    obtain ⟨u, c, hx, hc⟩ := bind_ok_iff.mp hr
    obtain ⟨-, rfl⟩ := pure_ok_iff.mp hc
    have now_ := (admitMessages_active ids active.turnId active.providerSessionId none now).ok hx
    exact ⟨⟨sound hw.clear.sound, hw.clear.clear⟩, same ▸ now_.2, hw.turn, same⟩
  · refine meets_exec fun w ⟨clear, active_, turn, same⟩ => ?_
    exact ⟨⟨clear.sound, clear.clear⟩, active_, turn, by rw [same]⟩

theorem admitRetryAttempt_resumed (session : Option String) (joined : Json) :
    Meets (Resumed turnId) (admitRetryAttempt env session joined) (fun _ => Resumed turnId)
      fun e w => e.isRaised ∧ Resumed turnId w := by
  refine Meets.query_bind fun active => Meets.bind (Q := fun _ => Resumed turnId) ?_ fun _ => ?_
  · refine Meets.ite (fun _ => meets_pure fun w hw => hw.1) fun _ => ?_
    refine meets_call calm (fun w s' calls hw hr sound => ?_) fun w hw _ => ⟨⟨_, rfl⟩, hw.1.ticked _⟩
    obtain ⟨u, c, hx, hc⟩ := bind_ok_iff.mp hr
    obtain ⟨-, rfl⟩ := pure_ok_iff.mp hc
    obtain ⟨-, runs, rest⟩ := (transferTurnSession_does _ _ _).ok hx
    exact hw.1.moved (sound hw.1.clear.sound) runs (congrArg Tables.turnRunMessages rest :) _ _
  · refine Meets.bind (Q := fun _ => Resumed turnId) ?_ fun _ => writeCurrentTurn_resumed calm joined
    exact meets_exec fun w hw => ⟨⟨hw.clear.sound, hw.clear.clear⟩, hw.active, hw.turn, hw.ids⟩

theorem resumeEvent_resumed (event : ResumeEvent) :
    Meets (Resumed turnId) (resumeEvent env event) (fun _ => Resumed turnId) E := by
  cases event with
  | admits ids joined now => exact meets_elsewhere (admitPage_resumed calm ids joined now)
  | bind session joined => exact meets_elsewhere (admitRetryAttempt_resumed calm session joined)
  | other op =>
    refine Meets.ite (fun quiet => meets_elsewhere ?_) fun _ => meets_pure fun w hw => hw
    refine meets_call calm (fun w s' calls hw hr sound => ?_) fun w hw _ => ⟨⟨_, rfl⟩, hw.ticked _⟩
    have same := ((perform_sameTurns quiet).ok hr).2
    exact hw.moved (sound hw.clear.sound) (Tables.sameRuns_of_eq same.runs) same.members _ _

theorem runRecoveryRetries_resumed (events : List ResumeEvent) :
    Meets (Resumed turnId) (runRecoveryRetries env events) (fun _ => Resumed turnId) E := by
  induction events with
  | nil => exact meets_pure fun w hw => hw
  | cons event events ih => exact (resumeEvent_resumed calm event).bind fun _ => ih

/-- A completion either ends the turn or raises with the turn as it was. -/
theorem completeRecovery_clears : Meets (Resumed turnId) (completeRecovery env turnId) (fun _ => Clear)
    fun e w => e.isRaised ∧ Resumed turnId w := by
  refine Meets.bind (Q := fun _ => Clear) ?_ fun _ => Meets.query_bind fun session => ?_
  · refine Meets.query_bind fun active => Meets.query_bind fun found => ?_
    have fallback : Meets (Resumed turnId) (completeUnreconciled env turnId active) (fun _ => Clear)
        fun e w => e.isRaised ∧ Resumed turnId w := by
      refine Meets.tryCatch (call_clears calm _) fun e => ?_
      cases e with
      | raised message => exact (call_clears calm _).pre fun w hw => hw.2
      | crashed => exact meets_throw fun w hw => hw
      | cancelled => exact meets_throw fun w hw => hw
    cases found with
    | reconciled t rows renoticeIds => exact (call_clears calm _).pre fun w hw => hw.1.1
    | _ => exact fallback.pre fun w hw => hw.1.1
  · refine Meets.bind (Q := fun _ => Clear) ?_ fun _ => ?_
    · exact meets_release calm fun w s' calls hw _ sound => ⟨sound hw.1.sound, hw.1.clear⟩
    · exact meets_clearTerminalTurn calm fun w hw => ⟨hw.sound, hw.clear⟩

theorem resumeActivatedTurn_clears (running : env.result ≠ .cancelled) {raw : Json}
    (hashable : (raw.member "provider_session_id").all isHashable = true) (run : TurnRun) (ids : List String) :
    Meets (Resumed run.turnId) (resumeActivatedTurn env run.turnId raw run ids) (fun _ => Clear) E := by
  have unwound {E : Failure → Workspace → Prop} :
      Meets (Resumed run.turnId) (unwindRecovery env raw (some run) ids true) (fun _ => Clear) E :=
    (unwindRecovery_clears calm hashable run ids true).pre fun w hw => hw.returnable ids
  refine Meets.ite (fun _ => unwound) fun _ => ?_
  refine Meets.tryCatch (F := fun e w => e.isRaised ∧ Resumed run.turnId w) ?_ fun e => ?_
  · refine (runRecoveryRetries_resumed calm env.resumed).bind fun _ => ?_
    cases hres : env.result with
    | succeeded => exact completeRecovery_clears calm
    | failed => exact unwound
    | cancelled => exact absurd hres running
  · cases e with
    | raised message => exact unwound.pre fun w hw => hw.2
    | crashed =>
      rintro w ⟨⟨message, h⟩, -⟩
      cases h
    | cancelled =>
      rintro w ⟨⟨message, h⟩, -⟩
      cases h

end Resumption

section Join
variable {env : Circumstances} {E : Failure → Workspace → Prop}

/-- What the writers of the join and of the admitted rows promise, and no interruption. -/
structure Undisturbed (env : Circumstances) (w : Workspace) : Prop where
  calm : env.Calm
  running : env.result ≠ .cancelled
  /-- `_write_current_turn` writes the session as a text or as `None`. -/
  written : ∀ raw, w.currentTurn = .holds raw → (raw.member "provider_session_id").all isHashable = true
  /-- A row is formatted before a turn admits it. -/
  formatted : ∀ raw turnId session, w.currentTurn = .holds raw → joinedTurnId raw = some turnId →
    ∀ m ∈ Covers.getInTurnMessages turnId session w.tables,
      ∃ text, formatStoredMessage env.host env.identityAliases m = .ok text

theorem mapM_returns {α β ε : Type} {f : α → Except ε β} {as : List α} (h : ∀ a ∈ as, ∃ b, f a = .ok b) :
    ∃ bs, as.mapM f = .ok bs := by
  induction as with
  | nil => exact ⟨[], rfl⟩
  | cons a as ih =>
    obtain ⟨b, hb⟩ := h a (List.mem_cons_self)
    obtain ⟨bs, hbs⟩ := ih fun a ha => h a (List.mem_cons_of_mem _ ha)
    refine ⟨b :: bs, ?_⟩
    rw [List.mapM_cons, hb]
    change (List.mapM f as >>= fun bs => pure (b :: bs)) = _
    rw [hbs]
    rfl

theorem recoveryPlan_returns {s : Tables} {turnId : String}
    (h : ∀ session, ∀ m ∈ Covers.getInTurnMessages turnId session s,
      ∃ text, formatStoredMessage env.host env.identityAliases m = .ok text)
    (raw : Json) (run : TurnRun) (ids : List String) :
    ∃ plan, recoveryPlan env raw turnId run ids s = .ok plan ∧ ∀ planned, plan = some planned → planned.turnId = turnId := by
  set rows := if run.providerSessionId.getD "" ≠ "" then Covers.getInTurnMessages turnId run.providerSessionId s
    else [] with hrows
  have shown : ∀ m ∈ rows, ∃ text, formatStoredMessage env.host env.identityAliases m = .ok text := by
    intro m hm
    rw [hrows] at hm
    split at hm
    · exact h _ m hm
    · cases hm
  obtain ⟨blocks, hblocks⟩ := mapM_returns shown
  set planned : PlannedTurn := ⟨turnId, rows.map (·.row.envelopeId), rows.map (routeFor env),
    ((rows.map (routeFor env)).map (·.target)).eraseDups, blocks⟩ with hplanned
  have reconstructed : reconstructExactTurn env turnId rows = .ok planned := by
    rw [reconstructExactTurn, hblocks]
    rfl
  have plan : recoveryPlan env raw turnId run ids s = .ok
      (if run.providerSessionId = none ∨ env.providerSessionId ≠ run.providerSessionId then none
      else if rows = [] ∨ planned.messageIds ≠ ids then none
      else if ¬ (raw.member "message_ids").any (isListOf (fun id => isText (some id)) ids) ∨
          ¬ (raw.member "routes").any (isListOf (fun route => isDictOf route.asDict) planned.routes) ∨
          ¬ (raw.member "targets").any
            (isListOf (fun target => isListOf (fun part => isText (some part)) target) planned.targets) then none
      else some planned) := by
    rw [recoveryPlan, reconstructed]
    rfl
  refine ⟨_, plan, fun p hp => ?_⟩
  split_ifs at hp
  cases hp
  rfl

/-- The joined turn as the store has it. -/
structure Joined (env : Circumstances) (run : TurnRun) (w : Workspace) : Prop where
  clear : Clear w
  stored : getTurnRun run.turnId w.tables = some run
  formatted : ∀ session, ∀ m ∈ Covers.getInTurnMessages run.turnId session w.tables,
    ∃ text, formatStoredMessage env.host env.identityAliases m = .ok text

theorem Joined.held {run : TurnRun} {w : Workspace} (h : Joined env run w) (hst : run.state = .inTurn) :
    w.tables.isActive run.turnId ∧ durableIds run = turnMessageIds w.tables run.turnId := by
  obtain ⟨-, hids, active⟩ := isActive_of_getTurnRun h.stored
  exact ⟨active hst, by rw [durableIds, if_pos hst, hids]⟩

theorem Joined.returnable {run : TurnRun} {w : Workspace} (h : Joined env run w) :
    Returnable run (durableIds run) false w :=
  ⟨h.clear, fun hst => ⟨(h.held hst).1, by simpa [requeueIds] using (h.held hst).2⟩⟩

variable (calm : env.Calm) (running : env.result ≠ .cancelled) {raw : Json}
  (hashable : (raw.member "provider_session_id").all isHashable = true)
include calm running hashable

theorem recoverRun_clears (run : TurnRun) : Meets (Joined env run) (recoverRun env raw run) (fun _ => Clear) E := by
  have unwound : Meets (Joined env run) (unwindRecovery env raw (some run) (durableIds run) false) (fun _ => Clear) E :=
    (unwindRecovery_clears calm hashable run _ false).pre fun w hw => hw.returnable
  refine Meets.ite (fun _ => unwound) fun hvalid => Meets.query_bind fun diagnostic => ?_
  have hst : run.state = .inTurn := by
    by_contra hne
    exact hvalid (.inr (.inr (.inl hne)))
  refine Meets.ite (fun _ => unwound.pre fun w hw => hw.1) fun _ => Meets.query_bind fun plan => ?_
  match plan with
  | .error e =>
    rintro w ⟨⟨hw, -⟩, hp⟩
    obtain ⟨plan, hplan, -⟩ := recoveryPlan_returns hw.formatted raw run (durableIds run)
    rw [hplan] at hp
    cases hp
  | .ok none => exact unwound.pre fun w hw => hw.1.1
  | .ok (some planned) =>
    refine Meets.bind (Q := fun _ => Resumed run.turnId) (meets_exec ?_) fun _ =>
      resumeActivatedTurn_clears calm running hashable run _
    rintro w ⟨⟨hw, -⟩, hp⟩
    obtain ⟨plan, hplan, hturn⟩ := recoveryPlan_returns hw.formatted raw run (durableIds run)
    obtain rfl := Except.ok.inj (hplan.symm.trans hp)
    exact ⟨⟨hw.clear.sound, hw.clear.clear⟩, (hw.held hst).1, hturn planned rfl, (hw.held hst).2⟩

end Join

section Orphans
variable {env : Circumstances} {E : Failure → Workspace → Prop}

/-- The runs left to put back: every active turn, once, with the rows it holds. -/
structure Orphans (runs : List TurnRun) (w : Workspace) : Prop where
  clear : Clear w
  listed : ∀ t, w.tables.isActive t → t ∈ runs.map (·.turnId)
  held : ∀ run ∈ runs, w.tables.isActive run.turnId ∧ run.messageIds = turnMessageIds w.tables run.turnId
  nodup : (runs.map (·.turnId)).Nodup

theorem getActiveTurnRuns_ids (s : Tables) : (getActiveTurnRuns s).map (·.turnId) =
    ((s.turnRuns.select (·.state = .inTurn)).insertionSort
      (fun a b => toLex (a.startedAt, a.turnId) ≤ toLex (b.startedAt, b.turnId))).map (·.turnId) := by
  rw [getActiveTurnRuns]
  set sorted := (s.turnRuns.select (·.state = .inTurn)).insertionSort
    (fun a b => toLex (a.startedAt, a.turnId) ≤ toLex (b.startedAt, b.turnId)) with hsorted
  have stored : ∀ r ∈ sorted, s.turnRuns.get? r.turnId = some r := fun r hr =>
    Table.get?_of_mem (List.mem_filter.mp ((List.mem_insertionSort _).mp hr)).1
  clear_value sorted
  clear hsorted
  induction sorted with
  | nil => rfl
  | cons r rs ih =>
    have hr : getTurnRun r.turnId s = some ⟨r.turnId, r.providerSessionId, r.state, turnMessageIds s r.turnId,
        r.startedAt, r.completedAt⟩ := by
      rw [getTurnRun, stored r List.mem_cons_self, Option.map_some]
    rw [List.map_cons, List.filterMap_cons_some (f := fun id => getTurnRun id s) hr, List.map_cons, ih fun r hr => stored r (List.mem_cons_of_mem _ hr)]

theorem getActiveTurnRuns_orphans {w : Workspace} (clear : Clear w) : Orphans (getActiveTurnRuns w.tables) w where
  clear := clear
  listed t ha := by
    obtain ⟨r, hg, hst⟩ := Option.map_eq_some_iff.mp ha
    rw [getActiveTurnRuns_ids, ← Table.get?_key hg]
    refine List.mem_map_of_mem ((List.mem_insertionSort _).mpr (List.mem_filter.mpr ⟨Table.mem_of_get? hg, ?_⟩))
    exact decide_eq_true hst
  held run hrun := by
    obtain ⟨id, hid, hrun⟩ := List.mem_filterMap.mp hrun
    obtain ⟨r, hr, rfl⟩ := List.mem_map.mp hid
    obtain ⟨hid, hids, active⟩ := isActive_of_getTurnRun hrun
    have stored := List.mem_filter.mp ((List.mem_insertionSort _).mp hr)
    have hst : run.state = .inTurn := by
      rw [getTurnRun, Table.get?_of_mem stored.1] at hrun
      obtain rfl := Option.some.inj hrun
      exact of_decide_eq_true stored.2
    rw [hid]
    exact ⟨active hst, hids⟩
  nodup := by
    rw [getActiveTurnRuns_ids]
    refine ((List.perm_insertionSort _ _).map _).nodup_iff.mpr ?_
    exact w.tables.turnRuns.nodup.sublist (List.filter_sublist.map _)

/-- Putting the first run back leaves the others. -/
theorem Orphans.tail {run : TurnRun} {runs : List TurnRun} {w : Workspace} (h : Orphans (run :: runs) w)
    {s' : Tables} (finished : Finished run.turnId .requeued w.tables s') (sound : Sound s') (calls : List Op)
    (ticks : Nat) : Orphans runs { w with tables := s', calls := calls, ticks := ticks } where
  clear := ⟨sound, h.clear.clear⟩
  listed t ha := by
    have hne : t ≠ run.turnId := by
      rintro rfl
      exact absurd (ha.symm.trans finished.now) (by decide)
    have was : w.tables.isActive t := by
      rw [Tables.isActive, ← finished.runs t hne]
      exact ha
    exact (List.mem_cons.mp (h.listed t was)).resolve_left hne
  held other hother := by
    have hne : other.turnId ≠ run.turnId := fun he =>
      (List.nodup_cons.mp h.nodup).1 (List.mem_map.mpr ⟨other, hother, he⟩)
    obtain ⟨active, ids⟩ := h.held other (List.mem_cons_of_mem _ hother)
    refine ⟨?_, ids.trans (turnMessageIds_of_eq finished.members _).symm⟩
    rw [Tables.isActive, finished.runs _ hne]
    exact active
  nodup := (List.nodup_cons.mp h.nodup).2

theorem Orphans.moved {runs : List TurnRun} {w : Workspace} (h : Orphans runs w) {s' : Tables}
    (same : SameTurns w.tables s') (sound : Sound s') (calls : List Op) (ticks : Nat) :
    Orphans runs { w with tables := s', calls := calls, ticks := ticks } where
  clear := ⟨sound, h.clear.clear⟩
  listed t ha := h.listed t ((isActive_of_sameRuns (Tables.sameRuns_of_eq same.runs) t).mp ha)
  held run hrun := ⟨(isActive_of_sameRuns (Tables.sameRuns_of_eq same.runs) _).mpr (h.held run hrun).1,
    (h.held run hrun).2.trans (turnMessageIds_of_eq same.members _).symm⟩
  nodup := h.nodup

theorem requeueOrphans_settles (calm : env.Calm) (runs : List TurnRun) :
    Meets (Orphans runs) (requeueOrphans env runs) (fun _ w => Clear w ∧ ∀ t, ¬ w.tables.isActive t) E := by
  induction runs with
  | nil => exact meets_pure fun w hw => ⟨hw.clear, fun t ha => by simpa using hw.listed t ha⟩
  | cons run runs ih =>
    refine Meets.bind (Q := fun _ => Orphans runs) ?_ fun _ => Meets.bind (Q := fun _ => Orphans runs) ?_ fun _ => ih
    · refine meets_requeueRun calm (fun w hw => ?_) fun w s' calls hw finished sound => hw.tail finished sound _ _
      obtain ⟨active, ids⟩ := hw.held run List.mem_cons_self
      exact ⟨hw.clear.sound, active, ids⟩
    · exact meets_release calm fun w s' calls hw same sound => hw.moved same (sound hw.clear.sound) _ _

end Orphans

section Startup
variable {env : Circumstances}

/-- What `recover_current_turn` leaves: a store that needs no recovery, or the store as it was. -/
theorem recoverCurrentTurn_settles {w₀ : Workspace} (hs : Sound w₀.tables) (h : Undisturbed env w₀) :
    Meets (fun w => w = w₀) (recoverCurrentTurn env) (fun _ w => Clear w ∨ Waits w₀.tables w₀.record w)
      fun _ w => Held w₀.tables w ∧ Gated w₀.tables w₀.record := by
  refine Meets.bind (Q := fun required w => w = w₀ ∧ w.required = required) ?_ fun required => ?_
  · refine Meets.bind (meets_readRecovery.mono (fun w hw => hw) (fun _ _ hq => hq) fun _ w hw => ?_)
      fun record => meets_pure fun w hw => ⟨hw.1, ?_⟩
    · obtain ⟨rfl, hr⟩ := hw
      exact ⟨⟨rfl, required_of_invalid hr⟩, by rw [hr]; trivial⟩
    · obtain ⟨-, hr⟩ := hw
      cases record with
      | none => simp [Workspace.required, hr]
      | some record => simp [Workspace.required, hr]
  · cases required with
    | true =>
      refine Meets.ite (fun _ => ?_) fun hne => absurd rfl hne
      have held (w : Workspace) (hw : w = w₀ ∧ w.required = true) : Held w₀.tables w := ⟨by rw [hw.1], hw.2⟩
      refine Meets.bind (meets_readRecovery.mono (fun w hw => hw) (fun _ _ hq => hq) fun _ w hw => ?_)
        fun record => ?_
      · obtain ⟨hw, hr⟩ := hw
        exact ⟨held w hw, by rw [← hw.1, hr]; trivial⟩
      · cases record with
        | none =>
          refine meets_pure fun w hw => absurd hw.1.2 ?_
          simp [Workspace.required, hw.2]
        | some record =>
          refine Meets.ite (fun authorized => ?_) fun unauthorized => meets_pure fun w hw => .inr ?_
          · rintro w ⟨hw, hr⟩
            have same : w₀.record = .holds record := hw.1 ▸ hr
            rw [same]
            exact ((retryQuarantinedTurn_settles h.calm hs authorized).post fun _ w hw => .inl hw) w ⟨held w hw, hr⟩
          · obtain ⟨hw, hr⟩ := hw
            refine ⟨held w hw, by rw [hw.1], fun found stored => ?_⟩
            rw [← hw.1, hr] at stored
            exact Stored.holds.inj stored ▸ unauthorized
    | false =>
      refine Meets.ite (fun hne => absurd hne (by decide)) fun _ => Meets.query_bind fun file => ?_
      have clear (w : Workspace) (hw : w = w₀ ∧ w.required = false) : Clear w := ⟨by rw [hw.1]; exact hs, hw.2⟩
      cases file with
      | missing => exact meets_pure fun w hw => .inl (clear w hw.1)
      | invalid =>
        exact meets_clearTerminalTurn h.calm fun w hw => .inl ⟨(clear w hw.1).sound, (clear w hw.1).clear⟩
      | holds raw =>
        refine Meets.post (Q := fun _ => Clear) ?_ fun _ w hw => .inl hw
        refine Meets.query_bind fun found => ?_
        cases found with
        | none =>
          refine Meets.bind (Q := fun _ => Clear) (meets_pure fun w hw => clear w hw.1.1) fun _ => ?_
          exact meets_clearTerminalTurn h.calm fun w hw => ⟨hw.sound, hw.clear⟩
        | some run =>
          intro w hw
          obtain ⟨⟨⟨rfl, required⟩, file⟩, found⟩ := hw
          refine recoverRun_clears h.calm h.running (h.written raw file) run w ?_
          obtain ⟨turnId, joined, found⟩ := Option.bind_eq_some_iff.mp found
          obtain ⟨rfl, -, -⟩ := isActive_of_getTurnRun found
          exact ⟨⟨hs, required⟩, found, fun session => h.formatted raw run.turnId session file joined⟩

theorem recoverOrphanedTurns_settles {s : Tables} (hs : Sound s) (stored : Stored TurnRecovery) (calm : env.Calm) :
    Meets (fun w => Clear w ∨ Waits s stored w) (recoverOrphanedTurns env)
      (fun _ w => (Clear w ∧ ∀ t, ¬ w.tables.isActive t) ∨ (Held s w ∧ Gated s stored))
      fun _ w => Held s w ∧ Gated s stored := by
  refine (resolveEffectlessRecovery_settles calm hs stored).bind fun resolved => ?_
  cases resolved with
  | true =>
    refine Meets.ite (fun _ => Meets.query_bind fun runs => ?_) fun hne => absurd rfl hne
    refine ((requeueOrphans_settles calm runs).pre ?_).post fun _ w hw => .inl hw
    rintro w ⟨clear, rfl⟩
    exact getActiveTurnRuns_orphans clear
  | false =>
    refine Meets.ite (fun hne => absurd hne (by decide)) fun _ => meets_pure fun w hw => .inr ?_
    simpa using hw

/-- An undisturbed startup leaves no turn active, or leaves the store as it is behind a record that
needs the operator. -/
theorem startup_settles {w : Workspace} (hs : Sound w.tables) (h : Undisturbed env w) :
    (startup env w = .ok () ((startup env).left w) ∧ ((startup env).left w).required = false ∧
      ∀ t, ¬ ((startup env).left w).tables.isActive t) ∨
    (Gated w.tables w.record ∧ ((startup env).left w).required = true ∧ ((startup env).left w).tables = w.tables) := by
  have settles : Meets (fun w' => w' = w) (startup env)
      (fun _ w' => (Clear w' ∧ ∀ t, ¬ w'.tables.isActive t) ∨ (Held w.tables w' ∧ Gated w.tables w.record))
      fun _ w' => Held w.tables w' ∧ Gated w.tables w.record :=
    (recoverCurrentTurn_settles hs h).bind fun _ => recoverOrphanedTurns_settles hs w.record h.calm
  have ends := settles w rfl
  unfold Stmt.left
  cases hr : startup env w with
  | ok u w' =>
    rw [hr] at ends
    rcases ends with ⟨clear, idle⟩ | ⟨held, gated⟩
    · exact .inl ⟨rfl, clear.clear, idle⟩
    · exact .inr ⟨gated, held.required, held.tables⟩
  | error e w' =>
    rw [hr] at ends
    exact .inr ⟨ends.2, ends.1.required, ends.1.tables⟩

end Startup

section History

/-- The workspace is what the store calls since the given one have made of it. -/
def Follows (w₀ w : Workspace) : Prop :=
  ∃ calls, w.calls = w₀.calls ++ calls ∧ w.tables = run step w₀.tables calls

theorem stable_follows (w₀ : Workspace) : Stable (Follows w₀) where
  call w w' op h := by
    rintro ⟨calls, hc, ht⟩
    unfold Workspace.call at h
    cases hr : op.perform ⟨w.tables, none⟩ with
    | error e c =>
      rw [hr] at h
      cases h
    | ok u c =>
      rw [hr] at h
      cases h
      refine ⟨calls ++ [op], by rw [hc, List.append_assoc], ?_⟩
      rw [run_append, ← ht]
      simp [step, Sql.after, hr]
  rest w w' ht hc := by
    rintro ⟨calls, hcalls, htables⟩
    exact ⟨calls, hc.trans hcalls, ht.trans htables⟩

theorem startup_follows (env : Circumstances) (w : Workspace) : Follows w ((startup env).left w) :=
  (stable_follows w).startup.left ⟨[], by simp, rfl⟩

end History

section Results

/-- A startup, however it is interrupted, changes the store by store calls alone, ends each turn in
one of them, and never touches a turn that has ended. Undisturbed, it leaves no turn active, or it
leaves the store as it is behind a record that needs the operator. -/
theorem crash_recovery (ops : List Op) (env : Circumstances) (w : Workspace)
    (stored : w.tables = run step Tables.empty ops) :
    (∃ calls, ((startup env).left w).calls = w.calls ++ calls ∧
      ((startup env).left w).tables = run step Tables.empty (ops ++ calls) ∧
      (∀ t, ¬ w.tables.hasEnded t → ((startup env).left w).tables.hasEnded t →
        ∃! i, i < calls.length ∧ ¬ (run step Tables.empty (ops ++ calls.take i)).hasEnded t ∧
          (run step Tables.empty (ops ++ calls.take (i + 1))).hasEnded t) ∧
      ∀ p t state, p <+: calls → (run step Tables.empty (ops ++ p)).turnState t = some state → state ≠ .inTurn →
        ((startup env).left w).tables.turnState t = some state) ∧
    (Undisturbed env w →
      (startup env w = .ok () ((startup env).left w) ∧ ((startup env).left w).required = false ∧
        ∀ t, ¬ ((startup env).left w).tables.isActive t) ∨
      (Gated w.tables w.record ∧ ((startup env).left w).required = true ∧ ((startup env).left w).tables = w.tables)) := by
  refine ⟨?_, startup_settles (stored ▸ sound_run ops)⟩
  obtain ⟨calls, hcalls, htables⟩ := startup_follows env w
  refine ⟨calls, hcalls, by rw [htables, stored, run_append], fun t open_ ended => ?_, fun p t state hp hs hne => ?_⟩
  · rw [htables] at ended
    simpa only [run_append, ← stored] using hasEnded_once open_ ended
  · obtain ⟨later, rfl⟩ := hp
    rw [htables, stored, run_append, ← run_append step Tables.empty ops p]
    exact turnState_run hs hne

/-- A host on which nothing goes wrong. -/
def calmly (resumed : List ResumeEvent) : Circumstances where
  faults _ := none
  host := asciiHost
  isTwo _ := false
  identityAliases := []
  coversRenoticeEnabled := true
  providerSessionId := some "session-1"
  canRetry := true
  resumed := resumed
  result := .succeeded
  reconciliationFails := false
  now := 50

/-- A turn with a row in it, and an empty one. -/
def crashedOps : List Op :=
  [.storeReceipt { envelopeId := "env-1", sentAt := 1 } 1 .eligible "visible" 1 1,
    .admitMessages ["env-1"] "turn-1" (some "session-1") none 2,
    .startTurn "turn-2" (some "session-1") none none [] 3]

/-- The workspace that a crash leaves with the given files. -/
def crashedWith (record : Stored TurnRecovery) (currentTurn : Stored Json) : Workspace where
  tables := run step Tables.empty crashedOps
  calls := []
  record := record
  currentTurn := currentTurn
  outbox := none
  active := {}
  ticks := 0

/-- The crash join of the first turn. -/
def crashedJoin : Json :=
  .obj [("version", .int 2), ("turn_id", .str "turn-1"), ("message_ids", .arr [.str "env-1"]),
    ("targets", .arr [.arr [.str "channel", .str "", .str ""]]),
    ("routes", .arr [.obj [("envelope_id", .str "env-1"), ("kind", .str "channel"), ("space_id", .str ""),
      ("channel_id", .str ""), ("thread_root_id", .str ""), ("dm_peer", .str "")]]),
    ("provider_session_id", .str "session-1")]

theorem crashedRows_formatted (session : Option String) :
    ∀ m ∈ Covers.getInTurnMessages "turn-1" session (run step Tables.empty crashedOps),
      ∃ text, formatStoredMessage asciiHost [] m = .ok text := by
  intro m hm
  have stored : (run step Tables.empty crashedOps).turnRuns.get? "turn-1" =
      some ⟨"turn-1", some "session-1", .inTurn, 2, none⟩ := by decide +kernel
  have shown : ∀ m ∈ Covers.getInTurnMessages "turn-1" (some "session-1") (run step Tables.empty crashedOps),
      (formatStoredMessage asciiHost [] m).toOption.isSome = true := by decide +kernel
  by_cases hs : session = some "session-1"
  · subst hs
    cases ht : formatStoredMessage asciiHost [] m with
    | ok text => exact ⟨text, rfl⟩
    | error e => simpa [ht, Except.toOption] using shown m hm
  · cases session with
    | none => simp [Covers.getInTurnMessages] at hm
    | some session =>
      have hne : (some "session-1" : Option String) ≠ some session := fun h => hs h.symm
      simp [Covers.getInTurnMessages, stored, hne] at hm

theorem undisturbed_calmly (resumed : List ResumeEvent) :
    Undisturbed (calmly resumed) (crashedWith .missing (.holds crashedJoin)) where
  calm _ := rfl
  running := nofun
  written := by
    rintro raw ⟨⟩
    decide
  formatted := by
    rintro raw turnId session ⟨⟩ hj
    obtain rfl : "turn-1" = turnId := Option.some.inj hj
    exact crashedRows_formatted session

/-- The joined turn runs again, takes in a message that has arrived, and is completed; the empty
turn is put back. -/
theorem crash_recovery_resumed :
    let events : List ResumeEvent :=
      [.other (.storeReceipt { envelopeId := "env-2", sentAt := 4 } 2 .eligible "visible" 4 4),
        .admits ["env-2"] crashedJoin 5]
    let w := crashedWith .missing (.holds crashedJoin)
    startup (calmly events) w = .ok () ((startup (calmly events)).left w) ∧
      (∀ t, ¬ ((startup (calmly events)).left w).tables.isActive t) ∧
      ((startup (calmly events)).left w).tables.turnState "turn-1" = some .processed ∧
      ((startup (calmly events)).left w).tables.turnState "turn-2" = some .requeued := by
  intro events w
  have settled := (crash_recovery crashedOps (calmly events) w rfl).2 (undisturbed_calmly events)
  have clear : ((startup (calmly events)).left w).required = false := by decide +kernel
  rcases settled with ⟨returned, -, idle⟩ | ⟨-, held, -⟩
  · exact ⟨returned, idle, by decide +kernel, by decide +kernel⟩
  · rw [clear] at held
    cases held

/-- An unresolved record of one turn leaves the other turns active, though it names none of them. -/
theorem unresolved_record_holds_others :
    let record : TurnRecovery := ⟨"logical-1", "turn-ref-1", "session-9", "native-1", "autonomous",
      "outcome unknown", "turn-9", true, false, false, false⟩
    let w := crashedWith (.holds record) (.holds crashedJoin)
    w.tables.turnState "turn-1" = some .inTurn ∧ w.tables.turnState "turn-2" = some .inTurn ∧
      (match startup (calmly []) w with | .ok _ _ => true | .error _ _ => false) = true ∧
      ((startup (calmly [])).left w).tables.turnState "turn-1" = some .inTurn ∧
      ((startup (calmly [])).left w).tables.turnState "turn-2" = some .inTurn ∧
      ((startup (calmly [])).left w).calls = [] ∧
      record.durableTurnId ≠ "turn-1" ∧ record.durableTurnId ≠ "turn-2" := by decide +kernel

end Results

end PuffoAgent.Recovery
