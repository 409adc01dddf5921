import PuffoAgent.Reports.Outbox
import PuffoAgent.Machine.Run

/-! The newest result of a run stays in the outbox until it is itself uploaded, rejected alone, or
too old. -/
namespace PuffoAgent.Reports
open Machine Relational Text

inductive Event where
  | enqueued (values : List RunResult)
  | acknowledged (values : List RunResult)
  | discarded (value : RunResult)
  | expired (values : List RunResult)
  deriving DecidableEq

namespace Event

def Names (runId : String) : Event → Prop
  | enqueued values => ∃ v ∈ values, v.runId = runId
  | _ => False

/-- The server took the result, or rejected it in a request of its own. -/
def Delivers (v : RunResult) : Event → Prop
  | acknowledged values => v ∈ values
  | discarded value => value = v
  | _ => False

def Expires (v : RunResult) : Event → Prop
  | expired values => v ∈ values
  | _ => False

end Event

/-- A run of the dispatcher, with what came of the results, the newest event first. -/
structure Trace where
  dispatcher : Dispatcher := {}
  events : List Event := []

namespace Trace
variable (str : Json → String)

/-- What an answer means for the results it is about. -/
def settled (reports : List ProcessingReport) : Answer → List Event
  | .httpError status => match reports with
    | [report] => if Dispatcher.retriable status then [] else [.discarded report.toRunResult]
    | _ => []
  | .response value =>
    if validateAcknowledgement str value (reports.map (·.runId)) = .accepted then
      [.acknowledged (reports.map (·.toRunResult))] else []
  | _ => []

def happened (d : Dispatcher) : Op → List Event
  | .enqueue nowMs reports => match (d.outbox.enqueue str nowMs reports).1 with
    | .ok values => [.enqueued values]
    | .error _ => []
  | .flush nowMs _ => [.expired ((d.outbox.select (·.createdAtMs < nowMs - retentionMs)).map (·.toRunResult))]
  | .answer upload answer => match d.uploads[upload]? with
    | none => []
    | some (_, reports) => settled str reports answer

def step (t : Trace) (op : Op) : Trace where
  dispatcher := t.dispatcher.step str op
  events := happened str t.dispatcher op ++ t.events

/-- The newest result of its run, not delivered or expired since. -/
def Owed (v : RunResult) : List Event → Prop
  | [] => False
  | e :: older => (∃ values, e = .enqueued values ∧ v ∈ values) ∨
      (Owed v older ∧ ¬ e.Names v.runId ∧ ¬ e.Delivers v ∧ ¬ e.Expires v)

end Trace

/-- The outbox has the result. -/
def Stored (t : ReportOutbox) (v : RunResult) : Prop := ∃ r, t.get? v.runId = some r ∧ r.toRunResult = v

section Operations
variable {str : Json → String} {t : ReportOutbox} {v : RunResult}

theorem upsert_other {nowMs : Int} {w : RunResult} {runId : String} (h : w.runId ≠ runId) :
    (t.upsert nowMs w).get? runId = t.get? runId := by
  unfold ReportOutbox.upsert
  split
  · exact (Table.get?_put _ _ _).trans (if_neg h)
  · split
    · exact (Table.get?_put _ _ _).trans (if_neg h)
    · rfl

theorem upserts_other {nowMs : Int} {values : List RunResult} {runId : String} (h : ∀ w ∈ values, w.runId ≠ runId) :
    (values.foldl (ReportOutbox.upsert nowMs) t).get? runId = t.get? runId := by
  induction values generalizing t with
  | nil => rfl
  | cons w values ih =>
    obtain ⟨hw, h⟩ := List.forall_mem_cons.1 h
    rw [List.foldl_cons, ih h, upsert_other hw]

theorem enqueueAll_eq_some {nowMs : Int} {values : List RunResult} {after : ReportOutbox}
    (h : t.enqueueAll nowMs values = some after) :
    after = values.foldl (ReportOutbox.upsert nowMs) t ∧ ∀ w ∈ values, Stored after w := by
  unfold ReportOutbox.enqueueAll at h
  dsimp only at h
  split at h
  case isFalse => cases h
  case isTrue hall =>
    obtain rfl := Option.some.inj h
    refine ⟨rfl, fun w hw => ?_⟩
    simpa [Stored, Option.any_eq_true] using List.all_eq_true.1 hall w hw

/-- A run keeps the message it is bound to. -/
theorem upsert_message {nowMs : Int} {w : RunResult} {runId : String} {row : ProcessingReport}
    (h : t.get? runId = some row) : ∃ row', (t.upsert nowMs w).get? runId = some row' ∧ row'.messageId = row.messageId := by
  by_cases hrun : w.runId = runId
  · subst hrun
    unfold ReportOutbox.upsert
    rw [h]
    dsimp only
    split
    case isTrue hupdate => exact ⟨_, (Table.get?_put _ _ _).trans (if_pos rfl), hupdate.1.symm⟩
    case isFalse => exact ⟨row, h, rfl⟩
  · exact ⟨row, (upsert_other hrun).trans h, rfl⟩

theorem upserts_message {nowMs : Int} {values : List RunResult} {runId : String} {row : ProcessingReport}
    (h : t.get? runId = some row) :
    ∃ row', (values.foldl (ReportOutbox.upsert nowMs) t).get? runId = some row' ∧ row'.messageId = row.messageId := by
  induction values generalizing t row with
  | nil => exact ⟨row, h, rfl⟩
  | cons w values ih =>
    obtain ⟨row', h', heq⟩ := @upsert_message t nowMs w runId row h
    obtain ⟨row'', h'', heq'⟩ := ih h'
    exact ⟨row'', h'', heq'.trans heq⟩

/-- What an enqueue can do: keep the outbox, or store all of its results. -/
theorem enqueue_cases (nowMs : Int) (reports : List (List (String × Json))) :
    (∃ e, t.enqueue str nowMs reports = (.error e, t)) ∨
      ∃ values after, t.enqueue str nowMs reports = (.ok values, after) ∧
        reports.mapM (normalizeReport str) = .ok values ∧ after = values.foldl (ReportOutbox.upsert nowMs) t ∧
        ∀ w ∈ values, Stored after w := by
  unfold ReportOutbox.enqueue
  split
  · exact .inl ⟨_, rfl⟩
  · rename_i hvalues
    exact .inr ⟨[], t, rfl, hvalues, rfl, nofun⟩
  · rename_i values _ hvalues
    split
    · exact .inl ⟨_, rfl⟩
    · split
      · exact .inl ⟨_, rfl⟩
      · rename_i after hafter
        obtain ⟨rfl, hstored⟩ := enqueueAll_eq_some hafter
        exact .inr ⟨values, _, rfl, hvalues, rfl, hstored⟩

/-- Only the rows that were selected go. -/
theorem stored_acknowledge {reports : List ProcessingReport} (h : Stored t v)
    (hv : v ∉ reports.map (·.toRunResult)) : Stored (t.acknowledge reports) v := by
  obtain ⟨r, hr, rfl⟩ := h
  refine ⟨r, ?_, rfl⟩
  rw [ReportOutbox.acknowledge, Table.get?_delete, hr, Option.filter_some, if_pos]
  rw [Bool.not_eq_true', ← Bool.not_eq_true]
  intro hsel
  obtain ⟨q, hq, hver⟩ := List.mem_map.1 (of_decide_eq_true hsel)
  exact hv (List.mem_map.2 ⟨q, hq, congrArg Prod.fst hver⟩)

theorem stored_update {p : ProcessingReport → Bool} {f : ProcessingReport → ProcessingReport}
    {hf : ∀ r, (f r).runId = r.runId} (hres : ∀ r, (f r).toRunResult = r.toRunResult) (h : Stored t v) :
    Stored (t.update p f hf) v := by
  obtain ⟨r, hr, rfl⟩ := h
  refine ⟨if p r then f r else r, by rw [Table.get?_update, hr]; rfl, ?_⟩
  split
  · exact hres r
  · rfl

/-- The cleanup takes the expired rows only. -/
theorem stored_cleanup {nowMs : Int} (h : Stored t v)
    (hv : v ∉ (t.select (·.createdAtMs < nowMs - retentionMs)).map (·.toRunResult)) : Stored (t.cleanup nowMs) v := by
  obtain ⟨r, hr, rfl⟩ := h
  refine ⟨r, ?_, rfl⟩
  rw [ReportOutbox.cleanup, Table.get?_delete, hr, Option.filter_some, if_pos]
  rw [Bool.not_eq_true', ← Bool.not_eq_true]
  exact fun hold => hv (List.mem_map.2 ⟨r, List.mem_filter.2 ⟨Table.mem_of_get? hr, hold⟩, rfl⟩)

/-- An answer is about what its request carried. -/
theorem delivers_carried {reports : List ProcessingReport} {answer : Answer} {e : Event}
    (he : e ∈ Trace.settled str reports answer) (hd : e.Delivers v) : v ∈ reports.map (·.toRunResult) := by
  unfold Trace.settled at he
  split at he
  · split at he
    · split at he
      · cases he
      · rw [List.mem_singleton.1 he] at hd
        exact List.mem_singleton.2 hd.symm
    · cases he
  · split at he
    · rw [List.mem_singleton.1 he] at hd
      exact hd
    · cases he
  · cases he

theorem stored_settle {nowMs : Int} {reports : List ProcessingReport} {answer : Answer} (h : Stored t v)
    (hv : ∀ e ∈ Trace.settled str reports answer, ¬ e.Delivers v) :
    Stored (Dispatcher.settle str nowMs reports t answer) v := by
  unfold Dispatcher.settle
  split
  case h_1 status =>
    split
    case isTrue => exact stored_update (fun _ => rfl) h
    case isFalse hfinal =>
      split
      · rename_i report
        refine stored_acknowledge h fun hmem => hv (.discarded report.toRunResult) ?_ (List.mem_singleton.1 hmem).symm
        simp [Trace.settled, hfinal]
      · exact stored_update (fun _ => rfl) h
  case h_2 => exact stored_update (fun _ => rfl) h
  case h_3 value =>
    split
    · rename_i haccept
      have hevent : Event.acknowledged (reports.map (·.toRunResult)) ∈ Trace.settled str reports (.response value) := by
        simp [Trace.settled, haccept]
      exact stored_acknowledge h (hv _ hevent)
    · exact stored_update (fun _ => rfl) h
    · exact h
  case h_4 => exact h

end Operations

namespace Trace
variable {str : Json → String}

/-- What is owed is stored. -/
def Inv (t : Trace) : Prop := ∀ v, Owed v t.events → Stored t.dispatcher.outbox v

/-- After the events of one step, what is owed was enqueued by them, or is not touched by them. -/
theorem owed_append {v : RunResult} {new older : List Event} (h : Owed v (new ++ older)) (hone : new.length ≤ 1) :
    (∃ values, .enqueued values ∈ new ∧ v ∈ values) ∨
      (Owed v older ∧ ∀ e ∈ new, ¬ e.Names v.runId ∧ ¬ e.Delivers v ∧ ¬ e.Expires v) := by
  match new, hone with
  | [], _ => exact .inr ⟨h, nofun⟩
  | [e], _ =>
    rcases h with ⟨values, rfl, hv⟩ | ⟨hold, hfree⟩
    · exact .inl ⟨values, List.mem_singleton_self _, hv⟩
    · exact .inr ⟨hold, fun e' he' => by rw [List.mem_singleton.1 he']; exact hfree⟩

theorem happened_length (d : Dispatcher) (op : Op) : (happened str d op).length ≤ 1 := by
  unfold happened settled
  repeat' split
  all_goals simp

theorem settled_not_enqueued {reports : List ProcessingReport} {answer : Answer} {values : List RunResult} :
    .enqueued values ∉ settled str reports answer := by
  unfold settled
  repeat' split
  all_goals simp

theorem flush_outbox (nowMs : Int) (forceAll : Bool) (d : Dispatcher) :
    (d.flush nowMs forceAll).outbox = d.outbox.cleanup nowMs := by
  unfold Dispatcher.flush
  dsimp only
  split <;> rfl

theorem Inv.step {t : Trace} (h : t.Inv) (op : Op) : (t.step str op).Inv := by
  intro v hv
  have hcase := owed_append hv (happened_length t.dispatcher op)
  cases op with
  | enqueue nowMs reports =>
    change Stored (t.dispatcher.outbox.enqueue str nowMs reports).2 v
    rcases @enqueue_cases str t.dispatcher.outbox nowMs reports with
      ⟨e, he⟩ | ⟨values, after, he, -, rfl, hstored⟩
    · simp only [happened, he] at hcase ⊢
      rcases hcase with ⟨_, hmem, _⟩ | ⟨howed, _⟩
      · exact absurd hmem List.not_mem_nil
      · exact h v howed
    · simp only [happened, he] at hcase ⊢
      rcases hcase with ⟨values', hmem, hv'⟩ | ⟨howed, hfree⟩
      · obtain rfl := Event.enqueued.inj (List.mem_singleton.1 hmem)
        exact hstored v hv'
      · obtain ⟨r, hr, hres⟩ := h v howed
        refine ⟨r, (upserts_other fun w hw hrun => ?_).trans hr, hres⟩
        exact (hfree _ (List.mem_singleton_self _)).1 ⟨w, hw, hrun⟩
  | flush nowMs forceAll =>
    change Stored (t.dispatcher.flush nowMs forceAll).outbox v
    rw [flush_outbox]
    rcases hcase with ⟨_, hmem, _⟩ | ⟨howed, hfree⟩
    · cases List.mem_singleton.1 hmem
    · exact stored_cleanup (h v howed) (hfree _ (List.mem_singleton_self _)).2.2
  | answer upload answer =>
    cases hup : t.dispatcher.uploads[upload]? with
    | none =>
      simp only [Trace.step, Dispatcher.step, happened, hup] at hcase ⊢
      rcases hcase with ⟨_, hmem, _⟩ | ⟨howed, _⟩
      · exact absurd hmem List.not_mem_nil
      · exact h v howed
    | some found =>
      simp only [Trace.step, Dispatcher.step, happened, hup] at hcase ⊢
      rcases hcase with ⟨_, hmem, _⟩ | ⟨howed, hfree⟩
      · exact absurd hmem settled_not_enqueued
      · exact stored_settle (h v howed) fun e he => (hfree e he).2.1

theorem inv_run (ops : List Op) : (run (Trace.step str) {} ops).Inv :=
  run_invariant (fun _ h => h.elim) (fun _ op h => h.step op) ops

/-- The newest result that nothing has settled is owed. -/
theorem owed_of_newest {v : RunResult} {newer older : List Event} {values : List RunResult} (hv : v ∈ values)
    (h : ∀ e ∈ newer, ¬ e.Names v.runId ∧ ¬ e.Delivers v ∧ ¬ e.Expires v) :
    Owed v (newer ++ .enqueued values :: older) := by
  induction newer with
  | nil => exact .inl ⟨values, rfl, hv⟩
  | cons e newer ih =>
    obtain ⟨he, h⟩ := List.forall_mem_cons.1 h
    exact .inr ⟨ih h, he⟩

end Trace

/-- The newest result of a run is in the outbox, or the server was given that very result since, or
it became too old; a conflicting enqueue fails and changes nothing; and an answer removes only what
its request carried. -/
theorem reports_kept (str : Json → String) (ops : List Op) :
    let t := run (Trace.step str) {} ops
    (∀ newer values older v, t.events = newer ++ .enqueued values :: older → v ∈ values →
      (∀ e ∈ newer, ¬ e.Names v.runId) →
      Stored t.dispatcher.outbox v ∨ ∃ e ∈ newer, e.Delivers v ∨ e.Expires v) ∧
    (∀ nowMs reports values v row, reports.mapM (normalizeReport str) = .ok values → v ∈ values →
      t.dispatcher.outbox.get? v.runId = some row → row.messageId ≠ v.messageId →
      ∃ e, t.dispatcher.outbox.enqueue str nowMs reports = (.error e, t.dispatcher.outbox)) ∧
    ∀ upload nowMs reports answer v, t.dispatcher.uploads[upload]? = some (nowMs, reports) →
      v ∉ reports.map (·.toRunResult) → Stored t.dispatcher.outbox v →
      Stored (t.dispatcher.step str (.answer upload answer)).outbox v := by
  intro t
  refine ⟨?_, ?_, ?_⟩
  · intro newer values older v hevents hv hnewest
    by_contra hneither
    rw [not_or, not_exists] at hneither
    refine hneither.1 (Trace.inv_run ops v ?_)
    have howed := @Trace.owed_of_newest v newer older values hv fun e he =>
      ⟨hnewest e he, fun hd => hneither.2 e ⟨he, .inl hd⟩, fun hx => hneither.2 e ⟨he, .inr hx⟩⟩
    exact hevents ▸ howed
  · intro nowMs reports values v row hvalues hv hrow hbound
    refine enqueue_cases nowMs reports |>.resolve_right ?_
    rintro ⟨values', after, -, hvalues', rfl, hstored⟩
    obtain rfl := Except.ok.inj (hvalues.symm.trans hvalues')
    obtain ⟨r, hr, hres⟩ := hstored v hv
    obtain ⟨row', hrow', heq⟩ := @upserts_message t.dispatcher.outbox nowMs values v.runId row hrow
    obtain rfl := Option.some.inj (hr.symm.trans hrow')
    exact hbound (by rw [← heq, ← hres])
  · intro upload nowMs reports answer v hupload hv hstored
    simp only [Dispatcher.step, hupload]
    exact stored_settle hstored fun e he hd => hv (delivers_carried he hd)

/-- A result that is never uploaded, by a dispatcher that first runs again eight days later. -/
theorem expired_undelivered : ¬ ∀ (ops : List Op) newer values older v,
    (run (Trace.step fun _ => "") {} ops).events = newer ++ .enqueued values :: older → v ∈ values →
      (∀ e ∈ newer, ¬ e.Names v.runId) →
      Stored (run (Trace.step fun _ => "") {} ops).dispatcher.outbox v ∨ ∃ e ∈ newer, e.Delivers v := by
  intro h
  let v : RunResult := ⟨"run_1", "msg_1", true, none⟩
  let ops : List Op := [.enqueue 0 [[("run_id", .str "run_1"), ("message_id", .str "msg_1"), ("succeeded", .bool true)]],
    .flush 691200000 false]
  have hevents : (run (Trace.step fun _ => "") {} ops).events = [.expired [v]] ++ .enqueued [v] :: [] := by decide +kernel
  have hgone : (run (Trace.step fun _ => "") {} ops).dispatcher.outbox.get? v.runId = none := by decide +kernel
  rcases h ops _ _ _ v hevents (List.mem_singleton_self v) (by simp [Event.Names]) with ⟨r, hr, _⟩ | ⟨e, he, hd⟩
  · exact absurd (hgone.symm.trans hr) nofun
  · rw [List.mem_singleton.1 he] at hd
    exact hd

end PuffoAgent.Reports
