import PuffoAgent.Recovery.Startup
import PuffoAgent.Relational.Triple

/-! A startup changes the store by its calls alone, wherever it is interrupted. -/
namespace PuffoAgent.Recovery
open Relational Stmt Store Text Machine

/-- An invariant of the store calls that nothing else in the workspace concerns. -/
structure Stable (Inv : Workspace → Prop) : Prop where
  call : ∀ (w w' : Workspace) (op : Op), w.call op = .ok w' → Inv w → Inv w'
  rest : ∀ w w' : Workspace, w'.tables = w.tables → w'.calls = w.calls → Inv w → Inv w'

namespace Stable
variable {env : Circumstances} {Inv : Workspace → Prop} (h : Stable Inv)

include h

theorem durable {write : Workspace → Except Failure Workspace}
    (hw : ∀ w w', write w = .ok w' → Inv w → Inv w') : Keeps Inv (durable env write) := by
  intro w hi
  have ticked : Inv { w with ticks := w.ticks + 1 } := h.rest w _ rfl rfl hi
  have written : Inv ((write { w with ticks := w.ticks + 1 }).toOption.getD
      { w with ticks := w.ticks + 1 }) := by
    cases hr : write { w with ticks := w.ticks + 1 } with
    | ok w' => exact hw _ w' hr ticked
    | error e => exact ticked
  unfold Recovery.durable
  cases env.faults w.ticks with
  | some fault =>
    cases fault with
    | crash => exact ticked
    | cancel committed => cases committed <;> assumption
    | error committed => cases committed <;> assumption
  | none =>
    cases hr : write { w with ticks := w.ticks + 1 } with
    | ok w' => simpa only [hr] using hw _ w' hr ticked
    | error e => simpa only [hr] using ticked

theorem exec {f : Workspace → Workspace} (ht : ∀ w, (f w).tables = w.tables)
    (hc : ∀ w, (f w).calls = w.calls) : Keeps Inv (exec f : StartupM Unit) :=
  meets_exec fun w hi => h.rest w _ (ht w) (hc w) hi

theorem durableRest {f : Workspace → Workspace} (ht : ∀ w, (f w).tables = w.tables)
    (hc : ∀ w, (f w).calls = w.calls) : Keeps Inv (Recovery.durable env fun w => .ok (f w)) := by
  refine h.durable fun w w' hr hi => ?_
  obtain rfl := Except.ok.inj hr
  exact h.rest w _ (ht w) (hc w) hi

theorem storeCall (op : Op) : Keeps Inv (Recovery.call env op) :=
  h.durable fun w w' hr hi => h.call w w' op hr hi

omit h in
theorem readRecovery : Keeps Inv readRecovery := by
  intro w hi
  unfold Recovery.readRecovery
  cases w.record <;> exact hi

theorem writeRecovery (record : TurnRecovery) : Keeps Inv (writeRecovery env record) :=
  h.durableRest (fun _ => rfl) fun _ => rfl

theorem clearTerminalTurn : Keeps Inv (clearTerminalTurn env) := by
  refine Keeps.bind ?_ fun _ => ?_
  · exact h.exec (fun _ => rfl) fun _ => rfl
  refine Keeps.tryCatch ?_ fun e => ?_
  · exact h.durableRest (fun _ => rfl) fun _ => rfl
  · cases e with
    | raised message => exact keeps_pure ()
    | crashed => exact keeps_throw _
    | cancelled => exact keeps_throw _

theorem requeueRun (turnId : String) (messageIds : List String) :
    Keeps Inv (requeueRun env turnId messageIds) :=
  .ite (h.storeCall _) (h.storeCall _)

theorem bindRecord (record : TurnRecovery) : Keeps Inv (bindRecord env record) := by
  refine .ite (keeps_pure _) (.query fun candidate => ?_)
  cases candidate with
  | none => exact keeps_throw _
  | some turnId => exact (h.writeRecovery _).bind fun _ => keeps_pure _

theorem settleQuarantined (record : TurnRecovery) : Keeps Inv (settleQuarantined env record) := by
  refine .query fun run => ?_
  cases run with
  | none => exact keeps_throw _
  | some run =>
    refine (keeps_raiseIf _ _).bind fun _ => ?_
    refine Keeps.bind (.ite (h.requeueRun _ _) (keeps_raiseIf _ _)) fun _ => ?_
    exact (h.storeCall _).bind fun _ => h.clearTerminalTurn.bind fun _ => h.writeRecovery _

theorem retryQuarantinedTurn : Keeps Inv (retryQuarantinedTurn env) := by
  refine readRecovery.bind fun record => ?_
  cases record with
  | none => exact keeps_pure ()
  | some record =>
    refine .ite (keeps_pure ()) ((keeps_raiseIf _ _).bind fun _ => ?_)
    exact (h.bindRecord record).bind fun bound => h.settleQuarantined bound

theorem resolveEffectlessRecovery : Keeps Inv (resolveEffectlessRecovery env) := by
  refine readRecovery.bind fun record => ?_
  cases record with
  | none => exact keeps_pure true
  | some record =>
    refine .ite (keeps_pure true) (.ite (keeps_pure false) (.query fun candidate => ?_))
    split
    · exact keeps_pure false
    · refine .query fun run => .ite (keeps_pure false) ?_
      exact (h.writeRecovery _).bind fun _ => keeps_pure true

theorem abandonRecoveryEvent (raw : Json) (run : TurnRun) :
    Keeps Inv (abandonRecoveryEvent env raw run) := by
  refine .query fun outbox => ?_
  cases outbox with
  | none => exact keeps_pure ()
  | some outbox =>
    refine (keeps_raiseIf _ _).bind fun _ => .ite ?_ (keeps_pure ())
    exact (h.durableRest (f := id) (fun _ => rfl) fun _ => rfl).bind
      fun _ => h.durableRest (fun _ => rfl) fun _ => rfl

theorem unwindRecovery (raw : Json) (run : Option TurnRun) (durableIds : List String) (activated : Bool) :
    Keeps Inv (unwindRecovery env raw run durableIds activated) := by
  refine Keeps.bind ?_ fun _ => h.clearTerminalTurn
  cases run with
  | none => exact keeps_pure ()
  | some run =>
    refine .ite (keeps_pure ()) (.query fun ids => ?_)
    refine Keeps.bind (.ite ?_ (h.requeueRun _ _)) fun _ => h.storeCall _
    exact (h.abandonRecoveryEvent raw run).bind fun _ => h.requeueRun _ _

omit h in
theorem elsewhere {x : StartupM Unit} (hx : Keeps Inv x) : Keeps Inv (elsewhere x) := by
  refine hx.tryCatch fun e => ?_
  cases e with
  | crashed => exact keeps_throw _
  | cancelled => exact keeps_pure ()
  | raised message => exact keeps_pure ()

theorem resumeEvent (event : ResumeEvent) : Keeps Inv (resumeEvent env event) := by
  have written (joined : Json) : Keeps Inv (writeCurrentTurn env joined) :=
    h.durableRest (fun _ => rfl) fun _ => rfl
  cases event with
  | admits ids joined now =>
    refine elsewhere (.query fun active => (h.storeCall _).bind fun _ => ?_)
    refine Keeps.bind ?_ fun _ => written joined
    exact h.exec (fun _ => rfl) fun _ => rfl
  | bind session joined =>
    refine elsewhere (.query fun active => ?_)
    refine Keeps.bind (.ite (keeps_pure _) (h.storeCall _)) fun _ => ?_
    refine Keeps.bind ?_ fun _ => written joined
    exact h.exec (fun _ => rfl) fun _ => rfl
  | other op => exact .ite (elsewhere (h.storeCall op)) (keeps_pure ())

theorem runRecoveryRetries (events : List ResumeEvent) : Keeps Inv (runRecoveryRetries env events) := by
  induction events with
  | nil => exact keeps_pure ()
  | cons event events ih => exact (h.resumeEvent event).bind fun _ => ih

theorem completeUnreconciled (turnId : String) (active : ActiveUnion) :
    Keeps Inv (completeUnreconciled env turnId active) := by
  refine (h.storeCall _).tryCatch fun e => ?_
  cases e with
  | raised message => exact h.storeCall _
  | crashed => exact keeps_throw _
  | cancelled => exact keeps_throw _

theorem finalizeActiveMessages (turnId : String) : Keeps Inv (finalizeActiveMessages env turnId) := by
  refine .query fun active => .query fun found => ?_
  cases found with
  | reconciled t rows renoticeIds => exact h.storeCall _
  | _ => exact h.completeUnreconciled turnId active

theorem resumeActivatedTurn (turnId : String) (raw : Json) (run : TurnRun) (durableIds : List String) :
    Keeps Inv (resumeActivatedTurn env turnId raw run durableIds) := by
  refine .ite (h.unwindRecovery raw _ _ _) (Keeps.tryCatch ?_ fun e => ?_)
  · refine (h.runRecoveryRetries _).bind fun _ => ?_
    cases env.result with
    | succeeded =>
      refine (h.finalizeActiveMessages turnId).bind fun _ => .query fun session => ?_
      exact (h.storeCall _).bind fun _ => h.clearTerminalTurn
    | failed => exact h.unwindRecovery raw _ _ _
    | cancelled => exact keeps_throw _
  · cases e with
    | crashed => exact keeps_throw _
    | cancelled =>
      refine Keeps.bind (.query fun active => ?_) fun _ => keeps_throw _
      exact (h.storeCall _).bind fun _ => (h.storeCall _).bind fun _ => h.clearTerminalTurn
    | raised message => exact h.unwindRecovery raw _ _ _

theorem recoverRun (raw : Json) (run : TurnRun) : Keeps Inv (recoverRun env raw run) := by
  refine .ite (h.unwindRecovery raw _ _ _) (.query fun diagnostic => ?_)
  refine .ite (h.unwindRecovery raw _ _ _) (.query fun plan => ?_)
  match plan with
  | .error e => exact keeps_throw _
  | .ok none => exact h.unwindRecovery raw _ _ _
  | .ok (some planned) =>
    refine Keeps.bind ?_ fun _ => h.resumeActivatedTurn _ raw _ _
    exact h.exec (fun _ => rfl) fun _ => rfl

theorem recoverJoin (raw : Json) : Keeps Inv (recoverJoin env raw) := by
  refine .query fun run => ?_
  cases run with
  | none => exact h.unwindRecovery raw _ _ _
  | some run => exact h.recoverRun raw run

theorem recoverCurrentTurn : Keeps Inv (recoverCurrentTurn env) := by
  refine Keeps.bind (readRecovery.bind fun record => keeps_pure _) fun required => .ite ?_ ?_
  · refine readRecovery.bind fun record => ?_
    cases record with
    | none => exact keeps_pure ()
    | some record => exact .ite h.retryQuarantinedTurn (keeps_pure ())
  · refine .query fun file => ?_
    cases file with
    | missing => exact keeps_pure ()
    | invalid => exact h.clearTerminalTurn
    | holds raw => exact h.recoverJoin raw

theorem requeueOrphans (runs : List TurnRun) : Keeps Inv (requeueOrphans env runs) := by
  induction runs with
  | nil => exact keeps_pure ()
  | cons run runs ih =>
    exact (h.requeueRun _ _).bind fun _ => (h.storeCall _).bind fun _ => ih

theorem startup : Keeps Inv (startup env) := by
  refine h.recoverCurrentTurn.bind fun _ => ?_
  refine h.resolveEffectlessRecovery.bind fun resolved => .ite ?_ (keeps_pure ())
  exact .query fun runs => h.requeueOrphans runs

end Stable
end PuffoAgent.Recovery
