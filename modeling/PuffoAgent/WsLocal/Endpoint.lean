import PuffoAgent.Bundle.Unpacking
import PuffoAgent.Machine.Run
import PuffoAgent.WsLocal.Frames

/-! The connections of tools to one daemon, any number of them at any stage, over one registry of slots. A connection stops
wherever it awaits, and anything may happen before it goes on. -/
namespace PuffoAgent.WsLocal
open Machine Text
open PuffoAgent.Bundle (hashable sameId)

section Hub

/-- The agent that a handshake proves. -/
structure AuthedAgent where
  agentId : Json
  slug : Json
  displayName : Json
  rootPublicKey : List UInt8

/-- Why a handshake proves none: `AuthError` and `ImportPackError` are answered, anything else is raised on. -/
inductive AuthFailure
  | refused (text : String)
  | escaped

/-- What a worker registers for its agent. `serial` tells one registration from another. -/
structure AttachPoint where
  serial : Nat
  slug : String
  agentId : String
  rootPublicKey : List UInt8

/-- `is_servable`; a slug that is no key of a dictionary raises. -/
def isServable (points : String → Option AttachPoint) (authed : AuthedAgent) : Except String Bool :=
  if hashable authed.slug = false then .error "unhashable type"
  else
    match authed.slug with
    | .str slug =>
      match points slug with
      | none => .ok false
      | some point => .ok (sameId (.str point.agentId) authed.agentId ∧ point.rootPublicKey.length = 32 ∧
          authed.rootPublicKey.length = 32 ∧ point.rootPublicKey = authed.rootPublicKey)
    | _ => .ok false

theorem isServable_true {points : String → Option AttachPoint} {authed : AuthedAgent}
    (h : isServable points authed = .ok true) : ∃ slug point, authed.slug = .str slug ∧ points slug = some point ∧
      authed.agentId = .str point.agentId ∧ authed.rootPublicKey = point.rootPublicKey := by
  unfold isServable at h
  split at h
  · cases h
  · split at h
    · rename_i slug hslug
      split at h
      · cases h
      · rename_i point hpoint
        obtain ⟨hid, -, -, hkey⟩ := of_decide_eq_true (Except.ok.inj h)
        refine ⟨slug, point, hslug, hpoint, ?_, hkey.symm⟩
        cases hagent : authed.agentId with
        | str s =>
          rw [hagent, sameId, decide_eq_true_eq] at hid
          rw [hid]
        | _ => rw [hagent] at hid; cases hid
    · cases h

end Hub

/-- Where `serve_connection` stands. -/
inductive Stage
  /-- At `recv`. -/
  | opening
  /-- `_reject`, at the error and then at the close. -/
  | rejecting (reason : String)
  | closing
  /-- At `agent_context`. -/
  | preparing (slug : String)
  /-- At the `connected` frame. -/
  | greeting (slug : String)
  /-- `_run_attached`, at the two tasks and then at their ends; `cut` when it was cancelled there. -/
  | attached (slug : String)
  | detaching (slug : String) (cut : Bool)
  /-- `_safe_close`, after an exception. -/
  | failing (slug : String)
  | ended
  /-- Cancelled with the slot in hand. -/
  | lost (slug : String)

/-- The slug whose slot a connection works with. -/
def Stage.serves : Stage → Option String
  | .preparing slug | .greeting slug | .attached slug | .detaching slug _ | .failing slug => some slug
  | _ => none

/-- The slug whose slot a connection has taken and not given back. -/
def Stage.holds : Stage → Option String
  | .lost slug => some slug
  | stage => stage.serves

/-- One daemon: its attach points, the registry and the connections by number. -/
structure Daemon where
  points : String → Option AttachPoint
  active : String → Option Nat
  connections : List Stage

inductive ConnectionEvent
  | register (point : AttachPoint)
  | unregister (point : AttachPoint)
  | accept
  /-- `recv` gives a text or nothing; `made` where a session can be made. -/
  | receive (c : Nat) (raw : Option String) (made : Bool)
  /-- What a connection awaits returns. -/
  | answer (c : Nat)
  /-- It raises an `Exception`. -/
  | raise (c : Nat)
  | cancel (c : Nat)

/-- What `serve_connection` is given. -/
structure EndpointSetup where
  host : Host
  floatIs : FloatText → Int → Bool
  repr : Option Json → String
  base64Decode : String → Option (List UInt8)
  authenticate : List UInt8 → String → Except AuthFailure AuthedAgent

/-- What becomes of a first frame. -/
inductive Verdict
  | dropped
  | refused (reason : String)
  | admitted (slug : String)
deriving DecidableEq

section Step
variable (setup : EndpointSetup)

/-- `authed.slug`, of an agent that is servable. -/
def AuthedAgent.slugText (authed : AuthedAgent) : String :=
  match authed.slug with
  | .str slug => slug
  | _ => ""

/-- The handshake, up to the first `await` with the slot in hand. -/
def verdict (d : Daemon) (raw : String) (made : Bool) : Verdict :=
  match decodeInbound setup.host setup.floatIs raw with
  | .error e => .refused ("malformed handshake: " ++ e.message setup.repr)
  | .ok (.connect bundle password _) =>
    match setup.base64Decode bundle with
    | none => .refused "bundle is not valid base64"
    | some blob =>
      match setup.authenticate blob password with
      | .error .escaped => .dropped
      | .error (.refused text) => .refused ("authentication failed: " ++ text)
      | .ok authed =>
        match isServable d.points authed with
        | .error _ => .dropped
        | .ok false => .refused (setup.repr (some authed.slug) ++ " is not a ws-local agent on this daemon")
        | .ok true =>
          if made = false then .dropped
          else if (d.active authed.slugText).isSome then
            .refused (setup.repr (some authed.slug) ++ " already has an active connection")
          else .admitted authed.slugText
  | .ok _ => .refused "first frame must be `connect`"

def Daemon.put (d : Daemon) (c : Nat) (stage : Stage) : Daemon := { d with connections := d.connections.set c stage }

/-- `registry.acquire`, of a free slot. -/
def Daemon.acquire (d : Daemon) (c : Nat) (slug : String) : Daemon :=
  { d with active := fun s => if s = slug then some c else d.active s }

/-- `registry.release`. -/
def Daemon.release (d : Daemon) (c : Nat) (slug : String) : Daemon :=
  { d with active := fun s => if s = slug ∧ d.active slug = some c then none else d.active s }

def Daemon.receive (d : Daemon) (c : Nat) (raw : Option String) (made : Bool) : Daemon :=
  match raw with
  | none => d.put c .ended
  | some raw =>
    match verdict setup d raw made with
    | .dropped => d.put c .ended
    | .refused reason => d.put c (.rejecting reason)
    | .admitted slug => (d.acquire c slug).put c (.preparing slug)

/-- What a connection awaits has returned. -/
def Stage.answered : Stage → Stage
  | .rejecting _ => .closing
  | .closing => .ended
  | .preparing slug => .greeting slug
  | .greeting slug => .attached slug
  | .attached slug => .detaching slug false
  | .detaching slug true => .lost slug
  | .detaching _ false | .failing _ => .ended
  | stage => stage

/-- It has raised. Errors of a rejection, of a close and of the tasks that end are swallowed. -/
def Stage.raised : Stage → Stage
  | .opening => .ended
  | .preparing slug | .greeting slug | .attached slug => .failing slug
  | stage => stage.answered

/-- A cancellation is no `Exception`: only the end of the tasks swallows it. -/
def Stage.cancelled : Stage → Stage
  | .opening | .rejecting _ | .closing => .ended
  | .preparing slug | .greeting slug | .failing slug => .lost slug
  | .attached slug => .detaching slug true
  | stage => stage

/-- A connection that is over has released what it held. -/
def Daemon.move (d : Daemon) (c : Nat) (next : Stage → Stage) : Daemon :=
  match d.connections[c]? with
  | none => d
  | some stage =>
    match stage.holds, (next stage).holds with
    | some slug, none => (d.release c slug).put c (next stage)
    | _, _ => d.put c (next stage)

def Daemon.step (d : Daemon) : ConnectionEvent → Daemon
  | .register point => { d with points := fun s => if s = point.slug then some point else d.points s }
  | .unregister point =>
    { d with points := fun s =>
        if s = point.slug ∧ (d.points point.slug).any (·.serial = point.serial) then none else d.points s }
  | .accept => { d with connections := d.connections ++ [.opening] }
  | .receive c raw made =>
    match d.connections[c]? with
    | some .opening => d.receive setup c raw made
    | _ => d
  | .answer c => d.move c .answered
  | .raise c => d.move c .raised
  | .cancel c => d.move c .cancelled

/-- `WsLocalHub()`. -/
def Daemon.start : Daemon := ⟨fun _ => none, fun _ => none, []⟩

end Step

section Slots
variable {setup : EndpointSetup} {d d' : Daemon} {c : Nat} {slug : String}

/-- The connection holds the slot of a slug. -/
def Daemon.Holds (d : Daemon) (c : Nat) (slug : String) : Prop := (d.connections[c]?).bind Stage.holds = some slug

/-- The connection serves the agent of a slug. -/
def Daemon.Serves (d : Daemon) (c : Nat) (slug : String) : Prop := (d.connections[c]?).bind Stage.serves = some slug

/-- The slots of the registry are those that connections hold. -/
def Daemon.Slotted (d : Daemon) : Prop := ∀ slug c, d.active slug = some c ↔ d.Holds c slug

theorem Daemon.Serves.holds (h : d.Serves c slug) : d.Holds c slug := by
  obtain ⟨stage, hstage, hserves⟩ := Option.bind_eq_some_iff.mp h
  refine Option.bind_eq_some_iff.mpr ⟨stage, hstage, ?_⟩
  cases stage <;> first | exact hserves | cases hserves

theorem Daemon.put_stage {stage : Stage} {e : Nat} (h : d.connections[c]? ≠ none) :
    (d.put c stage).connections[e]? = if e = c then some stage else d.connections[e]? := by
  rw [put, List.getElem?_set]
  by_cases he : e = c
  · subst he
    have hlt : e < d.connections.length := by
      by_contra hge
      exact h (List.getElem?_eq_none (Nat.le_of_not_lt hge))
    rw [if_pos rfl, if_pos rfl, if_pos hlt]
  · rw [if_neg (Ne.symm he), if_neg he]

theorem Daemon.Holds.put_iff {stage : Stage} {e : Nat} (h : d.connections[c]? ≠ none) :
    (d.put c stage).Holds e slug ↔ if e = c then stage.holds = some slug else d.Holds e slug := by
  rw [Holds, put_stage h]
  by_cases he : e = c
  · rw [if_pos he, if_pos he]
    rfl
  · rw [if_neg he, if_neg he]
    rfl

/-- A change of stage that keeps what is held keeps the slots. -/
theorem Daemon.Slotted.put (h : d.Slotted) {old new : Stage} (hc : d.connections[c]? = some old)
    (hsame : new.holds = old.holds) : (d.put c new).Slotted := by
  intro slug e
  rw [Holds.put_iff (by rw [hc]; exact Option.some_ne_none old), hsame]
  apply (h slug e).trans
  by_cases he : e = c
  · rw [if_pos he, Holds, he, hc]
    rfl
  · rw [if_neg he]

/-- The slot that is released is free. -/
theorem Daemon.Slotted.finish (h : d.Slotted) {old new : Stage} (hc : d.connections[c]? = some old)
    (hheld : old.holds = some slug) (hfree : new.holds = none) : ((d.release c slug).put c new).Slotted := by
  have hmine : d.active slug = some c := by
    apply (h slug c).mpr
    rw [Holds, hc]
    exact hheld
  intro s e
  have hhere : (d.release c slug).connections[c]? ≠ none := by
    rw [release, hc]
    exact Option.some_ne_none old
  rw [Holds.put_iff hhere, hfree]
  simp only [Daemon.put, release, hmine, and_true]
  by_cases he : e = c
  · subst he
    rw [if_pos rfl]
    refine ⟨fun hs => ?_, fun hs => (by cases hs)⟩
    by_cases hslug : s = slug
    · rw [if_pos hslug] at hs
      cases hs
    · rw [if_neg hslug] at hs
      have hother := (h s e).mp hs
      rw [Holds, hc] at hother
      exact absurd (Option.some.inj (hother.symm.trans hheld)) hslug
  · rw [if_neg he]
    by_cases hslug : s = slug
    · subst hslug
      rw [if_pos rfl]
      refine ⟨fun hs => (by cases hs), fun hs => ?_⟩
      exact absurd (Option.some.inj (((h s e).mpr hs).symm.trans hmine)) he
    · rw [if_neg hslug]
      exact h s e

/-- A slot that was free is the new connection's. -/
theorem Daemon.Slotted.acquired (h : d.Slotted) {old : Stage} (hc : d.connections[c]? = some old) (hold : old.holds = none)
    (hfree : d.active slug = none) : ((d.acquire c slug).put c (.preparing slug)).Slotted := by
  intro s e
  have hhere : (d.acquire c slug).connections[c]? ≠ none := by
    rw [acquire, hc]
    exact Option.some_ne_none old
  rw [Holds.put_iff hhere]
  simp only [Daemon.put, acquire]
  by_cases hslug : s = slug
  · subst hslug
    rw [if_pos rfl]
    by_cases he : e = c
    · rw [if_pos he, he]
      exact ⟨fun _ => rfl, fun _ => rfl⟩
    · rw [if_neg he]
      refine ⟨fun hs => absurd (Option.some.inj hs).symm he, fun hs => ?_⟩
      have htaken := (h s e).mpr hs
      rw [hfree] at htaken
      cases htaken
  · rw [if_neg hslug]
    by_cases he : e = c
    · subst he
      rw [if_pos rfl]
      refine ⟨fun hs => ?_, fun hs => absurd (Option.some.inj hs).symm hslug⟩
      have hother := (h s e).mp hs
      rw [Holds, hc] at hother
      cases hold.symm.trans hother
    · rw [if_neg he]
      exact h s e

theorem Stage.answered_holds (stage : Stage) : stage.answered.holds = stage.holds ∨ stage.answered.holds = none := by
  cases stage with
  | detaching slug cut => cases cut <;> simp [answered, holds, serves]
  | _ => simp [answered, holds, serves]

theorem Stage.raised_holds (stage : Stage) : stage.raised.holds = stage.holds ∨ stage.raised.holds = none := by
  cases stage with
  | detaching slug cut => exact answered_holds (.detaching slug cut)
  | _ => simp [raised, answered, holds, serves]

theorem Stage.cancelled_holds (stage : Stage) :
    stage.cancelled.holds = stage.holds ∨ stage.cancelled.holds = none := by
  cases stage <;> simp [cancelled, holds, serves]

theorem Daemon.Slotted.move (h : d.Slotted) {next : Stage → Stage}
    (hnext : ∀ stage, (next stage).holds = stage.holds ∨ (next stage).holds = none) : (d.move c next).Slotted := by
  rw [Daemon.move]
  split
  · exact h
  · rename_i stage hc
    split
    · rename_i slug hheld hfree
      exact h.finish hc hheld hfree
    · rename_i hkeep
      apply h.put hc
      obtain hsame | hnone := hnext stage
      · exact hsame
      · cases hheld : stage.holds with
        | none => exact hnone
        | some slug => exact absurd hnone (hkeep slug hheld)

end Slots

section Admitted
variable {setup : EndpointSetup} {d : Daemon} {c : Nat} {slug : String}

/-- The frame proves the tool to be that of an agent that has an attach point and a free slot. -/
def Daemon.Admits (d : Daemon) (setup : EndpointSetup) (raw slug : String) : Prop :=
  ∃ bundle password capabilities blob authed point,
    decodeInbound setup.host setup.floatIs raw = .ok (.connect bundle password capabilities) ∧
    setup.base64Decode bundle = some blob ∧ setup.authenticate blob password = .ok authed ∧
    authed.slug = .str slug ∧ d.points slug = some point ∧ authed.agentId = .str point.agentId ∧
    authed.rootPublicKey = point.rootPublicKey ∧ d.active slug = none

theorem verdict_admitted {raw : String} {made : Bool} (h : verdict setup d raw made = .admitted slug) :
    made = true ∧ d.Admits setup raw slug := by
  unfold verdict at h
  split at h
  · cases h
  · rename_i bundle password capabilities hframe
    split at h
    · cases h
    · rename_i blob hblob
      split at h
      · cases h
      · cases h
      · rename_i authed hauthed
        split at h
        · cases h
        · cases h
        · rename_i hserves
          obtain ⟨name, point, hname, hpoint, hid, hkey⟩ := isServable_true hserves
          have htext : authed.slugText = name := by rw [AuthedAgent.slugText, hname]
          rw [htext] at h
          split at h
          · cases h
          · rename_i hmade
            split at h
            · cases h
            · rename_i hfree
              cases h
              refine ⟨Bool.eq_true_of_not_eq_false hmade, bundle, password, capabilities, blob, authed, point, hframe,
                hblob, hauthed, hname, hpoint, hid, hkey, ?_⟩
              exact Option.not_isSome_iff_eq_none.mp hfree
  · cases h

theorem Daemon.move_stage {next : Stage → Stage} {e : Nat} :
    (d.move c next).connections[e]? = if e = c then (d.connections[c]?).map next else d.connections[e]? := by
  rw [move]
  split
  · rename_i hnone
    by_cases he : e = c
    · rw [if_pos he, hnone, he, hnone]
      rfl
    · rw [if_neg he]
  · rename_i stage hc
    have hput : ∀ d' : Daemon, d'.connections = d.connections → (d'.put c (next stage)).connections[e]? =
        if e = c then (some stage).map next else d.connections[e]? := by
      intro d' hsame
      rw [put_stage (by rw [hsame, hc]; exact Option.some_ne_none stage), hsame]
      rfl
    rw [hc]
    split
    · exact hput _ rfl
    · exact hput _ rfl

theorem Daemon.Holds.of_move {next : Stage → Stage} {e : Nat}
    (hnext : ∀ stage, (next stage).holds = stage.holds ∨ (next stage).holds = none)
    (h : (d.move c next).Holds e slug) : d.Holds e slug := by
  rw [Holds, move_stage] at h
  by_cases he : e = c
  · rw [if_pos he, Option.bind_map] at h
    obtain ⟨stage, hc, hholds⟩ := Option.bind_eq_some_iff.mp h
    obtain hkept | hnone := hnext stage
    · rw [Holds, he, hc]
      exact hkept.symm.trans hholds
    · cases hnone.symm.trans hholds
  · rw [if_neg he] at h
    exact h

/-- A slot changes hands only at a frame that is admitted. -/
theorem Daemon.Holds.of_step {op : ConnectionEvent} {e : Nat} (h : (d.step setup op).Holds e slug) :
    d.Holds e slug ∨ ∃ raw, op = .receive e (some raw) true ∧ d.Admits setup raw slug := by
  cases op with
  | register point => exact .inl h
  | unregister point => exact .inl h
  | accept =>
    left
    rw [step, Holds, List.getElem?_append] at h
    split at h
    · exact h
    · obtain ⟨stage, hstage, hholds⟩ := Option.bind_eq_some_iff.mp h
      obtain rfl := List.mem_singleton.mp (List.mem_of_getElem? hstage)
      cases hholds
  | receive c raw made =>
    rw [step] at h
    split at h
    · rename_i hc
      have hhere : d.connections[c]? ≠ none := by
        rw [hc]
        exact Option.some_ne_none _
      have hidle : ∀ stage : Stage, stage.holds = none → (d.put c stage).Holds e slug → d.Holds e slug := by
        intro stage hnone hput
        rw [Holds.put_iff hhere, hnone] at hput
        by_cases he : e = c
        · rw [if_pos he] at hput
          cases hput
        · rw [if_neg he] at hput
          exact hput
      cases raw with
      | none => exact .inl (hidle _ rfl h)
      | some raw =>
        rw [receive] at h
        split at h
        · exact .inl (hidle _ rfl h)
        · exact .inl (hidle _ rfl h)
        · rename_i name hverdict
          obtain ⟨rfl, hadmits⟩ := verdict_admitted hverdict
          rw [Holds.put_iff (d := d.acquire c name) hhere] at h
          by_cases he : e = c
          · rw [if_pos he] at h
            cases h
            exact .inr ⟨raw, by rw [he], hadmits⟩
          · rw [if_neg he] at h
            exact .inl h
    · exact .inl h
  | answer c => exact .inl (.of_move Stage.answered_holds h)
  | raise c => exact .inl (.of_move Stage.raised_holds h)
  | cancel c => exact .inl (.of_move Stage.cancelled_holds h)

theorem Daemon.Slotted.step (h : d.Slotted) (op : ConnectionEvent) : (d.step setup op).Slotted := by
  cases op with
  | register point => exact h
  | unregister point => exact h
  | accept =>
    intro slug c
    apply (h slug c).trans
    rw [Daemon.step, Holds, Holds, List.getElem?_append]
    split
    · rfl
    · rename_i hlt
      rw [List.getElem?_eq_none (Nat.le_of_not_lt hlt)]
      cases c - d.connections.length <;> simp [Stage.holds, Stage.serves]
  | receive c raw made =>
    rw [Daemon.step]
    split
    · rename_i hc
      cases raw with
      | none => exact h.put hc rfl
      | some raw =>
        rw [receive]
        split
        · exact h.put hc rfl
        · exact h.put hc rfl
        · rename_i name hverdict
          obtain ⟨-, -, -, -, -, -, -, -, -, -, -, -, -, -, hfree⟩ := verdict_admitted hverdict
          exact h.acquired hc rfl hfree
    · exact h
  | answer c => exact h.move Stage.answered_holds
  | raise c => exact h.move Stage.raised_holds
  | cancel c => exact h.move Stage.cancelled_holds

theorem Daemon.slotted_start : Daemon.start.Slotted := by
  intro slug c
  simp [start, Holds]

theorem holder_admitted (ops : List ConnectionEvent) (h : (run (Daemon.step setup) .start ops).Holds c slug) :
    ∃ earlier raw later, ops = earlier ++ .receive c (some raw) true :: later ∧
      (run (Daemon.step setup) .start earlier).Admits setup raw slug := by
  induction ops using List.reverseRecOn with
  | nil => cases h
  | append_singleton ops op ih =>
    rw [run_append] at h
    obtain hbefore | ⟨raw, rfl, hadmits⟩ := Daemon.Holds.of_step h
    · obtain ⟨earlier, raw, later, hops, hadmits⟩ := ih hbefore
      exact ⟨earlier, raw, later ++ [op], by rw [hops, List.append_assoc, List.cons_append], hadmits⟩
    · exact ⟨ops, raw, [], rfl, hadmits⟩

end Admitted

section Release
variable {setup : EndpointSetup} {d : Daemon} {c : Nat}

/-- The connection was cancelled with the slot in hand. -/
def Stage.cut : Stage → Bool
  | .detaching _ cut => cut
  | .lost _ => true
  | _ => false

/-- How many awaits are left to a connection with a slot. -/
def Stage.left : Stage → Nat
  | .preparing _ => 4
  | .greeting _ => 3
  | .attached _ => 2
  | .detaching _ _ | .failing _ => 1
  | _ => 0

/-- The event that an await of the connection ends with, not cancelled. -/
def ConnectionEvent.ends (c : Nat) : ConnectionEvent → Bool
  | .answer e | .raise e => e = c
  | _ => false

/-- Past the handshake and not cancelled. -/
def Stage.Running (stage : Stage) : Prop := stage.cut = false ∧ (stage.serves.isSome ∨ stage = .ended)

theorem Stage.Running.answered {stage : Stage} (h : stage.Running) :
    stage.answered.Running ∧ stage.answered.left ≤ stage.left - 1 := by
  obtain ⟨hcut, hserves⟩ := h
  cases stage with
  | detaching slug cut =>
    cases hcut
    exact ⟨⟨rfl, .inr rfl⟩, Nat.le_refl 0⟩
  | opening | rejecting _ | closing => simp [serves] at hserves
  | lost _ => cases hcut
  | _ => simp [Running, Stage.answered, cut, serves, left]

theorem Stage.Running.raised {stage : Stage} (h : stage.Running) :
    stage.raised.Running ∧ stage.raised.left ≤ stage.left - 1 := by
  cases stage with
  | preparing slug | greeting slug | attached slug => simp [Running, Stage.raised, cut, serves, left]
  | opening => simp [Running, serves] at h
  | rejecting reason => exact h.answered
  | closing => exact h.answered
  | detaching slug cut => exact h.answered
  | failing slug => exact h.answered
  | ended => exact h.answered
  | lost slug => exact h.answered

/-- What an event does to one connection past its handshake. -/
def ConnectionEvent.moves (c : Nat) : ConnectionEvent → Stage → Stage
  | .answer e, stage => if c = e then stage.answered else stage
  | .raise e, stage => if c = e then stage.raised else stage
  | .cancel e, stage => if c = e then stage.cancelled else stage
  | _, stage => stage

theorem Daemon.stage_step {stage : Stage} (hc : d.connections[c]? = some stage) (hpast : stage ≠ .opening)
    (op : ConnectionEvent) : (d.step setup op).connections[c]? = some (op.moves c stage) := by
  have hmove : ∀ (e : Nat) (next : Stage → Stage),
      (d.move e next).connections[c]? = some (if c = e then next stage else stage) := by
    intro e next
    rw [move_stage]
    by_cases he : c = e
    · subst he
      rw [if_pos rfl, if_pos rfl, hc]
      rfl
    · rw [if_neg he, if_neg he, hc]
  cases op with
  | register point => exact hc
  | unregister point => exact hc
  | accept =>
    rw [step, List.getElem?_append_left]
    · exact hc
    · exact (List.getElem?_eq_some_iff.mp hc).1
  | receive e raw made =>
    rw [step]
    split
    · rename_i hopening
      have hne : c ≠ e := by
        intro he
        rw [← he, hc] at hopening
        exact hpast (Option.some.inj hopening)
      have hother : ∀ d' : Daemon, d'.connections = d.connections → ∀ new, (d'.put e new).connections[c]? =
          some stage := by
        intro d' hconnections new
        rw [put, List.getElem?_set_ne (Ne.symm hne), hconnections, hc]
      cases raw with
      | none => exact hother _ rfl _
      | some raw =>
        rw [receive]
        split
        · exact hother _ rfl _
        · exact hother _ rfl _
        · exact hother _ rfl _
    · exact hc
  | answer e => exact hmove e _
  | raise e => exact hmove e _
  | cancel e => exact hmove e _

theorem Stage.Running.moved {stage : Stage} (h : stage.Running) {op : ConnectionEvent} (hop : op ≠ .cancel c) :
    (op.moves c stage).Running ∧ (op.moves c stage).left ≤ stage.left - (if op.ends c then 1 else 0) := by
  cases op with
  | answer e =>
    by_cases he : c = e
    · rw [ConnectionEvent.moves, if_pos he, ConnectionEvent.ends, decide_eq_true he.symm]
      exact h.answered
    · rw [ConnectionEvent.moves, if_neg he]
      exact ⟨h, by simp [ConnectionEvent.ends, Ne.symm he]⟩
  | raise e =>
    by_cases he : c = e
    · rw [ConnectionEvent.moves, if_pos he, ConnectionEvent.ends, decide_eq_true he.symm]
      exact h.raised
    · rw [ConnectionEvent.moves, if_neg he]
      exact ⟨h, by simp [ConnectionEvent.ends, Ne.symm he]⟩
  | cancel e =>
    rw [ConnectionEvent.moves, if_neg (fun he => hop (by rw [he]))]
    exact ⟨h, by simp [ConnectionEvent.ends]⟩
  | _ => exact ⟨h, by simp [ConnectionEvent.ends, ConnectionEvent.moves]⟩

theorem Stage.Running.ne_opening {stage : Stage} (h : stage.Running) : stage ≠ .opening := by
  rintro rfl
  simp [Running, serves] at h

/-- A connection that is let end is over when its awaits have ended. -/
theorem Daemon.running_over {ops : List ConnectionEvent} {stage : Stage} (hc : d.connections[c]? = some stage)
    (h : stage.Running) (hops : .cancel c ∉ ops) (hleft : stage.left ≤ ops.countP (·.ends c)) :
    (run (step setup) d ops).connections[c]? = some .ended := by
  induction ops generalizing d stage with
  | nil =>
    rw [run_nil, hc]
    cases stage with
    | ended => rfl
    | opening | rejecting _ | closing => simp [Stage.Running, Stage.serves] at h
    | lost slug => cases h.1
    | _ => simp [Stage.left] at hleft
  | cons op ops ih =>
    obtain ⟨hrunning, hless⟩ := h.moved (List.ne_of_not_mem_cons hops).symm
    apply ih (stage_step hc h.ne_opening op) hrunning (List.not_mem_of_not_mem_cons hops)
    rw [List.countP_cons] at hleft
    omega

theorem Stage.cut_moved {stage : Stage} (h : stage.cut = true) (op : ConnectionEvent) :
    (op.moves c stage).cut = true ∧ (op.moves c stage).holds = stage.holds := by
  cases stage with
  | detaching slug cut =>
    cases h
    cases op with
    | answer e | raise e | cancel e =>
      rw [ConnectionEvent.moves]
      split <;> exact ⟨rfl, rfl⟩
    | _ => exact ⟨rfl, rfl⟩
  | lost slug =>
    cases op with
    | answer e | raise e | cancel e =>
      rw [ConnectionEvent.moves]
      split <;> exact ⟨rfl, rfl⟩
    | _ => exact ⟨rfl, rfl⟩
  | _ => cases h

/-- What a cancelled connection holds it never gives back. -/
theorem Daemon.cut_holds {slug : String} {stage : Stage} (hc : d.connections[c]? = some stage) (hcut : stage.cut = true)
    (hholds : stage.holds = some slug) (ops : List ConnectionEvent) : (run (step setup) d ops).Holds c slug := by
  induction ops generalizing d stage with
  | nil =>
    rw [run_nil, Holds, hc]
    exact hholds
  | cons op ops ih =>
    obtain ⟨hstill, hsame⟩ := Stage.cut_moved (c := c) hcut op
    have hpast : stage ≠ .opening := by
      rintro rfl
      cases hcut
    exact ih (stage_step hc hpast op) hstill (hsame.trans hholds)

/-- A connection that is cancelled before its tasks end keeps its slot. -/
theorem Stage.cancelled_cut {stage : Stage} {slug : String} (h : stage.serves = some slug)
    (hbusy : ∀ cut, stage ≠ .detaching slug cut) : stage.cancelled.cut = true ∧ stage.cancelled.holds = some slug := by
  cases stage with
  | detaching name cut =>
    cases h
    exact absurd rfl (hbusy cut)
  | preparing name | greeting name | attached name | failing name => exact ⟨rfl, h⟩
  | _ => cases h

end Release

/-- However the connections of a daemon run, a slot of its registry is taken by the one connection that works with the
agent, and that connection was admitted: with its frame the tool proved itself to be that of the agent whose attach point
was registered then, and the slot was free. -/
theorem one_tool_per_agent (setup : EndpointSetup) (ops : List ConnectionEvent) :
    let daemon := run (Daemon.step setup) .start ops
    (∀ slug c, daemon.active slug = some c ↔ daemon.Holds c slug) ∧
    (∀ slug c e, daemon.Serves c slug → daemon.Serves e slug → c = e) ∧
    (∀ slug c, daemon.Holds c slug → ∃ earlier raw later, ops = earlier ++ .receive c (some raw) true :: later ∧
      (run (Daemon.step setup) .start earlier).Admits setup raw slug) := by
  have hslots : (run (Daemon.step setup) .start ops).Slotted :=
    run_invariant Daemon.slotted_start (fun _ op h => h.step op) ops
  refine ⟨hslots, ?_, fun slug c h => holder_admitted ops h⟩
  intro slug c e hc he
  have htaken := (hslots slug c).mpr hc.holds
  have htaken' := (hslots slug e).mpr he.holds
  exact Option.some.inj (htaken.symm.trans htaken')

/-- The connection that has a slot gives it back when its four awaits have ended, unless it is cancelled: one that is
cancelled before its tasks end keeps the slot for ever, whatever happens later. -/
theorem slot_comes_back (setup : EndpointSetup) (ops : List ConnectionEvent) (c : Nat) (slug : String) (stage : Stage)
    (hstage : (run (Daemon.step setup) .start ops).connections[c]? = some stage) (hserves : stage.serves = some slug) :
    (∀ more, stage.cut = false → .cancel c ∉ more → 4 ≤ more.countP (·.ends c) →
      (run (Daemon.step setup) .start (ops ++ more)).connections[c]? = some .ended ∧
      (run (Daemon.step setup) .start (ops ++ more)).active slug ≠ some c) ∧
    (∀ more, stage.cut = true → (run (Daemon.step setup) .start (ops ++ more)).active slug = some c) ∧
    (∀ more, (∀ cut, stage ≠ .detaching slug cut) →
      (run (Daemon.step setup) .start (ops ++ .cancel c :: more)).active slug = some c) := by
  have hslots : ∀ all, (run (Daemon.step setup) .start all).Slotted :=
    fun all => run_invariant Daemon.slotted_start (fun _ op h => h.step op) all
  have hpast : stage ≠ .opening := by
    rintro rfl
    cases hserves
  have hleft : stage.left ≤ 4 := by cases stage <;> simp [Stage.left]
  refine ⟨?_, ?_, ?_⟩
  · intro more hcut hcancel hends
    have hrunning : stage.Running := ⟨hcut, .inl (by rw [hserves]; rfl)⟩
    have hover : (run (Daemon.step setup) .start (ops ++ more)).connections[c]? = some .ended := by
      rw [run_append]
      exact Daemon.running_over hstage hrunning hcancel (hleft.trans hends)
    refine ⟨hover, ?_⟩
    intro hactive
    have hholds := (hslots (ops ++ more) slug c).mp hactive
    rw [Daemon.Holds, hover] at hholds
    cases hholds
  · intro more hcut
    apply (hslots (ops ++ more) slug c).mpr
    rw [run_append]
    refine Daemon.cut_holds hstage hcut ?_ more
    cases stage with
    | detaching name cut => exact hserves
    | lost name => cases hserves
    | _ => cases hcut
  · intro more hbusy
    obtain ⟨hcut, hholds⟩ := Stage.cancelled_cut hserves hbusy
    apply (hslots (ops ++ .cancel c :: more) slug c).mpr
    rw [run_append, run_cons]
    refine Daemon.cut_holds ?_ hcut hholds more
    rw [Daemon.stage_step hstage hpast, ConnectionEvent.moves, if_pos rfl]

def botSecret : List UInt8 := List.replicate 32 5

def botSetup : EndpointSetup where
  host := asciiHost
  floatIs := fun _ _ => false
  repr := fun _ => ""
  base64Decode := fun s => if s = "YQ==" then some [97] else none
  authenticate := fun _ _ => .ok ⟨.str "bot", .str "bot", .str "", botSecret⟩

def botConnect : String :=
  (Json.obj [("type", .str "connect"), ("bundle", .str "YQ=="), ("password", .str "secret")]).dumps

def botOpen : List ConnectionEvent := [.register ⟨0, "bot", "bot", botSecret⟩, .accept]

def botEvents : List ConnectionEvent := botOpen ++ [.receive 0 (some botConnect) true]

theorem botEvents_serve : (run (Daemon.step botSetup) .start botEvents).connections[0]? = some (.preparing "bot") := by
  have hframe : decodeInbound botSetup.host botSetup.floatIs botConnect = .ok (.connect "YQ==" "secret" []) := by
    rw [decodeInbound, botConnect, Json.loads_dumps]
    rfl
  have hverdict : verdict botSetup (run (Daemon.step botSetup) .start botOpen) botConnect true = .admitted "bot" := by
    rw [verdict, hframe]
    decide +kernel
  have hopening : (run (Daemon.step botSetup) .start botOpen).connections[0]? = some .opening := rfl
  rw [botEvents, run_append, run_cons, run_nil, Daemon.step]
  simp only [hopening, Daemon.receive, hverdict]
  rw [Daemon.put_stage, if_pos rfl]
  exact Option.some_ne_none Stage.opening

/-- The tool of the bot, as it goes and as it is cancelled. -/
theorem slot_comes_back_bot :
    (run (Daemon.step botSetup) .start (botEvents ++ List.replicate 4 (.answer 0))).active "bot" ≠ some 0 ∧
    (run (Daemon.step botSetup) .start (botEvents ++ [.cancel 0, .answer 0])).active "bot" = some 0 := by
  obtain ⟨hfree, -, hkept⟩ := slot_comes_back botSetup botEvents 0 "bot" (.preparing "bot") botEvents_serve rfl
  refine ⟨(hfree (List.replicate 4 (.answer 0)) rfl (by simp) (by decide)).2, ?_⟩
  apply hkept [.answer 0]
  intro cut h
  cases h

end PuffoAgent.WsLocal
