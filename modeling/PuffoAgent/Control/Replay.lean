import PuffoAgent.Control.Client
import PuffoAgent.Crypto.Signing
import PuffoAgent.Machine.Run

/-! No command envelope is executed twice in the runs where every accepted command has a
nonce and no nonce is pruned while the timestamp of its command would still be accepted. -/
namespace PuffoAgent.Control
open Relational Text Machine

/-- The nonce under which the envelope is looked up. -/
def Platform.nonce? (platform : Platform) (envelope : Json) : Option DictKey :=
  (nonceOf envelope).bind platform.hashKey

/-- The members agree, in whatever order they are written; so does what is signed. -/
def SameEnvelope (a b : Json) : Prop := ∀ name, Option.Rel Crypto.Same (a.member name) (b.member name)

theorem Platform.nonce?_congr (platform : Platform) {a b : Json} (h : SameEnvelope a b) :
    platform.nonce? a = platform.nonce? b := by
  have hnonce := h "nonce"
  unfold Platform.nonce? nonceOf
  generalize a.member "nonce" = v, b.member "nonce" = w at hnonce
  cases hnonce with
  | none => rfl
  | some same =>
    cases same with
    | arr => simp only [Option.filter_some]; split_ifs <;> rfl
    | obj => simp only [Option.filter_some]; split_ifs <;> rfl
    | _ => rfl

theorem tsOf_congr {a b : Json} (h : SameEnvelope a b) : tsOf a = tsOf b := by
  have hts := h "ts"
  unfold tsOf
  generalize a.member "ts" = v, b.member "ts" = w at hts
  cases hts with
  | none => rfl
  | some same => cases same <;> rfl

/-- Accepting this event, the client starts a command that has a nonce, and prunes no nonce
of a command whose timestamp it would still accept. -/
def Careful (platform : Platform) (c : Client) : Event → Prop
  | .finished .. => True
  | .frame frame pairing elapsed later =>
    let now := c.clock + elapsed
    (c.judge platform frame pairing now).isOk →
      (nonceOf (Client.envelopeOf frame)).isSome ∧
      ∀ x ∈ c.started, ∀ n, platform.nonce? x.envelope = some n →
        ∀ row, c.seenNonces.get? n = some row → c.forgets (now + later - tsWindowMs) row = true →
          inWindow x.envelope (now + later) = false

/-- The envelope is refused from here on: its nonce is remembered, or its time is over. -/
structure Guarded (platform : Platform) (c : Client) (envelope : Json) : Prop where
  intro ::
  known : ∃ n ts, platform.nonce? envelope = some n ∧ tsOf envelope = some ts ∧
    ts ≤ c.clock + tsWindowMs ∧ ((c.seenNonces.get? n).isSome ∨ ts + tsWindowMs < c.clock)

structure ReplaySafe (platform : Platform) (c : Client) : Prop where
  guarded : ∀ x ∈ c.started, Guarded platform c x.envelope
  once : c.started.Pairwise fun x y => ¬ SameEnvelope x.envelope y.envelope

section Judge
variable {platform : Platform} {c : Client} {frame : Frame} {pairing : Option String} {now : Int}
  {envelope : Json}

theorem inWindow_iff : inWindow envelope now = true ↔
    ∃ ts, tsOf envelope = some ts ∧ ts ≤ now + tsWindowMs ∧ now ≤ ts + tsWindowMs := by
  rw [inWindow, Option.any_eq_true]
  constructor
  · rintro ⟨ts, hts, h⟩
    have := of_decide_eq_true h
    exact ⟨ts, hts, by omega, by omega⟩
  · rintro ⟨ts, hts, h₁, h₂⟩
    exact ⟨ts, hts, decide_eq_true (by omega)⟩

theorem decryptCommand_ok {root : String} {command : Command}
    (h : decryptCommand platform envelope root now = .ok command) : inWindow envelope now = true := by
  by_contra hw
  unfold decryptCommand at h
  split_ifs at h with hs
  · cases h
  · cases hv : platform.verify envelope root with
    | error e => simp [hv, bind, Except.bind, throw, throwThe, MonadExceptOf.throw] at h
    | ok verified =>
      cases verified with
      | false => simp [hv, bind, Except.bind, throw, throwThe, MonadExceptOf.throw] at h
      | true => simp [hv, bind, Except.bind, throw, throwThe, MonadExceptOf.throw] at h

theorem nonceKey_ok {nonce : Option DictKey} (h : c.nonceKey platform envelope = .ok nonce) :
    nonce = platform.nonce? envelope ∧ ((nonceOf envelope).isSome → nonce.isSome) ∧
      ∀ n, nonce = some n → c.seenNonces.get? n = none := by
  unfold Client.nonceKey at h
  rw [Platform.nonce?]
  cases hn : nonceOf envelope with
  | none =>
    simp only [hn] at h
    obtain rfl := Except.ok.inj h
    exact ⟨rfl, by simp, by simp⟩
  | some value =>
    simp only [hn] at h
    cases hk : platform.hashKey value with
    | none => simp [hk, throw, throwThe, MonadExceptOf.throw] at h
    | some n =>
      simp only [hk] at h
      split_ifs at h with hs
      obtain rfl := Except.ok.inj h
      refine ⟨hk.symm, fun _ => rfl, ?_⟩
      rintro n' hn'
      obtain rfl := Option.some.inj hn'
      simpa using hs

theorem judge_ok {nonce : Option DictKey} {command : Command}
    (h : c.judge platform frame pairing now = .ok (nonce, command)) :
    nonce = platform.nonce? (Client.envelopeOf frame) ∧
      ((nonceOf (Client.envelopeOf frame)).isSome → nonce.isSome) ∧
      (∀ n, nonce = some n → c.seenNonces.get? n = none) ∧
      inWindow (Client.envelopeOf frame) now = true := by
  unfold Client.judge at h
  cases pairing with
  | none => cases h
  | some root =>
    simp only at h
    split at h
    · cases hn : c.nonceKey platform (Client.envelopeOf frame) with
      | error e => simp [hn, bind, Except.bind] at h
      | ok nonce' =>
        cases hd : decryptCommand platform (Client.envelopeOf frame) root now with
        | error e => simp [hn, hd, bind, Except.bind] at h
        | ok command' =>
          simp only [hn, hd, bind, Except.bind, pure, Except.pure, Except.ok.injEq, Prod.mk.injEq] at h
          obtain ⟨rfl, rfl⟩ := h
          obtain ⟨hk, present, free⟩ := nonceKey_ok hn
          exact ⟨hk, present, free, decryptCommand_ok hd⟩
    · cases h

end Judge

section Step
variable {platform : Platform} {c c' : Client} {envelope : Json}

/-- A guarded envelope stays guarded while its nonce is kept or its time is over. -/
theorem Guarded.later (h : Guarded platform c envelope) (clock : c.clock ≤ c'.clock)
    (kept : ∀ n ts, platform.nonce? envelope = some n → tsOf envelope = some ts →
      ts ≤ c.clock + tsWindowMs → (c.seenNonces.get? n).isSome →
      (c'.seenNonces.get? n).isSome ∨ ts + tsWindowMs < c'.clock) : Guarded platform c' envelope := by
  obtain ⟨n, ts, hn, hts, hle, hs⟩ := h
  refine ⟨n, ts, hn, hts, by omega, ?_⟩
  rcases hs with hs | hs
  · exact kept n ts hn hts hle hs
  · exact .inr (by omega)

/-- The same table and a later clock guard what was guarded. -/
theorem ReplaySafe.later (h : ReplaySafe platform c) (clock : c.clock ≤ c'.clock)
    (started : c'.started = c.started)
    (kept : ∀ n, (c.seenNonces.get? n).isSome → (c'.seenNonces.get? n).isSome) :
    ReplaySafe platform c' := by
  refine ⟨fun x hx => ?_, by rw [started]; exact h.once⟩
  rw [started] at hx
  exact (h.guarded x hx).later clock fun n ts _ _ _ hs => .inl (kept n hs)

theorem isSome_assign {n : DictKey} {row : SeenNonce} (h : (c.seenNonces.get? n).isSome) :
    ((c.seenNonces.assign row).get? n).isSome := by
  rw [Table.get?_assign]
  split
  · rfl
  · exact h

theorem finished_safe (h : ReplaySafe platform c) (index : Nat) (result : Json) (elapsed : Nat) :
    ReplaySafe platform (step platform c (.finished index result elapsed)) := by
  rw [step]
  split
  · exact h.later (Int.le_add_of_nonneg_right (by omega)) rfl fun n hs => hs
  · rename_i execution hx
    refine h.later (Int.le_add_of_nonneg_right (by omega)) rfl fun n hs => ?_
    change ((c.finish execution result (c.clock + elapsed)).seenNonces.get? n).isSome
    rw [Client.finish]
    cases execution.nonce with
    | none => exact hs
    | some nonce => exact isSome_assign hs

/-- The nonces after an accepted frame: its own, and those that were not pruned. -/
theorem admitCommand_seen (c : Client) (n : DictKey) (ts now : Int) (command : Option String) (k : DictKey) :
    ((c.admitCommand (some n) ts command now).seenNonces.get? k).isSome =
      (decide (n = k) || ((c.seenNonces.get? k).filter fun row =>
        !c.forgets (now - tsWindowMs) row).isSome) := by
  simp only [Client.admitCommand, Client.record, Client.prune, Table.get?_assign, Table.get?_delete]
  by_cases hk : n = k
  · simp [hk]
  · simp [hk]

/-- An accepted frame: its envelope is started, its nonce is recorded and old ones are pruned. -/
theorem step_accepted {frame : Frame} {pairing : Option String} {elapsed : Nat} (later : Nat) {n : DictKey}
    {command : Command} (hj : c.judge platform frame pairing (c.clock + elapsed) = .ok (some n, command)) :
    (∃ x, x.envelope = Client.envelopeOf frame ∧
      (step platform c (.frame frame pairing elapsed later)).started = x :: c.started) ∧
    (step platform c (.frame frame pairing elapsed later)).clock = c.clock + elapsed + later ∧
    ∀ k, ((step platform c (.frame frame pairing elapsed later)).seenNonces.get? k).isSome =
      (decide (n = k) || ((c.seenNonces.get? k).filter fun row =>
        !c.forgets (c.clock + elapsed + later - tsWindowMs) row).isSome) := by
  simp only [step, Client.handle, hj]
  exact ⟨⟨_, rfl, rfl⟩, trivial, admitCommand_seen c n _ _ (Client.commandKey platform frame)⟩

theorem accepted_safe (h : ReplaySafe platform c) {frame : Frame} {pairing : Option String}
    {elapsed later : Nat} {nonce : Option DictKey} {command : Command}
    (careful : Careful platform c (.frame frame pairing elapsed later))
    (hj : c.judge platform frame pairing (c.clock + elapsed) = .ok (nonce, command)) :
    ReplaySafe platform (step platform c (.frame frame pairing elapsed later)) := by
  obtain ⟨hnonce, present, free, fresh⟩ := judge_ok hj
  obtain ⟨named, forgotten⟩ := careful (by rw [hj]; rfl)
  obtain ⟨ts, hts, hle, hge⟩ := inWindow_iff.mp fresh
  obtain ⟨n, rfl⟩ := Option.isSome_iff_exists.mp (present named)
  obtain ⟨⟨x₀, hx₀, started⟩, clock, seen⟩ := step_accepted later hj
  refine ⟨fun x hx => ?_, ?_⟩
  · rw [started] at hx
    rcases List.mem_cons.mp hx with rfl | hx
    · rw [hx₀]
      exact ⟨n, ts, hnonce.symm, hts, by omega, .inl (by simp [seen])⟩
    · refine (h.guarded x hx).later (by omega) fun n' ts' hn' hts' hle' hs => ?_
      obtain ⟨row, hrow⟩ := Option.isSome_iff_exists.mp hs
      rw [seen, hrow, clock]
      cases hf : c.forgets (c.clock + elapsed + later - tsWindowMs) row with
      | false => exact .inl (by simp [Option.filter, hf])
      | true =>
        have expired := forgotten x hx n' hn' row hrow hf
        rw [← Bool.not_eq_true, inWindow_iff] at expired
        right
        by_contra hlive
        exact expired ⟨ts', hts', by omega, by omega⟩
  · rw [started, List.pairwise_cons, hx₀]
    refine ⟨fun x hx same => ?_, h.once⟩
    obtain ⟨n', ts', hn', hts', -, hs⟩ := h.guarded x hx
    rw [← platform.nonce?_congr same] at hn'
    rw [← tsOf_congr same] at hts'
    obtain rfl := Option.some.inj (hnonce.trans hn')
    obtain rfl := Option.some.inj (hts.symm.trans hts')
    rcases hs with hs | hs
    · rw [free n rfl] at hs
      cases hs
    · omega

theorem step_safe (h : ReplaySafe platform c) (e : Event) (careful : Careful platform c e) :
    ReplaySafe platform (step platform c e) := by
  cases e with
  | finished index result elapsed => exact finished_safe h index result elapsed
  | frame frame pairing elapsed later =>
    cases hj : c.judge platform frame pairing (c.clock + elapsed) with
    | ok r => exact accepted_safe h careful hj
    | error refusal =>
      have same : (c.handle platform frame pairing (c.clock + elapsed) (c.clock + elapsed + later)).1 = c := by
        simp only [Client.handle, hj]
        cases refusal <;> rfl
      have clock : c.clock ≤ c.clock + elapsed + later := by omega
      rw [step, same]
      exact h.later clock rfl fun n hs => hs

end Step

/-- In a run of careful steps no envelope is executed twice, also when its members come in another order. -/
theorem command_executed_once (platform : Platform) (clock : Int) (events : List Event)
    (careful : Along (step platform) (Careful platform) (Client.initial clock) events) :
    (run (step platform) (Client.initial clock) events).started.Pairwise
      fun x y => ¬ SameEnvelope x.envelope y.envelope := by
  have initial : ReplaySafe platform (Client.initial clock) := ⟨by simp [Client.initial], by simp [Client.initial]⟩
  exact (careful.invariant initial fun c e ok safe => step_safe safe e ok).once

/-- Signatures verify and every body is a pause. -/
def idealPlatform : Platform where
  str := asciiHost.str
  floatKey f := .other f.text
  verify _ _ := .ok true
  openBody _ := .ok (.obj [("op", .str "pause")])

/-- A command of the operator, stamped with its own time. -/
def commandFrame (id nonce : String) (ts : Int) : Frame where
  commandId := .str id
  operatorSlug := .str "op"
  envelope := .obj [("signature", .str "sig"), ("ts", .int ts), ("command_id", .str id),
    ("hpke_enc", .str "enc"), ("ciphertext", .str "ct"), ("nonce", .str nonce)]

/-- A command stamped ten minutes ahead ends within a second, a second command arrives a
quarter of an hour later, and the first is replayed. -/
def aheadEvents : List Event :=
  [.frame (commandFrame "c-1" "n-1" 600000) (some "root") 0 0, .finished 0 (.obj []) 1000,
    .frame (commandFrame "c-2" "n-2" 901000) (some "root") 900000 0,
    .frame (commandFrame "c-1" "n-1" 600000) (some "root") 1 0]

theorem command_executed_again :
    ¬ ((run (step idealPlatform) (Client.initial 0) aheadEvents).started.map (·.envelope)).Nodup := by
  have twice : (run (step idealPlatform) (Client.initial 0) aheadEvents).started.map (·.envelope) =
      [(commandFrame "c-1" "n-1" 600000).envelope, (commandFrame "c-2" "n-2" 901000).envelope,
        (commandFrame "c-1" "n-1" 600000).envelope] := by
    rfl
  rw [twice]
  simp

/-- The members of an envelope, the last first. -/
def reordered (frame : Frame) : Frame :=
  match frame.envelope with
  | .obj members => { frame with envelope := .obj members.reverse }
  | _ => frame

/-- A command stamped in the past, and its replay after it has ended. -/
def pastEvents : List Event :=
  [.frame (commandFrame "c-1" "n-1" 0) (some "root") 5 0, .finished 0 (.obj []) 1000,
    .frame (reordered (commandFrame "c-1" "n-1" 0)) (some "root") 10 0]

theorem command_executed_once_replayed :
    (run (step idealPlatform) (Client.initial 0) pastEvents).started.Pairwise
      fun x y => ¬ SameEnvelope x.envelope y.envelope := by
  refine command_executed_once idealPlatform 0 pastEvents ⟨fun _ => ⟨rfl, ?_⟩, trivial, ?_, trivial⟩
  · exact fun x hx => absurd hx List.not_mem_nil
  · exact fun accepted => absurd accepted (by decide)

end PuffoAgent.Control
