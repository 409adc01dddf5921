import PuffoAgent.Sending.Evidence
import Mathlib.Algebra.GroupWithZero.Nat

/-! A send in `send_anyway` mode posts only what the model has reconsidered. -/
namespace PuffoAgent.Sending
open Relational Text Machine

variable {sha : Sha256} {ops : List Op} {op : Op}

/-- The coordinator after the steps `ops`. -/
def reached (sha : Sha256) (ops : List Op) : Coordinator := run (step sha) .idle ops

theorem reached_snoc (sha : Sha256) (ops : List Op) (op : Op) :
    reached sha (ops ++ [op]) = step sha (reached sha ops) op := run_append (step sha) .idle ops [op]

theorem reached_drafted (sha : Sha256) (ops : List Op) : (reached sha ops).Drafted sha := by
  refine run_invariant ⟨fun id send h => ?_, fun key held h => ?_⟩ (fun c op h => h.step op) ops
  · cases h
  · cases h

/-- After `ops` the send looked at the record of `key`, which is its own draft's. -/
structure Snapshot (sha : Sha256) (send : Send) (key : HeldKey) (held : HeldEvidence)
    (ops : List Op) (op : Op) : Prop where
  resumed : op = .resume send.id .go
  record : (reached sha ops).held.get? key = some held
  fingerprint : held.attemptFingerprint = send.request.attemptFingerprint sha
  digest : held.contentDigest = contentDigest sha send.materialized ∨ sha.Collision

/-- After `ops` the send was allowed to post under `key`: it had seen its own record, marked as
synchronized, the turn was still the record's, and the turn had read up to the held head. -/
structure Approved (sha : Sha256) (send : Send) (key : HeldKey) (decision : ReconsiderationDecision)
    (ops : List Op) (op : Op) : Prop where
  resumed : op = .resume send.id .go
  channel : key.spaceId = send.spaceId ∧ key.channelId = send.channelId
  identity : (reached sha ops).turnIdentity = (key.sessionId, key.turnId)
  decided : (decision.sessionId, decision.turnId) = (key.sessionId, key.turnId)
  admitted : (reached sha ops).admittedSeq send.spaceId send.channelId = some decision.admittedSeq
  reconsidered : ∃ held, Past (Snapshot sha send key held) ops ∧ held.synchronized = true ∧
    held.latestSeq = decision.latestSeq ∧ held.latestEnvelopeId = decision.latestEnvelopeId ∧
    held.latestSeq ≤ decision.admittedSeq

/-- After `ops` the recovery of the send started, from a record that it matched. -/
structure Began (sha : Sha256) (send : Send) (attempt : HeldRecoveryAttempt) (ops : List Op)
    (op : Op) : Prop where
  resumed : op = .resume send.id .go
  record : ∃ held, (reached sha ops).held.get? attempt.key = some held ∧
    Coordinator.Matches attempt held

/-- After `ops` the source returned the head of the attempt, as this session's. -/
structure Recovered (sha : Sha256) (send : Send) (attempt : HeldRecoveryAttempt) (ops : List Op)
    (op : Op) : Prop where
  rows : ∃ rows, op = .resume send.id (.rows (some rows)) ∧
    Coordinator.heldRowsAreSynchronized rows attempt = true
  identity : (reached sha ops).turnIdentity = (attempt.key.sessionId, attempt.key.turnId)

/-- What the past of a suspended send must hold. -/
def Justified (sha : Sha256) (ops : List Op) (send : Send) : Prop :=
  match send.phase with
  | .grading sessionId turnId synchronized currentPair _ => ∃ held,
    Past (Snapshot sha send ⟨sessionId, turnId, send.spaceId, send.channelId⟩ held) ops ∧
      held.synchronized = synchronized ∧ (held.latestSeq, held.latestEnvelopeId) = currentPair
  | .ready key reconsideration _ _ | .consuming key reconsideration _
  | .supplementing key reconsideration => send.request.sendAnyway = true →
    ∃ decision, reconsideration = some decision ∧ Past (Approved sha send key decision) ops
  | _ => True

/-- What the past of a send in a recovery must hold. -/
def Grounded (sha : Sha256) (ops : List Op) (send : Send) : Prop :=
  ∀ recovery, send.phase.recovery = some recovery → recovery.phase ≠ .matching →
    Past (Began sha send recovery.attempt) ops ∧
      (recovery.phase = .committing → Past (Recovered sha send recovery.attempt) ops)

section Moves
variable {send : Send} {key : HeldKey}

theorem Snapshot.at {held : HeldEvidence} (h : Past (Snapshot sha send key held) ops)
    (phase : Phase) : Past (Snapshot sha (send.at phase) key held) ops :=
  h.imp fun _ _ h => ⟨h.resumed, h.record, h.fingerprint, h.digest⟩

theorem Approved.at {decision : ReconsiderationDecision}
    (h : Past (Approved sha send key decision) ops) (phase : Phase) :
    Past (Approved sha (send.at phase) key decision) ops := by
  refine h.imp fun _ _ h => ⟨h.resumed, h.channel, h.identity, h.decided, h.admitted, ?_⟩
  obtain ⟨held, hp, hs⟩ := h.reconsidered
  exact ⟨held, Snapshot.at hp phase, hs⟩

end Moves

section Justified
variable {send : Send}

theorem Justified.later (h : Justified sha ops send) (op : Op) : Justified sha (ops ++ [op]) send := by
  unfold Justified at h ⊢
  split at h
  · obtain ⟨held, hp, hs⟩ := h
    exact ⟨held, hp.later op, hs⟩
  · intro ha
    obtain ⟨decision, hr, hp⟩ := h ha
    exact ⟨decision, hr, hp.later op⟩
  · intro ha
    obtain ⟨decision, hr, hp⟩ := h ha
    exact ⟨decision, hr, hp.later op⟩
  · intro ha
    obtain ⟨decision, hr, hp⟩ := h ha
    exact ⟨decision, hr, hp.later op⟩
  · trivial

theorem justified_resolveSend (c : Coordinator) (files : Option Materialized) :
    Justified sha ops (c.resolveSend send files) := by
  unfold Coordinator.resolveSend
  split
  · trivial
  · split_ifs with hl ha hi
    · trivial
    · trivial
    · trivial
    · exact fun h => absurd h ha

theorem justified_snapshotSend (c : Coordinator) (sessionId turnId : String) :
    Justified sha ops (c.snapshotSend sha send sessionId turnId) := by
  unfold Coordinator.snapshotSend
  split
  · trivial
  · split_ifs
    · trivial
    · trivial
    · split <;> trivial

theorem justified_catchUpSend (c : Coordinator) (seq : Option Int) (envelopeId : Option String) :
    Justified sha ops (c.catchUpSend sha send seq envelopeId) := by
  unfold Coordinator.catchUpSend
  split <;> trivial

/-- The second snapshot is what the grading rests on. -/
theorem justified_confirmSend
    (hl : send.materialized.length = send.request.attachmentPaths.length)
    (sessionId turnId : String) (heldPair : Int × String) :
    Justified sha (ops ++ [.resume send.id .go])
      ((reached sha ops).confirmSend sha send sessionId turnId heldPair) := by
  unfold Coordinator.confirmSend
  split
  · trivial
  · rename_i held hg
    split_ifs with hm
    · trivial
    · obtain ⟨hf, hd⟩ := ((reached_drafted sha ops).drafted _ held hg).digest hl (by simpa using hm)
      exact ⟨held, Snapshot.at (.now ⟨rfl, hg, hf, hd⟩) _, rfl, rfl⟩

/-- The verdict approves what the second snapshot saw. -/
theorem justified_gradeSend {sessionId turnId : String} {synchronized : Bool}
    {currentPair heldPair : Int × String} (h : Justified sha ops send)
    (hp : send.phase = .grading sessionId turnId synchronized currentPair heldPair) :
    Justified sha (ops ++ [.resume send.id .go])
      ((reached sha ops).gradeSend send sessionId turnId synchronized currentPair) := by
  unfold Justified at h
  rw [hp] at h
  obtain ⟨held, hs, rfl, rfl⟩ := h
  unfold Coordinator.gradeSend
  split
  · trivial
  · rename_i admitted ha
    split_ifs with hn
    · trivial
    · push Not at hn
      obtain ⟨hsync, hle, hid⟩ := hn
      refine fun _ => ⟨_, rfl, Approved.at (.now ?_) _⟩
      exact ⟨rfl, ⟨rfl, rfl⟩, by simp [hid], by simp [hid], ha,
        held, by simpa [hid] using hs, hsync, rfl, rfl, hle⟩

theorem justified_answerSend {key : HeldKey} {reconsideration : Option ReconsiderationDecision}
    {retried : Bool} (h : send.request.sendAnyway = true →
      ∃ decision, reconsideration = some decision ∧ Past (Approved sha send key decision) ops)
    (response : Response) :
    Justified sha ops (Coordinator.answerSend send key reconsideration retried response) := by
  have hat (phase : Phase) (ha : send.request.sendAnyway = true) : ∃ decision,
      reconsideration = some decision ∧ Past (Approved sha (send.at phase) key decision) ops := by
    obtain ⟨decision, hr, hp⟩ := h ha
    exact ⟨decision, hr, Approved.at hp phase⟩
  cases response with
  | sent missing => exact hat _
  | held seq envelopeId => trivial
  | failed => trivial
  | formatMismatch changed =>
    simp only [Coordinator.answerSend]
    split_ifs
    · exact hat _
    · trivial

/-- A step of the send itself justifies where it is suspended next. -/
theorem Justified.resumed (h : Justified sha ops send) (hr : send.Read) (input : Coordinator.Input) :
    Justified sha (ops ++ [.resume send.id input]) ((reached sha ops).resumed sha send input) := by
  have hl := h.later (.resume send.id input)
  unfold Coordinator.resumed
  split
  case h_1 => exact justified_resolveSend _ _
  case h_2 => exact justified_snapshotSend _ _ _
  case h_3 => split <;> trivial
  case h_4 sessionId turnId heldPair hp =>
    obtain h' | h' | hlen := hr
    · rw [hp] at h'; cases h'
    · rw [hp] at h'; cases h'
    · exact justified_confirmSend hlen sessionId turnId heldPair
  case h_5 hp => exact justified_gradeSend h hp
  case h_6 hp =>
    unfold Justified at hl
    rw [hp] at hl
    intro ha
    obtain ⟨decision, hd, hpast⟩ := hl ha
    exact ⟨decision, hd, Approved.at hpast _⟩
  case h_7 hp =>
    unfold Justified at hl
    rw [hp] at hl
    exact justified_answerSend hl _
  case h_8 => trivial
  case h_9 hp =>
    unfold Justified at hl
    rw [hp] at hl
    split_ifs
    · intro ha
      obtain ⟨decision, hd, hpast⟩ := hl ha
      exact ⟨decision, hd, Approved.at hpast _⟩
    · trivial
  case h_10 => trivial
  case h_11 => exact justified_catchUpSend _ _ _
  case h_12 => split <;> trivial
  case h_13 => exact hl

end Justified

section Grounded
variable {send : Send}

theorem Grounded.later (h : Grounded sha ops send) (op : Op) : Grounded sha (ops ++ [op]) send := by
  intro recovery hr hm
  obtain ⟨hb, hc⟩ := h recovery hr hm
  exact ⟨hb.later op, fun hp => (hc hp).later op⟩

theorem grounded_of_recovery (h : ∀ recovery, send.phase.recovery = some recovery →
    recovery.phase = .matching) : Grounded sha ops send :=
  fun recovery hr hm => absurd (h recovery hr) hm

/-- A recovery leaves its first look only from a record it matches, and commits only after
the rows came back. -/
theorem grounded_resumeRecovery {recovery recovery' : Recovery} {input : Coordinator.Input}
    (h : recovery.phase ≠ .matching → Past (Began sha send recovery.attempt) ops ∧
      (recovery.phase = .committing → Past (Recovered sha send recovery.attempt) ops))
    (hr : (reached sha ops).resumeRecovery recovery input = some recovery')
    (hm : recovery'.phase ≠ .matching) :
    Past (Began sha send recovery'.attempt) (ops ++ [.resume send.id input]) ∧
      (recovery'.phase = .committing →
        Past (Recovered sha send recovery'.attempt) (ops ++ [.resume send.id input])) := by
  unfold Coordinator.resumeRecovery at hr
  split at hr
  case h_1 hp =>
    split_ifs at hr with hmatch
    obtain rfl := Option.some.inj hr
    refine ⟨.now ⟨rfl, ?_⟩, nofun⟩
    exact Coordinator.heldEvidenceMatches_iff.mp hmatch
  case h_2 hp =>
    split_ifs at hr
    obtain rfl := Option.some.inj hr
    exact ⟨(h (by simp [hp])).1.later _, nofun⟩
  case h_3 hp =>
    split_ifs at hr
    obtain rfl := Option.some.inj hr
    exact ⟨(h (by simp [hp])).1.later _, nofun⟩
  case h_4 rows hp =>
    split_ifs at hr with hc
    obtain rfl := Option.some.inj hr
    obtain ⟨-, hrows, hid⟩ := hc
    obtain ⟨rows, rfl, hs⟩ := (Option.any_eq_true _ _).mp hrows
    exact ⟨(h (by simp [hp])).1.later _, fun _ => .now ⟨⟨rows, rfl, hs⟩, hid⟩⟩
  case h_5 => cases hr
  case h_6 =>
    obtain rfl := Option.some.inj hr
    exact ⟨(h hm).1.later _, fun hp => ((h hm).2 hp).later _⟩

theorem Began.keep {attempt : HeldRecoveryAttempt} (h : Past (Began sha send attempt) ops)
    (c : Coordinator) (input : Coordinator.Input) :
    Past (Began sha (c.resumed sha send input) attempt) ops :=
  h.imp fun _ _ h => ⟨by rw [Coordinator.resumed_id, h.resumed], h.record⟩

theorem Recovered.keep {attempt : HeldRecoveryAttempt} (h : Past (Recovered sha send attempt) ops)
    (c : Coordinator) (input : Coordinator.Input) :
    Past (Recovered sha (c.resumed sha send input) attempt) ops :=
  h.imp fun _ _ h => ⟨by rw [Coordinator.resumed_id]; exact h.rows, h.identity⟩

theorem Grounded.resumed (h : Grounded sha ops send) (input : Coordinator.Input) :
    Grounded sha (ops ++ [.resume send.id input]) ((reached sha ops).resumed sha send input) := by
  intro recovery' hr hm
  obtain hn | ⟨recovery, hs, hstep⟩ := Coordinator.resumed_recovery hr
  · exact absurd hn hm
  · obtain ⟨hb, hc⟩ := grounded_resumeRecovery (h recovery hs) hstep hm
    exact ⟨Began.keep hb _ _, fun hp => Recovered.keep (hc hp) _ _⟩

end Grounded

section Runs

/-- In every run, every suspended send is justified by the steps before. -/
theorem reached_justified (sha : Sha256) (ops : List Op) {id : Nat} {send : Send}
    (h : (reached sha ops).sends.get? id = some send) :
    Justified sha ops send ∧ Grounded sha ops send := by
  induction ops using List.reverseRecOn generalizing id send with
  | nil => cases h
  | append_singleton ops op ih =>
    rw [reached_snoc] at h
    obtain hk | ⟨_, _, _, -, rfl⟩ | ⟨send, input, rfl, hk, rfl⟩ := step_sends h
    · exact ⟨(ih hk).1.later op, (ih hk).2.later op⟩
    · exact ⟨trivial, grounded_of_recovery nofun⟩
    · exact ⟨(ih hk).1.resumed ((reached_drafted sha ops).read id send hk) input,
        (ih hk).2.resumed input⟩

/-- A send in `send_anyway` mode posts under a boundary that its past approved: the send had
seen its own synchronized record for exactly this session, turn and channel, at or below what
the turn had read. A record becomes synchronized only by a recovery that started from the
same head and draft. -/
theorem send_anyway_reconsidered (sha : Sha256) (ops : List Op) (op : Op) :
    (∀ send, posts (reached sha ops) op = some send → send.request.sendAnyway = true →
      ∃ key decision, send.phase.boundary = some (key, some decision) ∧
        Past (Approved sha send key decision) ops) ∧
    (∀ key held, (reached sha (ops ++ [op])).held.get? key = some held → held.synchronized = true →
      (reached sha ops).held.get? key = some held ∨
      ∃ send attempt old, op = .resume send.id .go ∧ (reached sha ops).held.get? key = some old ∧
        held = { old with synchronized := true } ∧ Coordinator.Matches attempt old ∧
        Past (Began sha send attempt) ops ∧ Past (Recovered sha send attempt) ops) := by
  constructor
  · intro send hp ha
    unfold posts at hp
    split at hp
    · obtain ⟨hg, hb⟩ := Option.filter_eq_some_iff.mp hp
      have hj := (reached_justified sha ops hg).1
      unfold Justified at hj
      cases hphase : send.phase with
      | ready key reconsideration posted retried =>
        rw [hphase] at hj
        obtain ⟨decision, rfl, hpast⟩ := hj ha
        exact ⟨key, decision, rfl, hpast⟩
      | supplementing key reconsideration =>
        rw [hphase] at hj
        obtain ⟨decision, rfl, hpast⟩ := hj ha
        exact ⟨key, decision, rfl, hpast⟩
      | _ => rw [hphase] at hb; cases hb
    · cases hp
  · intro key held hh hs
    rw [reached_snoc] at hh
    obtain hk | ⟨send, attempt, old, rfl, hg, hr, hk, hm, rfl⟩ | ⟨_, _, _, _, _, _, _, -, -, -, -, rfl⟩ :=
      step_held hh
    · exact .inl hk
    · obtain ⟨hb, hc⟩ := (reached_justified sha ops hg).2 _ hr nofun
      exact .inr ⟨send, attempt, old, rfl, hk, rfl, hm, hb, hc rfl⟩
    · cases hs

end Runs

section Failures

/-- A digest that separates the contents of the runs below. -/
def parity : Sha256 where
  digest payload := payload
  hexdigest input := ⟨String.ofList (List.replicate 64
    (Nat.digitChar ((input.map UInt8.toNat).sum % 2))), by simp⟩

/-- A send up to the record of its held answer. -/
def heldSend (id : Nat) (request : SemanticSendRequest) (files : Materialized) : List Op :=
  [.enter id request "sp" false, .resume id (.materialized (some files)), .resume id .post,
    .resume id (.response (.held (some 7) (some "e7"))), .resume id .go]

/-- Its recovery, from the delivery of the head up to the commit. -/
def recoverSend (id : Nat) : List Op :=
  [.resume id (.waited true), .resume id .go,
    .resume id (.rows (some [⟨some "e7", some 7, some 7, some "e7", some "s"⟩]))]

/-- The turn is torn down between the verdict of a reconsidered send and its post. -/
def discardedRun : List Op :=
  [.setSession (some "s"), .setActive (some ⟨"t", "s"⟩)] ++
    heldSend 0 { destination := "ch", text := "hello" } [] ++
    [.resume 0 .go, .resume 0 .go] ++ recoverSend 0 ++ [.resume 0 .go, .admitted "sp" "ch" (some 7),
      .enter 1 { destination := "ch", text := "hello", sendAnyway := true } "sp" false,
      .resume 1 (.materialized (some [])), .resume 1 .go, .resume 1 .go, .resume 1 .go, .discard]

/-- The file of a held send. -/
def fileRun : List Op :=
  [.setSession (some "s"), .setActive (some ⟨"t", "s"⟩)] ++
    heldSend 0 { destination := "ch", attachmentPaths := ["f"] } [("f", [0])] ++ [.resume 0 .go]

/-- While its recovery waits, eight other channels evict the record, and the changed file is
held against the same head. -/
def changedFileRun : List Op :=
  fileRun ++ [.resume 0 .go] ++
    (List.range 8).flatMap (fun n => heldSend (n + 1) { destination := n.repr } []) ++
    heldSend 9 { destination := "ch", attachmentPaths := ["f"] } [("f", [1])] ++ recoverSend 0

/-- What the record of the channel says of its draft. -/
def channelRecord (c : Coordinator) : Option (String × Bool) :=
  (c.held.get? ⟨"s", "t", "sp", "ch"⟩).map fun held => (held.contentDigest, held.synchronized)

theorem send_anyway_after_discard :
    (∃ send, posts (reached parity discardedRun) (.resume 1 .post) = some send ∧
      send.request.sendAnyway = true ∧ ∀ key, (reached parity discardedRun).held.get? key = none) ∧
    channelRecord (reached parity fileRun) = some (contentDigest parity [("f", [0])], false) ∧
    channelRecord (reached parity changedFileRun) = some (contentDigest parity [("f", [1])], false) ∧
    channelRecord (reached parity (changedFileRun ++ [.resume 0 .go])) =
      some (contentDigest parity [("f", [1])], true) ∧
    contentDigest parity [("f", [0])] ≠ contentDigest parity [("f", [1])] := by
  refine ⟨?_, by decide +kernel, by decide +kernel, by decide +kernel, by decide +kernel⟩
  have hp : (posts (reached parity discardedRun) (.resume 1 .post)).any (·.request.sendAnyway) = true :=
    by decide +kernel
  obtain ⟨send, hs, ha⟩ := (Option.any_eq_true _ _).mp hp
  have hr : (reached parity discardedRun).held.rows = [] := by decide +kernel
  refine ⟨send, hs, ha, fun key => ?_⟩
  rw [Table.get?_eq_none_iff, hr]
  exact List.not_mem_nil

end Failures
end PuffoAgent.Sending
