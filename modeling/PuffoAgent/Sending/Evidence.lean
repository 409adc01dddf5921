import PuffoAgent.Sending.Coordinator

/-! What one step does to the suspended sends and to the held evidence, and which drafts the
evidence stands for. -/
namespace PuffoAgent.Sending
open Relational Text Machine

variable {sha : Sha256} {c : Coordinator} {send : Send} {input : Coordinator.Input}

/-- A send as it is suspended at `phase`. -/
def Send.at (send : Send) (phase : Phase) : Send := { send with phase := phase }

namespace Coordinator

section Sends

theorem snapshotSend_at (sessionId turnId : String) :
    ∃ phase, c.snapshotSend sha send sessionId turnId = send.at phase := by
  unfold snapshotSend
  split
  · exact ⟨_, rfl⟩
  · split_ifs
    · exact ⟨_, rfl⟩
    · exact ⟨_, rfl⟩
    · split <;> exact ⟨_, rfl⟩

theorem confirmSend_at (sessionId turnId : String) (heldPair : Int × String) :
    ∃ phase, c.confirmSend sha send sessionId turnId heldPair = send.at phase := by
  unfold confirmSend
  split
  · exact ⟨_, rfl⟩
  · split_ifs <;> exact ⟨_, rfl⟩

theorem gradeSend_at (sessionId turnId : String) (synchronized : Bool) (pair : Int × String) :
    ∃ phase, c.gradeSend send sessionId turnId synchronized pair = send.at phase := by
  unfold gradeSend
  split
  · exact ⟨_, rfl⟩
  · split_ifs <;> exact ⟨_, rfl⟩

theorem answerSend_at (heldKey : HeldKey) (reconsideration : Option ReconsiderationDecision)
    (retried : Bool) (response : Response) :
    ∃ phase, answerSend send heldKey reconsideration retried response = send.at phase := by
  cases response with
  | sent missing => exact ⟨_, rfl⟩
  | held seq envelopeId => exact ⟨_, rfl⟩
  | failed => exact ⟨_, rfl⟩
  | formatMismatch changed =>
    simp only [answerSend]
    split_ifs <;> exact ⟨_, rfl⟩

theorem catchUpSend_at (seq : Option Int) (envelopeId : Option String) :
    ∃ phase, c.catchUpSend sha send seq envelopeId = send.at phase := by
  unfold catchUpSend
  split <;> exact ⟨_, rfl⟩

theorem resolveSend_cases (files : Option Materialized) :
    c.resolveSend send files = send.at .finished ∨
      ∃ materialized phase, materialized.length = send.request.attachmentPaths.length ∧
        c.resolveSend send files = { send with materialized := materialized, phase := phase } := by
  unfold resolveSend
  split
  · exact .inl rfl
  · rename_i materialized
    split_ifs with hl
    · exact .inl rfl
    · exact .inl rfl
    · exact .inr ⟨_, _, not_not.mp hl, rfl⟩
    · exact .inr ⟨_, _, not_not.mp hl, rfl⟩

/-- A resumed send moves to another phase; only its resolution reads attachments, one for
every path, and a send that does not get through it is over. -/
theorem resumed_cases (sha : Sha256) (c : Coordinator) (send : Send) (input : Input) :
    (∃ phase, c.resumed sha send input = send.at phase ∧
      (send.phase = .resolving ∨ send.phase = .finished →
        phase = .resolving ∨ phase = .finished)) ∨
      ∃ materialized phase, materialized.length = send.request.attachmentPaths.length ∧
        c.resumed sha send input = { send with materialized := materialized, phase := phase } := by
  have moved {send' : Send} (h : ∃ phase, send' = send.at phase) (hr : send.phase ≠ .resolving)
      (hf : send.phase ≠ .finished) : ∃ phase, send' = send.at phase ∧
        (send.phase = .resolving ∨ send.phase = .finished →
          phase = .resolving ∨ phase = .finished) := by
    obtain ⟨phase, rfl⟩ := h
    exact ⟨phase, rfl, fun hp => absurd hp (by simp [hr, hf])⟩
  unfold resumed
  split
  case h_1 files hp =>
    obtain h | h := resolveSend_cases files
    · exact .inl ⟨_, h, fun _ => .inr rfl⟩
    · exact .inr h
  case h_2 hp => exact .inl (moved (snapshotSend_at _ _) (by simp [hp]) (by simp [hp]))
  case h_3 hp => split <;> exact .inl (moved ⟨_, rfl⟩ (by simp [hp]) (by simp [hp]))
  case h_4 hp => exact .inl (moved (confirmSend_at _ _ _) (by simp [hp]) (by simp [hp]))
  case h_5 hp => exact .inl (moved (gradeSend_at _ _ _ _) (by simp [hp]) (by simp [hp]))
  case h_6 hp => exact .inl (moved ⟨_, rfl⟩ (by simp [hp]) (by simp [hp]))
  case h_7 hp => exact .inl (moved (answerSend_at _ _ _ _) (by simp [hp]) (by simp [hp]))
  case h_8 hp => exact .inl (moved ⟨_, rfl⟩ (by simp [hp]) (by simp [hp]))
  case h_9 hp => exact .inl (moved ⟨_, rfl⟩ (by simp [hp]) (by simp [hp]))
  case h_10 hp => exact .inl (moved ⟨_, rfl⟩ (by simp [hp]) (by simp [hp]))
  case h_11 hp => exact .inl (moved (catchUpSend_at _ _) (by simp [hp]) (by simp [hp]))
  case h_12 hp => split <;> exact .inl (moved ⟨_, rfl⟩ (by simp [hp]) (by simp [hp]))
  case h_13 => exact .inl ⟨send.phase, rfl, id⟩

theorem resumed_id (sha : Sha256) (c : Coordinator) (send : Send) (input : Input) :
    (c.resumed sha send input).id = send.id := by
  obtain ⟨p, h, -⟩ | ⟨m, p, -, h⟩ := resumed_cases sha c send input
  · rw [h]; rfl
  · rw [h]

theorem resumed_heldGeneration :
    (c.resumed sha send input).heldGeneration = send.heldGeneration := by
  obtain ⟨p, h, -⟩ | ⟨m, p, -, h⟩ := resumed_cases sha c send input
  · rw [h]; rfl
  · rw [h]

end Sends

section Held

theorem get?_prune {key : HeldKey} {held : HeldEvidence} (h : c.prune.held.get? key = some held) :
    c.held.get? key = some held := by
  have hc : c.currentTurnHeld.get? key = some held := Table.get?_of_get?_evict h
  unfold currentTurnHeld at hc
  split_ifs at hc
  · rw [Table.get?_delete, Option.filter_eq_some_iff] at hc
    exact hc.1
  · exact hc

theorem get?_recordHeld {fresh held : HeldEvidence} {heldGeneration : Nat} {key : HeldKey}
    (h : (c.recordHeld fresh heldGeneration).held.get? key = some held) :
    c.held.get? key = some held ∨ heldGeneration = c.heldGeneration ∧ held = fresh := by
  unfold recordHeld at h
  split_ifs at h with hg hs
  · exact .inl h
  · have hi := get?_prune h
    simp only [Table.get?_insertOrIgnore, Table.get?_delete] at hi
    split_ifs at hi
    · exact .inr ⟨not_not.mp hg, (Option.some.inj hi).symm⟩
    · exact .inl (Option.filter_eq_some_iff.mp hi).1
  · exact .inl (get?_prune h)

theorem get?_consumeHeld {key key' : HeldKey} {held : HeldEvidence}
    (h : (c.consumeHeld key').held.get? key = some held) : c.held.get? key = some held := by
  have hd := get?_prune h
  simp only [Table.get?_delete, Option.filter_eq_some_iff] at hd
  exact hd.1

/-- The record is for the attempt's head and draft. -/
structure Matches (attempt : HeldRecoveryAttempt) (held : HeldEvidence) : Prop where
  key : held.key = attempt.key
  latestSeq : held.latestSeq = attempt.latestSeq
  latestEnvelopeId : held.latestEnvelopeId = attempt.latestEnvelopeId
  attemptFingerprint : held.attemptFingerprint = attempt.attemptFingerprint

theorem heldEvidenceMatches_iff {attempt : HeldRecoveryAttempt} :
    c.heldEvidenceMatches attempt = true ↔
      ∃ held, c.held.get? attempt.key = some held ∧ Matches attempt held := by
  simp only [heldEvidenceMatches, Option.any_eq_true, decide_eq_true_eq]
  constructor
  · rintro ⟨held, hg, hs, he, hf⟩
    exact ⟨held, hg, Table.get?_key hg, hs, he, hf⟩
  · rintro ⟨held, hg, -, hs, he, hf⟩
    exact ⟨held, hg, hs, he, hf⟩

theorem get?_commitHeldRecovery {attempt : HeldRecoveryAttempt} {key : HeldKey}
    {held' : HeldEvidence} (h : (c.commitHeldRecovery attempt).held.get? key = some held') :
    c.held.get? key = some held' ∨ ∃ held, c.held.get? key = some held ∧ Matches attempt held ∧
      held' = { held with synchronized := true } := by
  unfold commitHeldRecovery at h
  split_ifs at h with hm
  · simp only [Table.get?_update, Option.map_eq_some_iff, decide_eq_true_eq] at h
    obtain ⟨held, hg, hh⟩ := h
    split_ifs at hh with hk
    · obtain ⟨old, ho, hold⟩ := heldEvidenceMatches_iff.mp hm
      rw [← hk, Table.get?_key hg, hg] at ho
      obtain rfl := Option.some.inj ho
      exact .inr ⟨held, hg, hold, hh.symm⟩
    · exact .inl (hh ▸ hg)
  · exact .inl h

end Held
end Coordinator

/-- The recovery a send is suspended in. -/
def Phase.recovery : Phase → Option Recovery
  | .recovering _ _ _ recovery => some recovery
  | .catchingUp recovery => some recovery
  | _ => none

namespace Coordinator

theorem snapshotSend_recovery {sessionId turnId : String} {recovery : Recovery}
    (h : (c.snapshotSend sha send sessionId turnId).phase.recovery = some recovery) :
    recovery.phase = .matching := by
  unfold snapshotSend at h
  split at h
  · cases h
  · split_ifs at h
    · cases h
    · cases h
    · split at h
      · cases h
      · cases h; rfl

theorem catchUpSend_recovery {seq : Option Int} {envelopeId : Option String} {recovery : Recovery}
    (h : (c.catchUpSend sha send seq envelopeId).phase.recovery = some recovery) :
    recovery.phase = .matching := by
  unfold catchUpSend at h
  split at h
  · cases h
  · cases h; rfl

theorem resolveSend_recovery (files : Option Materialized) :
    (c.resolveSend send files).phase.recovery = none := by
  unfold resolveSend
  split
  · rfl
  · split_ifs <;> rfl

theorem confirmSend_recovery (sessionId turnId : String) (heldPair : Int × String) :
    (c.confirmSend sha send sessionId turnId heldPair).phase.recovery = none := by
  unfold confirmSend
  split
  · rfl
  · split_ifs <;> rfl

theorem gradeSend_recovery (sessionId turnId : String) (synchronized : Bool) (pair : Int × String) :
    (c.gradeSend send sessionId turnId synchronized pair).phase.recovery = none := by
  unfold gradeSend
  split
  · rfl
  · split_ifs <;> rfl

theorem answerSend_recovery (heldKey : HeldKey) (reconsideration : Option ReconsiderationDecision)
    (retried : Bool) (response : Response) :
    (answerSend send heldKey reconsideration retried response).phase.recovery = none := by
  cases response with
  | sent missing => rfl
  | held seq envelopeId => rfl
  | failed => rfl
  | formatMismatch changed =>
    simp only [answerSend]
    split_ifs <;> rfl

/-- A recovery has just begun, or it is the one the send was already in. -/
theorem resumed_recovery {recovery' : Recovery}
    (h : (c.resumed sha send input).phase.recovery = some recovery') :
    recovery'.phase = .matching ∨ ∃ recovery, send.phase.recovery = some recovery ∧
      c.resumeRecovery recovery input = some recovery' := by
  unfold resumed at h
  split at h
  case h_1 => rw [resolveSend_recovery] at h; cases h
  case h_2 => exact .inl (snapshotSend_recovery h)
  case h_3 hp =>
    split at h
    · rename_i hr
      cases h
      exact .inr ⟨_, by rw [hp]; rfl, hr⟩
    · cases h
  case h_4 => rw [confirmSend_recovery] at h; cases h
  case h_5 => rw [gradeSend_recovery] at h; cases h
  case h_6 => cases h
  case h_7 => rw [answerSend_recovery] at h; cases h
  case h_8 => cases h
  case h_9 =>
    split_ifs at h <;> cases h
  case h_10 => cases h
  case h_11 => exact .inl (catchUpSend_recovery h)
  case h_12 hp =>
    split at h
    · rename_i hr
      cases h
      exact .inr ⟨_, by rw [hp]; rfl, hr⟩
    · cases h
  case h_13 => cases hs : send.phase <;> grind [Phase.recovery]

/-- A send writes the evidence in three places: it marks the record of its own recovery, it
records a held answer, or it consumes. -/
theorem get?_writes {key : HeldKey} {held' : HeldEvidence}
    (h : (c.writes sha send input).held.get? key = some held') :
    c.held.get? key = some held' ∨
    (∃ held attempt, input = .go ∧ send.phase.recovery = some ⟨attempt, .committing⟩ ∧
      c.held.get? key = some held ∧ Matches attempt held ∧
      held' = { held with synchronized := true }) ∨
    (∃ heldKey seq envelopeId latestSeq latestEnvelopeId,
      send.phase = .recording heldKey latestSeq latestEnvelopeId ∧
      send.heldGeneration = c.heldGeneration ∧
      held' = heldEvidence sha send heldKey seq envelopeId) := by
  have recovery (r : Recovery) (hr : send.phase.recovery = some r)
      (h : (c.recoveryWrites r input).held.get? key = some held') :
      c.held.get? key = some held' ∨ ∃ held attempt, input = .go ∧
        send.phase.recovery = some ⟨attempt, .committing⟩ ∧ c.held.get? key = some held ∧
        Matches attempt held ∧ held' = { held with synchronized := true } := by
    unfold recoveryWrites at h
    split_ifs at h with hw
    · obtain hk | ⟨held, hk, hm, he⟩ := get?_commitHeldRecovery h
      · exact .inl hk
      · exact .inr ⟨held, r.attempt, hw.2, by rw [hr, ← hw.1], hk, hm, he⟩
    · exact .inl h
  unfold writes at h
  split at h
  case h_1 hp =>
    obtain hk | hk := recovery _ (by rw [hp]; rfl) h
    · exact .inl hk
    · exact .inr (.inl hk)
  case h_2 hp =>
    obtain hk | hk := recovery _ (by rw [hp]; rfl) h
    · exact .inl hk
    · exact .inr (.inl hk)
  case h_3 heldKey _ _ hp =>
    unfold recordAnswer at h
    split at h
    · split_ifs at h
      · exact .inl h
      · obtain hk | ⟨hgen, he⟩ := get?_recordHeld h
        · exact .inl hk
        · exact .inr (.inr ⟨heldKey, _, _, _, _, hp, hgen, he⟩)
    · exact .inl h
  case h_4 => exact .inl (get?_consumeHeld h)
  case h_5 => exact .inl h

end Coordinator

section Step
variable {op : Op}

theorem writes_sends (sha : Sha256) (c : Coordinator) (send : Send) (input : Coordinator.Input) :
    (c.writes sha send input).sends = c.sends := by
  unfold Coordinator.writes Coordinator.recoveryWrites Coordinator.commitHeldRecovery
    Coordinator.recordAnswer Coordinator.recordHeld Coordinator.consumeHeld Coordinator.prune
  grind

theorem writes_heldGeneration (sha : Sha256) (c : Coordinator) (send : Send)
    (input : Coordinator.Input) : (c.writes sha send input).heldGeneration = c.heldGeneration := by
  unfold Coordinator.writes Coordinator.recoveryWrites Coordinator.commitHeldRecovery
    Coordinator.recordAnswer Coordinator.recordHeld Coordinator.consumeHeld Coordinator.prune
  grind

/-- After a step a send is as it was, has just entered, or was the one resumed. -/
theorem step_sends {id : Nat} {send' : Send} (h : (step sha c op).sends.get? id = some send') :
    c.sends.get? id = some send' ∨
      (∃ request spaceId keyless, op = .enter id request spaceId keyless ∧
        send' = ⟨id, request, spaceId, keyless, c.heldGeneration, [], .resolving⟩) ∨
      ∃ send input, op = .resume send.id input ∧ c.sends.get? id = some send ∧
        send' = c.resumed sha send input := by
  cases op with
  | enter id' request spaceId keyless =>
    simp only [step, Coordinator.enter] at h
    split_ifs at h
    · exact .inl h
    · simp only [Table.get?_insertOrIgnore] at h
      split_ifs at h with hi
      · exact .inr (.inl ⟨request, spaceId, keyless, by rw [hi.1], by rw [← hi.1, Option.some.inj h]⟩)
      · exact .inl h
  | resume id' input =>
    simp only [step] at h
    cases hg : c.sends.get? id' with
    | none => exact .inl (by simpa only [hg] using h)
    | some send =>
      simp only [hg, Coordinator.resume, Coordinator.setSend, writes_sends, Table.get?_update,
        Coordinator.resumed_id, Option.map_eq_some_iff, decide_eq_true_eq] at h
      obtain ⟨old, ho, hs⟩ := h
      split_ifs at hs with hi
      · obtain rfl : old = send := c.sends.eq_of_key_eq (Table.mem_of_get? ho)
          (Table.mem_of_get? hg) hi
        refine .inr (.inr ⟨old, input, ?_, ho, ?_⟩)
        · rw [Table.get?_key hg]
        · rw [← hs, ← Coordinator.resumed_id sha c old input]
      · exact .inl (hs ▸ ho)
  | setActive active => exact .inl h
  | setSession providerSessionId => exact .inl h
  | admitted spaceId channelId throughSeq => exact .inl h
  | discard => exact .inl h

/-- After a step a record is as it was, was marked by the recovery it matches, or is the
record of a held answer. -/
theorem step_held {key : HeldKey} {held' : HeldEvidence}
    (h : (step sha c op).held.get? key = some held') :
    c.held.get? key = some held' ∨
    (∃ send attempt held, op = .resume send.id .go ∧ c.sends.get? send.id = some send ∧
      send.phase.recovery = some ⟨attempt, .committing⟩ ∧ c.held.get? key = some held ∧
      Coordinator.Matches attempt held ∧ held' = { held with synchronized := true }) ∨
    (∃ send input heldKey seq envelopeId latestSeq latestEnvelopeId, op = .resume send.id input ∧
      c.sends.get? send.id = some send ∧
      send.phase = .recording heldKey latestSeq latestEnvelopeId ∧
      send.heldGeneration = c.heldGeneration ∧
      held' = Coordinator.heldEvidence sha send heldKey seq envelopeId) := by
  cases op with
  | enter id' request spaceId keyless =>
    simp only [step, Coordinator.enter] at h
    split_ifs at h <;> exact .inl h
  | resume id' input =>
    simp only [step] at h
    cases hg : c.sends.get? id' with
    | none => exact .inl (by simpa only [hg] using h)
    | some send =>
      simp only [hg, Coordinator.resume, Coordinator.setSend] at h
      obtain rfl := Table.get?_key hg
      obtain hk | ⟨held, attempt, rfl, hr, hk, hm, he⟩ |
        ⟨heldKey, seq, envelopeId, s, e, hp, hgen, he⟩ := Coordinator.get?_writes h
      · exact .inl hk
      · exact .inr (.inl ⟨send, attempt, held, rfl, hg, hr, hk, hm, he⟩)
      · exact .inr (.inr ⟨send, input, heldKey, seq, envelopeId, s, e, rfl, hg, hp, hgen, he⟩)
  | setActive active => exact .inl h
  | setSession providerSessionId => exact .inl h
  | admitted spaceId channelId throughSeq => exact .inl h
  | discard => simp [step, Coordinator.discardHeldEvidence] at h

end Step

section Drafts

/-- The attachments of the send are read, one for every path. -/
def Send.Read (send : Send) : Prop :=
  send.phase = .resolving ∨ send.phase = .finished ∨
    send.materialized.length = send.request.attachmentPaths.length

/-- The record was made for some draft. -/
def HeldEvidence.Drafted (sha : Sha256) (held : HeldEvidence) : Prop :=
  ∃ (request : SemanticSendRequest) (materialized : Materialized),
    held.attemptFingerprint = request.attemptFingerprint sha ∧
    held.contentDigest = Sending.contentDigest sha materialized ∧
    materialized.length = request.attachmentPaths.length

/-- Sends and records describe whole drafts. -/
structure Coordinator.Drafted (sha : Sha256) (c : Coordinator) : Prop where
  read : ∀ id send, c.sends.get? id = some send → send.Read
  drafted : ∀ key held, c.held.get? key = some held → held.Drafted sha

theorem Send.Read.resumed (h : send.Read) : (c.resumed sha send input).Read := by
  obtain ⟨p, he, hp⟩ | ⟨m, p, hl, he⟩ := Coordinator.resumed_cases sha c send input
  · rw [he]
    obtain hr | hf | hl := h
    · exact (hp (.inl hr)).imp_right .inl
    · exact (hp (.inr hf)).imp_right .inl
    · exact .inr (.inr hl)
  · rw [he]
    exact .inr (.inr hl)

theorem Coordinator.Drafted.step (h : c.Drafted sha) (op : Op) : (step sha c op).Drafted sha where
  read id send' hs := by
    obtain hk | ⟨_, _, _, -, rfl⟩ | ⟨send, input, -, hk, rfl⟩ := step_sends hs
    · exact h.read id send' hk
    · exact .inl rfl
    · exact (h.read id send hk).resumed
  drafted key held' hh := by
    obtain hk | ⟨-, -, held, -, -, -, hk, -, rfl⟩ | ⟨send, _, _, _, _, _, _, -, hs, hp, -, rfl⟩ :=
      step_held hh
    · exact h.drafted key held' hk
    · exact h.drafted key held hk
    · refine ⟨send.request, send.materialized, rfl, rfl, ?_⟩
      obtain hr | hf | hl := h.read send.id send hs
      · rw [hp] at hr; cases hr
      · rw [hp] at hf; cases hf
      · exact hl

/-- A record that is not refused as another draft's has the digest of this one's content. -/
theorem HeldEvidence.Drafted.digest {held : HeldEvidence} (h : held.Drafted sha)
    (hl : send.materialized.length = send.request.attachmentPaths.length)
    (hm : Coordinator.draftMismatch sha send held = false) :
    held.attemptFingerprint = send.request.attemptFingerprint sha ∧
      (held.contentDigest = Sending.contentDigest sha send.materialized ∨ sha.Collision) := by
  obtain ⟨hf, hd⟩ : held.attemptFingerprint = send.request.attemptFingerprint sha ∧
      (held.contentDigest ≠ "" → held.contentDigest = Sending.contentDigest sha send.materialized) := by
    simpa [Coordinator.draftMismatch] using hm
  refine ⟨hf, ?_⟩
  by_cases he : held.contentDigest = ""
  · obtain ⟨request, materialized, hf', hd', hl'⟩ := h
    have hn : request.attachmentPaths = [] := by
      rw [hd', contentDigest_eq_empty] at he
      rw [he] at hl'
      exact List.length_eq_zero_iff.mp hl'.symm
    refine (SemanticSendRequest.attachmentPaths_of_fingerprint (hf'.symm.trans hf)).imp_left ?_
    intro hiff
    rw [hiff.mp hn] at hl
    rw [he, eq_comm, contentDigest_eq_empty]
    exact List.length_eq_zero_iff.mp hl
  · exact .inl (hd he)

end Drafts
end PuffoAgent.Sending
