import PuffoAgent.Outbox.Fifo

/-! What a response that is no success makes of the batch: by its status, as long as its body is
a JSON object. -/
namespace PuffoAgent.Outbox
open Machine Text

/-- What the transport came back with: nothing, a pair or mapping of status and body, or a
response object, whose `json()` may raise. -/
inductive Reply where
  | raised
  | pair (status : Option Int) (body : Body)
  | object (status : Option Int) (json : Option Body)

namespace Reply

def raw : Reply → RawResponse
  | raised => .raised
  | pair status body => .answered status body
  | object status (some body) => .answered status body
  | object _ none => .raised

/-- The HTTP status that was received. -/
def status? : Reply → Option Int
  | raised => none
  | pair status _ => status
  | object status _ => status

/-- The body is an object, as it is or as JSON text. -/
def HasObject : Reply → Prop
  | raised => False
  | pair _ body => IsObject body
  | object _ json => ∃ body, json = some body ∧ IsObject body
where
  IsObject : Body → Prop
    | .undecodable => False
    | .text s => ∃ members, Json.loads s = some (.obj members)
    | .value v => ∃ members, v = .obj members

end Reply

/-- Statuses that a later attempt may change. -/
def Transient (status : Int) : Prop := status = 429 ∨ 500 ≤ status

/-- Statuses that reject the events themselves. -/
def Permanent (status : Int) : Prop :=
  ¬ (200 ≤ status ∧ status < 300) ∧ ¬ Transient status ∧ status ∉ Uploader.degradedChannel

namespace Uploader
variable (str : Json → String) (limits : Limits) (budget : Budget)

/-- What a status outside 2xx calls for. -/
def calledFor (u : Uploader) (rows : List OutboxRow) (status : Int) : Uploader × UploadResult :=
  if status = 429 ∨ 500 ≤ status then u.retry rows ("http_" ++ toString status)
  else if status ∈ degradedChannel then u.degrade ("http_" ++ toString status)
  else u.isolateOrDiscard rows ("http_" ++ toString status)

/-- The response to `rows` did to the outbox what its status calls for, and says so. -/
def Obeys (u : Uploader) (rows : List OutboxRow) (status : Int) (reply : Reply) : Prop :=
  (u.respond str rows reply.raw).1.outbox = ({ u with inflight := none }.calledFor rows status).1.outbox ∧
  (u.respond str rows reply.raw).1.isolateHead = ({ u with inflight := none }.calledFor rows status).1.isolateHead ∧
  (u.respond str rows reply.raw).2.state = ({ u with inflight := none }.calledFor rows status).2.state

variable {str} {u : Uploader} {rows : List OutboxRow} {status : Int} {reply : Reply}

/-- Decoding, by what the body holds. -/
theorem decodeResponse_of_object (hs : reply.status? = some status) (h : reply.HasObject) :
    ∃ payload, decodeResponse reply.raw = .decoded status payload := by
  have hbody (body : Body) (hb : Reply.HasObject.IsObject body) :
      ∃ payload, decodeResponse (.answered (some status) body) = .decoded status payload := by
    cases body with
    | undecodable => exact hb.elim
    | text s =>
      obtain ⟨members, hm⟩ := hb
      exact ⟨members, by simp [decodeResponse, hm]⟩
    | value v =>
      obtain ⟨members, rfl⟩ := hb
      exact ⟨members, rfl⟩
  cases reply with
  | raised => exact h.elim
  | pair s body =>
    obtain rfl : s = some status := hs
    exact hbody body h
  | object s json =>
    obtain rfl : s = some status := hs
    obtain ⟨body, rfl, hb⟩ := h
    exact hbody body hb

theorem decodeResponse_of_no_object (hs : reply.status? = some status) (h : ¬ reply.HasObject) :
    decodeResponse reply.raw = .failed ∨ decodeResponse reply.raw = .malformed (some status) := by
  have hbody (body : Body) (hb : ¬ Reply.HasObject.IsObject body) :
      decodeResponse (.answered (some status) body) = .malformed (some status) := by
    cases body with
    | undecodable => rfl
    | text s =>
      unfold decodeResponse
      cases hl : Json.loads s with
      | none => simp [hl]
      | some v =>
        cases v with
        | obj members => exact absurd ⟨members, hl⟩ hb
        | _ => simp [hl]
    | value v =>
      cases v with
      | obj members => exact absurd ⟨members, rfl⟩ hb
      | _ => rfl
  cases reply with
  | raised => exact .inl rfl
  | pair s body =>
    obtain rfl : s = some status := hs
    exact .inr (hbody body h)
  | object s json =>
    obtain rfl : s = some status := hs
    cases json with
    | none => exact .inl rfl
    | some body => exact .inr (hbody body fun hb => h ⟨body, rfl, hb⟩)

theorem calledFor_transient (h : Transient status) :
    u.calledFor rows status = u.retry rows ("http_" ++ toString status) := if_pos h

theorem calledFor_channel (h : ¬ Transient status) (hc : status ∈ degradedChannel) :
    u.calledFor rows status = u.degrade ("http_" ++ toString status) := (if_neg h).trans (if_pos hc)

theorem calledFor_permanent (h : Permanent status) :
    u.calledFor rows status = u.isolateOrDiscard rows ("http_" ++ toString status) :=
  (if_neg h.2.1).trans (if_neg h.2.2)

theorem settle_calledFor {payload : List (String × Json)} (hs : ¬ (200 ≤ status ∧ status < 300)) :
    u.settle str rows status payload = u.calledFor rows status := by
  unfold settle calledFor
  dsimp only
  split_ifs with h1 h2 h3
  · rfl
  · rfl
  · rfl
  · omega

/-- With an object for a body the status decides. -/
theorem obeys_of_object (hs : reply.status? = some status) (hr : ¬ (200 ≤ status ∧ status < 300))
    (h : reply.HasObject) : u.respond str rows reply.raw = { u with inflight := none }.calledFor rows status := by
  obtain ⟨payload, hd⟩ := decodeResponse_of_object hs h
  rw [respond, hd]
  exact settle_calledFor hr

/-- Without one the batch is tried again, whatever the status. -/
theorem respond_of_no_object (hs : reply.status? = some status) (hr : ¬ (200 ≤ status ∧ status < 300))
    (h : ¬ reply.HasObject) :
    ∃ errorCode, u.respond str rows reply.raw = { u with inflight := none }.retry rows errorCode := by
  rcases decodeResponse_of_no_object hs h with hd | hd
  · exact ⟨"transport", by rw [respond, hd]⟩
  · refine ⟨"malformed_response", ?_⟩
    rw [respond, hd]
    simp only [rejectAcknowledgement, Option.any_some, decide_eq_true_eq, hr, if_false]

/-- A further try counts, so it shows. -/
theorem incrementRetries_ne {o : RuntimeEventOutbox} {r : OutboxRow} (hr : r ∈ o.rows) (hm : r ∈ rows) :
    o.incrementRetries (rows.map (·.sequence)) ≠ o := by
  intro h
  have hrows := congrArg RuntimeEventOutbox.rows h
  rw [rows_incrementRetries] at hrows
  have heq : RuntimeEventOutbox.retried (rows.map (·.sequence)) r = r :=
    List.map_inj_left.mp (hrows.trans (List.map_id _).symm) r hr
  rw [RuntimeEventOutbox.retried, if_pos (List.mem_map_of_mem hm)] at heq
  have hcount := congrArg OutboxRow.retryCount heq
  simp at hcount

theorem isolateOrDiscard_many {errorCode : String} (h : rows.length ≠ 1) : u.isolateOrDiscard rows errorCode =
    ({ u with degradedError := errorCode, isolateHead := true }, ⟨"retry", 0, errorCode⟩) := by
  unfold isolateOrDiscard
  split
  · exact absurd rfl h
  · rfl

/-- A body that is no object keeps the status from being obeyed, unless it asks for another try
anyway. -/
theorem obeys_iff (hs : reply.status? = some status) (hr : ¬ (200 ≤ status ∧ status < 300)) {r : OutboxRow}
    (hm : r ∈ rows) (hu : r ∈ u.rows) : u.Obeys str rows status reply ↔ reply.HasObject ∨ Transient status := by
  constructor
  · rintro ⟨hout, -, hstate⟩
    by_contra hn
    rw [not_or] at hn
    obtain ⟨errorCode, hretry⟩ := @respond_of_no_object str u rows status reply hs hr hn.1
    rw [hretry] at hout hstate
    by_cases hc : status ∈ degradedChannel
    · rw [calledFor_channel hn.2 hc] at hstate
      exact absurd (show "retry" = "degraded" from hstate) (by decide)
    · rw [calledFor_permanent ⟨hr, hn.2, hc⟩] at hout hstate
      by_cases hlen : rows.length = 1
      · obtain ⟨head, rfl⟩ := List.length_eq_one_iff.mp hlen
        exact absurd (show "retry" = "discarded" from hstate) (by decide)
      · rw [isolateOrDiscard_many hlen] at hout
        exact incrementRetries_ne hu hm hout
  · intro h
    by_cases ho : reply.HasObject
    · rw [Obeys, obeys_of_object hs hr ho]
      exact ⟨rfl, rfl, rfl⟩
    · obtain ⟨errorCode, hretry⟩ := @respond_of_no_object str u rows status reply hs hr ho
      rw [Obeys, hretry, calledFor_transient (h.resolve_left ho)]
      exact ⟨rfl, rfl, rfl⟩

/-- A permanent status over an object: the head alone is discarded, and a longer batch isolates it. -/
theorem respond_permanent (hs : reply.status? = some status) (hp : Permanent status) (h : reply.HasObject) :
    u.respond str rows reply.raw = { u with inflight := none }.isolateOrDiscard rows ("http_" ++ toString status) := by
  rw [obeys_of_object hs hp.1 h, calledFor_permanent hp]

end Uploader

section Isolation
variable {str : Json → String} {limits : Limits} {budget : Budget} {u : Uploader} {sequence : Nat}

/-- The head of that sequence has left, or it is alone in every batch. -/
structure Isolated (sequence : Nat) (u : Uploader) : Prop where
  past : sequence ≤ u.outbox.lastSequence
  inflight : InFlight u
  alone : sequence ∈ u.rows.map (·.sequence) → u.isolateHead = true ∧
    (∃ head rest, u.rows = head :: rest ∧ head.sequence = sequence) ∧
    ∀ batch, u.inflight = some batch → batch.length = 1

/-- What a response makes of a head alone. -/
theorem respond_alone {head : OutboxRow} {rest : List OutboxRow} (hrows : u.rows = head :: rest) (raw : RawResponse) :
    (u.respond str [head] raw).1.rows = rest ∨ ((u.respond str [head] raw).1.isolateHead = u.isolateHead ∧
      (u.respond str [head] raw).1.inflight = none ∧
      (u.respond str [head] raw).1.rows.map (·.sequence) = u.rows.map (·.sequence)) := by
  have hretried : (u.outbox.incrementRetries ([head].map (·.sequence))).rows.map (·.sequence) =
      u.rows.map (·.sequence) := by
    have h := congrArg (List.map OutboxRow.sequence) (content_incrementRetries u.outbox ([head].map (·.sequence)))
    rwa [List.map_map, List.map_map] at h
  have hreject (status : Option Int) :
      let u' := (({ u with inflight := none } : Uploader).rejectAcknowledgement [head] status).1
      u'.isolateHead = u.isolateHead ∧ u'.inflight = none ∧
        u'.rows.map (·.sequence) = u.rows.map (·.sequence) := by
    unfold Uploader.rejectAcknowledgement
    split
    · exact ⟨rfl, rfl, rfl⟩
    · exact ⟨rfl, rfl, hretried⟩
  unfold Uploader.respond
  dsimp only
  split
  · exact .inr ⟨rfl, rfl, hretried⟩
  · exact .inr (hreject _)
  · rename_i status payload _
    unfold Uploader.settle
    dsimp only
    split_ifs
    · exact .inr ⟨rfl, rfl, hretried⟩
    · exact .inr ⟨rfl, rfl, rfl⟩
    · exact .inl (discard_head hrows)
    · split
      · exact .inr (hreject _)
      · split_ifs
        · exact .inr (hreject _)
        · split
          · exact .inr (hreject _)
          · rename_i o hack
            obtain ⟨-, first, last, hfirst, hlast, rfl⟩ := acknowledge_eq_some hack (List.cons_ne_nil _ _)
            exact .inl (@delete_between u.outbox [head] rest hrows _ _ hfirst hlast)

theorem map_sequence_of_content {rows rows' : List OutboxRow} (h : rows'.map (·.content) = rows.map (·.content)) :
    rows'.map (·.sequence) = rows.map (·.sequence) := by
  have hs := congrArg (List.map OutboxRow.sequence) h
  rwa [List.map_map, List.map_map] at hs

/-- A sequence that has left does not come back. -/
theorem gone_step (hi : InFlight u) (hp : sequence ≤ u.outbox.lastSequence)
    (hn : sequence ∉ u.rows.map (·.sequence)) (op : Op) :
    sequence ∉ (u.step str limits budget op).1.rows.map (·.sequence) := by
  have htail {batch rest : List OutboxRow} (h : u.rows = batch ++ rest) : sequence ∉ rest.map (·.sequence) :=
    fun hm => hn (by rw [h, List.map_append]; exact List.mem_append_right _ hm)
  have hout := @step_outcome str limits budget u hi op
  cases op with
  | enqueue event terminal =>
    rcases hout with h | ⟨r, h, hlt, -⟩
    · rwa [h]
    · rw [h, List.map_append, List.mem_append, not_or]
      refine ⟨hn, fun hm => ?_⟩
      obtain rfl := List.mem_singleton.mp hm
      exact absurd hlt (Nat.not_lt.mpr hp)
  | attempt =>
    rcases hout with h | ⟨head, rest, h, hr, -⟩
    · rwa [h]
    · rw [hr]
      exact @htail [head] _ h
  | respond raw =>
    rcases hout with h | ⟨batch, rest, -, h, hr, -⟩ | ⟨head, rest, -, h, hr, -⟩
    · rwa [map_sequence_of_content h]
    · rw [hr]
      exact htail h
    · rw [hr]
      exact @htail [head] _ h
  | cancelled => rwa [show (u.step str limits budget .cancelled).1.rows = u.rows from hout]
  | restart =>
    intro hm
    have hsub := hout.1.map RowIdent.sequence
    rw [List.map_map, List.map_map] at hsub
    exact hn (hsub.subset hm)

theorem attempt_flag : (u.attempt budget).1.isolateHead = u.isolateHead := by
  unfold Uploader.attempt
  split
  · rfl
  · split <;> rfl

theorem head_gone {head : OutboxRow} {rest : List OutboxRow} (h : u.rows = head :: rest) :
    head.sequence ∉ rest.map (·.sequence) := by
  have hord := u.outbox.ordered
  rw [show u.outbox.rows = head :: rest from h, List.pairwise_cons] at hord
  intro hm
  obtain ⟨r, hr, he⟩ := List.mem_map.mp hm
  exact absurd (hord.1 r hr) (by omega)

theorem attempt_alone (h : u.isolateHead = true) (hf : u.inflight = none) {batch : List OutboxRow}
    (hb : (u.attempt budget).1.inflight = some batch) : batch.length = 1 := by
  unfold Uploader.attempt at hb
  rw [if_pos h] at hb
  split at hb
  · rw [hf] at hb
    cases hb
  · rename_i head rows htake
    split at hb
    · rw [hf] at hb
      cases hb
    · obtain rfl := Option.some.inj hb
      have hle := (selectPrefix_takes budget.batchBytes (byteLen "\x7b\"events\":[]\x7d") false
        (u.outbox.rows.take 1)).length_le
      rw [show RuntimeEventOutbox.selectPrefix _ _ _ _ = head :: rows from htake] at hle
      have htop := List.length_take_le 1 u.outbox.rows
      simp only [List.length_cons] at hle ⊢
      omega

theorem Isolated.step (h : Isolated sequence u) {op : Op} (hop : op.isRestart = false) :
    Isolated sequence (u.step str limits budget op).1 := by
  have hi := @Trace.inflight_step str limits budget u h.inflight op
  refine ⟨h.past.trans (Trace.lastSequence_le h.inflight op), hi, fun hmem => ?_⟩
  have hm : sequence ∈ u.rows.map (·.sequence) := by
    by_contra hn
    exact gone_step h.inflight h.past hn op hmem
  obtain ⟨hflag, ⟨head, rest, hrows, hhead⟩, hbatch⟩ := h.alone hm
  cases op with
  | restart => cases hop
  | cancelled => exact ⟨hflag, ⟨head, rest, hrows, hhead⟩, nofun⟩
  | enqueue event terminal =>
    refine ⟨hflag, ?_, hbatch⟩
    rcases @enqueue_outcome str limits budget u event terminal with hr | ⟨r, hr, -⟩
    · exact ⟨head, rest, hr.trans hrows, hhead⟩
    · exact ⟨head, rest ++ [r], by rw [hr, hrows]; rfl, hhead⟩
  | attempt =>
    have hout := @attempt_outcome str limits budget u
    by_cases hf : u.inflight.isSome = true
    · have hs : (u.step str limits budget .attempt).1 = u := by simp only [Uploader.step, if_pos hf]
      rw [hs]
      exact ⟨hflag, ⟨head, rest, hrows, hhead⟩, hbatch⟩
    · have hs : (u.step str limits budget .attempt).1 = (u.attempt budget).1 := by
        simp only [Uploader.step, if_neg hf]
      have hnone : u.inflight = none := by simpa using hf
      rw [hs] at hmem hout ⊢
      refine ⟨attempt_flag.trans hflag, ?_, fun batch hb => attempt_alone hflag hnone hb⟩
      rcases hout with hr | ⟨head', rest', hr, hr', -⟩
      · exact ⟨head, rest, hr.trans hrows, hhead⟩
      · obtain ⟨rfl, rfl⟩ := List.cons.inj (hrows.symm.trans hr)
        rw [hr', ← hhead] at hmem
        exact absurd hmem (head_gone hrows)
  | respond raw =>
    cases hf : u.inflight with
    | none =>
      have hs : (u.step str limits budget (.respond raw)).1 = u := by simp only [Uploader.step, hf]
      rw [hs]
      exact ⟨hflag, ⟨head, rest, hrows, hhead⟩, hbatch⟩
    | some batch =>
      have hs : (u.step str limits budget (.respond raw)).1 = (u.respond str batch raw).1 := by
        simp only [Uploader.step, hf]
      obtain ⟨first, rfl⟩ := List.length_eq_one_iff.mp (hbatch batch hf)
      obtain ⟨-, tail, htail⟩ := h.inflight _ hf
      obtain ⟨rfl, rfl⟩ := List.cons.inj (htail.trans hrows)
      rw [hs] at hmem ⊢
      rcases @respond_alone str u first tail hrows raw with hr | ⟨hflag', hnone, hseqs⟩
      · rw [hr, ← hhead] at hmem
        exact absurd hmem (head_gone hrows)
      · refine ⟨hflag'.trans hflag, ?_, fun batch hb => by rw [hnone] at hb; cases hb⟩
        rw [hrows, List.map_cons] at hseqs
        obtain ⟨head', rest', hr, he, -⟩ := List.map_eq_cons_iff.mp hseqs
        exact ⟨head', rest', hr, he.trans hhead⟩

theorem Isolated.run (h : Isolated sequence u) {ops : List Op} (hops : ∀ op ∈ ops, op.isRestart = false) :
    Isolated sequence (run (fun u op => (u.step str limits budget op).1) u ops) := by
  induction ops generalizing u with
  | nil => exact h
  | cons op ops ih =>
    exact ih (h.step (hops op List.mem_cons_self)) fun op' hm => hops op' (List.mem_cons_of_mem op hm)

end Isolation

section Verdict
variable {str : Json → String} {limits : Limits} {budget : Budget} {u : Uploader} {batch : List OutboxRow}
  {reply : Reply} {status : Int}

theorem step_respond (hb : u.inflight = some batch) (raw : RawResponse) :
    (u.step str limits budget (.respond raw)).1 = (u.respond str batch raw).1 := by
  simp only [Uploader.step, hb]

/-- The first permanent status removes the head or isolates it. -/
theorem isolated_of_permanent (hi : InFlight u) (hb : u.inflight = some batch) (hs : reply.status? = some status)
    (hp : Permanent status) (ho : reply.HasObject) {head : OutboxRow} (hh : u.rows.head? = some head) :
    Isolated head.sequence (u.step str limits budget (.respond reply.raw)).1 := by
  obtain ⟨rest, hrows⟩ := List.head?_eq_some_iff.mp hh
  obtain ⟨hne, tail, htail⟩ := hi batch hb
  refine ⟨(u.outbox.bounded head ?_).trans (Trace.lastSequence_le hi _), Trace.inflight_step hi _, fun hm => ?_⟩
  · rw [show u.outbox.rows = head :: rest from hrows]
    exact List.mem_cons_self
  · rw [step_respond hb, Uploader.respond_permanent hs hp ho] at hm ⊢
    by_cases hlen : batch.length = 1
    · obtain ⟨first, rfl⟩ := List.length_eq_one_iff.mp hlen
      obtain ⟨rfl, rfl⟩ := List.cons.inj (htail.trans hrows)
      rw [show (({ u with inflight := none } : Uploader).isolateOrDiscard [first] ("http_" ++ toString status)).1.rows =
        (u.outbox.discard first).rows from rfl, discard_head hrows] at hm
      exact absurd hm (head_gone hrows)
    · rw [Uploader.isolateOrDiscard_many hlen]
      exact ⟨rfl, ⟨head, rest, hrows, rfl⟩, nofun⟩

/-- The second one removes it, if it is still there. -/
theorem Isolated.removed {sequence : Nat} (h : Isolated sequence u) (hb : u.inflight = some batch)
    (hs : reply.status? = some status) (hp : Permanent status) (ho : reply.HasObject) :
    sequence ∉ (u.step str limits budget (.respond reply.raw)).1.rows.map (·.sequence) := by
  by_cases hm : sequence ∈ u.rows.map (·.sequence)
  · obtain ⟨-, ⟨head, rest, hrows, rfl⟩, hbatch⟩ := h.alone hm
    obtain ⟨first, rfl⟩ := List.length_eq_one_iff.mp (hbatch batch hb)
    obtain ⟨-, tail, htail⟩ := h.inflight _ hb
    obtain ⟨rfl, rfl⟩ := List.cons.inj (htail.trans hrows)
    rw [step_respond hb, Uploader.respond_permanent hs hp ho]
    rw [show (({ u with inflight := none } : Uploader).isolateOrDiscard [first] ("http_" ++ toString status)).1.rows =
      (u.outbox.discard first).rows from rfl, discard_head hrows]
    exact head_gone hrows
  · exact gone_step h.inflight h.past hm _

end Verdict

/-- The verdict of a response outside 2xx. For every batch in flight in a reachable state the
uploader does what the status calls for exactly if the body is a JSON object or the status asks
for another try; and over such bodies a permanent status removes the head the second time at
the latest, whatever happens in between as long as the uploader lives. -/
theorem upload_verdict_iff (str : Json → String) (limits : Limits) (budget : Budget) (ops : List Op)
    {batch : List OutboxRow}
    (hb : (run (Trace.step str limits budget) {} ops).uploader.inflight = some batch) {reply : Reply} {status : Int}
    (hs : reply.status? = some status) (hr : ¬ (200 ≤ status ∧ status < 300)) :
    ((run (Trace.step str limits budget) {} ops).uploader.Obeys str batch status reply ↔
      reply.HasObject ∨ Transient status) ∧
    (Permanent status → reply.HasObject →
      ∀ head, (run (Trace.step str limits budget) {} ops).uploader.rows.head? = some head →
      ∀ between : List Op, (∀ op ∈ between, op.isRestart = false) →
      let after := run (fun u op => (u.step str limits budget op).1)
        ((run (Trace.step str limits budget) {} ops).uploader.step str limits budget (.respond reply.raw)).1 between
      after.inflight.isSome = true → ∀ (reply' : Reply) (status' : Int), reply'.status? = some status' →
        Permanent status' → reply'.HasObject → head.sequence ∉
          (after.step str limits budget (.respond reply'.raw)).1.rows.map (·.sequence)) := by
  have hi := (@Trace.inv_run str limits budget ops).inflight
  constructor
  · obtain ⟨hne, tail, htail⟩ := hi batch hb
    obtain ⟨r, hr'⟩ := List.exists_mem_of_ne_nil batch hne
    exact Uploader.obeys_iff hs hr hr' (htail ▸ List.mem_append_left tail hr')
  · intro hp ho head hh between hbetween after hafter reply' status' hs' hp' ho'
    obtain ⟨batch', hb'⟩ := Option.isSome_iff_exists.mp hafter
    exact ((isolated_of_permanent hi hb hs hp ho hh).run hbetween).removed hb' hs' hp' ho'

section Instances

/-- A lone event, whose upload is awaited. -/
def awaited : List Op := [.enqueue untimed none, .attempt]

def awaitedRow : OutboxRow :=
  ⟨1, untimed.eventId, untimed.type, untimed.canonicalText, byteLen untimed.canonicalText, 0⟩

/-- Over an empty object the status 400 is obeyed. -/
theorem empty_object_obeyed :
    (run (Trace.step (fun _ => "") {} {}) {} awaited).uploader.Obeys (fun _ => "") [awaitedRow] 400
      (.pair (some 400) (.value (.obj []))) :=
  (upload_verdict_iff (fun _ => "") {} {} awaited (by decide +kernel) rfl (by decide)).1.mpr (.inl ⟨[], rfl⟩)

def htmlRejection : Reply := .pair (some 400) (.text "<html>Bad Request</html>")

/-- Over HTML it is not: the event is sent again each time. -/
theorem html_rejection_retried :
    (run (Trace.step (fun _ => "") {} {}) {} awaited).uploader.inflight = some [awaitedRow] ∧
    ¬ (run (Trace.step (fun _ => "") {} {}) {} awaited).uploader.Obeys (fun _ => "") [awaitedRow] 400 htmlRejection ∧
    (run (Trace.step (fun _ => "") {} {}) {} (awaited ++ [.respond htmlRejection.raw, .attempt,
      .respond htmlRejection.raw, .attempt, .respond htmlRejection.raw])).uploader.rows =
        [{ awaitedRow with retryCount := 3 }] := by
  refine ⟨by decide +kernel, fun h => ?_, by decide +kernel⟩
  have hstate := h.2.2
  revert hstate
  decide +kernel

end Instances
end PuffoAgent.Outbox
