import PuffoAgent.WsLocal.Conservation

/-! What a rolled back bundle is sent again with. -/
namespace PuffoAgent.WsLocal
open Relational Machine Text

structure SendBundle (μ : Type) where
  bundleId : String
  rootId : String
  channelMeta : List (String × Json)
  messages : List μ
  version : Nat
  turnId : String
  targets : List (List String)
  routes : List (List (String × Json))
  notice : List (String × Json)

inductive Call (μ : Type) where
  | enqueue (makeId rootId : String) (message : μ) (channelMeta : List (String × Json))
  | enqueueGlobal (makeId turnId : String) (messages : List μ) (targets : List (List String))
      (routes : List (List (String × Json))) (notice : List (String × Json))
  | nextToSend
  | ack (bundleId : String)
  | rollback (makeId : String)

variable {μ : Type}

def Bundle.frame (b : Bundle μ) : SendBundle μ :=
  ⟨b.bundleId, b.rootId, b.channelMeta, b.messages, b.version, b.turnId, b.targets, b.routes, b.notice⟩

def Bundle.envelopeIds (envelopeId : μ → String) (b : Bundle μ) : List String := b.messages.map envelopeId

/-- `_pump` of a session on the queue, with the frame it sends. -/
def pump (alive : Bool) (q : BundleQueue μ) : BundleQueue μ × Option (SendBundle μ) :=
  if !alive ∨ q.inflight.isSome then (q, none)
  else (q.nextToSend.1, q.nextToSend.2.map Bundle.frame)

section Calls
variable (envelopeId : μ → String)

/-- A call that raises leaves the queue as it is. -/
def called (q : BundleQueue μ) : Call μ → BundleQueue μ
  | .enqueue makeId rootId message channelMeta => q.enqueue envelopeId makeId rootId message channelMeta
  | .enqueueGlobal makeId turnId messages targets routes notice =>
    (q.enqueueGlobal makeId turnId messages targets routes notice).getD q
  | .nextToSend => q.nextToSend.1
  | .ack bundleId => (q.ack bundleId).1
  | .rollback makeId => (q.rollbackInflight envelopeId makeId).1

/-- What has arrived under the key of the bundle since it was sent. -/
def BundleQueue.successor (q : BundleQueue μ) (stale : Bundle μ) : List μ :=
  (q.receiving.get? stale.key).toList.flatMap (·.messages)

/-- What of it the bundle does not have yet. As for `enqueue`, an empty id repeats nothing. -/
def BundleQueue.arrivals (q : BundleQueue μ) (stale : Bundle μ) : List μ :=
  (q.successor stale).filter (!BundleQueue.repeats envelopeId stale ·)

end Calls

/-- The frame hands the bundle over once more, followed by `more`, under a new id. -/
structure SendBundle.Resends (frame : SendBundle μ) (makeId : String) (stale : Bundle μ) (more : List μ) : Prop where
  bundleId : frame.bundleId = makeId
  rootId : frame.rootId = stale.rootId
  channelMeta : stale.channelMeta ≠ [] → frame.channelMeta = stale.channelMeta
  messages : frame.messages = stale.messages ++ more
  version : frame.version = stale.version
  turnId : frame.turnId = stale.turnId
  targets : frame.targets = stale.targets
  routes : frame.routes = stale.routes
  notice : frame.notice = stale.notice

section Orders
variable {envelopeId : μ → String} {q : BundleQueue μ}

/-- Bundles are sent in the order of their first messages. -/
structure Ordered (q : BundleQueue μ) : Prop where
  bounded : ∀ b, q.Live b → b.order ≤ q.seq
  distinct : ∀ b ∈ q.receiving.rows, ∀ c ∈ q.receiving.rows, b.order = c.order → b = c
  ahead : ∀ b ∈ q.inflight, ∀ c ∈ q.receiving.rows, b.order < c.order

/-- A bundle is added, or written in place. -/
theorem Ordered.put (h : Ordered q) {b : Bundle μ} {seq : Nat} (hseq : q.seq ≤ seq) (hb : b.order ≤ seq)
    (hfirst : ∀ a ∈ q.inflight, a.order < b.order)
    (hkey : ∀ c ∈ q.receiving.rows, c.key ≠ b.key → c.order ≠ b.order) :
    Ordered { q with seq := seq, receiving := q.receiving.put b } := by
  have hmem : ∀ c ∈ (q.receiving.put b).rows, c = b ∨ (c ∈ q.receiving.rows ∧ c.key ≠ b.key) := by
    intro c hc
    have hg := Table.get?_of_mem hc
    rw [Table.get?_put] at hg
    split at hg
    · exact .inl (Option.some.inj hg).symm
    · exact .inr ⟨Table.mem_of_get? hg, fun he => ‹¬ _› he.symm⟩
  refine ⟨fun c hc => ?_, fun c hc d hd he => ?_, fun a ha c hc => ?_⟩
  · rcases hc with hc | hc
    · exact (h.bounded c (.inl hc)).trans hseq
    · rcases hmem c hc with rfl | ⟨hc, -⟩
      · exact hb
      · exact (h.bounded c (.inr hc)).trans hseq
  · rcases hmem c hc with hcb | ⟨hc, hck⟩
    · rcases hmem d hd with hdb | ⟨hd, hdk⟩
      · rw [hcb, hdb]
      · exact absurd (by rw [← he, hcb]) (hkey d hd hdk)
    · rcases hmem d hd with hdb | ⟨hd, -⟩
      · exact absurd (by rw [he, hdb]) (hkey c hc hck)
      · exact h.distinct c hc d hd he
  · rcases hmem c hc with rfl | ⟨hc, -⟩
    · exact hfirst a ha
    · exact h.ahead a ha c hc

/-- A bundle with a new order goes behind all others. -/
theorem Ordered.opened (h : Ordered q) {b : Bundle μ} (hb : b.order = q.seq + 1) :
    Ordered { q with seq := q.seq + 1, receiving := q.receiving.put b } := by
  refine h.put (Nat.le_succ _) hb.le (fun a ha => ?_) fun c hc _ => ?_
  · have := h.bounded a (.inl ha)
    omega
  · have := h.bounded c (.inr hc)
    omega

theorem Ordered.enqueue (h : Ordered q) (makeId rootId : String) (message : μ) (channelMeta : List (String × Json)) :
    Ordered (q.enqueue envelopeId makeId rootId message channelMeta) := by
  unfold BundleQueue.enqueue
  cases hg : q.receiving.get? rootId with
  | none => exact h.opened rfl
  | some b =>
    have hb : b ∈ q.receiving.rows := Table.mem_of_get? hg
    dsimp only
    split
    · exact h
    · refine h.put le_rfl (h.bounded b (.inr hb)) (fun a ha => h.ahead a ha b hb) fun c hc hk he => hk ?_
      rw [h.distinct c hc b hb he]
      rfl

theorem Ordered.enqueueGlobal (h : Ordered q) (makeId turnId : String) (messages : List μ) (targets : List (List String))
    (routes : List (List (String × Json))) (notice : List (String × Json)) :
    Ordered ((q.enqueueGlobal makeId turnId messages targets routes notice).getD q) := by
  unfold BundleQueue.enqueueGlobal
  split
  · exact h
  · exact h.opened rfl

theorem Ordered.nextToSend (h : Ordered q) : Ordered q.nextToSend.1 := by
  cases hs : q.nextToSend.2 with
  | none => rwa [nextToSend_none hs]
  | some b =>
    obtain ⟨q', hq'⟩ : ∃ q', q.nextToSend.1 = q' := ⟨_, rfl⟩
    obtain ⟨-, hb, hmin, rfl⟩ := nextToSend_eq (Prod.ext hq' hs)
    rw [hq']
    have hsub : ∀ c ∈ (q.receiving.delete (·.key = b.key)).rows, c ∈ q.receiving.rows ∧ c.key ≠ b.key := by
      intro c hc
      simpa [Table.delete] using hc
    refine ⟨fun c hc => ?_, fun c hc d hd he => h.distinct c (hsub c hc).1 d (hsub d hd).1 he, fun a ha c hc => ?_⟩
    · rcases hc with hc | hc
      · cases hc
        exact h.bounded b (.inr hb)
      · exact h.bounded c (.inr (hsub c hc).1)
    · cases ha
      have hne : b.order ≠ c.order := by
        intro he
        apply (hsub c hc).2
        rw [h.distinct b hb c (hsub c hc).1 he]
      exact lt_of_le_of_ne (hmin c (hsub c hc).1) hne

theorem Ordered.ack (h : Ordered q) (bundleId : String) : Ordered (q.ack bundleId).1 := by
  unfold BundleQueue.ack
  split
  · exact ⟨fun b hb => h.bounded b (.inr (hb.resolve_left nofun)), h.distinct, nofun⟩
  · exact h

theorem Ordered.rollback (h : Ordered q) (makeId : String) : Ordered (q.rollbackInflight envelopeId makeId).1 := by
  unfold BundleQueue.rollbackInflight
  cases hi : q.inflight with
  | none => simpa [hi] using h
  | some stale =>
    have hfree : Ordered { q with inflight := none } :=
      ⟨fun b hb => h.bounded b (.inr (hb.resolve_left nofun)), h.distinct, nofun⟩
    refine hfree.put le_rfl (h.bounded stale (.inl hi)) nofun fun c hc _ he => ?_
    have : stale.order < c.order := h.ahead stale hi c hc
    exact absurd he this.ne'

theorem ordered_called (h : Ordered q) (c : Call μ) : Ordered (called envelopeId q c) := by
  cases c with
  | enqueue makeId rootId message channelMeta => exact h.enqueue makeId rootId message channelMeta
  | enqueueGlobal makeId turnId messages targets routes notice =>
    exact h.enqueueGlobal makeId turnId messages targets routes notice
  | nextToSend => exact h.nextToSend
  | ack bundleId => exact h.ack bundleId
  | rollback makeId => exact h.rollback makeId

theorem ordered_empty : Ordered (.empty : BundleQueue μ) := by
  refine ⟨fun b hb => ?_, fun b hb => absurd hb List.not_mem_nil, fun b hb => absurd hb (Option.not_mem_none b)⟩
  rcases hb with hb | hb
  · exact absurd hb (Option.not_mem_none b)
  · exact absurd hb List.not_mem_nil

theorem ordered_run (calls : List (Call μ)) : Ordered (run (called envelopeId) .empty calls) :=
  run_invariant ordered_empty (fun _ c h => ordered_called h c) calls

theorem oldest_none {bs : List (Bundle μ)} {candidate : Option (Bundle μ)}
    (h : BundleQueue.oldest candidate bs = none) : candidate = none ∧ bs = [] := by
  induction bs generalizing candidate with
  | nil => exact ⟨h, rfl⟩
  | cons b bs ih =>
    have hnone := (ih h).1
    cases candidate with
    | none => simp at hnone
    | some c =>
      rw [ite_eq_iff] at hnone
      simp at hnone

/-- The bundle of the lowest order is sent. -/
theorem nextToSend_of_first (hi : q.inflight = none) {b : Bundle μ} (hb : b ∈ q.receiving.rows)
    (hfirst : ∀ c ∈ q.receiving.rows, c ≠ b → b.order < c.order) : q.nextToSend.2 = some b := by
  cases hs : q.nextToSend.2 with
  | some c =>
    obtain ⟨-, hc, hmin, -⟩ := nextToSend_eq (Prod.ext rfl hs)
    by_contra hne
    have hlt := hfirst c hc fun he => hne (congrArg some he)
    have hle := hmin b hb
    omega
  | none =>
    unfold BundleQueue.nextToSend at hs
    rw [hi] at hs
    simp only [Option.isSome_none, Bool.false_eq_true, if_false] at hs
    split at hs
    · rename_i ho
      rw [(oldest_none ho).2] at hb
      exact absurd hb List.not_mem_nil
    · cases hs

/-- A rolled back bundle is the next to be sent. -/
theorem Ordered.resent (h : Ordered q) {stale : Bundle μ} (hi : q.inflight = some stale) (makeId : String) :
    (pump true (q.rollbackInflight envelopeId makeId).1).2 =
      some (BundleQueue.merged envelopeId makeId stale (q.receiving.get? stale.key)).frame := by
  set b := BundleQueue.merged envelopeId makeId stale (q.receiving.get? stale.key) with hb
  have hq : (q.rollbackInflight envelopeId makeId).1 =
      { q with receiving := q.receiving.put b, inflight := none } := by
    rw [BundleQueue.rollbackInflight, hi]
  have hmem : b ∈ (q.receiving.put b).rows := by
    rw [Table.mem_iff_get?, Table.get?_put, if_pos rfl]
  have hsend : (BundleQueue.nextToSend { q with receiving := q.receiving.put b, inflight := none }).2 = some b := by
    refine nextToSend_of_first rfl hmem fun c hc hne => ?_
    have hg := Table.get?_of_mem hc
    rw [Table.get?_put] at hg
    split at hg
    · exact absurd (Option.some.inj hg).symm hne
    · exact h.ahead stale hi c (Table.mem_of_get? hg)
  rw [pump, hq, hsend]
  rfl

variable (stale : Bundle μ)

theorem merged_arrivals_iff :
    (q.successor stale).filter (fun m => envelopeId m ∉ stale.messages.map envelopeId) = q.arrivals envelopeId stale ↔
      ∀ m ∈ q.successor stale, envelopeId m = "" → "" ∉ stale.envelopeIds envelopeId := by
  unfold BundleQueue.arrivals
  constructor
  · intro he m hm hid hin
    have hkeep : m ∈ (q.successor stale).filter (!BundleQueue.repeats envelopeId stale ·) :=
      List.mem_filter.2 ⟨hm, by simp [BundleQueue.repeats, hid]⟩
    rw [← he, List.mem_filter] at hkeep
    exact of_decide_eq_true hkeep.2 (hid ▸ hin)
  · intro h
    refine List.filter_congr fun m hm => ?_
    rw [Bool.eq_iff_iff]
    simp only [BundleQueue.repeats, decide_eq_true_eq, Bool.not_eq_true', decide_eq_false_iff_not, not_and]
    constructor
    · exact fun hout _ => hout
    · intro hout hin
      by_cases hid : envelopeId m = ""
      · exact h m hm hid (hid ▸ hin)
      · exact hout hid hin

theorem merged_successor_iff :
    (q.successor stale).filter (fun m => envelopeId m ∉ stale.messages.map envelopeId) = q.successor stale ↔
      ∀ m ∈ q.successor stale, envelopeId m ∉ stale.envelopeIds envelopeId := by
  rw [List.filter_eq_self]
  exact forall₂_congr fun m _ => decide_eq_true_iff

/-- Of what a frame should have, the merge leaves out the notice and some of the messages. -/
theorem resends_iff (makeId : String) (more : List μ) :
    (BundleQueue.merged envelopeId makeId stale (q.receiving.get? stale.key)).frame.Resends makeId stale more ↔
      stale.notice = [] ∧
        (q.successor stale).filter (fun m => envelopeId m ∉ stale.messages.map envelopeId) = more := by
  constructor
  · intro h
    exact ⟨h.notice.symm, List.append_cancel_left h.messages⟩
  · rintro ⟨hn, hm⟩
    refine ⟨rfl, rfl, fun hc => if_pos hc, ?_, rfl, rfl, rfl, rfl, hn.symm⟩
    rw [← hm]
    rfl

end Orders

/-- What is sent after a rollback is the bundle once more and what has arrived since, unless it had a
notice, or it and an arrival have no envelope id. A repeated id is sent once. -/
theorem rollback_keeps_iff (envelopeId : μ → String) (calls : List (Call μ)) (makeId : String) (stale : Bundle μ)
    (hi : (run (called envelopeId) .empty calls).inflight = some stale) :
    let q := run (called envelopeId) .empty calls
    ∃ frame, (pump true (q.rollbackInflight envelopeId makeId).1).2 = some frame ∧
      (frame.Resends makeId stale (q.arrivals envelopeId stale) ↔
        stale.notice = [] ∧ ∀ m ∈ q.successor stale, envelopeId m = "" → "" ∉ stale.envelopeIds envelopeId) ∧
      (frame.Resends makeId stale (q.successor stale) ↔
        stale.notice = [] ∧ ∀ m ∈ q.successor stale, envelopeId m ∉ stale.envelopeIds envelopeId) := by
  intro q
  refine ⟨_, (ordered_run calls).resent hi makeId, ?_, ?_⟩
  · rw [resends_iff, merged_arrivals_iff]
  · rw [resends_iff, merged_successor_iff]

/-- A frame of one message, after which another has arrived for the same thread. -/
theorem rollback_keeps_iff_thread :
    ∃ frame, (pump true ((run (called id) .empty
        [.enqueue "b1" "r" "m1" [], .nextToSend, .enqueue "b2" "r" "m2" []]).rollbackInflight id "b3").1).2 = some frame ∧
      frame.messages = ["m1", "m2"] := by
  obtain ⟨frame, hsent, hkept, -⟩ := rollback_keeps_iff id
    [.enqueue "b1" "r" "m1" [], .nextToSend, .enqueue "b2" "r" "m2" []] "b3"
    { bundleId := "b1", rootId := "r", channelMeta := [], messages := ["m1"], order := 1 } rfl
  exact ⟨frame, hsent, (hkept.2 ⟨rfl, by decide⟩).messages⟩

/-- The notice of a turn's bundle is not sent again. -/
theorem rollback_loses_notice :
    let q : BundleQueue String := run (called id) .empty
      [.enqueueGlobal "b1" "turn" ["m1"] [["dm", "bob"]] [] [("generation", .str "g1")], .nextToSend]
    ∃ stale frame, q.inflight = some stale ∧ (pump true (q.rollbackInflight id "b2").1).2 = some frame ∧
      stale.notice = [("generation", .str "g1")] ∧ frame.notice = [] ∧
        ¬ frame.Resends "b2" stale (q.successor stale) :=
  ⟨_, _, rfl, rfl, rfl, rfl, fun h => by cases h.notice⟩

end PuffoAgent.WsLocal
