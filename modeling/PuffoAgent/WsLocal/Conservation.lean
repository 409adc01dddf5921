import PuffoAgent.Machine.Run
import PuffoAgent.WsLocal.Bundles

/-! No bundle operation loses, repeats or reorders a message. -/
namespace PuffoAgent.WsLocal
open Relational Machine

inductive Op (μ : Type) where
  | enqueue (makeId rootId : String) (message : μ) (channelMeta : List (String × Text.Json))
  | nextToSend
  | ack (bundleId : String)
  | rollback (makeId : String)

def Op.message? {μ : Type} : Op μ → Option μ
  | .enqueue _ _ message _ => some message
  | _ => none

/-- The queue, with what has gone in and what has been confirmed. -/
structure Trace (μ : Type) where
  queue : BundleQueue μ
  enqueued : List (String × μ)
  acked : List (Bundle μ)

namespace Trace
variable {μ : Type} (envelopeId : μ → String)

def start : Trace μ := ⟨.empty, [], []⟩

def step (t : Trace μ) : Op μ → Trace μ
  | .enqueue makeId rootId message channelMeta => { t with
    queue := t.queue.enqueue envelopeId makeId rootId message channelMeta
    enqueued := t.enqueued ++ [(rootId, message)] }
  | .nextToSend => { t with queue := t.queue.nextToSend.1 }
  | .ack bundleId => { t with
    queue := (t.queue.ack bundleId).1
    acked := t.acked ++ (t.queue.ack bundleId).2.toList }
  | .rollback makeId => { t with queue := (t.queue.rollbackInflight envelopeId makeId).1 }

/-- Every bundle a message can be in. -/
def bundles (t : Trace μ) : List (Bundle μ) := t.acked ++ t.queue.inflight.toList ++ t.queue.receiving.rows

/-- The messages of a thread root, in the order they were enqueued. -/
def enqueuedOf (t : Trace μ) (rootId : String) : List μ := (t.enqueued.filter (·.1 = rootId)).map (·.2)

end Trace

/-- What a bundle has of a thread root. -/
def Bundle.under {μ : Type} (rootId : String) (b : Bundle μ) : List μ := if b.rootId = rootId then b.messages else []

def Bundle.entries {μ : Type} (b : Bundle μ) : List (String × μ) := b.messages.map fun m => (b.rootId, m)

section Invariant
variable {μ : Type} {envelopeId : μ → String}

/-- The first message of the bundle arrived as the `i`-th. -/
def Trace.OpenedAt (t : Trace μ) (b : Bundle μ) (i : Nat) : Prop :=
  ∃ m ∈ b.messages.head?, t.enqueued[i]? = some (b.rootId, m)

/-- A bundle that is in flight or still filling. -/
def BundleQueue.Live (q : BundleQueue μ) (b : Bundle μ) : Prop := b ∈ q.inflight ∨ b ∈ q.receiving.rows

def BundleQueue.pendingOf (q : BundleQueue μ) (rootId : String) : List μ :=
  ((q.receiving.get? rootId).map (·.messages)).getD []

/-- What every run of the queue keeps. `first` tells when each order was given out. -/
structure Inv (t : Trace μ) : Prop where
  rooted : ∀ b, t.queue.Live b → b.turnId = ""
  inOrder : ∀ rootId, t.bundles.flatMap (·.under rootId) = t.enqueuedOf rootId
  opened : ∃ first : Nat → Nat, Monotone first ∧ (∀ o ≤ t.queue.seq, first o ≤ t.enqueued.length) ∧
    ∀ b, t.queue.Live b → b.order ≤ t.queue.seq ∧ t.OpenedAt b (first b.order)

theorem Bundle.key_of_turnless {b : Bundle μ} (h : b.turnId = "") : b.key = b.rootId := by simp [Bundle.key, h]

variable {t : Trace μ}

/-- A thread root fills at most one bundle. -/
theorem pendingOf_eq {q : BundleQueue μ} (h : ∀ b, q.Live b → b.turnId = "") (rootId : String) :
    q.receiving.rows.flatMap (·.under rootId) = q.pendingOf rootId := by
  have hkey : ∀ b ∈ q.receiving.rows, b.key = b.rootId := fun b hb => Bundle.key_of_turnless (h b (.inr hb))
  have hout : ∀ b ∈ q.receiving.rows, b.key ≠ rootId → b.under rootId = [] := fun b hb hne =>
    if_neg fun he => hne ((hkey b hb).trans he)
  rw [Table.flatMap_of_key hout]
  unfold BundleQueue.pendingOf
  cases hg : q.receiving.get? rootId with
  | none => rfl
  | some b =>
    have hb : b.rootId = rootId := (hkey b (Table.mem_of_get? hg)).symm.trans (Table.get?_key hg)
    simp [Bundle.under, hb]

theorem Inv.flow (h : Inv t) (rootId : String) :
    t.acked.flatMap (·.under rootId) ++ t.queue.inflight.toList.flatMap (·.under rootId) ++ t.queue.pendingOf rootId =
      t.enqueuedOf rootId := by
  rw [← h.inOrder, Trace.bundles, List.flatMap_append, List.flatMap_append, pendingOf_eq h.rooted]

/-- The same, from the flow of every root. -/
theorem inOrder_of_flow (hr : ∀ b, t.queue.Live b → b.turnId = "")
    (hf : ∀ rootId, t.acked.flatMap (·.under rootId) ++ t.queue.inflight.toList.flatMap (·.under rootId) ++
      t.queue.pendingOf rootId = t.enqueuedOf rootId) (rootId : String) :
    t.bundles.flatMap (·.under rootId) = t.enqueuedOf rootId := by
  rw [← hf, Trace.bundles, List.flatMap_append, List.flatMap_append, pendingOf_eq hr]

theorem mem_enqueuedOf {rootId : String} {m : μ} (h : m ∈ t.enqueuedOf rootId) : (rootId, m) ∈ t.enqueued := by
  obtain ⟨⟨r, m'⟩, hf, rfl⟩ := List.mem_map.1 h
  obtain ⟨hmem, hr⟩ := List.mem_filter.1 hf
  have hr : r = rootId := by simpa using hr
  exact hr ▸ hmem

section Steps
variable {envelopeId : μ → String}

/-- The ids of what has been enqueued. -/
def Trace.ids (envelopeId : μ → String) (t : Trace μ) : List String := t.enqueued.map fun e => envelopeId e.2

theorem Inv.pending_mem (h : Inv t) {rootId : String} {m : μ} (hm : m ∈ t.queue.pendingOf rootId) :
    (rootId, m) ∈ t.enqueued := by
  apply mem_enqueuedOf
  rw [← h.flow]
  exact List.mem_append_right _ hm

theorem OpenedAt.append {b : Bundle μ} {i : Nat} {t' : Trace μ} {es : List (String × μ)} (h : t.OpenedAt b i)
    (he : t'.enqueued = t.enqueued ++ es) : t'.OpenedAt b i := by
  obtain ⟨m, hm, hi⟩ := h
  refine ⟨m, hm, ?_⟩
  rw [he, List.getElem?_append_left (List.getElem?_eq_some_iff.1 hi).1]
  exact hi

/-- The bundle a message of the root goes to. -/
def BundleQueue.filled (q : BundleQueue μ) (makeId rootId : String) (message : μ)
    (channelMeta : List (String × Text.Json)) : Bundle μ :=
  match q.receiving.get? rootId with
  | some b => { b with messages := b.messages ++ [message] }
  | none => { bundleId := makeId, rootId := rootId, channelMeta := channelMeta, messages := [message], order := q.seq + 1 }

theorem Inv.enqueue_eq (h : Inv t) (makeId rootId : String) (message : μ) (channelMeta : List (String × Text.Json))
    (hnew : envelopeId message ∉ t.ids envelopeId) :
    t.queue.enqueue envelopeId makeId rootId message channelMeta = {
      seq := if (t.queue.receiving.get? rootId).isSome then t.queue.seq else t.queue.seq + 1
      receiving := t.queue.receiving.put (t.queue.filled makeId rootId message channelMeta)
      inflight := t.queue.inflight } := by
  unfold BundleQueue.enqueue BundleQueue.filled
  cases hg : t.queue.receiving.get? rootId with
  | none => rfl
  | some b =>
    have hfresh : BundleQueue.repeats envelopeId b message = false := by
      simp only [BundleQueue.repeats, decide_eq_false_iff_not, not_and]
      intro _ hmem
      obtain ⟨m, hm, he⟩ := List.mem_map.1 hmem
      have hin := h.pending_mem (by simpa [BundleQueue.pendingOf, hg] using hm : m ∈ t.queue.pendingOf rootId)
      exact hnew (he ▸ List.mem_map_of_mem hin)
    simp [hfresh]

theorem Inv.filled_turnless (h : Inv t) (makeId rootId : String) (message : μ) (channelMeta : List (String × Text.Json)) :
    (t.queue.filled makeId rootId message channelMeta).turnId = "" ∧
      (t.queue.filled makeId rootId message channelMeta).rootId = rootId := by
  unfold BundleQueue.filled
  cases hg : t.queue.receiving.get? rootId with
  | none => exact ⟨rfl, rfl⟩
  | some b =>
    have ht := h.rooted b (.inr (Table.mem_of_get? hg))
    exact ⟨ht, (Bundle.key_of_turnless ht).symm.trans (Table.get?_key hg)⟩

/-- What is live after a key of the receiving bundles is written. -/
theorem live_put {q q' : BundleQueue μ} {b c : Bundle μ} (hr : q'.receiving = q.receiving.put b) (hc : q'.Live c) :
    c ∈ q'.inflight ∨ c = b ∨ c ∈ q.receiving.rows := by
  refine hc.imp_right fun hc => ?_
  have hg := Table.get?_of_mem hc
  rw [hr, Table.get?_put] at hg
  split at hg
  · exact .inl (Option.some.inj hg).symm
  · exact .inr (Table.mem_of_get? hg)

theorem pendingOf_put {q q' : BundleQueue μ} {b : Bundle μ} (hr : q'.receiving = q.receiving.put b) (ht : b.turnId = "")
    (rootId : String) : q'.pendingOf rootId = if b.rootId = rootId then b.messages else q.pendingOf rootId := by
  unfold BundleQueue.pendingOf
  rw [hr, Table.get?_put, Bundle.key_of_turnless ht]
  split <;> rfl

theorem Inv.enqueue (h : Inv t) (makeId rootId : String) (message : μ) (channelMeta : List (String × Text.Json))
    (hnew : envelopeId message ∉ t.ids envelopeId) :
    Inv (t.step envelopeId (.enqueue makeId rootId message channelMeta)) := by
  obtain ⟨hturn, hroot⟩ := h.filled_turnless makeId rootId message channelMeta
  generalize ht' : t.step envelopeId (.enqueue makeId rootId message channelMeta) = t'
  have hq : t'.queue = t.queue.enqueue envelopeId makeId rootId message channelMeta := by rw [← ht']; rfl
  rw [h.enqueue_eq makeId rootId message channelMeta hnew] at hq
  have he : t'.enqueued = t.enqueued ++ [(rootId, message)] := by rw [← ht']; rfl
  have hacked : t'.acked = t.acked := by rw [← ht']; rfl
  have hrec : t'.queue.receiving = t.queue.receiving.put (t.queue.filled makeId rootId message channelMeta) := by rw [hq]
  have hinfl : t'.queue.inflight = t.queue.inflight := by rw [hq]
  have hlive (b : Bundle μ) (hb : t'.queue.Live b) :
      t.queue.Live b ∨ b = t.queue.filled makeId rootId message channelMeta := by
    rcases live_put hrec hb with hb | hb | hb
    · exact .inl (.inl (hinfl ▸ hb))
    · exact .inr hb
    · exact .inl (.inr hb)
  have hrooted : ∀ b, t'.queue.Live b → b.turnId = "" := by
    intro b hb
    rcases hlive b hb with hb | rfl
    · exact h.rooted b hb
    · exact hturn
  refine ⟨hrooted, inOrder_of_flow hrooted fun r => ?_, ?_⟩
  · have hmsgs : (t.queue.filled makeId rootId message channelMeta).messages = t.queue.pendingOf rootId ++ [message] := by
      unfold BundleQueue.filled BundleQueue.pendingOf
      cases t.queue.receiving.get? rootId <;> rfl
    have henq : t'.enqueuedOf r = t.enqueuedOf r ++ (if rootId = r then [message] else []) := by
      unfold Trace.enqueuedOf
      rw [he, List.filter_append, List.map_append]
      by_cases hr : rootId = r <;> simp [hr]
    rw [hacked, hinfl, pendingOf_put hrec hturn, hroot, henq, ← h.flow, hmsgs]
    by_cases hr : rootId = r
    · subst hr
      simp
    · simp [hr]
  · obtain ⟨first, hmono, hle, hfirst⟩ := h.opened
    have hseq : t.queue.seq ≤ t'.queue.seq := by
      rw [hq]
      dsimp only
      split <;> omega
    refine ⟨fun o => if o ≤ t.queue.seq then first o else t.enqueued.length, fun o o' hoo => ?_, fun o ho => ?_, fun b hb => ?_⟩
    · dsimp only
      split <;> split
      · exact hmono hoo
      · exact hle o ‹_›
      · omega
      · exact le_rfl
    · dsimp only
      rw [he, List.length_append]
      split
      · exact (hle o ‹_›).trans (Nat.le_add_right _ _)
      · exact Nat.le_add_right _ _
    · rcases hlive b hb with hb | rfl
      · obtain ⟨ho, hat⟩ := hfirst b hb
        simp only [if_pos ho]
        exact ⟨ho.trans hseq, OpenedAt.append hat he⟩
      · unfold BundleQueue.filled
        cases hg : t.queue.receiving.get? rootId with
        | none =>
          have hs : t'.queue.seq = t.queue.seq + 1 := by simp [hq, hg]
          refine ⟨hs ▸ le_rfl, message, rfl, ?_⟩
          dsimp only
          rw [if_neg (by omega), he]
          simp
        | some b =>
          obtain ⟨ho, m, hm, hi⟩ := hfirst b (.inr (Table.mem_of_get? hg))
          dsimp only
          rw [if_pos ho]
          refine ⟨ho.trans hseq, OpenedAt.append (t := t) ⟨m, ?_, hi⟩ he⟩
          cases hb : b.messages with
          | nil => simp [hb] at hm
          | cons a as => simpa [hb] using hm

/-- The scan returns one of the bundles, and none of a lower order is passed. -/
theorem oldest_spec {bs : List (Bundle μ)} {candidate : Option (Bundle μ)} {b : Bundle μ}
    (h : BundleQueue.oldest candidate bs = some b) :
    (b ∈ candidate ∨ b ∈ bs) ∧ ∀ c, c ∈ candidate ∨ c ∈ bs → b.order ≤ c.order := by
  induction bs generalizing candidate with
  | nil =>
    obtain rfl : candidate = some b := h
    simp
  | cons a bs ih =>
    obtain ⟨hmem, hmin⟩ := ih h
    cases candidate with
    | none => exact ⟨by simpa [eq_comm] using hmem, fun c hc => hmin c (by simpa [eq_comm] using hc)⟩
    | some d =>
      by_cases hlt : a.order < d.order
      · simp only [Option.all_some, hlt, decide_true, if_true, Option.mem_def, Option.some.injEq] at hmem hmin
        refine ⟨.inr (by simpa [eq_comm] using hmem), fun c hc => ?_⟩
        have ha := hmin a (.inl rfl)
        rcases hc with hc | hc
        · cases hc
          omega
        · exact hmin c (by simpa [eq_comm] using hc)
      · simp only [Option.all_some, hlt, decide_false, Bool.false_eq_true, if_false, Option.mem_def, Option.some.injEq] at hmem hmin
        refine ⟨hmem.imp (congrArg some) (List.mem_cons_of_mem _), fun c hc => ?_⟩
        have hd := hmin d (.inl rfl)
        rcases hc with hc | hc
        · exact hmin c (.inl (Option.some.inj hc))
        · rcases List.mem_cons.1 hc with rfl | hc
          · omega
          · exact hmin c (.inr hc)

/-- What `next_to_send` does when it sends a bundle. -/
theorem nextToSend_eq {q q' : BundleQueue μ} {b : Bundle μ} (h : q.nextToSend = (q', some b)) :
    q.inflight = none ∧ b ∈ q.receiving.rows ∧ (∀ c ∈ q.receiving.rows, b.order ≤ c.order) ∧
      q' = { q with receiving := q.receiving.delete (·.key = b.key), inflight := some b } := by
  unfold BundleQueue.nextToSend at h
  split at h
  · cases h
  · rename_i hn
    split at h
    · cases h
    · rename_i b' ho
      cases h
      obtain ⟨hmem, hmin⟩ := oldest_spec ho
      exact ⟨by simpa using hn, by simpa using hmem, fun c hc => hmin c (.inr hc), rfl⟩

theorem nextToSend_none {q : BundleQueue μ} (h : q.nextToSend.2 = none) : q.nextToSend.1 = q := by
  unfold BundleQueue.nextToSend at h ⊢
  split
  · rfl
  · rename_i hn
    rw [if_neg hn] at h
    split
    · rfl
    · rename_i b ho
      rw [ho] at h
      cases h

/-- Two bundles that were opened by the same message. -/
structure SameOrigin (b c : Bundle μ) : Prop where
  turnId : c.turnId = b.turnId
  rootId : c.rootId = b.rootId
  order : c.order = b.order
  head : c.messages.head? = b.messages.head?

/-- Moving messages between bundles, in their order. -/
theorem Inv.moved (h : Inv t) {t' : Trace μ} (he : t'.enqueued = t.enqueued) (hseq : t'.queue.seq = t.queue.seq)
    (hlive : ∀ c, t'.queue.Live c → ∃ b, t.queue.Live b ∧ SameOrigin b c)
    (hflow : ∀ r, t'.acked.flatMap (·.under r) ++ t'.queue.inflight.toList.flatMap (·.under r) ++ t'.queue.pendingOf r =
      t.acked.flatMap (·.under r) ++ t.queue.inflight.toList.flatMap (·.under r) ++ t.queue.pendingOf r) : Inv t' := by
  have hrooted : ∀ c, t'.queue.Live c → c.turnId = "" := by
    intro c hc
    obtain ⟨b, hb, hs⟩ := hlive c hc
    exact hs.turnId.trans (h.rooted b hb)
  refine ⟨hrooted, inOrder_of_flow hrooted fun r => ?_, ?_⟩
  · rw [hflow, h.flow, Trace.enqueuedOf, Trace.enqueuedOf, he]
  · obtain ⟨first, hmono, hle, hfirst⟩ := h.opened
    refine ⟨first, hmono, by rwa [hseq, he], fun c hc => ?_⟩
    obtain ⟨b, hb, hs⟩ := hlive c hc
    obtain ⟨ho, m, hm, hi⟩ := hfirst b hb
    rw [hseq, hs.order]
    exact ⟨ho, m, hs.head ▸ hm, by rw [he, hs.rootId]; exact hi⟩

theorem SameOrigin.refl (b : Bundle μ) : SameOrigin b b := ⟨rfl, rfl, rfl, rfl⟩

theorem pendingOf_delete {q q' : BundleQueue μ} {b : Bundle μ} (hr : q'.receiving = q.receiving.delete (·.key = b.key))
    (ht : b.turnId = "") (r : String) : q'.pendingOf r = if b.rootId = r then [] else q.pendingOf r := by
  unfold BundleQueue.pendingOf
  rw [hr, Table.get?_delete, Bundle.key_of_turnless ht]
  cases hc : q.receiving.get? r with
  | none => simp
  | some c =>
    have hck : c.key = r := Table.get?_key hc
    by_cases hb : b.rootId = r
    · simp [hb, hck, Option.filter]
    · simp [hb, hck, Ne.symm hb, Option.filter]

theorem Inv.nextToSend (h : Inv t) : Inv (t.step envelopeId .nextToSend) := by
  cases hs : t.queue.nextToSend.2 with
  | none =>
    have : t.step envelopeId .nextToSend = t := by rw [Trace.step, nextToSend_none hs]
    rwa [this]
  | some b =>
    generalize ht' : t.step envelopeId .nextToSend = t'
    have hq : t.queue.nextToSend = (t'.queue, some b) := by rw [← hs, ← ht']; rfl
    obtain ⟨hnone, hb, -, hq⟩ := nextToSend_eq hq
    have hacked : t'.acked = t.acked := by rw [← ht']; rfl
    have hturn := h.rooted b (.inr hb)
    have hrec : t'.queue.receiving = t.queue.receiving.delete (·.key = b.key) := by rw [hq]
    refine h.moved (by rw [← ht']; rfl) (by rw [hq]) (fun c hc => ⟨c, ?_, .refl c⟩) fun r => ?_
    · rcases hc with hc | hc
      · rw [hq] at hc
        cases hc
        exact .inr hb
      · rw [hrec] at hc
        exact .inr (List.mem_filter.1 hc).1
    · rw [hacked, pendingOf_delete hrec hturn, hnone, hq]
      have hg : t.queue.receiving.get? b.rootId = some b := Bundle.key_of_turnless hturn ▸ Table.get?_of_mem hb
      by_cases hr : b.rootId = r
      · subst hr
        simp [Bundle.under, BundleQueue.pendingOf, hg]
      · simp [Bundle.under, hr]

theorem Inv.ack (h : Inv t) (bundleId : String) : Inv (t.step envelopeId (.ack bundleId)) := by
  by_cases hid : t.queue.inflight.any (·.bundleId = bundleId)
  · generalize ht' : t.step envelopeId (.ack bundleId) = t'
    have hack : t.queue.ack bundleId = ({ t.queue with inflight := none }, t.queue.inflight) := if_pos hid
    have hq : t'.queue = { t.queue with inflight := none } := by rw [← ht', Trace.step, hack]
    have hacked : t'.acked = t.acked ++ t.queue.inflight.toList := by rw [← ht', Trace.step, hack]
    refine h.moved (by rw [← ht']; rfl) (by rw [hq]) (fun c hc => ⟨c, ?_, .refl c⟩) fun r => ?_
    · rw [hq] at hc
      rcases hc with hc | hc
      · cases hc
      · exact .inr hc
    · rw [hacked, hq, List.flatMap_append]
      simp [BundleQueue.pendingOf]
  · have : t.step envelopeId (.ack bundleId) = t := by
      rw [Trace.step, BundleQueue.ack, if_neg hid]
      simp
    rwa [this]

theorem Inv.nonempty (h : Inv t) {b : Bundle μ} (hb : t.queue.Live b) : b.messages ≠ [] := by
  obtain ⟨first, -, -, hfirst⟩ := h.opened
  obtain ⟨-, m, hm, -⟩ := hfirst b hb
  intro hn
  rw [hn] at hm
  cases hm

theorem enqueuedOf_nodup (hids : (t.ids envelopeId).Nodup) (r : String) : ((t.enqueuedOf r).map envelopeId).Nodup := by
  rw [Trace.enqueuedOf, List.map_map]
  exact hids.sublist (List.filter_sublist.map _)

/-- What has arrived since the bundle was sent is not in it. -/
theorem Inv.merged_messages (h : Inv t) (hids : (t.ids envelopeId).Nodup) {stale : Bundle μ}
    (hi : t.queue.inflight = some stale) (makeId : String) :
    (BundleQueue.merged envelopeId makeId stale (t.queue.receiving.get? stale.key)).messages =
      stale.messages ++ t.queue.pendingOf stale.rootId := by
  have hflow := h.flow stale.rootId
  rw [hi] at hflow
  have hnodup := enqueuedOf_nodup hids stale.rootId
  rw [← hflow, List.map_append, List.map_append] at hnodup
  have hsucc : (t.queue.receiving.get? stale.key).toList.flatMap (·.messages) = t.queue.pendingOf stale.rootId := by
    rw [Bundle.key_of_turnless (h.rooted stale (.inl hi))]
    unfold BundleQueue.pendingOf
    cases t.queue.receiving.get? stale.rootId <;> simp
  change stale.messages ++ List.filter _ (List.flatMap _ _) = _
  rw [hsucc, List.filter_eq_self.2]
  intro m hm
  simp only [decide_eq_true_eq]
  intro hmem
  refine (List.nodup_append.1 hnodup).2.2 (envelopeId m) (List.mem_append_right _ ?_) (envelopeId m) (List.mem_map_of_mem hm) rfl
  simpa [Bundle.under] using hmem

theorem Inv.rollback (h : Inv t) (hids : (t.ids envelopeId).Nodup) (makeId : String) :
    Inv (t.step envelopeId (.rollback makeId)) := by
  cases hi : t.queue.inflight with
  | none =>
    have : t.step envelopeId (.rollback makeId) = t := by simp [Trace.step, BundleQueue.rollbackInflight, hi]
    rwa [this]
  | some stale =>
    generalize ht' : t.step envelopeId (.rollback makeId) = t'
    generalize hb : BundleQueue.merged envelopeId makeId stale (t.queue.receiving.get? stale.key) = b
    have hq : t'.queue = { t.queue with receiving := t.queue.receiving.put b, inflight := none } := by
      rw [← ht', ← hb]
      simp [Trace.step, BundleQueue.rollbackInflight, hi]
    have hacked : t'.acked = t.acked := by rw [← ht']; rfl
    have hturn : stale.turnId = "" := h.rooted stale (.inl hi)
    have hbturn : b.turnId = "" := by rw [← hb]; exact hturn
    have hbroot : b.rootId = stale.rootId := by rw [← hb]; rfl
    have hrec : t'.queue.receiving = t.queue.receiving.put b := by rw [hq]
    have hmsgs : b.messages = stale.messages ++ t.queue.pendingOf stale.rootId := by
      rw [← hb]
      exact h.merged_messages hids hi makeId
    have hnone : t'.queue.inflight = none := by rw [hq]
    refine h.moved (by rw [← ht']; rfl) (by rw [hq]) (fun c hc => ?_) fun r => ?_
    · rcases live_put hrec hc with hc | rfl | hc
      · rw [hnone] at hc
        cases hc
      · refine ⟨stale, .inl hi, hbturn.trans hturn.symm, hbroot, by rw [← hb]; rfl, ?_⟩
        rw [hmsgs, List.head?_append_of_ne_nil _ (h.nonempty (.inl hi))]
      · exact ⟨c, .inr hc, .refl c⟩
    · rw [hacked, hnone, hi, pendingOf_put hrec hbturn, hbroot, hmsgs]
      by_cases hr : stale.rootId = r
      · subst hr
        simp [Bundle.under]
      · simp [Bundle.under, hr]

theorem Inv.step (h : Inv t) {op : Op μ} (hids : (t.ids envelopeId).Nodup)
    (hnew : ∀ m, op.message? = some m → envelopeId m ∉ t.ids envelopeId) : Inv (t.step envelopeId op) := by
  cases op with
  | enqueue makeId rootId message channelMeta => exact h.enqueue makeId rootId message channelMeta (hnew message rfl)
  | nextToSend => exact h.nextToSend
  | ack bundleId => exact h.ack bundleId
  | rollback makeId => exact h.rollback hids makeId

theorem step_ids (t : Trace μ) (op : Op μ) :
    (t.step envelopeId op).ids envelopeId = t.ids envelopeId ++ (op.message?.toList.map envelopeId) := by
  cases op <;> simp [Trace.step, Trace.ids, Op.message?]

/-- The messages of a run have different ids. -/
def Distinct (envelopeId : μ → String) (ops : List (Op μ)) : Prop := ((ops.filterMap Op.message?).map envelopeId).Nodup

instance (envelopeId : μ → String) (ops : List (Op μ)) : Decidable (Distinct envelopeId ops) :=
  inferInstanceAs (Decidable (List.Nodup _))

theorem Inv.run (h : Inv t) {ops : List (Op μ)}
    (hids : (t.ids envelopeId ++ (ops.filterMap Op.message?).map envelopeId).Nodup) :
    Inv (run (Trace.step envelopeId) t ops) ∧ ((run (Trace.step envelopeId) t ops).ids envelopeId).Nodup := by
  induction ops generalizing t with
  | nil => exact ⟨h, by simpa using hids⟩
  | cons op ops ih =>
    have hsplit : (op :: ops).filterMap Op.message? = op.message?.toList ++ ops.filterMap Op.message? := by
      cases hm : op.message? <;> simp [hm]
    rw [hsplit, List.map_append, ← List.append_assoc] at hids
    have hhead := (List.nodup_append.1 hids).1
    refine ih (h.step (List.nodup_append.1 hhead).1 fun m hm hin => ?_) (by rw [step_ids]; exact hids)
    refine (List.nodup_append.1 hhead).2.2 _ hin _ ?_ rfl
    simp [hm]

theorem inv_start : Inv (Trace.start : Trace μ) := by
  have hlive : ∀ b, ¬ (Trace.start : Trace μ).queue.Live b := by
    rintro b (hb | hb)
    · cases hb
    · cases hb
  exact ⟨fun b hb => absurd hb (hlive b), fun _ => rfl, fun _ => 0, fun _ _ _ => le_rfl, fun _ _ => Nat.zero_le _,
    fun b hb => absurd hb (hlive b)⟩

end Steps

section Places

/-- Lists of keyed entries with the same entries under every key. -/
theorem perm_of_filter {κ α : Type} [DecidableEq κ] {l l' : List (κ × α)}
    (h : ∀ k, (l.filter (·.1 = k)).map (·.2) = (l'.filter (·.1 = k)).map (·.2)) : l.Perm l' := by
  classical
  have hcount (l : List (κ × α)) (k : κ) (a : α) : l.count (k, a) = ((l.filter (·.1 = k)).map (·.2)).count a := by
    induction l with
    | nil => rfl
    | cons e l ih =>
      obtain ⟨k', a'⟩ := e
      by_cases hk : k' = k <;> by_cases ha : a' = a <;> simp [ih, hk, ha]
  refine List.perm_iff_count.2 fun e => ?_
  obtain ⟨k, a⟩ := e
  rw [hcount, hcount, h]

theorem entries_under (bs : List (Bundle μ)) (r : String) :
    ((bs.flatMap Bundle.entries).filter (·.1 = r)).map (·.2) = bs.flatMap (·.under r) := by
  induction bs with
  | nil => rfl
  | cons b bs ih =>
    rw [List.flatMap_cons, List.flatMap_cons, List.filter_append, List.map_append, ih]
    congr 1
    by_cases hr : b.rootId = r <;> simp [Bundle.entries, Bundle.under, List.filter_map, Function.comp_def, hr]

/-- What the queue guarantees of a state and of every call on it. -/
structure Conserved (envelopeId : μ → String) (t : Trace μ) : Prop where
  /-- Every message is in one bundle, and nothing else is. -/
  once : (t.bundles.flatMap Bundle.entries).Perm t.enqueued
  distinct : ((t.bundles.flatMap Bundle.entries).map fun e => envelopeId e.2).Nodup
  oneReceiving : (t.queue.receiving.rows.map (·.rootId)).Nodup
  /-- The messages of a root are confirmed, then in flight, then pending, in their order. -/
  inOrder : ∀ rootId, t.bundles.flatMap (·.under rootId) = t.enqueuedOf rootId
  serial : t.queue.inflight.isSome → t.queue.nextToSend = (t.queue, none)
  frozen : ∀ b ∈ t.queue.inflight, ∀ op : Op μ, op ≠ .ack b.bundleId → (∀ makeId, op ≠ .rollback makeId) →
    b ∈ (t.step envelopeId op).queue.inflight
  /-- What is sent continues what was confirmed, and no pending bundle was opened earlier. -/
  sent : ∀ q b, t.queue.nextToSend = (q, some b) →
    t.acked.flatMap (·.under b.rootId) ++ b.messages = t.enqueuedOf b.rootId ∧
    ∀ c ∈ t.queue.receiving.rows, ∃ i j, i ≤ j ∧ t.OpenedAt b i ∧ t.OpenedAt c j
  lateAck : ∀ bundleId, (∀ b ∈ t.queue.inflight, b.bundleId ≠ bundleId) → t.queue.ack bundleId = (t.queue, none)

/-- Whatever the order of arrivals, sends, acks and rollbacks, no message is lost, repeated
or overtaken by a later one of its root. -/
theorem queue_conserves (envelopeId : μ → String) (ops : List (Op μ)) (hd : Distinct envelopeId ops) :
    Conserved envelopeId (run (Trace.step envelopeId) Trace.start ops) := by
  obtain ⟨h, hids⟩ : Inv (run (Trace.step envelopeId) Trace.start ops) ∧
      ((run (Trace.step envelopeId) Trace.start ops).ids envelopeId).Nodup :=
    inv_start.run (by simpa [Trace.ids, Trace.start, Distinct] using hd)
  generalize run (Trace.step envelopeId) Trace.start ops = t at h hids
  have honce : (t.bundles.flatMap Bundle.entries).Perm t.enqueued :=
    perm_of_filter fun r => by rw [entries_under, h.inOrder, Trace.enqueuedOf]
  refine ⟨honce, (honce.map _).nodup_iff.2 hids, ?_, h.inOrder, fun hi => if_pos hi, fun b hb op hack hroll => ?_,
    fun q b hs => ?_, fun bundleId hne => ?_⟩
  · have hkeys : t.queue.receiving.rows.map (·.rootId) = t.queue.receiving.rows.map Bundle.key :=
      List.map_congr_left fun b hb => (Bundle.key_of_turnless (h.rooted b (.inr hb))).symm
    rw [hkeys]
    exact t.queue.receiving.nodup
  · cases op with
    | enqueue makeId rootId message channelMeta =>
      change b ∈ (t.queue.enqueue envelopeId makeId rootId message channelMeta).inflight
      unfold BundleQueue.enqueue
      split
      · split <;> exact hb
      · exact hb
    | nextToSend =>
      have hs : t.queue.nextToSend = (t.queue, none) := if_pos (by rw [hb]; rfl)
      rw [Trace.step, hs]
      exact hb
    | ack bundleId =>
      have hs : t.queue.ack bundleId = (t.queue, none) := if_neg fun ha => hack (by
        rw [hb, Option.any_some, decide_eq_true_eq] at ha
        rw [ha])
      rw [Trace.step, hs]
      exact hb
    | rollback makeId => exact absurd rfl (hroll makeId)
  · obtain ⟨hnone, hb, hmin, -⟩ := nextToSend_eq hs
    have hg : t.queue.receiving.get? b.rootId = some b :=
      Bundle.key_of_turnless (h.rooted b (.inr hb)) ▸ Table.get?_of_mem hb
    have hflow := h.flow b.rootId
    rw [hnone] at hflow
    refine ⟨by simpa [BundleQueue.pendingOf, hg] using hflow, fun c hc => ?_⟩
    obtain ⟨first, hmono, -, hfirst⟩ := h.opened
    exact ⟨first b.order, first c.order, hmono (hmin c hc), (hfirst b (.inr hb)).2, (hfirst c (.inr hc)).2⟩
  · refine if_neg fun ha => ?_
    cases hi : t.queue.inflight with
    | none => simp [hi] at ha
    | some b => exact hne b hi (by simpa [hi] using ha)

/-- Two messages of one root, the second after the first was sent, and a reconnect. -/
theorem queue_conserves_rollback : Distinct (fun m : String => m)
      [.enqueue "b1" "root" "m1" [], .nextToSend, .enqueue "b2" "root" "m2" [], .rollback "b3"] ∧
    Conserved (fun m : String => m) (run (Trace.step fun m => m) Trace.start
      [.enqueue "b1" "root" "m1" [], .nextToSend, .enqueue "b2" "root" "m2" [], .rollback "b3"]) :=
  ⟨by decide, queue_conserves _ _ (by decide)⟩

end Places

end Invariant
end PuffoAgent.WsLocal
