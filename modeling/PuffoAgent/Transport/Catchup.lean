import PuffoAgent.Ingress.Delivery
import PuffoAgent.Text.Python

/-! Catch-up over the pending list, beside live delivery: both hand every delivery to one
handler and acknowledge what it says. -/
namespace PuffoAgent.Transport
open Ingress (TransportOutcome)
open Machine Text

/-- What came of calling the message handler. -/
inductive Handled where
  | absent
  | raised
  | returned (outcome : TransportOutcome)
  | unexpected
  deriving DecidableEq, Repr

structure DeliveryResult where
  outcome : TransportOutcome
  envelopeId : Option String
  reason : String
  deriving DecidableEq, Repr

def heldResult (envelopeId : Option String) (reason : String) : DeliveryResult := ⟨.hold, envelopeId, reason⟩

/-- The verdict on an identified delivery. -/
def classify (envelopeId : String) : Handled → DeliveryResult
  | .absent => heldResult envelopeId "no message handler"
  | .raised => heldResult envelopeId "handler exception"
  | .returned .ack => ⟨.ack, envelopeId, "handler committed"⟩
  | .returned .defer => ⟨.defer, envelopeId, "handler durably deferred"⟩
  | .returned .hold => heldResult envelopeId "handler held"
  | .unexpected => heldResult envelopeId "unexpected handler result"

/-- `dispatch_delivery`. -/
def dispatchDelivery (item : Json) (handled : Handled) : DeliveryResult :=
  match item with
  | .obj _ =>
    match item.member "seq" with
    | some (.int seq) =>
      if seq ≤ 0 then heldResult none "invalid server sequence"
      else match item.member "envelope" with
        | some (.obj envelope) =>
          match (Json.obj envelope).member "envelope_id" with
          | some (.str envelopeId) =>
            if strip envelopeId = "" then heldResult none "invalid envelope id" else classify envelopeId handled
          | _ => heldResult none "invalid envelope id"
        | _ => heldResult none "invalid envelope"
    | _ => heldResult none "invalid server sequence"
  | _ => heldResult none "delivery is not a mapping"

def ackBatch : Nat := 25

/-- The locals of `_run_catchup`; `posts` are the bodies sent to `/messages/ack`. -/
structure Drain where
  envelopeIds : List String := []
  held : Nat := 0
  blocked : Bool := false
  foundRequired : Bool := false
  posts : List (List String) := []
  deriving DecidableEq, Repr

namespace Drain

/-- The loop left by `break`. -/
def stopped (d : Drain) : Bool := d.blocked ∨ d.foundRequired

def post (d : Drain) : Drain := { d with posts := d.posts ++ [d.envelopeIds], envelopeIds := [] }

def flush (d : Drain) : Drain := if d.envelopeIds ≠ [] then d.post else d

/-- The loop's bookkeeping for an acknowledged delivery. -/
def note (required : Option String) (d : Drain) (envelopeId : Option String) : Drain :=
  match envelopeId with
  | some envelopeId =>
    if envelopeId = "" then d
    else { d with
      envelopeIds := d.envelopeIds ++ [envelopeId]
      foundRequired := d.foundRequired ∨ required = some envelopeId }
  | none => d

/-- The body of the loop. -/
def item (required : Option String) (d : Drain) (result : DeliveryResult) : Drain :=
  match result.outcome with
  | .defer => d
  | .hold => { d with held := d.held + 1, blocked := required.isSome }
  | .ack =>
    let d := d.note required result.envelopeId
    if ackBatch ≤ d.envelopeIds.length then d.post else d

end Drain

/-- A client during a catch-up. `sent` are the acks over the WebSocket. -/
structure Client where
  drain : Drain := {}
  sent : List (List String) := []
  connected : Bool := true
  deriving DecidableEq, Repr

/-- What can happen next: the catch-up takes its next item, or a live frame arrives. -/
inductive Activity where
  | pending (item : Json) (handled : Handled)
  | live (frame : Json) (handled : Handled)

namespace Client

/-- `_handle_frame` on a message. A held one ends the stream. -/
def handleMessage (c : Client) (result : DeliveryResult) : Client :=
  match result.outcome, result.envelopeId with
  | .ack, some envelopeId => if envelopeId = "" then c else { c with sent := c.sent ++ [[envelopeId]] }
  | .hold, _ => { c with connected := false }
  | _, _ => c

def step (required : Option String) (c : Client) : Activity → Client
  | .pending item handled =>
    if c.drain.stopped then c else { c with drain := c.drain.item required (dispatchDelivery item handled) }
  | .live frame handled => if c.connected then c.handleMessage (dispatchDelivery frame handled) else c

end Client

/-- The pending list, with what the handler makes of it. -/
def pendings (activity : List Activity) : List (Json × Handled) :=
  activity.filterMap fun
    | .pending item handled => some (item, handled)
    | .live _ _ => none

/-- `_run_catchup`, with what happens while it runs; `none` is a list that could not be
fetched. -/
def runCatchup (required : Option String) : Option (List Activity) → Client × Bool
  | none => ({}, false)
  | some activity =>
    let c := run (Client.step required) {} activity
    if pendings activity = [] then (c, required.isNone)
    else ({ c with drain := c.drain.flush },
      if c.drain.blocked then false else if required.isSome then c.drain.foundRequired else true)

/-- `recover_pending_until`. -/
def recoverPendingUntil (envelopeId : String) (fetched : Option (List Activity)) : Client × Bool :=
  if envelopeId = "" then ({}, false) else runCatchup (some envelopeId) fetched

section Stopping

/-- The id of a well-formed delivery. -/
def deliveryId (item : Json) : Option String := (dispatchDelivery item .absent).envelopeId

/-- The id of a delivery whose handler returned ACK. -/
def acked (p : Json × Handled) : Option String := if p.2 = .returned .ack then deliveryId p.1 else none

def Deferred (p : Json × Handled) : Prop := (deliveryId p.1).isSome ∧ p.2 = .returned .defer

instance : DecidablePred Deferred := fun _ => inferInstanceAs (Decidable (_ ∧ _))

/-- Whether the catch-up ends at a delivery: the required one, or one neither acknowledged nor
deferred while something is required. -/
def stopsAt (required : Option String) (p : Json × Handled) : Bool :=
  required.isSome ∧ (acked p = required ∨ (acked p = none ∧ ¬ Deferred p))

/-- The deliveries up to the stopping point. -/
def reached (required : Option String) (ps : List (Json × Handled)) : List (Json × Handled) :=
  ps.take (ps.findIdx (stopsAt required) + 1)

end Stopping

section Dispatch

/-- Whether the handler is asked depends on the item alone. -/
theorem dispatch_cases (item : Json) :
    (∃ reason, ∀ handled, dispatchDelivery item handled = heldResult none reason) ∨
      ∃ envelopeId, envelopeId ≠ "" ∧ ∀ handled, dispatchDelivery item handled = classify envelopeId handled := by
  unfold dispatchDelivery
  split
  · split
    · split
      · exact .inl ⟨_, fun _ => rfl⟩
      · split
        · split
          · split
            · exact .inl ⟨_, fun _ => rfl⟩
            · rename_i envelopeId _ hblank
              exact .inr ⟨envelopeId, fun h => hblank (by rw [h]; decide), fun _ => rfl⟩
          · exact .inl ⟨_, fun _ => rfl⟩
        · exact .inl ⟨_, fun _ => rfl⟩
    · exact .inl ⟨_, fun _ => rfl⟩
  · exact .inl ⟨_, fun _ => rfl⟩

/-- What a dispatch says of a delivery. -/
inductive Dispatched (p : Json × Handled) : DeliveryResult → Prop where
  | acked (envelopeId reason : String) (nonempty : envelopeId ≠ "") (h : acked p = some envelopeId) :
      Dispatched p ⟨.ack, envelopeId, reason⟩
  | deferred (envelopeId reason : String) (none : acked p = none) (h : Deferred p) :
      Dispatched p ⟨.defer, envelopeId, reason⟩
  | held (envelopeId : Option String) (reason : String) (none : acked p = none) (h : ¬ Deferred p) :
      Dispatched p (heldResult envelopeId reason)

theorem dispatched (p : Json × Handled) : Dispatched p (dispatchDelivery p.1 p.2) := by
  obtain ⟨item, handled⟩ := p
  rcases dispatch_cases item with ⟨reason, h⟩ | ⟨envelopeId, hne, h⟩
  · have hid : deliveryId item = none := by rw [deliveryId, h]; rfl
    rw [h]
    exact .held _ _ (by simp [acked, hid]) (by simp [Deferred, hid])
  · have hid : deliveryId item = some envelopeId := by rw [deliveryId, h]; rfl
    rw [h]
    cases handled with
    | returned outcome =>
      cases outcome with
      | ack => exact .acked _ _ hne (by simp [acked, hid])
      | defer => exact .deferred _ _ (by simp [acked]) (by simp [Deferred, hid])
      | hold => exact .held _ _ (by simp [acked]) (by simp [Deferred])
    | _ => exact .held _ _ (by simp [acked]) (by simp [Deferred])

theorem acked_nonempty (p : Json × Handled) : acked p ≠ some "" := by
  intro h
  have hdisp := dispatched p
  generalize dispatchDelivery p.1 p.2 = r at hdisp
  cases hdisp with
  | acked envelopeId reason hne hack => exact hne (Option.some.inj (hack.symm.trans h))
  | deferred _ _ hnone => exact absurd (hnone.symm.trans h) nofun
  | held _ _ hnone => exact absurd (hnone.symm.trans h) nofun

end Dispatch

section Loop
variable {required : Option String} {d : Drain}

/-- The loop from a state of its locals. -/
def loop (required : Option String) (d : Drain) (ps : List (Json × Handled)) : Drain :=
  ps.foldl (fun d p => if d.stopped then d else d.item required (dispatchDelivery p.1 p.2)) d

/-- Live deliveries leave the loop alone. -/
theorem run_drain (activity : List Activity) (c : Client) :
    (run (Client.step required) c activity).drain = loop required c.drain (pendings activity) := by
  induction activity generalizing c with
  | nil => rfl
  | cons a activity ih =>
    rw [run_cons, ih]
    cases a with
    | pending item handled => simp only [Client.step, pendings, List.filterMap_cons, loop, List.foldl_cons]; split <;> rfl
    | live frame handled =>
      have hkept : (Client.step required c (.live frame handled)).drain = c.drain := by
        simp only [Client.step, Client.handleMessage]
        repeat' split
        all_goals rfl
      rw [hkept]; rfl

/-- The loop's chunks and its collected ids, in order. -/
def Drain.acknowledged (d : Drain) : List String := d.posts.flatten ++ d.envelopeIds

structure Drain.Chunked (d : Drain) : Prop where
  posts : ∀ chunk ∈ d.posts, chunk ≠ [] ∧ chunk.length ≤ ackBatch
  collected : d.envelopeIds.length < ackBatch

theorem loop_stopped (h : d.stopped = true) (ps : List (Json × Handled)) : loop required d ps = d := by
  induction ps with
  | nil => rfl
  | cons p ps ih => simpa [loop, h] using ih

theorem post_acknowledged : d.post.acknowledged = d.acknowledged := by
  simp [Drain.acknowledged, Drain.post]

theorem Drain.Chunked.post (h : ∀ chunk ∈ d.posts, chunk ≠ [] ∧ chunk.length ≤ ackBatch)
    (hne : d.envelopeIds ≠ []) (hlen : d.envelopeIds.length ≤ ackBatch) : d.post.Chunked := by
  refine ⟨fun chunk hchunk => ?_, Nat.zero_lt_succ _⟩
  rcases List.mem_append.1 hchunk with hchunk | hchunk
  · exact h chunk hchunk
  · rw [List.mem_singleton.1 hchunk]
    exact ⟨hne, hlen⟩

/-- One pass of the loop: what it adds, and whether it goes on. -/
structure Passed (required : Option String) (d d' : Drain) (p : Json × Handled) : Prop where
  acknowledged : d'.acknowledged = d.acknowledged ++ (acked p).toList
  chunked : d'.Chunked
  found : d'.foundRequired = true ↔ required.isSome ∧ acked p = required
  apart : d'.blocked = true → d'.foundRequired = false
  stopped : d'.stopped = stopsAt required p

theorem item_passed (hd : d.stopped = false) (hc : d.Chunked) (p : Json × Handled) :
    Passed required d (d.item required (dispatchDelivery p.1 p.2)) p := by
  have hdisp := dispatched p
  generalize dispatchDelivery p.1 p.2 = r at hdisp
  obtain ⟨hb, hf⟩ : d.blocked = false ∧ d.foundRequired = false := by simpa [Drain.stopped] using hd
  cases hdisp with
  | deferred envelopeId reason hnone hdef =>
    have hgo : stopsAt required p = false := by cases required <;> simp [stopsAt, hnone, hdef]
    refine ⟨by simp [Drain.item, hnone], hc, ?_, fun _ => hf, hd.trans hgo.symm⟩
    cases required <;> simp [Drain.item, hf, hnone]
  | held envelopeId reason hnone hdef =>
    refine ⟨by simp [Drain.item, heldResult, Drain.acknowledged, hnone], ⟨hc.posts, hc.collected⟩, ?_, fun _ => hf, ?_⟩
    · cases required <;> simp [Drain.item, heldResult, hf, hnone]
    · cases required <;> simp [Drain.item, heldResult, Drain.stopped, stopsAt, hf, hnone, hdef]
  | acked envelopeId reason hne hack =>
    have hnote : d.note required (some envelopeId) = { d with
        envelopeIds := d.envelopeIds ++ [envelopeId], foundRequired := decide (required = some envelopeId) } := by
      simp [Drain.note, hne, hf]
    have hfound : decide (required = some envelopeId) = true ↔ required.isSome ∧ acked p = required := by
      rw [decide_eq_true_iff, hack]
      constructor
      · rintro rfl
        exact ⟨rfl, rfl⟩
      · exact fun h => h.2.symm
    have hstop : stopsAt required p = decide (required = some envelopeId) := by
      cases required with
      | none => rfl
      | some id => simp [stopsAt, hack, eq_comm]
    simp only [Drain.item, hnote]
    split
    case isTrue hfull =>
      refine ⟨?_, ?_, hfound, fun h => absurd (hb.symm.trans h) nofun, ?_⟩
      · rw [post_acknowledged]
        simp [Drain.acknowledged, hack]
      · refine .post hc.posts (by simp) ?_
        simpa using Nat.succ_le_of_lt hc.collected
      · simp [Drain.stopped, Drain.post, hb, hstop]
    case isFalse hroom =>
      refine ⟨by simp [Drain.acknowledged, hack], ⟨hc.posts, Nat.lt_of_not_le hroom⟩, hfound, ?_, ?_⟩
      · exact fun h => absurd (hb.symm.trans h) nofun
      · simp [Drain.stopped, hb, hstop]

theorem reached_cons (p : Json × Handled) (ps : List (Json × Handled)) :
    reached required (p :: ps) = p :: if stopsAt required p then [] else reached required ps := by
  cases h : stopsAt required p <;> simp [reached, List.findIdx_cons, h]

theorem filterMap_acked_cons (p : Json × Handled) (ps : List (Json × Handled)) :
    (p :: ps).filterMap acked = (acked p).toList ++ ps.filterMap acked := by
  rw [List.filterMap_cons]
  cases acked p <;> rfl

/-- What a whole loop acknowledges, and whether it found the required delivery. -/
structure Looped (required : Option String) (d d' : Drain) (ps : List (Json × Handled)) : Prop where
  acknowledged : d'.acknowledged = d.acknowledged ++ (reached required ps).filterMap acked
  chunked : d'.Chunked
  found : d'.foundRequired = true ↔ required.isSome ∧ ∃ earlier p later, ps = earlier ++ p :: later ∧
    acked p = required ∧ ∀ q ∈ earlier, acked q ≠ none ∨ Deferred q
  blocked : d'.blocked = true → d'.foundRequired = false

/-- Induction on the pending list: the loop takes the first item and then stops or goes on. -/
theorem loop_looped (hd : d.stopped = false) (hc : d.Chunked) (ps : List (Json × Handled)) :
    Looped required d (loop required d ps) ps := by
  induction ps generalizing d with
  | nil =>
    obtain ⟨hb, hf⟩ : d.blocked = false ∧ d.foundRequired = false := by simpa [Drain.stopped] using hd
    exact ⟨by simp [loop, reached], hc, by simp [loop, hf], by simp [loop, hf]⟩
  | cons p ps ih =>
    have hp : Passed required d _ p := item_passed hd hc p
    have hloop : loop required d (p :: ps) =
        loop required (d.item required (dispatchDelivery p.1 p.2)) ps := by simp [loop, hd]
    rw [hloop]
    generalize d.item required (dispatchDelivery p.1 p.2) = d' at hp
    cases hstop : stopsAt required p with
    | true =>
      rw [loop_stopped (hp.stopped.trans hstop)]
      refine ⟨by rw [hp.acknowledged, reached_cons, hstop]; simp [filterMap_acked_cons], hp.chunked, ?_, hp.apart⟩
      rw [hp.found]
      constructor
      · rintro ⟨hsome, hack⟩
        exact ⟨hsome, [], p, ps, rfl, hack, nofun⟩
      · rintro ⟨hsome, earlier, q, later, heq, hack, hpast⟩
        refine ⟨hsome, ?_⟩
        cases earlier with
        | nil => rwa [(List.cons.inj heq).1]
        | cons e earlier =>
          have hpast := hpast p (by rw [(List.cons.inj heq).1]; exact List.mem_cons_self)
          simp only [stopsAt, hsome, true_and, decide_eq_true_eq] at hstop
          exact hstop.resolve_right fun h => hpast.elim (fun h' => h' h.1) h.2
    | false =>
      have ih := ih (hp.stopped.trans hstop) hp.chunked
      refine ⟨?_, ih.chunked, ?_, ih.blocked⟩
      · rw [ih.acknowledged, hp.acknowledged, reached_cons, hstop]
        simp [filterMap_acked_cons]
      · rw [ih.found]
        refine and_congr_right fun hsome => ?_
        obtain ⟨hother, hpast⟩ : acked p ≠ required ∧ (acked p = none → Deferred p) := by
          simpa [stopsAt, hsome] using hstop
        constructor
        · rintro ⟨earlier, q, later, rfl, hack, hearlier⟩
          exact ⟨p :: earlier, q, later, rfl, hack, List.forall_mem_cons.2 ⟨not_or_of_imp hpast, hearlier⟩⟩
        · rintro ⟨earlier, q, later, heq, hack, hearlier⟩
          cases earlier with
          | nil => exact absurd hack ((List.cons.inj heq).1 ▸ hother)
          | cons e earlier =>
            exact ⟨earlier, q, later, (List.cons.inj heq).2, hack, (List.forall_mem_cons.1 hearlier).2⟩

theorem chunked_flush (h : d.Chunked) : d.flush.posts.flatten = d.acknowledged ∧
    ∀ chunk ∈ d.flush.posts, chunk ≠ [] ∧ chunk.length ≤ ackBatch := by
  unfold Drain.flush
  split
  case isTrue hne => exact ⟨by simp [Drain.post, Drain.acknowledged], (Drain.Chunked.post h.posts hne h.collected.le).posts⟩
  case isFalse hnil => exact ⟨by simp [Drain.acknowledged, not_not.1 hnil], h.posts⟩

end Loop

/-- The fetched list, as far as there is one. -/
def fetchedItems (fetched : Option (List Activity)) : List (Json × Handled) := pendings (fetched.getD [])

section Catchup
variable (fetched : Option (List Activity))

theorem catchup_start (required : Option String) (activity : List Activity) :
    Looped required {} (run (Client.step required) {} activity).drain (pendings activity) := by
  rw [run_drain]
  exact loop_looped rfl ⟨fun _ h => absurd h List.not_mem_nil, by decide⟩ _

/-- A finished catch-up posted what its loop acknowledged. -/
theorem catchup_posts (required : Option String) :
    (runCatchup required fetched).1.drain.posts.flatten = (reached required (fetchedItems fetched)).filterMap acked ∧
      ∀ chunk ∈ (runCatchup required fetched).1.drain.posts, chunk ≠ [] ∧ chunk.length ≤ ackBatch := by
  cases fetched with
  | none => exact ⟨rfl, nofun⟩
  | some activity =>
    have h := catchup_start required activity
    obtain ⟨hposts, hchunks⟩ := chunked_flush h.chunked
    by_cases hnil : pendings activity = []
    · have hd : (run (Client.step required) {} activity).drain = {} := by rw [run_drain, hnil]; rfl
      rw [runCatchup, if_pos hnil, hd, fetchedItems, Option.getD_some, hnil]
      exact ⟨rfl, fun _ h => absurd h List.not_mem_nil⟩
    · rw [runCatchup, if_neg hnil]
      exact ⟨hposts.trans h.acknowledged, hchunks⟩

theorem recover_iff (envelopeId : String) : (recoverPendingUntil envelopeId fetched).2 = true ↔
    ∃ earlier p later, fetchedItems fetched = earlier ++ p :: later ∧ acked p = some envelopeId ∧
      ∀ q ∈ earlier, acked q ≠ none ∨ Deferred q := by
  unfold recoverPendingUntil
  split
  case isTrue hempty =>
    refine iff_of_false nofun fun ⟨_, p, _, _, hack, _⟩ => ?_
    exact acked_nonempty p (hempty ▸ hack)
  case isFalse =>
    cases fetched with
    | none => exact iff_of_false nofun fun ⟨earlier, p, later, heq, _⟩ => by simp [fetchedItems, pendings] at heq
    | some activity =>
      have h := catchup_start (some envelopeId) activity
      by_cases hnil : pendings activity = []
      · rw [runCatchup, if_pos hnil]
        exact iff_of_false nofun fun ⟨earlier, p, later, heq, _⟩ => by simp [fetchedItems, hnil] at heq
      · rw [runCatchup, if_neg hnil]
        have hresult : (if (run (Client.step (some envelopeId)) {} activity).drain.blocked then false
            else (run (Client.step (some envelopeId)) {} activity).drain.foundRequired) =
            (run (Client.step (some envelopeId)) {} activity).drain.foundRequired := by
          split
          · exact (h.blocked ‹_›).symm
          · rfl
        exact (iff_of_eq (congrArg (· = true) hresult)).trans (h.found.trans (and_iff_right rfl))

end Catchup

/-- HTTP acknowledges the deliveries whose handler returned ACK, in order and in bounded chunks, up to
the stopping point; a recovery succeeds when the required one is among them and none before it
was held. -/
theorem catchup_acknowledges (required : Option String) (fetched : Option (List Activity)) :
    (runCatchup required fetched).1.drain.posts.flatten =
        (reached required (fetchedItems fetched)).filterMap acked ∧
      (∀ chunk ∈ (runCatchup required fetched).1.drain.posts, chunk ≠ [] ∧ chunk.length ≤ ackBatch) ∧
      ∀ envelopeId, (recoverPendingUntil envelopeId fetched).2 = true ↔
        ∃ earlier p later, fetchedItems fetched = earlier ++ p :: later ∧ acked p = some envelopeId ∧
          ∀ q ∈ earlier, acked q ≠ none ∨ Deferred q :=
  ⟨(catchup_posts fetched required).1, (catchup_posts fetched required).2, recover_iff fetched⟩

/-- A plain drain passes a held delivery, and a live one in between is not its business. -/
example : (runCatchup none (some [.pending .null .unexpected,
      .live (.obj [("seq", .int 7), ("envelope", .obj [("envelope_id", .str "m7")])]) (.returned .ack),
      .pending (.obj [("seq", .int 2), ("envelope", .obj [("envelope_id", .str "m2")])]) (.returned .ack)])) =
    (⟨⟨[], 1, false, false, [["m2"]]⟩, [["m7"]], true⟩, true) := by decide +kernel

end PuffoAgent.Transport
