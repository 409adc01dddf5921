import PuffoAgent.Inbox.Planner
import PuffoAgent.Recovery.Startup
import PuffoAgent.Projection.Row
import Mathlib.Logic.Function.Iterate

/-! The runtime's planning of a bounded batch: what the planner selects is wrapped in a header and shrunk until the
header is within the caps too. -/
namespace PuffoAgent.Inbox
open Text Projection Sequences
open Recovery (MessageRoute)

/-- `conservative_token_estimate`. -/
def conservativeTokenEstimate (text : String) : Int := byteSize text

structure PlannedTurn where
  turnId : String
  planningCycleKey : String
  messageIds : List String
  items : List StoredMessage
  routes : List MessageRoute
  targets : List (List String)
  pendingTargets : List (List String)
  targetSummary : String
  formattedBlocks : List String
  providerInput : String
  formattedTokens : Int
  wrapperOverheadTokens : Int
  formattedBytes : Nat
  wrapperOverheadBytes : Nat
  moreAvailable : Bool
  requiresEncryption : Bool

section Wrapping

/-- `_target_summary`. -/
def targetSummary (targets : List (List String)) (count : Nat) (morePending : Bool)
    (pendingTargets : List (List String)) : String :=
  (Json.obj [("version", .int 2), ("message_count", .int count), ("more_pending", .bool morePending),
    ("pending_targets", .arr (pendingTargets.map fun target => .arr (target.map .str))),
    ("targets", .arr (targets.map fun target => .arr (target.map .str)))]).dumpsAscii

def turnPrefix (summary : String) : String := "<global_inbox_turn>\n" ++ summary ++ "\n"

def turnSuffix : String := "\n</global_inbox_turn>"

variable (host : Host) (formatter : StoredMessage → String) (estimator : String → Int)

/-- `route_for`. -/
def routeFor (item : StoredMessage) : MessageRoute :=
  let target := canonicalTargetParts host item
  if target.head? = some "dm" then
    { envelopeId := item.row.envelopeId, kind := "dm", dmPeer := target.getD 1 "" }
  else if target.head? = some "thread" then
    { envelopeId := item.row.envelopeId, kind := "thread", spaceId := target.getD 1 "", channelId := target.getD 2 ""
      threadRootId := target.getD 3 "" }
  else { envelopeId := item.row.envelopeId, kind := "channel", spaceId := target.getD 1 "", channelId := target.getD 2 "" }

/-- `_from_batch`, with the turn id and the planning cycle key that are given or drawn. -/
def fromBatch (turnId planningCycleKey : String) (batch : PlannedBatch) : Option PlannedTurn :=
  if batch.items.isEmpty then none
  else
    let routes := batch.items.map (routeFor host)
    let targets := firstsFrom id [] (routes.map (·.target))
    let summary := targetSummary targets batch.items.length batch.moreAvailable batch.pendingTargetProjections
    some {
      turnId := turnId
      planningCycleKey := planningCycleKey
      messageIds := batch.messageIds
      items := batch.items
      routes := routes
      targets := targets
      pendingTargets := batch.pendingTargetProjections
      targetSummary := summary
      formattedBlocks := batch.formattedMessages
      providerInput := turnPrefix summary ++ "\n".intercalate batch.formattedMessages ++ turnSuffix
      formattedTokens := batch.estimatedTokens
      wrapperOverheadTokens := estimator (turnPrefix summary ++ turnSuffix)
      formattedBytes := batch.formattedBytes
      wrapperOverheadBytes := byteSize (turnPrefix summary ++ turnSuffix)
      moreAvailable := batch.moreAvailable
      requiresEncryption := batch.items.any (·.row.isEncrypted) }

/-- The batch with the rest of the pending universe instead of the rest of what was planned. -/
def withRemaining (pendingUniverse : List StoredMessage) (batch : PlannedBatch) : PlannedBatch :=
  let remaining := firstsFrom (·.row.envelopeId) batch.messageIds pendingUniverse
  { batch with
    pendingTargetProjections := distinctTargets host remaining
    moreAvailable := ¬ remaining.isEmpty }

/-- What is charged for a planned turn is within the caps. -/
def PlannedTurn.charged (caps : Caps) (planned : PlannedTurn) : Bool :=
  planned.formattedBytes + planned.wrapperOverheadBytes ≤ caps.bytes ∧
    planned.formattedTokens + planned.wrapperOverheadTokens ≤ caps.tokens

end Wrapping
section Loop
variable {host : Host} {caps : Caps} {formatter : StoredMessage → String} {estimator : Option (String → Int)}

theorem length_selectItems {s s' : Selection} {items : List StoredMessage}
    (h : selectItems caps formatter estimator s items = .ok s') : s'.selected.length ≤ s.selected.length + items.length := by
  induction items generalizing s with
  | nil =>
    cases h
    exact Nat.le_refl _
  | cons item items ih =>
    rw [selectItems] at h
    split_ifs at h with hneg hfull hempty
    · cases h
      simp
    · cases h
      simp
    · have hrest := ih h
      simp only [Selection.push, List.length_append, List.length_singleton] at hrest
      simp only [List.length_cons]
      omega

theorem length_plan {items : List StoredMessage} {batch : PlannedBatch}
    (h : plan host caps formatter estimator items = .ok batch) : batch.items.length ≤ items.length := by
  have hunique : (uniqueItems items).length ≤ items.length := by
    rw [uniqueItems_eq]
    exact firsts_sublist.length_le
  cases hs : selectItems caps formatter estimator {} (uniqueItems items) with
  | error e =>
    rw [plan, hs] at h
    cases h
  | ok s =>
    rw [plan, hs] at h
    cases h
    have hle := length_selectItems hs
    simp only [List.length_nil, Nat.zero_add] at hle
    exact hle.trans hunique

end Loop
section Planning
variable (host : Host) (caps : Caps) (formatter : StoredMessage → String) (estimator : String → Int)
  (maxItems : Option Nat) (turnId planningCycleKey : String)

def limited (pendingUniverse : List StoredMessage) : List StoredMessage :=
  maxItems.elim pendingUniverse fun n => pendingUniverse.take n

/-- `_plan_bounded_batch`. For every unfit head, `answers` holds what is pending after it was quarantined, or nothing
where the policy or the store refuses. -/
def planBounded (answers : List (Option (List StoredMessage))) (pendingUniverse pending : List StoredMessage) :
    Except PlanError (Option PlannedTurn) :=
  if _hpending : pending = [] then .ok none
  else match _hplan : plan host caps formatter (some estimator) pending with
    | .error e => .error e
    | .ok batch =>
      if batch.unfitHeadId.any (· ≠ "") then
        match answers with
        | some changed :: answers => planBounded answers changed (limited maxItems changed)
        | _ => .ok none
      else match fromBatch host estimator turnId planningCycleKey (withRemaining host pendingUniverse batch) with
        | none => .ok none
        | some planned =>
          if planned.charged caps then .ok (some planned)
          else planBounded answers pendingUniverse (pending.take (batch.items.length - 1))
termination_by (answers.length, pending.length)
decreasing_by
  · exact Prod.Lex.left _ _ (Nat.lt_succ_self _)
  · apply Prod.Lex.right
    have hle := length_plan _hplan
    have hpos := List.length_pos_iff.2 _hpending
    rw [List.length_take]
    omega

/-- The longest leading part, each id once, within the planner's own caps. -/
def longest (pending : List StoredMessage) : List StoredMessage :=
  grow (within caps formatter (some estimator)) [] (firsts (·.row.envelopeId) pending)

/-- The leading part that is planned after `i` attempts were over the caps with their header. -/
def attempt (i : Nat) (pending : List StoredMessage) : List StoredMessage :=
  longest caps formatter estimator
    ((fun pending => pending.take ((longest caps formatter estimator pending).length - 1))^[i] pending)

def remaining (pendingUniverse items : List StoredMessage) : List StoredMessage :=
  firstsFrom (·.row.envelopeId) (items.map (·.row.envelopeId)) pendingUniverse

/-- The header of a turn of these items and its end. -/
def header (pendingUniverse items : List StoredMessage) : String :=
  turnPrefix (targetSummary (firsts id (items.map (canonicalTargetParts host))) items.length
    (¬ (remaining pendingUniverse items).isEmpty)
    (firsts id ((remaining pendingUniverse items).map (canonicalTargetParts host))))

def wrapper (pendingUniverse items : List StoredMessage) : String := header host pendingUniverse items ++ turnSuffix

/-- The bytes that are charged for a turn of these items. -/
def chargedBytes (pendingUniverse items : List StoredMessage) : Nat :=
  totalBytes formatter items + byteSize (wrapper host pendingUniverse items)

def chargedTokens (pendingUniverse items : List StoredMessage) : Int :=
  totalEstimate formatter (some estimator) items + estimator (wrapper host pendingUniverse items)

def Charged (pendingUniverse items : List StoredMessage) : Prop :=
  chargedBytes host formatter pendingUniverse items ≤ caps.bytes ∧
    chargedTokens host formatter estimator pendingUniverse items ≤ caps.tokens

/-- The first attempt whose charge is within the caps is as `Q` says. -/
def SettlesOn (Q : List StoredMessage → List StoredMessage → Prop) (pendingUniverse pending : List StoredMessage) : Prop :=
  ∀ i, attempt caps formatter estimator i pending ≠ [] →
    Charged host caps formatter estimator pendingUniverse (attempt caps formatter estimator i pending) →
      (∀ j < i, ¬ Charged host caps formatter estimator pendingUniverse (attempt caps formatter estimator j pending)) →
        Q pendingUniverse (attempt caps formatter estimator i pending)

/-- The head is more than the planner's own caps, so that it can be quarantined. -/
def HeadUnfit (pending : List StoredMessage) : Prop :=
  longest caps formatter estimator pending = [] ∧ pending.head?.any (·.row.envelopeId ≠ "") = true

/-- What is settled on is as `Q` says, now and after every head that is quarantined. -/
def Settles (Q : List StoredMessage → List StoredMessage → Prop) :
    List (Option (List StoredMessage)) → List StoredMessage → List StoredMessage → Prop
  | [], pendingUniverse, pending => SettlesOn host caps formatter estimator Q pendingUniverse pending
  | answer :: answers, pendingUniverse, pending =>
    SettlesOn host caps formatter estimator Q pendingUniverse pending ∧
      (HeadUnfit caps formatter estimator pending → ∀ changed, answer = some changed →
        Settles Q answers changed (limited maxItems changed))

/-- The turn that is planned of these items. -/
def turnOf (pendingUniverse items : List StoredMessage) : PlannedTurn where
  turnId := turnId
  planningCycleKey := planningCycleKey
  messageIds := items.map (·.row.envelopeId)
  items := items
  routes := items.map (routeFor host)
  targets := firsts id (items.map (canonicalTargetParts host))
  pendingTargets := firsts id ((remaining pendingUniverse items).map (canonicalTargetParts host))
  targetSummary := targetSummary (firsts id (items.map (canonicalTargetParts host))) items.length
    (¬ (remaining pendingUniverse items).isEmpty)
    (firsts id ((remaining pendingUniverse items).map (canonicalTargetParts host)))
  formattedBlocks := items.map formatter
  providerInput := header host pendingUniverse items ++ "\n".intercalate (items.map formatter) ++ turnSuffix
  formattedTokens := totalEstimate formatter (some estimator) items
  wrapperOverheadTokens := estimator (wrapper host pendingUniverse items)
  formattedBytes := totalBytes formatter items
  wrapperOverheadBytes := byteSize (wrapper host pendingUniverse items)
  moreAvailable := ¬ (remaining pendingUniverse items).isEmpty
  requiresEncryption := items.any (·.row.isEncrypted)

end Planning
section Settling
variable {host : Host} {caps : Caps} {formatter : StoredMessage → String} {estimator : String → Int}
  {maxItems : Option Nat} {turnId planningCycleKey : String} {pendingUniverse pending items : List StoredMessage}

theorem target_routeFor {item : StoredMessage} : (routeFor host item).target = canonicalTargetParts host item := by
  unfold routeFor canonicalTargetParts
  by_cases hdm : item.row.envelopeKind = "dm"
  · simp [hdm, MessageRoute.target]
  · by_cases hroot : effectiveThreadRoot host item "" = "" <;> simp [hdm, hroot, MessageRoute.target]

theorem fromBatch_withRemaining {batch : PlannedBatch}
    (h : Plans host caps formatter (some estimator) (firsts (·.row.envelopeId) pending) batch) :
    fromBatch host estimator turnId planningCycleKey (withRemaining host pendingUniverse batch) =
      if batch.items = [] then none
      else some (turnOf host formatter estimator turnId planningCycleKey pendingUniverse batch.items) := by
  by_cases hempty : batch.items = []
  · rw [if_pos hempty, fromBatch, withRemaining, if_pos (by simp [hempty])]
  · have htargets : (fun item => (routeFor host item).target) = canonicalTargetParts host := funext fun _ => target_routeFor
    rw [if_neg hempty, fromBatch, withRemaining, if_neg (by simpa using hempty)]
    simp only [turnOf, remaining, header, wrapper, distinctTargets, firstsFrom_nil, List.map_map, Function.comp_def, htargets,
      h.ids, h.formatted, h.tokens, h.bytes]
    rfl

/-- What the runtime plans of a list is settled by the longest part within the planner's own caps. -/
theorem plan_longest (hest : ∀ s, 0 ≤ estimator s) : ∃ batch,
    plan host caps formatter (some estimator) pending = .ok batch ∧
      Plans host caps formatter (some estimator) (firsts (·.row.envelopeId) pending) batch ∧
        batch.items = longest caps formatter estimator pending := by
  have hnonneg : ∀ s, 0 ≤ estimate (some estimator) s := hest
  obtain ⟨batch, hplan, hspec⟩ := @plan_spec host caps formatter (some estimator) pending hnonneg
  have hgrow := @longest_grow _ (within caps formatter (some estimator)) [] (firsts (·.row.envelopeId) pending)
    (fun _ _ => within_of_prefix hnonneg) (by simp [within, totalEstimate, totalBytes])
  exact ⟨batch, hplan, hspec, hspec.longest.unique hgrow⟩

/-- A turn is planned under the ids that are given. -/
theorem ids_planBounded {answers : List (Option (List StoredMessage))} {planned : PlannedTurn}
    (h : planBounded host caps formatter estimator maxItems turnId planningCycleKey answers pendingUniverse pending =
      .ok (some planned)) : planned.turnId = turnId ∧ planned.planningCycleKey = planningCycleKey := by
  fun_induction planBounded host caps formatter estimator maxItems turnId planningCycleKey answers pendingUniverse pending with
  | case1 => cases h
  | case2 => cases h
  | case3 _ _ _ _ _ _ _ _ ih => exact ih h
  | case4 => cases h
  | case5 => cases h
  | case6 answers pendingUniverse pending hpending batch hplan hfit found hfound hcharged =>
    cases h
    rw [fromBatch] at hfound
    split at hfound
    · cases hfound
    · cases hfound
      exact ⟨rfl, rfl⟩
  | case7 _ _ _ _ _ _ _ _ _ _ ih => exact ih h

/-- One round of the planning. -/
theorem planBounded_eq (hest : ∀ s, 0 ≤ estimator s) {answers : List (Option (List StoredMessage))} :
    planBounded host caps formatter estimator maxItems turnId planningCycleKey answers pendingUniverse pending =
      if longest caps formatter estimator pending = [] then
        if pending.head?.any (·.row.envelopeId ≠ "") = true then
          match answers with
          | some changed :: answers =>
            planBounded host caps formatter estimator maxItems turnId planningCycleKey answers changed (limited maxItems changed)
          | _ => .ok none
        else .ok none
      else if (turnOf host formatter estimator turnId planningCycleKey pendingUniverse
          (longest caps formatter estimator pending)).charged caps then
        .ok (some (turnOf host formatter estimator turnId planningCycleKey pendingUniverse
          (longest caps formatter estimator pending)))
      else planBounded host caps formatter estimator maxItems turnId planningCycleKey answers pendingUniverse
        (pending.take ((longest caps formatter estimator pending).length - 1)) := by
  by_cases hpending : pending = []
  · subst hpending
    rw [planBounded.eq_def, dif_pos rfl]
    rfl
  obtain ⟨batch, hplan, hspec, hitems⟩ := @plan_longest host caps formatter estimator pending hest
  have hfirsts : firsts (·.row.envelopeId) pending ≠ [] := firsts_ne_nil _ hpending
  rw [planBounded.eq_def, dif_neg hpending]
  split
  · rename_i e he
    rw [hplan] at he
    cases he
  · rename_i found hfound
    rw [hplan] at hfound
    cases hfound
    rw [← hitems, fromBatch_withRemaining hspec]
    by_cases hempty : batch.items = []
    · obtain ⟨id, hid⟩ := Option.isSome_iff_exists.1 (hspec.unfit.2 ⟨hfirsts, hempty⟩)
      obtain ⟨m, rest, hcons, rfl⟩ := hspec.head id hid
      have hhead : pending.head? = some m := by rw [← head?_firsts (·.row.envelopeId), hcons]; rfl
      rw [if_pos hempty, if_pos hempty, hid, hhead]
      simp only [Option.any_some]
    · have hfit : batch.unfitHeadId = none := by
        rw [← Option.not_isSome_iff_eq_none, hspec.unfit]
        exact fun hunfit => hempty hunfit.2
      rw [if_neg hempty, if_neg hempty, hfit]
      simp only [Option.any_none, Bool.false_eq_true, if_false]

theorem charged_turnOf : (turnOf host formatter estimator turnId planningCycleKey pendingUniverse items).charged caps = true ↔
    Charged host caps formatter estimator pendingUniverse items := by
  simp only [PlannedTurn.charged, decide_eq_true_eq]
  simp only [turnOf, Charged, chargedBytes, chargedTokens]

theorem attempt_succ (i : Nat) : attempt caps formatter estimator (i + 1) pending =
    attempt caps formatter estimator i (pending.take ((longest caps formatter estimator pending).length - 1)) := rfl

theorem attempt_of_longest_nil (h : longest caps formatter estimator pending = []) (i : Nat) :
    attempt caps formatter estimator i pending = [] := by
  induction i generalizing pending with
  | zero => exact h
  | succ i ih =>
    rw [attempt_succ, h]
    exact ih rfl

variable {Q : List StoredMessage → List StoredMessage → Prop}

theorem settlesOn_nil (h : longest caps formatter estimator pending = []) :
    SettlesOn host caps formatter estimator Q pendingUniverse pending :=
  fun i hne => absurd (attempt_of_longest_nil h i) hne

theorem settlesOn_charged (h : longest caps formatter estimator pending ≠ [])
    (hc : Charged host caps formatter estimator pendingUniverse (longest caps formatter estimator pending)) :
    SettlesOn host caps formatter estimator Q pendingUniverse pending ↔
      Q pendingUniverse (longest caps formatter estimator pending) := by
  constructor
  · intro hs
    exact hs 0 h hc fun j hj => absurd hj (Nat.not_lt_zero j)
  · intro hQ i _ _ hfirst
    cases i with
    | zero => exact hQ
    | succ i => exact absurd hc (hfirst 0 (Nat.succ_pos i))

theorem settlesOn_shrunk
    (hc : ¬ Charged host caps formatter estimator pendingUniverse (longest caps formatter estimator pending)) :
    SettlesOn host caps formatter estimator Q pendingUniverse pending ↔ SettlesOn host caps formatter estimator Q
      pendingUniverse (pending.take ((longest caps formatter estimator pending).length - 1)) := by
  constructor
  · intro hs i hne hi hfirst
    refine hs (i + 1) hne hi fun j hj => ?_
    cases j with
    | zero => exact hc
    | succ j => exact hfirst j (Nat.lt_of_succ_lt_succ hj)
  · intro hs i hne hi hfirst
    cases i with
    | zero => exact absurd hi hc
    | succ i => exact hs i hne hi fun j hj => hfirst (j + 1) (Nat.succ_lt_succ hj)

theorem longest_spec (hest : ∀ s, 0 ≤ estimator s) : Longest (within caps formatter (some estimator))
    (firsts (·.row.envelopeId) pending) (longest caps formatter estimator pending) := by
  obtain ⟨batch, -, hspec, hitems⟩ := @plan_longest asciiHost caps formatter estimator pending hest
  exact hitems ▸ hspec.longest

/-- A head that fits still fits when the list is shrunk. -/
theorem not_headUnfit_take (hest : ∀ s, 0 ≤ estimator s) (h : longest caps formatter estimator pending ≠ []) (n : Nat) :
    ¬ HeadUnfit caps formatter estimator (pending.take n) := by
  rintro ⟨hnil, hhead⟩
  have hnonneg : ∀ s, 0 ≤ estimate (some estimator) s := hest
  obtain ⟨a, rest, hcons⟩ := List.exists_cons_of_ne_nil h
  obtain ⟨hleading, hwithin, -⟩ := @longest_spec caps formatter estimator pending hest
  rw [hcons] at hleading hwithin
  have hfits : within caps formatter (some estimator) [a] = true := within_of_prefix hnonneg ⟨rest, rfl⟩ hwithin
  obtain ⟨tail, htail⟩ := hleading
  have hfirst : pending.head? = some a := by rw [← head?_firsts (·.row.envelopeId), ← htail]; rfl
  cases hshrunk : pending.take n with
  | nil =>
    rw [hshrunk] at hhead
    cases hhead
  | cons b more =>
    have hb : b = a := by
      have hle : pending.take n <+: pending := List.take_prefix _ _
      rw [hshrunk] at hle
      obtain ⟨after, hafter⟩ := hle
      rw [← hafter] at hfirst
      exact Option.some.inj hfirst
    have hlongest := (@longest_spec caps formatter estimator (pending.take n) hest).2.2 [a]
      (by rw [hshrunk, hb]; exact ⟨_, rfl⟩) hfits
    rw [hnil] at hlongest
    exact absurd (List.prefix_nil.1 hlongest) (List.cons_ne_nil _ _)

/-- Every turn that is planned before the next head is quarantined is as `R` says if and only if the turn of what is
settled on is. -/
theorem planned_iff_round (hest : ∀ s, 0 ≤ estimator s) (R : PlannedTurn → Prop)
    (answers : List (Option (List StoredMessage))) :
    (∀ planned, planBounded host caps formatter estimator maxItems turnId planningCycleKey answers pendingUniverse pending =
        .ok (some planned) → R planned) ↔
      SettlesOn host caps formatter estimator
        (fun pendingUniverse items => R (turnOf host formatter estimator turnId planningCycleKey pendingUniverse items))
        pendingUniverse pending ∧
      (HeadUnfit caps formatter estimator pending → ∀ changed rest, answers = some changed :: rest → ∀ planned,
        planBounded host caps formatter estimator maxItems turnId planningCycleKey rest changed (limited maxItems changed) =
          .ok (some planned) → R planned) := by
  induction hn : pending.length using Nat.strong_induction_on generalizing pending with
  | _ n ih =>
    rw [planBounded_eq hest]
    by_cases hlongest : longest caps formatter estimator pending = []
    · rw [if_pos hlongest]
      by_cases hhead : pending.head?.any (·.row.envelopeId ≠ "") = true
      · rw [if_pos hhead]
        split
        · rename_i changed rest
          constructor
          · intro h
            refine ⟨settlesOn_nil hlongest, ?_⟩
            rintro - _ _ ⟨⟩
            exact h
          · rintro ⟨-, h⟩
            exact h ⟨hlongest, hhead⟩ changed rest rfl
        · rename_i hanswers
          refine ⟨fun _ => ⟨settlesOn_nil hlongest, ?_⟩, fun _ _ h => by cases h⟩
          intro _ changed rest he
          exact absurd he (hanswers changed rest)
      · rw [if_neg hhead]
        exact ⟨fun _ => ⟨settlesOn_nil hlongest, fun hunfit => absurd hunfit.2 hhead⟩, fun _ _ h => by cases h⟩
    · rw [if_neg hlongest]
      by_cases hc : Charged host caps formatter estimator pendingUniverse (longest caps formatter estimator pending)
      · rw [if_pos (charged_turnOf.2 hc), settlesOn_charged hlongest hc]
        constructor
        · intro h
          exact ⟨h _ rfl, fun hunfit => absurd hunfit.1 hlongest⟩
        · rintro ⟨h, -⟩ _ ⟨⟩
          exact h
      · have hpending : pending ≠ [] := by
          rintro rfl
          exact hlongest rfl
        have hle := ((@longest_spec caps formatter estimator pending hest).1.length_le).trans firsts_sublist.length_le
        have hpos := List.length_pos_iff.2 hpending
        rw [if_neg (mt charged_turnOf.1 hc), settlesOn_shrunk hc, ih _ (by rw [List.length_take]; omega) rfl]
        refine and_congr_right fun _ => ⟨fun _ hunfit => absurd hunfit.1 hlongest, fun _ hunfit => ?_⟩
        exact absurd hunfit (not_headUnfit_take hest hlongest _)

/-- Every turn that is planned is as `R` says if and only if the turns of what is settled on are. -/
theorem planned_iff_settles (hest : ∀ s, 0 ≤ estimator s) (R : PlannedTurn → Prop)
    (answers : List (Option (List StoredMessage))) (pendingUniverse pending : List StoredMessage) :
    (∀ planned, planBounded host caps formatter estimator maxItems turnId planningCycleKey answers pendingUniverse pending =
        .ok (some planned) → R planned) ↔
      Settles host caps formatter estimator maxItems
        (fun pendingUniverse items => R (turnOf host formatter estimator turnId planningCycleKey pendingUniverse items))
        answers pendingUniverse pending := by
  induction answers generalizing pendingUniverse pending with
  | nil =>
    rw [planned_iff_round hest, Settles]
    refine ⟨fun h => h.1, fun h => ⟨h, ?_⟩⟩
    rintro - _ _ ⟨⟩
  | cons answer answers ih =>
    rw [planned_iff_round hest, Settles]
    refine and_congr_right fun _ => forall_congr' fun _ => ?_
    constructor
    · rintro h changed rfl
      exact (ih changed _).1 (h changed answers rfl)
    · rintro h changed rest ⟨rfl, rfl⟩
      exact (ih changed _).2 (h changed rfl)

/-- The separators between the messages are in the input, and nothing is charged for them. -/
theorem byteSize_providerInput :
    byteSize (turnOf host formatter estimator turnId planningCycleKey pendingUniverse items).providerInput =
      chargedBytes host formatter pendingUniverse items + (items.length - 1) := by
  have hseparator : byteSize "\n" = 1 := rfl
  have htotal : (items.map fun m => byteSize (formatter m)).sum = totalBytes formatter items := rfl
  simp only [turnOf, chargedBytes, wrapper, byteSize_append, byteSize_intercalate, List.map_map, Function.comp_def,
    List.length_map, hseparator, htotal, Nat.mul_one]
  omega

theorem bytes_within_iff (hest : ∀ s, 0 ≤ estimator s) (answers : List (Option (List StoredMessage)))
    (pendingUniverse pending : List StoredMessage) :
    (∀ planned, planBounded host caps formatter estimator maxItems turnId planningCycleKey answers pendingUniverse pending =
        .ok (some planned) → byteSize planned.providerInput ≤ caps.bytes) ↔
      Settles host caps formatter estimator maxItems (fun pendingUniverse items =>
        chargedBytes host formatter pendingUniverse items + (items.length - 1) ≤ caps.bytes) answers pendingUniverse pending := by
  have hsettles := @planned_iff_settles host caps formatter estimator maxItems turnId planningCycleKey hest
    (fun planned => byteSize planned.providerInput ≤ caps.bytes) answers pendingUniverse pending
  simpa only [byteSize_providerInput] using hsettles

theorem conservative_nonneg (s : String) : 0 ≤ conservativeTokenEstimate s := Int.natCast_nonneg _

theorem conservative_within_iff (answers : List (Option (List StoredMessage))) (pendingUniverse pending : List StoredMessage) :
    (∀ planned, planBounded host caps formatter conservativeTokenEstimate maxItems turnId planningCycleKey answers
          pendingUniverse pending = .ok (some planned) →
        byteSize planned.providerInput ≤ caps.bytes ∧ conservativeTokenEstimate planned.providerInput ≤ caps.tokens) ↔
      Settles host caps formatter conservativeTokenEstimate maxItems (fun pendingUniverse items =>
        chargedBytes host formatter pendingUniverse items + (items.length - 1) ≤ caps.bytes ∧
          chargedBytes host formatter pendingUniverse items + (items.length - 1) ≤ caps.tokens)
        answers pendingUniverse pending := by
  have hsettles := @planned_iff_settles host caps formatter conservativeTokenEstimate maxItems turnId planningCycleKey
    conservative_nonneg (fun planned => byteSize planned.providerInput ≤ caps.bytes ∧
      conservativeTokenEstimate planned.providerInput ≤ caps.tokens) answers pendingUniverse pending
  simpa only [conservativeTokenEstimate, byteSize_providerInput, Int.ofNat_le] using hsettles

/-- The input of every turn is within the caps if and only if what is settled on leaves one byte, and with the estimator of
the runtime one token, for every message after the first. -/
theorem providerInput_within_iff (host : Host) (caps : Caps) (formatter : StoredMessage → String) (estimator : String → Int)
    (hest : ∀ s, 0 ≤ estimator s) (maxItems : Option Nat) (turnId planningCycleKey : String)
    (answers : List (Option (List StoredMessage))) (pendingUniverse pending : List StoredMessage) :
    ((∀ planned, planBounded host caps formatter estimator maxItems turnId planningCycleKey answers pendingUniverse pending =
        .ok (some planned) → byteSize planned.providerInput ≤ caps.bytes) ↔
      Settles host caps formatter estimator maxItems (fun pendingUniverse items =>
        chargedBytes host formatter pendingUniverse items + (items.length - 1) ≤ caps.bytes) answers pendingUniverse pending) ∧
    ((∀ planned, planBounded host caps formatter conservativeTokenEstimate maxItems turnId planningCycleKey answers
          pendingUniverse pending = .ok (some planned) →
        byteSize planned.providerInput ≤ caps.bytes ∧ conservativeTokenEstimate planned.providerInput ≤ caps.tokens) ↔
      Settles host caps formatter conservativeTokenEstimate maxItems (fun pendingUniverse items =>
        chargedBytes host formatter pendingUniverse items + (items.length - 1) ≤ caps.bytes ∧
          chargedBytes host formatter pendingUniverse items + (items.length - 1) ≤ caps.tokens)
        answers pendingUniverse pending) :=
  ⟨bytes_within_iff hest answers pendingUniverse pending, conservative_within_iff answers pendingUniverse pending⟩

theorem totalEstimate_conservative :
    totalEstimate formatter (some conservativeTokenEstimate) items = totalBytes formatter items := by
  induction items with
  | nil => rfl
  | cons item items ih =>
    simp only [totalEstimate, totalBytes, List.map_cons, List.sum_cons, Int.natCast_add] at ih ⊢
    rw [ih]
    rfl

theorem chargedTokens_conservative : chargedTokens host formatter conservativeTokenEstimate pendingUniverse items =
    chargedBytes host formatter pendingUniverse items := by
  rw [chargedTokens, totalEstimate_conservative, conservativeTokenEstimate, chargedBytes, Int.natCast_add]

end Settling
section Overrun

/-- A host whose clock knows the time at which the messages were sent. -/
def timedHost : Host := { asciiHost with isoTime := fun _ => "1970-01-01T00:00:00.001Z" }

/-- The formatter of the runtime, on messages that it does not refuse. -/
def formatPlain (m : StoredMessage) : String := (formatStoredMessage timedHost [] m).toOption.getD ""

/-- The row of a pending direct message. -/
def queuedFacts (id text : String) : MessageFacts where
  seq := some 1
  sentAt := "1970-01-01T00:00:00.001Z"
  messageId := id
  senderIdentity := "@ann"
  senderType := "unknown"
  self := false
  encrypted := false
  displayName := ""
  ownerSlug := ""
  humanVisible := none
  attachmentPaths := []
  mentions := []
  replyCount := none
  uncoveredRedelivery := false
  threadRootUnverified := false
  text := text

theorem messageFacts_queued (id text : String) : messageFacts timedHost [] (queuedMessage id text) none =
    .ok (queuedFacts id (timedHost.text (some (.str text)))) := by
  have hstated : statedType (queuedMessage id text) = .str "" := rfl
  have hinferred : inferredType timedHost [] (queuedMessage id text) = inferredType timedHost [] (queuedMessage "m1" "") := rfl
  have htype : inferredType timedHost [] (queuedMessage "m1" "") = "unknown" := by decide
  have hsender : senderType timedHost [] (queuedMessage id text) = .ok "unknown" := by
    rw [senderType_stated hstated, if_neg (by decide), hinferred, htype]
  have hauthor : author (queuedMessage id text) = "ann" := show lstrip '@' "@ann" = "ann" by decide
  have hself : isAlias timedHost [] "ann" = false := by decide
  rw [messageFacts, hsender]
  simp only [bind, Except.bind, pure, Except.pure, queuedFacts, hauthor, hself]
  rfl

theorem formatPlain_queued (id text : String) : formatPlain (queuedMessage id text) =
    "\n".intercalate ["## " ++ targetLabel timedHost [] (queuedMessage "m1" "") "",
      (queuedFacts id (timedHost.text (some (.str text)))).render] := by
  have hroot : ∀ id text, effectiveThreadRoot timedHost (queuedMessage id text) "" = "" := by
    intro id text
    simp [effectiveThreadRoot, queuedMessage]
  have htarget : targetLabel timedHost [] (queuedMessage id text) "" = targetLabel timedHost [] (queuedMessage "m1" "") "" := by
    rw [targetLabel, targetLabel, hroot, hroot]
    rfl
  rw [formatPlain, formatStoredMessage, formatMessageGroup, groupLines, formatMessageRow, projectRow_message rfl none,
    messageFacts_queued, htarget]
  rfl

def filler (n : Nat) : String := String.ofList (List.replicate n 'x')

theorem byteSize_filler (n : Nat) : byteSize (filler n) = n := by
  simp only [byteSize, filler, String.toList_ofList]
  induction n with
  | zero => rfl
  | succ n ih =>
    have hx : (String.utf8EncodeChar 'x').length = 1 := rfl
    change (String.utf8EncodeChar 'x' ++ encodeUtf8 (List.replicate n 'x')).length = n + 1
    rw [List.length_append, ih, hx]
    omega

theorem byteSize_contentField_filler (n : Nat) : byteSize (contentField (filler n)) = n + 10 := by
  have hlist : (filler n).toList = List.replicate n 'x' := String.toList_ofList
  have hescape : escapeWith Json.escapeChar (filler n) = filler n := by
    apply escapeWith_eq_self
    intro c hc
    rw [hlist] at hc
    rw [(List.mem_replicate.1 hc).2]
    rfl
  have hmarkup : escapeWith markupChar ("\"" ++ filler n ++ "\"") = "\"" ++ filler n ++ "\"" := by
    apply escapeWith_eq_self
    intro c hc
    rw [String.toList_append, String.toList_append, hlist] at hc
    rcases List.mem_append.1 hc with hc | hc
    · rcases List.mem_append.1 hc with hc | hc
      · rw [List.mem_singleton.1 hc]
        rfl
      · rw [(List.mem_replicate.1 hc).2]
        rfl
    · rw [List.mem_singleton.1 hc]
      rfl
  have hquote : byteSize "\"" = 1 := rfl
  have hname : byteSize ("content" ++ "=") = 8 := rfl
  rw [contentField, field, json, Json.dumps, Json.dumpsWith, Json.quoteWith, hescape, hmarkup]
  simp only [byteSize_append, hquote, byteSize_filler] at hname ⊢
  omega

/-- The formatted bytes of a message of `n` plain characters. -/
theorem byteSize_formatPlain_filler {id : String} (hid : byteSize (" ".intercalate (queuedFacts id "").fields) = 146)
    (n : Nat) (h : 0 < n) : byteSize (formatPlain (queuedMessage id (filler n))) = n + 254 := by
  have hne : filler n ≠ "" := by
    intro he
    have hsize := byteSize_filler n
    rw [he, byteSize_empty] at hsize
    omega
  have htext : timedHost.text (some (.str (filler n))) = filler n := by
    rw [Host.text, Json.truthy, if_pos (by simpa using hne), timedHost.str_str]
  have hlabel : byteSize ("## " ++ targetLabel timedHost [] (queuedMessage "m1" "") "") = 86 := by decide +kernel
  have hfields : byteSize (" ".intercalate (queuedFacts id (filler n)).fields) = 146 := hid
  have hopen : byteSize "[message " = 9 := rfl
  have hclose : byteSize "]\n" = 2 := rfl
  have hseparator : byteSize "\n" = 1 := rfl
  rw [formatPlain_queued, htext, byteSize_intercalate]
  simp only [List.map_cons, List.map_nil, List.sum_cons, List.sum_nil, List.length_cons, List.length_nil, hlabel,
    MessageFacts.render, byteSize_append, hfields, hopen, hclose, hseparator]
  rw [show (queuedFacts id (filler n)).text = filler n from rfl, byteSize_contentField_filler]
  omega

/-- Two pending messages. -/
def twoQueued (text : String) : List StoredMessage := [queuedMessage "m1" text, queuedMessage "m2" (filler 5)]

theorem firsts_twoQueued (text : String) : firsts (·.row.envelopeId) (twoQueued text) = twoQueued text :=
  firsts_of_nodup (show List.Nodup ["m1", "m2"] by decide)

theorem totalBytes_twoQueued (n : Nat) (h : 0 < n) : totalBytes formatPlain (twoQueued (filler n)) = n + 513 := by
  have hfirst := @byteSize_formatPlain_filler "m1" (by decide +kernel) n h
  have hsecond := @byteSize_formatPlain_filler "m2" (by decide +kernel) 5 (by omega)
  simp only [totalBytes, twoQueued, List.map_cons, List.map_nil, List.sum_cons, List.sum_nil, hfirst, hsecond]
  omega

theorem byteSize_wrapper_twoQueued (text : String) :
    byteSize (wrapper timedHost (twoQueued text) (twoQueued text)) = 141 := by
  have hwrapper : wrapper timedHost (twoQueued text) (twoQueued text) = wrapper timedHost (twoQueued "") (twoQueued "") := rfl
  rw [hwrapper]
  decide +kernel

theorem longest_twoQueued (n : Nat) (h : 0 < n) (hn : n + 513 ≤ 32000) :
    longest standardCaps formatPlain conservativeTokenEstimate (twoQueued (filler n)) = twoQueued (filler n) := by
  have hall : within standardCaps formatPlain (some conservativeTokenEstimate) (twoQueued (filler n)) = true := by
    simp only [within, totalEstimate_conservative, totalBytes_twoQueued n h, standardCaps, decide_eq_true_eq]
    have hlength : (twoQueued (filler n)).length = 2 := rfl
    omega
  have hlongest := @longest_spec standardCaps formatPlain conservativeTokenEstimate (twoQueued (filler n))
    fun _ => Int.natCast_nonneg _
  rw [firsts_twoQueued] at hlongest
  exact hlongest.1.eq_of_length_le (hlongest.2.2 _ (List.prefix_refl _) hall).length_le

theorem chargedBytes_twoQueued (n : Nat) (h : 0 < n) :
    chargedBytes timedHost formatPlain (twoQueued (filler n)) (twoQueued (filler n)) = n + 654 := by
  rw [chargedBytes, totalBytes_twoQueued n h, byteSize_wrapper_twoQueued]

/-- Both messages are settled on, where their charge is within the caps. -/
theorem settles_twoQueued {n : Nat} (h : 0 < n) (hn : n + 654 ≤ 32000)
    {Q : List StoredMessage → List StoredMessage → Prop} :
    Settles timedHost standardCaps formatPlain conservativeTokenEstimate none Q [] (twoQueued (filler n))
      (twoQueued (filler n)) ↔ Q (twoQueued (filler n)) (twoQueued (filler n)) := by
  have hlongest := longest_twoQueued n h (by omega)
  have hcharged : Charged timedHost standardCaps formatPlain conservativeTokenEstimate (twoQueued (filler n))
      (longest standardCaps formatPlain conservativeTokenEstimate (twoQueued (filler n))) := by
    rw [hlongest, Charged, chargedTokens_conservative, chargedBytes_twoQueued n h]
    simp only [standardCaps]
    omega
  have hsome : longest standardCaps formatPlain conservativeTokenEstimate (twoQueued (filler n)) ≠ [] := by
    rw [hlongest]
    exact List.cons_ne_nil _ _
  rw [Settles, settlesOn_charged hsome hcharged, hlongest]

/-- The two messages are accepted with all the tokens of the cap, and their input is one over it. -/
theorem providerInput_exceeds_cap : ¬ ∀ planned, planBounded timedHost standardCaps formatPlain conservativeTokenEstimate none
      "turn_1" "plan_1" [] (twoQueued (filler 31346)) (twoQueued (filler 31346)) = .ok (some planned) →
    byteSize planned.providerInput ≤ standardCaps.bytes ∧
      conservativeTokenEstimate planned.providerInput ≤ standardCaps.tokens := by
  rw [conservative_within_iff, settles_twoQueued (by omega) (by omega), chargedBytes_twoQueued _ (by omega)]
  decide

/-- With one byte less there is room for the separator. -/
theorem providerInput_within_iff_two : ∃ planned, planBounded timedHost standardCaps formatPlain conservativeTokenEstimate
      none "turn_1" "plan_1" [] (twoQueued (filler 31345)) (twoQueued (filler 31345)) = .ok (some planned) ∧
    byteSize planned.providerInput ≤ standardCaps.bytes ∧
      conservativeTokenEstimate planned.providerInput ≤ standardCaps.tokens := by
  have hwithin := (providerInput_within_iff timedHost standardCaps formatPlain conservativeTokenEstimate
    conservative_nonneg none "turn_1" "plan_1" [] (twoQueued (filler 31345)) (twoQueued (filler 31345))).2.mpr (by
      rw [settles_twoQueued (by omega) (by omega), chargedBytes_twoQueued _ (by omega)]
      decide)
  have hplanned : ¬ ∀ planned, planBounded timedHost standardCaps formatPlain conservativeTokenEstimate
      none "turn_1" "plan_1" [] (twoQueued (filler 31345)) (twoQueued (filler 31345)) = .ok (some planned) → False := by
    rw [planned_iff_settles conservative_nonneg, settles_twoQueued (by omega) (by omega)]
    exact id
  simp only [imp_false, not_forall, not_not] at hplanned
  obtain ⟨planned, hp⟩ := hplanned
  exact ⟨planned, hp, hwithin planned hp⟩

end Overrun
end PuffoAgent.Inbox
