import PuffoAgent.Projection.Message
import PuffoAgent.Text.Editing
import PuffoAgent.Sequences.Greedy
import Mathlib.Algebra.BigOperators.Group.List.Basic
import Mathlib.Algebra.GroupWithZero.Nat
import Mathlib.Algebra.Ring.Int.Defs

/-! The planner of a batch of pending messages: the longest leading part of the queue within its three caps. -/
namespace PuffoAgent.Inbox
open Text Projection Sequences

section Planning

/-- `canonical_target_parts`. -/
def canonicalTargetParts (host : Host) (m : StoredMessage) : List String :=
  if m.row.envelopeKind = "dm" then
    ["dm", if m.row.senderSlug ≠ "" then m.row.senderSlug else m.row.recipientSlug.getD ""]
  else
    let root := effectiveThreadRoot host m ""
    if root ≠ "" then ["thread", m.row.spaceId.getD "", m.row.channelId.getD "", root]
    else ["channel", m.row.spaceId.getD "", m.row.channelId.getD ""]

structure Caps where
  messages : Nat
  tokens : Nat
  bytes : Nat

/-- `MAX_MESSAGES`, `MAX_ESTIMATED_TOKENS` and `MAX_FORMATTED_BYTES`. -/
def standardCaps : Caps := ⟨50, 32000, 96000⟩

structure PlannedBatch where
  items : List StoredMessage
  messageIds : List String
  formattedMessages : List String
  targetProjections : List (List String)
  pendingTargetProjections : List (List String)
  estimatedTokens : Int
  formattedBytes : Nat
  moreAvailable : Bool
  unfitHeadId : Option String
  unfitReason : Option String

inductive PlanError
  | valueError (message : String)
  deriving DecidableEq

/-- What is selected so far, and the head that does not fit. -/
structure Selection where
  selected : List StoredMessage := []
  formattedSelected : List String := []
  tokens : Int := 0
  byteCount : Nat := 0
  unfit : Option (String × String) := none

variable (host : Host) (caps : Caps) (formatter : StoredMessage → String) (estimator : Option (String → Int))

def estimate (formatted : String) : Int := estimator.elim (max 1 (byteSize formatted) : Nat) fun f => f formatted

def capReasons (s : Selection) (formatted : String) : List String :=
  (if s.selected.length + 1 > caps.messages then ["message count cap"] else []) ++
    (if s.tokens + estimate estimator formatted > caps.tokens then ["estimated token cap"] else []) ++
    (if s.byteCount + byteSize formatted > caps.bytes then ["formatted byte cap"] else [])

def Selection.push (s : Selection) (item : StoredMessage) (formatted : String) : Selection where
  selected := s.selected ++ [item]
  formattedSelected := s.formattedSelected ++ [formatted]
  tokens := s.tokens + estimate estimator formatted
  byteCount := s.byteCount + byteSize formatted
  unfit := s.unfit

/-- The loop over the items. It stops at the first that does not fit. -/
def selectItems (s : Selection) : List StoredMessage → Except PlanError Selection
  | [] => .ok s
  | item :: items =>
    if estimate estimator (formatter item) < 0 then
      .error (.valueError "estimator must return a non-negative integer")
    else if capReasons caps estimator s (formatter item) ≠ [] then
      .ok (if s.selected.isEmpty then
        { s with unfit := some (item.row.envelopeId, ", ".intercalate (capReasons caps estimator s (formatter item))) }
      else s)
    else selectItems (s.push estimator item (formatter item)) items

/-- `items` without those of an id that was seen before. -/
def uniqueItems (items : List StoredMessage) : List StoredMessage := firstsFrom (·.row.envelopeId) [] items

def distinctTargets (items : List StoredMessage) : List (List String) :=
  firstsFrom id [] (items.map (canonicalTargetParts host))

/-- `InboxPlanner.plan`. -/
def plan (items : List StoredMessage) : Except PlanError PlannedBatch :=
  (selectItems caps formatter estimator {} (uniqueItems items)).map fun s => {
    items := s.selected
    messageIds := s.selected.map (·.row.envelopeId)
    formattedMessages := s.formattedSelected
    targetProjections := distinctTargets host s.selected
    pendingTargetProjections := distinctTargets host ((uniqueItems items).drop s.selected.length)
    estimatedTokens := s.tokens
    formattedBytes := s.byteCount
    moreAvailable := s.selected.length < (uniqueItems items).length
    unfitHeadId := s.unfit.map Prod.fst
    unfitReason := s.unfit.map Prod.snd }

def leftOut (items : List StoredMessage) (batch : PlannedBatch) : List StoredMessage :=
  (uniqueItems items).drop batch.items.length

/-- What is selected by planning again and again what was left out, as long as no head is unfit, and what is left then. -/
def planAgain : Nat → List StoredMessage → Except PlanError (List StoredMessage × List StoredMessage)
  | 0, items => .ok ([], uniqueItems items)
  | n + 1, items =>
    match plan host caps formatter estimator items with
    | .error e => .error e
    | .ok batch =>
      if batch.unfitHeadId.isSome then .ok ([], uniqueItems items)
      else (planAgain n (leftOut items batch)).map fun rest => (batch.items ++ rest.1, rest.2)

end Planning
section Selecting
variable {caps : Caps} {formatter : StoredMessage → String} {estimator : Option (String → Int)}

def totalEstimate (formatter : StoredMessage → String) (estimator : Option (String → Int)) (items : List StoredMessage) : Int :=
  (items.map fun m => estimate estimator (formatter m)).sum

def totalBytes (formatter : StoredMessage → String) (items : List StoredMessage) : Nat :=
  (items.map fun m => byteSize (formatter m)).sum

/-- Within all three caps. -/
def within (caps : Caps) (formatter : StoredMessage → String) (estimator : Option (String → Int))
    (items : List StoredMessage) : Bool :=
  items.length ≤ caps.messages ∧ totalEstimate formatter estimator items ≤ caps.tokens ∧
    totalBytes formatter items ≤ caps.bytes

@[simp] theorem totalEstimate_append (xs ys : List StoredMessage) : totalEstimate formatter estimator (xs ++ ys) =
    totalEstimate formatter estimator xs + totalEstimate formatter estimator ys := by
  simp [totalEstimate]

@[simp] theorem totalBytes_append (xs ys : List StoredMessage) :
    totalBytes formatter (xs ++ ys) = totalBytes formatter xs + totalBytes formatter ys := by
  simp [totalBytes]

theorem totalEstimate_nonneg (hest : ∀ s, 0 ≤ estimate estimator s) (items : List StoredMessage) :
    0 ≤ totalEstimate formatter estimator items := by
  induction items with
  | nil => exact le_refl _
  | cons m items ih =>
    have hm := hest (formatter m)
    simp only [totalEstimate, List.map_cons, List.sum_cons] at ih ⊢
    omega

/-- What is within the caps stays so when less is taken. -/
theorem within_of_prefix (hest : ∀ s, 0 ≤ estimate estimator s) {p q : List StoredMessage} (h : p <+: q)
    (hq : within caps formatter estimator q = true) : within caps formatter estimator p = true := by
  obtain ⟨rest, rfl⟩ := h
  have hrest := @totalEstimate_nonneg formatter estimator hest rest
  simp only [within, decide_eq_true_eq, List.length_append, totalEstimate_append, totalBytes_append] at hq ⊢
  omega

/-- The totals are those of what is selected. -/
structure Selection.Tracks (s : Selection) (formatter : StoredMessage → String) (estimator : Option (String → Int)) : Prop where
  formatted : s.formattedSelected = s.selected.map formatter
  tokens : s.tokens = totalEstimate formatter estimator s.selected
  bytes : s.byteCount = totalBytes formatter s.selected

theorem Selection.Tracks.push {s : Selection} (h : s.Tracks formatter estimator) (item : StoredMessage) :
    (s.push estimator item (formatter item)).Tracks formatter estimator where
  formatted := by simp [Selection.push, h.formatted]
  tokens := by simp [Selection.push, h.tokens, totalEstimate]
  bytes := by simp [Selection.push, h.bytes, totalBytes]

theorem capReasons_eq_nil {s : Selection} (h : s.Tracks formatter estimator) {item : StoredMessage} :
    capReasons caps estimator s (formatter item) = [] ↔ within caps formatter estimator (s.selected ++ [item]) = true := by
  have hsingle : totalEstimate formatter estimator [item] = estimate estimator (formatter item) := by simp [totalEstimate]
  have hbytes : totalBytes formatter [item] = byteSize (formatter item) := by simp [totalBytes]
  simp only [capReasons, within, h.tokens, h.bytes, List.append_eq_nil_iff, decide_eq_true_eq, totalEstimate_append,
    totalBytes_append, hsingle, hbytes, List.length_append, List.length_singleton]
  constructor
  · rintro ⟨⟨hm, ht⟩, hb⟩
    refine ⟨?_, ?_, ?_⟩
    · by_contra hno
      rw [if_pos (by omega)] at hm
      cases hm
    · by_contra hno
      rw [if_pos (by omega)] at ht
      cases ht
    · by_contra hno
      rw [if_pos (by omega)] at hb
      cases hb
  · rintro ⟨hm, ht, hb⟩
    rw [if_neg (by omega), if_neg (by omega), if_neg (by omega)]
    exact ⟨⟨rfl, rfl⟩, rfl⟩

/-- The loop selects greedily. Only a head that does not fit is reported. -/
theorem selectItems_spec (hest : ∀ s, 0 ≤ estimate estimator s) {s : Selection} {items : List StoredMessage}
    (h : s.Tracks formatter estimator) (hunfit : s.unfit = none) :
    ∃ s', selectItems caps formatter estimator s items = .ok s' ∧ s'.Tracks formatter estimator ∧
      s'.selected = grow (within caps formatter estimator) s.selected items ∧
        (s'.unfit.isSome = true ↔ s'.selected = [] ∧ items ≠ []) ∧
          ∀ u, s'.unfit = some u → ∃ item rest, items = item :: rest ∧ u.1 = item.row.envelopeId := by
  induction items generalizing s with
  | nil => exact ⟨s, rfl, h, rfl, by simp [hunfit], by simp [hunfit]⟩
  | cons item items ih =>
    rw [selectItems, if_neg (Int.not_lt.2 (hest _)), grow]
    by_cases hfits : within caps formatter estimator (s.selected ++ [item]) = true
    · rw [if_neg (not_not.2 ((capReasons_eq_nil h).2 hfits)), if_pos hfits]
      obtain ⟨s', hs', htracks, hselected, hreport, -⟩ := ih (h.push item) (s := s.push estimator item (formatter item)) hunfit
      have hne : s'.selected ≠ [] := by
        rw [hselected]
        intro hnil
        have hlen := (@prefix_grow _ (within caps formatter estimator) (s.selected ++ [item]) items).length_le
        rw [show grow _ (s.selected ++ [item]) items = [] from hnil] at hlen
        simp at hlen
      have hnone : s'.unfit = none := by
        rw [← Option.not_isSome_iff_eq_none, hreport]
        exact fun hr => hne hr.1
      exact ⟨s', hs', htracks, hselected, by simp [hnone, hne], by simp [hnone]⟩
    · rw [if_pos (mt (capReasons_eq_nil h).1 hfits), if_neg hfits]
      by_cases hempty : s.selected = []
      · rw [if_pos (by simp [hempty])]
        exact ⟨_, rfl, ⟨h.formatted, h.tokens, h.bytes⟩, rfl, by simp [hempty], fun u hu => ⟨item, items, rfl, by
          cases hu
          rfl⟩⟩
      · rw [if_neg (by simp [hempty])]
        exact ⟨s, rfl, h, rfl, by simp [hunfit, hempty], by simp [hunfit]⟩

end Selecting
section Planned
variable {host : Host} {caps : Caps} {formatter : StoredMessage → String} {estimator : Option (String → Int)}
  {items : List StoredMessage}

/-- What a plan says about the items, by those that it selects. -/
structure Plans (host : Host) (caps : Caps) (formatter : StoredMessage → String) (estimator : Option (String → Int))
    (unique : List StoredMessage) (batch : PlannedBatch) : Prop where
  longest : Longest (within caps formatter estimator) unique batch.items
  ids : batch.messageIds = batch.items.map (·.row.envelopeId)
  formatted : batch.formattedMessages = batch.items.map formatter
  tokens : batch.estimatedTokens = totalEstimate formatter estimator batch.items
  bytes : batch.formattedBytes = totalBytes formatter batch.items
  more : batch.moreAvailable = true ↔ unique.drop batch.items.length ≠ []
  unfit : batch.unfitHeadId.isSome = true ↔ unique ≠ [] ∧ batch.items = []
  head : ∀ id, batch.unfitHeadId = some id → ∃ m rest, unique = m :: rest ∧ id = m.row.envelopeId
  targets : batch.targetProjections = firsts id (batch.items.map (canonicalTargetParts host))
  pendingTargets : batch.pendingTargetProjections =
    firsts id ((unique.drop batch.items.length).map (canonicalTargetParts host))

theorem uniqueItems_eq : uniqueItems items = firsts (·.row.envelopeId) items := firstsFrom_nil

theorem plan_spec (hest : ∀ s, 0 ≤ estimate estimator s) : ∃ batch, plan host caps formatter estimator items = .ok batch ∧
    Plans host caps formatter estimator (firsts (·.row.envelopeId) items) batch := by
  rw [← uniqueItems_eq]
  obtain ⟨s, hs, htracks, hselected, hreport, hhead⟩ :=
    @selectItems_spec caps formatter estimator hest {} (uniqueItems items) ⟨rfl, rfl, rfl⟩ rfl
  have hlongest : Longest (within caps formatter estimator) (uniqueItems items) s.selected := by
    have hgrow := @longest_grow _ (within caps formatter estimator) [] (uniqueItems items)
      (fun _ _ => within_of_prefix hest) (by simp [within, totalEstimate, totalBytes])
    rwa [← hselected, List.nil_append] at hgrow
  refine ⟨_, by rw [plan, hs]; rfl, ?_⟩
  exact {
    longest := hlongest
    ids := rfl
    formatted := htracks.formatted
    tokens := htracks.tokens
    bytes := htracks.bytes
    more := by simp
    unfit := by simp only [Option.isSome_map, hreport, and_comm]
    head := fun id hid => by
      obtain ⟨u, hu, rfl⟩ := Option.map_eq_some_iff.1 hid
      exact hhead u hu
    targets := firstsFrom_nil
    pendingTargets := firstsFrom_nil }

theorem uniqueItems_idem : uniqueItems (uniqueItems items) = uniqueItems items := by
  rw [uniqueItems_eq, uniqueItems_eq, firsts_of_nodup nodup_firsts]

/-- What is left out has its ids once already. -/
theorem uniqueItems_leftOut {batch : PlannedBatch} : uniqueItems (leftOut items batch) = leftOut items batch := by
  rw [uniqueItems_eq, firsts_of_nodup]
  rw [leftOut, uniqueItems_eq, List.map_drop]
  exact nodup_firsts.sublist (List.drop_sublist _ _)

/-- Planning again visits the items in their order and leaves the others; after enough plans the first of them is unfit. -/
theorem planAgain_spec (hest : ∀ s, 0 ≤ estimate estimator s) (n : Nat) :
    ∃ seen left, planAgain host caps formatter estimator n items = .ok (seen, left) ∧ seen ++ left = uniqueItems items ∧
      ((uniqueItems items).length ≤ n → left ≠ [] → ∃ batch, plan host caps formatter estimator left = .ok batch ∧
        batch.unfitHeadId.isSome = true) := by
  induction n generalizing items with
  | zero => exact ⟨[], uniqueItems items, rfl, rfl, fun hlen hne => absurd (List.length_eq_zero_iff.1 (by omega)) hne⟩
  | succ n ih =>
    obtain ⟨batch, hplan, hspec⟩ := @plan_spec host caps formatter estimator items hest
    rw [← uniqueItems_eq] at hspec
    rw [planAgain, hplan]
    by_cases hunfit : batch.unfitHeadId.isSome = true
    · simp only [if_pos hunfit]
      refine ⟨[], uniqueItems items, rfl, rfl, fun _ _ => ⟨batch, ?_, hunfit⟩⟩
      rw [← hplan, plan, plan, uniqueItems_idem]
    · simp only [if_neg hunfit]
      obtain ⟨seen, left, hrest, hall, hend⟩ := @ih (leftOut items batch)
      rw [uniqueItems_leftOut] at hall hend
      have hsplit : batch.items ++ leftOut items batch = uniqueItems items := by
        obtain ⟨rest, hrest⟩ := hspec.longest.1
        rw [leftOut, ← hrest, List.drop_left]
      refine ⟨batch.items ++ seen, left, by rw [hrest]; rfl, by rw [List.append_assoc, hall, hsplit], fun hlen hne => ?_⟩
      refine hend ?_ hne
      have hlength := congrArg List.length hsplit
      rw [List.length_append] at hlength
      by_cases hempty : batch.items = []
      · have hnone : uniqueItems items = [] := by
          by_contra hsome
          exact hunfit (hspec.unfit.2 ⟨hsome, hempty⟩)
        rw [hnone, List.length_nil] at hlength
        omega
      · have hpos := List.length_pos_iff.2 hempty
        omega

/-- The plan is the longest leading part of the items, each id once, within the caps, and planning what is left out again
goes through them all until a head is unfit. -/
theorem plan_longest_admissible (host : Host) (caps : Caps) (formatter : StoredMessage → String)
    (estimator : Option (String → Int)) (hest : ∀ f, estimator = some f → ∀ s, 0 ≤ f s) (items : List StoredMessage) :
    (∃ batch, plan host caps formatter estimator items = .ok batch ∧
      Plans host caps formatter estimator (firsts (·.row.envelopeId) items) batch) ∧
    ∀ n, ∃ seen left, planAgain host caps formatter estimator n items = .ok (seen, left) ∧
      seen ++ left = firsts (·.row.envelopeId) items ∧
        ((firsts (·.row.envelopeId) items).length ≤ n → left ≠ [] → ∃ batch,
          plan host caps formatter estimator left = .ok batch ∧ batch.unfitHeadId.isSome = true) := by
  have hnonneg : ∀ s, 0 ≤ estimate estimator s := by
    intro s
    unfold estimate
    cases estimator with
    | none => exact Int.natCast_nonneg _
    | some f => exact hest f rfl s
  refine ⟨plan_spec hnonneg, fun n => ?_⟩
  have hagain := @planAgain_spec host caps formatter estimator items hnonneg n
  rwa [uniqueItems_eq] at hagain

/-- A pending direct message. -/
def queuedMessage (id text : String) : StoredMessage where
  row := ⟨id, "dm", "@ann", none, none, some "@bot", "text/plain", text, 0, 0, none, none, false, false, some 1, some .eligible,
    none, some .pending, none, none, none, none, none, false⟩
  content := .str text

/-- The second message of an id is left out, and the estimate is the number of bytes. -/
theorem plan_longest_admissible_twice :
    ∃ batch, plan asciiHost standardCaps (messageText asciiHost) (some fun s => byteSize s)
        [queuedMessage "m1" "hello", queuedMessage "m1" "hello"] = .ok batch ∧
      Plans asciiHost standardCaps (messageText asciiHost) (some fun s => byteSize s)
        (firsts (·.row.envelopeId) [queuedMessage "m1" "hello", queuedMessage "m1" "hello"]) batch :=
  (plan_longest_admissible asciiHost standardCaps (messageText asciiHost) (some fun s => byteSize s)
    (by rintro _ ⟨⟩ s; exact Int.natCast_nonneg _) _).1

end Planned
end PuffoAgent.Inbox
