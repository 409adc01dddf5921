import PuffoAgent.Outbox.Events

/-! What a coordinated send makes of the server's answer, on the native and on the keyless lane. -/
namespace PuffoAgent.Sending
open Text
open Outbox (field has keysAre isText isNull isCount)

/-- The freshness of the request. -/
structure RequestFreshness where
  mode : String
  contextBaselineSeq : Option Int
  seenSeq : Int

/-- `SendResult`, without the fields that no validator sets. -/
structure SendResult where
  state : String
  envelopeId : Option String := none
  seq : Option Int := none
  replay : Option Bool := none
  devicesQueued : Option Int := none
  contextBaselineSeq : Option Int := none
  seenSeq : Option Int := none
  latestSeq : Option Int := none
  latestEnvelopeId : Option String := none
  blockingSeq : Json := .null
  blockingEnvelopeId : Json := .null
  blockingSenderSlug : Json := .null
  latestSeqBeforeSend : Option Int := none
  mode : Option String := none
  missingDevices : List String := []
  error : Option String := none
  errorKind : Option String := none

def SendResult.accepted (r : SendResult) : Bool := r.state ≠ "failed"

def protocolError (message : String) : SendResult :=
  { state := "failed", error := some message, errorKind := some "protocol" }

def legacyHeldResponseFields : List String :=
  ["state", "envelope_id", "context_baseline_seq", "seen_seq", "latest_seq", "latest_envelope_id"]

def blockingHeldResponseFields : List String := ["blocking_seq", "blocking_envelope_id", "blocking_sender_slug"]

def currentHeldResponseFields : List String := legacyHeldResponseFields ++ blockingHeldResponseFields

def freshnessFields : List String := ["mode", "context_baseline_seq", "seen_seq", "latest_seq_before_send"]

section Values

/-- An integer that is no boolean. -/
def asInt : Json → Option Int
  | .int n => some n
  | _ => none

def asBool : Json → Option Bool
  | .bool b => some b
  | _ => none

def asText : Json → Option String
  | .str s => some s
  | _ => none

/-- A list of texts. -/
def asTexts : Json → Option (List String)
  | .arr items => items.mapM asText
  | _ => none

/-- A count that may be missing. -/
def asQueued : Json → Option (Option Int)
  | .null => some none
  | .int n => if 0 ≤ n then some (some n) else none
  | _ => none

/-- A text that is not only space. -/
def isFilled : Json → Bool
  | .str s => strip s ≠ ""
  | _ => false

variable (sameNumber : FloatText → Int → Bool)

/-- `value == n`: booleans are numbers here. -/
def equalsInt (n : Int) : Json → Bool
  | .int m => m = n
  | .bool b => (if b then 1 else 0) = n
  | .float f => sameNumber f n
  | _ => false

def equalsOptionalInt : Option Int → Json → Bool
  | none => isNull
  | some n => equalsInt sameNumber n

end Values

section Shared
variable (request : RequestFreshness)

/-- `baseline_ok`. -/
def baselineOk (baseline : Int) : Prop := 0 ≤ baseline ∧ ∀ b ∈ request.contextBaselineSeq, baseline = b

/-- Without a baseline of the request the server establishes one at the latest message. -/
def establishedAtLatest (baseline latest : Int) : Prop := request.contextBaselineSeq = none → latest = baseline

instance (baseline : Int) : Decidable (baselineOk request baseline) := inferInstanceAs (Decidable (_ ∧ _))

instance (baseline latest : Int) : Decidable (establishedAtLatest request baseline latest) :=
  inferInstanceAs (Decidable (_ → _))

end Shared

section Keyless
variable (sameNumber : FloatText → Int → Bool) (request : RequestFreshness)

/-- `_keyless_freshness_is_valid`, with the baseline and the latest sequence of a valid echo. -/
def keylessFreshness : Json → Option (Int × Int)
  | .obj echoed =>
    if keysAre freshnessFields echoed then do
      let baseline ← asInt (field "context_baseline_seq" echoed)
      let latest ← asInt (field "latest_seq_before_send" echoed)
      if isText request.mode (field "mode" echoed) ∧ equalsInt sameNumber request.seenSeq (field "seen_seq" echoed) ∧
          baselineOk request baseline ∧ establishedAtLatest request baseline latest ∧ request.seenSeq ≤ latest ∧
          (request.mode = "require_current" → latest = max baseline request.seenSeq)
      then return (baseline, latest) else none
    else none
  | _ => none

/-- `_keyless_sent_result`; `none` is an invalid commit. -/
def keylessSent (raw : List (String × Json)) : Option SendResult := do
  let envelopeId ← (asText (field "envelope_id" raw)).filter (· ≠ "")
  let seq ← (asInt (field "seq" raw)).filter (0 < ·)
  let replay ← asBool (field "replay" raw)
  let missing ← asTexts (field "missing_devices" raw)
  let queued ← asQueued (field "devices_queued" raw)
  let (baseline, latest) ← keylessFreshness sameNumber request (field "freshness" raw)
  return {
    state := "sent", envelopeId := envelopeId, seq := seq, replay := replay, devicesQueued := queued,
    missingDevices := missing, contextBaselineSeq := baseline, seenSeq := request.seenSeq,
    latestSeqBeforeSend := latest, mode := request.mode }

/-- `_keyless_blocker_is_valid`. -/
def keylessBlockerIsValid (raw : List (String × Json)) (latest : Int) (envelopeId : String) : Prop :=
  (∀ key ∈ blockingHeldResponseFields, has key raw) ∧ equalsInt sameNumber latest (field "blocking_seq" raw) ∧
    isText envelopeId (field "blocking_envelope_id" raw) ∧ isFilled (field "blocking_sender_slug" raw)

instance (raw : List (String × Json)) (latest : Int) (envelopeId : String) :
    Decidable (keylessBlockerIsValid sameNumber raw latest envelopeId) := inferInstanceAs (Decidable (_ ∧ _))

/-- `_keyless_held_result`; `none` is an invalid hold. -/
def keylessHeld (raw : List (String × Json)) : Option SendResult := do
  let latest ← asInt (field "latest_seq" raw)
  let envelopeId ← (asText (field "latest_envelope_id" raw)).filter (· ≠ "")
  if equalsInt sameNumber request.seenSeq (field "seen_seq" raw) ∧
      equalsOptionalInt sameNumber request.contextBaselineSeq (field "context_baseline_seq" raw) ∧
      request.seenSeq < latest ∧
      ((∃ key ∈ blockingHeldResponseFields, has key raw) → keylessBlockerIsValid sameNumber raw latest envelopeId)
  then return {
      state := "held", contextBaselineSeq := request.contextBaselineSeq, seenSeq := request.seenSeq,
      latestSeq := latest, latestEnvelopeId := envelopeId, blockingSeq := field "blocking_seq" raw,
      blockingEnvelopeId := field "blocking_envelope_id" raw, blockingSenderSlug := field "blocking_sender_slug" raw }
  else none

def validateKeylessResponse : Json → SendResult
  | .obj raw =>
    if isText "sent" (field "state" raw) then
      (keylessSent sameNumber request raw).getD (protocolError "invalid coordinated keyless commit")
    else if isText "held" (field "state" raw) then
      (keylessHeld sameNumber request raw).getD (protocolError "invalid coordinated keyless hold")
    else protocolError "unknown coordinated keyless state"
  | _ => protocolError "malformed coordinated keyless response"

end Keyless

section Native
variable (sameNumber : FloatText → Int → Bool) (request : RequestFreshness)

def need {α : Type} (value : Option α) (message : String) : Except String α := value.elim (.error message) .ok

def check (ok : Bool) (message : String) : Except String Unit := if ok then .ok () else .error message

/-- `_sent_freshness_matches`, with the baseline and the latest sequence of a match. -/
def sentFreshnessMatches (response : List (String × Json)) : Option (Int × Int) := do
  let baseline ← asInt (field "context_baseline_seq" response)
  let seen ← asInt (field "seen_seq" response)
  let latest ← asInt (field "latest_seq_before_send" response)
  if isText request.mode (field "mode" response) ∧ baselineOk request baseline ∧
      establishedAtLatest request baseline latest ∧ 0 ≤ seen ∧ seen = request.seenSeq ∧ 0 ≤ latest ∧
      max baseline seen ≤ latest ∧ (request.mode = "require_current" → latest = max baseline seen)
  then return (baseline, latest) else none

/-- `_validate_sent_freshness`; a replay from before the freshness contract has no echo. -/
def validateSentFreshness (raw : List (String × Json)) (replay : Bool) : Except String (Option (Int × Int)) :=
  if ¬ has "freshness" raw then
    if replay then .ok none else .error "sent response omitted freshness"
  else match field "freshness" raw with
    | .obj response => do
      check (keysAre freshnessFields response) "sent response freshness fields mismatch"
      return some (← need (sentFreshnessMatches request response) "sent response freshness mismatch")
    | _ => .error "sent response freshness is malformed"

/-- `_validate_sent_channel_response`. -/
def validateSentChannelResponse (raw : List (String × Json)) (envelopeId : String) : Except String SendResult := do
  let seq ← need ((asInt (field "seq" raw)).filter (0 < ·)) "sent response has invalid seq"
  check (has "replay" raw) "sent response omitted replay"
  let replay ← need (asBool (field "replay" raw)) "sent response has invalid replay"
  let echo ← validateSentFreshness request raw replay
  check (has "missing_devices" raw) "sent response omitted missing_devices"
  let missing ← need (asTexts (field "missing_devices" raw)) "sent response has invalid missing_devices"
  let queued ← need (asQueued (field "devices_queued" raw)) "sent response has invalid devices_queued"
  return {
    state := "sent", envelopeId := envelopeId, seq := seq, replay := replay, devicesQueued := queued,
    contextBaselineSeq := echo.map (·.1), seenSeq := request.seenSeq, latestSeqBeforeSend := echo.map (·.2),
    missingDevices := missing }

/-- `_validate_held_channel_response`. -/
def validateHeldChannelResponse (raw : List (String × Json)) (envelopeId : String) : Except String SendResult := do
  check (keysAre legacyHeldResponseFields raw ∨ keysAre currentHeldResponseFields raw) "held response fields mismatch"
  check (equalsOptionalInt sameNumber request.contextBaselineSeq (field "context_baseline_seq" raw))
    "held response watermark mismatch"
  let seen ← need ((asInt (field "seen_seq" raw)).filter (0 ≤ ·)) "held response has incomplete boundary watermarks"
  let latest ← need ((asInt (field "latest_seq" raw)).filter (0 ≤ ·)) "held response has incomplete boundary watermarks"
  let boundary := request.contextBaselineSeq.elim request.seenSeq (max request.seenSeq)
  check (seen = request.seenSeq ∧ boundary < latest ∧ isFilled (field "latest_envelope_id" raw))
    "held response watermark mismatch"
  let latestEnvelopeId ← need (asText (field "latest_envelope_id" raw)) "held response watermark mismatch"
  check (¬ keysAre currentHeldResponseFields raw ∨ (equalsInt sameNumber latest (field "blocking_seq" raw) ∧
      isText latestEnvelopeId (field "blocking_envelope_id" raw) ∧ isFilled (field "blocking_sender_slug" raw)))
    "held response blocker metadata mismatch"
  return {
    state := "held", envelopeId := envelopeId, contextBaselineSeq := request.contextBaselineSeq, seenSeq := seen,
    latestSeq := latest, latestEnvelopeId := latestEnvelopeId, blockingSeq := field "blocking_seq" raw,
    blockingEnvelopeId := field "blocking_envelope_id" raw, blockingSenderSlug := field "blocking_sender_slug" raw }

/-- The checks of `validate_channel_response`; `envelopeId` is what the request's envelope has. -/
def channelResponse (raw : List (String × Json)) (envelopeId : Json) : Except String SendResult := do
  check (isFilled envelopeId) "request envelope_id is invalid"
  let envelopeId ← need (asText envelopeId) "request envelope_id is invalid"
  let sent := isText "sent" (field "state" raw)
  check (sent ∨ isText "held" (field "state" raw)) "unknown channel send state"
  check (isText envelopeId (field "envelope_id" raw)) "response envelope_id mismatch"
  if sent then validateSentChannelResponse request raw envelopeId
  else validateHeldChannelResponse sameNumber request raw envelopeId

def validateChannelResponse (raw envelopeId : Json) : SendResult :=
  match raw with
  | .obj raw =>
    match channelResponse sameNumber request raw envelopeId with
    | .ok result => result
    | .error message => protocolError message
  | _ => protocolError "channel send returned a malformed response"

end Native

section Checks

@[simp]
theorem asInt_eq_some {v : Json} {n : Int} : asInt v = some n ↔ v = .int n := by
  cases v <;> simp [asInt]

@[simp]
theorem asBool_eq_some {v : Json} {b : Bool} : asBool v = some b ↔ v = .bool b := by
  cases v <;> simp [asBool]

@[simp]
theorem asText_eq_some {v : Json} {s : String} : asText v = some s ↔ v = .str s := by
  cases v <;> simp [asText]

theorem isText_iff {v : Json} {s : String} : isText s v = true ↔ v = .str s := by
  cases v <;> simp [isText]

@[simp]
theorem need_ok_iff {α : Type} {value : Option α} {message : String} {a : α} :
    need value message = .ok a ↔ value = some a := by
  cases value <;> simp [need]

@[simp]
theorem check_ok_iff {ok : Bool} {message : String} {u : Unit} : check ok message = .ok u ↔ ok = true := by
  cases ok <;> simp [check]

theorem strip_empty : strip "" = "" := rfl

theorem isFilled_iff {v : Json} : isFilled v = true ↔ ∃ s, v = .str s ∧ strip s ≠ "" := by
  cases v <;> simp [isFilled]

theorem ne_empty_of_filled {s : String} (h : strip s ≠ "") : s ≠ "" := fun heq => h (heq ▸ strip_empty)

end Checks

section Echo
variable {sameNumber : FloatText → Int → Bool} {request : RequestFreshness} {baseline latest : Int}

theorem keylessFreshness_iff {v : Json} : keylessFreshness sameNumber request v = some (baseline, latest) ↔
    ∃ echoed, v = .obj echoed ∧ keysAre freshnessFields echoed = true ∧
      field "context_baseline_seq" echoed = .int baseline ∧ field "latest_seq_before_send" echoed = .int latest ∧
      isText request.mode (field "mode" echoed) = true ∧
      equalsInt sameNumber request.seenSeq (field "seen_seq" echoed) = true ∧ baselineOk request baseline ∧
      establishedAtLatest request baseline latest ∧ request.seenSeq ≤ latest ∧
      (request.mode = "require_current" → latest = max baseline request.seenSeq) := by
  cases v with
  | obj echoed =>
    simp only [keylessFreshness, Option.ite_none_right_eq_some, Option.bind_eq_bind, Option.bind_eq_some_iff,
      asInt_eq_some, Option.pure_def, Option.some.injEq, Prod.mk.injEq, Json.obj.injEq, exists_eq_left']
    constructor
    · rintro ⟨hkeys, b, hb, l, hl, hall, rfl, rfl⟩
      exact ⟨hkeys, hb, hl, hall⟩
    · rintro ⟨hkeys, hb, hl, hall⟩
      exact ⟨hkeys, baseline, hb, latest, hl, hall, rfl, rfl⟩
  | _ => simp [keylessFreshness]

theorem sentFreshnessMatches_iff {response : List (String × Json)} :
    sentFreshnessMatches request response = some (baseline, latest) ↔ ∃ seen,
      field "context_baseline_seq" response = .int baseline ∧ field "seen_seq" response = .int seen ∧
      field "latest_seq_before_send" response = .int latest ∧ isText request.mode (field "mode" response) = true ∧
      baselineOk request baseline ∧ establishedAtLatest request baseline latest ∧ 0 ≤ seen ∧ seen = request.seenSeq ∧
      0 ≤ latest ∧ max baseline seen ≤ latest ∧
      (request.mode = "require_current" → latest = max baseline seen) := by
  simp only [sentFreshnessMatches, Option.ite_none_right_eq_some, Option.bind_eq_bind, Option.bind_eq_some_iff,
    asInt_eq_some, Option.pure_def, Option.some.injEq, Prod.mk.injEq]
  constructor
  · rintro ⟨b, hb, seen, hs, l, hl, hall, rfl, rfl⟩
    exact ⟨seen, hb, hs, hl, hall⟩
  · rintro ⟨seen, hb, hs, hl, hall⟩
    exact ⟨baseline, hb, seen, hs, latest, hl, hall, rfl, rfl⟩

/-- What the native lane asks of an echo beyond the keyless one. -/
def NativeEcho (echoed : List (String × Json)) : Prop :=
  isCount 0 (field "seen_seq" echoed) = true ∧ ∀ b l, field "context_baseline_seq" echoed = .int b →
    field "latest_seq_before_send" echoed = .int l → b ≤ l

theorem echo_agrees {echoed : List (String × Json)} :
    (keysAre freshnessFields echoed = true ∧ sentFreshnessMatches request echoed = some (baseline, latest)) ↔
      keylessFreshness sameNumber request (.obj echoed) = some (baseline, latest) ∧ NativeEcho echoed := by
  rw [keylessFreshness_iff, sentFreshnessMatches_iff]
  constructor
  · rintro ⟨hkeys, seen, hb, hs, hl, hmode, hbase, hest, hpos, rfl, -, hmax, hcurrent⟩
    refine ⟨⟨echoed, rfl, hkeys, hb, hl, hmode, ?_, hbase, hest, by omega, hcurrent⟩, ?_, ?_⟩
    · simp [hs, equalsInt]
    · simpa [hs, isCount] using hpos
    · intro b l hb' hl'
      obtain rfl := Json.int.inj (hb.symm.trans hb')
      obtain rfl := Json.int.inj (hl.symm.trans hl')
      omega
  · rintro ⟨⟨_, heq, hkeys, hb, hl, hmode, hseen, hbase, hest, hle, hcurrent⟩, hcount, hbound⟩
    obtain rfl := Json.obj.inj heq
    have hbl := hbound _ _ hb hl
    cases hs : field "seen_seq" echoed with
    | int seen =>
      rw [hs] at hseen hcount
      obtain rfl : seen = request.seenSeq := by simpa [equalsInt] using hseen
      have hpos : 0 ≤ request.seenSeq := by simpa [isCount] using hcount
      exact ⟨hkeys, _, hb, rfl, hl, hmode, hbase, hest, hpos, rfl, by omega, by omega, hcurrent⟩
    | _ => simp [hs, isCount] at hcount

end Echo

section Answers
variable {sameNumber : FloatText → Int → Bool} {request : RequestFreshness} {raw : List (String × Json)}

theorem keylessSent_iff {r : SendResult} : keylessSent sameNumber request raw = some r ↔
    ∃ envelopeId seq replay missing queued baseline latest,
      field "envelope_id" raw = .str envelopeId ∧ envelopeId ≠ "" ∧ field "seq" raw = .int seq ∧ 0 < seq ∧
      field "replay" raw = .bool replay ∧ asTexts (field "missing_devices" raw) = some missing ∧
      asQueued (field "devices_queued" raw) = some queued ∧
      keylessFreshness sameNumber request (field "freshness" raw) = some (baseline, latest) ∧
      r = { state := "sent", envelopeId := envelopeId, seq := seq, replay := replay, devicesQueued := queued,
            missingDevices := missing, contextBaselineSeq := baseline, seenSeq := request.seenSeq,
            latestSeqBeforeSend := latest, mode := request.mode } := by
  simp only [keylessSent, Option.bind_eq_bind, Option.bind_eq_some_iff, Option.filter_eq_some_iff, asText_eq_some,
    asInt_eq_some, asBool_eq_some, decide_eq_true_eq, Option.pure_def, Option.some.injEq, Prod.exists]
  constructor
  · rintro ⟨e, ⟨he, hne⟩, q, ⟨hq, hpos⟩, b, hb, m, hm, d, hd, base, latest, hecho, rfl⟩
    exact ⟨e, q, b, m, d, base, latest, he, hne, hq, hpos, hb, hm, hd, hecho, rfl⟩
  · rintro ⟨e, q, b, m, d, base, latest, he, hne, hq, hpos, hb, hm, hd, hecho, rfl⟩
    exact ⟨e, ⟨he, hne⟩, q, ⟨hq, hpos⟩, b, hb, m, hm, d, hd, base, latest, hecho, rfl⟩

theorem validateSentFreshness_iff (hf : has "freshness" raw = true) {replay : Bool} {echo : Option (Int × Int)} :
    validateSentFreshness request raw replay = .ok echo ↔ ∃ echoed pair, field "freshness" raw = .obj echoed ∧
      keysAre freshnessFields echoed = true ∧ sentFreshnessMatches request echoed = some pair ∧ echo = some pair := by
  rw [validateSentFreshness, if_neg (not_not.2 hf)]
  cases field "freshness" raw with
  | obj echoed =>
    simp only [except_bind_ok_iff, check_ok_iff, need_ok_iff, Json.obj.injEq, exists_eq_left', pure, Except.pure,
      Except.ok.injEq, exists_and_left, exists_const]
    simp only [eq_comm]
  | _ => simp

/-- With an echo, the two lanes read a commit alike, the native one for its own envelope. -/
theorem sent_agrees (hf : has "freshness" raw = true) {envelopeId : String} (hid : field "envelope_id" raw = .str envelopeId)
    (hne : envelopeId ≠ "") {r : SendResult} : validateSentChannelResponse request raw envelopeId = .ok r ↔
      ∃ k, keylessSent sameNumber request raw = some k ∧ (∀ echoed, field "freshness" raw = .obj echoed → NativeEcho echoed) ∧
        r = { k with mode := none } := by
  have hhas : ∀ {key : String}, field key raw ≠ .null → has key raw = true := by
    intro key h
    by_contra hnot
    refine h ?_
    rw [field, Option.not_isSome_iff_eq_none.1 hnot]
    rfl
  simp only [validateSentChannelResponse, except_bind_ok_iff, need_ok_iff, check_ok_iff, Option.filter_eq_some_iff,
    asInt_eq_some, asBool_eq_some, decide_eq_true_eq, pure, Except.pure, Except.ok.injEq,
    validateSentFreshness_iff hf, keylessSent_iff]
  constructor
  · rintro ⟨seq, ⟨hseq, hpos⟩, -, -, replay, hreplay, _, ⟨echoed, ⟨b, l⟩, hobj, hkeys, hmatch, rfl⟩, -, -, missing,
      hmissing, queued, hqueued, rfl⟩
    obtain ⟨hkeyless, hnative⟩ := (@echo_agrees sameNumber _ _ _ _).1 ⟨hkeys, hmatch⟩
    refine ⟨_, ⟨envelopeId, seq, replay, missing, queued, b, l, hid, hne, hseq, hpos, hreplay, hmissing, hqueued, ?_,
      rfl⟩, ?_, rfl⟩
    · rw [hobj, hkeyless]
    · intro echoed' h
      exact Json.obj.inj (hobj.symm.trans h) ▸ hnative
  · rintro ⟨_, ⟨envelopeId', seq, replay, missing, queued, b, l, hid', -, hseq, hpos, hreplay, hmissing, hqueued, hecho,
      rfl⟩, hnative, rfl⟩
    obtain rfl := Json.str.inj (hid.symm.trans hid')
    obtain ⟨echoed, hobj, -⟩ := keylessFreshness_iff.1 hecho
    obtain ⟨hkeys, hmatch⟩ := echo_agrees.2 ⟨hobj ▸ hecho, hnative echoed hobj⟩
    refine ⟨seq, ⟨hseq, hpos⟩, (), hhas (by simp [hreplay]), replay, hreplay, _, ⟨echoed, _, hobj, hkeys, hmatch, rfl⟩, (),
      hhas ?_, missing, hmissing, queued, hqueued, rfl⟩
    intro hnull
    simp [hnull, asTexts] at hmissing

/-- What the native lane asks of a hold beyond the keyless one. -/
structure NativeHold (request : RequestFreshness) (raw : List (String × Json)) : Prop where
  fields : keysAre legacyHeldResponseFields raw = true ∨ keysAre currentHeldResponseFields raw = true
  seen : isCount 0 (field "seen_seq" raw) = true
  baseline : ∀ b ∈ request.contextBaselineSeq, ∀ latest, field "latest_seq" raw = .int latest → b < latest
  head : isFilled (field "latest_envelope_id" raw) = true

theorem has_of_keysAre {keys : List String} (h : keysAre keys raw = true) : ∀ key ∈ keys, has key raw = true := by
  simp only [keysAre, decide_eq_true_eq] at h
  exact List.all_eq_true.1 h.2

theorem mem_of_keysAre {keys : List String} (h : keysAre keys raw = true) {key : String} (hk : has key raw = true) :
    key ∈ keys := by
  simp only [keysAre, Outbox.keysWithin, decide_eq_true_eq, List.all_eq_true] at h
  obtain ⟨v, hv⟩ := Option.isSome_iff_exists.1 hk
  obtain ⟨m, hm, -⟩ := Option.map_eq_some_iff.1 hv
  have hkey : m.1 = key := by simpa using List.find?_some hm
  exact hkey ▸ h.1 m (List.mem_reverse.1 (List.mem_of_find?_eq_some hm))

theorem keylessHeld_iff {r : SendResult} : keylessHeld sameNumber request raw = some r ↔
    ∃ latest envelopeId, field "latest_seq" raw = .int latest ∧ field "latest_envelope_id" raw = .str envelopeId ∧
      envelopeId ≠ "" ∧ equalsInt sameNumber request.seenSeq (field "seen_seq" raw) = true ∧
      equalsOptionalInt sameNumber request.contextBaselineSeq (field "context_baseline_seq" raw) = true ∧
      request.seenSeq < latest ∧
      ((∃ key ∈ blockingHeldResponseFields, has key raw = true) → keylessBlockerIsValid sameNumber raw latest envelopeId) ∧
      r = { state := "held", contextBaselineSeq := request.contextBaselineSeq, seenSeq := request.seenSeq,
            latestSeq := latest, latestEnvelopeId := envelopeId, blockingSeq := field "blocking_seq" raw,
            blockingEnvelopeId := field "blocking_envelope_id" raw,
            blockingSenderSlug := field "blocking_sender_slug" raw } := by
  simp only [keylessHeld, Option.bind_eq_bind, Option.bind_eq_some_iff, Option.filter_eq_some_iff, asText_eq_some,
    asInt_eq_some, decide_eq_true_eq, Option.ite_none_right_eq_some, Option.pure_def, Option.some.injEq]
  constructor
  · rintro ⟨latest, hl, e, ⟨he, hne⟩, ⟨hseen, hbase, hlt, hblock⟩, rfl⟩
    exact ⟨latest, e, hl, he, hne, hseen, hbase, hlt, hblock, rfl⟩
  · rintro ⟨latest, e, hl, he, hne, hseen, hbase, hlt, hblock, rfl⟩
    exact ⟨latest, hl, e, ⟨he, hne⟩, ⟨hseen, hbase, hlt, hblock⟩, rfl⟩

/-- A hold with one of the two native field sets names its blocker in the larger one only. -/
theorem blocker_agrees (hfields : keysAre legacyHeldResponseFields raw = true ∨ keysAre currentHeldResponseFields raw = true)
    {latest : Int} {envelopeId : String} :
    (¬ keysAre currentHeldResponseFields raw = true ∨ (equalsInt sameNumber latest (field "blocking_seq" raw) = true ∧
        isText envelopeId (field "blocking_envelope_id" raw) = true ∧ isFilled (field "blocking_sender_slug" raw) = true)) ↔
      ((∃ key ∈ blockingHeldResponseFields, has key raw = true) → keylessBlockerIsValid sameNumber raw latest envelopeId) := by
  by_cases hcurrent : keysAre currentHeldResponseFields raw = true
  · have hall : ∀ key ∈ blockingHeldResponseFields, has key raw = true :=
      fun key hkey => has_of_keysAre hcurrent key (List.mem_append_right _ hkey)
    have hsome : ∃ key ∈ blockingHeldResponseFields, has key raw = true := ⟨_, List.mem_cons_self, hall _ List.mem_cons_self⟩
    simp only [hcurrent, not_true_eq_false, false_or, hsome, true_imp_iff, keylessBlockerIsValid]
    exact (and_iff_right hall).symm
  · have hlegacy := hfields.resolve_right hcurrent
    refine iff_of_true (.inl hcurrent) fun ⟨key, hkey, hhas⟩ => ?_
    have hmem := mem_of_keysAre hlegacy hhas
    simp only [blockingHeldResponseFields, List.mem_cons, List.not_mem_nil, or_false] at hkey
    rcases hkey with rfl | rfl | rfl <;> exact absurd hmem (by decide)

theorem held_agrees {envelopeId : String} {r : SendResult} :
    validateHeldChannelResponse sameNumber request raw envelopeId = .ok r ↔
      ∃ k, keylessHeld sameNumber request raw = some k ∧ NativeHold request raw ∧
        r = { k with envelopeId := some envelopeId } := by
  simp only [validateHeldChannelResponse, except_bind_ok_iff, need_ok_iff, check_ok_iff, Option.filter_eq_some_iff,
    asInt_eq_some, asText_eq_some, decide_eq_true_eq, Bool.decide_or, Bool.or_eq_true, Bool.decide_and,
    Bool.and_eq_true, pure, Except.pure, Except.ok.injEq, keylessHeld_iff]
  constructor
  · rintro ⟨-, hfields, -, hbase, seen, ⟨hs, hpos⟩, latest, ⟨hl, -⟩, -, ⟨rfl, hbound, hfilled⟩, e, he, -, hblock, rfl⟩
    have hne : e ≠ "" := by
      obtain ⟨e', he', hstrip⟩ := isFilled_iff.1 hfilled
      exact Json.str.inj (he'.symm.trans he) ▸ ne_empty_of_filled hstrip
    have hlt : request.seenSeq < latest ∧ ∀ b ∈ request.contextBaselineSeq, b < latest := by
      cases hb : request.contextBaselineSeq <;> simp_all
    refine ⟨_, ⟨latest, e, hl, he, hne, by simp [hs, equalsInt], hbase, hlt.1, ?_, rfl⟩, ⟨hfields, ?_, ?_, hfilled⟩, rfl⟩
    · exact (blocker_agrees hfields).1 (by simpa using hblock)
    · simpa [hs, isCount] using hpos
    · intro b hb latest' hl'
      obtain rfl := Json.int.inj (hl.symm.trans hl')
      exact hlt.2 b hb
  · rintro ⟨_, ⟨latest, e, hl, he, hne, hseen, hbase, hlt, hblock, rfl⟩, hnative, rfl⟩
    obtain ⟨seen, hs, hpos⟩ : ∃ seen, field "seen_seq" raw = .int seen ∧ 0 ≤ seen := by
      have hcount := hnative.seen
      cases hs : field "seen_seq" raw <;> simp_all [isCount]
    obtain rfl : seen = request.seenSeq := by simpa [hs, equalsInt] using hseen
    refine ⟨(), hnative.fields, (), hbase, _, ⟨hs, hpos⟩, latest, ⟨hl, by omega⟩, (), ⟨rfl, ?_, hnative.head⟩, e, he, (), ?_, rfl⟩
    · have hb := hnative.baseline
      cases hbase : request.contextBaselineSeq <;> simp_all
    · simpa using (blocker_agrees hnative.fields).2 hblock

theorem channelResponse_ok_iff {envelopeId : Json} {r : SendResult} :
    channelResponse sameNumber request raw envelopeId = .ok r ↔ isFilled envelopeId = true ∧
      field "envelope_id" raw = envelopeId ∧ ∃ id, envelopeId = .str id ∧
      ((isText "sent" (field "state" raw) = true ∧ validateSentChannelResponse request raw id = .ok r) ∨
        (isText "sent" (field "state" raw) = false ∧ isText "held" (field "state" raw) = true ∧
          validateHeldChannelResponse sameNumber request raw id = .ok r)) := by
  simp only [channelResponse, except_bind_ok_iff, need_ok_iff, check_ok_iff, asText_eq_some]
  cases hsent : isText "sent" (field "state" raw) with
  | true =>
    constructor
    · rintro ⟨-, hfilled, id, hid, -, -, -, hbody, h⟩
      exact ⟨hfilled, (isText_iff.1 hbody).trans hid.symm, id, hid, .inl ⟨rfl, h⟩⟩
    · rintro ⟨hfilled, hbody, id, hid, ⟨-, h⟩ | ⟨hnot, -⟩⟩
      · exact ⟨(), hfilled, id, hid, (), by simp, (), isText_iff.2 (hbody.trans hid), h⟩
      · cases hnot
  | false =>
    constructor
    · rintro ⟨-, hfilled, id, hid, -, hheld, -, hbody, h⟩
      exact ⟨hfilled, (isText_iff.1 hbody).trans hid.symm, id, hid, .inr ⟨rfl, by simpa using hheld, h⟩⟩
    · rintro ⟨hfilled, hbody, id, hid, ⟨hsent, -⟩ | ⟨-, hheld, h⟩⟩
      · cases hsent
      · exact ⟨(), hfilled, id, hid, (), by simp [hheld], (), isText_iff.2 (hbody.trans hid), h⟩

/-- What the native lane asks of an answer beyond the keyless one. -/
structure NativeOnly (request : RequestFreshness) (raw : List (String × Json)) (envelopeId : Json) : Prop where
  envelope : isFilled envelopeId = true ∧ field "envelope_id" raw = envelopeId
  echo : isText "sent" (field "state" raw) = true → ∀ echoed, field "freshness" raw = .obj echoed → NativeEcho echoed
  hold : isText "held" (field "state" raw) = true → NativeHold request raw

theorem accepted_protocolError (message : String) : (protocolError message).accepted = false := by
  simp [protocolError, SendResult.accepted]

theorem accepted_getD {x : Option SendResult} (hx : ∀ k, x = some k → k.accepted = true) {message : String}
    {k : SendResult} : x.getD (protocolError message) = k ∧ k.accepted = true ↔ x = some k := by
  cases x with
  | none =>
    refine ⟨fun ⟨heq, hk⟩ => ?_, nofun⟩
    rw [← heq, Option.getD_none, accepted_protocolError] at hk
    cases hk
  | some k' => exact ⟨fun ⟨heq, _⟩ => congrArg some heq, fun h => ⟨Option.some.inj h, hx k h⟩⟩

/-- The answers the keyless lane accepts. -/
theorem validateKeylessResponse_iff {k : SendResult} :
    validateKeylessResponse sameNumber request (.obj raw) = k ∧ k.accepted = true ↔
      (isText "sent" (field "state" raw) = true ∧ keylessSent sameNumber request raw = some k) ∨
        (isText "sent" (field "state" raw) = false ∧ isText "held" (field "state" raw) = true ∧
          keylessHeld sameNumber request raw = some k) := by
  rw [validateKeylessResponse]
  cases hsent : isText "sent" (field "state" raw) with
  | true =>
    have hx : ∀ k, keylessSent sameNumber request raw = some k → k.accepted = true := by
      intro k hk
      obtain ⟨_, _, _, _, _, _, _, -, -, -, -, -, -, -, -, rfl⟩ := keylessSent_iff.1 hk
      rfl
    rw [if_pos rfl, accepted_getD hx]
    simp
  | false =>
    cases hheld : isText "held" (field "state" raw) with
    | true =>
      have hx : ∀ k, keylessHeld sameNumber request raw = some k → k.accepted = true := by
        intro k hk
        obtain ⟨_, _, -, -, -, -, -, -, -, rfl⟩ := keylessHeld_iff.1 hk
        rfl
      rw [if_neg Bool.false_ne_true, if_pos rfl, accepted_getD hx]
      simp
    | false =>
      rw [if_neg Bool.false_ne_true, if_neg Bool.false_ne_true]
      refine iff_of_false (fun ⟨heq, hk⟩ => ?_) (by simp)
      rw [← heq, accepted_protocolError] at hk
      cases hk

theorem not_held_of_sent (h : isText "sent" (field "state" raw) = true) : isText "held" (field "state" raw) = false := by
  rw [isText_iff.1 h]
  decide

/-- The answers the native lane accepts, from those that the keyless lane accepts. -/
theorem channelResponse_agrees {envelopeId : Json}
    (hbody : isText "held" (field "state" raw) = true ∨ has "freshness" raw = true) {r : SendResult} :
    channelResponse sameNumber request raw envelopeId = .ok r ↔
      ∃ k, (validateKeylessResponse sameNumber request (.obj raw) = k ∧ k.accepted = true) ∧
        NativeOnly request raw envelopeId ∧ r = { k with mode := none, envelopeId := asText envelopeId } := by
  simp only [channelResponse_ok_iff, validateKeylessResponse_iff]
  constructor
  · rintro ⟨hfilled, hid, id, rfl, ⟨hsent, hr⟩ | ⟨hsent, hheld, hr⟩⟩
    · have hf := hbody.resolve_left (by simp [not_held_of_sent hsent])
      obtain ⟨e, heq, hstrip⟩ := isFilled_iff.1 hfilled
      obtain rfl := Json.str.inj heq
      obtain ⟨k, hk, hecho, rfl⟩ := (@sent_agrees sameNumber _ _ hf _ hid (ne_empty_of_filled hstrip)).1 hr
      refine ⟨k, .inl ⟨hsent, hk⟩, ⟨⟨hfilled, hid⟩, fun _ => hecho, fun hheld => ?_⟩, ?_⟩
      · rw [not_held_of_sent hsent] at hheld
        cases hheld
      · obtain ⟨id', _, _, _, _, _, _, hid', -, -, -, -, -, -, -, rfl⟩ := keylessSent_iff.1 hk
        rw [Json.str.inj (hid.symm.trans hid')]
        rfl
    · obtain ⟨k, hk, hhold, rfl⟩ := held_agrees.1 hr
      refine ⟨k, .inr ⟨hsent, hheld, hk⟩, ⟨⟨hfilled, hid⟩, fun h => ?_, fun _ => hhold⟩, ?_⟩
      · rw [hsent] at h
        cases h
      · obtain ⟨_, _, -, -, -, -, -, -, -, rfl⟩ := keylessHeld_iff.1 hk
        rfl
  · rintro ⟨k, hk, ⟨⟨hfilled, hid⟩, hecho, hhold⟩, rfl⟩
    obtain ⟨id, rfl, hstrip⟩ := isFilled_iff.1 hfilled
    refine ⟨hfilled, hid, id, rfl, ?_⟩
    rcases hk with ⟨hsent, hk⟩ | ⟨hsent, hheld, hk⟩
    · have hf := hbody.resolve_left (by simp [not_held_of_sent hsent])
      refine .inl ⟨hsent, (sent_agrees hf hid (ne_empty_of_filled hstrip)).2 ⟨k, hk, hecho hsent, ?_⟩⟩
      obtain ⟨id', _, _, _, _, _, _, hid', -, -, -, -, -, -, -, rfl⟩ := keylessSent_iff.1 hk
      rw [Json.str.inj (hid'.symm.trans hid)]
      rfl
    · refine .inr ⟨hsent, hheld, held_agrees.2 ⟨k, hk, hhold hheld, ?_⟩⟩
      obtain ⟨_, _, -, -, -, -, -, -, -, rfl⟩ := keylessHeld_iff.1 hk
      rfl

/-- The sequences that both lanes read from an answer are integers, and no booleans. -/
structure Integral (raw : List (String × Json)) : Prop where
  commit : isText "sent" (field "state" raw) = true → (asInt (field "seq" raw)).isSome ∧
    ∃ echoed, field "freshness" raw = .obj echoed ∧ (asInt (field "context_baseline_seq" echoed)).isSome ∧
      (asInt (field "latest_seq_before_send" echoed)).isSome
  hold : isText "held" (field "state" raw) = true → (asInt (field "latest_seq" raw)).isSome

theorem integral_of_accepted {k : SendResult}
    (h : validateKeylessResponse sameNumber request (.obj raw) = k ∧ k.accepted = true) : Integral raw := by
  rcases validateKeylessResponse_iff.1 h with ⟨hsent, hk⟩ | ⟨hsent, -, hk⟩
  · refine ⟨fun _ => ?_, fun hheld => ?_⟩
    · obtain ⟨_, seq, _, _, _, b, l, -, -, hseq, -, -, -, -, hecho, -⟩ := keylessSent_iff.1 hk
      obtain ⟨echoed, hobj, -, hb, hl, -⟩ := keylessFreshness_iff.1 hecho
      exact ⟨by simp [hseq, asInt], echoed, hobj, by simp [hb, asInt], by simp [hl, asInt]⟩
    · rw [not_held_of_sent hsent] at hheld
      cases hheld
  · refine ⟨fun h => ?_, fun _ => ?_⟩
    · rw [hsent] at h
      cases h
    · obtain ⟨latest, _, hl, -⟩ := keylessHeld_iff.1 hk
      simp [hl, asInt]

/-- An answer with a freshness echo, or one that holds the send, is accepted natively exactly when
it is accepted keylessly and has what only the native lane asks for; both read the same from it, and
take no boolean for a sequence that they report. -/
theorem freshness_validators_compare (sameNumber : FloatText → Int → Bool) (request : RequestFreshness)
    (raw : List (String × Json)) (envelopeId : Json)
    (hbody : isText "held" (field "state" raw) = true ∨ has "freshness" raw = true) :
    ((validateChannelResponse sameNumber request (.obj raw) envelopeId).accepted = true ↔
      (validateKeylessResponse sameNumber request (.obj raw)).accepted = true ∧ NativeOnly request raw envelopeId) ∧
    ((validateChannelResponse sameNumber request (.obj raw) envelopeId).accepted = true →
      validateChannelResponse sameNumber request (.obj raw) envelopeId =
        { validateKeylessResponse sameNumber request (.obj raw) with mode := none, envelopeId := asText envelopeId }) ∧
    ((validateKeylessResponse sameNumber request (.obj raw)).accepted = true → Integral raw) := by
  have hintegral := fun h => @integral_of_accepted sameNumber request raw _ ⟨rfl, h⟩
  have hagrees := fun r => @channelResponse_agrees sameNumber request raw envelopeId hbody r
  cases hnative : channelResponse sameNumber request raw envelopeId with
  | ok r =>
    have hv : validateChannelResponse sameNumber request (.obj raw) envelopeId = r := by
      rw [validateChannelResponse, hnative]
    obtain ⟨k, ⟨rfl, hk⟩, honly, heq⟩ := (hagrees r).1 hnative
    rw [hv, heq]
    exact ⟨iff_of_true hk ⟨hk, honly⟩, fun _ => rfl, hintegral⟩
  | error message =>
    have hv : validateChannelResponse sameNumber request (.obj raw) envelopeId = protocolError message := by
      rw [validateChannelResponse, hnative]
    rw [hv, accepted_protocolError]
    refine ⟨iff_of_false Bool.false_ne_true fun ⟨hk, honly⟩ => ?_, fun h => absurd h Bool.false_ne_true, hintegral⟩
    exact absurd (hnative.symm.trans ((hagrees _).2 ⟨_, ⟨rfl, hk⟩, honly, rfl⟩)) nofun

/-- A hold as the keyless server writes it, with the messages it recovered. -/
def recoveringHold : List (String × Json) :=
  [("state", .str "held"), ("envelope_id", .str "msg_1"), ("context_baseline_seq", .int 2), ("seen_seq", .int 2),
    ("latest_seq", .int 5), ("latest_envelope_id", .str "newest"), ("recovered_messages", .arr [])]

/-- The field that the native lane does not know is no obstacle on the keyless one. -/
theorem unknown_field_ignored : ¬ ∀ (request : RequestFreshness) (raw : List (String × Json)) (envelopeId : String),
    isText envelopeId (field "envelope_id" raw) = true →
      ((validateKeylessResponse (fun _ _ => false) request (.obj raw)).accepted = true ↔
        (validateChannelResponse (fun _ _ => false) request (.obj raw) (.str envelopeId)).accepted = true) := by
  intro h
  have hiff := h ⟨"require_current", some 2, 2⟩ recoveringHold "msg_1" (by decide)
  exact absurd (hiff.1 (by decide)) (by decide)

/-- Without that field both lanes accept the hold, and read the same from it. -/
theorem freshness_validators_compare_hold :
    (validateKeylessResponse (fun _ _ => false) ⟨"require_current", some 2, 2⟩ (.obj (recoveringHold.take 6))).accepted =
        true ∧
      validateChannelResponse (fun _ _ => false) ⟨"require_current", some 2, 2⟩ (.obj (recoveringHold.take 6))
          (.str "msg_1") =
        { validateKeylessResponse (fun _ _ => false) ⟨"require_current", some 2, 2⟩ (.obj (recoveringHold.take 6)) with
          mode := none, envelopeId := some "msg_1" } :=
  ⟨by decide, (freshness_validators_compare (fun _ _ => false) ⟨"require_current", some 2, 2⟩ (recoveringHold.take 6)
    (.str "msg_1") (.inl (by decide))).2.1 (by decide)⟩

end Answers
end PuffoAgent.Sending
