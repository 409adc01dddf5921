import PuffoAgent.Crypto.CredentialKeys
import PuffoAgent.Ingress.Handler
import PuffoAgent.Projection.Message
import PuffoAgent.Store.ReceiptEffects

/-! Scheduled occurrences. The server chooses the wrapper and the sender has signed the template, so an event is
stored only where the two agree, under an id that its schedule, revision and time give. -/
namespace PuffoAgent.Schedules
open Relational Sql Stmt Store Text
open Ingress (MessagePayload TransportOutcome)

inductive Raised where
  | keyError (key : String)
  | valueError (message : String)
  | typeError
  | attributeError
  | outOfRange
  | store (e : StoreError)

/-- What the language decides itself: `int(text, 16)`, the `isoformat` of a time in milliseconds, which may be out
of its range, and the comparisons of floats. -/
structure Builtins where
  int16 : String → Option Int
  isoTime : Int → Option String
  floatIs : FloatText → Int → Bool
  floatsEqual : FloatText → FloatText → Bool

section Values
variable (b : Builtins)

/-- The number that an integer or a truth value is. -/
def wholeValue : Json → Option Int
  | .int n => some n
  | .bool true => some 1
  | .bool false => some 0
  | _ => none

def numbersEqual : Json → Json → Bool
  | .float f, .float g => b.floatsEqual f g
  | .float f, v | v, .float f => (wholeValue v).any (b.floatIs f)
  | v, w => (wholeValue v).isSome ∧ wholeValue v = wholeValue w

mutual
/-- `v == w` of parsed values. -/
def same : Json → Json → Bool
  | .null, .null => true
  | .str s, .str t => s = t
  | .arr vs, .arr ws => sameItems vs ws
  | .obj ms, .obj ns => ns.all (fun n => ms.any (·.1 = n.1)) ∧ sameMembers ms (.obj ns)
  | v, w => numbersEqual b v w

def sameItems : List Json → List Json → Bool
  | [], [] => true
  | v :: vs, w :: ws => same v w ∧ sameItems vs ws
  | _, _ => false

/-- Every entry that no later one replaces has an equal one in `d`. -/
def sameMembers : List (String × Json) → Json → Bool
  | [], _ => true
  | (k, v) :: ms, d => (ms.any (·.1 = k) ∨ (d.member k).any fun w => same v w) ∧ sameMembers ms d
end

/-- `d[key]`. -/
def item (d : Json) (key : String) : Except Raised Json :=
  match d with
  | .obj members => match Json.member key (.obj members) with
    | some value => .ok value
    | none => .error (.keyError key)
  | _ => .error .typeError

/-- `if p: raise ValueError(message)`. -/
def refuse (p : Prop) [Decidable p] (message : String) : Except Raised Unit :=
  if p then .error (.valueError message) else .ok ()

/-- A value whose type is `int`. -/
def wholeNumber (message : String) : Json → Except Raised Int
  | .int n => .ok n
  | _ => .error (.valueError message)

def uuid : Json → Except Raised (Fin (2 ^ 128))
  | .str s => (Crypto.uuidOf b.int16 s).mapError .valueError
  | .null => .error .typeError
  | _ => .error .attributeError

/-- The thirty-two hexadecimal digits. -/
def uuidDigits (id : Fin (2 ^ 128)) : List Char :=
  (List.range 32).map fun i => Nat.digitChar (id / 16 ^ (31 - i) % 16)

/-- `str(UUID)`: the digits in groups. -/
def uuidText (id : Fin (2 ^ 128)) : String :=
  let digits := uuidDigits id
  String.ofList (digits.take 8 ++ '-' :: (digits.drop 8).take 4 ++ '-' :: (digits.drop 12).take 4 ++
    '-' :: (digits.drop 16).take 4 ++ '-' :: digits.drop 20)

variable {b}

theorem same_str {v : Json} {s : String} : same b v (.str s) = true ↔ v = .str s := by
  cases v with
  | str t => simp [same]
  | null | int | arr | obj => simp [same, numbersEqual, wholeValue]
  | bool c => cases c <;> simp [same, numbersEqual, wholeValue]
  | float => simp [same, numbersEqual, wholeValue]

theorem str_same {v : Json} {s : String} : same b (.str s) v = true ↔ v = .str s := by
  cases v with
  | str t => simp [same, eq_comm]
  | null | int | arr | obj => simp [same, numbersEqual, wholeValue]
  | bool c => cases c <;> simp [same, numbersEqual, wholeValue]
  | float => simp [same, numbersEqual, wholeValue]

theorem same_null {v : Json} : same b v .null = true ↔ v = .null := by
  cases v with
  | null => simp [same]
  | str | int | arr | obj => simp [same, numbersEqual, wholeValue]
  | bool c => cases c <;> simp [same, numbersEqual, wholeValue]
  | float => simp [same, numbersEqual, wholeValue]

theorem item_ok_iff {d value : Json} {key : String} : item d key = .ok value ↔ d.member key = some value := by
  unfold item
  cases d with
  | obj members => cases h : Json.member key (.obj members) <;> simp [h]
  | null | bool | int | float | str | arr => simp [Json.member]

theorem refuse_ok_iff {p : Prop} [Decidable p] {message : String} {u : Unit} : refuse p message = .ok u ↔ ¬ p := by
  unfold refuse
  split <;> simp [*]

theorem wholeNumber_ok_iff {v : Json} {message : String} {n : Int} : wholeNumber message v = .ok n ↔ v = .int n := by
  cases v <;> simp [wholeNumber]

theorem matches_true {v : Json} (h : ¬ ¬ (v matches .bool true)) : v = .bool true := by
  cases v with
  | bool c =>
    cases c with
    | true => rfl
    | false => simp at h
  | null | int | float | str | arr | obj => simp at h

theorem uuid_text {v : Json} {id : Fin (2 ^ 128)} (h : uuid b v = .ok id) : ∃ s, v = .str s := by
  cases v with
  | str s => exact ⟨s, rfl⟩
  | null | bool | int | float | arr | obj => cases h

theorem digitChar_notMark : ∀ n < 16, Nat.digitChar n ≠ '-' ∧ Nat.digitChar n ≠ ':' := by decide

theorem uuidDigits_notMark {id : Fin (2 ^ 128)} {c : Char} (h : c ∈ uuidDigits id) : c ≠ '-' ∧ c ≠ ':' := by
  obtain ⟨i, -, rfl⟩ := List.mem_map.1 h
  exact digitChar_notMark _ (Nat.mod_lt _ (by decide))

/-- Numbers whose last digits agree are equal up to them. -/
theorem mod_of_digits {m n : ℕ} (k : ℕ) (h : ∀ i < k, m / 16 ^ i % 16 = n / 16 ^ i % 16) : m % 16 ^ k = n % 16 ^ k := by
  induction k with
  | zero => simp [Nat.mod_one]
  | succ k ih => rw [Nat.mod_pow_succ, Nat.mod_pow_succ, ih fun i hi => h i (by omega), h k (by omega)]

theorem uuidDigits_injective : Function.Injective uuidDigits := by
  intro x y h
  have hdigits : ∀ i < 32, x.1 / 16 ^ i % 16 = y.1 / 16 ^ i % 16 := by
    intro i hi
    have hchar := List.map_inj_left.1 h (31 - i) (List.mem_range.2 (by omega))
    rw [show 31 - (31 - i) = i by omega] at hchar
    have hvalue := congrArg Json.hexValue hchar
    rw [Json.hexValue_digitChar _ (Nat.mod_lt _ (by decide)), Json.hexValue_digitChar _ (Nat.mod_lt _ (by decide))] at hvalue
    exact Option.some.inj hvalue
  have hmod := mod_of_digits 32 hdigits
  rw [Nat.mod_eq_of_lt (lt_of_lt_of_eq x.2 (by decide)), Nat.mod_eq_of_lt (lt_of_lt_of_eq y.2 (by decide))] at hmod
  exact Fin.ext hmod

/-- The digits are what the text is without its hyphens. -/
theorem uuidText_digits (id : Fin (2 ^ 128)) : (uuidText id).toList.filter (· ≠ '-') = uuidDigits id := by
  have hall : ∀ part : List Char, (∀ c ∈ part, c ∈ uuidDigits id) → part.filter (fun c => decide (c ≠ '-')) = part :=
    fun part hpart => List.filter_eq_self.2 fun c hc => decide_eq_true (uuidDigits_notMark (hpart c hc)).1
  have hparts : uuidDigits id = (uuidDigits id).take 8 ++ ((uuidDigits id).drop 8).take 4 ++
      ((uuidDigits id).drop 12).take 4 ++ ((uuidDigits id).drop 16).take 4 ++ (uuidDigits id).drop 20 := rfl
  have htake (m n : ℕ) (c : Char) (hc : c ∈ ((uuidDigits id).drop m).take n) : c ∈ uuidDigits id :=
    List.mem_of_mem_drop (List.mem_of_mem_take hc)
  rw [uuidText, String.toList_ofList]
  simp only [List.filter_append, List.filter_cons, ne_eq, not_true_eq_false, decide_false, Bool.false_eq_true, if_false]
  rw [hall _ fun c => List.mem_of_mem_take, hall _ (htake 8 4), hall _ (htake 12 4), hall _ (htake 16 4),
    hall _ fun c => List.mem_of_mem_drop]
  exact hparts.symm

theorem uuidText_injective : Function.Injective uuidText := fun x y h =>
  uuidDigits_injective (by rw [← uuidText_digits, h, uuidText_digits])

theorem uuidText_notColon (id : Fin (2 ^ 128)) : ':' ∉ (uuidText id).toList := by
  intro h
  have hdigit : ':' ∈ uuidDigits id := by
    rw [← uuidText_digits]
    exact List.mem_filter.2 ⟨h, by decide⟩
  exact (uuidDigits_notMark hdigit).2 rfl

end Values

section Verify
variable (b : Builtins)

/-- `CONTENT_TYPE`. -/
def contentType : String := "application/puffo-schedule+json"

/-- A text that is not only space, of at most `maximum` bytes. -/
def isScheduleText (maximum : Nat) : Json → Bool
  | .str s => strip s ≠ "" ∧ byteSize s ≤ maximum
  | _ => false

def checkScheduleText (content : Json) (key : String) (maximum : Nat) : Except Raised Unit := do
  let value ← item content key
  refuse (¬ isScheduleText maximum value) "invalid encrypted schedule content"

def validateScheduleText (content : Json) : Except Raised Unit := do
  checkScheduleText content "name" 120
  checkScheduleText content "prompt" 16384

/-- What the signed content has to hold, as the wrapper says it. -/
def expectedMembers (agent : String) (delivery : Json) : Except Raised (List (String × Json)) := do
  let scheduleId ← item delivery "schedule_id"
  let revision ← item delivery "revision"
  let ownerSlug ← item delivery "owner_slug"
  let firstRunAt ← item delivery "first_run_at"
  let intervalSeconds ← item delivery "interval_seconds"
  return [("version", .int 1), ("agent_id", .str agent), ("schedule_id", scheduleId), ("revision", revision),
    ("owner_slug", ownerSlug), ("first_run_at", firstRunAt), ("interval_seconds", intervalSeconds)]

/-- `content.get(key) == value`. -/
def holds (content : Json) (e : String × Json) : Bool := same b ((content.member e.1).getD .null) e.2

/-- `validate_plan`. -/
def validatePlan (payload : MessagePayload) (delivery : Json) (agent : String) (sender : Json) :
    Except Raised Unit := do
  let expected ← expectedMembers agent delivery
  let ownerSlug ← item delivery "owner_slug"
  refuse (payload.contentType ≠ contentType ∨ payload.envelopeKind ≠ "dm" ∨ payload.recipientSlug ≠ some agent ∨
      ¬ same b sender (.str payload.senderSlug) ∨
      (payload.senderSlug ≠ agent ∧ ¬ same b ownerSlug (.str payload.senderSlug)) ∨
      ¬ (payload.content matches .obj _) ∨ ¬ expected.all (holds b payload.content))
    "schedule signature binding mismatch"
  let scheduleId ← item payload.content "schedule_id"
  let _ ← uuid b scheduleId
  let revision ← item payload.content "revision"
  let _ ← uuid b revision
  validateScheduleText payload.content

/-- The recurrence: `interval` is in seconds, and without one there is the first run alone. -/
def onGrid (due first : Int) (interval : Json) : Bool :=
  match interval with
  | .null => due = first
  | .int n => 60 ≤ n ∧ n ≤ 31536000 ∧ (due - first) % (n * 1000) = 0
  | _ => false

/-- The content that `verified_occurrence` returns. -/
def occurrenceContent (scheduleId revision : Json) (owner : String) (due : Int) (name prompt : Json) :
    List (String × Json) :=
  [("event_type", .str "scheduled_task"), ("sender_type", .str "system"), ("schedule_id", scheduleId),
    ("revision", revision), ("owner_slug", .str owner), ("scheduled_at", .int due), ("name", name), ("text", prompt)]

/-- `verified_occurrence`, at the time `now` in milliseconds. -/
def verifiedOccurrence (payload : MessagePayload) (delivery : Json) (agent owner : String) (now : Int) :
    Except Raised (List (String × Json)) := do
  let template ← item delivery "template"
  let sender ← item template "sender_slug"
  validatePlan b payload delivery agent sender
  let scheduledAt ← item delivery "scheduled_at"
  let firstRunAt ← item delivery "first_run_at"
  let interval ← item delivery "interval_seconds"
  let kind ← item delivery "type"
  refuse (¬ same b kind (.str "scheduled_message_envelope")) "invalid scheduled occurrence"
  let version ← item delivery "version"
  refuse (¬ same b version (.int 1)) "invalid scheduled occurrence"
  let ownerSlug ← item delivery "owner_slug"
  refuse (owner = "" ∨ ¬ same b ownerSlug (.str owner)) "invalid scheduled occurrence"
  let enabled ← item payload.content "enabled"
  refuse (¬ (enabled matches .bool true)) "invalid scheduled occurrence"
  let due ← wholeNumber "invalid scheduled occurrence" scheduledAt
  let first ← wholeNumber "invalid scheduled occurrence" firstRunAt
  refuse (due < first ∨ now + 5000 < due) "invalid scheduled occurrence"
  refuse (¬ onGrid due first interval) "occurrence does not match signed recurrence"
  let scheduleId ← item delivery "schedule_id"
  let revision ← item delivery "revision"
  let name ← item payload.content "name"
  let prompt ← item payload.content "prompt"
  return occurrenceContent scheduleId revision owner due name prompt

/-- The signed value is the number, in one of the ways the language writes it. -/
def SignedNumber (content : Json) (key : String) (n : Int) : Prop :=
  ∃ value, content.member key = some value ∧ same b value (.int n) = true

/-- The time is the signed first run, or a multiple of the signed interval after it. -/
def OnSignedGrid (content : Json) (due : Int) : Prop :=
  ∃ first, SignedNumber b content "first_run_at" first ∧
    (((content.member "interval_seconds").getD .null = .null ∧ due = first) ∨
      ∃ interval k : ℕ, SignedNumber b content "interval_seconds" interval ∧ 60 ≤ interval ∧ interval ≤ 31536000 ∧
        due = first + k * (interval * 1000))

/-- The sender's plan lets this agent run at `due`, which is at most five seconds after `now`. -/
structure Licensed (payload : MessagePayload) (agent owner : String) (now due : Int) : Prop where
  direct : payload.envelopeKind = "dm"
  sender : payload.senderSlug = agent ∨ payload.senderSlug = owner
  recipient : payload.recipientSlug = some agent
  addressed : payload.content.member "agent_id" = some (.str agent)
  configured : owner ≠ ""
  owned : payload.content.member "owner_slug" = some (.str owner)
  enabled : payload.content.member "enabled" = some (.bool true)
  grid : OnSignedGrid b payload.content due
  ahead : due ≤ now + 5000

variable {b}

theorem holds_text {content : Json} {key text : String} (h : holds b content (key, .str text) = true) :
    content.member key = some (.str text) := by
  have hvalue := same_str.1 h
  cases hm : content.member key with
  | none => simp [hm] at hvalue
  | some value => simpa [hm] using hvalue

theorem holds_number {content : Json} {key : String} {n : Int} (h : holds b content (key, .int n) = true) :
    SignedNumber b content key n := by
  unfold holds at h
  cases hm : content.member key with
  | none => simp [hm, same, numbersEqual, wholeValue] at h
  | some value => exact ⟨value, hm, by simpa [hm] using h⟩

/-- What the two texts of a plan are. -/
theorem validateScheduleText_ok {content : Json} {u : Unit} (h : validateScheduleText content = .ok u) :
    ∃ name prompt, content.member "name" = some (.str name) ∧ content.member "prompt" = some (.str prompt) := by
  have htext {key : String} {maximum : Nat} {u : Unit} (h : checkScheduleText content key maximum = .ok u) :
      ∃ text, content.member key = some (.str text) := by
    obtain ⟨value, hitem, h⟩ := except_bind_ok_iff.1 h
    have hcheck := refuse_ok_iff.1 h
    cases value with
    | str text => exact ⟨text, item_ok_iff.1 hitem⟩
    | null | bool | int | float | arr | obj => simp [isScheduleText] at hcheck
  obtain ⟨_, hname, hprompt⟩ := except_bind_ok_iff.1 h
  obtain ⟨name, hname⟩ := htext hname
  obtain ⟨prompt, hprompt⟩ := htext hprompt
  exact ⟨name, prompt, hname, hprompt⟩

/-- The times on the grid are those that the signed recurrence gives. -/
theorem onGrid_iff {due first : Int} {interval : Json} (hle : first ≤ due) : onGrid due first interval = true ↔
    (interval = .null ∧ due = first) ∨
      ∃ n k : ℕ, interval = .int n ∧ 60 ≤ n ∧ n ≤ 31536000 ∧ due = first + k * (n * 1000) := by
  cases interval with
  | null => simp [onGrid]
  | bool | float | str | arr | obj => simp [onGrid]
  | int n =>
    simp only [onGrid, decide_eq_true_eq, reduceCtorEq, false_and, false_or, Json.int.injEq]
    constructor
    · rintro ⟨hlow, hhigh, hmod⟩
      obtain ⟨k, hk⟩ := Int.dvd_of_emod_eq_zero hmod
      have hk0 : 0 ≤ k := by
        by_contra hneg
        have hlow : n * 1000 * k < 0 := Int.mul_neg_of_pos_of_neg (by omega) (by omega)
        omega
      refine ⟨n.toNat, k.toNat, by omega, by omega, by omega, ?_⟩
      rw [Int.toNat_of_nonneg hk0, Int.toNat_of_nonneg (by omega), Int.mul_comm k]
      omega
    · rintro ⟨m, k, rfl, hlow, hhigh, rfl⟩
      refine ⟨by omega, by omega, ?_⟩
      rw [Int.add_comm first, Int.add_sub_cancel, Int.mul_emod_left]

/-- What the plan and the wrapper have been compared for. -/
structure Bound (b : Builtins) (payload : MessagePayload) (delivery : Json) (agent : String) : Prop where
  direct : payload.envelopeKind = "dm"
  recipient : payload.recipientSlug = some agent
  sender : payload.senderSlug = agent ∨ delivery.member "owner_slug" = some (.str payload.senderSlug)
  addressed : payload.content.member "agent_id" = some (.str agent)
  held : ∀ key value, key ∈ ["schedule_id", "revision", "owner_slug", "first_run_at", "interval_seconds"] →
    delivery.member key = some value → holds b payload.content (key, value) = true
  schedule : ∃ s id, payload.content.member "schedule_id" = some (.str s) ∧ uuid b (.str s) = .ok id
  revision : ∃ s id, payload.content.member "revision" = some (.str s) ∧ uuid b (.str s) = .ok id
  texts : ∃ name prompt, payload.content.member "name" = some (.str name) ∧
    payload.content.member "prompt" = some (.str prompt)

theorem expectedMembers_ok {agent : String} {delivery : Json} {expected : List (String × Json)}
    (h : expectedMembers agent delivery = .ok expected) : ("agent_id", .str agent) ∈ expected ∧
      ∀ key value, key ∈ ["schedule_id", "revision", "owner_slug", "first_run_at", "interval_seconds"] →
        delivery.member key = some value → (key, value) ∈ expected := by
  obtain ⟨scheduleId, hschedule, h⟩ := except_bind_ok_iff.1 h
  obtain ⟨revision, hrevision, h⟩ := except_bind_ok_iff.1 h
  obtain ⟨ownerSlug, howner, h⟩ := except_bind_ok_iff.1 h
  obtain ⟨firstRunAt, hfirst, h⟩ := except_bind_ok_iff.1 h
  obtain ⟨interval, hinterval, h⟩ := except_bind_ok_iff.1 h
  obtain rfl := Except.ok.inj h
  rw [item_ok_iff] at hschedule hrevision howner hfirst hinterval
  refine ⟨by simp, fun key value hkey hvalue => ?_⟩
  simp only [List.mem_cons, List.not_mem_nil, or_false] at hkey
  rcases hkey with rfl | rfl | rfl | rfl | rfl
  · simp [Option.some.inj (hvalue.symm.trans hschedule)]
  · simp [Option.some.inj (hvalue.symm.trans hrevision)]
  · simp [Option.some.inj (hvalue.symm.trans howner)]
  · simp [Option.some.inj (hvalue.symm.trans hfirst)]
  · simp [Option.some.inj (hvalue.symm.trans hinterval)]

theorem validatePlan_ok {payload : MessagePayload} {delivery sender : Json} {agent : String} {u : Unit}
    (h : validatePlan b payload delivery agent sender = .ok u) : Bound b payload delivery agent := by
  obtain ⟨expected, hexpected, h⟩ := except_bind_ok_iff.1 h
  obtain ⟨ownerSlug, howner, h⟩ := except_bind_ok_iff.1 h
  obtain ⟨_, hcheck, h⟩ := except_bind_ok_iff.1 h
  obtain ⟨scheduleId, hschedule, h⟩ := except_bind_ok_iff.1 h
  obtain ⟨schedule, hscheduleId, h⟩ := except_bind_ok_iff.1 h
  obtain ⟨revisionId, hrevision, h⟩ := except_bind_ok_iff.1 h
  obtain ⟨revision, hrevisionId, htexts⟩ := except_bind_ok_iff.1 h
  have hcheck := refuse_ok_iff.1 hcheck
  push Not at hcheck
  obtain ⟨-, hdirect, hrecipient, -, hsender, -, hall⟩ := hcheck
  obtain ⟨hagent, hkeys⟩ := expectedMembers_ok hexpected
  obtain ⟨s, rfl⟩ := uuid_text hscheduleId
  obtain ⟨r, rfl⟩ := uuid_text hrevisionId
  refine ⟨hdirect, hrecipient, ?_, holds_text (List.all_eq_true.1 hall _ hagent), ?_,
    ⟨s, schedule, item_ok_iff.1 hschedule, hscheduleId⟩, ⟨r, revision, item_ok_iff.1 hrevision, hrevisionId⟩,
    validateScheduleText_ok htexts⟩
  · by_cases hown : payload.senderSlug = agent
    · exact .inl hown
    · rw [← same_str.1 (hsender hown)]
      exact .inr (item_ok_iff.1 howner)
  · exact fun key value hkey hvalue => List.all_eq_true.1 hall _ (hkeys key value hkey hvalue)

theorem verifiedOccurrence_ok {payload : MessagePayload} {delivery : Json} {agent owner : String} {now : Int}
    {content : List (String × Json)} (h : verifiedOccurrence b payload delivery agent owner now = .ok content) :
    ∃ s r due name prompt, delivery.member "schedule_id" = some (.str s) ∧ delivery.member "revision" = some (.str r) ∧
      delivery.member "scheduled_at" = some (.int due) ∧ payload.content.member "schedule_id" = some (.str s) ∧
      payload.content.member "revision" = some (.str r) ∧ payload.content.member "name" = some (.str name) ∧
      payload.content.member "prompt" = some (.str prompt) ∧ Licensed b payload agent owner now due ∧
      content = occurrenceContent (.str s) (.str r) owner due (.str name) (.str prompt) := by
  obtain ⟨template, -, h⟩ := except_bind_ok_iff.1 h
  obtain ⟨sender, -, h⟩ := except_bind_ok_iff.1 h
  obtain ⟨_, hplan, h⟩ := except_bind_ok_iff.1 h
  obtain ⟨scheduledAt, hscheduled, h⟩ := except_bind_ok_iff.1 h
  obtain ⟨firstRunAt, hfirstRun, h⟩ := except_bind_ok_iff.1 h
  obtain ⟨interval, hinterval, h⟩ := except_bind_ok_iff.1 h
  obtain ⟨kind, -, h⟩ := except_bind_ok_iff.1 h
  obtain ⟨_, -, h⟩ := except_bind_ok_iff.1 h
  obtain ⟨version, -, h⟩ := except_bind_ok_iff.1 h
  obtain ⟨_, -, h⟩ := except_bind_ok_iff.1 h
  obtain ⟨ownerSlug, howner, h⟩ := except_bind_ok_iff.1 h
  obtain ⟨_, howned, h⟩ := except_bind_ok_iff.1 h
  obtain ⟨enabled, henabled, h⟩ := except_bind_ok_iff.1 h
  obtain ⟨_, htrue, h⟩ := except_bind_ok_iff.1 h
  obtain ⟨due, hdue, h⟩ := except_bind_ok_iff.1 h
  obtain ⟨first, hfirst, h⟩ := except_bind_ok_iff.1 h
  obtain ⟨_, htimes, h⟩ := except_bind_ok_iff.1 h
  obtain ⟨_, hgrid, h⟩ := except_bind_ok_iff.1 h
  obtain ⟨scheduleId, hschedule, h⟩ := except_bind_ok_iff.1 h
  obtain ⟨revision, hrevision, h⟩ := except_bind_ok_iff.1 h
  obtain ⟨nameValue, hname, h⟩ := except_bind_ok_iff.1 h
  obtain ⟨promptValue, hprompt, h⟩ := except_bind_ok_iff.1 h
  obtain rfl := Except.ok.inj h
  rw [item_ok_iff] at hscheduled hfirstRun hinterval howner henabled hschedule hrevision hname hprompt
  rw [wholeNumber_ok_iff] at hdue hfirst
  rw [refuse_ok_iff] at howned htrue htimes hgrid
  have hbound := validatePlan_ok hplan
  obtain ⟨name, prompt, hsignedName, hsignedPrompt⟩ := hbound.texts
  obtain ⟨s, _, hs, -⟩ := hbound.schedule
  obtain ⟨r, _, hr, -⟩ := hbound.revision
  -- the wrapper says what is signed, so that its values are texts too
  have hwrapped {key value text} (hkey : key ∈ ["schedule_id", "revision", "owner_slug", "first_run_at", "interval_seconds"])
      (hvalue : delivery.member key = some value) (htext : payload.content.member key = some (.str text)) :
      value = .str text := by
    have hheld := hbound.held key value hkey hvalue
    rw [holds, htext] at hheld
    exact str_same.1 hheld
  obtain rfl := hwrapped (by simp) hschedule hs
  obtain rfl := hwrapped (by simp) hrevision hr
  obtain rfl := Option.some.inj (hname.symm.trans hsignedName)
  obtain rfl := Option.some.inj (hprompt.symm.trans hsignedPrompt)
  subst hdue hfirst
  obtain rfl := matches_true htrue
  push Not at howned htimes hgrid
  obtain rfl := same_str.1 howned.2
  refine ⟨s, r, due, name, prompt, hschedule, hrevision, hscheduled, hs, hr, hsignedName, hsignedPrompt, ?_, rfl⟩
  have hfirstSigned := holds_number (hbound.held _ _ (by simp) hfirstRun)
  refine ⟨hbound.direct, ?_, hbound.recipient, hbound.addressed, howned.1,
    holds_text (hbound.held _ _ (by simp) howner), henabled, ⟨first, hfirstSigned, ?_⟩, htimes.2⟩
  · exact hbound.sender.imp_right fun hs => Json.str.inj (Option.some.inj (hs.symm.trans howner))
  · rcases (onGrid_iff htimes.1).1 hgrid with ⟨rfl, hat⟩ | ⟨n, k, rfl, hlow, hhigh, hat⟩
    · exact .inl ⟨same_null.1 (hbound.held _ _ (by simp) hinterval), hat⟩
    · exact .inr ⟨n, k, holds_number (hbound.held _ _ (by simp) hinterval), hlow, hhigh, hat⟩

/-- A step that may raise is followed by another one that returns the same. -/
theorem bind_same {α β : Type} {x : Except Raised α} {f g : α → Except Raised β} {c : β} (h : (x >>= f) = .ok c)
    (hfg : ∀ a, f a = .ok c → g a = .ok c) : (x >>= g) = .ok c := by
  obtain ⟨a, hx, hf⟩ := except_bind_ok_iff.1 h
  exact except_bind_ok_iff.2 ⟨a, hx, hfg a hf⟩

/-- What is verified at one time is verified later, as the same. -/
theorem verifiedOccurrence_later {payload : MessagePayload} {delivery : Json} {agent owner : String} {now later : Int}
    (hle : now ≤ later) {content : List (String × Json)}
    (h : verifiedOccurrence b payload delivery agent owner now = .ok content) :
    verifiedOccurrence b payload delivery agent owner later = .ok content := by
  unfold verifiedOccurrence at h ⊢
  iterate 14 refine bind_same h fun _ h => ?_
  refine bind_same h fun due h => ?_
  refine bind_same h fun first h => ?_
  obtain ⟨_, htimes, h⟩ := except_bind_ok_iff.1 h
  rw [refuse_ok_iff] at htimes
  push Not at htimes
  refine except_bind_ok_iff.2 ⟨(), refuse_ok_iff.2 ?_, h⟩
  push Not
  exact ⟨htimes.1, by omega⟩

end Verify

section Commit
variable (b : Builtins)

/-- What an occurrence is: its schedule, the revision and the time. -/
@[ext] structure Identity where
  schedule : Fin (2 ^ 128)
  revision : Fin (2 ^ 128)
  due : Int
  deriving DecidableEq

def Identity.runId (i : Identity) : String := uuidText i.schedule ++ ":" ++ uuidText i.revision ++ ":" ++ toString i.due

def Identity.envelopeId (i : Identity) : String := "schedule-run:" ++ i.runId

/-- Two runs have two ids. -/
theorem Identity.envelopeId_injective : Function.Injective Identity.envelopeId := by
  intro i j h
  have hid : (uuidText i.schedule).toList ++ ':' :: ((uuidText i.revision).toList ++ ':' :: (toString i.due).toList) =
      (uuidText j.schedule).toList ++ ':' :: ((uuidText j.revision).toList ++ ':' :: (toString j.due).toList) := by
    have hlist := congrArg String.toList h
    simpa [envelopeId, runId] using hlist
  obtain ⟨hschedule, hrest⟩ := Codes.append_mark_inj (uuidText_notColon _) (uuidText_notColon _) hid
  obtain ⟨hrevision, hdue⟩ := Codes.append_mark_inj (uuidText_notColon _) (uuidText_notColon _) hrest
  have hdue : i.due = j.due := by
    rw [Json.toList_toString_int, Json.toList_toString_int] at hdue
    rw [← Json.intOfText_intText i.due, hdue, Json.intOfText_intText]
  exact Identity.ext (uuidText_injective (String.toList_inj.1 hschedule)) (uuidText_injective (String.toList_inj.1 hrevision))
    hdue

/-- The event of a run; `iso` is its time. -/
def Identity.event (i : Identity) (content : List (String × Json)) (iso agent owner : String) : Payload where
  envelopeId := i.envelopeId
  envelopeKind := "dm"
  senderSlug := owner
  recipientSlug := some agent
  contentType := contentType
  content := .obj (Json.setMember "scheduled_at" (.str iso) (Json.setMember "run_id" (.str i.runId) content))
  sentAt := i.due
  isEncrypted := true

/-- The event that `commit_occurrence` stores for the verified content. -/
def occurrenceEvent (content : List (String × Json)) (agent owner : String) : Except Raised Payload := do
  let schedule ← item (.obj content) "schedule_id" >>= uuid b
  let revision ← item (.obj content) "revision" >>= uuid b
  let scheduledAt ← item (.obj content) "scheduled_at"
  let due ← wholeNumber "scheduled occurrence owner mismatch" scheduledAt
  let ownerSlug ← item (.obj content) "owner_slug"
  refuse (owner = "" ∨ ¬ same b ownerSlug (.str owner)) "scheduled occurrence owner mismatch"
  let eventType ← item (.obj content) "event_type"
  refuse (¬ same b eventType (.str "scheduled_task")) "scheduled occurrence owner mismatch"
  let senderType ← item (.obj content) "sender_type"
  refuse (¬ same b senderType (.str "system")) "scheduled occurrence owner mismatch"
  let iso ← (b.isoTime due).elim (.error .outOfRange) .ok
  return Identity.event ⟨schedule, revision, due⟩ content iso agent owner

/-- The ids of the schedule and its revision that a plan or a wrapper gives. -/
structure Names (v : Json) (i : Identity) : Prop where
  schedule : ∃ s, v.member "schedule_id" = some (.str s) ∧ uuid b (.str s) = .ok i.schedule
  revision : ∃ r, v.member "revision" = some (.str r) ∧ uuid b (.str r) = .ok i.revision

variable {b}

theorem Names.ext {v : Json} {i j : Identity} (hi : Names b v i) (hj : Names b v j) (hdue : i.due = j.due) : i = j := by
  obtain ⟨s, hs, his⟩ := hi.schedule
  obtain ⟨r, hr, hir⟩ := hi.revision
  obtain ⟨s', hs', hjs⟩ := hj.schedule
  obtain ⟨r', hr', hjr⟩ := hj.revision
  obtain rfl := Json.str.inj (Option.some.inj (hs.symm.trans hs'))
  obtain rfl := Json.str.inj (Option.some.inj (hr.symm.trans hr'))
  exact Identity.ext (Except.ok.inj (his.symm.trans hjs)) (Except.ok.inj (hir.symm.trans hjr)) hdue

theorem occurrenceEvent_ok {s r name prompt agent owner : String} {due : Int} {event : Payload}
    (h : occurrenceEvent b (occurrenceContent (.str s) (.str r) owner due (.str name) (.str prompt)) agent owner =
      .ok event) : ∃ (i : Identity) (iso : String), uuid b (.str s) = .ok i.schedule ∧ uuid b (.str r) = .ok i.revision ∧ i.due = due ∧
      event = i.event (occurrenceContent (.str s) (.str r) owner due (.str name) (.str prompt)) iso agent owner := by
  obtain ⟨schedule, hschedule, h⟩ := except_bind_ok_iff.1 h
  obtain ⟨revision, hrevision, h⟩ := except_bind_ok_iff.1 h
  obtain ⟨scheduledAt, hscheduled, h⟩ := except_bind_ok_iff.1 h
  obtain ⟨due', hdue, h⟩ := except_bind_ok_iff.1 h
  obtain ⟨ownerSlug, -, h⟩ := except_bind_ok_iff.1 h
  obtain ⟨_, -, h⟩ := except_bind_ok_iff.1 h
  obtain ⟨eventType, -, h⟩ := except_bind_ok_iff.1 h
  obtain ⟨_, -, h⟩ := except_bind_ok_iff.1 h
  obtain ⟨senderType, -, h⟩ := except_bind_ok_iff.1 h
  obtain ⟨_, -, h⟩ := except_bind_ok_iff.1 h
  obtain ⟨iso, -, h⟩ := except_bind_ok_iff.1 h
  obtain rfl := Except.ok.inj h
  obtain ⟨value, hs, hschedule⟩ := except_bind_ok_iff.1 hschedule
  obtain ⟨value', hr, hrevision⟩ := except_bind_ok_iff.1 hrevision
  obtain rfl : .str s = value := Option.some.inj (item_ok_iff.1 hs)
  obtain rfl : .str r = value' := Option.some.inj (item_ok_iff.1 hr)
  obtain rfl : .int due = scheduledAt := Option.some.inj (item_ok_iff.1 hscheduled)
  obtain rfl := Json.int.inj (wholeNumber_ok_iff.1 hdue)
  exact ⟨⟨schedule, revision, due⟩, iso, hschedule, hrevision, rfl, rfl⟩

/-- The event carries the name and the prompt of the content. -/
theorem event_texts (i : Identity) (iso agent owner s r name prompt : String) (due : Int) :
    let content := occurrenceContent (.str s) (.str r) owner due (.str name) (.str prompt)
    (i.event content iso agent owner).content.member "name" = some (.str name) ∧
      (i.event content iso agent owner).content.member "text" = some (.str prompt) := ⟨rfl, rfl⟩

end Commit

section Handle

/-- The configuration that the handler compares with. -/
structure Client where
  slug : String
  operatorSlug : String

/-- A delivery whose envelope is a scheduled one, with what `_open_payload` gives for its template and the clock
readings while it is handled. -/
structure Delivery where
  envelope : Json
  opened : Except Raised (Option (MessagePayload × Bool))
  now : Int
  receivedAt : Int
  storedAt : Int

/-- How a delivery ends: an outcome for the transport, or an exception. -/
inductive Handled where
  | outcome (o : TransportOutcome)
  | raised (e : Raised)

variable (b : Builtins) (client : Client)

/-- The event that a delivery asks for; `none` is held back. -/
def eventOf (d : Delivery) : Except Raised (Option Payload) := do
  let _ ← item d.envelope "template"
  match ← d.opened with
  | none => return none
  | some (payload, plaintext) =>
    if plaintext then return none
    else
      let content ← verifiedOccurrence b payload d.envelope client.slug client.operatorSlug d.now
      let event ← occurrenceEvent b content client.slug client.operatorSlug
      return some event

/-- `store_local_event`, as `commit_occurrence` calls it. -/
def storeOccurrence (event : Payload) (d : Delivery) : StoreM (Option MessageRow) :=
  storeLocalEvent event "scheduled task" none d.receivedAt true d.storedAt

/-- `handle`, for a scheduled envelope. -/
def handle (d : Delivery) (s : Tables) : Handled × Tables :=
  match eventOf b client d with
  | .error e => (.raised e, s)
  | .ok none => (.outcome .hold, s)
  | .ok (some event) =>
    match storeOccurrence event d ⟨s, none⟩ with
    | .ok _ c => (.outcome .ack, c.tables)
    | .error e c => (.raised (.store e), c.tables)

def handleAll (ds : List Delivery) (s : Tables) : Tables := ds.foldl (fun s d => (handle b client d s).2) s

/-- The row of an event that is waiting for the model. -/
structure EventRow (event : Payload) (m : MessageRow) : Prop where
  envelope : m.envelopeId = event.envelopeId
  kind : m.envelopeKind = event.envelopeKind
  sender : m.senderSlug = event.senderSlug
  recipient : m.recipientSlug = event.recipientSlug
  sent : m.sentAt = event.sentAt
  content : m.content = encodeContent event.content
  disposition : m.receiptDisposition = some .localRuntime
  reason : m.receiptReason = some "scheduled task"
  waiting : m.processingState = some .pending

/-- The event arrives under an id that had no row, and no other row changes. -/
def Arrives (event : Payload) (s s' : Tables) : Prop :=
  s.messages.get? event.envelopeId = none ∧ ∃ m, EventRow event m ∧
    ∀ k, s'.messages.get? k = if event.envelopeId = k then some m else s.messages.get? k

/-- The stored row says what the event says. -/
def SameEvent (event : Payload) (m : MessageRow) : Prop :=
  m.receiptDisposition = some .localRuntime ∧ m.receiptReason = some "scheduled task" ∧
    m.content = encodeContent event.content

instance (event : Payload) (m : MessageRow) : Decidable (SameEvent event m) := inferInstanceAs (Decidable (_ ∧ _))

theorem EventRow.same {event : Payload} {m : MessageRow} (h : EventRow event m) : SameEvent event m :=
  ⟨h.disposition, h.reason, h.content⟩

theorem encodeContent_inj {v w : Json} (h : encodeContent v = encodeContent w) : v = w := by
  rw [← Projection.decodeContent_encodeContent v "" none, h, Projection.decodeContent_encodeContent]

section Store
variable {s : Tables} {event : Payload} {d : Delivery}

theorem storeOccurrence_run (hne : event.envelopeId ≠ "") : storeOccurrence event d ⟨s, none⟩ =
    EStateM.bind (transaction (storeLocalEventBody (payloadValues event d.receivedAt) "scheduled task" none true
      d.storedAt)) (fun _ => read (·.messages.get? event.envelopeId)) ⟨s, none⟩ := by
  rw [storeOccurrence, storeLocalEvent, raiseIf_bind_neg hne]
  rfl

/-- An id that has a row: the same event is accepted, and another one is refused. -/
theorem storeOccurrence_known (hne : event.envelopeId ≠ "") {m : MessageRow}
    (hm : s.messages.get? event.envelopeId = some m) : storeOccurrence event d ⟨s, none⟩ =
      if SameEvent event m then .ok (some m) ⟨s, none⟩
      else .error (conflict "local event id already has different content") ⟨s, none⟩ := by
  have hbody : storeLocalEventBody (payloadValues event d.receivedAt) "scheduled task" none true d.storedAt s =
      if SameEvent event m then .ok (.rollback ()) s
      else .error (conflict "local event id already has different content") s := by
    have hvalues : (payloadValues event d.receivedAt).envelopeId = event.envelopeId := rfl
    rw [storeLocalEventBody, query_bind_run, hvalues, hm, if_pos ⟨rfl, rfl⟩]
    by_cases hsame : SameEvent event m
    · have hclear : ¬ (some m).any (fun m => decide (m.receiptDisposition ≠ some .localRuntime ∨
          m.receiptReason ≠ some "scheduled task" ∨
          m.content ≠ (payloadValues event d.receivedAt).content)) = true := by
        simp only [Option.any_some, decide_eq_true_eq, not_or, not_not]
        exact hsame
      rw [raiseIf_bind_neg hclear, if_pos hsame]
      rfl
    · have hraise : (some m).any (fun m => decide (m.receiptDisposition ≠ some .localRuntime ∨
          m.receiptReason ≠ some "scheduled task" ∨
          m.content ≠ (payloadValues event d.receivedAt).content)) = true := by
        simp only [Option.any_some, decide_eq_true_eq]
        by_contra hno
        simp only [not_or, not_not] at hno
        exact hsame hno
      rw [if_neg hsame]
      change EStateM.bind (raiseIf _ _) _ s = _
      rw [EStateM.bind, raiseIf, if_pos hraise]
  rw [storeOccurrence_run hne, EStateM.bind, transaction_run, hbody]
  by_cases hsame : SameEvent event m
  · simp only [if_pos hsame]
    exact congrArg (EStateM.Result.ok · _) hm
  · simp only [if_neg hsame]

/-- An id without a row gets the event. -/
theorem storeOccurrence_new (d : Delivery) (hne : event.envelopeId ≠ "") (hnone : s.messages.get? event.envelopeId = none) :
    ∃ row s', storeOccurrence event d ⟨s, none⟩ = .ok row ⟨s', none⟩ ∧ Arrives event s s' := by
  have hbody : ∃ s', storeLocalEventBody (payloadValues event d.receivedAt) "scheduled task" none true d.storedAt s =
      .ok (.commit ()) s' ∧ Arrives event s s' := by
    have hvalues : (payloadValues event d.receivedAt).envelopeId = event.envelopeId := rfl
    let row : MessageRow := { payloadValues event d.receivedAt with
      receiptDisposition := some .localRuntime
      receiptReason := some "scheduled task"
      processingState := some .pending
      localOrdinal := some (localPosition s).1
      afterServerSeq := (localPosition s).2 }
    obtain ⟨t, ht⟩ : ∃ t, { s with nextOrdinal := (localPosition s).1 + 1 }.insertMessage? row = some t := by
      have hrow : event.envelopeId ∉ s.messages.rows.map MessageRow.envelopeId := Table.get?_eq_none_iff.1 hnone
      rw [Tables.insertMessage?, if_neg fun h => Bool.false_ne_true h.1]
      exact ⟨_, congrArg (Option.map _) (dif_neg hrow)⟩
    obtain ⟨-, hrows, -⟩ := Tables.insertMessage?_eq_some ht
    refine ⟨refreshNoticeState d.storedAt (some d.receivedAt) t, ?_, hnone, row,
      ⟨rfl, rfl, rfl, rfl, rfl, rfl, rfl, rfl, rfl⟩, hrows⟩
    rw [storeLocalEventBody, query_bind_run, hvalues, hnone, if_neg fun h => by simpa using h.2]
    refine bind_ok_iff.2 ⟨(), _, ?_, rfl⟩
    refine allocateLocalPosition_bind_ok_iff.2 (tryExec_bind_ok_iff.2 ⟨t, ht, rfl⟩)
  obtain ⟨s', hbody, harrives⟩ := hbody
  refine ⟨s'.messages.get? event.envelopeId, s', ?_, harrives⟩
  rw [storeOccurrence_run hne, EStateM.bind, transaction_run, hbody]
  rfl

end Store

section Runs

/-- The run that a delivery claims to be. -/
structure Identified (d : Delivery) (i : Identity) : Prop where
  names : Names b d.envelope i
  time : d.envelope.member "scheduled_at" = some (.int i.due)

/-- The event is what its sender has signed for this run, and the sender was one who may. -/
structure Signed (d : Delivery) (payload : MessagePayload) (i : Identity) (event : Payload) : Prop where
  opened : d.opened = .ok (some (payload, false))
  licensed : Licensed b payload client.slug client.operatorSlug d.now i.due
  named : Names b payload.content i
  envelope : event.envelopeId = i.envelopeId
  kind : event.envelopeKind = "dm"
  sender : event.senderSlug = client.operatorSlug
  recipient : event.recipientSlug = some client.slug
  time : event.sentAt = i.due
  texts : ∃ name prompt, payload.content.member "name" = some (.str name) ∧
    payload.content.member "prompt" = some (.str prompt) ∧ event.content.member "name" = some (.str name) ∧
    event.content.member "text" = some (.str prompt)

/-- The delivery changes nothing, or it is accepted and the signed event arrives. -/
def RunsSigned (d : Delivery) (s : Tables) : Prop :=
  (handle b client d s).2 = s ∨ ((handle b client d s).1 = .outcome .ack ∧ ∃ payload i event,
    Identified b d i ∧ Signed b client d payload i event ∧ Arrives event s (handle b client d s).2)

/-- After `d` was accepted in `s`, a later delivery of the same run finds `t` and leaves it: the same event is
accepted, and another one raises. -/
def RunsOnce (d d' : Delivery) (s t : Tables) : Prop :=
  ∀ i, Identified b d i → Identified b d' i → (handle b client d s).1 = .outcome .ack →
    (handle b client d' t).2 = t ∧
    ∀ event event', eventOf b client d = .ok (some event) → eventOf b client d' = .ok (some event') →
      (event'.content = event.content → (handle b client d' t).1 = .outcome .ack) ∧
      (event'.content ≠ event.content → (handle b client d' t).1 =
        .raised (.store (conflict "local event id already has different content")))

/-- What was accepted in `s` is accepted again in `t`, at any later time, and changes nothing. -/
def Repeats (d : Delivery) (s t : Tables) : Prop :=
  (handle b client d s).1 = .outcome .ack → ∀ now receivedAt storedAt, d.now ≤ now →
    handle b client { d with now, receivedAt, storedAt } t = (.outcome .ack, t)

variable {b client} {d d' : Delivery} {s t : Tables} {event : Payload}

theorem Identified.ext {i j : Identity} (hi : Identified b d i) (hj : Identified b d j) : i = j :=
  hi.names.ext hj.names (Json.int.inj (Option.some.inj (hi.time.symm.trans hj.time)))

theorem eventOf_ok (h : eventOf b client d = .ok (some event)) :
    ∃ payload i, Identified b d i ∧ Signed b client d payload i event := by
  obtain ⟨template, -, h⟩ := except_bind_ok_iff.1 h
  obtain ⟨opened, hopened, h⟩ := except_bind_ok_iff.1 h
  match opened, h with
  | none, h => cases h
  | some (payload, true), h => cases h
  | some (payload, false), h =>
    obtain ⟨content, hcontent, h⟩ := except_bind_ok_iff.1 h
    obtain ⟨stored, hstored, h⟩ := except_bind_ok_iff.1 h
    obtain rfl := Option.some.inj (Except.ok.inj h)
    obtain ⟨s, r, due, name, prompt, hs, hr, hdue, hs', hr', hname, hprompt, hlicensed, rfl⟩ :=
      verifiedOccurrence_ok hcontent
    obtain ⟨i, iso, his, hir, rfl, rfl⟩ := occurrenceEvent_ok hstored
    obtain ⟨hcarried, htext⟩ := event_texts i iso client.slug client.operatorSlug s r name prompt i.due
    exact ⟨payload, i, ⟨⟨⟨s, hs, his⟩, ⟨r, hr, hir⟩⟩, hdue⟩,
      ⟨hopened, hlicensed, ⟨⟨s, hs', his⟩, ⟨r, hr', hir⟩⟩, rfl, rfl, rfl, rfl, rfl,
        name, prompt, hname, hprompt, hcarried, htext⟩⟩

theorem Identity.envelopeId_ne_empty (i : Identity) : i.envelopeId ≠ "" := by
  intro h
  have := congrArg String.length h
  simp [Identity.envelopeId] at this

theorem eventOf_envelope (h : eventOf b client d = .ok (some event)) : event.envelopeId ≠ "" := by
  obtain ⟨payload, i, -, hsigned⟩ := eventOf_ok h
  rw [hsigned.envelope]
  exact i.envelopeId_ne_empty

theorem handle_ack (h : (handle b client d s).1 = .outcome .ack) : ∃ event, eventOf b client d = .ok (some event) := by
  unfold handle at h
  split at h
  · cases h
  · cases h
  · exact ⟨_, by assumption⟩

/-- A known id: the event is accepted when it is the stored one, and nothing changes. -/
theorem handle_known (h : eventOf b client d = .ok (some event)) {m : MessageRow}
    (hm : s.messages.get? event.envelopeId = some m) : handle b client d s =
      if SameEvent event m then (.outcome .ack, s)
      else (.raised (.store (conflict "local event id already has different content")), s) := by
  unfold handle
  simp only [h, storeOccurrence_known (eventOf_envelope h) hm]
  by_cases hsame : SameEvent event m
  · simp only [if_pos hsame]
  · simp only [if_neg hsame]

theorem handle_new (h : eventOf b client d = .ok (some event)) (hnone : s.messages.get? event.envelopeId = none) :
    (handle b client d s).1 = .outcome .ack ∧ Arrives event s (handle b client d s).2 := by
  obtain ⟨row, s', hrun, harrives⟩ := storeOccurrence_new d (eventOf_envelope h) hnone
  have hhandle : handle b client d s = (.outcome .ack, s') := by
    unfold handle
    simp only [h, hrun]
  rw [hhandle]
  exact ⟨rfl, harrives⟩

theorem handle_runsSigned (d : Delivery) (s : Tables) : RunsSigned b client d s := by
  cases h : eventOf b client d with
  | error e => exact .inl (by simp only [handle, h])
  | ok asked =>
    cases asked with
    | none => exact .inl (by simp only [handle, h])
    | some event =>
      cases hm : s.messages.get? event.envelopeId with
      | some m =>
        refine .inl ?_
        rw [handle_known h hm]
        split <;> rfl
      | none =>
        obtain ⟨payload, i, hi, hsigned⟩ := eventOf_ok h
        obtain ⟨hack, harrives⟩ := handle_new h hm
        exact .inr ⟨hack, payload, i, event, hi, hsigned, harrives⟩

/-- A stored row stays as it is, whatever is delivered. -/
theorem handle_keeps (d : Delivery) {k : String} {m : MessageRow} (hm : s.messages.get? k = some m) :
    (handle b client d s).2.messages.get? k = some m := by
  rcases handle_runsSigned d s with heq | ⟨-, payload, i, event, -, -, hnone, row, -, hrows⟩
  · rw [heq, hm]
  · have hne : event.envelopeId ≠ k := by
      rintro rfl
      rw [hm] at hnone
      cases hnone
    rw [hrows, if_neg hne, hm]

theorem handleAll_keeps (ds : List Delivery) {k : String} {m : MessageRow} (hm : s.messages.get? k = some m) :
    (handleAll b client ds s).messages.get? k = some m := by
  induction ds generalizing s with
  | nil => exact hm
  | cons d ds ih => exact ih (handle_keeps d hm)

/-- An accepted event has its row. -/
theorem handle_stored (h : eventOf b client d = .ok (some event)) (hack : (handle b client d s).1 = .outcome .ack) :
    ∃ m, (handle b client d s).2.messages.get? event.envelopeId = some m ∧ SameEvent event m := by
  cases hm : s.messages.get? event.envelopeId with
  | some m =>
    rw [handle_known h hm] at hack ⊢
    by_cases hsame : SameEvent event m
    · rw [if_pos hsame]
      exact ⟨m, hm, hsame⟩
    · rw [if_neg hsame] at hack
      cases hack
  | none =>
    obtain ⟨-, -, row, hrow, hrows⟩ := handle_new h hm
    exact ⟨row, by rw [hrows, if_pos rfl], hrow.same⟩

/-- The same run later: the row is known, so that nothing changes. -/
theorem handle_runsOnce (hkeeps : ∀ k m, (handle b client d s).2.messages.get? k = some m → t.messages.get? k = some m) :
    RunsOnce b client d d' s t := by
  intro i hi hi' hack
  obtain ⟨event, hevent⟩ := handle_ack hack
  obtain ⟨payload, j, hj, hsigned⟩ := eventOf_ok hevent
  obtain rfl := hi.ext hj
  obtain ⟨m, hm, hsame⟩ := handle_stored hevent hack
  have hm := hkeeps _ _ hm
  have hknown (event' : Payload) (h : eventOf b client d' = .ok (some event')) : handle b client d' t =
      if SameEvent event' m then (.outcome .ack, t)
      else (.raised (.store (conflict "local event id already has different content")), t) := by
    obtain ⟨payload', j', hj', hsigned'⟩ := eventOf_ok h
    obtain rfl := hi'.ext hj'
    rw [hsigned.envelope, ← hsigned'.envelope] at hm
    exact handle_known h hm
  constructor
  · rcases (handle_runsSigned d' t : RunsSigned b client d' t) with heq | ⟨hack', -⟩
    · exact heq
    · obtain ⟨event', hevent'⟩ := handle_ack hack'
      rw [hknown event' hevent']
      split <;> rfl
  · intro first event' hfirst hevent'
    obtain rfl := Option.some.inj (Except.ok.inj (hfirst.symm.trans hevent))
    rw [hknown event' hevent']
    constructor
    · intro heq
      rw [if_pos ⟨hsame.1, hsame.2.1, by rw [heq]; exact hsame.2.2⟩]
    · intro hne
      rw [if_neg fun h => hne (encodeContent_inj (h.2.2.symm.trans hsame.2.2))]

theorem eventOf_later (h : eventOf b client d = .ok (some event)) {now receivedAt storedAt : Int} (hle : d.now ≤ now) :
    eventOf b client { d with now, receivedAt, storedAt } = .ok (some event) := by
  refine bind_same h fun _ h => bind_same h fun opened h => ?_
  match opened, h with
  | none, h => exact h
  | some (payload, true), h => exact h
  | some (payload, false), h =>
    obtain ⟨content, hcontent, h⟩ := except_bind_ok_iff.1 h
    exact except_bind_ok_iff.2 ⟨content, verifiedOccurrence_later hle hcontent, h⟩

theorem handle_repeats (hkeeps : ∀ k m, (handle b client d s).2.messages.get? k = some m → t.messages.get? k = some m) :
    Repeats b client d s t := by
  intro hack now receivedAt storedAt hle
  obtain ⟨event, hevent⟩ := handle_ack hack
  obtain ⟨m, hm, hsame⟩ := handle_stored hevent hack
  rw [handle_known (eventOf_later hevent hle) (hkeeps _ _ hm), if_pos hsame]

/-- Whatever is delivered in whatever order, every stored event is signed and on its grid, and a run is stored once. -/
theorem occurrences_signed_and_once (b : Builtins) (client : Client) (s : Tables) (ds : List Delivery) :
    (∀ before d later, ds = before ++ d :: later → RunsSigned b client d (handleAll b client before s)) ∧
    (∀ before d between d' later, ds = before ++ d :: (between ++ d' :: later) →
      let t := handleAll b client (before ++ d :: between) s
      RunsOnce b client d d' (handleAll b client before s) t ∧ Repeats b client d (handleAll b client before s) t) ∧
    ∀ (i j : Identity) (m m' : MessageRow), m ∈ (handleAll b client ds s).messages.rows →
      m' ∈ (handleAll b client ds s).messages.rows → m.envelopeId = i.envelopeId → m'.envelopeId = j.envelopeId →
      (m = m' ↔ i = j) := by
  refine ⟨fun before d later _ => handle_runsSigned d _, fun before d between d' later _ => ?_, ?_⟩
  · have hrun : handleAll b client (before ++ d :: between) s =
        handleAll b client between (handle b client d (handleAll b client before s)).2 := by
      rw [handleAll, List.foldl_append]
      rfl
    have hkeeps : ∀ k m, (handle b client d (handleAll b client before s)).2.messages.get? k = some m →
        (handleAll b client (before ++ d :: between) s).messages.get? k = some m := by
      intro k m hm
      rw [hrun]
      exact handleAll_keeps between hm
    exact ⟨handle_runsOnce hkeeps, handle_repeats hkeeps⟩
  · intro i j m m' hm hm' hi hj
    constructor
    · rintro rfl
      exact Identity.envelopeId_injective (hi.symm.trans hj)
    · rintro rfl
      exact Table.eq_of_key_eq _ hm hm' (hi.trans hj.symm)

section Examples

def sampleBuiltins : Builtins where
  int16 text := some (text.toList.foldl (fun n c => 16 * n + (Json.hexValue c).getD 0) 0)
  isoTime _ := some "2020-01-01T00:00:00+00:00"
  floatIs _ _ := false
  floatsEqual _ _ := false

def samplePlan : List (String × Json) :=
  [("version", .int 1), ("schedule_id", .str "11111111-1111-1111-1111-111111111111"),
    ("revision", .str "22222222-2222-2222-2222-222222222222"), ("agent_id", .str "agent-one"),
    ("owner_slug", .str "owner-one"), ("first_run_at", .int 1577836800000), ("interval_seconds", .int 60),
    ("enabled", .bool true), ("name", .str "Daily"), ("prompt", .str "work")]

/-- The owner's plan, delivered for the time `due`. -/
def sampleDelivery (due : Int) : Delivery where
  envelope := .obj ([("type", .str "scheduled_message_envelope"), ("scheduled_at", .int due),
    ("template", .obj [("sender_slug", .str "owner-one")])] ++ samplePlan)
  opened := .ok (some ({
    envelopeId := "m"
    envelopeKind := "dm"
    senderSlug := "owner-one"
    sentAt := 0
    contentType := contentType
    content := .obj samplePlan
    isVisibleToHuman := false
    recipientSlug := some "agent-one" }, false))
  now := 1577836900000
  receivedAt := 1577836900000
  storedAt := 1577836900000

/-- Two times on the grid, one of them delivered twice, then one beside it and one that is too early. -/
example : ((handleAll sampleBuiltins ⟨"agent-one", "owner-one"⟩
    ([1577836800000, 1577836860000, 1577836800000, 1577836800001, 1577836920000].map sampleDelivery)
    Tables.empty).messages.rows.map (·.sentAt)) = [1577836800000, 1577836860000] := by decide +kernel

end Examples
end Runs
end Handle
end PuffoAgent.Schedules
