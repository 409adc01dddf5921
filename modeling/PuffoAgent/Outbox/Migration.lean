import PuffoAgent.Outbox.Events

/-! What a restart makes of a stored event: nothing, when the event is in the metadata-only form. -/
namespace PuffoAgent.Outbox
open Text Json

section Same

/-- Two objects with the same members, each up to the order of its own keys. -/
def SameMembers (P Q : List (String × Json)) : Prop :=
  ∀ key, ((Json.obj P).member key).map sortKeys = ((Json.obj Q).member key).map sortKeys

variable {P Q : List (String × Json)}

theorem sameMembers_sort (P : List (String × Json)) : SameMembers (sortMembers P) P := by
  intro key
  have h := member_sortKeys P key
  rw [sortKeys] at h
  rw [h, Option.map_map]
  exact Option.map_congr fun v _ => sortKeys_idem v

theorem field_sort (key : String) (P : List (String × Json)) : field key (sortMembers P) = (field key P).sortKeys := by
  have h := member_sortKeys P key
  rw [sortKeys] at h
  unfold field
  rw [h]
  cases (Json.obj P).member key <;> rfl

theorem SameMembers.sortKeys_eq (h : SameMembers P Q) : (Json.obj P).sortKeys = (Json.obj Q).sortKeys :=
  sortKeys_obj_congr h

theorem SameMembers.of_eq (h : (Json.obj P).sortKeys = (Json.obj Q).sortKeys) : SameMembers P Q := by
  intro key
  rw [← member_sortKeys, h, member_sortKeys]

theorem SameMembers.has_eq (h : SameMembers P Q) (key : String) : has key P = has key Q := by
  simpa [has] using congrArg Option.isSome (h key)

theorem SameMembers.field_eq (h : SameMembers P Q) (key : String) :
    (field key P).sortKeys = (field key Q).sortKeys := by
  have hk := h key
  unfold field
  cases hp : (Json.obj P).member key <;> cases hq : (Json.obj Q).member key <;> simp_all

/-- The keys of an object are the ones it has a member for. -/
theorem has_iff (key : String) (P : List (String × Json)) : has key P = true ↔ key ∈ P.map (·.1) := by
  induction P with
  | nil => simp [has, member]
  | cons m P ih =>
    have hcons := member_cons key m P
    simp only [has] at ih ⊢
    rw [hcons, Option.isSome_or, Bool.or_eq_true, ih, List.map_cons, List.mem_cons, or_comm]
    refine or_congr_left ?_
    by_cases hk : m.1 = key
    · simp [hk]
    · simp [hk, Ne.symm hk]

theorem keysWithin_iff (keys : List String) (P : List (String × Json)) :
    keysWithin keys P = true ↔ ∀ key, has key P = true → key ∈ keys := by
  simp only [keysWithin, List.all_eq_true, decide_eq_true_eq, has_iff, List.mem_map]
  constructor
  · rintro h key ⟨m, hm, rfl⟩
    exact h m hm
  · exact fun h m hm => h m.1 ⟨m, hm, rfl⟩

theorem SameMembers.keysWithin_eq (h : SameMembers P Q) (keys : List String) :
    keysWithin keys P = keysWithin keys Q := by
  rw [Bool.eq_iff_iff, keysWithin_iff, keysWithin_iff]
  simp only [h.has_eq]

theorem SameMembers.keysAre_eq (h : SameMembers P Q) (keys : List String) : keysAre keys P = keysAre keys Q := by
  simp only [keysAre, h.keysWithin_eq, h.has_eq]

theorem SameMembers.isEmpty_eq (h : SameMembers P Q) : P.isEmpty = Q.isEmpty := by
  have hnil : ∀ P : List (String × Json), P.isEmpty = true ↔ keysWithin [] P = true := by
    intro P
    cases P <;> simp [keysWithin]
  rw [Bool.eq_iff_iff, hnil, hnil, h.keysWithin_eq]

/-- Objects over the same few keys agree when they agree there. -/
theorem SameMembers.of_keys (keys : List String) (hP : keysWithin keys P = true) (hQ : keysWithin keys Q = true)
    (h : ∀ key ∈ keys, ((Json.obj P).member key).map sortKeys = ((Json.obj Q).member key).map sortKeys) :
    SameMembers P Q := by
  intro key
  by_cases hk : key ∈ keys
  · exact h key hk
  · have hnone : ∀ R : List (String × Json), keysWithin keys R = true → (Json.obj R).member key = none := by
      intro R hR
      refine Option.not_isSome_iff_eq_none.1 fun hhas => hk ?_
      exact (keysWithin_iff keys R).1 hR key hhas
    rw [hnone P hP, hnone Q hQ]

end Same

section Checks
variable {v w : Json}

/-- Values that sort alike are equal, or arrays, or objects with the same members. -/
theorem same_cases (h : v.sortKeys = w.sortKeys) : v = w ∨ (∃ vs ws, v = .arr vs ∧ w = .arr ws) ∨
    ∃ P Q, v = .obj P ∧ w = .obj Q ∧ SameMembers P Q := by
  cases v with
  | arr vs =>
    cases w with
    | arr ws => exact .inr (.inl ⟨vs, ws, rfl, rfl⟩)
    | _ => simp [sortKeys] at h
  | obj P =>
    cases w with
    | obj Q => exact .inr (.inr ⟨P, Q, rfl, rfl, .of_eq h⟩)
    | _ => simp [sortKeys] at h
  | _ => cases w <;> simp_all [sortKeys]

theorem isText_same (s : String) (h : v.sortKeys = w.sortKeys) : isText s v = isText s w := by
  rcases same_cases h with rfl | ⟨_, _, rfl, rfl⟩ | ⟨_, _, rfl, rfl, _⟩ <;> rfl

theorem isNull_same (h : v.sortKeys = w.sortKeys) : isNull v = isNull w := by
  rcases same_cases h with rfl | ⟨_, _, rfl, rfl⟩ | ⟨_, _, rfl, rfl, _⟩ <;> rfl

theorem isCount_same (least : Int) (h : v.sortKeys = w.sortKeys) : isCount least v = isCount least w := by
  rcases same_cases h with rfl | ⟨_, _, rfl, rfl⟩ | ⟨_, _, rfl, rfl, _⟩ <;> rfl

theorem oneOf_same (texts : List String) (h : v.sortKeys = w.sortKeys) : oneOf texts v = oneOf texts w := by
  rcases same_cases h with rfl | ⟨_, _, rfl, rfl⟩ | ⟨_, _, rfl, rfl, _⟩ <;> rfl

theorem isTokens_same (h : v.sortKeys = w.sortKeys) : isTokens v = isTokens w := by
  rcases same_cases h with rfl | ⟨_, _, rfl, rfl⟩ | ⟨P, Q, rfl, rfl, hs⟩
  · rfl
  · rfl
  · rw [isTokens, isTokens, hs.keysAre_eq, isCount_same 0 (hs.field_eq "input"), isCount_same 0 (hs.field_eq "output")]

theorem hasMessage_same {v' w' : Json} (h : v.sortKeys = w.sortKeys) (h' : v'.sortKeys = w'.sortKeys) :
    hasMessage v v' = hasMessage w w' := by
  rcases same_cases h with rfl | ⟨_, _, rfl, rfl⟩ | ⟨_, _, rfl, rfl, _⟩
  · cases v <;> first | rfl | exact isText_same _ h'
  · rfl
  · rfl

theorem isBool_same (h : v.sortKeys = w.sortKeys) : isBool v = isBool w := by
  rcases same_cases h with rfl | ⟨_, _, rfl, rfl⟩ | ⟨_, _, rfl, rfl, _⟩ <;> rfl

theorem validateError_same (h : v.sortKeys = w.sortKeys) : validateError v = validateError w := by
  rcases same_cases h with rfl | ⟨_, _, rfl, rfl⟩ | ⟨P, Q, rfl, rfl, hs⟩
  · rfl
  · rfl
  · simp only [validateError, demandOneOf, hs.keysAre_eq, oneOf_same _ (hs.field_eq "code"),
      hasMessage_same (hs.field_eq "code") (hs.field_eq "message"), isBool_same (hs.field_eq "retryable")]

/-- Validation does not see the order of keys. -/
theorem validatePayload_same {P Q : List (String × Json)} (type : String) (h : SameMembers P Q) :
    validatePayload type P = validatePayload type Q := by
  simp only [validatePayload, validateFinished, demandOneOf, h.isEmpty_eq, h.keysAre_eq, h.keysWithin_eq, h.has_eq,
    isText_same _ (h.field_eq _), isNull_same (h.field_eq _), isCount_same _ (h.field_eq _),
    oneOf_same _ (h.field_eq _), isTokens_same (h.field_eq _), validateError_same (h.field_eq _)]

end Checks

section Kept
variable (str : Json → String) {type : String} {P : List (String × Json)}

/-- The payload has none of the values that only the constructor lets through: references that
are no texts, and usage fields spelled out as null. -/
structure MetadataOnly (type : String) (P : List (String × Json)) : Prop where
  toolRef : type = "tool.updated" → ∃ ref, field "tool_call_ref" P = .str ref
  permissionRef : type = "permission.updated" → ∃ ref, field "permission_ref" P = .str ref
  usage : type = "turn.finished" → ∀ key ∈ ["tokens", "current_context"], has key P = true →
    isNull (field key P) = false

@[simp]
theorem demand_ok_iff {ok : Bool} {message : String} : demand ok message = .ok () ↔ ok = true := by
  cases ok <;> simp [demand]

theorem demandOneOf_ok_iff {texts : List String} {v : Json} {message : String} :
    demandOneOf texts v message = .ok () ↔ ∃ s ∈ texts, v = .str s := by
  cases v <;> simp [demandOneOf, oneOf, bind, Except.bind]

theorem seq_ok_iff {x y : Except EventError Unit} : (do x; y) = .ok () ↔ x = .ok () ∧ y = .ok () := by
  rw [except_bind_ok_iff]
  exact ⟨fun ⟨_, h⟩ => h, fun h => ⟨(), h⟩⟩

theorem member_eq_of_has {key : String} (h : has key P = true) : (Json.obj P).member key = some (field key P) := by
  obtain ⟨v, hv⟩ := Option.isSome_iff_exists.1 h
  rw [field, hv, Option.getD_some]

theorem member_eq_none {key : String} (h : has key P = false) : (Json.obj P).member key = none :=
  Option.not_isSome_iff_eq_none.1 (by simpa [has] using h)

theorem member_eq (key : String) (P : List (String × Json)) :
    (Json.obj P).member key = if has key P then some (field key P) else none := by
  split
  · exact member_eq_of_has ‹_›
  · exact member_eq_none (Bool.eq_false_of_not_eq_true ‹_›)

theorem field_of_absent {key : String} (h : has key P = false) : field key P = .null := by
  rw [field, member_eq_none h]; rfl

theorem eq_null_of_isNull {v : Json} (h : isNull v = true) : v = .null := by
  cases v <;> simp_all [isNull]

theorem eq_str_of_isText {v : Json} {s : String} (h : isText s v = true) : v = .str s := by
  cases v <;> simp_all [isText]

theorem keysAre_iff {keys : List String} :
    keysAre keys P = true ↔ keysWithin keys P = true ∧ ∀ key ∈ keys, has key P = true := by
  simp [keysAre]

theorem oneOf_true {texts : List String} {v : Json} (h : oneOf texts v = .ok true) : ∃ s ∈ texts, v = .str s := by
  cases v <;> simp_all [oneOf]

theorem started_kept (hv : validatePayload "turn.started" P = .ok ()) :
    ∃ Q, metadataPayload str "turn.started" P = some Q ∧ SameMembers Q P := by
  simp only [validatePayload, if_true, demand_ok_iff, List.isEmpty_iff] at hv
  exact ⟨[], rfl, by rw [hv]; exact fun _ => rfl⟩

theorem activity_kept (hv : validatePayload "activity.updated" P = .ok ()) :
    ∃ Q, metadataPayload str "activity.updated" P = some Q ∧ SameMembers Q P := by
  simp only [validatePayload, String.reduceEq, if_false, if_true, seq_ok_iff, demand_ok_iff] at hv
  obtain ⟨hkeys, hv⟩ := hv
  obtain ⟨safe, hsafe, htext⟩ := except_bind_ok_iff.1 hv
  obtain ⟨hwithin, hhas⟩ := keysAre_iff.1 hkeys
  refine ⟨_, rfl, .of_keys ["text"] rfl hwithin fun key hkey => ?_⟩
  obtain rfl := List.mem_singleton.1 hkey
  rw [member_eq_of_has (hhas _ List.mem_cons_self)]
  cases hnull : isNull (field "text" P) with
  | true => rw [eq_null_of_isNull hnull]; rfl
  | false =>
    obtain rfl : safe = true := by simpa [hnull] using htext
    obtain ⟨s, hs, heq⟩ := oneOf_true hsafe
    rw [heq, List.mem_singleton.1 hs]
    rfl

theorem tool_kept (hv : validatePayload "tool.updated" P = .ok ()) (hm : MetadataOnly "tool.updated" P) :
    ∃ Q, metadataPayload str "tool.updated" P = some Q ∧ SameMembers Q P := by
  simp only [validatePayload, String.reduceEq, if_false, if_true, seq_ok_iff, demand_ok_iff] at hv
  obtain ⟨hkeys, hlabel, -⟩ := hv
  obtain ⟨hwithin, hhas⟩ := keysAre_iff.1 hkeys
  obtain ⟨ref, href⟩ := hm.toolRef rfl
  refine ⟨[("tool_call_ref", .str ref), ("label", .str "Tool"), ("state", field "state" P)], ?_,
    .of_keys ["tool_call_ref", "label", "state"] rfl hwithin ?_⟩
  · simp only [metadataPayload, String.reduceEq, if_false, if_true, href]
  · simp only [List.forall_mem_cons, List.not_mem_nil, false_imp_iff, implies_true, and_true] at hhas ⊢
    rw [member_eq_of_has hhas.1, member_eq_of_has hhas.2.1, member_eq_of_has hhas.2.2, href, eq_str_of_isText hlabel]
    exact ⟨rfl, rfl, rfl⟩

theorem permission_kept (hv : validatePayload "permission.updated" P = .ok ())
    (hm : MetadataOnly "permission.updated" P) :
    ∃ Q, metadataPayload str "permission.updated" P = some Q ∧ SameMembers Q P := by
  simp only [validatePayload, String.reduceEq, if_false, if_true, seq_ok_iff, demand_ok_iff,
    Bool.decide_and, Bool.and_eq_true, decide_eq_true_eq] at hv
  obtain ⟨⟨href, hstate, hwithin⟩, htitle, -⟩ := hv
  obtain ⟨ref, heq⟩ := hm.permissionRef rfl
  refine ⟨[("permission_ref", .str ref), ("state", field "state" P)] ++
    if isNull (field "title" P) then [] else [("title", .str "Permission required")], ?_,
    .of_keys ["permission_ref", "state", "title"] ?_ hwithin ?_⟩
  · simp only [metadataPayload, String.reduceEq, if_false, if_true, heq]
  · split <;> rfl
  · simp only [List.forall_mem_cons, List.not_mem_nil, false_imp_iff, implies_true, and_true]
    rw [member_eq_of_has href, member_eq_of_has hstate, heq]
    cases ht : has "title" P with
    | false =>
      rw [member_eq_none ht, field_of_absent ht]
      exact ⟨rfl, rfl, rfl⟩
    | true =>
      have htext : field "title" P = .str "Permission required" := eq_str_of_isText (by simpa [ht] using htitle)
      rw [member_eq_of_has ht, htext]
      exact ⟨rfl, rfl, rfl⟩

theorem safe_code_fixed : ∀ code ∈ safeMessages.map (·.1), runtimeEventFailureCode code = code ∧ code ≠ "" := by
  decide

theorem error_kept {error : List (String × Json)} (hv : validateError (.obj error) = .ok ()) :
    ∃ retryable, field "retryable" error = .bool retryable ∧
      (safeError (errorCode str error) retryable).sortKeys = (Json.obj error).sortKeys := by
  simp only [validateError, seq_ok_iff, demand_ok_iff, demandOneOf_ok_iff] at hv
  obtain ⟨hkeys, ⟨code, hcode, heq⟩, hmessage, hretry⟩ := hv
  obtain ⟨hwithin, hhas⟩ := keysAre_iff.1 hkeys
  obtain ⟨hfixed, hne⟩ := safe_code_fixed code hcode
  obtain ⟨retryable, hr⟩ : ∃ retryable, field "retryable" error = .bool retryable := by
    cases hf : field "retryable" error <;> simp_all [isBool]
  have hm : field "message" error = .str (safeMessage code) := eq_str_of_isText (by simpa [heq, hasMessage] using hmessage)
  have herror : errorCode str error = code := by simp only [errorCode, heq, if_neg hne]
  refine ⟨retryable, hr, ?_⟩
  rw [herror, safeError, hfixed]
  refine SameMembers.sortKeys_eq (.of_keys ["code", "message", "retryable"] rfl hwithin ?_)
  simp only [List.forall_mem_cons, List.not_mem_nil, false_imp_iff, implies_true, and_true] at hhas ⊢
  rw [member_eq_of_has hhas.1, member_eq_of_has hhas.2.1, member_eq_of_has hhas.2.2, heq, hm, hr]
  exact ⟨rfl, rfl, rfl⟩

/-- The members of a finished turn that may be missing. -/
def optionalMember (key : String) (P : List (String × Json)) (v : Json) : List (String × Json) :=
  if has key P then [(key, v)] else []

theorem finished_same {outcome error : Json} (hwithin : keysWithin ["outcome", "error", "tokens", "current_context"] P = true)
    (houtcome : has "outcome" P = true) (ho : field "outcome" P = outcome)
    (he : error.sortKeys = (field "error" P).sortKeys) :
    SameMembers ([("outcome", outcome)] ++ optionalMember "tokens" P (field "tokens" P) ++
      optionalMember "current_context" P (field "current_context" P) ++ optionalMember "error" P error) P := by
  refine .of_keys ["outcome", "error", "tokens", "current_context"] ?_ hwithin ?_
  · unfold optionalMember
    repeat' split
    all_goals rfl
  · simp only [List.forall_mem_cons, List.not_mem_nil, false_imp_iff, implies_true, and_true]
    rw [member_eq "outcome" P, member_eq "error" P, member_eq "tokens" P, member_eq "current_context" P, houtcome, ho]
    unfold optionalMember
    cases has "tokens" P <;> cases has "current_context" P <;> cases has "error" P
    all_goals simp [Json.member, he]

theorem finished_kept (hv : validatePayload "turn.finished" P = .ok ()) (hm : MetadataOnly "turn.finished" P) :
    ∃ Q, metadataPayload str "turn.finished" P = some Q ∧ SameMembers Q P := by
  simp only [validatePayload, String.reduceEq, if_false, validateFinished, seq_ok_iff, demand_ok_iff,
    demandOneOf_ok_iff, decide_eq_true_eq] at hv
  obtain ⟨hwithin, ⟨outcome, hmem, ho⟩, htokens, hcontext, husage, herror, hv⟩ := hv
  have houtcome : has "outcome" P = true := by
    by_contra h
    rw [field_of_absent (by simpa using h)] at ho
    cases ho
  have husage : outcome = "succeeded" ∨ (isNull (field "tokens" P) = true ∧ isNull (field "current_context" P) = true) := by
    simpa [ho, isText] using husage
  have hT : (if outcome = "succeeded" ∧ isTokens (field "tokens" P) then [("tokens", field "tokens" P)] else []) =
      optionalMember "tokens" P (field "tokens" P) := by
    cases hhas : has "tokens" P with
    | false => simp [optionalMember, hhas, field_of_absent hhas, isTokens]
    | true =>
      have hsome := hm.usage rfl "tokens" (by decide) hhas
      have hsucceeded : outcome = "succeeded" := husage.resolve_right (by simp [hsome])
      have htok : isTokens (field "tokens" P) = true := by simpa [hsome] using htokens
      simp [optionalMember, hhas, hsucceeded, htok]
  have hC : (if outcome = "succeeded" ∧ isCount 1 (field "current_context" P) then
      [("current_context", field "current_context" P)] else []) =
      optionalMember "current_context" P (field "current_context" P) := by
    cases hhas : has "current_context" P with
    | false => simp [optionalMember, hhas, field_of_absent hhas, isCount]
    | true =>
      have hsome := hm.usage rfl "current_context" (by decide) hhas
      have hsucceeded : outcome = "succeeded" := husage.resolve_right (by simp [hsome])
      have hcount : isCount 1 (field "current_context" P) = true := by simpa [hsome] using hcontext
      simp [optionalMember, hhas, hsucceeded, hcount]
  obtain ⟨error, hE, hsame⟩ : ∃ error, errorEntry str outcome (field "error" P) = optionalMember "error" P error ∧
      error.sortKeys = (field "error" P).sortKeys := by
    cases hhas : has "error" P with
    | false =>
      refine ⟨field "error" P, ?_, rfl⟩
      simp [optionalMember, hhas, field_of_absent hhas, errorEntry]
    | true =>
      have hfailed : outcome = "failed" := by simpa [hhas, ho, isText] using herror
      rw [if_pos (by simp [hhas, ho, hfailed, isText])] at hv
      obtain ⟨members, herr⟩ : ∃ members, field "error" P = .obj members := by
        cases hf : field "error" P <;> simp_all [validateError]
      rw [herr] at hv ⊢
      obtain ⟨retryable, hr, hsame⟩ := error_kept str hv
      exact ⟨_, by simp [optionalMember, hhas, errorEntry, hfailed, hr, isLiteralTrue], hsame⟩
  refine ⟨_, ?_, finished_same hwithin houtcome ho hsame⟩
  simp only [metadataPayload, String.reduceEq, if_false, if_true, finishedPayload, ho]
  rw [if_neg (not_not.2 hmem), hT, hC, hE]

theorem metadataPayload_kept (htype : type ∈ runtimeEventTypes) (hv : validatePayload type P = .ok ())
    (hm : MetadataOnly type P) : ∃ Q, metadataPayload str type P = some Q ∧ SameMembers Q P := by
  simp only [runtimeEventTypes, List.mem_cons, List.not_mem_nil, or_false] at htype
  rcases htype with rfl | rfl | rfl | rfl | rfl
  · exact started_kept str hv
  · exact activity_kept str hv
  · exact tool_kept str hv hm
  · exact permission_kept str hv hm
  · exact finished_kept str hv hm

theorem MetadataOnly.same {Q : List (String × Json)} (hm : MetadataOnly type P) (h : SameMembers Q P) :
    MetadataOnly type Q := by
  have htext : ∀ {key ref}, field key P = .str ref → field key Q = .str ref := by
    intro key ref hk
    have hf := h.field_eq key
    rw [hk] at hf
    exact eq_str_of_isText (by rw [isText_same ref hf]; simp [isText])
  refine ⟨fun ht => (hm.toolRef ht).imp fun _ => htext, fun ht => (hm.permissionRef ht).imp fun _ => htext, ?_⟩
  intro ht key hkey hhas
  rw [isNull_same (h.field_eq key)]
  exact hm.usage ht key hkey (h.has_eq key ▸ hhas)

theorem make_of_valid {e : EventFields} (h : validateRuntimeEvent e = .ok ()) :
    e.make? = some ⟨e, h⟩ := by
  unfold EventFields.make?
  split
  · rfl
  · rename_i hbad
    exact absurd (h.symm.trans hbad) nofun

theorem asDict_same {e : EventFields} {Q : List (String × Json)} (h : SameMembers Q e.payload) :
    ({ e with version := e.version.sortKeys, payload := Q } : EventFields).canonicalText = e.canonicalText := by
  refine congrArg dumps (SameMembers.sortKeys_eq (.of_keys ["version", "event_id", "agent_id", "session_ref",
    "turn_ref", "scope", "type", "occurred_at", "payload"] rfl rfl ?_))
  simp only [List.forall_mem_cons, List.not_mem_nil, false_imp_iff, implies_true, and_true]
  refine ⟨congrArg some (sortKeys_idem e.version), rfl, rfl, rfl, rfl, rfl, rfl, rfl, congrArg some h.sortKeys_eq⟩

/-- A metadata-only event that is read back from its own text is rewritten to the same text. -/
theorem metadataOnlyEvent_kept (e : RuntimeEvent) (hocc : e.occurredAt ≠ "") (hm : MetadataOnly e.type e.payload) :
    ∃ e', metadataOnlyEvent str e.asDict.sortKeys = some e' ∧ e'.type = e.type ∧ e'.canonicalText = e.canonicalText := by
  have hvalid := e.valid
  simp only [validateRuntimeEvent, seq_ok_iff, demand_ok_iff, decide_eq_true_eq] at hvalid
  obtain ⟨hversion, htype, ⟨heid, haid, hsess, hturn⟩, hpayload⟩ := hvalid
  have hsort := sameMembers_sort e.payload
  obtain ⟨Q, hQ, hsame⟩ := metadataPayload_kept str htype ((validatePayload_same _ hsort).trans hpayload) (hm.same hsort)
  have hsame := fun key => (hsame key).trans (hsort key)
  have hone : isOne e.version.sortKeys = true := by
    cases hv : e.version <;> simp_all [isOne, sortKeys]
  let e' : EventFields := { e.toEventFields with version := e.version.sortKeys, payload := Q }
  have hvalid' : validateRuntimeEvent e' = .ok () := by
    simp only [validateRuntimeEvent, seq_ok_iff, demand_ok_iff, decide_eq_true_eq]
    exact ⟨hone, htype, ⟨heid, haid, hsess, hturn⟩, (validatePayload_same _ hsame).trans hpayload⟩
  refine ⟨⟨e', hvalid'⟩, ?_, rfl, asDict_same hsame⟩
  have hfields : ∀ {key s}, field key (dictMembers e.toEventFields) = .str s → s ≠ "" →
      textField key (sortMembers (dictMembers e.toEventFields)) = some s := by
    intro key s hf hs
    rw [textField, field_sort, hf]
    exact if_neg hs
  have hversion' : field "version" (sortMembers (dictMembers e.toEventFields)) = e.version.sortKeys := field_sort _ _
  have hscope : isOperatorScope (field "scope" (sortMembers (dictMembers e.toEventFields))) = true := by
    rw [field_sort]
    rfl
  have htype' : field "type" (sortMembers (dictMembers e.toEventFields)) = .str e.type := field_sort _ _
  have hpayload' : field "payload" (sortMembers (dictMembers e.toEventFields)) = .obj (sortMembers e.payload) := field_sort _ _
  simp only [EventFields.asDict, sortKeys, metadataOnlyEvent]
  rw [if_neg (by rw [hversion', hone, hscope]; simp), @hfields "event_id" _ rfl heid, @hfields "agent_id" _ rfl haid,
    @hfields "session_ref" _ rfl hsess, @hfields "turn_ref" _ rfl hturn, @hfields "occurred_at" _ rfl hocc, htype',
    hpayload', hversion']
  change (metadataPayload str e.type (sortMembers e.payload) >>= fun payload => EventFields.make? ⟨e.version.sortKeys,
    e.eventId, e.agentId, e.sessionRef, e.turnRef, e.type, e.occurredAt, payload⟩) = some ⟨e', hvalid'⟩
  rw [hQ]
  exact make_of_valid hvalid'

end Kept
end PuffoAgent.Outbox
