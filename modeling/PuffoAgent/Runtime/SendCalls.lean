import PuffoAgent.Runtime.Admission
import PuffoAgent.Sending.Fingerprint

/-! The calls of the two send tools, and the admissions that wait for the results of the sends that are held. -/
namespace PuffoAgent.Runtime
open Text Sending

section Order
variable {α : Type}

def inOrder (members : List (String × α)) : List (String × α) := members.foldr (fun m => insertSorted m.1 m.2) []

theorem insertSorted_perm (name : String) (value : α) (ms : List (String × α)) :
    (insertSorted name value ms).Perm ((name, value) :: ms) := by
  induction ms with
  | nil => exact .refl _
  | cons m ms ih =>
    unfold insertSorted
    split
    · exact (ih.cons m).trans (.swap _ _ _)
    · exact .refl _

theorem inOrder_perm (ms : List (String × α)) : (inOrder ms).Perm ms := by
  induction ms with
  | nil => exact .refl _
  | cons m ms ih => exact (insertSorted_perm m.1 m.2 _).trans (ih.cons m)

theorem sorted_insertSorted {name : String} {value : α} {ms : List (String × α)} (hs : Entries.Sorted ms)
    (hfresh : ∀ m ∈ ms, m.1 ≠ name) : Entries.Sorted (insertSorted name value ms) := by
  induction ms with
  | nil => exact List.pairwise_singleton _ _
  | cons m ms ih =>
    obtain ⟨hm, hms⟩ := List.pairwise_cons.1 hs
    unfold insertSorted
    split
    case isTrue hlt =>
      refine List.pairwise_cons.2 ⟨fun n hn => ?_, ih hms fun n hn => hfresh n (List.mem_cons_of_mem _ hn)⟩
      rcases List.mem_cons.1 ((insertSorted_perm _ _ _).subset hn) with rfl | hn
      · exact hlt
      · exact hm n hn
    case isFalse hge =>
      have hlt : name < m.1 := lt_of_le_of_ne (not_lt.1 hge) (hfresh m List.mem_cons_self).symm
      refine List.pairwise_cons.2 ⟨fun n hn => ?_, hs⟩
      rcases List.mem_cons.1 hn with rfl | hn
      · exact hlt
      · exact hlt.trans (hm n hn)

theorem sorted_inOrder {ms : List (String × α)} (hn : (ms.map Prod.fst).Nodup) : Entries.Sorted (inOrder ms) := by
  induction ms with
  | nil => exact .nil
  | cons m ms ih =>
    obtain ⟨hm, hms⟩ := List.nodup_cons.1 hn
    refine sorted_insertSorted (ih hms) fun n hn he => hm ?_
    exact he ▸ List.mem_map_of_mem ((inOrder_perm ms).subset hn)

/-- Entries with distinct names are put in one order, however they come. -/
theorem inOrder_eq_iff {ms ns : List (String × α)} (hn : (ms.map Prod.fst).Nodup) :
    inOrder ms = inOrder ns ↔ ms.Perm ns := by
  constructor
  · intro h
    exact (inOrder_perm ms).symm.trans (h ▸ inOrder_perm ns)
  · intro h
    have hns : (ns.map Prod.fst).Nodup := (h.map Prod.fst).nodup_iff.1 hn
    refine (sorted_inOrder hn).ext (sorted_inOrder hns) fun m => ?_
    rw [(inOrder_perm ms).mem_iff, (inOrder_perm ns).mem_iff, h.mem_iff]

end Order

section Fields
variable {α β : Type}

/-- The entries of the fields that have a value. -/
def given (fields : List (String × Option α)) : List (String × α) := fields.filterMap fun f => f.2.map (f.1, ·)

@[simp] theorem given_cons_none (name : String) (fs : List (String × Option α)) :
    given ((name, none) :: fs) = given fs := rfl

@[simp] theorem given_cons_some (name : String) (value : α) (fs : List (String × Option α)) :
    given ((name, some value) :: fs) = (name, value) :: given fs := rfl

theorem given_keys_sublist (fs : List (String × Option α)) : ((given fs).map Prod.fst).Sublist (fs.map Prod.fst) := by
  induction fs with
  | nil => exact .slnil
  | cons f fs ih =>
    obtain ⟨name, value⟩ := f
    cases value with
    | none => exact ih.cons _
    | some v => exact ih.cons_cons _

theorem not_mem_given {name : String} {fs : List (String × Option α)} (h : name ∉ fs.map Prod.fst) (value : α) :
    (name, value) ∉ given fs := fun hm => h ((given_keys_sublist fs).subset (List.mem_map_of_mem hm))

/-- Fields with the same distinct names give the same entries only when they have the same values. -/
theorem given_perm_iff {fs gs : List (String × Option α)} (hkeys : fs.map Prod.fst = gs.map Prod.fst)
    (hn : (fs.map Prod.fst).Nodup) : (given fs).Perm (given gs) ↔ fs = gs := by
  refine ⟨fun h => ?_, fun h => h ▸ .refl _⟩
  induction fs generalizing gs with
  | nil => rw [List.map_eq_nil_iff.1 hkeys.symm]
  | cons f fs ih =>
    obtain ⟨name, value⟩ := f
    cases gs with
    | nil => cases hkeys
    | cons g gs =>
      obtain ⟨name', value'⟩ := g
      obtain ⟨rfl, htail⟩ := List.cons.inj hkeys
      obtain ⟨hfs, hrest⟩ := List.nodup_cons.1 hn
      have hgs : name ∉ gs.map Prod.fst := fun hm => hfs (htail.symm ▸ hm)
      cases value with
      | none =>
        cases value' with
        | none => rw [ih htail hrest h]
        | some w => exact absurd (h.symm.subset List.mem_cons_self) (not_mem_given hfs w)
      | some v =>
        cases value' with
        | none => exact absurd (h.subset List.mem_cons_self) (not_mem_given hgs v)
        | some w =>
          have hv : v = w := by
            rcases List.mem_cons.1 (h.subset List.mem_cons_self) with he | hm
            · exact (Prod.mk.inj he).2
            · exact absurd hm (not_mem_given hgs v)
          subst hv
          rw [ih htail hrest (List.Perm.cons_inv h)]

end Fields

section Normal
variable {platform : Platform} {fs gs : List (String × Option Json)}

/-- A field without its public default. -/
def shown (f : String × Option Json) : String × Option Json := (f.1, f.2.filter fun v => ¬ isOptionalDefault f.1 v)

/-- A field that is compared as it is. -/
def Plain (f : String × Option Json) : Prop := f.1 ≠ "limit" ∧ ∀ v ∈ f.2, sortKeys v = v

theorem dumpsSorted_injective {v w : Json} (hv : sortKeys v = v) (hw : sortKeys w = w)
    (h : dumpsSorted v = dumpsSorted w) : v = w := by
  unfold dumpsSorted at h
  rw [hv, hw] at h
  have hread : Json.loads v.dumpsAscii = Json.loads w.dumpsAscii := by rw [h]
  rw [Json.loads_dumpsAscii, Json.loads_dumpsAscii] at hread
  exact Option.some.inj hread

theorem normalizeToolArguments_given (hplain : ∀ f ∈ fs, Plain f) :
    normalizeToolArguments platform (given fs) =
      inOrder (given (fs.map fun f => (f.1, (shown f).2.map dumpsSorted))) := by
  unfold normalizeToolArguments inOrder
  congr 1
  induction fs with
  | nil => rfl
  | cons f fs ih =>
    obtain ⟨name, value⟩ := f
    have hrest := ih fun f hf => hplain f (List.mem_cons_of_mem _ hf)
    have hname : name ≠ "limit" := (hplain _ List.mem_cons_self).1
    cases value with
    | none => simpa [shown] using hrest
    | some v =>
      rw [given_cons_some, List.filter_cons]
      by_cases hd : isOptionalDefault name v
      · simpa [shown, hd, Option.filter_some] using hrest
      · have hkept : normalizeArgument platform name v = v := if_neg hname
        simpa [shown, hd, hkept, Option.filter_some] using hrest

theorem shown_eq_of_dumped {f g : String × Option Json} (hf : Plain f) (hg : Plain g) (hkey : f.1 = g.1)
    (h : (shown f).2.map dumpsSorted = (shown g).2.map dumpsSorted) : shown f = shown g := by
  refine Prod.ext hkey ?_
  cases hv : (shown f).2 with
  | none =>
    rw [hv, Option.map_none, eq_comm, Option.map_eq_none_iff] at h
    exact h.symm
  | some v =>
    cases hw : (shown g).2 with
    | none => rw [hv, hw] at h; cases h
    | some w =>
      rw [hv, hw, Option.map_some, Option.map_some, Option.some.injEq] at h
      have hfv := hf.2 v (Option.mem_filter_iff.1 hv).1
      have hgw := hg.2 w (Option.mem_filter_iff.1 hw).1
      rw [dumpsSorted_injective hfv hgw h]

/-- Two dictionaries over the same names are normalised to the same when they show the same. -/
theorem normalizeToolArguments_given_eq_iff (hf : ∀ f ∈ fs, Plain f) (hg : ∀ g ∈ gs, Plain g)
    (hkeys : fs.map Prod.fst = gs.map Prod.fst) (hn : (fs.map Prod.fst).Nodup) :
    normalizeToolArguments platform (given fs) = normalizeToolArguments platform (given gs) ↔
      fs.map shown = gs.map shown := by
  have hdumped : ∀ l : List (String × Option Json),
      (l.map fun f => (f.1, (shown f).2.map dumpsSorted)).map Prod.fst = l.map Prod.fst := by
    intro l
    rw [List.map_map]
    rfl
  rw [normalizeToolArguments_given hf, normalizeToolArguments_given hg]
  rw [inOrder_eq_iff ((given_keys_sublist _).nodup (by rw [hdumped]; exact hn))]
  rw [given_perm_iff (by rw [hdumped, hdumped, hkeys]) (by rw [hdumped]; exact hn)]
  clear hdumped hn
  induction fs generalizing gs with
  | nil => simp only [List.map_eq_nil_iff.1 hkeys.symm]
  | cons f fs ih =>
    cases gs with
    | nil => cases hkeys
    | cons g gs =>
      obtain ⟨hkey, htail⟩ := List.cons.inj hkeys
      have hrest := ih (fun f h => hf f (List.mem_cons_of_mem _ h)) (fun g h => hg g (List.mem_cons_of_mem _ h)) htail
      rw [List.map_cons, List.map_cons, List.map_cons, List.map_cons, List.cons.injEq, List.cons.injEq]
      refine and_congr ⟨fun h => ?_, fun h => ?_⟩ hrest
      · exact shown_eq_of_dumped (hf f List.mem_cons_self) (hg g List.mem_cons_self) hkey (Prod.mk.inj h).2
      · rw [hkey, h]

/-- The order in which a provider reports the arguments does not matter. -/
theorem normalizeToolArguments_perm {ms ns : List (String × Json)} (h : ms.Perm ns) (hn : (ms.map Prod.fst).Nodup) :
    normalizeToolArguments platform ms = normalizeToolArguments platform ns := by
  refine (inOrder_eq_iff ?_).2 ((h.filter _).map _)
  rw [List.map_map]
  exact (List.filter_sublist.map Prod.fst).nodup hn

end Normal

section Calls
open SemanticSendRequest (listed omitting hostRequest)

/-- The arguments that both tools let the model leave out. -/
structure SendOptions where
  rootId : Option String := none
  visibilityLevel : Option String := none
  sendAnyway : Option Bool := none
  covers : Option (Option (List String)) := none

/-- A call of `send_message` or of `send_message_with_attachments`, as the model writes it. -/
inductive SendCall where
  | message (channel text : String) (options : SendOptions)
  | attachments (paths : List String) (channel : String) (caption text : Option String) (options : SendOptions)

def coversValue (covers : Option (List String)) : Json := covers.elim .null fun ids => .arr (ids.map .str)

def SendOptions.fields (o : SendOptions) : List (String × Option Json) :=
  [("root_id", o.rootId.map .str), ("visibility_level", o.visibilityLevel.map .str),
    ("send_anyway", o.sendAnyway.map .bool), ("covers", o.covers.map coversValue)]

/-- The part of the request that the options decide. -/
def SendOptions.apply (o : SendOptions) (request : SemanticSendRequest) : SemanticSendRequest :=
  { request with
    rootId := o.rootId.getD ""
    visibilityLevel := o.visibilityLevel.getD "default"
    sendAnyway := o.sendAnyway.getD false
    covers := o.covers.join.getD [] }

namespace SendCall

def toolName : SendCall → String
  | message .. => "send_message"
  | attachments .. => "send_message_with_attachments"

def options : SendCall → SendOptions
  | message _ _ o => o
  | attachments _ _ _ _ o => o

def body : SendCall → List (String × Option Json)
  | message channel text _ =>
    [("channel", some (.str channel)), ("caption", none), ("paths", none), ("text", some (.str text))]
  | attachments paths channel caption text _ =>
    [("channel", some (.str channel)), ("caption", caption.map .str), ("paths", some (.arr (paths.map .str))),
      ("text", text.map .str)]

/-- What the provider reports of the call, in some order. -/
def arguments (call : SendCall) : List (String × Json) := given (call.body ++ call.options.fields)

/-- The request that the tool makes of the call. -/
def request : SendCall → Except String SemanticSendRequest
  | message channel text o => .ok (o.apply { destination := channel, text := text })
  | attachments paths channel caption text o =>
    let caption := caption.getD ""
    let text := text.getD ""
    if caption ≠ "" ∧ text ≠ "" ∧ caption ≠ text then
      .error ("send_message_with_attachments received both caption= and text= with different content; " ++
        "they are aliases for the message body — pass exactly one")
    else .ok (o.apply
      { destination := channel, attachmentPaths := paths, caption := if caption ≠ "" then caption else text })

end SendCall

/-- How the daemon gets the request: from its own tools, or from tools in another process. -/
inductive Route where
  | coordinator
  | rpc
  deriving DecidableEq

namespace Route

def received (host : Host) : Route → SemanticSendRequest → SemanticSendRequest
  | coordinator, request => request
  | rpc, request => hostRequest host request.toRpcDict

/-- The name under which the result is staged. -/
def toolName : Route → SendCall → SemanticSendRequest → String
  | coordinator, call, _ => call.toolName
  | rpc, _, request => if request.attachmentPaths = [] then "send_message" else "send_message_with_attachments"

end Route

/-- What `stage_held_send_result` adds of its own to an admission. -/
structure Staging where
  callback : Callback
  providerTurnId : String
  correlationKey : String
  receipt : String
  receipt_ne : receipt ≠ ""

def stageHeldSendResult (platform : Platform) (staging : Staging) (toolName : String)
    (toolArguments : List (String × Json)) : ToolResultAdmission :=
  .build platform staging.callback staging.providerTurnId
    { planningCycleKey := staging.correlationKey
      channelId := ""
      toolNames := [toolName]
      toolArguments := toolArguments
      correlationReceipt := staging.receipt
      receipt_ne := staging.receipt_ne }

/-- The admission that waits for the result of a held call. -/
def heldAdmission (platform : Platform) (staging : Staging) (route : Route) (call : SendCall)
    (request : SemanticSendRequest) : ToolResultAdmission :=
  stageHeldSendResult platform staging (route.toolName call request)
    (route.received platform.host request).toToolArguments

/-- The options say what the request says. -/
structure SendOptions.Tells (o : SendOptions) (r : SemanticSendRequest) : Prop where
  rootId : r.rootId = o.rootId.getD ""
  visibilityLevel : r.visibilityLevel = o.visibilityLevel.getD "default"
  sendAnyway : r.sendAnyway = o.sendAnyway.getD false
  covers : listed r.covers = o.covers.map coversValue

namespace SendCall

/-- The body is spelled as `to_tool_arguments` spells that of the request. -/
def TellsBody (r : SemanticSendRequest) : SendCall → Prop
  | message channel text _ => r.destination = channel ∧ r.attachmentPaths = [] ∧ r.text = text
  | attachments paths channel caption text _ =>
    r.destination = channel ∧ r.attachmentPaths = paths ∧ paths ≠ [] ∧ caption = some r.caption ∧ text = none

structure Tells (r : SemanticSendRequest) (call : SendCall) : Prop where
  body : call.TellsBody r
  options : call.options.Tells r

end SendCall

section Fields

def requestBody (r : SemanticSendRequest) : List (String × Option Json) :=
  [("channel", some (.str r.destination)), ("caption", if r.attachmentPaths = [] then none else some (.str r.caption)),
    ("paths", listed r.attachmentPaths), ("text", if r.attachmentPaths = [] then some (.str r.text) else none)]

def requestOptions (r : SemanticSendRequest) : List (String × Option Json) :=
  [("root_id", omitting "" r.rootId), ("visibility_level", omitting "default" r.visibilityLevel),
    ("send_anyway", if r.sendAnyway then some (.bool true) else none), ("covers", listed r.covers)]

theorem toToolArguments_eq_given (r : SemanticSendRequest) :
    r.toToolArguments = given (requestBody r ++ requestOptions r) := by
  unfold SemanticSendRequest.toToolArguments requestBody requestOptions listed omitting
  split_ifs <;> rfl

variable {name : String}

theorem isOptionalDefault_of_not_mem (h : name ∉ ["root_id", "visibility_level", "send_anyway"]) (v : Json) :
    isOptionalDefault name v = false := by
  simp only [List.mem_cons, List.not_mem_nil, or_false, not_or] at h
  cases v <;> simp [isOptionalDefault, h]

theorem shown_of_not_mem (h : name ∉ ["root_id", "visibility_level", "send_anyway"]) (value : Option Json) :
    shown (name, value) = (name, value) := by
  cases value <;> simp [shown, isOptionalDefault_of_not_mem h, Option.filter_some]

theorem shown_text {default : String} (h : ∀ s, isOptionalDefault name (.str s) = decide (s = default))
    (value : Option String) : shown (name, value.map .str) = (name, omitting default (value.getD default)) := by
  cases value with
  | none => simp [shown, omitting]
  | some s =>
    by_cases hs : s = default
    · simp [shown, omitting, Option.filter_some, h, hs]
    · simp [shown, omitting, Option.filter_some, h, hs]

theorem shown_omitting {default : String} (h : ∀ s, isOptionalDefault name (.str s) = decide (s = default))
    (text : String) : shown (name, omitting default text) = (name, omitting default text) := by
  by_cases hs : text = default
  · simp [shown, omitting, hs]
  · simp [shown, omitting, Option.filter_some, h, hs]

theorem rootId_default (s : String) : isOptionalDefault "root_id" (.str s) = decide (s = "") := by
  simp [isOptionalDefault]

theorem visibilityLevel_default (s : String) :
    isOptionalDefault "visibility_level" (.str s) = decide (s = "default") := by simp [isOptionalDefault]

theorem shown_options_eq_iff (r : SemanticSendRequest) (o : SendOptions) :
    (requestOptions r).map shown = o.fields.map shown ↔ o.Tells r := by
  have hanyway : shown ("send_anyway", if r.sendAnyway then some (.bool true) else none) =
      shown ("send_anyway", o.sendAnyway.map .bool) ↔ r.sendAnyway = o.sendAnyway.getD false := by
    rcases o.sendAnyway with _ | _ | _ <;> cases r.sendAnyway <;> simp +decide [shown, Option.filter_some, isOptionalDefault]
  have hroot := (SemanticSendRequest.omitting_injective "").eq_iff (a := r.rootId) (b := o.rootId.getD "")
  have hlevel := (SemanticSendRequest.omitting_injective "default").eq_iff (a := r.visibilityLevel)
    (b := o.visibilityLevel.getD "default")
  simp only [requestOptions, SendOptions.fields, List.map_cons, List.map_nil, List.cons.injEq, and_true, hanyway,
    shown_omitting rootId_default, shown_text rootId_default, shown_omitting visibilityLevel_default,
    shown_text visibilityLevel_default, Prod.mk.injEq, true_and, hroot, hlevel]
  rw [shown_of_not_mem (by decide), shown_of_not_mem (by decide), Prod.mk.injEq]
  exact ⟨fun ⟨h1, h2, h3, _, h4⟩ => ⟨h1, h2, h3, h4⟩, fun h => ⟨h.rootId, h.visibilityLevel, h.sendAnyway, rfl, h.covers⟩⟩

def bodyNames : List String := ["channel", "caption", "paths", "text"]

theorem map_shown_body {l : List (String × Option Json)} (h : l.map Prod.fst = bodyNames) : l.map shown = l := by
  have hmem : ∀ f ∈ l, shown f = id f := by
    intro f hf
    have hname : f.1 ∈ bodyNames := h ▸ List.mem_map_of_mem hf
    have hnot : ∀ n ∈ bodyNames, n ∉ ["root_id", "visibility_level", "send_anyway"] := by decide
    exact shown_of_not_mem (hnot f.1 hname) f.2
  rw [List.map_congr_left hmem, List.map_id]

theorem listed_eq_some_iff {xs ys : List String} :
    listed xs = some (.arr (ys.map .str)) ↔ xs = ys ∧ ys ≠ [] := by
  have hstr : Function.Injective (List.map Json.str) := List.map_injective_iff.2 fun s t he => Json.str.inj he
  unfold listed
  by_cases h : xs = []
  · rw [if_pos h]
    exact ⟨nofun, fun ⟨he, hne⟩ => absurd (he ▸ h) hne⟩
  · rw [if_neg h, Option.some.injEq, Json.arr.injEq, hstr.eq_iff]
    exact ⟨fun he => ⟨he, he ▸ h⟩, And.left⟩

theorem listed_eq_none_iff {xs : List String} : listed xs = none ↔ xs = [] := by
  unfold listed
  split
  case isTrue h => exact ⟨fun _ => h, fun _ => rfl⟩
  case isFalse h => exact ⟨nofun, fun he => absurd he h⟩

theorem body_eq_iff (r : SemanticSendRequest) (call : SendCall) : requestBody r = call.body ↔ call.TellsBody r := by
  have hstr : ∀ {s t : String}, some (Json.str s) = some (Json.str t) ↔ s = t := by
    intro s t
    rw [Option.some.injEq, Json.str.injEq]
  cases call with
  | message channel text o =>
    simp only [requestBody, SendCall.body, SendCall.TellsBody, List.cons.injEq, Prod.mk.injEq, true_and, and_true, hstr,
      listed_eq_none_iff]
    refine and_congr_right fun _ => ?_
    constructor
    · rintro ⟨_, hpaths, htext⟩
      rw [if_pos hpaths, hstr] at htext
      exact ⟨hpaths, htext⟩
    · rintro ⟨hpaths, htext⟩
      rw [if_pos hpaths, if_pos hpaths, hstr]
      exact ⟨rfl, hpaths, htext⟩
  | attachments paths channel caption text o =>
    simp only [requestBody, SendCall.body, SendCall.TellsBody, List.cons.injEq, Prod.mk.injEq, true_and, and_true, hstr,
      listed_eq_some_iff]
    refine and_congr_right fun _ => ?_
    have hmap : ∀ {s : String} {o : Option String}, some (Json.str s) = o.map .str ↔ o = some s := by
      intro s o
      cases o with
      | none => exact ⟨nofun, nofun⟩
      | some t => rw [Option.map_some, hstr, Option.some.injEq, eq_comm]
    constructor
    · rintro ⟨hcaption, ⟨hpaths, hne⟩, htext⟩
      rw [if_neg (hpaths ▸ hne), hmap] at hcaption
      rw [if_neg (hpaths ▸ hne), eq_comm, Option.map_eq_none_iff] at htext
      exact ⟨hpaths, hne, hcaption, htext⟩
    · rintro ⟨hpaths, hne, hcaption, htext⟩
      rw [if_neg (hpaths ▸ hne), if_neg (hpaths ▸ hne), hmap, htext]
      exact ⟨hcaption, ⟨hpaths, hne⟩, rfl⟩

def optionNames : List String := ["root_id", "visibility_level", "send_anyway", "covers"]

theorem body_names (call : SendCall) : call.body.map Prod.fst = bodyNames := by cases call <;> rfl

theorem call_names (call : SendCall) : (call.body ++ call.options.fields).map Prod.fst = bodyNames ++ optionNames := by
  rw [List.map_append, body_names]
  rfl

theorem sortKeys_texts (texts : List String) : sortKeys (.arr (texts.map .str)) = .arr (texts.map .str) := by
  rw [sortKeys]
  congr 1
  induction texts with
  | nil => rfl
  | cons t texts ih =>
    rw [List.map_cons, sortItems, ih]
    rfl

theorem sortKeys_listed (texts : List String) : ∀ v ∈ listed texts, sortKeys v = v := by
  intro v hv
  unfold listed at hv
  split at hv
  · cases hv
  · cases hv
    exact sortKeys_texts texts

theorem sortKeys_ite {c : Prop} [Decidable c] (text : String) :
    ∀ v ∈ (if c then none else some (Json.str text)), sortKeys v = v := by
  intro v hv
  split at hv <;> cases hv
  rfl

theorem sortKeys_map_str (text : Option String) : ∀ v ∈ text.map .str, sortKeys v = v := by
  intro v hv
  obtain ⟨s, _, rfl⟩ := Option.map_eq_some_iff.1 hv
  rfl

theorem sortKeys_map_coversValue (covers : Option (Option (List String))) :
    ∀ v ∈ covers.map coversValue, sortKeys v = v := by
  intro v hv
  obtain ⟨ids, _, rfl⟩ := Option.map_eq_some_iff.1 hv
  cases ids with
  | none => rfl
  | some ids => exact sortKeys_texts ids

theorem plain_of_names {l : List (String × Option Json)} (hnames : "limit" ∉ l.map Prod.fst)
    (h : ∀ f ∈ l, ∀ v ∈ f.2, sortKeys v = v) : ∀ f ∈ l, Plain f :=
  fun f hf => ⟨fun he => hnames (he ▸ List.mem_map_of_mem hf), h f hf⟩

theorem plain_request (r : SemanticSendRequest) : ∀ f ∈ requestBody r ++ requestOptions r, Plain f := by
  refine plain_of_names (by decide : "limit" ∉ bodyNames ++ optionNames) ?_
  simp only [requestBody, requestOptions, List.cons_append, List.nil_append, List.forall_mem_cons]
  refine ⟨?_, sortKeys_ite _, sortKeys_listed _, ?_, sortKeys_ite _, sortKeys_ite _, ?_, sortKeys_listed _, nofun⟩
  · exact fun v hv => by cases hv; rfl
  · intro v hv
    split at hv <;> cases hv
    rfl
  · intro v hv
    split at hv <;> cases hv
    rfl

theorem plain_call (call : SendCall) : ∀ f ∈ call.body ++ call.options.fields, Plain f := by
  have hbody : ∀ f ∈ call.body, ∀ v ∈ f.2, sortKeys v = v := by
    cases call with
    | message channel text o =>
      simp only [SendCall.body, List.forall_mem_cons]
      exact ⟨fun v hv => by cases hv; rfl, nofun, nofun, fun v hv => by cases hv; rfl, nofun⟩
    | attachments paths channel caption text o =>
      simp only [SendCall.body, List.forall_mem_cons]
      exact ⟨fun v hv => by cases hv; rfl, sortKeys_map_str _, fun v hv => by cases hv; exact sortKeys_texts paths,
        sortKeys_map_str _, nofun⟩
  have hoptions : ∀ f ∈ call.options.fields, ∀ v ∈ f.2, sortKeys v = v := by
    simp only [SendOptions.fields, List.forall_mem_cons]
    refine ⟨sortKeys_map_str _, sortKeys_map_str _, fun v hv => ?_, sortKeys_map_coversValue _, nofun⟩
    obtain ⟨b, _, rfl⟩ := Option.map_eq_some_iff.1 hv
    rfl
  refine plain_of_names ?_ fun f hf => (List.mem_append.1 hf).elim (hbody f) (hoptions f)
  rw [call_names]
  decide

end Fields

section Matches
variable {platform : Platform} {staging : Staging} {call : SendCall} {r : SemanticSendRequest} {name toolName : String}
  {reported : List (String × Json)}

/-- The two dictionaries are normalised to the same when the call is spelled as the request is. -/
theorem normalizeToolArguments_eq_iff_tells (r : SemanticSendRequest) (call : SendCall) :
    normalizeToolArguments platform r.toToolArguments = normalizeToolArguments platform call.arguments ↔
      call.Tells r := by
  have hnames : (requestBody r ++ requestOptions r).map Prod.fst = (call.body ++ call.options.fields).map Prod.fst :=
    (call_names call).symm
  have hnodup : ((requestBody r ++ requestOptions r).map Prod.fst).Nodup :=
    (by decide : (bodyNames ++ optionNames).Nodup)
  have hrequest : (requestBody r).map Prod.fst = bodyNames := rfl
  rw [toToolArguments_eq_given, SendCall.arguments,
    normalizeToolArguments_given_eq_iff (plain_request r) (plain_call call) hnames hnodup, List.map_append,
    List.map_append, map_shown_body hrequest, map_shown_body (body_names call)]
  have hlength : (requestBody r).length = call.body.length := by cases call <;> rfl
  constructor
  · intro h
    obtain ⟨hbody, hoptions⟩ := List.append_inj h hlength
    exact ⟨(body_eq_iff r call).1 hbody, (shown_options_eq_iff r call.options).1 hoptions⟩
  · intro h
    rw [(body_eq_iff r call).2 h.body, (shown_options_eq_iff r call.options).2 h.options]

theorem normalizeToolArguments_ne_nil (r : SemanticSendRequest) :
    normalizeToolArguments platform r.toToolArguments ≠ [] := by
  intro h
  have hp := inOrder_perm (given ((requestBody r ++ requestOptions r).map fun f => (f.1, (shown f).2.map dumpsSorted)))
  rw [← normalizeToolArguments_given (plain_request r), ← toToolArguments_eq_given, h] at hp
  have hchannel : shown ("channel", some (.str r.destination)) = ("channel", some (.str r.destination)) :=
    shown_of_not_mem (by decide) _
  simp only [requestBody, List.cons_append, List.map_cons, hchannel, Option.map_some, given_cons_some] at hp
  exact absurd hp.length_eq nofun

/-- What a staged admission matches: calls of the tool it is staged under, spelled as its request is. -/
theorem matchesCall_iff (htool : toolName = "send_message" ∨ toolName = "send_message_with_attachments")
    (hname : normalizeToolName name = call.toolName) (hreported : reported.Perm call.arguments) :
    (stageHeldSendResult platform staging toolName r.toToolArguments).matchesCall platform name reported = true ↔
      call.toolName = toolName ∧ call.Tells r := by
  have hnormal : normalizeToolName toolName = toolName := by rcases htool with rfl | rfl <;> decide
  have hnonempty : toolName ≠ "" := by rcases htool with rfl | rfl <;> decide
  have hnodup : (reported.map Prod.fst).Nodup := by
    rw [(hreported.map Prod.fst).nodup_iff, SendCall.arguments]
    refine (given_keys_sublist _).nodup ?_
    rw [call_names]
    decide
  have hsend : call.toolName = "send_message" ∨ call.toolName = "send_message_with_attachments" := by
    cases call with
    | message => exact .inl rfl
    | attachments => exact .inr rfl
  unfold ToolResultAdmission.matchesCall stageHeldSendResult ToolResultAdmission.build
  simp only [hname, ne_eq, hnonempty, not_false_eq_true, decide_true, List.filter_cons, List.filter_nil, if_true,
    List.map_cons, List.map_nil, hnormal, reduceCtorEq, List.mem_singleton, true_and, not_true_eq_false, false_and, if_false,
    normalizeToolArguments_ne_nil r, hsend, normalizeToolArguments_perm hreported hnodup]
  by_cases h : call.toolName = toolName
  · simp only [h, not_true_eq_false, if_false, true_and, decide_eq_true_eq]
    exact normalizeToolArguments_eq_iff_tells r call
  · simp only [h, not_false_eq_true, if_true, false_and]
    decide

end Matches

section Recognition
variable {platform : Platform} {staging : Staging} {call d : SendCall} {r : SemanticSendRequest} {route : Route}

theorem toolName_send (route : Route) (call : SendCall) (r : SemanticSendRequest) :
    route.toolName call r = "send_message" ∨ route.toolName call r = "send_message_with_attachments" := by
  cases route with
  | coordinator =>
    cases call with
    | message => exact .inl rfl
    | attachments => exact .inr rfl
  | rpc =>
    by_cases h : r.attachmentPaths = []
    · exact .inl (if_pos h)
    · exact .inr (if_neg h)

/-- One request, but for a body that is not sent. -/
structure SameRequest (a b : SemanticSendRequest) : Prop where
  draft : SemanticSendRequest.SameDraft a b
  sendAnyway : a.sendAnyway = b.sendAnyway

/-- The covers are not written as null or as an empty list. -/
def SendOptions.CoversGiven (o : SendOptions) : Prop := o.covers ≠ some none ∧ o.covers ≠ some (some [])

theorem listed_covers_iff (o : SendOptions) :
    listed (o.covers.join.getD []) = o.covers.map coversValue ↔ o.CoversGiven := by
  unfold SendOptions.CoversGiven
  rcases o.covers with _ | _ | ids
  · exact ⟨fun _ => ⟨nofun, nofun⟩, fun _ => rfl⟩
  · exact ⟨nofun, fun h => absurd rfl h.1⟩
  · refine listed_eq_some_iff.trans ⟨fun h => ⟨nofun, ?_⟩, fun h => ⟨rfl, fun he => h.2 (he ▸ rfl)⟩⟩
    rw [ne_eq, Option.some.injEq, Option.some.injEq]
    exact h.2

theorem covers_of_listed {covers : List String} {o : SendOptions} (h : listed covers = o.covers.map coversValue) :
    covers = o.covers.join.getD [] := by
  cases ho : o.covers with
  | none => exact listed_eq_none_iff.1 (by rw [h, ho]; rfl)
  | some value =>
    rw [ho] at h
    cases value with
    | none =>
      unfold SemanticSendRequest.listed at h
      split at h <;> cases h
    | some ids => exact (listed_eq_some_iff.1 h).1

theorem options_tells_iff (host : Host) (route : Route) (o : SendOptions) (base : SemanticSendRequest) :
    o.Tells (route.received host (o.apply base)) ↔
      o.CoversGiven ∧ (route = .rpc → o.visibilityLevel ≠ some "") := by
  have hcovers := listed_covers_iff o
  cases route with
  | coordinator => exact ⟨fun h => ⟨hcovers.1 h.covers, nofun⟩, fun h => ⟨rfl, rfl, rfl, hcovers.2 h.1⟩⟩
  | rpc =>
    rw [Route.received, SemanticSendRequest.hostRequest_toRpcDict]
    constructor
    · intro h
      refine ⟨hcovers.1 h.covers, fun _ he => ?_⟩
      have hlevel := h.visibilityLevel
      simp only [SemanticSendRequest.crossed, SendOptions.apply, he, Option.getD_some, if_true] at hlevel
      exact absurd hlevel (by decide)
    · rintro ⟨hgiven, hlevel⟩
      have hne : o.visibilityLevel.getD "default" ≠ "" := by
        have hwritten := hlevel rfl
        cases ho : o.visibilityLevel with
        | none => decide
        | some level => exact fun he => hwritten (ho.trans (congrArg some he))
      exact ⟨rfl, if_neg hne, rfl, hcovers.2 hgiven⟩

namespace SendCall

/-- The attachments have a caption, which is written as such. -/
def Captioned : SendCall → Prop
  | message .. => True
  | attachments paths _ caption text _ => paths ≠ [] ∧ caption ≠ none ∧ text = none

/-- The spelling that `to_tool_arguments` mirrors. -/
structure Canonical (route : Route) (call : SendCall) : Prop where
  body : call.Captioned
  covers : call.options.CoversGiven
  visibilityLevel : route = .rpc → call.options.visibilityLevel ≠ some ""

end SendCall

theorem received_fields (host : Host) (route : Route) (r : SemanticSendRequest) :
    (route.received host r).destination = r.destination ∧
    (route.received host r).attachmentPaths = r.attachmentPaths ∧
    (r.attachmentPaths = [] → (route.received host r).text = r.text) ∧
    (r.attachmentPaths ≠ [] → (route.received host r).caption = r.caption) := by
  cases route with
  | coordinator => exact ⟨rfl, rfl, fun _ => rfl, fun _ => rfl⟩
  | rpc =>
    rw [Route.received, SemanticSendRequest.hostRequest_toRpcDict]
    exact ⟨rfl, rfl, fun h => if_pos h, fun h => if_neg h⟩

theorem toolName_attachments {paths : List String} {channel : String} {caption text : Option String} {o : SendOptions}
    (hpaths : r.attachmentPaths = paths) (hne : paths ≠ []) :
    route.toolName (.attachments paths channel caption text o) r = "send_message_with_attachments" := by
  cases route with
  | coordinator => rfl
  | rpc => exact if_neg (hpaths ▸ hne)

/-- The request of a call with attachments, which an alias of the caption may have. -/
theorem request_attachments {paths : List String} {channel : String} {caption text : Option String} {o : SendOptions}
    (h : (SendCall.attachments paths channel caption text o).request = .ok r) :
    r = o.apply { destination := channel, attachmentPaths := paths, caption := r.caption } ∧
      (text = none → r.caption = caption.getD "") := by
  simp only [SendCall.request] at h
  split at h
  case isTrue => cases h
  case isFalse =>
    obtain rfl := Except.ok.inj h
    refine ⟨rfl, fun ht => ?_⟩
    subst ht
    show (if caption.getD "" ≠ "" then caption.getD "" else "") = caption.getD ""
    split
    case isTrue => rfl
    case isFalse hempty => exact (not_not.1 hempty).symm

/-- An own result is staged under its own name and spelled as its request is, when the spelling is canonical. -/
theorem tells_own_iff (host : Host) (hrequest : call.request = .ok r) :
    call.toolName = route.toolName call r ∧ call.Tells (route.received host r) ↔ call.Canonical route := by
  obtain ⟨hdestination, hpaths, htext, hcaption⟩ := received_fields host route r
  cases call with
  | message channel text o =>
    obtain rfl := Except.ok.inj hrequest
    have hoptions := options_tells_iff host route o { destination := channel, text := text }
    constructor
    · rintro ⟨_, h⟩
      obtain ⟨hcovers, hlevel⟩ := hoptions.1 h.options
      exact ⟨trivial, hcovers, hlevel⟩
    · intro h
      refine ⟨?_, ⟨hdestination, hpaths, htext rfl⟩, hoptions.2 ⟨h.covers, h.visibilityLevel⟩⟩
      cases route <;> rfl
  | attachments paths channel caption text o =>
    obtain ⟨hr, halias⟩ := request_attachments hrequest
    have hoptions := options_tells_iff host route o
      { destination := channel, attachmentPaths := paths, caption := r.caption }
    rw [← hr] at hoptions
    have hown : r.attachmentPaths = paths := by rw [hr]; rfl
    constructor
    · rintro ⟨_, hbody, htold⟩
      obtain ⟨_, _, hne, hwritten, hnone⟩ := hbody
      obtain ⟨hcovers, hlevel⟩ := hoptions.1 htold
      refine ⟨⟨hne, ?_, hnone⟩, hcovers, hlevel⟩
      rw [hwritten]
      exact nofun
    · rintro ⟨⟨hne, hwritten, hnone⟩, hcovers, hlevel⟩
      have hchannel : r.destination = channel := by rw [hr]; rfl
      obtain ⟨c, rfl⟩ := Option.ne_none_iff_exists'.1 hwritten
      refine ⟨(toolName_attachments hown hne).symm, ⟨hdestination.trans hchannel, hpaths.trans hown, hne, ?_, hnone⟩,
        hoptions.2 ⟨hcovers, hlevel⟩⟩
      rw [hcaption (hown ▸ hne), halias hnone]
      rfl

/-- A call that spells a request as `to_tool_arguments` does makes that request. -/
theorem request_of_tells (h : d.Tells r) : ∃ made, d.request = .ok made ∧ SameRequest r made := by
  have hcovers := covers_of_listed h.options.covers
  cases d with
  | message channel text o =>
    obtain ⟨hdestination, hpaths, htext⟩ := h.body
    refine ⟨_, rfl, ⟨hdestination, hpaths, fun _ => htext, fun hne => absurd hpaths hne, ?_, ?_, hcovers⟩, ?_⟩
    · exact h.options.rootId
    · exact h.options.visibilityLevel
    · exact h.options.sendAnyway
  | attachments paths channel caption text o =>
    obtain ⟨hdestination, hpaths, hne, hcaption, rfl⟩ := h.body
    subst hcaption
    have hmade : (SendCall.attachments paths channel (some r.caption) none o).request =
        .ok (o.apply { destination := channel, attachmentPaths := paths, caption := r.caption }) := by
      unfold SendCall.request
      by_cases hc : r.caption = "" <;> simp [hc]
    refine ⟨_, hmade, ⟨hdestination, hpaths, fun he => absurd (hpaths.symm.trans he) hne, fun _ => rfl, ?_, ?_, hcovers⟩, ?_⟩
    · exact h.options.rootId
    · exact h.options.visibilityLevel
    · exact h.options.sendAnyway

/-- What the daemon makes of a request that is already one of its own. -/
theorem sameRequest_received {made : SemanticSendRequest} (host : Host)
    (h : SameRequest (route.received host r) made) :
    SameRequest (route.received host r) (route.received host made) := by
  cases route with
  | coordinator => exact h
  | rpc =>
    simp only [Route.received, SemanticSendRequest.hostRequest_toRpcDict] at h ⊢
    obtain ⟨hdraft, hanyway⟩ := h
    refine ⟨⟨hdraft.destination, hdraft.attachmentPaths, fun he => ?_, fun hne => ?_, hdraft.rootId, ?_, hdraft.covers⟩, hanyway⟩
    · exact (hdraft.text he).trans (if_pos (hdraft.attachmentPaths ▸ he)).symm
    · exact (hdraft.caption hne).trans (if_neg (hdraft.attachmentPaths ▸ hne)).symm
    · have hlevel : made.visibilityLevel ≠ "" := by
        rw [← hdraft.visibilityLevel]
        show (if r.visibilityLevel = "" then "default" else r.visibilityLevel) ≠ ""
        split
        case isTrue => decide
        case isFalse hne => exact hne
      exact hdraft.visibilityLevel.trans (if_neg hlevel).symm

/-- The admission of a held call matches that call however it is reported, and no call of another request. -/
structure Recognises (platform : Platform) (admission : ToolResultAdmission) (route : Route) (call : SendCall)
    (request : SemanticSendRequest) : Prop where
  own : ∀ name reported, normalizeToolName name = call.toolName → reported.Perm call.arguments →
    admission.matchesCall platform name reported = true
  others : ∀ (d : SendCall) name reported, normalizeToolName name = d.toolName → reported.Perm d.arguments →
    admission.matchesCall platform name reported = true →
    ∃ made, d.request = .ok made ∧
      SameRequest (route.received platform.host request) (route.received platform.host made)

theorem normalizeToolName_toolName (call : SendCall) : normalizeToolName call.toolName = call.toolName := by
  cases call with
  | message => exact (by decide : normalizeToolName "send_message" = "send_message")
  | attachments => exact (by decide : normalizeToolName "send_message_with_attachments" = "send_message_with_attachments")

theorem Recognises.canonical (hrequest : call.request = .ok r)
    (h : Recognises platform (heldAdmission platform staging route call r) route call r) : call.Canonical route := by
  have hname := normalizeToolName_toolName call
  have hmatch := h.own call.toolName call.arguments hname (.refl _)
  have htold := (matchesCall_iff (toolName_send route call r) hname (.refl _)).1 hmatch
  exact (tells_own_iff platform.host hrequest).1 htold

/-- A held call is recognised when it is spelled as `to_tool_arguments` spells it, and only then. -/
theorem held_send_recognised_iff (platform : Platform) (staging : Staging) (route : Route) (call : SendCall)
    (request : SemanticSendRequest) (hrequest : call.request = .ok request) :
    Recognises platform (heldAdmission platform staging route call request) route call request ↔
      call.Canonical route := by
  have htool := toolName_send route call request
  refine ⟨Recognises.canonical hrequest, fun hcanonical => ?_⟩
  refine ⟨fun name reported hname hreported => ?_, fun d name reported hname hreported hmatch => ?_⟩
  · exact (matchesCall_iff htool hname hreported).2 ((tells_own_iff platform.host hrequest).2 hcanonical)
  · obtain ⟨made, hmade, hsame⟩ := request_of_tells ((matchesCall_iff htool hname hreported).1 hmatch).2
    exact ⟨made, hmade, sameRequest_received platform.host hsame⟩

/-- A platform for closed calls. -/
def closedPlatform : Platform where
  host := asciiHost
  repr value := value.dumps
  toInt
    | .int n => some n
    | _ => none
  sha256 bytes := toString (bytes.map UInt8.toNat)

def closedStaging : Staging := ⟨⟨0, 0⟩, "turn_1", "held_send_1", "receipt", by decide⟩

/-- The call of a reply with its defaults written out, its covers and its thread. -/
def reply : SendCall := .message "ch" "hi" ⟨some "m0", some "default", some false, some (some ["m1"])⟩

theorem reply_recognised :
    Recognises closedPlatform (heldAdmission closedPlatform closedStaging .rpc reply
        { destination := "ch", text := "hi", rootId := "m0", covers := ["m1"] }) .rpc reply
        { destination := "ch", text := "hi", rootId := "m0", covers := ["m1"] } ↔ reply.Canonical .rpc :=
  held_send_recognised_iff closedPlatform closedStaging .rpc reply _ rfl

/-- A call that the tools accept and that its own admission does not recognise. -/
def Unrecognised (call : SendCall) : Prop :=
  ∃ request, call.request = .ok request ∧
    ¬ Recognises closedPlatform (heldAdmission closedPlatform closedStaging .coordinator call request) .coordinator call request

/-- Empty covers, an omitted caption and its alias are accepted by the tools and not recognised. -/
theorem spellings_not_recognised :
    Unrecognised (.message "ch" "hi" { covers := some (some []) }) ∧
      Unrecognised (.attachments ["f"] "ch" none none {}) ∧ Unrecognised (.attachments ["f"] "ch" none (some "hi") {}) := by
  refine ⟨⟨_, rfl, fun h => ?_⟩, ⟨_, rfl, fun h => ?_⟩, ⟨_, rfl, fun h => ?_⟩⟩
  · exact (h.canonical rfl).covers.2 rfl
  · exact (h.canonical rfl).body.2.1 rfl
  · exact (h.canonical rfl).body.2.1 rfl

end Recognition
end Calls
end PuffoAgent.Runtime
