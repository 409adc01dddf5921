import PuffoAgent.WsLocal.Bundles
import PuffoAgent.WsLocal.Commands

/-! The frames between the daemon and the tool of a ws-local agent. -/
namespace PuffoAgent.WsLocal
open Text

/-- From the tool to the daemon. -/
inductive Inbound where
  | connect (bundle password : String) (capabilities : List String)
  | ack (bundleId : String)
  | admitted (bundleId turnId correlationKey : String)
  | finish (bundleId : String)
  | toolCall (commandId tool : String) (params : List (String × Json))
  | ping
  | pong

/-- From the daemon to the tool. -/
inductive Outbound (μ : Type) where
  | connected (sessionId : String) (agent : List (String × Json)) (capabilities : List String)
  | error (reason : String)
  | sendBundle (b : Bundle μ)
  | toolResult (commandId : String) (result : Except String Json)
  | ping
  | pong

/-- Why a text is no frame; `invalidJson` and `unknownType` leave out how the value is printed. -/
inductive ProtocolError where
  | invalidJson
  | notObject
  | capabilities
  | missing (key : String)
  | admittedVersion
  | params
  | unknownType (kind : Option Json)

def ProtocolError.message (repr : Option Json → String) : ProtocolError → String
  | .invalidJson => "invalid JSON"
  | .notObject => "frame is not a JSON object"
  | .capabilities => "connect.capabilities must be a string list"
  | .missing key => "missing/empty field '" ++ key ++ "'"
  | .admittedVersion => "admitted.version must be 2"
  | .params => "tool_call.params must be an object"
  | .unknownType kind => "unknown frame type: " ++ repr kind

section Decode
variable (host : Host) (floatIs : FloatText → Int → Bool)

/-- `_req`. -/
def req (msg : Json) (key : String) : Except ProtocolError String :=
  match msg.member key with
  | some (.str val) => if val = "" then .error (.missing key) else .ok val
  | _ => .error (.missing key)

/-- `value == 2`. -/
def isTwo : Option Json → Bool
  | some (.int n) => n = 2
  | some (.float f) => floatIs f 2
  | _ => false

/-- `msg.get("capabilities") or []`, which has to be a list of texts. -/
def capabilitiesOf (msg : Json) : Except ProtocolError (List String) :=
  match msg.member "capabilities" with
  | none => .ok []
  | some value =>
    if value.truthy = false then .ok []
    else match value with
      | .arr items => match items.mapM fun item => asText (some item) with
        | some texts => .ok texts
        | none => .error .capabilities
      | _ => .error .capabilities

/-- The parameters of a tool call; no value and `null` are none. -/
def paramsOf (msg : Json) : Except ProtocolError (List (String × Json)) :=
  match msg.member "params" with
  | none | some .null => .ok []
  | some (.obj params) => .ok params
  | some _ => .error .params

/-- `decode_inbound` of a parsed text. -/
def decodeFrame (msg : Json) : Except ProtocolError Inbound :=
  match msg with
  | .obj _ =>
    match msg.member "type" with
    | some (.str "connect") => do
      let capabilities ← capabilitiesOf msg
      return .connect (← req msg "bundle") (← req msg "password") capabilities
    | some (.str "ack") => return .ack (← req msg "bundle_id")
    | some (.str "admitted") => do
      if isTwo floatIs (msg.member "version") = false then throw .admittedVersion
      return .admitted (← req msg "bundle_id") (← req msg "turn_id") (host.text (msg.member "correlation_key"))
    | some (.str "end") => return .finish (← req msg "bundle_id")
    | some (.str "tool_call") => do
      let params ← paramsOf msg
      return .toolCall (← req msg "command_id") (← req msg "tool") params
    | some (.str "ping") => return .ping
    | some (.str "pong") => return .pong
    | kind => throw (.unknownType kind)
  | _ => throw .notObject

/-- `decode_inbound`. -/
def decodeInbound (raw : String) : Except ProtocolError Inbound :=
  match Json.loads raw with
  | none => .error .invalidJson
  | some msg => decodeFrame host floatIs msg

variable {host floatIs}

theorem req_ne_empty {msg : Json} {key val : String} (h : req msg key = .ok val) : val ≠ "" := by
  unfold req at h
  split at h
  · rename_i v _
    by_cases hv : v = ""
    · rw [if_pos hv] at h
      cases h
    · rw [if_neg hv] at h
      cases h
      exact hv
  · cases h

/-- An admission always names its turn. -/
theorem decodeFrame_admitted {msg : Json} {bundleId turnId key : String}
    (h : decodeFrame host floatIs msg = .ok (.admitted bundleId turnId key)) : turnId ≠ "" := by
  unfold decodeFrame at h
  split at h
  · split at h
    · obtain ⟨_, -, h⟩ := except_bind_ok_iff.1 h
      obtain ⟨_, -, h⟩ := except_bind_ok_iff.1 h
      obtain ⟨_, -, h⟩ := except_bind_ok_iff.1 h
      cases h
    · obtain ⟨_, -, h⟩ := except_bind_ok_iff.1 h
      cases h
    · split at h
      · cases h
      · obtain ⟨_, -, h⟩ := except_bind_ok_iff.1 h
        obtain ⟨turnId', hturn, h⟩ := except_bind_ok_iff.1 h
        cases h
        exact req_ne_empty hturn
    · obtain ⟨_, -, h⟩ := except_bind_ok_iff.1 h
      cases h
    · obtain ⟨_, -, h⟩ := except_bind_ok_iff.1 h
      obtain ⟨_, -, h⟩ := except_bind_ok_iff.1 h
      obtain ⟨_, -, h⟩ := except_bind_ok_iff.1 h
      cases h
    · cases h
    · cases h
    · cases h
  · cases h

theorem decodeInbound_admitted {raw bundleId turnId key : String}
    (h : decodeInbound host floatIs raw = .ok (.admitted bundleId turnId key)) : turnId ≠ "" := by
  unfold decodeInbound at h
  split at h
  · cases h
  · exact decodeFrame_admitted h

end Decode

section Encode
variable {μ : Type} (message : μ → Json)

end Encode

section Agreement
variable {host : Host} {repr : Json → String} {floatIs : FloatText → Int → Bool}

/-- A field of a command, which must not be empty. -/
def named (host : Host) (command : List (String × Json)) (key : String) : Except ProtocolError String :=
  if commandText host command key = "" then .error (.missing key) else .ok (commandText host command key)

/-- The correlation key of a command, as text; no key and `null` are none. -/
def correlationKeyOf (host : Host) (command : List (String × Json)) : String :=
  match (Json.obj command).member "correlation_key" with
  | none | some .null => ""
  | some key => host.str key

/-- The members of an object; anything else has none. -/
def membersOf : Option Json → List (String × Json)
  | some (.obj members) => members
  | _ => []

/-- What a command of the agent means to the daemon. -/
def asked (host : Host) (command : List (String × Json)) : Except ProtocolError Inbound :=
  match (Json.obj command).member "type" with
  | some (.str "ack") => return .ack (← named host command "bundle_id")
  | some (.str "end") => return .finish (← named host command "bundle_id")
  | some (.str "admitted") =>
    return .admitted (← named host command "bundle_id") (← named host command "turn_id") (correlationKeyOf host command)
  | some (.str "tool_call") => do
    let commandId ← named host command "command_id"
    let tool ← named host command "tool"
    return .toolCall commandId tool (membersOf ((Json.obj command).member "params"))
  | kind => throw (.unknownType kind)

theorem req_text {msg : Json} {command : List (String × Json)} {key : String}
    (h : msg.member key = some (.str (commandText host command key))) : req msg key = named host command key := by
  rw [req, h, named]

theorem text_str (s : String) : host.text (some (.str s)) = s := by
  unfold Host.text Json.truthy
  by_cases hs : s = ""
  · simp [hs]
  · simp [hs, host.str_str]

/-- A frame of the client that names nothing but itself and a correlation. -/
theorem member_admittedFrame (host : Host) (command : List (String × Json)) {key : String} {value : Json} (hk : key ≠ "correlation_key")
    (h : (Json.obj [("type", .str "admitted"), ("version", .int 2), ("bundle_id", .str (commandText host command "bundle_id")),
      ("turn_id", .str (commandText host command "turn_id"))]).member key = some value) :
    (admittedFrame host command).member key = some value := by
  unfold admittedFrame
  cases (Json.obj command).member "correlation_key" with
  | none => exact h
  | some correlation => cases correlation <;> simpa [Json.member, Ne.symm hk] using h

theorem text_correlation (host : Host) (command : List (String × Json)) :
    host.text ((admittedFrame host command).member "correlation_key") = correlationKeyOf host command := by
  unfold admittedFrame correlationKeyOf
  cases (Json.obj command).member "correlation_key" with
  | none => rfl
  | some key => cases key <;> first | rfl | exact text_str _

theorem decode_admittedFrame (command : List (String × Json)) :
    decodeFrame host floatIs (admittedFrame host command) = do
      return .admitted (← named host command "bundle_id") (← named host command "turn_id") (correlationKeyOf host command) := by
  have htype := member_admittedFrame host command (show "type" ≠ _ by decide) rfl
  have hversion := member_admittedFrame host command (show "version" ≠ _ by decide) rfl
  have hbundle := req_text (member_admittedFrame host command (show "bundle_id" ≠ _ by decide) rfl)
  have hturn := req_text (member_admittedFrame host command (show "turn_id" ≠ _ by decide) rfl)
  have hkey := text_correlation host command
  obtain ⟨ms, hms⟩ : ∃ ms, admittedFrame host command = .obj ms := ⟨_, rfl⟩
  rw [hms] at htype hversion hbundle hturn hkey ⊢
  unfold decodeFrame
  simp only [htype, hversion, hbundle, hturn, hkey]
  rfl

/-- The parameters of a tool call as they are sent. -/
theorem params_sent {value : Option Json} {params : List (String × Json)}
    (h : (if (value.getD .null).truthy then value.getD .null else .obj []) = .obj params) :
    params = membersOf value := by
  cases value with
  | none => cases h; rfl
  | some value =>
    cases value with
    | obj members =>
      cases members with
      | nil => cases h; rfl
      | cons => cases h; rfl
    | null => cases h; rfl
    | bool | int | float | str | arr =>
      split at h
      · cases h
      · cases h; rfl

theorem decode_toolCallFrame {command : List (String × Json)} {f : Json}
    (h : toolCallFrame host command = .frame f) : decodeFrame host floatIs f = do
      let commandId ← named host command "command_id"
      let tool ← named host command "tool"
      return .toolCall commandId tool (membersOf ((Json.obj command).member "params")) := by
  unfold toolCallFrame at h
  dsimp only at h
  split at h
  · rename_i params hparams
    cases h
    rw [← params_sent hparams]
    rfl
  · cases h

/-- The commands that make a frame. -/
theorem sendCommand_frame {command : List (String × Json)} {f : Json} (h : sendCommand host repr command = .frame f) :
    ∃ kind, (Json.obj command).member "type" = some (.str kind) ∧
      (((kind = "ack" ∨ kind = "end") ∧
          f = .obj [("type", .str kind), ("bundle_id", .str (commandText host command "bundle_id"))]) ∨
        (kind = "admitted" ∧ f = admittedFrame host command) ∨ (kind = "tool_call" ∧ toolCallFrame host command = .frame f)) := by
  unfold sendCommand at h
  cases htype : (Json.obj command).member "type" with
  | none =>
    rw [htype] at h
    cases h
  | some value =>
    rw [htype] at h
    cases value with
    | str kind =>
      refine ⟨kind, rfl, ?_⟩
      change (if kind = "ack" ∨ kind = "end" then _ else _) = _ at h
      split at h
      · rename_i hkind
        cases h
        exact .inl ⟨hkind, rfl⟩
      split at h
      · rename_i hkind
        cases h
        exact .inr (.inl ⟨hkind, rfl⟩)
      split at h
      · rename_i hkind
        exact .inr (.inr ⟨hkind, h⟩)
      · split at h <;> cases h
    | null | bool | int | float | arr | obj => cases h

/-- What the client sends is what the daemon hears, but for fields that are empty. -/
theorem decode_sendCommand {command : List (String × Json)} {f : Json} (h : sendCommand host repr command = .frame f) :
    decodeFrame host floatIs f = asked host command := by
  obtain ⟨kind, htype, ⟨rfl | rfl, rfl⟩ | ⟨rfl, rfl⟩ | ⟨rfl, hf⟩⟩ := sendCommand_frame h
  all_goals unfold asked; rw [htype]
  · rfl
  · rfl
  · exact decode_admittedFrame command
  · exact decode_toolCallFrame hf

theorem named_error {command : List (String × Json)} {key : String} {e : ProtocolError} (h : named host command key = .error e) :
    ∃ key, e = .missing key ∧ commandText host command key = "" := by
  unfold named at h
  split at h
  · cases h
    exact ⟨key, rfl, ‹_›⟩
  · cases h

theorem named_bind_error {command : List (String × Json)} {key : String} {e : ProtocolError} {α : Type}
    {next : String → Except ProtocolError α} (h : (named host command key >>= next) = .error e)
    (hnext : ∀ text, next text = .error e → ∃ key, e = .missing key ∧ commandText host command key = "") :
    ∃ key, e = .missing key ∧ commandText host command key = "" := by
  cases hn : named host command key with
  | error e' =>
    rw [hn] at h
    cases h
    exact named_error hn
  | ok text =>
    rw [hn] at h
    exact hnext text h

/-- A frame of the client is refused for an empty field only. -/
theorem refused_field {command : List (String × Json)} {f : Json} (h : sendCommand host repr command = .frame f)
    {e : ProtocolError} (he : asked host command = .error e) : ∃ key, e = .missing key ∧ commandText host command key = "" := by
  obtain ⟨kind, htype, ⟨rfl | rfl, -⟩ | ⟨rfl, -⟩ | ⟨rfl, -⟩⟩ := sendCommand_frame h
  all_goals unfold asked at he; rw [htype] at he
  · exact named_bind_error he fun text ht => by cases ht
  · exact named_bind_error he fun text ht => by cases ht
  · exact named_bind_error he fun text ht => named_bind_error ht fun text ht => by cases ht
  · exact named_bind_error he fun text ht => named_bind_error ht fun text ht => by cases ht

/-- Every frame that the client makes of a line of its command file, in any text that reads back as it, is what the line
asks for, or is refused for a field that the line leaves empty: it is never bad JSON, of an unknown type, version or
shape. -/
theorem client_line_heard (host : Host) (repr : Json → String) (floatIs : FloatText → Int → Bool) (line raw : String) (f : Json)
    (h : sendAttachCommand host repr line = .frame f) (hraw : Json.loads raw = some f) :
    ∃ command, Json.loads (trimmed line) = some (.obj command) ∧
      decodeInbound host floatIs raw = asked host command ∧
      ∀ e, asked host command = .error e → ∃ key, e = .missing key ∧ commandText host command key = "" := by
  unfold sendAttachCommand at h
  split at h
  · cases h
  split at h
  · cases h
  · rename_i command hloads
    refine ⟨command, hloads, ?_, ?_⟩
    · rw [decodeInbound, hraw]
      exact decode_sendCommand h
    · exact fun e he => refused_field h he
  · cases h

theorem client_line_heard_end : ∃ command, Json.loads (trimmed (String.ofList CommandClient.endLine)) = some (.obj command) ∧
    decodeInbound asciiHost (fun _ _ => false) (Json.obj [("type", .str "end"), ("bundle_id", .str "b")]).dumpsAscii =
      asked asciiHost command ∧
    ∀ e, asked asciiHost command = .error e → ∃ key, e = .missing key ∧ commandText asciiHost command key = "" := by
  have htext : trimmed (String.ofList CommandClient.endLine) =
      (Json.obj [("type", .str "end"), ("bundle_id", .str "b")]).dumps := by decide +kernel
  have hsent : sendAttachCommand asciiHost Json.dumps (String.ofList CommandClient.endLine) =
      .frame (.obj [("type", .str "end"), ("bundle_id", .str "b")]) := by
    rw [sendAttachCommand, htext, if_neg (by decide +kernel), Json.loads_dumps]
    rfl
  exact client_line_heard asciiHost Json.dumps _ _ _ _ hsent (Json.loads_dumpsAscii _)

end Agreement

end PuffoAgent.WsLocal
