import Mathlib.Data.Bool.AllAny
import PuffoAgent.Text.JsonParse
import PuffoAgent.Text.Python
import PuffoAgent.Text.Utf8

/-! The command file of a ws-local client: an append-only file that is polled for the frames
the agent wants sent. -/
namespace PuffoAgent.WsLocal
open Text

section Lines
variable (host : Host) (repr : Json → String)

/-- What `_send_attach_command` does with one line. -/
inductive Handled
  | nothing
  | event (reason : String)
  | frame (f : Json)
  | detach
  | raises

/-- `str(command.get(key, ""))`. -/
def commandText (command : List (String × Json)) (key : String) : String :=
  host.str (((Json.obj command).member key).getD (.str ""))

def isHashable : Json → Bool
  | .arr _ | .obj _ => false
  | _ => true

def admittedFrame (command : List (String × Json)) : Json :=
  .obj <| [("type", .str "admitted"), ("version", .int 2), ("bundle_id", .str (commandText host command "bundle_id")),
    ("turn_id", .str (commandText host command "turn_id"))] ++
    match (Json.obj command).member "correlation_key" with
    | none | some .null => []
    | some key => [("correlation_key", .str (host.str key))]

def toolCallFrame (command : List (String × Json)) : Handled :=
  let params := ((Json.obj command).member "params").getD .null
  match if params.truthy then params else .obj [] with
  | .obj params => .frame <| .obj [("type", .str "tool_call"), ("command_id", .str (commandText host command "command_id")),
      ("tool", .str (commandText host command "tool")), ("params", .obj params)]
  | _ => .event "tool_call.params must be an object"

/-- A parsed command. Its type is looked up in a set first. -/
def sendCommand (command : List (String × Json)) : Handled :=
  let kind := ((Json.obj command).member "type").getD .null
  if isHashable kind = false then .raises
  else match kind with
    | .str kind =>
      if kind = "ack" ∨ kind = "end" then
        .frame <| .obj [("type", .str kind), ("bundle_id", .str (commandText host command "bundle_id"))]
      else if kind = "admitted" then .frame (admittedFrame host command)
      else if kind = "tool_call" then toolCallFrame host command
      else if kind = "detach" then .detach
      else .event ("unknown command type: " ++ repr (.str kind))
    | kind => .event ("unknown command type: " ++ repr kind)

/-- The text of a line without byte order marks before it and whitespace around it. -/
def trimmed (line : String) : String := strip (lstrip '\uFEFF' line)

/-- `_send_attach_command`. A value that is no object has no `get`. -/
def sendAttachCommand (line : String) : Handled :=
  if trimmed line = "" then .nothing
  else match Json.loads (trimmed line) with
    | none => .event ("bad command JSON: " ++ String.ofList ((trimmed line).toList.take 100))
    | some (.obj command) => sendCommand host repr command
    | some _ => .raises

end Lines

section Client

/-- The client: the bytes of `commands.ndjson`, whether another file has taken its place, and
how far it is read. `stopped` is set by a detach, by the other side of the session and by
whatever ends the pump. -/
structure CommandClient where
  bytes : List UInt8
  replaced : Bool := false
  offset : Nat := 0
  sent : List Json := []
  events : List String := []
  stopped : Bool := false

namespace CommandClient

/-- `read_commands`. -/
def readCommands (c : CommandClient) : Except String (List UInt8 × Nat) :=
  if c.replaced then .error "commands.ndjson was replaced during the session"
  else if c.bytes.length < c.offset then .error "commands.ndjson must be append-only"
  else .ok (c.bytes.drop c.offset, c.bytes.length)

/-- `bytes.decode("utf-8-sig", errors="replace")`. -/
def decodeSig (chunk : List UInt8) : String :=
  String.ofList (decodeReplace none (if [0xEF, 0xBB, 0xBF].isPrefixOf chunk then chunk.drop 3 else chunk))

variable (host : Host) (repr : Json → String)

/-- The lines of one chunk. -/
def pumpLines (c : CommandClient) : List String → CommandClient
  | [] => c
  | line :: lines =>
    match sendAttachCommand host repr line with
    | .nothing => c.pumpLines lines
    | .event reason => { c with events := c.events ++ [reason] }.pumpLines lines
    | .frame f => { c with sent := c.sent ++ [f] }.pumpLines lines
    | .detach | .raises => { c with stopped := true }

/-- One round of `_pump_commands`. -/
def poll (c : CommandClient) : CommandClient :=
  if c.stopped then c
  else match c.readCommands with
    | .error reason => { c with events := c.events ++ [reason], stopped := true }
    | .ok (chunk, offset) => { c with offset := offset }.pumpLines host repr (splitlines (decodeSig chunk))

/-- What happens to the file and its client. -/
inductive Step
  | append (bytes : List UInt8)
  | poll
  | stop

def step (c : CommandClient) : Step → CommandClient
  | .append bytes => { c with bytes := c.bytes ++ bytes }
  | .poll => c.poll host repr
  | .stop => { c with stopped := true }

def run (c : CommandClient) (steps : List Step) : CommandClient := steps.foldl (step host repr) c

end CommandClient
end Client

section Purpose
variable (host : Host) (repr : Json → String)

/-- The frames that lines ask for. A detach is the last of them. -/
def wanted : List String → List Json
  | [] => []
  | line :: lines =>
    match sendAttachCommand host repr line with
    | .frame f => f :: wanted lines
    | .detach => []
    | _ => wanted lines

/-- What the newline-terminated lines of a file ask for, as far as they are valid UTF-8. -/
def commands (bytes : List UInt8) : List Json := wanted host repr ((terminated 10 [] bytes).filterMap decodeStrict)

/-- A line that `splitlines` leaves whole but for a carriage return at its end, and that is an
object with a plain type if it is JSON at all. -/
structure Whole (line : List Char) : Prop where
  plain : ∀ c ∈ withoutReturn line, isLineBoundary c = false
  object : ∀ v, Json.loads (trimmed (String.ofList line)) = some v →
    ∃ command, v = .obj command ∧ isHashable ((v.member "type").getD .null) = true

/-- Whole lines of valid UTF-8, each with its newline. -/
def WholeLines (bytes : List UInt8) : Prop :=
  ∃ lines : List (List Char), bytes = encodeUtf8 (lines.flatMap (· ++ ['\n'])) ∧ ∀ line ∈ lines, Whole line

/-- Every poll of a run finds whole lines after what is read. -/
def PolledWhole (c : CommandClient) : List CommandClient.Step → Prop
  | [] => True
  | s :: steps => (s = .poll → c.stopped = false → WholeLines (c.bytes.drop c.offset)) ∧
      PolledWhole (c.step host repr s) steps

end Purpose

section LineFacts
variable {host : Host} {repr : Json → String}

theorem strip_append_return (cs : List Char) : strip (String.ofList (cs ++ ['\r'])) = strip (String.ofList cs) := by
  unfold strip
  rw [String.toList_ofList, String.toList_ofList, List.dropWhile_append]
  split
  case isTrue hblank =>
    rw [List.isEmpty_iff.1 hblank]
    rfl
  case isFalse hblank =>
    rw [List.reverse_append]
    rfl

theorem trimmed_append_return (cs : List Char) : trimmed (String.ofList (cs ++ ['\r'])) = trimmed (String.ofList cs) := by
  unfold trimmed lstrip
  rw [String.toList_ofList, String.toList_ofList, List.dropWhile_append]
  split
  case isTrue hmarks =>
    rw [List.isEmpty_iff.1 hmarks]
    rfl
  case isFalse hmarks => exact strip_append_return _

theorem trimmed_withoutReturn (line : List Char) :
    trimmed (String.ofList (withoutReturn line)) = trimmed (String.ofList line) := by
  unfold withoutReturn
  split
  case isTrue hreturn =>
    obtain ⟨body, rfl⟩ := List.getLast?_eq_some_iff.1 hreturn
    rw [List.dropLast_concat, trimmed_append_return]
  case isFalse => rfl

/-- A text without one byte order mark at its start. -/
def dropMark : List Char → List Char
  | [] => []
  | c :: cs => if c = '\uFEFF' then cs else c :: cs

theorem trimmed_dropMark (line : List Char) : trimmed (String.ofList (dropMark line)) = trimmed (String.ofList line) := by
  cases line with
  | nil => rfl
  | cons c cs =>
    rw [dropMark]
    split
    case isTrue hc =>
      unfold trimmed lstrip
      rw [String.toList_ofList, String.toList_ofList, List.dropWhile_cons_of_pos (by simpa using hc)]
    case isFalse => rfl

theorem send_eq_of_trimmed {line line' : String} (h : trimmed line = trimmed line') :
    sendAttachCommand host repr line = sendAttachCommand host repr line' := by
  unfold sendAttachCommand
  rw [h]

theorem mem_withoutReturn_dropMark {line : List Char} {c : Char} (h : c ∈ withoutReturn (dropMark line)) :
    c ∈ withoutReturn line := by
  cases line with
  | nil => exact h
  | cons d ds =>
    rw [dropMark] at h
    split at h
    case isTrue =>
      cases ds with
      | nil => cases h
      | cons e es =>
        unfold withoutReturn at h ⊢
        rw [List.getLast?_cons_cons]
        split at h
        · rw [if_pos ‹_›, List.dropLast_cons_cons]
          exact List.mem_cons_of_mem _ h
        · rw [if_neg ‹_›]
          exact List.mem_cons_of_mem _ h
    case isFalse => exact h

theorem decodeSig_encodeUtf8 (cs : List Char) :
    CommandClient.decodeSig (encodeUtf8 cs) = String.ofList (dropMark cs) := by
  have hmark : ∀ rest : List UInt8, decodeReplace none ([0xEF, 0xBB, 0xBF] ++ rest) = '\uFEFF' :: decodeReplace none rest :=
    decodeReplace_char '\uFEFF'
  unfold CommandClient.decodeSig
  split
  case isTrue hprefix =>
    obtain ⟨rest, hrest⟩ := List.isPrefixOf_iff_prefix.1 hprefix
    have hcs := decodeReplace_encodeUtf8 cs
    rw [← hrest, hmark] at hcs
    rw [← hrest, ← hcs]
    simp [dropMark]
  case isFalse hprefix =>
    rw [decodeReplace_encodeUtf8]
    cases cs with
    | nil => rfl
    | cons c cs =>
      rw [dropMark, if_neg]
      rintro rfl
      refine hprefix ?_
      rw [encodeUtf8, List.flatMap_cons]
      rfl

/-- Lines without a byte order mark before the first. -/
def unmarked : List (List Char) → List (List Char)
  | [] => []
  | line :: lines => dropMark line :: lines

theorem dropMark_flatMap (lines : List (List Char)) :
    dropMark (lines.flatMap (· ++ ['\n'])) = (unmarked lines).flatMap (· ++ ['\n']) := by
  match lines with
  | [] => rfl
  | [] :: lines => rfl
  | (c :: cs) :: lines =>
    rw [unmarked, List.flatMap_cons, List.flatMap_cons, List.cons_append, List.cons_append, dropMark, dropMark]
    split <;> rfl

theorem mem_unmarked {lines : List (List Char)} {line : List Char} (h : line ∈ unmarked lines) :
    ∃ l ∈ lines, line = l ∨ line = dropMark l := by
  cases lines with
  | nil => cases h
  | cons l lines =>
    rcases List.mem_cons.1 h with rfl | h
    · exact ⟨l, List.mem_cons_self, .inr rfl⟩
    · exact ⟨line, List.mem_cons_of_mem l h, .inl rfl⟩

theorem newline_notMem {line : List Char} (h : Whole line) : '\n' ∉ line := by
  intro hmem
  have hplain := h.plain '\n'
  unfold withoutReturn at hplain
  split at hplain
  case isTrue hreturn =>
    obtain ⟨body, rfl⟩ := List.getLast?_eq_some_iff.1 hreturn
    rw [List.dropLast_concat] at hplain
    rcases List.mem_append.1 hmem with hbody | hlast
    · exact absurd (hplain hbody) (by decide)
    · exact absurd (List.mem_singleton.1 hlast) (by decide)
  case isFalse => exact absurd (hplain hmem) (by decide)

theorem encodeUtf8_lines (lines : List (List Char)) :
    encodeUtf8 (lines.flatMap (· ++ ['\n'])) = (lines.map encodeUtf8).flatMap (· ++ [10]) := by
  induction lines with
  | nil => rfl
  | cons line lines ih =>
    rw [List.flatMap_cons, List.map_cons, List.flatMap_cons, ← ih]
    simp only [encodeUtf8, List.flatMap_append]
    rfl

/-- Whole lines ask for what each of them asks for. -/
theorem commands_lines {lines : List (List Char)} (h : ∀ line ∈ lines, Whole line) :
    commands host repr (encodeUtf8 (lines.flatMap (· ++ ['\n']))) = wanted host repr (lines.map String.ofList) := by
  have hfound := @terminated_flatMap UInt8 _ 10 (lines.map encodeUtf8) (by
    intro line hline
    obtain ⟨text, htext, rfl⟩ := List.mem_map.1 hline
    exact newline_notMem_encodeUtf8 (newline_notMem (h text htext))) []
  rw [List.append_nil, terminated, List.append_nil] at hfound
  rw [commands, encodeUtf8_lines, hfound, List.filterMap_map]
  congr 1
  rw [show decodeStrict ∘ encodeUtf8 = some ∘ String.ofList from funext decodeStrict_encodeUtf8]
  exact congrFun List.filterMap_eq_map lines

/-- The lines of a chunk of whole lines are handled as the lines themselves. -/
theorem splitlines_handled {lines : List (List Char)} (h : ∀ line ∈ lines, Whole line) :
    (splitlines (CommandClient.decodeSig (encodeUtf8 (lines.flatMap (· ++ ['\n']))))).map (sendAttachCommand host repr) =
      (lines.map String.ofList).map (sendAttachCommand host repr) := by
  have hplain : ∀ line' ∈ unmarked lines, ∀ c ∈ withoutReturn line', isLineBoundary c = false := by
    intro line' hmem c hc
    obtain ⟨line, hline, rfl | rfl⟩ := mem_unmarked hmem
    · exact (h _ hline).plain c hc
    · exact (h _ hline).plain c (mem_withoutReturn_dropMark hc)
  rw [decodeSig_encodeUtf8, dropMark_flatMap, splitlines, String.toList_ofList, splitlinesFrom_flatMap hplain]
  have hreturn : ∀ line : List Char, sendAttachCommand host repr (String.ofList (withoutReturn line)) =
      sendAttachCommand host repr (String.ofList line) := fun line => send_eq_of_trimmed (trimmed_withoutReturn line)
  simp only [List.map_map, Function.comp_def, hreturn]
  cases lines with
  | nil => rfl
  | cons line lines => rw [unmarked, List.map_cons, List.map_cons, send_eq_of_trimmed (trimmed_dropMark line)]

end LineFacts

namespace CommandClient
variable {host : Host} {repr : Json → String} {c : CommandClient}

theorem pumpLines_congr {lines lines' : List String}
    (h : lines.map (sendAttachCommand host repr) = lines'.map (sendAttachCommand host repr)) :
    c.pumpLines host repr lines = c.pumpLines host repr lines' := by
  induction lines generalizing c lines' with
  | nil =>
    cases lines' with
    | nil => rfl
    | cons => cases h
  | cons line lines ih =>
    cases lines' with
    | nil => cases h
    | cons line' lines' =>
      obtain ⟨hline, hrest⟩ := List.cons.inj h
      rw [pumpLines, pumpLines, hline]
      split <;> first | exact ih hrest | rfl

/-- A line that ends the session. -/
def Detaches (host : Host) (repr : Json → String) (lines : List String) : Prop :=
  ∃ line ∈ lines, sendAttachCommand host repr line = .detach

/-- Lines that all can be handled: what they ask for is sent, and a detach stops the client. -/
theorem pumpLines_spec {lines : List String} (h : ∀ line ∈ lines, sendAttachCommand host repr line ≠ .raises) :
    (c.pumpLines host repr lines).sent = c.sent ++ wanted host repr lines ∧
      ((c.pumpLines host repr lines).stopped = true ↔ c.stopped = true ∨ Detaches host repr lines) ∧
      (c.pumpLines host repr lines).bytes = c.bytes ∧ (c.pumpLines host repr lines).offset = c.offset ∧
      (c.pumpLines host repr lines).replaced = c.replaced := by
  induction lines generalizing c with
  | nil => simp [pumpLines, wanted, Detaches]
  | cons line lines ih =>
    have ih := fun c => @ih c fun l hl => h l (List.mem_cons_of_mem line hl)
    have hline := h line List.mem_cons_self
    rw [pumpLines, wanted]
    unfold Detaches
    simp only [List.exists_mem_cons_iff]
    cases hs : sendAttachCommand host repr line with
    | nothing => simpa [Detaches] using ih c
    | event reason => simpa [Detaches] using ih { c with events := c.events ++ [reason] }
    | frame f => simpa [Detaches] using ih { c with sent := c.sent ++ [f] }
    | detach => simp
    | raises => exact absurd hs hline

theorem wanted_append {lines more : List String} (h : ¬ Detaches host repr lines) :
    wanted host repr (lines ++ more) = wanted host repr lines ++ wanted host repr more := by
  induction lines with
  | nil => rfl
  | cons line lines ih =>
    have ih := ih fun ⟨l, hl, hd⟩ => h ⟨l, List.mem_cons_of_mem line hl, hd⟩
    rw [List.cons_append, wanted, wanted, ih]
    cases hs : sendAttachCommand host repr line with
    | detach => exact absurd ⟨line, List.mem_cons_self, hs⟩ h
    | _ => rfl

theorem toolCallFrame_ne_raises (command : List (String × Json)) : toolCallFrame host command ≠ .raises := by
  unfold toolCallFrame
  simp only
  split <;> nofun

theorem sendCommand_ne_raises {command : List (String × Json)}
    (h : isHashable (((Json.obj command).member "type").getD .null) = true) :
    sendCommand host repr command ≠ .raises := by
  unfold sendCommand
  simp only [h, Bool.true_eq_false, ↓reduceIte]
  split
  · repeat' split
    all_goals first | exact toolCallFrame_ne_raises command | nofun
  · nofun

theorem send_ne_raises {line : List Char} (h : Whole line) :
    sendAttachCommand host repr (String.ofList line) ≠ .raises := by
  unfold sendAttachCommand
  split
  · nofun
  split
  · nofun
  · rename_i command hloads
    obtain ⟨_, _, hkind⟩ := h.object _ hloads
    exact sendCommand_ne_raises hkind
  · rename_i v hobj hloads
    obtain ⟨command, rfl, -⟩ := h.object _ hloads
    exact absurd rfl (hobj command)

/-- What is read so far are whole lines, and what they ask for is sent. -/
def InStep (host : Host) (repr : Json → String) (c : CommandClient) : Prop :=
  c.offset ≤ c.bytes.length ∧ c.replaced = false ∧
    ∃ lines : List (List Char), c.bytes.take c.offset = encodeUtf8 (lines.flatMap (· ++ ['\n'])) ∧
      (∀ line ∈ lines, Whole line) ∧ c.sent = wanted host repr (lines.map String.ofList) ∧
      (c.stopped = false → ¬ Detaches host repr (lines.map String.ofList))

theorem InStep.sent_eq (h : InStep host repr c) : c.sent = commands host repr (c.bytes.take c.offset) := by
  obtain ⟨-, -, lines, hbytes, hwhole, hsent, -⟩ := h
  rw [hbytes, commands_lines hwhole, hsent]

theorem inStep_append (h : InStep host repr c) (bytes : List UInt8) :
    InStep host repr { c with bytes := c.bytes ++ bytes } := by
  obtain ⟨hbound, hcurrent, lines, hbytes, hlines⟩ := h
  refine ⟨?_, hcurrent, lines, ?_, hlines⟩
  · simp only [List.length_append]
    omega
  · simp only
    rw [List.take_append_of_le_length hbound, hbytes]

/-- A poll that finds whole lines reads all of them. -/
theorem inStep_poll (h : InStep host repr c) (hon : c.stopped = false) (hwhole : WholeLines (c.bytes.drop c.offset)) :
    InStep host repr (c.poll host repr) ∧ (c.poll host repr).offset = (c.poll host repr).bytes.length := by
  obtain ⟨hbound, hcurrent, lines, hbytes, hlines, hsent, hdetach⟩ := h
  obtain ⟨more, hunread, hmore⟩ := hwhole
  have hread : c.readCommands = .ok (c.bytes.drop c.offset, c.bytes.length) := by
    simp [readCommands, hcurrent, Nat.not_lt.2 hbound]
  have hpoll : c.poll host repr =
      { c with offset := c.bytes.length }.pumpLines host repr (more.map String.ofList) := by
    unfold poll
    rw [hon, hread, hunread]
    exact pumpLines_congr (splitlines_handled hmore)
  have hraise : ∀ line ∈ more.map String.ofList, sendAttachCommand host repr line ≠ .raises := by
    intro line hline
    obtain ⟨text, htext, rfl⟩ := List.mem_map.1 hline
    exact send_ne_raises (hmore text htext)
  obtain ⟨hs, hstop, hb, ho, hr⟩ := @pumpLines_spec host repr { c with offset := c.bytes.length } _ hraise
  rw [← hpoll] at hs hstop hb ho hr
  simp only at hs hstop hb ho hr
  have hall : c.bytes = encodeUtf8 ((lines ++ more).flatMap (· ++ ['\n'])) := by
    rw [List.flatMap_append, encodeUtf8, List.flatMap_append, ← encodeUtf8, ← encodeUtf8, ← hbytes, ← hunread,
      List.take_append_drop]
  have hend : (c.poll host repr).offset = (c.poll host repr).bytes.length := by rw [ho, hb]
  refine ⟨⟨Nat.le_of_eq hend, hr.trans hcurrent, lines ++ more, ?_, ?_, ?_, ?_⟩, hend⟩
  · rw [ho, hb, List.take_length]
    exact hall
  · exact fun line hline => (List.mem_append.1 hline).elim (hlines line) (hmore line)
  · rw [hs, hsent, List.map_append, wanted_append (hdetach hon)]
  · intro hgoing hd
    rw [List.map_append] at hd
    obtain ⟨line, hline, hdet⟩ := hd
    rcases List.mem_append.1 hline with hl | hl
    · exact hdetach hon ⟨line, hl, hdet⟩
    · rw [hstop.2 (.inr ⟨line, hl, hdet⟩)] at hgoing
      cases hgoing

theorem inStep_step (h : InStep host repr c) {s : Step}
    (hwhole : s = .poll → c.stopped = false → WholeLines (c.bytes.drop c.offset)) : InStep host repr (c.step host repr s) := by
  cases s with
  | append bytes => exact inStep_append h bytes
  | poll =>
    cases hon : c.stopped with
    | false => exact (inStep_poll h hon (hwhole rfl hon)).1
    | true =>
      have hsame : c.poll host repr = c := by simp [poll, hon]
      rw [step, hsame]
      exact h
  | stop =>
    obtain ⟨hbound, hcurrent, lines, hbytes, hlines, hsent, -⟩ := h
    exact ⟨hbound, hcurrent, lines, hbytes, hlines, hsent, nofun⟩

theorem inStep_run {steps : List Step} (h : InStep host repr c) (hwhole : PolledWhole host repr c steps) :
    InStep host repr (c.run host repr steps) := by
  induction steps generalizing c with
  | nil => exact h
  | cons s steps ih => exact ih (inStep_step h hwhole.1) hwhole.2

theorem inStep_start (bytes : List UInt8) : InStep host repr { bytes := bytes } :=
  ⟨Nat.zero_le _, rfl, [], rfl, nofun, rfl, fun _ ⟨_, h, _⟩ => nomatch h⟩

theorem polledWhole_append {steps more : List Step} (h : PolledWhole host repr c (steps ++ more)) :
    PolledWhole host repr c steps ∧ PolledWhole host repr (c.run host repr steps) more := by
  induction steps generalizing c with
  | nil => exact ⟨trivial, h⟩
  | cons s steps ih => exact ⟨⟨h.1, (ih h.2).1⟩, (ih h.2).2⟩

/-- However a file grows and is polled, if every poll finds whole lines then the frames sent are those
of the lines that are read, and a poll of a client that is not stopped reads all of the file. -/
theorem whole_lines_forwarded (host : Host) (repr : Json → String) (bytes : List UInt8) (steps : List Step)
    (h : PolledWhole host repr { bytes := bytes } steps) :
    let c := run host repr { bytes := bytes } steps
    c.sent = commands host repr (c.bytes.take c.offset) ∧
      ∀ before, steps = before ++ [.poll] → (run host repr { bytes := bytes } before).stopped = false →
        c.sent = commands host repr c.bytes := by
  have hread := inStep_run (inStep_start bytes) h
  refine ⟨hread.sent_eq, ?_⟩
  rintro before rfl hon
  obtain ⟨hbefore, hpoll, -⟩ := polledWhole_append h
  have hlast := inStep_poll (inStep_run (inStep_start bytes) hbefore) hon (hpoll rfl hon)
  have hrun : run host repr { bytes := bytes } (before ++ [.poll]) = (run host repr { bytes := bytes } before).poll host repr := by
    rw [run, List.foldl_append]
    rfl
  rw [hrun, hlast.1.sent_eq, hlast.2, List.take_length]

/-- An `end` command and its bytes in the file. -/
def endLine : List Char := "\x7b\"type\":\"end\",\"bundle_id\":\"b\"\x7d".toList

def endCommand : List UInt8 := encodeUtf8 (endLine ++ ['\n'])

/-- A command that a poll finds half written is never sent. -/
theorem split_command_lost : ¬ ∀ (host : Host) (repr : Json → String) (bytes : List UInt8) (before : List Step),
    (run host repr { bytes := bytes } before).stopped = false →
    let c := run host repr { bytes := bytes } (before ++ [.poll])
    c.sent = commands host repr c.bytes := by
  intro h
  have hlost := h asciiHost (fun _ => "") [] [.append (endCommand.take 9), .poll, .append (endCommand.drop 9)] (by decide +kernel)
  exact absurd (congrArg List.length hlost) (by decide +kernel)

theorem whole_lines_forwarded_end :
    PolledWhole asciiHost (fun _ => "") { bytes := [] } [.append endCommand, .poll] ∧
      let c := run asciiHost (fun _ => "") { bytes := [] } [.append endCommand, .poll]
      c.sent = commands asciiHost (fun _ => "") c.bytes ∧ c.sent.length = 1 := by
  have hloads : Json.loads (trimmed (String.ofList endLine)) =
      some (.obj [("type", .str "end"), ("bundle_id", .str "b")]) := by
    have htext : trimmed (String.ofList endLine) = (Json.obj [("type", .str "end"), ("bundle_id", .str "b")]).dumps := by
      decide +kernel
    rw [htext, Json.loads_dumps]
  have hwhole : Whole endLine := by
    refine ⟨List.all_iff_forall_prop.1 (by decide +kernel), fun v hv => ?_⟩
    rw [hloads] at hv
    cases hv
    exact ⟨_, rfl, rfl⟩
  have hlines : WholeLines endCommand := by
    refine ⟨[endLine], ?_, fun line hline => List.mem_singleton.1 hline ▸ hwhole⟩
    rw [List.flatMap_cons, List.flatMap_nil, List.append_nil, endCommand]
  have h : PolledWhole asciiHost (fun _ => "") { bytes := [] } [.append endCommand, .poll] :=
    ⟨nofun, fun _ _ => hlines, trivial⟩
  exact ⟨h, (whole_lines_forwarded asciiHost (fun _ => "") [] _ h).2 [.append endCommand] rfl rfl, by decide +kernel⟩

end CommandClient
end PuffoAgent.WsLocal
