import PuffoAgent.Text.Codes
import PuffoAgent.Text.Editing

/-! The text of a sticky note: one line for each field, and the reader that finds the fields again. -/
namespace PuffoAgent.Notes
open Text

abbrev Chars := List Char

section Writing

/-- `str.lower`, as far as the names of fields and presets can tell: they hold no letter that another character is
lowered to. -/
def lower (cs : Chars) : Chars := cs.map Char.toLower

def stripAt (cs : Chars) : Chars := cs.dropWhile (· = '@')

/-- `NOTE_PRESETS`: the colour and the label of a preset. -/
def notePreset (key : Chars) : Option (Chars × Chars) :=
  if key = "waiting".toList then some ("#db4cac".toList, "Waiting".toList)
  else if key = "processing".toList then some ("#fde047".toList, "Processing".toList)
  else if key = "complete".toList then some ("#c9f748".toList, "Complete".toList)
  else none

/-- `NOTE_LABEL_MAX`. -/
def noteLabelMax : ℕ := 32

/-- `_resolve_note_style`: the colour, the label and the mentions of a note. -/
def resolveNoteStyle (preset color label : Chars) (mentions : List Chars) (slug : Chars) :
    Except String (Chars × Chars × List Chars) :=
  let presetKey := lower (trim preset)
  if color ≠ [] then
    if presetKey ≠ [] then .error "color and preset are mutually exclusive — pass one"
    else if label = [] then .error "a custom color requires a label"
    else .ok (color, label.take noteLabelMax, mentions)
  else if label ≠ [] then .error "label is only for a custom note — pass a color too, or use a preset"
  else
    let presetKey := if presetKey = [] then "waiting".toList else presetKey
    match notePreset presetKey with
    | none => .error "preset must be one of: waiting, processing, complete"
    | some (noteColor, noteLabel) =>
      if presetKey = "processing".toList ∨ presetKey = "complete".toList then
        if mentions ≠ [] then
          .error (String.ofList presetKey ++ " notes are self-reports; don't pass mentions")
        else .ok (noteColor, noteLabel, [slug])
      else .ok (noteColor, noteLabel, mentions)

/-- The fields of a note. -/
structure Note where
  color : Chars
  label : Chars
  message : Chars
  mentions : List Chars
  deriving DecidableEq

/-- What `add_note` is called with, and the slug of the agent. -/
structure NoteArgs where
  preset : Chars := []
  message : Chars := []
  mentions : List Chars := []
  color : Chars := []
  label : Chars := []
  slug : Chars

/-- The fields that `add_note` formats, if it accepts its arguments. -/
def acceptedNote (args : NoteArgs) : Except String Note := do
  let mentionList := (args.mentions.filter fun m => m ≠ [] ∧ trim m ≠ []).map stripAt
  let (color, label, mentions) ← resolveNoteStyle args.preset (trim args.color) (trim args.label) mentionList args.slug
  return ⟨color, label, trim args.message, mentions⟩

/-- The lines of a message in a note: those after its first are indented. -/
def messageLines : List Chars → List Chars
  | [] => []
  | first :: rest => ("message: ".toList ++ first) :: rest.map ("  ".toList ++ ·)

def mentionsLine (mentions : List Chars) : Chars :=
  "mentions: ".toList ++ [' '].intercalate (mentions.map fun m => '@' :: stripAt m)

theorem mentionsLine_eq (mentions : List Chars) : mentionsLine mentions =
    ("mentions".toList ++ [':', ' ']) ++ [' '].intercalate (mentions.map fun m => '@' :: stripAt m) := by
  have hstart : "mentions: ".toList = "mentions".toList ++ [':', ' '] := by decide
  delta mentionsLine
  rw [hstart]

/-- `_format_note`. -/
def formatNote (n : Note) : Chars :=
  ['\n'].intercalate <| ["/note ".toList, "color: ".toList ++ n.color, "label: ".toList ++ n.label] ++
    (if n.message ≠ [] then messageLines (n.message.splitOn '\n') else []) ++
    (if n.mentions ≠ [] then [mentionsLine n.mentions] else [])

end Writing

section Reading

/-- `_NOTE_FIELDS`. -/
def noteFields : List Chars := ["color".toList, "label".toList, "message".toList, "mentions".toList]

/-- `_starts_note_field`: `^([a-zA-Z]+)\s*:` matches with a field's name. -/
def startsNoteField (line : Chars) : Bool :=
  ((line.dropWhile Char.isAlpha).dropWhile isSpace).head? = some ':' ∧ lower (line.takeWhile Char.isAlpha) ∈ noteFields

/-- `_decode_message_line`. -/
def decodeMessageLine (line : Chars) : Chars := if "  ".toList.isPrefixOf line then line.drop 2 else line

/-- `text.replace("\r\n", "\n")`. -/
def withoutReturns (text : Chars) : Chars := replace ['\r', '\n'] ['\n'] text

def linesOf (text : Chars) : List Chars := (withoutReturns text).splitOn '\n'

/-- The key and the value of a line that has a colon. -/
def fieldOf (line : Chars) : Option (Chars × Chars) :=
  let s := trim line
  if ':' ∈ s then some (lower (trim (s.takeWhile (· ≠ ':'))), trim (s.dropWhile (· ≠ ':')).tail) else none

/-- `text.split()`. -/
def splitWords (cs : Chars) : List Chars := (cs.splitOnP isSpace).filter (· ≠ [])

def addMention (mentions : List Chars) (tok : Chars) : List Chars :=
  if stripAt tok ≠ [] ∧ stripAt tok ∉ mentions then mentions ++ [stripAt tok] else mentions

/-- What the reader has found. -/
structure Fields where
  color : Option Chars := none
  label : Option Chars := none
  message : Option Chars := none
  mentions : List Chars := []

/-- The lines that belong to a message whose first line is read. -/
def chunk (body : List Chars) : List Chars := body.takeWhile (¬ startsNoteField ·)

def messageText (val : Chars) (body : List Chars) : Chars :=
  trim (['\n'].intercalate (val :: (chunk body).map decodeMessageLine))

/-- The loop of `_parse_note`, past the next `skip` lines. -/
def readFields : ℕ → Fields → List Chars → Fields
  | _, fields, [] => fields
  | skip + 1, fields, _ :: body => readFields skip fields body
  | 0, fields, line :: body =>
    match fieldOf line with
    | none => readFields 0 fields body
    | some (key, val) =>
      if key = "mentions".toList then
        readFields 0 { fields with mentions := (splitWords val).foldl addMention fields.mentions } body
      else if key = "message".toList then
        if fields.message = none then
          readFields (chunk body).length { fields with message := some (messageText val body) } body
        else readFields 0 fields body
      else if key = "color".toList then readFields 0 { fields with color := some (fields.color.getD val) } body
      else if key = "label".toList then readFields 0 { fields with label := some (fields.label.getD val) } body
      else readFields 0 fields body

/-- What `_parse_note` returns. -/
structure ParsedNote where
  label : Chars
  message : Chars
  mentions : List Chars
  deriving DecidableEq

def Fields.note (fields : Fields) : ParsedNote :=
  ⟨(fields.label.filter (· ≠ [])).getD "Note".toList, fields.message.getD [], fields.mentions⟩

/-- `_parse_note`. -/
def parseNote (content : Chars) : Option ParsedNote :=
  if "/note ".toList.isPrefixOf (withoutReturns content) then some (readFields 0 {} (linesOf content).tail).note
  else none

/-- The field lines that the reader meets, with their values; that of the first message is its text. -/
def fieldLines : ℕ → Bool → List Chars → List (Chars × Chars)
  | _, _, [] => []
  | skip + 1, seen, _ :: body => fieldLines skip seen body
  | 0, seen, line :: body =>
    match fieldOf line with
    | none => fieldLines 0 seen body
    | some (key, val) =>
      if key ∉ noteFields then fieldLines 0 seen body
      else if key = "message".toList ∧ seen = false then
        (key, messageText val body) :: fieldLines (chunk body).length true body
      else (key, val) :: fieldLines 0 seen body

/-- What one field line does. -/
def Fields.read (fields : Fields) (e : Chars × Chars) : Fields :=
  if e.1 = "mentions".toList then { fields with mentions := (splitWords e.2).foldl addMention fields.mentions }
  else if e.1 = "message".toList then { fields with message := some (fields.message.getD e.2) }
  else if e.1 = "color".toList then { fields with color := some (fields.color.getD e.2) }
  else { fields with label := some (fields.label.getD e.2) }

end Reading

section Lines
variable {cs xs ys line : Chars}

theorem withoutReturns_cons {c : Char} (h : ¬ (c = '\r' ∧ cs.head? = some '\n')) :
    withoutReturns (c :: cs) = c :: withoutReturns cs := by
  refine replace_cons fun hprefix => h ?_
  obtain ⟨rest, hrest⟩ := hprefix
  cases hrest
  exact ⟨rfl, rfl⟩

theorem withoutReturns_return (cs : Chars) : withoutReturns ('\r' :: '\n' :: cs) = '\n' :: withoutReturns cs :=
  replace_append (List.cons_ne_nil '\r' ['\n'])

theorem withoutReturn_append (xs : Chars) (hy : ys ≠ []) : withoutReturn (xs ++ ys) = xs ++ withoutReturn ys := by
  unfold withoutReturn
  rw [List.getLast?_append_of_ne_nil _ hy]
  split
  · rw [List.dropLast_append_of_ne_nil hy]
  · rfl

theorem withoutReturns_of_newline (h : '\n' ∉ line) : withoutReturns line = line := by
  induction line with
  | nil => rfl
  | cons c cs ih =>
    obtain ⟨-, hcs⟩ := not_or.mp (mt List.mem_cons.mpr h)
    rw [withoutReturns_cons, ih hcs]
    rintro ⟨-, hhead⟩
    exact hcs (List.mem_of_mem_head? hhead)

/-- The end of a line loses the return before it. -/
theorem withoutReturns_line (h : '\n' ∉ line) (cs : Chars) :
    withoutReturns (line ++ '\n' :: cs) = withoutReturn line ++ '\n' :: withoutReturns cs := by
  induction line with
  | nil => exact withoutReturns_cons (by simp)
  | cons c line ih =>
    obtain ⟨hc, hline⟩ := not_or.mp (mt List.mem_cons.mpr h)
    cases line with
    | nil =>
      by_cases hr : c = '\r'
      · rw [hr]
        exact withoutReturns_return cs
      · have hplain : withoutReturn [c] = [c] := if_neg (by simpa using hr)
        have hnewline : withoutReturns ('\n' :: cs) = '\n' :: withoutReturns cs := withoutReturns_cons (by simp)
        rw [hplain, List.singleton_append, withoutReturns_cons (by simp [hr]), hnewline, List.singleton_append]
    | cons d line =>
      have hd : '\n' ≠ d := fun he => hline (he ▸ List.mem_cons_self)
      have hlast : withoutReturn (c :: d :: line) = c :: withoutReturn (d :: line) :=
        withoutReturn_append [c] (List.cons_ne_nil _ _)
      rw [hlast, List.cons_append, withoutReturns_cons, ih hline, List.cons_append]
      rintro ⟨-, hhead⟩
      exact hd (Option.some.inj hhead).symm

/-- The lines, each without the return at its end; after the last one there is no line end. -/
def chomped : List Chars → List Chars
  | [] => []
  | [line] => [line]
  | line :: lines => withoutReturn line :: chomped lines

theorem chomped_append {lines others : List Chars} (hne : others ≠ []) :
    chomped (lines ++ others) = lines.map withoutReturn ++ chomped others := by
  induction lines with
  | nil => rfl
  | cons line lines ih =>
    have hcons : chomped (line :: (lines ++ others)) = withoutReturn line :: chomped (lines ++ others) := by
      cases h : lines ++ others with
      | nil => exact absurd (List.append_eq_nil_iff.1 h).2 hne
      | cons next rest => rfl
    rw [List.cons_append, hcons, ih, List.map_cons, List.cons_append]

theorem linesOf_joined {lines : List Chars} (hne : lines ≠ []) (h : ∀ line ∈ lines, '\n' ∉ line) :
    linesOf (['\n'].intercalate lines) = chomped lines := by
  induction lines with
  | nil => exact absurd rfl hne
  | cons line lines ih =>
    have hline := h line List.mem_cons_self
    cases lines with
    | nil => rw [List.intercalate_singleton, linesOf, withoutReturns_of_newline hline, List.splitOn_eq_singleton hline]; rfl
    | cons next lines =>
      have hrest := ih (List.cons_ne_nil _ _) fun l hl => h l (List.mem_cons_of_mem _ hl)
      have hshort : '\n' ∉ withoutReturn line := by
        unfold withoutReturn
        split
        · exact fun hmem => hline (List.mem_of_mem_dropLast hmem)
        · exact hline
      rw [List.intercalate_cons_cons, List.append_assoc, List.singleton_append, linesOf, withoutReturns_line hline,
        List.splitOn_append_cons_self_of_not_mem hshort]
      exact congrArg _ hrest

theorem newline_notMem_splitOn {line : Chars} (h : line ∈ cs.splitOn '\n') : '\n' ∉ line := by
  induction cs generalizing line with
  | nil =>
    rw [List.splitOn_nil, List.mem_singleton] at h
    rw [h]
    exact List.not_mem_nil
  | cons c cs ih =>
    rw [List.splitOn_cons_eq_if_modifyHead] at h
    split at h
    · rcases List.mem_cons.1 h with rfl | h
      · exact List.not_mem_nil
      · exact ih h
    · rename_i hc
      obtain ⟨first, rest, hsplit⟩ := List.exists_cons_of_ne_nil (List.splitOn_ne_nil '\n' cs)
      rw [hsplit] at h ih
      rcases List.mem_cons.1 h with rfl | h
      · rw [List.mem_cons, not_or]
        exact ⟨fun he => hc (by simp [← he]), ih List.mem_cons_self⟩
      · exact ih (List.mem_cons_of_mem _ h)

theorem linesOf_eq_chomped (cs : Chars) : linesOf cs = chomped (cs.splitOn '\n') := by
  rw [← linesOf_joined (List.splitOn_ne_nil _ _) fun _ => newline_notMem_splitOn, List.intercalate_splitOn]

/-- A text before which something stands on its first line. -/
theorem splitOn_append (h : '\n' ∉ xs) : (xs ++ ys).splitOn '\n' = (ys.splitOn '\n').modifyHead (xs ++ ·) := by
  obtain ⟨first, rest, hsplit⟩ := List.exists_cons_of_ne_nil (List.splitOn_ne_nil '\n' ys)
  induction xs with
  | nil => rw [hsplit]; exact hsplit
  | cons c xs ih =>
    obtain ⟨hc, hxs⟩ := not_or.mp (mt List.mem_cons.mpr h)
    rw [List.cons_append, List.splitOn_cons_eq_if_modifyHead, if_neg (by simpa using Ne.symm hc), ih hxs, hsplit]
    rfl

end Lines

section Trimming
variable {cs xs ys line : Chars}

theorem dropWhile_mark {p : Char → Bool} {c : Char} (hc : p c = false) (xs ys : Chars) :
    (xs ++ c :: ys).dropWhile p = xs.dropWhile p ++ c :: ys := by
  rw [List.dropWhile_append]
  split
  · rename_i hempty
    rw [List.isEmpty_iff.1 hempty, List.nil_append, List.dropWhile_cons_of_neg (by simp [hc])]
  · rfl

/-- What is trimmed at the end stands after the last character that stays. -/
theorem trim_mark {c : Char} (hc : isSpace c = false) (xs ys : Chars) :
    trim (xs ++ c :: ys) = xs.dropWhile isSpace ++ c :: ys.rdropWhile isSpace := by
  rw [trim, dropWhile_mark hc, List.reverse_append, List.reverse_cons, List.append_assoc, List.singleton_append,
    dropWhile_mark hc, List.reverse_append, List.reverse_cons, List.reverse_reverse, List.append_assoc]
  rfl

theorem trim_sublist (cs : Chars) : (trim cs).Sublist cs := by
  have hleft : (cs.dropWhile isSpace).Sublist cs := List.dropWhile_sublist _
  have hright : ((cs.dropWhile isSpace).reverse.dropWhile isSpace).Sublist (cs.dropWhile isSpace).reverse :=
    List.dropWhile_sublist _
  exact (List.reverse_sublist.1 (by rw [trim, List.reverse_reverse]; exact hright)).trans hleft

theorem trim_space (cs : Chars) : trim (' ' :: cs) = trim cs := by
  rw [trim, List.dropWhile_cons_of_pos rfl, trim]

theorem trim_append_space {c : Char} (hc : isSpace c = true) (cs : Chars) : trim (cs ++ [c]) = trim cs := by
  rw [trim, List.dropWhile_append]
  split
  · rename_i hempty
    rw [trim, List.isEmpty_iff.1 hempty, List.dropWhile_cons_of_pos hc, List.dropWhile_nil]
  · rw [List.reverse_append, List.reverse_singleton, List.singleton_append, List.dropWhile_cons_of_pos hc, trim]

theorem trim_append_spaces {spaces : Chars} (h : ∀ c ∈ spaces, isSpace c = true) (cs : Chars) : trim (cs ++ spaces) = trim cs := by
  induction spaces using List.reverseRecOn with
  | nil => rw [List.append_nil]
  | append_singleton spaces c ih =>
    rw [← List.append_assoc, trim_append_space (h c (by simp)), ih fun d hd => h d (by simp [hd])]

theorem trim_rdropWhile (cs : Chars) : trim (cs.rdropWhile isSpace) = trim cs := by
  induction cs using List.reverseRecOn with
  | nil => rfl
  | append_singleton cs c ih =>
    by_cases hc : isSpace c = true
    · rw [List.rdropWhile_concat_pos _ _ _ hc, ih, trim_append_space hc]
    · rw [List.rdropWhile_concat_neg _ _ _ hc]

theorem trim_withoutReturn (line : Chars) : trim (withoutReturn line) = trim line := by
  unfold withoutReturn
  split
  · rename_i hlast
    obtain ⟨body, rfl⟩ := List.getLast?_eq_some_iff.1 hlast
    rw [List.dropLast_concat, trim_append_space (by decide)]
  · rfl

/-- A trimmed text ends with no return. -/
theorem withoutReturn_suffix (h : trim (xs ++ ys) = xs ++ ys) : withoutReturn ys = ys := by
  unfold withoutReturn
  split
  · rename_i hlast
    obtain ⟨body, rfl⟩ := List.getLast?_eq_some_iff.1 hlast
    rw [← List.append_assoc, trim_append_space (by decide)] at h
    have hlength := (trim_sublist (xs ++ body)).length_le
    rw [h] at hlength
    exact absurd hlength (by simp)
  · rfl

theorem joined_getLast {lines : List Chars} (hne : lines ≠ []) :
    ∃ start, ['\n'].intercalate lines = start ++ lines.getLast hne := by
  induction lines with
  | nil => exact absurd rfl hne
  | cons line lines ih =>
    cases lines with
    | nil => exact ⟨[], by rw [List.intercalate_singleton]; rfl⟩
    | cons next lines =>
      obtain ⟨start, hstart⟩ := ih (List.cons_ne_nil _ _)
      refine ⟨line ++ (['\n'] ++ start), ?_⟩
      rw [List.intercalate_cons_cons, hstart, List.getLast_cons (List.cons_ne_nil _ _), List.append_assoc,
        List.append_assoc, List.append_assoc]

/-- The lines of a trimmed text, the last one included, have no return at their ends. -/
theorem linesOf_trimmed (h : trim cs = cs) : linesOf cs = (cs.splitOn '\n').map withoutReturn := by
  have hne := List.splitOn_ne_nil '\n' cs
  obtain ⟨start, hstart⟩ := joined_getLast hne
  rw [List.intercalate_splitOn] at hstart
  have hlast : withoutReturn ((cs.splitOn '\n').getLast hne) = (cs.splitOn '\n').getLast hne :=
    withoutReturn_suffix (by rw [← hstart]; exact h)
  rw [linesOf_eq_chomped, ← List.dropLast_append_getLast hne, chomped_append (List.cons_ne_nil _ _), List.map_append,
    List.map_singleton, hlast]
  rfl

theorem trim_idem (cs : Chars) : trim (trim cs) = trim cs := by
  have h := trim_rdropWhile (cs.dropWhile isSpace)
  have hleft : trim (cs.dropWhile isSpace) = trim cs := by rw [trim, List.dropWhile_idempotent, trim]
  rw [hleft] at h
  exact h

/-- A trimmed text is one with no white space at its ends. -/
theorem trim_eq_self_iff : trim cs = cs ↔
    (∀ c ∈ cs.head?, isSpace c = false) ∧ ∀ c ∈ cs.getLast?, isSpace c = false := by
  constructor
  · intro h
    constructor
    · intro c hc
      obtain ⟨rest, rfl⟩ := List.head?_eq_some_iff.1 hc
      by_contra hspace
      have hle := (trim_sublist rest).length_le
      have hrest : trim (c :: rest) = trim rest := by
        rw [trim, List.dropWhile_cons_of_pos (by simpa using hspace), trim]
      rw [← hrest, h, List.length_cons] at hle
      omega
    · intro c hc
      obtain ⟨rest, rfl⟩ := List.getLast?_eq_some_iff.1 hc
      by_contra hspace
      have hle := (trim_sublist rest).length_le
      rw [← trim_append_space (by simpa using hspace), h, List.length_append, List.length_singleton] at hle
      omega
  · rintro ⟨hhead, hlast⟩
    have hleft : cs.dropWhile isSpace = cs := by
      cases cs with
      | nil => rfl
      | cons c rest => exact List.dropWhile_cons_of_neg (by simp [hhead c rfl])
    have hright : cs.rdropWhile isSpace = cs := by
      rw [List.rdropWhile_eq_self_iff]
      intro hne
      rw [hlast _ (List.getLast?_eq_some_getLast hne)]
      exact Bool.false_ne_true
    have htrim : trim cs = (cs.dropWhile isSpace).rdropWhile isSpace := rfl
    rw [htrim, hleft, hright]

theorem withoutReturns_concat {d : Char} (hd : d ≠ '\n') (xs : Chars) :
    withoutReturns (xs ++ [d]) = withoutReturns xs ++ [d] := by
  match xs with
  | [] => exact withoutReturns_cons (by simp)
  | [c] =>
    have hc : withoutReturns [c] = [c] := withoutReturns_cons (by simp)
    have hone : withoutReturns [d] = [d] := withoutReturns_cons (by simp)
    rw [hc, List.singleton_append, withoutReturns_cons (by simp [hd]), hone]
  | c :: e :: xs =>
    by_cases hbreak : c = '\r' ∧ e = '\n'
    · obtain ⟨rfl, rfl⟩ := hbreak
      rw [List.cons_append, List.cons_append, withoutReturns_return, withoutReturns_return, withoutReturns_concat hd xs,
        List.cons_append]
    · have hplain (rest : Chars) : ¬ (c = '\r' ∧ (e :: rest).head? = some '\n') := fun h => hbreak ⟨h.1, Option.some.inj h.2⟩
      rw [List.cons_append, List.cons_append, withoutReturns_cons (hplain _), withoutReturns_cons (hplain _),
        ← List.cons_append, withoutReturns_concat hd (e :: xs), List.cons_append]

/-- A trimmed text stays so with plain line ends. -/
theorem trim_withoutReturns (h : trim cs = cs) : trim (withoutReturns cs) = withoutReturns cs := by
  obtain ⟨hhead, hlast⟩ := trim_eq_self_iff.1 h
  refine trim_eq_self_iff.2 ⟨fun c hc => ?_, fun c hc => ?_⟩
  · cases cs with
    | nil => cases hc
    | cons d rest =>
      have hd := hhead d rfl
      rw [withoutReturns_cons (by rintro ⟨rfl, -⟩; exact absurd hd (by decide))] at hc
      exact Option.some.inj hc ▸ hd
  · cases hcs : cs.getLast? with
    | none =>
      rw [List.getLast?_eq_none_iff] at hcs
      rw [hcs] at hc
      cases hc
    | some d =>
      have hd := hlast d hcs
      obtain ⟨rest, rfl⟩ := List.getLast?_eq_some_iff.1 hcs
      rw [withoutReturns_concat (by rintro rfl; exact absurd hd (by decide)), List.getLast?_concat] at hc
      exact Option.some.inj hc ▸ hd

end Trimming

section FieldLines
variable {name spaces rest line val : Chars} {body : List Chars}

/-- A line that the reader takes for one of the fields. -/
def isField (line : Chars) : Bool := (fieldOf line).any (·.1 ∈ noteFields)

theorem isAlpha_plain {c : Char} (h : c.isAlpha = true) : isSpace c = false ∧ c ≠ ':' := by
  have hbounds : (65 ≤ c.toNat ∧ c.toNat ≤ 90) ∨ (97 ≤ c.toNat ∧ c.toNat ≤ 122) := by
    unfold Char.isAlpha Char.isUpper Char.isLower at h
    simpa [UInt32.le_iff_toNat_le] using h
  constructor
  · simp only [isSpace, decide_eq_false_iff_not]
    omega
  · rintro rfl
    exact absurd hbounds (by decide)

theorem trim_of_letters (h : ∀ c ∈ name, c.isAlpha = true) : trim name = name := by
  have hplain (cs : Chars) (hcs : ∀ c ∈ cs, c.isAlpha = true) : cs.dropWhile isSpace = cs := by
    cases cs with
    | nil => rfl
    | cons c cs => rw [List.dropWhile_cons_of_neg (by simp [(isAlpha_plain (hcs c List.mem_cons_self)).1])]
  rw [trim, hplain name h, hplain name.reverse fun c hc => h c (List.mem_reverse.1 hc), List.reverse_reverse]

/-- A name, perhaps with white space after it, and a colon make a field line. -/
theorem fieldOf_spaced (hne : name ≠ []) (hname : ∀ c ∈ name, c.isAlpha = true) (hspaces : ∀ c ∈ spaces, isSpace c = true)
    (rest : Chars) : fieldOf (name ++ spaces ++ ':' :: rest) = some (lower name, trim rest) := by
  have hstart : (name ++ spaces).dropWhile isSpace = name ++ spaces := by
    cases name with
    | nil => exact absurd rfl hne
    | cons c cs =>
      rw [List.cons_append, List.dropWhile_cons_of_neg (by simp [(isAlpha_plain (hname c List.mem_cons_self)).1])]
  have hcolon : ∀ c ∈ name ++ spaces, c ≠ ':' := by
    intro c hc
    rcases List.mem_append.1 hc with hc | hc
    · exact (isAlpha_plain (hname c hc)).2
    · rintro rfl
      exact absurd (hspaces ':' hc) (by decide)
  have htake : (name ++ spaces ++ ':' :: rest.rdropWhile isSpace).takeWhile (· ≠ ':') = name ++ spaces := by
    rw [List.takeWhile_append_of_pos fun c hc => decide_eq_true (hcolon c hc)]
    simp
  have hdrop : (name ++ spaces ++ ':' :: rest.rdropWhile isSpace).dropWhile (· ≠ ':') = ':' :: rest.rdropWhile isSpace := by
    rw [List.dropWhile_append_of_pos fun c hc => decide_eq_true (hcolon c hc)]
    simp
  rw [fieldOf, trim_mark (by decide), hstart, if_pos (by simp), htake, hdrop, List.tail_cons, trim_rdropWhile, trim_append_spaces hspaces, trim_of_letters hname]

theorem fieldOf_written (name : Chars) (hne : name ≠ []) (hname : name.all Char.isAlpha) (rest : Chars) :
    fieldOf (name ++ ':' :: rest) = some (lower name, trim rest) := by
  have h : fieldOf (name ++ [] ++ ':' :: rest) = some (lower name, trim rest) :=
    fieldOf_spaced hne (List.all_eq_true.1 hname) (fun c hc => absurd hc List.not_mem_nil) rest
  rwa [List.append_nil] at h

theorem starts_written (hname : name.all Char.isAlpha) (hfield : lower name ∈ noteFields) (rest : Chars) :
    startsNoteField (name ++ ':' :: rest) = true := by
  have hcolon : Char.isAlpha ':' = false := rfl
  have hdrop : (name ++ ':' :: rest).dropWhile Char.isAlpha = ':' :: rest := by
    rw [List.dropWhile_append_of_pos (List.all_eq_true.1 hname), List.dropWhile_cons_of_neg (by simp [hcolon])]
  have htake : (name ++ ':' :: rest).takeWhile Char.isAlpha = name := by
    rw [List.takeWhile_append_of_pos (List.all_eq_true.1 hname), List.takeWhile_cons_of_neg (by simp [hcolon]), List.append_nil]
  rw [startsNoteField, hdrop, htake]
  exact decide_eq_true ⟨rfl, hfield⟩

theorem starts_withoutReturn (line : Chars) : startsNoteField (withoutReturn line) = startsNoteField line := by
  unfold withoutReturn
  split
  · rename_i hlast
    obtain ⟨body, rfl⟩ := List.getLast?_eq_some_iff.1 hlast
    have hletter : Char.isAlpha '\r' = false := rfl
    have hspace : isSpace '\r' = true := rfl
    have htake : (body ++ ['\r']).takeWhile Char.isAlpha = body.takeWhile Char.isAlpha := by
      rw [List.takeWhile_append, List.takeWhile_cons_of_neg (by simp [hletter]), List.append_nil]
      split
      · rename_i hall
        exact ((List.takeWhile_prefix _).eq_of_length hall).symm
      · rfl
    have hdrop : ((body.dropWhile Char.isAlpha ++ ['\r']).dropWhile isSpace).head? = some ':' ↔
        ((body.dropWhile Char.isAlpha).dropWhile isSpace).head? = some ':' := by
      rw [List.dropWhile_append]
      split
      · rename_i hempty
        rw [List.isEmpty_iff.1 hempty, List.dropWhile_cons_of_pos hspace, List.dropWhile_nil]
      · rename_i hempty
        rw [List.head?_append_of_ne_nil _ (by simpa using hempty)]
    rw [List.dropLast_concat, startsNoteField, startsNoteField, htake, dropWhile_mark hletter body []]
    simp only [hdrop]
  · rfl

theorem starts_indented (rest : Chars) : startsNoteField ("  ".toList ++ rest) = false := by
  have htake : ("  ".toList ++ rest).takeWhile Char.isAlpha = [] := List.takeWhile_cons_of_neg (by decide)
  rw [startsNoteField, htake]
  exact decide_eq_false fun h => absurd h.2 (by decide)

/-- Whatever ends a message is one of the fields. -/
theorem isField_of_starts (h : startsNoteField line = true) : isField line = true := by
  rw [startsNoteField, decide_eq_true_eq] at h
  obtain ⟨hcolon, hfield⟩ := h
  obtain ⟨rest, hrest⟩ := List.head?_eq_some_iff.1 hcolon
  have hline : line = line.takeWhile Char.isAlpha ++ (line.dropWhile Char.isAlpha).takeWhile isSpace ++ ':' :: rest := by
    rw [← hrest, List.append_assoc, List.takeWhile_append_dropWhile, List.takeWhile_append_dropWhile]
  have hne : line.takeWhile Char.isAlpha ≠ [] := by
    intro hnil
    rw [hnil] at hfield
    exact absurd hfield (by decide)
  have hread := fieldOf_spaced hne (fun c hc => List.mem_takeWhile_imp hc)
    (fun c (hc : c ∈ (line.dropWhile Char.isAlpha).takeWhile isSpace) => List.mem_takeWhile_imp hc) rest
  rw [← hline] at hread
  rw [isField, hread]
  exact decide_eq_true hfield

theorem fieldOf_withoutReturn (line : Chars) : fieldOf (withoutReturn line) = fieldOf line := by
  rw [fieldOf, fieldOf, trim_withoutReturn]

theorem decode_indented (line : Chars) : decodeMessageLine ("  ".toList ++ line) = line := by
  rw [decodeMessageLine, if_pos (List.isPrefixOf_iff_prefix.2 (List.prefix_append _ _))]
  rfl

end FieldLines

end PuffoAgent.Notes
