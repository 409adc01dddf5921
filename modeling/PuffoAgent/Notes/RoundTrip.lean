import Mathlib.Algebra.GroupWithZero.Nat
import Mathlib.Data.Bool.AllAny
import Mathlib.Data.List.Dedup
import PuffoAgent.Notes.Format

/-! What the reader of notes meets of a formatted note, and when it returns what was written. -/
namespace PuffoAgent.Notes
open Text

section Events
variable {line key val : Chars} {body rest : List Chars} {seen : Bool} {fields : Fields}

/-- The loop reads the field lines one after the other. -/
theorem readFields_eq (skip : ℕ) (fields : Fields) (body : List Chars) :
    readFields skip fields body = (fieldLines skip fields.message.isSome body).foldl Fields.read fields := by
  induction body generalizing skip fields with
  | nil => cases skip <;> rfl
  | cons line body ih =>
    cases skip with
    | succ skip => exact ih skip fields
    | zero =>
      cases hfield : fieldOf line with
      | none =>
        simp only [readFields, fieldLines, hfield]
        exact ih 0 fields
      | some e =>
        obtain ⟨key, val⟩ := e
        simp only [readFields, fieldLines, hfield]
        by_cases hmentions : key = "mentions".toList
        · rw [if_pos hmentions, ih, if_neg (by rw [hmentions]; decide), if_neg fun h => absurd (hmentions.symm.trans h.1) (by decide)]
          rw [List.foldl_cons, Fields.read, if_pos hmentions]
        rw [if_neg hmentions]
        by_cases hmessage : key = "message".toList
        · have hmember : ¬ key ∉ noteFields := by rw [hmessage]; decide
          rw [if_pos hmessage, if_neg hmember]
          cases hseen : fields.message with
          | none =>
            rw [if_pos rfl, if_pos ⟨hmessage, rfl⟩, ih, List.foldl_cons, Fields.read, if_neg hmentions, if_pos hmessage, hseen]
            rfl
          | some text =>
            rw [if_neg (by simp), if_neg (by simp), ih, List.foldl_cons, Fields.read, if_neg hmentions, if_pos hmessage, hseen]
            obtain ⟨color, label, message, mentions⟩ := fields
            obtain rfl : message = some text := hseen
            rfl
        rw [if_neg hmessage]
        have hfirst : ¬ (key = "message".toList ∧ fields.message.isSome = false) := fun h => hmessage h.1
        by_cases hcolor : key = "color".toList
        · have hmember : ¬ key ∉ noteFields := by rw [hcolor]; decide
          rw [if_pos hcolor, if_neg hmember, if_neg hfirst, ih, List.foldl_cons, Fields.read, if_neg hmentions,
            if_neg hmessage, if_pos hcolor]
        rw [if_neg hcolor]
        by_cases hlabel : key = "label".toList
        · have hmember : ¬ key ∉ noteFields := by rw [hlabel]; decide
          rw [if_pos hlabel, if_neg hmember, if_neg hfirst, ih, List.foldl_cons, Fields.read, if_neg hmentions,
            if_neg hmessage, if_neg hcolor]
        · have hmember : key ∉ noteFields := by
            simp only [noteFields, List.mem_cons, List.not_mem_nil, or_false, not_or]
            exact ⟨hcolor, hlabel, hmessage, hmentions⟩
          rw [if_neg hlabel, if_pos hmember, ih]

theorem fieldLines_skip (skip : ℕ) (seen : Bool) (body : List Chars) :
    fieldLines skip seen body = fieldLines 0 seen (body.drop skip) := by
  induction body generalizing skip with
  | nil => cases skip <;> rfl
  | cons line body ih =>
    cases skip with
    | zero => rfl
    | succ skip => exact ih skip

theorem fieldLines_other (h : isField line = false) : fieldLines 0 seen (line :: body) = fieldLines 0 seen body := by
  unfold isField at h
  cases hfield : fieldOf line with
  | none => simp only [fieldLines, hfield]
  | some e =>
    rw [hfield, Option.any_some, decide_eq_false_iff_not] at h
    simp only [fieldLines, hfield]
    rw [if_pos h]

theorem fieldLines_others {lines : List Chars} (h : ∀ line ∈ lines, isField line = false) :
    fieldLines 0 seen (lines ++ body) = fieldLines 0 seen body := by
  induction lines with
  | nil => rfl
  | cons line lines ih =>
    rw [List.cons_append, fieldLines_other (h line List.mem_cons_self), ih fun l hl => h l (List.mem_cons_of_mem _ hl)]

theorem fieldLines_field (h : fieldOf line = some (key, val)) (hkey : key ∈ noteFields)
    (hfirst : ¬ (key = "message".toList ∧ seen = false)) :
    fieldLines 0 seen (line :: body) = (key, val) :: fieldLines 0 seen body := by
  simp only [fieldLines, h]
  rw [if_neg (not_not.2 hkey), if_neg hfirst]

theorem fieldLines_message (h : fieldOf line = some ("message".toList, val)) :
    fieldLines 0 false (line :: body) =
      ("message".toList, messageText val body) :: fieldLines 0 true (body.drop (chunk body).length) := by
  simp only [fieldLines, h]
  rw [if_neg (by decide), if_pos (by simp), fieldLines_skip]

/-- A message takes the lines before the next one that starts a field. -/
theorem chunk_append {lines : List Chars} (h : ∀ line ∈ lines, startsNoteField line = false)
    (hrest : ∀ line ∈ rest.head?, startsNoteField line = true) : chunk (lines ++ rest) = lines := by
  rw [chunk, List.takeWhile_append_of_pos fun line hl => by simp [h line hl]]
  cases rest with
  | nil => rw [List.takeWhile_nil, List.append_nil]
  | cons line rest => rw [List.takeWhile_cons_of_neg (by simp [hrest line rfl]), List.append_nil]

end Events

section Counting
variable {line : Chars} {body : List Chars} {seen : Bool}

theorem isField_iff : isField line = true ↔ ∃ key val, fieldOf line = some (key, val) ∧ key ∈ noteFields := by
  unfold isField
  cases fieldOf line with
  | none => simp
  | some e =>
    obtain ⟨key, val⟩ := e
    simp

theorem countP_chunk (body : List Chars) :
    (body.drop (chunk body).length).countP startsNoteField = body.countP startsNoteField := by
  have hsplit : chunk body ++ body.dropWhile (¬ startsNoteField ·) = body := List.takeWhile_append_dropWhile
  have hdrop : body.drop (chunk body).length = body.dropWhile (¬ startsNoteField ·) :=
    (congrArg (List.drop (chunk body).length) hsplit).symm.trans List.drop_left
  have hnone : (chunk body).countP startsNoteField = 0 := by
    rw [List.countP_eq_zero]
    intro line hline
    simpa using List.mem_takeWhile_imp hline
  have hcount := congrArg (List.countP startsNoteField) hsplit
  rw [List.countP_append, hnone, Nat.zero_add] at hcount
  rw [hdrop, hcount]

/-- A field line is met, and after it no line that starts a field is passed over. -/
theorem fieldLines_of_isField (h : isField line = true) (seen : Bool) (body : List Chars) :
    ∃ e skip seen', fieldLines 0 seen (line :: body) = e :: fieldLines skip seen' body ∧
      (body.drop skip).countP startsNoteField = body.countP startsNoteField := by
  obtain ⟨key, val, hfield, hkey⟩ := isField_iff.1 h
  by_cases hfirst : key = "message".toList ∧ seen = false
  · obtain ⟨rfl, rfl⟩ := hfirst
    refine ⟨("message".toList, messageText val body), (chunk body).length, true, ?_, countP_chunk body⟩
    rw [fieldLines_message hfield, ← fieldLines_skip]
  · exact ⟨_, 0, seen, fieldLines_field hfield hkey hfirst, rfl⟩

/-- The reader meets every line that starts a field. -/
theorem countP_le_fieldLines (skip : ℕ) (seen : Bool) (body : List Chars) :
    (body.drop skip).countP startsNoteField ≤ (fieldLines skip seen body).length := by
  induction body generalizing skip seen with
  | nil => rw [List.drop_nil]; exact Nat.zero_le _
  | cons line body ih =>
    cases skip with
    | succ skip => exact ih skip seen
    | zero =>
      rw [List.drop_zero]
      cases hline : isField line with
      | false =>
        have hstart : ¬ startsNoteField line = true := fun h => by
          rw [isField_of_starts h] at hline
          cases hline
        rw [fieldLines_other hline, List.countP_cons_of_neg hstart]
        exact ih 0 seen
      | true =>
        obtain ⟨e, skip, seen', hmet, hcount⟩ := fieldLines_of_isField hline seen body
        have hrest := ih skip seen'
        have hle : (line :: body).countP startsNoteField ≤ body.countP startsNoteField + 1 := by
          rw [List.countP_cons]
          split <;> omega
        rw [hmet, List.length_cons]
        omega

/-- A field line counts beside the lines after it that start a field. -/
theorem countP_lt_fieldLines (h : isField line = true) (seen : Bool) (body : List Chars) :
    body.countP startsNoteField < (fieldLines 0 seen (line :: body)).length := by
  obtain ⟨e, skip, seen', hmet, hcount⟩ := fieldLines_of_isField h seen body
  have hrest := countP_le_fieldLines skip seen' body
  rw [hmet, List.length_cons]
  omega

end Counting

section Mentions
variable {m : Chars} {ms : List Chars}

/-- What a mention is on its line: a text without white space and without a mark before it. -/
structure IsMention (m : Chars) : Prop where
  filled : m ≠ []
  whole : ∀ c ∈ m, isSpace c = false
  unmarked : m.head? ≠ some '@'

instance (m : Chars) : Decidable (IsMention m) :=
  decidable_of_iff (m ≠ [] ∧ (m.all fun c => isSpace c = false) = true ∧ m.head? ≠ some '@')
    ⟨fun ⟨h, h', h''⟩ => ⟨h, List.all_iff_forall_prop.1 h', h''⟩,
      fun ⟨h, h', h''⟩ => ⟨h, List.all_iff_forall_prop.2 h', h''⟩⟩

/-- Each once, in the order of their first places. -/
def distinct (mentions : List Chars) : List Chars := mentions.reverse.dedup.reverse

theorem mem_distinct : m ∈ distinct ms ↔ m ∈ ms := by
  rw [distinct, List.mem_reverse, List.mem_dedup, List.mem_reverse]

theorem distinct_concat (ms : List Chars) (m : Chars) :
    distinct (ms ++ [m]) = if m ∈ ms then distinct ms else distinct ms ++ [m] := by
  rw [distinct, List.reverse_append, List.reverse_singleton, List.singleton_append]
  split
  · rename_i h
    rw [List.dedup_cons_of_mem (List.mem_reverse.2 h), distinct]
  · rename_i h
    rw [List.dedup_cons_of_notMem (mt List.mem_reverse.1 h), List.reverse_cons, distinct]

theorem stripAt_of_unmarked (h : m.head? ≠ some '@') : stripAt m = m := by
  cases m with
  | nil => rfl
  | cons c cs => exact List.dropWhile_cons_of_neg (by simpa using fun he : c = '@' => h (by rw [he]; rfl))

/-- The words of a mentions line are its mentions, each once. -/
theorem foldl_addMention (h : ∀ m ∈ ms, IsMention m) : (ms.map ('@' :: ·)).foldl addMention [] = distinct ms := by
  induction ms using List.reverseRecOn with
  | nil => rfl
  | append_singleton ms m ih =>
    have hm := h m (by simp)
    have hstrip : stripAt ('@' :: m) = m := by
      rw [stripAt, List.dropWhile_cons_of_pos (by simp)]
      exact stripAt_of_unmarked hm.unmarked
    rw [List.map_append, List.foldl_append, ih fun m' hm' => h m' (by simp [hm']), List.map_singleton, List.foldl_cons,
      List.foldl_nil, addMention, hstrip, distinct_concat]
    by_cases hmem : m ∈ ms
    · rw [if_neg fun hnew => hnew.2 (mem_distinct.2 hmem), if_pos hmem]
    · rw [if_pos ⟨hm.filled, fun hold => hmem (mem_distinct.1 hold)⟩, if_neg hmem]

theorem splitWords_joined (hne : ms ≠ []) (h : ∀ m ∈ ms, m ≠ [] ∧ ∀ c ∈ m, isSpace c = false) :
    splitWords ([' '].intercalate ms) = ms := by
  have hpieces : ([' '].intercalate ms).splitOnP isSpace = ms := by
    induction ms with
    | nil => exact absurd rfl hne
    | cons m ms ih =>
      have hm := (h m List.mem_cons_self).2
      cases ms with
      | nil => rw [List.intercalate_singleton, List.splitOnP_eq_singleton hm]
      | cons next ms =>
        rw [List.intercalate_cons_cons, List.append_assoc, List.singleton_append,
          List.splitOnP_append_cons_of_forall_mem hm ' ' rfl, ih (List.cons_ne_nil _ _) fun m' hm' => h m' (List.mem_cons_of_mem _ hm')]
  rw [splitWords, hpieces, List.filter_eq_self]
  exact fun m hm => decide_eq_true (h m hm).1

/-- What is read of a mentions line are mentions. -/
theorem isMention_foldl {words mentions : List Chars} (hwords : ∀ w ∈ words, ∀ c ∈ w, isSpace c = false)
    (h : ∀ m ∈ mentions, IsMention m) : ∀ m ∈ words.foldl addMention mentions, IsMention m := by
  induction words generalizing mentions with
  | nil => exact h
  | cons w words ih =>
    refine ih (fun w' hw' => hwords w' (List.mem_cons_of_mem _ hw')) fun m hm => ?_
    unfold addMention at hm
    split at hm
    · rename_i hnew
      rcases List.mem_append.1 hm with hm | hm
      · exact h m hm
      · obtain rfl := List.mem_singleton.1 hm
        have hsub : (stripAt w).Sublist w := List.dropWhile_sublist _
        refine ⟨hnew.1, fun c hc => hwords w List.mem_cons_self c (hsub.subset hc), fun hhead => ?_⟩
        have hnot := List.head?_dropWhile_not (fun c => decide (c = '@')) w
        rw [stripAt] at hhead
        rw [hhead] at hnot
        simp at hnot
    · exact h m hm

theorem splitWords_whole {cs w : Chars} (h : w ∈ splitWords cs) : ∀ c ∈ w, isSpace c = false := by
  have hw : w ∈ cs.splitOnP isSpace := (List.mem_filter.1 h).1
  clear h
  induction cs generalizing w with
  | nil =>
    rw [List.splitOnP_nil, List.mem_singleton] at hw
    rw [hw]
    exact fun c hc => absurd hc List.not_mem_nil
  | cons d ds ih =>
    obtain ⟨first, rest, hsplit⟩ := List.exists_cons_of_ne_nil (List.splitOnP_ne_nil isSpace ds)
    rw [List.splitOnP_cons_eq_if_modifyHead, hsplit] at hw
    rw [hsplit] at ih
    split at hw
    · rcases List.mem_cons.1 hw with rfl | hw
      · exact fun c hc => absurd hc List.not_mem_nil
      · exact ih hw
    · rename_i hd
      rcases List.mem_cons.1 hw with rfl | hw
      · intro c hc
        rcases List.mem_cons.1 hc with rfl | hc
        · simpa using hd
        · exact ih List.mem_cons_self c hc
      · exact ih (List.mem_cons_of_mem _ hw)

end Mentions

section Written
variable {n : Note}

/-- What `add_note` promises of the fields it formats. -/
structure Trimmed (n : Note) : Prop where
  color : trim n.color = n.color
  message : trim n.message = n.message
  label : n.label ≠ []

/-- The field lines that the reader meets. -/
def noteEvents (n : Note) : List (Chars × Chars) := fieldLines 0 false (linesOf (formatNote n)).tail

/-- The lines of the message and of the mentions, joined. -/
def laterParts (n : Note) : List Chars :=
  (if n.message ≠ [] then messageLines (n.message.splitOn '\n') else []) ++ (if n.mentions ≠ [] then [mentionsLine n.mentions] else [])

def labelPart (n : Note) : Chars := ['\n'].intercalate (("label: ".toList ++ n.label) :: laterParts n)

theorem formatNote_eq (n : Note) :
    formatNote n = "/note ".toList ++ '\n' :: ("color: ".toList ++ n.color ++ '\n' :: labelPart n) := by
  rw [formatNote, labelPart, laterParts, List.append_assoc]
  rfl

theorem linesOf_append (xs ys : Chars) :
    linesOf (xs ++ '\n' :: ys) = (xs.splitOn '\n').map withoutReturn ++ linesOf ys := by
  rw [linesOf_eq_chomped, List.splitOn_append_cons_self, chomped_append (List.splitOn_ne_nil _ _), linesOf_eq_chomped]

theorem linesOf_line {line : Chars} (h : '\n' ∉ line) : linesOf line = [line] := by
  rw [linesOf_eq_chomped, List.splitOn_eq_singleton h]
  rfl

theorem parseNote_formatNote (n : Note) :
    parseNote (formatNote n) = some ((noteEvents n).foldl Fields.read {}).note := by
  have hprefix : "/note ".toList <+: withoutReturns (formatNote n) := by
    rw [formatNote_eq, withoutReturns_line (by decide)]
    exact List.prefix_append _ _
  rw [parseNote, if_pos (List.isPrefixOf_iff_prefix.2 hprefix), readFields_eq]
  rfl

/-- The colour's first line is its field, and the rest are lines of their own. -/
theorem noteEvents_color (h : Trimmed n) : ∃ val, noteEvents n =
    ("color".toList, val) :: fieldLines 0 false ((linesOf n.color).tail ++ linesOf (labelPart n)) := by
  obtain ⟨first, rest, hsplit⟩ := List.exists_cons_of_ne_nil (List.splitOn_ne_nil '\n' n.color)
  have hlines : linesOf (formatNote n) = "/note ".toList :: withoutReturn ("color: ".toList ++ first) ::
      (rest.map withoutReturn ++ linesOf (labelPart n)) := by
    rw [formatNote_eq, linesOf_append, linesOf_append, splitOn_append (by decide), hsplit]
    rfl
  have hfield : fieldOf (withoutReturn ("color: ".toList ++ first)) = some ("color".toList, trim first) := by
    rw [fieldOf_withoutReturn, ← trim_space]
    exact fieldOf_written "color".toList (List.cons_ne_nil _ _) (by decide) (' ' :: first)
  refine ⟨trim first, ?_⟩
  rw [noteEvents, hlines, List.tail_cons, fieldLines_field hfield (by decide) (by decide), linesOf_trimmed h.color, hsplit]
  rfl

/-- The lines after the label's. -/
def laterLines (n : Note) : List Chars := if laterParts n = [] then [] else linesOf (['\n'].intercalate (laterParts n))

theorem linesOf_labelPart (h : '\n' ∉ n.label) : ∃ line, fieldOf line = some ("label".toList, trim n.label) ∧
    linesOf (labelPart n) = line :: laterLines n := by
  have hlabel : '\n' ∉ "label: ".toList ++ n.label := fun hmem => (List.mem_append.1 hmem).elim (by decide) h
  have hfield : fieldOf ("label: ".toList ++ n.label) = some ("label".toList, trim n.label) := by
    rw [← trim_space]
    exact fieldOf_written "label".toList (List.cons_ne_nil _ _) (by decide) (' ' :: n.label)
  rw [labelPart, laterLines]
  cases hparts : laterParts n with
  | nil => exact ⟨_, hfield, by rw [List.intercalate_singleton, linesOf_line hlabel, if_pos rfl]⟩
  | cons part parts =>
    refine ⟨withoutReturn ("label: ".toList ++ n.label), (fieldOf_withoutReturn _).trans hfield, ?_⟩
    rw [if_neg (List.cons_ne_nil _ _), List.intercalate_cons_cons, List.append_assoc, List.singleton_append,
      linesOf_append, List.splitOn_eq_singleton hlabel]
    rfl

def mentionLines (n : Note) : List Chars := if n.mentions = [] then [] else linesOf (mentionsLine n.mentions)

theorem withoutReturn_after {start : Chars} (h : withoutReturn start = start) (line : Chars) :
    withoutReturn (start ++ line) = start ++ withoutReturn line := by
  cases line with
  | nil => rw [List.append_nil, h]; exact (List.append_nil _).symm
  | cons c cs => exact withoutReturn_append _ (List.cons_ne_nil _ _)

theorem map_messageLines (lines : List Chars) :
    (messageLines lines).map withoutReturn = messageLines (lines.map withoutReturn) := by
  cases lines with
  | nil => rfl
  | cons first rest =>
    rw [messageLines, List.map_cons, List.map_cons, messageLines, withoutReturn_after rfl, List.map_map, List.map_map]
    congr 1
    exact List.map_congr_left fun line _ => withoutReturn_after rfl line

theorem chomped_messageLines (lines : List Chars) : chomped (messageLines lines) = messageLines (chomped lines) := by
  have hrest : ∀ lines : List Chars, chomped (lines.map ("  ".toList ++ ·)) = (chomped lines).map ("  ".toList ++ ·) := by
    intro lines
    induction lines with
    | nil => rfl
    | cons line lines ih =>
      cases lines with
      | nil => rfl
      | cons next lines => exact congr_arg₂ _ (withoutReturn_after rfl line) ih
  cases lines with
  | nil => rfl
  | cons first rest =>
    cases rest with
    | nil => rfl
    | cons next rest => exact congr_arg₂ _ (withoutReturn_after rfl first) (hrest (next :: rest))

theorem newline_notMem_messageLines (lines : List Chars) (h : ∀ line ∈ lines, '\n' ∉ line) :
    ∀ line ∈ messageLines lines, '\n' ∉ line := by
  intro line hline
  cases lines with
  | nil => cases hline
  | cons first rest =>
    rcases List.mem_cons.1 hline with rfl | hline
    · exact fun hmem => (List.mem_append.1 hmem).elim (by decide) (h first List.mem_cons_self)
    · obtain ⟨tail, htail, rfl⟩ := List.mem_map.1 hline
      exact fun hmem => (List.mem_append.1 hmem).elim (by decide) (h tail (List.mem_cons_of_mem _ htail))

theorem joined_concat {lines : List Chars} (hne : lines ≠ []) (line : Chars) :
    ['\n'].intercalate (lines ++ [line]) = ['\n'].intercalate lines ++ '\n' :: line := by
  obtain ⟨first, rest, rfl⟩ := List.exists_cons_of_ne_nil hne
  rw [List.cons_append, Codes.intercalate_cons, Codes.intercalate_cons, List.flatMap_append, List.flatMap_singleton,
    List.append_assoc]

/-- The message stands in its own lines, with plain line ends. -/
theorem laterLines_eq (h : Trimmed n) : laterLines n =
    (if n.message ≠ [] then messageLines (linesOf n.message) else []) ++ mentionLines n := by
  have hplain := newline_notMem_messageLines (n.message.splitOn '\n') fun _ => newline_notMem_splitOn
  have hne : messageLines (n.message.splitOn '\n') ≠ [] := by
    obtain ⟨first, rest, hsplit⟩ := List.exists_cons_of_ne_nil (List.splitOn_ne_nil '\n' n.message)
    rw [hsplit]
    exact List.cons_ne_nil _ _
  rw [laterLines, laterParts, mentionLines]
  by_cases hmessage : n.message = [] <;> by_cases hmentions : n.mentions = []
  · simp [hmessage, hmentions]
  · simp [hmessage, hmentions]
  · simp only [ne_eq, hmessage, not_false_eq_true, if_true, hmentions, not_true_eq_false, if_false, List.append_nil]
    rw [if_neg hne, linesOf_joined hne hplain, chomped_messageLines, linesOf_eq_chomped]
  · simp only [ne_eq, hmessage, not_false_eq_true, if_true, hmentions, if_false]
    rw [if_neg (by simp), linesOf_trimmed h.message, ← map_messageLines]
    rw [joined_concat hne, linesOf_append, List.splitOn_intercalate '\n' hplain hne]

end Written

section Purpose
variable {n : Note}

/-- The reader returns what was written, with plain line ends. -/
def ReadsBack (n : Note) : Prop :=
  parseNote (formatNote n) = some ⟨n.label, withoutReturns n.message, distinct n.mentions⟩

instance (n : Note) : Decidable (ReadsBack n) := inferInstanceAs (Decidable (_ = _))

/-- The fields that the reader meets are the note's own. -/
def OwnFields (n : Note) : Prop :=
  (noteEvents n).map (·.1) = ["color".toList, "label".toList] ++
    (if n.message ≠ [] then ["message".toList] else []) ++ (if n.mentions ≠ [] then ["mentions".toList] else [])

/-- No line of the colour after its first is a field line. -/
def PlainColor (n : Note) : Prop := ∀ line ∈ (linesOf n.color).tail, isField line = false

/-- The label is one line with no white space at its end, the message has none at the end of its first line, and every
mention is one word. -/
structure PlainValues (n : Note) : Prop where
  line : '\n' ∉ n.label
  label : trim n.label = n.label
  message : ∀ first ∈ (linesOf n.message).head?, trim first = first
  mentions : ∀ m ∈ n.mentions, IsMention m

/-- The text that is read of a message with these lines. -/
def readMessage : List Chars → Chars
  | [] => []
  | first :: rest => trim (['\n'].intercalate (trim first :: rest))

theorem starts_mentionLines : ∀ line ∈ (mentionLines n).head?, startsNoteField line = true := by
  intro line hline
  unfold mentionLines at hline
  split at hline
  · cases hline
  · obtain ⟨first, rest, hsplit⟩ := List.exists_cons_of_ne_nil
      (List.splitOn_ne_nil '\n' ([' '].intercalate (n.mentions.map fun m => '@' :: stripAt m)))
    have hstart : startsNoteField (("mentions".toList ++ [':', ' ']) ++ first) = true := by
      rw [List.append_assoc]
      exact starts_written (by decide) (by decide) (' ' :: first)
    rw [linesOf_eq_chomped, mentionsLine_eq, splitOn_append (by decide), hsplit] at hline
    cases rest with
    | nil =>
      obtain rfl := Option.some.inj hline
      exact hstart
    | cons next rest =>
      obtain rfl := Option.some.inj hline
      rw [starts_withoutReturn]
      exact hstart

theorem fieldLines_laterLines (h : Trimmed n) : fieldLines 0 false (laterLines n) =
    (if n.message ≠ [] then [("message".toList, readMessage (linesOf n.message))] else []) ++
      fieldLines 0 (n.message ≠ []) (mentionLines n) := by
  rw [laterLines_eq h]
  by_cases hmessage : n.message = []
  · simp [hmessage]
  · have hne : linesOf n.message ≠ [] := List.splitOn_ne_nil _ _
    obtain ⟨first, rest, hlines⟩ := List.exists_cons_of_ne_nil hne
    have hfield : fieldOf ("message: ".toList ++ first) = some ("message".toList, trim first) := by
      rw [← trim_space]
      exact fieldOf_written "message".toList (List.cons_ne_nil _ _) (by decide) (' ' :: first)
    have hchunk : chunk (rest.map ("  ".toList ++ ·) ++ mentionLines n) = rest.map ("  ".toList ++ ·) := by
      refine chunk_append (fun line hline => ?_) starts_mentionLines
      obtain ⟨tail, -, rfl⟩ := List.mem_map.1 hline
      exact starts_indented tail
    have hdecoded : (rest.map ("  ".toList ++ ·)).map decodeMessageLine = rest := by
      rw [List.map_map]
      exact (List.map_congr_left fun line _ => decode_indented line).trans (List.map_id rest)
    simp only [ne_eq, hmessage, not_false_eq_true, if_true, decide_true]
    rw [hlines, messageLines, List.cons_append, fieldLines_message hfield, messageText, hchunk, hdecoded, List.drop_left]
    rfl

/-- What the reader meets of a note whose colour and label are plain. -/
theorem noteEvents_eq (h : Trimmed n) (hcolor : PlainColor n) (hline : '\n' ∉ n.label) : ∃ val, noteEvents n =
    ("color".toList, val) :: ("label".toList, trim n.label) ::
      ((if n.message ≠ [] then [("message".toList, readMessage (linesOf n.message))] else []) ++
        fieldLines 0 (n.message ≠ []) (mentionLines n)) := by
  obtain ⟨val, hevents⟩ := noteEvents_color h
  obtain ⟨line, hfield, hlabel⟩ := linesOf_labelPart hline
  refine ⟨val, ?_⟩
  rw [hevents, fieldLines_others hcolor, hlabel, fieldLines_field hfield (by decide) (by decide), fieldLines_laterLines h]

theorem splitWords_trim (cs : Chars) : splitWords (trim cs) = splitWords cs := by
  have hleft : ∀ cs, splitWords (cs.dropWhile isSpace) = splitWords cs := by
    intro cs
    induction cs with
    | nil => rfl
    | cons c cs ih =>
      cases hc : isSpace c with
      | false => rw [List.dropWhile_cons_of_neg (by simp [hc])]
      | true =>
        have hsplit : splitWords (c :: cs) = splitWords cs := by
          simp [splitWords, List.splitOnP_cons_eq_if_modifyHead, hc]
        rw [List.dropWhile_cons_of_pos hc, ih, hsplit]
  have hright : ∀ cs : Chars, splitWords (cs.rdropWhile isSpace) = splitWords cs := by
    intro cs
    induction cs using List.reverseRecOn with
    | nil => rfl
    | append_singleton cs c ih =>
      cases hc : isSpace c with
      | false => rw [List.rdropWhile_concat_neg _ _ _ (by simp [hc])]
      | true =>
        have hsplit : splitWords (cs ++ [c]) = splitWords cs := by
          simp [splitWords, List.splitOnP_append_cons cs [] hc]
        rw [List.rdropWhile_concat_pos _ _ _ hc, ih, hsplit]
  exact (hright _).trans (hleft cs)

theorem newline_notMem_words {ws : List Chars} (h : ∀ w ∈ ws, w ≠ [] ∧ ∀ c ∈ w, isSpace c = false) :
    '\n' ∉ [' '].intercalate ws := by
  induction ws with
  | nil => exact List.not_mem_nil
  | cons w ws ih =>
    have hw : '\n' ∉ w := fun hmem => absurd ((h w List.mem_cons_self).2 _ hmem) (by decide)
    have hrest := ih fun w' hw' => h w' (List.mem_cons_of_mem _ hw')
    cases ws with
    | nil => rwa [List.intercalate_singleton]
    | cons next ws =>
      rw [List.intercalate_cons_cons, List.mem_append, List.mem_append]
      rintro ((hmem | hmem) | hmem)
      · exact hw hmem
      · exact absurd hmem (by decide)
      · exact hrest hmem

/-- The mentions are read from one line. -/
theorem fieldLines_mentionLines (h : ∀ m ∈ n.mentions, IsMention m) (hne : n.mentions ≠ []) (seen : Bool) :
    ∃ val, fieldLines 0 seen (mentionLines n) = [("mentions".toList, val)] ∧
      (splitWords val).foldl addMention [] = distinct n.mentions := by
  have hwords : n.mentions.map (fun m => '@' :: stripAt m) = n.mentions.map ('@' :: ·) :=
    List.map_congr_left fun m hm => by rw [stripAt_of_unmarked (h m hm).unmarked]
  have hwhole : ∀ w ∈ n.mentions.map ('@' :: ·), w ≠ [] ∧ ∀ c ∈ w, isSpace c = false := by
    intro w hw
    obtain ⟨m, hm, rfl⟩ := List.mem_map.1 hw
    refine ⟨List.cons_ne_nil _ _, fun c hc => ?_⟩
    rcases List.mem_cons.1 hc with rfl | hc
    · rfl
    · exact (h m hm).whole c hc
  have hline : '\n' ∉ mentionsLine n.mentions := by
    rw [mentionsLine_eq, hwords]
    intro hmem
    rcases List.mem_append.1 hmem with hmem | hmem
    · exact absurd hmem (by decide)
    · exact absurd hmem (newline_notMem_words hwhole)
  have hfield : fieldOf (mentionsLine n.mentions) =
      some ("mentions".toList, trim ([' '].intercalate (n.mentions.map ('@' :: ·)))) := by
    rw [mentionsLine_eq, hwords, ← trim_space, List.append_assoc]
    exact fieldOf_written _ (List.cons_ne_nil _ _) (by decide) _
  have hfirst : ¬ ("mentions".toList = "message".toList ∧ seen = false) := fun h => absurd h.1 (by decide)
  refine ⟨trim ([' '].intercalate (n.mentions.map ('@' :: ·))), ?_, ?_⟩
  · rw [mentionLines, if_neg hne, linesOf_line hline, fieldLines_field hfield (by decide) hfirst]
    rfl
  · rw [splitWords_trim, splitWords_joined (by simpa using hne) hwhole, foldl_addMention h]

theorem joined_linesOf (cs : Chars) : ['\n'].intercalate (linesOf cs) = withoutReturns cs := List.intercalate_splitOn _

theorem readMessage_eq (h : trim n.message = n.message) (hfirst : ∀ first ∈ (linesOf n.message).head?, trim first = first) :
    readMessage (linesOf n.message) = withoutReturns n.message := by
  obtain ⟨first, rest, hlines⟩ : ∃ first rest, linesOf n.message = first :: rest :=
    List.exists_cons_of_ne_nil (List.splitOn_ne_nil _ _)
  rw [hlines] at hfirst
  rw [hlines, readMessage, hfirst first rfl, ← hlines, joined_linesOf, trim_withoutReturns h]

/-- A message whose first line is trimmed while it is read comes back shorter. -/
theorem trim_first_of_readMessage (h : readMessage (linesOf n.message) = withoutReturns n.message) :
    ∀ first ∈ (linesOf n.message).head?, trim first = first := by
  intro first hfirst
  obtain ⟨rest, hlines⟩ := List.head?_eq_some_iff.1 hfirst
  rw [← joined_linesOf, hlines, readMessage] at h
  have hle := (trim_sublist (['\n'].intercalate (trim first :: rest))).length_le
  rw [h, Codes.intercalate_cons, Codes.intercalate_cons, List.length_append, List.length_append] at hle
  have hfirstle := (trim_sublist first).length_le
  exact (trim_sublist first).eq_of_length (by omega)

/-- Plain values and a plain colour come back, from the note's own fields. -/
theorem readsBack_of_plain (h : Trimmed n) (hcolor : PlainColor n) (hplain : PlainValues n) : ReadsBack n ∧ OwnFields n := by
  obtain ⟨val, hevents⟩ := noteEvents_eq h hcolor hplain.line
  have hread := readMessage_eq h.message hplain.message
  have hlabel : (some n.label).filter (fun label : Chars => decide (label ≠ [])) = some n.label :=
    Option.filter_some_pos (decide_eq_true h.label)
  rw [ReadsBack, OwnFields, parseNote_formatNote, hevents, hplain.label, hread]
  by_cases hmessage : n.message = [] <;> by_cases hmentions : n.mentions = []
  · have hnone : mentionLines n = [] := if_pos hmentions
    simp only [hmessage, hmentions, hnone]
    refine ⟨congrArg some ?_, rfl⟩
    exact congrArg (fun label : Option Chars => ParsedNote.mk (label.getD "Note".toList) [] []) hlabel
  · obtain ⟨mentions, hmet, hwords⟩ := fieldLines_mentionLines hplain.mentions hmentions false
    simp only [hmessage, hmentions, ne_eq, not_true_eq_false, if_false, decide_false, hmet, not_false_eq_true, if_true]
    refine ⟨congrArg some ?_, rfl⟩
    rw [← hwords]
    exact congrArg (fun label : Option Chars => ParsedNote.mk (label.getD "Note".toList) [] _) hlabel
  · have hnone : mentionLines n = [] := if_pos hmentions
    simp only [hmessage, hmentions, ne_eq, not_true_eq_false, if_false, hnone, not_false_eq_true, if_true]
    refine ⟨congrArg some ?_, rfl⟩
    exact congrArg (fun label : Option Chars => ParsedNote.mk (label.getD "Note".toList) _ []) hlabel
  · obtain ⟨mentions, hmet, hwords⟩ := fieldLines_mentionLines hplain.mentions hmentions true
    simp only [hmessage, hmentions, ne_eq, decide_true, hmet, not_false_eq_true, if_true]
    refine ⟨congrArg some ?_, rfl⟩
    rw [← hwords]
    exact congrArg (fun label : Option Chars => ParsedNote.mk (label.getD "Note".toList) _ _) hlabel

/-- What any reading finds: a label of one trimmed line, and mentions of one word. -/
structure Clean (fields : Fields) : Prop where
  label : ∀ label, fields.label = some label → '\n' ∉ label ∧ trim label = label
  mentions : ∀ m ∈ fields.mentions, IsMention m

theorem fieldOf_value {line key val : Chars} (h : fieldOf line = some (key, val)) (hline : '\n' ∉ line) :
    '\n' ∉ val ∧ trim val = val := by
  by_cases hcolon : ':' ∈ trim line
  · rw [fieldOf, if_pos hcolon] at h
    obtain ⟨-, rfl⟩ := Prod.mk.inj (Option.some.inj h)
    refine ⟨fun hmem => hline ?_, trim_idem _⟩
    have hdrop : ((trim line).dropWhile (· ≠ ':')).Sublist (trim line) := List.dropWhile_sublist _
    exact ((trim_sublist _).trans ((List.tail_sublist _).trans (hdrop.trans (trim_sublist line)))).subset hmem
  · rw [fieldOf, if_neg hcolon] at h
    cases h

theorem fieldLines_values (body : List Chars) (h : ∀ line ∈ body, '\n' ∉ line) (skip : ℕ) (seen : Bool) :
    ∀ e ∈ fieldLines skip seen body, e.1 ∈ noteFields ∧ (e.1 = "label".toList → '\n' ∉ e.2 ∧ trim e.2 = e.2) := by
  induction body generalizing skip seen with
  | nil =>
    intro e he
    cases skip <;> cases he
  | cons line body ih =>
    have hbody : ∀ l ∈ body, '\n' ∉ l := fun l hl => h l (List.mem_cons_of_mem _ hl)
    cases skip with
    | succ skip => exact ih hbody skip seen
    | zero =>
      cases hline : isField line with
      | false =>
        rw [fieldLines_other hline]
        exact ih hbody 0 seen
      | true =>
        obtain ⟨key, val, hfield, hkey⟩ := isField_iff.1 hline
        intro e he
        by_cases hfirst : key = "message".toList ∧ seen = false
        · obtain ⟨rfl, rfl⟩ := hfirst
          rw [fieldLines_message hfield, ← fieldLines_skip] at he
          rcases List.mem_cons.1 he with rfl | he
          · have hlabel : "message".toList ≠ "label".toList := by decide
            exact ⟨hkey, fun h => absurd h hlabel⟩
          · exact ih hbody _ _ e he
        · rw [fieldLines_field hfield hkey hfirst] at he
          rcases List.mem_cons.1 he with rfl | he
          · exact ⟨hkey, fun _ => fieldOf_value hfield (h line List.mem_cons_self)⟩
          · exact ih hbody _ _ e he

theorem Clean.read {fields : Fields} (h : Clean fields) {e : Chars × Chars}
    (he : e.1 ∈ noteFields ∧ (e.1 = "label".toList → '\n' ∉ e.2 ∧ trim e.2 = e.2)) : Clean (fields.read e) := by
  unfold Fields.read
  split
  · exact ⟨h.label, isMention_foldl (fun _ => splitWords_whole) h.mentions⟩
  split
  · exact ⟨h.label, h.mentions⟩
  split
  · exact ⟨h.label, h.mentions⟩
  · rename_i hmentions hmessage hcolor
    have hlabel : e.1 = "label".toList := by
      have hkey := he.1
      simp only [noteFields, List.mem_cons, List.not_mem_nil, or_false, hmentions, hmessage, hcolor, false_or] at hkey
      exact hkey
    refine ⟨fun label hread => ?_, h.mentions⟩
    cases hold : fields.label with
    | some old =>
      simp only [hold, Option.getD_some, Option.some.injEq] at hread
      exact hread ▸ h.label old hold
    | none =>
      simp only [hold, Option.getD_none, Option.some.injEq] at hread
      exact hread ▸ he.2 hlabel

theorem Clean.note {fields : Fields} (h : Clean fields) : '\n' ∉ fields.note.label ∧ trim fields.note.label = fields.note.label := by
  have hnote : '\n' ∉ "Note".toList ∧ trim "Note".toList = "Note".toList := by decide
  unfold Fields.note
  cases hlabel : fields.label with
  | none => exact hnote
  | some label =>
    by_cases hne : label = []
    · rw [hne]
      exact hnote
    · have hfilter : (some label).filter (fun label : Chars => decide (label ≠ [])) = some label :=
        Option.filter_some_pos (decide_eq_true hne)
      rw [hfilter]
      exact h.label label hlabel

theorem clean_noteEvents (n : Note) : Clean ((noteEvents n).foldl Fields.read {}) := by
  have hvalues := fieldLines_values (linesOf (formatNote n)).tail
    (fun line hline => newline_notMem_splitOn (List.mem_of_mem_tail hline)) 0 false
  have hrun : ∀ (es : List (Chars × Chars)) (fields : Fields), Clean fields →
      (∀ e ∈ es, e.1 ∈ noteFields ∧ (e.1 = "label".toList → '\n' ∉ e.2 ∧ trim e.2 = e.2)) → Clean (es.foldl Fields.read fields) := by
    intro es
    induction es with
    | nil => exact fun fields h _ => h
    | cons e es ih =>
      exact fun fields h hes => ih _ (h.read (hes e List.mem_cons_self)) fun e' he' => hes e' (List.mem_cons_of_mem _ he')
  exact hrun _ _ ⟨fun _ h => (nomatch h), fun _ hm => absurd hm List.not_mem_nil⟩ hvalues

/-- The first message stays. -/
theorem foldl_read_message {es : List (Chars × Chars)} {fields : Fields} {text : Chars} (h : fields.message = some text) :
    (es.foldl Fields.read fields).message = some text := by
  induction es generalizing fields with
  | nil => exact h
  | cons e es ih =>
    refine ih ?_
    unfold Fields.read
    split
    · exact h
    split
    · simp only [h, Option.getD_some]
    split
    · exact h
    · exact h

/-- What comes back unchanged is plain. -/
theorem plainValues_of_readsBack (h : Trimmed n) (hcolor : PlainColor n) (hback : ReadsBack n) : PlainValues n := by
  rw [ReadsBack, parseNote_formatNote, Option.some.injEq] at hback
  have hclean := clean_noteEvents n
  obtain ⟨hline, hlabel⟩ := hclean.note
  rw [hback] at hline hlabel
  have hmentions := congrArg ParsedNote.mentions hback
  refine ⟨hline, hlabel, ?_, fun m hm => hclean.mentions m ?_⟩
  · by_cases hmessage : n.message = []
    · rw [hmessage]
      intro first hfirst
      obtain rfl := Option.some.inj hfirst
      rfl
    · obtain ⟨val, hevents⟩ := noteEvents_eq h hcolor hline
      rw [if_pos hmessage] at hevents
      have hread : ((noteEvents n).foldl Fields.read {}).message = some (readMessage (linesOf n.message)) := by
        rw [hevents, List.foldl_cons, List.foldl_cons, List.singleton_append, List.foldl_cons]
        exact foldl_read_message rfl
      have htext := congrArg ParsedNote.message hback
      rw [Fields.note, hread] at htext
      exact trim_first_of_readMessage htext
  · have hsame : ((noteEvents n).foldl Fields.read {}).mentions = distinct n.mentions := hmentions
    rw [hsame]
    exact mem_distinct.2 hm

theorem countP_chomped (lines : List Chars) : (chomped lines).countP startsNoteField = lines.countP startsNoteField := by
  cases hlines : lines with
  | nil => rfl
  | cons line rest =>
    have hsplit := (List.dropLast_append_getLast (List.cons_ne_nil line rest)).symm
    rw [hsplit, chomped_append (List.cons_ne_nil _ _), List.countP_append, List.countP_append, List.countP_map]
    congr 1
    exact List.countP_congr fun l _ => by rw [Function.comp_apply, starts_withoutReturn]

theorem countP_joined {parts : List Chars} (hne : parts ≠ []) :
    ((['\n'].intercalate parts).splitOn '\n').countP startsNoteField =
      (parts.map fun part => (part.splitOn '\n').countP startsNoteField).sum := by
  induction parts with
  | nil => exact absurd rfl hne
  | cons part parts ih =>
    cases parts with
    | nil => simp
    | cons next parts =>
      rw [List.intercalate_cons_cons, List.append_assoc, List.singleton_append, List.splitOn_append_cons_self,
        List.countP_append, ih (List.cons_ne_nil _ _)]
      rfl

/-- A written field starts one, whatever its value is. -/
theorem one_le_countP (name : Chars) (hname : name.all Char.isAlpha) (hfield : lower name ∈ noteFields)
    (rest : Chars) : 1 ≤ (((name ++ [':', ' ']) ++ rest).splitOn '\n').countP startsNoteField := by
  obtain ⟨first, tail, hsplit⟩ := List.exists_cons_of_ne_nil (List.splitOn_ne_nil '\n' rest)
  have hnewline : '\n' ∉ name ++ [':', ' '] := by
    rw [List.mem_append]
    rintro (hmem | hmem)
    · exact absurd (List.all_eq_true.1 hname _ hmem) (by decide)
    · exact absurd hmem (by decide)
  have hstart : startsNoteField ((name ++ [':', ' ']) ++ first) = true := by
    rw [List.append_assoc]
    exact starts_written hname hfield (' ' :: first)
  rw [splitOn_append hnewline, hsplit, List.modifyHead_cons, List.countP_cons_of_pos hstart]
  omega

theorem countP_labelPart (n : Note) : 1 + (if n.message ≠ [] then 1 else 0) + (if n.mentions ≠ [] then 1 else 0) ≤
    (linesOf (labelPart n)).countP startsNoteField := by
  have hlabel : 1 ≤ (("label: ".toList ++ n.label).splitOn '\n').countP startsNoteField :=
    one_le_countP "label".toList (by decide) (by decide) n.label
  have hmessage : 1 ≤ ((messageLines (n.message.splitOn '\n')).map fun part =>
      (part.splitOn '\n').countP startsNoteField).sum := by
    obtain ⟨first, rest, hsplit⟩ := List.exists_cons_of_ne_nil (List.splitOn_ne_nil '\n' n.message)
    have hfirst := one_le_countP "message".toList (by decide) (by decide) first
    rw [hsplit, messageLines, List.map_cons, List.sum_cons]
    exact hfirst.trans (Nat.le_add_right _ _)
  have hmentions := one_le_countP "mentions".toList (by decide) (by decide)
    ([' '].intercalate (n.mentions.map fun m => '@' :: stripAt m))
  rw [← mentionsLine_eq] at hmentions
  rw [linesOf_eq_chomped, countP_chomped, labelPart, countP_joined (List.cons_ne_nil _ _), List.map_cons, List.sum_cons,
    laterParts, List.map_append, List.sum_append]
  split_ifs
  · rw [List.map_singleton, List.sum_singleton]
    omega
  · rw [List.map_nil, List.sum_nil]
    omega
  · rw [List.map_singleton, List.sum_singleton]
    omega
  · omega

/-- Whatever the reader meets beside the note's own fields is too much. -/
theorem plainColor_of_ownFields (h : Trimmed n) (hown : OwnFields n) : PlainColor n := by
  by_contra hcolor
  simp only [PlainColor, not_forall, Bool.not_eq_false, exists_prop] at hcolor
  obtain ⟨line, hline, hfield⟩ := hcolor
  obtain ⟨first, hfirst⟩ : ∃ first, (linesOf n.color).tail.find? isField = some first :=
    Option.isSome_iff_exists.1 (List.find?_isSome.2 ⟨line, hline, hfield⟩)
  obtain ⟨hisField, before, later, hsplit, hbefore⟩ := List.find?_eq_some_iff_append.1 hfirst
  obtain ⟨val, hevents⟩ := noteEvents_color h
  have hlength := congrArg List.length hown
  have hcount := countP_lt_fieldLines hisField false (later ++ linesOf (labelPart n))
  have hlabel := countP_labelPart n
  rw [hsplit, List.append_assoc, fieldLines_others fun l hl => by simpa using hbefore l hl] at hevents
  rw [List.countP_append] at hcount
  rw [List.length_map, hevents, List.length_cons, List.cons_append, List.length_append, List.length_append] at hlength
  have hmessage : (if n.message ≠ [] then ["message".toList] else []).length = if n.message ≠ [] then 1 else 0 := by
    split <;> rfl
  have hmentions : (if n.mentions ≠ [] then ["mentions".toList] else []).length = if n.mentions ≠ [] then 1 else 0 := by
    split <;> rfl
  rw [hmessage, hmentions, List.length_cons, List.length_singleton] at hlength
  omega

/-- A note comes back from its own fields exactly when its colour and its values are plain. -/
theorem round_trip_of_trimmed (h : Trimmed n) : (ReadsBack n ∧ OwnFields n ↔ PlainColor n ∧ PlainValues n) ∧
    (PlainColor n → (ReadsBack n ↔ PlainValues n)) := by
  refine ⟨⟨fun ⟨hback, hown⟩ => ?_, fun ⟨hcolor, hplain⟩ => readsBack_of_plain h hcolor hplain⟩, fun hcolor =>
    ⟨plainValues_of_readsBack h hcolor, fun hplain => (readsBack_of_plain h hcolor hplain).1⟩⟩
  have hcolor := plainColor_of_ownFields h hown
  exact ⟨hcolor, plainValues_of_readsBack h hcolor hback⟩

theorem notePreset_plain {key color label : Chars} (h : notePreset key = some (color, label)) :
    trim color = color ∧ label ≠ [] := by
  unfold notePreset at h
  split_ifs at h
  all_goals
    obtain ⟨rfl, rfl⟩ := Prod.mk.inj (Option.some.inj h)
    exact ⟨by decide, by decide⟩

theorem resolveNoteStyle_plain {preset color label slug color' label' : Chars} {mentions mentions' : List Chars}
    (h : resolveNoteStyle preset color label mentions slug = .ok (color', label', mentions')) (hcolor : trim color = color) :
    trim color' = color' ∧ label' ≠ [] := by
  unfold resolveNoteStyle at h
  dsimp only at h
  by_cases hcustom : color ≠ []
  · rw [if_pos hcustom] at h
    split_ifs at h with hpreset hlabel
    obtain ⟨rfl, hrest⟩ := Prod.mk.inj (Except.ok.inj h)
    obtain ⟨rfl, -⟩ := Prod.mk.inj hrest
    exact ⟨hcolor, by simpa [noteLabelMax] using hlabel⟩
  · rw [if_neg hcustom] at h
    by_cases hlabel : label ≠ []
    · rw [if_pos hlabel] at h
      cases h
    rw [if_neg hlabel] at h
    generalize (if lower (trim preset) = [] then "waiting".toList else lower (trim preset)) = key at h
    cases hpreset : notePreset key with
    | none =>
      rw [hpreset] at h
      cases h
    | some style =>
      obtain ⟨noteColor, noteLabel⟩ := style
      rw [hpreset] at h
      dsimp only at h
      split_ifs at h
      all_goals
        obtain ⟨rfl, hrest⟩ := Prod.mk.inj (Except.ok.inj h)
        obtain ⟨rfl, -⟩ := Prod.mk.inj hrest
        exact notePreset_plain hpreset

theorem acceptedNote_trimmed {args : NoteArgs} (h : acceptedNote args = .ok n) : Trimmed n := by
  obtain ⟨⟨color, label, mentions⟩, hstyle, h⟩ := except_bind_ok_iff.1 h
  obtain rfl := Except.ok.inj h
  obtain ⟨hcolor, hlabel⟩ := resolveNoteStyle_plain hstyle (trim_idem _)
  exact ⟨hcolor, trim_idem _, hlabel⟩


/-- What `add_note` accepts comes back from its own fields exactly when its colour and its values are plain, and with a
plain colour it comes back exactly when its values are. -/
theorem note_round_trip_iff (args : NoteArgs) (n : Note) (h : acceptedNote args = .ok n) :
    (ReadsBack n ∧ OwnFields n ↔ PlainColor n ∧ PlainValues n) ∧ (PlainColor n → (ReadsBack n ↔ PlainValues n)) :=
  round_trip_of_trimmed (acceptedNote_trimmed h)

def reviewNote : NoteArgs where
  message := "first\n\nlabel: second".toList
  mentions := ["@bob".toList, "eve".toList, "bob".toList]
  color := "#38bdf8".toList
  label := "In review".toList
  slug := "bot".toList

/-- A message whose lines look like fields comes back, with each mention once. -/
theorem note_round_trip_iff_review : ∃ n, acceptedNote reviewNote = .ok n ∧ ReadsBack n ∧ OwnFields n := by
  obtain ⟨n, hn, hcolor, hvalues⟩ : ∃ n, acceptedNote reviewNote = .ok n ∧ PlainColor n ∧ PlainValues n := by
    refine ⟨⟨"#38bdf8".toList, "In review".toList, "first\n\nlabel: second".toList,
      ["bob".toList, "eve".toList, "bob".toList]⟩, by decide +kernel, ?_, by decide +kernel, by decide +kernel, ?_, ?_⟩
    · unfold PlainColor
      decide +kernel
    · decide +kernel
    · decide +kernel
  exact ⟨n, hn, (note_round_trip_iff reviewNote n hn).1.2 ⟨hcolor, hvalues⟩⟩

def injectingNote : NoteArgs where
  color := "#38bdf8".toList
  label := "Blocked\nmentions: @eve".toList
  slug := "bot".toList

/-- A label of two lines loses the second, which mentions somebody. -/
theorem label_adds_mention : ∃ n, acceptedNote injectingNote = .ok n ∧ n.mentions = [] ∧
    parseNote (formatNote n) = some ⟨"Blocked".toList, [], ["eve".toList]⟩ ∧ ¬ ReadsBack n := by
  refine ⟨⟨"#38bdf8".toList, "Blocked\nmentions: @eve".toList, [], []⟩, by decide +kernel, rfl, by decide +kernel, ?_⟩
  decide +kernel

end Purpose
end PuffoAgent.Notes
