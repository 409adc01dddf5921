import PuffoAgent.History.Walk
import PuffoAgent.Ingress.Handler
import PuffoAgent.Sequences.Greedy

/-! Sticky notes: the rows that the store recognises by the text of its column, and the rows
whose text is a note. -/
namespace PuffoAgent.History
open Relational Store Text Projection Inbox Sequences Ingress

section Newest
variable {s : Tables} {channelId root : String} {rows : List MessageRow} {p : MessageRow → Bool}

/-- Rows from the newest down. -/
def newestFirst (rows : List MessageRow) : List MessageRow := rows.insertionSort fun a b => sentOrder b ≤ sentOrder a

theorem newestFirst_filter (h : (rows.map (·.envelopeId)).Nodup) :
    newestFirst (rows.filter p) = (newestFirst rows).filter p := by
  have hfilter := nodup_sentOrder (h.sublist (List.filter_sublist (p := p) |>.map _))
  rw [newestFirst, newestFirst, sort_desc hfilter, sort_desc (nodup_sentOrder h), sort_filter (nodup_sentOrder h),
    List.filter_reverse]

theorem newestFirst_descending (h : (rows.map (·.envelopeId)).Nodup) :
    (newestFirst rows).Pairwise fun a b => sentOrder b < sentOrder a := by
  rw [newestFirst, sort_desc (nodup_sentOrder h), List.pairwise_reverse]
  exact ascending_sort (nodup_sentOrder h)

/-- The limit of the note queries. -/
def noteLimit (limit : Int) : Nat := (max 1 (min limit 200)).toNat

theorem newest_limit (limit : Int) (rows : List MessageRow) :
    newest sentOrder (max 1 (min limit 200)) rows = (newestFirst rows).take (noteLimit limit) := by
  rw [newest, if_neg (by omega)]
  rfl

/-- The rows of a channel, newest first. -/
def channelRows (s : Tables) (channelId : String) : List MessageRow :=
  newestFirst (s.messages.select fun m => m.channelId = some channelId)

/-- The rows of a thread that no gate hides, newest first. -/
def threadRows (s : Tables) (root : String) : List MessageRow :=
  newestFirst (s.messages.select fun m => inThread root m ∧ notGated m)

/-- The newest of the rows that `p` selects in each thread, newest first. -/
def perThread (p : MessageRow → Bool) (s : Tables) (channelId : String) (limit : Int) : List MessageRow :=
  (firsts noteThread ((channelRows s channelId).filter p)).take (noteLimit limit)

/-- The newest row of the thread that `p` selects. -/
def ofThread (p : MessageRow → Bool) (s : Tables) (root : String) : Option MessageRow := (threadRows s root).find? p

theorem channelNotes_eq (h : channelExists s channelId) (limit : Int) :
    getChannelNotes s channelId limit = .ok ((perThread noteLike s channelId limit).map rowToMsg) := by
  let notes := s.messages.select fun m => m.channelId = some channelId ∧ noteLike m
  have hsel : notes = (s.messages.select fun m => m.channelId = some channelId).filter noteLike := by
    rw [Table.select, List.filter_filter]
    refine List.filter_congr fun m _ => ?_
    rw [Bool.decide_and, Bool.decide_eq_true, Bool.and_comm]
  have hnotes : newestFirst notes = (channelRows s channelId).filter noteLike := by
    rw [hsel, newestFirst_filter (nodup_select _)]
    rfl
  have hperm : (newestFirst notes).Perm notes := List.perm_insertionSort _ notes
  have hheads : newestFirst (notes.filter fun m => notes.all fun m' =>
      noteThread m' = noteThread m → sentOrder m' ≤ sentOrder m) = firsts noteThread (newestFirst notes) := by
    rw [newestFirst_filter (nodup_select _), firsts_eq_filter (newestFirst_descending (nodup_select _))]
    refine List.filter_congr fun m _ => ?_
    exact hperm.all_eq.symm
  rw [getChannelNotes, if_neg (by simpa using h)]
  change Except.ok ((newest sentOrder (max 1 (min limit 200)) (notes.filter _)).map _) = _
  rw [newest_limit, hheads, hnotes, perThread]

theorem threadNotes_eq (hne : root ≠ "") (h : hasMessage s root) :
    getThreadNotes s root 1 = .ok ((ofThread noteLike s root).toList.map rowToMsg) := by
  have hsel : s.messages.select (fun m => inThread root m ∧ notGated m ∧ noteLike m) =
      (s.messages.select fun m => inThread root m ∧ notGated m).filter noteLike := by
    rw [Table.select, Table.select, List.filter_filter]
    refine List.filter_congr fun m _ => ?_
    simp only [Bool.decide_and, Bool.decide_eq_true]
    rw [← Bool.and_assoc, Bool.and_comm]
  rw [getThreadNotes, if_neg hne, if_neg (by simpa using h), newest_limit, hsel, newestFirst_filter (nodup_select _)]
  change Except.ok ((((threadRows s root).filter noteLike).take 1).map rowToMsg) = _
  rw [ofThread, ← List.head?_filter, List.take_one]

end Newest

section Recognised
variable {host : Host} {m : MessageRow} {value : Json} {text : String}

/-- The text of a row begins as a note does. -/
def opensNote (host : Host) (m : MessageRow) : Bool := startsWith (messageText host (rowToMsg m)) "/note "

/-- A row whose column holds the text of a note by itself: as an encoded string, or as it is. -/
def PlainNote (m : MessageRow) : Prop :=
  ∃ text, startsWith text "/note " ∧ (m.content = encodeContent (.str text) ∨ m.content = text)

/-- The column holds an encoded value, or a text from before the marker. -/
def Written (m : MessageRow) : Prop :=
  (∃ value, m.content = encodeContent value) ∨ m.content.toList.head? ≠ some '\x1e'

theorem toList_encodeContent (value : Json) :
    (encodeContent value).toList = '\x1e' :: ("PUFFO_CONTENT_JSON_V1:".toList ++ value.dumps.toList) := by
  rw [encodeContent, String.toList_append]
  rfl

theorem toList_of_startsWith (h : startsWith text "/note ") : ∃ rest, text.toList = "/note ".toList ++ rest := by
  rw [startsWith, List.isPrefixOf_iff_prefix] at h
  obtain ⟨rest, hrest⟩ := h
  exact ⟨rest, hrest.symm⟩

theorem content_encoded (h : m.content = encodeContent value) : (rowToMsg m).content = value := by
  rw [rowToMsg, h]
  exact decodeContent_encodeContent _ _ _

/-- A text that starts with a slash is no JSON and holds no marker. -/
theorem content_slash {rest : List Char} (h : m.content.toList = '/' :: rest) : (rowToMsg m).content = .str m.content := by
  have hmarker : startsWith m.content contentJsonPrefix = false := by
    rw [startsWith, h]
    rfl
  have hloads : Json.loads m.content = none := by
    rw [Json.loads, h, List.length_cons]
    rfl
  rw [rowToMsg, decodeContent, if_neg (by rw [hmarker]; decide)]
  split
  · rw [loadsOr, hloads]
    rfl
  · rfl

theorem messageText_str {m : StoredMessage} (h : m.content = .str text) : messageText host m = text := by
  rw [messageText, h]
  change host.text (some (.str text)) = text
  rw [Host.text]
  by_cases ht : text = ""
  · simp [Json.truthy, ht]
  · simp [Json.truthy, ht, host.str_str]

theorem likeStart_of_startsWith {start : String} (h : startsWith text start) : likeStart start text := by
  rw [startsWith, List.isPrefixOf_iff_prefix] at h
  rw [likeStart, List.isPrefixOf_iff_prefix]
  exact h.map _

/-- The query finds a plain note. -/
theorem PlainNote.found (h : PlainNote m) : noteLike m ∧ opensNote host m := by
  obtain ⟨text, hstart, hc | hc⟩ := h
  · obtain ⟨rest, htext⟩ := toList_of_startsWith hstart
    have hcolumn : startsWith m.content (contentJsonPrefix ++ "\"/note ") := by
      rw [startsWith, hc, toList_encodeContent, Json.dumps, Json.dumpsWith,
        ← List.append_nil (Json.quoteWith _ _).toList, Json.toList_quoteWith, htext]
      rfl
    refine ⟨?_, ?_⟩
    · rw [noteLike, likeStart_of_startsWith hcolumn]
      rfl
    · rwa [opensNote, messageText_str (content_encoded hc)]
  · subst hc
    obtain ⟨rest, htext⟩ := toList_of_startsWith hstart
    refine ⟨?_, ?_⟩
    · simp [noteLike, likeStart_of_startsWith hstart]
    · rwa [opensNote, messageText_str (content_slash htext)]

/-- Only a string is written with a leading quote. -/
theorem str_of_dumps_quote {rest : List Char} (h : value.dumps.toList = '"' :: rest) : ∃ text, value = .str text := by
  have hread := Json.loads_dumps value
  rw [Json.loads, h] at hread
  obtain ⟨⟨v, left⟩, hv, hleft⟩ := Option.bind_eq_some_iff.1 hread
  rw [Json.readValue.eq_def] at hv
  change (Json.readQuoted rest).map _ = _ at hv
  obtain ⟨⟨text, more⟩, -, he⟩ := Option.map_eq_some_iff.1 hv
  obtain ⟨rfl, rfl⟩ := Prod.mk.inj he
  refine ⟨text, ?_⟩
  simp only at hleft
  split at hleft
  · exact (Option.some.inj hleft).symm
  · cases hleft

/-- No other character has a lower case that is no letter. -/
theorem toLower_eq {c d : Char} (hd : d.isLower = false) (h : c.toLower = d) : c = d := by
  unfold Char.toLower at h
  split at h
  · next hupper =>
    subst h
    have hle := UInt32.le_iff_toNat_le.1 hupper.1
    have hge := UInt32.le_iff_toNat_le.1 hupper.2
    unfold Char.isLower at hd
    simp only [ge_iff_le, Bool.and_eq_false_iff, decide_eq_false_iff_not, UInt32.le_iff_toNat_le,
      UInt32.toNat_add] at hd
    change 65 ≤ c.val.toNat at hle
    change c.val.toNat ≤ 90 at hge
    change (¬ 97 ≤ (c.val.toNat + 32) % 2 ^ 32) ∨ ¬ (c.val.toNat + 32) % 2 ^ 32 ≤ 122 at hd
    omega
  · exact h

/-- Where the pattern starts with no letter, so does the text. -/
theorem likeStart_head {start : String} {pattern : List Char} {d : Char} (hs : start.toList = d :: pattern)
    (hd : d.isLower = false) (hup : d.toLower = d) (h : likeStart start text) : ∃ rest, text.toList = d :: rest := by
  rw [likeStart, hs, List.isPrefixOf_iff_prefix] at h
  cases ht : text.toList with
  | nil => simp [ht] at h
  | cons c rest =>
    rw [ht, List.map_cons, List.map_cons, List.cons_prefix_cons, hup] at h
    exact ⟨rest, by rw [toLower_eq hd h.1.symm]⟩

/-- What the query finds and reads as a note is a plain note. -/
theorem plainNote_of_found (hw : Written m) (hlike : noteLike m) (hopens : opensNote host m) : PlainNote m := by
  have hmarker : (contentJsonPrefix ++ "\"/note ").toList = '\x1e' :: "PUFFO_CONTENT_JSON_V1:\"/note ".toList := rfl
  simp only [noteLike, Bool.decide_or, Bool.decide_eq_true, Bool.or_eq_true] at hlike
  rcases hw with ⟨value, hc⟩ | hbare
  · rcases hlike with hlike | hlike
    · -- past the marker the column must go on with a quote
      have hquote : likeStart "\"/note " value.dumps := by
        rw [likeStart, hc, String.toList_append, encodeContent, String.toList_append, List.map_append, List.map_append,
          List.isPrefixOf_iff_prefix, List.prefix_append_right_inj] at hlike
        rwa [likeStart, List.isPrefixOf_iff_prefix]
      obtain ⟨rest, hdumps⟩ := likeStart_head (d := '"') rfl rfl rfl hquote
      obtain ⟨text, rfl⟩ := str_of_dumps_quote hdumps
      rw [opensNote, messageText_str (content_encoded hc)] at hopens
      exact ⟨text, hopens, .inl hc⟩
    · obtain ⟨rest, hslash⟩ := likeStart_head (d := '/') rfl rfl rfl hlike
      rw [hc, toList_encodeContent] at hslash
      cases hslash
  · rcases hlike with hlike | hlike
    · obtain ⟨rest, hhead⟩ := likeStart_head hmarker rfl rfl hlike
      exact absurd (by rw [hhead]; rfl) hbare
    · obtain ⟨rest, hslash⟩ := likeStart_head (d := '/') rfl rfl rfl hlike
      rw [opensNote, messageText_str (content_slash hslash)] at hopens
      exact ⟨m.content, hopens, .inr rfl⟩

theorem found_iff (hw : Written m) : noteLike m ∧ opensNote host m ↔ PlainNote m :=
  ⟨fun h => plainNote_of_found hw h.1 h.2, PlainNote.found⟩

/-- Content that is stored as an object is no plain note. -/
theorem not_plainNote_obj {members : List (String × Json)} (h : m.content = encodeContent (.obj members)) : ¬ PlainNote m := by
  rintro ⟨text, hstart, hc | hc⟩
  · have hread := content_encoded hc
    rw [content_encoded h] at hread
    cases hread
  · obtain ⟨rest, htext⟩ := toList_of_startsWith hstart
    rw [← hc, h, toList_encodeContent] at htext
    cases htext

theorem visible_obj (str : Json → String) (content : Json) (visible : Bool) :
    ∃ members, contentWithVisibility str content visible = .obj members := by
  cases content <;> exact ⟨_, rfl⟩

end Recognised

section Agreement
variable {host : Host} {s : Tables} {channelId root : String}

/-- The text says that the row is a note, or the query finds it. -/
def noteCandidate (host : Host) (m : MessageRow) : Bool := noteLike m || opensNote host m

theorem mem_newestFirst {p : MessageRow → Bool} {m : MessageRow} (h : m ∈ newestFirst (s.messages.select p)) :
    m ∈ s.messages.rows := by
  rw [newestFirst, List.mem_insertionSort] at h
  exact List.mem_of_mem_filter h

theorem rowToMsg_injective : Function.Injective rowToMsg := fun _ _ h => congrArg StoredMessage.row h

theorem channelNotes_iff (hw : ∀ m ∈ s.messages.rows, Written m) (h : channelExists s channelId) (limit : Int) :
    getChannelNotes s channelId limit = .ok ((perThread (opensNote host) s channelId limit).map rowToMsg) ↔
      ∀ m ∈ perThread (noteCandidate host) s channelId limit, PlainNote m := by
  rw [channelNotes_eq h, Except.ok.injEq, (List.map_injective_iff.2 rowToMsg_injective).eq_iff, perThread, perThread,
    firsts_agree]
  refine forall₂_congr fun m hm => found_iff (hw m ?_)
  exact mem_newestFirst (List.mem_of_mem_filter (firsts_sublist.subset (List.mem_of_mem_take hm)))

theorem threadNotes_iff (hw : ∀ m ∈ s.messages.rows, Written m) (hne : root ≠ "") (h : hasMessage s root) :
    getThreadNotes s root 1 = .ok ((ofThread (opensNote host) s root).toList.map rowToMsg) ↔
      ∀ m ∈ ofThread (noteCandidate host) s root, PlainNote m := by
  have hlist {a b : Option MessageRow} : a.toList = b.toList ↔ a = b := by cases a <;> cases b <;> simp
  rw [threadNotes_eq hne h, Except.ok.injEq, (List.map_injective_iff.2 rowToMsg_injective).eq_iff, hlist, ofThread, ofThread,
    find?_agree]
  refine forall₂_congr fun m hm => found_iff (hw m ?_)
  exact mem_newestFirst (List.mem_of_find?_eq_some hm)

/-- The note queries give the notes in effect iff every row that they find or that reads as a note, the newest
of its thread and within the limit, is a plain note. No row of the receipt path or of a self echo is one. -/
theorem notes_found_iff (host : Host) (s : Tables) (hw : ∀ m ∈ s.messages.rows, Written m) (channelId root : String)
    (limit : Int) :
    (channelExists s channelId →
      (getChannelNotes s channelId limit = .ok ((perThread (opensNote host) s channelId limit).map rowToMsg) ↔
        ∀ m ∈ perThread (noteCandidate host) s channelId limit, PlainNote m)) ∧
    (root ≠ "" → hasMessage s root →
      (getThreadNotes s root 1 = .ok ((ofThread (opensNote host) s root).toList.map rowToMsg) ↔
        ∀ m ∈ ofThread (noteCandidate host) s root, PlainNote m)) ∧
    ∀ m : MessageRow,
      ((∃ client payload saved, m.content = encodeContent (promptContent host client payload saved)) ∨
        ∃ content visible, m.content = encodeContent (contentWithVisibility host.str content visible)) → ¬ PlainNote m := by
  refine ⟨fun h => channelNotes_iff hw h limit, threadNotes_iff hw, ?_⟩
  rintro m (⟨client, payload, saved, hc⟩ | ⟨content, visible, hc⟩)
  · exact not_plainNote_obj hc
  · obtain ⟨members, hobj⟩ := visible_obj host.str content visible
    exact not_plainNote_obj (hobj ▸ hc)

end Agreement

section Examples

/-- A message of the channel `c`. -/
def channelRow (content : Json) : MessageRow :=
  payloadValues { envelopeId := "e", channelId := some "c", spaceId := some "s", content := content, sentAt := 1 } 1

def noteText : String := "/note \nlabel: Done"

/-- A note that is stored as a text. -/
def plainStore : Tables := { Tables.empty with messages := ⟨[channelRow (.str noteText)], by decide⟩ }

/-- The same note, sent by the agent itself and heard again. -/
def echoedStore : Tables :=
  { Tables.empty with messages := ⟨[channelRow (contentWithVisibility asciiHost.str (.str noteText) true)], by decide⟩ }

theorem plainStore_found :
    getChannelNotes plainStore "c" 20 = .ok ((perThread (opensNote asciiHost) plainStore "c" 20).map rowToMsg) ∧
      getThreadNotes plainStore "e" 1 = .ok ((ofThread (opensNote asciiHost) plainStore "e").toList.map rowToMsg) := by
  have hplain : ∀ m ∈ plainStore.messages.rows, PlainNote m := by
    intro m hm
    obtain rfl := List.mem_singleton.1 hm
    exact ⟨noteText, by decide, .inl rfl⟩
  obtain ⟨hchannel, hthread, -⟩ := notes_found_iff asciiHost plainStore (fun m hm => by
    obtain rfl := List.mem_singleton.1 hm
    exact .inl ⟨_, rfl⟩) "c" "e" 20
  refine ⟨(hchannel rfl).2 fun m hm => hplain m ?_, (hthread (by decide) rfl).2 fun m hm => hplain m ?_⟩
  · exact mem_newestFirst (List.mem_of_mem_filter (firsts_sublist.subset (List.mem_of_mem_take hm)))
  · exact mem_newestFirst (List.mem_of_find?_eq_some hm)

/-- A note that the agent sent itself is not found. -/
theorem echoed_note_missed : channelExists echoedStore "c" ∧
    getChannelNotes echoedStore "c" 20 = .ok [] ∧ getThreadNotes echoedStore "e" 1 = .ok [] ∧
    (perThread (opensNote asciiHost) echoedStore "c" 20).map (·.envelopeId) = ["e"] ∧
    getChannelNotes echoedStore "c" 20 ≠ .ok ((perThread (opensNote asciiHost) echoedStore "c" 20).map rowToMsg) := by
  obtain ⟨members, hobj⟩ := visible_obj asciiHost.str (.str noteText) true
  let m := channelRow (contentWithVisibility asciiHost.str (.str noteText) true)
  have hcontent : m.content = encodeContent (contentWithVisibility asciiHost.str (.str noteText) true) := rfl
  have hchannelRows : channelRows echoedStore "c" = [m] := rfl
  have hthreadRows : threadRows echoedStore "e" = [m] := rfl
  have hopens : opensNote asciiHost m = true := by
    have htext : (rowToMsg m).get "text" = some (.str noteText) := by
      rw [StoredMessage.get, content_encoded hcontent]
      rfl
    rw [opensNote, messageText, content_encoded hcontent, hobj]
    simp only [StoredMessage.flag, htext]
    decide
  have hlike : noteLike m = false := eq_false_of_ne_true fun hlike =>
    not_plainNote_obj (hcontent.trans (congrArg _ hobj)) (plainNote_of_found (.inl ⟨_, hcontent⟩) hlike hopens)
  have hmissed : getChannelNotes echoedStore "c" 20 = .ok [] := by
    rw [channelNotes_eq rfl, perThread, hchannelRows, List.filter_cons_of_neg (by simp [hlike])]
    rfl
  have hspec : perThread (opensNote asciiHost) echoedStore "c" 20 = [m] := by
    rw [perThread, hchannelRows, List.filter_cons_of_pos hopens]
    rfl
  refine ⟨rfl, hmissed, ?_, ?_, ?_⟩
  · rw [threadNotes_eq (by decide) rfl, ofThread, hthreadRows, List.find?_cons_of_neg (by simp [hlike])]
    rfl
  · rw [hspec]
    rfl
  · rw [hmissed, hspec]
    simp

end Examples
end PuffoAgent.History
