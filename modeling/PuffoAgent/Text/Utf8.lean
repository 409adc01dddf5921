import Mathlib.Data.List.Basic

/-! Reading bytes as UTF-8 text and a text as lines, as the host language does it. -/
namespace PuffoAgent.Text

section Decoding

def encodeUtf8 (cs : List Char) : List UInt8 := cs.flatMap String.utf8EncodeChar

/-- What is still to come of a character: a byte between `low` and `high`, and `more` after it. -/
structure Owed where
  more : Nat
  low : Nat
  high : Nat
  value : Nat

/-- The replacement character. -/
def replacement : Char := '\uFFFD'

/-- What is made of the first byte of a character. -/
def leadByte (b : Nat) : List Char × Option Owed :=
  if b < 0x80 then ([Char.ofNat b], none)
  else if 0xC2 ≤ b ∧ b ≤ 0xDF then ([], some ⟨0, 0x80, 0xBF, b - 0xC0⟩)
  else if 0xE0 ≤ b ∧ b ≤ 0xEF then
    ([], some ⟨1, if b = 0xE0 then 0xA0 else 0x80, if b = 0xED then 0x9F else 0xBF, b - 0xE0⟩)
  else if 0xF0 ≤ b ∧ b ≤ 0xF4 then
    ([], some ⟨2, if b = 0xF0 then 0x90 else 0x80, if b = 0xF4 then 0x8F else 0xBF, b - 0xF0⟩)
  else ([replacement], none)

/-- What is made of a byte that continues a character. -/
def Owed.next (o : Owed) (b : Nat) : List Char × Option Owed :=
  let value := o.value * 64 + (b - 0x80)
  match o.more with
  | 0 => ([Char.ofNat value], none)
  | more + 1 => ([], some ⟨more, 0x80, 0xBF, value⟩)

/-- One byte. A byte that cannot continue the character is read as the first of another. -/
def readByte : Option Owed → Nat → List Char × Option Owed
  | none, b => leadByte b
  | some o, b =>
    if o.low ≤ b ∧ b ≤ o.high then o.next b
    else (replacement :: (leadByte b).1, (leadByte b).2)

/-- `bytes.decode("utf-8", errors="replace")`. -/
def decodeReplace : Option Owed → List UInt8 → List Char
  | none, [] => []
  | some _, [] => [replacement]
  | o, b :: bs => (readByte o b.toNat).1 ++ decodeReplace (readByte o b.toNat).2 bs

theorem decodeReplace_cons (o : Option Owed) (b : UInt8) (bs : List UInt8) :
    decodeReplace o (b :: bs) = (readByte o b.toNat).1 ++ decodeReplace (readByte o b.toNat).2 bs := by
  cases o <;> rfl

theorem toNat_ofNat_byte {n : Nat} (h : n < 256) : (UInt8.ofNat n).toNat = n := by
  simp [Nat.mod_eq_of_lt h]

theorem decodeReplace_ofNat {n : Nat} (h : n < 256) (o : Option Owed) (bs : List UInt8) :
    decodeReplace o (UInt8.ofNat n :: bs) = (readByte o n).1 ++ decodeReplace (readByte o n).2 bs := by
  rw [decodeReplace_cons, toNat_ofNat_byte h]

/-- A continuation byte of a character that is within its bounds. -/
theorem readByte_owed {o : Owed} {b : Nat} (h : o.low ≤ b ∧ b ≤ o.high) : readByte (some o) b = o.next b :=
  if_pos h

theorem leadByte_one {b : Nat} (h : b < 0x80) : readByte none b = ([Char.ofNat b], none) := if_pos h

theorem leadByte_two {v : Nat} (h : 2 ≤ v ∧ v < 32) : readByte none (v + 0xC0) = ([], some ⟨0, 0x80, 0xBF, v⟩) := by
  rw [readByte, leadByte]
  rw [if_neg (by omega), if_pos (by omega), Nat.add_sub_cancel]

theorem leadByte_three {v : Nat} (h : v < 16) : readByte none (v + 0xE0) =
    ([], some ⟨1, if v = 0 then 0xA0 else 0x80, if v = 13 then 0x9F else 0xBF, v⟩) := by
  rw [readByte, leadByte]
  rw [if_neg (by omega), if_neg (by omega), if_pos (by omega), Nat.add_sub_cancel]
  simp

theorem leadByte_four {v : Nat} (h : v < 5) : readByte none (v + 0xF0) =
    ([], some ⟨2, if v = 0 then 0x90 else 0x80, if v = 4 then 0x8F else 0xBF, v⟩) := by
  rw [readByte, leadByte]
  rw [if_neg (by omega), if_neg (by omega), if_neg (by omega), if_pos (by omega), Nat.add_sub_cancel]
  simp

/-- A character is read back from its bytes. -/
theorem decodeReplace_char (c : Char) (rest : List UInt8) :
    decodeReplace none (String.utf8EncodeChar c ++ rest) = c :: decodeReplace none rest := by
  have hv : c.val.toNat < 0xd800 ∨ (0xdfff < c.val.toNat ∧ c.val.toNat < 0x110000) := c.valid
  have hc : Char.ofNat c.val.toNat = c := Char.ofNat_toNat c
  unfold String.utf8EncodeChar
  generalize c.val.toNat = v at hv hc
  subst hc
  simp only
  split
  case isTrue hone =>
    rw [List.cons_append, decodeReplace_ofNat (by omega), leadByte_one (by omega)]
    rfl
  split
  case isTrue htwo =>
    rw [List.cons_append, List.cons_append, decodeReplace_ofNat (by omega), leadByte_two (by omega),
      decodeReplace_ofNat (by omega), readByte_owed ⟨by simp only; omega, by simp only; omega⟩]
    simp only [Owed.next, List.nil_append, List.cons_append]
    rw [show v / 64 % 32 * 64 + (v % 64 + 128 - 128) = v by omega]
  split
  case isTrue hthree =>
    rw [List.cons_append, List.cons_append, List.cons_append, decodeReplace_ofNat (by omega), leadByte_three (by omega),
      decodeReplace_ofNat (by omega), readByte_owed ⟨by simp only; split <;> omega, by simp only; split <;> omega⟩]
    simp only [Owed.next]
    rw [decodeReplace_ofNat (by omega), readByte_owed ⟨by simp only; omega, by simp only; omega⟩]
    simp only [Owed.next, List.nil_append, List.cons_append]
    rw [show (v / 4096 % 16 * 64 + (v / 64 % 64 + 128 - 128)) * 64 + (v % 64 + 128 - 128) = v by omega]
  case isFalse hfour =>
    rw [List.cons_append, List.cons_append, List.cons_append, List.cons_append, decodeReplace_ofNat (by omega),
      leadByte_four (by omega), decodeReplace_ofNat (by omega),
      readByte_owed ⟨by simp only; split <;> omega, by simp only; split <;> omega⟩]
    simp only [Owed.next]
    rw [decodeReplace_ofNat (by omega), readByte_owed ⟨by simp only; omega, by simp only; omega⟩]
    simp only [Owed.next]
    rw [decodeReplace_ofNat (by omega), readByte_owed ⟨by simp only; omega, by simp only; omega⟩]
    simp only [Owed.next, List.nil_append, List.cons_append]
    rw [show ((v / 262144 % 8 * 64 + (v / 4096 % 64 + 128 - 128)) * 64 + (v / 64 % 64 + 128 - 128)) * 64 +
      (v % 64 + 128 - 128) = v by omega]

/-- Valid bytes are read as the text they encode. -/
theorem decodeReplace_encodeUtf8 (cs : List Char) : decodeReplace none (encodeUtf8 cs) = cs := by
  induction cs with
  | nil => rfl
  | cons c cs ih => rw [encodeUtf8, List.flatMap_cons, decodeReplace_char, ← encodeUtf8, ih]

/-- One byte, where what is invalid is left out. -/
def readByteKnown : Option Owed → Nat → List Char × Option Owed
  | none, b => ((leadByte b).1.filter (· ≠ replacement), (leadByte b).2)
  | some o, b =>
    if o.low ≤ b ∧ b ≤ o.high then o.next b
    else ((leadByte b).1.filter (· ≠ replacement), (leadByte b).2)

/-- `bytes.decode("utf-8", errors="ignore")`. -/
def decodeIgnore : Option Owed → List UInt8 → List Char
  | _, [] => []
  | o, b :: bs => (readByteKnown o b.toNat).1 ++ decodeIgnore (readByteKnown o b.toNat).2 bs

/-- `bytes.decode("utf-8")`; `none` is its error. -/
def decodeStrict (bytes : List UInt8) : Option String :=
  let text := decodeReplace none bytes
  if encodeUtf8 text = bytes then some (String.ofList text) else none

theorem decodeStrict_encodeUtf8 (cs : List Char) : decodeStrict (encodeUtf8 cs) = some (String.ofList cs) := by
  simp only [decodeStrict, decodeReplace_encodeUtf8, ↓reduceIte]

/-- The bytes of a character are its own code, or none of them is below 128. -/
theorem mem_encode {c : Char} {b : UInt8} (h : b ∈ String.utf8EncodeChar c) :
    b.toNat = c.toNat ∨ 128 ≤ b.toNat := by
  unfold String.utf8EncodeChar at h
  have hv : c.val.toNat < 0x110000 := by
    rcases c.valid with h | h
    · exact Nat.lt_trans h (by decide)
    · exact h.2
  change b.toNat = c.val.toNat ∨ _
  generalize c.val.toNat = v at h hv
  simp only at h
  split at h
  · obtain rfl := List.mem_singleton.1 h
    exact .inl (toNat_ofNat_byte (by omega))
  · refine .inr ?_
    split at h
    · rcases List.mem_pair.1 h with rfl | rfl <;> rw [toNat_ofNat_byte (by omega)] <;> omega
    split at h <;> simp only [List.mem_cons, List.not_mem_nil, or_false] at h
    · rcases h with rfl | rfl | rfl <;> rw [toNat_ofNat_byte (by omega)] <;> omega
    · rcases h with rfl | rfl | rfl | rfl <;> rw [toNat_ofNat_byte (by omega)] <;> omega

/-- Only the newline is encoded with the newline byte. -/
theorem newline_notMem_encodeUtf8 {cs : List Char} (h : '\n' ∉ cs) : (10 : UInt8) ∉ encodeUtf8 cs := by
  intro hmem
  obtain ⟨c, hc, hb⟩ := List.mem_flatMap.1 hmem
  rcases mem_encode hb with heq | hge
  · have hc' : c = '\n' := Char.toNat_inj.1 heq.symm
    exact h (hc' ▸ hc)
  · exact absurd hge (by decide)

end Decoding

section Lines

/-- The line boundaries of `str.splitlines`. -/
def isLineBoundary (c : Char) : Bool :=
  (0xa ≤ c.toNat ∧ c.toNat ≤ 0xd) ∨ (0x1c ≤ c.toNat ∧ c.toNat ≤ 0x1e) ∨ c.toNat = 0x85 ∨ c.toNat = 0x2028 ∨
    c.toNat = 0x2029

/-- The lines of a text whose first line starts with what is read of it already. -/
def splitlinesFrom : List Char → List Char → List (List Char)
  | line, [] => if line.isEmpty then [] else [line]
  | line, '\r' :: '\n' :: cs => line :: splitlinesFrom [] cs
  | line, c :: cs =>
    if isLineBoundary c then line :: splitlinesFrom [] cs
    else splitlinesFrom (line ++ [c]) cs

/-- `str.splitlines()`. -/
def splitlines (text : String) : List String := (splitlinesFrom [] text.toList).map String.ofList

/-- Every element up to each `stop`; what comes after the last one is left out. -/
def terminated {α : Type} [DecidableEq α] (stop : α) : List α → List α → List (List α)
  | _, [] => []
  | line, x :: xs => if x = stop then line :: terminated stop [] xs else terminated stop (line ++ [x]) xs

variable {α : Type} [DecidableEq α] {stop : α}

theorem terminated_line {xs : List α} (h : stop ∉ xs) (line rest : List α) :
    terminated stop line (xs ++ stop :: rest) = (line ++ xs) :: terminated stop [] rest := by
  induction xs generalizing line with
  | nil => simp [terminated]
  | cons x xs ih =>
    have hx : x ≠ stop := fun he => h (he ▸ List.mem_cons_self)
    rw [List.cons_append, terminated, if_neg hx, ih (fun hm => h (List.mem_cons_of_mem x hm)), List.append_assoc]
    rfl

/-- Terminated lines are found again, and the lines after them are those of the rest. -/
theorem terminated_flatMap {lines : List (List α)} (h : ∀ line ∈ lines, stop ∉ line) (rest : List α) :
    terminated stop [] (lines.flatMap (· ++ [stop]) ++ rest) = lines ++ terminated stop [] rest := by
  induction lines with
  | nil => rfl
  | cons line lines ih =>
    rw [List.flatMap_cons, List.append_assoc, List.append_assoc, List.singleton_append,
      terminated_line (h line List.mem_cons_self), List.nil_append, ih fun l hl => h l (List.mem_cons_of_mem _ hl),
      List.cons_append]

/-- A line without a carriage return at its end. -/
def withoutReturn (line : List Char) : List Char :=
  if line.getLast? = some '\r' then line.dropLast else line

theorem splitlinesFrom_plain {cs : List Char} (h : ∀ c ∈ cs, isLineBoundary c = false) (line rest : List Char) :
    splitlinesFrom line (cs ++ rest) = splitlinesFrom (line ++ cs) rest := by
  induction cs generalizing line with
  | nil => simp
  | cons c cs ih =>
    have hc := h c List.mem_cons_self
    have hr : c ≠ '\r' := fun he => by
      rw [he] at hc
      exact absurd hc (by decide)
    rw [List.cons_append, splitlinesFrom, if_neg (by simp [hc]), ih fun d hd => h d (List.mem_cons_of_mem c hd),
      List.append_assoc]
    · rfl
    · exact fun _ he => absurd he hr

/-- Lines that a newline ends and that hold no other boundary are split at their newlines. -/
theorem splitlinesFrom_flatMap {lines : List (List Char)}
    (h : ∀ line ∈ lines, ∀ c ∈ withoutReturn line, isLineBoundary c = false) :
    splitlinesFrom [] (lines.flatMap (· ++ ['\n'])) = lines.map withoutReturn := by
  induction lines with
  | nil => rfl
  | cons line lines ih =>
    have hline := h line List.mem_cons_self
    have ih := ih fun l hl => h l (List.mem_cons_of_mem _ hl)
    rw [List.flatMap_cons, List.map_cons, ← ih]
    unfold withoutReturn at hline ⊢
    split
    case isTrue hreturn =>
      rw [if_pos hreturn] at hline
      obtain ⟨body, rfl⟩ := List.getLast?_eq_some_iff.1 hreturn
      rw [List.dropLast_concat] at hline ⊢
      rw [List.append_assoc, List.append_assoc, splitlinesFrom_plain hline]
      rfl
    case isFalse hplain =>
      rw [if_neg hplain] at hline
      rw [List.append_assoc, splitlinesFrom_plain hline]
      rfl

end Lines
end PuffoAgent.Text
