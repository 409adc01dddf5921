import PuffoAgent.Text.Json

/-! `json.loads`, and that it reads back what `json.dumps` writes. -/
namespace PuffoAgent.Text.Json

def isJsonSpace (c : Char) : Bool := c = ' ' ∨ c = '\t' ∨ c = '\n' ∨ c = '\r'

def skipSpace (cs : List Char) : List Char := cs.dropWhile isJsonSpace

section Strings

def hexValue (c : Char) : Option Nat :=
  if '0' ≤ c ∧ c ≤ '9' then some (c.toNat - '0'.toNat)
  else if 'a' ≤ c ∧ c ≤ 'f' then some (c.toNat - 'a'.toNat + 10)
  else if 'A' ≤ c ∧ c ≤ 'F' then some (c.toNat - 'A'.toNat + 10)
  else none

/-- The four digits of a code unit. -/
def readUnit : List Char → Option (Nat × List Char)
  | a :: b :: c :: d :: cs => do
    let a ← hexValue a
    let b ← hexValue b
    let c ← hexValue c
    let d ← hexValue d
    return (a * 4096 + b * 256 + c * 16 + d, cs)
  | _ => none

/-- The character after `\u`. A pair of surrogates is one character; a lone one is none. -/
def readUnicode (cs : List Char) : Option (Char × List Char) := do
  let (high, rest) ← readUnit cs
  if 0xd800 ≤ high ∧ high < 0xdc00 then
    match rest with
    | '\\' :: 'u' :: rest => do
      let (low, rest) ← readUnit rest
      if 0xdc00 ≤ low ∧ low < 0xe000 then
        return (Char.ofNat (0x10000 + (high - 0xd800) * 0x400 + (low - 0xdc00)), rest)
      else none
    | _ => none
  else if 0xdc00 ≤ high ∧ high < 0xe000 then none
  else return (Char.ofNat high, rest)

def unescape (c : Char) : Option Char :=
  if c = '"' then some '"'
  else if c = '\\' then some '\\'
  else if c = '/' then some '/'
  else if c = 'b' then some '\x08'
  else if c = 'f' then some '\x0c'
  else if c = 'n' then some '\n'
  else if c = 'r' then some '\r'
  else if c = 't' then some '\t'
  else none

/-- One character of a string body. Controls have to be escaped. -/
def readChar : List Char → Option (Char × List Char)
  | '\\' :: c :: cs => if c = 'u' then readUnicode cs else (unescape c).map (·, cs)
  | c :: cs => if c = '\\' ∨ c.toNat < 0x20 then none else some (c, cs)
  | [] => none

/-- A string body, up to its closing quote. -/
def readString : Nat → List Char → Option (List Char × List Char)
  | 0, _ => none
  | n + 1, cs =>
    if cs.head? = some '"' then some ([], cs.tail)
    else do
      let (c, rest) ← readChar cs
      let (body, rest) ← readString n rest
      return (c :: body, rest)

def readQuoted (cs : List Char) : Option (String × List Char) :=
  (readString (cs.length + 1) cs).map fun (body, rest) => (String.ofList body, rest)

end Strings

section Values

def intOfText : List Char → Int
  | '-' :: word => -(Nat.ofDigitChars 10 word 0 : Int)
  | word => Nat.ofDigitChars 10 word 0

/-- A literal name or a number. -/
def readScalar (word : List Char) : Option Json :=
  if word = "null".toList then some .null
  else if word = "true".toList then some (.bool true)
  else if word = "false".toList then some (.bool false)
  else if isIntText word then some (.int (intOfText word))
  else if h : isFloatText word then
    some (.float ⟨String.ofList word, by rwa [String.toList_ofList]⟩)
  else none

mutual
def readValue : Nat → List Char → Option (Json × List Char)
  | 0, _ => none
  | n + 1, cs =>
    match skipSpace cs with
    | [] => none
    | c :: cs =>
      if c = '"' then (readQuoted cs).map fun (s, rest) => (.str s, rest)
      else if c = '[' then
        if (skipSpace cs).head? = some ']' then some (.arr [], (skipSpace cs).tail)
        else (readItems n cs).map fun (items, rest) => (.arr items, rest)
      else if c = '\x7b' then
        if (skipSpace cs).head? = some '\x7d' then some (.obj [], (skipSpace cs).tail)
        else (readMembers n cs).map fun (members, rest) => (.obj members, rest)
      else (readScalar ((c :: cs).takeWhile isScalarChar)).map
        (·, (c :: cs).dropWhile isScalarChar)

/-- The items of an array that is not empty, up to its closing bracket. -/
def readItems : Nat → List Char → Option (List Json × List Char)
  | 0, _ => none
  | n + 1, cs => do
    let (item, rest) ← readValue n cs
    match skipSpace rest with
    | ',' :: rest => do
      let (items, rest) ← readItems n rest
      return (item :: items, rest)
    | ']' :: rest => return ([item], rest)
    | _ => none

/-- The members of an object that is not empty, in the order of the text: `member` reads
the last of equal keys. -/
def readMembers : Nat → List Char → Option (List (String × Json) × List Char)
  | 0, _ => none
  | n + 1, cs =>
    match skipSpace cs with
    | '"' :: cs => do
      let (key, rest) ← readQuoted cs
      match skipSpace rest with
      | ':' :: rest => do
        let (item, rest) ← readValue n rest
        match skipSpace rest with
        | ',' :: rest => do
          let (members, rest) ← readMembers n rest
          return ((key, item) :: members, rest)
        | '\x7d' :: rest => return ([(key, item)], rest)
        | _ => none
      | _ => none
    | _ => none
end

/-- `json.loads`. -/
def loads (text : String) : Option Json := do
  let (value, rest) ← readValue (text.toList.length + 1) text.toList
  if skipSpace rest = [] then return value else none

end Values

section StringRoundTrip

theorem hexValue_digitChar : ∀ n < 16, hexValue (Nat.digitChar n) = some n := by decide

theorem readUnit_control {n : Nat} (h : n < 0x20) (rest : List Char) :
    readUnit ('0' :: '0' :: Nat.digitChar (n / 16) :: Nat.digitChar (n % 16) :: rest) =
      some (n, rest) := by
  have zero : hexValue '0' = some 0 := by decide
  have high := hexValue_digitChar (n / 16) (by omega)
  have low := hexValue_digitChar (n % 16) (by omega)
  simp only [readUnit, zero, high, low, Option.bind_eq_bind, Option.bind_some, Option.pure_def]
  congr 2
  omega

theorem readUnicode_control {c : Char} (h : c.toNat < 0x20) (rest : List Char) :
    readUnicode ('0' :: '0' :: Nat.digitChar (c.toNat / 16) :: Nat.digitChar (c.toNat % 16) :: rest) =
      some (c, rest) := by
  simp only [readUnicode, readUnit_control h, Option.bind_eq_bind, Option.bind_some]
  rw [if_neg (by omega), if_neg (by omega), Char.ofNat_toNat]
  rfl

theorem readChar_escapeChar (c : Char) (rest : List Char) :
    readChar ((escapeChar c).toList ++ rest) = some (c, rest) := by
  unfold escapeChar
  split_ifs with h1 h2 h3 h4 h5 h6 h7 h8
  all_goals try (subst_vars; rfl)
  · have split : ("\\u00" ++ String.ofList [Nat.digitChar (c.toNat / 16), Nat.digitChar (c.toNat % 16)]).toList
        ++ rest = '\\' :: 'u' :: '0' :: '0' :: Nat.digitChar (c.toNat / 16) ::
          Nat.digitChar (c.toNat % 16) :: rest := by
      simp
    rw [split]
    exact readUnicode_control h8 rest
  · have plain : c.toString.toList ++ rest = c :: rest := by simp [Char.toString]
    rw [plain]
    unfold readChar
    split
    · rename_i heq; injection heq with h; exact absurd h h2
    · rename_i heq; injection heq with h h'; subst h h'; rw [if_neg (by simp [h2, h8])]
    · rename_i heq; cases heq

theorem escapeChar_head (c : Char) : ∃ d ds, (escapeChar c).toList = d :: ds ∧ d ≠ '"' := by
  unfold escapeChar
  split_ifs with h1 h2 h3 h4 h5 h6 h7 h8
  all_goals first
    | exact ⟨_, _, rfl, by decide⟩
    | skip
  · exact ⟨'\\', 'u' :: '0' :: '0' :: Nat.digitChar (c.toNat / 16) :: [Nat.digitChar (c.toNat % 16)],
      by simp, by decide⟩
  · exact ⟨c, [], by simp [Char.toString], h1⟩

/-- Escapes that are read back, and that never begin like the closing quote. -/
structure Readable (escape : Char → String) : Prop where
  read : ∀ c rest, readChar ((escape c).toList ++ rest) = some (c, rest)
  head : ∀ c, ∃ d ds, (escape c).toList = d :: ds ∧ d ≠ '"'

theorem readable_escapeChar : Readable escapeChar := ⟨readChar_escapeChar, escapeChar_head⟩

theorem hexValue_hex (n : Nat) : hexValue (Nat.digitChar (n % 16)) = some (n % 16) :=
  hexValue_digitChar _ (Nat.mod_lt _ (by decide))

theorem readUnit_hex4 {n : Nat} (h : n < 0x10000) (rest : List Char) :
    readUnit ((hex4 n).toList ++ rest) = some (n, rest) := by
  simp only [hex4, String.toList_ofList, List.cons_append, List.nil_append, readUnit, hexValue_hex,
    Option.bind_eq_bind, Option.bind_some, Option.pure_def]
  congr 2
  omega

theorem toNat_valid (c : Char) : c.toNat < 0xd800 ∨ (0xdfff < c.toNat ∧ c.toNat < 0x110000) := c.valid

theorem readUnicode_unit {c : Char} (h : c.toNat < 0x10000) (rest : List Char) :
    readUnicode ((hex4 c.toNat).toList ++ rest) = some (c, rest) := by
  have hvalid := toNat_valid c
  simp only [readUnicode, readUnit_hex4 h, Option.bind_eq_bind, Option.bind_some]
  rw [if_neg (by omega), if_neg (by omega), Char.ofNat_toNat]
  rfl

/-- Two code units are read as the one character they stand for. -/
theorem readUnicode_units {high low : Nat} (hh : 0xd800 ≤ high ∧ high < 0xdc00) (hl : 0xdc00 ≤ low ∧ low < 0xe000)
    (rest : List Char) : readUnicode ((hex4 high).toList ++ '\\' :: 'u' :: ((hex4 low).toList ++ rest)) =
      some (Char.ofNat (0x10000 + (high - 0xd800) * 0x400 + (low - 0xdc00)), rest) := by
  simp only [readUnicode, readUnit_hex4 (by omega : high < 0x10000), readUnit_hex4 (by omega : low < 0x10000),
    Option.bind_eq_bind, Option.bind_some]
  rw [if_pos hh, if_pos hl]
  rfl

theorem readUnicode_pair {c : Char} (h : 0x10000 ≤ c.toNat) (rest : List Char) :
    readUnicode ((hex4 (0xd800 + (c.toNat - 0x10000) / 0x400)).toList ++
      '\\' :: 'u' :: ((hex4 (0xdc00 + (c.toNat - 0x10000) % 0x400)).toList ++ rest)) = some (c, rest) := by
  have hvalid := toNat_valid c
  rw [readUnicode_units (by omega) (by omega)]
  have hsum : 0x10000 + (0xd800 + (c.toNat - 0x10000) / 0x400 - 0xd800) * 0x400 +
      (0xdc00 + (c.toNat - 0x10000) % 0x400 - 0xdc00) = c.toNat := by omega
  rw [hsum, Char.ofNat_toNat]

theorem readable_escapeAscii : Readable escapeAscii := by
  constructor
  · intro c rest
    unfold escapeAscii
    split_ifs with h1 h2
    · exact readChar_escapeChar c rest
    · rw [String.toList_append, List.append_assoc]
      exact readUnicode_unit h2 rest
    · simp only [String.toList_append, List.append_assoc]
      exact readUnicode_pair (Nat.le_of_not_lt h2) rest
  · intro c
    unfold escapeAscii
    split_ifs
    · exact escapeChar_head c
    · exact ⟨'\\', _, String.toList_append, by decide⟩
    · exact ⟨'\\', _, by simp only [String.toList_append, List.append_assoc]; rfl, by decide⟩

section Escaped
variable {escape : Char → String}

theorem readString_escaped (he : Readable escape) (cs rest : List Char) (n : Nat) (h : cs.length < n) :
    readString n (cs.flatMap (fun c => (escape c).toList) ++ '"' :: rest) = some (cs, rest) := by
  induction cs generalizing n with
  | nil =>
    obtain ⟨n, rfl⟩ := Nat.exists_eq_add_one_of_ne_zero (by omega : n ≠ 0)
    rfl
  | cons c cs ih =>
    obtain ⟨n, rfl⟩ := Nat.exists_eq_add_one_of_ne_zero (by omega : n ≠ 0)
    obtain ⟨d, ds, heq, hd⟩ := he.head c
    have head : ((c :: cs).flatMap (fun c => (escape c).toList) ++ '"' :: rest).head? ≠ some '"' := by
      simp [heq, hd]
    rw [readString, if_neg head, List.flatMap_cons, List.append_assoc, he.read]
    simp [ih n (by simpa using h)]

theorem length_le_escaped (he : Readable escape) (cs : List Char) :
    cs.length ≤ (cs.flatMap (fun c => (escape c).toList)).length := by
  induction cs with
  | nil => simp
  | cons c cs ih =>
    obtain ⟨d, ds, heq, -⟩ := he.head c
    simp only [List.flatMap_cons, List.length_append, List.length_cons, heq]
    omega

theorem toList_quoteWith (s : String) (rest : List Char) :
    (quoteWith escape s).toList ++ rest =
      '"' :: (s.toList.flatMap (fun c => (escape c).toList) ++ '"' :: rest) := by
  simp [quoteWith, escapeWith, List.flatMap_map]

theorem readQuoted_escaped (he : Readable escape) (s : String) (rest : List Char) :
    readQuoted (s.toList.flatMap (fun c => (escape c).toList) ++ '"' :: rest) = some (s, rest) := by
  have long := length_le_escaped he s.toList
  rw [readQuoted, readString_escaped he _ _ _ (by simp only [List.length_append]; omega)]
  simp

end Escaped

end StringRoundTrip

section ScalarRoundTrip

theorem toDigits_ten_head (n : Nat) : n = 0 ∨ (Nat.toDigits 10 n).head?.any (· ≠ '0') := by
  induction n using Nat.strongRecOn with
  | _ n ih =>
    rw [Nat.toDigits_eq_if (by decide)]
    split
    · by_cases h : n = 0
      · exact .inl h
      · exact .inr (by simp [h])
    · have pos : n / 10 ≠ 0 := by omega
      have head := (ih (n / 10) (by omega)).resolve_left pos
      right
      rw [List.head?_append_of_ne_nil _ Nat.toDigits_ne_nil]
      exact head

theorem isNatText_toDigits (n : Nat) : isNatText (Nat.toDigits 10 n) := by
  by_cases h : n = 0
  · subst h; decide
  · have digits : (Nat.toDigits 10 n).all Char.isDigit := by
      rw [List.all_eq_true]
      intro c hc
      exact Nat.isDigit_of_mem_toDigits (by decide) (by decide) hc
    simp only [isNatText, decide_eq_true_eq]
    exact .inr ⟨digits, (toDigits_ten_head n).resolve_left h⟩

theorem toDigits_ne_minus (n : Nat) (ds : List Char) : Nat.toDigits 10 n ≠ '-' :: ds := by
  intro h
  have digit : ('-').isDigit := Nat.isDigit_of_mem_toDigits (n := n) (by decide : 0 < 10) (by decide)
    (by rw [h]; simp)
  exact absurd digit (by decide)

/-- The text of an integer. -/
def intText (n : Int) : List Char :=
  if 0 ≤ n then Nat.toDigits 10 n.toNat else '-' :: Nat.toDigits 10 (-n).toNat

theorem toList_toString_int (n : Int) : (toString n).toList = intText n := by
  rw [Int.toString_eq_repr, Int.repr_eq_if, intText]
  split <;> simp

theorem isIntText_intText (n : Int) : isIntText (intText n) := by
  unfold intText
  split
  · unfold isIntText
    split
    · rename_i heq
      exact absurd heq (toDigits_ne_minus _ _)
    · exact isNatText_toDigits _
  · exact isNatText_toDigits _

theorem intOfText_intText (n : Int) : intOfText (intText n) = n := by
  unfold intText
  split
  · unfold intOfText
    split
    · rename_i heq
      exact absurd heq (toDigits_ne_minus _ _)
    · rw [Nat.ofDigitChars_toDigits (by decide) (by decide)]
      omega
  · rw [intOfText, Nat.ofDigitChars_toDigits (by decide) (by decide)]
    omega

theorem isScalarChar_toDigits {n : Nat} {c : Char} (h : c ∈ Nat.toDigits 10 n) : isScalarChar c := by
  have digit := Nat.isDigit_of_mem_toDigits (by decide) (by decide) h
  simp [isScalarChar, Char.isAlphanum, digit]

theorem all_isScalarChar_intText (n : Int) : (intText n).all isScalarChar := by
  rw [List.all_eq_true]
  intro c hc
  unfold intText at hc
  split at hc
  · exact isScalarChar_toDigits hc
  · rcases List.mem_cons.mp hc with rfl | hc
    · decide
    · exact isScalarChar_toDigits hc

/-- The word a scalar is written as. -/
inductive ScalarText : Json → List Char → Prop
  | null : ScalarText .null "null".toList
  | bool (b : Bool) : ScalarText (.bool b) (if b then "true" else "false").toList
  | int (n : Int) : ScalarText (.int n) (intText n)
  | float (f : FloatText) : ScalarText (.float f) f.text.toList

theorem ScalarText.all_isScalarChar {v : Json} {word : List Char} (h : ScalarText v word) :
    word.all isScalarChar := by
  cases h with
  | null => decide
  | bool b => cases b <;> decide
  | int n => exact all_isScalarChar_intText n
  | float f =>
    have valid := f.isFloat
    simp only [isFloatText, Bool.decide_and, Bool.and_eq_true, decide_eq_true_eq] at valid
    exact valid.1

theorem ScalarText.read {v : Json} {word : List Char} (h : ScalarText v word) :
    readScalar word = some v := by
  cases h with
  | null => rfl
  | bool b => cases b <;> rfl
  | int n =>
    have isInt := isIntText_intText n
    have name : ∀ w, isIntText w = false → intText n ≠ w := by
      rintro w hw rfl
      rw [isInt] at hw
      cases hw
    rw [readScalar, if_neg (name _ (by decide)), if_neg (name _ (by decide)), if_neg (name _ (by decide)),
      if_pos isInt, intOfText_intText]
  | float f =>
    have isFloat := f.isFloat
    have name : ∀ w, isFloatText w = false → f.text.toList ≠ w := by
      rintro w hw rfl
      rw [isFloat] at hw
      cases hw
    have notInt : ¬ isIntText f.text.toList := by
      intro isInt
      have hf := isFloat
      simp only [isFloatText, Bool.decide_and, Bool.and_eq_true, decide_eq_true_eq, isInt] at hf
      rcases hf.2 with h | h | h | h
      · exact h.2 trivial
      all_goals rw [h] at isInt; exact absurd isInt (by decide)
    rw [readScalar, if_neg (name _ (by decide)), if_neg (name _ (by decide)), if_neg (name _ (by decide)),
      if_neg notInt, dif_pos isFloat]
    congr
    exact String.ofList_toList

theorem ScalarText.ne_nil {v : Json} {word : List Char} (h : ScalarText v word) : word ≠ [] := by
  rintro rfl
  have read := h.read
  cases read

end ScalarRoundTrip

section ValueRoundTrip

/-- The text after a value does not go on with the value's last word. -/
def Stops (rest : List Char) : Prop := ∀ c ∈ rest.head?, isScalarChar c = false

theorem takeWhile_word {word rest : List Char} (h : word.all isScalarChar) (stop : Stops rest) :
    (word ++ rest).takeWhile isScalarChar = word := by
  rw [List.takeWhile_append_of_pos (by simpa using h)]
  cases rest with
  | nil => simp
  | cons c cs => simp [stop c rfl]

theorem dropWhile_word {word rest : List Char} (h : word.all isScalarChar) (stop : Stops rest) :
    (word ++ rest).dropWhile isScalarChar = rest := by
  rw [List.dropWhile_append_of_pos (by simpa using h)]
  cases rest with
  | nil => simp
  | cons c cs => simp [stop c rfl]

theorem skipSpace_cons {c : Char} {cs : List Char} (h : isJsonSpace c = false) :
    skipSpace (c :: cs) = c :: cs := by
  simp [skipSpace, h]

theorem ne_of_isScalarChar {c d : Char} (hc : isScalarChar c) (hd : isScalarChar d = false) : c ≠ d := by
  rintro rfl
  rw [hc] at hd
  cases hd

theorem not_isJsonSpace {c : Char} (h : isScalarChar c) : isJsonSpace c = false := by
  simp [isJsonSpace, ne_of_isScalarChar h (by decide : isScalarChar ' ' = false),
    ne_of_isScalarChar h (by decide : isScalarChar '\t' = false),
    ne_of_isScalarChar h (by decide : isScalarChar '\n' = false),
    ne_of_isScalarChar h (by decide : isScalarChar '\r' = false)]

theorem ScalarText.readValue {v : Json} {word : List Char} (h : ScalarText v word) (n : Nat)
    {rest : List Char} (stop : Stops rest) : readValue (n + 1) (word ++ rest) = some (v, rest) := by
  have all := h.all_isScalarChar
  obtain ⟨c, cs, rfl⟩ := List.exists_cons_of_ne_nil h.ne_nil
  have scalar : isScalarChar c := by simpa using (List.all_eq_true.mp all) c (by simp)
  rw [List.cons_append, Json.readValue, skipSpace_cons (not_isJsonSpace scalar)]
  simp only [if_neg (ne_of_isScalarChar scalar (by decide : isScalarChar '"' = false)),
    if_neg (ne_of_isScalarChar scalar (by decide : isScalarChar '[' = false)),
    if_neg (ne_of_isScalarChar scalar (by decide : isScalarChar '\x7b' = false))]
  rw [← List.cons_append, takeWhile_word all stop, dropWhile_word all stop, h.read]
  rfl

def itemsText (escape : Char → String) (items : List Json) : List Char :=
  (",".intercalate (dumpsItems escape items)).toList

def membersText (escape : Char → String) (members : List (String × Json)) : List Char :=
  (",".intercalate (dumpsMembers escape members)).toList

variable {escape : Char → String}

theorem toList_dumps_arr (items : List Json) :
    (dumpsWith escape (.arr items)).toList = '[' :: (itemsText escape items ++ [']']) := by
  rw [dumpsWith, String.toList_append, String.toList_append]
  rfl

theorem toList_dumps_obj (members : List (String × Json)) :
    (dumpsWith escape (.obj members)).toList = '\x7b' :: (membersText escape members ++ ['\x7d']) := by
  rw [dumpsWith, String.toList_append, String.toList_append]
  rfl

/-- How the text of a value begins. -/
theorem dumps_head (v : Json) : ∃ c cs, (v.dumpsWith escape).toList = c :: cs ∧
    isJsonSpace c = false ∧ c ≠ ']' := by
  have word : ∀ {word : List Char}, ScalarText v word → ∃ c cs, word = c :: cs ∧
      isJsonSpace c = false ∧ c ≠ ']' := by
    intro word h
    obtain ⟨c, cs, rfl⟩ := List.exists_cons_of_ne_nil h.ne_nil
    have scalar : isScalarChar c := by simpa using (List.all_eq_true.mp h.all_isScalarChar) c (by simp)
    exact ⟨c, cs, rfl, not_isJsonSpace scalar, ne_of_isScalarChar scalar (by decide)⟩
  cases v with
  | null => exact word .null
  | bool b => exact word (.bool b)
  | int n =>
    rw [dumpsWith, toList_toString_int]
    exact word (.int n)
  | float f => exact word (.float f)
  | str s =>
    refine ⟨'"', s.toList.flatMap (fun c => (escape c).toList) ++ ['"'], ?_, by decide, by decide⟩
    rw [dumpsWith]
    simpa using toList_quoteWith s []
  | arr items => exact ⟨'[', _, toList_dumps_arr items, by decide, by decide⟩
  | obj members => exact ⟨'\x7b', _, toList_dumps_obj members, by decide, by decide⟩

theorem itemsText_singleton (v : Json) : itemsText escape [v] = (v.dumpsWith escape).toList := by
  simp [itemsText, dumpsItems]

theorem itemsText_cons_cons (v w : Json) (vs : List Json) :
    itemsText escape (v :: w :: vs) = (v.dumpsWith escape).toList ++ ',' :: itemsText escape (w :: vs) := by
  simp [itemsText, dumpsItems]

theorem membersText_singleton (k : String) (v : Json) :
    membersText escape [(k, v)] = (quoteWith escape k).toList ++ ':' :: (v.dumpsWith escape).toList := by
  simp [membersText, dumpsMembers]

theorem membersText_cons_cons (k : String) (v : Json) (m : String × Json) (ms : List (String × Json)) :
    membersText escape ((k, v) :: m :: ms) = (quoteWith escape k).toList ++ ':' ::
      ((v.dumpsWith escape).toList ++ ',' :: membersText escape (m :: ms)) := by
  simp [membersText, dumpsMembers]

theorem itemsText_head (v : Json) (vs : List Json) : ∃ c cs, itemsText escape (v :: vs) = c :: cs ∧
    isJsonSpace c = false ∧ c ≠ ']' := by
  obtain ⟨c, cs, head, space, close⟩ := dumps_head v
  cases vs with
  | nil => exact ⟨c, cs, by rw [itemsText_singleton, head], space, close⟩
  | cons w vs =>
    exact ⟨c, cs ++ ',' :: itemsText escape (w :: vs), by rw [itemsText_cons_cons, head, List.cons_append],
      space, close⟩

theorem membersText_head (k : String) (v : Json) (ms : List (String × Json)) :
    ∃ cs, membersText escape ((k, v) :: ms) = '"' :: cs := by
  cases ms with
  | nil => exact ⟨_, by rw [membersText_singleton, toList_quoteWith]⟩
  | cons m ms => exact ⟨_, by rw [membersText_cons_cons, toList_quoteWith]⟩

/-- `n` levels of recursion are enough for every text of at most that length. -/
structure ReadsBack (escape : Char → String) (n : Nat) : Prop where
  value : ∀ (v : Json) (rest : List Char), (v.dumpsWith escape).toList.length ≤ n → Stops rest →
    readValue n ((v.dumpsWith escape).toList ++ rest) = some (v, rest)
  items : ∀ (v : Json) (vs : List Json) (rest : List Char), (itemsText escape (v :: vs)).length < n →
    readItems n (itemsText escape (v :: vs) ++ ']' :: rest) = some (v :: vs, rest)
  members : ∀ (k : String) (v : Json) (ms : List (String × Json)) (rest : List Char),
    (membersText escape ((k, v) :: ms)).length < n →
    readMembers n (membersText escape ((k, v) :: ms) ++ '\x7d' :: rest) = some ((k, v) :: ms, rest)

namespace ReadsBack
variable {n : Nat} (ih : ReadsBack escape n)
include ih

theorem value_succ (he : Readable escape) (v : Json) (rest : List Char)
    (hn : (v.dumpsWith escape).toList.length ≤ n + 1) (stop : Stops rest) :
    readValue (n + 1) ((v.dumpsWith escape).toList ++ rest) = some (v, rest) := by
  match v with
  | .null => exact ScalarText.null.readValue n stop
  | .bool b => exact (ScalarText.bool b).readValue n stop
  | .int m =>
    rw [dumpsWith, toList_toString_int]
    exact (ScalarText.int m).readValue n stop
  | .float f => exact (ScalarText.float f).readValue n stop
  | .str s =>
    rw [dumpsWith, toList_quoteWith, readValue, skipSpace_cons (by decide)]
    simp [readQuoted_escaped he]
  | .arr [] =>
    rw [dumpsWith, dumpsItems]
    rfl
  | .arr (v :: vs) =>
    rw [toList_dumps_arr] at hn ⊢
    simp only [List.length_cons, List.length_append] at hn
    obtain ⟨d, ds, first, space, close⟩ := itemsText_head v vs
    have more : (skipSpace (itemsText escape (v :: vs) ++ ']' :: rest)).head? ≠ some ']' := by
      rw [first, List.cons_append, skipSpace_cons space]
      simpa using close
    rw [List.cons_append, List.append_assoc, List.singleton_append, readValue,
      skipSpace_cons (by decide)]
    simp only [if_neg more, ih.items v vs rest (by omega)]
    rfl
  | .obj [] =>
    rw [dumpsWith, dumpsMembers]
    rfl
  | .obj ((k, v) :: ms) =>
    rw [toList_dumps_obj] at hn ⊢
    simp only [List.length_cons, List.length_append] at hn
    obtain ⟨ds, first⟩ := membersText_head k v ms
    have more : (skipSpace (membersText escape ((k, v) :: ms) ++ '\x7d' :: rest)).head? ≠ some '\x7d' := by
      rw [first, List.cons_append, skipSpace_cons (by decide)]
      simp
    rw [List.cons_append, List.append_assoc, List.singleton_append, readValue,
      skipSpace_cons (by decide)]
    simp only [if_neg more, ih.members k v ms rest (by omega)]
    rfl

theorem items_succ (v : Json) (vs : List Json) (rest : List Char)
    (hn : (itemsText escape (v :: vs)).length < n + 1) :
    readItems (n + 1) (itemsText escape (v :: vs) ++ ']' :: rest) = some (v :: vs, rest) := by
  cases vs with
  | nil =>
    rw [itemsText_singleton] at hn ⊢
    rw [readItems, ih.value v _ (by omega) (by rintro c ⟨⟩; decide)]
    rfl
  | cons w vs =>
    rw [itemsText_cons_cons] at hn ⊢
    simp only [List.length_append, List.length_cons] at hn
    rw [List.append_assoc, readItems, ih.value v _ (by omega) (by rintro c ⟨⟩; decide)]
    simp only [List.cons_append, Option.bind_eq_bind, Option.bind_some,
      skipSpace_cons (by decide : isJsonSpace ',' = false), ih.items w vs rest (by omega)]
    rfl

theorem members_succ (he : Readable escape) (k : String) (v : Json) (ms : List (String × Json)) (rest : List Char)
    (hn : (membersText escape ((k, v) :: ms)).length < n + 1) :
    readMembers (n + 1) (membersText escape ((k, v) :: ms) ++ '\x7d' :: rest) = some ((k, v) :: ms, rest) := by
  cases ms with
  | nil =>
    rw [membersText_singleton] at hn ⊢
    simp only [List.length_append, List.length_cons] at hn
    rw [List.append_assoc, toList_quoteWith, readMembers, skipSpace_cons (by decide)]
    simp only [readQuoted_escaped he, List.cons_append, Option.bind_eq_bind, Option.bind_some,
      skipSpace_cons (by decide : isJsonSpace ':' = false)]
    rw [ih.value v _ (by omega) (by rintro c ⟨⟩; decide)]
    rfl
  | cons m ms =>
    obtain ⟨l, w⟩ := m
    rw [membersText_cons_cons] at hn ⊢
    simp only [List.length_append, List.length_cons] at hn
    rw [List.append_assoc, toList_quoteWith, readMembers, skipSpace_cons (by decide)]
    simp only [readQuoted_escaped he, List.cons_append, List.append_assoc, Option.bind_eq_bind,
      Option.bind_some, skipSpace_cons (by decide : isJsonSpace ':' = false)]
    rw [ih.value v _ (by omega) (by rintro c ⟨⟩; decide)]
    simp only [Option.bind_some, skipSpace_cons (by decide : isJsonSpace ',' = false),
      ih.members l w ms rest (by omega)]
    rfl

end ReadsBack

theorem readsBack (he : Readable escape) (n : Nat) : ReadsBack escape n := by
  induction n with
  | zero =>
    refine ⟨?_, fun _ _ _ h => absurd h (by omega), fun _ _ _ _ h => absurd h (by omega)⟩
    intro v rest h
    obtain ⟨c, cs, head, -⟩ := dumps_head v
    rw [head, List.length_cons] at h
    omega
  | succ n ih => exact ⟨ih.value_succ he, ih.items_succ, ih.members_succ he⟩

theorem loads_dumpsWith (he : Readable escape) (v : Json) : loads (v.dumpsWith escape) = some v := by
  have read := (readsBack he _).value v [] (Nat.le_succ _) (by rintro c ⟨⟩)
  rw [List.append_nil] at read
  rw [loads, read]
  rfl

/-- What `json.dumps` writes, `json.loads` reads back. -/
theorem loads_dumps (v : Json) : loads v.dumps = some v := loads_dumpsWith readable_escapeChar v

theorem loads_dumpsAscii (v : Json) : loads v.dumpsAscii = some v := loads_dumpsWith readable_escapeAscii v

end ValueRoundTrip
end PuffoAgent.Text.Json
