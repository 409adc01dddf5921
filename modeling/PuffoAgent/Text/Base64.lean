import Mathlib.Data.List.DropRight

/-! The URL-safe base64 texts of byte strings, without their padding. -/
namespace PuffoAgent.Text

section Codec

/-- The URL-safe alphabet. -/
def base64Digit (n : Nat) : Char :=
  if n < 26 then Char.ofNat (65 + n)
  else if n < 52 then Char.ofNat (71 + n)
  else if n < 62 then Char.ofNat (n - 4)
  else if n = 62 then '-' else '_'

/-- The value of a digit; both alphabets are read. -/
def base64Value (c : Char) : Option Nat :=
  if 'A' ≤ c ∧ c ≤ 'Z' then some (c.toNat - 65)
  else if 'a' ≤ c ∧ c ≤ 'z' then some (c.toNat - 71)
  else if '0' ≤ c ∧ c ≤ '9' then some (c.toNat + 4)
  else if c = '-' ∨ c = '+' then some 62
  else if c = '_' ∨ c = '/' then some 63
  else none

/-- `base64.urlsafe_b64encode`. -/
def urlsafeB64encode : List UInt8 → List Char
  | a :: b :: c :: rest =>
    base64Digit (a.toNat / 4) :: base64Digit (a.toNat % 4 * 16 + b.toNat / 16) ::
      base64Digit (b.toNat % 16 * 4 + c.toNat / 64) :: base64Digit (c.toNat % 64) :: urlsafeB64encode rest
  | [a, b] => [base64Digit (a.toNat / 4), base64Digit (a.toNat % 4 * 16 + b.toNat / 16),
      base64Digit (b.toNat % 16 * 4), '=']
  | [a] => [base64Digit (a.toNat / 4), base64Digit (a.toNat % 4 * 16), '=', '=']
  | [] => []

/-- `binascii.a2b_base64` without strict mode: the place in the quad, the bits left over from the
last digit, and the pads seen since. Other characters are skipped, and a closed quad ends the text. -/
def a2bBase64 (quad left pads : Nat) : List Char → Option (List UInt8)
  | [] => if quad = 0 then some [] else none
  | c :: cs =>
    if c = '=' then
      if 2 ≤ quad then if 4 ≤ quad + (pads + 1) then some [] else a2bBase64 quad left (pads + 1) cs
      else a2bBase64 quad left pads cs
    else match base64Value c with
      | none => a2bBase64 quad left pads cs
      | some d => match quad with
        | 0 => a2bBase64 1 d 0 cs
        | 1 => (a2bBase64 2 (d % 16) 0 cs).map (UInt8.ofNat (left * 4 + d / 16) :: ·)
        | 2 => (a2bBase64 3 (d % 4) 0 cs).map (UInt8.ofNat (left * 16 + d / 4) :: ·)
        | _ => (a2bBase64 0 0 0 cs).map (UInt8.ofNat (left * 64 + d) :: ·)

/-- `base64.urlsafe_b64decode`, which takes ASCII texts only. -/
def urlsafeB64decode (text : List Char) : Option (List UInt8) :=
  if text.all (·.toNat < 128) then a2bBase64 0 0 0 text else none

/-- `urlsafe_b64encode(text.encode("utf-8")).decode("ascii").rstrip("=")`. -/
def encodeText (text : String) : String :=
  String.ofList ((urlsafeB64encode text.toUTF8.data.toList).rdropWhile (· = '='))

/-- `urlsafe_b64decode(text + "=" * (-len(text) % 4)).decode("utf-8")`. -/
def decodeText (text : String) : Option String := do
  let padded := text.toList ++ List.replicate ((4 - text.toList.length % 4) % 4) '='
  let bytes ← urlsafeB64decode padded
  String.fromUTF8? ⟨bytes.toArray⟩

end Codec

section RoundTrip

theorem base64Value_digit : ∀ n < 64, base64Value (base64Digit n) = some n := by decide

theorem base64Digit_ne_pad : ∀ n < 64, base64Digit n ≠ '=' := by decide

theorem base64Digit_ascii : ∀ n < 64, (base64Digit n).toNat < 128 := by decide

theorem a2b_digit {n : Nat} (h : n < 64) (quad left pads : Nat) (cs : List Char) :
    a2bBase64 quad left pads (base64Digit n :: cs) = match quad with
      | 0 => a2bBase64 1 n 0 cs
      | 1 => (a2bBase64 2 (n % 16) 0 cs).map (UInt8.ofNat (left * 4 + n / 16) :: ·)
      | 2 => (a2bBase64 3 (n % 4) 0 cs).map (UInt8.ofNat (left * 16 + n / 4) :: ·)
      | _ => (a2bBase64 0 0 0 cs).map (UInt8.ofNat (left * 64 + n) :: ·) := by
  rw [a2bBase64, if_neg (base64Digit_ne_pad n h), base64Value_digit n h]

theorem ofNat_byte {a : UInt8} {n : Nat} (h : n = a.toNat) : UInt8.ofNat n = a := by
  rw [h, UInt8.ofNat_toNat]

theorem a2b_encode (bytes : List UInt8) : a2bBase64 0 0 0 (urlsafeB64encode bytes) = some bytes := by
  fun_induction urlsafeB64encode bytes with
  | case1 a b c rest ih =>
    have ha := a.toNat_lt
    have hb := b.toNat_lt
    have hc := c.toNat_lt
    simp only [a2b_digit (by omega : a.toNat / 4 < 64), a2b_digit (by omega : a.toNat % 4 * 16 + b.toNat / 16 < 64),
      a2b_digit (by omega : b.toNat % 16 * 4 + c.toNat / 64 < 64), a2b_digit (by omega : c.toNat % 64 < 64), ih,
      Option.map_some]
    rw [ofNat_byte (by omega : _ = a.toNat), ofNat_byte (by omega : _ = b.toNat), ofNat_byte (by omega : _ = c.toNat)]
  | case2 a b =>
    have ha := a.toNat_lt
    have hb := b.toNat_lt
    simp only [a2b_digit (by omega : a.toNat / 4 < 64), a2b_digit (by omega : a.toNat % 4 * 16 + b.toNat / 16 < 64),
      a2b_digit (by omega : b.toNat % 16 * 4 < 64)]
    rw [ofNat_byte (by omega : _ = a.toNat), ofNat_byte (by omega : _ = b.toNat)]
    rfl
  | case3 a =>
    have ha := a.toNat_lt
    simp only [a2b_digit (by omega : a.toNat / 4 < 64), a2b_digit (by omega : a.toNat % 4 * 16 < 64)]
    rw [ofNat_byte (by omega : _ = a.toNat)]
    rfl
  | case4 => rfl

theorem base64Digit_alphabet : ∀ n < 64, (base64Digit n).isAlphanum = true ∨ base64Digit n = '-' ∨ base64Digit n = '_' := by
  decide

/-- The length of the text without its padding. -/
def digitCount (n : Nat) : Nat := (n + 2) / 3 * 4 - (3 - n % 3) % 3

/-- A text is its digits, padded to full quads. -/
theorem encode_split (bytes : List UInt8) : ∃ digits : List Char,
    (∀ c ∈ digits, c ≠ '=' ∧ c.toNat < 128 ∧ (c.isAlphanum = true ∨ c = '-' ∨ c = '_')) ∧
    digits.length = digitCount bytes.length ∧
    urlsafeB64encode bytes = digits ++ List.replicate ((4 - digits.length % 4) % 4) '=' := by
  have hdigit {n : Nat} (h : n < 64) : base64Digit n ≠ '=' ∧ (base64Digit n).toNat < 128 ∧
      ((base64Digit n).isAlphanum = true ∨ base64Digit n = '-' ∨ base64Digit n = '_') :=
    ⟨base64Digit_ne_pad n h, base64Digit_ascii n h, base64Digit_alphabet n h⟩
  fun_induction urlsafeB64encode bytes with
  | case1 a b c rest ih =>
    have ha := a.toNat_lt
    have hb := b.toNat_lt
    have hc := c.toNat_lt
    obtain ⟨digits, hdigits, hlength, he⟩ := ih
    refine ⟨base64Digit (a.toNat / 4) :: base64Digit (a.toNat % 4 * 16 + b.toNat / 16) ::
      base64Digit (b.toNat % 16 * 4 + c.toNat / 64) :: base64Digit (c.toNat % 64) :: digits, ?_, ?_, ?_⟩
    · simp only [List.forall_mem_cons]
      exact ⟨hdigit (by omega), hdigit (by omega), hdigit (by omega), hdigit (by omega), hdigits⟩
    · simp only [List.length_cons, hlength, digitCount]
      omega
    · rw [he]
      simp only [List.length_cons, List.cons_append, Nat.add_assoc, Nat.reduceAdd, Nat.add_mod_right]
  | case2 a b =>
    have ha := a.toNat_lt
    have hb := b.toNat_lt
    refine ⟨[_, _, _], ?_, ?_, rfl⟩
    · simp only [List.forall_mem_cons]
      exact ⟨hdigit (by omega), hdigit (by omega), hdigit (by omega), nofun⟩
    · simp [digitCount]
  | case3 a =>
    have ha := a.toNat_lt
    refine ⟨[_, _], ?_, ?_, rfl⟩
    · simp only [List.forall_mem_cons]
      exact ⟨hdigit (by omega), hdigit (by omega), nofun⟩
    · simp [digitCount]
  | case4 => exact ⟨[], nofun, rfl, rfl⟩

theorem rstrip_pads {digits : List Char} (h : ∀ c ∈ digits, c ≠ '=') (n : Nat) :
    (digits ++ List.replicate n '=').rdropWhile (· = '=') = digits := by
  rw [List.rdropWhile, List.reverse_append, List.reverse_replicate, List.dropWhile_append_of_pos (by simp)]
  cases hd : digits.reverse with
  | nil => simpa using hd
  | cons c cs =>
    have hc : c ≠ '=' := h c (List.mem_reverse.mp (hd ▸ List.mem_cons_self))
    rw [List.dropWhile_cons_of_neg (by simpa using hc), ← hd, List.reverse_reverse]

/-- Without the padding, which is put back from the length, the bytes are read again. -/
theorem urlsafeB64decode_stripped (data : List UInt8) {digits : List Char}
    (hstrip : (urlsafeB64encode data).rdropWhile (· = '=') = digits) :
    urlsafeB64decode (digits ++ List.replicate ((4 - digits.length % 4) % 4) '=') = some data := by
  obtain ⟨digits', hdigits, -, he⟩ := encode_split data
  obtain rfl : digits' = digits := by rw [← hstrip, he, rstrip_pads fun c hc => (hdigits c hc).1]
  have hascii : (urlsafeB64encode data).all (fun c => decide (c.toNat < 128)) = true := by
    rw [he, List.all_append, Bool.and_eq_true, List.all_eq_true, List.all_eq_true]
    refine ⟨fun c hc => by simpa using (hdigits c hc).2.1, fun c hc => ?_⟩
    rw [List.eq_of_mem_replicate hc]
    decide
  rw [← he, urlsafeB64decode, if_pos hascii, a2b_encode]

/-- What `_encode_inbox_cursor` makes of a text is read back. -/
theorem decodeText_encodeText (text : String) : decodeText (encodeText text) = some text := by
  rw [decodeText, encodeText, String.toList_ofList, urlsafeB64decode_stripped _ rfl]
  exact dif_pos text.isValidUTF8

end RoundTrip
end PuffoAgent.Text
