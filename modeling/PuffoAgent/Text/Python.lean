import PuffoAgent.Text.Json

/-! The text operations of the host language that the store and the projection rely on. -/
namespace PuffoAgent.Text

/-- `str.isspace` of one character. -/
def isSpace (c : Char) : Bool :=
  (0x9 ≤ c.toNat ∧ c.toNat ≤ 0xd) ∨ (0x1c ≤ c.toNat ∧ c.toNat ≤ 0x20) ∨ c.toNat = 0x85 ∨
    c.toNat = 0xa0 ∨ c.toNat = 0x1680 ∨ (0x2000 ≤ c.toNat ∧ c.toNat ≤ 0x200a) ∨ c.toNat = 0x2028 ∨
    c.toNat = 0x2029 ∨ c.toNat = 0x202f ∨ c.toNat = 0x205f ∨ c.toNat = 0x3000

/-- `str.strip()`. -/
def strip (s : String) : String :=
  String.ofList (((s.toList.dropWhile isSpace).reverse.dropWhile isSpace).reverse)

/-- `str.split(sep)` on characters: one piece more than there are separators. -/
def splitChars (sep : Char) : List Char → List (List Char)
  | [] => [[]]
  | c :: cs =>
    if c = sep then [] :: splitChars sep cs
    else match splitChars sep cs with
      | [] => [[c]]
      | piece :: pieces => (c :: piece) :: pieces

def split (s : String) (sep : Char) : List String := (splitChars sep s.toList).map String.ofList

/-- A sequence of calls that may raise returns when each of them does. -/
theorem except_bind_ok_iff {ε α β : Type} {x : Except ε α} {f : α → Except ε β} {b : β} :
    (x >>= f) = .ok b ↔ ∃ a, x = .ok a ∧ f a = .ok b := by
  cases x with
  | error e => simp [bind, Except.bind]
  | ok a => simp [bind, Except.bind]

/-- `str.lstrip(c)`. -/
def lstrip (c : Char) (s : String) : String := String.ofList (s.toList.dropWhile (· = c))

/-- `str.startswith`. -/
def startsWith (s start : String) : Bool := start.toList.isPrefixOf s.toList

/-- `str.endswith`. -/
def endsWith (s finish : String) : Bool := finish.toList.isSuffixOf s.toList

/-- `bool(value)` of a parsed value. -/
def Json.truthy : Json → Bool
  | .null => false
  | .bool b => b
  | .int n => n ≠ 0
  | .float f => f.text ≠ "0.0" ∧ f.text ≠ "-0.0"
  | .str s => s ≠ ""
  | .arr items => ¬ items.isEmpty
  | .obj members => ¬ members.isEmpty

/-- `isinstance(value, str)`. -/
def asText : Option Json → Option String
  | some (.str s) => some s
  | _ => none

/-- A text that may be `None` or absent. -/
def optionalText : Option Json → Option (Option String)
  | none | some .null => some none
  | some (.str s) => some (some s)
  | _ => none

def textOrNull (value : Option String) : Json := value.elim .null .str

theorem optionalText_textOrNull (value : Option String) : optionalText (some (textOrNull value)) = some value := by
  cases value <;> rfl

/-- What the host language decides by its own tables: `str(value)`, `str.lower`, the
`isoformat` of a time in milliseconds and the word characters of its patterns. -/
structure Host where
  str : Json → String
  str_str : ∀ s, str (.str s) = s
  lower : String → String
  isoTime : Int → String
  isWord : Char → Bool

/-- A host that knows the ASCII letters and digits and no clock. -/
def asciiHost : Host where
  str
    | .str s => s
    | value => value.dumps
  str_str _ := rfl
  lower s := String.ofList (s.toList.map Char.toLower)
  isoTime _ := "unknown-time"
  isWord c := c.isAlphanum ∨ c = '_'

/-- `str(value or "")`. -/
def Host.text (host : Host) (value : Option Json) : String :=
  match value with
  | none => ""
  | some value => if value.truthy then host.str value else ""

end PuffoAgent.Text
