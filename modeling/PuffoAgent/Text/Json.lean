import Mathlib.Data.List.Basic

/-! JSON values and the compact texts `json.dumps` gives for them. -/
namespace PuffoAgent.Text

/-- Digits with no leading zero. -/
def isNatText (word : List Char) : Bool :=
  word = ['0'] ∨ (word.all Char.isDigit ∧ word.head?.any (· ≠ '0'))

/-- `-?(0|[1-9]\d*)`. -/
def isIntText : List Char → Bool
  | '-' :: word => isNatText word
  | word => isNatText word

/-- `[eE][-+]?\d+`, or nothing. -/
def isExponentText : List Char → Bool
  | [] => true
  | e :: word => (e = 'e' ∨ e = 'E') ∧
      let digits := if word.head? = some '-' ∨ word.head? = some '+' then word.tail else word
      digits ≠ [] ∧ digits.all Char.isDigit

/-- `(\.\d+)?([eE][-+]?\d+)?`. -/
def isFractionText : List Char → Bool
  | '.' :: word => word.takeWhile Char.isDigit ≠ [] ∧ isExponentText (word.dropWhile Char.isDigit)
  | word => isExponentText word

def isNumberText (word : List Char) : Bool :=
  let unsigned := if word.head? = some '-' then word.tail else word
  isNatText (unsigned.takeWhile Char.isDigit) ∧ isFractionText (unsigned.dropWhile Char.isDigit)

/-- The characters of numbers and of the literal names. -/
def isScalarChar (c : Char) : Bool := c.isAlphanum ∨ c = '-' ∨ c = '+' ∨ c = '.'

/-- The texts of floats: numbers that are no integers, and the three names beside them. -/
def isFloatText (word : List Char) : Bool :=
  word.all isScalarChar ∧ ((isNumberText word ∧ ¬ isIntText word) ∨ word = "NaN".toList ∨
    word = "Infinity".toList ∨ word = "-Infinity".toList)

/-- A float, carried as the text `json.dumps` writes for it. -/
structure FloatText where
  text : String
  isFloat : isFloatText text.toList
  deriving Repr

inductive Json where
  | null
  | bool (b : Bool)
  | int (n : Int)
  | float (f : FloatText)
  | str (s : String)
  | arr (items : List Json)
  | obj (members : List (String × Json))
  deriving Repr

/-- Replace every character by a text. -/
def escapeWith (f : Char → String) (s : String) : String := String.join (s.toList.map f)

namespace Json

/-- The escapes `ensure_ascii=False` leaves: quotes, backslashes and controls. -/
def escapeChar (c : Char) : String :=
  if c = '"' then "\\\""
  else if c = '\\' then "\\\\"
  else if c = '\n' then "\\n"
  else if c = '\r' then "\\r"
  else if c = '\t' then "\\t"
  else if c = '\x08' then "\\b"
  else if c = '\x0c' then "\\f"
  else if c.toNat < 0x20 then
    "\\u00" ++ String.ofList [Nat.digitChar (c.toNat / 16), Nat.digitChar (c.toNat % 16)]
  else c.toString

/-- The four hexadecimal digits of a code unit. -/
def hex4 (n : Nat) : String :=
  String.ofList [Nat.digitChar (n / 4096 % 16), Nat.digitChar (n / 256 % 16), Nat.digitChar (n / 16 % 16),
    Nat.digitChar (n % 16)]

/-- The escapes of the default `ensure_ascii=True`: everything beyond printable ASCII is
written as UTF-16 code units. -/
def escapeAscii (c : Char) : String :=
  if c.toNat < 0x7f then escapeChar c
  else if c.toNat < 0x10000 then "\\u" ++ hex4 c.toNat
  else "\\u" ++ hex4 (0xd800 + (c.toNat - 0x10000) / 0x400) ++
    "\\u" ++ hex4 (0xdc00 + (c.toNat - 0x10000) % 0x400)

section Dump
variable (escape : Char → String)

def quoteWith (s : String) : String := "\"" ++ escapeWith escape s ++ "\""

mutual
def dumpsWith : Json → String
  | .null => "null"
  | .bool b => if b then "true" else "false"
  | .int n => toString n
  | .float f => f.text
  | .str s => quoteWith escape s
  | .arr items => "[" ++ ",".intercalate (dumpsItems items) ++ "]"
  | .obj members => "\x7b" ++ ",".intercalate (dumpsMembers members) ++ "\x7d"

def dumpsItems : List Json → List String
  | [] => []
  | v :: vs => dumpsWith v :: dumpsItems vs

def dumpsMembers : List (String × Json) → List String
  | [] => []
  | (k, v) :: ms => (quoteWith escape k ++ ":" ++ dumpsWith v) :: dumpsMembers ms
end

end Dump

/-- `json.dumps(value, ensure_ascii=False, separators=(",", ":"))`. -/
def dumps (value : Json) : String := value.dumpsWith escapeChar

/-- `json.dumps(value, separators=(",", ":"))`. -/
def dumpsAscii (value : Json) : String := value.dumpsWith escapeAscii

/-- `d.get(key)` on a parsed object, where the last of equal keys counts. -/
def member (key : String) : Json → Option Json
  | .obj members => (members.reverse.find? (·.1 = key)).map (·.2)
  | _ => none

/-- `d[key] = value` on a dict: a known key keeps its place. -/
def setMember (key : String) (value : Json) : List (String × Json) → List (String × Json)
  | [] => [(key, value)]
  | (k, v) :: ms => if k = key then (k, value) :: ms else (k, v) :: setMember key value ms

end Json
end PuffoAgent.Text
