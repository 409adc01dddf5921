import PuffoAgent.Text.JsonParse
import PuffoAgent.Text.Codes
import PuffoAgent.Text.Editing

/-! What escapes do to the texts of JSON values: such a text is told from what follows it, a second
escape reaches the strings alone, and so does a search for characters that are no JSON. -/
namespace PuffoAgent.Text

section Escapes
variable {f g : Char → String} {s t : String}

theorem toList_escapeWith (f : Char → String) (s : String) :
    (escapeWith f s).toList = s.toList.flatMap fun c => (f c).toList := by
  rw [escapeWith, String.toList_join, List.flatMap_map]

theorem escapeWith_append : escapeWith f (s ++ t) = escapeWith f s ++ escapeWith f t := by
  rw [← String.toList_inj]
  simp only [toList_escapeWith, String.toList_append, List.flatMap_append]

theorem escapeWith_escapeWith : escapeWith f (escapeWith g s) = escapeWith (fun c => escapeWith f (g c)) s := by
  rw [← String.toList_inj]
  simp only [toList_escapeWith, List.flatMap_assoc]

theorem escapeWith_intercalate (parts : List String) :
    escapeWith f (s.intercalate parts) = (escapeWith f s).intercalate (parts.map (escapeWith f)) := by
  cases parts with
  | nil => rfl
  | cons part parts =>
    induction parts generalizing part with
    | nil => rfl
    | cons next parts ih =>
      rw [String.intercalate_cons_cons, escapeWith_append, escapeWith_append, ih]
      simp only [List.map_cons, String.intercalate_cons_cons]

theorem any_intercalate {p : Char → Bool} (h : s.toList.any p = false) (parts : List String) :
    (s.intercalate parts).toList.any p = parts.any (·.toList.any p) := by
  cases parts with
  | nil => rfl
  | cons part parts =>
    induction parts generalizing part with
    | nil => simp
    | cons next parts ih =>
      rw [String.intercalate_cons_cons, String.toList_append, String.toList_append, List.any_append, List.any_append, ih, h,
        Bool.or_false]
      rfl

end Escapes

namespace Json
variable {escape : Char → String}

/-- The text of a value ends where no character of a scalar follows. -/
theorem delimited_dumpsWith (he : Readable escape) :
    Codes.Delimited Stops fun v : Json => (v.dumpsWith escape).toList := by
  refine Codes.Delimited.of_read (fun cs => readValue cs.length cs) fun v rest hstops => ?_
  exact (readsBack he _).value v rest (by simp) hstops

/-- The characters of JSON outside strings. -/
def isTokenChar (c : Char) : Bool :=
  isScalarChar c ∨ c = '"' ∨ c = '[' ∨ c = ']' ∨ c = '\x7b' ∨ c = '\x7d' ∨ c = ',' ∨ c = ':'

section Tokens
variable {v : Json} {word : List Char}

theorem isTokenChar_of_scalar {c : Char} (h : isScalarChar c) : isTokenChar c := by simp [isTokenChar, h]

theorem ScalarText.tokens (h : ScalarText v word) : ∀ c ∈ word, isTokenChar c :=
  fun c hc => isTokenChar_of_scalar (List.all_eq_true.1 h.all_isScalarChar c hc)

/-- The text of a value that is neither a string nor a container is a word. -/
theorem dumpsWith_scalar (h : ScalarText v word) : (v.dumpsWith escape).toList = word := by
  cases h with
  | null => rfl
  | bool b => rfl
  | int n => exact toList_toString_int n
  | float f => rfl

end Tokens

section Escaped
variable {f : Char → String} (hf : ∀ c, isTokenChar c → f c = c.toString)
include hf

theorem escapeWith_tokens {s : String} (h : s.toList.all isTokenChar) : escapeWith f s = s :=
  escapeWith_eq_self fun c hc => hf c (List.all_eq_true.1 h c hc)

theorem escapeWith_scalar {v : Json} {word : List Char} (h : ScalarText v word) :
    escapeWith f (v.dumpsWith escape) = v.dumpsWith fun c => escapeWith f (escape c) := by
  rw [escapeWith_tokens hf (by rw [dumpsWith_scalar h]; exact List.all_eq_true.2 h.tokens), ← String.toList_inj,
    dumpsWith_scalar h, dumpsWith_scalar h]

theorem escapeWith_quoteWith (s : String) :
    escapeWith f (quoteWith escape s) = quoteWith (fun c => escapeWith f (escape c)) s := by
  have hquote : escapeWith f "\"" = "\"" := escapeWith_tokens hf rfl
  rw [quoteWith, quoteWith, escapeWith_append, escapeWith_append, escapeWith_escapeWith, hquote]

omit hf in
mutual
/-- A second escape that leaves the tokens alone is one of the strings. -/
theorem escapeWith_dumpsWith (hf : ∀ c, isTokenChar c → f c = c.toString) :
    (v : Json) → escapeWith f (v.dumpsWith escape) = v.dumpsWith fun c => escapeWith f (escape c)
  | .null => escapeWith_scalar hf .null
  | .bool b => escapeWith_scalar hf (.bool b)
  | .int n => escapeWith_scalar hf (.int n)
  | .float x => escapeWith_scalar hf (.float x)
  | .str s => by rw [dumpsWith, dumpsWith, escapeWith_quoteWith hf]
  | .arr items => by
    have hopen : escapeWith f "[" = "[" := escapeWith_tokens hf rfl
    have hclose : escapeWith f "]" = "]" := escapeWith_tokens hf rfl
    have hcomma : escapeWith f "," = "," := escapeWith_tokens hf rfl
    rw [dumpsWith, dumpsWith, escapeWith_append, escapeWith_append, escapeWith_intercalate, escapeWith_dumpsItems hf items,
      hopen, hclose, hcomma]
  | .obj members => by
    have hopen : escapeWith f "\x7b" = "\x7b" := escapeWith_tokens hf rfl
    have hclose : escapeWith f "\x7d" = "\x7d" := escapeWith_tokens hf rfl
    have hcomma : escapeWith f "," = "," := escapeWith_tokens hf rfl
    rw [dumpsWith, dumpsWith, escapeWith_append, escapeWith_append, escapeWith_intercalate, escapeWith_dumpsMembers hf members,
      hopen, hclose, hcomma]

theorem escapeWith_dumpsItems (hf : ∀ c, isTokenChar c → f c = c.toString) : (items : List Json) →
    (dumpsItems escape items).map (escapeWith f) = dumpsItems (fun c => escapeWith f (escape c)) items
  | [] => rfl
  | v :: vs => by rw [dumpsItems, dumpsItems, List.map_cons, escapeWith_dumpsWith hf v, escapeWith_dumpsItems hf vs]

theorem escapeWith_dumpsMembers (hf : ∀ c, isTokenChar c → f c = c.toString) : (members : List (String × Json)) →
    (dumpsMembers escape members).map (escapeWith f) = dumpsMembers (fun c => escapeWith f (escape c)) members
  | [] => rfl
  | (k, v) :: ms => by
    have hcolon : escapeWith f ":" = ":" := escapeWith_tokens hf rfl
    rw [dumpsMembers, dumpsMembers, List.map_cons, escapeWith_append, escapeWith_append, escapeWith_quoteWith hf, hcolon,
      escapeWith_dumpsWith hf v, escapeWith_dumpsMembers hf ms]
end

end Escaped

section Strings

mutual
/-- The strings of a value, the keys of its objects among them. -/
def strings : Json → List String
  | .str s => [s]
  | .arr items => itemStrings items
  | .obj members => memberStrings members
  | _ => []

def itemStrings : List Json → List String
  | [] => []
  | v :: vs => v.strings ++ itemStrings vs

def memberStrings : List (String × Json) → List String
  | [] => []
  | (k, v) :: ms => k :: v.strings ++ memberStrings ms
end

variable {p : Char → Bool} (hp : ∀ c, isTokenChar c → p c = false)
include hp

theorem any_quoteWith (s : String) :
    (quoteWith escape s).toList.any p = s.toList.any fun c => (escape c).toList.any p := by
  have hquote : p '"' = false := hp _ rfl
  simp [quoteWith, toList_escapeWith, List.any_flatMap, hquote]

theorem any_scalar {v : Json} {word : List Char} (h : ScalarText v word) : (v.dumpsWith escape).toList.any p = false := by
  rw [dumpsWith_scalar h, List.any_eq_false]
  exact fun c hc => by simp [hp c (h.tokens c hc)]

omit hp in
mutual
/-- What is no JSON token occurs in the text only through a string. -/
theorem any_dumpsWith (hp : ∀ c, isTokenChar c → p c = false) : (v : Json) → (v.dumpsWith escape).toList.any p =
    v.strings.any fun s => s.toList.any fun c => (escape c).toList.any p
  | .null => any_scalar hp .null
  | .bool b => any_scalar hp (.bool b)
  | .int n => any_scalar hp (.int n)
  | .float x => any_scalar hp (.float x)
  | .str s => by rw [dumpsWith, any_quoteWith hp, strings, List.any_cons, List.any_nil, Bool.or_false]
  | .arr items => by
    have hopen : p '[' = false := hp _ rfl
    have hclose : p ']' = false := hp _ rfl
    rw [dumpsWith, String.toList_append, String.toList_append, List.any_append, List.any_append,
      any_intercalate (by simp [hp ',' rfl]), any_dumpsItems hp items, strings]
    simp [hopen, hclose]
  | .obj members => by
    have hopen : p '\x7b' = false := hp _ rfl
    have hclose : p '\x7d' = false := hp _ rfl
    rw [dumpsWith, String.toList_append, String.toList_append, List.any_append, List.any_append,
      any_intercalate (by simp [hp ',' rfl]), any_dumpsMembers hp members, strings]
    simp [hopen, hclose]

theorem any_dumpsItems (hp : ∀ c, isTokenChar c → p c = false) : (items : List Json) →
    ((dumpsItems escape items).any fun s => s.toList.any p) =
    (itemStrings items).any fun s => s.toList.any fun c => (escape c).toList.any p
  | [] => rfl
  | v :: vs => by rw [dumpsItems, itemStrings, List.any_cons, List.any_append, any_dumpsWith hp v, any_dumpsItems hp vs]

theorem any_dumpsMembers (hp : ∀ c, isTokenChar c → p c = false) : (members : List (String × Json)) →
    ((dumpsMembers escape members).any fun s => s.toList.any p) =
    (memberStrings members).any fun s => s.toList.any fun c => (escape c).toList.any p
  | [] => rfl
  | (k, v) :: ms => by
    have hcolon : p ':' = false := hp _ rfl
    rw [dumpsMembers, memberStrings, List.any_cons, String.toList_append, String.toList_append, List.any_append,
      List.any_append, any_quoteWith hp, any_dumpsWith hp v, any_dumpsMembers hp ms]
    simp [hcolon, Bool.or_assoc]
end

end Strings
end Json
end PuffoAgent.Text
