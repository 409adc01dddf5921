import Mathlib.Data.Bool.AllAny
import PuffoAgent.Projection.Row
import PuffoAgent.Text.JsonEscapes

/-! The fields of the projected lines: their texts, and that a text is told from what follows it. -/
namespace PuffoAgent.Projection
open Text Store

section Escapes

/-- One character of an annotation that `_quoted` wrote. -/
def readQuotedChar : List Char → Option (Char × List Char)
  | '\\' :: c :: cs => if c = 'u' then Json.readUnicode cs else (Json.unescape c).map (·, cs)
  | c :: cs => some (c, cs)
  | [] => none

theorem toList_toString (c : Char) : c.toString.toList = [c] := by simp [Char.toString]

theorem readQuotedChar_plain {c : Char} (h : c ≠ '\\') (rest : List Char) : readQuotedChar (c :: rest) = some (c, rest) := by
  rw [readQuotedChar.eq_def]
  split
  · rename_i he
    exact absurd (List.cons.inj he).1 h
  · rename_i he
    obtain ⟨rfl, rfl⟩ := List.cons.inj he
    rfl
  · rename_i he
    cases he

theorem readQuotedChar_quotedChar (c : Char) (rest : List Char) :
    readQuotedChar ((quotedChar c).toList ++ rest) = some (c, rest) := by
  rw [quotedChar]
  split_ifs with h1 h2 h3 h4 h5 h6
  · subst h1; rfl
  · subst h2; rfl
  · subst h3; rfl
  · subst h4
    exact Json.readUnicode_unit (c := '&') (by decide) rest
  · subst h5
    exact Json.readUnicode_unit (c := '<') (by decide) rest
  · subst h6
    exact Json.readUnicode_unit (c := '>') (by decide) rest
  · rw [toList_toString]
    exact readQuotedChar_plain h1 rest

theorem quotedChar_head (c : Char) : ∃ d ds, (quotedChar c).toList = d :: ds ∧ d ≠ '"' := by
  rw [quotedChar]
  split_ifs with h1 h2 h3 h4 h5 h6
  case neg => exact ⟨c, [], toList_toString c, h2⟩
  all_goals exact ⟨'\\', _, rfl, by decide⟩

theorem toList_quoted (s : String) :
    (quoted s).toList = '"' :: (s.toList.flatMap (fun c => (quotedChar c).toList) ++ ['"']) := by
  rw [quoted, String.toList_append, String.toList_append, toList_escapeWith]
  rfl

/-- A quoted annotation is told from whatever follows it. -/
theorem delimited_quoted : Codes.Delimited (fun _ => True) fun s : String => (quoted s).toList := by
  intro s t r r' _ _ he
  simp only [toList_quoted, List.cons_append, List.cons.injEq, true_and] at he
  have hchars : Codes.Delimited (fun _ => True) fun c : Char => (quotedChar c).toList :=
    .of_read readQuotedChar fun c rest _ => readQuotedChar_quotedChar c rest
  obtain ⟨hs, hr⟩ := hchars.closed quotedChar_head _ _ r r' trivial trivial he
  exact ⟨String.toList_inj.1 hs, hr⟩

/-- The escape that `_json` makes of the two passes. -/
def jsonChar (c : Char) : String := escapeWith markupChar (Json.escapeChar c)

theorem markupChar_token (c : Char) (h : Json.isTokenChar c) : markupChar c = c.toString := by
  have hno (d : Char) (hd : Json.isTokenChar d = false) : c ≠ d := by
    rintro rfl
    rw [h] at hd
    cases hd
  rw [markupChar, if_neg (hno '&' rfl), if_neg (hno '<' rfl), if_neg (hno '>' rfl)]

theorem json_eq (v : Json) : json v = v.dumpsWith jsonChar := Json.escapeWith_dumpsWith markupChar_token v

def isMarkup (c : Char) : Bool := c = '&' ∨ c = '<' ∨ c = '>'

theorem markupChar_plain {c : Char} (h : isMarkup c = false) : markupChar c = c.toString := by
  simp only [isMarkup, decide_eq_false_iff_not, not_or] at h
  rw [markupChar, if_neg h.1, if_neg h.2.1, if_neg h.2.2]

theorem digitChar_plain : ∀ n < 16, isMarkup (Nat.digitChar n) = false := by decide

theorem escapeChar_plain {c : Char} (h : isMarkup c = false) : ∀ d ∈ (Json.escapeChar c).toList, isMarkup d = false := by
  rw [Json.escapeChar]
  split_ifs with h1 h2 h3 h4 h5 h6 h7 h8
  · exact List.all_iff_forall_prop.1 (by decide)
  · exact List.all_iff_forall_prop.1 (by decide)
  · exact List.all_iff_forall_prop.1 (by decide)
  · exact List.all_iff_forall_prop.1 (by decide)
  · exact List.all_iff_forall_prop.1 (by decide)
  · exact List.all_iff_forall_prop.1 (by decide)
  · exact List.all_iff_forall_prop.1 (by decide)
  · intro d hd
    have hdigits : ("\\u00" ++ String.ofList [Nat.digitChar (c.toNat / 16), Nat.digitChar (c.toNat % 16)]).toList =
        ['\\', 'u', '0', '0', Nat.digitChar (c.toNat / 16), Nat.digitChar (c.toNat % 16)] := by simp
    rw [hdigits] at hd
    simp only [List.mem_cons, List.not_mem_nil, or_false] at hd
    rcases hd with rfl | rfl | rfl | rfl | rfl | rfl
    · rfl
    · rfl
    · rfl
    · rfl
    · exact digitChar_plain _ (by omega)
    · exact digitChar_plain _ (by omega)
  · intro d hd
    rw [toList_toString, List.mem_singleton] at hd
    rwa [hd]

theorem jsonChar_plain {c : Char} (h : isMarkup c = false) : jsonChar c = Json.escapeChar c :=
  escapeWith_eq_self fun d hd => markupChar_plain (escapeChar_plain h d hd)

/-- Ampersands and angle brackets are written by their code units. -/
theorem jsonChar_markup {c : Char} (h : isMarkup c) : (jsonChar c).toList = '\\' :: 'u' :: (Json.hex4 c.toNat).toList := by
  simp only [isMarkup, decide_eq_true_eq] at h
  rcases h with rfl | rfl | rfl <;> decide

theorem readable_jsonChar : Json.Readable jsonChar := by
  constructor
  · intro c rest
    cases hm : isMarkup c with
    | true =>
      rw [jsonChar_markup hm]
      have hsmall : c.toNat < 0x10000 := by
        simp only [isMarkup, decide_eq_true_eq] at hm
        rcases hm with rfl | rfl | rfl <;> decide
      exact Json.readUnicode_unit hsmall rest
    | false =>
      rw [jsonChar_plain hm]
      exact Json.readChar_escapeChar c rest
  · intro c
    cases hm : isMarkup c with
    | true => exact ⟨'\\', _, jsonChar_markup hm, by decide⟩
    | false =>
      rw [jsonChar_plain hm]
      exact Json.escapeChar_head c

theorem delimited_json : Codes.Delimited Json.Stops fun v : Json => (json v).toList := by
  simp only [json_eq]
  exact Json.delimited_dumpsWith readable_jsonChar

end Escapes

section Fields

/-- A value of the row grammar: an annotation, or what JSON writes of a value that is no text. -/
inductive Value where
  | quoted (text : String)
  | number (n : Option Int)
  | flag (b : Bool)
  | items (values : List Json)

/-- The JSON value that stands in a field as it is. -/
def Value.bare : Value → Option Json
  | .quoted _ => none
  | .number n => some (n.elim .null .int)
  | .flag b => some (.bool b)
  | .items values => some (.arr values)

def Value.text : Value → String
  | .quoted text => Projection.quoted text
  | .number n => json (n.elim .null .int)
  | .flag b => json (.bool b)
  | .items values => json (.arr values)

def isNameChar (c : Char) : Bool := c.isLower ∨ c = '_'

/-- A field of a projected line. -/
structure Field where
  name : String
  value : Value
  isName : name.toList.all isNameChar := by decide

def Field.text (f : Field) : String := field f.name f.value.text

variable {v w : Value} {j : Json} {f g : Field}

theorem text_of_bare (h : v.bare = some j) : v.text = json j := by
  cases v <;> cases h <;> rfl

theorem bare_injective (h : v.bare = some j) (h' : w.bare = some j) : v = w := by
  cases v with
  | quoted _ => cases h
  | number n =>
    cases w with
    | number k => cases n <;> cases k <;> cases h <;> cases h' <;> rfl
    | _ => cases n <;> cases h <;> cases h'
  | flag b => cases w with
    | number k => cases k <;> cases h <;> cases h'
    | _ =>
      cases h
      cases h' <;> rfl
  | items values => cases w with
    | number k => cases k <;> cases h <;> cases h'
    | _ =>
      cases h
      cases h' <;> rfl

theorem bare_head (h : v.bare = some j) : ∃ c cs, (json j).toList = c :: cs ∧ c ≠ '"' := by
  have hword {word : List Char} (hs : Json.ScalarText j word) : ∃ c cs, (json j).toList = c :: cs ∧ c ≠ '"' := by
    obtain ⟨c, cs, rfl⟩ := List.exists_cons_of_ne_nil hs.ne_nil
    have hscalar : isScalarChar c := List.all_eq_true.1 hs.all_isScalarChar c List.mem_cons_self
    exact ⟨c, cs, by rw [json_eq, Json.dumpsWith_scalar hs], Json.ne_of_isScalarChar hscalar rfl⟩
  cases v with
  | quoted _ => cases h
  | number n => cases n <;> cases h <;> exact hword (by constructor)
  | flag b => cases h; exact hword (.bool b)
  | items values =>
    cases h
    exact ⟨'[', _, by rw [json_eq, Json.toList_dumps_arr], by decide⟩

theorem quoted_of_bare (h : v.bare = none) : ∃ t, v = .quoted t := by
  cases v with
  | quoted t => exact ⟨t, rfl⟩
  | _ => cases h

/-- A value is told from what follows it, where that is nothing or a space. -/
theorem delimited_value : Codes.Delimited (Codes.Separated ' ') fun v : Value => v.text.toList := by
  have hmixed {v w : Value} {j : Json} {r s : List Char} (hv : v.bare = none) (hw : w.bare = some j)
      (he : v.text.toList ++ r = w.text.toList ++ s) : False := by
    obtain ⟨t, rfl⟩ := quoted_of_bare hv
    obtain ⟨c, cs, hhead, hc⟩ := bare_head hw
    rw [text_of_bare hw, hhead, Value.text, toList_quoted] at he
    exact hc (List.cons.inj he).1.symm
  intro v w r s hr hs he
  cases hv : v.bare with
  | none =>
    cases hw : w.bare with
    | none =>
      obtain ⟨t, rfl⟩ := quoted_of_bare hv
      obtain ⟨u, rfl⟩ := quoted_of_bare hw
      obtain ⟨rfl, hrest⟩ := delimited_quoted t u r s trivial trivial he
      exact ⟨rfl, hrest⟩
    | some j => exact absurd he (hmixed hv hw)
  | some j =>
    cases hw : w.bare with
    | none => exact absurd he.symm (hmixed hw hv)
    | some k =>
      have hstops {r : List Char} (hr : Codes.Separated ' ' r) : Json.Stops r := fun c hc => by
        rw [hr c hc]
        rfl
      simp only [text_of_bare hv, text_of_bare hw] at he
      obtain ⟨rfl, hrest⟩ := delimited_json j k r s (hstops hr) (hstops hs) he
      exact ⟨bare_injective hv hw, hrest⟩

theorem toList_fieldText (f : Field) : f.text.toList = f.name.toList ++ '=' :: f.value.text.toList := by
  rw [Field.text, field, String.toList_append, String.toList_append, List.append_assoc]
  rfl

theorem delimited_field : Codes.Delimited (Codes.Separated ' ') fun f : Field => f.text.toList := by
  intro f g r s hr hs he
  simp only [toList_fieldText, List.append_assoc, List.cons_append] at he
  have hno (f : Field) : '=' ∉ f.name.toList := fun hmem => by
    have := List.all_eq_true.1 f.isName _ hmem
    cases this
  obtain ⟨hname, hvalue⟩ := Codes.append_mark_inj (hno f) (hno g) he
  obtain ⟨hvalue, hrest⟩ := delimited_value _ _ r s hr hs hvalue
  refine ⟨?_, hrest⟩
  cases f
  cases g
  simp only [Field.mk.injEq] at *
  exact ⟨String.toList_inj.1 hname, hvalue⟩

/-- The fields of a line. -/
def fieldsText (fields : List Field) : String := " ".intercalate (fields.map Field.text)

theorem fieldsText_injective : Function.Injective fieldsText := by
  intro fs gs he
  have hlists := congrArg String.toList he
  simp only [fieldsText, String.toList_intercalate, List.map_map] at hlists
  exact delimited_field.joined (fun f => by simp [toList_fieldText]) hlists

end Fields
end PuffoAgent.Projection
