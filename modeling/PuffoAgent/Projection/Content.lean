import PuffoAgent.Projection.Message

/-! What the store reads back of a content it wrote, and of a bare text from before the marker. -/
namespace PuffoAgent.Projection
open Text Store

namespace Lengths
variable {cs rest : List Char} {c : Char} {n : Nat}

theorem readUnit_rest {u : Nat} (h : Json.readUnit cs = some (u, rest)) : rest.length + 4 = cs.length := by
  match cs with
  | a :: b :: c :: d :: cs =>
    simp only [Json.readUnit, Option.bind_eq_bind, Option.bind_eq_some_iff] at h
    obtain ⟨_, -, _, -, _, -, _, -, he⟩ := h
    cases he
    rfl

theorem readUnicode_rest (h : Json.readUnicode cs = some (c, rest)) : rest.length < cs.length := by
  unfold Json.readUnicode at h
  obtain ⟨⟨high, after⟩, hunit, h⟩ := Option.bind_eq_some_iff.mp h
  have hlength := readUnit_rest hunit
  simp only at h
  split_ifs at h
  · split at h
    · obtain ⟨⟨low, last⟩, hlow, h⟩ := Option.bind_eq_some_iff.mp h
      have hlow := readUnit_rest hlow
      simp only at h
      split_ifs at h
      obtain ⟨-, rfl⟩ := Prod.mk.inj (Option.some.inj h)
      simp only [List.length_cons] at hlength
      omega
    · cases h
  · obtain ⟨-, rfl⟩ := Prod.mk.inj (Option.some.inj h)
    omega

theorem readChar_rest (h : Json.readChar cs = some (c, rest)) : rest.length < cs.length := by
  unfold Json.readChar at h
  split at h
  · split_ifs at h
    · have hrest := readUnicode_rest h
      simp only [List.length_cons]
      omega
    · obtain ⟨d, -, he⟩ := Option.map_eq_some_iff.mp h
      cases he
      simp only [List.length_cons]
      omega
  · split_ifs at h
    cases h
    exact Nat.lt_succ_self _
  · cases h

/-- A string is not longer than what it is read from. -/
theorem readString_body {body : List Char} (h : Json.readString n cs = some (body, rest)) : body.length < cs.length := by
  induction n generalizing cs body with
  | zero => cases h
  | succ n ih =>
    rw [Json.readString] at h
    split_ifs at h with hquote
    · cases h
      cases cs with
      | nil => cases hquote
      | cons d cs => exact Nat.succ_pos _
    · obtain ⟨⟨d, after⟩, hchar, h⟩ := Option.bind_eq_some_iff.mp h
      obtain ⟨⟨more, last⟩, hmore, h⟩ := Option.bind_eq_some_iff.mp h
      cases h
      have hafter := readChar_rest hchar
      have hbody := ih hmore
      simp only [List.length_cons]
      omega

theorem skipSpace_length (cs : List Char) : (Json.skipSpace cs).length ≤ cs.length := (List.dropWhile_suffix _).length_le

theorem loads_str {text s : String} (h : Json.loads text = some (.str s)) : s.toList.length < text.toList.length := by
  unfold Json.loads at h
  obtain ⟨⟨value, rest⟩, hvalue, h⟩ := Option.bind_eq_some_iff.mp h
  simp only at h
  split_ifs at h
  cases h
  rw [Json.readValue] at hvalue
  have hspace := skipSpace_length text.toList
  split at hvalue
  · cases hvalue
  · rename_i c cs hskip
    rw [hskip, List.length_cons] at hspace
    split_ifs at hvalue
    · obtain ⟨⟨read, after⟩, hread, he⟩ := Option.map_eq_some_iff.mp hvalue
      cases he
      obtain ⟨⟨body, last⟩, hbody, he⟩ := Option.map_eq_some_iff.mp hread
      cases he
      rw [String.toList_ofList]
      have hbody := readString_body hbody
      omega
    · cases hvalue
    · obtain ⟨_, -, he⟩ := Option.map_eq_some_iff.mp hvalue
      cases he
    · cases hvalue
    · obtain ⟨_, -, he⟩ := Option.map_eq_some_iff.mp hvalue
      cases he
    · obtain ⟨value, hscalar, he⟩ := Option.map_eq_some_iff.mp hvalue
      cases he
      unfold Json.readScalar at hscalar
      split_ifs at hscalar <;> cases hscalar

end Lengths
section Decoding
variable {raw contentType : String} {disposition : Option ReceiptDisposition}

/-- A content type whose bare texts were never structured. -/
def IsPlain (contentType : String) : Prop :=
  ¬ endsWith contentType "+json" ∧ contentType ≠ "application/json" ∧ contentType ≠ "puffo/message+attachments/v1"

/-- A text that is the marker and a JSON text. -/
def IsMarked (raw : String) : Prop := ∃ text value, raw = contentJsonPrefix ++ text ∧ Json.loads text = some value

theorem startsWith_iff {s start : String} : startsWith s start = true ↔ ∃ rest, s = start ++ rest := by
  rw [startsWith, List.isPrefixOf_iff_prefix]
  constructor
  · rintro ⟨rest, hrest⟩
    exact ⟨String.ofList rest, String.toList_inj.mp (by rw [String.toList_append, String.toList_ofList, hrest])⟩
  · rintro ⟨rest, rfl⟩
    rw [String.toList_append]
    exact List.prefix_append _ _

theorem decodeContent_marker (text : String) :
    decodeContent (contentJsonPrefix ++ text) contentType disposition = loadsOr (contentJsonPrefix ++ text) text := by
  rw [decodeContent, if_pos (startsWith_iff.mpr ⟨text, rfl⟩), String.toList_append, ← String.length_toList, List.drop_left,
    String.ofList_toList]

theorem decodeContent_bare (hplain : IsPlain contentType) (hbare : ¬ startsWith raw contentJsonPrefix) :
    decodeContent raw contentType (some .terminal) = .str raw := by
  rw [decodeContent, if_neg hbare, if_neg]
  rintro (h | h | h | h | h)
  · exact hplain.1 h
  · exact hplain.2.1 h
  · exact hplain.2.2 h
  · cases h
  · cases h

/-- A bare text of a terminal row with a plain content type is read as itself, if and only if it is not the
marker and a JSON text. -/
theorem decodeContent_terminal_iff (hplain : IsPlain contentType) :
    decodeContent raw contentType (some .terminal) = .str raw ↔ ¬ IsMarked raw := by
  by_cases hstart : startsWith raw contentJsonPrefix = true
  · obtain ⟨text, rfl⟩ := startsWith_iff.mp hstart
    rw [decodeContent_marker, loadsOr]
    cases hloads : Json.loads text with
    | some value =>
      refine iff_of_false (fun he => ?_) (not_not_intro ⟨text, value, rfl, hloads⟩)
      rw [Option.getD_some] at he
      rw [he] at hloads
      have hlength := Lengths.loads_str hloads
      rw [String.toList_append, List.length_append] at hlength
      omega
    | none =>
      refine iff_of_true rfl ?_
      rintro ⟨other, value, he, hvalue⟩
      rw [String.append_right_inj] at he
      rw [he, hvalue] at hloads
      cases hloads
  · refine iff_of_true (decodeContent_bare hplain hstart) ?_
    rintro ⟨text, value, he, -⟩
    exact hstart (startsWith_iff.mpr ⟨text, he⟩)

/-- Every value is read back as it was stored, whatever its row says; and a bare text of a terminal row with a
plain content type is read as it is, if and only if it is not itself an encoding. -/
theorem stored_content_round_trip :
    (∀ (value : Json) (contentType : String) (disposition : Option ReceiptDisposition),
      decodeContent (encodeContent value) contentType disposition = value) ∧
    ∀ raw contentType, IsPlain contentType →
      (decodeContent raw contentType (some .terminal) = .str raw ↔ ¬ IsMarked raw) :=
  ⟨decodeContent_encodeContent, fun _ _ => decodeContent_terminal_iff⟩

theorem isPlain_text : IsPlain "text/plain" := by
  refine ⟨?_, by decide, by decide⟩
  decide

/-- A bare text that is an encoding is read as the value it encodes. -/
theorem marked_text_misread : IsPlain "text/plain" ∧
    ∃ raw, decodeContent raw "text/plain" (some .terminal) ≠ .str raw := by
  refine ⟨isPlain_text, encodeContent (.int 1), ?_⟩
  rw [decodeContent_encodeContent]
  nofun

/-- The marker without a JSON text after it is a text. -/
theorem stored_content_round_trip_marker :
    decodeContent contentJsonPrefix "text/plain" (some .terminal) = .str contentJsonPrefix := by
  refine (stored_content_round_trip.2 _ _ isPlain_text).mpr fun ⟨text, value, he, hvalue⟩ => ?_
  have hempty : text = "" := by
    have hsame := congrArg (fun s => s.toList.length) he
    simp only [String.toList_append, List.length_append] at hsame
    exact String.toList_eq_nil_iff.mp (List.eq_nil_of_length_eq_zero (by omega))
  rw [hempty] at hvalue
  cases hvalue

end Decoding
end PuffoAgent.Projection
