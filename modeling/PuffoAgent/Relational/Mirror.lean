import PuffoAgent.Relational.Table
import PuffoAgent.Text.Json

/-! A table in memory that mirrors one JSON document on disk: every change is written
before it counts, and a restart reads the document back. -/
namespace PuffoAgent.Relational
open Text

/-- How a row is written as a member of the document, under its key. -/
structure Codec (α : Type) (key : α → String) where
  toDict : α → Json
  parse : Json → Option α
  parse_toDict : ∀ a, parse (toDict a) = some a

namespace Codec
variable {α : Type} {key : α → String} (codec : Codec α key)

def save (t : Table α String key) : List (String × Json) := t.rows.map fun a => (key a, codec.toDict a)

/-- One member of the document; malformed ones and those under another key are skipped. -/
def loadMember (t : Table α String key) (member : String × Json) : Table α String key :=
  match codec.parse member.2 with
  | some a => if key a = member.1 then t.insertOrIgnore a else t
  | none => t

def load (document : List (String × Json)) : Table α String key := document.foldl codec.loadMember .empty

theorem rows_loadMember {t : Table α String key} {a : α} (h : key a ∉ t.rows.map key) :
    (codec.loadMember t (key a, codec.toDict a)).rows = t.rows ++ [a] := by
  simp only [loadMember, codec.parse_toDict, if_true]
  exact Table.rows_insertOrIgnore (Table.get?_eq_none_iff.2 h)

/-- What was saved is loaded as it was. -/
theorem load_save (t : Table α String key) : codec.load (codec.save t) = t := by
  have fold : ∀ (rows : List α) (acc : Table α String key), ((acc.rows ++ rows).map key).Nodup →
      ((rows.map fun a => (key a, codec.toDict a)).foldl codec.loadMember acc).rows = acc.rows ++ rows := by
    intro rows
    induction rows with
    | nil => intro acc _; simp
    | cons a rows ih =>
      intro acc hn
      have ha : key a ∉ acc.rows.map key := by
        intro hm
        rw [List.map_append, List.map_cons] at hn
        exact (List.nodup_append.1 hn).2.2 _ hm _ List.mem_cons_self rfl
      rw [List.map_cons, List.foldl_cons, ih, codec.rows_loadMember ha, List.append_assoc]
      · rfl
      · rw [codec.rows_loadMember ha, List.append_assoc]
        exact hn
  exact Table.ext_rows (fold t.rows .empty t.nodup)

end Codec

/-- The rows in memory and the document on disk. -/
structure Mirror (α : Type) (key : α → String) where
  memory : Table α String key
  file : List (String × Json)

namespace Mirror
variable {α : Type} {key : α → String} (codec : Codec α key) (m : Mirror α key)

def empty : Mirror α key := ⟨.empty, []⟩

/-- Write the changed rows; when the write fails, the rows in memory go back. -/
def persistOrRestore (rows : Table α String key) (persists : Bool) : Mirror α key × Bool :=
  if persists then (⟨rows, codec.save rows⟩, true) else (m, false)

/-- A restart knows what the document holds. -/
def restart : Mirror α key := { m with memory := codec.load m.file }

/-- The document holds exactly the rows in memory. -/
def Synced : Prop := m.file = codec.save m.memory

variable {codec m}

theorem Synced.restart (h : m.Synced codec) : m.restart codec = m := by
  have hm : codec.load m.file = m.memory := by rw [h, codec.load_save]
  rw [Mirror.restart, hm]

end Mirror
end PuffoAgent.Relational
