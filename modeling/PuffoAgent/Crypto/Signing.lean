import PuffoAgent.Crypto.Canonical

/-! Canonical bytes determine the value up to the order of dict keys, and so does what is signed. -/
namespace PuffoAgent.Crypto
open Text Text.Json

mutual
/-- The property of the value and of every value inside it. -/
def Everywhere (p : Json → Prop) : Json → Prop
  | .arr items => p (.arr items) ∧ EveryItem p items
  | .obj members => p (.obj members) ∧ EveryMember p members
  | v => p v

def EveryItem (p : Json → Prop) : List Json → Prop
  | [] => True
  | v :: vs => Everywhere p v ∧ EveryItem p vs

def EveryMember (p : Json → Prop) : List (String × Json) → Prop
  | [] => True
  | (_, v) :: ms => Everywhere p v ∧ EveryMember p ms
end

/-- No float; and, as for every dict, no key twice. -/
def PlainNode : Json → Prop
  | .float _ => False
  | .obj members => (members.map (·.1)).Nodup
  | _ => True

instance : (v : Json) → Decidable (PlainNode v)
  | .float _ => isFalse id
  | .obj members => inferInstanceAs (Decidable (members.map (·.1)).Nodup)
  | .null | .bool _ | .int _ | .str _ | .arr _ => isTrue trivial

def Plain (v : Json) : Prop := Everywhere PlainNode v

mutual
/-- Equal up to the order of the keys of dicts, at every depth. -/
inductive Same : Json → Json → Prop
  | null : Same .null .null
  | bool (b : Bool) : Same (.bool b) (.bool b)
  | int (n : Int) : Same (.int n) (.int n)
  | float (f : FloatText) : Same (.float f) (.float f)
  | str (s : String) : Same (.str s) (.str s)
  | arr {vs ws : List Json} : SameItems vs ws → Same (.arr vs) (.arr ws)
  | obj {ms ns ns' : List (String × Json)} : SameMembers ms ns → ns.Perm ns' → Same (.obj ms) (.obj ns')

inductive SameItems : List Json → List Json → Prop
  | nil : SameItems [] []
  | cons {v w : Json} {vs ws : List Json} : Same v w → SameItems vs ws → SameItems (v :: vs) (w :: ws)

inductive SameMembers : List (String × Json) → List (String × Json) → Prop
  | nil : SameMembers [] []
  | cons {k : String} {v w : Json} {ms ns : List (String × Json)} : Same v w → SameMembers ms ns →
      SameMembers ((k, v) :: ms) ((k, w) :: ns)
end

section Ordered

mutual
/-- The value with its dicts in the order they are written. -/
def ordered : Json → Json
  | .arr items => .arr (orderedItems items)
  | .obj members => .obj (sortByKey (orderedMembers members))
  | v => v

def orderedItems : List Json → List Json
  | [] => []
  | v :: vs => ordered v :: orderedItems vs

def orderedMembers : List (String × Json) → List (String × Json)
  | [] => []
  | (k, v) :: ms => (k, ordered v) :: orderedMembers ms
end

theorem orderedMembers_eq (ms : List (String × Json)) : orderedMembers ms = ms.map (Prod.map id ordered) := by
  induction ms with
  | nil => rfl
  | cons m ms ih => rw [orderedMembers, ih]; rfl

theorem orderedMembers_keys (ms : List (String × Json)) : (orderedMembers ms).map (·.1) = ms.map (·.1) := by
  rw [orderedMembers_eq, List.map_map]
  rfl

theorem dumpsMembers_eq (escape : Char → String) (ms : List (String × Json)) :
    dumpsMembers escape ms = ms.map fun m => quoteWith escape m.1 ++ ":" ++ dumpsWith escape m.2 := by
  induction ms with
  | nil => rfl
  | cons m ms ih => rw [dumpsMembers, ih]; rfl

variable (floats : Floats)

mutual
/-- Without floats nothing raises, and the text is that of the ordered value. -/
theorem write_eq : (v : Json) → Plain v → write floats v = some (ordered v).dumps
  | .null, _ => rfl
  | .bool _, _ => rfl
  | .int _, _ => rfl
  | .float _, h => h.elim
  | .str _, _ => rfl
  | .arr items, h => by
    rw [write, writeItems_eq items h.2]
    rfl
  | .obj ms, h => by
    rw [write, writeMembers_eq ms h.2]
    have hsort := sortByKey_map Json.dumps (orderedMembers ms)
    simp only [Option.bind_eq_bind, Option.bind_some, Option.pure_def, hsort, List.map_map]
    rw [ordered, dumps, dumpsWith, dumpsMembers_eq]
    rfl

theorem writeItems_eq : (vs : List Json) → EveryItem PlainNode vs →
    writeItems floats vs = some (dumpsItems escapeChar (orderedItems vs))
  | [], _ => rfl
  | v :: vs, h => by
    rw [writeItems, write_eq v h.1, writeItems_eq vs h.2]
    rfl

theorem writeMembers_eq : (ms : List (String × Json)) → EveryMember PlainNode ms →
    writeMembers floats ms = some ((orderedMembers ms).map (Prod.map id Json.dumps))
  | [], _ => rfl
  | (k, v) :: ms, h => by
    rw [writeMembers, write_eq v h.1, writeMembers_eq ms h.2]
    rfl
end

mutual
theorem Same.ordered_eq : {v w : Json} → Same v w → Plain v → ordered v = ordered w
  | _, _, .null, _ => rfl
  | _, _, .bool _, _ => rfl
  | _, _, .int _, _ => rfl
  | _, _, .float _, _ => rfl
  | _, _, .str _, _ => rfl
  | _, _, .arr hs, h => by rw [ordered, ordered, hs.ordered_eq h.2]
  | .obj ms, _, .obj hs hp, h => by
    have hkeys : ((orderedMembers ms).map (·.1)).Nodup := by
      rw [orderedMembers_keys]
      exact h.1
    have hperm := hp.map (Prod.map id ordered)
    rw [← orderedMembers_eq, ← orderedMembers_eq, ← hs.ordered_eq h.2] at hperm
    rw [ordered, ordered, sortByKey_congr hkeys hperm]

theorem SameItems.ordered_eq : {vs ws : List Json} → SameItems vs ws → EveryItem PlainNode vs →
    orderedItems vs = orderedItems ws
  | _, _, .nil, _ => rfl
  | _, _, .cons hv hs, h => by rw [orderedItems, orderedItems, hv.ordered_eq h.1, hs.ordered_eq h.2]

theorem SameMembers.ordered_eq : {ms ns : List (String × Json)} → SameMembers ms ns → EveryMember PlainNode ms →
    orderedMembers ms = orderedMembers ns
  | _, _, .nil, _ => rfl
  | _, _, .cons hv hs, h => by rw [orderedMembers, orderedMembers, hv.ordered_eq h.1, hs.ordered_eq h.2]
end

mutual
/-- Equal ordered values can be matched part by part, dicts after a permutation. -/
theorem same_of_ordered : (v w : Json) → ordered v = ordered w → Same v w
  | .null, w, h => by
    cases w <;> first | exact .null | cases h
  | .bool b, w, h => by
    cases w <;> first | cases h
    exact .bool b
  | .int n, w, h => by
    cases w <;> first | cases h
    exact .int n
  | .float f, w, h => by
    cases w <;> first | cases h
    exact .float f
  | .str s, w, h => by
    cases w <;> first | cases h
    exact .str s
  | .arr vs, w, h => by
    cases w with
    | arr ws => exact .arr (sameItems_of_ordered vs ws (Json.arr.inj h))
    | _ => cases h
  | .obj ms, w, h => by
    cases w with
    | obj ns =>
      have hperm : (orderedMembers ms).Perm (orderedMembers ns) :=
        (sortByKey_perm _).symm.trans (Json.obj.inj h ▸ sortByKey_perm _)
      rw [orderedMembers_eq ns] at hperm
      obtain ⟨ns', heq, hp⟩ := (congrFun₂ (List.eq_map_comp_perm (Prod.map id ordered)) _ ns).mpr hperm
      rw [← orderedMembers_eq] at heq
      exact .obj (sameMembers_of_ordered ms ns' heq) hp
    | _ => cases h

theorem sameItems_of_ordered : (vs ws : List Json) → orderedItems vs = orderedItems ws → SameItems vs ws
  | [], ws, h => by
    cases ws with
    | nil => exact .nil
    | cons w ws => cases h
  | v :: vs, ws, h => by
    cases ws with
    | nil => cases h
    | cons w ws =>
      obtain ⟨hv, hvs⟩ := List.cons.inj h
      exact .cons (same_of_ordered v w hv) (sameItems_of_ordered vs ws hvs)

theorem sameMembers_of_ordered : (ms ns : List (String × Json)) → orderedMembers ms = orderedMembers ns →
    SameMembers ms ns
  | [], ns, h => by
    cases ns with
    | nil => exact .nil
    | cons n ns => cases h
  | (k, v) :: ms, ns, h => by
    cases ns with
    | nil => cases h
    | cons n ns =>
      obtain ⟨hm, hms⟩ := List.cons.inj h
      obtain ⟨rfl, hv⟩ := Prod.mk.inj hm
      exact .cons (same_of_ordered v n.2 hv) (sameMembers_of_ordered ms ns hms)
end

theorem dumps_inj {v w : Json} (h : v.dumps = w.dumps) : v = w := by
  have hload := loads_dumps v
  rw [h, loads_dumps] at hload
  exact (Option.some.inj hload).symm

/-- Without floats, the bytes are equal exactly for values equal up to the order of keys. -/
theorem canonicalize_same_iff {v w : Json} (hv : Plain v) (hw : Plain w) :
    (∃ bytes, canonicalize floats v = some bytes ∧ canonicalize floats w = some bytes) ↔ Same v w := by
  unfold canonicalize
  rw [write_eq floats v hv, write_eq floats w hw]
  constructor
  · rintro ⟨bytes, hleft, hright⟩
    have hbytes := (Option.some.inj hleft).trans (Option.some.inj hright).symm
    exact same_of_ordered v w (dumps_inj (String.toByteArray_inj.1 hbytes))
  · intro h
    rw [h.ordered_eq hv]
    exact ⟨_, rfl, rfl⟩

/-- The signed bytes cover every member of a dict but the two that hold signatures. -/
theorem canonical_bytes_injective {v w : Json} (hv : Plain v) (hw : Plain w) :
    ((∃ bytes, canonicalize floats v = some bytes ∧ canonicalize floats w = some bytes) ↔ Same v w) ∧
    ∀ ms ns, Plain (.obj (stripped ms)) → Plain (.obj (stripped ns)) →
      ((∃ bytes, canonicalizeForSigning floats (.obj ms) = some bytes ∧
          canonicalizeForSigning floats (.obj ns) = some bytes) ↔
        Same (.obj (stripped ms)) (.obj (stripped ns))) :=
  ⟨canonicalize_same_iff floats hv hw, fun _ _ hms hns => canonicalize_same_iff floats hms hns⟩

theorem canonical_bytes_nested :
    ((∃ bytes, canonicalize noFloats (.obj [("b", .int 1), ("a", .arr [.bool true])]) =
          some bytes ∧
        canonicalize noFloats (.obj [("a", .arr [.bool true]), ("b", .int 1)]) = some bytes) ↔
      Same (.obj [("b", .int 1), ("a", .arr [.bool true])]) (.obj [("a", .arr [.bool true]), ("b", .int 1)])) ∧
    ((∃ bytes, canonicalizeForSigning noFloats (.obj [("a", .int 1), ("signature", .null)]) =
          some bytes ∧
        canonicalizeForSigning noFloats (.obj [("a", .bool true)]) = some bytes) ↔
      Same (.obj [("a", .int 1)]) (.obj [("a", .bool true)])) := by
  have h := canonical_bytes_injective noFloats
    (v := .obj [("b", .int 1), ("a", .arr [.bool true])]) (w := .obj [("a", .arr [.bool true]), ("b", .int 1)])
    ⟨by decide, trivial, ⟨trivial, trivial, trivial⟩, trivial⟩ ⟨by decide, ⟨trivial, trivial, trivial⟩, trivial, trivial⟩
  exact ⟨h.1, h.2 [("a", .int 1), ("signature", .null)] [("a", .bool true)] ⟨by decide, trivial, trivial⟩
    ⟨by decide, trivial, trivial⟩⟩

end Ordered
end PuffoAgent.Crypto
