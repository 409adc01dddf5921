import PuffoAgent.Inbox.Walk

/-! Cursors that a caller makes up: what a page read does on any text that is given as one. -/
namespace PuffoAgent.Inbox
open Relational Store Machine Text Projection

section Tuples
variable {floats : Json → Json → Comparison} {a b : Json} {as bs : List Json}

def isText : Json → Bool
  | .str _ => true
  | _ => false

/-- Two numbers or two texts. -/
def sameKind (a b : Json) : Bool := (isNumber a ∧ isNumber b) ∨ (isText a ∧ isText b)

/-- The first items that differ are of one kind. -/
def Comparable (floats : Json → Json → Comparison) : List Json → List Json → Prop
  | a :: as, b :: bs => if compareItem floats a b = .eq then Comparable floats as bs else sameKind a b
  | _, _ => True

/-- Comparing two numbers does not raise. -/
def OrdersNumbers (floats : Json → Json → Comparison) : Prop :=
  ∀ a b, isNumber a → isNumber b → floats a b ≠ .mismatch

theorem Comparison.of_ne_mismatch {α : Type} [LinearOrder α] (x y : α) : Comparison.of x y ≠ .mismatch := by
  unfold Comparison.of
  split_ifs <;> nofun

theorem isNumber_of_integer {n : Int} (h : integer a = some n) : isNumber a = true := by
  cases a <;> first | rfl | cases h

theorem sameKind_iff : sameKind a b = true ↔ (isNumber a = true ∧ isNumber b = true) ∨ (isText a = true ∧ isText b = true) := by
  rw [sameKind, decide_eq_true_eq]

theorem compareItem_ne_mismatch (hf : OrdersNumbers floats) : compareItem floats a b ≠ .mismatch ↔ sameKind a b = true := by
  rw [sameKind_iff]
  unfold compareItem
  split
  case h_1 m n ha hb =>
    exact iff_of_true (Comparison.of_ne_mismatch m n) (.inl ⟨isNumber_of_integer ha, isNumber_of_integer hb⟩)
  case h_2 =>
    split
    case h_1 x y _ => exact iff_of_true (Comparison.of_ne_mismatch x y) (.inr ⟨rfl, rfl⟩)
    case h_2 hstr =>
      have htext : ¬ (isText a = true ∧ isText b = true) := by
        rintro ⟨ha, hb⟩
        cases a with
        | str x => cases b with
          | str y => exact hstr x y rfl rfl
          | _ => cases hb
        | _ => cases ha
      rw [or_iff_left htext]
      split_ifs with hnum
      · exact iff_of_true (hf a b hnum.1 hnum.2) hnum
      · exact iff_of_false (not_not_intro rfl) hnum

theorem tupleLt_error {e : PageError} (h : tupleLt floats as bs = .error e) : e = .typeError := by
  fun_induction tupleLt floats as bs with
  | case4 a as b bs _ ih => exact ih h
  | _ => cases h; try rfl

theorem tupleLe_error {e : PageError} (h : tupleLe floats as bs = .error e) : e = .typeError := by
  fun_induction tupleLe floats as bs with
  | case3 a as b bs _ ih => exact ih h
  | _ => cases h; try rfl

/-- Items that do not raise are equal, so that the rest decides, or of one kind. -/
theorem decided_ok_iff (hf : OrdersNumbers floats) {rest : Except PageError Bool} {p : Prop}
    (hrest : (∃ less, rest = .ok less) ↔ p) :
    (∃ less, (match compareItem floats a b with
        | .eq => rest
        | .lt => .ok true
        | .gt | .unordered => .ok false
        | .mismatch => .error .typeError) = .ok less) ↔
      if compareItem floats a b = .eq then p else sameKind a b := by
  have hkind := compareItem_ne_mismatch (a := a) (b := b) hf
  cases hc : compareItem floats a b with
  | eq => rwa [if_pos rfl]
  | mismatch =>
    rw [if_neg (fun h => by cases h), ← hkind, hc]
    refine iff_of_false ?_ (not_not_intro rfl)
    rintro ⟨_, h⟩
    cases h
  | lt | gt | unordered =>
    rw [if_neg (fun h => by cases h), ← hkind, hc]
    exact iff_of_true ⟨_, rfl⟩ fun h => by cases h

/-- A comparison of tuples is decided by the comparison of their first items that differ. -/
theorem tupleLt_ok_iff (hf : OrdersNumbers floats) : (∃ less, tupleLt floats as bs = .ok less) ↔ Comparable floats as bs := by
  induction as generalizing bs with
  | nil => cases bs <;> exact iff_of_true ⟨_, rfl⟩ trivial
  | cons a as ih =>
    cases bs with
    | nil => exact iff_of_true ⟨_, rfl⟩ trivial
    | cons b bs => exact decided_ok_iff hf ih

theorem tupleLe_ok_iff (hf : OrdersNumbers floats) : (∃ less, tupleLe floats as bs = .ok less) ↔ Comparable floats as bs := by
  induction as generalizing bs with
  | nil => cases bs <;> exact iff_of_true ⟨_, rfl⟩ trivial
  | cons a as ih =>
    cases bs with
    | nil => exact iff_of_true ⟨_, rfl⟩ trivial
    | cons b bs => exact decided_ok_iff hf ih

end Tuples
section Selection
variable {floats : Json → Json → Comparison} {p : StoredMessage → Except PageError Bool} {ms kept : List StoredMessage}

theorem selectM_ok_iff : (∃ kept, selectM p ms = .ok kept) ↔ ∀ m ∈ ms, ∃ keep, p m = .ok keep := by
  induction ms with
  | nil => exact iff_of_true ⟨[], rfl⟩ fun m hm => absurd hm List.not_mem_nil
  | cons m ms ih =>
    rw [List.forall_mem_cons, ← ih]
    constructor
    · rintro ⟨kept, h⟩
      rw [selectM] at h
      obtain ⟨keep, hkeep, h⟩ := except_bind_ok_iff.mp h
      obtain ⟨rest, hrest, -⟩ := except_bind_ok_iff.mp h
      exact ⟨⟨keep, hkeep⟩, rest, hrest⟩
    · rintro ⟨⟨keep, hkeep⟩, rest, hrest⟩
      exact ⟨_, by rw [selectM, hkeep, hrest]; rfl⟩

theorem mem_of_selectM (h : selectM p ms = .ok kept) {m : StoredMessage} (hm : m ∈ kept) : m ∈ ms ∧ p m = .ok true := by
  induction ms generalizing kept with
  | nil =>
    cases h
    cases hm
  | cons n ms ih =>
    rw [selectM] at h
    obtain ⟨keep, hkeep, h⟩ := except_bind_ok_iff.mp h
    obtain ⟨rest, hrest, h⟩ := except_bind_ok_iff.mp h
    cases h
    cases keep with
    | false => exact (ih hrest hm).imp_left (List.mem_cons_of_mem n)
    | true =>
      rcases List.mem_cons.mp hm with rfl | hm
      · exact ⟨List.mem_cons_self, hkeep⟩
      · exact (ih hrest hm).imp_left (List.mem_cons_of_mem n)

/-- The place of a row can be compared with the ends of a cursor, with the ceiling where it comes to that. -/
def Placeable (floats : Json → Json → Comparison) (c : InboxCursor) (m : StoredMessage) : Prop :=
  let place := orderItems (inboxOrder m.row)
  Comparable floats c.last place ∧ (tupleLt floats c.last place = .ok true → Comparable floats place c.ceiling)

theorem withinCursor_ok_iff (hf : OrdersNumbers floats) {c : InboxCursor} {m : StoredMessage} :
    (∃ keep, withinCursor floats c m = .ok keep) ↔ Placeable floats c m := by
  rw [Placeable, ← tupleLt_ok_iff hf, ← tupleLe_ok_iff hf, withinCursor]
  cases hlt : tupleLt floats c.last (orderItems (inboxOrder m.row)) with
  | error e =>
    refine iff_of_false ?_ ?_
    · rintro ⟨_, h⟩
      cases h
    · rintro ⟨⟨_, h⟩, -⟩
      cases h
  | ok less =>
    cases less with
    | false => exact iff_of_true ⟨false, rfl⟩ ⟨⟨false, rfl⟩, fun h => by cases h⟩
    | true => exact ⟨fun h => ⟨⟨true, rfl⟩, fun _ => h⟩, fun h => h.2 rfl⟩

/-- Comparing a row with a cursor raises nothing but `TypeError`. -/
theorem withinCursor_error {c : InboxCursor} {m : StoredMessage} {e : PageError} (h : withinCursor floats c m = .error e) :
    e = .typeError := by
  rw [withinCursor] at h
  cases hlt : tupleLt floats c.last (orderItems (inboxOrder m.row)) with
  | error e' =>
    rw [hlt] at h
    cases h
    exact tupleLt_error hlt
  | ok less =>
    rw [hlt] at h
    cases less with
    | false => cases h
    | true => exact tupleLe_error h

theorem selectM_error {e : PageError} (hp : ∀ m e, p m = .error e → e = .typeError) (h : selectM p ms = .error e) :
    e = .typeError := by
  induction ms with
  | nil => cases h
  | cons m ms ih =>
    rw [selectM] at h
    cases hm : p m with
    | error e' =>
      rw [hm] at h
      cases h
      exact hp m e hm
    | ok keep =>
      cases hrest : selectM p ms with
      | error e' =>
        rw [hm, hrest] at h
        cases h
        exact ih hrest
      | ok rest =>
        rw [hm, hrest] at h
        cases h

end Selection
section Reads
variable {text : Text.Host} {floats : Json → Json → Comparison} {s : Tables} {target cursor : String} {limit : Int}
  {c : InboxCursor} {decoded : Option InboxCursor} {page : InboxPage}

/-- A request that is refused for nothing but its cursor. -/
def WellFormed (target : String) (limit : Int) : Prop :=
  (1 ≤ limit ∧ limit ≤ 50) ∧
    (strip target = "" ∨ startsWith (strip target) "channel:" ∨ startsWith (strip target) "dm:")

/-- Where a read begins and ends that is given a cursor, or none. -/
def readFrom (text : Text.Host) (s : Tables) (target : String) (decoded : Option InboxCursor) : InboxCursor :=
  let target := decoded.elim (strip target) (·.target)
  readingFrom s target (pendingIn text s target) decoded

/-- A page of the walk that a cursor describes: pending rows of its target after its place and not above its
ceiling, and at the last of them the cursor that goes on. -/
structure InWalk (text : Text.Host) (floats : Json → Json → Comparison) (s : Tables) (c : InboxCursor) (page : InboxPage) :
    Prop where
  items : ∀ m ∈ page.items, m ∈ pendingIn text s c.target ∧
    tupleLt floats c.last (orderItems (inboxOrder m.row)) = .ok true ∧
    tupleLe floats (orderItems (inboxOrder m.row)) c.ceiling = .ok true
  onward : page.nextCursor ≠ "" → ∃ m ∈ page.items.getLast?,
    page.nextCursor = encodeInboxCursor { c with last := orderItems (inboxOrder m.row) }

theorem inWalk_pageOf {snapshot : List StoredMessage} (hlimit : 1 ≤ limit)
    (h : selectM (withinCursor floats c) (pendingIn text s c.target) = .ok snapshot) :
    InWalk text floats s c (pageOf c snapshot limit.toNat) := by
  refine ⟨fun m hm => ?_, fun hnext => ?_⟩
  · obtain ⟨hpending, hwithin⟩ := mem_of_selectM h (List.mem_of_mem_take hm)
    rw [withinCursor] at hwithin
    obtain ⟨less, hless, hwithin⟩ := except_bind_ok_iff.mp hwithin
    cases less with
    | false => cases hwithin
    | true => exact ⟨hpending, hless, hwithin⟩
  · rw [pageOf_nextCursor] at hnext ⊢
    split_ifs at hnext ⊢ with hmore
    · have hne : snapshot.take limit.toNat ≠ [] := by
        rw [Ne, List.take_eq_nil_iff]
        rintro (hzero | rfl)
        · omega
        · simp at hmore
      refine ⟨_, List.getLast?_eq_some_getLast hne, ?_⟩
      rw [List.getLast?_eq_some_getLast hne]
      rfl
    · exact absurd rfl hnext

theorem target_readFrom : (readFrom text s target decoded).target = decoded.elim (strip target) (·.target) := by
  cases decoded <;> rfl

/-- A request whose cursor can be read is answered with a selection of the pending rows. -/
theorem readInboxPage_given (text : Text.Host) (s : Tables) (h : WellFormed target limit) (hgiven : givenCursor floats (strip target) cursor = .ok decoded) :
    readInboxPage text floats s target cursor limit =
      (selectM (withinCursor floats (readFrom text s target decoded)) (pendingIn text s (readFrom text s target decoded).target)).map
        fun snapshot => pageOf (readFrom text s target decoded) snapshot limit.toNat := by
  obtain ⟨hlimit, htarget⟩ := h
  have hprefix : ¬ (strip target ≠ "" ∧ ¬ (startsWith (strip target) "channel:" ∨ startsWith (strip target) "dm:")) :=
    fun h => htarget.elim h.1 h.2
  rw [readInboxPage, if_neg (not_not_intro hlimit), if_neg hprefix, hgiven, target_readFrom]
  change selectM (withinCursor floats (readFrom text s target decoded)) _ >>= _ = _
  cases selectM (withinCursor floats (readFrom text s target decoded)) (pendingIn text s (decoded.elim (strip target) (·.target))) <;>
    rfl

theorem givenCursor_error {e : PageError} (h : givenCursor floats target cursor = .error e) :
    ∃ message, e = .valueError message := by
  unfold givenCursor at h
  split_ifs at h with hempty
  cases hc : decodeInboxCursor floats cursor with
  | ok c =>
    rw [hc] at h
    simp only at h
    split_ifs at h
    cases h
    exact ⟨_, rfl⟩
  | error e' =>
    rw [hc] at h
    cases h
    unfold decodeInboxCursor at hc
    split at hc
    · cases hc
      exact ⟨_, rfl⟩
    · split at hc
      · split_ifs at hc
        cases hc
        exact ⟨_, rfl⟩
      · cases hc
        exact ⟨_, rfl⟩

/-- A request that is refused before its rows are compared is refused with a `ValueError`. -/
theorem readInboxPage_refused (text : Text.Host) (s : Tables)
    (h : ¬ WellFormed target limit ∨ ∃ e, givenCursor floats (strip target) cursor = .error e) :
    ∃ message, readInboxPage text floats s target cursor limit = .error (.valueError message) := by
  unfold readInboxPage
  by_cases hlimit : 1 ≤ limit ∧ limit ≤ 50
  · rw [if_neg (not_not_intro hlimit)]
    by_cases htarget : strip target ≠ "" ∧ ¬ (startsWith (strip target) "channel:" ∨ startsWith (strip target) "dm:")
    · rw [if_pos htarget]
      exact ⟨_, rfl⟩
    · rw [if_neg htarget]
      have hwell : WellFormed target limit := by
        refine ⟨hlimit, ?_⟩
        by_cases hempty : strip target = ""
        · exact .inl hempty
        · exact .inr (not_not.mp fun hno => htarget ⟨hempty, hno⟩)
      obtain ⟨e, he⟩ := h.resolve_left (not_not_intro hwell)
      obtain ⟨message, rfl⟩ := givenCursor_error he
      exact ⟨message, by rw [he]; rfl⟩
  · rw [if_pos hlimit]
    exact ⟨_, rfl⟩

theorem comparable_orderItems (a b : Position) : Comparable floats (orderItems a) (orderItems b) := by
  simp [orderItems, Comparable, sameKind, isNumber, isText]

/-- Every row can be compared with the ends of a walk that starts. -/
theorem placeable_start {m : StoredMessage} : Placeable floats (readFrom text s target none) m := by
  refine ⟨by simp [readFrom, readingFrom, orderItems, Comparable, sameKind, isNumber, isText], fun _ => ?_⟩
  change Comparable floats _ ((pendingIn text s (strip target)).getLast?.elim _ fun m => orderItems (inboxOrder m.row))
  cases (pendingIn text s (strip target)).getLast? with
  | none => exact comparable_orderItems _ (toLex (0, toLex (0, toLex (0, ""))))
  | some top => exact comparable_orderItems _ _

/-- The cursor of a request that gets as far as comparing rows with it. -/
def Uses (floats : Json → Json → Comparison) (target cursor : String) (limit : Int) (c : InboxCursor) : Prop :=
  WellFormed target limit ∧ givenCursor floats (strip target) cursor = .ok (some c)

/-- Whatever text is given as a cursor, a page read returns a page of the walk that the cursor describes or
raises `ValueError`, if and only if every pending row of the target can be placed against the cursor. -/
theorem cursor_errors_iff (hf : OrdersNumbers floats) (text : Text.Host) (s : Tables) (target cursor : String) (limit : Int) :
    ((∀ e, readInboxPage text floats s target cursor limit = .error e → ∃ message, e = .valueError message) ∧
      ∀ page, readInboxPage text floats s target cursor limit = .ok page →
        ∃ decoded, givenCursor floats (strip target) cursor = .ok decoded ∧
          InWalk text floats s (readFrom text s target decoded) page) ↔
    ∀ c, Uses floats target cursor limit c → ∀ m ∈ pendingIn text s c.target, Placeable floats c m := by
  by_cases hrefused : ¬ WellFormed target limit ∨ ∃ e, givenCursor floats (strip target) cursor = .error e
  · obtain ⟨message, h⟩ := readInboxPage_refused text s hrefused
    refine iff_of_true ⟨fun e he => ?_, fun page hpage => ?_⟩ fun c hc => ?_
    · rw [h] at he
      cases he
      exact ⟨message, rfl⟩
    · rw [h] at hpage
      cases hpage
    · rcases hrefused with hno | ⟨e, he⟩
      · exact absurd hc.1 hno
      · rw [hc.2] at he
        cases he
  · obtain ⟨hwell, hgiven⟩ := not_or.mp hrefused
    have hwell := not_not.mp hwell
    cases hdecoded : givenCursor floats (strip target) cursor with
    | error e => exact absurd ⟨e, hdecoded⟩ hgiven
    | ok decoded =>
      have hread := readInboxPage_given text s hwell hdecoded
      have hplace : (∀ c, Uses floats target cursor limit c → ∀ m ∈ pendingIn text s c.target, Placeable floats c m) ↔
          ∀ m ∈ pendingIn text s (readFrom text s target decoded).target, Placeable floats (readFrom text s target decoded) m := by
        cases decoded with
        | none => exact iff_of_true (fun c hc => by rw [Uses, hdecoded] at hc; cases hc.2) fun m _ => placeable_start
        | some c =>
          refine ⟨fun h => h c ⟨hwell, hdecoded⟩, fun h c' hc' => ?_⟩
          have hsame := hdecoded.symm.trans hc'.2
          cases hsame
          exact h
      rw [hplace, hread, ← forall₂_congr fun m hm => withinCursor_ok_iff hf, ← selectM_ok_iff]
      cases hselect : selectM (withinCursor floats (readFrom text s target decoded))
          (pendingIn text s (readFrom text s target decoded).target) with
      | ok snapshot =>
        refine iff_of_true ⟨fun e he => (nomatch he), fun page hpage => ?_⟩ ⟨snapshot, rfl⟩
        cases hpage
        exact ⟨decoded, rfl, inWalk_pageOf hwell.1.1 hselect⟩
      | error e =>
        refine iff_of_false (fun h => ?_) fun ⟨snapshot, h⟩ => nomatch h
        obtain ⟨message, rfl⟩ := h.1 e rfl
        exact absurd (selectM_error (fun m e => withinCursor_error) hselect) nofun

/-- The store of one message that waits at the sequence 10. -/
def oneWaiting : Tables := after bareHost [.store (.storeReceipt (directMessage "b") 10 .eligible "" 0 0)]

/-- The cursor of that message, with a text where its place should be. -/
def textCursor : InboxCursor := ⟨"", 0, [.int 10, .int 0, .int 0, .str "b"], [.str "x"]⟩

theorem exists_error {ε α : Type} {x : Except ε α} {P : ε → Prop} [DecidablePred P]
    (h : (match x with | .error e => decide (P e) | .ok _ => false) = true) : ∃ e, x = .error e ∧ P e := by
  cases x with
  | error e => exact ⟨e, rfl, of_decide_eq_true h⟩
  | ok a => cases h

theorem text_cursor_raises_typeError :
    readInboxPage asciiHost noFloats oneWaiting "" (encodeInboxCursor textCursor) 50 = .error .typeError := by
  obtain ⟨e, he, rfl⟩ : ∃ e, readInboxPage asciiHost noFloats oneWaiting "" (encodeInboxCursor textCursor) 50 = .error e ∧
      e = .typeError := by
    refine exists_error ?_
    decide +kernel
  exact he

/-- A cursor whose place is one number is well placed before the message. -/
theorem cursor_errors_iff_number :
    ∃ page, readInboxPage asciiHost noFloats oneWaiting ""
        (encodeInboxCursor { textCursor with last := [.int 9] }) 50 = .ok page ∧
      InWalk asciiHost noFloats oneWaiting { textCursor with last := [.int 9] } page := by
  have hread : ∃ page, readInboxPage asciiHost noFloats oneWaiting ""
      (encodeInboxCursor { textCursor with last := [.int 9] }) 50 = .ok page ∧ page.items.length = 1 := by
    refine exists_ok ?_
    decide +kernel
  obtain ⟨page, hpage, -⟩ := hread
  have hplaced : ∀ c, Uses noFloats "" (encodeInboxCursor { textCursor with last := [.int 9] }) 50 c →
      ∀ m ∈ pendingIn asciiHost oneWaiting c.target, Placeable noFloats c m := by
    intro c hc m hm
    have hgiven : givenCursor noFloats (strip "") (encodeInboxCursor { textCursor with last := [.int 9] }) =
        .ok (some { textCursor with last := [.int 9] }) := by
      rw [givenCursor, if_neg (encodeInboxCursor_ne_empty _), decode_encode]
      rfl
    obtain rfl := Option.some.inj (Except.ok.inj (hgiven.symm.trans hc.2))
    exact ⟨by simp [orderItems, Comparable, sameKind, isNumber], fun _ => comparable_orderItems _ (toLex (10, toLex (0, toLex (0, "b"))))⟩
  have hnumbers : OrdersNumbers noFloats := by
    intro a b _ _ h
    cases h
  obtain ⟨-, hpages⟩ := (cursor_errors_iff hnumbers asciiHost oneWaiting "" _ 50).mpr hplaced
  obtain ⟨decoded, hgiven, hwalk⟩ := hpages page hpage
  rw [givenCursor, if_neg (encodeInboxCursor_ne_empty _), decode_encode] at hgiven
  cases hgiven
  exact ⟨page, hpage, hwalk⟩

end Reads
end PuffoAgent.Inbox
