import PuffoAgent.Outbox.Uploader

/-! What each operation does to the stored rows. -/
namespace PuffoAgent.Outbox
open Machine Text
open RuntimeEventOutbox (retried selectPrefix migrateRow migrateRow_eq_some)

/-- A 2xx response whose body names these ids. -/
def Accepts (str : Json → String) (raw : RawResponse) (ids : List String) : Prop :=
  ∃ status payload, decodeResponse raw = .decoded status payload ∧ (200 ≤ status ∧ status < 300) ∧
    Uploader.acceptedIds str payload = some ids

/-- A response that rejects the events themselves. -/
def Rejects (raw : RawResponse) : Prop :=
  ∃ status payload, decodeResponse raw = .decoded status payload ∧ ¬ (200 ≤ status ∧ status < 300) ∧
    ¬ (status = 429 ∨ 500 ≤ status) ∧ status ∉ Uploader.degradedChannel

section Rows
variable {o : RuntimeEventOutbox}

theorem acknowledge_eq_some {rows : List OutboxRow} {ids : List String} {o' : RuntimeEventOutbox}
    (h : o.acknowledge rows ids = some o') (hne : rows ≠ []) : ids = rows.map (·.eventId) ∧
      ∃ first last, rows.head? = some first ∧ rows.getLast? = some last ∧
        o' = o.delete fun r => decide (first.sequence ≤ r.sequence ∧ r.sequence ≤ last.sequence) := by
  have hfirst := List.head?_eq_some_head hne
  have hlast := List.getLast?_eq_some_getLast hne
  unfold RuntimeEventOutbox.acknowledge at h
  rw [hfirst, hlast] at h
  by_cases hids : ids = rows.map (·.eventId)
  · refine ⟨hids, _, _, hfirst, hlast, ?_⟩
    rw [if_neg (not_not.2 hids)] at h
    dsimp only at h
    split at h
    case isTrue => cases h
    case isFalse => exact (Option.some.inj h).symm
  · rw [if_pos hids] at h
    cases h

/-- The rows between the ends of a prefix are the prefix. -/
theorem delete_between {batch rest : List OutboxRow} (h : o.rows = batch ++ rest) {first last : OutboxRow}
    (hfirst : batch.head? = some first) (hlast : batch.getLast? = some last) :
    (o.delete fun r => decide (first.sequence ≤ r.sequence ∧ r.sequence ≤ last.sequence)).rows = rest := by
  have hord := o.ordered
  rw [h, List.pairwise_append] at hord
  obtain ⟨hbatch, -, hcross⟩ := hord
  have hinside : ∀ r ∈ batch, first.sequence ≤ r.sequence ∧ r.sequence ≤ last.sequence := by
    intro r hr
    constructor
    · obtain ⟨tail, rfl⟩ := List.head?_eq_some_iff.1 hfirst
      rcases List.mem_cons.1 hr with rfl | hr
      · exact le_rfl
      · exact ((List.pairwise_cons.1 hbatch).1 r hr).le
    · obtain ⟨init, rfl⟩ := List.getLast?_eq_some_iff.1 hlast
      rcases List.mem_append.1 hr with hr | hr
      · exact ((List.pairwise_append.1 hbatch).2.2 r hr last (List.mem_singleton_self _)).le
      · rw [List.mem_singleton.1 hr]
  have houtside : ∀ r ∈ rest, ¬ (first.sequence ≤ r.sequence ∧ r.sequence ≤ last.sequence) := by
    intro r hr hle
    exact absurd (hcross last (List.mem_of_getLast? hlast) r hr) (Nat.not_lt.2 hle.2)
  simp only [RuntimeEventOutbox.delete, h, List.filter_append]
  rw [List.filter_eq_nil_iff.2 fun r hr => by simpa using hinside r hr,
    List.filter_eq_self.2 fun r hr => by simpa only [decide_eq_true_eq] using houtside r hr,
    List.nil_append]

theorem discard_head {head : OutboxRow} {rest : List OutboxRow} (h : o.rows = head :: rest) :
    (o.discard head).rows = rest := by
  have hord := o.ordered
  rw [h, List.pairwise_cons] at hord
  simp only [RuntimeEventOutbox.discard, RuntimeEventOutbox.delete, h]
  rw [List.filter_cons_of_neg (by simp), List.filter_eq_self.2 fun r hr => by simpa using (hord.1 r hr).ne']

theorem rows_incrementRetries (sequences : List Nat) :
    (o.incrementRetries sequences).rows = o.rows.map (retried sequences) :=
  List.filterMap_eq_map ▸ rfl

/-- A selected prefix is one, and only the head alone is ever too long. -/
theorem selectPrefix_takes (maxBytes : Nat) (total : Nat) (started : Bool) (rows : List OutboxRow) :
    selectPrefix maxBytes total started rows <+: rows := by
  induction rows generalizing total started with
  | nil => exact List.prefix_refl _
  | cons row rows ih =>
    cases started
    all_goals
      simp only [selectPrefix, Bool.false_eq_true, if_true, if_false]
      split
    · exact ⟨rows, rfl⟩
    · exact (List.prefix_cons_inj row).2 (ih _ _)
    · exact List.nil_prefix
    · exact (List.prefix_cons_inj row).2 (ih _ _)

theorem takePrefix_prefix (maxRows maxBytes : Nat) : o.takePrefix maxRows maxBytes <+: o.rows :=
  (selectPrefix_takes _ _ _ _).trans (List.take_prefix _ _)

/-- What the rows add to a request body, commas included. -/
def cost (started : Bool) : List OutboxRow → Nat
  | [] => 0
  | row :: rows => byteLen row.eventJson + (if started then 1 else 0) + cost true rows

theorem byteLen_intercalate (rows : List OutboxRow) :
    byteLen (",".intercalate (rows.map (·.eventJson))) = cost false rows := by
  have hcomma : byteLen "," = 1 := by decide
  cases rows with
  | nil => rfl
  | cons row rows =>
    induction rows generalizing row with
    | nil => simp [cost]
    | cons next rows ih =>
      have hrec := ih next
      simp only [List.map_cons, String.intercalate_cons_cons, cost, byteLen, String.utf8ByteSize_append] at hrec hcomma ⊢
      simp only [hrec, hcomma]
      simp
      omega

theorem byteLen_appendBody (rows : List OutboxRow) :
    byteLen (appendBody rows) = byteLen "\x7b\"events\":[]\x7d" + cost false rows := by
  rw [← byteLen_intercalate]
  have hwrap : byteLen "\x7b\"events\":[]\x7d" = byteLen "\x7b\"events\":[" + byteLen "]\x7d" := by decide
  simp only [appendBody, byteLen, String.utf8ByteSize_append] at hwrap ⊢
  omega

/-- Only a row alone ever exceeds the bytes of a batch. -/
theorem selectPrefix_fits (maxBytes total : Nat) (started : Bool) (rows : List OutboxRow)
    (hne : selectPrefix maxBytes total started rows ≠ []) :
    (started = false ∧ ∃ row, selectPrefix maxBytes total started rows = [row]) ∨
      total + cost started (selectPrefix maxBytes total started rows) ≤ maxBytes := by
  induction rows generalizing total started with
  | nil => exact absurd rfl hne
  | cons row rows ih =>
    rw [selectPrefix] at hne ⊢
    by_cases hfull : maxBytes < total + (byteLen row.eventJson + if started then 1 else 0)
    · rw [if_pos hfull] at hne ⊢
      cases started with
      | true => exact absurd rfl hne
      | false => exact .inl ⟨rfl, row, rfl⟩
    · rw [if_neg hfull]
      refine .inr ?_
      by_cases hrest : selectPrefix maxBytes (total + (byteLen row.eventJson + if started then 1 else 0)) true rows = []
      · rw [hrest, cost, cost]
        omega
      · have hfits := (ih _ true hrest).resolve_left fun h => absurd h.1 nofun
        rw [cost]
        omega

/-- A batch that is too long for a request is the head alone. -/
theorem oversized_alone {maxRows maxBytes : Nat} {head : OutboxRow} {rows : List OutboxRow}
    (h : o.takePrefix maxRows maxBytes = head :: rows) (hbig : maxBytes < byteLen (appendBody (head :: rows))) :
    rows = [] := by
  have hfits := selectPrefix_fits maxBytes (byteLen "\x7b\"events\":[]\x7d") false (o.rows.take maxRows)
  rw [byteLen_appendBody] at hbig
  change o.takePrefix maxRows maxBytes ≠ [] → (_ ∧ ∃ row, o.takePrefix maxRows maxBytes = [row]) ∨
    _ + cost false (o.takePrefix maxRows maxBytes) ≤ _ at hfits
  rw [h] at hfits
  rcases hfits (List.cons_ne_nil _ _) with ⟨_, row, hrow⟩ | hle
  · exact (List.cons.inj hrow).2
  · exact absurd hbig (Nat.not_lt.2 hle)

end Rows

section Steps
variable {str : Json → String} {u : Uploader}

/-- The outbox an answered attempt leaves. -/
inductive Answered (str : Json → String) (o : RuntimeEventOutbox) (rows : List OutboxRow) (raw : RawResponse) :
    RuntimeEventOutbox → UploadResult → Prop where
  | acknowledged {o' result} (h : Accepts str raw (rows.map (·.eventId)))
      (hack : o.acknowledge rows (rows.map (·.eventId)) = some o') (hstate : result.state = "uploaded") :
      Answered str o rows raw o' result
  | rejected {result} (head : OutboxRow) (alone : rows = [head]) (h : Rejects raw) (hstate : result.state = "discarded") :
      Answered str o rows raw (o.discard head) result
  | retried {result} : Answered str o rows raw (o.incrementRetries (rows.map (·.sequence))) result
  | kept {result} : Answered str o rows raw o result

theorem rejectAcknowledgement_answered (rows : List OutboxRow) (raw : RawResponse) (status : Option Int) :
    Answered str u.outbox rows raw (u.rejectAcknowledgement rows status).1.outbox
      (u.rejectAcknowledgement rows status).2 := by
  unfold Uploader.rejectAcknowledgement
  split
  · exact .kept
  · exact .retried

theorem respond_answered (rows : List OutboxRow) (hne : rows ≠ []) (raw : RawResponse) :
    Answered str u.outbox rows raw (u.respond str rows raw).1.outbox (u.respond str rows raw).2 := by
  have hreject : ∀ status, Answered str u.outbox rows raw _ _ :=
    fun status => @rejectAcknowledgement_answered str { u with inflight := none } rows raw status
  unfold Uploader.respond
  dsimp only at hreject ⊢
  split
  case h_1 => exact .retried
  case h_2 status _ => exact hreject status
  case h_3 status payload hdec =>
    unfold Uploader.settle
    dsimp only
    split
    case isTrue => exact .retried
    case isFalse hserver =>
      split
      case isTrue => exact .kept
      case isFalse hchannel =>
        split
        case isTrue hstatus =>
          unfold Uploader.isolateOrDiscard
          split
          · exact .rejected _ rfl ⟨status, payload, hdec, by omega, hserver, hchannel⟩ rfl
          · exact .kept
        case isFalse hstatus =>
          split
          case h_1 => exact hreject _
          case h_2 ids hids =>
            split
            case isTrue => exact hreject _
            case isFalse =>
              split
              case h_1 => exact hreject _
              case h_2 o' hack =>
                obtain ⟨rfl, -⟩ := acknowledge_eq_some hack hne
                exact .acknowledged ⟨status, payload, hdec, by omega, hids⟩ hack rfl

end Steps
end PuffoAgent.Outbox
