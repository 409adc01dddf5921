import PuffoAgent.Store.Operations

/-! The operator's answer to a gated message is final: a denied row keeps its placeholder, a
released row is out of reach of denials, and a refused call changes nothing. -/
namespace PuffoAgent.Store
open Relational Stmt Sql Machine

section Answers

/-- Only an answer that says so has written. -/
def Answers (x : StoreM ReceiptResult) : Prop := Does (fun s r s' => r.status ≠ .committed → s' = s) x

/-- The status of a receipt says whether it is written. -/
def Tells : Finish ReceiptResult → Prop
  | .commit r => r.status = .committed
  | .rollback r => r.status ≠ .committed

theorem answers_transaction {body : BodyM (Finish ReceiptResult)} (h : Returns Tells body) : Answers (transaction body) :=
  does_transaction (fun s r s' hb hr => absurd (h s (.commit r) s' hb) hr) fun _ _ _ _ _ => rfl

theorem storeReceiptBody_tells (payload : Payload) (serverSeq : Int) (disposition : ReceiptDisposition)
    (reason : String) (receivedAt now : Int) :
    Returns Tells (storeReceiptBody payload serverSeq disposition reason receivedAt now) := by
  refine .bind fun byId => .bind fun bySeq => ?_
  cases byId with
  | none => exact .ite (returns_pure nofun) (.bind fun _ => .bind fun _ => .bind fun _ => .bind fun _ => returns_pure rfl)
  | some row =>
    refine .ite (.ite (returns_pure nofun) (.ite ?_ (.ite ?_ ?_))) (.ite (returns_pure nofun) (returns_pure nofun))
    · exact .bind fun _ => .bind fun _ => .bind fun _ => .bind fun _ => returns_pure rfl
    · exact .bind fun _ => .bind fun _ => returns_pure rfl
    · exact .bind fun _ => .bind fun _ => returns_pure rfl

theorem storeLocalReceiptBody_tells (payload : Payload) (disposition : ReceiptDisposition) (reason : String)
    (receivedAt : Int) : Returns Tells (storeLocalReceiptBody payload disposition reason receivedAt) := by
  refine .bind fun existing => ?_
  cases existing with
  | none => exact .bind fun _ => .bind fun _ => returns_pure rfl
  | some row =>
    refine .ite (returns_pure nofun) ?_
    split
    · exact .bind fun _ => returns_pure rfl
    · exact returns_pure nofun

theorem promoteGatedReceiptBody_tells (envelopeId : String) (serverSeq : Option Int) (reason : String)
    (replacement : Option (String × String)) (now : Int) :
    Returns Tells (promoteGatedReceiptBody envelopeId serverSeq reason replacement now) := by
  refine .bind fun row => ?_
  cases serverSeq <;> cases row
  · exact returns_pure nofun
  · refine .ite (returns_pure nofun) (.ite (returns_pure nofun) (.ite (returns_pure nofun) ?_))
    exact .bind fun _ => .bind fun _ => .bind fun _ => returns_pure rfl
  · exact returns_pure nofun
  · refine .ite (returns_pure nofun) (.ite (returns_pure nofun) (.ite (returns_pure nofun) ?_))
    exact .bind fun _ => .bind fun _ => returns_pure rfl

theorem tombstoneGatedDmBody_tells (envelopeId : String) (serverSeq : Option Int) :
    Returns Tells (tombstoneGatedDmBody envelopeId serverSeq) := by
  refine .bind fun row => ?_
  cases row with
  | none => exact returns_pure nofun
  | some row =>
    refine .ite (returns_pure nofun) (.ite (returns_pure nofun) (.ite (returns_pure nofun) ?_))
    exact .bind fun _ => returns_pure rfl

/-- The operations that answer with a receipt. -/
def Op.receipt? : Op → Option (StoreM ReceiptResult)
  | .storeReceipt payload serverSeq disposition reason receivedAt now =>
    some (Store.storeReceipt payload serverSeq disposition reason receivedAt now)
  | .storeLocalReceipt payload disposition reason receivedAt =>
    some (Store.storeLocalReceipt payload disposition reason receivedAt)
  | .promoteGatedReceipt envelopeId serverSeq reason approvedPayload now =>
    some (Store.promoteGatedReceipt envelopeId serverSeq reason approvedPayload now)
  | .tombstoneGatedDm envelopeId serverSeq => some (Store.tombstoneGatedDm envelopeId serverSeq)
  | _ => none

theorem Op.receipt_answers {op : Op} {x : StoreM ReceiptResult} (h : op.receipt? = some x) : Answers x := by
  cases op <;> cases h
  · exact Does.raiseIf fun _ => Does.raiseIf fun _ => answers_transaction (storeReceiptBody_tells _ _ _ _ _ _)
  · exact Does.raiseIf fun _ => Does.raiseIf fun _ => answers_transaction (storeLocalReceiptBody_tells _ _ _ _)
  · exact Does.raiseIf fun _ => answers_transaction (promoteGatedReceiptBody_tells _ _ _ _ _)
  · exact answers_transaction (tombstoneGatedDmBody_tells _ _)

end Answers

section Rows
variable {licence : Licence} {m m' : MessageRow}

/-- Rows without a verdict, or still gated, are in no part of the Inbox. -/
def MessageRow.Withheld (m : MessageRow) : Prop :=
  m.receiptDisposition = none ∨ m.receiptDisposition = some .foreignDmGated → m.processingState = none

theorem Arrival.withheld (h : Arrival m) : m.Withheld := by
  intro hd
  rcases h.listed with hl | hl
  · exact hl
  · rcases hd with hd | hd <;> simp [MessageRow.isListed, hd] at hl

theorem Moved.withheld (h : Moved licence m m') (hm : m.Withheld) : m'.Withheld := by
  have hopen {p : ProcessingState} (hp : m.processingState = some p) :
      m.receiptDisposition ≠ none ∧ m.receiptDisposition ≠ some .foreignDmGated := by
    refine ⟨fun hd => ?_, fun hd => ?_⟩
    · rw [hm (.inl hd)] at hp
      cases hp
    · rw [hm (.inr hd)] at hp
      cases hp
  cases h with
  | aside ha =>
    cases ha with
    | rethreaded root unverified => exact hm
    | sequenced seq reason hl hf => exact fun hd => by simp [MessageRow.sequenced] at hd
    | gated seq reason hd hp hf => exact fun _ => hp
    | backfilled seq hs hl hf => exact hm
    | classified d reason hs hd => exact fun _ => hm (.inl hd)
    | releasedLocal reason ordinal frontier contentType content hs hg => exact fun hd => by simp at hd
    | released reason contentType content hs hg => exact fun hd => by simp at hd
    | denied hg => exact fun hd => by simp [Store.denied] at hd
    | quarantined reason hp => exact fun _ => rfl
    | covered now hp =>
      have hp : m.processingState = some .pending := by simpa [MessageRow.isPending] using hp
      rintro (hd | hd)
      · exact absurd hd (hopen hp).1
      · exact absurd hd (hopen hp).2
  | admitted turnId at_ hp =>
    have hp : m.processingState = some .pending := by simpa [MessageRow.isPending] using hp
    rintro (hd | hd)
    · exact absurd hd (hopen hp).1
    · exact absurd hd (hopen hp).2
  | ended turnId hp he =>
    have hp : m.processingState = some .inTurn := by
      simp only [MessageRow.isInTurn, decide_eq_true_eq] at hp
      exact hp.1
    cases he <;>
    · rintro (hd | hd)
      · exact absurd hd (hopen hp).1
      · exact absurd hd (hopen hp).2

/-- What is left of a message that the operator refused. -/
structure MessageRow.Denied (m : MessageRow) : Prop where
  content : m.content = encodeContent (.str deniedDmPlaceholder)
  contentType : m.contentType = "text/plain"
  disposition : m.receiptDisposition = some .terminal
  state : m.processingState = none

theorem Moved.denied (h : Moved licence m m') (hm : m.Denied) : m'.Denied := by
  obtain ⟨hc, ht, hd, hp⟩ := hm
  cases h with
  | aside ha =>
    cases ha with
    | rethreaded root unverified => exact ⟨hc, ht, hd, hp⟩
    | sequenced seq reason hl hf => simp [hd] at hl
    | gated seq reason hd' hp hf => simp [hd] at hd'
    | backfilled seq hs hl hf => exact ⟨hc, ht, hd, hp⟩
    | classified d reason hs hd' => simp [hd] at hd'
    | releasedLocal reason ordinal frontier contentType content hs hg => simp [MessageRow.isGated, hd] at hg
    | released reason contentType content hs hg => simp [MessageRow.isGated, hd] at hg
    | denied hg => simp [hd] at hg
    | quarantined reason hp' => simp [MessageRow.isPending, hp] at hp'
    | covered now hp' => simp [MessageRow.isPending, hp] at hp'
  | admitted turnId at_ hp' => simp [MessageRow.isPending, hp] at hp'
  | ended turnId hp' he => simp [MessageRow.isInTurn, hp] at hp'

theorem Moved.classified (h : Moved licence m m')
    (hm : m.receiptDisposition ≠ none) : m'.receiptDisposition ≠ none := by
  cases h with
  | aside ha => cases ha <;> first | exact hm | exact nofun
  | admitted => exact hm
  | ended turnId hp he => cases he <;> exact hm

/-- The row waits for no operator, and never will. -/
def MessageRow.Decided (m : MessageRow) : Prop := ∃ d, m.receiptDisposition = some d ∧ d ≠ .foreignDmGated

theorem MessageRow.Decided.not_gated (h : m.Decided) : m.receiptDisposition ≠ some .foreignDmGated := by
  obtain ⟨d, hd, hne⟩ := h
  rw [hd]
  simpa using hne

theorem Moved.decided (h : Moved licence m m') (hm : m.Decided) : m'.Decided := by
  have hgated := hm.not_gated
  obtain ⟨d, hd, hne⟩ := hm
  cases h with
  | aside ha =>
    cases ha with
    | rethreaded root unverified => exact ⟨d, hd, hne⟩
    | sequenced seq reason hl hf => exact ⟨.eligible, rfl, nofun⟩
    | gated seq reason hd' hp hf => simp [hd] at hd'
    | backfilled seq hs hl hf => exact ⟨d, hd, hne⟩
    | classified d' reason hs hd' => simp [hd] at hd'
    | releasedLocal reason ordinal frontier contentType content hs hg => exact ⟨.localRuntime, rfl, nofun⟩
    | released reason contentType content hs hg => exact ⟨.eligible, rfl, nofun⟩
    | denied hg => exact absurd hg hgated
    | quarantined reason hp => exact ⟨.terminal, rfl, nofun⟩
    | covered now hp => exact ⟨d, hd, hne⟩
  | admitted turnId at_ hp => exact ⟨d, hd, hne⟩
  | ended turnId hp he => cases he <;> exact ⟨d, hd, hne⟩

end Rows

/-- The envelope has a row. -/
def Tables.stores (k : String) (s : Tables) : Prop := (s.messages.get? k).isSome

/-- The rule for one row over a run that never deletes it, for any machine whose steps move rows. -/
theorem kept_row {ω : Type} {step : Tables → ω → Tables}
    (hstep : ∀ s op k m, s.messages.get? k = some m → (step s op).messages.get? k = none ∨
      ∃ licence m', (step s op).messages.get? k = some m' ∧ Moved licence m m')
    {P : MessageRow → Prop} (hmoved : ∀ licence m m', Moved licence m m' → P m → P m') {s : Tables}
    {k : String} {m : MessageRow} (hg : s.messages.get? k = some m) (hm : P m) {ops : List ω}
    (ht : Throughout step (Tables.stores k) s ops) : ∃ m', (run step s ops).messages.get? k = some m' ∧ P m' := by
  induction ops generalizing s m with
  | nil => exact ⟨m, hg, hm⟩
  | cons op ops ih =>
    rcases hstep s op k m hg with hnone | ⟨licence, m₁, hg₁, hmv⟩
    · have := ht.2.head
      simp [Tables.stores, hnone] at this
    · exact ih hg₁ (hmoved licence m m₁ hmv hm) ht.2

theorem step_moves (s : Tables) (op : Op) (k : String) (m : MessageRow) (hg : s.messages.get? k = some m) :
    (step s op).messages.get? k = none ∨
      ∃ licence m', (step s op).messages.get? k = some m' ∧ Moved licence m m' := by
  rcases (step_effect s op).ledger.moved hg with ⟨hnone, -⟩ | ⟨m', hg', hmv⟩
  · exact .inl hnone
  · exact .inr ⟨_, m', hg', hmv⟩

theorem withheld_run (ops : List Op) : AllRows MessageRow.Withheld (run step Tables.empty ops) := by
  refine run_invariant (allRows_empty _) (fun s op hs => ?_) ops
  exact (step_effect s op).ledger.allRows hs (fun m => Arrival.withheld)
    (fun m m' ha hm => (Moved.aside ha).withheld hm)
    (fun m turnId at_ hp hm => Moved.withheld (.admitted turnId at_ hp : Moved {} m _) hm)
    fun m m' turnId hp he hm => (Moved.ended turnId hp he).withheld hm

section Decisions

/-- The call finds the gated row of the envelope and denies it. -/
def Op.Denies (s : Tables) (k : String) : Op → Prop
  | .tombstoneGatedDm envelopeId serverSeq =>
    envelopeId = k ∧ ∃ m, s.messages.get? k = some m ∧ m.isGated = true ∧ m.serverSeq = serverSeq
  | .tombstoneGatedDmsFrom senderSlug => senderSlug ≠ "" ∧ ∃ m, s.messages.get? k = some m ∧
      m.envelopeKind = "dm" ∧ m.senderSlug = senderSlug ∧ m.receiptDisposition = some .foreignDmGated
  | _ => False

/-- The call finds the gated row of the envelope and releases it. -/
def Op.Promotes (s : Tables) (k : String) : Op → Prop
  | .promoteGatedReceipt envelopeId serverSeq _ approvedPayload _ => envelopeId = k ∧
      (∀ p, approvedPayload = some p → p.envelopeId = k) ∧
      ∃ m, s.messages.get? k = some m ∧ m.isGated = true ∧ m.serverSeq = serverSeq
  | _ => False

def Op.isDenial : Op → Bool
  | .tombstoneGatedDm .. | .tombstoneGatedDmsFrom .. => true
  | _ => false

variable {s : Tables} {k : String} {op : Op}

theorem denied_key (m : MessageRow) : (denied m).envelopeId = m.envelopeId := rfl

/-- What a denial writes, if anything. -/
theorem tombstoneGatedDm_after (envelopeId : String) (serverSeq : Option Int) (s : Tables) :
    step s (.tombstoneGatedDm envelopeId serverSeq) = s ∨
      step s (.tombstoneGatedDm envelopeId serverSeq) = s.updateMessages (fun m => m.envelopeId = envelopeId ∧
        m.isGated ∧ m.serverSeq = serverSeq) denied denied_key := by
  rw [step, Op.perform, after_discard, tombstoneGatedDm, after_transaction]
  unfold tombstoneGatedDmBody
  rw [query_bind_run]
  cases s.messages.get? envelopeId with
  | none => exact .inl rfl
  | some row =>
    dsimp only
    split_ifs
    · exact .inl rfl
    · exact .inl rfl
    · exact .inr rfl
    · exact .inl rfl

theorem tombstoneGatedDmsFrom_after {senderSlug : String} (hs : senderSlug ≠ "") (s : Tables) :
    step s (.tombstoneGatedDmsFrom senderSlug) = s.updateMessages (fun m => m.envelopeKind = "dm" ∧
      m.senderSlug = senderSlug ∧ m.receiptDisposition = some .foreignDmGated) denied denied_key := by
  rw [step, Op.perform, after_discard, tombstoneGatedDmsFrom, if_neg hs, after_transaction]
  rfl

/-- A denial leaves every row alone that is not gated. -/
theorem denial_frame (hop : op.isDenial = true) {m : MessageRow} (hg : s.messages.get? k = some m)
    (hm : m.receiptDisposition ≠ some .foreignDmGated) : (step s op).messages.get? k = some m := by
  cases op <;> cases hop
  · rename_i envelopeId serverSeq
    rcases tombstoneGatedDm_after envelopeId serverSeq s with h | h
    · rw [h, hg]
    · rw [h, get?_updateMessages, hg, Option.map_some, if_neg (by simp [MessageRow.isGated, hm])]
  · rename_i senderSlug
    by_cases hs : senderSlug = ""
    · rw [step, Op.perform, after_discard, tombstoneGatedDmsFrom, if_pos hs]
      exact hg
    · rw [tombstoneGatedDmsFrom_after hs, get?_updateMessages, hg, Option.map_some, if_neg (by simp [hm])]

theorem denies_step (h : op.Denies s k) : ∃ m, s.messages.get? k = some m ∧
    m.receiptDisposition = some .foreignDmGated ∧ (step s op).messages.get? k = some (denied m) := by
  cases op <;> try cases h
  case tombstoneGatedDm.intro envelopeId serverSeq hk h =>
    subst hk
    obtain ⟨m, hg, hm, hseq⟩ := h
    have hd : m.receiptDisposition = some .foreignDmGated := by
      simp only [MessageRow.isGated, decide_eq_true_eq] at hm
      exact hm.1
    refine ⟨m, hg, hd, ?_⟩
    have hafter : step s (.tombstoneGatedDm envelopeId serverSeq) = s.updateMessages (fun m =>
        m.envelopeId = envelopeId ∧ m.isGated ∧ m.serverSeq = serverSeq) denied denied_key := by
      rw [step, Op.perform, after_discard, tombstoneGatedDm, after_transaction, tombstoneGatedDmBody, query_bind_run, hg]
      dsimp only
      rw [if_neg (by simp [hseq]), if_neg (by simp [hd]), if_neg (by simp [hm])]
      rfl
    rw [hafter]
    refine updateMessages_hits denied_key hg ?_
    simpa [hm, hseq] using Table.get?_key hg
  case tombstoneGatedDmsFrom.intro senderSlug hs h =>
    obtain ⟨m, hg, hm⟩ := h
    refine ⟨m, hg, hm.2.2, ?_⟩
    rw [tombstoneGatedDmsFrom_after hs]
    exact updateMessages_hits denied_key hg (by simpa using hm)

/-- A released row waits in the Inbox, under its lane's disposition. -/
theorem promotes_step (h : op.Promotes s k) : ∃ m, (step s op).messages.get? k = some m ∧
    m.processingState = some .pending ∧ m.Decided := by
  cases op <;> try cases h
  case promoteGatedReceipt.intro envelopeId serverSeq reason approvedPayload now hk h =>
    subst hk
    obtain ⟨hpayload, m, hg, hm, hseq⟩ := h
    have hkey : m.envelopeId = envelopeId := Table.get?_key hg
    have hd : m.receiptDisposition = some .foreignDmGated := by
      simp only [MessageRow.isGated, decide_eq_true_eq] at hm
      exact hm.1
    have hown : ¬ (approvedPayload.any (·.envelopeId ≠ envelopeId)) = true := by
      cases approvedPayload with
      | none => simp
      | some p => simp [hpayload p rfl]
    rw [step, Op.perform, after_discard, promoteGatedReceipt, raiseIf_bind_neg hown, after_transaction,
      promoteGatedReceiptBody, query_bind_run, hg]
    cases serverSeq with
    | none =>
      simp only [promoteLocalGatedRow]
      rw [if_neg (by simp [hseq]), if_neg (by simp [hd]), if_neg (by simp [hm])]
      refine ⟨_, updateMessages_hits (s := { s with nextOrdinal := (localPosition s).1 + 1 }) ?_ hg ?_,
        rfl, .localRuntime, rfl, fun h => by cases h⟩
      · exact fun _ => rfl
      · simp [hkey, hseq, hm]
    | some seq =>
      simp only [promoteSequencedRow]
      rw [if_neg (by simp [hseq]), if_neg (by simp [hd]), if_neg (by simp [hm])]
      refine ⟨_, updateMessages_hits ?_ hg ?_, rfl, .eligible, rfl, fun h => by cases h⟩
      · exact fun _ => rfl
      · simp [hkey, hseq, hm]

/-- Once the operator has answered, the answer stands for as long as the row does: a denied
row keeps the placeholder and stays out of the Inbox, a denial leaves a released row alone,
and a conflict answer leaves every table alone. -/
theorem gate_decisions_final (ops : List Op) (k : String) (op : Op) (ops' : List Op)
    (hkept : Throughout step (Tables.stores k) (step (run step Tables.empty ops) op) ops') :
    (op.Denies (run step Tables.empty ops) k →
      ∃ m, (run step Tables.empty (ops ++ op :: ops')).messages.get? k = some m ∧ m.Denied) ∧
    (op.Promotes (run step Tables.empty ops) k → ∀ d : Op, d.isDenial = true →
      (step (run step Tables.empty (ops ++ op :: ops')) d).messages.get? k =
        (run step Tables.empty (ops ++ op :: ops')).messages.get? k) ∧
    ∀ s x r c, op.receipt? = some x → x ⟨s, none⟩ = .ok r c → r.status = .conflict → c = ⟨s, none⟩ := by
  rw [run_append, run_cons]
  refine ⟨fun hden => ?_, fun hpro d hd => ?_, fun s x r c hx hok hr => ?_⟩
  · obtain ⟨m, hg, hgated, hafter⟩ := denies_step hden
    have hwithheld : m.Withheld := withheld_run ops k m hg
    have hm : (denied m).Denied := ⟨rfl, rfl, rfl, hwithheld (.inr hgated)⟩
    exact kept_row step_moves (fun _ _ _ hmv => hmv.denied) hafter hm hkept
  · obtain ⟨m, hafter, -, hm⟩ := promotes_step hpro
    obtain ⟨m', hg, hm'⟩ := kept_row step_moves (fun _ _ _ hmv => hmv.decided) hafter hm hkept
    rw [hg]
    exact denial_frame hd hg hm'.not_gated
  · rcases Op.receipt_answers hx s with ⟨e, he⟩ | ⟨r', s', hok', hsame⟩
    · rw [he] at hok
      cases hok
    · rw [hok'] at hok
      cases hok
      rw [hsame (by rw [hr]; nofun)]

/-- A message of a stranger, gated with the server's sequence. -/
def gatedDm : List Op :=
  [.storeReceipt { envelopeId := "m1", envelopeKind := "dm", senderSlug := "bob", sentAt := 0 } 1 .foreignDmGated "" 1 1]

/-- An approval that arrives after the denial. -/
def lateApproval : Op :=
  .promoteGatedReceipt "m1" (some 1) "approved" (some { envelopeId := "m1", content := .str "hi", sentAt := 0 }) 2

theorem gate_decisions_final_late_approval :
    (∃ m, (run step Tables.empty (gatedDm ++ [.tombstoneGatedDm "m1" (some 1), lateApproval])).messages.get? "m1" =
      some m ∧ m.Denied) := by
  refine (gate_decisions_final gatedDm "m1" (.tombstoneGatedDm "m1" (some 1)) [lateApproval] ⟨?_, ?_⟩).1 ?_
  · unfold Tables.stores
    decide
  · unfold Throughout Tables.stores
    decide
  · exact ⟨rfl, _, rfl, by decide, rfl⟩

end Decisions
end PuffoAgent.Store
