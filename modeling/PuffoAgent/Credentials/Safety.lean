import PuffoAgent.Credentials.Replies

/-! However passes overlap and processes die, a value is placed only for a reply that earned it,
and no request is worked on twice at a time. -/
namespace PuffoAgent.Credentials
open Relational Text

section Purpose

/-- Why a value may be placed for a reply, given what happened before. -/
structure Rightful (owner : String) (l : RequestLedger) (earlier : List Event) (reply : Reply) (held : HeldCredential) :
    Prop where
  dm : reply.row.envelopeKind = "dm"
  sender : reply.row.senderSlug = owner
  block : parseFiledReply (messageText reply.row.content) = .reply reply.filed
  issued : ∃ r, l.get reply.filed.requestId = some r ∧ r.type = reply.filed.type
  listed : ∃ indices, Event.listed reply.filed.type indices ∈ earlier ∧ (held.index : Int) ∈ indices
  type : held.type = reply.filed.type
  index : held.index = reply.filed.index
  version : reply.filed.version ≤ held.version

/-- Everything that was placed was placed rightfully. -/
def Justified (owner : String) (l : RequestLedger) : List Event → Prop
  | [] => True
  | .placed reply held :: earlier => Rightful owner l earlier reply held ∧ Justified owner l earlier
  | .listed _ _ :: earlier => Justified owner l earlier

/-- A pass that has claimed a request and neither settled nor released it. -/
def Daemon.Holds (d : Daemon) (k : Nat) (requestId : String) : Prop :=
  ∃ loc reply, d.passes k = some loc ∧ loc.reply = some reply ∧ reply.filed.requestId = requestId

variable (owner : String) (l : RequestLedger) (log : List Event)

/-- What a pass knows of the reply it works on. -/
structure Claimed (reply : Reply) : Prop where
  dm : reply.row.envelopeKind = "dm"
  sender : reply.row.senderSlug = owner
  block : parseFiledReply (messageText reply.row.content) = .reply reply.filed
  known : (l.get reply.filed.requestId).isSome

def Typed (reply : Reply) : Prop := ∃ r, l.get reply.filed.requestId = some r ∧ r.type = reply.filed.type

def Listed (reply : Reply) : Prop :=
  ∃ indices, Event.listed reply.filed.type indices ∈ log ∧ (reply.filed.index : Int) ∈ indices

def Current (reply : Reply) (held : HeldCredential) : Prop :=
  held.type = reply.filed.type ∧ held.index = reply.filed.index ∧ reply.filed.version ≤ held.version

/-- What is known at each location. -/
def Location.Known : Location → Prop
  | .scanning _ => True
  | .claimed reply _ => Claimed owner l reply
  | .listing reply _ => Claimed owner l reply ∧ Typed l reply
  | .fetching reply _ _ => Claimed owner l reply ∧ Typed l reply ∧ Listed log reply
  | .placing reply _ held | .settling reply _ held =>
    Claimed owner l reply ∧ Typed l reply ∧ Listed log reply ∧ Current reply held

end Purpose

section Knowledge
variable {owner : String} {l l' : RequestLedger} {log log' : List Event} {reply : Reply}

theorem Claimed.mono (h : Claimed owner l reply) (hk : l.Kept l') : Claimed owner l' reply := by
  obtain ⟨r, hr⟩ := Option.isSome_iff_exists.1 h.known
  obtain ⟨r', hr', -⟩ := hk _ r hr
  exact ⟨h.dm, h.sender, h.block, by rw [hr']; rfl⟩

theorem Typed.mono (h : Typed l reply) (hk : l.Kept l') : Typed l' reply := by
  obtain ⟨r, hr, ht⟩ := h
  obtain ⟨r', hr', ht', -⟩ := hk _ r hr
  exact ⟨r', hr', ht'.trans ht⟩

theorem Listed.mono (h : Listed log reply) (hl : log ⊆ log') : Listed log' reply := by
  obtain ⟨indices, hmem, hi⟩ := h
  exact ⟨indices, hl hmem, hi⟩

theorem Location.Known.mono {loc : Location} (h : loc.Known owner l log) (hk : l.Kept l') (hl : log ⊆ log') :
    loc.Known owner l' log' := by
  cases loc with
  | scanning => trivial
  | claimed reply items => exact Claimed.mono h hk
  | listing reply items => exact ⟨h.1.mono hk, h.2.mono hk⟩
  | fetching reply items generation => exact ⟨h.1.mono hk, h.2.1.mono hk, h.2.2.mono hl⟩
  | placing reply items held => exact ⟨h.1.mono hk, h.2.1.mono hk, h.2.2.1.mono hl, h.2.2.2⟩
  | settling reply items held => exact ⟨h.1.mono hk, h.2.1.mono hk, h.2.2.1.mono hl, h.2.2.2⟩

theorem Justified.mono (h : Justified owner l log) (hk : l.Kept l') : Justified owner l' log := by
  induction log with
  | nil => trivial
  | cons e log ih =>
    cases e with
    | listed type indices => exact ih h
    | placed reply held =>
      obtain ⟨hr, hrest⟩ := h
      exact ⟨⟨hr.dm, hr.sender, hr.block, Typed.mono hr.issued hk, hr.listed, hr.type, hr.index, hr.version⟩, ih hrest⟩

end Knowledge

section Invariant

/-- The ids of what a reader remembers are those of its type and index. -/
def Remembers (credentialId : String → Nat → String) (c : CredentialReader) : Prop :=
  ∀ h ∈ c.held.rows, h.id = credentialId h.type h.index

/-- The invariant of a run. -/
structure Sound (owner : String) (credentialId : String → Nat → String) (d : Daemon) : Prop where
  inSync : d.ledger.InSync
  known : ∀ k loc, d.passes k = some loc → loc.Known owner d.ledger d.log
  taken : ∀ k rid r, d.Holds k rid → d.ledger.get rid = some r → r.state ≠ .pending
  alone : ∀ j k rid, d.Holds j rid → d.Holds k rid → j = k
  justified : Justified owner d.ledger d.log
  remembers : ∀ c, d.reader = some c → Remembers credentialId c

variable {owner : String} {credentialId : String → Nat → String} {d d' : Daemon} {k : Nat}

theorem Sound.claimed_known (h : Sound owner credentialId d) {rid : String} (hold : d.Holds k rid) :
    (d.ledger.get rid).isSome := by
  obtain ⟨loc, reply, hloc, hreply, rfl⟩ := hold
  have hknown := h.known k loc hloc
  cases loc <;> cases hreply
  · exact Claimed.known hknown
  all_goals exact hknown.1.known

/-- A step of pass `k` keeps the invariant if it keeps the ledger, works on no request but the one it
held or one that was pending, and sets pending again only what it held and lets go of. -/
theorem Sound.moved (h : Sound owner credentialId d) {next : Option Location}
    (hpasses : d'.passes = Function.update d.passes k next)
    (hsync : d'.ledger.InSync) (hkept : d.ledger.Kept d'.ledger)
    (hpending : ∀ rid r', d'.ledger.get rid = some r' → r'.state = .pending →
      (∃ r, d.ledger.get rid = some r ∧ r.state = .pending) ∨ d.Holds k rid ∧ ∀ loc, next = some loc → loc.reply = none)
    (hnext : ∀ loc, next = some loc → loc.Known owner d'.ledger d'.log ∧
      ∀ reply, loc.reply = some reply → d.Holds k reply.filed.requestId ∨
        ((∃ r, d.ledger.get reply.filed.requestId = some r ∧ r.state = .pending) ∧
          ∀ r', d'.ledger.get reply.filed.requestId = some r' → r'.state ≠ .pending))
    (hlog : d.log ⊆ d'.log) (hjustified : Justified owner d'.ledger d'.log)
    (hreader : ∀ c, d'.reader = some c → Remembers credentialId c) : Sound owner credentialId d' := by
  have hold : ∀ j rid, d'.Holds j rid → j ≠ k → d.Holds j rid := by
    rintro j rid ⟨loc, reply, hloc, hreply, hid⟩ hne
    rw [hpasses, Function.update_of_ne hne] at hloc
    exact ⟨loc, reply, hloc, hreply, hid⟩
  have hself : ∀ rid, d'.Holds k rid → ∃ loc reply, next = some loc ∧ loc.reply = some reply ∧ reply.filed.requestId = rid := by
    rintro rid ⟨loc, reply, hloc, hreply, hid⟩
    rw [hpasses, Function.update_self] at hloc
    exact ⟨loc, reply, hloc, hreply, hid⟩
  -- the request `k` works on now is one that no other pass worked on
  have hfree : ∀ j rid, d'.Holds k rid → d'.Holds j rid → j = k := by
    intro j rid hk hj
    by_contra hne
    obtain ⟨loc, reply, hloc, hreply, rfl⟩ := hself rid hk
    rcases (hnext loc hloc).2 reply hreply with hwas | ⟨⟨r, hr, hs⟩, -⟩
    · exact hne (h.alone j k _ (hold j _ hj hne) hwas)
    · exact h.taken j _ r (hold j _ hj hne) hr hs
  refine ⟨hsync, ?_, ?_, ?_, hjustified, hreader⟩
  · intro j loc hloc
    by_cases hj : j = k
    · subst hj
      rw [hpasses, Function.update_self] at hloc
      exact (hnext loc hloc).1
    · rw [hpasses, Function.update_of_ne hj] at hloc
      exact (h.known j loc hloc).mono hkept hlog
  · intro j rid r' hj hr' hs
    by_cases hjk : j = k
    · subst hjk
      obtain ⟨loc, reply, hloc, hreply, rfl⟩ := hself rid hj
      rcases (hnext loc hloc).2 reply hreply with hwas | ⟨-, hnot⟩
      · rcases hpending _ r' hr' hs with ⟨r, hr, hp⟩ | ⟨-, hnone⟩
        · exact h.taken j _ r hwas hr hp
        · rw [hnone loc hloc] at hreply
          cases hreply
      · exact hnot r' hr' hs
    · rcases hpending rid r' hr' hs with ⟨r, hr, hp⟩ | ⟨hwas, -⟩
      · exact h.taken j rid r (hold j rid hj hjk) hr hp
      · exact hjk (h.alone j k rid (hold j rid hj hjk) hwas)
  · intro i j rid hi hj
    by_cases hik : i = k
    · subst hik
      exact (hfree j rid hi hj).symm
    · by_cases hjk : j = k
      · subst hjk
        exact hfree i rid hj hi
      · exact h.alone i j rid (hold i rid hi hik) (hold j rid hj hjk)

end Invariant

section Ledger
variable {l : RequestLedger} {rid : String}

/-- No request is pending that was not. -/
def Shrinks (l l' : RequestLedger) : Prop :=
  ∀ rid r', l'.get rid = some r' → r'.state = .pending → ∃ r, l.get rid = some r ∧ r.state = .pending

theorem shrinks_rewrite {states : List RequestState} {f : CredentialRequest → CredentialRequest}
    (hf : ∀ r, (f r).requestId = r.requestId) (hs : ∀ r, (f r).state ≠ .pending) : Shrinks l (l.rewrite rid states f hf) := by
  intro k r' hr' hp
  rw [RequestLedger.get_rewrite] at hr'
  split at hr'
  · obtain ⟨r, hr, rfl⟩ := Option.map_eq_some_iff.1 hr'
    split at hp
    · exact absurd hp (hs r)
    · exact ⟨r, hr, hp⟩
  · exact ⟨r', hr', hp⟩

variable {asPlaced : Bool} {index version : Option Int} {detail : String}

theorem shrinks_settle : Shrinks l (l.settle rid asPlaced index version detail) := by
  refine shrinks_rewrite _ fun r => ?_
  cases asPlaced <;> nofun

theorem kept_settle : l.Kept (l.settle rid asPlaced index version detail) := by
  refine RequestLedger.kept_rewrite _ (fun _ => rfl) fun r hs => ?_
  rcases List.mem_pair.1 hs with hs | hs <;> simp [CredentialRequest.final, hs]

theorem inSync_settle (h : l.InSync) : (l.settle rid asPlaced index version detail).InSync :=
  RequestLedger.inSync_rewrite _ h

theorem kept_release : l.Kept (l.release rid) := by
  refine RequestLedger.kept_rewrite _ (fun _ => rfl) fun r hs => ?_
  simp [CredentialRequest.final, List.mem_singleton.1 hs]

theorem claim_spec {l' : RequestLedger} (h : l.claim rid = (l', true)) :
    ∃ r, l.get rid = some r ∧ r.state = .pending ∧ l'.get rid = some { r with state := .inFlight } ∧
      (l.InSync → l'.InSync) ∧ l.Kept l' ∧ Shrinks l l' := by
  obtain ⟨r, hr, hp, rfl⟩ := RequestLedger.claim_of_true h
  refine ⟨r, hr, hp, ?_, RequestLedger.inSync_rewrite _, ?_, shrinks_rewrite _ fun _ => nofun⟩
  · rw [RequestLedger.get_rewrite, if_pos rfl, hr, Option.map_some, if_pos (by simp [hp])]
  · refine RequestLedger.kept_rewrite _ (fun _ => rfl) fun r hs => ?_
    simp [CredentialRequest.final, List.mem_singleton.1 hs]

theorem get_release_ne {k : String} (h : k ≠ rid) : (l.release rid).get k = l.get k := by
  unfold RequestLedger.release
  rw [RequestLedger.get_rewrite, if_neg h]

end Ledger

section Steps
variable {owner : String} {credentialId : String → Nat → String} {d : Daemon} {k : Nat} {reply : Reply}
  {items : List (Option Row)}

theorem Daemon.holds_of_passes {loc : Location} (hloc : d.passes k = some loc) (hreply : loc.reply = some reply) :
    d.Holds k reply.filed.requestId := ⟨loc, reply, hloc, hreply, rfl⟩

theorem sound_leave (h : Sound owner credentialId d) : Sound owner credentialId (d.leave k) :=
  h.moved rfl h.inSync (.refl _) (fun _ r hr hp => .inl ⟨r, hr, hp⟩) nofun (List.Subset.refl _) h.justified h.remembers

/-- A pass goes on with the reply it holds, or with the next item. -/
theorem sound_goto (h : Sound owner credentialId d) {loc : Location} (hknown : loc.Known owner d.ledger d.log)
    (hreply : ∀ reply, loc.reply = some reply → d.Holds k reply.filed.requestId) : Sound owner credentialId (d.goto k loc) := by
  refine h.moved rfl h.inSync (.refl _) (fun _ r hr hp => .inl ⟨r, hr, hp⟩) ?_ (List.Subset.refl _) h.justified h.remembers
  rintro _ ⟨⟩
  exact ⟨hknown, fun reply hr => .inl (hreply reply hr)⟩

theorem sound_fail (h : Sound owner credentialId d) (detail : String) :
    Sound owner credentialId (d.fail k reply items detail) := by
  refine h.moved rfl (inSync_settle h.inSync) kept_settle (fun rid r' hr' hp => .inl (shrinks_settle rid r' hr' hp)) ?_
    (List.Subset.refl _) (h.justified.mono kept_settle) h.remembers
  rintro _ ⟨⟩
  exact ⟨trivial, nofun⟩

theorem sound_scan (h : Sound owner credentialId d) : Sound owner credentialId (d.scan owner k items) := by
  have hskip : ∀ items, Sound owner credentialId (d.goto k (.scanning items)) := fun _ => sound_goto h trivial nofun
  unfold Daemon.scan
  split
  · exact sound_leave h
  · exact hskip _
  rename_i row items
  split
  · exact hskip _
  rename_i hrow
  split
  · exact hskip _
  · exact sound_leave h
  rename_i filed hfiled
  split
  · exact hskip _
  rename_i ledger hclaim
  obtain ⟨r, hr, hp, hr', hsync, hkept, hshrinks⟩ := claim_spec hclaim
  refine h.moved rfl (hsync h.inSync) hkept (fun rid r' hr' hp => .inl (hshrinks rid r' hr' hp)) ?_ (List.Subset.refl _)
    (h.justified.mono hkept) h.remembers
  rintro _ ⟨⟩
  obtain ⟨hdm, hsender⟩ := not_or.1 hrow
  refine ⟨⟨not_not.1 hdm, not_not.1 hsender, hfiled, by simp [Daemon.goto, hr']⟩, ?_⟩
  rintro _ ⟨⟩
  refine .inr ⟨⟨r, hr, hp⟩, fun r₁ hr₁ => ?_⟩
  obtain rfl : { r with state := .inFlight } = r₁ := Option.some.inj (hr'.symm.trans hr₁)
  nofun

theorem sound_check (h : Sound owner credentialId d) (hloc : d.passes k = some (.claimed reply items)) :
    Sound owner credentialId (d.check k reply items) := by
  unfold Daemon.check
  split
  · exact sound_leave h
  rename_i req hreq
  split
  · exact sound_fail h _
  rename_i htype
  split
  · exact sound_fail h _
  · refine sound_goto h ⟨h.known k _ hloc, req, hreq, not_not.1 htype⟩ ?_
    rintro _ ⟨⟩
    exact d.holds_of_passes hloc rfl

theorem remembers_forget {c : CredentialReader} (h : Remembers credentialId c) (type : String) (index : Nat) :
    Remembers credentialId (c.forget type index) := fun e he => h e (List.mem_of_mem_filter he)

theorem sound_logged (h : Sound owner credentialId d) (type : String) (indices : List Int) :
    Sound owner credentialId { d with log := .listed type indices :: d.log } :=
  ⟨h.inSync, fun k loc hloc => (h.known k loc hloc).mono (.refl _) (List.subset_cons_self _ _), h.taken, h.alone, h.justified,
    h.remembers⟩

theorem sound_reader (h : Sound owner credentialId d) {reader : Option CredentialReader}
    (hreader : ∀ c, reader = some c → Remembers credentialId c) : Sound owner credentialId { d with reader := reader } :=
  ⟨h.inSync, h.known, h.taken, h.alone, h.justified, hreader⟩

theorem sound_confirm (h : Sound owner credentialId d) (hloc : d.passes k = some (.listing reply items)) (answer : ListAnswer) :
    Sound owner credentialId (d.confirm k reply items answer) := by
  unfold Daemon.confirm
  split
  · exact sound_fail h _
  · exact sound_leave h
  rename_i indices
  have hlogged := sound_logged h reply.filed.type indices
  simp only
  split
  · exact sound_fail hlogged _
  rename_i hmem
  have hforgot : ∀ c, d.reader.map (·.forget reply.filed.type reply.filed.index) = some c → Remembers credentialId c := by
    intro c hc
    obtain ⟨c₀, hc₀, rfl⟩ := Option.map_eq_some_iff.1 hc
    exact remembers_forget (h.remembers c₀ hc₀) _ _
  obtain ⟨hclaimed, htyped⟩ := h.known k _ hloc
  refine sound_goto (sound_reader hlogged hforgot) ⟨hclaimed, htyped, indices, List.mem_cons_self, not_not.1 hmem⟩ ?_
  rintro _ ⟨⟩
  exact Daemon.holds_of_passes hloc rfl

theorem remembers_received {c : CredentialReader} (h : Remembers credentialId c) (type : String) (index generation : Nat)
    (now : Int) (answer : FetchAnswer) :
    Remembers credentialId (c.received credentialId type index generation now answer).1 := by
  have hput : ∀ version expireAt value, Remembers credentialId
      { c with held := c.held.put ⟨credentialId type index, type, index, version, expireAt, value⟩ } := by
    intro version expireAt value e he
    rw [Table.mem_iff_get?, Table.get?_put] at he
    split at he
    · obtain rfl := Option.some.inj he
      rfl
    · exact h e (Table.mem_of_get? he)
  unfold CredentialReader.received
  split
  · exact remembers_forget h type index
  · exact h
  · simp only
    split
    · exact h
    split
    · split
      · exact h
      · exact hput _ _ _
    · exact hput _ _ _

/-- What a reader hands out is what it was asked for. -/
theorem received_asked (hid : ∀ t i t' i', credentialId t i = credentialId t' i' → t = t' ∧ i = i') {c c' : CredentialReader}
    (h : Remembers credentialId c) {type : String} {index generation : Nat} {now : Int} {answer : FetchAnswer}
    {held : HeldCredential} (hgot : c.received credentialId type index generation now answer = (c', .ok (some held))) :
    held.type = type ∧ held.index = index := by
  unfold CredentialReader.received at hgot
  split at hgot
  · cases hgot
  · cases hgot
  simp only at hgot
  split at hgot
  · cases hgot
  split at hgot
  case h_1 current hcurrent =>
    split at hgot
    · split at hgot
      · cases hgot
      · cases hgot
        have hkey := Table.get?_key hcurrent
        rw [h held (Table.mem_of_get? hcurrent)] at hkey
        exact hid _ _ _ _ hkey
    · cases hgot
      exact ⟨rfl, rfl⟩
  · cases hgot
    exact ⟨rfl, rfl⟩

theorem sound_fetch (hid : ∀ t i t' i', credentialId t i = credentialId t' i' → t = t' ∧ i = i')
    (h : Sound owner credentialId d) {generation : Nat} (hloc : d.passes k = some (.fetching reply items generation))
    (now : Int) (answer : FetchAnswer) : Sound owner credentialId (d.fetch credentialId k reply items generation now answer) := by
  unfold Daemon.fetch
  split
  · exact sound_leave h
  rename_i reader hreader
  have hreceived := remembers_received (h.remembers reader hreader) reply.filed.type reply.filed.index generation now answer
  cases hgot : reader.received credentialId reply.filed.type reply.filed.index generation now answer with
  | mk reader' result =>
    rw [hgot] at hreceived
    have hsound : Sound owner credentialId { d with reader := some reader' } :=
      sound_reader h fun c hc => Option.some.inj hc ▸ hreceived
    have hhold : ({ d with reader := some reader' } : Daemon).Holds k reply.filed.requestId :=
      Daemon.holds_of_passes hloc rfl
    simp only
    split
    · exact sound_fail hsound _
    · exact sound_fail hsound _
    rename_i held
    split
    case isTrue =>
      refine hsound.moved rfl (RequestLedger.inSync_rewrite _ h.inSync) kept_release (fun rid r' hr' hp => ?_) ?_
        (List.Subset.refl _) (h.justified.mono kept_release) hsound.remembers
      · by_cases hrid : rid = reply.filed.requestId
        · subst hrid
          exact .inr ⟨hhold, fun loc hl => Option.some.inj hl ▸ rfl⟩
        · exact .inl ⟨r', (get_release_ne hrid).symm.trans hr', hp⟩
      · rintro _ ⟨⟩
        exact ⟨trivial, nofun⟩
    case isFalse hversion =>
      obtain ⟨htype, hindex⟩ := received_asked hid (h.remembers reader hreader) hgot
      obtain ⟨hclaimed, htyped, hlisted⟩ := h.known k _ hloc
      refine sound_goto hsound ⟨hclaimed, htyped, hlisted, htype, hindex, Int.not_lt.1 hversion⟩ ?_
      rintro _ ⟨⟩
      exact hhold

theorem sound_placeValue {fingerprint : List UInt8 → String} (h : Sound owner credentialId d) {held : HeldCredential}
    (hloc : d.passes k = some (.placing reply items held)) (now : Int) (fault : Option String) :
    Sound owner credentialId (d.placeValue fingerprint k reply items held now fault) := by
  unfold Daemon.placeValue
  split
  · exact sound_fail h _
  obtain ⟨hclaimed, htyped, hlisted, htype, hindex, hversion⟩ := h.known k _ hloc
  have hrightful : Rightful owner d.ledger d.log reply held :=
    ⟨hclaimed.dm, hclaimed.sender, hclaimed.block, htyped, hindex ▸ hlisted, htype, hindex, hversion⟩
  refine h.moved rfl h.inSync (.refl _) (fun _ r hr hp => .inl ⟨r, hr, hp⟩) ?_ (List.subset_cons_self _ _)
    ⟨hrightful, h.justified⟩ h.remembers
  rintro _ ⟨⟩
  refine ⟨⟨hclaimed, htyped, hlisted.mono (List.subset_cons_self _ _), htype, hindex, hversion⟩, ?_⟩
  rintro _ ⟨⟩
  exact .inl (Daemon.holds_of_passes hloc rfl)

theorem sound_settlePlaced (h : Sound owner credentialId d) (held : HeldCredential) (reload : Bool) :
    Sound owner credentialId (d.settlePlaced k reply items held reload) := by
  refine h.moved rfl (inSync_settle h.inSync) kept_settle (fun rid r' hr' hp => .inl (shrinks_settle rid r' hr' hp)) ?_
    (List.Subset.refl _) (h.justified.mono kept_settle) h.remembers
  rintro _ ⟨⟩
  exact ⟨trivial, nofun⟩

/-- A new process starts with no pass and the ledger of the file. -/
theorem sound_fresh {l : RequestLedger} (hsync : l.InSync) (hnone : d.passes = fun _ => none) (hledger : d.ledger = l)
    (hjustified : Justified owner l d.log) (hreader : ∀ c, d.reader = some c → Remembers credentialId c) :
    Sound owner credentialId d := by
  subst hledger
  have hno : ∀ k rid, ¬ d.Holds k rid := by
    rintro k rid ⟨loc, reply, hloc, -⟩
    rw [hnone] at hloc
    cases hloc
  refine ⟨hsync, fun k loc hloc => ?_, fun k rid r hk => absurd hk (hno k rid), fun j k rid hj => absurd hj (hno j rid),
    hjustified, hreader⟩
  rw [hnone] at hloc
  cases hloc

/-- The ledger changes outside of the passes: no request that was there becomes pending. -/
theorem sound_ledger (h : Sound owner credentialId d) {l : RequestLedger} (hsync : l.InSync) (hkept : d.ledger.Kept l)
    (hpending : ∀ rid r', l.get rid = some r' → r'.state = .pending →
      (∃ r, d.ledger.get rid = some r ∧ r.state = .pending) ∨ d.ledger.get rid = none) :
    Sound owner credentialId { d with ledger := l } := by
  refine ⟨hsync, fun k loc hloc => (h.known k loc hloc).mono hkept (List.Subset.refl _), ?_, h.alone,
    h.justified.mono hkept, h.remembers⟩
  intro k rid r' hk hr' hp
  rcases hpending rid r' hr' hp with ⟨r, hr, hs⟩ | hnone
  · exact h.taken k rid r hk hr hs
  · have hsome := h.claimed_known hk
    rw [hnone] at hsome
    cases hsome

/-- A step of a pass keeps the invariant. -/
theorem sound_advance (hid : ∀ t i t' i', credentialId t i = credentialId t' i' → t = t' ∧ i = i')
    {fingerprint : List UInt8 → String} (h : Sound owner credentialId d) {s : Daemon.PassStep} {loc : Location} {d' : Daemon}
    (hloc : d.passes k = some loc) (hstep : d.advance owner credentialId fingerprint k s loc = some d') :
    Sound owner credentialId d' := by
  unfold Daemon.advance at hstep
  split at hstep <;> cases hstep
  · exact sound_scan h
  · exact sound_check h hloc
  · exact sound_confirm h hloc _
  · exact sound_fetch hid h hloc _ _
  · exact sound_placeValue h hloc _ _
  · exact sound_settlePlaced h _ _
  · exact sound_leave h
  · exact sound_leave h

theorem sound_step (hid : ∀ t i t' i', credentialId t i = credentialId t' i' → t = t' ∧ i = i')
    {fingerprint : List UInt8 → String} (h : Sound owner credentialId d) {s : Daemon.Step} {d' : Daemon}
    (hstep : d.step owner credentialId fingerprint s = some d') : Sound owner credentialId d' := by
  cases s with
  | restart =>
    cases hstep
    have hload : RequestLedger.load d.ledger.file = d.ledger := RequestLedger.load_file h.inSync
    refine sound_fresh (RequestLedger.inSync_recoverInFlight h.inSync) rfl (by rw [Daemon.restart, hload])
      (h.justified.mono RequestLedger.kept_recoverInFlight) ?_
    intro c hc
    obtain ⟨_, -, rfl⟩ := Option.map_eq_some_iff.1 hc
    nofun
  | issue uuid type reason aliasName now =>
    rw [Daemon.step] at hstep
    split at hstep <;> cases hstep
    rename_i hnew
    have hnone : d.ledger.get uuid = none := by simpa using (not_or.1 hnew).2
    refine sound_ledger h (RequestLedger.inSync_save _) (RequestLedger.kept_issue hnone) fun rid r' hr' hp => ?_
    rw [RequestLedger.get_issue] at hr'
    split at hr'
    case isTrue hrid => exact .inr (hrid ▸ hnone)
    case isFalse => exact .inl ⟨r', hr', hp⟩
  | undelivered requestId =>
    rw [Daemon.step] at hstep
    split at hstep <;> cases hstep
    exact sound_ledger h (inSync_settle h.inSync) kept_settle fun rid r' hr' hp => .inl (shrinks_settle rid r' hr' hp)
  | read type index generation now answer =>
    rw [Daemon.step] at hstep
    split at hstep <;> cases hstep
    refine sound_reader h fun c hc => ?_
    obtain ⟨c₀, hc₀, rfl⟩ := Option.map_eq_some_iff.1 hc
    exact remembers_received (h.remembers c₀ hc₀) _ _ _ _ _
  | begin k items =>
    rw [Daemon.step] at hstep
    split at hstep
    · cases hstep
    split at hstep <;> cases hstep
    · exact h
    · exact sound_goto h trivial nofun
  | pass k s =>
    obtain ⟨-, hstep⟩ := Option.ite_none_right_eq_some.1 hstep
    obtain ⟨loc, hloc, hadvance⟩ := Option.bind_eq_some_iff.1 hstep
    exact sound_advance hid h hloc hadvance

end Steps

section Finality
variable {owner : String} {credentialId : String → Nat → String} {fingerprint : List UInt8 → String} {d d' : Daemon}

/-- No step of a pass changes a final request. -/
theorem kept_advance {k : Nat} {s : Daemon.PassStep} {loc : Location}
    (hstep : d.advance owner credentialId fingerprint k s loc = some d') : d.ledger.Kept d'.ledger := by
  unfold Daemon.advance at hstep
  split at hstep <;> cases hstep
  · unfold Daemon.scan
    split
    · exact .refl _
    · exact .refl _
    split
    · exact .refl _
    split
    · exact .refl _
    · exact .refl _
    split
    · exact .refl _
    · rename_i ledger hclaim
      obtain ⟨_, _, _, _, _, hkept, _⟩ := claim_spec hclaim
      exact hkept
  · unfold Daemon.check
    split
    · exact .refl _
    split
    · exact kept_settle
    split
    · exact kept_settle
    · exact .refl _
  · unfold Daemon.confirm
    split
    · exact kept_settle
    · exact .refl _
    simp only
    split
    · exact kept_settle
    · exact .refl _
  · unfold Daemon.fetch
    split
    · exact .refl _
    simp only
    split
    · exact kept_settle
    · exact kept_settle
    split
    · exact kept_release
    · exact .refl _
  · unfold Daemon.placeValue
    split
    · exact kept_settle
    · exact .refl _
  · exact kept_settle
  · exact .refl _
  · exact .refl _

theorem kept_step (h : d.ledger.InSync) {s : Daemon.Step} (hstep : d.step owner credentialId fingerprint s = some d') :
    d.ledger.Kept d'.ledger := by
  cases s with
  | restart =>
    cases hstep
    rw [Daemon.restart, RequestLedger.load_file h]
    exact RequestLedger.kept_recoverInFlight
  | issue uuid type reason aliasName now =>
    rw [Daemon.step] at hstep
    split at hstep <;> cases hstep
    rename_i hnew
    exact RequestLedger.kept_issue (by simpa using (not_or.1 hnew).2)
  | undelivered requestId =>
    rw [Daemon.step] at hstep
    split at hstep <;> cases hstep
    exact kept_settle
  | read type index generation now answer =>
    rw [Daemon.step] at hstep
    split at hstep <;> cases hstep
    exact .refl _
  | begin k items =>
    rw [Daemon.step] at hstep
    split at hstep
    · cases hstep
    split at hstep <;> cases hstep <;> exact .refl _
  | pass k s =>
    obtain ⟨-, hstep⟩ := Option.ite_none_right_eq_some.1 hstep
    obtain ⟨loc, -, hadvance⟩ := Option.bind_eq_some_iff.1 hstep
    exact kept_advance hadvance

end Finality

section Runs
variable {owner : String} {credentialId : String → Nat → String} {fingerprint : List UInt8 → String} {d d' : Daemon}

theorem sound_run (hid : ∀ t i t' i', credentialId t i = credentialId t' i' → t = t' ∧ i = i') {steps : List Daemon.Step}
    (h : Sound owner credentialId d) (hrun : d.run owner credentialId fingerprint steps = some d') :
    Sound owner credentialId d' ∧ d.ledger.Kept d'.ledger := by
  induction steps generalizing d with
  | nil =>
    cases hrun
    exact ⟨h, .refl _⟩
  | cons s steps ih =>
    rw [Daemon.run, List.foldlM_cons] at hrun
    obtain ⟨d₁, hstep, hrest⟩ := Option.bind_eq_some_iff.1 hrun
    obtain ⟨hsound, hkept⟩ := ih (sound_step hid h hstep) hrest
    exact ⟨hsound, (kept_step h.inSync hstep).trans hkept⟩

theorem sound_boot (file : Json) (store : CredentialStore) (reads : Bool) :
    Sound owner credentialId (Daemon.boot file store reads) := by
  have hsync : (RequestLedger.load file).InSync := rfl
  refine sound_fresh (RequestLedger.inSync_recoverInFlight hsync) rfl rfl trivial fun c hc => ?_
  obtain rfl : c = ⟨.empty, 0⟩ := by
    cases reads <;> cases hc
    rfl
  nofun

/-- Whatever the files held, whatever the server answers and however passes, restarts and new requests
interleave: what is placed is placed rightfully, no two passes work on one request, the ledger in memory is
that of the file, and from every state on a request that is placed or failed stays as it is. -/
theorem replies_consumed_safely (hid : ∀ t i t' i', credentialId t i = credentialId t' i' → t = t' ∧ i = i')
    (file : Json) (store : CredentialStore) (reads : Bool) (steps : List Daemon.Step)
    (hrun : (Daemon.boot file store reads).run owner credentialId fingerprint steps = some d) :
    Justified owner d.ledger d.log ∧ (∀ j k rid, d.Holds j rid → d.Holds k rid → j = k) ∧
      RequestLedger.loaded d.ledger.file = d.ledger.items ∧
      ∀ more d', d.run owner credentialId fingerprint more = some d' →
        ∀ rid r, d.ledger.get rid = some r → r.final = true → d'.ledger.get rid = some r := by
  obtain ⟨h, -⟩ := sound_run hid (sound_boot file store reads) hrun
  refine ⟨h.justified, h.alone, h.inSync, fun more d' hmore rid r hr hfinal => ?_⟩
  obtain ⟨r', hr', -, hsame⟩ := (sound_run hid h hmore).2 rid r hr
  rw [hr', hsame hfinal]

/-- A request, its reply, and the steps in which the value is placed while a second pass sees the same reply. -/
def oneRequest : String := "11111111-2222-4333-8444-555555555555"

def oneReply : Row where
  envelopeKind := "dm"
  senderSlug := "owner"
  content := .str ("```puffo-credential-filed\n\x7b\"request_id\":\"" ++ oneRequest ++
    "\",\"type\":\"CUSTOMIZED\",\"index\":0,\"version\":2\x7d\n```")

def oneRun : List Daemon.Step :=
  [.issue oneRequest typeCustomized "a key" "API_KEY" 0, .begin 0 [some oneReply], .pass 0 .scan, .pass 0 .check,
    .begin 1 [some oneReply], .pass 0 (.listed (.rows [0])), .pass 0 (.fetched 0 (.opened 2 none [0x61])),
    .pass 0 (.place 0 none), .pass 0 (.settle true)]

def jsonId (type : String) (index : Nat) : String := (Json.arr [.str type, .int index]).dumps

theorem jsonId_inj (t : String) (i : Nat) (t' : String) (i' : Nat) (h : jsonId t i = jsonId t' i') : t = t' ∧ i = i' := by
  have hloads := congrArg Json.loads h
  rw [jsonId, jsonId, Json.loads_dumps, Json.loads_dumps] at hloads
  obtain ⟨ht, hi⟩ : t = t' ∧ (i : Int) = i' := by simpa using hloads
  exact ⟨ht, Int.ofNat.inj hi⟩

theorem replies_consumed_safely_once : ∃ d, (Daemon.boot .null .empty true).run "owner" jsonId (fun _ => "") oneRun = some d ∧
    (d.ledger.get oneRequest).map (·.state) = some .placed ∧ d.log.length = 2 ∧ Justified "owner" d.ledger d.log := by
  have hsome : ((Daemon.boot .null .empty true).run "owner" jsonId (fun _ => "") oneRun).isSome = true := by decide +kernel
  obtain ⟨d, hd⟩ := Option.isSome_iff_exists.1 hsome
  have hplaced : ((Daemon.boot .null .empty true).run "owner" jsonId (fun _ => "") oneRun).map
      (fun d => ((d.ledger.get oneRequest).map (·.state), d.log.length)) = some (some .placed, 2) := by decide +kernel
  rw [hd] at hplaced
  obtain ⟨hstate, hlog⟩ := Prod.mk.inj (Option.some.inj hplaced)
  exact ⟨d, hd, hstate, hlog, (replies_consumed_safely jsonId_inj .null .empty true oneRun hd).1⟩

end Runs
end PuffoAgent.Credentials
