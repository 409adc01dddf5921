import PuffoAgent.Unarchive.Steps

/-! A restore that is cut, or fails, at any step goes on where it was: with the same certificates, and without losing
a device that is owed a revoke. -/
namespace PuffoAgent.Unarchive
open Effects

section Obligations

/-- The device that an earlier import owes a revoke for, as the archive had it. -/
def Dir.owedEarlier (d : Dir) (oldDeviceId : String) : Option String :=
  match earlierDevice oldDeviceId d.marker with
  | .ok earlier => earlier
  | .error _ => none

/-- `pending_revoke.json` or `unarchive.json` names a device. -/
def Dir.Names (d : Dir) (device : String) : Prop :=
  (∃ e, d.marker = some (.owes device e)) ∨
    ∃ st, d.state = some st ∧ (st.oldDeviceId = some device ∨ st.earlierDeviceId = some device)

/-- `unarchive-done.json` of this restore: it names the device of an agent that is still paused. -/
def World.Completed (t : Target) (w : World) (deviceId : String) : Prop :=
  w.place = .live ∧ w.dir.yml.state = "paused" ∧ w.dir.yml.deviceId = deviceId ∧
    ∃ d, w.dir.done = some d ∧ d.deviceId = deviceId ∧ d.restoredFrom = some t.name

/-- The new identity is in place, and nothing but `unarchive.json` names the device of the archive. -/
def World.Between (w : World) (old : String) : Prop :=
  (∃ i, w.dir.identity = some i ∧ i.deviceId ≠ old) ∧ old ∉ w.acked ∧ ∀ e, w.dir.marker ≠ some (.owes old e)

end Obligations

section Invariant

/-- The archive before the first attempt, and its identity, if one can be read. No attempt has left anything in it but
the reason of a failure. -/
structure Case where
  target : Target
  d₀ : Dir
  i₀ : Identity
  device : i₀.deviceId ≠ ""
  identity : ∀ i, d₀.identity = some i → i = i₀
  state : ∀ st, d₀.state = some st → st = { lastError := st.lastError }
  fresh : ∀ d, d₀.done = some d → d.restoredFrom ≠ some target.name

variable {c : Case} {w : World} {st : State}

def Case.old (c : Case) : String := c.i₀.deviceId

def Case.earlier (c : Case) : Option String := c.d₀.owedEarlier c.old

/-- The earlier device, if there is one, is revoked. -/
def Case.EarlierPaid (c : Case) (acked : List String) : Prop := ∀ e, c.earlier = some e → e ∈ acked

/-- The marker is that of the archive, or one about the old device that comes after the earlier one is settled. -/
def Case.Marked (c : Case) (marker : Option RevokeMarker) (acked : List String) : Prop :=
  (marker = c.d₀.marker ∧ c.old ∉ acked) ∨
    (c.EarlierPaid acked ∧ (marker = c.d₀.marker ∨ marker = none ∨ ∃ e, marker = some (.owes c.old e)))

/-- The old device is revoked or named by the marker. -/
def Case.Paid (c : Case) (marker : Option RevokeMarker) (acked : List String) : Prop :=
  c.old ∈ acked ∨ ∃ e, marker = some (.owes c.old e)

/-- `unarchive.json` names both devices. -/
def Case.Noted (c : Case) (state : Option State) : Prop :=
  ∃ st, state = some st ∧ st.oldDeviceId = some c.old ∧ st.earlierDeviceId = c.earlier ∧ c.earlier.isSome

/-- What holds before and after the completion. -/
structure Fixed (c : Case) (w : World) : Prop where
  same : ∀ x ∈ w.posted, ∀ y ∈ w.posted, x = y
  untouched : w.accepted = false → w.confirmed = false → w.place = .archived ∧ w.dir = { c.d₀ with state := w.dir.state }
  marker : c.Marked w.dir.marker w.acked
  owed : ∀ i, w.dir.identity = some i → i.deviceId ≠ c.old →
    c.i₀ ∈ w.dir.retired ∧ (c.Paid w.dir.marker w.acked ∨ c.Noted w.dir.state)

/-- The identity on disk is that of the staged device. -/
def Swapped (d : Dir) (st : State) : Prop := ∃ i s, d.identity = some i ∧ st.staged = some s ∧ i.deviceId = s.deviceId

/-- A restore that is not completed, with its `unarchive.json`. -/
structure Unfinished (c : Case) (w : World) (st : State) : Prop where
  staged : ∀ x ∈ w.posted, st.staged = some x
  old : st.oldDeviceId = some c.old ∨ (st.oldDeviceId = none ∧ ∀ i, w.dir.identity = some i → i.deviceId = c.old)
  earlier : st.earlierDeviceId = c.earlier ∨ (st.earlierDeviceId = none ∧ w.dir.marker = c.d₀.marker)
  noted : st.earlierDeviceId.isSome → st.oldDeviceId = some c.old
  settled : st.earlierSettled = true → c.EarlierPaid w.acked
  identity : w.dir.identity = c.d₀.identity ∨ Swapped w.dir st
  done : w.dir.done = c.d₀.done
  live : w.place = .live → st.restoredFrom = some c.target.name ∧ w.dir.yml.state = "paused" ∧
    (st.asIs = true ∨ Swapped w.dir st) ∧ ∀ i, w.dir.identity = some i → w.dir.yml.deviceId = i.deviceId ∧
      (i.deviceId ≠ c.old → c.Paid w.dir.marker w.acked)

def Open (c : Case) (w : World) : Prop := Unfinished c w (w.dir.state.getD {})

def Good (c : Case) (w : World) : Prop := Fixed c w ∧ (Open c w ∨ ∃ deviceId, w.Completed c.target deviceId)

theorem earlier_marker {e : String} (h : c.earlier = some e) : e ≠ c.old ∧ ∃ x, c.d₀.marker = some (.owes e x) := by
  unfold Case.earlier Dir.owedEarlier at h
  cases hm : c.d₀.marker with
  | none => rw [hm] at h; cases h
  | some m =>
    rw [hm] at h
    cases m with
    | owes d x =>
      simp only [earlierDevice] at h
      split at h
      · rename_i hok
        split at hok
        · cases hok
        · split at hok
          · cases hok; cases h
          · rename_i hne
            cases hok
            cases h
            exact ⟨hne, x, rfl⟩
      · cases h
    | _ => cases h

/-- A marker that names the old device, or its acknowledgement, comes after the earlier device is settled. -/
theorem Fixed.earlierPaid (h : Fixed c w) (hp : c.Paid w.dir.marker w.acked) : c.EarlierPaid w.acked := by
  intro e he
  rcases h.marker with ⟨hm, hnot⟩ | ⟨hpaid, -⟩
  · obtain ⟨hne, x, hx⟩ := earlier_marker he
    rcases hp with hacked | ⟨y, hy⟩
    · exact absurd hacked hnot
    · rw [hm, hx] at hy
      cases hy
      exact absurd rfl hne
  · exact hpaid e he

end Invariant

section Staging
variable {c : Case} {w : World} {st : State} {i : Identity} {A : Answer → Prop} {X : Prop} {inPlace : Bool}

/-- A state that names what the one before it named. -/
theorem Fixed.saved (h : Fixed c w) {st' : State} (hst : w.dir.state.getD {} = st)
    (hold : st.oldDeviceId = some c.old → st'.oldDeviceId = some c.old)
    (hearlier : st.earlierDeviceId = c.earlier → st'.earlierDeviceId = c.earlier) :
    Fixed c { w with dir := { w.dir with state := some st' } } := by
  refine { h with untouched := fun ha hc => ?_, owed := fun i hi hne => ?_ }
  · obtain ⟨hplace, hdir⟩ := h.untouched ha hc
    refine ⟨hplace, ?_⟩
    change { w.dir with state := some st' } = _
    rw [hdir]
  · obtain ⟨hretired, hpaid | ⟨st₀, hst₀, hnoted⟩⟩ := h.owed i hi hne
    · exact ⟨hretired, .inl hpaid⟩
    · rw [hst₀] at hst
      cases hst
      exact ⟨hretired, .inr ⟨st', rfl, hold hnoted.1, hearlier hnoted.2.1, hnoted.2.2⟩⟩

/-- An attempt that has read the identity and the state. Where the answers lead into no gap, `X` says so. -/
structure Started (c : Case) (X : Prop) (inPlace : Bool) (i : Identity) (st : State) (w : World) : Prop where
  fixed : Fixed c w
  unfinished : Unfinished c w st
  state : w.dir.state.getD {} = st
  identity : w.dir.identity = some i
  gap : w.Between c.old → X
  live : inPlace = true → w.place = .live ∧ Swapped w.dir st
  archived : inPlace = false → w.place = .archived

theorem Started.good (h : Started c X inPlace i st w) : Good c w := by
  refine ⟨h.fixed, .inl ?_⟩
  unfold Open
  rw [h.state]
  exact h.unfinished

theorem Started.saved (h : Started c X inPlace i st w) {st' : State}
    (hold : st.oldDeviceId = some c.old → st'.oldDeviceId = some c.old)
    (hearlier : st.earlierDeviceId = c.earlier → st'.earlierDeviceId = c.earlier)
    (hstaged : ∀ s, st.staged = some s → st'.staged = some s)
    (h' : Unfinished c { w with dir := { w.dir with state := some st' } } st') :
    Started c X inPlace i st' { w with dir := { w.dir with state := some st' } } :=
  ⟨h.fixed.saved h.state hold hearlier, h', rfl, h.identity, h.gap,
    fun hin => ⟨(h.live hin).1, (h.live hin).2.imp fun _ hi => hi.imp fun s hs => ⟨hs.1, hstaged s hs.2.1, hs.2.2⟩⟩, h.archived⟩

/-- The device that an attempt takes for the old one is that of the archive. -/
theorem Started.old (h : Started c X inPlace i st w) (hne : c.old ≠ "") :
    (st.oldDeviceId.filter (· ≠ "")).getD i.deviceId = c.old := by
  rcases h.unfinished.old with hold | ⟨hnone, hid⟩
  · rw [hold]
    simp [Option.filter, hne]
  · rw [hnone]
    exact hid i h.identity

/-- The request is staged in `unarchive.json`. -/
def Ready (c : Case) (X : Prop) (inPlace : Bool) (job : Job) (w : World) : Prop :=
  Started c X inPlace job.identity job.state w ∧ w.dir.state = some job.state ∧ job.state.staged = some job.staged ∧
    job.state.earlierDeviceId = c.earlier ∧ job.oldDeviceId = c.old

/-- An attempt at a directory that is not restored. -/
structure Entered (c : Case) (X : Prop) (inPlace : Bool) (w : World) : Prop where
  fixed : Fixed c w
  unfinished : Open c w
  gap : w.Between c.old → X
  live : inPlace = true → w.place = .live ∧ Swapped w.dir (w.dir.state.getD {})
  archived : inPlace = false → w.place = .archived

theorem Entered.good (h : Entered c X inPlace w) : Good c w := ⟨h.fixed, .inl h.unfinished⟩

theorem Ready.posted {job : Job} (h : Ready c X inPlace job w) {accepted : Bool} (ha : accepted = false → w.accepted = false) :
    Ready c X inPlace job { w with posted := job.staged :: w.posted, accepted := accepted } := by
  obtain ⟨hstarted, hstate, hstaged, hrest⟩ := h
  have hall : ∀ x ∈ job.staged :: w.posted, x = job.staged := by
    intro x hx
    rcases List.mem_cons.1 hx with rfl | hx
    · rfl
    · exact Option.some.inj ((hstarted.unfinished.staged x hx).symm.trans hstaged)
  refine ⟨⟨{ hstarted.fixed with same := ?_, untouched := ?_ }, { hstarted.unfinished with staged := ?_ }, hstarted.state,
    hstarted.identity, hstarted.gap, hstarted.live, hstarted.archived⟩, hstate, hstaged, hrest⟩
  · intro x hx y hy
    rw [hall x hx, hall y hy]
  · exact fun hacc hc => hstarted.fixed.untouched (ha hacc) hc
  · intro x hx
    rw [hall x hx]
    exact hstaged

end Staging

section Completion
variable {c : Case} {w : World} {st : State} {A : Answer → Prop}

/-- The restore is completed, and nothing is owed that the marker does not name. -/
structure Finished (c : Case) (deviceId : String) (w : World) : Prop where
  fixed : Fixed c w
  completed : w.Completed c.target deviceId
  paid : ∀ i, w.dir.identity = some i → i.deviceId ≠ c.old → c.Paid w.dir.marker w.acked

theorem Finished.good {deviceId : String} (h : Finished c deviceId w) : Good c w := ⟨h.fixed, .inr ⟨deviceId, h.completed⟩⟩

/-- A restore that is not completed and has moved. -/
structure Moved (c : Case) (deviceId : String) (w : World) : Prop where
  fixed : Fixed c w
  unfinished : Open c w
  live : w.place = .live
  device : w.dir.yml.deviceId = deviceId

theorem Moved.good {deviceId : String} (h : Moved c deviceId w) : Good c w := ⟨h.fixed, .inl h.unfinished⟩

theorem Moved.finished {deviceId : String} (h : Moved c deviceId w) {d : Done} (hd : d.deviceId = deviceId)
    (hfrom : d.restoredFrom = some c.target.name) :
    Finished c deviceId { w with dir := { w.dir with done := some d } } := by
  obtain ⟨-, hpaused, -, hall⟩ := h.unfinished.live h.live
  refine ⟨{ h.fixed with untouched := fun ha hc => ?_ }, ⟨h.live, hpaused, h.device, d, rfl, hd, hfrom⟩,
    fun i hi hne => (hall i hi).2 hne⟩
  have harchived := (h.fixed.untouched ha hc).1
  rw [h.live] at harchived
  cases harchived

theorem Finished.discarded {deviceId : String} (h : Finished c deviceId w) :
    Finished c deviceId { w with dir := { w.dir with state := none } } := by
  refine ⟨{ h.fixed with untouched := fun ha hc => ?_, owed := fun i hi hne => ?_ }, h.completed, h.paid⟩
  · have harchived := (h.fixed.untouched ha hc).1
    rw [h.completed.1] at harchived
    cases harchived
  · exact ⟨(h.fixed.owed i hi hne).1, .inl (h.paid i hi hne)⟩

/-- A reply names a device only of a completed restore. -/
def Answers (c : Case) (reply : Reply) (w : World) : Prop :=
  Good c w ∧ ∀ r, reply = .restored r → r.restoredFrom = some c.target.name → w.Completed c.target r.deviceId

end Completion

section AsIs
variable {c : Case} {w : World} {st : State} {i : Identity} {A : Answer → Prop} {X : Prop} {inPlace : Bool}

/-- The device on disk is still valid, and owes nothing that the marker does not name. -/
structure Valid (c : Case) (i : Identity) (st : State) (w : World) : Prop where
  fixed : Fixed c w
  unfinished : Unfinished c w st
  state : w.dir.state = some st
  identity : w.dir.identity = some i
  confirmed : w.confirmed = true
  paid : i.deviceId ≠ c.old → c.Paid w.dir.marker w.acked

theorem Valid.good (h : Valid c i st w) : Good c w := by
  refine ⟨h.fixed, .inl ?_⟩
  unfold Open
  rw [h.state]
  exact h.unfinished

theorem Valid.untouched (h : Valid c i st w) {p : Prop} (hc : w.confirmed = false) : p := by
  rw [h.confirmed] at hc
  cases hc

/-- Where no answer leads into a gap, a new device has its obligations named by the marker. -/
theorem Ready.valid {job : Job} (h : Ready c X inPlace job w) (hX : ¬ X) (hc : w.confirmed = true) :
    Valid c job.identity job.state w := by
  refine ⟨h.1.fixed, h.1.unfinished, h.2.1, h.1.identity, hc, fun hne => ?_⟩
  refine Classical.byContradiction fun hpaid => ?_
  exact hX (h.1.gap ⟨⟨job.identity, h.1.identity, hne⟩, fun hacked => hpaid (.inl hacked), fun e he => hpaid (.inr ⟨e, he⟩)⟩)

/-- The archive's own marker says nothing about an earlier device. -/
theorem Valid.dropped (h : Valid c i st w) (hm : w.dir.marker = some .archiveSelf) :
    Valid c i st { w with dir := { w.dir with marker := none } } := by
  have hearlier : c.earlier = none := by
    rcases h.fixed.marker with ⟨hsame, -⟩ | ⟨-, hsame | hnone | ⟨e, he⟩⟩
    · unfold Case.earlier Dir.owedEarlier
      rw [← hsame, hm]
      rfl
    · unfold Case.earlier Dir.owedEarlier
      rw [← hsame, hm]
      rfl
    · rw [hm] at hnone; cases hnone
    · rw [hm] at he; cases he
  have hpaid : c.Paid w.dir.marker w.acked → c.Paid none w.acked := by
    rintro (hacked | ⟨e, he⟩)
    · exact .inl hacked
    · rw [hm] at he; cases he
  refine ⟨{ h.fixed with untouched := fun _ hc => ?_, marker := ?_, owed := fun i' hi hne => ?_ },
    { h.unfinished with earlier := .inl ?_, live := fun hl => ?_ }, h.state, h.identity, h.confirmed,
    fun hne => hpaid (h.paid hne)⟩
  · exact h.untouched hc
  · refine .inr ⟨fun e he => ?_, .inr (.inl rfl)⟩
    rw [hearlier] at he
    cases he
  · obtain ⟨hretired, howed | hnoted⟩ := h.fixed.owed i' hi hne
    · exact ⟨hretired, .inl (hpaid howed)⟩
    · exact ⟨hretired, .inr hnoted⟩
  · rcases h.unfinished.earlier with hsame | ⟨hnone, -⟩
    · exact hsame
    · rw [hnone, hearlier]
  · obtain ⟨hfrom, hpaused, hmoved, hall⟩ := h.unfinished.live hl
    exact ⟨hfrom, hpaused, hmoved, fun i' hi => ⟨(hall i' hi).1, fun hne => hpaid ((hall i' hi).2 hne)⟩⟩

/-- The state of an agent that comes back as it is. -/
def State.back (st : State) (name : String) : State := { st with asIs := true, restoredFrom := some name }

theorem Valid.saved (h : Valid c i st w) : Valid c i (st.back c.target.name)
    { w with dir := { w.dir with state := some (st.back c.target.name) } } := by
  have hst : w.dir.state.getD {} = st := by rw [h.state]; rfl
  refine ⟨h.fixed.saved hst id id, { h.unfinished with live := fun hl => ?_ }, rfl, h.identity, h.confirmed, h.paid⟩
  obtain ⟨-, hpaused, -, hall⟩ := h.unfinished.live hl
  exact ⟨rfl, hpaused, .inl rfl, hall⟩

theorem Valid.prepared (h : Valid c i st w) :
    Valid c i st { w with dir := { w.dir with yml := { w.dir.yml with state := "paused", deviceId := i.deviceId } } } := by
  refine ⟨{ h.fixed with untouched := fun _ => h.untouched }, { h.unfinished with live := fun hl => ?_ }, h.state,
    h.identity, h.confirmed, h.paid⟩
  obtain ⟨hfrom, -, hmoved, hall⟩ := h.unfinished.live hl
  refine ⟨hfrom, rfl, hmoved, fun i' hi => ⟨?_, (hall i' hi).2⟩⟩
  obtain rfl : i = i' := Option.some.inj (h.identity.symm.trans hi)
  rfl

/-- The directory moves back with the name of its archive, paused, on the device it has. -/
theorem Valid.moved (h : Valid c i st w) (hasIs : st.asIs = true) (hfrom : st.restoredFrom = some c.target.name)
    (hyml : w.dir.yml.state = "paused" ∧ w.dir.yml.deviceId = i.deviceId) :
    Moved c i.deviceId { w with place := .live } := by
  refine ⟨{ h.fixed with untouched := fun _ => h.untouched }, ?_, rfl, hyml.2⟩
  · have hunfinished : Unfinished c { w with place := .live } st := by
      refine { h.unfinished with live := fun _ => ⟨hfrom, hyml.1, .inl hasIs, fun i' hi => ?_⟩ }
      obtain rfl : i = i' := Option.some.inj (h.identity.symm.trans hi)
      exact ⟨hyml.2, h.paid⟩
    unfold Open
    rwa [show ({ w with place := .live } : World).dir.state.getD {} = st by rw [h.state]; rfl]

end AsIs

section Replacement
variable {c : Case} {w : World} {st : State} {i : Identity} {s : Staged} {A : Answer → Prop} {X : Prop} {inPlace : Bool}

/-- The server has accepted the staged device `s`. -/
structure Granted (c : Case) (inPlace : Bool) (s : Staged) (st : State) (i : Identity) (w : World) : Prop where
  fixed : Fixed c w
  unfinished : Unfinished c w st
  state : w.dir.state = some st
  identity : w.dir.identity = some i
  staged : st.staged = some s
  earlier : st.earlierDeviceId = c.earlier
  accepted : w.accepted = true
  live : inPlace = true → w.place = .live ∧ i.deviceId = s.deviceId
  archived : inPlace = false → w.place = .archived

theorem Granted.good (h : Granted c inPlace s st i w) : Good c w := by
  refine ⟨h.fixed, .inl ?_⟩
  unfold Open
  rw [h.state]
  exact h.unfinished

theorem Granted.untouched (h : Granted c inPlace s st i w) {p : Prop} (ha : w.accepted = false) : p := by
  rw [h.accepted] at ha
  cases ha

theorem Ready.granted {job : Job} (h : Ready c X inPlace job w) (ha : w.accepted = true) :
    Granted c inPlace job.staged job.state job.identity w := by
  obtain ⟨hstarted, hstate, hstaged, hearlier, -⟩ := h
  refine ⟨hstarted.fixed, hstarted.unfinished, hstate, hstarted.identity, hstaged, hearlier, ha, fun hin => ?_,
    hstarted.archived⟩
  obtain ⟨hlive, i, s, hi, hs, hdevice⟩ := hstarted.live hin
  obtain rfl : job.identity = i := Option.some.inj (hstarted.identity.symm.trans hi)
  obtain rfl : job.staged = s := Option.some.inj (hstaged.symm.trans hs)
  exact ⟨hlive, hdevice⟩

theorem Granted.prepared (h : Granted c inPlace s st i w) :
    Granted c inPlace s st i
      { w with dir := { w.dir with yml := { w.dir.yml with state := "paused", deviceId := i.deviceId } } } := by
  refine { h with
    fixed := { h.fixed with untouched := h.untouched }
    unfinished := { h.unfinished with live := fun hl => ?_ } }
  obtain ⟨hfrom, -, hmoved, hall⟩ := h.unfinished.live hl
  refine ⟨hfrom, rfl, hmoved, fun i' hi => ⟨?_, (hall i' hi).2⟩⟩
  obtain rfl : i = i' := Option.some.inj (h.identity.symm.trans hi)
  rfl

theorem Granted.saved (h : Granted c inPlace s st i w) {st' : State}
    (hold : st.oldDeviceId = some c.old → st'.oldDeviceId = some c.old) (hearlier : st'.earlierDeviceId = c.earlier)
    (hstaged : st'.staged = some s)
    (h' : Unfinished c { w with dir := { w.dir with state := some st' } } st') :
    Granted c inPlace s st' i { w with dir := { w.dir with state := some st' } } := by
  have hst : w.dir.state.getD {} = st := by rw [h.state]; rfl
  exact ⟨h.fixed.saved hst hold fun _ => hearlier, h', rfl, h.identity, hstaged, hearlier, h.accepted, h.live, h.archived⟩

/-- A device is acknowledged: the earlier one, or the old one after it. -/
theorem Granted.acknowledged (h : Granted c inPlace s st i w) {x : String} (hx : x ≠ c.old ∨ c.EarlierPaid w.acked) :
    Granted c inPlace s st i { w with acked := x :: w.acked } := by
  have hpaid : ∀ m, c.Paid m w.acked → c.Paid m (x :: w.acked) := fun _ hp => hp.imp_left (List.mem_cons_of_mem x)
  have hearlier : c.EarlierPaid w.acked → c.EarlierPaid (x :: w.acked) := fun hp e he => List.mem_cons_of_mem x (hp e he)
  refine { h with
    fixed := { h.fixed with
      untouched := h.untouched
      marker := ?_
      owed := fun i' hi hne => ⟨(h.fixed.owed i' hi hne).1, (h.fixed.owed i' hi hne).2.imp_left (hpaid _)⟩ }
    unfinished := { h.unfinished with settled := fun hs => hearlier (h.unfinished.settled hs), live := fun hl => ?_ } }
  · rcases h.fixed.marker with ⟨hm, hnot⟩ | ⟨hp, hm⟩
    · rcases hx with hx | hp
      · refine .inl ⟨hm, fun hmem => ?_⟩
        rcases List.mem_cons.1 hmem with rfl | hmem
        · exact hx rfl
        · exact hnot hmem
      · exact .inr ⟨hearlier hp, .inl hm⟩
    · exact .inr ⟨hearlier hp, hm⟩
  · obtain ⟨hfrom, hpaused, hmoved, hall⟩ := h.unfinished.live hl
    exact ⟨hfrom, hpaused, hmoved, fun i' hi => ⟨(hall i' hi).1, fun hne => hpaid _ ((hall i' hi).2 hne)⟩⟩

/-- An earlier device is owed a revoke that is not settled. -/
def State.Unsettled (st : State) : Prop := st.earlierDeviceId.isSome ∧ ¬ st.earlierSettled

theorem Granted.earlierPaid (h : Granted c inPlace s st i w) (hnot : ¬ st.Unsettled) : c.EarlierPaid w.acked := by
  intro e he
  refine h.unfinished.settled (Classical.byContradiction fun hs => hnot ⟨?_, hs⟩) e he
  rw [h.earlier, he]
  rfl

/-- The old device is noted, and the marker names it unless it has to wait for the earlier one. -/
def Obliged (c : Case) (s : Staged) (st : State) (w : World) : Prop :=
  st.oldDeviceId = some c.old ∧ (s.deviceId ≠ c.old → ¬ st.Unsettled → c.Paid w.dir.marker w.acked)

/-- The earlier device is settled, and the old one is named if it is owed. -/
def Settled (c : Case) (s : Staged) (w : World) : Prop :=
  c.EarlierPaid w.acked ∧ (s.deviceId ≠ c.old → c.Paid w.dir.marker w.acked)

/-- What is to be recorded as completed is paused, settled and named after its archive. -/
theorem Granted.moved (h : Granted c inPlace s st i w) (hi : i.deviceId = s.deviceId) (hsettled : Settled c s w)
    (hfrom : st.restoredFrom = some c.target.name) (hpaused : w.dir.yml.state = "paused")
    (hyml : w.dir.yml.deviceId = s.deviceId) : Moved c s.deviceId { w with place := .live } := by
  refine ⟨{ h.fixed with untouched := h.untouched }, ?_, rfl, hyml⟩
  have hunfinished : Unfinished c { w with place := .live } st := by
    refine { h.unfinished with live := fun _ => ⟨hfrom, hpaused, .inr ⟨i, s, h.identity, h.staged, hi⟩, fun i' hi' => ?_⟩ }
    obtain rfl : i = i' := Option.some.inj (h.identity.symm.trans hi')
    exact ⟨hyml.trans hi.symm, fun hne => hsettled.2 (hi ▸ hne)⟩
  unfold Open
  rwa [show ({ w with place := .live } : World).dir.state.getD {} = st by rw [h.state]; rfl]

end Replacement

section Attempts
variable {c : Case} {w : World} {A : Answer → Prop} {X : Prop} {inPlace : Bool}

/-- The failure that is recorded is all that changes. -/
theorem Good.failed (h : Good c w) (error : String × String) :
    Good c { w with dir := { w.dir with state := some { w.dir.state.getD {} with lastError := some error } } } := by
  refine ⟨h.1.saved rfl id id, h.2.imp (fun hopen => ?_) fun hdone => hdone⟩
  exact { hopen with }

end Attempts

section Retries
variable {c : Case} {w : World} {X : Prop} {deviceId : String}

/-- The answer to a retry of a completed restore. -/
def repeated (c : Case) (deviceId : String) (w : World) (reported : Bool) : Reply :=
  .restored ⟨deviceId, some c.target.name, "already_restored", w.dir.marker.isSome, reported⟩

end Retries

section Safety
variable {c : Case} {w : World}

/-- One request is ever posted; the archive is untouched, but for `unarchive.json`, until the server accepts it or confirms
the device on disk; and once the identity on disk is another device, the old identity is retired and each device owed a
revoke is acknowledged or named. -/
structure Safe (c : Case) (w : World) : Prop where
  replays : ∀ x ∈ w.posted, ∀ y ∈ w.posted, x = y
  untouched : w.accepted = false → w.confirmed = false → w.place = .archived ∧ w.dir = { c.d₀ with state := w.dir.state }
  retired : ∀ i, w.dir.identity = some i → i.deviceId ≠ c.i₀.deviceId → c.i₀ ∈ w.dir.retired
  named : ∀ i, w.dir.identity = some i → i.deviceId ≠ c.i₀.deviceId → ∀ device,
    device = c.i₀.deviceId ∨ c.d₀.owedEarlier c.i₀.deviceId = some device → device ∈ w.acked ∨ w.dir.Names device

theorem Good.safe (h : Good c w) : Safe c w := by
  refine ⟨h.1.same, h.1.untouched, fun i hi hne => (h.1.owed i hi hne).1, fun i hi hne device hdevice => ?_⟩
  obtain ⟨-, hpaid | ⟨st, hst, hold, hearlier, -⟩⟩ := h.1.owed i hi hne
  · rcases hdevice with rfl | hearlier
    · exact hpaid.imp_right fun ⟨e, he⟩ => .inl ⟨e, he⟩
    · exact .inl (h.1.earlierPaid hpaid device hearlier)
  · rcases hdevice with rfl | hdevice
    · exact .inr (.inr ⟨st, hst, .inl hold⟩)
    · exact .inr (.inr ⟨st, hst, .inr (hearlier.trans hdevice)⟩)

end Safety
end PuffoAgent.Unarchive
