import PuffoAgent.Reminders.Transitions

/-! One-shot delivery: an occurrence gets its Inbox event in the transaction that
delivers it, and no later transaction takes anything of that back. -/
namespace PuffoAgent.Reminders
open Relational Store Machine

theorem reminderEventId_injective {a b : String} (h : reminderEventId a = reminderEventId b) : a = b :=
  (String.append_right_inj "reminder-occurrence:").mp h

/-- Occurrences are unique, an event names the delivered occurrence it was made for, and
a delivered occurrence has its event. -/
structure Delivered (s : Tables) : Prop where
  unique : ∀ k k' r r', s.getReminder k = some r → s.getReminder k' = some r' →
    r.occurrenceId = r'.occurrenceId → k = k'
  named : ∀ k r e, s.getReminder k = some r → r.deliveredEventId = some e →
    r.state = .delivered ∧ e = reminderEventId r.occurrenceId
  events : ∀ e, (s.messages.get? e).isSome → ∃ k r, s.getReminder k = some r ∧
    r.state = .delivered ∧ r.deliveredEventId = some e

section Step
variable {clock : Option Int} {s s' : Tables}

theorem delivered_empty : Delivered Tables.empty := by
  refine ⟨?_, ?_, ?_⟩
  · intro k k' r r' h
    simp [Tables.getReminder, Tables.empty] at h
  · intro k r e h
    simp [Tables.getReminder, Tables.empty] at h
  · intro e h
    simp [Tables.empty] at h

/-- An event that is already there belongs to a delivered occurrence, so no claimed one
adopts it. -/
theorem Delivered.not_adopted (h : Delivered s) {finalNowMs : Int} {r r' : ReminderRow}
    (hd : Delivers s s' finalNowMs r r') :
    ¬ (s.messages.get? (reminderEventId r.occurrenceId)).isSome := by
  intro ht
  obtain ⟨k, r₁, hg, hs, he⟩ := h.events _ ht
  have hocc := reminderEventId_injective (h.named k r₁ _ hg he).2
  obtain rfl := h.unique _ _ _ _ hg hd.known hocc.symm
  obtain rfl := Option.some.inj (hg.symm.trans hd.known)
  rw [hd.claimed] at hs
  cases hs

theorem Delivers.progress {finalNowMs : Int} {r r' : ReminderRow}
    (h : Delivers s s' finalNowMs r r') : Progress r r' where
  occurrence := h.occurrence
  state := by rw [h.claimed, h.done]; rfl
  kept hs := by
    rw [h.claimed] at hs
    cases hs
  envelope _ := h.envelope

/-- Every known occurrence is still there after a step, and has progressed. -/
theorem Effect.progress (h : Effect clock s s') {k : String} {r : ReminderRow}
    (hg : s.getReminder k = some r) : ∃ r', s'.getReminder k = some r' ∧ Progress r r' := by
  cases h with
  | quiet rows messages =>
    obtain ⟨r', hg', hq⟩ := rel_some_left (hg ▸ rows k)
    exact ⟨r', hg', hq.toProgress⟩
  | created row fresh stored others messages =>
    have hk : k ≠ row.reminderId := by
      rintro rfl
      rw [fresh.reminder] at hg
      cases hg
    obtain ⟨r', hg', hq⟩ := rel_some_left (hg ▸ others k hk)
    exact ⟨r', hg', hq.toProgress⟩
  | delivered finalNowMs read r₁ r₁' delivery | adopted finalNowMs read r₁ r₁' delivery =>
    by_cases hk : k = r₁.reminderId
    · subst hk
      obtain rfl := Option.some.inj (hg.symm.trans delivery.known)
      exact ⟨r₁', delivery.stored, delivery.progress⟩
    · exact ⟨r, (delivery.others k hk).trans hg, .refl r⟩

/-- A row found after a step is new and silent, or was there before. -/
theorem Effect.origin (h : Effect clock s s') {k : String} {r' : ReminderRow}
    (hg : s'.getReminder k = some r') :
    (s.getReminder k = none ∧ r'.deliveredEventId = none ∧
      ∀ k₁ r, s.getReminder k₁ = some r → r.occurrenceId ≠ r'.occurrenceId) ∨
    ∃ r, s.getReminder k = some r ∧ Progress r r' ∧
      (r.deliveredEventId = none → r'.deliveredEventId ≠ none → ∃ finalNowMs,
        clock = some finalNowMs ∧ Delivers s s' finalNowMs r r') := by
  cases h with
  | quiet rows messages =>
    obtain ⟨r, hr, hq⟩ := rel_some_right (hg ▸ rows k)
    exact .inr ⟨r, hr, hq.toProgress, fun hn hn' => absurd (hq.silent hn) hn'⟩
  | created row fresh stored others messages =>
    by_cases hk : k = row.reminderId
    · subst hk
      obtain ⟨r, hq, hr⟩ := stored
      obtain rfl := Option.some.inj (hr.symm.trans hg)
      refine .inl ⟨fresh.reminder, hq.silent fresh.silent, ?_⟩
      intro k₁ r₁ hg₁ he
      exact fresh.occurrence r₁ (Table.mem_of_get? hg₁) (he.trans hq.occurrence)
    · obtain ⟨r, hr, hq⟩ := rel_some_right (hg ▸ others k hk)
      exact .inr ⟨r, hr, hq.toProgress, fun hn hn' => absurd (hq.silent hn) hn'⟩
  | delivered finalNowMs read r₁ r₁' delivery | adopted finalNowMs read r₁ r₁' delivery =>
    by_cases hk : k = r₁.reminderId
    · subst hk
      obtain rfl := Option.some.inj (delivery.stored.symm.trans hg)
      exact .inr ⟨r₁, delivery.known, delivery.progress, fun _ _ => ⟨finalNowMs, read, delivery⟩⟩
    · refine .inr ⟨r', (delivery.others k hk).symm.trans hg, .refl r', fun hn hn' => absurd hn hn'⟩

theorem Effect.delivered_inv (h : Effect clock s s') (hs : Delivered s) : Delivered s' where
  unique := by
    intro k k' r r' hk hk' he
    rcases h.origin hk with ⟨hn, -, hfresh⟩ | ⟨r₀, hr₀, hp, -⟩
    · rcases h.origin hk' with ⟨hn', -, -⟩ | ⟨r₁, hr₁, hp', -⟩
      · cases h with
        | quiet rows messages =>
          obtain ⟨r₁, hr₁, -⟩ := rel_some_right (hk ▸ rows k)
          rw [hn] at hr₁
          cases hr₁
        | created row fresh stored others messages =>
          have hrow (k₁ : String) (r₁ : ReminderRow) (hg : s'.getReminder k₁ = some r₁)
              (hnone : s.getReminder k₁ = none) : k₁ = row.reminderId := by
            by_contra hne
            obtain ⟨r₂, hr₂, -⟩ := rel_some_right (hg ▸ others k₁ hne)
            rw [hnone] at hr₂
            cases hr₂
          rw [hrow k r hk hn, hrow k' r' hk' hn']
        | delivered finalNowMs read r₁ r₁' delivery | adopted finalNowMs read r₁ r₁' delivery =>
          have hne : k ≠ r₁.reminderId := by
            rintro rfl
            rw [delivery.known] at hn
            cases hn
          rw [delivery.others k hne, hn] at hk
          cases hk
      · exact absurd (hp'.occurrence.symm.trans he.symm) (hfresh k' r₁ hr₁)
    · rcases h.origin hk' with ⟨-, -, hfresh⟩ | ⟨r₁, hr₁, hp', -⟩
      · exact absurd (hp.occurrence.symm.trans he) (hfresh k r₀ hr₀)
      · exact hs.unique k k' r₀ r₁ hr₀ hr₁ (hp.occurrence.symm.trans (he.trans hp'.occurrence))
  named := by
    intro k r' e hk he
    rcases h.origin hk with ⟨-, hn, -⟩ | ⟨r, hr, hp, hd⟩
    · rw [hn] at he
      cases he
    · cases hre : r.deliveredEventId with
      | none =>
        obtain ⟨finalNowMs, -, hdel⟩ := hd hre (by rw [he]; simp)
        refine ⟨hdel.done, ?_⟩
        rw [hdel.event, Option.some.injEq] at he
        rw [← he, hdel.occurrence]
      | some e₀ =>
        obtain ⟨hst, he₀⟩ := hs.named k r e₀ hr hre
        have hsame := (hp.kept hst).2
        rw [he, hre, Option.some.injEq] at hsame
        exact ⟨later_delivered (hst ▸ hp.state), by rw [hsame, he₀, hp.occurrence]⟩
  events := by
    intro e hm
    have old (hm₀ : (s.messages.get? e).isSome) : ∃ k r, s'.getReminder k = some r ∧
        r.state = .delivered ∧ r.deliveredEventId = some e := by
      obtain ⟨k, r, hg, hst, he⟩ := hs.events e hm₀
      obtain ⟨r', hg', hp⟩ := h.progress hg
      exact ⟨k, r', hg', later_delivered (hst ▸ hp.state), (hp.kept hst).2.trans he⟩
    cases h with
    | quiet rows messages => exact old (messages ▸ hm)
    | created row fresh stored others messages => exact old (messages ▸ hm)
    | adopted finalNowMs read r r' delivery taken messages => exact old (messages ▸ hm)
    | delivered finalNowMs read r r' delivery free inserted messages =>
      by_cases hk : e = reminderEventId r.occurrenceId
      · exact ⟨_, r', delivery.stored, delivery.done, hk ▸ delivery.event⟩
      · exact old (by rw [← messages e hk]; exact hm)

/-- An event that a step adds is the event of the claimed occurrence it delivers. -/
theorem Effect.event_inserted (h : Effect clock s s') {o : String}
    (hn : s.messages.get? (reminderEventId o) = none)
    (hi : (s'.messages.get? (reminderEventId o)).isSome) :
    ∃ finalNowMs r r', Delivers s s' finalNowMs r r' ∧ r.occurrenceId = o := by
  have absent (hm : s'.messages = s.messages) : False := by
    rw [hm, hn] at hi
    cases hi
  cases h with
  | quiet rows messages => exact (absent messages).elim
  | created row fresh stored others messages => exact (absent messages).elim
  | adopted finalNowMs read r r' delivery taken messages => exact (absent messages).elim
  | delivered finalNowMs read r r' delivery free inserted messages =>
    refine ⟨finalNowMs, r, r', delivery, ?_⟩
    by_contra hne
    rw [messages _ fun he => hne (reminderEventId_injective he).symm, hn] at hi
    cases hi

/-- A step that delivers an occurrence adds its event. -/
theorem Effect.event_of_delivery (h : Effect clock s s') (hs : Delivered s) {k : String}
    {r r' : ReminderRow} (hr : s.getReminder k = some r) (hr' : s'.getReminder k = some r')
    (hn : r.deliveredEventId = none) (hd : r'.deliveredEventId ≠ none) :
    s.messages.get? (reminderEventId r.occurrenceId) = none ∧
      (s'.messages.get? (reminderEventId r.occurrenceId)).isSome := by
  cases h with
  | quiet rows messages =>
    have hq := rows k
    rw [hr, hr'] at hq
    cases hq with
    | some hq => exact absurd (hq.silent hn) hd
  | created row fresh stored others messages =>
    have hk : k ≠ row.reminderId := by
      rintro rfl
      rw [fresh.reminder] at hr
      cases hr
    have hq := others k hk
    rw [hr, hr'] at hq
    cases hq with
    | some hq => exact absurd (hq.silent hn) hd
  | adopted finalNowMs read r₁ r₁' delivery taken messages =>
    exact absurd taken (hs.not_adopted delivery)
  | delivered finalNowMs read r₁ r₁' delivery free inserted messages =>
    by_cases hk : k = r₁.reminderId
    · subst hk
      obtain rfl := Option.some.inj (hr.symm.trans delivery.known)
      exact ⟨free, inserted⟩
    · rw [delivery.others k hk, hr, Option.some.injEq] at hr'
      exact absurd (hr' ▸ hn) hd

end Step

section Runs
variable (host : Host)

theorem delivered_run (ops : List Op) : Delivered (run (step host) Tables.empty ops) :=
  run_invariant delivered_empty (fun s op hs => (step_effect host s op).delivered_inv hs) ops

/-- Over a whole run an occurrence stays known and only progresses. -/
theorem run_progress (ops : List Op) {s : Tables} {k : String} {r : ReminderRow}
    (hg : s.getReminder k = some r) :
    ∃ r', (run (step host) s ops).getReminder k = some r' ∧ Progress r r' := by
  induction ops generalizing s r with
  | nil => exact ⟨r, hg, .refl r⟩
  | cons op ops ih =>
    obtain ⟨r₁, hg₁, hp₁⟩ := (step_effect host s op).progress hg
    obtain ⟨r', hg', hp'⟩ := ih hg₁
    exact ⟨r', hg', hp₁.trans hp'⟩

theorem later_terminal {a b : ReminderState} (h : later a b = true)
    (ha : a = .cancelled ∨ a = .delivered) : b = .cancelled ∨ b = .delivered := by
  rcases ha with rfl | rfl <;> cases b <;> simp_all [later]

theorem later_claimed {a b : ReminderState} (h : later a b = true) (ha : a = .claimed) :
    b ≠ .scheduled := by
  subst ha
  rintro rfl
  cases h

/-- Reminder one-shot delivery, in every reachable state, over every step and every later
run: one event at most for each occurrence, inserted with its delivery and only while it is
claimed; terminal states and claims are not left backwards; a local delivery is final. -/
theorem reminder_one_shot (ops : List Op) :
    (∀ o, ((run (step host) Tables.empty ops).messages.select
      fun m => m.envelopeId = reminderEventId o).length ≤ 1) ∧
    (∀ op o, (run (step host) Tables.empty ops).messages.get? (reminderEventId o) = none →
      ((run (step host) Tables.empty (ops ++ [op])).messages.get? (reminderEventId o)).isSome →
      ∃ k r r', (run (step host) Tables.empty ops).getReminder k = some r ∧ r.occurrenceId = o ∧
        r.state = .claimed ∧ (run (step host) Tables.empty (ops ++ [op])).getReminder k = some r' ∧
        r'.state = .delivered ∧ r'.deliveredEventId = some (reminderEventId o) ∧
        ∀ k₁ r₁, (run (step host) Tables.empty ops).getReminder k₁ = some r₁ →
          r₁.occurrenceId = o → k₁ = k) ∧
    (∀ op k r', (run (step host) Tables.empty (ops ++ [op])).getReminder k = some r' →
      r'.deliveredEventId ≠ none → ∃ r, (run (step host) Tables.empty ops).getReminder k = some r ∧
        (r.deliveredEventId = none → r.state = .claimed ∧ r'.state = .delivered ∧
          r'.deliveredEventId = some (reminderEventId r.occurrenceId) ∧
          (run (step host) Tables.empty ops).messages.get? (reminderEventId r.occurrenceId) = none ∧
          ((run (step host) Tables.empty (ops ++ [op])).messages.get?
            (reminderEventId r.occurrenceId)).isSome)) ∧
    (∀ ops' k r, (run (step host) Tables.empty ops).getReminder k = some r →
      ∃ r', (run (step host) Tables.empty (ops ++ ops')).getReminder k = some r' ∧
        r'.occurrenceId = r.occurrenceId ∧
        (r.state = .cancelled ∨ r.state = .delivered → r'.state = .cancelled ∨ r'.state = .delivered) ∧
        (r.state = .claimed → r'.state ≠ .scheduled) ∧
        (r.deliveredEventId ≠ none → r'.state = .delivered ∧
          r'.deliveredEventId = r.deliveredEventId ∧ r'.actualFireAtMs = r.actualFireAtMs)) := by
  have hinv := delivered_run host ops
  simp only [run_append, run_cons, run_nil]
  refine ⟨fun o => ?_, fun op o hn hi => ?_, fun op k r' hg hd => ?_, fun ops' k r hg => ?_⟩
  · have hle := Table.select_key_length_le_one (t := (run (step host) Tables.empty ops).messages)
      (p := fun _ => true) (reminderEventId o)
    simpa only [and_true] using hle
  · obtain ⟨finalNowMs, r, r', hdel, rfl⟩ := (step_effect host _ op).event_inserted hn hi
    refine ⟨_, r, r', hdel.known, rfl, hdel.claimed, hdel.stored, hdel.done, hdel.event, ?_⟩
    intro k₁ r₁ hg₁ he
    exact hinv.unique k₁ _ r₁ r hg₁ hdel.known he
  · have he := step_effect host (run (step host) Tables.empty ops) op
    rcases he.origin hg with ⟨-, hn, -⟩ | ⟨r, hr, -, hnew⟩
    · exact absurd hn hd
    · refine ⟨r, hr, fun hn => ?_⟩
      obtain ⟨finalNowMs, -, hdel⟩ := hnew hn hd
      exact ⟨hdel.claimed, hdel.done, hdel.event, he.event_of_delivery hinv hr hg hn hd⟩
  · obtain ⟨r', hg', hp⟩ := run_progress host ops' hg
    refine ⟨r', hg', hp.occurrence, later_terminal hp.state, later_claimed hp.state, fun hd => ?_⟩
    obtain ⟨e, he⟩ := Option.ne_none_iff_exists'.mp hd
    have hst := (hinv.named k r e hg he).1
    exact ⟨later_delivered (hst ▸ hp.state), (hp.kept hst).2, (hp.kept hst).1⟩

end Runs

/-- A reminder that is created, falls due and is delivered. -/
example :
    ((run (step ⟨fun n => some (toString n), fun _ => true, fun _ => none⟩) Tables.empty
      [.create "water the plants" "dm:bob" 5 "r1" "o1" 1, .claimDue 6, .deliverClaimed "r1" 7 7 7 7]).getReminder
        "r1").map (fun r => (r.state, r.actualFireAtMs, r.deliveredEventId)) =
      some (.delivered, some 6, some "reminder-occurrence:o1") := by
  decide +kernel

end PuffoAgent.Reminders
