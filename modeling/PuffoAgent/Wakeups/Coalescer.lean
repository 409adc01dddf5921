import PuffoAgent.Machine.Run
import Mathlib.Algebra.Order.Group.Defs
import Mathlib.Algebra.Order.Group.Int
import Mathlib.Data.List.Forall2

/-! The coalescer of Inbox wake-ups: notifications, one waiter behind the lock, and the two events
between them. Every step of the machine runs from one suspension of the event loop to the next. -/
namespace PuffoAgent.Wakeups
open Machine

/-- Where the waiter that holds the lock stands. -/
inductive Phase (T : Type) where
  | free
  /-- At `_wake.wait()`, whose future may be resolved. -/
  | waiting (released : Bool)
  /-- Between the two tasks: when the sleep may end, when it did, and whether the pull is done. -/
  | sleeping (deadline readyAt : T) (ended : Option T) (pull : Bool)
  /-- `asyncio.wait` has returned, the tasks are gathered. -/
  | gathering (deadline : T) (ended : Option T)
  /-- Cancelled, the tasks are gathered. -/
  | closing
  /-- `IndexError`. -/
  | failed
  deriving DecidableEq

/-- `InboxCoalescer`, with the monotonic clock. -/
structure Coalescer (T : Type) where
  clock : T
  deadlines : List T
  wake : Bool
  pulled : Bool
  phase : Phase T

inductive Event (T : Type) where
  | tick (now : T)
  | notify (delaySeconds : Option T)
  | enter
  | resume
  | expire
  | pull
  | wakeUp
  | settle
  | cancel
  | leave

section Machine
variable {T : Type} [AddCommGroup T] [LinearOrder T] (window : T) (s : Coalescer T)

/-- The delay that a notification asks for. -/
def delayOf (delaySeconds : Option T) : T :=
  match delaySeconds with
  | none => window
  | some delay => max 0 delay

/-- What `notify` leaves in the queue, and whether it pulled a deadline. -/
def requeue (now delay : T) : List T → List T × Bool
  | [] => ([now + delay], false)
  | first :: rest =>
    if delay = 0 then if now + delay < first then ((now + delay) :: rest, true) else (first :: rest, false)
    else if (first :: rest).getLast (List.cons_ne_nil _ _) ≤ now then (first :: rest ++ [now + delay], false)
    else if now + delay < first then ((now + delay) :: rest, true)
    else (first :: rest, false)

/-- `Event.set` reaches the waiter that awaits it. -/
def Phase.release : Phase T → Phase T
  | .waiting _ => .waiting true
  | phase => phase

/-- `notify`. -/
def Coalescer.notify (delaySeconds : Option T) : Coalescer T :=
  let queue := requeue s.clock (delayOf window delaySeconds) s.deadlines
  { s with deadlines := queue.1, pulled := s.pulled || queue.2, wake := true, phase := s.phase.release }

/-- The head of the loop of `wait_for_burst`, up to the sleep. -/
def Coalescer.arm : Coalescer T :=
  match s.deadlines with
  | [] => { s with pulled := false, phase := .failed }
  | deadline :: _ =>
    { s with pulled := false, phase := .sleeping deadline (s.clock + max 0 (deadline - s.clock)) none false }

/-- The end of `wait_for_burst`. -/
def Coalescer.consume : Coalescer T :=
  match s.deadlines with
  | [] => { s with phase := .failed }
  | _ :: rest => { s with deadlines := rest, wake := !rest.isEmpty, phase := .free }

/-- The waiter goes on after `_sleep_or_pull`. -/
def Coalescer.settle (deadline : T) (ended : Option T) : Coalescer T :=
  if ended.isSome then s.consume
  else match s.deadlines with
    | [] => { s with phase := .failed }
    | first :: _ => if deadline ≤ first then s.consume else s.arm

/-- What an event does; one that cannot happen does nothing. -/
def step : Event T → Coalescer T
  | .tick now => if s.clock ≤ now then { s with clock := now } else s
  | .notify delaySeconds => s.notify window delaySeconds
  | .enter =>
    match s.phase with
    | .free => { s with phase := .waiting s.wake }
    | _ => s
  | .resume =>
    match s.phase with
    | .waiting true => s.arm
    | _ => s
  | .expire =>
    match s.phase with
    | .sleeping deadline readyAt none pull =>
      if readyAt ≤ s.clock then { s with phase := .sleeping deadline readyAt (some s.clock) pull } else s
    | _ => s
  | .pull =>
    match s.phase with
    | .sleeping deadline readyAt ended _ => if s.pulled then { s with phase := .sleeping deadline readyAt ended true } else s
    | _ => s
  | .wakeUp =>
    match s.phase with
    | .sleeping deadline _ ended pull => if ended.isSome || pull then { s with phase := .gathering deadline ended } else s
    | _ => s
  | .settle =>
    match s.phase with
    | .gathering deadline ended => s.settle deadline ended
    | _ => s
  | .cancel =>
    match s.phase with
    | .waiting _ => { s with phase := .free }
    | .sleeping .. | .gathering .. => { s with phase := .closing }
    | _ => s
  | .leave =>
    match s.phase with
    | .closing => { s with phase := .free }
    | _ => s

/-- A new coalescer. -/
def start (clock : T) : Coalescer T := ⟨clock, [], false, false, .free⟩

end Machine

section Queue
variable {T : Type} [AddCommGroup T] [LinearOrder T] {window now delay : T} {q : List T}

/-- The deadlines of `new` begin with those of `old`, none of them later. -/
def Earlier (old new : List T) : Prop := ∃ kept added, new = kept ++ added ∧ List.Forall₂ (· ≤ ·) kept old

omit [AddCommGroup T] in
theorem Earlier.refl (q : List T) : Earlier q q := ⟨q, [], (List.append_nil q).symm, List.forall₂_refl q⟩

/-- What a notification does to the queue. -/
theorem requeue_cases (now delay : T) (q : List T) :
    (q = [] ∧ requeue now delay q = ([now + delay], false)) ∨
    ∃ first rest, q = first :: rest ∧
      ((now + delay < first ∧ requeue now delay q = ((now + delay) :: rest, true)) ∨
      (delay ≠ 0 ∧ (∀ x ∈ (first :: rest).getLast?, x ≤ now) ∧ requeue now delay q = (first :: rest ++ [now + delay], false)) ∨
      (first ≤ now + delay ∧ requeue now delay q = (first :: rest, false))) := by
  cases q with
  | nil => exact .inl ⟨rfl, rfl⟩
  | cons first rest =>
    refine .inr ⟨first, rest, rfl, ?_⟩
    rw [requeue]
    by_cases hzero : delay = 0
    · rw [if_pos hzero]
      by_cases hlt : now + delay < first
      · exact .inl ⟨hlt, if_pos hlt⟩
      · exact .inr (.inr ⟨not_lt.1 hlt, if_neg hlt⟩)
    · rw [if_neg hzero]
      by_cases hlast : (first :: rest).getLast (List.cons_ne_nil _ _) ≤ now
      · refine .inr (.inl ⟨hzero, fun x hx => ?_, if_pos hlast⟩)
        rw [List.getLast?_eq_some_getLast (List.cons_ne_nil _ _)] at hx
        cases hx
        exact hlast
      · rw [if_neg hlast]
        by_cases hlt : now + delay < first
        · exact .inl ⟨hlt, if_pos hlt⟩
        · exact .inr (.inr ⟨not_lt.1 hlt, if_neg hlt⟩)

/-- A notification leaves a deadline within its delay. -/
theorem requeue_deadline (now delay : T) (q : List T) : ∃ x ∈ (requeue now delay q).1, x ≤ now + delay := by
  rcases requeue_cases now delay q with ⟨-, he⟩ | ⟨first, rest, -, ⟨-, he⟩ | ⟨-, -, he⟩ | ⟨hle, he⟩⟩
  · exact ⟨now + delay, by simp [he], le_rfl⟩
  · exact ⟨now + delay, by simp [he], le_rfl⟩
  · exact ⟨now + delay, by simp [he], le_rfl⟩
  · exact ⟨first, by simp [he], hle⟩

theorem requeue_earlier (now delay : T) (q : List T) : Earlier q (requeue now delay q).1 := by
  rcases requeue_cases now delay q with ⟨rfl, he⟩ | ⟨first, rest, rfl, ⟨hlt, he⟩ | ⟨-, -, he⟩ | ⟨-, he⟩⟩
  · exact ⟨[], [now + delay], by rw [he]; rfl, .nil⟩
  · exact ⟨(now + delay) :: rest, [], by rw [he, List.append_nil], .cons hlt.le (List.forall₂_refl rest)⟩
  · exact ⟨first :: rest, [now + delay], by rw [he], List.forall₂_refl _⟩
  · rw [he]
    exact Earlier.refl _

theorem requeue_ne_nil (now delay : T) (q : List T) : (requeue now delay q).1 ≠ [] := by
  obtain ⟨x, hx, -⟩ := requeue_deadline now delay q
  exact List.ne_nil_of_mem hx

/-- The head only moves when it is pulled, and then it gets earlier. -/
theorem requeue_head (now delay : T) {first : T} {rest : List T} (h : q = first :: rest) :
    ∃ first' rest', (requeue now delay q).1 = first' :: rest' ∧
      if (requeue now delay q).2 then first' < first else first' = first := by
  subst h
  rcases requeue_cases now delay (first :: rest) with ⟨hnil, -⟩ | ⟨f, r, hq, hcase⟩
  · cases hnil
  · obtain ⟨rfl, rfl⟩ := List.cons.inj hq
    rcases hcase with ⟨hlt, he⟩ | ⟨-, -, he⟩ | ⟨-, he⟩
    · exact ⟨now + delay, rest, by rw [he], by rw [he]; exact hlt⟩
    · exact ⟨first, rest ++ [now + delay], by rw [he]; rfl, by rw [he]; rfl⟩
    · exact ⟨first, rest, by rw [he], by rw [he]; rfl⟩

variable [IsOrderedAddMonoid T]

omit [IsOrderedAddMonoid T] in
theorem delayOf_nonneg (hw : 0 ≤ window) (delaySeconds : Option T) : 0 ≤ delayOf window delaySeconds := by
  cases delaySeconds with
  | none => exact hw
  | some delay => exact le_max_left 0 delay

/-- The queue stays strictly increasing. -/
theorem requeue_sorted (hd : 0 ≤ delay) (h : q.Pairwise (· < ·)) : (requeue now delay q).1.Pairwise (· < ·) := by
  rcases requeue_cases now delay q with ⟨-, he⟩ | ⟨first, rest, rfl, ⟨hlt, he⟩ | ⟨hne, hlast, he⟩ | ⟨-, he⟩⟩
  · rw [he]
    exact List.pairwise_singleton _ _
  · rw [he]
    obtain ⟨hfirst, hrest⟩ := List.pairwise_cons.1 h
    exact List.pairwise_cons.2 ⟨fun x hx => hlt.trans (hfirst x hx), hrest⟩
  · rw [he, List.pairwise_append]
    refine ⟨h, List.pairwise_singleton _ _, fun x hx y hy => ?_⟩
    rw [List.mem_singleton.1 hy]
    -- the last deadline is due, and the new one is not
    have hle : x ≤ now := by
      obtain ⟨start, last, heq⟩ : ∃ start last, first :: rest = start ++ [last] :=
        ⟨_, _, (List.dropLast_append_getLast (List.cons_ne_nil first rest)).symm⟩
      rw [heq] at h hx hlast
      have hlast : last ≤ now := hlast last (by simp)
      rcases List.mem_append.1 hx with hx | hx
      · exact ((List.pairwise_append.1 h).2.2 x hx last List.mem_cons_self).le.trans hlast
      · rwa [List.mem_singleton.1 hx]
    exact lt_of_le_of_lt hle (lt_add_of_pos_right now (lt_of_le_of_ne hd hne.symm))
  · rwa [he]

end Queue

section Invariant
variable {T : Type} [AddCommGroup T] [LinearOrder T] {window : T} {s : Coalescer T}

/-- What the waiter relies on where it stands. -/
def Coalescer.Fits (s : Coalescer T) : Prop :=
  match s.phase with
  | .free | .closing => True
  | .waiting released => released = true → s.deadlines ≠ []
  | .sleeping deadline readyAt ended pull => ∃ first rest, s.deadlines = first :: rest ∧ first ≤ deadline ∧
      deadline ≤ readyAt ∧ (s.pulled = true → first < deadline) ∧ (pull = true → s.pulled = true) ∧
      ∀ t ∈ ended, readyAt ≤ t ∧ t ≤ s.clock
  | .gathering deadline ended => ∃ first rest, s.deadlines = first :: rest ∧ first ≤ deadline ∧
      (ended = none → first < deadline) ∧ ∀ t ∈ ended, deadline ≤ t ∧ t ≤ s.clock
  | .failed => False

/-- The invariant of a coalescer. -/
structure Coalescer.Sound (s : Coalescer T) : Prop where
  sorted : s.deadlines.Pairwise (· < ·)
  wake : s.wake = true ↔ s.deadlines ≠ []
  fits : s.Fits

omit [AddCommGroup T] in
theorem sound_start (clock : T) : (start clock).Sound := ⟨List.Pairwise.nil, by simp [start], trivial⟩

section Waiter
omit [AddCommGroup T]

theorem Coalescer.Sound.move {phase : Phase T} (h : s.Sound) (hfits : { s with phase := phase }.Fits) :
    { s with phase := phase }.Sound :=
  ⟨h.sorted, h.wake, hfits⟩

/-- Time that passes takes nothing from the waiter. -/
theorem Coalescer.Fits.later {now : T} (hle : s.clock ≤ now) (hfits : s.Fits) : { s with clock := now }.Fits := by
  unfold Coalescer.Fits at hfits ⊢
  cases hp : s.phase with
  | free => trivial
  | closing => trivial
  | waiting released => rwa [hp] at hfits
  | failed => rwa [hp] at hfits
  | sleeping deadline readyAt ended pull =>
    rw [hp] at hfits
    obtain ⟨first, rest, hq, hdeadline, hready, hpulled, hpull, hended⟩ := hfits
    exact ⟨first, rest, hq, hdeadline, hready, hpulled, hpull, fun t ht => ⟨(hended t ht).1, (hended t ht).2.trans hle⟩⟩
  | gathering deadline ended =>
    rw [hp] at hfits
    obtain ⟨first, rest, hq, hdeadline, hcut, hended⟩ := hfits
    exact ⟨first, rest, hq, hdeadline, hcut, fun t ht => ⟨(hended t ht).1, (hended t ht).2.trans hle⟩⟩

variable {deadline readyAt : T} {ended : Option T} {cut : Bool}

/-- What `s` relies on while it sleeps. -/
theorem Coalescer.Sound.asleep (h : s.Sound) (hp : s.phase = .sleeping deadline readyAt ended cut) :
    ∃ first rest, s.deadlines = first :: rest ∧ first ≤ deadline ∧ deadline ≤ readyAt ∧
      (s.pulled = true → first < deadline) ∧ (cut = true → s.pulled = true) ∧ ∀ t ∈ ended, readyAt ≤ t ∧ t ≤ s.clock := by
  have hfits := h.fits
  unfold Coalescer.Fits at hfits
  rwa [hp] at hfits

theorem Coalescer.Sound.expire (h : s.Sound) (hp : s.phase = .sleeping deadline readyAt none cut)
    (hexpired : readyAt ≤ s.clock) : { s with phase := .sleeping deadline readyAt (some s.clock) cut }.Sound := by
  obtain ⟨first, rest, hq, hle, hready, hpulled, hpull, -⟩ := h.asleep hp
  refine h.move ⟨first, rest, hq, hle, hready, hpulled, hpull, fun t ht => ?_⟩
  cases ht
  exact ⟨hexpired, le_rfl⟩

theorem Coalescer.Sound.pull (h : s.Sound) (hp : s.phase = .sleeping deadline readyAt ended cut)
    (hset : s.pulled = true) : { s with phase := .sleeping deadline readyAt ended true }.Sound := by
  obtain ⟨first, rest, hq, hle, hready, hpulled, -, hended⟩ := h.asleep hp
  exact h.move ⟨first, rest, hq, hle, hready, hpulled, fun _ => hset, hended⟩

/-- The waiter wakes with its sleep ended, or was pulled to an earlier deadline. -/
theorem Coalescer.Sound.wakeUp (h : s.Sound) (hp : s.phase = .sleeping deadline readyAt ended cut)
    (hdone : (ended.isSome || cut) = true) : { s with phase := .gathering deadline ended }.Sound := by
  obtain ⟨first, rest, hq, hle, hready, hpulled, hpull, hended⟩ := h.asleep hp
  refine h.move ⟨first, rest, hq, hle, fun hnone => ?_, fun t ht => ⟨hready.trans (hended t ht).1, (hended t ht).2⟩⟩
  -- only a pull can have cut the sleep short
  rw [hnone] at hdone
  exact hpulled (hpull (by simpa using hdone))

end Waiter

omit [AddCommGroup T] in
theorem Coalescer.Sound.consume (h : s.Sound) {first : T} {rest : List T} (hq : s.deadlines = first :: rest) :
    s.consume.Sound := by
  have hconsume : s.consume = { s with deadlines := rest, wake := !rest.isEmpty, phase := .free } := by
    rw [Coalescer.consume, hq]
  have hsorted := h.sorted
  rw [hq] at hsorted
  rw [hconsume]
  exact ⟨(List.pairwise_cons.1 hsorted).2, by cases rest <;> simp, trivial⟩

section Notify
variable [IsOrderedAddMonoid T]

theorem Coalescer.Sound.arm (h : s.Sound) (hne : s.deadlines ≠ []) : s.arm.Sound := by
  obtain ⟨first, rest, hq⟩ := List.exists_cons_of_ne_nil hne
  have harm : s.arm =
      { s with pulled := false, phase := .sleeping first (s.clock + max 0 (first - s.clock)) none false } := by
    rw [Coalescer.arm, hq]
  have hready : first ≤ s.clock + max 0 (first - s.clock) :=
    sub_le_iff_le_add'.1 (le_max_right 0 (first - s.clock))
  rw [harm]
  exact ⟨h.sorted, h.wake, first, rest, hq, le_rfl, hready, nofun, nofun, nofun⟩

theorem Coalescer.Sound.notify (hw : 0 ≤ window) (h : s.Sound) (delaySeconds : Option T) :
    (s.notify window delaySeconds).Sound := by
  have hne := requeue_ne_nil s.clock (delayOf window delaySeconds) s.deadlines
  refine ⟨requeue_sorted (delayOf_nonneg hw delaySeconds) h.sorted, ⟨fun _ => hne, fun _ => rfl⟩, ?_⟩
  have hfits := h.fits
  unfold Coalescer.Fits at hfits ⊢
  cases hp : s.phase with
  | free => rw [Coalescer.notify, hp]; trivial
  | closing => rw [Coalescer.notify, hp]; trivial
  | waiting released => rw [Coalescer.notify, hp]; exact fun _ => hne
  | failed =>
    rw [hp] at hfits
    exact hfits.elim
  | sleeping deadline readyAt ended pull =>
    rw [hp] at hfits
    obtain ⟨first, rest, hq, hle, hready, hpulled, hpull, hended⟩ := hfits
    obtain ⟨first', rest', hq', hhead⟩ := requeue_head s.clock (delayOf window delaySeconds) hq
    have hfirst : first' ≤ first := by
      split at hhead
      · exact hhead.le
      · exact hhead.le
    rw [Coalescer.notify, hp]
    refine ⟨first', rest', hq', hfirst.trans hle, hready, fun hset => ?_, fun hdone => ?_, hended⟩
    · rcases Bool.or_eq_true_iff.1 hset with hset | hset
      · exact lt_of_le_of_lt hfirst (hpulled hset)
      · rw [if_pos hset] at hhead
        exact lt_of_lt_of_le hhead hle
    · simp [hpull hdone]
  | gathering deadline ended =>
    rw [hp] at hfits
    obtain ⟨first, rest, hq, hle, hcut, hended⟩ := hfits
    obtain ⟨first', rest', hq', hhead⟩ := requeue_head s.clock (delayOf window delaySeconds) hq
    have hfirst : first' ≤ first := by
      split at hhead
      · exact hhead.le
      · exact hhead.le
    rw [Coalescer.notify, hp]
    exact ⟨first', rest', hq', hfirst.trans hle, fun hn => lt_of_le_of_lt hfirst (hcut hn), hended⟩

omit [IsOrderedAddMonoid T] in
/-- The waiter returns iff its sleep has ended, and then it takes the head. -/
theorem settle_cases (h : s.Sound) {deadline : T} {ended : Option T} (hp : s.phase = .gathering deadline ended) :
    (∃ e first rest, ended = some e ∧ s.deadlines = first :: rest ∧ first ≤ e ∧ e ≤ s.clock ∧
      s.settle deadline ended = s.consume) ∨
    (ended = none ∧ s.deadlines ≠ [] ∧ s.settle deadline ended = s.arm) := by
  have hfits := h.fits
  unfold Coalescer.Fits at hfits
  rw [hp] at hfits
  obtain ⟨first, rest, hq, hle, hcut, hended⟩ := hfits
  cases ended with
  | some e =>
    obtain ⟨hdeadline, hclock⟩ := hended e rfl
    exact .inl ⟨e, first, rest, rfl, hq, hle.trans hdeadline, hclock, rfl⟩
  | none =>
    refine .inr ⟨rfl, by simp [hq], ?_⟩
    have hnot : ¬ deadline ≤ first := not_le.2 (hcut rfl)
    rw [Coalescer.settle, hq]
    exact if_neg hnot

theorem Coalescer.Sound.step (hw : 0 ≤ window) (h : s.Sound) (event : Event T) : (step window s event).Sound := by
  cases event with
  | notify delaySeconds => exact h.notify hw delaySeconds
  | tick now =>
    rw [Wakeups.step]
    split
    · rename_i hle
      exact ⟨h.sorted, h.wake, h.fits.later hle⟩
    · exact h
  | enter =>
    rw [Wakeups.step]
    split
    · exact h.move h.wake.1
    · exact h
  | resume =>
    rw [Wakeups.step]
    split
    · rename_i hp
      have hfits := h.fits
      unfold Coalescer.Fits at hfits
      rw [hp] at hfits
      exact h.arm (hfits rfl)
    · exact h
  | expire =>
    rw [Wakeups.step]
    split
    · rename_i hp
      split
      · rename_i hexpired
        exact h.expire hp hexpired
      · exact h
    · exact h
  | pull =>
    rw [Wakeups.step]
    split
    · rename_i hp
      split
      · rename_i hset
        exact h.pull hp hset
      · exact h
    · exact h
  | wakeUp =>
    rw [Wakeups.step]
    split
    · rename_i hp
      split
      · rename_i hdone
        exact h.wakeUp hp hdone
      · exact h
    · exact h
  | settle =>
    rw [Wakeups.step]
    split
    · rename_i deadline ended hp
      rcases settle_cases h hp with ⟨e, first, rest, -, hq, -, -, he⟩ | ⟨-, hne, he⟩
      · rw [he]
        exact h.consume hq
      · rw [he]
        exact h.arm hne
    · exact h
  | cancel =>
    rw [Wakeups.step]
    split
    · exact h.move trivial
    · exact h.move trivial
    · exact h.move trivial
    · exact h
  | leave =>
    rw [Wakeups.step]
    split
    · exact h.move trivial
    · exact h

/-- The step that ends a call of `wait_for_burst`. -/
def Returns (window : T) (s : Coalescer T) (event : Event T) : Prop :=
  (∃ deadline ended, event = .settle ∧ s.phase = .gathering deadline ended) ∧ (step window s event).phase = .free

omit [IsOrderedAddMonoid T] in
/-- Every other step leaves all deadlines in the queue, and moves none of them later. -/
theorem step_earlier (h : s.Sound) (event : Event T) (hr : ¬ Returns window s event) :
    Earlier s.deadlines (step window s event).deadlines := by
  have harm : Earlier s.deadlines s.arm.deadlines := by
    rw [Coalescer.arm]
    split <;> exact Earlier.refl _
  cases event with
  | notify delaySeconds => exact requeue_earlier _ _ _
  | settle =>
    rw [step]
    split
    · rename_i deadline ended hp
      rcases settle_cases h hp with ⟨e, first, rest, -, hq, -, -, he⟩ | ⟨-, -, he⟩
      · refine absurd ⟨⟨deadline, ended, rfl, hp⟩, ?_⟩ hr
        rw [step]
        simp only [hp, he, Coalescer.consume, hq]
      · rw [he]
        exact harm
    · exact Earlier.refl _
  | resume =>
    rw [step]
    split
    · exact harm
    · exact Earlier.refl _
  | tick now => rw [step]; split <;> exact Earlier.refl _
  | enter => rw [step]; split <;> exact Earlier.refl _
  | expire =>
    rw [step]
    split
    · split <;> exact Earlier.refl _
    · exact Earlier.refl _
  | pull =>
    rw [step]
    split
    · split <;> exact Earlier.refl _
    · exact Earlier.refl _
  | wakeUp =>
    rw [step]
    split
    · split <;> exact Earlier.refl _
    · exact Earlier.refl _
  | cancel => rw [step]; split <;> exact Earlier.refl _
  | leave => rw [step]; split <;> exact Earlier.refl _

omit [IsOrderedAddMonoid T] in
/-- A burst takes one deadline, which was due when its sleep ended. -/
theorem returns_consumes (h : s.Sound) {event : Event T} (hr : Returns window s event) :
    ∃ deadline e first, s.phase = .gathering deadline (some e) ∧
      s.deadlines = first :: (step window s event).deadlines ∧ first ≤ e ∧ e ≤ s.clock := by
  obtain ⟨⟨deadline, ended, rfl, hp⟩, hfree⟩ := hr
  have hstep : step window s .settle = s.settle deadline ended := by rw [step, hp]
  rw [hstep] at hfree ⊢
  rcases settle_cases h hp with ⟨e, first, rest, rfl, hq, hle, hclock, he⟩ | ⟨-, hne, he⟩
  · refine ⟨deadline, e, first, hp, ?_, hle, hclock⟩
    rw [he, Coalescer.consume, hq]
  · obtain ⟨first, rest, hq⟩ := List.exists_cons_of_ne_nil hne
    rw [he, Coalescer.arm, hq] at hfree
    cases hfree

/-- In every state that a run reaches: the queue is strictly increasing; the wake event is set iff it holds a
deadline, and the waiter never finds it empty; a notification leaves a deadline within its delay, a negative
one counting as none; only a burst takes a deadline out, one that was due when its sleep ended, and no step
moves one later. -/
theorem coalescer_keeps_wakeups (hw : 0 ≤ window) (clock : T) (events : List (Event T)) :
    let s := run (step window) (start clock) events
    s.deadlines.Pairwise (· < ·) ∧ (s.wake = true ↔ s.deadlines ≠ []) ∧ s.phase ≠ .failed ∧
      (∀ delaySeconds, ∃ x ∈ (step window s (.notify delaySeconds)).deadlines, x ≤ s.clock + delayOf window delaySeconds) ∧
      (∀ event, ¬ Returns window s event → Earlier s.deadlines (step window s event).deadlines) ∧
      ∀ event, Returns window s event → ∃ deadline e first, s.phase = .gathering deadline (some e) ∧
        s.deadlines = first :: (step window s event).deadlines ∧ first ≤ e ∧ e ≤ s.clock := by
  intro s
  have h : s.Sound := run_invariant (sound_start clock) (fun _ event hs => hs.step hw event) events
  refine ⟨h.sorted, h.wake, fun hfailed => ?_, fun delaySeconds => requeue_deadline _ _ _,
    fun event hr => step_earlier h event hr, fun event hr => returns_consumes h hr⟩
  have hfits := h.fits
  unfold Coalescer.Fits at hfits
  rwa [hfailed] at hfits

end Notify
end Invariant

/-- A notification at one second that pulls the deadline of a sleeping waiter. -/
def pulledRun : List (Event ℤ) :=
  [.notify none, .enter, .resume, .tick 1, .notify (some 0), .pull, .wakeUp, .settle, .expire, .wakeUp]

theorem coalescer_keeps_wakeups_pulled :
    Returns 3 (run (step 3) (start 0) pulledRun) .settle ∧
      ∃ deadline e first, (run (step 3) (start 0) pulledRun).phase = .gathering deadline (some e) ∧
        (run (step 3) (start 0) pulledRun).deadlines =
          first :: (step 3 (run (step 3) (start 0) pulledRun) .settle).deadlines ∧
        first ≤ e ∧ e ≤ (run (step 3) (start 0) pulledRun).clock := by
  have hr : Returns 3 (run (step 3) (start 0) pulledRun) .settle := ⟨⟨1, some 1, rfl, by decide⟩, by decide⟩
  obtain ⟨-, -, -, -, -, hreturns⟩ := coalescer_keeps_wakeups (by decide : (0 : ℤ) ≤ 3) 0 pulledRun
  exact ⟨hr, hreturns .settle hr⟩

/-- A negative delay counts as none: no deadline lies in the past. -/
theorem negative_delay_clamped :
    (step 3 (start (0 : ℤ)) (.notify (some (-1)))).deadlines = [0] ∧
      ¬ ∃ x ∈ (step 3 (start (0 : ℤ)) (.notify (some (-1)))).deadlines, x ≤ 0 + (-1) := by
  decide

end PuffoAgent.Wakeups
