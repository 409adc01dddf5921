import PuffoAgent.Relational.Triple

/-! Procedures whose effects the world answers one by one. A procedure that gets no answer is
cut there for good: a crash, a kill or a cancellation. -/
namespace PuffoAgent.Effects
open Relational

variable {ω σ ε α β : Type}

/-- How a procedure ends early. Only what is raised can be caught. -/
inductive Stop (ε : Type)
  | raised (e : ε)
  | cut

/-- A state and the answers still to come. -/
structure Ongoing (ω σ : Type) where
  state : σ
  answers : List ω

abbrev Proc (ω σ ε : Type) := Stmt (Stop ε) (Ongoing ω σ)

namespace Proc

/-- A look at the state. -/
def look (f : σ → α) : Proc ω σ ε α := Stmt.query fun t => f t.state

/-- A change of the state between two effects. -/
def change (f : σ → σ) : Proc ω σ ε Unit := Stmt.exec fun t => ⟨f t.state, t.answers⟩

def raise (e : ε) : Proc ω σ ε α := throw (.raised e)

def refuse (p : Prop) [Decidable p] (e : ε) : Proc ω σ ε Unit := if p then raise e else pure ()

/-- One effect, with the answer the world gives to it. -/
def perform (f : ω → σ → Except (Stop ε) α × σ) : Proc ω σ ε α := fun t =>
  match t.answers with
  | [] => .error .cut t
  | w :: ws =>
    match f w t.state with
    | (.ok a, s) => .ok a ⟨s, ws⟩
    | (.error e, s) => .error e ⟨s, ws⟩

/-- `try: ... except Exception`. -/
def rescue (x : Proc ω σ ε α) (handle : ε → Proc ω σ ε α) : Proc ω σ ε α :=
  tryCatch x fun
    | .raised e => handle e
    | .cut => throw .cut

/-- A call with the error it raises as a value. -/
def caught (x : Proc ω σ ε α) : Proc ω σ ε (Except ε α) := rescue (do return .ok (← x)) fun e => pure (.error e)

/-- The state a procedure leaves behind, however it ends. -/
def leaves (x : Proc ω σ ε α) (answers : List ω) (s : σ) : σ := (Stmt.left x ⟨s, answers⟩).state

section Rules
variable {P : σ → Prop} {Q : α → σ → Prop} {R : β → σ → Prop} {E F : ε → σ → Prop} {C I : σ → Prop}

/-- From a state in `P` a procedure returns in `Q`, raises in `E` or is cut in `C`. -/
def Does (P : σ → Prop) (x : Proc ω σ ε α) (Q : α → σ → Prop) (E : ε → σ → Prop) (C : σ → Prop) : Prop :=
  Stmt.Meets (fun t => P t.state) x (fun a t => Q a t.state) fun
    | .raised e, t => E e t.state
    | .cut, t => C t.state

/-- A procedure keeps an invariant, also where it is cut. -/
def Keeps (I : σ → Prop) (x : Proc ω σ ε α) : Prop := Does I x (fun _ => I) (fun _ => I) I

theorem leaves_of_meets {x : Proc ω σ ε α} {s : σ} {answers : List ω}
    (h : Stmt.Meets (· = ⟨s, answers⟩) x (fun _ t => I t.state) fun _ t => I t.state) : I (x.leaves answers s) := by
  have hx := h _ rfl
  unfold Proc.leaves Stmt.left
  cases hr : x ⟨s, answers⟩ with
  | ok a t => rwa [hr] at hx
  | error e t => rwa [hr] at hx

theorem Does.pre {P' : σ → Prop} {x : Proc ω σ ε α} (h : Does P x Q E C) (hP : ∀ s, P' s → P s) : Does P' x Q E C :=
  Stmt.Meets.pre h fun _ => hP _

theorem Does.mono {Q' : α → σ → Prop} {C' : σ → Prop} {x : Proc ω σ ε α} (h : Does P x Q E C)
    (hQ : ∀ a s, Q a s → Q' a s) (hE : ∀ e s, E e s → F e s) (hC : ∀ s, C s → C' s) : Does P x Q' F C' := by
  refine Stmt.Meets.mono h (fun _ hp => hp) (fun a _ => hQ a _) fun e t he => ?_
  cases e with
  | raised e => exact hE e _ he
  | cut => exact hC _ he

/-- A postcondition that is the same for an error and a cut. -/
theorem Does.meets {x : Proc ω σ ε α} (h : Does P x Q (fun _ => C) C) :
    Stmt.Meets (fun t => P t.state) x (fun a t => Q a t.state) fun _ t => C t.state := by
  refine Stmt.Meets.mono h (fun _ hp => hp) (fun _ _ hq => hq) fun e t he => ?_
  cases e <;> exact he

theorem Keeps.leaves {x : Proc ω σ ε α} (h : Keeps I x) {s : σ} (hs : I s) (answers : List ω) :
    I (x.leaves answers s) :=
  leaves_of_meets (h.meets.pre fun t ht => by rwa [ht])

theorem does_pure {a : α} (h : ∀ s, P s → Q a s) : Does P (pure a : Proc ω σ ε α) Q E C :=
  Stmt.meets_pure fun _ => h _

theorem does_change {f : σ → σ} {Q : Unit → σ → Prop} (h : ∀ s, P s → Q () (f s)) :
    Does P (change f : Proc ω σ ε Unit) Q E C := Stmt.meets_exec fun _ => h _

theorem does_raise {e : ε} (h : ∀ s, P s → E e s) : Does P (raise e : Proc ω σ ε α) Q E C :=
  Stmt.meets_throw fun _ => h _

theorem does_cut (h : ∀ s, P s → C s) : Does P (throw .cut : Proc ω σ ε α) Q E C := Stmt.meets_throw fun _ => h _

/-- An effect, where more is known of the answers to come. -/
theorem meets_perform {f : ω → σ → Except (Stop ε) α × σ} {P : Ongoing ω σ → Prop} {Q : α → Ongoing ω σ → Prop}
    {E : Stop ε → Ongoing ω σ → Prop} (hcut : ∀ s, P ⟨s, []⟩ → E .cut ⟨s, []⟩)
    (h : ∀ w ws s, P ⟨s, w :: ws⟩ → match f w s with
      | (.ok a, s') => Q a ⟨s', ws⟩
      | (.error e, s') => E e ⟨s', ws⟩) : Stmt.Meets P (perform f) Q E := by
  rintro ⟨s, answers⟩ ht
  cases answers with
  | nil => exact hcut s ht
  | cons w ws =>
    have hw := h w ws s ht
    unfold perform
    cases hf : f w s with
    | mk r s' =>
      rw [hf] at hw
      simp only [hf]
      cases r <;> exact hw

theorem does_perform {f : ω → σ → Except (Stop ε) α × σ} (hcut : ∀ s, P s → C s)
    (h : ∀ w s, P s → match f w s with
      | (.ok a, s') => Q a s'
      | (.error (.raised e), s') => E e s'
      | (.error .cut, s') => C s') : Does P (perform f : Proc ω σ ε α) Q E C := by
  refine meets_perform (fun s => hcut s) fun w ws s ht => ?_
  have hw := h w s ht
  cases hf : f w s with
  | mk r s' =>
    rw [hf] at hw
    match r with
    | .ok a => exact hw
    | .error (.raised e) => exact hw
    | .error .cut => exact hw

theorem Does.bind {x : Proc ω σ ε α} {f : α → Proc ω σ ε β} (hx : Does P x Q E C) (hf : ∀ a, Does (Q a) (f a) R E C) :
    Does P (x >>= f) R E C := Stmt.Meets.bind hx hf

theorem Does.and {Q' : α → σ → Prop} {E' : ε → σ → Prop} {C' : σ → Prop} {x : Proc ω σ ε α} (h : Does P x Q E C)
    (h' : Does P x Q' E' C') :
    Does P x (fun a s => Q a s ∧ Q' a s) (fun e s => E e s ∧ E' e s) fun s => C s ∧ C' s := by
  intro t ht
  have hx := h t ht
  have hx' := h' t ht
  cases hr : x t with
  | ok a t' =>
    rw [hr] at hx hx'
    exact ⟨hx, hx'⟩
  | error e t' =>
    rw [hr] at hx hx'
    cases e <;> exact ⟨hx, hx'⟩

/-- A fact about the state that the procedure starts from. -/
theorem Does.from {x : Proc ω σ ε α} (h : ∀ s, P s → Does (· = s) x Q E C) : Does P x Q E C :=
  fun t ht => h t.state ht t rfl

theorem Does.look {f : σ → α} {g : α → Proc ω σ ε β} (h : ∀ a, Does (fun s => P s ∧ f s = a) (g a) R E C) :
    Does P (Proc.look f >>= g) R E C := Stmt.Meets.query_bind h

theorem Does.rescue {x : Proc ω σ ε α} {handle : ε → Proc ω σ ε α} (hx : Does P x Q F C)
    (hh : ∀ e, Does (F e) (handle e) Q E C) : Does P (x.rescue handle) Q E C := by
  refine Stmt.Meets.tryCatch hx fun e => ?_
  cases e with
  | raised e => exact hh e
  | cut => exact Stmt.meets_throw fun _ h => h

/-- An error that is caught is a value, and a cut stays one. -/
theorem meets_caught {P : Ongoing ω σ → Prop} {Q : Except ε α → Ongoing ω σ → Prop} {E : Stop ε → Ongoing ω σ → Prop}
    {x : Proc ω σ ε α} (hx : Stmt.Meets P x (fun a => Q (.ok a)) fun
      | .raised e, t => Q (.error e) t
      | .cut, t => E .cut t) : Stmt.Meets P (caught x) Q E := by
  refine Stmt.Meets.tryCatch (hx.bind fun a => Stmt.meets_pure fun _ h => h) fun e => ?_
  cases e with
  | raised e => exact Stmt.meets_pure fun _ h => h
  | cut => exact Stmt.meets_throw fun _ h => h

theorem Does.caught {Q : Except ε α → σ → Prop} {x : Proc ω σ ε α}
    (hx : Does P x (fun a => Q (.ok a)) (fun e => Q (.error e)) C) : Does P (caught x) Q E C :=
  meets_caught hx

theorem Does.ite {p : Prop} [Decidable p] {x y : Proc ω σ ε α} (hx : p → Does P x Q E C) (hy : ¬ p → Does P y Q E C) :
    Does P (if p then x else y) Q E C := Stmt.Meets.ite hx hy

theorem does_refuse {p : Prop} [Decidable p] {e : ε} {Q : Unit → σ → Prop} (hp : p → ∀ s, P s → E e s)
    (hn : ¬ p → ∀ s, P s → Q () s) : Does P (refuse p e : Proc ω σ ε Unit) Q E C :=
  .ite (fun h => does_raise (hp h)) fun h => does_pure (hn h)

end Rules

section Promised
variable {A : ω → Prop} {P P' : σ → Prop} {Q : α → σ → Prop} {R : β → σ → Prop} {E F : ε → σ → Prop} {C : σ → Prop}

/-- `Does`, where the world promises that every answer still to come is in `A`. -/
def Under (A : ω → Prop) (P : σ → Prop) (x : Proc ω σ ε α) (Q : α → σ → Prop) (E : ε → σ → Prop) (C : σ → Prop) : Prop :=
  Stmt.Meets (fun t => (∀ a ∈ t.answers, A a) ∧ P t.state) x (fun r t => (∀ a ∈ t.answers, A a) ∧ Q r t.state) fun
    | .raised e, t => (∀ a ∈ t.answers, A a) ∧ E e t.state
    | .cut, t => C t.state

theorem Under.pre {x : Proc ω σ ε α} (h : Under A P x Q E C) (hP : ∀ s, P' s → P s) : Under A P' x Q E C :=
  Stmt.Meets.pre h fun _ ht => ⟨ht.1, hP _ ht.2⟩

/-- What the precondition says of no state in particular. -/
theorem Under.fact {p : Prop} {x : Proc ω σ ε α} (hp : ∀ s, P s → p) (h : p → Under A P x Q E C) : Under A P x Q E C :=
  fun t ht => h (hp _ ht.2) t ht

theorem Under.mono {Q' : α → σ → Prop} {x : Proc ω σ ε α} (h : Under A P x Q E C)
    (hQ : ∀ a s, Q a s → Q' a s) (hE : ∀ e s, E e s → F e s) : Under A P x Q' F C := by
  refine Stmt.Meets.mono h (fun _ hp => hp) (fun a _ hq => ⟨hq.1, hQ a _ hq.2⟩) fun e t he => ?_
  cases e with
  | raised e => exact ⟨he.1, hE e _ he.2⟩
  | cut => exact he

theorem Under.bind {x : Proc ω σ ε α} {f : α → Proc ω σ ε β} (hx : Under A P x Q E C)
    (hf : ∀ a, Under A (Q a) (f a) R E C) : Under A P (x >>= f) R E C := Stmt.Meets.bind hx hf

theorem Under.look {f : σ → α} {g : α → Proc ω σ ε β} (h : ∀ a, Under A (fun s => P s ∧ f s = a) (g a) R E C) :
    Under A P (Proc.look f >>= g) R E C :=
  Stmt.Meets.query_bind fun a => Stmt.Meets.pre (h a) fun _ ht => ⟨ht.1.1, ht.1.2, ht.2⟩

theorem Under.rescue {x : Proc ω σ ε α} {handle : ε → Proc ω σ ε α} (hx : Under A P x Q F C)
    (hh : ∀ e, Under A (F e) (handle e) Q E C) : Under A P (x.rescue handle) Q E C := by
  refine Stmt.Meets.tryCatch hx fun e => ?_
  cases e with
  | raised e => exact hh e
  | cut => exact Stmt.meets_throw fun _ h => h

theorem Under.caught {Q : Except ε α → σ → Prop} {x : Proc ω σ ε α}
    (hx : Under A P x (fun a => Q (.ok a)) (fun e => Q (.error e)) C) : Under A P (caught x) Q E C :=
  meets_caught hx

theorem Under.ite {p : Prop} [Decidable p] {x y : Proc ω σ ε α} (hx : p → Under A P x Q E C)
    (hy : ¬ p → Under A P y Q E C) : Under A P (if p then x else y) Q E C := Stmt.Meets.ite hx hy

/-- What a procedure leaves behind when all its answers are as promised. -/
theorem Under.leaves {x : Proc ω σ ε α} {I : σ → Prop} (h : Under A P x (fun _ => I) (fun _ => I) I) {s : σ} (hs : P s)
    {answers : List ω} (hanswers : ∀ a ∈ answers, A a) : I (x.leaves answers s) := by
  refine leaves_of_meets (Stmt.Meets.mono h ?_ (fun _ _ hq => hq.2) fun e t he => ?_)
  · rintro _ rfl
    exact ⟨hanswers, hs⟩
  · cases e with
    | raised e => exact he.2
    | cut => exact he

/-- What it returns then. -/
theorem Under.returned {x : Proc ω σ ε α} (h : Under A P x Q E C) {s : σ} (hs : P s) {answers : List ω}
    (hanswers : ∀ a ∈ answers, A a) {a : α} {t : Ongoing ω σ} (hx : x ⟨s, answers⟩ = .ok a t) : Q a t.state := by
  have hq := h ⟨s, answers⟩ ⟨hanswers, hs⟩
  rw [hx] at hq
  exact hq.2

end Promised

section Bounded
variable {P P' : σ → Prop} {Q : α → σ → Prop} {R : β → σ → Prop} {m n : Nat}

/-- From a state in `P`, with `n` answers a procedure returns in `Q` or raises, and it uses no more of them. -/
def Takes (n : Nat) (P : σ → Prop) (x : Proc ω σ ε α) (Q : α → σ → Prop) : Prop :=
  ∀ k, Stmt.Meets (fun t => P t.state ∧ k + n ≤ t.answers.length) x (fun a t => Q a t.state ∧ k ≤ t.answers.length) fun
    | .raised _, t => k ≤ t.answers.length
    | .cut, _ => False

theorem Takes.mono {Q' : α → σ → Prop} {x : Proc ω σ ε α} (h : Takes m P x Q) (hmn : m ≤ n) (hP : ∀ s, P' s → P s)
    (hQ : ∀ a s, Q a s → Q' a s) : Takes n P' x Q' := fun k =>
  Stmt.Meets.mono (h k) (fun _ ht => ⟨hP _ ht.1, by omega⟩) (fun _ _ ht => ⟨hQ _ _ ht.1, ht.2⟩) fun _ _ he => he

theorem takes_absurd {x : Proc ω σ ε α} (h : ∀ s, ¬ P s) : Takes n P x Q := fun _ _ ht => absurd ht.1 (h _)

theorem takes_pure {a : α} (h : ∀ s, P s → Q a s) : Takes 0 P (pure a : Proc ω σ ε α) Q :=
  fun _ => Stmt.meets_pure fun _ ht => ⟨h _ ht.1, ht.2⟩

theorem takes_change {f : σ → σ} {Q : Unit → σ → Prop} (h : ∀ s, P s → Q () (f s)) :
    Takes 0 P (change f : Proc ω σ ε Unit) Q := fun _ => Stmt.meets_exec fun _ ht => ⟨h _ ht.1, ht.2⟩

theorem takes_perform {f : ω → σ → Except (Stop ε) α × σ} (h : ∀ w s, P s → match f w s with
      | (.ok a, s') => Q a s'
      | (.error (.raised _), _) => True
      | (.error .cut, _) => False) : Takes 1 P (perform f : Proc ω σ ε α) Q := by
  intro k
  refine meets_perform (fun s ht => ?_) fun w ws s ht => ?_
  · have hlength := ht.2
    simp at hlength
  · have hw := h w s ht.1
    have hlength := ht.2
    rw [List.length_cons] at hlength
    cases hf : f w s with
    | mk r s' =>
      rw [hf] at hw
      match r with
      | .ok a => exact ⟨hw, by show k ≤ ws.length; omega⟩
      | .error (.raised e) => exact (by omega : k ≤ ws.length)
      | .error .cut => exact hw

theorem Takes.bind {x : Proc ω σ ε α} {f : α → Proc ω σ ε β} (hx : Takes m P x Q) (hf : ∀ a, Takes n (Q a) (f a) R) :
    Takes (m + n) P (x >>= f) R := by
  intro k
  refine Stmt.Meets.bind (Stmt.Meets.mono (hx (k + n)) (fun _ ht => ⟨ht.1, by omega⟩) (fun _ _ hq => hq) fun e t he => ?_)
    fun a => hf a k
  cases e with
  | raised e => exact (by omega : k ≤ t.answers.length)
  | cut => exact he

theorem Takes.look {f : σ → α} {g : α → Proc ω σ ε β} (h : ∀ a, Takes n (fun s => P s ∧ f s = a) (g a) R) :
    Takes n P (Proc.look f >>= g) R := fun k =>
  Stmt.Meets.query_bind fun a => Stmt.Meets.pre (h a k) fun _ ht => ⟨⟨ht.1.1, ht.2⟩, ht.1.2⟩

theorem Takes.ite {p : Prop} [Decidable p] {x y : Proc ω σ ε α} (hx : p → Takes n P x Q) (hy : ¬ p → Takes n P y Q) :
    Takes n P (if p then x else y) Q := fun k => Stmt.Meets.ite (fun h => hx h k) fun h => hy h k

end Bounded

section Possible
variable {x : Proc ω σ ε α} {f : α → Proc ω σ ε β} {s s' s'' : σ} {a : α} {b : β}

/-- There are answers with which a procedure returns, whatever answers follow. -/
def Can (x : Proc ω σ ε α) (s : σ) (a : α) (s' : σ) : Prop :=
  ∃ answers, ∀ rest, x ⟨s, answers ++ rest⟩ = .ok a ⟨s', rest⟩

theorem can_pure : Can (pure a : Proc ω σ ε α) s a s := ⟨[], fun _ => rfl⟩

theorem can_perform {g : ω → σ → Except (Stop ε) α × σ} {w : ω} (h : g w s = (.ok a, s')) : Can (perform g) s a s' :=
  ⟨[w], fun rest => by simp only [List.singleton_append, perform, h]⟩

theorem Can.bind (hx : Can x s a s') (hf : Can (f a) s' b s'') : Can (x >>= f) s b s'' := by
  obtain ⟨ws, hx⟩ := hx
  obtain ⟨ws', hf⟩ := hf
  refine ⟨ws ++ ws', fun rest => ?_⟩
  rw [List.append_assoc]
  exact Stmt.bind_ok_iff.2 ⟨a, _, hx (ws' ++ rest), hf rest⟩

theorem Can.exists_run (h : Can x s a s') : ∃ answers t, x ⟨s, answers⟩ = .ok a t ∧ t.state = s' := by
  obtain ⟨ws, h⟩ := h
  exact ⟨ws, _, by simpa using h [], rfl⟩

end Possible
end Proc
end PuffoAgent.Effects
