import PuffoAgent.Relational.Transaction

/-! Pre- and postconditions of statements, with a postcondition for each way to end. -/
namespace PuffoAgent.Relational.Stmt

variable {ε τ α β : Type}

/-- From a state in `P` the statement returns in `Q` or raises in `E`. -/
def Meets (P : τ → Prop) (x : Stmt ε τ α) (Q : α → τ → Prop) (E : ε → τ → Prop) : Prop :=
  ∀ t, P t → match x t with
    | .ok a t' => Q a t'
    | .error e t' => E e t'

/-- The statement keeps an invariant, however it ends. -/
def Keeps (Inv : τ → Prop) (x : Stmt ε τ α) : Prop := Meets Inv x (fun _ => Inv) fun _ => Inv

/-- The state that a statement leaves, whether it returned or raised. -/
def left (x : Stmt ε τ α) (t : τ) : τ :=
  match x t with
  | .ok _ t' => t'
  | .error _ t' => t'

variable {P P' : τ → Prop} {Q Q' : α → τ → Prop} {R : β → τ → Prop} {E F : ε → τ → Prop} {Inv : τ → Prop}

theorem Keeps.left {x : Stmt ε τ α} (h : Keeps Inv x) {t : τ} (ht : Inv t) : Inv (x.left t) := by
  have hx := h t ht
  unfold Stmt.left
  cases hr : x t with
  | ok a t' => rwa [hr] at hx
  | error e t' => rwa [hr] at hx

theorem Meets.mono {x : Stmt ε τ α} (h : Meets P x Q E) (hP : ∀ t, P' t → P t)
    (hQ : ∀ a t, Q a t → Q' a t) (hE : ∀ e t, E e t → F e t) : Meets P' x Q' F := by
  intro t ht
  have hx := h t (hP t ht)
  cases hr : x t with
  | ok a t' => exact hQ a t' (by rwa [hr] at hx)
  | error e t' => exact hE e t' (by rwa [hr] at hx)

theorem Meets.pre {x : Stmt ε τ α} (h : Meets P x Q E) (hP : ∀ t, P' t → P t) : Meets P' x Q E :=
  h.mono hP (fun _ _ hq => hq) fun _ _ he => he

theorem Meets.post {x : Stmt ε τ α} (h : Meets P x Q E) (hQ : ∀ a t, Q a t → Q' a t) : Meets P x Q' E :=
  h.mono (fun _ hp => hp) hQ fun _ _ he => he

theorem meets_pure {a : α} (h : ∀ t, P t → Q a t) : Meets P (pure a : Stmt ε τ α) Q E := h

theorem meets_query {f : τ → α} (h : ∀ t, P t → Q (f t) t) : Meets P (query f : Stmt ε τ α) Q E := h

theorem meets_exec {f : τ → τ} {Q : Unit → τ → Prop} (h : ∀ t, P t → Q () (f t)) :
    Meets P (exec f : Stmt ε τ Unit) Q E := h

theorem meets_throw {e : ε} (h : ∀ t, P t → E e t) : Meets P (throw e : Stmt ε τ α) Q E := h

theorem meets_raiseIf {p : Prop} [Decidable p] {e : ε} {Q : Unit → τ → Prop}
    (hp : p → ∀ t, P t → E e t) (hn : ¬ p → ∀ t, P t → Q () t) :
    Meets P (raiseIf p e : Stmt ε τ Unit) Q E := by
  intro t ht
  by_cases h : p
  · simpa only [raiseIf, if_pos h] using hp h t ht
  · simpa only [raiseIf, if_neg h] using hn h t ht

theorem Meets.bind {x : Stmt ε τ α} {f : α → Stmt ε τ β} (hx : Meets P x Q E)
    (hf : ∀ a, Meets (Q a) (f a) R E) : Meets P (x >>= f) R E := by
  intro t ht
  have h := hx t ht
  change match EStateM.bind x f t with | .ok b t' => R b t' | .error e t' => E e t'
  unfold EStateM.bind
  cases hr : x t with
  | ok a t' => exact hf a t' (by rwa [hr] at h)
  | error e t' => rwa [hr] at h

theorem Meets.query_bind {f : τ → α} {g : α → Stmt ε τ β}
    (h : ∀ a, Meets (fun t => P t ∧ f t = a) (g a) R E) : Meets P (query f >>= g) R E :=
  (meets_query (Q := fun a t => P t ∧ f t = a) fun _ ht => ⟨ht, rfl⟩).bind h

theorem Meets.tryCatch {x : Stmt ε τ α} {handle : ε → Stmt ε τ α} (hx : Meets P x Q F)
    (hh : ∀ e, Meets (F e) (handle e) Q E) : Meets P (tryCatch x handle) Q E := by
  intro t ht
  have h := hx t ht
  change match EStateM.tryCatch x handle t with | .ok a t' => Q a t' | .error e t' => E e t'
  unfold EStateM.tryCatch
  cases hr : x t with
  | ok a t' => rwa [hr] at h
  | error e t' => exact hh e t' (by rwa [hr] at h)

theorem Meets.ite {p : Prop} [Decidable p] {x y : Stmt ε τ α} (hx : p → Meets P x Q E)
    (hy : ¬ p → Meets P y Q E) : Meets P (if p then x else y) Q E := by
  split
  · rename_i h
    exact hx h
  · rename_i h
    exact hy h

section Keeps

theorem keeps_pure (a : α) : Keeps Inv (pure a : Stmt ε τ α) := meets_pure fun _ ht => ht

theorem keeps_throw (e : ε) : Keeps Inv (throw e : Stmt ε τ α) := meets_throw fun _ ht => ht

theorem keeps_raiseIf (p : Prop) [Decidable p] (e : ε) : Keeps Inv (raiseIf p e : Stmt ε τ Unit) :=
  meets_raiseIf (fun _ _ ht => ht) fun _ _ ht => ht

theorem Keeps.bind {x : Stmt ε τ α} {f : α → Stmt ε τ β} (hx : Keeps Inv x) (hf : ∀ a, Keeps Inv (f a)) :
    Keeps Inv (x >>= f) := Meets.bind hx hf

theorem Keeps.query {f : τ → α} {g : α → Stmt ε τ β} (h : ∀ a, Keeps Inv (g a)) :
    Keeps Inv (query f >>= g) := Meets.query_bind fun a => (h a).pre fun _ ht => ht.1

theorem Keeps.tryCatch {x : Stmt ε τ α} {handle : ε → Stmt ε τ α} (hx : Keeps Inv x)
    (hh : ∀ e, Keeps Inv (handle e)) : Keeps Inv (tryCatch x handle) := Meets.tryCatch hx hh

theorem Keeps.ite {p : Prop} [Decidable p] {x y : Stmt ε τ α} (hx : Keeps Inv x) (hy : Keeps Inv y) :
    Keeps Inv (if p then x else y) := Meets.ite (fun _ => hx) fun _ => hy

end Keeps
end PuffoAgent.Relational.Stmt
