import Mathlib.Logic.Basic
import Mathlib.Order.Defs.Unbundled

/-! Statements on one database connection. An exception keeps the writes made
before it, exactly as in the host language; only a rollback takes them back. -/
namespace PuffoAgent.Relational

variable {ε τ σ α β : Type}

/-- Statements over a state `τ`, raising exceptions in `ε`. -/
abbrev Stmt (ε τ : Type) := EStateM ε τ

namespace Stmt

def query (f : τ → α) : Stmt ε τ α := fun t => .ok (f t) t

def exec (f : τ → τ) : Stmt ε τ Unit := fun t => .ok () (f t)

/-- A statement that a constraint of the schema may refuse. -/
def tryExec (f : τ → Option τ) (e : ε) : Stmt ε τ Unit := fun t =>
  match f t with
  | some t' => .ok () t'
  | none => .error e t

def raiseIf (p : Prop) [Decidable p] (e : ε) : Stmt ε τ Unit := fun t =>
  if p then .error e t else .ok () t

/-- Raise what a pure check raises. -/
def raising (x : Except ε α) : Stmt ε τ α := fun t =>
  match x with
  | .ok a => .ok a t
  | .error e => .error e t

section Inversion
variable {t t' : τ} {a a' : α} {b : β}

theorem bind_ok_iff {x : Stmt ε τ α} {f : α → Stmt ε τ β} :
    (x >>= f) t = .ok b t' ↔ ∃ a t₁, x t = .ok a t₁ ∧ f a t₁ = .ok b t' := by
  change EStateM.bind x f t = _ ↔ _
  unfold EStateM.bind
  cases x t with
  | ok a₁ t₁ => exact ⟨fun h => ⟨a₁, t₁, rfl, h⟩, by rintro ⟨_, _, h, h'⟩; cases h; exact h'⟩
  | error e t₁ => simp

theorem pure_ok_iff : (pure a : Stmt ε τ α) t = .ok a' t' ↔ a = a' ∧ t = t' := by
  change EStateM.Result.ok a t = _ ↔ _
  simp

theorem query_bind_run (f : τ → α) (g : α → Stmt ε τ β) (t : τ) : (query f >>= g) t = g (f t) t := rfl

theorem query_bind_ok_iff {f : τ → α} {g : α → Stmt ε τ β} :
    (query f >>= g) t = .ok b t' ↔ g (f t) t = .ok b t' := Iff.rfl

theorem exec_ok_iff {f : τ → τ} {u : Unit} :
    (exec f : Stmt ε τ Unit) t = .ok u t' ↔ f t = t' := by
  simp [exec]

theorem exec_bind_ok_iff {f : τ → τ} {g : Unit → Stmt ε τ β} :
    (exec f >>= g) t = .ok b t' ↔ g () (f t) = .ok b t' := Iff.rfl

theorem tryExec_ok_iff {f : τ → Option τ} {e : ε} {u : Unit} :
    (tryExec f e : Stmt ε τ Unit) t = .ok u t' ↔ f t = some t' := by
  unfold tryExec
  cases f t <;> simp

theorem tryExec_bind_ok_iff {f : τ → Option τ} {e : ε} {g : Unit → Stmt ε τ β} :
    (tryExec f e >>= g) t = .ok b t' ↔ ∃ t₁, f t = some t₁ ∧ g () t₁ = .ok b t' := by
  simp only [bind_ok_iff, tryExec_ok_iff]
  exact ⟨fun ⟨(), h⟩ => h, fun h => ⟨(), h⟩⟩

theorem raiseIf_ok_iff {p : Prop} [Decidable p] {e : ε} {u : Unit} :
    (raiseIf p e : Stmt ε τ Unit) t = .ok u t' ↔ ¬ p ∧ t = t' := by
  unfold raiseIf
  split <;> simp_all

theorem raiseIf_bind_ok_iff {p : Prop} [Decidable p] {e : ε} {g : Unit → Stmt ε τ β} :
    (raiseIf p e >>= g) t = .ok b t' ↔ ¬ p ∧ g () t = .ok b t' := by
  simp only [bind_ok_iff, raiseIf_ok_iff]
  exact ⟨fun ⟨(), _, ⟨hp, rfl⟩, h⟩ => ⟨hp, h⟩, fun ⟨hp, h⟩ => ⟨(), t, ⟨hp, rfl⟩, h⟩⟩

theorem raiseIf_bind_neg {p : Prop} [Decidable p] {e : ε} {g : Unit → Stmt ε τ β} (hp : ¬ p) :
    (raiseIf p e >>= g) = g () := by
  funext t
  change EStateM.bind (raiseIf p e) g t = _
  rw [EStateM.bind, raiseIf, if_neg hp]

theorem raising_bind_ok_iff {x : Except ε α} {g : α → Stmt ε τ β} :
    (raising x >>= g) t = .ok b t' ↔ ∃ a, x = .ok a ∧ g a t = .ok b t' := by
  cases x with
  | error e => simp [bind_ok_iff, raising]
  | ok a => exact ⟨fun h => ⟨a, rfl, h⟩, by rintro ⟨_, h, h'⟩; cases h; exact h'⟩

end Inversion

/-- However the statement returns, `R` relates the states before and after it. -/
def Ends (R : τ → τ → Prop) (x : Stmt ε τ α) : Prop := ∀ t a t', x t = .ok a t' → R t t'

section Ends
variable {R : τ → τ → Prop}

theorem ends_pure [Std.Refl R] (a : α) : Ends R (pure a : Stmt ε τ α) := by
  intro t a' t' h
  rw [← (pure_ok_iff.mp h).2]
  exact Std.Refl.refl t

theorem ends_query [Std.Refl R] (f : τ → α) : Ends R (query f : Stmt ε τ α) := by
  intro t a' t' h
  cases h
  exact Std.Refl.refl t

theorem ends_raiseIf [Std.Refl R] (p : Prop) [Decidable p] (e : ε) : Ends R (raiseIf p e : Stmt ε τ Unit) := by
  intro t a' t' h
  rw [← (raiseIf_ok_iff.mp h).2]
  exact Std.Refl.refl t

theorem ends_exec {f : τ → τ} (h : ∀ t, R t (f t)) : Ends R (exec f : Stmt ε τ Unit) := by
  intro t a' t' hx
  rw [← exec_ok_iff.mp hx]
  exact h t

theorem ends_tryExec {f : τ → Option τ} {e : ε} (h : ∀ t t', f t = some t' → R t t') :
    Ends R (tryExec f e : Stmt ε τ Unit) :=
  fun t _ t' hx => h t t' (tryExec_ok_iff.mp hx)

theorem Ends.bind [IsTrans τ R] {x : Stmt ε τ α} {g : α → Stmt ε τ β} (hx : Ends R x) (hg : ∀ a, Ends R (g a)) :
    Ends R (x >>= g) := by
  intro t b t' h
  obtain ⟨a, t₁, h₁, h₂⟩ := bind_ok_iff.mp h
  exact IsTrans.trans t t₁ t' (hx t a t₁ h₁) (hg a t₁ b t' h₂)

theorem Ends.ite {p : Prop} [Decidable p] {x y : Stmt ε τ α} (hx : p → Ends R x) (hy : ¬ p → Ends R y) :
    Ends R (if p then x else y) := by
  split
  · rename_i h
    exact hx h
  · rename_i h
    exact hy h

end Ends

/-- Whatever it finds, the statement returns in `P`. -/
def Returns (P : α → Prop) (x : Stmt ε τ α) : Prop := ∀ t a t', x t = .ok a t' → P a

section Returns
variable {P : α → Prop}

theorem returns_pure {a : α} (h : P a) : Returns P (pure a : Stmt ε τ α) :=
  fun _ _ _ hx => (pure_ok_iff.mp hx).1 ▸ h

theorem Returns.bind {x : Stmt ε τ β} {g : β → Stmt ε τ α} (h : ∀ b, Returns P (g b)) : Returns P (x >>= g) := by
  intro t a t' hx
  obtain ⟨b, t₁, -, hg⟩ := bind_ok_iff.mp hx
  exact h b t₁ a t' hg

theorem Returns.ite {p : Prop} [Decidable p] {x y : Stmt ε τ α} (hx : Returns P x) (hy : Returns P y) :
    Returns P (if p then x else y) := by
  split
  · exact hx
  · exact hy

end Returns
end Stmt

/-- The visible tables and, while a transaction is open, the tables to restore. -/
structure Connection (σ : Type) where
  tables : σ
  savepoint : Option σ

/-- Operations on a connection. -/
abbrev Sql (ε σ : Type) := Stmt ε (Connection σ)

/-- How a transaction body that does not raise hands back its result. -/
inductive Finish (α : Type) where
  | commit (a : α)
  | rollback (a : α)

namespace Sql

def read (f : σ → α) : Sql ε σ α := Stmt.query (fun c => f c.tables)

def beginImmediate : Sql ε σ Unit := Stmt.exec fun c => { c with savepoint := some c.tables }

def commit : Sql ε σ Unit := Stmt.exec fun c => { c with savepoint := none }

def rollback : Sql ε σ Unit := Stmt.exec fun c => ⟨c.savepoint.getD c.tables, none⟩

/-- Run statements on the visible tables. -/
def statements (x : Stmt ε σ α) : Sql ε σ α := fun c =>
  match x c.tables with
  | .ok a t => .ok a { c with tables := t }
  | .error e t => .error e { c with tables := t }

/-- `BEGIN IMMEDIATE; try: body; except: rollback; raise`. -/
def transaction (body : Stmt ε σ (Finish α)) : Sql ε σ α := do
  beginImmediate
  tryCatch
    (do match ← statements body with
        | .commit a => do commit; return a
        | .rollback a => do rollback; return a)
    (fun e => do rollback; throw e)

/-- The tables after an operation on a closed connection, however it ends. -/
def after (x : Sql ε σ α) (s : σ) : σ :=
  match x ⟨s, none⟩ with
  | .ok _ c => c.tables
  | .error _ c => c.tables

theorem transaction_run (body : Stmt ε σ (Finish α)) (s : σ) :
    transaction body ⟨s, none⟩ =
      match body s with
      | .ok (.commit a) s' => .ok a ⟨s', none⟩
      | .ok (.rollback a) _ => .ok a ⟨s, none⟩
      | .error e _ => .error e ⟨s, none⟩ := by
  change EStateM.tryCatch (EStateM.bind (statements body) _) _ (Connection.mk s (some s)) = _
  unfold EStateM.tryCatch EStateM.bind statements
  cases h : body s with
  | error e s' => rfl
  | ok r s' => cases r <;> rfl

theorem after_transaction (body : Stmt ε σ (Finish α)) (s : σ) :
    (transaction body).after s = match body s with
      | .ok (.commit _) s' => s'
      | _ => s := by
  rw [after, transaction_run]
  cases body s with
  | error e s' => rfl
  | ok r s' => cases r <;> rfl

/-- A result that is thrown away leaves the same tables. -/
theorem after_discard (x : Sql ε σ α) (s : σ) :
    (do let _ ← x; return () : Sql ε σ Unit).after s = x.after s := by
  have h : (do let _ ← x; return () : Sql ε σ Unit) ⟨s, none⟩ = EStateM.bind x (fun _ => EStateM.pure ()) ⟨s, none⟩ :=
    rfl
  rw [after, after, h, EStateM.bind]
  cases x ⟨s, none⟩ <;> rfl

/-- From a closed connection the operation ends closed: it raises and leaves every
table as it was, or it returns and its result and tables are related by `E`. -/
def Does (E : σ → α → σ → Prop) (x : Sql ε σ α) : Prop := ∀ s,
  (∃ e, x ⟨s, none⟩ = .error e ⟨s, none⟩) ∨ ∃ a s', x ⟨s, none⟩ = .ok a ⟨s', none⟩ ∧ E s a s'

section Does
variable {E : σ → α → σ → Prop} {F : σ → β → σ → Prop}

/-- A transaction that raises or rolls back leaves the tables as they were; one
that commits leaves what its body computed. -/
theorem does_transaction {body : Stmt ε σ (Finish α)}
    (hc : ∀ s a s', body s = .ok (.commit a) s' → E s a s')
    (hr : ∀ s a t, body s = .ok (.rollback a) t → E s a s) : Does E (transaction body) := by
  intro s
  rw [transaction_run]
  cases h : body s with
  | error e s' => exact .inl ⟨e, rfl⟩
  | ok r s' =>
    cases r with
    | commit a => exact .inr ⟨a, s', rfl, hc s a s' h⟩
    | rollback a => exact .inr ⟨a, s, rfl, hr s a s' h⟩

theorem Does.of_ends {R : σ → σ → Prop} [Std.Refl R] {body : Stmt ε σ (Finish α)} (h : Stmt.Ends R body) :
    Does (fun s _ s' => R s s') (transaction body) :=
  does_transaction (fun s _ s' hb => h s _ s' hb) fun s _ _ _ => Std.Refl.refl s

theorem does_pure {a : α} (h : ∀ s, E s a s) : Does E (pure a : Sql ε σ α) :=
  fun s => .inr ⟨a, s, rfl, h s⟩

theorem Does.mono {x : Sql ε σ α} (hx : Does E x) {E' : σ → α → σ → Prop}
    (h : ∀ s a s', E s a s' → E' s a s') : Does E' x := by
  intro s
  rcases hx s with he | ⟨a, s', ha, hE⟩
  · exact .inl he
  · exact .inr ⟨a, s', ha, h s a s' hE⟩

/-- Sequencing: the second operation starts from the tables the first one left, so
only an operation that has not written yet may be followed by one that raises. -/
theorem Does.bind_of_read {x : Sql ε σ α} {f : α → Sql ε σ β}
    (hx : Does (fun s _ s' => s' = s) x) (hf : ∀ a, Does F (f a)) : Does F (x >>= f) := by
  intro s
  change (∃ e, EStateM.bind x f _ = _) ∨ ∃ b s', EStateM.bind x f _ = _ ∧ _
  rcases hx s with ⟨e, he⟩ | ⟨a, s', ha, rfl⟩
  · exact .inl ⟨e, by simp only [EStateM.bind, he]⟩
  · simp only [EStateM.bind, ha]
    exact hf a s'

theorem does_raiseIf {p : Prop} [Decidable p] {e : ε} :
    Does (fun s _ s' => s' = s) (Stmt.raiseIf p e : Sql ε σ Unit) := by
  intro s
  by_cases h : p
  · exact .inl ⟨e, by simp [Stmt.raiseIf, h]⟩
  · exact .inr ⟨(), s, by simp [Stmt.raiseIf, h], rfl⟩

theorem does_read {f : σ → α} : Does (fun s _ s' => s' = s) (read f : Sql ε σ α) :=
  fun s => .inr ⟨f s, s, rfl, rfl⟩

theorem Does.raiseIf {p : Prop} [Decidable p] {e : ε} {x : Unit → Sql ε σ β}
    (hx : ¬ p → Does F (x ())) : Does F (Stmt.raiseIf p e >>= x) := by
  intro s
  change (∃ e', EStateM.bind _ x _ = _) ∨ ∃ b s', EStateM.bind _ x _ = _ ∧ _
  by_cases h : p
  · exact .inl ⟨e, by simp only [EStateM.bind, Stmt.raiseIf, if_pos h]⟩
  · simp only [EStateM.bind, Stmt.raiseIf, if_neg h]
    exact hx h s

theorem Does.raising {e : Except ε α} {x : α → Sql ε σ β} (hx : ∀ a, e = .ok a → Does F (x a)) :
    Does F (Stmt.raising e >>= x) := by
  intro s
  change (∃ e', EStateM.bind _ x _ = _) ∨ ∃ b s', EStateM.bind _ x _ = _ ∧ _
  cases e with
  | error err => exact .inl ⟨err, rfl⟩
  | ok a => exact hx a rfl s

/-- Reads after the commit cannot undo it, so they must not raise. -/
theorem Does.read {x : Sql ε σ α} (hx : Does E x) (f : α → σ → β) :
    Does (fun s b s' => ∃ a, E s a s' ∧ b = f a s') (do let a ← x; Sql.read (f a)) := by
  intro s
  change (∃ e, EStateM.bind x _ _ = _) ∨ ∃ b s', EStateM.bind x _ _ = _ ∧ _
  rcases hx s with ⟨e, he⟩ | ⟨a, s', ha, hE⟩
  · exact .inl ⟨e, by simp only [EStateM.bind, he]⟩
  · refine .inr ⟨f a s', s', ?_, a, hE, rfl⟩
    simp only [EStateM.bind, ha]
    rfl

theorem Does.map {x : Sql ε σ α} (hx : Does E x) (f : α → β) :
    Does (fun s b s' => ∃ a, E s a s' ∧ b = f a) (do let a ← x; return f a) :=
  hx.read fun a _ => f a

theorem Does.discard {x : Sql ε σ α} (hx : Does E x) :
    Does (fun s _ s' => ∃ a, E s a s') (do let _ ← x; return ()) :=
  (hx.map fun _ => ()).mono fun _ _ _ ⟨a, hE, _⟩ => ⟨a, hE⟩

theorem Does.ite {p : Prop} [Decidable p] {x y : Sql ε σ α} (hx : Does E x) (hy : Does E y) :
    Does E (if p then x else y) := by
  split
  · exact hx
  · exact hy

/-- What a step does: nothing, or what the operation returned with. -/
theorem Does.after {x : Sql ε σ α} (hx : Does E x) (s : σ) :
    x.after s = s ∨ ∃ a, x ⟨s, none⟩ = .ok a ⟨x.after s, none⟩ ∧ E s a (x.after s) := by
  rcases hx s with ⟨e, h⟩ | ⟨a, s', h, hE⟩
  · exact .inl (by simp [Sql.after, h])
  · have ha : x.after s = s' := by simp [Sql.after, h]
    exact .inr ⟨a, by rw [ha]; exact h, by rw [ha]; exact hE⟩

theorem Does.ok {x : Sql ε σ α} (hx : Does E x) {s : σ} {a : α} {c : Connection σ}
    (h : x ⟨s, none⟩ = .ok a c) : c.savepoint = none ∧ E s a c.tables := by
  rcases hx s with ⟨e, h'⟩ | ⟨a', s', h', hE⟩
  · rw [h] at h'
    cases h'
  · rw [h] at h'
    cases h'
    exact ⟨rfl, hE⟩

/-- An exception leaves every table as it was. -/
theorem Does.error {x : Sql ε σ α} (hx : Does E x) {s : σ} {e : ε} {c : Connection σ}
    (h : x ⟨s, none⟩ = .error e c) : c = ⟨s, none⟩ := by
  rcases hx s with ⟨e', h'⟩ | ⟨a, s', h', -⟩
  · rw [h] at h'
    injection h'
  · rw [h] at h'
    cases h'

end Does
end Sql
end PuffoAgent.Relational
