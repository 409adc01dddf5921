import PuffoAgent.Bundle.Unpacking

/-! Where an import changes files. Nothing in it checks an id, an entry or a slug before it becomes part of a path. -/
namespace PuffoAgent.Bundle
open Relational Effects Files Text

section Condition
variable (codec : Codec) (home : Path)

def isIdChar (c : Char) : Bool := ('a' ≤ c ∧ c ≤ 'z') ∨ ('A' ≤ c ∧ c ≤ 'Z') ∨ ('0' ≤ c ∧ c ≤ '9')

/-- The directory of a path lies within one of the two directories of an agent, and the way to it passes no directory but those
and the ones above. -/
def Within (stage agent p : Path) : Prop :=
  (stage <+: settle p.dropLast ∨ agent <+: settle p.dropLast) ∧
    ∀ r, r <+: p.dropLast → stage <+: settle r ∨ agent <+: settle r ∨ settle r <+: stage

/-- The agents up to the first whose id is no text. There the import ends. -/
def reached (agents : List AgentFiles) : List AgentFiles := agents.takeWhile fun a => (asText (some a.id)).isSome

/-- The directories above them. -/
def Above (q : Path) : Prop := q <+: stagingRoot home

end Condition

section Places
variable {codec : Codec} {home : Path} {ids : List String} {t₀ t : Files.Tree Bytes} {v : String}

end Places

section Steps
variable {S R : Path → Prop} {t₀ : Files.Tree Bytes} {stage agent : Path}

/-- The directories that the import of one agent may change. -/
structure Ground (S R : Path → Prop) (stage agent : Path) : Prop where
  closed : ∀ q q', S q → q <+: q' → S q'
  staging : S stage
  target : S agent
  above : ∀ q, q <+: stage ∨ q <+: agent → S q ∨ R q
  plain : ".." ∉ stage ∧ ".." ∉ agent

theorem Ground.below (h : Ground S R stage agent) {q : Path} (hq : stage <+: q) : S q := h.closed stage q h.staging hq

theorem Ground.belowAgent (h : Ground S R stage agent) {q : Path} (hq : agent <+: q) : S q := h.closed agent q h.target hq

/-- The way to a path within the two directories. -/
theorem Ground.within (h : Ground S R stage agent) {p : Path} (hp : Within stage agent p) :
    (∀ r, r <+: p.dropLast → S (settle r) ∨ R (settle r)) ∧ ∀ name, S (settle p.dropLast ++ [name]) := by
  refine ⟨fun r hr => ?_, fun name => ?_⟩
  · rcases hp.2 r hr with hbelow | hbelow | habove
    · exact .inl (h.below hbelow)
    · exact .inl (h.belowAgent hbelow)
    · exact h.above _ (.inl habove)
  · rcases hp.1 with hbelow | hbelow
    · exact h.below (hbelow.trans (List.prefix_append _ _))
    · exact h.belowAgent (hbelow.trans (List.prefix_append _ _))

theorem Ground.walk (h : Ground S R stage agent) {r : Path} (hr : r <+: stage ∨ r <+: agent) : S (settle r) ∨ R (settle r) := by
  have hplain : ".." ∉ r := fun hmem =>
    hr.elim (fun hle => h.plain.1 (hle.subset hmem)) fun hle => h.plain.2 (hle.subset hmem)
  rw [settle_of_notMem hplain]
  exact h.above r hr

end Steps

section Contents
variable {codec : Codec} {stage : Path} {files : List (String × Bytes)} {t t' t₁ : Files.Tree Bytes}

/-- Every entry is in place, with the directories on the way to it. -/
def Placed (stage : Path) (es : List (String × Bytes)) (t : Files.Tree Bytes) : Prop :=
  ∀ e ∈ es, (t.node (settle (join stage e.1))).map Node.isDir = some false ∧
    ∀ r, r <+: (join stage e.1).dropLast → (t.node (settle r)).map Node.isDir = some true

theorem Placed.grows (h : Placed stage files t) (hg : t.Grows t') : Placed stage files t' :=
  fun e he => ⟨hg _ _ (h e he).1, fun r hr => hg _ _ ((h e he).2 r hr)⟩

/-- The names in `keys` that the archive makes are there. -/
def Keyed (stage : Path) (files : List (String × Bytes)) (t : Files.Tree Bytes) : Prop :=
  ∀ e ∈ files, ∀ r, r <+: join stage e.1 → ∀ name, settle r = stage ++ ["keys", name] → t.node (stage ++ ["keys", name]) ≠ none

theorem Placed.keyed (h : Placed stage files t) : Keyed stage files t := by
  intro e he r hr name hname hnone
  obtain ⟨hfile, hdirs⟩ := h e he
  rw [← hname] at hnone
  generalize join stage e.1 = p at hr hfile hdirs
  cases p using List.reverseRecOn with
  | nil =>
    rw [List.prefix_nil.1 hr] at hnone
    cases hnone
  | append_singleton parent part =>
    rw [List.dropLast_concat] at hdirs
    rcases List.prefix_concat_iff.1 hr with rfl | hr
    · rw [hnone] at hfile
      cases hfile
    · have hdir := hdirs r hr
      rw [hnone] at hdir
      cases hdir

end Contents

section Import
variable {codec : Codec} {home : Path} {S R : Path → Prop} {ids : List String} {t₀ : Files.Tree Bytes} {v text : String}
  {files : List (String × Bytes)} {stage agent : Path}

/-- The paths of an id that is, as a path, the valid id `v`. -/
structure Named (home : Path) (text v : String) (stage agent : Path) : Prop where
  staged : stagingDir home text = stage
  committed : agentDir home text = agent
  last : stage.getLast? = some v
  up : v ≠ ".."

end Import

section Bundle
variable {codec : Codec} {home : Path} {t₀ : Files.Tree Bytes} {ids : List String}

/-- The directories above a file, its temporary file and the replacement. -/
def written (depth : Nat) : List (Answer Reply) := List.replicate depth .done ++ [.drawn "k3", .done]

end Bundle
end PuffoAgent.Bundle
