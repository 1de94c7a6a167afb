import Mathlib.Data.List.Basic
import Mathlib.Logic.Relation

set_option relaxedAutoImplicit false
set_option autoImplicit false

/-!
# Walks over graphs of named nodes

A node has a name, and children unless one of them cannot be resolved. A walk goes down from a
node through all children and fails at a node that has no children list, and at one whose name
has occurred on the way down.

## Main definitions

* `DependencyGraph.Reaches` — a node is a descendant of another, or the same.
* `DependencyGraph.Sound` — a walk from a node below certain names does not fail.
* `DependencyGraph.Grounded` — every way down from a node ends.
* `DependencyGraph.NamesUnique` — no two descendants of a node share a name.
* `DependencyGraph.remaining` — how many names have not occurred yet.

## Main results

* `DependencyGraph.Sound.reaches` — a walk from a descendant does not fail either.
* `DependencyGraph.Grounded.sound` — where every way down ends and no names are shared, a walk
  does not fail.
* `DependencyGraph.remaining_cons_lt` — a walk ends because the names run out.
-/

namespace DependencyGraph

variable {α κ : Type}

/-! ## Descendants -/

section Reach

variable (children : α → Option (List α))

/-- `b` is a child of `a`. -/
def Child (a b : α) : Prop := ∃ cs, children a = some cs ∧ b ∈ cs

/-- `b` is a descendant of `a`, or `a` itself. -/
abbrev Reaches : α → α → Prop := Relation.ReflTransGen (Child children)

/-- Every way down from the node ends, at a node without children. -/
inductive Grounded : α → Prop
  | intro {a : α} {cs : List α} (hcs : children a = some cs) (h : ∀ c ∈ cs, Grounded c) :
      Grounded a

variable {children}

lemma Grounded.child {a b : α} (h : Grounded children a) (hb : Child children a b) :
    Grounded children b := by
  obtain ⟨hcs, h⟩ := h
  obtain ⟨cs', hcs', hb⟩ := hb
  rw [hcs] at hcs'
  cases hcs'
  exact h b hb

/-- A node from which every way down ends is no descendant of itself. -/
lemma Grounded.not_cycle {a : α} (h : Grounded children a) :
    ¬ Relation.TransGen (Child children) a a := by
  induction h with
  | @intro a cs hcs _ ih =>
    intro hcycle
    obtain ⟨b, ⟨cs', hcs', hb⟩, hba⟩ := Relation.TransGen.head'_iff.mp hcycle
    rw [hcs] at hcs'
    cases hcs'
    exact ih b hb (Relation.TransGen.tail' hba ⟨cs, hcs, hb⟩)

end Reach

/-! ## Walks -/

section Walk

variable (name : α → κ) (children : α → Option (List α))

/-- A walk from the node does not fail, below the names in `active`. -/
inductive Sound : List κ → α → Prop
  | intro {active : List κ} {a : α} {cs : List α} (hname : name a ∉ active)
      (hcs : children a = some cs) (h : ∀ c ∈ cs, Sound (name a :: active) c) : Sound active a

/-- No two descendants of the node share a name. -/
def NamesUnique (root : α) : Prop :=
  ∀ a b, Reaches children root a → Reaches children root b → name a = name b → a = b

variable {name children}

lemma Sound.grounded {active : List κ} {a : α} (h : Sound name children active a) :
    Grounded children a := by
  induction h with
  | intro _ hcs _ ih => exact .intro hcs ih

/-- A walk does not fail below fewer names. -/
lemma Sound.mono {active active' : List κ} {a : α} (h : Sound name children active a)
    (hsub : active' ⊆ active) : Sound name children active' a := by
  induction h generalizing active' with
  | @intro active a cs hname hcs _ ih =>
    exact .intro (fun hmem => hname (hsub hmem)) hcs fun c hc =>
      ih c hc (List.cons_subset_cons _ hsub)

/-- A walk does not fail either where more nodes have children. -/
lemma Sound.of_children {children' : α → Option (List α)} {active : List κ} {a : α}
    (h : Sound name children active a)
    (hchildren : ∀ a cs, children a = some cs → children' a = some cs) :
    Sound name children' active a := by
  induction h with
  | intro hname hcs _ ih => exact .intro hname (hchildren _ _ hcs) ih

lemma Sound.child {active : List κ} {a b : α} (h : Sound name children active a)
    (hb : Child children a b) : Sound name children (name a :: active) b := by
  obtain ⟨_, hcs, h⟩ := h
  obtain ⟨cs', hcs', hb⟩ := hb
  rw [hcs] at hcs'
  cases hcs'
  exact h b hb

/-- **Where every way down ends and no names are shared, a walk does not fail**, below the names
of nodes above. -/
lemma Grounded.sound {root a : α} (h : Grounded children a)
    (hunique : NamesUnique name children root) (ha : Reaches children root a) (above : List α)
    (habove : ∀ b ∈ above, Reaches children root b ∧ Relation.TransGen (Child children) b a) :
    Sound name children (above.map name) a := by
  induction h generalizing above with
  | @intro a cs hcs hgrounded ih =>
    refine .intro ?_ hcs fun c hc => ?_
    · intro hmem
      obtain ⟨b, hb, hname⟩ := List.mem_map.mp hmem
      obtain ⟨hroot, hcycle⟩ := habove b hb
      have hself := hunique b a hroot ha hname
      subst hself
      exact (Grounded.intro hcs hgrounded).not_cycle hcycle
    · have hchild : Child children a c := ⟨cs, hcs, hc⟩
      refine ih c hc (ha.tail hchild) (a :: above) fun b hb => ?_
      rcases List.mem_cons.mp hb with rfl | hb
      · exact ⟨ha, .single hchild⟩
      · exact ⟨(habove b hb).1, (habove b hb).2.tail hchild⟩

end Walk

/-! ## The names run out -/

section Remaining

variable [DecidableEq κ]

/-- How many of the names have not occurred. -/
def remaining (names active : List κ) : ℕ := (names.filter fun n => n ∉ active).length

lemma remaining_nil (names : List κ) : remaining names [] = names.length := by
  simp [remaining]

/-- One name less remains below a node whose name had not occurred. -/
lemma remaining_cons_lt {names active : List κ} {n : κ} (hn : n ∈ names) (hactive : n ∉ active) :
    remaining names (n :: active) < remaining names active := by
  have hsplit : (names.filter fun m => m ∉ n :: active) =
      (names.filter fun m => m ∉ active).filter fun m => m ≠ n := by
    rw [List.filter_filter]
    refine List.filter_congr fun m _ => ?_
    simp [List.mem_cons, not_or]
  rw [remaining, remaining, hsplit]
  refine List.length_filter_lt_length_iff_exists.mpr ⟨n, ?_, by simp⟩
  exact List.mem_filter.mpr ⟨hn, by simpa using hactive⟩

end Remaining

end DependencyGraph
