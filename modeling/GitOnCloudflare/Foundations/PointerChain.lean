import Mathlib.Data.Fintype.Card
import Mathlib.Logic.Relation

/-!
# Chains of pointers

Every node has at most one next node.  A chain that ends meets no node twice,
so that a walk along it takes fewer steps than there are nodes.  Nodes without
a next node may be pointed at another one, as long as the chain from there
meets none of them.
-/

namespace GitOnCloudflare.Foundations.PointerChain

open Relation

variable {Node : Type*}

/-- One step along the pointers. -/
def Follows (next : Node → Option Node) (source target : Node) : Prop :=
  next source = some target

/-- The chain from a node is finite. -/
def Ends (next : Node → Option Node) (node : Node) : Prop :=
  Acc (fun target source => Follows next source target) node

variable {next : Node → Option Node} {node : Node}

theorem ends_of_none (last : next node = none) : Ends next node := by
  constructor
  intro target follows
  rw [Follows, last] at follows
  cases follows

theorem ends_of_some {target : Node} (points : next node = some target)
    (ends : Ends next target) : Ends next node := by
  constructor
  intro other follows
  rw [Follows, points] at follows
  cases follows
  exact ends

/-- A chain that ends does not come back. -/
theorem Ends.not_cyclic (ends : Ends next node) :
    ¬ TransGen (Follows next) node node := by
  induction ends with
  | intro node _ ih =>
    intro cycle
    rcases TransGen.head'_iff.mp cycle with ⟨target, first, rest⟩
    exact ih target first (TransGen.tail' rest first)

variable {current : Node} {passed : List Node}

/-- A path of distinct nodes that all reach `current` does not meet it. -/
theorem Ends.walk_nodup (ends : Ends next current) (distinct : passed.Nodup)
    (reach : ∀ node ∈ passed, TransGen (Follows next) node current) :
    (current :: passed).Nodup := by
  rw [List.nodup_cons]
  constructor
  · intro member
    exact ends.not_cyclic (reach current member)
  · exact distinct

theorem length_lt_card [Fintype Node] (distinct : (current :: passed).Nodup) :
    passed.length < Fintype.card Node := by
  have bound := distinct.length_le_card
  rw [List.length_cons] at bound
  exact bound

/-! ## New pointers -/

section Redirect

variable {next after : Node → Option Node} {target : Node}
  {redirected : Node → Prop}

/-- The chain from the target stays as it is when it meets no node that gets a
new pointer. -/
theorem ends_target_of_redirect (ends : Ends next target)
    (same : ∀ node, ¬ redirected node → after node = next node)
    (avoids : ∀ node, redirected node →
      ¬ ReflTransGen (Follows next) target node) : Ends after target := by
  have go : ∀ node, Ends next node →
      ReflTransGen (Follows next) target node → Ends after node := by
    intro node chain
    induction chain with
    | intro node _ ih =>
      intro reached
      have kept : after node = next node := by
        apply same
        intro moved
        exact avoids node moved reached
      constructor
      intro other follows
      rw [Follows, kept] at follows
      exact ih other follows (reached.tail follows)
  exact go target ends ReflTransGen.refl

/-- Every chain that ended still ends when the new pointers lead to the target
and the target's own chain meets none of them. -/
theorem ends_of_redirect (ends : Ends next target)
    (same : ∀ node, ¬ redirected node → after node = next node)
    (moved : ∀ node, redirected node → after node = some target)
    (avoids : ∀ node, redirected node →
      ¬ ReflTransGen (Follows next) target node) (chain : Ends next node) :
    Ends after node := by
  have targetEnds := ends_target_of_redirect ends same avoids
  induction chain with
  | intro node _ ih =>
    by_cases changed : redirected node
    · exact ends_of_some (moved node changed) targetEnds
    · constructor
      intro other follows
      rw [Follows, same node changed] at follows
      exact ih other follows

end Redirect

end GitOnCloudflare.Foundations.PointerChain
