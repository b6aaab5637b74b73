import Mathlib.Logic.Relation

/-!
# Searches with marks

What a search over a step relation has met when nothing is left to follow.
A second search may stop at everything that a first one has met, since what a
search meets is closed under steps.
-/

namespace GitOnCloudflare.Foundations.MarkedSearch

universe u

variable {Node : Type u} {step : Node → Node → Prop}
  {starts met stop : Node → Prop}

/-- The nodes on paths from the starts. -/
def Reach (step : Node → Node → Prop) (starts : Node → Prop) (node : Node) :
    Prop :=
  ∃ start, starts start ∧ Relation.ReflTransGen step start node

variable {node : Node}

theorem Reach.start (first : starts node) : Reach step starts node :=
  ⟨node, first, Relation.ReflTransGen.refl⟩

theorem Reach.follow {next : Node} (reached : Reach step starts node)
    (follows : step node next) : Reach step starts next := by
  rcases reached with ⟨start, first, path⟩
  exact ⟨start, first, path.tail follows⟩

/-- What is reached from reached nodes is reached. -/
theorem Reach.trans {others : Node → Prop} (reached : Reach step others node)
    (starting : ∀ start, others start → Reach step starts start) :
    Reach step starts node := by
  rcases reached with ⟨start, given, path⟩
  rcases starting start given with ⟨first, from_, before⟩
  exact ⟨first, from_, before.trans path⟩

/-- A set that holds the starts and is closed under steps holds all that is
reached. -/
theorem Reach.induct (reached : Reach step starts node)
    (first : ∀ start, starts start → met start)
    (closed : ∀ source target, met source → step source target → met target) :
    met node := by
  rcases reached with ⟨start, given, path⟩
  induction path with
  | refl => exact first start given
  | tail _ follows ih => exact closed _ _ ih follows

/-- A finished search has met what is reached. -/
theorem met_iff_reach (first : ∀ start, starts start → met start)
    (sound : ∀ node, met node → Reach step starts node)
    (closed : ∀ source target, met source → step source target → met target)
    (node : Node) : met node ↔ Reach step starts node := by
  constructor
  · exact sound node
  · intro reached
    exact reached.induct first closed

/-- A search that does not follow stopped nodes misses only stopped nodes,
when stopped nodes lead to stopped nodes only. -/
theorem Reach.outside (reached : Reach step starts node)
    (stopClosed : ∀ source target, stop source → step source target →
      stop target) (first : ∀ start, starts start → stop start ∨ met start)
    (closed : ∀ source target, met source → ¬ stop source →
      step source target → stop target ∨ met target) :
    stop node ∨ met node := by
  have both : ∀ source target, (stop source ∨ met source) →
      step source target → stop target ∨ met target := by
    rintro source target (stopped | seen) follows
    · exact .inl (stopClosed source target stopped follows)
    · by_cases stopped : stop source
      · exact .inl (stopClosed source target stopped follows)
      · exact closed source target seen stopped follows
  exact reached.induct first both

end GitOnCloudflare.Foundations.MarkedSearch
