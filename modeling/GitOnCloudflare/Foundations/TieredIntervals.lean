import Mathlib.Order.Interval.Set.Basic
import Mathlib.Order.Interval.Set.OrdConnected

/-!
# Intervals in tiers

A set of items with an interval and a tier each.  The intervals are disjoint,
and an item of a higher tier lies before every item of a lower one.  A new item
behind all others keeps this in the lowest tier, and so does a merge of the
first items of one tier into the next tier, under an interval that spans
theirs.
-/

namespace GitOnCloudflare.Foundations

universe u v w

variable {Item : Type u} {Place : Type v} {Tier : Type w}
variable [LinearOrder Place] [LinearOrder Tier]

/-- Where an item stands: its interval and its tier. -/
structure Standing (Item : Type u) (Place : Type v) (Tier : Type w) where
  lo : Item → Place
  hi : Item → Place
  tier : Item → Tier

namespace Standing

variable (standing : Standing Item Place Tier)

def Disjoint (items : Set Item) : Prop :=
  ∀ x ∈ items, ∀ y ∈ items, x ≠ y →
    standing.hi x < standing.lo y ∨ standing.hi y < standing.lo x

structure Tiered (items : Set Item) : Prop where
  proper : ∀ x ∈ items, standing.lo x ≤ standing.hi x
  disjoint : standing.Disjoint items
  older : ∀ x ∈ items, ∀ y ∈ items,
    standing.tier x < standing.tier y → standing.hi y < standing.lo x

/-- The places that the intervals contain. -/
def covered (items : Set Item) : Set Place :=
  { place | ∃ x ∈ items, standing.lo x ≤ place ∧ place ≤ standing.hi x }

/-- The first items of one tier and an item of the next tier that spans
them. -/
structure Merges (items sources : Set Item) (merged : Item) : Prop where
  within : sources ⊆ items
  first : ∀ s ∈ sources, ∀ x ∈ items, standing.tier x = standing.tier s →
    standing.lo x < standing.lo s → x ∈ sources
  oneTier : ∀ s ∈ sources, ∀ t ∈ sources, standing.tier s = standing.tier t
  next : ∀ s ∈ sources, standing.tier s < standing.tier merged ∧
    ∀ x ∈ items, standing.tier s < standing.tier x →
      standing.tier merged ≤ standing.tier x
  lo : ∃ s ∈ sources, standing.lo merged = standing.lo s
  lo_le : ∀ s ∈ sources, standing.lo merged ≤ standing.lo s
  hi : ∃ s ∈ sources, standing.hi merged = standing.hi s
  le_hi : ∀ s ∈ sources, standing.hi s ≤ standing.hi merged

variable {standing} {items sources : Set Item} {merged : Item}

/-- A new item behind all others, in a tier that is not above theirs. -/
theorem Tiered.insert {added : Item} (tiered : standing.Tiered items)
    (proper : standing.lo added ≤ standing.hi added)
    (behind : ∀ x ∈ items, standing.hi x < standing.lo added)
    (lowest : ∀ x ∈ items, standing.tier added ≤ standing.tier x) :
    standing.Tiered (insert added items) where
  proper := by
    rintro x (rfl | member)
    · exact proper
    · exact tiered.proper x member
  disjoint := by
    rintro x (rfl | member) y (rfl | member') different
    · exact absurd rfl different
    · exact .inr (behind y member')
    · exact .inl (behind x member)
    · exact tiered.disjoint x member y member' different
  older := by
    rintro x (rfl | member) y (rfl | member') above
    · exact absurd above (lt_irrefl _)
    · exact behind y member'
    · exact absurd above (lowest x member).not_gt
    · exact tiered.older x member y member' above

/-- An item that is not merged lies before the merged interval, with a tier
that is not lower, or behind it, with a tier that is lower. -/
theorem Merges.beside (merges : standing.Merges items sources merged)
    (tiered : standing.Tiered items) {x : Item} (member : x ∈ items)
    (kept : x ∉ sources) :
    (standing.hi x < standing.lo merged ∧
        standing.tier merged ≤ standing.tier x) ∨
      (standing.hi merged < standing.lo x ∧
        standing.tier x < standing.tier merged) := by
  rcases merges.lo with ⟨first, firstSource, lo⟩
  rcases merges.hi with ⟨last, lastSource, hi⟩
  have sameTier := merges.oneTier last lastSource first firstSource
  rcases lt_trichotomy (standing.tier x) (standing.tier first) with
    lower | same | higher
  · right
    refine ⟨?_, lower.trans (merges.next first firstSource).1⟩
    rw [hi]
    apply tiered.older x member last (merges.within lastSource)
    rw [sameTier]
    exact lower
  · right
    refine ⟨?_, same.trans_lt (merges.next first firstSource).1⟩
    have notFirst : ¬ standing.lo x < standing.lo last := by
      intro before
      exact kept (merges.first last lastSource x member
        (same.trans sameTier.symm) before)
    have different : last ≠ x := by
      intro equal
      exact kept (equal ▸ lastSource)
    rw [hi]
    rcases tiered.disjoint last (merges.within lastSource) x member different with
      apart | apart
    · exact apart
    · exact absurd ((tiered.proper x member).trans_lt apart) notFirst
  · left
    refine ⟨?_, (merges.next first firstSource).2 x member higher⟩
    rw [lo]
    exact tiered.older first (merges.within firstSource) x member higher

theorem Merges.proper (merges : standing.Merges items sources merged)
    (tiered : standing.Tiered items) :
    standing.lo merged ≤ standing.hi merged := by
  rcases merges.lo with ⟨first, firstSource, lo⟩
  rw [lo]
  exact (tiered.proper first (merges.within firstSource)).trans
    (merges.le_hi first firstSource)

theorem Tiered.merge (tiered : standing.Tiered items)
    (merges : standing.Merges items sources merged) :
    standing.Tiered (Insert.insert merged (items \ sources)) where
  proper := by
    rintro x (rfl | ⟨member, _⟩)
    · exact merges.proper tiered
    · exact tiered.proper x member
  disjoint := by
    rintro x (rfl | ⟨member, kept⟩) y (rfl | ⟨member', kept'⟩) different
    · exact absurd rfl different
    · exact (merges.beside tiered member' kept').symm.imp And.left And.left
    · exact (merges.beside tiered member kept).imp And.left And.left
    · exact tiered.disjoint x member y member' different
  older := by
    rintro x (rfl | ⟨member, kept⟩) y (rfl | ⟨member', kept'⟩) above
    · exact absurd above (lt_irrefl _)
    · rcases merges.beside tiered member' kept' with ⟨before, _⟩ | ⟨_, lower⟩
      · exact before
      · exact absurd above lower.not_gt
    · rcases merges.beside tiered member kept with ⟨_, higher⟩ | ⟨behind, _⟩
      · exact absurd above higher.not_gt
      · exact behind
    · exact tiered.older x member y member' above

/-! ## The places that are covered -/

omit [LinearOrder Tier] in
theorem covered_insert {added : Item} :
    standing.covered (Insert.insert added items) =
      Set.Icc (standing.lo added) (standing.hi added) ∪ standing.covered items := by
  ext place
  constructor
  · rintro ⟨x, rfl | member, inside⟩
    · exact .inl inside
    · exact .inr ⟨x, member, inside⟩
  · rintro (inside | ⟨x, member, inside⟩)
    · exact ⟨added, .inl rfl, inside⟩
    · exact ⟨x, .inr member, inside⟩

theorem Merges.covered_eq (merges : standing.Merges items sources merged) :
    standing.covered (Insert.insert merged (items \ sources)) =
      Set.Icc (standing.lo merged) (standing.hi merged) ∪
        standing.covered items := by
  rw [covered_insert]
  ext place
  constructor
  · rintro (inside | ⟨x, ⟨member, _⟩, inside⟩)
    · exact .inl inside
    · exact .inr ⟨x, member, inside⟩
  · rintro (inside | ⟨x, member, inside⟩)
    · exact .inl inside
    · by_cases source : x ∈ sources
      · left
        exact ⟨(merges.lo_le x source).trans inside.1,
          inside.2.trans (merges.le_hi x source)⟩
      · exact .inr ⟨x, ⟨member, source⟩, inside⟩

/-- What a merge adds lies between two of its sources, and in no interval. -/
theorem Merges.added (merges : standing.Merges items sources merged)
    {place : Place}
    (inside : place ∈ standing.covered (Insert.insert merged (items \ sources)))
    (outside : place ∉ standing.covered items) :
    ∃ s ∈ sources, ∃ t ∈ sources,
      standing.hi s < place ∧ place < standing.lo t := by
  rw [merges.covered_eq] at inside
  rcases inside with ⟨lower, upper⟩ | inside
  · rcases merges.lo with ⟨first, firstSource, lo⟩
    rcases merges.hi with ⟨last, lastSource, hi⟩
    refine ⟨first, firstSource, last, lastSource, ?_, ?_⟩
    · by_contra notAfter
      exact outside ⟨first, merges.within firstSource, lo ▸ lower,
        le_of_not_gt notAfter⟩
    · by_contra notBefore
      exact outside ⟨last, merges.within lastSource, le_of_not_gt notBefore,
        hi ▸ upper⟩
  · exact absurd inside outside

/-- Without gaps, a merge covers what was covered. -/
theorem Merges.covered_of_ordConnected
    (merges : standing.Merges items sources merged)
    (tiered : standing.Tiered items)
    (noGaps : (standing.covered items).OrdConnected) :
    standing.covered (Insert.insert merged (items \ sources)) =
      standing.covered items := by
  rw [merges.covered_eq]
  apply Set.union_eq_self_of_subset_left
  rcases merges.lo with ⟨first, firstSource, lo⟩
  rcases merges.hi with ⟨last, lastSource, hi⟩
  rw [lo, hi]
  have firstItem := merges.within firstSource
  have lastItem := merges.within lastSource
  exact noGaps.out ⟨first, firstItem, le_rfl, tiered.proper first firstItem⟩
    ⟨last, lastItem, tiered.proper last lastItem, le_rfl⟩

end Standing

end GitOnCloudflare.Foundations
