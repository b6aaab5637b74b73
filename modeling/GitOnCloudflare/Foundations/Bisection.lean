import Mathlib.Data.Int.Notation
import Mathlib.Order.Basic

/-!
# Bisection

The search loop over a range of rows that are ordered against a needle.  The
middle is a parameter, since a program may compute it in machine arithmetic;
the loop is right whenever the middle of two bounds lies between them.
-/

namespace GitOnCloudflare.Foundations.Bisection

/-- How a row compares to the needle decides the half that is searched next.
The search ends with a row or with none; `none` says that the rounds were not
enough. -/
def bisect (probe : Int → Ordering) (middle : Int → Int → Int) :
    Nat → Int → Int → Option (Option Int)
  | 0, _, _ => none
  | rounds + 1, low, high =>
    if low ≤ high then
      let mid := middle low high
      match probe mid with
      | .eq => some (some mid)
      | .lt => bisect probe middle rounds (mid + 1) high
      | .gt => bisect probe middle rounds low (mid - 1)
    else
      some none

/-- The rows of a range stand in order around the needle. -/
structure Ordered (probe : Int → Ordering) (low high : Int) : Prop where
  below : ∀ first second, low ≤ first → first ≤ second → second ≤ high →
    probe second = .lt → probe first = .lt
  above : ∀ first second, low ≤ first → first ≤ second → second ≤ high →
    probe first = .gt → probe second = .gt

/-- What a search has found: a row that matches, or no row does. -/
def Finds (probe : Int → Ordering) (low high : Int) : Option Int → Prop
  | some row => low ≤ row ∧ row ≤ high ∧ probe row = .eq
  | none => ∀ row, low ≤ row → row ≤ high → probe row ≠ .eq

theorem Ordered.narrow {probe : Int → Ordering} {low high low' high' : Int}
    (ordered : Ordered probe low high) (raised : low ≤ low')
    (lowered : high' ≤ high) : Ordered probe low' high' where
  below := fun first second above before within =>
    ordered.below first second (by omega) before (by omega)
  above := fun first second above before within =>
    ordered.above first second (by omega) before (by omega)

/-- With enough rounds the search ends, and its answer is right. -/
theorem bisect_finds {probe : Int → Ordering} {middle : Int → Int → Int}
    {rounds : Nat} {low high : Int}
    (between : ∀ first last, low ≤ first → first ≤ last → last ≤ high →
      first ≤ middle first last ∧ middle first last ≤ last)
    (ordered : Ordered probe low high)
    (enough : high - low + 2 ≤ rounds) (one : 1 ≤ rounds) :
    ∃ found, bisect probe middle rounds low high = some found ∧
      Finds probe low high found := by
  induction rounds generalizing low high with
  | zero => omega
  | succ rounds ih =>
    unfold bisect
    by_cases proper : low ≤ high
    · rw [if_pos proper]
      rcases between low high (Int.le_refl _) proper (Int.le_refl _) with
        ⟨left, right⟩
      cases compared : probe (middle low high) with
      | eq =>
        exact ⟨some (middle low high), by simp only [compared], left, right,
          compared⟩
      | lt =>
        rcases @ih (middle low high + 1) high
            (fun first last above => between first last (by omega))
            (ordered.narrow (by omega) (Int.le_refl _)) (by omega) (by omega) with
          ⟨found, ended, finds⟩
        refine ⟨found, by simpa only [compared] using ended, ?_⟩
        cases found with
        | some row =>
          rcases finds with ⟨above, within, equal⟩
          exact ⟨by omega, within, equal⟩
        | none =>
          intro row above within equal
          by_cases later : middle low high + 1 ≤ row
          · exact finds row later within equal
          · have less := ordered.below row (middle low high) above (by omega)
              right compared
            rw [less] at equal
            cases equal
      | gt =>
        rcases @ih low (middle low high - 1)
            (fun first last above before within =>
              between first last above before (by omega))
            (ordered.narrow (Int.le_refl _) (by omega)) (by omega) (by omega) with
          ⟨found, ended, finds⟩
        refine ⟨found, by simpa only [compared] using ended, ?_⟩
        cases found with
        | some row =>
          rcases finds with ⟨above, within, equal⟩
          exact ⟨above, by omega, equal⟩
        | none =>
          intro row above within equal
          by_cases earlier : row ≤ middle low high - 1
          · exact finds row above earlier equal
          · have greater := ordered.above (middle low high) row left
              (by omega) within compared
            rw [greater] at equal
            cases equal
    · rw [if_neg proper]
      refine ⟨none, rfl, ?_⟩
      intro row above within
      omega

end GitOnCloudflare.Foundations.Bisection
