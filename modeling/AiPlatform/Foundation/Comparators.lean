import Mathlib.Data.List.Basic
import Mathlib.Order.Lattice

/-!
# Sorting with a comparator

A comparator that is asked about two elements at a time need not describe an order. A sort promises
an ordered result only for a comparator that is consistent on the elements given; otherwise its
result is some rearrangement of them.
-/
namespace AiPlatform.Foundation

variable {α : Type}

/-! ## Three-way comparison -/

section ThreeWay

variable [LinearOrder α] {a b : α}

/-- The sign of `a - b`. -/
def threeWay (a b : α) : Ordering := if a < b then .lt else if a = b then .eq else .gt

theorem threeWay_eq_lt : threeWay a b = .lt ↔ a < b := by
  unfold threeWay
  split_ifs <;> simp_all

theorem threeWay_eq_eq : threeWay a b = .eq ↔ a = b := by
  unfold threeWay
  split_ifs with hlt heq
  · simp [hlt.ne]
  · simp [heq]
  · simp [heq]

theorem threeWay_eq_gt : threeWay a b = .gt ↔ b < a := by
  unfold threeWay
  split_ifs with hlt heq
  · simp [hlt.le]
  · simp [heq]
  · simpa using lt_of_le_of_ne (not_lt.mp hlt) (Ne.symm heq)

theorem threeWay_swap (a b : α) : (threeWay a b).swap = threeWay b a := by
  rcases lt_trichotomy a b with h | rfl | h
  · rw [threeWay_eq_lt.mpr h, threeWay_eq_gt.mpr h]
    rfl
  · rw [threeWay_eq_eq.mpr rfl]
    rfl
  · rw [threeWay_eq_gt.mpr h, threeWay_eq_lt.mpr h]
    rfl

end ThreeWay

theorem then_ne_gt {first second : Ordering} :
    first.then second ≠ .gt ↔ first = .lt ∨ (first = .eq ∧ second ≠ .gt) := by
  cases first <;> simp [Ordering.then]

/-! ## Comparators -/

/-- Swapping the elements swaps the answer. -/
structure Comparator (α : Type) where
  compare : α → α → Ordering
  compare_swap : ∀ a b, (compare a b).swap = compare b a

namespace Comparator

variable (cmp : Comparator α) {items sorted : List α} {a b c : α}

def Le (a b : α) : Prop := cmp.compare a b ≠ .gt

/-- Elements that compare equal form classes, and the classes are in order. -/
structure Consistent (items : List α) : Prop where
  equal : ∀ a ∈ items, ∀ b ∈ items, ∀ c ∈ items,
    cmp.compare a b = .eq → cmp.compare b c = .eq → cmp.compare a c = .eq
  less : ∀ a ∈ items, ∀ b ∈ items, ∀ c ∈ items,
    cmp.compare a b = .lt → cmp.compare b c = .lt → cmp.compare a c = .lt

variable {cmp}

theorem compare_eq_gt : cmp.compare a b = .gt ↔ cmp.compare b a = .lt := by
  rw [← cmp.compare_swap a b]
  cases cmp.compare a b <;> decide

theorem compare_eq_eq : cmp.compare a b = .eq ↔ cmp.compare b a = .eq := by
  rw [← cmp.compare_swap a b]
  cases cmp.compare a b <;> decide

theorem le_iff : cmp.Le a b ↔ cmp.compare a b = .lt ∨ cmp.compare a b = .eq := by
  unfold Le
  cases cmp.compare a b <;> decide

theorem not_le_iff : ¬ cmp.Le a b ↔ cmp.compare b a = .lt := by
  rw [Le, not_not, compare_eq_gt]

/-- Consistency is transitivity of "not after". -/
theorem consistent_iff :
    cmp.Consistent items ↔
      ∀ a ∈ items, ∀ b ∈ items, ∀ c ∈ items, cmp.Le a b → cmp.Le b c → cmp.Le a c := by
  constructor
  · intro h a ha b hb c hc hab hbc
    by_contra hac
    have hca := not_le_iff.mp hac
    rcases le_iff.mp hab with hab | hab <;> rcases le_iff.mp hbc with hbc | hbc
    · exact hac (le_iff.mpr (.inl (h.less a ha b hb c hc hab hbc)))
    · -- `c` is before `a` and `a` before `b`, which is equal to `c`
      have hcb := h.less c hc a ha b hb hca hab
      rw [compare_eq_eq.mp hbc] at hcb
      contradiction
    · have hba := h.less b hb c hc a ha hbc hca
      rw [compare_eq_eq.mp hab] at hba
      contradiction
    · exact hac (le_iff.mpr (.inr (h.equal a ha b hb c hc hab hbc)))
  · intro h
    constructor
    · intro a ha b hb c hc hab hbc
      have hac := h a ha b hb c hc (le_iff.mpr (.inr hab)) (le_iff.mpr (.inr hbc))
      have hca := h c hc b hb a ha (le_iff.mpr (.inr (compare_eq_eq.mp hbc)))
        (le_iff.mpr (.inr (compare_eq_eq.mp hab)))
      rcases le_iff.mp hac with hlt | heq
      · exact absurd (compare_eq_gt.mpr hlt) hca
      · exact heq
    · intro a ha b hb c hc hab hbc
      have hac := h a ha b hb c hc (le_iff.mpr (.inl hab)) (le_iff.mpr (.inl hbc))
      rcases le_iff.mp hac with hlt | heq
      · exact hlt
      · -- were they equal, `b` would not be after `a`
        have hba := h b hb c hc a ha (le_iff.mpr (.inl hbc))
          (le_iff.mpr (.inr (compare_eq_eq.mp heq)))
        exact absurd (compare_eq_gt.mpr hab) hba

variable (cmp)

/-- What `items.sort(cmp)` may return. -/
structure SortsTo (items sorted : List α) : Prop where
  perm : sorted.Perm items
  ordered : cmp.Consistent items → sorted.Pairwise cmp.Le

end Comparator

end AiPlatform.Foundation
