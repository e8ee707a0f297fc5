import Mathlib.Data.List.Infix

/-!
# Joining two texts with a separator

`partition` cuts a text at the first occurrence of a separator. Joining `a` and `b` and cutting
again gives `a` and `b` back exactly when the separator occurs nowhere in `a` followed by the
separator without its last symbol: an occurrence there, and no other, ends before the one that
was put in.
-/
namespace AiPlatform.Foundation

open List

variable {α : Type} {sep a b text : List α}

variable (sep) in
/-- A separator that starts inside `a` ends before the last symbol of the one put after `a`. -/
theorem isPrefix_append_iff (ha : a ≠ []) :
    sep <+: a ++ sep ++ b ↔ sep <+: a ++ sep.dropLast := by
  have hlast := dropLast_prefix sep
  have hinitial : a ++ sep.dropLast <+: a ++ sep ++ b :=
    ((prefix_append_right_inj a).mpr hlast).trans (prefix_append _ _)
  constructor
  · intro h
    apply prefix_of_prefix_length_le h hinitial
    have := length_pos_iff.mpr ha
    simp only [length_append, length_dropLast]
    omega
  · intro h
    exact h.trans hinitial

theorem not_infix_dropLast (hsep : sep ≠ []) : ¬ sep <:+: sep.dropLast := by
  intro h
  have hle := h.length_le
  have hpos := length_pos_iff.mpr hsep
  rw [length_dropLast] at hle
  omega

/-- Where a text shows a separator of two equal symbols in two places, the places overlap in one
symbol or lie apart. -/
theorem doubled_append_cases {x : α} {a' b' : List α}
    (h : a ++ [x, x] ++ b = a' ++ [x, x] ++ b') (hlt : a.length < a'.length) :
    (a' = a ++ [x] ∧ b = x :: b') ∨
      ∃ m, a' = a ++ [x, x] ++ m ∧ b = m ++ [x, x] ++ b' := by
  simp only [append_assoc] at h
  obtain ⟨r, rfl, hr⟩ | ⟨r, rfl, _⟩ := append_eq_append_iff.mp h
  · match r, hr with
    | [], _ => simp at hlt
    | [_], hr => grind
    | _ :: _ :: m, hr =>
      right
      exact ⟨m, by grind, by grind⟩
  · rw [length_append] at hlt
    omega

/-- At most one suffix passes a test exactly when any two that pass it are equal. -/
theorem countP_tails_le_one_iff (test : List α → Bool) (text : List α) :
    text.tails.countP test ≤ 1 ↔
      ∀ s s', s <:+ text → s' <:+ text → test s = true → test s' = true → s = s' := by
  induction text with
  | nil =>
    constructor
    · intro _ s s' hs hs' _ _
      rw [suffix_nil.mp hs, suffix_nil.mp hs']
    · intro _
      exact countP_le_length
  | cons c text ih =>
    rw [tails_cons, countP_cons]
    simp only [suffix_cons_iff]
    split_ifs with hc
    · -- the whole text passes, so no proper suffix may
      have hzero : text.tails.countP test + 1 ≤ 1 ↔ ∀ s, s <:+ text → ¬ test s = true := by
        rw [Nat.succ_le_succ_iff, Nat.le_zero, countP_eq_zero]
        simp only [mem_tails]
      rw [hzero]
      constructor
      · grind
      · intro h s hs htest
        have heq := h (c :: text) s (.inl rfl) (.inr hs) hc htest
        have hle := hs.length_le
        rw [← heq, length_cons] at hle
        omega
    · rw [Nat.add_zero, ih]
      grind

variable [DecidableEq α]

/-- The parts before and after the first occurrence of the separator. -/
def partition (sep : List α) : List α → Option (List α × List α)
  | [] => if sep = [] then some ([], []) else none
  | c :: cs =>
    if sep <+: c :: cs then some ([], (c :: cs).drop sep.length)
    else (partition sep cs).map fun parts => (c :: parts.1, parts.2)

theorem eq_append_of_partition (h : partition sep text = some (a, b)) :
    text = a ++ sep ++ b := by
  induction text generalizing a with
  | nil =>
    rw [partition] at h
    split_ifs at h with hsep
    simp_all
  | cons c cs ih =>
    rw [partition] at h
    split_ifs at h with hstarts
    · obtain ⟨rest, hrest⟩ := hstarts
      simp only [Option.some.injEq, Prod.mk.injEq] at h
      obtain ⟨rfl, rfl⟩ := h
      rw [← hrest]
      simp
    · obtain ⟨⟨a', b'⟩, hparts, heq⟩ := Option.map_eq_some_iff.mp h
      obtain ⟨rfl, rfl⟩ := Prod.mk.inj heq
      rw [ih hparts]
      simp

variable (sep a b) in
theorem partition_append_iff (hsep : sep ≠ []) :
    partition sep (a ++ sep ++ b) = some (a, b) ↔ ¬ sep <:+: a ++ sep.dropLast := by
  induction a with
  | nil =>
    have hcut : partition sep (sep ++ b) = some ([], b) := by
      obtain ⟨c, cs, rfl⟩ := exists_cons_of_ne_nil hsep
      rw [cons_append, partition, if_pos ⟨b, cons_append⟩]
      simp
    simp [hcut, not_infix_dropLast hsep]
  | cons c a ih =>
    have hstarts := isPrefix_append_iff sep (b := b) (cons_ne_nil c a)
    simp only [cons_append] at hstarts ⊢
    rw [partition, infix_cons_iff, ← hstarts]
    split_ifs with h
    · constructor
      · intro heq
        simp at heq
      · intro hnot
        exact absurd (Or.inl h) hnot
    · simp only [h, false_or, ← ih]
      constructor
      · intro hparts
        obtain ⟨⟨a', b'⟩, hparts, heq⟩ := Option.map_eq_some_iff.mp hparts
        simp_all
      · intro hparts
        rw [hparts, Option.map_some]

theorem partition_append (hsep : sep ≠ []) (h : ¬ sep <:+: a ++ sep.dropLast) :
    partition sep (a ++ sep ++ b) = some (a, b) :=
  (partition_append_iff sep a b hsep).mpr h

/-! ## The last occurrence -/

/-- The parts before and after the last occurrence of a symbol. -/
def rpartition (c : α) : List α → Option (List α × List α)
  | [] => none
  | x :: xs =>
    match rpartition c xs with
    | some (a, b) => some (x :: a, b)
    | none => if x = c then some ([], xs) else none

theorem rpartition_eq_none {c : α} : rpartition c text = none ↔ c ∉ text := by
  induction text with
  | nil => simp [rpartition]
  | cons x xs ih =>
    rw [rpartition]
    split
    · rename_i parts hparts
      have hmem : c ∈ xs := by
        by_contra h
        rw [ih.mpr h] at hparts
        cases hparts
      simp [hmem]
    · rename_i hnone
      rw [mem_cons, not_or, ← ih]
      split_ifs with hx
      · simp [hx]
      · simp [Ne.symm hx, hnone]

theorem rpartition_eq_some {c : α} :
    rpartition c text = some (a, b) ↔ text = a ++ c :: b ∧ c ∉ b := by
  induction text generalizing a b with
  | nil => simp [rpartition]
  | cons x xs ih =>
    rw [rpartition]
    split
    · -- the last occurrence is in the rest
      rename_i before after hparts
      have hmem : c ∈ xs := by
        rw [(ih.mp hparts).1]
        simp
      cases a with
      | nil => grind
      | cons y ys =>
        have hrest := @ih ys b
        rw [hparts] at hrest
        grind
    · rename_i hnone
      have hnot := rpartition_eq_none.mp hnone
      cases a with
      | nil => grind
      | cons y ys => grind

end AiPlatform.Foundation
