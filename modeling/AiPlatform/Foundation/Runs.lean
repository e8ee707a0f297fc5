import Mathlib.Data.List.Basic

/-!
# Deterministic machines and their runs

A machine takes one labelled step at a time. Whatever a concurrent system leaves open (which
party moves, what a clock reads, what a client asks for) is part of the label, so a list of
labels is one interleaving and a statement about every list is a statement about every
interleaving. `Meets` says that a relation between a state and the label taken there holds at
every step of a run; it is used for assumptions and for conclusions about steps.
-/
namespace AiPlatform.Foundation

universe u v

structure Machine (σ : Type u) (ℓ : Type v) where
  start : σ
  step : σ → ℓ → σ

namespace Machine

variable {σ : Type u} {ℓ : Type v} (m : Machine σ ℓ)

def runFrom (s : σ) (labels : List ℓ) : σ := labels.foldl m.step s

def run (labels : List ℓ) : σ := m.runFrom m.start labels

/-- Every step of the run from `s` satisfies `C` in the state it is taken from. -/
def Meets (C : σ → ℓ → Prop) : σ → List ℓ → Prop
  | _, [] => True
  | s, l :: ls => C s l ∧ Meets C (m.step s l) ls

instance decidableMeets (C : σ → ℓ → Prop) [∀ s l, Decidable (C s l)] :
    ∀ (s : σ) (ls : List ℓ), Decidable (m.Meets C s ls)
  | _, [] => inferInstanceAs (Decidable True)
  | s, l :: ls =>
    have := decidableMeets C (m.step s l) ls
    inferInstanceAs (Decidable (C s l ∧ m.Meets C (m.step s l) ls))

@[simp] theorem runFrom_nil (s : σ) : m.runFrom s [] = s := rfl

@[simp] theorem runFrom_cons (s : σ) (l : ℓ) (ls : List ℓ) :
    m.runFrom s (l :: ls) = m.runFrom (m.step s l) ls := rfl

theorem run_append (ls later : List ℓ) : m.run (ls ++ later) = m.runFrom (m.run ls) later :=
  List.foldl_append

variable {m}

variable {s : σ} {ls : List ℓ} {C : σ → ℓ → Prop} {I : σ → Prop}

variable {D : σ → ℓ → Prop}

theorem Meets.mono (h : ∀ s l, C s l → D s l) (hC : m.Meets C s ls) :
    m.Meets D s ls := by
  induction ls generalizing s with
  | nil => trivial
  | cons l ls ih => exact ⟨h s l hC.1, ih hC.2⟩

theorem Meets.and (hC : m.Meets C s ls) (hD : m.Meets D s ls) :
    m.Meets (fun s l => C s l ∧ D s l) s ls := by
  induction ls generalizing s with
  | nil => trivial
  | cons l ls ih => exact ⟨⟨hC.1, hD.1⟩, ih hC.2 hD.2⟩

theorem meets_of_forall {P : ℓ → Prop} (h : ∀ l ∈ ls, P l) : m.Meets (fun _ => P) s ls := by
  induction ls generalizing s with
  | nil => trivial
  | cons l ls ih =>
    exact ⟨h l List.mem_cons_self, ih fun l hl => h l (List.mem_cons_of_mem _ hl)⟩

theorem meets_append {later : List ℓ} :
    m.Meets C s (ls ++ later) ↔ m.Meets C s ls ∧ m.Meets C (m.runFrom s ls) later := by
  induction ls generalizing s with
  | nil => simp [Meets]
  | cons l ls ih => simp [Meets, ih, and_assoc]

/-- An invariant of the steps that meet `C` holds wherever such a run ends. -/
theorem invariant_runFrom (preserved : ∀ s l, I s → C s l → I (m.step s l)) (hs : I s)
    (hC : m.Meets C s ls) : I (m.runFrom s ls) := by
  induction ls generalizing s with
  | nil => exact hs
  | cons l ls ih => exact ih (preserved s l hs hC.1) hC.2

theorem invariant_run (initial : I m.start) (preserved : ∀ s l, I s → C s l → I (m.step s l))
    (hC : m.Meets C m.start ls) : I (m.run ls) :=
  invariant_runFrom preserved initial hC

/-- An invariant of every step holds in every state a run reaches. -/
theorem invariant_reachable (initial : I m.start) (preserved : ∀ s l, I s → I (m.step s l))
    (ls : List ℓ) : I (m.run ls) :=
  invariant_run initial (fun s l hs _ => preserved s l hs) (meets_of_forall fun _ _ => trivial)

/-- What an invariant guarantees about one step holds of every step of a run. -/
theorem meets_of_invariant (preserved : ∀ s l, I s → C s l → I (m.step s l))
    (guaranteed : ∀ s l, I s → C s l → D s l) (hs : I s) (hC : m.Meets C s ls) :
    m.Meets D s ls := by
  induction ls generalizing s with
  | nil => trivial
  | cons l ls ih =>
    exact ⟨guaranteed s l hs hC.1, ih (preserved s l hs hC.1) hC.2⟩

end Machine

end AiPlatform.Foundation
