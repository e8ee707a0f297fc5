import Mathlib.Data.List.Forall2

/-!
# Computations that may be refused

A check that raises is `ensure`; what a sequence of checks and steps that went through says is read
off with `bind_eq_ok` and `ensure_bind_eq_ok`, one step at a time.
-/
namespace AiPlatform.Foundation

open List

variable {ε α β : Type}

/-- `if not condition: raise refusal` -/
def ensure (condition : Prop) [Decidable condition] (refusal : ε) : Except ε Unit :=
  if condition then .ok () else .error refusal

/-- `if value is None: raise refusal` -/
def expect (value : Option α) (refusal : ε) : Except ε α :=
  match value with
  | some a => .ok a
  | none => .error refusal

variable {f : α → Except ε β} {b : β} {refusal : ε} {condition : Prop}

theorem bind_eq_ok {x : Except ε α} :
    (x >>= f) = .ok b ↔ ∃ a, x = .ok a ∧ f a = .ok b := by
  cases x with
  | error refusal => simp [bind, Except.bind]
  | ok a => simp [bind, Except.bind]

theorem bind_eq_error {x : Except ε α} :
    (x >>= f) = .error refusal ↔ x = .error refusal ∨ ∃ a, x = .ok a ∧ f a = .error refusal := by
  cases x with
  | error refusal' => simp [bind, Except.bind]
  | ok a => simp [bind, Except.bind]

theorem ok_bind (a : α) (f : α → Except ε β) : ((.ok a : Except ε α) >>= f) = f a := rfl

theorem ensure_bind_eq_ok [Decidable condition] {f : Unit → Except ε β} :
    (ensure condition refusal >>= f) = .ok b ↔ condition ∧ f () = .ok b := by
  unfold ensure
  split_ifs with h
  · simp [h, ok_bind]
  · simp [h, bind, Except.bind]

theorem expect_eq_ok {value : Option α} {a : α} :
    expect value refusal = .ok a ↔ value = some a := by
  cases value <;> simp [expect]

theorem expect_bind_eq_ok {value : Option α} :
    (expect value refusal >>= f) = .ok b ↔ ∃ a, value = some a ∧ f a = .ok b := by
  rw [bind_eq_ok]
  simp only [expect_eq_ok]

theorem ensure_eq_ok [Decidable condition] :
    ensure condition refusal = .ok () ↔ condition := by
  unfold ensure
  split_ifs with h <;> simp [h]

theorem ensure_of [Decidable condition] (h : condition) (refusal : ε) :
    ensure condition refusal = .ok () := by
  rw [ensure, if_pos h]

theorem mapM_eq_ok {as : List α} {bs : List β} :
    as.mapM f = .ok bs ↔ List.Forall₂ (fun a b => f a = .ok b) as bs := by
  induction as generalizing bs with
  | nil => simp [pure, Except.pure, eq_comm]
  | cons a as ih =>
    rw [mapM_cons, bind_eq_ok, forall₂_cons_left_iff]
    constructor
    · rintro ⟨b, hb, h⟩
      obtain ⟨rest, hrest, h⟩ := bind_eq_ok.mp h
      exact ⟨b, rest, hb, ih.mp hrest, (Except.ok.inj h).symm⟩
    · rintro ⟨b, rest, hb, hrest, rfl⟩
      exact ⟨b, hb, bind_eq_ok.mpr ⟨rest, ih.mpr hrest, rfl⟩⟩

theorem mapM_eq_ok_iff_map {as : List α} {bs : List β} :
    as.mapM f = .ok bs ↔ as.map f = bs.map .ok := by
  rw [mapM_eq_ok, ← forall₂_eq_eq_eq, forall₂_map_left_iff, forall₂_map_right_iff]

theorem map_of_mapM_eq_ok {γ : Type} {as : List α} {bs : List β} {kept : β → γ} {known : α → γ}
    (h : as.mapM f = .ok bs) (hkept : ∀ a b, f a = .ok b → kept b = known a) :
    bs.map kept = as.map known := by
  have hall := mapM_eq_ok.mp h
  clear h
  induction hall with
  | nil => rfl
  | cons hb _ ih => rw [map_cons, map_cons, hkept _ _ hb, ih]

theorem exists_mapM_eq_ok {as : List α} (h : ∀ a ∈ as, ∃ b, f a = .ok b) :
    ∃ bs, as.mapM f = .ok bs := by
  induction as with
  | nil => exact ⟨[], rfl⟩
  | cons a as ih =>
    obtain ⟨b, hb⟩ := h a mem_cons_self
    obtain ⟨bs, hbs⟩ := ih fun a ha => h a (mem_cons_of_mem _ ha)
    exact ⟨b :: bs, mapM_eq_ok.mpr (.cons hb (mapM_eq_ok.mp hbs))⟩

/-- When what a reader returns is written back and read again, each by its position. -/
theorem zipIdx_mapM_again {f : α × ℕ → Except ε β} {encode : β → α} {P : α → Prop}
    {as : List α} {bs : List β} {k : ℕ} (h : (as.zipIdx k).mapM f = .ok bs)
    (hagain : ∀ i a b, i < k + as.length → f (a, i) = .ok b → (f (encode b, i) = .ok b ↔ P a)) :
    ((bs.map encode).zipIdx k).mapM f = .ok bs ↔ ∀ a ∈ as, P a := by
  induction as generalizing bs k with
  | nil =>
    obtain rfl := Except.ok.inj h
    simp [pure, Except.pure]
  | cons a as ih =>
    rw [zipIdx_cons, mapM_eq_ok, forall₂_cons_left_iff] at h
    obtain ⟨b, bs, hb, hbs, rfl⟩ := h
    have hrest := ih (mapM_eq_ok.mpr hbs) fun i a b hi => hagain i a b (by grind)
    rw [map_cons, zipIdx_cons, mapM_eq_ok, forall₂_cons, ← mapM_eq_ok, hrest,
      hagain k a b (by simp) hb, forall_mem_cons]

/-- Values that are written by their position are read by the same one. -/
theorem zipIdx_map_zipIdx (as : List α) (write : α × ℕ → β) (k : ℕ) :
    ((as.zipIdx k).map write).zipIdx k = (as.zipIdx k).map fun a => (write a, a.2) := by
  induction as generalizing k with
  | nil => rfl
  | cons a as ih => simp [zipIdx_cons, ih]

end AiPlatform.Foundation
