import Mathlib.Algebra.GroupWithZero.Nat
import Mathlib.Data.List.Basic

/-!
# Lists of records with distinct keys

A dictionary that keeps the order in which its keys were first written is a list of records with
distinct keys. `upsert` changes the record of a key or appends a new one.
-/
namespace AiPlatform.Foundation

open List

universe u v w

variable {α : Type u} {β : Type v} {κ : Type w} [DecidableEq κ]

/-- Change the records of a key, or append a record of it. -/
def upsert (key : α → κ) (k : κ) (f : α → α) (new : α) (l : List α) : List α :=
  if l.any (key · = k) then l.map fun x => if key x = k then f x else x else l ++ [new]

variable {key : α → κ} {k : κ} {f : α → α} {new : α} {l : List α}

theorem any_key : l.any (key · = k) = true ↔ k ∈ l.map key := by simp

theorem upsert_of_mem (h : k ∈ l.map key) :
    upsert key k f new l = l.map fun x => if key x = k then f x else x :=
  if_pos (any_key.mpr h)

theorem upsert_of_not_mem (h : k ∉ l.map key) : upsert key k f new l = l ++ [new] :=
  if_neg fun hany => h (any_key.mp hany)

/-- The appended record does not matter where the key is known. -/
theorem upsert_congr_new {new' : α} (h : k ∉ l.map key → new = new') :
    upsert key k f new l = upsert key k f new' l := by
  by_cases hk : k ∈ l.map key
  · rw [upsert_of_mem hk, upsert_of_mem hk]
  · rw [h hk]

theorem map_ite_of_not_mem (h : k ∉ l.map key) :
    (l.map fun x => if key x = k then f x else x) = l := by
  refine (map_congr_left fun x hx => ?_).trans (map_id l)
  exact if_neg fun (heq : key x = k) => h (heq ▸ mem_map_of_mem hx)

/-! ## Keys -/

theorem keys_map (hf : ∀ x, key (f x) = key x) :
    (l.map fun x => if key x = k then f x else x).map key = l.map key := by
  rw [map_map]
  refine map_congr_left fun x _ => ?_
  dsimp only [Function.comp_apply]
  split_ifs
  · exact hf x
  · rfl

theorem keys_upsert (hf : ∀ x, key (f x) = key x) (hnew : key new = k) :
    (upsert key k f new l).map key =
      if k ∈ l.map key then l.map key else l.map key ++ [k] := by
  split_ifs with h
  · rw [upsert_of_mem h, keys_map hf]
  · rw [upsert_of_not_mem h, map_append, map_singleton, hnew]

theorem mem_keys_upsert (hf : ∀ x, key (f x) = key x) (hnew : key new = k) :
    k ∈ (upsert key k f new l).map key := by
  rw [keys_upsert hf hnew]
  split_ifs with h
  · exact h
  · exact mem_append_right _ (mem_singleton_self k)

theorem nodup_keys_upsert (hl : (l.map key).Nodup) (hf : ∀ x, key (f x) = key x)
    (hnew : key new = k) : ((upsert key k f new l).map key).Nodup := by
  rw [keys_upsert hf hnew]
  split_ifs with h
  · exact hl
  · refine nodup_append.mpr ⟨hl, by simp, fun id hid last hlast heq => ?_⟩
    exact h (mem_singleton.mp hlast ▸ heq ▸ hid)

/-- A record with distinct keys is the one that is found under its key. -/
theorem find?_key (hl : (l.map key).Nodup) {x : α} (hx : x ∈ l) :
    l.find? (key · = key x) = some x := by
  induction l with
  | nil => cases hx
  | cons first l ih =>
    rw [map_cons, nodup_cons] at hl
    rw [find?_cons]
    rcases mem_cons.mp hx with rfl | hx
    · simp
    · have hne : key first ≠ key x := fun heq => hl.1 (heq ▸ mem_map_of_mem hx)
      simp only [hne, decide_false]
      exact ih hl.2 hx

theorem mem_upsert {x : α} (h : x ∈ upsert key k f new l) :
    x = new ∧ k ∉ l.map key ∨ (∃ y ∈ l, key y = k ∧ x = f y) ∨ x ∈ l ∧ key x ≠ k := by
  by_cases hk : k ∈ l.map key
  · rw [upsert_of_mem hk] at h
    obtain ⟨y, hy, rfl⟩ := mem_map.mp h
    split_ifs with heq
    · exact .inr (.inl ⟨y, hy, heq, rfl⟩)
    · exact .inr (.inr ⟨hy, heq⟩)
  · rw [upsert_of_not_mem hk] at h
    rcases mem_append.mp h with hx | hx
    · exact .inr (.inr ⟨hx, fun heq => hk (heq ▸ mem_map_of_mem hx)⟩)
    · exact .inl ⟨mem_singleton.mp hx, hk⟩

/-! ## Views and sums -/

section View

variable {key' : β → κ} {view : α → β} {f' : β → β} (hkey : ∀ x, key' (view x) = key x)
  (hf : ∀ x ∈ l, key x = k → view (f x) = f' (view x))

include hkey hf

/-- A view of the records that the change respects turns into the same change of the views. -/
theorem map_update :
    (l.map fun x => if key x = k then f x else x).map view =
      (l.map view).map fun v => if key' v = k then f' v else v := by
  rw [map_map, map_map]
  refine map_congr_left fun x hx => ?_
  dsimp only [Function.comp_apply]
  rw [hkey]
  split_ifs with heq
  · exact hf x hx heq
  · rfl

theorem map_upsert :
    (upsert key k f new l).map view = upsert key' k f' (view new) (l.map view) := by
  have hkeys : (l.map view).map key' = l.map key := by
    rw [map_map]
    exact map_congr_left fun x _ => hkey x
  by_cases h : k ∈ l.map key
  · rw [upsert_of_mem h, upsert_of_mem (hkeys ▸ h), map_update hkey hf]
  · rw [upsert_of_not_mem h, upsert_of_not_mem (hkeys ▸ h), map_append, map_singleton]

end View

/-- The records of some keys grow by what the changed record grows. -/
theorem sum_upsert (hl : (l.map key).Nodup) {size : α → ℕ} {n : ℕ} (P : κ → Bool)
    (hkey : ∀ x, key (f x) = key x) (hnew : key new = k) (hsize : ∀ x, size (f x) = size x + n)
    (hnewSize : size new = n) :
    (((upsert key k f new l).filter fun x => P (key x)).map size).sum =
      ((l.filter fun x => P (key x)).map size).sum + if P k then n else 0 := by
  by_cases hk : k ∈ l.map key
  · rw [upsert_of_mem hk]
    induction l with
    | nil => cases hk
    | cons first l ih =>
      rw [map_cons, nodup_cons] at hl
      by_cases hfirst : key first = k
      · have habsent : k ∉ l.map key := hfirst ▸ hl.1
        rw [map_cons, map_ite_of_not_mem habsent, if_pos hfirst]
        rw [filter_cons, filter_cons, hkey, hfirst]
        split_ifs
        · rw [map_cons, map_cons, sum_cons, sum_cons, hsize]
          omega
        · rfl
      · have hmem : k ∈ l.map key := (mem_cons.mp hk).resolve_left (Ne.symm hfirst)
        rw [map_cons, if_neg hfirst, filter_cons, filter_cons]
        have hrest := ih hl.2 hmem
        by_cases hfilter : P (key first) = true
        · rw [if_pos hfilter, if_pos hfilter, map_cons, map_cons, sum_cons,
            sum_cons, hrest, Nat.add_assoc]
        · rw [if_neg hfilter, if_neg hfilter, hrest]
  · rw [upsert_of_not_mem hk, filter_append, map_append, sum_append,
      filter_singleton, hnew]
    cases P k
    · rfl
    · simp [hnewSize]

end AiPlatform.Foundation
